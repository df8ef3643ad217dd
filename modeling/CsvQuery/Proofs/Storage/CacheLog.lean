/-
  CsvQuery.Proofs.Storage.CacheLog — a cache against the log of all that was put into it.

  Whatever is done to a cache, what it gives to keys can be written down: each value with its key, and
  whether the key came in new with it.  The keys of the cache are the end of the log of the keys that came
  in new, as many as there is room for, and the value of a key is the last one written down for it since
  then.  A key that left and came back stands in the log twice, and only its last place counts.

  Main results:
    • `IsEndOfLog.step`, `IsEndOfLog.run` — the cache is the end of its log, step and run
    • `isFirstInFirstOut` — what the operations on a cache without repeated keys answer and leave
    • `cache_refines_log` — both, after any operations on a new cache of any size
-/
import CsvQuery.Proofs.Storage.FifoCache

namespace CsvQuery.FifoCache

variable {κ ν ε : Type} [DecidableEq κ] {cache : FifoCache κ ν} {key : κ} {value : ν}

/-! ## §1. Operations and what they write -/

/-- What can be done to a cache. -/
inductive Operation (κ ν ε : Type) where
  | insert (key : κ) (value : ν)
  | get (key : κ)
  | contains (key : κ)
  | getOrLoad (key : κ) (load : κ → Except ε ν)

/-- A value that was given to a key. -/
structure Write (κ ν : Type) where
  key : κ
  value : ν
  /-- Whether the key was absent until then. -/
  isNew : Bool

/-- The cache after an operation. -/
def step (cache : FifoCache κ ν) : Operation κ ν ε → FifoCache κ ν
  | .insert key value => (cache.insert key value).2
  | .get _ => cache
  | .contains _ => cache
  | .getOrLoad key load => (cache.getOrLoad key load).2

/-- The cache after a list of operations. -/
def run (cache : FifoCache κ ν) (operations : List (Operation κ ν ε)) : FifoCache κ ν :=
  operations.foldl step cache

/-- What an operation gives to a key: the value to be inserted, or the one loaded for an absent key. -/
def write? (cache : FifoCache κ ν) : Operation κ ν ε → Option (Write κ ν)
  | .insert key value => some ⟨key, value, !cache.contains key⟩
  | .get _ => none
  | .contains _ => none
  | .getOrLoad key load =>
    match cache.get? key, load key with
    | none, .ok value => some ⟨key, value, true⟩
    | _, _ => none

/-- All that a list of operations gives to keys, oldest first. -/
def writes (cache : FifoCache κ ν) : List (Operation κ ν ε) → List (Write κ ν)
  | [] => []
  | operation :: operations =>
    (cache.write? operation).toList ++ (cache.step operation).writes operations

/-- The log of the keys that came in new, oldest first. -/
def newKeys (writes : List (Write κ ν)) : List κ := (writes.filter Write.isNew).map Write.key

/-- The values given to a key, oldest first. -/
def valuesOf (key : κ) (writes : List (Write κ ν)) : List ν :=
  (writes.filter fun write => write.key = key).map Write.value

/-- The value is the last one given to the key since the key last came in new. -/
def IsLastGiven (writes : List (Write κ ν)) (key : κ) (value : ν) : Prop :=
  ∃ before first later, writes = before ++ ⟨key, first, true⟩ :: later ∧
    (∀ write ∈ later, write.key = key → write.isNew = false) ∧
    (valuesOf key later).getLastD first = value

/-! ## §2. The last value -/

variable {writes : List (Write κ ν)}

/-- A value that is written under a key is the last one under it. -/
theorem valuesOf_append_self (isNew : Bool) :
    valuesOf key (writes ++ [⟨key, value, isNew⟩]) = valuesOf key writes ++ [value] := by
  simp [valuesOf]

theorem valuesOf_append_of_ne {write : Write κ ν} (h : write.key ≠ key) :
    valuesOf key (writes ++ [write]) = valuesOf key writes := by
  simp [valuesOf, h]

/-- The value that a key comes in with is the last one given for it. -/
theorem isLastGiven_new : IsLastGiven (writes ++ [⟨key, value, true⟩]) key value :=
  ⟨writes, value, [], rfl, nofun, rfl⟩

/-- A value given to a key that is there becomes its last one. -/
theorem IsLastGiven.append_same {old : ν} (h : IsLastGiven writes key old) :
    IsLastGiven (writes ++ [⟨key, value, false⟩]) key value := by
  obtain ⟨before, first, later, heq, hlater, -⟩ := h
  refine ⟨before, first, later ++ [⟨key, value, false⟩], by rw [heq]; simp, ?_, ?_⟩
  · intro write hwrite hkey
    rcases List.mem_append.mp hwrite with hold | hnew
    · exact hlater write hold hkey
    · rw [List.mem_singleton.mp hnew]
  · rw [valuesOf_append_self, List.getLastD_concat]

/-- What is given to other keys does not count. -/
theorem IsLastGiven.append_other (h : IsLastGiven writes key value) {write : Write κ ν}
    (hne : write.key ≠ key) : IsLastGiven (writes ++ [write]) key value := by
  obtain ⟨before, first, later, heq, hlater, hlast⟩ := h
  refine ⟨before, first, later ++ [write], by rw [heq]; simp, ?_, ?_⟩
  · intro other hother hkey
    rcases List.mem_append.mp hother with hold | hnew
    · exact hlater other hold hkey
    · rw [List.mem_singleton.mp hnew] at hkey
      exact absurd hkey hne
  · rw [valuesOf_append_of_ne hne, hlast]

/-! ## §3. The cache is the end of its log -/

/-- The cache holds the keys at the end of the log, as many as there is room for and each once, with the
values last given to them. -/
structure IsEndOfLog (capacity : Nat) (writes : List (Write κ ν)) (cache : FifoCache κ ν) : Prop where
  capacity_eq : cache.capacity = capacity
  nodup : cache.keys.Nodup
  keys_eq : cache.keys = (newKeys writes).rtake capacity
  given : ∀ entry ∈ cache.entries, IsLastGiven writes entry.1 entry.2

namespace IsEndOfLog

variable {capacity : Nat}

/-- There are as many entries as new keys, but no more than there is room for. -/
theorem size_eq (h : IsEndOfLog capacity writes cache) :
    cache.size = min capacity (newKeys writes).length := by
  have hlength : cache.size = cache.keys.length := (List.length_map _).symm
  rw [hlength, h.keys_eq]
  unfold List.rtake
  rw [List.length_drop]
  omega

theorem length_le (h : IsEndOfLog capacity writes cache) :
    cache.entries.length ≤ cache.capacity := by
  have hsize : cache.entries.length = min capacity (newKeys writes).length := h.size_eq
  rw [hsize, h.capacity_eq]
  exact Nat.min_le_left _ _

theorem empty (capacity : Nat) : IsEndOfLog capacity [] (empty capacity : FifoCache κ ν) :=
  ⟨rfl, List.nodup_nil, (List.rtake_nil capacity).symm, nofun⟩

/-- A new key goes to the end of the log, and the cache stays its end. -/
theorem insert_new (h : IsEndOfLog capacity writes cache) (habsent : cache.get? key = none)
    (value : ν) :
    IsEndOfLog capacity (writes ++ [⟨key, value, true⟩]) (cache.insert key value).2 := by
  refine ⟨capacity_insert.trans h.capacity_eq, nodup_keys_insert h.nodup h.length_le habsent, ?_, ?_⟩
  · have hlog : newKeys (writes ++ [⟨key, value, true⟩]) = newKeys writes ++ [key] := by
      simp [newKeys]
    calc (cache.insert key value).2.keys
        = ((cache.entries ++ [(key, value)]).rtake capacity).map Prod.fst := by
          rw [keys, entries_insert h.length_le habsent, h.capacity_eq]
      _ = (cache.keys ++ [key]).rtake capacity := by
          unfold List.rtake keys
          rw [List.map_drop, List.map_append, List.length_append, List.length_append,
            List.length_map]
          rfl
      _ = (newKeys (writes ++ [⟨key, value, true⟩])).rtake capacity := by
          rw [h.keys_eq, rtake_append_singleton, hlog]
  · intro entry hentry
    rcases mem_insert habsent hentry with hnew | hold
    · rw [hnew]
      exact isLastGiven_new
    · -- the other entries have other keys
      have hne : key ≠ entry.1 := by
        intro heq
        rw [get?_eq_none_iff, heq] at habsent
        exact habsent (List.mem_map_of_mem hold)
      exact (h.given entry hold).append_other hne

/-- A key that is present stays where it is in the log, and only its value changes. -/
theorem insert_again (h : IsEndOfLog capacity writes cache) {old : ν}
    (hpresent : cache.get? key = some old) (value : ν) :
    IsEndOfLog capacity (writes ++ [⟨key, value, false⟩]) (cache.insert key value).2 := by
  obtain ⟨before, behind, heq, hinsert⟩ := insert_of_present h.length_le hpresent value
  have hkeys : (cache.insert key value).2.keys = cache.keys := by
    rw [hinsert]
    unfold keys
    rw [heq]
    simp
  refine ⟨capacity_insert.trans h.capacity_eq, hkeys ▸ h.nodup, ?_, ?_⟩
  · have hlog : newKeys (writes ++ [⟨key, value, false⟩]) = newKeys writes := by
      simp [newKeys]
    rw [hkeys, hlog, h.keys_eq]
  · intro entry hentry
    by_cases hkey : key = entry.1
    · -- the key stands once, and there it has the new value
      have hmem : (key, value) ∈ (cache.insert key value).2.entries := by
        rw [hinsert]
        simp
      have hvalue : entry.2 = value := by
        have hfound := (get?_eq_some_iff (hkeys ▸ h.nodup)).mpr hentry
        rw [← hkey, (get?_eq_some_iff (hkeys ▸ h.nodup)).mpr hmem] at hfound
        exact (Option.some.inj hfound).symm
      have hold := h.given _ (mem_entries_of_get? hpresent)
      rw [← hkey, hvalue]
      exact hold.append_same
    · have hold : entry ∈ cache.entries := by
        rw [hinsert] at hentry
        rw [heq]
        simp only [List.mem_append, List.mem_cons] at hentry ⊢
        rcases hentry with hbefore | hhere | hbehind
        · exact .inl hbefore
        · rw [hhere] at hkey
          exact absurd rfl hkey
        · exact .inr (.inr hbehind)
      exact (h.given entry hold).append_other hkey

/-- An operation adds to the log what it gives to a key. -/
theorem step (h : IsEndOfLog capacity writes cache) (operation : Operation κ ν ε) :
    IsEndOfLog capacity (writes ++ (cache.write? operation).toList) (cache.step operation) := by
  have hsame : IsEndOfLog capacity (writes ++ []) cache := by
    rw [List.append_nil]
    exact h
  cases operation with
  | get key => exact hsame
  | contains key => exact hsame
  | insert key value =>
    show IsEndOfLog capacity (writes ++ [⟨key, value, !cache.contains key⟩]) _
    unfold FifoCache.contains
    cases hfound : cache.get? key with
    | none => exact h.insert_new hfound value
    | some old => exact h.insert_again hfound value
  | getOrLoad key load =>
    unfold FifoCache.write? FifoCache.step getOrLoad
    dsimp only
    cases hfound : cache.get? key with
    | some value => exact hsame
    | none =>
      cases load key with
      | error cause => exact hsame
      | ok value => exact h.insert_new hfound value

/-- Operations add to the log what they write. -/
theorem run (h : IsEndOfLog capacity writes cache) (operations : List (Operation κ ν ε)) :
    IsEndOfLog capacity (writes ++ cache.writes operations) (cache.run operations) := by
  -- the log grows by what the first operation writes, and with it the rest starts
  induction operations generalizing writes cache with
  | nil =>
    show IsEndOfLog capacity (writes ++ []) cache
    rw [List.append_nil]
    exact h
  | cons operation operations ih =>
    show IsEndOfLog capacity (writes ++ (_ ++ (cache.step operation).writes operations)) _
    rw [← List.append_assoc]
    exact ih (h.step operation)

end IsEndOfLog

/-! ## §4. What the operations answer -/

/-- The operations on a cache read what it holds, evict the oldest entry when a new key comes into a full
cache, and load only what is absent. -/
structure IsFirstInFirstOut (ε : Type) (cache : FifoCache κ ν) : Prop where
  contains_iff : ∀ key, cache.contains key = true ↔ key ∈ cache.keys
  get?_iff : ∀ key value, cache.get? key = some value ↔ (key, value) ∈ cache.entries
  /-- The oldest entry leaves, which is the new one where no other is there. -/
  evicted : ∀ key value, (cache.insert key value).1
    = if key ∉ cache.keys ∧ cache.size = cache.capacity then (cache.entries ++ [(key, value)]).head?
      else none
  /-- A key that is present keeps its place, and only its value changes. -/
  renewed : ∀ key value, key ∈ cache.keys → ∃ before old behind,
    cache.entries = before ++ (key, old) :: behind ∧
      cache.insert key value = (none, { cache with entries := before ++ (key, value) :: behind })
  /-- A load is tried for a key that is absent, and for no other. -/
  tried_iff : ∀ key (load : κ → Except ε ν),
    (cache.getOrLoad key load).1.tried = true ↔ key ∉ cache.keys
  /-- What would be loaded for a key that is present is of no account. -/
  hit : ∀ key value, cache.get? key = some value →
    ∀ load : κ → Except ε ν, cache.getOrLoad key load = (.hit value, cache)
  loaded : ∀ key (load : κ → Except ε ν) value, key ∉ cache.keys → load key = .ok value →
    cache.getOrLoad key load = (.loaded value, (cache.insert key value).2)
  failed : ∀ key (load : κ → Except ε ν) cause, key ∉ cache.keys → load key = .error cause →
    cache.getOrLoad key load = (.failed cause, cache)

theorem exists_get?_of_mem (h : key ∈ cache.keys) : ∃ value, cache.get? key = some value := by
  cases hfound : cache.get? key with
  | none => exact absurd h (get?_eq_none_iff.mp hfound)
  | some value => exact ⟨value, rfl⟩

/-- A key that is present is not loaded. -/
theorem getOrLoad_of_present (hpresent : cache.get? key = some value) (load : κ → Except ε ν) :
    cache.getOrLoad key load = (.hit value, cache) := by
  unfold getOrLoad
  rw [hpresent]

/-- A key that is absent is loaded, and inserted if that succeeds. -/
theorem getOrLoad_of_absent (habsent : cache.get? key = none) (load : κ → Except ε ν) :
    cache.getOrLoad key load
      = match load key with
        | .ok value => (.loaded value, (cache.insert key value).2)
        | .error cause => (.failed cause, cache) := by
  unfold getOrLoad
  cases load key <;> rw [habsent]

/-- All this takes is that no key stands twice and the room is not exceeded. -/
theorem isFirstInFirstOut (hkeys : cache.keys.Nodup)
    (hroom : cache.entries.length ≤ cache.capacity) : IsFirstInFirstOut ε cache where
  contains_iff key := by
    unfold contains
    rw [Option.isSome_iff_ne_none, ne_eq, get?_eq_none_iff, not_not]
  get?_iff key value := get?_eq_some_iff hkeys
  evicted key value := by
    by_cases hmem : key ∈ cache.keys
    · obtain ⟨old, hfound⟩ := exists_get?_of_mem hmem
      obtain ⟨before, behind, -, hinsert⟩ := insert_of_present hroom hfound value
      rw [hinsert, if_neg (fun hboth => hboth.1 hmem)]
    · rw [evicted_of_absent hroom (get?_eq_none_iff.mpr hmem)]
      simp only [hmem, not_false_eq_true, true_and]
  renewed key value hmem := by
    obtain ⟨old, hfound⟩ := exists_get?_of_mem hmem
    obtain ⟨before, behind, heq, hinsert⟩ := insert_of_present hroom hfound value
    exact ⟨before, old, behind, heq, hinsert⟩
  tried_iff key load := by
    by_cases hmem : key ∈ cache.keys
    · obtain ⟨old, hfound⟩ := exists_get?_of_mem hmem
      rw [getOrLoad_of_present hfound]
      simp [Loaded.tried, hmem]
    · rw [getOrLoad_of_absent (get?_eq_none_iff.mpr hmem)]
      cases load key <;> simp [Loaded.tried, hmem]
  hit key value hfound load := getOrLoad_of_present hfound load
  loaded key load value hmem hload := by
    rw [getOrLoad_of_absent (get?_eq_none_iff.mpr hmem), hload]
  failed key load cause hmem hload := by
    rw [getOrLoad_of_absent (get?_eq_none_iff.mpr hmem), hload]

/-- After any operations on a new cache, no key stands in it twice, it holds no more than it has room for,
and its keys, oldest first, are the last of the keys that came in new, as many as there is room for.  Each
has the value last given to it since then.  The next operation evicts the oldest entry if it brings a new
key into a full cache and nothing otherwise, changes only the value of a key that is present, and loads
exactly what is absent; a load that fails changes nothing. -/
theorem cache_refines_log (capacity : Nat) (operations : List (Operation κ ν ε)) :
    let cache : FifoCache κ ν := (empty capacity).run operations
    let writes : List (Write κ ν) := (empty capacity).writes operations
    cache.capacity = capacity ∧
    cache.keys.Nodup ∧
    cache.size ≤ capacity ∧
    cache.keys = (newKeys writes).rtake capacity ∧
    cache.size = min capacity (newKeys writes).length ∧
    (∀ key value, cache.get? key = some value → IsLastGiven writes key value) ∧
    IsFirstInFirstOut ε cache := by
  intro cache writes
  have hlog : IsEndOfLog capacity writes cache := (IsEndOfLog.empty capacity).run operations
  have hsize := hlog.size_eq
  refine ⟨hlog.capacity_eq, hlog.nodup, by omega, hlog.keys_eq, hsize, ?_,
    isFirstInFirstOut hlog.nodup hlog.length_le⟩
  intro key value hfound
  exact hlog.given _ (mem_entries_of_get? hfound)

/-- A key that was read stays the oldest one, and leaves first. -/
example : let operations : List (Operation String Nat Unit) :=
      [.insert "a" 1, .insert "b" 2, .getOrLoad "a" fun _ => .error ()]
    (((empty 2).run operations).insert "c" 3).1 = some ("a", 1) := by
  decide +kernel

end CsvQuery.FifoCache
