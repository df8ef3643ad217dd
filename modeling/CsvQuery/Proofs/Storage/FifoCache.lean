/-
  CsvQuery.Proofs.Storage.FifoCache — which caches can be made, and what they hold after a new key.

  An entry that comes in new stands behind all others, and the cache keeps as many entries from the end
  as it has room for.  So what it holds is the end of the list of all entries that ever came in new.

  Main results:
    • `FifoCache.withCapacity_eq_ok_iff` — the room that a cache can be made with
    • `FifoCache.get?_eq_some_iff` — reading finds the entries, where no key stands twice
    • `FifoCache.entries_insert` — a new entry goes last and the oldest leaves if there is no room
    • `FifoCache.insert_of_present` — a key that is present keeps its place, and nothing leaves
-/
import Mathlib.Data.List.DropRight
import CsvQuery.Storage.FifoCache

namespace CsvQuery

/-! ## §1. The end of a list -/

/-- Only the end of a list is needed for the end of a longer one. -/
theorem rtake_append_singleton {α : Type} (list : List α) (x : α) (n : Nat) :
    (list.rtake n ++ [x]).rtake n = (list ++ [x]).rtake n := by
  cases n with
  | zero => rw [List.rtake_zero, List.rtake_zero]
  | succ n =>
    rw [List.rtake_concat_succ, List.rtake_concat_succ]
    congr 1
    unfold List.rtake
    rw [List.drop_drop, List.length_drop]
    congr 1
    omega

theorem length_rtake_le {α : Type} (list : List α) (n : Nat) : (list.rtake n).length ≤ n := by
  unfold List.rtake
  rw [List.length_drop]
  omega

namespace FifoCache

variable {κ ν ε : Type} {cache : FifoCache κ ν} {key : κ} {value : ν}

/-! ## §2. Making a cache -/

/-- A cache is made exactly when its room is below the bound, and has no entries then. -/
theorem withCapacity_eq_ok_iff {capacity : Nat} :
    withCapacity capacity = .ok cache ↔ capacity < capacityBound ∧ cache = empty capacity := by
  have hbound : capacityBound + 1 < UInt64.size := by decide
  unfold withCapacity
  split
  next hword => exact iff_of_false nofun (by omega)
  next =>
    split
    next hmuch => exact iff_of_false nofun (by omega)
    next hroom =>
      rw [Except.ok.injEq]
      exact ⟨fun h => ⟨by omega, h.symm⟩, fun h => h.2.symm⟩

/-! ## §3. Reading -/

variable [DecidableEq κ]

theorem mem_entries_of_get? (h : cache.get? key = some value) : (key, value) ∈ cache.entries := by
  obtain ⟨before, behind, heq, -⟩ := List.lookup_eq_some_iff.mp h
  rw [heq]
  exact List.mem_append_right _ List.mem_cons_self

/-- Reading finds nothing exactly under keys that are absent. -/
theorem get?_eq_none_iff : cache.get? key = none ↔ key ∉ cache.keys := by
  unfold get? keys
  rw [List.lookup_eq_none_iff, List.mem_map]
  constructor
  · intro h hmem
    obtain ⟨entry, hentry, hkey⟩ := hmem
    have hne := h entry hentry
    rw [hkey, bne_self_eq_false] at hne
    cases hne
  · intro h entry hentry
    rw [bne_iff_ne]
    intro hkey
    exact h ⟨entry, hentry, hkey.symm⟩

/-- Reading finds the entries, where no key stands twice. -/
theorem get?_eq_some_iff (hkeys : cache.keys.Nodup) :
    cache.get? key = some value ↔ (key, value) ∈ cache.entries := by
  refine ⟨mem_entries_of_get?, fun hmem => ?_⟩
  obtain ⟨before, behind, heq⟩ := List.mem_iff_append.mp hmem
  refine List.lookup_eq_some_iff.mpr ⟨before, behind, heq, fun entry hentry => ?_⟩
  -- an entry before it with its key would be a second one
  rw [bne_iff_ne]
  intro hkey
  unfold keys at hkeys
  rw [heq, List.map_append, List.map_cons, List.nodup_append] at hkeys
  exact hkeys.2.2 entry.1 (List.mem_map_of_mem hentry) key List.mem_cons_self hkey.symm

/-! ## §4. A new key -/

/-- A new key goes last. -/
theorem put_of_absent {entries : List (κ × ν)} (h : key ∉ entries.map Prod.fst) :
    put key value entries = entries ++ [(key, value)] := by
  induction entries with
  | nil => rfl
  | cons entry rest ih =>
    rw [List.map_cons, List.mem_cons, not_or] at h
    show (if entry.1 = key then _ else entry :: put key value rest) = _
    rw [if_neg (Ne.symm h.1), ih h.2]
    rfl

theorem capacity_insert : (cache.insert key value).2.capacity = cache.capacity := by
  unfold insert
  dsimp only
  split <;> rfl

/-- A new entry goes last, and the oldest one leaves if there is no room. -/
theorem entries_insert (hroom : cache.entries.length ≤ cache.capacity)
    (habsent : cache.get? key = none) :
    (cache.insert key value).2.entries
      = (cache.entries ++ [(key, value)]).rtake cache.capacity := by
  unfold insert
  dsimp only
  rw [put_of_absent (get?_eq_none_iff.mp habsent)]
  have hlength : (cache.entries ++ [(key, value)]).length = cache.entries.length + 1 :=
    List.length_append
  unfold List.rtake
  split
  next hfull =>
    have hone : (cache.entries ++ [(key, value)]).length - cache.capacity = 1 := by omega
    rw [hone]
    exact List.drop_one.symm
  next hfree =>
    have hzero : (cache.entries ++ [(key, value)]).length - cache.capacity = 0 := by omega
    rw [hzero]
    rfl

/-- After a new key there are no entries but the new one and old ones. -/
theorem mem_insert {entry : κ × ν} (habsent : cache.get? key = none)
    (h : entry ∈ (cache.insert key value).2.entries) :
    entry = (key, value) ∨ entry ∈ cache.entries := by
  have hmem : entry ∈ cache.entries ++ [(key, value)] := by
    unfold insert at h
    dsimp only at h
    rw [put_of_absent (get?_eq_none_iff.mp habsent)] at h
    split at h
    next => exact List.mem_of_mem_tail h
    next => exact h
  rcases List.mem_append.mp hmem with hold | hnew
  · exact .inr hold
  · exact .inl (List.mem_singleton.mp hnew)

/-- After a new key still no key stands twice. -/
theorem nodup_keys_insert (hkeys : cache.keys.Nodup) (hroom : cache.entries.length ≤ cache.capacity)
    (habsent : cache.get? key = none) : (cache.insert key value).2.keys.Nodup := by
  unfold keys
  rw [entries_insert hroom habsent]
  refine List.Sublist.nodup ((List.drop_sublist _ _).map Prod.fst) ?_
  rw [List.map_append, List.nodup_append]
  refine ⟨hkeys, by simp, fun k hk k' hk' heq => ?_⟩
  rw [List.map_singleton, List.mem_singleton] at hk'
  rw [heq, hk'] at hk
  exact get?_eq_none_iff.mp habsent hk

/-- The entry that leaves is the oldest one: of all that were there or, if there were none, the new one. -/
theorem evicted_of_absent (hroom : cache.entries.length ≤ cache.capacity)
    (habsent : cache.get? key = none) :
    (cache.insert key value).1
      = if cache.size = cache.capacity then (cache.entries ++ [(key, value)]).head? else none := by
  have hlength : (cache.entries ++ [(key, value)]).length = cache.size + 1 := List.length_append
  have hsize : cache.size ≤ cache.capacity := hroom
  unfold insert
  dsimp only
  rw [put_of_absent (get?_eq_none_iff.mp habsent)]
  split
  next hfull => rw [if_pos (by omega)]
  next hfree => rw [if_neg (by omega)]

/-! ## §5. A key that is present -/

/-- The value of a key is replaced where the key stands. -/
theorem put_append_cons {before behind : List (κ × ν)} {old : ν} (h : key ∉ before.map Prod.fst) :
    put key value (before ++ (key, old) :: behind) = before ++ (key, value) :: behind := by
  induction before with
  | nil => exact if_pos rfl
  | cons entry rest ih =>
    rw [List.map_cons, List.mem_cons, not_or] at h
    show (if entry.1 = key then _ else entry :: put key value (rest ++ (key, old) :: behind)) = _
    rw [if_neg (Ne.symm h.1), ih h.2]
    rfl

/-- A key that is present gets the value where it stands, and no entry leaves. -/
theorem insert_of_present {old : ν} (hroom : cache.entries.length ≤ cache.capacity)
    (hpresent : cache.get? key = some old) (value : ν) :
    ∃ before behind, cache.entries = before ++ (key, old) :: behind ∧
      cache.insert key value
        = (none, { cache with entries := before ++ (key, value) :: behind }) := by
  obtain ⟨before, behind, heq, hfirst⟩ := List.lookup_eq_some_iff.mp hpresent
  refine ⟨before, behind, heq, ?_⟩
  have hbefore : key ∉ before.map Prod.fst := by
    intro hmem
    obtain ⟨entry, hentry, hkey⟩ := List.mem_map.mp hmem
    exact bne_iff_ne.mp (hfirst entry hentry) hkey.symm
  have hlength : ¬cache.capacity < (before ++ (key, value) :: behind).length := by
    rw [heq] at hroom
    simpa using hroom
  unfold insert
  dsimp only
  rw [heq, put_append_cons hbefore, if_neg hlength]

end FifoCache

end CsvQuery
