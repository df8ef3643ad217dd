/-
  CsvQuery.Proofs.Storage.History — every answer of the storage follows from what it has loaded.

  A load is a request for a file that is not cached and can be read.  Whatever happens to the directory
  between requests, the cache holds the last loads, as many as it has room for, with the texts that were
  read then.  So an answer is the text of one of these loads or, for any other name, what the directory
  has now.  While the directory does not change, both are the same, and the cache cannot be seen.

  Main results:
    • `withCapacity_eq_ok_iff` — the storages that can be made
    • `IsHistory.step`, `IsHistory.run` — the cache is the end of the list of loads, step and run
    • `IsTransparent.answer` — the cache of an unchanging directory cannot be seen
    • `answers_explained_by_loads` — all answers, from the loads and the directory
-/
import CsvQuery.Proofs.Storage.FifoCache
import CsvQuery.Storage.Service

namespace CsvQuery

/-- What can happen to a storage: a request, or a change to its directory, such as a file written, an entry
removed or a directory made. -/
inductive StorageEvent where
  | request (name : String)
  | change (change : Directory → Directory)

/-- The text of the file that a requested name is reduced to, empty if it cannot be read. -/
def Directory.content (directory : Directory) (name : String) : String :=
  match directory.readText (FileName.sanitize name) with
  | .ok text => text
  | .error _ => ""

namespace Storage

/-! ## §1. Events and loads -/

/-- The storage after an event. -/
def step (storage : Storage) : StorageEvent → Storage
  | .request name => (storage.answer name).2
  | .change change => storage.changeDirectory change

/-- The storage after a list of events. -/
def run (storage : Storage) (events : List StorageEvent) : Storage := events.foldl step storage

/-- The file name and the text that an event loads: a request does, if the file is not cached and can be
read. -/
def load? (storage : Storage) : StorageEvent → Option (String × String)
  | .request name =>
    if storage.cache.contains (FileName.sanitize name) then none
    else
      match storage.directory.readText (FileName.sanitize name) with
      | .ok text => some (FileName.sanitize name, text)
      | .error _ => none
  | .change _ => none

/-- All that is loaded in the course of a list of events, oldest first. -/
def loads (storage : Storage) : List StorageEvent → List (String × String)
  | [] => []
  | event :: events => (storage.load? event).toList ++ (storage.step event).loads events

/-- A directory after the changes of a list of events. -/
def directoryAfter (directory : Directory) (events : List StorageEvent) : Directory :=
  events.foldl (fun directory event => match event with
    | .request _ => directory
    | .change change => change directory) directory

/-- What is loaded later is loaded by the storage as it is by then. -/
theorem loads_append (storage : Storage) (events more : List StorageEvent) :
    storage.loads (events ++ more) = storage.loads events ++ (storage.run events).loads more := by
  induction events generalizing storage with
  | nil => rfl
  | cons event events ih =>
    show _ ++ (storage.step event).loads (events ++ more) = _
    rw [ih, ← List.append_assoc]
    rfl

/-- A storage is made exactly when its cache can be, and has read nothing then: what holds of all runs from
`start` holds of all runs there are. -/
theorem withCapacity_eq_ok_iff {storage : Storage} {directory : Directory} {capacity : Nat} :
    withCapacity directory capacity = .ok storage ↔
      capacity < FifoCache.capacityBound ∧ storage = start directory capacity := by
  constructor
  · intro h
    unfold withCapacity at h
    cases hcache : (FifoCache.withCapacity capacity : Except _ (FifoCache String String)) with
    | error fault =>
      rw [hcache] at h
      cases h
    | ok cache =>
      obtain ⟨hroom, rfl⟩ := FifoCache.withCapacity_eq_ok_iff.mp hcache
      rw [hcache] at h
      cases h
      exact ⟨hroom, rfl⟩
  · intro h
    obtain ⟨hroom, rfl⟩ := h
    unfold withCapacity
    rw [FifoCache.withCapacity_eq_ok_iff.mpr ⟨hroom, rfl⟩]
    rfl

/-! ## §2. One request -/

variable {storage : Storage} {name text : String}

/-- A cached text is the answer, and nothing changes. -/
theorem answer_of_cached (h : storage.cache.get? (FileName.sanitize name) = some text) :
    storage.answer name = (text, storage) := by
  unfold answer FifoCache.getOrLoad
  rw [h]
  rfl

/-- A text that is not cached is read from the directory and goes into the cache. -/
theorem answer_of_readable (habsent : storage.cache.get? (FileName.sanitize name) = none)
    (hread : storage.directory.readText (FileName.sanitize name) = .ok text) :
    storage.answer name
      = (text, { storage with cache := (storage.cache.insert (FileName.sanitize name) text).2 }) := by
  unfold answer FifoCache.getOrLoad
  rw [habsent, hread]
  rfl

/-- A file that cannot be read is answered with the empty text, and nothing changes. -/
theorem answer_of_unreadable {fault : IoFault}
    (habsent : storage.cache.get? (FileName.sanitize name) = none)
    (hread : storage.directory.readText (FileName.sanitize name) = .error fault) :
    storage.answer name = ("", storage) := by
  unfold answer FifoCache.getOrLoad
  rw [habsent, hread]
  rfl

/-- A request for a cached text loads nothing. -/
theorem load?_of_cached (h : storage.cache.get? (FileName.sanitize name) = some text) :
    storage.load? (.request name) = none := by
  simp [load?, FifoCache.contains, h]

/-- A request for a file that is not cached and can be read loads its text. -/
theorem load?_of_readable (habsent : storage.cache.get? (FileName.sanitize name) = none)
    (hread : storage.directory.readText (FileName.sanitize name) = .ok text) :
    storage.load? (.request name) = some (FileName.sanitize name, text) := by
  simp [load?, FifoCache.contains, habsent, hread]

/-- A request for a file that cannot be read loads nothing. -/
theorem load?_of_unreadable {fault : IoFault}
    (habsent : storage.cache.get? (FileName.sanitize name) = none)
    (hread : storage.directory.readText (FileName.sanitize name) = .error fault) :
    storage.load? (.request name) = none := by
  simp [load?, FifoCache.contains, habsent, hread]

/-! ## §3. The cache is the end of the list of loads -/

/-- The loads so far leave a storage with this cache: as many of the last ones as there is room for. -/
structure IsHistory (capacity : Nat) (past : List (String × String)) (storage : Storage) : Prop where
  capacity_eq : storage.cache.capacity = capacity
  entries_eq : storage.cache.entries = past.rtake capacity
  /-- What is cached is not loaded again. -/
  nodup : storage.cache.keys.Nodup

namespace IsHistory

variable {capacity : Nat} {past : List (String × String)}

theorem length_le (h : IsHistory capacity past storage) :
    storage.cache.entries.length ≤ storage.cache.capacity := by
  rw [h.entries_eq, h.capacity_eq]
  exact length_rtake_le past capacity

theorem start (directory : Directory) (capacity : Nat) :
    IsHistory capacity [] (Storage.start directory capacity) :=
  ⟨rfl, (List.rtake_nil capacity).symm, List.nodup_nil⟩

/-- An event adds to the history what it loads. -/
theorem step (h : IsHistory capacity past storage) (event : StorageEvent) :
    IsHistory capacity (past ++ (storage.load? event).toList) (storage.step event) := by
  cases event with
  | change change =>
    show IsHistory capacity (past ++ []) (storage.changeDirectory change)
    rw [List.append_nil]
    exact ⟨h.capacity_eq, h.entries_eq, h.nodup⟩
  | request name =>
    show IsHistory capacity _ (storage.answer name).2
    cases hcached : storage.cache.get? (FileName.sanitize name) with
    | some text =>
      rw [answer_of_cached hcached, load?_of_cached hcached, Option.toList_none, List.append_nil]
      exact h
    | none =>
      cases hread : storage.directory.readText (FileName.sanitize name) with
      | error fault =>
        rw [answer_of_unreadable hcached hread, load?_of_unreadable hcached hread,
          Option.toList_none, List.append_nil]
        exact h
      | ok text =>
        rw [answer_of_readable hcached hread, load?_of_readable hcached hread]
        refine ⟨FifoCache.capacity_insert.trans h.capacity_eq, ?_,
          FifoCache.nodup_keys_insert h.nodup h.length_le hcached⟩
        show (storage.cache.insert (FileName.sanitize name) text).2.entries = _
        rw [FifoCache.entries_insert h.length_le hcached, h.capacity_eq, h.entries_eq]
        exact rtake_append_singleton past _ capacity

/-- Events add to the history all that they load. -/
theorem run (h : IsHistory capacity past storage) (events : List StorageEvent) :
    IsHistory capacity (past ++ storage.loads events) (storage.run events) := by
  induction events generalizing past storage with
  | nil =>
    show IsHistory capacity (past ++ []) storage
    rw [List.append_nil]
    exact h
  | cons event events ih =>
    show IsHistory capacity (past ++ (_ ++ (storage.step event).loads events)) _
    rw [← List.append_assoc]
    exact ih (h.step event)

end IsHistory

/-- In a run the directory changes by the changes alone. -/
theorem directory_run (storage : Storage) (events : List StorageEvent) :
    (storage.run events).directory = directoryAfter storage.directory events := by
  induction events generalizing storage with
  | nil => rfl
  | cons event events ih =>
    show ((storage.step event).run events).directory = _
    rw [ih]
    cases event <;> rfl

/-! ## §4. An unchanging directory -/

/-- The storage reads this directory, and what it has cached is what stands there. -/
structure IsTransparent (directory : Directory) (storage : Storage) : Prop where
  directory_eq : storage.directory = directory
  readText_eq : ∀ entry ∈ storage.cache.entries, directory.readText entry.1 = .ok entry.2

namespace IsTransparent

variable {directory : Directory}

theorem start (directory : Directory) (capacity : Nat) :
    IsTransparent directory (Storage.start directory capacity) :=
  ⟨rfl, fun _ hentry => absurd hentry List.not_mem_nil⟩

/-- The answer is what stands in the directory, and what is cached stays so. -/
theorem answer (h : IsTransparent directory storage) (name : String) :
    (storage.answer name).1 = directory.content name ∧
      IsTransparent directory (storage.answer name).2 := by
  cases hcached : storage.cache.get? (FileName.sanitize name) with
  | some text =>
    have hread := h.readText_eq _ (FifoCache.mem_entries_of_get? hcached)
    rw [answer_of_cached hcached]
    unfold Directory.content
    rw [hread]
    exact ⟨rfl, h⟩
  | none =>
    cases hread : storage.directory.readText (FileName.sanitize name) with
    | error fault =>
      rw [answer_of_unreadable hcached hread]
      rw [h.directory_eq] at hread
      unfold Directory.content
      rw [hread]
      exact ⟨rfl, h⟩
    | ok text =>
      rw [answer_of_readable hcached hread]
      rw [h.directory_eq] at hread
      unfold Directory.content
      rw [hread]
      refine ⟨rfl, h.directory_eq, fun entry hentry => ?_⟩
      rcases FifoCache.mem_insert hcached hentry with hnew | hold
      · rw [hnew]
        exact hread
      · exact h.readText_eq entry hold

/-- Requests keep the cache as the directory has it. -/
theorem run (h : IsTransparent directory storage) (requests : List String) :
    IsTransparent directory (storage.run (requests.map .request)) := by
  induction requests generalizing storage with
  | nil => exact h
  | cons name requests ih => exact ih (h.answer name).2

end IsTransparent

/-! ## §5. All answers -/

/-- After any events, the cache is the last loads, as many as it has room for, oldest first.  A name among
them is answered with the text of its load, and nothing changes.  Any other is answered with what the
directory has now, which makes it a load, or with the empty text if it cannot be read, and nothing changes.
So where the directory does not change, the answer is what it has, whatever the room and the requests. -/
theorem answers_explained_by_loads (directory : Directory) (capacity : Nat)
    (events : List StorageEvent) :
    let storage := (start directory capacity).run events
    let loads := (start directory capacity).loads events
    storage.directory = directoryAfter directory events ∧
    storage.cache.entries = loads.rtake capacity ∧
    storage.cache.entries.length = min capacity loads.length ∧
    (∀ name text, (FileName.sanitize name, text) ∈ loads.rtake capacity →
      storage.answer name = (text, storage)) ∧
    (∀ name, FileName.sanitize name ∉ (loads.rtake capacity).map Prod.fst →
      (∀ text, storage.directory.readText (FileName.sanitize name) = .ok text →
        (storage.answer name).1 = text ∧
          (start directory capacity).loads (events ++ [.request name])
            = loads ++ [(FileName.sanitize name, text)]) ∧
      ∀ fault, storage.directory.readText (FileName.sanitize name) = .error fault →
        storage.answer name = ("", storage)) ∧
    ∀ (requests : List String) (name : String),
      (((start directory capacity).run (requests.map .request)).answer name).1
        = directory.content name := by
  intro storage loads
  have hhistory : IsHistory capacity loads storage := (IsHistory.start directory capacity).run events
  refine ⟨directory_run _ events, hhistory.entries_eq, ?_, ?_, ?_, ?_⟩
  · rw [hhistory.entries_eq]
    unfold List.rtake
    rw [List.length_drop]
    omega
  · intro name text hmem
    rw [← hhistory.entries_eq] at hmem
    exact answer_of_cached ((FifoCache.get?_eq_some_iff hhistory.nodup).mpr hmem)
  · intro name hname
    have habsent : storage.cache.get? (FileName.sanitize name) = none := by
      rw [FifoCache.get?_eq_none_iff]
      unfold FifoCache.keys
      rw [hhistory.entries_eq]
      exact hname
    refine ⟨fun text hread => ⟨?_, ?_⟩, fun fault => answer_of_unreadable habsent⟩
    · rw [answer_of_readable habsent hread]
    · rw [loads_append]
      show loads ++ ((storage.load? (.request name)).toList ++ []) = _
      rw [load?_of_readable habsent hread]
      rfl
  · intro requests name
    exact (((IsTransparent.start directory capacity).run requests).answer name).1

/-- A cached text outlives its file. -/
example : (((start .empty 1).run [.change (Directory.write · "a" [104, 105]), .request "a",
    .change (Directory.remove · "a")]).answer " a").1 = "hi" := by
  decide +kernel

end Storage

end CsvQuery
