/-
  CsvQuery.Storage.FifoCache — a cache of bounded size that forgets the oldest entry first.

  Entries stand in the order in which their keys came in, oldest first.  Reading changes nothing, and
  a new value for a key that is present leaves it in its place.  A key that comes in new goes last,
  and if that makes one entry too many the first one leaves; with room for none, that is the new one.
  The room is set aside when the cache is made, so there is a bound on what can be asked for.
-/
namespace CsvQuery

/-- Entries from the oldest to the newest, and how many of them may stay. -/
structure FifoCache (κ ν : Type) where
  capacity : Nat
  entries : List (κ × ν)

namespace FifoCache

variable {κ ν ε : Type}

/-- The cache with room for some number of entries and none in it. -/
def empty (capacity : Nat) : FifoCache κ ν := ⟨capacity, []⟩

/-- The room of a cache where none is asked for. -/
def defaultCapacity : Nat := 2

/-- The least room that cannot be set aside: there is a place for each entry and for one more, one place
in eight stays free, and there are at most 2^59 places. -/
def capacityBound : Nat := 7 <<< 56

/-- The ways in which room can be refused. -/
inductive RoomFault where
  /-- There are not so many places. -/
  | tooMuch
  /-- The number of places, which is one more than that of the entries, is no word of 64 bits. -/
  | noWord
  deriving DecidableEq

/-- What is said of refused room. -/
def RoomFault.message : RoomFault → String
  | tooMuch => "Hash table capacity overflow"
  | noWord => "attempt to add with overflow"

/-- A cache with room for some number of entries, if so much can be set aside. -/
def withCapacity (capacity : Nat) : Except RoomFault (FifoCache κ ν) :=
  if UInt64.size ≤ capacity + 1 then .error .noWord
  else if capacityBound ≤ capacity then .error .tooMuch
  else .ok (empty capacity)

/-- The number of entries. -/
def size (cache : FifoCache κ ν) : Nat := cache.entries.length

/-- The keys, oldest first. -/
def keys (cache : FifoCache κ ν) : List κ := cache.entries.map Prod.fst

/-- Whether there are no entries. -/
def isEmpty (cache : FifoCache κ ν) : Bool := cache.entries.isEmpty

variable [DecidableEq κ]

/-- The value under a key. -/
def get? (cache : FifoCache κ ν) (key : κ) : Option ν := cache.entries.lookup key

/-- Whether there is an entry under a key. -/
def contains (cache : FifoCache κ ν) (key : κ) : Bool := (cache.get? key).isSome

/-- Entries with a value under a key: in its place if the key is present, else last. -/
def put (key : κ) (value : ν) : List (κ × ν) → List (κ × ν)
  | [] => [(key, value)]
  | (k, v) :: rest => if k = key then (k, value) :: rest else (k, v) :: put key value rest

/-- The cache with a value under a key, and the entry that had to leave for it. -/
def insert (cache : FifoCache κ ν) (key : κ) (value : ν) : Option (κ × ν) × FifoCache κ ν :=
  let entries := put key value cache.entries
  if cache.capacity < entries.length then (entries.head?, { cache with entries := entries.tail })
  else (none, { cache with entries })

/-- How a value that may have to be loaded was come by. -/
inductive Loaded (ε ν : Type) where
  /-- It was in the cache. -/
  | hit (value : ν)
  /-- It was loaded. -/
  | loaded (value : ν)
  /-- It was not in the cache and could not be loaded. -/
  | failed (cause : ε)

/-- Whether a load was tried. -/
def Loaded.tried : Loaded ε ν → Bool
  | .hit _ => false
  | .loaded _ => true
  | .failed _ => true

/-- The value, or the cause why there is none. -/
def Loaded.value : Loaded ε ν → Except ε ν
  | .hit value => .ok value
  | .loaded value => .ok value
  | .failed cause => .error cause

/-- The value under a key, which is loaded and put in if it is absent; a failed load changes nothing. -/
def getOrLoad (cache : FifoCache κ ν) (key : κ) (load : κ → Except ε ν) :
    Loaded ε ν × FifoCache κ ν :=
  match cache.get? key with
  | some value => (.hit value, cache)
  | none =>
    match load key with
    | .ok value => (.loaded value, (cache.insert key value).2)
    | .error cause => (.failed cause, cache)

end FifoCache

end CsvQuery
