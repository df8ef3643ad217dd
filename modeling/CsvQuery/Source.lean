/-
  CsvQuery.Source — where the text of a file comes from.

  A source answers a file name with a text or a failure and may change by answering; what it has
  become is kept after a failure too.  An empty text means that there is no such file.
-/
import CsvQuery.Error

namespace CsvQuery

/-- Work that may fail and that uses a state, which outlives the failure. -/
abbrev Work (σ : Type) := ExceptT Error (StateM σ)

namespace Work

/-- The outcome of work from a state, and the state after it. -/
def outcome {σ α : Type} (work : Work σ α) (state : σ) : Except Error α × σ :=
  StateT.run (ExceptT.run work) state

end Work

/-- A supplier of texts by file name, over states of type `σ`. -/
structure Source (σ : Type) where
  fetch : String → Work σ String

namespace Source

/-- The source that answers each name in the same way at all times. -/
def fixed {σ : Type} (reply : String → Except Error String) : Source σ where
  fetch name := ExceptT.mk (pure (reply name))

/-- The source that also keeps the names asked for, the latest one first. -/
def recorded {σ : Type} (source : Source σ) : Source (List String × σ) where
  fetch name := ExceptT.mk fun (asked, state) =>
    let (reply, next) := (source.fetch name).outcome state
    (reply, (name :: asked, next))

end Source

end CsvQuery
