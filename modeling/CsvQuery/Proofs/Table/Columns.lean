/-
  CsvQuery.Proofs.Table.Columns — where a column name leads.

  Names may repeat, and a name means its last column.  The search from the left and the index say the
  same: both answer with the last position at which the name stands, and neither answers for a name
  that is no column.
-/
import CsvQuery.Table.Basic

namespace CsvQuery

/-- The position is the last one at which the name stands. -/
structure IsLastPosition (name : String) (columns : List String) (position : Nat) : Prop where
  here : columns[position]? = some name
  later : ∀ next, position < next → columns[next]? ≠ some name

theorem IsLastPosition.lt_length {name : String} {columns : List String} {position : Nat}
    (h : IsLastPosition name columns position) : position < columns.length :=
  (List.getElem?_eq_some_iff.mp h.here).1

/-- A name has one last position. -/
theorem IsLastPosition.unique {name : String} {columns : List String} {position position' : Nat}
    (h : IsLastPosition name columns position) (h' : IsLastPosition name columns position') :
    position = position' := by
  rcases Nat.lt_trichotomy position position' with hlt | heq | hgt
  · exact absurd h'.here (h.later position' hlt)
  · exact heq
  · exact absurd h.here (h'.later position hgt)

/-- Searching fails exactly for a name that no column has. -/
theorem lastPosition_eq_none_iff {name : String} {columns : List String} :
    lastPosition name columns = none ↔ name ∉ columns := by
  induction columns with
  | nil => simp [lastPosition]
  | cons column rest ih =>
    cases h : lastPosition name rest with
    | none =>
      have hrest : name ∉ rest := ih.mp h
      by_cases hc : column = name
      · simp [lastPosition, h, hc]
      · simp [lastPosition, h, hc, hrest, Ne.symm hc]
    | some position =>
      have hrest : name ∈ rest := by
        by_cases hmem : name ∈ rest
        · exact hmem
        · rw [ih.mpr hmem] at h
          cases h
      simp [lastPosition, h, hrest]

/-- The search answers with the last position of the name. -/
theorem isLastPosition_of_lastPosition {name : String} {columns : List String} {position : Nat}
    (h : lastPosition name columns = some position) : IsLastPosition name columns position := by
  induction columns generalizing position with
  | nil => cases h
  | cons column rest ih =>
    -- a later column of that name goes before this one
    cases hrest : lastPosition name rest with
    | some before =>
      simp only [lastPosition, hrest, Option.some.injEq] at h
      subst h
      have hlast := ih hrest
      refine ⟨hlast.here, ?_⟩
      intro next hnext
      cases next with
      | zero => omega
      | succ next => exact hlast.later next (by omega)
    | none =>
      have hmem := lastPosition_eq_none_iff.mp hrest
      simp only [lastPosition, hrest] at h
      split at h
      next hc =>
        injection h with h
        subst h hc
        refine ⟨rfl, ?_⟩
        intro next hnext hsome
        cases next with
        | zero => omega
        | succ next => exact hmem (List.mem_of_getElem? hsome)
      next => cases h

/-- Searching finds the last position of a name and nothing else. -/
theorem lastPosition_eq_some_iff {name : String} {columns : List String} {position : Nat} :
    lastPosition name columns = some position ↔ IsLastPosition name columns position := by
  constructor
  · exact isLastPosition_of_lastPosition
  · intro h
    cases hfound : lastPosition name columns with
    | none => exact absurd (List.mem_of_getElem? h.here) (lastPosition_eq_none_iff.mp hfound)
    | some found => rw [(isLastPosition_of_lastPosition hfound).unique h]

namespace Table

/-- The index leads from a name to the position that the name means, and has no other entry. -/
theorem mem_index_iff {table : Table} {name : String} {position : Nat} :
    (name, position) ∈ table.index ↔ table.position name = some position := by
  simp only [index, List.mem_filterMap, List.mem_eraseDups, Option.map_eq_some_iff, Prod.mk.injEq]
  constructor
  · intro h
    obtain ⟨column, -, found, hfound, hname, hposition⟩ := h
    subst hname hposition
    exact hfound
  · intro h
    have hlast : IsLastPosition name table.columns position := isLastPosition_of_lastPosition h
    exact ⟨name, List.mem_of_getElem? hlast.here, position, h, rfl, rfl⟩

/-- A name has no entry in the index exactly when it means no position. -/
theorem not_mem_index_iff {table : Table} {name : String} :
    name ∉ table.index.map Prod.fst ↔ table.position name = none := by
  simp only [List.mem_map, Prod.exists, exists_and_right, exists_eq_right, mem_index_iff,
    Option.eq_none_iff_forall_ne_some, not_exists, ne_eq]

end Table

end CsvQuery
