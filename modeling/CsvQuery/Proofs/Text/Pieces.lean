/-
  CsvQuery.Proofs.Text.Pieces — pieces joined by spaces, some of which may be empty.

  Where words are joined by single spaces, the blanks of the text are single spaces.  If nothing is left
  of some of the words, their spaces still stand: at the ends of the text trimming takes them away, but
  between other pieces an empty one leaves two spaces side by side.

  Main results:
    • `filter_intercalate` — dropping characters from a joined text drops them from its pieces
    • `trim_intercalate` — trimming a joined text drops the empty pieces at both ends
    • `nil_mem_inner_iff` — an empty piece is left where it stands between two that are not empty
    • `isSpaced_intercalate_iff` — an empty piece is all that can spoil the blanks
-/
import CsvQuery.Proofs.Text.Spaces

namespace CsvQuery

/-! ## §1. Joining -/

/-- One space joins two joined texts. -/
theorem intercalate_append {pieces more : List (List Char)} (hpieces : pieces ≠ []) (hmore : more ≠ []) :
    [' '].intercalate (pieces ++ more)
      = [' '].intercalate pieces ++ ' ' :: [' '].intercalate more := by
  induction pieces with
  | nil => exact absurd rfl hpieces
  | cons piece pieces ih =>
    by_cases hlast : pieces = []
    · rw [hlast, List.intercalate_singleton]
      show [' '].intercalate (piece :: more) = _
      rw [List.intercalate_cons_of_ne_nil hmore, List.append_assoc]
      rfl
    · show [' '].intercalate (piece :: (pieces ++ more)) = _
      rw [List.intercalate_cons_of_ne_nil (List.append_ne_nil_of_left_ne_nil hlast more), ih hlast,
        List.intercalate_cons_of_ne_nil hlast, List.append_assoc, List.append_assoc, List.append_assoc]

/-- Read backwards, a joined text is its pieces read backwards. -/
theorem reverse_intercalate (pieces : List (List Char)) :
    ([' '].intercalate pieces).reverse = [' '].intercalate (pieces.reverse.map List.reverse) := by
  induction pieces with
  | nil => rfl
  | cons piece pieces ih =>
    by_cases hlast : pieces = []
    · rw [hlast, List.intercalate_singleton, List.reverse_singleton, List.map_singleton,
        List.intercalate_singleton]
    · have hreversed : pieces.reverse.map List.reverse ≠ [] := by simpa using hlast
      rw [List.intercalate_cons_of_ne_nil hlast, List.reverse_append, ih, List.reverse_cons,
        List.map_append, List.map_singleton, intercalate_append hreversed (List.cons_ne_nil _ _),
        List.intercalate_singleton, List.reverse_append, List.reverse_singleton]
      rfl

/-- Dropping characters from a joined text drops them from its pieces, as long as spaces are kept. -/
theorem filter_intercalate {p : Char → Bool} (hp : p ' ' = true) (pieces : List (List Char)) :
    ([' '].intercalate pieces).filter p = [' '].intercalate (pieces.map (List.filter p)) := by
  induction pieces with
  | nil => rfl
  | cons piece pieces ih =>
    by_cases hlast : pieces = []
    · rw [hlast, List.intercalate_singleton, List.map_singleton, List.intercalate_singleton]
    · have hmap : pieces.map (List.filter p) ≠ [] := by simpa using hlast
      rw [List.intercalate_cons_of_ne_nil hlast, List.filter_append, List.filter_append, ih,
        List.filter_cons_of_pos hp, List.filter_nil, List.map_cons,
        List.intercalate_cons_of_ne_nil hmap]

/-! ## §2. Trimming -/

/-- Characters that are not blank, or none at all. -/
def IsPiece (piece : List Char) : Prop := ∀ c ∈ piece, isBlank c = false

/-- The pieces without the empty ones at both ends. -/
def inner (pieces : List (List Char)) : List (List Char) :=
  (pieces.dropWhile List.isEmpty).rdropWhile List.isEmpty

section Trim

variable {pieces : List (List Char)}

theorem mem_of_mem_inner {piece : List Char} (h : piece ∈ inner pieces) : piece ∈ pieces :=
  (List.dropWhile_sublist _).mem ((List.rdropWhile_prefix _ _).subset h)

/-- The blanks at the front of a joined text are the spaces behind its first empty pieces. -/
theorem dropWhile_isBlank_intercalate (h : ∀ piece ∈ pieces, IsPiece piece) :
    ([' '].intercalate pieces).dropWhile isBlank
      = [' '].intercalate (pieces.dropWhile List.isEmpty) := by
  induction pieces with
  | nil => rfl
  | cons piece pieces ih =>
    obtain ⟨hpiece, hrest⟩ := List.forall_mem_cons.mp h
    cases piece with
    | nil =>
      by_cases hlast : pieces = []
      · rw [hlast]
        rfl
      · rw [List.intercalate_cons_of_ne_nil hlast, List.dropWhile_cons_of_pos List.isEmpty_nil, ← ih hrest]
        exact List.dropWhile_cons_of_pos (by decide)
    | cons c piece =>
      have hc : ¬isBlank c = true := by
        rw [hpiece c List.mem_cons_self]
        exact Bool.false_ne_true
      have hempty : ¬(c :: piece).isEmpty = true := by
        rw [List.isEmpty_cons]
        exact Bool.false_ne_true
      rw [List.dropWhile_cons_of_neg hempty]
      -- the first character stays whether or not a space follows the piece
      by_cases hlast : pieces = []
      · rw [hlast, List.intercalate_singleton, List.dropWhile_cons_of_neg hc]
      · rw [List.intercalate_cons_of_ne_nil hlast]
        exact List.dropWhile_cons_of_neg hc

/-- Trimming a joined text drops the empty pieces at both ends. -/
theorem trim_intercalate (h : ∀ piece ∈ pieces, IsPiece piece) :
    trim ([' '].intercalate pieces) = [' '].intercalate (inner pieces) := by
  have hreversed : ∀ piece ∈ (pieces.dropWhile List.isEmpty).reverse.map List.reverse, IsPiece piece := by
    intro piece hpiece c hc
    obtain ⟨other, hother, rfl⟩ := List.mem_map.mp hpiece
    exact h other ((List.dropWhile_sublist _).mem (List.mem_reverse.mp hother)) c (List.mem_reverse.mp hc)
  have hempty : List.isEmpty ∘ List.reverse = (List.isEmpty : List Char → Bool) := by
    funext piece
    exact List.isEmpty_reverse
  unfold trim trimEnd
  -- the end of the text is the front of what it is backwards
  rw [dropWhile_isBlank_intercalate h, reverse_intercalate, dropWhile_isBlank_intercalate hreversed,
    reverse_intercalate, List.dropWhile_map, hempty, ← List.map_reverse, List.map_map]
  unfold inner List.rdropWhile
  rw [List.reverse_involutive.comp_self, List.map_id]

end Trim

/-! ## §3. Empty pieces inside -/

section Inner

variable {pieces : List (List Char)}

theorem head?_inner_ne {piece : List Char} (h : piece ∈ (inner pieces).head?) : piece ≠ [] := by
  obtain ⟨behind, hbehind⟩ := List.rdropWhile_prefix List.isEmpty (pieces.dropWhile List.isEmpty)
  have hhead : (pieces.dropWhile List.isEmpty).head? = some piece := by
    rw [← hbehind, List.head?_append]
    show (inner pieces).head?.or behind.head? = some piece
    rw [Option.mem_def.mp h]
    rfl
  have hnot := List.head?_dropWhile_not List.isEmpty pieces
  rw [hhead] at hnot
  simpa using hnot

theorem getLast?_inner_ne {piece : List Char} (h : piece ∈ (inner pieces).getLast?) : piece ≠ [] := by
  unfold inner List.rdropWhile at h
  rw [List.getLast?_reverse] at h
  have hnot := List.head?_dropWhile_not List.isEmpty (pieces.dropWhile List.isEmpty).reverse
  rw [Option.mem_def.mp h] at hnot
  simpa using hnot

theorem inner_ne_singleton_nil : inner pieces ≠ [[]] := by
  intro h
  have hhead : [] ∈ (inner pieces).head? := by
    rw [h]
    rfl
  exact head?_inner_ne hhead rfl

/-- What `inner` drops are empty pieces before it and behind it. -/
theorem exists_inner_eq (pieces : List (List Char)) : ∃ before after,
    pieces = before ++ inner pieces ++ after ∧ (∀ piece ∈ before, piece = []) ∧
      ∀ piece ∈ after, piece = [] := by
  refine ⟨pieces.takeWhile List.isEmpty,
    (pieces.dropWhile List.isEmpty).rtakeWhile List.isEmpty, ?_, ?_, ?_⟩
  · unfold inner
    rw [List.append_assoc, List.rdropWhile_append_rtakeWhile, List.takeWhile_append_dropWhile]
  · intro piece hpiece
    exact List.isEmpty_iff.mp (List.mem_takeWhile_imp hpiece)
  · intro piece hpiece
    exact List.isEmpty_iff.mp (List.mem_rtakeWhile_imp hpiece)

/-- Empty pieces are dropped no further than up to one that is not. -/
theorem dropWhile_isEmpty_append {before : List (List Char)} (h : ∃ piece ∈ before, piece ≠ [])
    (after : List (List Char)) :
    (before ++ after).dropWhile List.isEmpty = before.dropWhile List.isEmpty ++ after := by
  obtain ⟨piece, hpiece, hne⟩ := h
  have hkept : ¬(before.dropWhile List.isEmpty).isEmpty = true := by
    rw [List.isEmpty_iff, List.dropWhile_eq_nil_iff]
    exact fun hall => hne (List.isEmpty_iff.mp (hall piece hpiece))
  rw [List.dropWhile_append, if_neg hkept]

/-- An empty piece is left where it stands between two that are not empty. -/
theorem nil_mem_inner_iff : [] ∈ inner pieces ↔ ∃ before after, pieces = before ++ [] :: after ∧
    (∃ piece ∈ before, piece ≠ []) ∧ ∃ piece ∈ after, piece ≠ [] := by
  constructor
  · intro h
    obtain ⟨dropped, dropped', hpieces, -, -⟩ := exists_inner_eq pieces
    obtain ⟨before, after, hinner⟩ := List.append_of_mem h
    refine ⟨dropped ++ before, after ++ dropped', ?_, ?_, ?_⟩
    · rw [hpieces, hinner]
      simp
    · -- the first piece that is left is not the empty one
      cases before with
      | nil => exact absurd rfl (@head?_inner_ne pieces [] (by rw [hinner]; rfl))
      | cons first before =>
        exact ⟨first, by simp, @head?_inner_ne pieces first (by rw [hinner]; rfl)⟩
    · -- nor is the last one
      cases hlast : after.getLast? with
      | none =>
        rw [List.getLast?_eq_none_iff.mp hlast] at hinner
        exact absurd rfl (@getLast?_inner_ne pieces [] (by simp [hinner]))
      | some last =>
        have hmem : last ∈ (inner pieces).getLast? := by
          rw [hinner, List.getLast?_append, List.getLast?_cons, hlast]
          rfl
        exact ⟨last, List.mem_append_left _ (List.mem_of_getLast? hlast), getLast?_inner_ne hmem⟩
  · rintro ⟨before, after, rfl, hbefore, ⟨last, hlast, hne⟩⟩
    have hafter : ∃ piece ∈ after.reverse, piece ≠ [] := ⟨last, List.mem_reverse.mpr hlast, hne⟩
    -- neither end reaches the empty piece
    unfold inner List.rdropWhile
    rw [dropWhile_isEmpty_append hbefore, List.reverse_append, List.reverse_cons, List.append_assoc,
      dropWhile_isEmpty_append hafter]
    simp

/-- Joined pieces are spaced when none of them is empty, or there is nothing but an empty one. -/
theorem isSpaced_intercalate_iff (h : ∀ piece ∈ pieces, IsPiece piece) :
    IsSpaced ([' '].intercalate pieces) ↔ pieces = [[]] ∨ [] ∉ pieces := by
  constructor
  · intro hspaced
    induction pieces with
    | nil => exact .inr (List.not_mem_nil)
    | cons piece pieces ih =>
      obtain ⟨hpiece, hrest⟩ := List.forall_mem_cons.mp h
      cases piece with
      | nil =>
        by_cases hlast : pieces = []
        · exact .inl (by rw [hlast])
        · -- the text would start with a space
          rw [List.intercalate_cons_of_ne_nil hlast] at hspaced
          exact absurd (hspaced.no_blank_front ' ' rfl) (by decide)
      | cons c piece =>
        have hword : IsWord (c :: piece) := ⟨List.cons_ne_nil _ _, hpiece⟩
        by_cases hlast : pieces = []
        · exact .inr (by simp [hlast])
        · rw [List.intercalate_cons_of_ne_nil hlast, List.append_assoc] at hspaced
          obtain ⟨-, hne, hspaced⟩ := (isSpaced_word_append_iff hword (by decide)).mp hspaced
          rcases ih hrest hspaced with hnil | hnil
          · exact absurd (by rw [hnil]; rfl) hne
          · exact .inr (by simp [hnil])
  · rintro (hnil | hnil)
    · rw [hnil]
      exact isSpaced_nil
    · exact isSpaced_intercalate fun piece hpiece =>
        ⟨fun hempty => hnil (hempty ▸ hpiece), h piece hpiece⟩

end Inner

end CsvQuery
