/-
  CsvQuery.Proofs.Text.Spaces — texts without needless blanks.

  A text can be trimmed, and its words can be joined by single spaces.  A text has blanks only as single
  spaces between other characters exactly if joining its words gives it back, and no other text is as
  short as its joined words.

  Main results:
    • `trim_sublist`, `isBlank_of_mem_head?_trim`, `trim_eq_self` — the text without the blanks at its ends
    • `isSpaced_intercalate` — words joined by spaces
    • `length_intercalate_words_le`, `mem_intercalate_words`, `head?_intercalate_words` — joined words
      beside their text
    • `intercalate_words_eq_self` — a text with such blanks is its words, joined
-/
import Mathlib.Data.List.Chain
import Mathlib.Data.List.DropRight
import CsvQuery.Proofs.Text.Words

namespace CsvQuery

/-! ## §1. Trimmed texts -/

/-- A text whose front blanks are dropped does not begin with a blank. -/
theorem isBlank_of_mem_head?_dropWhile {text : List Char} {c : Char}
    (h : c ∈ (text.dropWhile isBlank).head?) : isBlank c = false := by
  have hnot := List.head?_dropWhile_not isBlank text
  rw [Option.mem_def.mp h] at hnot
  simpa using hnot

theorem trimEnd_isPrefix (text : List Char) : trimEnd text <+: text :=
  List.rdropWhile_prefix isBlank text

theorem trim_sublist (text : List Char) : (trim text).Sublist text :=
  (trimEnd_isPrefix _).sublist.trans (List.dropWhile_sublist isBlank)

/-- A prefix has the front of the whole, if it has one. -/
theorem mem_head?_of_isPrefix {front text : List Char} (h : front <+: text) {c : Char}
    (hc : c ∈ front.head?) : c ∈ text.head? := by
  obtain ⟨behind, rfl⟩ := h
  rw [List.head?_append, Option.mem_def.mp hc]
  rfl

/-- A trimmed text does not begin with a blank. -/
theorem isBlank_of_mem_head?_trim {text : List Char} {c : Char} (h : c ∈ (trim text).head?) :
    isBlank c = false :=
  isBlank_of_mem_head?_dropWhile (mem_head?_of_isPrefix (trimEnd_isPrefix _) h)

/-- A text that has no blanks at its ends is trimmed. -/
theorem trim_eq_self {text : List Char} (hfront : ∀ c ∈ text.head?, isBlank c = false)
    (hend : ∀ c ∈ text.getLast?, isBlank c = false) : trim text = text := by
  have hkeep : ∀ {l : List Char}, (∀ c ∈ l.head?, isBlank c = false) → l.dropWhile isBlank = l := by
    intro l hl
    cases l with
    | nil => rfl
    | cons c l => exact List.dropWhile_cons_of_neg (by rw [hl c rfl]; exact Bool.false_ne_true)
  unfold trim trimEnd
  rw [hkeep hfront, hkeep (by rw [List.head?_reverse]; exact hend), List.reverse_reverse]

/-! ## §2. Single spaces -/

/-- Blanks are single spaces between other characters. -/
structure IsSpaced (text : List Char) : Prop where
  no_blank_front : ∀ c ∈ text.head?, isBlank c = false
  no_blank_end : ∀ c ∈ text.getLast?, isBlank c = false
  space : ∀ c ∈ text, isBlank c = true → c = ' '
  single : text.IsChain fun c d => isBlank c = true → isBlank d = false

theorem isSpaced_nil : IsSpaced [] where
  no_blank_front := nofun
  no_blank_end := nofun
  space := nofun
  single := .nil

theorem isSpaced_of_isWord {word : List Char} (h : IsWord word) : IsSpaced word where
  no_blank_front c hc := h.solid c (List.mem_of_mem_head? hc)
  no_blank_end c hc := h.solid c (List.mem_of_mem_getLast? hc)
  space c hc hblank := by
    rw [h.solid c hc] at hblank
    cases hblank
  single :=
    have hpairwise : word.Pairwise fun c d => isBlank c = true → isBlank d = false :=
      List.pairwise_of_forall_mem_list fun _ _ d hd _ => h.solid d hd
    hpairwise.isChain

/-- A word that a blank ends is followed by one space and then at once by more of the same kind. -/
theorem isSpaced_word_append_iff {word rest : List Char} {blank : Char} (hword : IsWord word)
    (hblank : isBlank blank = true) :
    IsSpaced (word ++ blank :: rest) ↔ blank = ' ' ∧ rest ≠ [] ∧ IsSpaced rest := by
  have hspaced := isSpaced_of_isWord hword
  constructor
  · intro h
    have hchain := (List.isChain_append.mp h.single).2.1
    have hrest : rest ≠ [] := by
      rintro rfl
      have hend := h.no_blank_end blank (by simp)
      rw [hblank] at hend
      cases hend
    refine ⟨h.space blank (by simp) hblank, hrest, ?_, ?_, ?_, (List.isChain_cons.mp hchain).2⟩
    · exact fun c hc => (List.isChain_cons.mp hchain).1 c hc hblank
    · refine fun c hc => h.no_blank_end c ?_
      rw [List.getLast?_append, List.getLast?_cons_of_ne_nil hrest, Option.mem_def.mp hc]
      rfl
    · exact fun c hc => h.space c (by simp [hc])
  · rintro ⟨rfl, hrest, h⟩
    refine ⟨fun c hc => ?_, fun c hc => ?_, fun c hc => ?_, ?_⟩
    · rw [List.head?_append_of_ne_nil _ hword.ne_nil] at hc
      exact hspaced.no_blank_front c hc
    · refine h.no_blank_end c ?_
      rwa [List.getLast?_append_of_ne_nil _ (List.cons_ne_nil _ _),
        List.getLast?_cons_of_ne_nil hrest] at hc
    · rcases List.mem_append.mp hc with hc | hc
      · exact hspaced.space c hc
      · rcases List.mem_cons.mp hc with rfl | hc
        · exact fun _ => rfl
        · exact h.space c hc
    · refine List.isChain_append.mpr ⟨hspaced.single, ?_, fun c hc d hd hc' => ?_⟩
      · exact List.isChain_cons.mpr ⟨fun c hc _ => h.no_blank_front c hc, h.single⟩
      · rw [hspaced.no_blank_end c hc] at hc'
        cases hc'

theorem intercalate_ne_nil {found : List (List Char)} (h : ∀ word ∈ found, IsWord word)
    (hfound : found ≠ []) : [' '].intercalate found ≠ [] := by
  obtain ⟨word, found, rfl⟩ := List.exists_cons_of_ne_nil hfound
  have hword := (h word List.mem_cons_self).ne_nil
  cases found with
  | nil => rwa [List.intercalate_singleton]
  | cons next found =>
    rw [List.intercalate_cons_cons]
    simp

/-- Words that are joined by single spaces are spaced. -/
theorem isSpaced_intercalate {found : List (List Char)} (h : ∀ word ∈ found, IsWord word) :
    IsSpaced ([' '].intercalate found) := by
  induction found with
  | nil => exact isSpaced_nil
  | cons word found ih =>
    obtain ⟨hword, hrest⟩ := List.forall_mem_cons.mp h
    by_cases hfound : found = []
    · rw [hfound, List.intercalate_singleton]
      exact isSpaced_of_isWord hword
    · rw [List.intercalate_cons_of_ne_nil hfound, List.append_assoc]
      exact (isSpaced_word_append_iff hword (by decide)).mpr
        ⟨rfl, intercalate_ne_nil hrest hfound, ih hrest⟩

/-- There is no gap before a text that does not begin with a blank. -/
theorem gap_eq_nil {gap rest : List Char} (hgap : ∀ c ∈ gap, isBlank c = true)
    (hfront : ∀ c ∈ (gap ++ rest).head?, isBlank c = false) : gap = [] := by
  cases gap with
  | nil => rfl
  | cons c gap =>
    have hc := hfront c rfl
    rw [hgap c List.mem_cons_self] at hc
    cases hc

/-- The words of a text with single spaces between them take no more room than the text. -/
theorem length_intercalate_words_le (text : List Char) :
    ([' '].intercalate (words text)).length ≤ text.length := by
  obtain ⟨found, hfound⟩ := exists_hasWords text
  rw [hfound.words_eq]
  induction hfound with
  | none => exact Nat.zero_le _
  | last =>
    rw [List.intercalate_singleton, List.length_append]
    omega
  | @next gap word rest blank found hgap hword hblank hrest ih =>
    rw [List.length_append, List.length_append, List.length_cons]
    by_cases hfound : found = []
    · rw [hfound, List.intercalate_singleton]
      omega
    · rw [List.intercalate_cons_of_ne_nil hfound, List.length_append, List.length_append,
        List.length_singleton]
      omega

/-- Joining the words of a text brings in nothing but spaces. -/
theorem mem_intercalate_words {text : List Char} {c : Char}
    (h : c ∈ [' '].intercalate (words text)) : c = ' ' ∨ c ∈ text := by
  obtain ⟨found, hfound⟩ := exists_hasWords text
  rw [hfound.words_eq] at h
  induction hfound with
  | none => exact nomatch h
  | last =>
    rw [List.intercalate_singleton] at h
    exact .inr (List.mem_append_right _ h)
  | @next gap word rest blank found hgap hword hblank hrest ih =>
    by_cases hfound : found = []
    · rw [hfound, List.intercalate_singleton] at h
      exact .inr (List.mem_append_left _ (List.mem_append_right _ h))
    · rw [List.intercalate_cons_of_ne_nil hfound, List.append_assoc] at h
      rcases List.mem_append.mp h with hc | hc
      · exact .inr (List.mem_append_left _ (List.mem_append_right _ hc))
      · rcases List.mem_cons.mp hc with hspace | hc
        · exact .inl hspace
        · exact (ih hc).imp_right fun hrest => List.mem_append_right _ (List.mem_cons_of_mem _ hrest)

/-- A text that starts with a word starts like its words. -/
theorem head?_intercalate_words {text : List Char} (h : ∀ c ∈ text.head?, isBlank c = false) :
    ([' '].intercalate (words text)).head? = text.head? := by
  obtain ⟨found, hfound⟩ := exists_hasWords text
  rw [hfound.words_eq]
  cases hfound with
  | none hgap =>
    rw [@gap_eq_nil _ [] hgap (by rw [List.append_nil]; exact h)]
    rfl
  | last hgap hword =>
    rw [gap_eq_nil hgap h, List.intercalate_singleton]
    rfl
  | @next gap word rest blank found hgap hword hblank hrest =>
    rw [List.append_assoc] at h ⊢
    obtain rfl : gap = [] := gap_eq_nil hgap h
    rw [List.nil_append, List.head?_append_of_ne_nil _ hword.ne_nil]
    by_cases hfound : found = []
    · rw [hfound, List.intercalate_singleton]
    · rw [List.intercalate_cons_of_ne_nil hfound, List.append_assoc,
        List.head?_append_of_ne_nil _ hword.ne_nil]

/-- Single spaces between words are what a text with such blanks has already. -/
theorem intercalate_words_eq_self {text : List Char} (h : IsSpaced text) :
    [' '].intercalate (words text) = text := by
  obtain ⟨found, hfound⟩ := exists_hasWords text
  rw [hfound.words_eq]
  induction hfound with
  | @none gap hgap =>
    rw [@gap_eq_nil _ [] hgap (by rw [List.append_nil]; exact h.no_blank_front)]
    rfl
  | @last gap word hgap hword =>
    rw [gap_eq_nil hgap h.no_blank_front, List.intercalate_singleton]
    rfl
  | @next gap word rest blank found hgap hword hblank hrest ih =>
    rw [List.append_assoc] at h ⊢
    obtain rfl : gap = [] := gap_eq_nil hgap h.no_blank_front
    obtain ⟨rfl, hne, hspaced⟩ := (isSpaced_word_append_iff hword hblank).mp h
    have hback := ih hspaced
    have hfound : found ≠ [] := by
      rintro rfl
      exact hne hback.symm
    rw [List.intercalate_cons_of_ne_nil hfound, hback, List.append_assoc]
    rfl

end CsvQuery
