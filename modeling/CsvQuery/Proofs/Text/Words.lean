/-
  CsvQuery.Proofs.Text.Words — the words of a text, as they stand in it.

  Words are parted by blanks, with any number of them before the first word and behind the last one.  Such
  a reading of a text is the only one it has: a blank ends the word before it whatever follows, so a text
  can be read word by word from the front.

  Main results:
    • `words_append_blank` — a blank parts the words before it from those behind it
    • `hasWords_iff` — the words of a text are its one reading
-/
import Mathlib.Data.List.TakeWhile
import CsvQuery.Text.Blank

namespace CsvQuery

/-! ## §1. Readings -/

/-- At least one character, and none that is blank. -/
structure IsWord (word : List Char) : Prop where
  ne_nil : word ≠ []
  solid : ∀ c ∈ word, isBlank c = false

/-- A text consists of these words with blanks between them and, if any, around them. -/
inductive HasWords : List Char → List (List Char) → Prop where
  /-- Nothing but blanks. -/
  | none {gap : List Char} (hgap : ∀ c ∈ gap, isBlank c = true) : HasWords gap []
  /-- A word at the end of the text. -/
  | last {gap word : List Char} (hgap : ∀ c ∈ gap, isBlank c = true) (hword : IsWord word) :
      HasWords (gap ++ word) [word]
  /-- A word that a blank ends. -/
  | next {gap word rest : List Char} {blank : Char} {found : List (List Char)}
      (hgap : ∀ c ∈ gap, isBlank c = true) (hword : IsWord word) (hblank : isBlank blank = true)
      (hrest : HasWords rest found) : HasWords (gap ++ word ++ blank :: rest) (word :: found)

/-! ## §2. Words by parts -/

/-- No character from the exclamation mark up to the first control codes of C1 is blank. -/
theorem isBlank_eq_false {c : Char} (hlow : 0x20 < c.toNat) (hhigh : c.toNat < 0x85) :
    isBlank c = false := by
  unfold isBlank blankRanges
  simp
  omega

/-- A blank ends a word. -/
theorem words_append_blank (before : List Char) {blank : Char} (hblank : isBlank blank = true)
    (rest : List Char) : words (before ++ blank :: rest) = words before ++ words rest := by
  unfold words
  rw [List.splitOnP_append_cons before rest hblank, List.filter_append]

/-- Blanks before a text do not change its words. -/
theorem words_gap_append {gap : List Char} (hgap : ∀ c ∈ gap, isBlank c = true) (rest : List Char) :
    words (gap ++ rest) = words rest := by
  induction gap with
  | nil => rfl
  | cons c gap ih =>
    have hc : isBlank c = true := hgap c List.mem_cons_self
    calc words ([] ++ c :: (gap ++ rest))
        = words [] ++ words (gap ++ rest) := words_append_blank [] hc (gap ++ rest)
      _ = words rest := ih fun d hd => hgap d (List.mem_cons_of_mem c hd)

theorem words_of_blank {gap : List Char} (hgap : ∀ c ∈ gap, isBlank c = true) : words gap = [] := by
  have h := words_gap_append hgap []
  rwa [List.append_nil] at h

theorem words_of_isWord {word : List Char} (h : IsWord word) : words word = [word] := by
  unfold words
  rw [List.splitOnP_eq_singleton h.solid]
  simp [h.ne_nil]

/-! ## §3. The one reading -/

/-- The words that a text is made of are found in it. -/
theorem HasWords.words_eq {text : List Char} {found : List (List Char)} (h : HasWords text found) :
    words text = found := by
  induction h with
  | none hgap => exact words_of_blank hgap
  | last hgap hword => rw [words_gap_append hgap, words_of_isWord hword]
  | next hgap hword hblank _ ih =>
    rw [words_append_blank _ hblank, words_gap_append hgap, words_of_isWord hword, ih]
    rfl

theorem HasWords.isWord {text : List Char} {found : List (List Char)} (h : HasWords text found) :
    ∀ word ∈ found, IsWord word := by
  induction h with
  | none => exact List.forall_mem_nil _
  | last hgap hword => exact List.forall_mem_singleton.mpr hword
  | next hgap hword hblank hrest ih => exact List.forall_mem_cons.mpr ⟨hword, ih⟩

/-- Every text can be read: blanks are passed over, and then a word is taken up to the next blank. -/
theorem exists_hasWords (text : List Char) : ∃ found, HasWords text found := by
  have hgap : ∀ c ∈ text.takeWhile isBlank, isBlank c = true := fun c hc => List.mem_takeWhile_imp hc
  have htext : text.takeWhile isBlank ++ text.dropWhile isBlank = text :=
    List.takeWhile_append_dropWhile
  cases hfront : text.dropWhile isBlank with
  | nil =>
    rw [hfront, List.append_nil] at htext
    exact ⟨[], htext ▸ .none hgap⟩
  | cons c behind =>
    have hc : isBlank c = false := by
      have := List.head?_dropWhile_not isBlank text
      rw [hfront] at this
      simpa using this
    have hword : IsWord ((c :: behind).takeWhile (!isBlank ·)) := by
      refine ⟨by simp [hc], fun d hd => ?_⟩
      simpa using List.mem_takeWhile_imp hd
    have hsplit : (c :: behind).takeWhile (!isBlank ·) ++ (c :: behind).dropWhile (!isBlank ·)
        = c :: behind := List.takeWhile_append_dropWhile
    cases hrest : (c :: behind).dropWhile (!isBlank ·) with
    | nil =>
      -- the word reaches to the end of the text
      rw [hrest, List.append_nil] at hsplit
      rw [hfront, ← hsplit] at htext
      exact ⟨_, htext ▸ HasWords.last hgap hword⟩
    | cons blank rest =>
      -- a blank ends the word, and what is left to read is shorter by both
      have hblank : isBlank blank = true := by
        have := List.head?_dropWhile_not (!isBlank ·) (c :: behind)
        rw [hrest] at this
        simpa using this
      rw [hrest] at hsplit
      rw [hfront, ← hsplit, ← List.append_assoc] at htext
      have hshorter : rest.length < text.length := by
        rw [← htext]
        simp
        omega
      obtain ⟨found, hfound⟩ := exists_hasWords rest
      exact ⟨_, htext ▸ HasWords.next hgap hword hblank hfound⟩
termination_by text.length

/-- All that is found in a text are words. -/
theorem isWord_of_mem_words {text word : List Char} (h : word ∈ words text) : IsWord word := by
  obtain ⟨found, hfound⟩ := exists_hasWords text
  rw [hfound.words_eq] at h
  exact hfound.isWord word h

/-- The words of a text are its one reading. -/
theorem hasWords_iff {text : List Char} {found : List (List Char)} :
    HasWords text found ↔ words text = found := by
  constructor
  · exact HasWords.words_eq
  · intro h
    obtain ⟨read, hread⟩ := exists_hasWords text
    rw [← h, hread.words_eq]
    exact hread

end CsvQuery
