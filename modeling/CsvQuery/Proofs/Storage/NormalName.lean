/-
  CsvQuery.Proofs.Storage.NormalName — the blanks of a reduced name.

  Reducing a name brings its blanks to single spaces before it removes characters, and trims before it
  cuts.  So two spaces meet where a whole word is removed between two others, and a space is left at the
  end where the cut falls behind it.  Nothing else goes wrong: a reduced name starts with no blank and has
  no other blanks than spaces, and reducing it once more gives a name that stays as it is.

  Main results:
    • `isSpaced_anchored_cleaned_iff` — what removing characters does to the blanks
    • `isSpaced_takeBytes_iff` — what the cut does to them
    • `isPlain_sanitize_sanitize` — reducing twice is always enough
    • `sanitize_normal_iff` — when reducing once is
-/
import CsvQuery.Proofs.Storage.FileName
import CsvQuery.Proofs.Text.Pieces

namespace CsvQuery

/-! ## §1. Bytes -/

theorem utf8ByteSize_ofList_append (text more : List Char) :
    (String.ofList (text ++ more)).utf8ByteSize
      = (String.ofList text).utf8ByteSize + (String.ofList more).utf8ByteSize := by
  rw [String.ofList_append, String.utf8ByteSize_append]

theorem utf8ByteSize_le_of_isPrefix {front text : List Char} (h : front <+: text) :
    (String.ofList front).utf8ByteSize ≤ (String.ofList text).utf8ByteSize := by
  obtain ⟨behind, rfl⟩ := h
  rw [utf8ByteSize_ofList_append]
  exact Nat.le_add_right _ _

/-- The words of a text with single spaces between them take no more bytes than the text. -/
theorem utf8ByteSize_intercalate_words_le (text : List Char) :
    (String.ofList ([' '].intercalate (words text))).utf8ByteSize ≤ (String.ofList text).utf8ByteSize := by
  obtain ⟨found, hfound⟩ := exists_hasWords text
  rw [hfound.words_eq]
  induction hfound with
  | none => exact Nat.zero_le _
  | last =>
    rw [List.intercalate_singleton, utf8ByteSize_ofList_append]
    omega
  | @next gap word rest blank found hgap hword hblank hrest ih =>
    rw [utf8ByteSize_ofList_append, utf8ByteSize_ofList_append, utf8ByteSize_ofList_cons]
    by_cases hlast : found = []
    · rw [hlast, List.intercalate_singleton]
      omega
    · -- no blank takes fewer bytes than a space
      have hspace : (String.ofList [' ']).utf8ByteSize = 1 := rfl
      have hpos : 0 < blank.utf8Size := blank.utf8Size_pos
      rw [List.intercalate_cons_of_ne_nil hlast, utf8ByteSize_ofList_append, utf8ByteSize_ofList_append,
        hspace]
      omega

/-! ## §2. Blanks at the cut -/

/-- A word right before a text that starts with no blank leaves the blanks as they are. -/
theorem isSpaced_append_iff {word text : List Char} (hword : IsWord word) (hne : text ≠ [])
    (hfront : ∀ c ∈ text.head?, isBlank c = false) : IsSpaced (word ++ text) ↔ IsSpaced text := by
  have hspaced := isSpaced_of_isWord hword
  constructor
  · intro h
    refine ⟨hfront, fun c hc => h.no_blank_end c ?_, fun c hc => h.space c (List.mem_append_right _ hc),
      (List.isChain_append.mp h.single).2.1⟩
    rwa [List.getLast?_append_of_ne_nil _ hne]
  · intro h
    refine ⟨fun c hc => ?_, fun c hc => ?_, fun c hc => ?_,
      List.isChain_append.mpr ⟨hspaced.single, h.single, fun _ _ d hd _ => hfront d hd⟩⟩
    · rw [List.head?_append_of_ne_nil _ hword.ne_nil] at hc
      exact hspaced.no_blank_front c hc
    · rw [List.getLast?_append_of_ne_nil _ hne] at hc
      exact h.no_blank_end c hc
    · exact (List.mem_append.mp hc).elim (hspaced.space c) (h.space c)

/-- Neither small letters nor their capitals are blank, and nothing else is changed. -/
theorem isBlank_toUpper (c : Char) : isBlank c.toUpper = isBlank c := by
  unfold Char.toUpper
  split
  next hletter =>
    have hlow : 97 ≤ c.toNat := UInt32.le_iff_toNat_le.mp hletter.1
    have hhigh : c.toNat ≤ 122 := UInt32.le_iff_toNat_le.mp hletter.2
    have hupper : (c.val + ('A'.val - 'a'.val)).toNat = c.toNat - 32 := by
      have hoffset : ('A'.val - 'a'.val).toNat = 2 ^ 32 - 32 := by decide
      rw [UInt32.toNat_add, hoffset]
      show (c.toNat + _) % _ = _
      omega
    rw [isBlank_eq_false (c := c) (by omega) (by omega)]
    apply isBlank_eq_false
    · show 0x20 < (c.val + ('A'.val - 'a'.val)).toNat
      omega
    · show (c.val + ('A'.val - 'a'.val)).toNat < 0x85
      omega
  next => rfl

/-- Of the first `limit` bytes of a text, every space has a character right behind it that is no space. -/
def SpacesEndWithin (limit : Nat) (text : List Char) : Prop :=
  ∀ front back, text = front ++ ' ' :: back →
    (String.ofList (front ++ [' '])).utf8ByteSize ≤ limit →
    ∃ c ∈ back.head?, c ≠ ' ' ∧ (String.ofList (front ++ [' ', c])).utf8ByteSize ≤ limit

/-- A cut text is spaced when each of its spaces is followed by something else before the cut. -/
theorem isSpaced_takeBytes_iff {limit : Nat} {text : List Char}
    (hfront : ∀ c ∈ text.head?, isBlank c = false)
    (hspace : ∀ c ∈ text, isBlank c = true → c = ' ') :
    IsSpaced (takeBytes limit text) ↔ SpacesEndWithin limit text := by
  have hcut := takeBytes_isPrefix limit text
  have hfits := utf8ByteSize_takeBytes_le limit text
  constructor
  · intro h front back htext hsize
    have hkept : front ++ [' '] <+: takeBytes limit text :=
      isPrefix_takeBytes ⟨back, by rw [htext, List.append_assoc]; rfl⟩ hsize
    obtain ⟨rest, hrest⟩ := hkept
    rw [List.append_assoc, List.singleton_append] at hrest
    cases rest with
    | nil =>
      have hlast := h.no_blank_end ' ' (by rw [← hrest]; simp)
      exact absurd hlast (by decide)
    | cons c rest =>
      have hnext : isBlank ' ' = true → isBlank c = false :=
        List.isChain_iff_forall_rel_of_append_cons_cons.mp h.single hrest.symm
      have hback : back.head? = some c := by
        obtain ⟨behind, hbehind⟩ := hcut
        rw [← hrest, htext, List.append_assoc] at hbehind
        have htail := List.append_cancel_left hbehind
        injection htail with _ htail
        rw [← htail]
        rfl
      refine ⟨c, hback, ?_, ?_⟩
      · rintro rfl
        exact absurd (hnext (by decide)) (by decide)
      · have hstart : front ++ [' ', c] <+: takeBytes limit text := ⟨rest, by rw [← hrest]; simp⟩
        exact (utf8ByteSize_le_of_isPrefix hstart).trans hfits
  · intro h
    -- what follows a kept space is kept and is not blank
    have hnext : ∀ front rest, takeBytes limit text = front ++ ' ' :: rest →
        ∃ c ∈ rest.head?, isBlank c = false := by
      intro front rest hrest
      obtain ⟨behind, hbehind⟩ := hcut
      have htext : text = front ++ ' ' :: (rest ++ behind) := by
        rw [← hbehind, hrest, List.append_assoc]
        rfl
      have hstart : front ++ [' '] <+: takeBytes limit text := ⟨rest, by rw [hrest]; simp⟩
      obtain ⟨c, hc, hne, hsize⟩ := h front _ htext ((utf8ByteSize_le_of_isPrefix hstart).trans hfits)
      obtain ⟨back, hback⟩ := List.head?_eq_some_iff.mp hc
      rw [hback] at htext
      have hkept : front ++ [' ', c] <+: takeBytes limit text :=
        isPrefix_takeBytes ⟨back, by rw [htext]; simp⟩ hsize
      rw [hrest, List.prefix_append_right_inj, List.cons_prefix_cons] at hkept
      refine ⟨c, mem_head?_of_isPrefix hkept.2 rfl, ?_⟩
      rw [← Bool.not_eq_true]
      exact fun hblank => hne (hspace c (by rw [htext]; simp) hblank)
    refine ⟨fun c hc => hfront c (mem_head?_of_isPrefix hcut hc), fun c hc => ?_,
      fun c hc => hspace c (hcut.subset hc), ?_⟩
    · rw [← Bool.not_eq_true]
      intro hblank
      obtain ⟨front, hlast⟩ := List.getLast?_eq_some_iff.mp hc
      obtain rfl := hspace c (hcut.subset (List.mem_of_getLast? hc)) hblank
      obtain ⟨d, hd, -⟩ := hnext front [] hlast
      cases hd
    · rw [List.isChain_iff_forall_rel_of_append_cons_cons]
      intro c d front rest heq hblank
      obtain rfl := hspace c (hcut.subset (by rw [heq]; simp)) hblank
      obtain ⟨d', hd', hsolid⟩ := hnext front (d :: rest) heq
      injection hd' with hd'
      rwa [hd']

namespace FileName

/-! ## §3. Blanks before the cut -/

/-- A word of which nothing is left stands between two words of which something is. -/
def LosesWord (name : List Char) : Prop :=
  ∃ before word after, words name = before ++ word :: after ∧ (∀ c ∈ word, isSafe c = false) ∧
    (∃ other ∈ before, ∃ c ∈ other, isSafe c = true) ∧ ∃ other ∈ after, ∃ c ∈ other, isSafe c = true

/-- What is left of the words of a name. -/
def keptWords (name : List Char) : List (List Char) := (words name).map (List.filter isSafe)

theorem isPiece_of_mem_keptWords {name piece : List Char} (h : piece ∈ keptWords name) : IsPiece piece := by
  obtain ⟨word, hword, rfl⟩ := List.mem_map.mp h
  intro c hc
  exact (isWord_of_mem_words hword).solid c (List.mem_filter.mp hc).1

/-- Nothing is kept of a word exactly when none of its characters is safe. -/
theorem filter_isSafe_eq_nil_iff {word : List Char} :
    word.filter isSafe = [] ↔ ∀ c ∈ word, isSafe c = false := by
  simp

theorem filter_isSafe_ne_nil_iff {word : List Char} :
    word.filter isSafe ≠ [] ↔ ∃ c ∈ word, isSafe c = true := by
  simp

/-- A cleaned name is what is left of the words, without those of which nothing is left at the ends. -/
theorem cleaned_eq (name : List Char) : cleaned name = [' '].intercalate (inner (keptWords name)) := by
  unfold cleaned
  rw [filter_intercalate (by decide)]
  exact trim_intercalate fun _ => isPiece_of_mem_keptWords

/-- A word is lost between others exactly when an empty piece is left between pieces that are not. -/
theorem losesWord_iff {name : List Char} : LosesWord name ↔ [] ∈ inner (keptWords name) := by
  rw [nil_mem_inner_iff]
  constructor
  · rintro ⟨before, word, after, hwords, hword, ⟨other, hother, hkept⟩, ⟨other', hother', hkept'⟩⟩
    refine ⟨before.map (List.filter isSafe), after.map (List.filter isSafe), ?_,
      ⟨_, List.mem_map_of_mem hother, filter_isSafe_ne_nil_iff.mpr hkept⟩,
      ⟨_, List.mem_map_of_mem hother', filter_isSafe_ne_nil_iff.mpr hkept'⟩⟩
    unfold keptWords
    rw [hwords, List.map_append, List.map_cons, filter_isSafe_eq_nil_iff.mpr hword]
  · rintro ⟨before, after, hpieces, ⟨piece, hpiece, hne⟩, ⟨piece', hpiece', hne'⟩⟩
    -- the pieces are those of words in the same places
    obtain ⟨before', tail, hwords, rfl, htail⟩ := List.map_eq_append_iff.mp hpieces
    obtain ⟨word, after', rfl, hword, rfl⟩ := List.map_eq_cons_iff.mp htail
    obtain ⟨other, hother, rfl⟩ := List.mem_map.mp hpiece
    obtain ⟨other', hother', rfl⟩ := List.mem_map.mp hpiece'
    exact ⟨before', word, after', hwords, filter_isSafe_eq_nil_iff.mp hword,
      ⟨other, hother, filter_isSafe_ne_nil_iff.mp hne⟩,
      ⟨other', hother', filter_isSafe_ne_nil_iff.mp hne'⟩⟩

instance (name : List Char) : Decidable (LosesWord name) := decidable_of_iff _ losesWord_iff.symm

/-- A cleaned name is spaced exactly when no word between others is lost. -/
theorem isSpaced_cleaned_iff {name : List Char} : IsSpaced (cleaned name) ↔ ¬LosesWord name := by
  rw [losesWord_iff, cleaned_eq,
    isSpaced_intercalate_iff fun _ hpiece => isPiece_of_mem_keptWords (mem_of_mem_inner hpiece)]
  exact or_iff_right inner_ne_singleton_nil

/-- A cleaned name has no other blanks than spaces. -/
theorem eq_space_of_mem_cleaned {name : List Char} {c : Char} (h : c ∈ cleaned name)
    (hblank : isBlank c = true) : c = ' ' := by
  have hjoined : c ∈ [' '].intercalate (words name) :=
    (List.mem_filter.mp ((trim_sublist _).mem h)).1
  exact (isSpaced_intercalate fun _ => isWord_of_mem_words).space c hjoined hblank

/-- The name of a device has no blanks. -/
theorem isWord_of_isDevice {name : List Char} (h : isDevice name = true) : IsWord name := by
  have hnames : deviceNames.all (fun device => !device.isEmpty && device.all (!isBlank ·)) = true := by
    decide
  have hdevice := List.all_eq_true.mp hnames _ (List.contains_iff_mem.mp h)
  rw [Bool.and_eq_true, List.all_eq_true] at hdevice
  obtain ⟨hne, hsolid⟩ := hdevice
  constructor
  · rintro rfl
    cases hne
  · intro c hc
    have hupper := hsolid _ (List.mem_map_of_mem hc)
    rw [Bool.not_eq_true'] at hupper
    rwa [← isBlank_toUpper]

/-- What is put before a name or in its place brings in no blanks and takes none away. -/
theorem isSpaced_anchored_iff {name : List Char} (hfront : ∀ c ∈ name.head?, isBlank c = false) :
    IsSpaced (anchored name) ↔ IsSpaced name := by
  unfold anchored
  by_cases hempty : name.isEmpty || isDevice name
  · rw [if_pos hempty]
    refine iff_of_true (isSpaced_of_isWord isWord_fallback) ?_
    rcases Bool.or_eq_true _ _ |>.mp hempty with hnil | hdevice
    · rw [List.isEmpty_iff.mp hnil]
      exact isSpaced_nil
    · exact isSpaced_of_isWord (isWord_of_isDevice hdevice)
  · rw [if_neg hempty]
    by_cases hpoint : name.head? = some '.'
    · rw [if_pos hpoint]
      exact isSpaced_append_iff isWord_fallback (by rintro rfl; cases hpoint) hfront
    · rw [if_neg hpoint]

/-- Whether a cleaned name is spaced does not change when it is anchored. -/
theorem isSpaced_anchored_cleaned_iff {name : List Char} :
    IsSpaced (anchored (cleaned name)) ↔ ¬LosesWord name := by
  rw [@isSpaced_anchored_iff (cleaned name) fun _ => isBlank_of_mem_head?_trim, isSpaced_cleaned_iff]

theorem eq_space_of_mem_anchored {name : List Char} (h : ∀ c ∈ name, isBlank c = true → c = ' ')
    {c : Char} (hc : c ∈ anchored name) (hblank : isBlank c = true) : c = ' ' := by
  have hfallback : c ∉ fallback := fun hmem => by
    rw [isWord_fallback.solid c hmem] at hblank
    cases hblank
  unfold anchored at hc
  split at hc
  · exact absurd hc hfallback
  · split at hc
    · exact (List.mem_append.mp hc).elim (absurd · hfallback) (h c · hblank)
    · exact h c hc hblank

/-! ## §4. Reducing again -/

/-- A reduced name is short and proper, so single spaces are all that it can lack to be plain. -/
theorem isPlain_sanitize_iff (name : String) :
    IsPlain (sanitize name).toList ↔ IsSpaced (sanitize name).toList := by
  constructor
  · exact IsPlain.toIsSpaced
  · intro h
    have hproper : IsProper (sanitize name).toList := toList_sanitize name ▸ isProper_reduced name.toList
    refine ⟨hproper, h, ?_⟩
    rw [toList_sanitize]
    exact utf8ByteSize_takeBytes_le _ _

/-- What is reduced twice is plain: the second time no character is removed and nothing is cut off. -/
theorem isPlain_sanitize_sanitize (name : String) : IsPlain (sanitize (sanitize name)).toList := by
  rw [isPlain_sanitize_iff, toList_sanitize]
  have hproper : IsProper (sanitize name).toList := toList_sanitize name ▸ isProper_reduced name.toList
  have hcleaned := cleaned_of_safe hproper.safe
  have hspaced : IsSpaced (cleaned (sanitize name).toList) :=
    hcleaned ▸ isSpaced_intercalate fun _ => isWord_of_mem_words
  have hshort : (String.ofList (cleaned (sanitize name).toList)).utf8ByteSize ≤ maxBytes := by
    rw [hcleaned]
    refine (utf8ByteSize_intercalate_words_le _).trans ?_
    rw [toList_sanitize]
    exact utf8ByteSize_takeBytes_le _ _
  have hpoint : ¬(cleaned (sanitize name).toList).head? = some '.' := by
    rw [hcleaned, head?_intercalate_words hproper.no_blank]
    exact hproper.no_point
  unfold anchored
  by_cases hfallback : (cleaned (sanitize name).toList).isEmpty
      || isDevice (cleaned (sanitize name).toList)
  · -- a cut may have left the name of a device with spaces behind it
    rw [if_pos hfallback, takeBytes_eq_self_iff.mpr (by decide)]
    exact isSpaced_of_isWord isWord_fallback
  · rw [if_neg hfallback, if_neg hpoint, takeBytes_eq_self_iff.mpr hshort]
    exact hspaced

/-- A reduced name starts with no blank and has spaces for its only blanks.  It is spaced, and reducing it
again changes nothing, exactly if each of its spaces has something other than a space behind it that the
cut leaves; before the cut, exactly the names that lose a word between others are not spaced.  Reducing
twice is always enough. -/
theorem sanitize_normal_iff (name : String) :
    let whole := anchored (cleaned name.toList)
    let safe := (sanitize name).toList
    (∀ c ∈ safe.head?, isBlank c = false) ∧
    (∀ c ∈ safe, isBlank c = true → c = ' ') ∧
    (sanitize (sanitize name) = sanitize name ↔ IsSpaced safe) ∧
    (IsSpaced safe ↔ SpacesEndWithin 255 whole) ∧
    (IsSpaced whole ↔ ¬LosesWord name.toList) ∧
    (safe = whole ↔ (String.ofList whole).utf8ByteSize ≤ 255) ∧
    IsSpaced (sanitize (sanitize name)).toList ∧
    sanitize (sanitize (sanitize name)) = sanitize (sanitize name) := by
  intro whole safe
  have hsafe : safe = takeBytes maxBytes whole := toList_sanitize name
  have hproper : IsProper safe := hsafe ▸ isProper_reduced name.toList
  have hwhole : IsProper whole :=
    isProper_anchored (fun _ => isSafe_of_mem_cleaned) fun _ => isBlank_of_mem_head?_trim
  have hspace : ∀ c ∈ whole, isBlank c = true → c = ' ' :=
    fun c => eq_space_of_mem_anchored fun _ => eq_space_of_mem_cleaned
  have htwice := isPlain_sanitize_sanitize name
  refine ⟨hproper.no_blank, fun c hc => ?_, ?_, ?_, isSpaced_anchored_cleaned_iff, ?_, htwice.toIsSpaced,
    sanitize_eq_self_iff.mpr htwice⟩
  · rw [hsafe] at hc
    exact hspace c ((takeBytes_isPrefix _ _).subset hc)
  · rw [sanitize_eq_self_iff, isPlain_sanitize_iff]
  · rw [hsafe]
    exact isSpaced_takeBytes_iff hwhole.no_blank hspace
  · rw [hsafe]
    exact takeBytes_eq_self_iff

/-- A question mark goes from between two words and leaves both of its spaces, and behind 254 letters the
cut leaves a space.  Reducing again takes these spaces away. -/
theorem sanitize_two_spaces :
    let long := String.ofList (List.replicate 254 'a' ++ [' ', 'b'])
    LosesWord "a ? b".toList ∧ sanitize "a ? b" = "a  b" ∧ ¬IsSpaced (sanitize "a ? b").toList ∧
    sanitize (sanitize "a ? b") = "a b" ∧ sanitize (sanitize (sanitize "a ? b")) = "a b" ∧
    (sanitize long).toList.getLast? = some ' ' ∧ sanitize (sanitize long) ≠ sanitize long := by
  intro long
  have hloses : LosesWord "a ? b".toList := by decide +kernel
  have honce : sanitize "a ? b" = "a  b" := by decide +kernel
  have htwice : sanitize (sanitize "a ? b") = "a b" := by decide +kernel
  have hlast : (sanitize long).toList.getLast? = some ' ' := by
    rw [toList_sanitize, String.toList_ofList]
    decide +kernel
  obtain ⟨-, -, hagain, -, -, -, -, hthrice⟩ := sanitize_normal_iff "a ? b"
  obtain ⟨-, -, hagain', -, -, -, -, -⟩ := sanitize_normal_iff long
  refine ⟨hloses, honce, ?_, htwice, hthrice.trans htwice, hlast, ?_⟩
  · rw [← hagain, htwice, honce]
    decide
  · rw [Ne, hagain']
    exact fun hspaced => absurd (hspaced.no_blank_end ' ' hlast) (by decide)

end FileName

end CsvQuery
