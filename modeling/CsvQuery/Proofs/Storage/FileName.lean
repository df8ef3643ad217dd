/-
  CsvQuery.Proofs.Storage.FileName — a reduced name is one safe part of a path.

  The name is brought into shape step by step: safe characters without blanks around them, then something
  at the front that is neither a point nor a blank and no name of a device, then a length that fits.  No
  step spoils what the one before it did; in particular the cut leaves the front alone and cannot make the
  name of a device, as such a name is short.  A name that has all of this, and single spaces only, is left
  as it is, and no other is.

  Main results:
    • `isPrefix_takeBytes` — the cut drops no more than it must
    • `isProper_anchored`, `IsProper.takeBytes` — what the steps establish and keep
    • `Path.resolve_join` — a proper name behind a path leads right into where the path leads
    • `sanitize_eq_self_iff` — the names that are left as they are
    • `sanitize_is_safe_component` — all of it, for every name
-/
import CsvQuery.Proofs.Text.Spaces
import CsvQuery.Storage.FileName
import CsvQuery.Storage.Path

namespace CsvQuery

/-! ## §1. Cutting to a number of bytes -/

theorem utf8ByteSize_ofList_cons (c : Char) (rest : List Char) :
    (String.ofList (c :: rest)).utf8ByteSize = c.utf8Size + (String.ofList rest).utf8ByteSize := by
  rw [String.ofList_cons, String.utf8ByteSize_append, String.utf8ByteSize_singleton]

/-- No character takes more than four bytes. -/
theorem utf8ByteSize_ofList_le (text : List Char) :
    (String.ofList text).utf8ByteSize ≤ 4 * text.length := by
  induction text with
  | nil => exact Nat.zero_le _
  | cons c text ih =>
    have hc : c.utf8Size ≤ 4 := c.utf8Size_le_four
    rw [utf8ByteSize_ofList_cons, List.length_cons]
    omega

theorem takeBytes_isPrefix (limit : Nat) (text : List Char) : takeBytes limit text <+: text := by
  induction text generalizing limit with
  | nil => exact List.prefix_refl _
  | cons c text ih =>
    unfold takeBytes
    split
    · exact List.cons_prefix_cons.mpr ⟨rfl, ih _⟩
    · exact List.nil_prefix

theorem utf8ByteSize_takeBytes_le (limit : Nat) (text : List Char) :
    (String.ofList (takeBytes limit text)).utf8ByteSize ≤ limit := by
  induction text generalizing limit with
  | nil => exact Nat.zero_le _
  | cons c text ih =>
    unfold takeBytes
    split
    case isTrue hc =>
      have hrest := ih (limit - c.utf8Size)
      rw [utf8ByteSize_ofList_cons]
      omega
    case isFalse => exact Nat.zero_le _

/-- Every start of the text that fits is kept. -/
theorem isPrefix_takeBytes {limit : Nat} {text start : List Char} (hstart : start <+: text)
    (hfits : (String.ofList start).utf8ByteSize ≤ limit) : start <+: takeBytes limit text := by
  induction text generalizing limit start with
  | nil =>
    rw [List.prefix_nil.mp hstart]
    exact List.nil_prefix
  | cons c text ih =>
    cases start with
    | nil => exact List.nil_prefix
    | cons d start =>
      obtain ⟨rfl, hrest⟩ := List.cons_prefix_cons.mp hstart
      rw [utf8ByteSize_ofList_cons] at hfits
      unfold takeBytes
      rw [if_pos (by omega)]
      exact List.cons_prefix_cons.mpr ⟨rfl, ih hrest (by omega)⟩

/-- A text is not cut exactly when it fits into the limit. -/
theorem takeBytes_eq_self_iff {limit : Nat} {text : List Char} :
    takeBytes limit text = text ↔ (String.ofList text).utf8ByteSize ≤ limit := by
  constructor
  · intro h
    rw [← h]
    exact utf8ByteSize_takeBytes_le limit text
  · intro h
    exact (takeBytes_isPrefix limit text).eq_of_length_le
      (isPrefix_takeBytes (List.prefix_refl text) h).length_le

namespace FileName

/-! ## §2. Proper names -/

/-- What a file name has to be, whatever its length. -/
structure IsProper (name : List Char) : Prop where
  ne_nil : name ≠ []
  safe : ∀ c ∈ name, isSafe c = true
  no_point : '.' ∉ name.head?
  no_blank : ∀ c ∈ name.head?, isBlank c = false
  no_device : isDevice name = false

/-- Only safe characters are left in a cleaned name. -/
theorem isSafe_of_mem_cleaned {name : List Char} {c : Char} (h : c ∈ cleaned name) :
    isSafe c = true := (List.mem_filter.mp ((trim_sublist _).mem h)).2

theorem isWord_fallback : IsWord fallback where
  ne_nil := by decide
  solid c hc := by
    have hall : fallback.all (fun c => !isBlank c) = true := by decide
    simpa using List.all_eq_true.mp hall c hc

theorem isProper_fallback : IsProper fallback where
  ne_nil := isWord_fallback.ne_nil
  safe := List.all_eq_true.mp (by decide)
  no_point := by decide
  no_blank := (isSpaced_of_isWord isWord_fallback).no_blank_front
  no_device := by decide

/-- The name of a device is short. -/
theorem length_le_of_isDevice {name : List Char} (h : isDevice name = true) : name.length ≤ 4 := by
  have hshort : ∀ device ∈ deviceNames, device.length ≤ 4 := by decide
  have hlength := hshort _ (List.contains_iff_mem.mp h)
  unfold asciiUpper at hlength
  rwa [List.length_map] at hlength

/-- Safe characters without a blank at the front make a proper name. -/
theorem isProper_anchored {name : List Char} (hsafe : ∀ c ∈ name, isSafe c = true)
    (hblank : ∀ c ∈ name.head?, isBlank c = false) : IsProper (anchored name) := by
  unfold anchored
  by_cases hempty : name.isEmpty || isDevice name
  · rw [if_pos hempty]
    exact isProper_fallback
  · rw [if_neg hempty]
    rw [Bool.or_eq_true, not_or, List.isEmpty_iff, Bool.not_eq_true] at hempty
    by_cases hpoint : name.head? = some '.'
    · rw [if_pos hpoint]
      refine ⟨by simp [fallback], ?_, by simp [fallback], by simp [fallback]; decide, ?_⟩
      · exact List.forall_mem_append.mpr ⟨isProper_fallback.safe, hsafe⟩
      · -- the fallback name alone is as long as a name of a device can be
        rw [← Bool.not_eq_true]
        intro hdevice
        have hlength := length_le_of_isDevice hdevice
        have hpositive := List.length_pos_iff.mpr hempty.1
        rw [List.length_append] at hlength
        have : fallback.length = 4 := rfl
        omega
    · rw [if_neg hpoint]
      exact ⟨hempty.1, hsafe, hpoint, hblank, hempty.2⟩

/-- Cutting a proper name leaves a proper name. -/
theorem IsProper.takeBytes {name : List Char} (h : IsProper name) :
    IsProper (takeBytes maxBytes name) := by
  have hcut := takeBytes_isPrefix maxBytes name
  -- every start of up to eight characters is kept
  have hkept : ∀ start, start <+: name → start.length ≤ 8 → start <+: CsvQuery.takeBytes maxBytes name :=
    fun start hstart hlength => by
      refine isPrefix_takeBytes hstart ((utf8ByteSize_ofList_le start).trans ?_)
      unfold maxBytes
      omega
  obtain ⟨c, rest, rfl⟩ := List.exists_cons_of_ne_nil h.ne_nil
  refine ⟨fun hnil => ?_, fun d hd => h.safe d (hcut.subset hd),
    fun hpoint => h.no_point (mem_head?_of_isPrefix hcut hpoint),
    fun d hd => h.no_blank d (mem_head?_of_isPrefix hcut hd), ?_⟩
  · have hfront := hkept [c] (List.cons_prefix_cons.mpr ⟨rfl, List.nil_prefix⟩) (by simp)
    rw [hnil] at hfront
    exact List.cons_ne_nil _ _ (List.prefix_nil.mp hfront)
  · rw [← Bool.not_eq_true]
    intro hdevice
    -- what is left is too short for anything to have been cut off behind it
    have hshort : (c :: rest).length ≤ 4 := by
      have hfront := (hkept _ (List.take_prefix 5 (c :: rest)) (by rw [List.length_take]; omega)).length_le
      have hlength := length_le_of_isDevice hdevice
      rw [List.length_take] at hfront
      omega
    have hwhole := hkept _ (List.prefix_refl _) (by omega)
    rw [hcut.eq_of_length_le hwhole.length_le, h.no_device] at hdevice
    cases hdevice

/-! ## §3. Names that are left as they are -/

/-- A proper name with single spaces that is short enough. -/
structure IsPlain (name : List Char) : Prop extends IsProper name, IsSpaced name where
  short : (String.ofList name).utf8ByteSize ≤ maxBytes

/-- Where all characters are safe, cleaning only brings the blanks into shape. -/
theorem cleaned_of_safe {name : List Char} (h : ∀ c ∈ name, isSafe c = true) :
    cleaned name = [' '].intercalate (words name) := by
  have hsafe : ∀ c ∈ [' '].intercalate (words name), isSafe c = true := fun c hc => by
    rcases mem_intercalate_words hc with rfl | hname
    · decide
    · exact h c hname
  have hspaced : IsSpaced ([' '].intercalate (words name)) := isSpaced_intercalate fun _ => isWord_of_mem_words
  unfold cleaned
  rw [List.filter_eq_self.mpr hsafe, trim_eq_self hspaced.no_blank_front hspaced.no_blank_end]

/-- Whatever the name was, it is proper once it is cleaned, anchored and cut. -/
theorem isProper_reduced (name : List Char) :
    IsProper (takeBytes maxBytes (anchored (cleaned name))) :=
  (isProper_anchored (fun _ => isSafe_of_mem_cleaned) fun _ => isBlank_of_mem_head?_trim).takeBytes

/-- Nothing happens to a plain name on the way. -/
theorem reduced_of_isPlain {name : List Char} (h : IsPlain name) :
    takeBytes maxBytes (anchored (cleaned name)) = name := by
  have hpoint : ¬ name.head? = some '.' := h.no_point
  have hanchored : anchored name = name := by
    unfold anchored
    rw [if_neg (by simp [h.ne_nil, h.no_device]), if_neg hpoint]
  rw [cleaned_of_safe h.safe, intercalate_words_eq_self h.toIsSpaced, hanchored]
  exact takeBytes_eq_self_iff.mpr h.short

/-- A name that is left as it is has single spaces only: otherwise its words would be shorter. -/
theorem isSpaced_of_reduced_eq_self {name : List Char}
    (h : takeBytes maxBytes (anchored (cleaned name)) = name) : IsSpaced name := by
  have hproper : IsProper name := h ▸ isProper_reduced name
  have hcleaned := cleaned_of_safe hproper.safe
  have hcut : name <+: anchored (cleaned name) := by
    have := takeBytes_isPrefix maxBytes (anchored (cleaned name))
    rwa [h] at this
  unfold anchored at hcut
  by_cases hfallback : (cleaned name).isEmpty || isDevice (cleaned name)
  · -- the fallback name is all that the start of a fallback name can be
    rw [if_pos hfallback] at hcut
    have hword : IsWord name :=
      ⟨hproper.ne_nil, fun c hc => isWord_fallback.solid c (hcut.subset hc)⟩
    exact isSpaced_of_isWord hword
  · rw [if_neg hfallback] at hcut
    by_cases hpoint : (cleaned name).head? = some '.'
    · -- what starts like the fallback name does not start with a point
      rw [if_pos hpoint] at hcut
      rw [hcleaned, head?_intercalate_words hproper.no_blank] at hpoint
      exact absurd hpoint hproper.no_point
    · rw [if_neg hpoint, hcleaned] at hcut
      rw [hcut.eq_of_length_le (length_intercalate_words_le name)]
      exact isSpaced_intercalate fun _ => isWord_of_mem_words

theorem toList_sanitize (name : String) :
    (sanitize name).toList = takeBytes maxBytes (anchored (cleaned name.toList)) :=
  String.toList_ofList

/-- Exactly the plain names are left as they are. -/
theorem sanitize_eq_self_iff {name : String} : sanitize name = name ↔ IsPlain name.toList := by
  rw [← String.toList_inj, toList_sanitize]
  constructor
  · intro h
    have hproper : IsProper name.toList := h ▸ isProper_reduced name.toList
    refine ⟨hproper, isSpaced_of_reduced_eq_self h, ?_⟩
    rw [← h]
    exact utf8ByteSize_takeBytes_le _ _
  · exact reduced_of_isPlain

end FileName

/-! ## §4. Paths -/

namespace Path

/-- A part of a path that neither stays nor goes up, and no more than one part. -/
structure IsComponent (name : String) : Prop where
  ne_empty : name ≠ ""
  ne_point : name ≠ "."
  ne_points : name ≠ ".."
  whole : separator ∉ name.toList

variable {place : List String} {path name : String}

/-- Following a component leads one step down. -/
theorem IsComponent.follow_eq (h : IsComponent name) : follow place name = place ++ [name] := by
  unfold follow
  rw [if_neg (not_or.mpr ⟨h.ne_empty, h.ne_point⟩), if_neg h.ne_points]

theorem IsComponent.parts_eq (h : IsComponent name) : parts name = [name] := by
  have hsolid : ∀ c ∈ name.toList, (c == separator) = false := fun c hc =>
    beq_false_of_ne fun heq => h.whole (heq ▸ hc)
  unfold parts List.splitOn
  rw [List.splitOnP_eq_singleton hsolid, List.map_singleton, String.ofList_toList]

/-- A component does not lead away from where it is followed. -/
theorem IsComponent.not_isAbsolute (h : IsComponent name) : isAbsolute name = false := by
  unfold isAbsolute
  rw [beq_eq_false_iff_ne]
  exact fun hhead => h.whole (List.mem_of_mem_head? hhead)

/-- A separator divides the parts of a path. -/
theorem parts_append_separator_append (path rest : String) :
    parts (path ++ String.singleton separator ++ rest) = parts path ++ parts rest := by
  have hsplit : (path.toList ++ separator :: rest.toList).splitOnP (· == separator)
      = path.toList.splitOnP (· == separator) ++ rest.toList.splitOnP (· == separator) :=
    List.splitOnP_append_cons _ _ (beq_self_eq_true separator)
  unfold parts List.splitOn
  rw [String.toList_append, String.toList_append, String.toList_singleton, List.append_assoc,
    ← List.map_append, ← hsplit]
  rfl

theorem isAbsolute_append (h : path ≠ "") (rest : String) :
    isAbsolute (path ++ rest) = isAbsolute path := by
  unfold isAbsolute
  rw [String.toList_append, List.head?_append_of_ne_nil _ (by simpa using h)]

/-- A component behind a path leads right into where the path leads. -/
theorem resolve_join (h : IsComponent name) (place : List String) (path : String) :
    resolve place (join path name) = resolve place path ++ [name] := by
  unfold join
  rw [h.not_isAbsolute, if_neg Bool.false_ne_true]
  by_cases hempty : path = ""
  · rw [hempty]
    show resolve place ("" ++ name) = place ++ [name]
    unfold resolve
    rw [String.empty_append, h.parts_eq, h.not_isAbsolute]
    exact h.follow_eq
  · by_cases hend : path.toList.getLast? = some separator
    · -- the empty part at the end of the path is where the component stands now
      obtain ⟨front, hfront⟩ := List.getLast?_eq_some_iff.mp hend
      have hpath : path = String.ofList front ++ String.singleton separator := by
        rw [← String.toList_inj, hfront, String.toList_append, String.toList_ofList,
          String.toList_singleton]
      have hparts : parts path = parts (String.ofList front) ++ [""] := by
        have happend := parts_append_separator_append (String.ofList front) ""
        rwa [String.append_empty, ← hpath] at happend
      have hjoined : parts (path ++ name) = parts (String.ofList front) ++ [name] := by
        rw [hpath, parts_append_separator_append, h.parts_eq]
      rw [if_pos (by simp [hend])]
      unfold resolve
      rw [hjoined, hparts, isAbsolute_append hempty, List.foldl_append, List.foldl_append]
      exact h.follow_eq
    · rw [if_neg (by simp [hempty, hend])]
      unfold resolve
      rw [parts_append_separator_append, h.parts_eq, String.append_assoc,
        isAbsolute_append hempty, List.foldl_append]
      exact h.follow_eq

end Path

namespace FileName

/-! ## §5. Every name -/

/-- A proper name is a component: it has no separator and is neither of the names with dots. -/
theorem IsProper.isComponent {name : String} (h : IsProper name.toList) : Path.IsComponent name where
  ne_empty hname := h.ne_nil (by rw [hname]; rfl)
  ne_point hname := h.no_point (by rw [hname]; rfl)
  ne_points hname := h.no_point (by rw [hname]; rfl)
  whole hmem := absurd (h.safe _ hmem) (by decide)

/-- Whatever the name, what it is reduced to is not empty, has at most 255 bytes, namely the longest start
that fits of what the steps before the cut make of it, and has no control character and none with a meaning
in paths.  It starts with neither a point nor a blank and is not the name of a device, in any letter case.
So behind the path of a directory it leads right into this directory.  The names that are left as they are
are exactly the plain ones. -/
theorem sanitize_is_safe_component (name : String) :
    let whole := anchored (cleaned name.toList)
    let safe := (sanitize name).toList
    safe ≠ [] ∧
    (sanitize name).utf8ByteSize ≤ 255 ∧
    (safe <+: whole ∧ ∀ start, start <+: whole → (String.ofList start).utf8ByteSize ≤ 255 →
      start <+: safe) ∧
    (∀ c ∈ safe, isControl c = false ∧ c ∉ pathChars) ∧
    '.' ∉ safe.head? ∧
    (∀ c ∈ safe.head?, isBlank c = false) ∧
    asciiUpper safe ∉ deviceNames ∧
    (∀ place root, Path.resolve place (Path.join root (sanitize name))
      = Path.resolve place root ++ [sanitize name]) ∧
    (sanitize name = name ↔ IsPlain name.toList) := by
  intro whole safe
  have hsafe : safe = takeBytes maxBytes whole := toList_sanitize name
  have hproper : IsProper safe := hsafe ▸ isProper_reduced name.toList
  refine ⟨hproper.ne_nil, utf8ByteSize_takeBytes_le maxBytes whole, ⟨?_, fun start hstart hfits => ?_⟩,
    fun c hc => ?_, hproper.no_point, hproper.no_blank, ?_, Path.resolve_join hproper.isComponent,
    sanitize_eq_self_iff⟩
  · rw [hsafe]
    exact takeBytes_isPrefix maxBytes whole
  · rw [hsafe]
    exact isPrefix_takeBytes hstart hfits
  · have hc := hproper.safe c hc
    unfold isSafe at hc
    simpa using hc
  · have hdevice := hproper.no_device
    unfold isDevice at hdevice
    simpa using hdevice

/-- A name with a space in it is plain, and what leads out of a directory is not. -/
theorem sanitize_is_safe_component_spaced :
    IsPlain "a b.csv".toList ∧ sanitize "a b.csv" = "a b.csv" ∧
    Path.resolve ["srv"] (Path.join "data" (sanitize "../../etc"))
      = ["srv", "data", sanitize "../../etc"] := by
  have hspaced : IsSpaced "a b.csv".toList := by
    have hwords : words "a b.csv".toList = [['a'], ['b', '.', 'c', 's', 'v']] := by decide +kernel
    have hjoined : [' '].intercalate (words "a b.csv".toList) = "a b.csv".toList := by
      rw [hwords]
      rfl
    exact hjoined ▸ isSpaced_intercalate fun _ => isWord_of_mem_words
  have hplain : IsPlain "a b.csv".toList :=
    { ne_nil := by decide +kernel
      safe := List.all_eq_true.mp (by decide +kernel)
      no_point := by decide +kernel
      no_blank := hspaced.no_blank_front
      no_device := by decide +kernel
      toIsSpaced := hspaced
      short := by decide +kernel }
  obtain ⟨-, -, -, -, -, -, -, -, hunchanged⟩ := sanitize_is_safe_component "a b.csv"
  obtain ⟨-, -, -, -, -, -, -, hinside, -⟩ := sanitize_is_safe_component "../../etc"
  exact ⟨hplain, hunchanged.mpr hplain, hinside ["srv"] "data"⟩

end FileName

end CsvQuery
