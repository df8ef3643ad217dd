/-
  CsvQuery.Proofs.Wire.Stream — whole streams of frames.

  A stream of any bytes is, in one way only, frames of at most the greatest size and an ending in which no
  such frame comes first.  Reading again and again gives the outcome of each of these frames, a text or a
  refusal of bytes that are none, and then the outcome of the ending; so a frame that is refused is stepped
  over, and reading comes to its end.  What was written is a stream of this kind whose frames are texts and
  whose ending is empty, and a cut through it leaves the frames before the cut as they are.

  Main results:
    • `read_framed_append`, `Ending.read_eq` — reading at a frame and at an ending
    • `exists_ending` — every stream is frames and an ending
    • `readAll_flatMap_framed_append`, `Ending.readAll_eq` — all outcomes of a stream
    • `frames_read_back` — what was written is read, whole or cut
    • `reading_accepts_frames` — what is read has been written, whatever the stream
-/
import CsvQuery.Proofs.Wire.Frame

namespace CsvQuery

/-- Bytes cannot be decoded exactly when they are those of no text. -/
theorem ofUtf8?_eq_none_iff {bytes : List UInt8} :
    ofUtf8? bytes = none ↔ ∀ text, utf8 text ≠ bytes := by
  constructor
  · rintro h text rfl
    rw [ofUtf8?_utf8] at h
    cases h
  · intro h
    cases hbytes : ofUtf8? bytes with
    | none => rfl
    | some text => exact absurd (utf8_of_ofUtf8? hbytes) (h text)

/-- A piece that is cut off the front of a concatenation has whole parts first and then less than the next
part. -/
theorem exists_cut_of_isPrefix_flatMap {α β : Type} {f : α → List β} {items : List α} {front : List β}
    (hfront : front <+: items.flatMap f) (hcut : front ≠ items.flatMap f) :
    ∃ whole next behind cut, items = whole ++ next :: behind ∧
      front = whole.flatMap f ++ cut ∧ cut <+: f next ∧ cut ≠ f next := by
  induction items generalizing front with
  | nil => exact absurd (List.prefix_nil.mp hfront) hcut
  | cons item items ih =>
    rw [List.flatMap_cons] at hfront hcut
    rcases List.prefix_or_prefix_of_prefix hfront (List.prefix_append (f item) _) with hless | ⟨rest, rfl⟩
    · by_cases hitem : front = f item
      · -- the cut is just behind the first part, and the next part is cut to nothing if there is one
        have hmore : items.flatMap f ≠ [] := fun hnil =>
          hcut (by rw [hitem, hnil, List.append_nil])
        obtain ⟨whole, next, behind, cut, hitems, hnil, hnext, hne⟩ := ih List.nil_prefix hmore.symm
        refine ⟨item :: whole, next, behind, cut, by rw [hitems, List.cons_append], ?_, hnext, hne⟩
        rw [List.flatMap_cons, List.append_assoc, ← hnil, List.append_nil, hitem]
      · exact ⟨[], item, items, front, rfl, rfl, hless, hitem⟩
    · have hrest : rest ≠ items.flatMap f := fun h => hcut (by rw [h])
      obtain ⟨whole, next, behind, cut, hitems, hwhole, hnext, hne⟩ :=
        ih ((List.prefix_append_right_inj _).mp hfront) hrest
      refine ⟨item :: whole, next, behind, cut, by rw [hitems, List.cons_append], ?_, hnext, hne⟩
      rw [List.flatMap_cons, List.append_assoc, ← hwhole]

namespace Frame

/-! ## §1. Frames of any bytes -/

/-- The bytes in a frame, be they a text or not. -/
def framed (bytes : List UInt8) : List UInt8 := header bytes.length ++ bytes

/-- What is read of a frame with these bytes. -/
def outcomeOf (bytes : List UInt8) : Except Error (Option String) :=
  match ofUtf8? bytes with
  | some text => .ok (some text)
  | none => .error .invalidUtf8

theorem framed_utf8 (text : String) : framed (utf8 text) = frame text := by
  unfold framed frame
  rw [length_utf8]

theorem outcomeOf_utf8 (text : String) : outcomeOf (utf8 text) = .ok (some text) := by
  unfold outcomeOf
  rw [ofUtf8?_utf8]

/-- A frame is refused for its bytes exactly when they are those of no text. -/
theorem outcomeOf_eq_invalid_iff {bytes : List UInt8} :
    outcomeOf bytes = .error .invalidUtf8 ↔ ∀ text, utf8 text ≠ bytes := by
  rw [← ofUtf8?_eq_none_iff]
  unfold outcomeOf
  cases ofUtf8? bytes with
  | none => exact iff_of_true rfl rfl
  | some text => exact iff_of_false nofun nofun

/-- Reading goes on after a frame, even if it was refused. -/
theorem goesOn_outcomeOf (bytes : List UInt8) : goesOn (outcomeOf bytes) = true := by
  unfold outcomeOf
  cases ofUtf8? bytes <;> rfl

/-- A size is announced by the first four bytes, if there are so many. -/
theorem announced?_eq_none_iff {stream : List UInt8} :
    announced? stream = none ↔ stream.length < 4 := by
  unfold announced?
  split
  case h_1 a b c d rest => exact iff_of_false nofun (by simp)
  case h_2 hshort =>
    refine iff_of_true rfl (Nat.lt_of_not_le fun hlong => ?_)
    obtain ⟨a, b, c, d, rest, rfl⟩ : ∃ a b c d rest, stream = a :: b :: c :: d :: rest := by
      match stream, hlong with
      | a :: b :: c :: d :: rest, _ => exact ⟨a, b, c, d, rest, rfl⟩
    exact hshort a b c d rest rfl

theorem size_lt_of_announced? {stream rest : List UInt8} {size : Nat}
    (h : announced? stream = some (size, rest)) : size < UInt32.size := by
  unfold announced? at h
  split at h
  case h_1 a b c d behind =>
    cases h
    have ha := a.toNat_lt
    have hb := b.toNat_lt
    have hc := c.toNat_lt
    have hd := d.toNat_lt
    show headerSize a b c d < 4294967296
    unfold headerSize
    simp only [Nat.shiftLeft_eq]
    omega
  case h_2 => cases h

/-- Reading takes one frame off the stream and leaves what follows, whatever its bytes are. -/
theorem read_framed_append {bytes : List UInt8} (h : bytes.length ≤ maxPayload)
    (rest : List UInt8) : read (framed bytes ++ rest) = (outcomeOf bytes, rest) := by
  have hsize : bytes.length < UInt32.size := Nat.lt_of_le_of_lt h (by decide)
  unfold read framed
  rw [List.append_assoc, announced?_header_append hsize]
  show ((readPayload bytes.length (bytes ++ rest)).1.map some,
    (readPayload bytes.length (bytes ++ rest)).2) = _
  unfold readPayload outcomeOf
  rw [if_neg (Nat.not_lt.mpr h), if_neg (by rw [List.length_append]; omega), List.take_left,
    List.drop_left]
  cases ofUtf8? bytes <;> rfl

/-! ## §2. Endings -/

/-- No frame of a size that is allowed comes first in the stream.  This is what is read instead, and what is
left then. -/
inductive Ending : List UInt8 → Except Error (Option String) → List UInt8 → Prop
  /-- The stream is over, or ends inside the announcement of a size. -/
  | ended {stream : List UInt8} (short : stream.length < 4) : Ending stream (.ok none) []
  /-- The stream ends inside a payload. -/
  | cut {size : Nat} {part : List UInt8} (fits : size ≤ maxPayload) (short : part.length < size) :
      Ending (header size ++ part) (.error (.ofFault .unexpectedEnd)) []
  /-- The size that is announced is too large, whatever follows. -/
  | tooLarge {size : Nat} (large : maxPayload < size) (announced : size < UInt32.size)
      (rest : List UInt8) : Ending (header size ++ rest) (.error (.frameTooLarge size)) rest

namespace Ending

variable {stream left : List UInt8} {last : Except Error (Option String)}

/-- At an ending, reading gives what the ending stands for. -/
theorem read_eq (h : Ending stream last left) : read stream = (last, left) := by
  cases h with
  | ended short =>
    unfold read
    rw [announced?_eq_none_iff.mpr short]
  | @cut size part fits short =>
    unfold read
    rw [announced?_header_append (Nat.lt_of_le_of_lt fits (by decide))]
    show ((readPayload size part).1.map some, (readPayload size part).2) = _
    unfold readPayload
    rw [if_neg (Nat.not_lt.mpr fits), if_pos short]
    rfl
  | @tooLarge size large announced rest =>
    unfold read
    rw [announced?_header_append announced]
    show ((readPayload size left).1.map some, (readPayload size left).2) = _
    unfold readPayload
    rw [if_pos large]
    rfl

/-- Reading does not go on after an ending. -/
theorem goesOn_eq (h : Ending stream last left) : goesOn last = false := by
  cases h <;> rfl

theorem readAll_eq (h : Ending stream last left) : readAll stream = [last] := by
  rw [readAll, h.read_eq, dif_neg (by rw [h.goesOn_eq]; exact Bool.false_ne_true)]

end Ending

/-- A stream starts with a frame of a size that is allowed, or it is an ending. -/
theorem framed_or_ending (stream : List UInt8) :
    (∃ bytes rest, bytes.length ≤ maxPayload ∧ stream = framed bytes ++ rest) ∨
      ∃ last left, Ending stream last left := by
  cases hannounced : announced? stream with
  | none => exact .inr ⟨_, _, .ended (announced?_eq_none_iff.mp hannounced)⟩
  | some announcement =>
    obtain ⟨size, rest⟩ := announcement
    have hstream := eq_header_of_announced? hannounced
    -- a size that is allowed is that of a frame if enough bytes follow
    by_cases hfits : size ≤ maxPayload
    · by_cases hlong : size ≤ rest.length
      · refine .inl ⟨rest.take size, rest.drop size, ?_, ?_⟩
        · rw [List.length_take, Nat.min_eq_left hlong]
          exact hfits
        · unfold framed
          rw [List.length_take, Nat.min_eq_left hlong, List.append_assoc, List.take_append_drop]
          exact hstream
      · rw [hstream]
        exact .inr ⟨_, _, .cut hfits (Nat.lt_of_not_le hlong)⟩
    · rw [hstream]
      exact .inr ⟨_, _, .tooLarge (Nat.lt_of_not_le hfits) (size_lt_of_announced? hannounced) rest⟩

/-- What is read is a frame or an ending, and nothing else is. -/
theorem read_eq_iff {stream rest : List UInt8} {outcome : Except Error (Option String)} :
    read stream = (outcome, rest) ↔
      (∃ bytes, bytes.length ≤ maxPayload ∧ stream = framed bytes ++ rest ∧
        outcomeOf bytes = outcome) ∨
      Ending stream outcome rest := by
  constructor
  · intro h
    rcases framed_or_ending stream with ⟨bytes, behind, hbytes, hstream⟩ | ⟨last, left, hending⟩
    · rw [hstream, read_framed_append hbytes] at h
      cases h
      exact .inl ⟨bytes, hbytes, hstream, rfl⟩
    · rw [hending.read_eq] at h
      cases h
      exact .inr hending
  · rintro (⟨bytes, hbytes, rfl, rfl⟩ | hending)
    · exact read_framed_append hbytes rest
    · exact hending.read_eq

/-- A frame is refused for its bytes exactly where a frame of bytes that are no text comes first; it is
stepped over. -/
theorem read_eq_invalid_iff {stream rest : List UInt8} :
    read stream = (.error .invalidUtf8, rest) ↔
      ∃ bytes, bytes.length ≤ maxPayload ∧ (∀ text, utf8 text ≠ bytes) ∧
        stream = framed bytes ++ rest := by
  rw [read_eq_iff]
  constructor
  · rintro (⟨bytes, hbytes, hstream, hinvalid⟩ | hending)
    · exact ⟨bytes, hbytes, outcomeOf_eq_invalid_iff.mp hinvalid, hstream⟩
    · cases hending
  · rintro ⟨bytes, hbytes, hnone, hstream⟩
    exact .inl ⟨bytes, hbytes, hstream, outcomeOf_eq_invalid_iff.mpr hnone⟩

/-- What reading stops at is an ending. -/
theorem read_eq_iff_ending {stream left : List UInt8} {last : Except Error (Option String)}
    (h : goesOn last = false) : read stream = (last, left) ↔ Ending stream last left := by
  rw [read_eq_iff]
  refine ⟨?_, .inr⟩
  rintro (⟨bytes, -, -, rfl⟩ | hending)
  · rw [goesOn_outcomeOf] at h
    cases h
  · exact hending

/-- A frame is refused for its size exactly where a size over the limit is announced; none of its payload is
read. -/
theorem read_eq_tooLarge_iff {stream rest : List UInt8} {size : Nat} :
    read stream = (.error (.frameTooLarge size), rest) ↔
      maxPayload < size ∧ size < UInt32.size ∧ stream = header size ++ rest := by
  rw [read_eq_iff_ending rfl]
  constructor
  · intro h
    cases h with
    | tooLarge large announced rest => exact ⟨large, announced, rfl⟩
  · rintro ⟨large, announced, rfl⟩
    exact .tooLarge large announced rest

/-- Reading finds no frame exactly where there is not even an announcement of a size. -/
theorem read_eq_none_iff {stream rest : List UInt8} :
    read stream = (.ok none, rest) ↔ stream.length < 4 ∧ rest = [] := by
  rw [read_eq_iff_ending rfl]
  constructor
  · intro h
    cases h with
    | ended short => exact ⟨short, rfl⟩
  · rintro ⟨short, rfl⟩
    exact .ended short

/-- Reading ends too soon exactly where less than the payload announced is there. -/
theorem read_eq_cut_iff {stream rest : List UInt8} :
    read stream = (.error (.ofFault .unexpectedEnd), rest) ↔
      ∃ size part, size ≤ maxPayload ∧ part.length < size ∧ stream = header size ++ part ∧
        rest = [] := by
  rw [read_eq_iff_ending rfl]
  constructor
  · intro h
    cases h with
    | cut fits short => exact ⟨_, _, fits, short, rfl, rfl⟩
  · rintro ⟨size, part, fits, short, rfl, rfl⟩
    exact .cut fits short

/-! ## §3. All outcomes -/

/-- Reading all of a stream reads its first frame and then the rest. -/
theorem readAll_framed_append {bytes : List UInt8} (h : bytes.length ≤ maxPayload)
    (rest : List UInt8) : readAll (framed bytes ++ rest) = outcomeOf bytes :: readAll rest := by
  rw [readAll, read_framed_append h, dif_pos (goesOn_outcomeOf bytes)]

/-- Frames at the start of a stream give their outcomes, and the rest is read as if it stood alone. -/
theorem readAll_flatMap_framed_append {pieces : List (List UInt8)}
    (h : ∀ bytes ∈ pieces, bytes.length ≤ maxPayload) (rest : List UInt8) :
    readAll (pieces.flatMap framed ++ rest) = pieces.map outcomeOf ++ readAll rest := by
  induction pieces with
  | nil => rfl
  | cons bytes pieces ih =>
    obtain ⟨hbytes, hpieces⟩ := List.forall_mem_cons.mp h
    rw [List.flatMap_cons, List.append_assoc, readAll_framed_append hbytes, ih hpieces]
    rfl

/-- Texts that were written are read one after the other. -/
theorem readAll_flatMap_frame_append {texts : List String} (h : ∀ text ∈ texts, Fits text)
    (rest : List UInt8) :
    readAll (texts.flatMap frame ++ rest) = texts.map (.ok ∘ some) ++ readAll rest := by
  have hpieces : ∀ bytes ∈ texts.map utf8, bytes.length ≤ maxPayload := by
    rintro bytes hbytes
    obtain ⟨text, htext, rfl⟩ := List.mem_map.mp hbytes
    rw [length_utf8]
    exact h text htext
  have hread := readAll_flatMap_framed_append hpieces rest
  rw [List.flatMap_map, List.map_map] at hread
  rw [← funext framed_utf8, hread]
  congr 2
  funext text
  exact outcomeOf_utf8 text

/-- Every stream is frames of sizes that are allowed and then an ending. -/
theorem exists_ending (stream : List UInt8) :
    ∃ (pieces : List (List UInt8)) (rest left : List UInt8) (last : Except Error (Option String)),
      (∀ bytes ∈ pieces, bytes.length ≤ maxPayload) ∧
      stream = pieces.flatMap framed ++ rest ∧ Ending rest last left := by
  rcases framed_or_ending stream with ⟨bytes, behind, hbytes, hstream⟩ | ⟨last, left, hlast⟩
  · have hshorter : behind.length < stream.length := by
      rw [hstream, List.length_append, framed, List.length_append]
      show _ < 4 + _ + _
      omega
    -- the frame at the front is taken off, and what is behind it is shorter
    obtain ⟨pieces, rest, left, last, hpieces, hbehind, hlast⟩ := exists_ending behind
    refine ⟨bytes :: pieces, rest, left, last, List.forall_mem_cons.mpr ⟨hbytes, hpieces⟩, ?_, hlast⟩
    rw [List.flatMap_cons, List.append_assoc, ← hbehind]
    exact hstream
  · exact ⟨[], stream, left, last, List.forall_mem_nil _, rfl, hlast⟩
termination_by stream.length

/-! ## §4. Written streams -/

/-- Writing appends the frame of a text that fits and appends nothing for one that does not. -/
theorem write_eq (stream : List UInt8) (text : String) :
    write stream text
      = if Fits text then (.ok (), stream ++ frame text)
        else (.error (.frameTooLarge text.utf8ByteSize), stream) := by
  unfold write
  by_cases hfits : Fits text
  · rw [if_pos hfits, encode_of_fits hfits]
  · unfold encode
    rw [if_neg hfits, if_pos (Nat.lt_of_not_le hfits)]

/-- Exactly the texts that fit are encoded, as their frames. -/
theorem encode_eq_ok_iff {text : String} {written : ByteArray} :
    encode text = .ok written ↔ Fits text ∧ written.data.toList = frame text := by
  by_cases hfits : Fits text
  · rw [encode_of_fits hfits]
    constructor
    · rintro h
      cases h
      exact ⟨hfits, rfl⟩
    · rintro ⟨-, hwritten⟩
      rw [← hwritten]
  · unfold encode
    rw [if_pos (Nat.lt_of_not_le hfits)]
    exact iff_of_false nofun fun h => hfits h.1

/-- Of many texts those that fit are written, in order, and the others are refused one by one. -/
theorem writeAll_eq (stream : List UInt8) (texts : List String) :
    writeAll stream texts
      = (texts.map fun text =>
          if Fits text then .ok () else .error (.frameTooLarge text.utf8ByteSize),
        stream ++ (texts.filter fun text => Fits text).flatMap frame) := by
  induction texts generalizing stream with
  | nil =>
    rw [List.filter_nil, List.flatMap_nil, List.append_nil]
    rfl
  | cons text texts ih =>
    show ((write stream text).1 :: (writeAll (write stream text).2 texts).1,
      (writeAll (write stream text).2 texts).2) = _
    rw [ih, write_eq, List.map_cons]
    by_cases hfits : Fits text
    · have haccepted : (text :: texts).filter (fun text => Fits text)
          = text :: texts.filter fun text => Fits text :=
        List.filter_cons_of_pos (decide_eq_true hfits)
      rw [if_pos hfits, if_pos hfits, haccepted, List.flatMap_cons, ← List.append_assoc]
    · have haccepted : (text :: texts).filter (fun text => Fits text)
          = texts.filter fun text => Fits text :=
        List.filter_cons_of_neg (by rw [decide_eq_true_iff]; exact hfits)
      rw [if_neg hfits, if_neg hfits, haccepted]

/-- Less than a whole frame is an ending. -/
theorem ending_of_cut {text : String} (h : Fits text) {cut : List UInt8} (hcut : cut <+: frame text)
    (hne : cut ≠ frame text) :
    Ending cut (if cut.length < 4 then .ok none else .error (.ofFault .unexpectedEnd)) [] := by
  split
  case isTrue hshort => exact .ended hshort
  case isFalse hlong =>
    -- the size is whole, so what is missing is of the payload
    obtain ⟨part, rfl⟩ : header text.utf8ByteSize <+: cut :=
      List.prefix_of_prefix_length_le (List.prefix_append _ _) hcut (Nat.le_of_not_lt hlong)
    refine .cut h (Nat.lt_of_le_of_ne ?_ fun hlength => hne ?_)
    · rw [← length_utf8]
      exact ((List.prefix_append_right_inj _).mp hcut).length_le
    · refine hcut.eq_of_length ?_
      rw [frame, List.length_append, List.length_append, hlength, length_utf8]

/-- Whatever payloads are written, exactly those that are too large for a frame are refused, with their
sizes, and of them nothing is written.  The stream is the frames of the others, and reading it gives them in
order and then the end.  Of a stream that is cut short the whole frames before the cut are read as they were,
and then the end, if the cut is between frames or inside the size of one, or else a cut payload. -/
theorem frames_read_back (texts : List String) :
    (writeAll [] texts).1 = texts.map (fun text =>
      if Fits text then .ok () else .error (.frameTooLarge text.utf8ByteSize)) ∧
    (∀ before text, ¬ Fits text → (write before text).2 = before) ∧
    let accepted := texts.filter fun text => Fits text
    let stream := (writeAll [] texts).2
    stream = accepted.flatMap frame ∧
    readAll stream = accepted.map (.ok ∘ some) ++ [.ok none] ∧
    ∀ front, front <+: stream → front ≠ stream →
      ∃ whole next behind cut, accepted = whole ++ next :: behind ∧
        front = whole.flatMap frame ++ cut ∧ cut <+: frame next ∧ cut ≠ frame next ∧
        readAll front = whole.map (.ok ∘ some) ++
          [if cut.length < 4 then .ok none else .error (.ofFault .unexpectedEnd)] := by
  refine ⟨by rw [writeAll_eq], fun before text hlarge => by rw [write_eq, if_neg hlarge], ?_⟩
  intro accepted stream
  have hfits : ∀ text ∈ accepted, Fits text := fun text htext =>
    of_decide_eq_true (List.mem_filter.mp htext).2
  have hstream : stream = accepted.flatMap frame := by
    show (writeAll [] texts).2 = _
    rw [writeAll_eq, List.nil_append]
  refine ⟨hstream, ?_, fun front hfront hne => ?_⟩
  · have hended : Ending [] (.ok none) [] := .ended (by decide)
    rw [hstream, ← List.append_nil (accepted.flatMap frame), readAll_flatMap_frame_append hfits,
      hended.readAll_eq]
  · rw [hstream] at hfront hne
    obtain ⟨whole, next, behind, cut, haccepted, hwhole, hcut, hpart⟩ :=
      exists_cut_of_isPrefix_flatMap hfront hne
    rw [haccepted] at hfits
    obtain ⟨hfront_fits, hfits⟩ := List.forall_mem_append.mp hfits
    refine ⟨whole, next, behind, cut, haccepted, hwhole, hcut, hpart, ?_⟩
    rw [hwhole, readAll_flatMap_frame_append hfront_fits,
      (ending_of_cut (hfits next List.mem_cons_self) hcut hpart).readAll_eq]

/-- The second payload has lost its last byte. -/
theorem frames_read_back_cut :
    [0, 0, 0, 1, 97, 0, 0, 0, 2, 98] <+: (writeAll [] ["a", "bc"]).2 ∧
    [0, 0, 0, 1, 97, 0, 0, 0, 2, 98] ≠ (writeAll [] ["a", "bc"]).2 ∧
    ∃ whole next behind cut, ["a", "bc"] = whole ++ next :: behind ∧
      [0, 0, 0, 1, 97, 0, 0, 0, 2, 98] = whole.flatMap frame ++ cut ∧
      readAll [0, 0, 0, 1, 97, 0, 0, 0, 2, 98] = whole.map (.ok ∘ some) ++
        [if cut.length < 4 then .ok none else .error (.ofFault .unexpectedEnd)] := by
  have hstart : [0, 0, 0, 1, 97, 0, 0, 0, 2, 98] <+: (writeAll [] ["a", "bc"]).2 := by
    decide +kernel
  have hne : [0, 0, 0, 1, 97, 0, 0, 0, 2, 98] ≠ (writeAll [] ["a", "bc"]).2 := by decide +kernel
  obtain ⟨-, -, -, -, hcut⟩ := frames_read_back ["a", "bc"]
  obtain ⟨whole, next, behind, cut, haccepted, hwhole, -, -, hread⟩ := hcut _ hstart hne
  have hall : ["a", "bc"].filter (fun text => Fits text) = ["a", "bc"] := by decide +kernel
  exact ⟨hstart, hne, whole, next, behind, cut, hall ▸ haccepted, hwhole, hread⟩

/-! ## §5. Streams of any bytes -/

/-- Of any stream, a text is read exactly off its frame.  Bytes that are no text are refused exactly off a
frame of them, and then reading goes on behind this frame, as if it were not there.  A size that is too
large is refused with nothing of its payload taken, exactly where it is announced.  The end is where fewer
bytes are left than a size has, and a payload is cut exactly where fewer bytes follow than are announced.
Reading again and again takes one frame after the other and comes to one of these three endings. -/
theorem reading_accepts_frames (stream : List UInt8) :
    (∀ text rest, read stream = (.ok (some text), rest) ↔
      ∃ written, encode text = .ok written ∧ stream = written.data.toList ++ rest) ∧
    (∀ rest, read stream = (.error .invalidUtf8, rest) ↔
      ∃ bytes, bytes.length ≤ maxPayload ∧ (∀ text, utf8 text ≠ bytes) ∧
        stream = framed bytes ++ rest) ∧
    (∀ size rest, read stream = (.error (.frameTooLarge size), rest) ↔
      maxPayload < size ∧ size < UInt32.size ∧ stream = header size ++ rest) ∧
    (∀ rest, read stream = (.ok none, rest) ↔ stream.length < 4 ∧ rest = []) ∧
    (∀ rest, read stream = (.error (.ofFault .unexpectedEnd), rest) ↔
      ∃ size part, size ≤ maxPayload ∧ part.length < size ∧ stream = header size ++ part ∧
        rest = []) ∧
    (∀ (front : List (List UInt8)) (bad rest : List UInt8),
      (∀ bytes ∈ front, bytes.length ≤ maxPayload) → bad.length ≤ maxPayload →
      (∀ text, utf8 text ≠ bad) → stream = front.flatMap framed ++ (framed bad ++ rest) →
      readAll stream = front.map outcomeOf ++ .error .invalidUtf8 :: readAll rest ∧
      readAll (front.flatMap framed ++ rest) = front.map outcomeOf ++ readAll rest) ∧
    ∃ (pieces : List (List UInt8)) (rest left : List UInt8) (last : Except Error (Option String)),
      (∀ bytes ∈ pieces, bytes.length ≤ maxPayload) ∧
      stream = pieces.flatMap framed ++ rest ∧ Ending rest last left ∧
      readAll stream = pieces.map outcomeOf ++ [last] := by
  refine ⟨fun text rest => ?_, fun rest => read_eq_invalid_iff, fun size rest =>
    read_eq_tooLarge_iff, fun rest => read_eq_none_iff, fun rest => read_eq_cut_iff, ?_, ?_⟩
  · rw [read_eq_some_iff]
    constructor
    · rintro ⟨hfits, hstream⟩
      exact ⟨_, encode_of_fits hfits, hstream⟩
    · rintro ⟨written, hencode, hstream⟩
      obtain ⟨hfits, hwritten⟩ := encode_eq_ok_iff.mp hencode
      exact ⟨hfits, hwritten ▸ hstream⟩
  · intro front bad rest hfront hbad hinvalid hstream
    refine ⟨?_, readAll_flatMap_framed_append hfront rest⟩
    rw [hstream, readAll_flatMap_framed_append hfront, readAll_framed_append hbad,
      outcomeOf_eq_invalid_iff.mpr hinvalid]
  · obtain ⟨pieces, rest, left, last, hpieces, hstream, hending⟩ := exists_ending stream
    refine ⟨pieces, rest, left, last, hpieces, hstream, hending, ?_⟩
    rw [hstream, readAll_flatMap_framed_append hpieces, hending.readAll_eq]

/-- A frame of two bytes that are no text stands between two texts. -/
theorem reading_accepts_frames_between :
    (∀ bytes ∈ [utf8 "a"], bytes.length ≤ maxPayload) ∧ [0xff, 0xfe].length ≤ maxPayload ∧
    (∀ text, utf8 text ≠ [0xff, 0xfe]) ∧
    [0, 0, 0, 1, 97, 0, 0, 0, 2, 0xff, 0xfe, 0, 0, 0, 1, 98]
      = [utf8 "a"].flatMap framed ++ (framed [0xff, 0xfe] ++ [0, 0, 0, 1, 98]) ∧
    readAll [0, 0, 0, 1, 97, 0, 0, 0, 2, 0xff, 0xfe, 0, 0, 0, 1, 98]
      = [.ok (some "a"), .error .invalidUtf8] ++ readAll [0, 0, 0, 1, 98] ∧
    readAll [0, 0, 0, 1, 97, 0, 0, 0, 1, 98] = [.ok (some "a")] ++ readAll [0, 0, 0, 1, 98] := by
  have hfront : ∀ bytes ∈ [utf8 "a"], bytes.length ≤ maxPayload := by decide +kernel
  have hbad : [0xff, 0xfe].length ≤ maxPayload := by decide
  have hinvalid : ∀ text, utf8 text ≠ [0xff, 0xfe] :=
    ofUtf8?_eq_none_iff.mp (by decide +kernel)
  have hstream : [0, 0, 0, 1, 97, 0, 0, 0, 2, 0xff, 0xfe, 0, 0, 0, 1, 98]
      = [utf8 "a"].flatMap framed ++ (framed [0xff, 0xfe] ++ [0, 0, 0, 1, 98]) := by
    decide +kernel
  obtain ⟨-, -, -, -, -, hresume, -⟩ :=
    reading_accepts_frames [0, 0, 0, 1, 97, 0, 0, 0, 2, 0xff, 0xfe, 0, 0, 0, 1, 98]
  obtain ⟨hwith, hwithout⟩ := hresume _ _ _ hfront hbad hinvalid hstream
  have houtcome : [utf8 "a"].map outcomeOf = [.ok (some "a")] := by
    rw [List.map_singleton, outcomeOf_utf8]
  have habsent : [utf8 "a"].flatMap framed ++ [0, 0, 0, 1, 98]
      = [0, 0, 0, 1, 97, 0, 0, 0, 1, 98] := by decide +kernel
  rw [houtcome] at hwith hwithout
  exact ⟨hfront, hbad, hinvalid, hstream, hwith, habsent ▸ hwithout⟩

end Frame

end CsvQuery
