/-
  CsvQuery.Proofs.Wire.Frame — what is read from a stream is the frame that was written.

  Reading takes a payload from the front of a stream exactly if the stream starts with the frame of that
  payload, and leaves what follows the frame.  So the frames at the start of a stream can be told apart
  in one way only, and bytes that come in later do not change the payloads before them.

  Main results:
    • `read_eq_some_iff` — reading a payload, by the frame of it
    • `payloads_flatMap_frame` — the payloads of a stream that starts with given frames
    • `prefix_payloads_iff` — the payloads at the start of a stream, by their frames
-/
import CsvQuery.Proofs.Text.Utf8
import CsvQuery.Wire.Responder

namespace CsvQuery

namespace Frame

/-! ## §1. The size in four bytes -/

/-- A size is read back from its header. -/
theorem headerSize_header {size : Nat} (h : size < UInt32.size) :
    headerSize (UInt8.ofNat (size >>> 24)) (UInt8.ofNat (size >>> 16)) (UInt8.ofNat (size >>> 8))
      (UInt8.ofNat size) = size := by
  change size < 4294967296 at h
  unfold headerSize
  simp only [UInt8.toNat_ofNat', Nat.shiftRight_eq_div_pow, Nat.shiftLeft_eq]
  omega

theorem header_headerSize (a b c d : UInt8) : header (headerSize a b c d) = [a, b, c, d] := by
  have ha := a.toNat_lt
  have hb := b.toNat_lt
  have hc := c.toNat_lt
  have hd := d.toNat_lt
  unfold header headerSize
  simp only [List.cons.injEq, and_true, ← UInt8.toNat_inj, UInt8.toNat_ofNat',
    Nat.shiftRight_eq_div_pow, Nat.shiftLeft_eq]
  omega

/-! ## §2. Frames -/

/-- The payload is small enough to be framed. -/
def Fits (payload : String) : Prop := payload.utf8ByteSize ≤ maxPayload

instance (payload : String) : Decidable (Fits payload) := inferInstanceAs (Decidable (_ ≤ _))

/-- The bytes of the frame of a payload. -/
def frame (payload : String) : List UInt8 := header payload.utf8ByteSize ++ utf8 payload

theorem encode_of_fits {payload : String} (h : Fits payload) :
    encode payload = .ok ⟨(frame payload).toArray⟩ := by
  unfold encode
  rw [if_neg (Nat.not_lt.mpr h)]
  congr 1

/-- The frames of payloads that may be framed are written one behind the other. -/
theorem writeAll_of_fits {texts : List String} (h : ∀ text ∈ texts, Fits text)
    (stream : List UInt8) : (writeAll stream texts).2 = stream ++ texts.flatMap frame := by
  induction texts generalizing stream with
  | nil => exact (List.append_nil stream).symm
  | cons text texts ih =>
    obtain ⟨htext, htexts⟩ := List.forall_mem_cons.mp h
    have hwrite : write stream text = (.ok (), stream ++ frame text) := by
      unfold write
      rw [encode_of_fits htext]
    show (writeAll (write stream text).2 texts).2 = _
    rw [hwrite, ih htexts, List.flatMap_cons, List.append_assoc]

theorem announced?_header_append {size : Nat} (h : size < UInt32.size) (rest : List UInt8) :
    announced? (header size ++ rest) = some (size, rest) := by
  show some (headerSize _ _ _ _, rest) = _
  rw [headerSize_header h]

/-- A frame announces the size of its payload. -/
theorem announced?_frame_append {payload : String} (h : Fits payload) (rest : List UInt8) :
    announced? (frame payload ++ rest) = some (payload.utf8ByteSize, utf8 payload ++ rest) := by
  have hsize : payload.utf8ByteSize < UInt32.size := Nat.lt_of_le_of_lt h (by decide)
  rw [frame, List.append_assoc, announced?_header_append hsize]

/-- Where a size is announced the stream begins with its header. -/
theorem eq_header_of_announced? {stream rest : List UInt8} {size : Nat}
    (h : announced? stream = some (size, rest)) : stream = header size ++ rest := by
  unfold announced? at h
  split at h
  · cases h
    rw [header_headerSize]
    rfl
  · cases h

theorem readPayload_utf8_append {payload : String} (h : Fits payload) (rest : List UInt8) :
    readPayload payload.utf8ByteSize (utf8 payload ++ rest) = (.ok payload, rest) := by
  have hlength := length_utf8 payload
  unfold readPayload
  rw [if_neg (Nat.not_lt.mpr h), if_neg (by rw [List.length_append]; omega),
    List.take_left' hlength, List.drop_left' hlength, ofUtf8?_utf8]

/-- A payload that is read has the size that was announced and stands in the stream. -/
theorem of_readPayload_eq_ok {size : Nat} {stream rest : List UInt8} {payload : String}
    (h : readPayload size stream = (.ok payload, rest)) :
    Fits payload ∧ payload.utf8ByteSize = size ∧ stream = utf8 payload ++ rest := by
  unfold readPayload at h
  split at h
  · cases h
  split at h
  · cases h
  split at h
  case h_2 => cases h
  case h_1 hfits hlong found text htext =>
    cases h
    have hbytes : utf8 payload = stream.take size := utf8_of_ofUtf8? htext
    have hsize : payload.utf8ByteSize = size := by
      rw [← length_utf8, hbytes, List.length_take]
      omega
    refine ⟨?_, hsize, ?_⟩
    · unfold Fits
      omega
    · rw [hbytes, List.take_append_drop]

/-! ## §3. Reading -/

/-- One frame is read back, and what follows is left. -/
theorem read_frame_append {payload : String} (h : Fits payload) (rest : List UInt8) :
    read (frame payload ++ rest) = (.ok (some payload), rest) := by
  unfold read
  rw [announced?_frame_append h]
  show ((readPayload _ _).1.map some, (readPayload _ _).2) = _
  rw [readPayload_utf8_append h]
  rfl

/-- A payload is read exactly off its own frame, and what follows the frame is left. -/
theorem read_eq_some_iff {stream rest : List UInt8} {payload : String} :
    read stream = (.ok (some payload), rest) ↔ Fits payload ∧ stream = frame payload ++ rest := by
  constructor
  · intro h
    unfold read at h
    split at h
    case h_1 => cases h
    case h_2 size after hannounced =>
      cases hread : readPayload size after with
      | mk outcome left =>
        rw [hread] at h
        cases outcome with
        | error cause => cases h
        | ok text =>
          cases h
          obtain ⟨hfits, hsize, hafter⟩ := of_readPayload_eq_ok hread
          refine ⟨hfits, ?_⟩
          rw [eq_header_of_announced? hannounced, hafter, ← hsize, frame, List.append_assoc]
  · rintro ⟨hfits, rfl⟩
    exact read_frame_append hfits rest

/-- The payloads of the well-formed frames at the start of a stream, up to the first frame that is cut, too
large or no text. -/
def payloads (stream : List UInt8) : List String :=
  match _h : read stream with
  | (.ok (some payload), rest) => payload :: payloads rest
  | _ => []
termination_by stream.length
decreasing_by
  have h := length_read_lt stream (by rw [_h]; rfl)
  rw [_h] at h
  exact h

theorem payloads_of_read {stream rest : List UInt8} {payload : String}
    (h : read stream = (.ok (some payload), rest)) :
    payloads stream = payload :: payloads rest := by
  rw [payloads]
  split
  case h_1 heq =>
    rw [h] at heq
    cases heq
    rfl
  case h_2 hother => exact absurd h (hother payload rest)

/-- There are no payloads in a stream exactly when no well-formed frame comes first. -/
theorem payloads_eq_nil_iff {stream : List UInt8} :
    payloads stream = [] ↔ ∀ payload rest, read stream ≠ (.ok (some payload), rest) := by
  constructor
  · intro h payload rest hread
    rw [payloads_of_read hread] at h
    cases h
  · intro h
    rw [payloads]
    split
    case h_1 payload rest heq => exact absurd heq (h payload rest)
    case h_2 => rfl

/-- Frames at the start of a stream give their payloads, whatever follows. -/
theorem payloads_flatMap_frame {texts : List String} (h : ∀ text ∈ texts, Fits text)
    (rest : List UInt8) :
    payloads (texts.flatMap frame ++ rest) = texts ++ payloads rest := by
  induction texts with
  | nil => rfl
  | cons text texts ih =>
    obtain ⟨htext, htexts⟩ := List.forall_mem_cons.mp h
    rw [List.flatMap_cons, List.append_assoc, payloads_of_read (read_frame_append htext _),
      ih htexts, List.cons_append]

/-- Who reads the frames of replies gets the replies. -/
theorem payloads_framesOf {replies : List String} (h : ∀ reply ∈ replies, Fits reply) :
    payloads (Responder.framesOf replies) = replies := by
  have hnone : payloads [] = [] := payloads_eq_nil_iff.mpr fun _ _ hread => nomatch hread
  unfold Responder.framesOf
  rw [writeAll_of_fits h, List.nil_append, ← List.append_nil (replies.flatMap frame),
    payloads_flatMap_frame h, hnone, List.append_nil]

/-- A stream is the frames of its payloads and a rest in which no well-formed frame comes first. -/
theorem exists_rest_of_payloads (stream : List UInt8) :
    (∀ text ∈ payloads stream, Fits text) ∧
      ∃ rest, stream = (payloads stream).flatMap frame ++ rest ∧ payloads rest = [] := by
  induction stream using payloads.induct with
  | case1 stream payload rest hread ih =>
    obtain ⟨hfits, left, hleft, hnone⟩ := ih
    obtain ⟨hpayload, hstream⟩ := read_eq_some_iff.mp hread
    rw [payloads_of_read hread]
    refine ⟨List.forall_mem_cons.mpr ⟨hpayload, hfits⟩, left, ?_, hnone⟩
    rw [List.flatMap_cons, List.append_assoc, ← hleft]
    exact hstream
  | case2 stream hread =>
    have hnone : payloads stream = [] := payloads_eq_nil_iff.mpr hread
    rw [hnone]
    exact ⟨fun _ h => absurd h List.not_mem_nil, stream, rfl, hnone⟩

/-- Texts come first among the payloads of a stream exactly if their frames come first in it. -/
theorem prefix_payloads_iff {texts : List String} {stream : List UInt8} :
    texts <+: payloads stream ↔ (∀ text ∈ texts, Fits text) ∧ texts.flatMap frame <+: stream := by
  constructor
  · rintro ⟨others, hothers⟩
    obtain ⟨hfits, rest, hrest, -⟩ := exists_rest_of_payloads stream
    rw [← hothers] at hfits hrest
    refine ⟨fun text htext => hfits text (List.mem_append_left _ htext), ?_⟩
    rw [hrest, List.flatMap_append, List.append_assoc]
    exact List.prefix_append _ _
  · rintro ⟨hfits, rest, hrest⟩
    rw [← hrest, payloads_flatMap_frame hfits]
    exact List.prefix_append _ _

end Frame

end CsvQuery
