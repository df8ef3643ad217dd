/-
  CsvQuery.Wire.Frame — messages as frames of bytes.

  A frame is the number of its payload's bytes, in four bytes of which the most significant one comes
  first, and then the payload, a text in UTF-8.  A payload has at most `maxPayload` bytes and may be
  empty.  A stream that ends between frames or inside the four bytes is at its end; one that ends
  inside a payload is cut.
-/
import CsvQuery.Error
import CsvQuery.Text.Utf8

namespace CsvQuery.Frame

/-! ## §1. Writing -/

/-- The greatest number of bytes of a payload: 16 MiB. -/
def maxPayload : Nat := 16 * 1024 * 1024

/-- The four bytes of a payload's size. -/
def header (size : Nat) : List UInt8 :=
  [UInt8.ofNat (size >>> 24), UInt8.ofNat (size >>> 16), UInt8.ofNat (size >>> 8),
    UInt8.ofNat size]

/-- The frame of a payload, unless that is too large. -/
def encode (payload : String) : Except Error ByteArray :=
  if maxPayload < payload.utf8ByteSize then .error (.frameTooLarge payload.utf8ByteSize)
  else .ok (⟨(header payload.utf8ByteSize).toArray⟩ ++ payload.toByteArray)

/-- The stream with the frame of a payload written to its end; nothing is written of a refused one. -/
def write (stream : List UInt8) (payload : String) : Except Error Unit × List UInt8 :=
  match encode payload with
  | .ok frame => (.ok (), stream ++ frame.data.toList)
  | .error cause => (.error cause, stream)

/-- The outcome of writing each payload in turn, and the stream after all of them. -/
def writeAll (stream : List UInt8) : List String → List (Except Error Unit) × List UInt8
  | [] => ([], stream)
  | payload :: rest =>
    let (outcome, stream) := write stream payload
    let (outcomes, stream) := writeAll stream rest
    (outcome :: outcomes, stream)

/-! ## §2. Reading -/

/-- The size that four bytes denote. -/
def headerSize (a b c d : UInt8) : Nat :=
  a.toNat <<< 24 + b.toNat <<< 16 + c.toNat <<< 8 + d.toNat

/-- The size that the front of a stream announces, and what follows it. -/
def announced? : List UInt8 → Option (Nat × List UInt8)
  | a :: b :: c :: d :: rest => some (headerSize a b c d, rest)
  | _ => none

/-- The payload of a size at the front of a stream, and the stream that is left. -/
def readPayload (size : Nat) (stream : List UInt8) : Except Error String × List UInt8 :=
  if maxPayload < size then (.error (.frameTooLarge size), stream)
  else if stream.length < size then (.error (.ofFault .unexpectedEnd), [])
  else
    match ofUtf8? (stream.take size) with
    | some payload => (.ok payload, stream.drop size)
    | none => (.error .invalidUtf8, stream.drop size)

/-- The payload at the front of a stream, `none` at the end of it, and the stream that is left. -/
def read (stream : List UInt8) : Except Error (Option String) × List UInt8 :=
  match announced? stream with
  | none => (.ok none, [])
  | some (size, rest) => ((readPayload size rest).1.map some, (readPayload size rest).2)

/-- Whether a stream that may still grow already holds all that its next outcome hangs on. -/
def isReady (stream : List UInt8) : Bool :=
  match announced? stream with
  | none => false
  | some (size, rest) => maxPayload < size || size ≤ rest.length

/-- Whether reading may go on after an outcome: after a payload, or one that is no text. -/
def goesOn : Except Error (Option String) → Bool
  | .ok (some _) => true
  | .error .invalidUtf8 => true
  | _ => false

/-- Reading a payload takes bytes from the front only. -/
theorem length_readPayload_le (size : Nat) (stream : List UInt8) :
    (readPayload size stream).2.length ≤ stream.length := by
  unfold readPayload
  split
  · exact Nat.le_refl _
  · split
    · exact Nat.zero_le _
    · split <;> simp

/-- What follows the announced size is shorter than the stream. -/
theorem length_announced?_lt {stream rest : List UInt8} {size : Nat}
    (h : announced? stream = some (size, rest)) : rest.length < stream.length := by
  unfold announced? at h
  split at h
  · cases h
    simp only [List.length_cons]
    omega
  · cases h

/-- Where reading goes on, it has taken at least the size of a payload. -/
theorem length_read_lt (stream : List UInt8) (h : goesOn (read stream).1 = true) :
    (read stream).2.length < stream.length := by
  unfold read at h ⊢
  split
  case h_1 heq => simp [heq, goesOn] at h
  case h_2 size rest heq =>
    exact Nat.lt_of_le_of_lt (length_readPayload_le size rest) (length_announced?_lt heq)

/-- The outcomes of reading again and again, up to the first one after which reading cannot go on. -/
def readAll (stream : List UInt8) : List (Except Error (Option String)) :=
  if _h : goesOn (read stream).1 = true then (read stream).1 :: readAll (read stream).2
  else [(read stream).1]
termination_by stream.length
decreasing_by exact length_read_lt stream _h

end CsvQuery.Frame
