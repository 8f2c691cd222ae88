import StackMachine.Assembly.Source
import StackMachine.Text.Utf8

/-!
# Payloads

An executable carries a program as its payload: the source stands behind the executable's own image,
and behind the source stand its length in eight bytes, the highest first, and sixteen bytes that
mark the payload. So the payload is found from the end, and an image with a payload can carry
another one.
-/

namespace StackMachine.Payload

/-- The mark at the end of an image with a payload. -/
def mark : ByteArray := "embeddedcodecode".toUTF8

/-- The number of bytes behind the source. -/
def suffixSize : Nat := 24

/-- The length of the payload in eight bytes, the highest first. -/
def lengthBytes (n : Nat) : ByteArray :=
  [56, 48, 40, 32, 24, 16, 8, 0].map (fun shift => UInt8.ofNat (n >>> shift)) |>.toByteArray

/-- The number that bytes denote, the highest first. -/
def lengthOfBytes (bytes : ByteArray) : Nat :=
  bytes.data.toList.foldl (fun n b => 256 * n + b.toNat) 0

/-- The image that carries a source behind a host image. -/
def embed (host source : ByteArray) : ByteArray :=
  host ++ source ++ lengthBytes source.size ++ mark

/-- Why an image with the mark carries no program. -/
inductive Fault where
  /-- The length is that of more bytes than there are. -/
  | tooLong (length imageSize : Nat)
  /-- The source is not UTF-8. -/
  | notText (fault : Utf8.Fault)
  /-- The source does not assemble. -/
  | notAssembled (error : Assembly.Error)
  deriving DecidableEq

/-- The wording of a fault. -/
def Fault.message : Fault → String
  | tooLong length imageSize =>
    s!"embedded payload length {length} exceeds image size {imageSize}"
  | notText fault => s!"embedded payload is not valid UTF-8: {fault.message}"
  | notAssembled error => s!"failed to assemble embedded program: {error.message}"

/-- The text that bytes denote in UTF-8, or the first fault of them. -/
def decode (bytes : ByteArray) : Except Fault String :=
  match String.fromUTF8? bytes with
  | some s => .ok s
  | none => .error (.notText ((Utf8.fault? bytes.data.toList).getD (.incomplete bytes.size)))

/-- The source that an image carries, if it has the mark. -/
def read (image : ByteArray) : Except Fault (Option String) :=
  let total := image.size
  if total < suffixSize then .ok none
  else if (image.extract (total - mark.size) total).data = mark.data then
    let length := lengthOfBytes (image.extract (total - suffixSize) (total - mark.size))
    if length ≤ total - suffixSize then
      (decode (image.extract (total - suffixSize - length) (total - suffixSize))).map some
    else .error (.tooLong length total)
  else .ok none

/-- The program that an image carries, if it has the mark. -/
def load (image : ByteArray) : Except Fault (Option Assembly.Assembled) :=
  match read image with
  | .error fault => .error fault
  | .ok none => .ok none
  | .ok (some source) =>
    match Assembly.assembleText source with
    | .error error => .error (.notAssembled error)
    | .ok a => .ok (some a)

example : (read (embed "host".toUTF8 "add".toUTF8)).toOption = some (some "add") := by
  decide +kernel

end StackMachine.Payload
