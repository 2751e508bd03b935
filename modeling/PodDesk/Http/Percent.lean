import PodDesk.Text.CommaList
import PodDesk.Text.Utf8

/-!
# Percent encoding

A percent sign with two hexadecimal digits stands for a byte; a percent sign without them stands for
itself. In the parts of a form a plus sign is a space.
-/

namespace PodDesk.Http

/-- `hexDigit? b` is the value of a hexadecimal digit. -/
def hexDigit? (b : UInt8) : Option UInt8 :=
  if 0x30 ≤ b ∧ b ≤ 0x39 then some (b - 0x30)
  else if 0x41 ≤ b ∧ b ≤ 0x46 then some (b - 0x37)
  else if 0x61 ≤ b ∧ b ≤ 0x66 then some (b - 0x57)
  else none

/-- `percentDecode` has the bytes that percent-encoded ones stand for. -/
def percentDecode : List UInt8 → List UInt8
  | [] => []
  | [b] => [b]
  | [b, c] => [b, c]
  | b :: high :: low :: bytes =>
    match if b = 0x25 then hexDigit? high else none, hexDigit? low with
    | some h, some l => (h * 16 + l) :: percentDecode bytes
    | _, _ => b :: percentDecode (high :: low :: bytes)

/-- `decodeSegment? segment` is the text of a segment of a path; there is none when its bytes are no
text. -/
def decodeSegment? (segment : List Char) : Option String :=
  (Utf8.decode? (percentDecode (Utf8.encode segment))).map String.ofList

namespace Form

/-- `hexDigit n` is a hexadecimal digit below 16, in upper case. -/
def hexDigit (n : Nat) : Char :=
  Char.ofNat (if n < 10 then n + 48 else n + 55)

/-- `isPlain b` says whether the byte `b` stands for itself in a form. -/
def isPlain (b : UInt8) : Bool :=
  (0x30 ≤ b && b ≤ 0x39) || (0x41 ≤ b && b ≤ 0x5A) || (0x61 ≤ b && b ≤ 0x7A) ||
    b == 0x2A || b == 0x2D || b == 0x2E || b == 0x5F

/-- `encodeByte b` writes the byte `b` as a form has it. -/
def encodeByte (b : UInt8) : List Char :=
  if isPlain b then [Char.ofNat b.toNat]
  else if b = 0x20 then ['+']
  else ['%', hexDigit (b.toNat / 16), hexDigit (b.toNat % 16)]

/-- `encodePart text` writes a name or a value as a form has it. -/
def encodePart (text : String) : String :=
  String.ofList ((Utf8.encode text.toList).flatMap encodeByte)

/-- `decodePart part` reads a name or a value of a form. -/
def decodePart (part : List Char) : String :=
  let spaced := part.map fun c => if c = '+' then ' ' else c
  String.ofList (Utf8.decodeLossy (percentDecode (Utf8.encode spaced)))

/-- `pairs query` has the names and values of a form. Empty parts are skipped, and a part without an
equals sign has an empty value. -/
def pairs (query : List Char) : List (String × String) :=
  ((Text.splitAtEach '&' query).filter (! ·.isEmpty)).map fun part =>
    let (name, value) := Text.splitAtFirst '=' part
    (decodePart name, decodePart (value.getD []))

/-- `single? pairs name` is the value of a field that occurs at most once; a missing one is empty,
and one that occurs again has none. -/
def single? (pairs : List (String × String)) (name : String) : Option String :=
  match pairs.filter (·.1 = name) with
  | [] => some ""
  | [(_, value)] => some value
  | _ => none

end Form

end PodDesk.Http
