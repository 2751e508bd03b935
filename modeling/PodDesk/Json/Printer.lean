import PodDesk.Json.Basic

/-!
# Writing JSON

A value is written on one line without spaces. Every character outside ASCII is escaped by its
UTF-16 units, so the text is pure ASCII.
-/

namespace PodDesk.Json

/-- `hexDigit n` is the hexadecimal digit of a number below 16. -/
def hexDigit (n : Nat) : Char :=
  if n < 10 then Char.ofNat (n + 48) else Char.ofNat (n + 87)

/-- `escapeUnit n` writes one UTF-16 unit as an escape. -/
def escapeUnit (n : Nat) : List Char :=
  ['\\', 'u', hexDigit (n / 4096 % 16), hexDigit (n / 256 % 16), hexDigit (n / 16 % 16),
    hexDigit (n % 16)]

/-- `escapeChar c` writes a character inside quotes. -/
def escapeChar (c : Char) : List Char :=
  if c = '"' then ['\\', '"']
  else if c = '\\' then ['\\', '\\']
  else if 32 ≤ c.toNat ∧ c.toNat < 127 then [c]
  else if c.toNat < 65536 then escapeUnit c.toNat
  else
    let n := c.toNat - 65536
    escapeUnit (0xD800 + n / 1024) ++ escapeUnit (0xDC00 + n % 1024)

/-- `renderText s` writes a text in quotes. -/
def renderText (s : String) : String :=
  String.ofList ('"' :: s.toList.flatMap escapeChar ++ ['"'])

/-- `renderNumber` writes a number; one that is no 64 bit integer has an exponent. -/
def renderNumber : Number → String
  | .integer n => toString n
  | .decimal significand exponent => toString significand ++ "e" ++ toString exponent

mutual

/-- `render` writes a value. -/
def render : Json → String
  | .null => "null"
  | .bool true => "true"
  | .bool false => "false"
  | .num n => renderNumber n
  | .str s => renderText s
  | .arr items => "[" ++ renderItems items ++ "]"
  | .obj members => "\x7b" ++ renderMembers members ++ "\x7d"

/-- `renderItems` writes the items of a list, with commas between them. -/
def renderItems : List Json → String
  | [] => ""
  | [item] => render item
  | item :: items => render item ++ "," ++ renderItems items

/-- `renderMembers` writes the members of an object, with commas between them. -/
def renderMembers : List (String × Json) → String
  | [] => ""
  | [(name, value)] => renderText name ++ ":" ++ render value
  | (name, value) :: members =>
    renderText name ++ ":" ++ render value ++ "," ++ renderMembers members

end

end PodDesk.Json
