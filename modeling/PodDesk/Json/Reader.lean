import PodDesk.Json.Doc
import PodDesk.Number.Decimal
import PodDesk.Number.Word

/-!
# Reading JSON text

The text is read one character at a time, with the open lists and objects on a stack; nesting has no
limit. `Reader.step` is the reading of one character and `Doc.read` that of a text. Reading never
fails: where the text stops being JSON the document has a break, and everything before it stays.
-/

namespace PodDesk

/-- A list or an object that is still open, with what it holds so far in reverse. -/
inductive Frame where
  | items (done : List Doc)
  | members (done : List (Except Fault String × Doc))
  | member (done : List (Except Fault String × Doc)) (name : Except Fault String)

/-- The text of a number so far. Digits are in reverse. -/
structure NumberText where
  negative : Bool := false
  whole : List Char := []
  fraction : Option (List Char) := none
  exponent : Option (Option Bool × List Char) := none

/-- Where in an escape the text of a string is. -/
inductive EscapeState where
  | none
  | backslash
  | hex (count : Nat) (value : Nat)
  /-- A wrong digit was found, and so many bytes of the escape are left. -/
  | wrongHex (left : Nat)

/-- The text of a string so far, in reverse. -/
structure StringText where
  chars : List Char := []
  escape : EscapeState := .none
  /-- The first half of a surrogate pair whose second half must follow. -/
  high : Option Nat := none
  /-- Whether an unpaired surrogate was found. -/
  unpaired : Bool := false

/-- What the reader is in the middle of. -/
inductive Expecting where
  /-- A value; at the start of a list also its end. -/
  | value (orEnd : Bool)
  /-- The name of a member; at the start of an object also its end. -/
  | name (orEnd : Bool)
  | colon
  /-- A comma or the end of what is open. -/
  | separator
  | string (asName : Bool) (text : StringText)
  | number (asName : Bool) (text : NumberText)
  | word (asName : Bool) (rest : List Char) (doc : Doc)
  /-- The whole value was read. -/
  | nothing (doc : Doc) (trailing : Bool)

/-- A text in the middle of being read. -/
structure Reader where
  stack : List Frame := []
  expecting : Expecting := .value false

/-- A finished reading: the document, and whether text other than white space follows it. -/
structure Reading where
  doc : Doc
  trailing : Bool

namespace NumberText

/-- `appendDigit? n c` puts one more digit behind `n`, if 64 bits can hold the result. -/
def appendDigit? (n : Nat) (c : Char) : Option Nat :=
  let next := n * 10 + (c.toNat - '0'.toNat)
  if next < word64 then some next else none

/-- `appendWhole n` appends whole digits while they fit; the second part counts the others. -/
def appendWhole (n : Nat) : List Char → Nat × Int
  | [] => (n, 0)
  | c :: cs =>
    match appendDigit? n c with
    | some next => appendWhole next cs
    | none => (n, (cs.length + 1 : Nat))

/-- `appendFraction n power` appends fraction digits while they fit, lowering the power of ten with
each; the others are dropped. -/
def appendFraction (n : Nat) (power : Int) : List Char → Nat × Int
  | [] => (n, power)
  | c :: cs =>
    match appendDigit? n c with
    | some next => appendFraction next (power - 1) cs
    | none => (n, power)

/-- `significand whole fraction` is the significand that 64 bits can hold, and the power of ten that
belongs to it. -/
def significand (whole fraction : List Char) : Nat × Int :=
  let (n, power) := appendWhole 0 whole
  appendFraction n power fraction

/-- `tooLarge` says whether the number is too large for a binary64 value. -/
def tooLarge (whole fraction : List Char) (exponent : Int) : Bool :=
  let (n, power) := significand whole fraction
  let power := power + exponent
  n ≠ 0 && 0 ≤ power &&
    (308 < power || ((Magnitude.ofNat n).timesNat (Nat.pow 10 power.toNat) == .infinite))

/-- `t.toNumber` is the number that `t` spells. A whole number outside 64 bits and negative zero
count as decimals. -/
def toNumber (t : NumberText) : Except Fault Number :=
  let whole := t.whole.reverse
  let fraction := (t.fraction.getD []).reverse
  let exponent : Int := match t.exponent with
    | none => 0
    | some (sign, digits) =>
      let n : Int := Decimal.value digits.reverse
      if sign = some true then -n else n
  let magnitude : Int := Decimal.value (whole ++ fraction)
  let signed := if t.negative then -magnitude else magnitude
  let isWhole := t.fraction.isNone && t.exponent.isNone
  if isWhole && -(word63 : Int) ≤ signed && signed < word64 && ! (t.negative && signed == 0) then
    .ok (.integer signed)
  else if tooLarge whole fraction exponent then .error .malformed
  else .ok (.decimal signed (exponent - fraction.length))

/-- `t.complete` says whether the number may end here. -/
def complete (t : NumberText) : Bool :=
  match t.exponent, t.fraction with
  | some (_, digits), _ => ! digits.isEmpty
  | none, some digits => ! digits.isEmpty
  | none, none => ! t.whole.isEmpty

/-- `t.push c` puts one more character behind the number, if it can go on with it. -/
def push (t : NumberText) (c : Char) : Option NumberText :=
  match t.exponent, t.fraction with
  | some (sign, digits), _ =>
    if Decimal.isDigit c then some { t with exponent := some (sign, c :: digits) }
    else if digits.isEmpty && sign.isNone && (c = '+' || c = '-') then
      some { t with exponent := some (some (c = '-'), []) }
    else none
  | none, some digits =>
    if Decimal.isDigit c then some { t with fraction := some (c :: digits) }
    else if (c = 'e' || c = 'E') && ! digits.isEmpty then
      some { t with exponent := some (none, []) }
    else none
  | none, none =>
    if Decimal.isDigit c then
      if t.whole = ['0'] then none else some { t with whole := c :: t.whole }
    else if t.whole.isEmpty then none
    else if c = '.' then some { t with fraction := some [] }
    else if c = 'e' || c = 'E' then some { t with exponent := some (none, []) }
    else none

end NumberText

namespace StringText

/-- `t.toString?` is the string that `t` spells, unless a surrogate is unpaired. -/
def toString? (t : StringText) : Except Fault String :=
  if t.unpaired || t.high.isSome then .error .malformed else .ok (String.ofList t.chars.reverse)

/-- `t.breakAt f` is the break at a defect of the string: for a reader an unpaired surrogate came
first. -/
def breakAt (t : StringText) (f : Fault) : Break :=
  let read := if t.unpaired then .malformed else f
  ⟨read, f, read, read⟩

/-- `t.pushUnit unit` puts a UTF-16 unit from an escape behind the string. -/
def pushUnit (t : StringText) (unit : Nat) : StringText :=
  match t.high with
  | some high =>
    if 0xDC00 ≤ unit ∧ unit ≤ 0xDFFF then
      { t with
        chars := Char.ofNat (0x10000 + (high - 0xD800) * 1024 + (unit - 0xDC00)) :: t.chars
        high := none, escape := .none }
    else { t with high := none, unpaired := true, escape := .none }
  | none =>
    if 0xD800 ≤ unit ∧ unit ≤ 0xDBFF then { t with high := some unit, escape := .none }
    else if 0xDC00 ≤ unit ∧ unit ≤ 0xDFFF then { t with unpaired := true, escape := .none }
    else { t with chars := Char.ofNat unit :: t.chars, escape := .none }

/-- `escaped?` is the character that a one-letter escape stands for. -/
def escaped? : Char → Option Char
  | '"' => some '"'
  | '\\' => some '\\'
  | '/' => some '/'
  | 'b' => some '\x08'
  | 'f' => some '\x0c'
  | 'n' => some '\n'
  | 'r' => some '\r'
  | 't' => some '\t'
  | _ => none

/-- `hexDigit? c` is the value of a hexadecimal digit. -/
def hexDigit? (c : Char) : Option Nat :=
  if '0' ≤ c ∧ c ≤ '9' then some (c.toNat - '0'.toNat)
  else if 'a' ≤ c ∧ c ≤ 'f' then some (c.toNat - 'a'.toNat + 10)
  else if 'A' ≤ c ∧ c ≤ 'F' then some (c.toNat - 'A'.toNat + 10)
  else none

/-- `t.push c` takes one character of a string, its closing quote apart: the string goes on, or it
breaks. -/
def push (t : StringText) (c : Char) : Except Fault StringText :=
  match t.escape with
  | .none =>
    if c = '\\' then .ok { t with escape := .backslash }
    else
      let t := if t.high.isSome then { t with high := none, unpaired := true } else t
      if c.toNat < 32 then .error .malformed else .ok { t with chars := c :: t.chars }
  | .backslash =>
    if c = 'u' then .ok { t with escape := .hex 0 0 }
    else
      let t := if t.high.isSome then { t with high := none, unpaired := true } else t
      match escaped? c with
      | some e => .ok { t with chars := e :: t.chars, escape := .none }
      | none => .error .malformed
  | .hex count value =>
    match hexDigit? c with
    | some d =>
      if count = 3 then .ok (t.pushUnit (value * 16 + d))
      else .ok { t with escape := .hex (count + 1) (value * 16 + d) }
    | none =>
      if 4 ≤ count + c.utf8Size then .error .malformed
      else .ok { t with escape := .wrongHex (4 - count - c.utf8Size) }
  | .wrongHex left =>
    if left ≤ c.utf8Size then .error .malformed
    else .ok { t with escape := .wrongHex (left - c.utf8Size) }

end StringText

namespace Reader

/-- `isSpace c` holds of the white space between the parts of a JSON text. -/
def isSpace (c : Char) : Bool :=
  c = ' ' || c = '\n' || c = '\t' || c = '\r'

/-- `unwind b doc` closes everything that is open around the document `doc` in which the text broke.
-/
def unwind (b : Break) (doc : Doc) : List Frame → Doc
  | [] => doc
  | .items done :: stack => unwind b (.arr (doc :: done).reverse (some b)) stack
  | .members done :: stack => unwind b (.obj done.reverse (some b)) stack
  | .member done name :: stack => unwind b (.obj ((name, doc) :: done).reverse (some b)) stack

/-- `breakValue stack b` breaks the text where a value or a member's name is due. A name that is due
after a comma is a member of its own. -/
def breakValue (stack : List Frame) (b : Break) : Doc :=
  match stack with
  | .members [] :: stack => unwind b (.obj [] (some b)) stack
  | .members done :: stack =>
    unwind b (.obj ((.error b.read, .broken b) :: done).reverse (some b)) stack
  | stack => unwind b (.broken b) stack

/-- `breakSeparator stack b` breaks the text where a comma or an end is due. -/
def breakSeparator (stack : List Frame) (b : Break) : Doc :=
  match stack with
  | [] => .broken b
  | .items done :: stack => unwind b (.arr done.reverse (some b)) stack
  | .members done :: stack => unwind b (.obj done.reverse (some b)) stack
  | .member done name :: stack => unwind b (.obj ((name, .broken b) :: done).reverse (some b)) stack

/-- `stopped doc` is the reader after a break; nothing that follows counts. -/
def stopped (doc : Doc) : Reader :=
  ⟨[], .nothing doc true⟩

/-- `accept stack doc` puts a whole value into what is open around it. -/
def accept (stack : List Frame) (doc : Doc) : Reader :=
  match stack with
  | [] => ⟨[], .nothing doc false⟩
  | .items done :: stack => ⟨.items (doc :: done) :: stack, .separator⟩
  | .member done name :: stack => ⟨.members ((name, doc) :: done) :: stack, .separator⟩
  | .members done :: stack => ⟨.members done :: stack, .separator⟩

/-- `finish` takes a whole scalar for a value, or for something in the place of a name. Only a
string is a name. -/
def finish (stack : List Frame) (asName : Bool) (doc : Doc) : Reader :=
  if asName then
    match stack, doc with
    | .members done :: stack, .str s => ⟨.member done s :: stack, .colon⟩
    | stack, .num (.error f) => stopped (breakValue stack (.inScalar true f f))
    | stack, _ => stopped (breakValue stack (.inScalar true .mismatch .mismatch))
  else accept stack doc

/-- `begin` takes the first character of a value, or of what stands in the place of a name. -/
def begin (stack : List Frame) (asName : Bool) (c : Char) : Reader :=
  match c with
  | '"' => ⟨stack, .string asName {}⟩
  | '-' => ⟨stack, .number asName { negative := true }⟩
  | 't' => ⟨stack, .word asName ['r', 'u', 'e'] (.bool true)⟩
  | 'f' => ⟨stack, .word asName ['a', 'l', 's', 'e'] (.bool false)⟩
  | 'n' => ⟨stack, .word asName ['u', 'l', 'l'] .null⟩
  | '[' =>
    if asName then stopped (breakValue stack (.inScalar true .mismatch .mismatch))
    else ⟨.items [] :: stack, .value true⟩
  | '\x7b' =>
    if asName then stopped (breakValue stack (.inScalar true .mismatch .mismatch))
    else ⟨.members [] :: stack, .name true⟩
  | c =>
    if Decimal.isDigit c then ⟨stack, .number asName { whole := [c] }⟩
    else stopped (breakValue stack (.same .malformed))

/-- `separate stack c` takes a character where a comma or an end is due. -/
def separate (stack : List Frame) (c : Char) : Reader :=
  if isSpace c then ⟨stack, .separator⟩
  else
    match stack with
    | .items done :: outer =>
      if c = ',' then ⟨stack, .value false⟩
      else if c = ']' then accept outer (.arr done.reverse none)
      else stopped (breakSeparator stack (.same .malformed))
    | .members done :: outer =>
      if c = ',' then ⟨stack, .name false⟩
      else if c = '\x7d' then accept outer (.obj done.reverse none)
      else stopped (breakSeparator stack (.same .malformed))
    | stack => stopped (breakSeparator stack (.same .malformed))

/-- `r.afterScalar c` takes a character after a whole scalar, which belongs to what is around it. -/
def afterScalar (r : Reader) (c : Char) : Reader :=
  match r.expecting with
  | .separator => separate r.stack c
  | .nothing doc trailing => ⟨r.stack, .nothing doc (trailing || ! isSpace c)⟩
  | _ => r

/-- `r.step c` takes one character. -/
def step (r : Reader) (c : Char) : Reader :=
  match r.expecting with
  | .value orEnd =>
    if isSpace c then r
    else
      match orEnd, c, r.stack with
      | true, ']', .items done :: outer => accept outer (.arr done.reverse none)
      | _, _, stack => begin stack false c
  | .name orEnd =>
    if isSpace c then r
    else
      match orEnd, c, r.stack with
      | true, '\x7d', .members done :: outer => accept outer (.obj done.reverse none)
      | _, _, stack => begin stack true c
  | .colon =>
    if isSpace c then r
    else if c = ':' then { r with expecting := .value false }
    else stopped (breakValue r.stack (.same .malformed))
  | .separator => separate r.stack c
  | .string asName text =>
    match text.escape, c with
    | .none, '"' => finish r.stack asName (.str text.toString?)
    | _, _ =>
      match text.push c with
      | .ok text => { r with expecting := .string asName text }
      | .error f => stopped (breakValue r.stack (text.breakAt f))
  | .number asName text =>
    match text.push c with
    | some text => { r with expecting := .number asName text }
    | none =>
      if text.complete && ! (Decimal.isDigit c) then
        afterScalar (finish r.stack asName (.num text.toNumber)) c
      else stopped (breakValue r.stack (.inScalar asName .malformed .malformed))
  | .word asName rest doc =>
    match rest with
    | [] => r
    | [last] =>
      if c = last then finish r.stack asName doc
      else stopped (breakValue r.stack (.inScalar asName .malformed .malformed))
    | next :: rest =>
      if c = next then { r with expecting := .word asName rest doc }
      else stopped (breakValue r.stack (.inScalar asName .malformed .malformed))
  | .nothing doc trailing => { r with expecting := .nothing doc (trailing || ! isSpace c) }

/-- `r.close` ends the text. -/
def close (r : Reader) : Reading :=
  match r.expecting with
  | .value _ => ⟨breakValue r.stack (.same .truncated), false⟩
  | .name _ => ⟨breakValue r.stack (.same .truncated), false⟩
  | .colon => ⟨breakValue r.stack (.same .truncated), false⟩
  | .separator => ⟨breakSeparator r.stack (.same .truncated), false⟩
  | .string _ text =>
    ⟨breakValue r.stack (text.breakAt .truncated), false⟩
  | .number asName text =>
    if text.complete then
      match (finish r.stack asName (.num text.toNumber)) with
      | ⟨_, .nothing doc trailing⟩ => ⟨doc, trailing⟩
      | r => ⟨breakSeparator r.stack (.same .truncated), false⟩
    else
      ⟨breakValue r.stack (.inScalar asName .truncated .malformed), false⟩
  | .word asName _ _ => ⟨breakValue r.stack (.inScalar asName .truncated .truncated), false⟩
  | .nothing doc trailing => ⟨doc, trailing⟩

end Reader

/-- `Doc.read text` is the reading of a text as JSON. -/
def Doc.read (text : String) : Reading :=
  (text.toList.foldl Reader.step {}).close

/-- `Json.parse text` is the value that the text holds, with nothing but white space around it. -/
def Json.parse (text : String) : Except Fault Json := do
  let reading := Doc.read text
  let value ← reading.doc.toJson
  if reading.trailing then .error .malformed else .ok value

end PodDesk
