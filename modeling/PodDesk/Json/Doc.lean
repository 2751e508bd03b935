import PodDesk.Json.Basic

/-!
# Documents

What a text holds when it is read as JSON, kept even when the text is defective: a document is a
JSON value whose parts may be unusable. A reader with a type in mind walks it in the order of the
text, so that of two defects the first one in the text decides. `Doc.ofJson` embeds values; they
have no defect.

Text of a value that nobody asks for is skipped. Skipping is more lenient than reading, so a defect
says what happens in either case.
-/

namespace PodDesk

/-- Why no value can be taken from a document. -/
inductive Fault where
  /-- The text ends too early. -/
  | truncated
  /-- The text is not JSON. -/
  | malformed
  /-- The text is JSON, but not for a value of the wanted type. -/
  | mismatch
  deriving DecidableEq, Repr

/-- A place where the text cannot go on, and what that means for one who comes there. -/
structure Break where
  /-- For one who reads the value. -/
  read : Fault
  /-- For one who skips the value. -/
  skip : Fault
  /-- For one who wants one of several named alternatives. -/
  choice : Fault
  /-- For one who wants the name of an alternative where a member's name stands. -/
  name : Fault
  deriving DecidableEq, Repr

/-- `Break.same f` means the same for everyone. -/
def Break.same (f : Fault) : Break :=
  ⟨f, f, f, f⟩

/-- `Break.inScalar` is a break after the first characters of a number or a word. -/
def Break.inScalar (asName : Bool) (read skip : Fault) : Break :=
  if asName then ⟨.malformed, .malformed, .malformed, read⟩ else ⟨read, skip, .malformed, read⟩

/-- What was found in a text. -/
inductive Doc where
  | null
  | bool (b : Bool)
  /-- A number; one that is too large for a binary64 value is unusable. -/
  | num (n : Except Fault Number)
  /-- A string; one with an unpaired surrogate is unusable. -/
  | str (s : Except Fault String)
  /-- A list, with the break that came instead of its end. -/
  | arr (items : List Doc) (stop : Option Break)
  /-- An object, with the break that came instead of its end. -/
  | obj (members : List (Except Fault String × Doc)) (stop : Option Break)
  /-- No value could be found here. -/
  | broken (b : Break)

namespace Doc

/-- `Doc.skipFault?` is what stops one who skips the document. -/
def skipFault? : Doc → Option Fault
  | .arr _ stop => stop.map (·.skip)
  | .obj _ stop => stop.map (·.skip)
  | .broken b => some b.skip
  | _ => none

mutual

/-- `Doc.ofJson` is the document that a value makes. -/
def ofJson : Json → Doc
  | .null => .null
  | .bool b => .bool b
  | .num n => .num (.ok n)
  | .str s => .str (.ok s)
  | .arr items => .arr (ofItems items) none
  | .obj members => .obj (ofMembers members) none

/-- `Doc.ofItems` makes documents of the values of a list. -/
def ofItems : List Json → List Doc
  | [] => []
  | item :: items => ofJson item :: ofItems items

/-- `Doc.ofMembers` makes members of a document of those of an object. -/
def ofMembers : List (String × Json) → List (Except Fault String × Doc)
  | [] => []
  | (name, value) :: members => (.ok name, ofJson value) :: ofMembers members

end

mutual

/-- `Doc.toJson` is the value that a document holds, or what is wrong with the first unusable part.
-/
def toJson : Doc → Except Fault Json
  | .null => .ok .null
  | .bool b => .ok (.bool b)
  | .num n => n.map .num
  | .str s => s.map .str
  | .arr items stop => do
    let items ← toItems items
    match stop with
    | some b => .error b.read
    | none => .ok (.arr items)
  | .obj members stop => do
    let members ← toMembers members
    match stop with
    | some b => .error b.read
    | none => .ok (.obj members)
  | .broken b => .error b.read

/-- `toItems` has the values of the items. -/
def toItems : List Doc → Except Fault (List Json)
  | [] => .ok []
  | item :: items => do
    let first ← toJson item
    let rest ← toItems items
    .ok (first :: rest)

/-- `toMembers` has the values of the members. -/
def toMembers : List (Except Fault String × Doc) → Except Fault (List (String × Json))
  | [] => .ok []
  | (name, value) :: members => do
    let name ← name
    let value ← toJson value
    let rest ← toMembers members
    .ok ((name, value) :: rest)

end

end Doc

end PodDesk
