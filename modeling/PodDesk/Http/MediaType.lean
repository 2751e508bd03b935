import PodDesk.Text.CommaList

/-!
# Media types

The type and the subtype of a header such as `application/json; charset=utf-8`. A subtype may end in
a plus sign and a suffix that names a more general format.
-/

namespace PodDesk.Http

/-- A media type without its parameters. -/
structure MediaType where
  main : String
  sub : String
  suffix : Option String
  deriving DecidableEq, Repr

namespace MediaType

/-- `isTokenChar c` holds of the characters of names and unquoted values. -/
def isTokenChar (c : Char) : Bool :=
  c.isAlphanum || ("!#$%&'*+-.^_|~".toList.contains c) || c.val == 0x60

/-- `isQuotedChar c` holds of the characters between quotes. -/
def isQuotedChar (c : Char) : Bool :=
  32 ≤ c.val && c.val < 127

/-- `skipQuoted?` skips the rest of a quoted value and what may follow it. The result starts behind
the semicolon of the next parameter; there is none at the end. -/
def skipQuoted? : List Char → Option (Option (List Char))
  | [] => none
  | '"' :: cs =>
    match cs.dropWhile (· = ' ') with
    | [] => some none
    | c :: rest => if c = ';' then some (some rest) else none
  | c :: cs => if isQuotedChar c then skipQuoted? cs else none

/-- `skipValue? cs` skips the value of a parameter. -/
def skipValue? (cs : List Char) : Option (Option (List Char)) :=
  match cs with
  | '"' :: quoted => skipQuoted? quoted
  | _ =>
    match cs.dropWhile isTokenChar with
    | [] => some none
    | c :: rest => if c = ';' ∧ ! (cs.takeWhile isTokenChar).isEmpty then some (some rest) else none

/-- `skipName? cs` skips the name of a parameter and the equals sign. -/
def skipName? (cs : List Char) : Option (List Char) :=
  let cs := cs.dropWhile (· = ' ')
  match cs.dropWhile isTokenChar with
  | c :: rest => if c = '=' ∧ ! (cs.takeWhile isTokenChar).isEmpty then some rest else none
  | [] => none

/-- `areParameters` says whether parameters are well formed. A fuel of their length is enough. -/
def areParameters : Nat → List Char → Bool
  | 0, _ => false
  | fuel + 1, cs =>
    match (skipName? cs).bind skipValue? with
    | none => false
    | some none => true
    | some (some rest) => areParameters fuel rest

/-- `splitSuffix sub` is the part before the last plus sign that is not in front, and the part after
it. -/
def splitSuffix (sub : List Char) : List Char × Option (List Char) :=
  let suffix := (sub.reverse.takeWhile (· ≠ '+')).reverse
  let before := sub.take (sub.length - suffix.length - 1)
  if suffix.length < sub.length ∧ ! before.isEmpty then (before, some suffix) else (sub, none)

/-- `parse? s` reads a media type; letters are taken as lower case. -/
def parse? (s : String) : Option MediaType :=
  let cs := s.toList.map Char.toLower
  let main := cs.takeWhile isTokenChar
  match cs.dropWhile isTokenChar with
  | '/' :: rest =>
    let sub := rest.takeWhile isTokenChar
    let (name, suffix) := splitSuffix sub
    let found : MediaType := ⟨String.ofList main, String.ofList name, suffix.map String.ofList⟩
    match rest.dropWhile isTokenChar with
    | [] => if main.isEmpty then none else some found
    | ';' :: parameters =>
      if main.isEmpty || sub.isEmpty || ! areParameters (parameters.length + 1) parameters then none
      else some found
    | _ => none
  | _ => none

/-- `m.isJson` says whether the format is JSON, by its name or by its suffix. -/
def isJson (m : MediaType) : Bool :=
  m.main = "application" && (m.sub = "json" || m.suffix = some "json")

end MediaType

end PodDesk.Http
