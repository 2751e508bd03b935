import PodDesk.Json.Basic
import PodDesk.Number.Decimal
import PodDesk.Text.CommaList

/-!
# Pointers into JSON

A pointer names a place in a value: the names of members and the positions of items on the way
there, each after a slash. In a name `~1` stands for a slash and `~0` for a tilde.
-/

namespace PodDesk.Json.Pointer

/-- `unescape` takes the escapes out of a name. -/
def unescape : List Char → List Char
  | '~' :: '1' :: cs => '/' :: unescape cs
  | '~' :: '0' :: cs => '~' :: unescape cs
  | c :: cs => c :: unescape cs
  | [] => []

/-- `position? cs` reads a position: decimal digits without leading zeros. -/
def position? (cs : List Char) : Option Nat :=
  match cs with
  | '0' :: _ :: _ => none
  | _ => Decimal.natural? cs

/-- `step? j name` goes from the value `j` to its member or item of that name. -/
def step? (j : Json) (name : List Char) : Option Json :=
  match j with
  | .obj _ => j.get? (String.ofList name)
  | .arr items => (position? name).bind (items[·]?)
  | _ => none

/-- `resolve? j pointer` is the value at the place that the pointer names. -/
def resolve? (j : Json) (pointer : String) : Option Json :=
  match pointer.toList with
  | [] => some j
  | '/' :: cs => ((Text.splitAtEach '/' cs).map unescape).foldlM step? j
  | _ => none

end PodDesk.Json.Pointer
