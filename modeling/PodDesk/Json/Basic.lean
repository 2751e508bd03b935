/-!
# JSON values

Values with objects as ordered lists of members, so that a repeated name stays visible. Numbers keep
whole numbers of 64 bits apart from all others, which are kept as exact decimals.
-/

namespace PodDesk

/-- A JSON number: one that a 64 bit integer can hold (signed or unsigned), or any other as
`significand * 10 ^ exponent`. -/
inductive Number where
  | integer (n : Int)
  | decimal (significand : Int) (exponent : Int)
  deriving DecidableEq, Repr

/-- A JSON value. -/
inductive Json where
  | null
  | bool (b : Bool)
  | num (n : Number)
  | str (s : String)
  | arr (items : List Json)
  | obj (members : List (String × Json))
  deriving Repr, BEq, Inhabited

namespace Json

/-- `ofInt n` is the whole number `n`. -/
def ofInt (n : Int) : Json :=
  .num (.integer n)

/-- `ofNat n` is the natural number `n`. -/
def ofNat (n : Nat) : Json :=
  .num (.integer n)

/-- `ofText?` is the text, or null when there is none. -/
def ofText? : Option String → Json
  | none => .null
  | some s => .str s

/-- `ofTexts texts` is the list of the texts. -/
def ofTexts (texts : List String) : Json :=
  .arr (texts.map .str)

/-- `j.get? name` is the value of the member with the name; of several the last counts. -/
def get? (j : Json) (name : String) : Option Json :=
  match j with
  | .obj members => (members.reverse.find? (·.1 == name)).map (·.2)
  | _ => none

/-- `ofMembers? members` is the object of the members that are present, in order. -/
def ofMembers? (members : List (String × Option Json)) : Json :=
  .obj (members.filterMap fun (name, value) => value.map (name, ·))

end Json

end PodDesk
