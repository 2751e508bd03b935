import PodDesk.Number.Decimal
import PodDesk.Number.Word
import PodDesk.Text.Blank

/-!
# Quantities

The cluster keeps amounts of processor time and memory as texts with a unit. Here they are read as
whole numbers of thousandths of a core and of MiB, in binary64 arithmetic and clamped to 32 bits. A
text that is no quantity counts as zero.
-/

namespace PodDesk.Quantity

/-- `mebibyte` is how many bytes a MiB has. -/
def mebibyte : Nat := 1048576

/-- `memoryUnits` has the units of memory with their sizes in bytes, in the order in which they are
tried. -/
def memoryUnits : List (List Char × Nat) :=
  [(['K', 'i'], Nat.pow 2 10), (['M', 'i'], Nat.pow 2 20), (['G', 'i'], Nat.pow 2 30),
    (['T', 'i'], Nat.pow 2 40), (['P', 'i'], Nat.pow 2 50), (['E', 'i'], Nat.pow 2 60),
    (['k'], Nat.pow 10 3), (['K'], Nat.pow 10 3), (['M'], Nat.pow 10 6), (['G'], Nat.pow 10 9),
    (['T'], Nat.pow 10 12), (['P'], Nat.pow 10 15), (['E'], Nat.pow 10 18), ([], 1)]

/-- `dropUnit? unit cs` is the text before the unit, if it is at the end. -/
def dropUnit? (unit cs : List Char) : Option (List Char) :=
  if unit.isSuffixOf cs then some (cs.take (cs.length - unit.length)) else none

/-- `clamp negative n` is the 32 bit number nearest to `n` with its sign. Infinity has no `n`, and
counts like a number that does not fit. -/
def clamp (negative : Bool) (n : Option Nat) : Int32 :=
  match n with
  | some n => clampInt32 (if negative then -(n : Int) else n)
  | none => clampInt32 (if negative then -(word31 : Int) else word31)

/-- Thousandths of a core: the number before an `m`, or a number of cores. The nearest whole number
counts, and of a half the one further from zero. -/
def millicores (s : String) : Int32 :=
  let cs := Text.trimChars s.toList
  let (number, scale) := match dropUnit? ['m'] cs with
    | some number => (number, 1)
    | none => (cs, 1000)
  match Decimal.real? number with
  | some (.finite negative digits power) =>
    clamp negative ((Magnitude.ofDecimal digits power).timesNat scale).roundHalfUp?
  | some (.infinite negative) => clamp negative none
  | _ => 0

/-- `memoryAmount? cs` is the number before the first unit for which it is one, with the size of the
unit. -/
def memoryAmount? (cs : List Char) : Option (Decimal.Real × Nat) :=
  memoryUnits.findSome? fun (unit, size) => do
    let number ← dropUnit? unit cs
    let amount ← Decimal.real? number
    some (amount, size)

/-- `mebibytes s` is the number of whole MiB; a remainder is dropped. -/
def mebibytes (s : String) : Int32 :=
  match memoryAmount? (Text.trimChars s.toList) with
  | some (.finite negative digits power, size) =>
    clamp negative (((Magnitude.ofDecimal digits power).timesNat size).overNat mebibyte).floor?
  | some (.infinite negative, _) => clamp negative none
  | _ => 0

/-- `ofMillicores n` writes a number of thousandths of a core. -/
def ofMillicores (n : Int32) : String :=
  toString n.toInt ++ "m"

/-- `ofMebibytes n` writes a number of MiB. -/
def ofMebibytes (n : Int32) : String :=
  toString n.toInt ++ "Mi"

end PodDesk.Quantity
