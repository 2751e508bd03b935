import PodDesk.Number.Binary64

/-!
# Numbers written in decimal digits

Readers for whole numbers and for decimal fractions with an optional exponent, and the clamp to 32
bits. None of them skips white space.
-/

namespace PodDesk

namespace Decimal

/-- `isDigit c` says whether `c` is an ASCII digit. -/
def isDigit (c : Char) : Bool :=
  '0' ≤ c && c ≤ '9'

/-- `value digits` is the number that the digits spell, most significant first. -/
def value (digits : List Char) : Nat :=
  digits.foldl (fun n c => n * 10 + (c.toNat - '0'.toNat)) 0

/-- `splitSign` takes an optional sign off, and leaves what follows it. -/
def splitSign : List Char → Bool × List Char
  | '-' :: cs => (true, cs)
  | '+' :: cs => (false, cs)
  | cs => (false, cs)

/-- `natural? cs` reads a natural number: digits only, at least one. -/
def natural? (cs : List Char) : Option Nat :=
  if cs.isEmpty || ! cs.all isDigit then none else some (value cs)

/-- `integer? cs` reads a whole number: an optional sign and digits. -/
def integer? (cs : List Char) : Option Int :=
  let (negative, digits) := splitSign cs
  (natural? digits).map fun n => if negative then -(n : Int) else n

/-- `unsigned?` reads a whole number without a minus sign: an optional plus sign and digits. -/
def unsigned? : List Char → Option Nat
  | '+' :: cs => natural? cs
  | cs => natural? cs

/-- A number with a sign and possibly a fraction and an exponent, before it is rounded:
`digits * 10 ^ power`, an infinity, or the mark for "not a number". -/
inductive Real where
  | finite (negative : Bool) (digits : Nat) (power : Int)
  | infinite (negative : Bool)
  | notANumber
  deriving DecidableEq, Repr

/-- `exponent?` is the power of ten that an exponent mark asks for; no mark asks for none. -/
def exponent? : List Char → Option Int
  | [] => some 0
  | c :: cs => if c = 'e' ∨ c = 'E' then integer? cs else none

/-- `unsignedReal? cs` reads digits with an optional point among them, and an optional exponent. -/
def unsignedReal? (cs : List Char) : Option (Nat × Int) :=
  let whole := cs.takeWhile isDigit
  let rest := cs.dropWhile isDigit
  let (fraction, rest) := match rest with
    | '.' :: more => (more.takeWhile isDigit, more.dropWhile isDigit)
    | other => ([], other)
  if whole.isEmpty && fraction.isEmpty then none
  else (exponent? rest).map fun e => (value (whole ++ fraction), e - fraction.length)

/-- `real? cs` reads a decimal fraction with an optional sign; also the words for infinity and for
"not a number", in any case. -/
def real? (cs : List Char) : Option Real :=
  let (negative, rest) := splitSign cs
  let word := String.ofList (rest.map Char.toLower)
  if word = "inf" ∨ word = "infinity" then some (.infinite negative)
  else if word = "nan" then some .notANumber
  else (unsignedReal? rest).map fun (digits, power) => .finite negative digits power

end Decimal

/-- `clampInt32 n` is the 32 bit number nearest to `n`. -/
def clampInt32 (n : Int) : Int32 :=
  Int32.ofInt (max (-2147483648) (min n 2147483647))

end PodDesk
