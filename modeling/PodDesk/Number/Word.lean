/-!
# Machine words

How many values words of a certain number of bits have.
-/

namespace PodDesk

/-- `word16` is the number of values of 16 bits. -/
def word16 : Nat := 65536

/-- `word31` is the number of values of 31 bits. -/
def word31 : Nat := 2147483648

/-- `word32` is the number of values of 32 bits. -/
def word32 : Nat := 4294967296

/-- `word63` is the number of values of 63 bits. -/
def word63 : Nat := 9223372036854775808

/-- `word64` is the number of values of 64 bits. -/
def word64 : Nat := 18446744073709551616

end PodDesk
