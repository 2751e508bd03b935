/-!
# White space

Blank characters are those with the Unicode property White_Space. `trimChars` drops them at both
ends of a text, and a text is blank when nothing else is in it.
-/

namespace PodDesk.Text

/-- `isBlank c` holds of the characters with the Unicode property White_Space. -/
def isBlank (c : Char) : Bool :=
  (0x09 ≤ c.val && c.val ≤ 0x0D) || c.val == 0x20 || c.val == 0x85 || c.val == 0xA0
    || c.val == 0x1680 || (0x2000 ≤ c.val && c.val ≤ 0x200A) || c.val == 0x2028
    || c.val == 0x2029 || c.val == 0x202F || c.val == 0x205F || c.val == 0x3000

/-- `trimEnd cs` drops blank characters at the end. -/
def trimEnd (cs : List Char) : List Char :=
  (cs.reverse.dropWhile isBlank).reverse

/-- `trimChars cs` drops blank characters at both ends. -/
def trimChars (cs : List Char) : List Char :=
  trimEnd (cs.dropWhile isBlank)

/-- `isBlankText s` says that `s` has no character but white space. -/
def isBlankText (s : String) : Bool :=
  s.toList.all isBlank

/-- `nonEmpty s` is the text, present only when it is not empty. -/
def nonEmpty (s : String) : Option String :=
  if s.isEmpty then none else some s

end PodDesk.Text
