import PodDesk.Text.Blank

/-!
# Comma separated lists

A text names several entries by separating them with commas. Reading trims every part and drops
the blank ones; writing puts a comma between the entries.
-/

namespace PodDesk.Text

/-- `splitAtEach sep` has the parts of a text between the separators; a text without a separator is
one part. -/
def splitAtEach (sep : Char) : List Char → List (List Char)
  | [] => [[]]
  | c :: cs =>
    if c = sep then
      [] :: splitAtEach sep cs
    else
      match splitAtEach sep cs with
      | [] => [[c]]
      | part :: parts => (c :: part) :: parts

/-- `splitAtFirst sep` splits at the first separator, which belongs to neither part. -/
def splitAtFirst (sep : Char) : List Char → List Char × Option (List Char)
  | [] => ([], none)
  | c :: cs =>
    if c = sep then
      ([], some cs)
    else
      let (before, after) := splitAtFirst sep cs
      (c :: before, after)

namespace CommaList

/-- `parse s` has the entries of a comma separated text: its trimmed parts, without the blank ones.
-/
def parse (s : String) : List String :=
  (((splitAtEach ',' s.toList).map trimChars).filter (! ·.isEmpty)).map String.ofList

/-- `join entries` is the text that names the entries, with a comma between neighbours. -/
def join (entries : List String) : String :=
  String.intercalate "," entries

end CommaList

end PodDesk.Text
