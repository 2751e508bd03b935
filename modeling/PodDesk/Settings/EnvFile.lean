import PodDesk.Settings.Environment
import PodDesk.Text.Blank

/-!
# Files with variables

A file can add variables to an environment, one assignment a line: `NAME=value`, perhaps after the
word `export`. Values may be quoted, strongly with `'` or weakly with `"`, and outside strong quotes
a dollar sign is replaced by the value of the variable that it names. A quoted value may go on over
several lines. Variables that the environment has already are kept, and a line that cannot be read
ends the file.
-/

namespace PodDesk.EnvFile

/-- Where a reader that looks for the end of a line is. -/
inductive Scan where
  | plain
  /-- After blanks, where a comment may begin. -/
  | blank
  | escaped
  | weak
  | weakEscaped
  | strong
  | strongEscaped
  deriving DecidableEq, Repr

namespace Scan

/-- `opening c` is how a character that begins something new is taken. -/
def opening (c : Char) : Scan :=
  if c = '\\' then escaped else if c = '"' then weak else if c = '\'' then strong else plain

/-- `step` is the place in a line after one more character. -/
def step : Scan → Char → Scan
  | plain, c => if Text.isBlank c && c ≠ '\n' && c ≠ '\r' then blank else opening c
  | blank, c => opening c
  | escaped, _ => plain
  | weak, c => if c = '\\' then weakEscaped else if c = '"' then plain else weak
  | weakEscaped, _ => weak
  | strong, c => if c = '\\' then strongEscaped else if c = '\'' then plain else strong
  | strongEscaped, _ => strong

end Scan

/-- `afterLine cs` is the text after the end of the line. -/
def afterLine (cs : List Char) : List Char :=
  (cs.dropWhile (· ≠ '\n')).drop 1

theorem length_afterLine_le (cs : List Char) : (afterLine cs).length ≤ cs.length := by
  have h : (cs.dropWhile (· ≠ '\n')).length ≤ cs.length := (List.dropWhile_sublist _).length_le
  simp only [afterLine, List.length_drop]
  omega

/-- `finishLine` is a line without the mark of its end, from its characters in reverse. -/
def finishLine : List Char → List Char
  | '\r' :: line => line.reverse
  | line => line.reverse

/-- `line?` is the first line, from a place in it with what was read of it in reverse, and the text
after it. There is none when the text ends within quotes, after a backslash or after blanks. -/
def line? : Scan → List Char → List Char → Option (List Char × List Char)
  | .plain, line, [] => some (line.reverse, [])
  | _, _, [] => none
  | scan, line, c :: cs =>
    if scan = .blank ∧ c = '#' then some (line.reverse, afterLine cs)
    else if c = '\n' ∧ scan.step c = .plain then some (finishLine line, cs)
    else line? (scan.step c) (c :: line) cs

theorem length_of_line?_cons {scan : Scan} {line : List Char} {c : Char} {cs : List Char}
    {r : List Char × List Char} (h : line? scan line (c :: cs) = some r) :
    r.2.length ≤ cs.length := by
  induction cs generalizing scan line c with
  | nil =>
    simp only [line?] at h
    split at h
    · cases h
      simp [afterLine]
    · split at h
      · cases h
        simp
      · generalize scan.step c = next at h
        cases next <;> simp [line?] at h
        subst h
        simp
  | cons d cs ih =>
    rw [line?] at h
    split at h
    · cases h
      exact length_afterLine_le (d :: cs)
    · split at h
      · cases h
        exact Nat.le_refl _
      · exact Nat.le_succ_of_le (ih h)

/-- `isComment cs` says whether the first line is a comment. -/
def isComment (cs : List Char) : Bool :=
  (cs.dropWhile fun c => Text.isBlank c && c ≠ '\n').head? = some '#'

/-- `lines` has the lines of a text without those that are comments, up to one that has no end. -/
def lines : List Char → List (List Char)
  | [] => []
  | c :: cs =>
    if isComment (c :: cs) then lines (afterLine cs)
    else
      match _h : line? .plain [] (c :: cs) with
      | some (line, rest) => line :: lines rest
      | none => []
termination_by cs => cs.length
decreasing_by
  · exact Nat.lt_succ_of_le (length_afterLine_le cs)
  · exact Nat.lt_succ_of_le (length_of_line?_cons ‹line? .plain [] _ = some _›)

/-- The quotes around a place in a value. -/
inductive Quote where
  | none
  | weak
  | strong
  deriving DecidableEq, Repr

/-- What is being read within a value. -/
inductive Place where
  | text
  | escaped
  /-- The name of a variable after a dollar sign. -/
  | name (read : String)
  /-- The name of a variable between braces. -/
  | braced (read : String)
  /-- The value is over; only blanks and a comment may follow. -/
  | ending
  deriving DecidableEq, Repr

/-- `valueOf e name` is the value of a variable, which is empty when the variable is missing. -/
def valueOf (e : Environment) (name : String) : String :=
  (e.get? name).getD ""

/-- `isNameChar c` holds of the characters of the names that a dollar sign can be followed by:
letters and digits, and beyond ASCII whatever is not blank. -/
def isNameChar (c : Char) : Bool :=
  c.isAlphanum || (c.val ≥ 128 && ! Text.isBlank c)

/-- `unescape? c` is what the character `c` stands for after a backslash. -/
def unescape? (c : Char) : Option Char :=
  if c = 'n' then some '\n' else if c ∈ ['\\', '\'', '"', '$', ' '] then some c else none

/-- `value? e` reads a value. -/
def value? (e : Environment) : Quote → Place → String → List Char → Option String
  | .none, .braced _, _, [] => none
  | .none, .name n, out, [] => some (out ++ valueOf e n)
  | .none, _, out, [] => some out
  | _, _, _, [] => none
  | q, .ending, out, c :: cs =>
    if c = ' ' ∨ c = '\t' then value? e q .ending out cs
    else if c = '#' then some out
    else none
  | q, .escaped, out, c :: cs =>
    match unescape? c with
    | some c => value? e q .text (out.push c) cs
    | none => none
  | q, .name n, out, c :: cs =>
    if isNameChar c then value? e q (.name (n.push c)) out cs
    else if c = '\x7b' ∧ n.isEmpty then value? e q (.braced "") out cs
    else if c = '$' then value? e q (.name "") (out ++ valueOf e n) cs
    else value? e q .text ((out ++ valueOf e n).push c) cs
  | q, .braced n, out, c :: cs =>
    if c = '\x7d' then value? e q .text (out ++ valueOf e n) cs
    else value? e q (.braced (n.push c)) out cs
  | .strong, .text, out, c :: cs =>
    if c = '\'' then value? e .none .text out cs else value? e .strong .text (out.push c) cs
  | .weak, .text, out, c :: cs =>
    if c = '$' then value? e .weak (.name "") out cs
    else if c = '"' then value? e .none .text out cs
    else if c = '\\' then value? e .weak .escaped out cs
    else value? e .weak .text (out.push c) cs
  | .none, .text, out, c :: cs =>
    if c = '$' then value? e .none (.name "") out cs
    else if c = '\'' then value? e .strong .text out cs
    else if c = '"' then value? e .weak .text out cs
    else if c = '\\' then value? e .none .escaped out cs
    else if c = ' ' ∨ c = '\t' then value? e .none .ending out cs
    else value? e .none .text (out.push c) cs

/-- `name? cs` is the name at the beginning of a line, and what follows it. -/
def name? (cs : List Char) : Option (String × List Char) :=
  let isRest (c : Char) : Bool := c.isAlphanum || c = '_' || c = '.'
  if cs.head?.any fun c => c.isAlpha || c = '_' then
    some (String.ofList (cs.takeWhile isRest), cs.dropWhile isRest)
  else none

/-- `afterEquals? cs` is the text after an equals sign. -/
def afterEquals? (cs : List Char) : Option (List Char) :=
  match cs.dropWhile Text.isBlank with
  | '=' :: cs => some (cs.dropWhile Text.isBlank)
  | _ => none

/-- The name of an assignment and the text of its value. The word `export` is a name too when an
equals sign follows it. -/
def assignment? (line : List Char) : Option (String × List Char) := do
  let (name, rest) ← name? line
  match afterEquals? rest with
  | some value => some (name, value)
  | none =>
    if name = "export" then
      let (name, rest) ← name? (rest.dropWhile Text.isBlank)
      let value ← afterEquals? rest
      some (name, value)
    else none

/-- `addLine? e line` is the environment after the line; there is none when the line cannot be read.
-/
def addLine? (e : Environment) (line : List Char) : Option Environment :=
  let line := Text.trimChars line
  if line.isEmpty || line.head? = some '#' then some e
  else do
    let (name, text) ← assignment? line
    let value ←
      if text.isEmpty || text.head? = some '#' then some "" else value? e .none .text "" text
    some (if (e.get? name).isSome then e else (name, value) :: e)

/-- `addLines e` is the environment after some lines, up to one that cannot be read. -/
def addLines (e : Environment) : List (List Char) → Environment
  | [] => e
  | line :: lines =>
    match addLine? e line with
    | some e => addLines e lines
    | none => e

/-- `load e file` is the environment with the variables of the file. A byte order mark at the
beginning is skipped. -/
def load (e : Environment) (file : String) : Environment :=
  addLines e (lines (match file.toList with
    | '\uFEFF' :: cs => cs
    | cs => cs))

end PodDesk.EnvFile
