import PodDesk.Json.Basic
import PodDesk.Number.Decimal
import PodDesk.Text.Blank

/-!
# The block notation of configuration files

Configuration files for clusters are written in YAML. This module reads the part of it that they
use: nested mappings and lists by indentation, the same in brackets, plain and quoted scalars, and
comments. What it reads becomes JSON.
-/

namespace PodDesk.Client

namespace Notation

/-- `plain cs` is the value of a plain scalar: nothing, a truth value, a number or a text. -/
def plain (cs : List Char) : Json :=
  let s := String.ofList cs
  if s ∈ ["", "~", "null", "Null", "NULL"] then .null
  else if s ∈ ["true", "True", "TRUE"] then .bool true
  else if s ∈ ["false", "False", "FALSE"] then .bool false
  else
    match Decimal.integer? cs, Decimal.real? cs with
    | some n, _ => .ofInt n
    | none, some (.finite negative digits power) =>
      .num (.decimal (if negative then -(digits : Int) else digits) power)
    | _, _ => .str s

/-- `singleQuoted?` is the rest of a text between single quotes, which stand for one when doubled,
and what follows. -/
def singleQuoted? : List Char → Option (List Char × List Char)
  | [] => none
  | ['\''] => some ([], [])
  | '\'' :: '\'' :: cs => (singleQuoted? cs).map fun (text, rest) => ('\'' :: text, rest)
  | '\'' :: cs => some ([], cs)
  | c :: cs => (singleQuoted? cs).map fun (text, rest) => (c :: text, rest)

/-- `escaped? c` is what a character stands for after a backslash. -/
def escaped? (c : Char) : Option Char :=
  if c = 'n' then some '\n'
  else if c = 't' then some '\t'
  else if c ∈ ['"', '\\', '/', ' '] then some c
  else none

/-- `doubleQuoted?` is the rest of a text between double quotes, and what follows. -/
def doubleQuoted? : List Char → Option (List Char × List Char)
  | [] => none
  | '"' :: cs => some ([], cs)
  | '\\' :: c :: cs => do
    let e ← escaped? c
    let (text, rest) ← doubleQuoted? cs
    some (e :: text, rest)
  | c :: cs => (doubleQuoted? cs).map fun (text, rest) => (c :: text, rest)

/-- `quoted?` is a quoted text, and what follows. -/
def quoted? : List Char → Option (List Char × List Char)
  | '"' :: cs => doubleQuoted? cs
  | '\'' :: cs => singleQuoted? cs
  | _ => none

/-- `endsName rest` says whether a colon before `rest` ends a name: it does before a blank and at
the end. -/
def endsName (rest : List Char) : Bool :=
  rest.head?.all Text.isBlank

/-- `flowScalar` is a plain scalar within brackets, and what follows. -/
def flowScalar : List Char → List Char × List Char
  | [] => ([], [])
  | c :: cs =>
    if c ∈ [',', '[', ']', '\x7b', '\x7d', '\n'] ∨ (c = ':' ∧ endsName cs) then ([], c :: cs)
    else
      let (text, rest) := flowScalar cs
      (c :: text, rest)

/-- `flowAtom? cs` is a name or a scalar within brackets. -/
def flowAtom? (cs : List Char) : Option (Json × List Char) :=
  match cs.head? with
  | some '"' => (quoted? cs).map fun (text, rest) => (.str (String.ofList text), rest)
  | some '\'' => (quoted? cs).map fun (text, rest) => (.str (String.ofList text), rest)
  | _ =>
    let (text, rest) := flowScalar cs
    some (plain (Text.trimChars text), rest)

/-- `nameOf?` is the text that a scalar has as a name. -/
def nameOf? : Json → Option String
  | .str s => some s
  | _ => none

mutual

/-- `flow?` reads a value within brackets; its fuel bounds the number of steps. -/
def flow? : Nat → List Char → Option (Json × List Char)
  | 0, _ => none
  | fuel + 1, cs =>
    match cs.dropWhile Text.isBlank with
    | '\x7b' :: cs => flowMembers? fuel [] cs
    | '[' :: cs => flowItems? fuel [] cs
    | cs => flowAtom? cs

/-- `flowItems?` reads the rest of a list in brackets. -/
def flowItems? : Nat → List Json → List Char → Option (Json × List Char)
  | 0, _, _ => none
  | fuel + 1, done, cs =>
    match cs.dropWhile Text.isBlank with
    | ']' :: cs => some (.arr done.reverse, cs)
    | cs => do
      let (item, rest) ← flow? fuel cs
      match rest.dropWhile Text.isBlank with
      | ',' :: rest => flowItems? fuel (item :: done) rest
      | ']' :: rest => some (.arr (item :: done).reverse, rest)
      | _ => none

/-- `flowMembers?` reads the rest of a mapping in braces. -/
def flowMembers? : Nat → List (String × Json) → List Char → Option (Json × List Char)
  | 0, _, _ => none
  | fuel + 1, done, cs =>
    match cs.dropWhile Text.isBlank with
    | '\x7d' :: cs => some (.obj done.reverse, cs)
    | cs => do
      let (key, rest) ← flowAtom? cs
      let name ← nameOf? key
      let (value, rest) ← match rest.dropWhile Text.isBlank with
        | ':' :: rest => flow? fuel rest
        | rest => some (.null, rest)
      match rest.dropWhile Text.isBlank with
      | ',' :: rest => flowMembers? fuel ((name, value) :: done) rest
      | '\x7d' :: rest => some (.obj ((name, value) :: done).reverse, rest)
      | _ => none

end

/-- A line with something on it: how far it is indented, and what follows. -/
structure Line where
  indent : Nat
  text : List Char
  deriving DecidableEq, Repr

/-- `beforeComment quote afterBlank` is the text of a line before its comment. A comment begins with
a number sign at the start or after a blank, outside quotes. -/
def beforeComment (quote : Option Char) (afterBlank : Bool) : List Char → List Char
  | [] => []
  | c :: cs =>
    if quote.isNone ∧ afterBlank ∧ c = '#' then []
    else
      let quote := match quote with
        | some q => if c = q then none else some q
        | none => if c = '"' ∨ c = '\'' then some c else none
      c :: beforeComment quote (Text.isBlank c) cs

/-- `linesOf cs` has the lines of a text that have something on them. -/
def linesOf (cs : List Char) : List Line :=
  let lines := (cs.splitOn '\n').map fun line => Text.trimEnd (beforeComment none true line)
  (lines.filter fun line => ! line.isEmpty && line ≠ "---".toList).map fun line =>
    ⟨(line.takeWhile (· = ' ')).length, line.dropWhile (· = ' ')⟩

/-- `l.item?` is what follows the dash of a list item. -/
def Line.item? (l : Line) : Option (List Char) :=
  match l.text with
  | '-' :: cs => if endsName cs then some cs else none
  | _ => none

/-- `plainName?` finds a plain name before a colon, and what follows the colon. -/
def plainName? : List Char → Option (List Char × List Char)
  | [] => none
  | c :: cs =>
    if c = ':' ∧ endsName cs then some ([], cs)
    else (plainName? cs).map fun (name, rest) => (c :: name, rest)

/-- `l.member?` is the name of a member and what follows its colon. -/
def Line.member? (l : Line) : Option (String × List Char) :=
  match quoted? l.text with
  | some (name, ':' :: rest) => some (String.ofList name, rest.dropWhile Text.isBlank)
  | some _ => none
  | none =>
    if l.text.head? = some '\x7b' ∨ l.text.head? = some '[' then none
    else (plainName? l.text).map fun (name, rest) =>
      (String.ofList (Text.trimChars name), rest.dropWhile Text.isBlank)

/-- `inline? cs` reads a value on one line. -/
def inline? (cs : List Char) : Option Json :=
  match cs.head? with
  | none => some .null
  | some c =>
    if c ∈ ['\x7b', '[', '"', '\''] then
      (flow? (cs.length + 1) cs).bind fun (value, rest) =>
        if rest.all Text.isBlank then some value else none
    else if c ∈ ['&', '*', '!', '|', '>', '%', '@'] then none
    else if (plainName? cs).isSome then none
    else some (plain cs)

/-- `nextIndent? lines` is the indentation of the next line, if there is one. -/
def nextIndent? (lines : List Line) : Option Nat :=
  lines.head?.map (·.indent)

mutual

/-- `block?` reads a value whose lines are indented by at least as much as it is given. -/
def block? : Nat → Nat → List Line → Option (Json × List Line)
  | 0, _, _ => none
  | _ + 1, _, [] => some (.null, [])
  | fuel + 1, low, l :: lines =>
    if l.indent < low then some (.null, l :: lines)
    else if l.item?.isSome then items? fuel l.indent [] (l :: lines)
    else if l.member?.isSome then members? fuel l.indent [] (l :: lines)
    else (inline? l.text).map (·, lines)

/-- `items?` reads the items of a list at its indentation. -/
def items? : Nat → Nat → List Json → List Line → Option (Json × List Line)
  | 0, _, _, _ => none
  | _ + 1, _, done, [] => some (.arr done.reverse, [])
  | fuel + 1, indent, done, l :: lines =>
    match decide (l.indent = indent), l.item? with
    | true, some text => do
      let rest := text.dropWhile (· = ' ')
      let inner := if rest.isEmpty then lines
        else ⟨indent + 1 + (text.length - rest.length), rest⟩ :: lines
      let (item, lines) ← block? fuel (indent + 1) inner
      items? fuel indent (item :: done) lines
    | _, _ => if l.indent ≤ indent then some (.arr done.reverse, l :: lines) else none

/-- `members?` reads the members of a mapping at its indentation. A name stands there once. -/
def members? : Nat → Nat → List (String × Json) → List Line → Option (Json × List Line)
  | 0, _, _, _ => none
  | _ + 1, _, done, [] => some (.obj done.reverse, [])
  | fuel + 1, indent, done, l :: lines =>
    if l.indent < indent then some (.obj done.reverse, l :: lines)
    else if l.indent ≠ indent ∨ l.item?.isSome then none
    else
      match l.member? with
      | none => none
      | some (name, text) => do
        let (value, lines) ←
          if text.isEmpty then
            if (lines.head?.bind (·.item?)).isSome ∧ nextIndent? lines = some indent then
              items? fuel indent [] lines
            else block? fuel (indent + 1) lines
          else (inline? text).map (·, lines)
        if done.any (·.1 = name) then none else members? fuel indent ((name, value) :: done) lines

end

/-- `read? text` is the value that the whole text describes. -/
def read? (text : String) : Option Json :=
  let cs := text.toList
  let fuel := 2 * cs.length + 2
  match cs.dropWhile Text.isBlank with
  | '\x7b' :: _ =>
    (flow? fuel cs).bind fun (value, rest) =>
      if rest.all Text.isBlank then some value else none
  | _ =>
    (block? fuel 0 (linesOf cs)).bind fun (value, rest) =>
      if rest.isEmpty then some value else none

end Notation

end PodDesk.Client
