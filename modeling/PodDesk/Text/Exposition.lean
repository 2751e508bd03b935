/-!
# Figures for a monitor

A monitor reads figures from a text with one sample a line. Durations are kept in milliseconds and
written in seconds.
-/

namespace PodDesk

/-- A line of the text. -/
inductive Sample where
  /-- What kind of figure the lines of a family are. -/
  | kind (family kind : String)
  /-- How many times a thing happened, perhaps with a label. -/
  | count (name : String) (label : Option (String × String)) (n : Nat)
  /-- How long things took. -/
  | duration (name : String) (milliseconds : Nat)
  deriving DecidableEq, Repr

namespace Sample

/-- `labelText` writes the label of a sample. -/
def labelText : Option (String × String) → String
  | none => ""
  | some (name, value) => "\x7b" ++ name ++ "=\"" ++ value ++ "\"\x7d"

/-- `seconds milliseconds` writes a duration in seconds, with as many decimals as it needs. -/
def seconds (milliseconds : Nat) : String :=
  let padded := (toString (1000 + milliseconds % 1000)).toList.drop 1
  let decimals := (padded.reverse.dropWhile (· = '0')).reverse
  toString (milliseconds / 1000) ++ if decimals.isEmpty then "" else "." ++ String.ofList decimals

/-- `Sample.line` writes the sample on one line. -/
def line : Sample → String
  | kind family word => "# TYPE " ++ family ++ " " ++ word
  | count name label n => name ++ labelText label ++ " " ++ toString n
  | duration name milliseconds => name ++ " " ++ seconds milliseconds

end Sample

end PodDesk
