import PodDesk.Json.Reader

/-!
# Codecs

A codec writes the values of a type as JSON and reads them from a document. This module holds the
codecs of scalars, lists, optional values and named alternatives; records are in
`PodDesk.Json.Record`.
-/

namespace PodDesk

/-- How the values of a type are written as JSON and read back. -/
structure Codec (α : Type) where
  encode : α → Json
  decode : Doc → Except Fault α

/-- `Doc.refusal` is what is wrong with a document that is not of the wanted type. -/
def Doc.refusal : Doc → Fault
  | .num (.error f) => f
  | .str (.error f) => f
  | .broken b => b.read
  | _ => .mismatch

namespace Codec

/-- `c.ofJson j` reads the value `j`, which has only one fault: it is not of the wanted type. -/
def ofJson {α : Type} (c : Codec α) (j : Json) : Except Fault α :=
  (c.decode (.ofJson j)).mapError fun _ => .mismatch

/-- `c.ofText reading` reads a text that holds one value and nothing else. -/
def ofText {α : Type} (c : Codec α) (reading : Reading) : Except Fault α := do
  let a ← c.decode reading.doc
  if reading.trailing then .error .malformed else .ok a

def text : Codec String where
  encode := .str
  decode
    | .str s => s
    | d => .error d.refusal

def bool : Codec Bool where
  encode := .bool
  decode
    | .bool b => .ok b
    | d => .error d.refusal

/-- Whole numbers from `low` to `high`. -/
def integer (low high : Int) : Codec Int where
  encode := .ofInt
  decode
    | .num (.ok (.integer n)) => if low ≤ n ∧ n ≤ high then .ok n else .error .mismatch
    | d => .error d.refusal

/-- `c.via make back` is the codec of a type whose values correspond to those of `c`. -/
def via {α β : Type} (c : Codec α) (make : α → β) (back : β → α) : Codec β where
  encode b := c.encode (back b)
  decode d := (c.decode d).map make

/-- `int32` has the signed numbers of 32 bits. -/
def int32 : Codec Int32 :=
  (integer (-word31) (word31 - 1)).via Int32.ofInt Int32.toInt

/-- `int64` has the signed numbers of 64 bits. -/
def int64 : Codec Int64 :=
  (integer (-word63) (word63 - 1)).via Int64.ofInt Int64.toInt

/-- Natural numbers below `bound`. -/
def natural (bound : Nat) : Codec Nat :=
  (integer 0 (bound - 1)).via Int.toNat Int.ofNat

/-- `c.list` reads a list, every item with `c`. -/
def list {α : Type} (c : Codec α) : Codec (List α) where
  encode as := .arr (as.map c.encode)
  decode
    | .arr items stop => do
      let as ← items.mapM c.decode
      match stop with
      | some b => .error b.read
      | none => .ok as
    | d => .error d.refusal

/-- `c.option` reads a value that may be absent; null stands for an absent one. -/
def option {α : Type} (c : Codec α) : Codec (Option α) where
  encode
    | none => .null
    | some a => c.encode a
  decode
    | .null => .ok none
    | d => (c.decode d).map some

/-- `c.orDefault default` reads null as the default. -/
def orDefault {α : Type} (c : Codec α) (default : α) : Codec α where
  encode := c.encode
  decode
    | .null => .ok default
    | d => c.decode d

/-- `choice alternatives name` reads a named alternative. The name is a string, or the only member's
name of an object that maps it to null. -/
def choice {α : Type} (alternatives : List α) (name : α → String) : Codec α where
  encode a := .str (name a)
  decode
    | .str s => do
      let s ← s
      find s
    | .obj [] (some b) => .error b.name
    | .obj ((key, value) :: more) stop => do
      let s ← key
      let a ← find s
      match value, more, stop with
      | .null, [], none => .ok a
      | .null, [], some b => .error b.read
      | .null, _ :: _, _ => .error .malformed
      | value, _, _ => .error value.refusal
    | .broken b => .error b.choice
    | _ => .error .malformed
where
  /-- The alternative of a name. -/
  find (s : String) : Except Fault α :=
    match alternatives.find? (name · == s) with
    | some a => .ok a
    | none => .error .mismatch

end Codec

end PodDesk
