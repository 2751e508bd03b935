import PodDesk.Json.Codec

/-!
# Records

A record type is described once by the list of its fields, as `Fields`, and the description both
writes and reads it: as an object, with members of unknown names ignored and known ones at most
once, and where the record allows it as the list of its field values in order.
-/

namespace PodDesk

/-- A field of a record. -/
structure Field (α : Type) where
  name : String
  codec : Codec α
  /-- What a missing field is read as; without it the field is required. -/
  absent : Option α
  /-- Whether the field is written. -/
  written : α → Bool

/-- The fields of a record; their values are kept as a nested pair. -/
inductive Fields : Type → Type 1 where
  | nil : Fields Unit
  | cons {α β : Type} (field : Field α) (rest : Fields β) : Fields (α × β)

namespace Field

/-- `required name codec` is a field that must be present. -/
def required {α : Type} (name : String) (codec : Codec α) : Field α :=
  ⟨name, codec, none, fun _ => true⟩

/-- `defaulted` is a field with a default; it is always written. -/
def defaulted {α : Type} (name : String) (codec : Codec α) (default : α) : Field α :=
  ⟨name, codec, some default, fun _ => true⟩

/-- `optional name codec` is a field that is written only when it has a value. -/
def optional {α : Type} (name : String) (codec : Codec α) : Field (Option α) :=
  ⟨name, codec.option, some none, Option.isSome⟩

/-- `lenient` is a field with a default that is always written; null is read as the default. -/
def lenient {α : Type} (name : String) (codec : Codec α) (default : α) : Field α :=
  ⟨name, codec.orDefault default, some default, fun _ => true⟩

end Field

namespace Fields

/-- `fs.Slots` has a place for the value of every field, which is empty until the field is read. -/
def Slots : {τ : Type} → Fields τ → Type
  | _, .nil => Unit
  | _, @cons α _ _ rest => Option α × rest.Slots

/-- `fs.noSlots` is what is known before any field is read. -/
def noSlots : {τ : Type} → (fs : Fields τ) → fs.Slots
  | _, .nil => ()
  | _, .cons _ rest => (none, rest.noSlots)

/-- `fs.put` reads the field of a name. There is no result when no field has the name, and a second
value for a field is a fault. -/
def put : {τ : Type} → (fs : Fields τ) → fs.Slots → String → Doc → Except Fault (Option fs.Slots)
  | _, .nil, _, _, _ => .ok none
  | _, @cons α _ field rest, slots, name, doc =>
    let slots : Option α × rest.Slots := slots
    if field.name = name then
      match slots.1 with
      | some _ => .error .mismatch
      | none => (field.codec.decode doc).map fun a => some (some a, slots.2)
    else (rest.put slots.2 name doc).map (Option.map fun more => (slots.1, more))

/-- `fs.complete` is the record, once all members were read. -/
def complete : {τ : Type} → (fs : Fields τ) → fs.Slots → Except Fault τ
  | _, .nil, _ => .ok ()
  | _, @cons α _ field rest, slots =>
    let slots : Option α × rest.Slots := slots
    match slots.1.or field.absent with
    | some a => (rest.complete slots.2).map fun as => (a, as)
    | none => .error .mismatch

/-- `fs.readMember slots member` reads one member of an object. -/
def readMember {τ : Type} (fs : Fields τ) (slots : fs.Slots) (member : Except Fault String × Doc) :
    Except Fault fs.Slots := do
  let name ← member.1
  match ← fs.put slots name member.2 with
  | some slots => .ok slots
  | none =>
    match member.2.skipFault? with
    | some f => .error f
    | none => .ok slots

/-- `fs.ofMembers members stop` reads a record from the members of an object. -/
def ofMembers {τ : Type} (fs : Fields τ) (members : List (Except Fault String × Doc))
    (stop : Option Break) : Except Fault τ := do
  let slots ← members.foldlM fs.readMember fs.noSlots
  match stop with
  | some b => .error b.read
  | none => fs.complete slots

/-- `fs.ofItems` reads a record from the list of its field values. -/
def ofItems : {τ : Type} → (fs : Fields τ) → List Doc → Option Break → Except Fault τ
  | _, .nil, [], none => .ok ()
  | _, .nil, [], some b => .error b.read
  | _, .nil, _ :: _, _ => .error .malformed
  | _, .cons field rest, [], none =>
    match field.absent with
    | some a => (rest.ofItems [] none).map fun as => (a, as)
    | none => .error .mismatch
  | _, .cons _ _, [], some b => .error b.read
  | _, .cons field rest, item :: items, stop => do
    let a ← field.codec.decode item
    let as ← rest.ofItems items stop
    .ok (a, as)

/-- `fs.toMembers` writes a record as the members of an object. -/
def toMembers : {τ : Type} → Fields τ → τ → List (String × Json)
  | _, .nil, _ => []
  | _, .cons field rest, (a, as) =>
    if field.written a then (field.name, field.codec.encode a) :: rest.toMembers as
    else rest.toMembers as

/-- `fs.names` has the names of the fields, in order. -/
def names : {τ : Type} → Fields τ → List String
  | _, .nil => []
  | _, .cons field rest => field.name :: rest.names

end Fields

namespace Codec

/-- `record` makes a codec that reads an object or the list of the field values. -/
def record {τ σ : Type} (fs : Fields τ) (make : τ → σ) (back : σ → τ) : Codec σ where
  encode s := .obj (fs.toMembers (back s))
  decode
    | .obj members stop => (fs.ofMembers members stop).map make
    | .arr items stop => (fs.ofItems items stop).map make
    | d => .error d.refusal

/-- `object` makes a codec that reads an object only. -/
def object {τ σ : Type} (fs : Fields τ) (make : τ → σ) (back : σ → τ) : Codec σ where
  encode s := .obj (fs.toMembers (back s))
  decode
    | .obj members stop => (fs.ofMembers members stop).map make
    | d => .error d.refusal

end Codec

end PodDesk
