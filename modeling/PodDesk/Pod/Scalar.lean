import PodDesk.Json.Record
import PodDesk.Pod.Basic

/-!
# Scalars of the cluster's API

Codecs of what the records of the API are made of, beyond texts and numbers.
-/

namespace PodDesk

namespace Codec

/-- `textMap` has maps of texts; of members with the same name the last counts. -/
def textMap : Codec TextMap where
  encode m := .obj (m.entries.map fun e => (e.1, .str e.2))
  decode
    | .obj members stop => do
      let entries ← members.mapM fun (name, value) => do
        let name ← name
        let value ← Codec.text.decode value
        .ok (name, value)
      match stop with
      | some b => .error b.read
      | none => .ok (.ofList entries)
    | d => .error d.refusal

/-- `timestamp` has points in time. -/
def timestamp : Codec Timestamp where
  encode t := .str t.toText
  decode d := do
    let s ← Codec.text.decode d
    match Timestamp.ofText? s with
    | some t => .ok t
    | none => .error .mismatch

/-- `constant wanted` has the one text that may stand here. -/
def constant (wanted : String) : Codec Unit where
  encode _ := .str wanted
  decode d := do
    let s ← Codec.text.decode d
    if s = wanted then .ok () else .error .mismatch

/-- `presence` has an object whose fields do not matter, or null for its absence. -/
def presence : Codec Bool where
  encode _ := .obj []
  decode
    | .null => .ok false
    | .obj _ _ => .ok true
    | d => .error d.refusal

end Codec

/-- `Pod.PortRef.codec` has a port by its number or by its name. -/
def Pod.PortRef.codec : Codec PortRef where
  encode
    | .number n => Codec.int32.encode n
    | .name s => .str s
  decode
    | .str s => s.map .name
    | d => (Codec.int32.decode d).map .number

end PodDesk
