import PodDesk.Json.Basic

/-!
# The parts of an interface description

An interface description lists the operations of a service and the shapes of the values that it
hears and says. The functions of this module write the parts as OpenAPI 3.0 has them.
-/

namespace PodDesk.Document

/-- The shape of a value within a record. -/
inductive Shape where
  | text
  | flag
  | int32
  | int64
  /-- Any value. -/
  | anything
  | list (items : Shape)
  /-- A shape that the description defines under a name. -/
  | named (name : String)
  deriving DecidableEq, Repr

/-- A field of a record. -/
structure Property where
  name : String
  shape : Shape
  doc : Option String := none
  /-- A typical value. -/
  sample : Option String := none
  /-- Whether the value may be null. -/
  nullable : Bool := false
  deriving DecidableEq, Repr

/-- The definition of a shape. -/
inductive Definition where
  /-- A record whose fields all have to be present, but for those that may be null. -/
  | strict (doc : Option String) (properties : List Property)
  /-- A record without required fields. -/
  | lenient (doc : Option String) (properties : List Property)
  /-- One of several words. -/
  | words (words : List String)
  deriving DecidableEq, Repr

/-- Where a parameter stands in the target of a request. -/
inductive Place where
  | path
  | query
  deriving DecidableEq, Repr

/-- A parameter of an operation, which is a text. Those in the query may be missing. -/
structure Parameter where
  name : String
  place : Place
  doc : String
  deriving DecidableEq, Repr

/-- A response of an operation, perhaps with a body of a media type. -/
structure Answer where
  status : Nat
  doc : String
  body : Option (String × Shape) := none
  deriving DecidableEq, Repr

/-- An operation of the service. -/
structure Operation where
  method : String
  tag : String
  name : String
  summary : Option String := none
  parameters : List Parameter := []
  body : Option Shape := none
  answers : List Answer
  deriving DecidableEq, Repr

/-- `Shape.members` writes the members of the schema of a shape. -/
def Shape.members : Shape → List (String × Json)
  | text => [("type", .str "string")]
  | flag => [("type", .str "boolean")]
  | int32 => [("type", .str "integer"), ("format", .str "int32")]
  | int64 => [("type", .str "integer"), ("format", .str "int64")]
  | anything => []
  | list items => [("type", .str "array"), ("items", .obj items.members)]
  | named name => [("$ref", .str ("#/components/schemas/" ++ name))]

/-- `textMember name text` writes the text under the name, if there is one. -/
def textMember (name : String) (text : Option String) : List (String × Json) :=
  match text with
  | some s => [(name, .str s)]
  | none => []

namespace Property

/-- `p.schema` writes the schema of the field `p`. -/
def schema (p : Property) : Json :=
  .obj (p.shape.members ++ textMember "description" p.doc ++ textMember "example" p.sample ++
    if p.nullable then [("nullable", .bool true)] else [])

/-- `schemas ps` writes the schemas of the fields of a record. -/
def schemas (ps : List Property) : Json :=
  .obj (ps.map fun p => (p.name, p.schema))

end Property

/-- `Definition.schema` writes the schema of a definition. -/
def Definition.schema : Definition → Json
  | strict doc properties =>
    .obj ([("type", .str "object"),
      ("required", .ofTexts ((properties.filter (! ·.nullable)).map (·.name))),
      ("properties", Property.schemas properties)] ++ textMember "description" doc)
  | lenient doc properties =>
    .obj ([("type", .str "object"), ("properties", Property.schemas properties)] ++
      textMember "description" doc)
  | words ws => .obj [("type", .str "string"), ("enum", .ofTexts ws)]

/-- `content mediaType shape` writes a body of the media type. -/
def content (mediaType : String) (shape : Shape) : Json :=
  .obj [(mediaType, .obj [("schema", .obj shape.members)])]

/-- `p.toJson` writes the parameter `p` as the description has it. -/
def Parameter.toJson (p : Parameter) : Json :=
  let (place, required, schema) := match p.place with
    | .path => ("path", true, Shape.text.members)
    | .query => ("query", false, Shape.text.members ++ [("nullable", .bool true)])
  .obj [("name", .str p.name), ("in", .str place), ("description", .str p.doc),
    ("required", .bool required), ("schema", .obj schema)]

/-- `a.member` writes the response `a` as the description has it, under its status. -/
def Answer.member (a : Answer) : String × Json :=
  (toString a.status, .obj (("description", .str a.doc) :: match a.body with
    | some (mediaType, shape) => [("content", content mediaType shape)]
    | none => []))

/-- `o.member` writes the operation `o` as the description has it, under its method. -/
def Operation.member (o : Operation) : String × Json :=
  (o.method, .obj ([("tags", .ofTexts [o.tag])] ++ textMember "summary" o.summary ++
    [("operationId", .str o.name)] ++
    (if o.parameters.isEmpty then [] else [("parameters", .arr (o.parameters.map (·.toJson)))]) ++
    (match o.body with
      | some shape => [("requestBody",
          .obj [("content", content "application/json" shape), ("required", .bool true)])]
      | none => []) ++
    [("responses", .obj (o.answers.map (·.member)))]))

end PodDesk.Document
