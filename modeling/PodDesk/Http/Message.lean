import PodDesk.Json.Basic
import PodDesk.Text.Exposition

/-!
# Requests and responses

What the service hears and says over HTTP. The body of a response is JSON, a text, a list of
figures, or a notice: the explanation that comes with a rejection and whose wording nobody relies
on.
-/

namespace PodDesk.Http

/-- A request. The target holds the path and the query. -/
structure Request where
  method : String := "GET"
  target : String
  headers : List (String × String) := []
  body : String := ""
  deriving DecidableEq, Repr

namespace Request

/-- `r.header? name` is the value of a header; names are compared without regard to case. -/
def header? (r : Request) (name : String) : Option String :=
  (r.headers.find? fun h => h.1.map Char.toLower = name).map (·.2)

/-- `r.resource` is the target without the fragment. -/
def resource (r : Request) : List Char :=
  r.target.toList.takeWhile (· ≠ '#')

/-- `r.path` is the path of the target. -/
def path (r : Request) : List Char :=
  r.resource.takeWhile (· ≠ '?')

/-- `r.query` is the query of the target. -/
def query (r : Request) : List Char :=
  (r.resource.dropWhile (· ≠ '?')).drop 1

end Request

/-- The body of a response. -/
inductive Body where
  | empty
  | json (value : Json)
  | text (text : String)
  | samples (samples : List Sample)
  | notice
  deriving Repr

/-- A response. -/
structure Response where
  status : Nat
  body : Body
  /-- The methods that the path allows, when the request used another one. -/
  allow : Option String := none
  /-- The headers for scripts from other origins, without the beginning that their names share. -/
  access : List (String × String) := []
  /-- Whether the body is held back. -/
  headOnly : Bool := false
  deriving Repr

namespace Response

/-- `bare status` is a response without a body. -/
def bare (status : Nat) : Response :=
  ⟨status, .empty, none, [], false⟩

/-- `rejection status` is a rejection with an explanation. -/
def rejection (status : Nat) : Response :=
  ⟨status, .notice, none, [], false⟩

/-- `json status value` is a response with a JSON body. -/
def json (status : Nat) (value : Json) : Response :=
  ⟨status, .json value, none, [], false⟩

/-- `r.mediaType?` is the media type of the body. -/
def mediaType? (r : Response) : Option String :=
  match r.body with
  | .json _ => some "application/json"
  | .text _ => some "text/plain; charset=utf-8"
  | .samples _ => some "text/plain; version=0.0.4"
  | _ => none

end Response

end PodDesk.Http
