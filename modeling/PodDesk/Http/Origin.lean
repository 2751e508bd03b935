import PodDesk.Http.Message

/-!
# Requests from other origins

A browser lets a script of another origin use the service only if the response says so. The
responses allow a fixed list of origins, with credentials. A preflight request asks beforehand;
every use of its method is taken for one.
-/

namespace PodDesk.Http

/-- `wildcard` is the origin that would stand for every origin. A list of origins must not hold it.
-/
def wildcard : String := "*"

/-- `isHeaderText s` says whether `s` can be the value of a header. -/
def isHeaderText (s : String) : Bool :=
  s.toList.all fun c => c.val == 9 || (c.val ≥ 32 && c.val ≠ 127)

/-- The origins that are allowed. -/
structure OriginPolicy where
  origins : List String
  deriving DecidableEq, Repr

namespace OriginPolicy

/-- `ofList? origins` allows the listed origins. What cannot be a header is left out, and the
wildcard is refused. -/
def ofList? (origins : List String) : Option OriginPolicy :=
  let origins := origins.filter isHeaderText
  if origins.contains wildcard then none else some ⟨origins⟩

/-- `p.allowOrigin r` has the headers that allow the origin of the request `r`. -/
def allowOrigin (p : OriginPolicy) (r : Request) : List (String × String) :=
  match r.header? "origin" with
  | some origin => if p.origins.contains origin then [("allow-origin", origin)] else []
  | none => []

/-- `p.common r` has the headers of every response. -/
def common (p : OriginPolicy) (r : Request) : List (String × String) :=
  ("allow-credentials", "true") :: p.allowOrigin r

/-- `p.preflight? r` is the response to a preflight request, and nothing for any other request. -/
def preflight? (p : OriginPolicy) (r : Request) : Option Response :=
  if r.method = "OPTIONS" then
    some { Response.bare 200 with
      access := p.common r ++ [("allow-methods", "GET,POST,DELETE,OPTIONS"),
        ("allow-headers", "content-type,authorization,accept")] }
  else none

/-- `p.attach r response` adds the headers of every response. -/
def attach (p : OriginPolicy) (r : Request) (response : Response) : Response :=
  { response with access := p.common r }

end OriginPolicy

end PodDesk.Http
