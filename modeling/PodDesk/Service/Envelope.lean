import PodDesk.Http.Message
import PodDesk.Service.Problem

/-!
# Envelopes

Every answer about Pods and namespaces comes in an envelope that says whether the request succeeded
and holds either the data or the error. The status of the answer follows from the envelope alone.
-/

namespace PodDesk

/-- The outer form of an answer. -/
inductive Envelope where
  | success (data : Json)
  | failure (code message : String) (details : Option Json)
  deriving Repr

namespace Envelope

/-- `statusOf code` is the status for the word of an error code. -/
def statusOf (code : String) : Nat :=
  if code = ProblemCode.notFound.word then 404
  else if code = ProblemCode.validation.word then 400
  else if code = ProblemCode.conflict.word then 409
  else if code = ProblemCode.unavailable.word then 503
  else 500

/-- `Envelope.status` is the status of the answer. -/
def status : Envelope → Nat
  | success _ => 200
  | failure code _ _ => statusOf code

/-- `Envelope.toJson` writes the envelope as an object. -/
def toJson : Envelope → Json
  | success data => .obj [("success", .bool true), ("data", data)]
  | failure code message details => .obj [("success", .bool false),
      ("error", .ofMembers? [("code", some (.str code)), ("message", some (.str message)),
        ("details", details)])]

/-- `ofProblem p` is the envelope that reports the problem `p`. -/
def ofProblem (p : Problem) : Envelope :=
  .failure p.code.word p.display p.details?

/-- `e.response` is the response that carries the envelope. -/
def response (e : Envelope) : Http.Response :=
  .json e.status e.toJson

end Envelope

end PodDesk
