import PodDesk.Cluster.Call
import PodDesk.Http.Percent
import PodDesk.Json.Record

/-!
# Exchanges with the API server

An exchange is a request to the API server together with the meaning of a reply. How the two get
over the network is left to a function from requests to replies; it has no reply when the server
cannot be reached.
-/

namespace PodDesk.Client

/-- A request to the API server. The target is the path, with the query after a question mark. -/
structure ApiRequest where
  method : String
  target : String
  body : Option Json := none
  deriving Repr

/-- A reply of the API server. -/
structure ApiReply where
  status : Nat
  body : String
  deriving DecidableEq, Repr

namespace ApiRequest

/-- `r.isSendable` says whether the target can be sent. -/
def isSendable (r : ApiRequest) : Bool :=
  r.target.toList.all fun c => 33 ≤ c.val && c.val < 127

/-- `r.path` is the path of the target. -/
def path (r : ApiRequest) : String :=
  String.ofList (r.target.toList.takeWhile (· ≠ '?'))

/-- `r.query` has the parts of the query. -/
def query (r : ApiRequest) : List String :=
  let query := (r.target.toList.dropWhile (· ≠ '?')).drop 1
  ((Text.splitAtEach '&' query).filter (! ·.isEmpty)).map String.ofList

end ApiRequest

/-- An exchange, by what a good reply means. -/
structure Exchange (α : Type) where
  request : ApiRequest
  read : ApiReply → Except ClusterError α

namespace Exchange

/-- `x.perform server` sends the request and takes the reply of the server for its meaning. -/
def perform {α : Type} (x : Exchange α) (server : ApiRequest → Option ApiReply) :
    Except ClusterError α :=
  if x.request.isSendable then
    match server x.request with
    | some reply => x.read reply
    | none => .error (.transport "no answer")
  else .error (.transport "bad target")

end Exchange

/-- `statusError` reads a failure status of the API server, and writes one as JSON. -/
def statusError : Codec ClusterError :=
  .object (.cons (.required "status" .text) <| .cons (.defaulted "message" .text "") <|
      .cons (.defaulted "reason" .text "") <| .cons (.required "code" (.natural word16)) .nil)
    (fun (_, message, reason, code, ()) => .api code.toUInt16 reason message)
    (fun e => ("Failure", match e with
      | .api code reason message => (message, reason, code.toNat, ())
      | .transport cause => (cause, "", 0, ())))

/-- `readText c text` is what the codec reads from the text; what cannot be read counts as no
answer. -/
def readText {α : Type} (c : Codec α) (text : String) : Except ClusterError α :=
  (c.ofText (Doc.read text)).mapError fun _ => .transport "bad answer"

/-- `readReply c r` is the meaning of the reply `r`: a failure status is an error, and a good one
has a body for the codec. -/
def readReply {α : Type} (c : Codec α) (r : ApiReply) : Except ClusterError α :=
  if 400 ≤ r.status then
    match readText statusError r.body with
    | .ok e => .error e
    | .error e => .error e
  else readText c r.body

end PodDesk.Client
