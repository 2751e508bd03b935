import PodDesk.Service.Api

/-!
# The service at work

A session is the service together with the world that its replacements run in. Step by step requests
arrive, time passes and the cluster comes and goes. Whoever was woken at the end of a step goes on
when the next one begins. A caller may give up waiting: the question that was asked for it is
dropped then, but a replacement goes on.
-/

namespace PodDesk

/-- What comes of a question. -/
inductive Asked (α : Type) where
  | answered (answer : Except ClusterError α)
  /-- The call took its caller down. -/
  | crashed
  /-- Nobody waited for the answer any more. -/
  | dropped

/-- `isHeard limit due` says whether someone who gives up at `limit` hears what is said at `due`. -/
def isHeard (limit : Option Nat) (due : Nat) : Bool :=
  limit.all (due < ·)

/-- `w.ask query limit` asks the cluster a question; others go on until its answer is due. A call
without a delay is answered in any case. -/
def World.ask {α : Type} (w : World) (query : Query α) (limit : Option Nat) : World × Asked α :=
  let (w, incident) := w.enter query.call
  let due := w.now + incident.delay
  if incident.delay = 0 ∨ isHeard limit due then
    let w := if incident.delay = 0 then w else w.advanceTo due
    if incident.crash then (w, .crashed)
    else
      let (cluster, answer) := query.answer w.cluster incident w.now
      ({ w with cluster }, .answered answer)
  else (w.advanceTo (limit.getD due), .dropped)

/-- The service, and the world that it works in. -/
structure Session where
  settings : Settings
  policy : Http.OriginPolicy
  /-- Whether figures are recorded. -/
  recording : Bool
  connected : Bool
  world : World

/-- What happens in a step. -/
inductive Step where
  | connect
  | disconnect
  /-- Time passes, in milliseconds. -/
  | advance (duration : Nat)
  /-- Someone else stores a Pod. -/
  | put (key : PodKey) (pod : Pod)
  /-- Someone else removes a Pod. -/
  | remove (key : PodKey)
  /-- A request arrives, from a caller who may give up after some milliseconds. -/
  | request (request : Http.Request) (patience : Option Nat)

/-- What is seen of a step. -/
inductive Reaction where
  | none
  | response (response : Http.Response)
  | abandoned
  /-- Serving the request crashed. -/
  | crashed

namespace Session

/-- `start?` is the session at its start; there is none when the allowed origins are not acceptable.
-/
def start? (settings : Settings) (recording connected : Bool) (cluster : Cluster) :
    Option Session :=
  (Http.OriginPolicy.ofList? settings.origins).map fun policy =>
    ⟨settings, policy, recording, connected, { cluster }⟩

/-- `s.service` is the service as it is when a request arrives. -/
def service (s : Session) : Service where
  settings := s.settings
  connected := s.connected
  metrics := if s.recording then some s.world.metrics else none

/-- `s.runReplacement request limit` starts a replacement and waits until it is over or the caller
gives up. -/
def runReplacement (s : Session) (request : PodRequest) (limit : Option Nat) : World × Reaction :=
  let (w, i) := s.world.spawn ⟨request, s.settings.gracePeriod⟩ (s.settings.deletionWait * 1000)
  let w := w.runTask i limit
  match (w.tasks[i]?).bind (·.result?) with
  | some (.ok outcome) => (w.settle, .response (Service.afterReplacement outcome))
  | some (.error _) => (w.settle, .response Service.afterCrash)
  | none => ({ w with now := max w.now (limit.getD w.now) }, .abandoned)

/-- `s.serve r limit` serves the request `r` of a caller who gives up at `limit`. -/
def serve (s : Session) (r : Http.Request) (limit : Option Nat) : World × Reaction :=
  match s.service.handle r with
  | .respond response => (s.world, .response response)
  | .ask query decide =>
    match s.world.ask query limit with
    | (w, .answered answer) => (w, .response (decide answer))
    | (w, .crashed) => (w, .crashed)
    | (w, .dropped) => (w, .abandoned)
  | .replace request => s.runReplacement request limit

/-- `s.respond r limit` serves the request `r` and sends the response. -/
def respond (s : Session) (r : Http.Request) (limit : Option Nat) : World × Reaction :=
  match s.policy.preflight? r with
  | some response => (s.world, .response response)
  | none =>
    match s.serve r limit with
    | (w, .response response) => (w, .response (Service.send s.policy r response))
    | other => other

/-- `s.step action` is the session after the action, and the response to it. -/
def step (s : Session) (action : Step) : Session × Reaction :=
  let s := { s with world := s.world.settle }
  let w := s.world
  match action with
  | .connect => ({ s with connected := true }, .none)
  | .disconnect => ({ s with connected := false }, .none)
  | .advance duration => ({ s with world := w.advanceTo (w.now + duration) }, .none)
  | .put key pod =>
    let cluster := { w.cluster with pods := w.cluster.pods.insert key pod }
    ({ s with world := { w with cluster } }, .none)
  | .remove key =>
    let cluster := w.cluster.remove w.now key false
    ({ s with world := { w with cluster } }, .none)
  | .request r patience =>
    let (w, reaction) := s.respond r (patience.map (w.now + ·))
    ({ s with world := w }, reaction)

end Session

end PodDesk
