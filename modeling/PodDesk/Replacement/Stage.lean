import PodDesk.Pod.OfRequest
import PodDesk.Replacement.Basic
import PodDesk.Request.Validation

/-!
# The course of a replacement

A replacement goes from stage to stage: it looks the Pod up and creates it when there is none.
Otherwise it tries the new Pod in a dry run under another name, opens a watch, deletes the old Pod,
waits for its removal and creates the new one. `Stage.call?` says what a stage asks of the cluster
and `Stage.next` where it goes with a reply, so every way of running replacements, in time or
interleaved, drives the same definition.
-/

namespace PodDesk

/-- What a replacement is about: the request, and how long the old Pod may take to stop. -/
structure Plan where
  request : PodRequest
  grace : Nat
  deriving DecidableEq, Repr

namespace Plan

/-- `p.key` is where the Pod of the plan is stored. -/
def key (p : Plan) : PodKey :=
  ⟨p.request.base.ns, p.request.base.name⟩

/-- `p.pod` is the Pod that the plan asks for. -/
def pod (p : Plan) : Pod :=
  p.request.toPod

/-- `p.trialPod` is the Pod for the dry run: the wanted one under a name that it cannot share with
the old one. -/
def trialPod (p : Plan) : Pod :=
  { p.pod with
    metadata := { p.pod.metadata with name := some (p.request.base.name ++ trialSuffix) } }

end Plan

/-- How far a replacement has come. -/
inductive Stage where
  | lookup
  | create
  | dryRun (existing : Pod)
  | watch (existing : Pod)
  | delete (watching : Bool)
  /-- Waiting for the removal, with a watch that is of use or without one. -/
  | waiting (watching : Bool)
  /-- Looking the Pod up because of an event. -/
  | probing
  | recreate (signal : Signal)
  | finished (outcome : Outcome)
  deriving Repr

/-- What a replacement hears from the cluster, or from the clock. -/
inductive Reply where
  | found (answer : Except ClusterError (Option Pod))
  | done (answer : Except ClusterError Unit)
  | item (item : WatchItem)
  | deadline

namespace Stage

/-- `call? p` is what a stage asks of the cluster under the plan `p`. A replacement that waits or is
finished asks nothing. -/
def call? (p : Plan) : Stage → Option Call
  | lookup => some (.get p.key)
  | create => some (.create p.key.ns p.pod)
  | dryRun _ => some (.dryRun p.key.ns p.trialPod)
  | watch existing =>
    some (.watch p.key.ns (labelSelector existing.metadata.labels)
      (existing.metadata.resourceVersion.getD "0"))
  | delete _ => some (.delete p.key (.background p.grace))
  | waiting _ => none
  | probing => some (.get p.key)
  | recreate _ => some (.create p.key.ns p.pod)
  | finished _ => none

/-- `onItem p` is what a replacement that waits does with what its watch delivers. The removal of
the Pod ends the wait, any other news about a Pod is a reason to look, and a watch with an error is
of no more use. -/
def onItem (p : Plan) : WatchItem → Stage
  | .event (.deleted pod) =>
    if pod.metadata.name = some p.key.name then .recreate .deletedEvent else .probing
  | .event (.added _) => .probing
  | .event (.modified _) => .probing
  | .event (.error _) => .waiting false
  | .failed _ => .waiting false
  | .ended => .waiting false

/-- `next p` is where a stage goes with a reply. Replies that do not belong to a stage leave it as
it is. -/
def next (p : Plan) : Stage → Reply → Stage
  | lookup, .found (.ok none) => .create
  | lookup, .found (.ok (some existing)) => .dryRun existing
  | lookup, .found (.error e) => .finished (.error ⟨p.key, .lookup, e⟩)
  | create, .done (.ok ()) => .finished (.ok ⟨p.key, none⟩)
  | create, .done (.error e) => .finished (.error ⟨p.key, .create, e⟩)
  | dryRun existing, .done (.ok ()) => .watch existing
  | dryRun _, .done (.error e) => .finished (.error ⟨p.key, .dryRun, e⟩)
  | watch _, .done (.ok ()) => .delete true
  | watch _, .done (.error _) => .delete false
  | delete watching, .done (.ok ()) => .waiting watching
  | delete _, .done (.error e) => .finished (.error ⟨p.key, .delete, e⟩)
  | waiting true, .item item => onItem p item
  | waiting _, .deadline => .recreate .timedOut
  | probing, .found (.ok none) => .recreate .probedAbsent
  | probing, .found (.ok (some _)) => .waiting true
  | probing, .found (.error _) => .waiting true
  | probing, .deadline => .recreate .timedOut
  | recreate signal, .done (.ok ()) => .finished (.ok ⟨p.key, some signal⟩)
  | recreate _, .done (.error e) => .finished (.error ⟨p.key, .recreate, e⟩)
  | stage, _ => stage

/-- `Stage.outcome?` is what came out, once a replacement is finished. -/
def outcome? : Stage → Option Outcome
  | finished outcome => some outcome
  | _ => none

end Stage

end PodDesk
