import PodDesk.Cluster.Call

/-!
# Results of a replacement

A Pod cannot be changed once it exists, so a new version replaces the old one: the old Pod is
deleted and a new one created under its name. Here is what comes out of that.
-/

namespace PodDesk

/-- What ended the wait for the removal of the old Pod. -/
inductive Signal where
  /-- The watch announced the removal. -/
  | deletedEvent
  /-- A lookup after some other event did not find the Pod. -/
  | probedAbsent
  /-- The deadline came first. -/
  | timedOut
  deriving DecidableEq, Repr

namespace Signal

def all : List Signal :=
  [.deletedEvent, .probedAbsent, .timedOut]

def word : Signal → String
  | deletedEvent => "deleted_event"
  | probedAbsent => "probed_absent"
  | timedOut => "timed_out"

end Signal

/-- The steps at which a replacement can fail. -/
inductive FailedStep where
  | lookup
  | create
  | dryRun
  | delete
  | recreate
  deriving DecidableEq, Repr

namespace FailedStep

def word : FailedStep → String
  | lookup => "lookup"
  | create => "create"
  | dryRun => "dry_run"
  | delete => "delete"
  | recreate => "recreate"

/-- `FailedStep.meaning` is what it means that a step failed. -/
def meaning : FailedStep → String
  | lookup => "lookup failed: "
  | create => "create failed: "
  | dryRun => "update rejected by dry run, existing pod left untouched: "
  | delete => "update failed deleting the existing pod, its state is unknown: "
  | recreate => "update failed after the old pod was deleted, pod is currently absent: "

end FailedStep

/-- A replacement that failed at a step, and the error that the cluster gave. -/
structure Failure where
  key : PodKey
  step : FailedStep
  cause : ClusterError
  deriving DecidableEq, Repr

namespace Failure

/-- `f.podAbsent` says whether the failure is reported as leaving no Pod: it is when a creation
failed. -/
def podAbsent (f : Failure) : Bool :=
  f.step = .create || f.step = .recreate

/-- `f.display` shows the failure on one line. -/
def display (f : Failure) : String :=
  f.key.display ++ " " ++ f.step.meaning ++ f.cause.display

end Failure

/-- A replacement that was carried out: a Pod was created, or it took the place of another whose
removal a signal announced. -/
structure Done where
  key : PodKey
  replaced : Option Signal
  deriving DecidableEq, Repr

namespace Done

/-- `d.action` is the word for what was done. -/
def action (d : Done) : String :=
  if d.replaced.isSome then "replaced" else "created"

/-- `d.message` is what was done, on one line. -/
def message (d : Done) : String :=
  match d.replaced with
  | none => d.key.display ++ " created"
  | some signal => d.key.display ++ " updated (old pod removal: " ++ signal.word ++ ")"

end Done

/-- What comes out of a replacement. -/
abbrev Outcome := Except Failure Done

/-- `Outcome.label` is the label under which an outcome is counted. -/
def Outcome.label : Outcome → String
  | .ok done => done.action
  | .error failure => failure.step.word

end PodDesk
