import PodDesk.Json.Basic
import PodDesk.Replacement.Basic

/-!
# Problems of the service

Why the service cannot do what it was asked for, the code that stands for the reason, and what is
told about it. A failed replacement keeps its own code whatever the cluster said: only its dry run
speaks about the request.
-/

namespace PodDesk

/-- The codes by which callers tell problems apart. -/
inductive ProblemCode where
  | notFound
  | unavailable
  | internal
  | validation
  | conflict
  | cluster
  | replacement
  deriving DecidableEq, Repr

/-- `ProblemCode.word` is the word for the code. -/
def ProblemCode.word : ProblemCode → String
  | notFound => "NOT_FOUND"
  | unavailable => "UNAVAILABLE"
  | internal => "INTERNAL_ERROR"
  | validation => "VALIDATION_ERROR"
  | conflict => "CONFLICT"
  | cluster => "KUBERNETES_ERROR"
  | replacement => "RECONCILE_ERROR"

/-- Why the service cannot do what it was asked for. -/
inductive Problem where
  | notFound (message : String)
  | unavailable (message : String)
  | internal (message : String)
  /-- A field of the request is not acceptable. -/
  | validation (field message : String)
  /-- A call to the cluster failed. -/
  | cluster (cause : ClusterError)
  | replacement (failure : Failure)
  deriving DecidableEq, Repr

namespace Problem

/-- `Problem.code` is the code that a problem is reported with. -/
def code : Problem → ProblemCode
  | notFound _ => .notFound
  | unavailable _ => .unavailable
  | internal _ => .internal
  | validation _ _ => .validation
  | cluster cause =>
    if cause.isNotFound then .notFound else if cause.isConflict then .conflict else .cluster
  | replacement failure => if failure.step = .dryRun then .validation else .replacement

/-- `Problem.display` shows the problem on one line. -/
def display : Problem → String
  | notFound message => message
  | unavailable message => message
  | internal message => message
  | validation field message => field ++ ": " ++ message
  | cluster cause => cause.display
  | replacement failure => failure.display

/-- `Problem.details?` is what else is told: the field that is not acceptable, or what failed and
whether the Pod is gone. -/
def details? : Problem → Option Json
  | validation field _ => some (.obj [("field", .str field)])
  | replacement failure => some (.obj [("namespace", .str failure.key.ns),
      ("name", .str failure.key.name), ("operation", .str failure.step.word),
      ("podAbsent", .bool failure.podAbsent)])
  | _ => none

end Problem

end PodDesk
