import PodDesk.Request.Basic
import PodDesk.Text.Blank

/-!
# Acceptable requests

A request is checked before the cluster sees it. The checks run in a fixed order and the first one
that fails is reported, with the field that it concerns.
-/

namespace PodDesk

/-- `trialSuffix` is what the name of a Pod is extended by for its trial creation. -/
def trialSuffix : String := "-validate"

/-- `maxLabelLength` is the longest name of a namespace, in bytes. -/
def maxLabelLength : Nat := 63

/-- `maxPodNameLength` is the longest name of a Pod, in bytes: with the suffix of its trial it is
still a label. -/
def maxPodNameLength : Nat := maxLabelLength - trialSuffix.utf8ByteSize

/-- Why a text is not acceptable as a label of the domain name system. -/
inductive LabelViolation where
  | empty
  | tooLong (limit : Nat)
  | badCharacters
  deriving DecidableEq, Repr

/-- Why a request is not acceptable. The first field of those about a container says whether it is
an init container. -/
inductive Violation where
  | podName (cause : LabelViolation)
  | podNamespace (cause : LabelViolation)
  | noContainers
  | containerName (isInit : Bool)
  | duplicateContainer (isInit : Bool) (name : String)
  | containerImage (isInit : Bool) (name : String)
  | undeclaredVolume (isInit : Bool) (name : String) (volume : String)
  | nodeName
  deriving DecidableEq, Repr

/-- `LabelViolation.message` says what is wrong with a label. -/
def LabelViolation.message : LabelViolation → String
  | empty => "must not be empty"
  | tooLong limit => s!"must be at most {limit} characters"
  | badCharacters =>
    "must consist of lowercase alphanumerics or '-', and start and end with an alphanumeric"

namespace Violation

/-- `containerList isInit` is the name of the list that a container is in. -/
def containerList (isInit : Bool) : String :=
  if isInit then "initContainers" else "containers"

/-- `Violation.field` is the path of the field that a violation concerns. -/
def field : Violation → String
  | podName _ => "base.name"
  | podNamespace _ => "base.namespace"
  | noContainers => "containers"
  | containerName isInit => containerList isInit ++ ".name"
  | duplicateContainer isInit _ => containerList isInit ++ ".name"
  | containerImage isInit name => containerList isInit ++ "[" ++ name ++ "].image"
  | undeclaredVolume isInit name _ => containerList isInit ++ "[" ++ name ++ "].volumeMounts"
  | nodeName => "nodeScheduling.nodeName"

/-- `Violation.message` is what is wrong with the field. -/
def message : Violation → String
  | podName cause => cause.message
  | podNamespace cause => cause.message
  | noContainers => "at least one container is required"
  | containerName _ => "container name is required"
  | duplicateContainer _ name => "duplicate container name '" ++ name ++ "'"
  | containerImage _ _ => "container image is required"
  | undeclaredVolume _ _ volume => "volume '" ++ volume ++ "' is not declared"
  | nodeName => "nodeName scheduling requires a node name"

/-- `v.display` shows the violation on one line. -/
def display (v : Violation) : String :=
  v.field ++ ": " ++ v.message

end Violation

/-- `isLabelEdge c` holds of the characters at the ends of a label. -/
def isLabelEdge (c : Char) : Bool :=
  ('a' ≤ c && c ≤ 'z') || ('0' ≤ c && c ≤ '9')

/-- `isLabelChar c` holds of the characters of a label. -/
def isLabelChar (c : Char) : Bool :=
  isLabelEdge c || c == '-'

/-- What keeps a text from being a label of at most `limit` bytes. -/
def labelViolation? (s : String) (limit : Nat) : Option LabelViolation :=
  let cs := s.toList
  if cs.isEmpty then some .empty
  else if limit < s.utf8ByteSize then some (.tooLong limit)
  else if cs.all isLabelChar && cs.head?.any isLabelEdge && cs.getLast?.any isLabelEdge then none
  else some .badCharacters

namespace PodRequest

/-- `r.checkedContainers` has the containers in the order in which they are checked: init containers
first. -/
def checkedContainers (r : PodRequest) : List (Bool × Container) :=
  r.initContainers.map (true, ·) ++ r.containers.map (false, ·)

/-- `containerViolation?` is what is wrong with one container, given the names of those before it.
-/
def containerViolation? (volumes seen : List String) (isInit : Bool) (c : Container) :
    Option Violation :=
  if Text.isBlankText c.name then some (.containerName isInit)
  else if seen.contains c.name then some (.duplicateContainer isInit c.name)
  else if Text.isBlankText c.image then some (.containerImage isInit c.name)
  else
    (c.mounts.find? fun m => ! volumes.contains m.volume).map fun m =>
      .undeclaredVolume isInit c.name m.volume

/-- `containersViolation? volumes` is what is wrong with the first bad container. -/
def containersViolation? (volumes : List String) : List String → List (Bool × Container) →
    Option Violation
  | _, [] => none
  | seen, (isInit, c) :: rest =>
    (containerViolation? volumes seen isInit c).or
      (containersViolation? volumes (c.name :: seen) rest)

/-- `r.violation?` is the first violation, and nothing for an acceptable request. -/
def violation? (r : PodRequest) : Option Violation :=
  ((labelViolation? r.base.name maxPodNameLength).map .podName).or <|
  ((labelViolation? r.base.ns maxLabelLength).map .podNamespace).or <|
  (if r.containers.isEmpty then some .noContainers else none).or <|
  (containersViolation? (r.volumes.map (·.name)) [] r.checkedContainers).or <|
  if r.scheduling.kind = .name ∧ Text.isBlankText r.scheduling.nodeName then some .nodeName
  else none

end PodRequest

end PodDesk
