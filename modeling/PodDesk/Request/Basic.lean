/-!
# Pod requests

What a client asks for when it submits a Pod, and what it is shown when it looks one up. The request
keeps every field that a client can set, also those of an alternative that its `kind` does not
choose.
-/

namespace PodDesk

/-- A key with a value: a label, a header, a selector entry or a host alias. -/
structure KeyValue where
  key : String := ""
  value : String := ""
  deriving DecidableEq, Repr, Inhabited

/-- Identity and labels of the wanted Pod. -/
structure Base where
  name : String := ""
  ns : String := ""
  labels : List KeyValue := []
  restartPolicy : String := ""
  deriving DecidableEq, Repr, Inhabited

/-- A taint that the Pod tolerates. -/
structure Toleration where
  key : String := ""
  operator : String := ""
  value : String := ""
  effect : String := ""
  seconds : Option Int64 := none
  deriving DecidableEq, Repr, Inhabited

/-- How a node is chosen. -/
inductive SchedulingKind where
  | any
  | name
  | selector
  | affinity
  deriving DecidableEq, Repr, Inhabited

/-- A condition on node labels; the values are separated by commas. -/
structure NodeExpression where
  key : String := ""
  operator : String := ""
  value : String := ""
  deriving DecidableEq, Repr, Inhabited

/-- The wanted node. -/
structure Scheduling where
  kind : SchedulingKind := .any
  nodeName : String := ""
  selector : List KeyValue := []
  affinity : List NodeExpression := []
  deriving DecidableEq, Repr, Inhabited

/-- Where the contents of a volume come from. -/
inductive VolumeKind where
  | emptyDir
  | configMap
  | secret
  | hostPath
  | downward
  | claim
  deriving DecidableEq, Repr, Inhabited

/-- A config map or a secret, which need not exist when it is optional. -/
structure ObjectRef where
  name : String := ""
  isOptional : Bool := false
  deriving DecidableEq, Repr, Inhabited

/-- A path on the node and what must be found there. -/
structure HostPath where
  kind : String := ""
  path : String := ""
  deriving DecidableEq, Repr, Inhabited

/-- A file that shows a field of the Pod. -/
structure FieldFile where
  path : String := ""
  fieldPath : String := ""
  deriving DecidableEq, Repr, Inhabited

/-- A volume, with one source for every kind. -/
structure Volume where
  name : String := ""
  kind : VolumeKind := .emptyDir
  configMap : ObjectRef := {}
  secret : ObjectRef := {}
  hostPath : HostPath := {}
  downward : List FieldFile := []
  claim : String := ""
  deriving DecidableEq, Repr, Inhabited

/-- Network settings. A host alias maps an address to host names separated by commas. -/
structure Networking where
  hostNetwork : Bool := false
  hostName : String := ""
  dnsPolicy : String := ""
  nameservers : List String := []
  hostAliases : List KeyValue := []
  deriving DecidableEq, Repr, Inhabited

/-- A port of a container; a host port that is not positive is none. -/
structure Port where
  name : String := ""
  containerPort : Int32 := 0
  hostPort : Int32 := 0
  deriving DecidableEq, Repr, Inhabited

/-- Where the value of an environment variable comes from. -/
inductive EnvKind where
  | literal
  | configMap
  | secret
  deriving DecidableEq, Repr, Inhabited

/-- An environment variable. The value is literal, or the key in the object named `refName`. -/
structure EnvVar where
  name : String := ""
  refName : String := ""
  value : String := ""
  kind : EnvKind := .literal
  deriving DecidableEq, Repr, Inhabited

/-- The kinds of object that a whole environment is taken from. -/
inductive EnvSourceKind where
  | configMap
  | secret
  deriving DecidableEq, Repr, Inhabited

/-- All entries of an object as environment variables. -/
structure EnvSource where
  name : String := ""
  kind : EnvSourceKind := .configMap
  namePrefix : String := ""
  deriving DecidableEq, Repr, Inhabited

/-- Quotas: memory in MiB and processor time in thousandths of a core. -/
structure Resources where
  enabled : Bool := false
  memRequest : Int32 := 0
  memLimit : Int32 := 0
  cpuRequest : Int32 := 0
  cpuLimit : Int32 := 0
  deriving DecidableEq, Repr, Inhabited

/-- A volume mounted into a container. -/
structure Mount where
  volume : String := ""
  path : String := ""
  readOnly : Bool := false
  deriving DecidableEq, Repr, Inhabited

/-- How a probe looks at a container. -/
inductive ProbeKind where
  | http
  | tcp
  | exec
  deriving DecidableEq, Repr, Inhabited

/-- An HTTP request to a container. -/
structure HttpCheck where
  scheme : String := ""
  host : String := ""
  path : String := ""
  port : Int32 := 0
  headers : List KeyValue := []
  deriving DecidableEq, Repr, Inhabited

/-- A connection to a container. -/
structure TcpCheck where
  host : String := ""
  port : Int32 := 0
  deriving DecidableEq, Repr, Inhabited

/-- A probe, with one check for every kind. -/
structure Probe where
  enabled : Bool := false
  kind : ProbeKind := .http
  http : HttpCheck := {}
  command : List String := []
  tcp : TcpCheck := {}
  initialDelay : Int32 := 0
  period : Int32 := 0
  timeout : Int32 := 0
  successThreshold : Int32 := 0
  failureThreshold : Int32 := 0
  deriving DecidableEq, Repr, Inhabited

/-- A container. -/
structure Container where
  name : String := ""
  image : String := ""
  imagePullPolicy : String := ""
  tty : Bool := false
  ports : List Port := []
  workingDir : String := ""
  command : List String := []
  args : List String := []
  envs : List EnvVar := []
  envSources : List EnvSource := []
  privileged : Bool := false
  resources : Resources := {}
  mounts : List Mount := []
  startupProbe : Probe := {}
  livenessProbe : Probe := {}
  readinessProbe : Probe := {}
  deriving DecidableEq, Repr, Inhabited

/-- A wanted Pod. -/
structure PodRequest where
  base : Base := {}
  tolerations : List Toleration := []
  scheduling : Scheduling := {}
  volumes : List Volume := []
  networking : Networking := {}
  initContainers : List Container := []
  containers : List Container := []
  deriving DecidableEq, Repr, Inhabited

namespace SchedulingKind

/-- `SchedulingKind.all` has the kinds in the order in which they are documented. -/
def all : List SchedulingKind :=
  [.any, .name, .selector, .affinity]

def word : SchedulingKind → String
  | any => "nodeAny"
  | name => "nodeName"
  | selector => "nodeSelector"
  | affinity => "nodeAffinity"

end SchedulingKind

namespace VolumeKind

/-- `VolumeKind.all` has the kinds in the order in which they are documented. -/
def all : List VolumeKind :=
  [.emptyDir, .configMap, .secret, .hostPath, .downward, .claim]

def word : VolumeKind → String
  | emptyDir => "emptyDir"
  | configMap => "configMap"
  | secret => "secret"
  | hostPath => "hostPath"
  | downward => "downward"
  | claim => "pvc"

end VolumeKind

namespace EnvKind

/-- `EnvKind.all` has the kinds in the order in which they are documented. -/
def all : List EnvKind :=
  [.literal, .configMap, .secret]

def word : EnvKind → String
  | literal => "default"
  | configMap => "configMap"
  | secret => "secret"

end EnvKind

namespace EnvSourceKind

/-- `EnvSourceKind.all` has the kinds in the order in which they are documented. -/
def all : List EnvSourceKind :=
  [.configMap, .secret]

def word : EnvSourceKind → String
  | configMap => "configMap"
  | secret => "secret"

end EnvSourceKind

namespace ProbeKind

/-- `ProbeKind.all` has the kinds in the order in which they are documented. -/
def all : List ProbeKind :=
  [.http, .tcp, .exec]

def word : ProbeKind → String
  | http => "http"
  | tcp => "tcp"
  | exec => "exec"

end ProbeKind

end PodDesk
