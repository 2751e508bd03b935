import PodDesk.SortedMap
import PodDesk.Timestamp

/-!
# Pods

A Pod as a Kubernetes cluster of version 1.28 stores it, with the parts that this program writes or
reads. What is absent is kept apart from what is present but empty, because the cluster keeps them
apart.
-/

namespace PodDesk

namespace Pod

/-- Identity and bookkeeping of an object in the cluster. -/
structure Metadata where
  name : Option String := none
  ns : Option String := none
  labels : Option TextMap := none
  resourceVersion : Option String := none
  created : Option Timestamp := none
  deriving DecidableEq, Repr, Inhabited

/-- A taint that the Pod tolerates. -/
structure Toleration where
  key : Option String := none
  operator : Option String := none
  value : Option String := none
  effect : Option String := none
  seconds : Option Int64 := none
  deriving DecidableEq, Repr, Inhabited

/-- A condition on node labels. -/
structure NodeRequirement where
  key : String := ""
  operator : String := ""
  values : Option (List String) := none
  deriving DecidableEq, Repr, Inhabited

/-- Conditions that a node meets together. -/
structure NodeTerm where
  expressions : Option (List NodeRequirement) := none
  deriving DecidableEq, Repr, Inhabited

/-- The terms of which the node must meet one. -/
structure NodeAffinity where
  required : Option (List NodeTerm) := none
  deriving DecidableEq, Repr, Inhabited

/-- Rules about the node. -/
structure Affinity where
  node : Option NodeAffinity := none
  deriving DecidableEq, Repr, Inhabited

/-- Name resolution settings. -/
structure DnsConfig where
  nameservers : Option (List String) := none
  deriving DecidableEq, Repr, Inhabited

/-- Host names of an address. -/
structure HostAlias where
  ip : Option String := none
  hostnames : Option (List String) := none
  deriving DecidableEq, Repr, Inhabited

/-- A volume from a config map or a secret. -/
structure ObjectSource where
  name : Option String := none
  isOptional : Option Bool := none
  deriving DecidableEq, Repr, Inhabited

/-- A volume from a path on the node. -/
structure HostPathSource where
  path : String := ""
  kind : Option String := none
  deriving DecidableEq, Repr, Inhabited

/-- A file that shows a field of the Pod, when it has a field reference. -/
structure DownwardFile where
  path : String := ""
  fieldPath : Option String := none
  deriving DecidableEq, Repr, Inhabited

/-- A volume that shows fields of the Pod. -/
structure DownwardSource where
  items : Option (List DownwardFile) := none
  deriving DecidableEq, Repr, Inhabited

/-- A volume from a claim. -/
structure ClaimSource where
  claimName : String := ""
  deriving DecidableEq, Repr, Inhabited

/-- A volume, with the sources that are present. -/
structure Volume where
  name : String := ""
  emptyDir : Bool := false
  configMap : Option ObjectSource := none
  secret : Option ObjectSource := none
  hostPath : Option HostPathSource := none
  claim : Option ClaimSource := none
  downward : Option DownwardSource := none
  deriving DecidableEq, Repr, Inhabited

/-- A port of a container. -/
structure Port where
  name : Option String := none
  containerPort : Int32 := 0
  hostPort : Option Int32 := none
  deriving DecidableEq, Repr, Inhabited

/-- A key of a config map or a secret. -/
structure KeyRef where
  key : String := ""
  name : Option String := none
  deriving DecidableEq, Repr, Inhabited

/-- Where the value of an environment variable comes from. -/
structure EnvValueSource where
  configMap : Option KeyRef := none
  secret : Option KeyRef := none
  deriving DecidableEq, Repr, Inhabited

/-- An environment variable. -/
structure EnvVar where
  name : String := ""
  value : Option String := none
  source : Option EnvValueSource := none
  deriving DecidableEq, Repr, Inhabited

/-- A config map or a secret that a whole environment is taken from. -/
structure NameRef where
  name : Option String := none
  deriving DecidableEq, Repr, Inhabited

/-- A source of several environment variables. -/
structure EnvSource where
  namePrefix : Option String := none
  configMap : Option NameRef := none
  secret : Option NameRef := none
  deriving DecidableEq, Repr, Inhabited

/-- Quantities by the name of the resource. -/
structure Resources where
  requests : Option TextMap := none
  limits : Option TextMap := none
  deriving DecidableEq, Repr, Inhabited

/-- Privileges of a container. -/
structure SecurityContext where
  privileged : Option Bool := none
  deriving DecidableEq, Repr, Inhabited

/-- A volume mounted into a container. -/
structure Mount where
  name : String := ""
  path : String := ""
  readOnly : Option Bool := none
  deriving DecidableEq, Repr, Inhabited

/-- A port by its number or by its name. -/
inductive PortRef where
  | number (n : Int32)
  | name (s : String)
  deriving DecidableEq, Repr

instance : Inhabited PortRef := ⟨.number 0⟩

/-- A header of an HTTP check. -/
structure Header where
  name : String := ""
  value : String := ""
  deriving DecidableEq, Repr, Inhabited

/-- An HTTP request to a container. -/
structure HttpCheck where
  scheme : Option String := none
  host : Option String := none
  path : Option String := none
  port : PortRef := .number 0
  headers : Option (List Header) := none
  deriving DecidableEq, Repr, Inhabited

/-- A connection to a container. -/
structure TcpCheck where
  host : Option String := none
  port : PortRef := .number 0
  deriving DecidableEq, Repr, Inhabited

/-- A command in a container. -/
structure ExecCheck where
  command : Option (List String) := none
  deriving DecidableEq, Repr, Inhabited

/-- A probe, with the checks that are present. -/
structure Probe where
  exec : Option ExecCheck := none
  http : Option HttpCheck := none
  tcp : Option TcpCheck := none
  initialDelay : Option Int32 := none
  period : Option Int32 := none
  timeout : Option Int32 := none
  successThreshold : Option Int32 := none
  failureThreshold : Option Int32 := none
  deriving DecidableEq, Repr, Inhabited

/-- A container. -/
structure Container where
  name : String := ""
  image : Option String := none
  imagePullPolicy : Option String := none
  tty : Option Bool := none
  ports : Option (List Port) := none
  workingDir : Option String := none
  command : Option (List String) := none
  args : Option (List String) := none
  env : Option (List EnvVar) := none
  envFrom : Option (List EnvSource) := none
  securityContext : Option SecurityContext := none
  resources : Option Resources := none
  mounts : Option (List Mount) := none
  startupProbe : Option Probe := none
  livenessProbe : Option Probe := none
  readinessProbe : Option Probe := none
  deriving DecidableEq, Repr, Inhabited

/-- What the Pod should be. -/
structure Spec where
  initContainers : Option (List Container) := none
  containers : List Container := []
  restartPolicy : Option String := none
  tolerations : Option (List Toleration) := none
  volumes : Option (List Volume) := none
  nodeName : Option String := none
  nodeSelector : Option TextMap := none
  affinity : Option Affinity := none
  hostNetwork : Option Bool := none
  hostname : Option String := none
  dnsPolicy : Option String := none
  dnsConfig : Option DnsConfig := none
  hostAliases : Option (List HostAlias) := none
  deriving DecidableEq, Repr, Inhabited

/-- How a container is doing. -/
structure ContainerStatus where
  ready : Bool := false
  restartCount : Int32 := 0
  deriving DecidableEq, Repr, Inhabited

/-- How the Pod is doing. -/
structure Status where
  phase : Option String := none
  podIP : Option String := none
  containers : Option (List ContainerStatus) := none
  deriving DecidableEq, Repr, Inhabited

end Pod

/-- A Pod in the cluster. -/
structure Pod where
  metadata : Pod.Metadata := {}
  spec : Option Pod.Spec := none
  status : Option Pod.Status := none
  deriving DecidableEq, Repr, Inhabited

/-- A namespace in the cluster; the status, when there is one, may have a phase. -/
structure Namespace where
  metadata : Pod.Metadata := {}
  status : Option (Option String) := none
  deriving DecidableEq, Repr, Inhabited

end PodDesk
