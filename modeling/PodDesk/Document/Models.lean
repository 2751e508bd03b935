import PodDesk.Document.Schema
import PodDesk.Request.Basic

/-!
# The shapes of requests and answers

The definitions of the interface description.
-/

namespace PodDesk.Document

/-- `text name` is a field that holds a text. -/
def text (name : String) : Property :=
  { name, shape := .text }

/-- `described name doc` is a field that holds a text, and `doc` says what it is about. -/
def described (name doc : String) : Property :=
  { name, shape := .text, doc := some doc }

/-- `flag name` is a field that holds a truth value. -/
def flag (name : String) : Property :=
  { name, shape := .flag }

/-- `number name` is a field that holds a number of 32 bits. -/
def number (name : String) : Property :=
  { name, shape := .int32 }

/-- `part name definition` is a field that holds a value of the shape `definition`. -/
def part (name definition : String) : Property :=
  { name, shape := .named definition }

/-- `parts name definition` is a field that holds a list of values of the shape `definition`. -/
def parts (name definition : String) : Property :=
  { name, shape := .list (.named definition) }

/-- `texts name` is a field that holds a list of texts. -/
def texts (name : String) : Property :=
  { name, shape := .list .text }

/-- `placementModels` has the definitions for the base of a request and for where its Pod runs. -/
def placementModels : List (String × Definition) :=
  [("PodRequest", .lenient "Desired Pod, as submitted by the admin UI" [part "base" "Base",
      parts "tolerations" "Toleration", part "nodeScheduling" "NodeScheduling",
      parts "volumes" "Volume", part "netWorking" "Networking", parts "initContainers" "Container",
      parts "containers" "Container"]),
    ("Base", .lenient none [text "name", text "namespace", parts "labels" "ListMapItem",
      described "restartPolicy" "Always | Never | OnFailure"]),
    ("ListMapItem", .strict
      "Generic key/value pair used for labels, selectors, headers and host aliases"
      [text "key", text "value"]),
    ("Toleration", .lenient none [text "key", text "operator", text "value", text "effect",
      { name := "tolerationSeconds", shape := .int64, nullable := true }]),
    ("NodeScheduling", .lenient none [part "type" "SchedulingType", text "nodeName",
      parts "nodeSelector" "ListMapItem", parts "nodeAffinity" "NodeSelectorTermExpression"]),
    ("SchedulingType", .words (SchedulingKind.all.map (·.word))),
    ("NodeSelectorTermExpression", .lenient none [text "key",
      described "operator" "In | NotIn | Exists | DoesNotExist | Gt | Lt",
      described "value" "Comma separated values"]),
    ("Networking", .lenient none [flag "hostNetwork", text "hostName", text "dnsPolicy",
      part "dnsConfig" "DnsConfig",
      { parts "hostAliases" "ListMapItem" with
        doc := some "key = IP, value = comma separated hostnames" }]),
    ("DnsConfig", .lenient none [texts "nameservers"])]

/-- `volumeModels` has the definitions for volumes. -/
def volumeModels : List (String × Definition) :=
  [("Volume", .lenient none [text "name", part "type" "VolumeType",
      part "configMapRefVolume" "ConfigMapRefVolume", part "secretRefVolume" "SecretRefVolume",
      part "hostPathVolume" "HostPathVolume", part "downwardAPIVolume" "DownwardApiVolume",
      part "PVCVolume" "PvcVolume"]),
    ("VolumeType", .words (VolumeKind.all.map (·.word))),
    ("ConfigMapRefVolume", .lenient none [text "name", flag "optional"]),
    ("SecretRefVolume", .lenient none [text "name", flag "optional"]),
    ("HostPathVolume", .lenient none
      [described "type" "DirectoryOrCreate, Directory, FileOrCreate, File, Socket, ...",
        text "path"]),
    ("DownwardApiVolume", .lenient none [parts "items" "DownwardApiVolumeItem"]),
    ("DownwardApiVolumeItem", .lenient none [text "path", text "fieldRefPath"]),
    ("PvcVolume", .lenient none [described "name" "Claim name"])]

/-- `containerModels` has the definitions for containers. -/
def containerModels : List (String × Definition) :=
  [("Container", .lenient none [text "name", text "image", text "imagePullPolicy", flag "tty",
      parts "ports" "ContainerPort", text "workingDir", texts "command", texts "args",
      parts "envs" "EnvVar", parts "envsFrom" "EnvVarFromResource", flag "privileged",
      part "resources" "Resources", parts "volumeMounts" "VolumeMount",
      part "startupProbe" "ContainerProbe", part "livenessProbe" "ContainerProbe",
      part "readinessProbe" "ContainerProbe"]),
    ("ContainerPort", .lenient none [text "name", number "containerPort", number "hostPort"]),
    ("EnvVar", .lenient none [text "name",
      described "refName" "ConfigMap or Secret name when \x60type\x60 is a reference",
      described "value" "Literal value, or the referenced key", part "type" "EnvVarType"]),
    ("EnvVarType", .words (EnvKind.all.map (·.word))),
    ("EnvVarFromResource", .lenient none [text "name", part "refType" "RefType", text "prefix"]),
    ("RefType", .words (EnvSourceKind.all.map (·.word))),
    ("Resources", .lenient "Container quotas. Memory in MiB, CPU in millicores."
      [flag "enable", number "memRequest", number "memLimit", number "cpuRequest",
        number "cpuLimit"]),
    ("VolumeMount", .lenient none [text "mountName", text "mountPath", flag "readOnly"]),
    ("ContainerProbe", .lenient none [flag "enable", part "type" "ProbeType",
      part "httpGet" "ProbeHttpGet", part "exec" "ProbeCommand", part "tcpSocket" "ProbeTcpSocket",
      number "initialDelaySeconds", number "periodSeconds", number "timeoutSeconds",
      number "successThreshold", number "failureThreshold"]),
    ("ProbeType", .words (ProbeKind.all.map (·.word))),
    ("ProbeHttpGet", .lenient none [described "scheme" "HTTP | HTTPS",
      described "host" "Empty means the Pod IP", text "path", number "port",
      parts "httpHeaders" "ListMapItem"]),
    ("ProbeTcpSocket", .lenient none [text "host", number "port"]),
    ("ProbeCommand", .lenient none [texts "command"])]

/-- `answerModels` has the definitions for answers. -/
def answerModels : List (String × Definition) :=
  [("PodListItem", .strict "Pod row in the list view" [text "name",
      described "ready" "\"ready/total\" containers", described "status" "Running | Error",
      number "restarts",
      { name := "age", shape := .int64, doc := some "Creation time, unix seconds" }, text "IP",
      text "node"]),
    ("NamespaceItem", .strict "Namespace row in the namespace list" [text "name",
      { name := "creationTimestamp", shape := .int64, doc := some "Unix seconds" },
      described "status" "Active | Terminating"]),
    ("ReconcileResponse", .strict "Outcome of a create-or-update" [text "namespace", text "name",
      { described "action" "created | replaced" with sample := some "replaced" }, text "message"]),
    ("PodListResponse", .strict none [parts "podList" "PodListItem"]),
    ("PodDetailResponse", .strict none [part "pod" "PodRequest"]),
    ("PodDeleteResponse", .strict none [flag "deleted"]),
    ("NamespaceListResponse", .strict none [parts "namespaces" "NamespaceItem"]),
    ("HealthResponse", .strict none [text "status", text "version"]),
    ("ClusterStatusResponse", .strict none [flag "connected", text "message",
      { described "version" "API server version, when connected" with nullable := true }]),
    ("ErrorResponse", .strict "Error envelope returned by the API"
      [{ flag "success" with doc := some "Always false" }, part "error" "ErrorBody"]),
    ("ErrorBody", .strict none
      [{ described "code" "NOT_FOUND, VALIDATION_ERROR, UNAVAILABLE, RECONCILE_ERROR, ..." with
          sample := some "RECONCILE_ERROR" },
        text "message",
        { name := "details", shape := .anything, nullable := true,
          doc := some "For reconcile failures: namespace, name, operation, podAbsent" }])]

/-- `models` has all definitions, each under its name. -/
def models : List (String × Definition) :=
  placementModels ++ volumeModels ++ containerModels ++ answerModels

end PodDesk.Document
