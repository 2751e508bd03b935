import PodDesk.Pod.Scalar

/-!
# Shapes of API objects

A shape says which JSON the cluster's API takes for a type. `Shape.ofPod` and `Shape.ofNamespace`
describe the whole of the two types of version 1.28, with the fields that this program has no other
use for.
-/

namespace PodDesk

/-- A type of the API. -/
inductive Shape where
  | any
  | text
  | bool
  | int32
  | int64
  | time
  | intOrText
  | list (item : Shape)
  /-- An object with arbitrary names. -/
  | map (value : Shape)
  /-- An object with known fields, any of which may be missing or null. Unknown fields may hold
  anything. -/
  | record (fields : List (String × Shape))

namespace Shape

/-- `accepted result` says whether a reader accepted the document. -/
def accepted {α : Type} (result : Except Fault α) : Bool :=
  match result with
  | .ok _ => true
  | .error _ => false

mutual

/-- `Shape.fits` says whether a document has the shape. -/
def fits : Shape → Doc → Bool
  | .any, _ => true
  | .text, d => accepted (Codec.text.decode d)
  | .bool, d => accepted (Codec.bool.decode d)
  | .int32, d => accepted (Codec.int32.decode d)
  | .int64, d => accepted (Codec.int64.decode d)
  | .time, d => accepted (Codec.timestamp.decode d)
  | .intOrText, d => accepted (Pod.PortRef.codec.decode d)
  | .list item, .arr items none => items.all fun d => item.fits d
  | .map value, .obj members none => members.all fun m => value.fits m.2
  | .record fields, .obj members none =>
    members.all fun m => match m.1, m.2 with
      | .ok _, .null => true
      | .ok name, d => fieldFits fields name d
      | .error _, _ => false
  | _, _ => false

/-- `Shape.fieldFits` says whether the value of a member fits the field of that name, if there is
one. -/
def fieldFits : List (String × Shape) → String → Doc → Bool
  | [], _, _ => true
  | (field, shape) :: fields, name, d =>
    if field = name then shape.fits d else fieldFits fields name d

end

/-- `each shape names` has fields of one shape. -/
def each (shape : Shape) (names : List String) : List (String × Shape) :=
  names.map (·, shape)

/-- `texts names others` is an object whose fields `names` are texts, with others. -/
def texts (names : List String) (others : List (String × Shape)) : Shape :=
  .record (each .text names ++ others)

/-- `listOf names others` is a list of objects whose fields `names` are texts, with others. -/
def listOf (names : List String) (others : List (String × Shape)) : Shape :=
  .list (texts names others)

def metadata : Shape :=
  texts ["generateName", "name", "namespace", "resourceVersion", "selfLink", "uid"] <|
    each .time ["creationTimestamp", "deletionTimestamp"] ++
    each .int64 ["deletionGracePeriodSeconds", "generation"] ++
    each (.map .text) ["annotations", "labels"] ++
    [("finalizers", .list .text),
      ("managedFields", listOf
        ["apiVersion", "fieldsType", "manager", "operation", "subresource"]
        [("fieldsV1", .any), ("time", .time)]),
      ("ownerReferences", listOf ["apiVersion", "kind", "name", "uid"]
        (each .bool ["blockOwnerDeletion", "controller"]))]

def requirement : Shape :=
  texts ["key", "operator"] [("values", .list .text)]

/-- `labelSelector` is a selector of objects by their labels. -/
def labelSelector : Shape :=
  .record [("matchExpressions", .list requirement), ("matchLabels", .map .text)]

/-- `nodeTerm` has the conditions that a node meets together. -/
def nodeTerm : Shape :=
  .record (each (.list requirement) ["matchExpressions", "matchFields"])

/-- `podTerm` is a rule about the other Pods on a node. -/
def podTerm : Shape :=
  texts ["topologyKey"]
    (each labelSelector ["labelSelector", "namespaceSelector"] ++ [("namespaces", .list .text)])

/-- `podRules` has rules about the other Pods on a node. -/
def podRules : Shape :=
  .record [
    ("preferredDuringSchedulingIgnoredDuringExecution",
      .list (.record [("podAffinityTerm", podTerm), ("weight", .int32)])),
    ("requiredDuringSchedulingIgnoredDuringExecution", .list podTerm)]

def affinity : Shape :=
  .record [
    ("nodeAffinity", .record [
      ("preferredDuringSchedulingIgnoredDuringExecution",
        .list (.record [("preference", nodeTerm), ("weight", .int32)])),
      ("requiredDuringSchedulingIgnoredDuringExecution",
        .record [("nodeSelectorTerms", .list nodeTerm)])]),
    ("podAffinity", podRules),
    ("podAntiAffinity", podRules)]

def exec : Shape :=
  .record [("command", .list .text)]

def httpGet : Shape :=
  texts ["host", "path", "scheme"]
    [("httpHeaders", listOf ["name", "value"] []), ("port", .intOrText)]

def tcpSocket : Shape :=
  texts ["host"] [("port", .intOrText)]

/-- `lifecycleHandler` is what is done at a turn in the life of a container. -/
def lifecycleHandler : Shape :=
  .record [("exec", exec), ("httpGet", httpGet), ("tcpSocket", tcpSocket)]

def probe : Shape :=
  .record ([("exec", exec), ("httpGet", httpGet), ("tcpSocket", tcpSocket),
      ("grpc", texts ["service"] [("port", .int32)]), ("terminationGracePeriodSeconds", .int64)] ++
    each .int32 ["failureThreshold", "initialDelaySeconds", "periodSeconds", "successThreshold",
      "timeoutSeconds"])

/-- `fieldRef` is a reference to a field of the Pod. -/
def fieldRef : Shape :=
  texts ["apiVersion", "fieldPath"] []

/-- `resourceFieldRef` is a reference to a resource of a container. -/
def resourceFieldRef : Shape :=
  texts ["containerName", "divisor", "resource"] []

def resources : Shape :=
  .record (each (.map .text) ["limits", "requests"] ++ [("claims", listOf ["name"] [])])

def seLinuxOptions : Shape :=
  texts ["level", "role", "type", "user"] []

def seccompProfile : Shape :=
  texts ["localhostProfile", "type"] []

/-- `windowsOptions` has the settings of containers on Windows. -/
def windowsOptions : Shape :=
  texts ["gmsaCredentialSpec", "gmsaCredentialSpecName", "runAsUserName"] [("hostProcess", .bool)]

def securityContext : Shape :=
  .record (each .bool ["allowPrivilegeEscalation", "privileged", "readOnlyRootFilesystem",
      "runAsNonRoot"] ++
    each .int64 ["runAsGroup", "runAsUser"] ++
    [("procMount", .text), ("capabilities", .record (each (.list .text) ["add", "drop"])),
      ("seLinuxOptions", seLinuxOptions), ("seccompProfile", seccompProfile),
      ("windowsOptions", windowsOptions)])

/-- `podSecurityContext` has the privileges of a Pod. -/
def podSecurityContext : Shape :=
  .record (each .int64 ["fsGroup", "runAsGroup", "runAsUser"] ++
    [("fsGroupChangePolicy", .text), ("runAsNonRoot", .bool), ("seLinuxOptions", seLinuxOptions),
      ("seccompProfile", seccompProfile), ("supplementalGroups", .list .int64),
      ("sysctls", listOf ["name", "value"] []), ("windowsOptions", windowsOptions)])

/-- `keyRef` is a key of a config map or a secret. -/
def keyRef : Shape :=
  texts ["key", "name"] [("optional", .bool)]

/-- `nameRef` is a config map or a secret. -/
def nameRef : Shape :=
  texts ["name"] [("optional", .bool)]

/-- `containerFields` has the fields of a container. -/
def containerFields : List (String × Shape) :=
  each .text ["image", "imagePullPolicy", "name", "restartPolicy", "terminationMessagePath",
      "terminationMessagePolicy", "workingDir"] ++
    each (.list .text) ["args", "command"] ++
    each probe ["livenessProbe", "readinessProbe", "startupProbe"] ++
    each .bool ["stdin", "stdinOnce", "tty"] ++
    [("env", listOf ["name", "value"] [("valueFrom", .record [
        ("configMapKeyRef", keyRef), ("fieldRef", fieldRef),
        ("resourceFieldRef", resourceFieldRef), ("secretKeyRef", keyRef)])]),
      ("envFrom", listOf ["prefix"] (each nameRef ["configMapRef", "secretRef"])),
      ("lifecycle", .record (each lifecycleHandler ["postStart", "preStop"])),
      ("ports", listOf ["hostIP", "name", "protocol"] (each .int32 ["containerPort", "hostPort"])),
      ("resizePolicy", listOf ["resourceName", "restartPolicy"] []),
      ("resources", resources), ("securityContext", securityContext),
      ("volumeDevices", listOf ["devicePath", "name"] []),
      ("volumeMounts", listOf
        ["mountPath", "mountPropagation", "name", "subPath", "subPathExpr"]
        [("readOnly", .bool)])]

def container : Shape :=
  .record containerFields

/-- `debugContainer` is a container for debugging another. -/
def debugContainer : Shape :=
  .record (("targetContainerName", .text) :: containerFields)

/-- `keyFiles` has files from the keys of an object. -/
def keyFiles : Shape :=
  listOf ["key", "path"] [("mode", .int32)]

/-- `downwardFiles` has files that show fields of the Pod. -/
def downwardFiles : Shape :=
  listOf ["path"] [("fieldRef", fieldRef), ("mode", .int32), ("resourceFieldRef", resourceFieldRef)]

/-- `localRef` is a reference to an object in the same namespace. -/
def localRef : Shape :=
  texts ["name"] []

def claimSpec : Shape :=
  texts ["storageClassName", "volumeMode", "volumeName"] [
    ("accessModes", .list .text), ("dataSource", texts ["apiGroup", "kind", "name"] []),
    ("dataSourceRef", texts ["apiGroup", "kind", "name", "namespace"] []),
    ("resources", resources), ("selector", labelSelector)]

/-- `projection` has the sources of a projected volume. -/
def projection : Shape :=
  .record [
    ("configMap", texts ["name"] [("items", keyFiles), ("optional", .bool)]),
    ("downwardAPI", .record [("items", downwardFiles)]),
    ("secret", texts ["name"] [("items", keyFiles), ("optional", .bool)]),
    ("serviceAccountToken", texts ["audience", "path"] [("expirationSeconds", .int64)])]

/-- `driver` is a source of a volume under its name: texts and a flag for reading only, with others.
-/
def driver (name : String) (names : List String) (others : List (String × Shape)) :
    String × Shape :=
  (name, texts names (("readOnly", .bool) :: others))

/-- `secretRef` is a reference to a secret with credentials. -/
def secretRef : String × Shape :=
  ("secretRef", localRef)

def volume : Shape :=
  texts ["name"] [
    driver "awsElasticBlockStore" ["fsType", "volumeID"] [("partition", .int32)],
    driver "azureDisk" ["cachingMode", "diskName", "diskURI", "fsType", "kind"] [],
    driver "azureFile" ["secretName", "shareName"] [],
    driver "cephfs" ["path", "secretFile", "user"] [secretRef, ("monitors", .list .text)],
    driver "cinder" ["fsType", "volumeID"] [secretRef],
    ("configMap", texts ["name"]
      [("defaultMode", .int32), ("items", keyFiles), ("optional", .bool)]),
    driver "csi" ["driver", "fsType"]
      [("nodePublishSecretRef", localRef), ("volumeAttributes", .map .text)],
    ("downwardAPI", .record [("defaultMode", .int32), ("items", downwardFiles)]),
    ("emptyDir", texts ["medium", "sizeLimit"] []),
    ("ephemeral", .record [("volumeClaimTemplate",
      .record [("metadata", metadata), ("spec", claimSpec)])]),
    driver "fc" ["fsType"] (("lun", .int32) :: each (.list .text) ["targetWWNs", "wwids"]),
    driver "flexVolume" ["driver", "fsType"] [secretRef, ("options", .map .text)],
    ("flocker", texts ["datasetName", "datasetUUID"] []),
    driver "gcePersistentDisk" ["fsType", "pdName"] [("partition", .int32)],
    ("gitRepo", texts ["directory", "repository", "revision"] []),
    driver "glusterfs" ["endpoints", "path"] [],
    ("hostPath", texts ["path", "type"] []),
    driver "iscsi" ["fsType", "initiatorName", "iqn", "iscsiInterface", "targetPortal"]
      (secretRef :: ("lun", .int32) :: ("portals", .list .text) ::
        each .bool ["chapAuthDiscovery", "chapAuthSession"]),
    driver "nfs" ["path", "server"] [],
    driver "persistentVolumeClaim" ["claimName"] [],
    ("photonPersistentDisk", texts ["fsType", "pdID"] []),
    driver "portworxVolume" ["fsType", "volumeID"] [],
    ("projected", .record [("defaultMode", .int32), ("sources", .list projection)]),
    driver "quobyte" ["group", "registry", "tenant", "user", "volume"] [],
    driver "rbd" ["fsType", "image", "keyring", "pool", "user"]
      [secretRef, ("monitors", .list .text)],
    driver "scaleIO" ["fsType", "gateway", "protectionDomain", "storageMode", "storagePool",
      "system", "volumeName"] [secretRef, ("sslEnabled", .bool)],
    ("secret", texts ["secretName"]
      [("defaultMode", .int32), ("items", keyFiles), ("optional", .bool)]),
    driver "storageos" ["fsType", "volumeName", "volumeNamespace"] [secretRef],
    ("vsphereVolume", texts ["fsType", "storagePolicyID", "storagePolicyName", "volumePath"] [])]

def podSpec : Shape :=
  texts ["dnsPolicy", "hostname", "nodeName", "preemptionPolicy", "priorityClassName",
      "restartPolicy", "runtimeClassName", "schedulerName", "serviceAccount",
      "serviceAccountName", "subdomain"] <|
    each .int64 ["activeDeadlineSeconds", "terminationGracePeriodSeconds"] ++
    each .bool ["automountServiceAccountToken", "enableServiceLinks", "hostIPC", "hostNetwork",
      "hostPID", "hostUsers", "setHostnameAsFQDN", "shareProcessNamespace"] ++
    each (.list container) ["containers", "initContainers"] ++
    [("ephemeralContainers", .list debugContainer)] ++
    each (.map .text) ["nodeSelector", "overhead"] ++
    each (listOf ["name"] []) ["imagePullSecrets", "schedulingGates"] ++
    [("affinity", affinity),
      ("dnsConfig", .record (("options", listOf ["name", "value"] []) ::
        each (.list .text) ["nameservers", "searches"])),
      ("hostAliases", listOf ["ip"] [("hostnames", .list .text)]),
      ("os", localRef), ("priority", .int32), ("readinessGates", listOf ["conditionType"] []),
      ("resourceClaims", listOf ["name"]
        [("source", texts ["resourceClaimName", "resourceClaimTemplateName"] [])]),
      ("securityContext", podSecurityContext),
      ("tolerations", listOf ["effect", "key", "operator", "value"]
        [("tolerationSeconds", .int64)]),
      ("topologySpreadConstraints", listOf
        ["nodeAffinityPolicy", "nodeTaintsPolicy", "topologyKey", "whenUnsatisfiable"]
        (("labelSelector", labelSelector) :: ("matchLabelKeys", .list .text) ::
          each .int32 ["maxSkew", "minDomains"])),
      ("volumes", .list volume)]

def containerState : Shape :=
  .record [
    ("running", .record [("startedAt", .time)]),
    ("terminated", texts ["containerID", "message", "reason"]
      (each .int32 ["exitCode", "signal"] ++ each .time ["finishedAt", "startedAt"])),
    ("waiting", texts ["message", "reason"] [])]

def containerStatus : Shape :=
  texts ["containerID", "image", "imageID", "name"] <|
    each .bool ["ready", "started"] ++ each containerState ["lastState", "state"] ++
    [("allocatedResources", .map .text), ("resources", resources), ("restartCount", .int32)]

def conditions : Shape :=
  listOf ["message", "reason", "status", "type"]
    (each .time ["lastProbeTime", "lastTransitionTime"])

def podStatus : Shape :=
  texts ["hostIP", "message", "nominatedNodeName", "phase", "podIP", "qosClass", "reason",
      "resize"] <|
    each (.list containerStatus)
      ["containerStatuses", "ephemeralContainerStatuses", "initContainerStatuses"] ++
    each (listOf ["ip"] []) ["hostIPs", "podIPs"] ++
    [("conditions", conditions), ("resourceClaimStatuses", listOf ["name", "resourceClaimName"] []),
      ("startTime", .time)]

/-- `Shape.ofPod` is the shape of a Pod. -/
def ofPod : Shape :=
  .record [("metadata", metadata), ("spec", podSpec), ("status", podStatus)]

/-- `Shape.ofNamespace` is the shape of a namespace. -/
def ofNamespace : Shape :=
  .record [("metadata", metadata), ("spec", .record [("finalizers", .list .text)]),
    ("status", texts ["phase"] [("conditions", conditions)])]

end Shape

end PodDesk
