import PodDesk.Pod.Basic
import PodDesk.Pod.Quantity
import PodDesk.Request.Basic
import PodDesk.Text.CommaList

/-!
# The request that describes a Pod

`PodRequest.ofPod` shows a Pod of the cluster as a request. What a request cannot express is left
out: volumes of other kinds with their mounts, and all but the first term of a node affinity.
-/

namespace PodDesk

/-- `textOr s` is the text, empty when it is absent. -/
def textOr (s : Option String) : String :=
  s.getD ""

/-- `itemsOf items` has the items of a list that may be absent. -/
def itemsOf {α : Type} (items : Option (List α)) : List α :=
  items.getD []

/-- `KeyValue.ofMap m` has the entries of a map as keys with values. -/
def KeyValue.ofMap (m : TextMap) : List KeyValue :=
  m.entries.map fun e => ⟨e.1, e.2⟩

def Toleration.ofPod (t : Pod.Toleration) : Toleration where
  key := textOr t.key
  operator := textOr t.operator
  value := textOr t.value
  effect := textOr t.effect
  seconds := t.seconds

/-- `NodeExpression.ofPod e` is the condition on node labels in a request. -/
def NodeExpression.ofPod (e : Pod.NodeRequirement) : NodeExpression where
  key := e.key
  operator := e.operator
  value := Text.CommaList.join (itemsOf e.values)

/-- `s.firstNodeTerm?` is the first term of the required node affinity. -/
def Pod.Spec.firstNodeTerm? (s : Pod.Spec) : Option Pod.NodeTerm := do
  let affinity ← s.affinity
  let node ← affinity.node
  let terms ← node.required
  terms.head?

/-- `Scheduling.ofPod s` shows where the Pod runs: a node selector counts before an affinity, and an
affinity before a pinned node. -/
def Scheduling.ofPod (s : Pod.Spec) : Scheduling :=
  match s.nodeSelector, s.firstNodeTerm?, s.nodeName.bind Text.nonEmpty with
  | some selector, _, _ => { kind := .selector, selector := KeyValue.ofMap selector }
  | none, some term, _ =>
    { kind := .affinity, affinity := (itemsOf term.expressions).map NodeExpression.ofPod }
  | none, none, some node => { kind := .name, nodeName := node }
  | none, none, none => {}

/-- `Networking.describeAlias h` is a host alias in a request. -/
def Networking.describeAlias (h : Pod.HostAlias) : KeyValue where
  key := textOr h.ip
  value := Text.CommaList.join (itemsOf h.hostnames)

def Networking.ofPod (s : Pod.Spec) : Networking where
  hostNetwork := s.hostNetwork.getD false
  hostName := textOr s.hostname
  dnsPolicy := textOr s.dnsPolicy
  nameservers := itemsOf (s.dnsConfig.bind (·.nameservers))
  hostAliases := (itemsOf s.hostAliases).map describeAlias

/-- `ObjectRef.ofPod s` is the reference to a config map or a secret. -/
def ObjectRef.ofPod (s : Pod.ObjectSource) : ObjectRef where
  name := textOr s.name
  isOptional := s.isOptional.getD false

/-- `FieldFile.ofPod? f` is a file of a request; one without a field reference has none. -/
def FieldFile.ofPod? (f : Pod.DownwardFile) : Option FieldFile :=
  f.fieldPath.map fun fieldPath => { path := f.path, fieldPath }

/-- `v.ofPod?` is the volume in a request, if it has a source that a request can express; of several
the first in a fixed order counts. -/
def Volume.ofPod? (v : Pod.Volume) : Option Volume :=
  if v.emptyDir then some { name := v.name }
  else if let some source := v.configMap then
    some { name := v.name, kind := .configMap, configMap := .ofPod source }
  else if let some source := v.secret then
    some { name := v.name, kind := .secret, secret := .ofPod source }
  else if let some source := v.hostPath then
    some {
      name := v.name, kind := .hostPath
      hostPath := { kind := textOr source.kind, path := source.path } }
  else if let some source := v.claim then
    some { name := v.name, kind := .claim, claim := source.claimName }
  else if let some source := v.downward then
    some {
      name := v.name, kind := .downward
      downward := (itemsOf source.items).filterMap FieldFile.ofPod? }
  else none

def Port.ofPod (p : Pod.Port) : Port where
  name := textOr p.name
  containerPort := p.containerPort
  hostPort := p.hostPort.getD 0

/-- `e.ofPod` is the environment variable in a request. -/
def EnvVar.ofPod (e : Pod.EnvVar) : EnvVar :=
  match e.source.bind (·.configMap), e.source.bind (·.secret) with
  | some ref, _ =>
    { name := e.name, refName := textOr ref.name, value := ref.key, kind := .configMap }
  | none, some ref =>
    { name := e.name, refName := textOr ref.name, value := ref.key, kind := .secret }
  | none, none => { name := e.name, value := textOr e.value }

/-- `e.ofPod` is the source of environment variables in a request. -/
def EnvSource.ofPod (e : Pod.EnvSource) : EnvSource :=
  match e.configMap, e.secret with
  | some ref, _ =>
    { name := textOr ref.name, kind := .configMap, namePrefix := textOr e.namePrefix }
  | none, some ref =>
    { name := textOr ref.name, kind := .secret, namePrefix := textOr e.namePrefix }
  | none, none => { namePrefix := textOr e.namePrefix }

/-- `Resources.cpu quantities` is the processor time among quantities. -/
def Resources.cpu (quantities : Option TextMap) : Int32 :=
  ((quantities.bind (·.get? "cpu")).map Quantity.millicores).getD 0

/-- `Resources.memory quantities` is the memory among quantities. -/
def Resources.memory (quantities : Option TextMap) : Int32 :=
  ((quantities.bind (·.get? "memory")).map Quantity.mebibytes).getD 0

/-- `Resources.ofPod r` has the quotas; they are enabled when requests or limits are present. -/
def Resources.ofPod (r : Option Pod.Resources) : Resources :=
  let requests := r.bind (·.requests)
  let limits := r.bind (·.limits)
  { enabled := requests.isSome || limits.isSome
    memRequest := memory requests
    memLimit := memory limits
    cpuRequest := cpu requests
    cpuLimit := cpu limits }

/-- `m.ofPod` is the mounted volume in a request. -/
def Mount.ofPod (m : Pod.Mount) : Mount where
  volume := m.name
  path := m.path
  readOnly := m.readOnly.getD false

/-- `Pod.PortRef.toNumber` is the number of a port; a name counts when it spells a number, and
otherwise as zero. -/
def Pod.PortRef.toNumber : Pod.PortRef → Int32
  | .number n => n
  | .name s =>
    match Decimal.integer? s.toList with
    | some n => if -(word31 : Int) ≤ n ∧ n < word31 then Int32.ofInt n else 0
    | none => 0

/-- `h.ofPod` is the HTTP check in a request. -/
def HttpCheck.ofPod (h : Pod.HttpCheck) : HttpCheck where
  scheme := textOr h.scheme
  host := textOr h.host
  path := textOr h.path
  port := h.port.toNumber
  headers := (itemsOf h.headers).map fun header => ⟨header.name, header.value⟩

/-- `t.ofPod` is the connection check in a request. -/
def TcpCheck.ofPod (t : Pod.TcpCheck) : TcpCheck where
  host := textOr t.host
  port := t.port.toNumber

/-- `p.timing` is the probe of a request without its check. -/
def Probe.timing (p : Pod.Probe) : Probe where
  enabled := true
  initialDelay := p.initialDelay.getD 0
  period := p.period.getD 0
  timeout := p.timeout.getD 0
  successThreshold := p.successThreshold.getD 0
  failureThreshold := p.failureThreshold.getD 0

/-- `Probe.ofPod` is the probe in a request: a command counts before an HTTP request, and that
before a connection. -/
def Probe.ofPod : Option Pod.Probe → Probe
  | none => {}
  | some p =>
    match p.exec, p.http, p.tcp with
    | some exec, _, _ => { timing p with kind := .exec, command := itemsOf exec.command }
    | none, some http, _ => { timing p with kind := .http, http := .ofPod http }
    | none, none, some tcp => { timing p with kind := .tcp, tcp := .ofPod tcp }
    | none, none, none => timing p

/-- `Container.ofPod volumes c` is the container in a request, with the mounts of the volumes that
the request has. -/
def Container.ofPod (volumes : List String) (c : Pod.Container) : Container where
  name := c.name
  image := textOr c.image
  imagePullPolicy := textOr c.imagePullPolicy
  tty := c.tty.getD false
  ports := (itemsOf c.ports).map Port.ofPod
  workingDir := textOr c.workingDir
  command := itemsOf c.command
  args := itemsOf c.args
  envs := (itemsOf c.env).map EnvVar.ofPod
  envSources := (itemsOf c.envFrom).map EnvSource.ofPod
  privileged := (c.securityContext.bind (·.privileged)).getD false
  resources := .ofPod c.resources
  mounts := ((itemsOf c.mounts).filter fun m => volumes.contains m.name).map Mount.ofPod
  startupProbe := .ofPod c.startupProbe
  livenessProbe := .ofPod c.livenessProbe
  readinessProbe := .ofPod c.readinessProbe

namespace PodRequest

/-- `volumesOf s` has the volumes of a Pod that a request can express. -/
def volumesOf (s : Pod.Spec) : List Volume :=
  (itemsOf s.volumes).filterMap Volume.ofPod?

/-- `ofPod p` is the request that describes the Pod `p`. -/
def ofPod (p : Pod) : PodRequest :=
  let spec := p.spec.getD {}
  let volumes := volumesOf spec
  let names := volumes.map (·.name)
  { base :=
      { name := textOr p.metadata.name
        ns := textOr p.metadata.ns
        labels := (p.metadata.labels.map KeyValue.ofMap).getD []
        restartPolicy := textOr spec.restartPolicy }
    tolerations := (itemsOf spec.tolerations).map Toleration.ofPod
    scheduling := .ofPod spec
    volumes
    networking := .ofPod spec
    initContainers := (itemsOf spec.initContainers).map (Container.ofPod names)
    containers := spec.containers.map (Container.ofPod names) }

end PodRequest

end PodDesk
