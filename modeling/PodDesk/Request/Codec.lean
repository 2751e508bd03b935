import PodDesk.Json.Record
import PodDesk.Request.Basic

/-!
# Pod requests as JSON

The records of a request, each described once by its fields in order. All fields have defaults but
the two of a key with its value. Every field is written, except the seconds of a toleration that has
none.
-/

namespace PodDesk

namespace Fields

/-- `text name rest` adds a text field, empty by default. -/
def text {τ : Type} (name : String) (rest : Fields τ) : Fields (String × τ) :=
  .cons (.defaulted name .text "") rest

/-- `flag name rest` adds a field that is false by default. -/
def flag {τ : Type} (name : String) (rest : Fields τ) : Fields (Bool × τ) :=
  .cons (.defaulted name .bool false) rest

/-- `int32 name rest` adds a field with a number of 32 bits, zero by default. -/
def int32 {τ : Type} (name : String) (rest : Fields τ) : Fields (Int32 × τ) :=
  .cons (.defaulted name .int32 0) rest

/-- `list` adds a field with a list, empty by default. -/
def list {α τ : Type} (name : String) (codec : Codec α) (rest : Fields τ) : Fields (List α × τ) :=
  .cons (.defaulted name codec.list []) rest

/-- `part` adds a field with a default of its type. -/
def part {α τ : Type} [Inhabited α] (name : String) (codec : Codec α) (rest : Fields τ) :
    Fields (α × τ) :=
  .cons (.defaulted name codec default) rest

end Fields

/-- `KeyValue.codec` has a key with its value; both are required. -/
def KeyValue.codec : Codec KeyValue :=
  .record (.cons (.required "key" .text) <| .cons (.required "value" .text) .nil)
    (fun (key, value, ()) => ⟨key, value⟩)
    (fun kv => (kv.key, kv.value, ()))

def Base.codec : Codec Base :=
  .record (.text "name" <| .text "namespace" <| .list "labels" KeyValue.codec <|
      .text "restartPolicy" .nil)
    (fun (name, ns, labels, restartPolicy, ()) => { name, ns, labels, restartPolicy })
    (fun b => (b.name, b.ns, b.labels, b.restartPolicy, ()))

def Toleration.codec : Codec Toleration :=
  .record (.text "key" <| .text "operator" <| .text "value" <| .text "effect" <|
      .cons (.optional "tolerationSeconds" .int64) .nil)
    (fun (key, operator, value, effect, seconds, ()) => { key, operator, value, effect, seconds })
    (fun t => (t.key, t.operator, t.value, t.effect, t.seconds, ()))

def SchedulingKind.codec : Codec SchedulingKind :=
  .choice all word

def NodeExpression.codec : Codec NodeExpression :=
  .record (.text "key" <| .text "operator" <| .text "value" .nil)
    (fun (key, operator, value, ()) => { key, operator, value })
    (fun e => (e.key, e.operator, e.value, ()))

def Scheduling.codec : Codec Scheduling :=
  .record (.part "type" SchedulingKind.codec <| .text "nodeName" <|
      .list "nodeSelector" KeyValue.codec <| .list "nodeAffinity" NodeExpression.codec .nil)
    (fun (kind, nodeName, selector, affinity, ()) => { kind, nodeName, selector, affinity })
    (fun s => (s.kind, s.nodeName, s.selector, s.affinity, ()))

def VolumeKind.codec : Codec VolumeKind :=
  .choice all word

/-- `ObjectRef.codec` has a config map or a secret by its name. -/
def ObjectRef.codec : Codec ObjectRef :=
  .record (.text "name" <| .flag "optional" .nil)
    (fun (name, isOptional, ()) => { name, isOptional })
    (fun r => (r.name, r.isOptional, ()))

def HostPath.codec : Codec HostPath :=
  .record (.text "type" <| .text "path" .nil)
    (fun (kind, path, ()) => { kind, path })
    (fun h => (h.kind, h.path, ()))

/-- `FieldFile.codec` has a file that shows a field of the Pod. -/
def FieldFile.codec : Codec FieldFile :=
  .record (.text "path" <| .text "fieldRefPath" .nil)
    (fun (path, fieldPath, ()) => { path, fieldPath })
    (fun f => (f.path, f.fieldPath, ()))

/-- `Codec.wrappedList name codec` has a record whose only field is a list. -/
def Codec.wrappedList {α : Type} (name : String) (codec : Codec α) : Codec (List α) :=
  .record (.list name codec .nil) (fun (items, ()) => items) (fun items => (items, ()))

/-- `Codec.wrappedText name` has a record whose only field is a text. -/
def Codec.wrappedText (name : String) : Codec String :=
  .record (.text name .nil) (fun (s, ()) => s) (fun s => (s, ()))

def Volume.codec : Codec Volume :=
  .record (.text "name" <| .part "type" VolumeKind.codec <|
      .part "configMapRefVolume" ObjectRef.codec <| .part "secretRefVolume" ObjectRef.codec <|
      .part "hostPathVolume" HostPath.codec <|
      .part "downwardAPIVolume" (Codec.wrappedList "items" FieldFile.codec) <|
      .part "PVCVolume" (Codec.wrappedText "name") .nil)
    (fun (name, kind, configMap, secret, hostPath, downward, claim, ()) =>
      { name, kind, configMap, secret, hostPath, downward, claim })
    (fun v => (v.name, v.kind, v.configMap, v.secret, v.hostPath, v.downward, v.claim, ()))

def Networking.codec : Codec Networking :=
  .record (.flag "hostNetwork" <| .text "hostName" <| .text "dnsPolicy" <|
      .part "dnsConfig" (Codec.wrappedList "nameservers" .text) <|
      .list "hostAliases" KeyValue.codec .nil)
    (fun (hostNetwork, hostName, dnsPolicy, nameservers, hostAliases, ()) =>
      { hostNetwork, hostName, dnsPolicy, nameservers, hostAliases })
    (fun n => (n.hostNetwork, n.hostName, n.dnsPolicy, n.nameservers, n.hostAliases, ()))

def Port.codec : Codec Port :=
  .record (.text "name" <| .int32 "containerPort" <| .int32 "hostPort" .nil)
    (fun (name, containerPort, hostPort, ()) => { name, containerPort, hostPort })
    (fun p => (p.name, p.containerPort, p.hostPort, ()))

def EnvKind.codec : Codec EnvKind :=
  .choice all word

def EnvVar.codec : Codec EnvVar :=
  .record (.text "name" <| .text "refName" <| .text "value" <| .part "type" EnvKind.codec .nil)
    (fun (name, refName, value, kind, ()) => { name, refName, value, kind })
    (fun e => (e.name, e.refName, e.value, e.kind, ()))

def EnvSourceKind.codec : Codec EnvSourceKind :=
  .choice all word

def EnvSource.codec : Codec EnvSource :=
  .record (.text "name" <| .part "refType" EnvSourceKind.codec <| .text "prefix" .nil)
    (fun (name, kind, namePrefix, ()) => { name, kind, namePrefix })
    (fun e => (e.name, e.kind, e.namePrefix, ()))

def Resources.codec : Codec Resources :=
  .record (.flag "enable" <| .int32 "memRequest" <| .int32 "memLimit" <| .int32 "cpuRequest" <|
      .int32 "cpuLimit" .nil)
    (fun (enabled, memRequest, memLimit, cpuRequest, cpuLimit, ()) =>
      { enabled, memRequest, memLimit, cpuRequest, cpuLimit })
    (fun r => (r.enabled, r.memRequest, r.memLimit, r.cpuRequest, r.cpuLimit, ()))

def Mount.codec : Codec Mount :=
  .record (.text "mountName" <| .text "mountPath" <| .flag "readOnly" .nil)
    (fun (volume, path, readOnly, ()) => { volume, path, readOnly })
    (fun m => (m.volume, m.path, m.readOnly, ()))

def ProbeKind.codec : Codec ProbeKind :=
  .choice all word

def HttpCheck.codec : Codec HttpCheck :=
  .record (.text "scheme" <| .text "host" <| .text "path" <| .int32 "port" <|
      .list "httpHeaders" KeyValue.codec .nil)
    (fun (scheme, host, path, port, headers, ()) => { scheme, host, path, port, headers })
    (fun h => (h.scheme, h.host, h.path, h.port, h.headers, ()))

def TcpCheck.codec : Codec TcpCheck :=
  .record (.text "host" <| .int32 "port" .nil)
    (fun (host, port, ()) => { host, port })
    (fun t => (t.host, t.port, ()))

def Probe.codec : Codec Probe :=
  .record (.flag "enable" <| .part "type" ProbeKind.codec <| .part "httpGet" HttpCheck.codec <|
      .part "exec" (Codec.wrappedList "command" .text) <| .part "tcpSocket" TcpCheck.codec <|
      .int32 "initialDelaySeconds" <| .int32 "periodSeconds" <| .int32 "timeoutSeconds" <|
      .int32 "successThreshold" <| .int32 "failureThreshold" .nil)
    (fun (enabled, kind, http, command, tcp, initialDelay, period, timeout, successThreshold,
        failureThreshold, ()) =>
      { enabled, kind, http, command, tcp, initialDelay, period, timeout, successThreshold,
        failureThreshold })
    (fun p => (p.enabled, p.kind, p.http, p.command, p.tcp, p.initialDelay, p.period, p.timeout,
      p.successThreshold, p.failureThreshold, ()))

def Container.codec : Codec Container :=
  .record (.text "name" <| .text "image" <| .text "imagePullPolicy" <| .flag "tty" <|
      .list "ports" Port.codec <| .text "workingDir" <| .list "command" .text <|
      .list "args" .text <| .list "envs" EnvVar.codec <| .list "envsFrom" EnvSource.codec <|
      .flag "privileged" <| .part "resources" Resources.codec <|
      .list "volumeMounts" Mount.codec <| .part "startupProbe" Probe.codec <|
      .part "livenessProbe" Probe.codec <| .part "readinessProbe" Probe.codec .nil)
    (fun (name, image, imagePullPolicy, tty, ports, workingDir, command, args, envs, envSources,
        privileged, resources, mounts, startupProbe, livenessProbe, readinessProbe, ()) =>
      { name, image, imagePullPolicy, tty, ports, workingDir, command, args, envs, envSources,
        privileged, resources, mounts, startupProbe, livenessProbe, readinessProbe })
    (fun c => (c.name, c.image, c.imagePullPolicy, c.tty, c.ports, c.workingDir, c.command, c.args,
      c.envs, c.envSources, c.privileged, c.resources, c.mounts, c.startupProbe, c.livenessProbe,
      c.readinessProbe, ()))

def PodRequest.codec : Codec PodRequest :=
  .record (.part "base" Base.codec <| .list "tolerations" Toleration.codec <|
      .part "nodeScheduling" Scheduling.codec <| .list "volumes" Volume.codec <|
      .part "netWorking" Networking.codec <| .list "initContainers" Container.codec <|
      .list "containers" Container.codec .nil)
    (fun (base, tolerations, scheduling, volumes, networking, initContainers, containers, ()) =>
      { base, tolerations, scheduling, volumes, networking, initContainers, containers })
    (fun r => (r.base, r.tolerations, r.scheduling, r.volumes, r.networking, r.initContainers,
      r.containers, ()))

end PodDesk
