import PodDesk.Cluster.Query
import PodDesk.Document.Whole
import PodDesk.Http.MediaType
import PodDesk.Http.Origin
import PodDesk.Http.Percent
import PodDesk.Pod.Listing
import PodDesk.Replacement.Timeline
import PodDesk.Request.Codec
import PodDesk.Request.OfPod
import PodDesk.Request.Validation
import PodDesk.Service.Envelope
import PodDesk.Settings.Basic

/-!
# What the service does about a request

`Endpoint.ofPath?` finds the endpoint of a path and `Service.handle` says what happens to a request:
it is answered at once, the cluster is asked one question, or a replacement is started. Nothing else
reaches the cluster.
-/

namespace PodDesk

/-- What requests are about. Parts of the path that stand for names are kept as they were written.
-/
inductive Endpoint where
  | health
  | clusterStatus
  | pods
  | podList (ns : List Char)
  | pod (ns name : List Char)
  | namespaces
  | metrics
  | document
  deriving DecidableEq, Repr

namespace Endpoint

/-- `ofSegments?` is the endpoint for the segments of a path. A path does not end in an empty
segment. -/
def ofSegments? : List (List Char) → Option Endpoint
  | [a] =>
    if a = "health".toList then some health
    else if a = "metrics".toList then some metrics
    else none
  | [a, b] => if [a, b] = ["api-docs".toList, "openapi.json".toList] then some document else none
  | [a, b, c] =>
    if [a, b, c] = ["api".toList, "cluster".toList, "status".toList] then some clusterStatus
    else none
  | a :: b :: c :: d :: names =>
    if [a, b, c] = ["api".toList, "v1".toList, "k8s".toList] then
      match names with
      | [] =>
        if d = "pod".toList then some pods
        else if d = "namespace".toList then some namespaces
        else none
      | [ns] => if d = "pod".toList ∧ ns ≠ [] then some (podList ns) else none
      | [ns, name] => if d = "pod".toList ∧ name ≠ [] then some (pod ns name) else none
      | _ => none
    else none
  | _ => none

/-- `ofPath? path` is the endpoint that the path leads to. -/
def ofPath? (path : List Char) : Option Endpoint :=
  match path with
  | '/' :: cs => ofSegments? (Text.splitAtEach '/' cs)
  | _ => none

/-- `Endpoint.methods` has the methods that an endpoint allows. -/
def methods : Endpoint → List String
  | pods => ["POST"]
  | pod _ _ => ["GET", "HEAD", "DELETE"]
  | _ => ["GET", "HEAD"]

end Endpoint

/-- What happens to a request. -/
inductive Handling where
  /-- It is answered at once. -/
  | respond (response : Http.Response)
  /-- The cluster is asked a question, and the answer decides. -/
  | ask {α : Type} (query : Query α) (decide : Except ClusterError α → Http.Response)
  /-- A replacement is started, and its outcome decides. -/
  | replace (request : PodRequest)

/-- What the service knows when a request arrives. -/
structure Service where
  settings : Settings := {}
  /-- Whether there is a cluster. -/
  connected : Bool := true
  /-- The figures, if they are recorded. -/
  metrics : Option Metrics := none

namespace Service

/-- `version` is the version of the service. -/
def version : String := "0.1.0"

/-- `maxBodySize` is how many bytes a body may have. -/
def maxBodySize : Nat := 2 * 1024 * 1024

/-- `report p` is the response that reports the problem `p`. -/
def report (p : Problem) : Http.Response :=
  (Envelope.ofProblem p).response

/-- `succeed data` is the response that carries the data. -/
def succeed (data : Json) : Http.Response :=
  (Envelope.success data).response

/-- `noCluster` is the problem of having no cluster. -/
def noCluster : Problem :=
  .unavailable "Kubernetes cluster not available"

/-- `noPod key` is the problem of having no such Pod. -/
def noPod (key : PodKey) : Problem :=
  .notFound ("Pod " ++ key.ns ++ "/" ++ key.name ++ " not found")

/-- `s.asking` asks the cluster; an error is reported as a problem. -/
def asking {α : Type} (s : Service) (query : Query α) (problem : ClusterError → Problem)
    (decide : α → Http.Response) : Handling :=
  if s.connected then
    .ask query fun
      | .ok a => decide a
      | .error e => report (problem e)
  else .respond (report noCluster)

/-- `statusBody` tells whether the cluster answers. -/
def statusBody (connected : Bool) (message : String) (version : Option String) : Json :=
  .ofMembers? [("connected", some (.bool connected)), ("message", some (.str message)),
    ("version", version.map .str)]

/-- `s.clusterStatus` asks how the cluster is, and tells it. -/
def clusterStatus (s : Service) : Handling :=
  if s.connected then
    .ask .health fun
      | .ok version =>
        .json 200 (statusBody true "Kubernetes cluster connected" (some version))
      | .error e =>
        .json 200 (statusBody false ("Kubernetes cluster unhealthy: " ++ e.display) none)
  else .respond (.json 200 (statusBody false noCluster.display none))

/-- `s.listPods ns query` lists the Pods of the namespace that the query accepts. -/
def listPods (s : Service) (ns : List Char) (query : List Char) : Handling :=
  let pairs := Http.Form.pairs query
  match Http.decodeSegment? ns, Http.Form.single? pairs "keyword",
    Http.Form.single? pairs "nodeName" with
  | some ns, some keyword, some nodeName =>
    s.asking (.list ns) .cluster fun pods =>
      let rows := (pods.map PodRow.ofPod).filter (PodQuery.accepts ⟨keyword, nodeName⟩)
      succeed (.obj [("podList", .arr (rows.map PodRow.codec.encode))])
  | _, _, _ => .respond (.rejection 400)

/-- `key? ns name` is the key that two segments of a path name. -/
def key? (ns name : List Char) : Option PodKey := do
  let ns ← Http.decodeSegment? ns
  let name ← Http.decodeSegment? name
  some ⟨ns, name⟩

/-- `s.showPod ns name` shows a Pod as a request that would bring it about. -/
def showPod (s : Service) (ns name : List Char) : Handling :=
  match key? ns name with
  | none => .respond (.rejection 400)
  | some key =>
    s.asking (.lookup key) .cluster fun
      | some pod => succeed (.obj [("pod", PodRequest.codec.encode (.ofPod pod))])
      | none => report (noPod key)

/-- `s.deletePod ns name` has the Pod deleted. -/
def deletePod (s : Service) (ns name : List Char) : Handling :=
  match key? ns name with
  | none => .respond (.rejection 400)
  | some key =>
    s.asking (.delete key (.background s.settings.gracePeriod))
      (fun e => if e.isNotFound then noPod key else .cluster e)
      fun _ => succeed (.obj [("deleted", .bool true)])

/-- `s.listNamespaces` lists the namespaces, each with how it is doing. -/
def listNamespaces (s : Service) : Handling :=
  s.asking .namespaces .cluster fun namespaces =>
    succeed (.obj [("namespaces",
      .arr (namespaces.map fun n => NamespaceRow.codec.encode (.ofNamespace n)))])

/-- `samples m` has the figures about replacements. -/
def samples (m : Metrics) : List Sample :=
  let total := "k8sadmin_pod_reconcile_total"
  let duration := "k8sadmin_pod_reconcile_duration_seconds"
  if m.count = 0 then []
  else
    .kind total "counter" ::
      (m.counts.entries.map fun (outcome, n) => .count total (some ("outcome", outcome)) n) ++
      [.kind duration "summary", .duration (duration ++ "_sum") m.total,
        .count (duration ++ "_count") none m.count]

/-- `s.showMetrics` shows the figures, if they are recorded. -/
def showMetrics (s : Service) : Http.Response :=
  match s.metrics with
  | some m => ⟨200, .samples (samples m), none, [], false⟩
  | none => ⟨404, .text "metrics recorder not installed\n", none, [], false⟩

/-- `readBody r` is the request in a body, or the rejection of the body. Text after the first value
is ignored. -/
def readBody (r : Http.Request) : Except Http.Response PodRequest :=
  if ! ((r.header? "content-type").bind Http.MediaType.parse?).any (·.isJson) then
    .error (.rejection 415)
  else if maxBodySize < r.body.utf8ByteSize then .error (.rejection 413)
  else
    match PodRequest.codec.decode (Doc.read r.body).doc with
    | .ok request => .ok request
    | .error .mismatch => .error (.rejection 422)
    | .error _ => .error (.rejection 400)

/-- `s.putPod r` starts the replacement of a Pod, if the request is acceptable. -/
def putPod (s : Service) (r : Http.Request) : Handling :=
  match readBody r with
  | .error rejection => .respond rejection
  | .ok request =>
    match request.violation? with
    | some v => .respond (report (.validation v.field v.message))
    | none => if s.connected then .replace request else .respond (report noCluster)

/-- `s.serve r` is what happens to the request `r` with a method that its endpoint allows. -/
def serve (s : Service) (r : Http.Request) : Endpoint → Handling
  | .health => .respond (.json 200 (.obj [("status", .str "ok"), ("version", .str version)]))
  | .clusterStatus => s.clusterStatus
  | .pods => s.putPod r
  | .podList ns => s.listPods ns r.query
  | .pod ns name => if r.method = "DELETE" then s.deletePod ns name else s.showPod ns name
  | .namespaces => s.listNamespaces
  | .metrics => .respond s.showMetrics
  | .document => .respond (.json 200 Document.toJson)

/-- `s.handle r` is what happens to the request `r`. -/
def handle (s : Service) (r : Http.Request) : Handling :=
  match Endpoint.ofPath? r.path with
  | none => .respond (.bare 404)
  | some endpoint =>
    if r.method ∈ endpoint.methods then s.serve r endpoint
    else
      .respond { Http.Response.bare 405 with
        allow := some (Text.CommaList.join endpoint.methods) }

/-- `afterReplacement` is the response to a request that started a replacement, once the replacement
is over. -/
def afterReplacement : Outcome → Http.Response
  | .ok done => succeed (.obj [("namespace", .str done.key.ns), ("name", .str done.key.name),
      ("action", .str done.action), ("message", .str done.message)])
  | .error failure => report (.replacement failure)

/-- `afterCrash` is the response when a replacement crashed. -/
def afterCrash : Http.Response :=
  report (.internal "Pod reconcile task failed: ...")

/-- `send` is the response as it is sent: to a request for the head only, without its body, and with
the headers for other origins. -/
def send (policy : Http.OriginPolicy) (r : Http.Request) (response : Http.Response) :
    Http.Response :=
  policy.attach r { response with headOnly := r.method = "HEAD" }

end Service

end PodDesk
