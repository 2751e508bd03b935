import PodDesk.Document.Models

/-!
# The interface description

The operations of the service and the whole description.
-/

namespace PodDesk.Document

/-- `namespaceParameter` is the namespace in a path. -/
def namespaceParameter : Parameter :=
  ⟨"namespace", .path, "Namespace"⟩

/-- `nameParameter` is the name of a Pod in a path. -/
def nameParameter : Parameter :=
  ⟨"name", .path, "Pod name"⟩

/-- `ok doc definition` is a response with a JSON body. -/
def ok (doc definition : String) : Answer :=
  ⟨200, doc, some ("application/json", .named definition)⟩

/-- `disconnected` is the response without a cluster. -/
def disconnected : Answer :=
  ⟨503, "No cluster connection", none⟩

/-- `noPod` is the response when there is no such Pod. -/
def noPod : Answer :=
  ⟨404, "Pod not found", none⟩

/-- `podPaths` has the operations on Pods, by their paths. -/
def podPaths : List (String × List Operation) :=
  [("/api/v1/k8s/pod", [{
      method := "post", tag := "pods", name := "create_or_update"
      summary := some "Create a Pod, or replace it when one already exists under the name"
      body := some (.named "PodRequest")
      answers := [ok "Pod created or replaced" "ReconcileResponse",
        ⟨400, "Request invalid or rejected by the cluster's dry run", none⟩,
        ⟨500, "Cluster call failed; details.podAbsent tells whether the Pod is gone", none⟩,
        disconnected] }]),
    ("/api/v1/k8s/pod/\x7bnamespace\x7d", [{
      method := "get", tag := "pods", name := "list", summary := some "List Pods in a namespace"
      parameters := [namespaceParameter, ⟨"keyword", .query, "Substring of the Pod name"⟩,
        ⟨"nodeName", .query, "Only Pods on this node"⟩]
      answers := [ok "Pod rows" "PodListResponse", disconnected] }]),
    ("/api/v1/k8s/pod/\x7bnamespace\x7d/\x7bname\x7d", [
      { method := "get", tag := "pods", name := "detail"
        summary := some "Get a Pod, in the same shape the create endpoint accepts"
        parameters := [namespaceParameter, nameParameter]
        answers := [ok "Pod detail" "PodDetailResponse", noPod, disconnected] },
      { method := "delete", tag := "pods", name := "delete", summary := some "Delete a Pod"
        parameters := [namespaceParameter, nameParameter]
        answers := [ok "Pod deleted" "PodDeleteResponse", noPod, disconnected] }])]

/-- `otherPaths` has the other operations, by their paths. -/
def otherPaths : List (String × List Operation) :=
  [("/api/v1/k8s/namespace", [{
      method := "get", tag := "namespaces", name := "list"
      summary := some "List cluster namespaces"
      answers := [ok "Namespaces" "NamespaceListResponse", disconnected] }]),
    ("/health", [{
      method := "get", tag := "cluster", name := "health_check"
      answers := [ok "Process is up" "HealthResponse"] }]),
    ("/api/cluster/status", [{
      method := "get", tag := "cluster", name := "cluster_status"
      summary := some "Get Kubernetes cluster connection status"
      answers := [ok "Cluster status" "ClusterStatusResponse"] }]),
    ("/metrics", [{
      method := "get", tag := "metrics", name := "metrics_handler"
      summary := some "Prometheus metrics endpoint"
      answers := [⟨200, "Prometheus text exposition", some ("text/plain", .text)⟩,
        ⟨404, "No recorder installed", none⟩] }])]

/-- `tags` has the groups of operations, with what they are about. -/
def tags : List (String × String) :=
  [("pods", "Pod create-or-replace, list, detail, delete"), ("namespaces", "Namespace listing"),
    ("cluster", "Process and cluster status"), ("metrics", "Prometheus metrics")]

/-- `info` is what the description says about itself. -/
def info : Json :=
  .obj [("title", .str "k8sadmin API"),
    ("description", .str ("Kubernetes admin back end.\n\n## Features\n" ++
      "- Create or replace Pods from a form-shaped spec\n" ++
      "- List, inspect and delete Pods\n- List namespaces")),
    ("contact", .obj [("name", .str "k8sadmin Team")]),
    ("license", .obj [("name", .str "MIT")]),
    ("version", .str "1.0.0")]

/-- `toJson` is the whole description, with `models` and the operations by their paths. -/
def toJson : Json :=
  .obj [("openapi", .str "3.0.3"), ("info", info),
    ("servers", .arr [.obj [("url", .str "http://localhost:8080"),
      ("description", .str "Local development server")]]),
    ("paths", .obj ((podPaths ++ otherPaths).map fun (path, operations) =>
      (path, .obj (operations.map (·.member))))),
    ("components", .obj [("schemas", .obj (models.map fun (name, d) => (name, d.schema)))]),
    ("tags", .arr (tags.map fun (name, doc) =>
      .obj [("name", .str name), ("description", .str doc)]))]

end PodDesk.Document
