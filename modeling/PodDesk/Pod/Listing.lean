import PodDesk.Json.Record
import PodDesk.Pod.Basic

/-!
# Rows of lists

The rows that stand for Pods and namespaces in lists, and the query that chooses rows.
-/

namespace PodDesk

/-- A Pod in a list. -/
structure PodRow where
  name : String
  ready : String
  status : String
  restarts : Int32
  age : Int64
  ip : String
  node : String
  deriving DecidableEq, Repr

/-- A namespace in a list. -/
structure NamespaceRow where
  name : String
  created : Int64
  status : String
  deriving DecidableEq, Repr

/-- Which rows are wanted: a text within the name, and a node. -/
structure PodQuery where
  keyword : String := ""
  nodeName : String := ""
  deriving DecidableEq, Repr, Inhabited

namespace PodRow

/-- `statuses p` has the states of the containers of the Pod `p`. -/
def statuses (p : Pod) : List Pod.ContainerStatus :=
  (p.status.bind (·.containers)).getD []

/-- `ofPod p` is the row of the Pod `p`. A Pod is running when its phase says so, and in error
otherwise. -/
def ofPod (p : Pod) : PodRow where
  name := p.metadata.name.getD ""
  ready :=
    let states := statuses p
    toString (states.filter (·.ready)).length ++ "/" ++ toString states.length
  status := if p.status.bind (·.phase) = some "Running" then "Running" else "Error"
  restarts := ((statuses p).map (·.restartCount)).sum
  age := Int64.ofInt ((p.metadata.created.map (·.seconds)).getD 0)
  ip := (p.status.bind (·.podIP)).getD ""
  node := (p.spec.bind (·.nodeName)).getD ""

/-- `codec` has a row as an object, whose fields are all required. -/
def codec : Codec PodRow :=
  .record (.cons (.required "name" .text) <| .cons (.required "ready" .text) <|
      .cons (.required "status" .text) <| .cons (.required "restarts" .int32) <|
      .cons (.required "age" .int64) <| .cons (.required "IP" .text) <|
      .cons (.required "node" .text) .nil)
    (fun (name, ready, status, restarts, age, ip, node, ()) =>
      { name, ready, status, restarts, age, ip, node })
    (fun r => (r.name, r.ready, r.status, r.restarts, r.age, r.ip, r.node, ()))

end PodRow

namespace NamespaceRow

def ofNamespace (n : Namespace) : NamespaceRow where
  name := n.metadata.name.getD ""
  created := Int64.ofInt ((n.metadata.created.map (·.seconds)).getD 0)
  status := (n.status.bind id).getD ""

/-- `codec` has a row as an object, whose fields are all required. -/
def codec : Codec NamespaceRow :=
  .record (.cons (.required "name" .text) <| .cons (.required "creationTimestamp" .int64) <|
      .cons (.required "status" .text) .nil)
    (fun (name, created, status, ()) => { name, created, status })
    (fun r => (r.name, r.created, r.status, ()))

end NamespaceRow

namespace PodQuery

def codec : Codec PodQuery :=
  .record (.cons (.defaulted "keyword" .text "") <| .cons (.defaulted "nodeName" .text "") .nil)
    (fun (keyword, nodeName, ()) => { keyword, nodeName })
    (fun q => (q.keyword, q.nodeName, ()))

/-- `occursIn needle` says whether `needle` is a run of characters within another text. -/
def occursIn (needle : List Char) : List Char → Bool
  | [] => needle.isEmpty
  | c :: cs => needle.isPrefixOf (c :: cs) || occursIn needle cs

/-- `q.accepts row` says whether the row is wanted. An empty node name asks for no node in
particular. -/
def accepts (q : PodQuery) (row : PodRow) : Bool :=
  (q.nodeName.isEmpty || row.node == q.nodeName) && occursIn q.keyword.toList row.name.toList

end PodQuery

end PodDesk
