import PodDesk.Cluster.Scripted

/-!
# Questions to the cluster

A question is one call with an answer of a known type.
-/

namespace PodDesk

/-- A question to the cluster, by the type of its answer. -/
inductive Query : Type → Type where
  | health : Query String
  | lookup (key : PodKey) : Query (Option Pod)
  | list (ns : String) : Query (List Pod)
  | namespaces : Query (List Namespace)
  | delete (key : PodKey) (params : DeleteParams) : Query Unit

namespace Query

/-- `Query.call` is the call that a question makes. -/
def call : {α : Type} → Query α → Call
  | _, health => .health
  | _, lookup key => .get key
  | _, list ns => .list ns
  | _, namespaces => .listNamespaces
  | _, delete key params => .delete key params

/-- `Query.answer` is the cluster after it answered a question, and the answer. -/
def answer (c : Cluster) (i : Incident) (now : Nat) :
    {α : Type} → Query α → Cluster × Except ClusterError α
  | _, health => (c, c.health i)
  | _, lookup key => (c, c.lookup i key)
  | _, list ns => (c, c.listPods i ns)
  | _, namespaces => (c, c.listNamespaces i)
  | _, delete key _ => c.delete i now key

end Query

end PodDesk
