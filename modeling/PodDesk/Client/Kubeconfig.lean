import PodDesk.Client.Notation
import PodDesk.Json.Record

/-!
# Where the cluster is

A kubeconfig file lists clusters, users and contexts, each under a name. Its current context picks
the cluster and the user.
-/

namespace PodDesk.Client

/-- Which cluster a context means, and as which user. -/
structure Context where
  cluster : String
  user : String
  deriving DecidableEq, Repr

/-- A kubeconfig file. Of a cluster only its address matters here, and of a user only that it is
there. -/
structure Kubeconfig where
  clusters : List (String × Option (Option String)) := []
  users : List (String × Option Unit) := []
  contexts : List (String × Option Context) := []
  current : Option String := none
  deriving DecidableEq, Repr

namespace Kubeconfig

/-- `named kind codec` reads an entry of a list: what the codec reads, under a name. -/
def named {α : Type} (kind : String) (codec : Codec α) : Codec (String × Option α) :=
  .object (.cons (.required "name" .text) <| .cons (.optional kind codec) .nil)
    (fun (name, a, ()) => (name, a)) (fun (name, a) => (name, a, ()))

/-- `clusterCodec` reads the address of a cluster. -/
def clusterCodec : Codec (Option String) :=
  .object (.cons (.optional "server" .text) .nil) (fun (server, ()) => server)
    (fun server => (server, ()))

/-- `userCodec` reads a user, of whom nothing matters here. -/
def userCodec : Codec Unit :=
  .object .nil id id

def contextCodec : Codec Context :=
  .object (.cons (.required "cluster" .text) <| .cons (.required "user" .text) .nil)
    (fun (cluster, user, ()) => ⟨cluster, user⟩) (fun c => (c.cluster, c.user, ()))

/-- `codec` reads a file and writes it as JSON; missing lists are empty. -/
def codec : Codec Kubeconfig :=
  .object (.cons (.lenient "clusters" (named "cluster" clusterCodec).list []) <|
      .cons (.lenient "users" (named "user" userCodec).list []) <|
      .cons (.lenient "contexts" (named "context" contextCodec).list []) <|
      .cons (.optional "current-context" .text) .nil)
    (fun (clusters, users, contexts, current, ()) => { clusters, users, contexts, current })
    (fun k => (k.clusters, k.users, k.contexts, k.current, ()))

/-- `read? text` is the file that a text describes; an empty text says nothing. -/
def read? (text : String) : Option Kubeconfig :=
  match Notation.read? text with
  | some .null => some {}
  | some j => (codec.ofJson j).toOption
  | none => none

/-- `find? entries name` is what is listed under the name; the first entry with it counts. -/
def find? {α : Type} (entries : List (String × Option α)) (name : String) : Option α :=
  (entries.lookup name).join

/-- `isAddress s` says whether `s` can be an address: it has visible ASCII characters only. -/
def isAddress (s : String) : Bool :=
  ! s.isEmpty && s.toList.all fun c => 33 ≤ c.val && c.val < 127

/-- `k.server?` is the address of the cluster that the current context picks. The user of the
context has to be listed too. -/
def server? (k : Kubeconfig) : Option String := do
  let context ← find? k.contexts (← k.current)
  let cluster ← find? k.clusters context.cluster
  let _ ← find? k.users context.user
  cluster.filter isAddress

end Kubeconfig

end PodDesk.Client
