import PodDesk.Proofs.Service.Refinement

/-!
# What the service lets through

The calls that change the cluster, and those that prepare a change, are made for two kinds of
requests alone: a submission that is acceptable starts a replacement, and a removal asks for one
deletion. Both need a connection, and a submission that is not acceptable is refused before the
connection is looked at.

## Main statements

- `Service.submission_of_replace`, `Service.removal_of_call`: the requests that the service lets
  through
- `Service.handle_unacceptable`, `Service.handle_disconnected`: the requests that it refuses
-/

namespace PodDesk

/-- The calls that change the cluster or prepare a change. -/
def CallKind.Mutates (kind : CallKind) : Prop :=
  kind ∈ [watch, dryRun, create, delete]

instance (kind : CallKind) : Decidable kind.Mutates :=
  inferInstanceAs (Decidable (_ ∈ _))

/-- The call that is made for the request itself, before any task of it makes one. -/
def Handling.call? : Handling → Option Call
  | ask query _ => some query.call
  | _ => none

/-- The path of a Pod with its namespace and its name as they are written. -/
def Endpoint.podPathOf (ns name : List Char) : List Char :=
  podsPath ++ '/' :: (ns ++ '/' :: name)

namespace Service

variable {s : Service} {r : Http.Request}

/-! ## What the service lets through -/

/-- `Service.handle` answers at once, or serves the request at an endpoint that allows its method.
-/
private theorem handle_cases (s : Service) (r : Http.Request) :
    (∃ response, s.handle r = .respond response) ∨
      ∃ endpoint, Endpoint.ofPath? r.path = some endpoint ∧ r.method ∈ endpoint.methods ∧
        s.handle r = s.serve r endpoint := by
  unfold handle
  split
  · exact .inl ⟨_, rfl⟩
  · rename_i endpoint hpath
    split
    · rename_i hmethod
      exact .inr ⟨endpoint, hpath, hmethod, rfl⟩
    · exact .inl ⟨_, rfl⟩

/-- `Service.asking` makes its call only when there is a cluster. -/
private theorem call?_asking {α : Type} (s : Service) (query : Query α)
    (problem : ClusterError → Problem) (decide : α → Http.Response) :
    (s.asking query problem decide).call? = if s.connected then some query.call else none := by
  unfold asking
  split <;> rfl

private theorem asking_ne_replace {α : Type} (s : Service) (query : Query α)
    (problem : ClusterError → Problem) (decide : α → Http.Response) (q : PodRequest) :
    s.asking query problem decide ≠ .replace q := by
  unfold asking
  split <;> exact nofun

/-- `Handling.replace` comes from an acceptable submission, with a connection. -/
theorem submission_of_replace {q : PodRequest} (h : s.handle r = .replace q) :
    s.connected = true ∧ (Command.submit q).AskedBy r := by
  obtain ⟨response, hresponse⟩ | ⟨endpoint, hpath, hmethod, hserve⟩ := s.handle_cases r
  · simp [hresponse] at h
  rw [hserve] at h
  -- Only the endpoint of all Pods starts replacements.
  cases endpoint with
  | pods =>
    simp only [serve, putPod] at h
    split at h
    · simp at h
    -- The body is read, the request is acceptable, and there is a cluster.
    · rename_i request hbody
      split at h
      · simp at h
      · rename_i hvalid
        split at h
        · rename_i hconnected
          obtain rfl : request = q := Handling.replace.inj h
          exact ⟨hconnected, by simpa [Endpoint.methods] using hmethod,
            Endpoint.ofPath?_eq_pods_iff.1 hpath, hbody, hvalid⟩
        · simp at h
  | clusterStatus =>
    simp only [serve, clusterStatus] at h
    split at h <;> simp at h
  | podList ns =>
    simp only [serve, listPods] at h
    split at h
    · exact absurd h (asking_ne_replace _ _ _ _ q)
    · simp at h
  | pod ns name =>
    simp only [serve, deletePod, showPod] at h
    repeat' split at h
    all_goals first
      | exact absurd h (asking_ne_replace _ _ _ _ q)
      | simp at h
  | namespaces => exact absurd h (asking_ne_replace _ _ _ _ q)
  | _ => simp [serve] at h

/-- `Handling.call?` is a mutating call only for a removal, with a connection. -/
theorem removal_of_call {call : Call} (h : (s.handle r).call? = some call)
    (hmutates : call.kind.Mutates) :
    s.connected = true ∧ r.method = "DELETE" ∧ ∃ ns name key,
      r.path = Endpoint.podPathOf ns name ∧ key? ns name = some key ∧
        call = .delete key (.background s.settings.gracePeriod) := by
  obtain ⟨response, hresponse⟩ | ⟨endpoint, hpath, -, hserve⟩ := s.handle_cases r
  · simp [hresponse, Handling.call?] at h
  rw [hserve] at h
  -- All other questions only look.
  have hlook : ∀ {α : Type} (query : Query α) (problem : ClusterError → Problem)
      (decide : α → Http.Response), ¬ query.call.kind.Mutates →
      (s.asking query problem decide).call? ≠ some call := by
    intro α query problem decide hquery hcall
    rw [call?_asking] at hcall
    split at hcall
    · exact hquery (Option.some.inj hcall ▸ hmutates)
    · simp at hcall
  -- The one endpoint that asks for more than a look is that of a Pod, by DELETE.
  cases endpoint with
  | pod ns name =>
    simp only [serve] at h
    split at h
    · rename_i hmethod
      simp only [deletePod] at h
      split at h
      · simp [Handling.call?] at h
      · rename_i key hkey
        rw [call?_asking] at h
        split at h
        · rename_i hconnected
          exact ⟨hconnected, hmethod, ns, name, key, (Endpoint.ofPath?_eq_pod_iff.1 hpath).1, hkey,
            (Option.some.inj h).symm⟩
        · simp at h
    · simp only [showPod] at h
      split at h
      · simp [Handling.call?] at h
      · exact absurd h (hlook _ _ _ (by simp [Query.call, Call.kind, CallKind.Mutates]))
  | podList ns =>
    simp only [serve, listPods] at h
    split at h
    · exact absurd h (hlook _ _ _ (by simp [Query.call, Call.kind, CallKind.Mutates]))
    · simp [Handling.call?] at h
  | namespaces => exact absurd h (hlook _ _ _ (by simp [Query.call, Call.kind, CallKind.Mutates]))
  | clusterStatus =>
    simp only [serve, clusterStatus] at h
    split at h
    · obtain rfl : Call.health = call := Option.some.inj h
      exact absurd hmutates (by decide)
    · simp [Handling.call?] at h
  | pods =>
    simp only [serve, putPod] at h
    repeat' split at h
    all_goals simp [Handling.call?] at h
  | _ => simp [serve, Handling.call?] at h

/-! ## What the service refuses -/

/-- `Service.handle` refuses an unacceptable submission, with or without a connection. -/
theorem handle_unacceptable {q : PodRequest} {v : Violation} (hmethod : r.method = "POST")
    (hpath : r.path = Endpoint.podsPath) (hbody : readBody r = .ok q)
    (hviolation : q.violation? = some v) :
    s.handle r = .respond (report (.validation v.field v.message)) := by
  simp [handle, hpath, Endpoint.ofPath?_pods, hmethod, Endpoint.methods, serve, putPod, hbody,
    hviolation]

/-- `NeedsCluster r` says that the request needs the cluster and has nothing else against it: what
it names can be decoded, and what it submits is acceptable. -/
inductive NeedsCluster (r : Http.Request) : Prop where
  | submit {q : PodRequest} (hasked : (Command.submit q).AskedBy r)
  | inspect {ns name : List Char} (hmethod : r.method = "GET" ∨ r.method = "HEAD")
      (hpath : r.path = Endpoint.podPathOf ns name) (hns : '/' ∉ ns) (hname : '/' ∉ name)
      (hne : name ≠ []) (hkey : (key? ns name).isSome)
  | remove {ns name : List Char} (hmethod : r.method = "DELETE")
      (hpath : r.path = Endpoint.podPathOf ns name) (hns : '/' ∉ ns) (hname : '/' ∉ name)
      (hne : name ≠ []) (hkey : (key? ns name).isSome)
  | enumerate {ns : List Char} (hmethod : r.method = "GET" ∨ r.method = "HEAD")
      (hpath : r.path = Endpoint.podsPath ++ '/' :: ns) (hslash : '/' ∉ ns) (hne : ns ≠ [])
      (hns : (Http.decodeSegment? ns).isSome)
      (hkeyword : (Http.Form.single? (Http.Form.pairs r.query) "keyword").isSome)
      (hnode : (Http.Form.single? (Http.Form.pairs r.query) "nodeName").isSome)
  | namespaces (hmethod : r.method = "GET" ∨ r.method = "HEAD")
      (hpath : r.path = "/api/v1/k8s/namespace".toList)

theorem NeedsCluster.method_ne (h : NeedsCluster r) : r.method ≠ "OPTIONS" := by
  cases h with
  | submit hasked => simp [hasked.1]
  | remove hmethod => simp [hmethod]
  | inspect hmethod => rcases hmethod with hmethod | hmethod <;> simp [hmethod]
  | enumerate hmethod => rcases hmethod with hmethod | hmethod <;> simp [hmethod]
  | namespaces hmethod => rcases hmethod with hmethod | hmethod <;> simp [hmethod]

/-- `Service.handle` refuses without a connection whatever `NeedsCluster`. -/
theorem handle_disconnected (hconnected : s.connected = false) (h : NeedsCluster r) :
    s.handle r = .respond (report noCluster) := by
  -- A look may ask for the head alone.
  have hread : ∀ endpoint : Endpoint, "GET" ∈ endpoint.methods → "HEAD" ∈ endpoint.methods →
      r.method = "GET" ∨ r.method = "HEAD" → r.method ∈ endpoint.methods := by
    rintro endpoint hget hhead (hmethod | hmethod) <;> rwa [hmethod]
  -- Each of them comes to the point where the connection is looked at.
  cases h with
  | submit hasked =>
    obtain ⟨hmethod, hpath, hbody, hvalid⟩ := hasked
    simp [handle, hpath, Endpoint.ofPath?_pods, hmethod, Endpoint.methods, serve, putPod, hbody,
      hvalid, hconnected]
  | @inspect ns name hmethod hpath hns hname hne hkey =>
    obtain ⟨key, hkey⟩ := Option.isSome_iff_exists.1 hkey
    have hdelete : r.method ≠ "DELETE" := by
      rcases hmethod with hmethod | hmethod <;> simp [hmethod]
    simp only [handle, hpath, Endpoint.podPathOf, Endpoint.ofPath?_pod_of hns hname hne]
    rw [if_pos (hread _ (by simp [Endpoint.methods]) (by simp [Endpoint.methods]) hmethod)]
    simp [serve, hdelete, showPod, hkey, asking, hconnected]
  | @remove ns name hmethod hpath hns hname hne hkey =>
    obtain ⟨key, hkey⟩ := Option.isSome_iff_exists.1 hkey
    simp [handle, hpath, Endpoint.podPathOf, Endpoint.ofPath?_pod_of hns hname hne, hmethod,
      Endpoint.methods, serve, deletePod, hkey, asking, hconnected]
  | @enumerate ns hmethod hpath hslash hne hns hkeyword hnode =>
    obtain ⟨ns', hns⟩ := Option.isSome_iff_exists.1 hns
    obtain ⟨keyword, hkeyword⟩ := Option.isSome_iff_exists.1 hkeyword
    obtain ⟨nodeName, hnode⟩ := Option.isSome_iff_exists.1 hnode
    simp only [handle, hpath, Endpoint.ofPath?_podList_of hslash hne]
    rw [if_pos (hread _ (by simp [Endpoint.methods]) (by simp [Endpoint.methods]) hmethod)]
    simp [serve, listPods, hns, hkeyword, hnode, asking, hconnected]
  | namespaces hmethod hpath =>
    have hendpoint : Endpoint.ofPath? "/api/v1/k8s/namespace".toList = some .namespaces := by
      decide
    simp only [handle, hpath, hendpoint]
    rw [if_pos (hread _ (by simp [Endpoint.methods]) (by simp [Endpoint.methods]) hmethod)]
    simp [serve, listNamespaces, asking, hconnected]

end Service

end PodDesk
