import PodDesk.Proofs.Http.Form
import PodDesk.Proofs.MapValues
import PodDesk.Proofs.Pod.Rows
import PodDesk.Proofs.Service.Gate
import PodDesk.Proofs.Service.Report

/-!
# The list of the Pods in a namespace

A list is asked for with a text that is looked for in the names of the Pods, and with the node that
they are to be on. The service answers with the rows of the Pods that meet both conditions, in the
order in which the cluster listed them: every such Pod of the namespace has its one row.

## Main statements

- `Http.Request.listsPods_forList`: every list of a namespace can be asked for
- `Service.handle_listsPods`: what is made of whatever the cluster lists
- `Cluster.mem_podsIn_iff`, `Cluster.podsIn_sorted`: what the cluster lists
- `Session.lists_chosen_pods`: the answer to a request for a list
-/

namespace PodDesk

/-! ## Requests for a list -/

namespace Http

/-- `Form.single?` gives the value of a field that occurs once, and the empty text if it does not
occur. -/
theorem Form.single?_of_filter {pairs : List (String × String)} {name : String}
    {value? : Option String}
    (h : pairs.filter (·.1 = name) = value?.toList.map (name, ·)) :
    Form.single? pairs name = some (value?.getD "") := by
  rw [Form.single?, h]
  cases value? <;> rfl

/-- `r` asks for the Pods in a namespace, with a text that is looked for in their names and with the
node that they are to be on, as far as these are given. -/
structure Request.ListsPods (r : Request) (ns : String) (keyword? nodeName? : Option String) :
    Prop where
  method : r.method = "GET"
  path : ∃ segment, r.path = Endpoint.podsPath ++ '/' :: segment ∧ segment ≠ [] ∧
    '/' ∉ segment ∧ decodeSegment? segment = some ns
  keyword : (Form.pairs r.query).filter (·.1 = "keyword") = keyword?.toList.map ("keyword", ·)
  nodeName : (Form.pairs r.query).filter (·.1 = "nodeName") = nodeName?.toList.map ("nodeName", ·)

/-- The request for a list with these values, written by `encodeSegment` and `Form.write`. -/
def Request.forList (ns : String) (keyword? nodeName? : Option String) : Request where
  target := String.ofList (Endpoint.podsPath ++ '/' :: encodeSegment ns ++ '?' ::
    Form.write (keyword?.toList.map ("keyword", ·) ++ nodeName?.toList.map ("nodeName", ·)))

/-- `forList` asks for every list of a namespace, whatever is looked for. -/
theorem Request.listsPods_forList {ns : String} (hns : ns ≠ "")
    (keyword? nodeName? : Option String) :
    (forList ns keyword? nodeName?).ListsPods ns keyword? nodeName? := by
  have hpath : ∀ c ∈ Endpoint.podsPath ++ '/' :: encodeSegment ns, c ∉ ['#', '?'] := by
    have hpods : Endpoint.podsPath.all (· ∉ ['#', '?']) = true := by decide
    simp only [List.all_eq_true, decide_eq_true_eq] at hpods
    simp only [List.forall_mem_append, List.forall_mem_cons]
    refine ⟨hpods, by decide, fun c hc => ?_⟩
    have := (isSafe_of_mem_encodeSegment hc).inner
    simp_all
  obtain ⟨hpath, hquery⟩ := path_query_of_target (r := forList ns keyword? nodeName?)
    String.toList_ofList hpath (Form.hash_not_mem_write _)
  refine ⟨rfl, ⟨encodeSegment ns, hpath, encodeSegment_ne_nil hns, ?_,
    decodeSegment?_encodeSegment ns⟩, ?_, ?_⟩
  · intro hslash
    exact (isSafe_of_mem_encodeSegment hslash).inner (by decide)
  · rw [hquery, Form.pairs_write]
    cases keyword? <;> cases nodeName? <;> rfl
  · rw [hquery, Form.pairs_write]
    cases keyword? <;> cases nodeName? <;> rfl

end Http

namespace Service

/-- The data of a list, with every row as `PodRow.sent` writes it out. -/
def podList (rows : List PodRow) : Json :=
  .obj [("podList", .arr (rows.map PodRow.sent))]

/-- `Service.handle` asks the cluster for the Pods of the namespace, and each of those for which
`Pod.Meets` holds has its row. -/
theorem handle_listsPods {s : Service} {r : Http.Request} {ns : String}
    {keyword? nodeName? : Option String} (hconnected : s.connected = true)
    (h : r.ListsPods ns keyword? nodeName?) :
    ∃ decide, s.handle r = .ask (.list ns) decide ∧ ∀ pods, decide (.ok pods) =
      succeed (podList
        ((pods.filter (·.Meets (keyword?.getD "") (nodeName?.getD ""))).map PodRow.ofPod)) := by
  obtain ⟨segment, hpath, hne, hslash, hns⟩ := h.path
  have hendpoint : Endpoint.ofPath? r.path = some (.podList segment) := by
    rw [hpath]
    exact Endpoint.ofPath?_podList_of hslash hne
  have hhandle : s.handle r = s.listPods segment r.query := by
    simp [handle, hendpoint, h.method, Endpoint.methods, serve]
  rw [hhandle, listPods]
  simp only [hns, Http.Form.single?_of_filter h.keyword, Http.Form.single?_of_filter h.nodeName,
    asking, hconnected, if_true]
  refine ⟨_, rfl, ?_⟩
  intro pods
  rw [← PodQuery.filter_rows, podList, ← PodRow.encode_eq_sent]

end Service

/-! ## What the cluster lists -/

namespace Cluster

variable {c : Cluster} {ns : String}

/-- The Pods in a namespace with the names that they are stored under, in the order of the store. -/
def podsIn (c : Cluster) (ns : String) : List (String × Pod) :=
  (c.pods.entries.filter fun e => e.1.ns = ns).map fun e => (e.1.name, e.2)

/-- `Cluster.listPods` gives the Pods of the namespace when its call does not fail. -/
theorem listPods_of_error_eq_none {i : Incident} (h : i.error = none) :
    c.listPods i ns = .ok ((c.podsIn ns).map (·.2)) := by
  rw [listPods, h, podsIn, List.map_map]
  rfl

/-- `podsIn` holds the Pods that are stored under a key with the namespace. -/
theorem mem_podsIn_iff {name : String} {pod : Pod} :
    (name, pod) ∈ c.podsIn ns ↔ c.pods.get? ⟨ns, name⟩ = some pod := by
  simp only [podsIn, List.mem_map, List.mem_filter, decide_eq_true_eq]
  constructor
  · rintro ⟨⟨⟨_, _⟩, _⟩, ⟨hmem, rfl⟩, heq⟩
    cases heq
    exact SortedMap.get?_of_mem hmem
  · intro hget
    exact ⟨(⟨ns, name⟩, pod), ⟨SortedMap.mem_of_get? hget, rfl⟩, rfl⟩

/-- `podsIn` is ordered by the names. -/
theorem podsIn_sorted : (c.podsIn ns).Pairwise (·.1 < ·.1) := by
  refine List.pairwise_map.2 ((c.pods.sorted.filter _).imp_of_mem ?_)
  intro a b ha hb hlt
  have hns : a.1.ns = ns := of_decide_eq_true (List.mem_filter.1 ha).2
  exact PodKey.name_lt_of_lt hlt (hns.trans (of_decide_eq_true (List.mem_filter.1 hb).2).symm)

end Cluster

/-- `i.Answers patience` says that nothing goes wrong with a call, and that its answer comes while
the caller waits for it. -/
structure Incident.Answers (i : Incident) (patience : Option Nat) : Prop where
  error : i.error = none
  crash : i.crash = false
  heard : i.delay = 0 ∨ ∀ limit ∈ patience, i.delay < limit

/-- `World.ask` lists the Pods that are stored when the answer comes; asking changes none of them.
-/
theorem World.ask_list {w : World} (ns : String) {patience : Option Nat}
    (h : (w.cluster.incident .list).Answers patience) :
    ∃ answered : World,
      w.ask (.list ns) (patience.map (w.now + ·)) =
        (answered, .answered (.ok ((answered.cluster.podsIn ns).map (·.2)))) ∧
      ((w.cluster.incident .list).delay = 0 → answered.cluster.pods = w.cluster.pods) := by
  have hheard : (w.cluster.incident .list).delay = 0 ∨
      isHeard (patience.map (w.now + ·)) (w.now + (w.cluster.incident .list).delay) = true := by
    refine h.heard.imp_right fun hlimit => ?_
    cases patience with
    | none => rfl
    | some limit => simpa [isHeard] using hlimit
  have hentered : w.enter (Query.list ns).call =
      ((w.enter (.list ns)).1, w.cluster.incident .list) := rfl
  have hnow : (w.enter (.list ns)).1.now = w.now := rfl
  unfold ask
  rw [hentered]
  simp only [hnow, if_pos hheard, h.crash, Bool.false_eq_true, if_false, Query.answer,
    Cluster.listPods_of_error_eq_none h.error]
  refine ⟨_, rfl, ?_⟩
  intro hdelay
  rw [if_pos hdelay]
  rfl

namespace Session

variable {s : Session} {r : Http.Request} {ns : String} {keyword? nodeName? : Option String}

/-- `Session.step` with a request for a list asks the cluster, and its answer decides. -/
theorem step_list (hmethod : r.method = "GET") {patience : Option Nat}
    (hanswers : (s.settled.world.cluster.incident .list).Answers patience)
    {decide : Except ClusterError (List Pod) → Http.Response}
    (hhandle : s.settled.service.handle r = .ask (.list ns) decide) :
    ∃ answered : World,
      s.step (.request r patience) =
        ({ s.settled with world := answered }, .response (Service.send s.policy r
          (decide (.ok ((answered.cluster.podsIn ns).map (·.2)))))) ∧
      ((s.settled.world.cluster.incident .list).delay = 0 →
        answered.cluster.pods = s.settled.world.cluster.pods) := by
  obtain ⟨answered, hask, hpods⟩ := World.ask_list ns hanswers
  refine ⟨answered, ?_, hpods⟩
  have hpreflight : s.settled.policy.preflight? r = none := by
    simp [Http.OriginPolicy.preflight?, hmethod]
  have hrespond : s.settled.respond r (patience.map (s.settled.world.now + ·)) =
      (answered, .response (Service.send s.policy r
        (decide (.ok ((answered.cluster.podsIn ns).map (·.2)))))) := by
    unfold respond serve
    rw [hpreflight, hhandle]
    dsimp only
    rw [hask]
    rfl
  have hstep : s.step (.request r patience) =
      ({ s.settled with world := (s.settled.respond r (patience.map (s.settled.world.now + ·))).1 },
        (s.settled.respond r (patience.map (s.settled.world.now + ·))).2) := rfl
  rw [hstep, hrespond]

/-- `Session.step` answers a request for a list with the rows of the Pods that it asks for, each as
`PodRow.sent` writes it out. Whatever the cluster lists, the rows are those of the Pods that meet
the conditions, in the order of the list. So each of these Pods in the namespace has one row, in the
order of their names, and no other Pod has one. The rows show what the Pods are when the answer of
the cluster comes. -/
theorem lists_chosen_pods (hconnected : s.connected = true)
    (hlists : r.ListsPods ns keyword? nodeName?) {patience : Option Nat}
    (hanswers : (s.settled.world.cluster.incident .list).Answers patience) :
    let chosen := fun pod : Pod => pod.Meets (keyword?.getD "") (nodeName?.getD "")
    let after := (s.step (.request r patience)).1
    let reaction := (s.step (.request r patience)).2
    (∃ decide, s.settled.service.handle r = .ask (.list ns) decide ∧
      ∀ pods, (decide (.ok pods)).IsSuccess
        (Service.podList ((pods.filter (chosen ·)).map PodRow.ofPod))) ∧
    (∃ (response : Http.Response) (listed : List (String × Pod)),
      reaction = .response response ∧ response.headOnly = false ∧
      response.IsSuccess (Service.podList (listed.map fun e => PodRow.ofPod e.2)) ∧
      listed.Pairwise (·.1 < ·.1) ∧
      ∀ name pod, (name, pod) ∈ listed ↔
        after.world.cluster.pods.get? ⟨ns, name⟩ = some pod ∧ chosen pod) ∧
    ((s.settled.world.cluster.incident .list).delay = 0 →
      after.world.cluster.pods = s.settled.world.cluster.pods) ∧
    ∀ pod, (PodRow.ofPod pod).Shows pod := by
  intro chosen after reaction
  obtain ⟨decide, hhandle, hdecide⟩ :=
    Service.handle_listsPods (s := s.settled.service) hconnected hlists
  obtain ⟨answered, hstep, hpods⟩ := step_list hlists.method hanswers hhandle
  -- The list is that of the world in which the cluster answers, and the step ends in that world.
  have hafter : after.world = answered := congrArg (·.1.world) hstep
  rw [hafter]
  refine ⟨⟨decide, hhandle, ?_⟩, ⟨_, (answered.cluster.podsIn ns).filter (chosen ·.2),
    congrArg Prod.snd hstep, ?_, ?_, ?_, ?_⟩, hpods, PodRow.ofPod_shows⟩
  · intro pods
    rw [hdecide]
    exact ⟨rfl, rfl⟩
  · simp [Service.send, Http.OriginPolicy.attach, hlists.method]
  · rw [hdecide, List.filter_map, List.map_map]
    exact ⟨rfl, rfl⟩
  · exact Cluster.podsIn_sorted.filter _
  · intro name pod
    rw [List.mem_filter, Cluster.mem_podsIn_iff, decide_eq_true_eq]

/-- A Pod on a node; one of its two containers is ready. -/
def nodePod (name node : String) : Pod where
  metadata := { name := some name, ns := some "prod" }
  spec := some { nodeName := some node }
  status := some {
    phase := some "Running"
    containers := some [{ ready := true, restartCount := 2 }, { restartCount := 1 }] }

/-- A session with three Pods on two nodes. -/
def nodeSession : Session where
  settings := {}
  policy := ⟨[]⟩
  recording := false
  connected := true
  world := {
    cluster := {
      pods := .ofList [(⟨"prod", "db-1"⟩, nodePod "db-1" "node-a"),
        (⟨"prod", "web-1"⟩, nodePod "web-1" "node-a"),
        (⟨"prod", "web-2"⟩, nodePod "web-2" "node-b")] } }

/-- Of the Pods with `web` in their names the one on `node-a` is listed, with one of its two
containers ready and three restarts. -/
theorem nodeSession_lists_web :
    ∃ (response : Http.Response) (listed : List (String × Pod)) (rows : List Json),
      (nodeSession.step (.request (.forList "prod" (some "web") (some "node-a")) none)).2 =
        .response response ∧
      response.IsSuccess (.obj [("podList", .arr rows)]) ∧
      rows.length = listed.length ∧
      .obj [("name", .str "web-1"), ("ready", .str "1/2"), ("status", .str "Running"),
        ("restarts", .num (.integer 3)), ("age", .num (.integer 0)), ("IP", .str ""),
        ("node", .str "node-a")] ∈ rows ∧
      ("web-1", nodePod "web-1" "node-a") ∈ listed ∧
      ("web-2", nodePod "web-2" "node-b") ∉ listed ∧
      ("db-1", nodePod "db-1" "node-a") ∉ listed := by
  have hlists : (Http.Request.forList "prod" (some "web") (some "node-a")).ListsPods "prod"
      (some "web") (some "node-a") := Http.Request.listsPods_forList (by decide) _ _
  have hanswers : (nodeSession.settled.world.cluster.incident .list).Answers none :=
    ⟨rfl, rfl, .inl rfl⟩
  obtain ⟨-, ⟨response, listed, hreaction, -, hsuccess, -, hmem⟩, hpods, -⟩ :=
    lists_chosen_pods (s := nodeSession) rfl hlists hanswers
  rw [hpods rfl] at hmem
  have hweb : ("web-1", nodePod "web-1" "node-a") ∈ listed :=
    (hmem _ _).2 ⟨by decide, by decide⟩
  refine ⟨response, listed, _, hreaction, hsuccess, by simp, ?_, hweb, ?_, ?_⟩
  · exact List.mem_map.2 ⟨_, List.mem_map_of_mem hweb, rfl⟩
  · intro hlisted
    exact absurd ((hmem _ _).1 hlisted).2 (by decide)
  · intro hlisted
    exact absurd ((hmem _ _).1 hlisted).2 (by decide)

end Session

end PodDesk
