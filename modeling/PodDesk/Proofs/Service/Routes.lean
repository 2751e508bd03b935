import PodDesk.Proofs.Http.Segment
import PodDesk.Proofs.Text.CommaList
import PodDesk.Service.Api

/-!
# The requests about Pods

What the service does about the requests for the Pods: a submitted Pod starts a replacement, and
each of the others asks the cluster one question.

## Main statements

- `Endpoint.ofPath?_eq_pods_iff`, `Endpoint.ofPath?_eq_pod_iff`: the paths of the endpoints
- `Endpoint.ofPath?_podList`, `Endpoint.ofPath?_pod`: the endpoints of the paths with labels in them
- `Service.handle_submit`, `Service.handle_inspect`, `Service.handle_remove`,
  `Service.handle_enumerate`: what happens to the requests
-/

namespace PodDesk

/-- `s` is a label of the domain name system: `labelViolation?` finds nothing wrong with it. -/
def IsLabel (s : String) : Prop :=
  labelViolation? s maxLabelLength = none

instance (s : String) : Decidable (IsLabel s) :=
  inferInstanceAs (Decidable (_ = _))

namespace IsLabel

variable {s : String}

theorem ne_nil (h : IsLabel s) : s.toList ≠ [] := by
  intro hnil
  simp [IsLabel, labelViolation?, hnil] at h

theorem isLabelChar (h : IsLabel s) : ∀ c ∈ s.toList, isLabelChar c := by
  unfold IsLabel labelViolation? at h
  dsimp only at h
  -- Every branch but one reports a violation.
  split at h
  · simp at h
  · split at h
    · simp at h
    · split at h
      · rename_i hgood
        simp only [Bool.and_eq_true, List.all_eq_true] at hgood
        exact hgood.1.1
      · simp at h

/-- `Http.decodeSegment?` takes a label for itself. -/
theorem decodeSegment? (h : IsLabel s) : Http.decodeSegment? s.toList = some s := by
  rw [Http.decodeSegment?_of_label h.isLabelChar, String.ofList_toList]

theorem slash_not_mem (h : IsLabel s) : '/' ∉ s.toList :=
  Http.slash_not_mem_of_label h.isLabelChar

end IsLabel

namespace Endpoint

/-! ## Paths -/

/-- The path of all Pods. -/
def podsPath : List Char :=
  "/api/v1/k8s/pod".toList

/-- The path of the Pods in a namespace. -/
def listPath (ns : String) : List Char :=
  podsPath ++ '/' :: ns.toList

/-- The path of a Pod. -/
def podPath (key : PodKey) : List Char :=
  listPath key.ns ++ '/' :: key.name.toList

theorem ofPath?_pods : ofPath? podsPath = some .pods := by
  decide

/-- `Text.splitAtEach` cuts a path below that of all Pods at its four fixed slashes. -/
private theorem segments_below (rest : List Char) :
    Text.splitAtEach '/' ("api/v1/k8s/pod".toList ++ '/' :: rest) =
      "api".toList :: "v1".toList :: "k8s".toList :: "pod".toList ::
        Text.splitAtEach '/' rest := by
  have hpath : "api/v1/k8s/pod".toList ++ '/' :: rest = "api".toList ++ '/' :: ("v1".toList ++
      '/' :: ("k8s".toList ++ '/' :: ("pod".toList ++ '/' :: rest))) := rfl
  rw [hpath]
  -- Each of the four fixed segments ends at its slash.
  rw [Text.splitAtEach_append (by decide), Text.splitAtEach_append (by decide),
    Text.splitAtEach_append (by decide), Text.splitAtEach_append (by decide)]

/-- `ofPath?` of the path of a namespace, as the segment is written. -/
theorem ofPath?_podList_of {ns : List Char} (hslash : '/' ∉ ns) (hne : ns ≠ []) :
    ofPath? (podsPath ++ '/' :: ns) = some (.podList ns) := by
  show ofSegments? (Text.splitAtEach '/' ("api/v1/k8s/pod".toList ++ '/' :: ns)) = _
  rw [segments_below, Text.splitAtEach_of_not_mem hslash]
  simp [ofSegments?, hne]

/-- `ofPath?` of the path of a Pod, as the segments are written. -/
theorem ofPath?_pod_of {ns name : List Char} (hns : '/' ∉ ns) (hname : '/' ∉ name)
    (hne : name ≠ []) : ofPath? (podsPath ++ '/' :: (ns ++ '/' :: name)) = some (.pod ns name) := by
  show ofSegments? (Text.splitAtEach '/'
    ("api/v1/k8s/pod".toList ++ '/' :: (ns ++ '/' :: name))) = _
  rw [segments_below, Text.splitAtEach_append hns, Text.splitAtEach_of_not_mem hname]
  simp [ofSegments?, hne]

theorem ofPath?_podList {ns : String} (h : IsLabel ns) :
    ofPath? (listPath ns) = some (.podList ns.toList) :=
  ofPath?_podList_of h.slash_not_mem h.ne_nil

theorem ofPath?_pod {key : PodKey} (hns : IsLabel key.ns) (hname : IsLabel key.name) :
    ofPath? (podPath key) = some (.pod key.ns.toList key.name.toList) := by
  rw [podPath, listPath, List.append_assoc, List.cons_append]
  exact ofPath?_pod_of hns.slash_not_mem hname.slash_not_mem hname.ne_nil

/-- `ofSegments?` gives `pods` for four segments that end in `pod` and for no others, and `pod` only
for these with two more. -/
private theorem segments_of_pods {segments : List (List Char)} {endpoint : Endpoint}
    (h : ofSegments? segments = some endpoint) :
    (endpoint = .pods → segments = ["api".toList, "v1".toList, "k8s".toList, "pod".toList]) ∧
    ∀ ns name, endpoint = .pod ns name →
      segments = ["api".toList, "v1".toList, "k8s".toList, "pod".toList, ns, name] ∧
        name ≠ [] := by
  unfold ofSegments? at h
  repeat' split at h
  all_goals cases h
  all_goals simp_all

/-- `ofPath?` looks at the segments after the first slash. -/
private theorem segments_of_ofPath? {path : List Char} {endpoint : Endpoint}
    (h : ofPath? path = some endpoint) :
    ∃ cs, path = '/' :: cs ∧ ofSegments? (Text.splitAtEach '/' cs) = some endpoint := by
  unfold ofPath? at h
  split at h
  · exact ⟨_, rfl, h⟩
  · simp at h

/-- `ofPath?` gives `pods` for the one path of all Pods. -/
theorem ofPath?_eq_pods_iff {path : List Char} : ofPath? path = some .pods ↔ path = podsPath := by
  refine ⟨fun h => ?_, fun h => h ▸ ofPath?_pods⟩
  obtain ⟨cs, rfl, hsegments⟩ := segments_of_ofPath? h
  have hsplit := (segments_of_pods hsegments).1 rfl
  have hpath : Text.splitAtEach '/' cs = Text.splitAtEach '/' "api/v1/k8s/pod".toList :=
    hsplit.trans (by decide)
  rw [Text.splitAtEach_inj hpath]
  rfl

/-- `ofPath?` gives `pod` exactly for the path of all Pods with a namespace and a name below it. -/
theorem ofPath?_eq_pod_iff {path ns name : List Char} :
    ofPath? path = some (.pod ns name) ↔
      path = podsPath ++ '/' :: (ns ++ '/' :: name) ∧ '/' ∉ ns ∧ '/' ∉ name ∧ name ≠ [] := by
  constructor
  · intro h
    obtain ⟨cs, rfl, hsegments⟩ := segments_of_ofPath? h
    obtain ⟨hsplit, hne⟩ := (segments_of_pods hsegments).2 ns name rfl
    have hslash : ∀ part ∈ Text.splitAtEach '/' cs, '/' ∉ part :=
      fun part => Text.not_mem_of_mem_splitAtEach
    have hns : '/' ∉ ns := hslash ns (by simp [hsplit])
    have hname : '/' ∉ name := hslash name (by simp [hsplit])
    refine ⟨?_, hns, hname, hne⟩
    -- A path is known from its segments, since splitting can be undone.
    have hpath : Text.splitAtEach '/' cs =
        Text.splitAtEach '/' ("api/v1/k8s/pod".toList ++ '/' :: (ns ++ '/' :: name)) := by
      rw [segments_below, Text.splitAtEach_append hns, Text.splitAtEach_of_not_mem hname]
      exact hsplit
    rw [Text.splitAtEach_inj hpath]
    rfl
  · rintro ⟨rfl, hns, hname, hne⟩
    exact ofPath?_pod_of hns hname hne

end Endpoint

namespace Service

variable {s : Service} {r : Http.Request}

/-! ## What happens to the requests -/

theorem handle_submit {request : PodRequest} (hconnected : s.connected = true)
    (hmethod : r.method = "POST") (hpath : r.path = Endpoint.podsPath)
    (hbody : readBody r = .ok request) (hvalid : request.violation? = none) :
    s.handle r = .replace request := by
  simp [handle, hpath, Endpoint.ofPath?_pods, hmethod, Endpoint.methods, serve, putPod, hbody,
    hvalid, hconnected]

/-- `Service.handle` answers a lookup with what the cluster finds under the key. -/
theorem handle_inspect {key : PodKey} (hconnected : s.connected = true)
    (hmethod : r.method = "GET") (hpath : r.path = Endpoint.podPath key) (hns : IsLabel key.ns)
    (hname : IsLabel key.name) :
    ∃ decide, s.handle r = .ask (.lookup key) decide ∧
      (∀ pod, decide (.ok (some pod)) =
        succeed (.obj [("pod", PodRequest.codec.encode (.ofPod pod))])) ∧
      decide (.ok none) = report (noPod key) := by
  have hkey : key? key.ns.toList key.name.toList = some key := by
    simp [key?, hns.decodeSegment?, hname.decodeSegment?]
  have hhandle : s.handle r = s.showPod key.ns.toList key.name.toList := by
    simp [handle, hpath, Endpoint.ofPath?_pod hns hname, hmethod, Endpoint.methods, serve]
  rw [hhandle, showPod, hkey]
  simp only [asking, hconnected, if_true]
  exact ⟨_, rfl, fun _ => rfl, rfl⟩

/-- `Service.handle` passes a removal on to the cluster, with the grace period of the settings. -/
theorem handle_remove {key : PodKey} (hconnected : s.connected = true)
    (hmethod : r.method = "DELETE") (hpath : r.path = Endpoint.podPath key)
    (hns : IsLabel key.ns) (hname : IsLabel key.name) :
    ∃ decide, s.handle r = .ask (.delete key (.background s.settings.gracePeriod)) decide ∧
      decide (.ok ()) = succeed (.obj [("deleted", .bool true)]) ∧
      ∀ message, decide (.error (.notFound message)) = report (noPod key) := by
  have hkey : key? key.ns.toList key.name.toList = some key := by
    simp [key?, hns.decodeSegment?, hname.decodeSegment?]
  have hhandle : s.handle r = s.deletePod key.ns.toList key.name.toList := by
    simp [handle, hpath, Endpoint.ofPath?_pod hns hname, hmethod, Endpoint.methods, serve]
  rw [hhandle, deletePod, hkey]
  simp only [asking, hconnected, if_true]
  exact ⟨_, rfl, rfl, fun _ => rfl⟩

/-- `Service.handle` lists every Pod of the namespace when no filter is given. -/
theorem handle_enumerate {ns : String} (hconnected : s.connected = true)
    (hmethod : r.method = "GET") (hpath : r.path = Endpoint.listPath ns) (hns : IsLabel ns)
    (hkeyword : Http.Form.single? (Http.Form.pairs r.query) "keyword" = some "")
    (hnode : Http.Form.single? (Http.Form.pairs r.query) "nodeName" = some "") :
    ∃ decide, s.handle r = .ask (.list ns) decide ∧
      ∀ pods, decide (.ok pods) = succeed (.obj [("podList",
        .arr ((pods.map PodRow.ofPod).map PodRow.codec.encode))]) := by
  have hhandle : s.handle r = s.listPods ns.toList r.query := by
    simp [handle, hpath, Endpoint.ofPath?_podList hns, hmethod, Endpoint.methods, serve]
  -- Without a filter every row is accepted: the empty keyword occurs in every name.
  have hall : ∀ row : PodRow, PodQuery.accepts ⟨"", ""⟩ row = true := by
    intro row
    have hoccurs : ∀ cs : List Char, PodQuery.occursIn [] cs = true := by
      intro cs
      cases cs <;> simp [PodQuery.occursIn]
    simp [PodQuery.accepts, hoccurs]
  rw [hhandle, listPods]
  simp only [hns.decodeSegment?, hkeyword, hnode, asking, hconnected, if_true]
  refine ⟨_, rfl, ?_⟩
  intro pods
  show succeed _ = _
  rw [List.filter_eq_self.2 fun row _ => hall row]

end Service

end PodDesk
