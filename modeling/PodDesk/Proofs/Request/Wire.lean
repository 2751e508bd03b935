import Mathlib.Logic.Relation
import PodDesk.Proofs.Request.Format

/-!
# The wire format of a request

Every record of a request has a format. So a request is read from what is written for it, and from
whatever harmless edits make of a value from which it is read.

## Main statements

- `PodRequest.format`: how a request is built from records
- `PodRequest.wire_format_stable`: what is written is read again, and edits that are harmless do
  not change what is read
-/

namespace PodDesk

namespace Members

variable {τ : Type} {rest : Fields τ} {name : String}

def text (more : Members rest) : Members (.text name rest) :=
  .cons .text rfl nofun more

def flag (more : Members rest) : Members (.flag name rest) :=
  .cons .bool rfl nofun more

def int32 (more : Members rest) : Members (.int32 name rest) :=
  .cons .int32 rfl nofun more

def list {α : Type} {c : Codec α} (items : Format c) (more : Members rest) :
    Members (.list name c rest) :=
  .cons items.list rfl nofun more

def part {α : Type} [Inhabited α] {c : Codec α} (value : Format c) (more : Members rest) :
    Members (.part name c rest) :=
  .cons value rfl nofun more

end Members

/-! ## The records -/

def Base.format : Format Base.codec :=
  .record (.text <| .text <| .list .keyValue <| .text .nil) (by decide) fun _ => rfl

/-- The `seconds` are the only field that is not always written. -/
def Toleration.format : Format Toleration.codec :=
  .record (.text <| .text <| .text <| .text <| .cons .optionalInt64 rfl
    (fun _ h => Option.not_isSome_iff_eq_none.1 (ne_true_of_eq_false h)) .nil)
    (by decide) fun _ => rfl

def SchedulingKind.format : Format SchedulingKind.codec :=
  .choice fun kind => by cases kind <;> rfl

def NodeExpression.format : Format NodeExpression.codec :=
  .record (.text <| .text <| .text .nil) (by decide) fun _ => rfl

def Scheduling.format : Format Scheduling.codec :=
  .record (.part SchedulingKind.format <| .text <| .list .keyValue <|
    .list NodeExpression.format .nil) (by decide) fun _ => rfl

def VolumeKind.format : Format VolumeKind.codec :=
  .choice fun kind => by cases kind <;> rfl

def ObjectRef.format : Format ObjectRef.codec :=
  .record (.text <| .flag .nil) (by decide) fun _ => rfl

def HostPath.format : Format HostPath.codec :=
  .record (.text <| .text .nil) (by decide) fun _ => rfl

def FieldFile.format : Format FieldFile.codec :=
  .record (.text <| .text .nil) (by decide) fun _ => rfl

def Format.wrappedList {α : Type} {name : String} {c : Codec α} (items : Format c) :
    Format (.wrappedList name c) :=
  .record (.list items .nil) (List.pairwise_singleton _ _) fun _ => rfl

def Format.wrappedText {name : String} : Format (.wrappedText name) :=
  .record (.text .nil) (List.pairwise_singleton _ _) fun _ => rfl

def Volume.format : Format Volume.codec :=
  .record (.text <| .part VolumeKind.format <| .part ObjectRef.format <| .part ObjectRef.format <|
    .part HostPath.format <| .part (.wrappedList FieldFile.format) <| .part .wrappedText .nil)
    (by decide) fun _ => rfl

def Networking.format : Format Networking.codec :=
  .record (.flag <| .text <| .text <| .part (.wrappedList .text) <| .list .keyValue .nil)
    (by decide) fun _ => rfl

def Port.format : Format Port.codec :=
  .record (.text <| .int32 <| .int32 .nil) (by decide) fun _ => rfl

def EnvKind.format : Format EnvKind.codec :=
  .choice fun kind => by cases kind <;> rfl

def EnvVar.format : Format EnvVar.codec :=
  .record (.text <| .text <| .text <| .part EnvKind.format .nil) (by decide) fun _ => rfl

def EnvSourceKind.format : Format EnvSourceKind.codec :=
  .choice fun kind => by cases kind <;> rfl

def EnvSource.format : Format EnvSource.codec :=
  .record (.text <| .part EnvSourceKind.format <| .text .nil) (by decide) fun _ => rfl

def Resources.format : Format Resources.codec :=
  .record (.flag <| .int32 <| .int32 <| .int32 <| .int32 .nil) (by decide) fun _ => rfl

def Mount.format : Format Mount.codec :=
  .record (.text <| .text <| .flag .nil) (by decide) fun _ => rfl

def ProbeKind.format : Format ProbeKind.codec :=
  .choice fun kind => by cases kind <;> rfl

def HttpCheck.format : Format HttpCheck.codec :=
  .record (.text <| .text <| .text <| .int32 <| .list .keyValue .nil) (by decide) fun _ => rfl

def TcpCheck.format : Format TcpCheck.codec :=
  .record (.text <| .int32 .nil) (by decide) fun _ => rfl

def Probe.format : Format Probe.codec :=
  .record (.flag <| .part ProbeKind.format <| .part HttpCheck.format <|
    .part (.wrappedList .text) <| .part TcpCheck.format <| .int32 <| .int32 <| .int32 <| .int32 <|
    .int32 .nil) (by decide) fun _ => rfl

def Container.format : Format Container.codec :=
  .record (.text <| .text <| .text <| .flag <| .list Port.format <| .text <| .list .text <|
    .list .text <| .list EnvVar.format <| .list EnvSource.format <| .flag <|
    .part Resources.format <| .list Mount.format <| .part Probe.format <| .part Probe.format <|
    .part Probe.format .nil) (by decide) fun _ => rfl

/-- How `PodRequest.codec` is built from records. -/
def PodRequest.format : Format PodRequest.codec :=
  .record (.part Base.format <| .list Toleration.format <| .part Scheduling.format <|
    .list Volume.format <| .part Networking.format <| .list Container.format <|
    .list Container.format .nil) (by decide) fun _ => rfl

/-! ## Reading and editing -/

/-- A request is read from what `PodRequest.codec` writes for it. -/
theorem PodRequest.ofJson_encode (r : PodRequest) : codec.ofJson (codec.encode r) = .ok r :=
  (codec.ofJson_eq_ok_iff _ r).2 (format.stable.round r)

/-- `PodRequest.codec` reads a request from what it writes for it. Whatever it reads a request from,
it reads it from that after any number of harmless edits, too, and it reads nothing once a key or
its value was taken away. -/
theorem PodRequest.wire_format_stable (r : PodRequest) :
    codec.ofJson (codec.encode r) = .ok r ∧
    ∀ j, codec.ofJson j = .ok r →
      (∀ j', Relation.ReflTransGen format.Harmless j j' → codec.ofJson j' = .ok r) ∧
      ∀ j', format.Breaks j j' → codec.ofJson j' = .error .mismatch := by
  refine ⟨ofJson_encode r, fun j hread => ?_⟩
  constructor
  · -- What is read does not change from one edit to the next.
    intro j' hedits
    induction hedits with
    | refl => exact hread
    | tail _ hedit ih =>
      rw [Codec.ofJson_eq_ok_iff] at ih ⊢
      exact hedit.keeps r ih
  · intro j' hbreak
    exact codec.ofJson_eq_error (hbreak.loses ((codec.ofJson_eq_ok_iff j r).1 hread))

namespace PodRequest

/-- A request for one Pod with the members `base`, and the members `label` of its label. -/
def labelled (base label : List (String × Json)) : Json :=
  .obj [("base", .obj (("labels", .arr [.obj label]) :: base))]

/-- The members of a label are put in another order, the label gets a note, and the restart policy
is left out since it is empty. Without its key the label is not read. -/
theorem relabelled_request_reads_same :
    let label := [("key", .str "app"), ("value", .str "web")]
    let base := [("name", .str "web"), ("restartPolicy", .str "")]
    let r : PodRequest := { base := { name := "web", labels := [⟨"app", "web"⟩] } }
    codec.ofJson (labelled base label) = .ok r ∧
    codec.ofJson (labelled [("name", .str "web")]
      [("value", .str "web"), ("note", .null), ("key", .str "app")]) = .ok r ∧
    codec.ofJson (labelled base [("value", .str "web")]) = .error .mismatch := by
  intro label base r
  have hread : codec.ofJson (labelled base label) = .ok r := by decide
  obtain ⟨hharmless, hbreaks⟩ := (wire_format_stable r).2 _ hread
  refine ⟨hread, hharmless _ ?_, hbreaks _ ?_⟩
  · let noted : List (String × Json) :=
      [("value", .str "web"), ("note", .null), ("key", .str "app")]
    refine .head (b := labelled base label.reverse) ?_ <| .head (b := labelled base noted) ?_ <|
      .single ?_
    · have hlabel : (Json.obj label).Reorders (.obj label.reverse) :=
        .here (List.reverse_perm label).symm
      exact .reorder (.member [] [] (.member [] _ (.item [] [] hlabel)))
    · -- The labels are the third field of the base, which is the first field of the request.
      exact .add [_] [_] .keyValue (by decide) (.member [] [] .here
        (.member [] _ (.there (.there .here)) (.item [] [] .here)))
    · exact .drop [_, _] [] (.there (.there (.there .here))) rfl (.member [] [] .here .here)
  · exact .drop [] [_] (.inl rfl) (.member [] [] .here
      (.member [] _ (.there (.there .here)) (.item [] [] .here)))

end PodRequest

end PodDesk
