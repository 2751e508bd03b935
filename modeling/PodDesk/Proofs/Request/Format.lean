import PodDesk.Proofs.Json.Stable
import PodDesk.Request.Codec

/-!
# Formats

A format describes how a codec is built from scalars, lists, alternatives and records. It says
where in a value the records stand, and that the default of every field is that of its type; only
a key with its value has no defaults.

An edit of a value is harmless when it changes the order of members, adds a member that no record
knows or takes away a member that says what is read without it. The same is read after it. To take
away a key or its value is not harmless: then nothing is read at all.

## Main statements

- `Format.Harmless.keeps`: the same is read after an edit that is harmless
- `Format.Breaks.loses`: nothing is read without a key or its value
-/

namespace PodDesk

mutual

/-- `Format c` describes how the codec `c` is built. -/
inductive Format : {α : Type} → Codec α → Type 1 where
  | text : Format .text
  | bool : Format .bool
  | int32 : Format .int32
  /-- A number of 64 bits that may be absent. -/
  | optionalInt64 : Format Codec.int64.option
  | choice {α : Type} {alternatives : List α} {name : α → String}
      (hfind : ∀ a, alternatives.find? (name · == name a) = some a) :
      Format (.choice alternatives name)
  | list {α : Type} {c : Codec α} (items : Format c) : Format c.list
  | record {τ σ : Type} {fs : Fields τ} {make : τ → σ} {back : σ → τ} (members : Members fs)
      (hnames : fs.names.Nodup) (hback : ∀ s, make (back s) = s) : Format (.record fs make back)
  | keyValue : Format KeyValue.codec

/-- `Members fs` describes how the fields of a record are built: an absent field is read as the
default of its type, and what is not written is that default. -/
inductive Members : {τ : Type} → Fields τ → Type 1 where
  | nil : Members .nil
  | cons {α τ : Type} [Inhabited α] {field : Field α} {rest : Fields τ}
      (value : Format field.codec) (habsent : field.absent = some default)
      (hwritten : ∀ a, field.written a = false → a = default) (more : Members rest) :
      Members (.cons field rest)

end

/-- `members.Has i inst field value` says that a record has `field` at position `i`, with the
default of `inst` and with the format `value`. -/
inductive Members.Has : {τ : Type} → {fs : Fields τ} → Members fs → Nat → {α : Type} →
    Inhabited α → (field : Field α) → Format field.codec → Prop where
  | here {α τ : Type} {inst : Inhabited α} {field : Field α} {rest : Fields τ}
      {value : Format field.codec} {habsent : field.absent = some default}
      {hwritten : ∀ a, field.written a = false → a = default} {more : Members rest} :
      Has (.cons value habsent hwritten more) 0 inst field value
  | there {α β τ : Type} {inst : Inhabited α} {inst' : Inhabited β} {field : Field α}
      {field' : Field β} {rest : Fields τ} {value : Format field.codec}
      {habsent : field.absent = some default}
      {hwritten : ∀ a, field.written a = false → a = default} {more : Members rest} {i : Nat}
      {value' : Format field'.codec} (h : more.Has i inst' field' value') :
      Has (.cons value habsent hwritten more) (i + 1) inst' field' value'

/-- `f.Knows names` says that values of the format `f` stand for a record with fields of these
names. -/
inductive Format.Knows : {α : Type} → {c : Codec α} → Format c → List String → Prop where
  | record {τ σ : Type} {fs : Fields τ} {make : τ → σ} {back : σ → τ} {members : Members fs}
      {hnames : fs.names.Nodup} {hback : ∀ s, make (back s) = s} :
      Knows (@Format.record _ _ fs make back members hnames hback) fs.names
  | keyValue : Knows .keyValue ["key", "value"]

/-- `part.Within k k' f j j'` says that the value `j` of format `f` has a part `k` somewhere that is
read with the format `part`, and that `j'` differs from `j` in that part only, where it has `k'`:
below the items of lists and the fields of records. -/
inductive Format.Within {β : Type} {d : Codec β} (part : Format d) (k k' : Json) :
    {α : Type} → {c : Codec α} → Format c → Json → Json → Prop where
  | here : Within part k k' part k k'
  | item {α : Type} {c : Codec α} {items : Format c} {j j' : Json} (before after : List Json)
      (h : Within part k k' items j j') :
      Within part k k' items.list (.arr (before ++ j :: after)) (.arr (before ++ j' :: after))
  | member {α τ σ : Type} {inst : Inhabited α} {field : Field α} {fs : Fields τ} {make : τ → σ}
      {back : σ → τ} {members : Members fs} {hnames : fs.names.Nodup}
      {hback : ∀ s, make (back s) = s} {i : Nat} {value : Format field.codec} {j j' : Json}
      (before after : List (String × Json)) (hhas : members.Has i inst field value)
      (h : Within part k k' value j j') :
      Within part k k' (@Format.record _ _ fs make back members hnames hback)
        (.obj (before ++ (field.name, j) :: after)) (.obj (before ++ (field.name, j') :: after))
  /-- A record may be given as the list of its values. -/
  | slot {α τ σ : Type} {inst : Inhabited α} {field : Field α} {fs : Fields τ} {make : τ → σ}
      {back : σ → τ} {members : Members fs} {hnames : fs.names.Nodup}
      {hback : ∀ s, make (back s) = s} {value : Format field.codec} {j j' : Json}
      (before after : List Json) (hhas : members.Has before.length inst field value)
      (h : Within part k k' value j j') :
      Within part k k' (@Format.record _ _ fs make back members hnames hback)
        (.arr (before ++ j :: after)) (.arr (before ++ j' :: after))

/-- `f.Harmless j j'` is an edit of a value of format `f` after which the same is read. -/
inductive Format.Harmless {α : Type} {c : Codec α} (f : Format c) : Json → Json → Prop where
  /-- The members of some object are put in another order. -/
  | reorder {j j' : Json} (h : j.Reorders j') : f.Harmless j j'
  /-- Some object that stands for a record gets a member that the record does not know. -/
  | add {β : Type} {d : Codec β} {part : Format d} {names : List String} {name : String}
      {extra j j' : Json} (before after : List (String × Json)) (hknows : part.Knows names)
      (hname : name ∉ names)
      (h : part.Within (.obj (before ++ after)) (.obj (before ++ (name, extra) :: after)) f j j') :
      f.Harmless j j'
  /-- Some object that stands for a record loses a member from which the default of its type is
  read. -/
  | drop {β τ σ : Type} {inst : Inhabited β} {field : Field β} {fs : Fields τ} {make : τ → σ}
      {back : σ → τ} {members : Members fs} {hnames : fs.names.Nodup}
      {hback : ∀ s, make (back s) = s} {i : Nat} {value : Format field.codec}
      {v j j' : Json} (before after : List (String × Json)) (hhas : members.Has i inst field value)
      (hdefault : field.codec.decode (.ofJson v) = .ok inst.default)
      (h : (@Format.record _ _ fs make back members hnames hback).Within
        (.obj (before ++ (field.name, v) :: after)) (.obj (before ++ after)) f j j') :
      f.Harmless j j'

/-- `f.Breaks j j'` is an edit that takes away the key or the value from some object that stands for
both. -/
inductive Format.Breaks {α : Type} {c : Codec α} (f : Format c) : Json → Json → Prop where
  | drop {name : String} {v j j' : Json} (before after : List (String × Json))
      (hname : name = "key" ∨ name = "value")
      (h : Format.keyValue.Within (.obj (before ++ (name, v) :: after)) (.obj (before ++ after))
        f j j') : f.Breaks j j'

/-! ## Stability -/

mutual

/-- A codec that has a `Format` is stable. -/
theorem Format.stable : {α : Type} → {c : Codec α} → Format c → c.Stable
  | _, _, .text => .text
  | _, _, .bool => .bool
  | _, _, .int32 => .int32
  | _, _, .optionalInt64 => .option .int64 nofun
  | _, _, .choice hfind => .choice hfind
  | _, _, .list items => .list items.stable
  | _, _, .record members hnames hback => .record hnames members.stable hback
  | _, _, .keyValue => .record (by decide) ⟨.text, nofun, .text, nofun, trivial⟩ fun _ => rfl

theorem Members.stable : {τ : Type} → {fs : Fields τ} → Members fs → fs.Stable
  | _, _, .nil => trivial
  | _, _, @Members.cons _ _ _ _ _ value habsent hwritten more =>
    ⟨value.stable, fun a h => habsent.trans (congrArg some (hwritten a h).symm), more.stable⟩

end

/-! ## Fields of a record -/

namespace Members.Has

variable {τ α : Type} {fs : Fields τ} {members : Members fs} {i : Nat} {inst : Inhabited α}
  {field : Field α} {value : Format field.codec} {x : τ} {j j' : Json}

theorem name_mem (h : members.Has i inst field value) : field.name ∈ fs.names := by
  induction h with
  | here => exact List.mem_cons_self
  | there _ ih => exact List.mem_cons_of_mem _ ih

theorem keep (h : members.Has i inst field value) (hnames : fs.names.Nodup)
    (hj : field.codec.Keeps j j') : fs.Keep field.name j j' := by
  induction h with
  | here => exact ⟨fun _ => hj, Fields.keep_of_not_mem (List.nodup_cons.1 hnames).1 _ _⟩
  | there hmore ih =>
    -- The first field has another name, so that it has nothing to keep.
    obtain ⟨hfresh, hnames⟩ := List.nodup_cons.1 hnames
    exact ⟨fun heq => absurd (heq ▸ hmore.name_mem) hfresh, ih hnames hj⟩

theorem keepAt (h : members.Has i inst field value) (hj : field.codec.Keeps j j') :
    fs.KeepAt j j' i := by
  induction h with
  | here => exact hj
  | there _ ih => exact ih hj

/-- When a record is read from members, `Members.Has` says that the field is read from those of its
name. -/
theorem reads (h : members.Has i inst field value) {ms : List (String × Json)}
    (hread : fs.Reads ms x) : ∃ a, field.Reads (Json.valuesOf ms field.name) a := by
  induction h with
  | here => exact ⟨x.1, hread.1⟩
  | there _ ih => exact ih hread.2

/-- When a record is read from items, `Members.Has` says that the field is read from the one at its
position. -/
theorem readsItem (h : members.Has i inst field value) {before after : List Json}
    (hi : before.length = i) (hread : fs.ReadsItems (before ++ j :: after) x) :
    ∃ a, field.codec.decode (.ofJson j) = .ok a := by
  induction h generalizing before with
  | here =>
    obtain rfl := List.eq_nil_of_length_eq_zero hi
    exact ⟨x.1, hread.1⟩
  | there _ ih =>
    obtain ⟨item, before, rfl⟩ := List.exists_cons_of_length_eq_add_one hi
    exact ih (Nat.succ.inj hi) hread.2

/-- A record is read without a member from which the default is read. -/
theorem drop (h : members.Has i inst field value) (hnames : fs.names.Nodup)
    (hdefault : field.codec.decode (.ofJson j) = .ok inst.default)
    {before after : List (String × Json)}
    (hread : fs.Reads (before ++ (field.name, j) :: after) x) : fs.Reads (before ++ after) x := by
  induction h with
  | @here _ _ _ field rest _ habsent _ _ =>
    obtain ⟨hfresh, -⟩ := List.nodup_cons.1 hnames
    obtain ⟨hfield, hrest⟩ := hread
    refine ⟨?_, (Fields.reads_append_cons_of_not_mem hfresh before after j).1 hrest⟩
    -- The member was the only one of its name.
    rw [Json.valuesOf_replace_self, Field.reads_append_cons] at hfield
    obtain ⟨hbefore, hafter, hj⟩ := hfield
    rw [Json.valuesOf_append, hbefore, hafter]
    exact habsent.trans (congrArg some (Except.ok.inj (hdefault.symm.trans hj)))
  -- The fields before it read the same, since it has another name.
  | there hmore ih =>
    obtain ⟨hfresh, hnames⟩ := List.nodup_cons.1 hnames
    refine ⟨?_, ih hnames hdefault hread.2⟩
    have hfield := hread.1
    rwa [Json.valuesOf_replace_of_ne (ne_of_mem_of_not_mem hmore.name_mem hfresh)] at hfield

end Members.Has

/-! ## Parts of a value -/

namespace Format.Within

variable {α β : Type} {c : Codec α} {d : Codec β} {f : Format c} {part : Format d}
  {j j' k k' : Json}

theorem symm (h : part.Within k k' f j j') : part.Within k' k f j' j := by
  induction h with
  | here => exact .here
  | item before after _ ih => exact .item before after ih
  | member before after hhas _ ih => exact .member before after hhas ih
  | slot before after hhas _ ih => exact .slot before after hhas ih

/-- `Within` a value, the same is read when the same is read from its part. -/
theorem keeps (h : part.Within k k' f j j') (hk : d.Keeps k k') : c.Keeps j j' := by
  induction h with
  | here => exact hk
  | item before after _ ih => exact ih.list before after
  | member _ _ hhas _ ih => exact .record ‹_› fun _ hx => hx.replace (hhas.keep ‹_› ih)
  | slot _ _ hhas _ ih => exact .record ‹_› fun _ hx => hx.replace (hhas.keepAt ih)

/-- Whoever reads a value reads its part `Within` it. -/
theorem reads (h : part.Within k k' f j j') {a : α} (hread : c.decode (.ofJson j) = .ok a) :
    ∃ b, d.decode (.ofJson k) = .ok b := by
  induction h with
  | here => exact ⟨a, hread⟩
  | item before after _ ih =>
    obtain ⟨items, heq, hitems⟩ := (Codec.decode_list_iff _ _ a).1 hread
    obtain rfl := Json.arr.inj heq
    -- The items before the part are read on their own.
    obtain ⟨b, -, hitem, -⟩ :=
      List.forall₂_cons_right_iff.1 (List.forall₂_drop_append _ _ _ hitems.flip)
    exact ih hitem
  -- The field is read from its only member, which holds the part.
  | member _ _ hhas _ ih =>
    obtain ⟨x, hx, -⟩ := (Codec.decode_record_iff ‹_› _ a).1 hread
    obtain ⟨b, hb⟩ := hhas.reads hx
    rw [Json.valuesOf_replace_self, Field.reads_append_cons] at hb
    exact ih hb.2.2
  | slot _ _ hhas _ ih =>
    obtain ⟨x, hx, -⟩ := (Codec.decode_record_iff ‹_› _ a).1 hread
    obtain ⟨b, hb⟩ := hhas.readsItem rfl hx
    exact ih hb

end Format.Within

/-! ## Edits -/

/-- A member that a record does not know is not read. -/
theorem Format.Knows.keeps_append_cons {α : Type} {c : Codec α} {f : Format c}
    {names : List String} (h : f.Knows names) {name : String} (hname : name ∉ names)
    (before after : List (String × Json)) (extra : Json) :
    c.Keeps (.obj (before ++ after)) (.obj (before ++ (name, extra) :: after)) := by
  -- Both formats are those of the codec of a record.
  have hrecord : ∀ {τ σ : Type} {fs : Fields τ} {make : τ → σ} {back : σ → τ},
      fs.names.Nodup → name ∉ fs.names → (Codec.record fs make back).Keeps
        (.obj (before ++ after)) (.obj (before ++ (name, extra) :: after)) :=
    fun hnames hname => .record hnames fun _ =>
      (Fields.reads_append_cons_of_not_mem hname before after extra).2
  cases h with
  | record => exact hrecord ‹_› hname
  | keyValue => exact hrecord (by decide) hname

/-- `Format.Harmless` edits keep what is read. -/
theorem Format.Harmless.keeps {α : Type} {c : Codec α} {f : Format c} {j j' : Json}
    (h : f.Harmless j j') : c.Keeps j j' := by
  cases h with
  | reorder h => exact f.stable.reorders h
  | add before after hknows hname h =>
    exact h.keeps (hknows.keeps_append_cons hname before after _)
  | drop _ _ hhas hdefault h =>
    exact h.keeps (.record ‹_› fun _ hx => hhas.drop ‹_› hdefault hx)

/-- `KeyValue.codec` needs both a key and its value. -/
theorem KeyValue.exists_of_decode {members : List (String × Json)} {kv : KeyValue}
    (h : codec.decode (.ofJson (.obj members)) = .ok kv) {name : String}
    (hname : name = "key" ∨ name = "value") :
    ∃ v, Json.valuesOf members name = [v] := by
  obtain ⟨x, ⟨hkey, hvalue, -⟩, -⟩ := (Codec.decode_record_iff (by decide) _ kv).1 h
  rcases hname with rfl | rfl
  · exact hkey.exists_of_required rfl
  · exact hvalue.exists_of_required rfl

/-- `Format.Breaks` edits leave a value from which nothing is read. -/
theorem Format.Breaks.loses {α : Type} {c : Codec α} {f : Format c} {j j' : Json}
    (h : f.Breaks j j') {a : α} (hread : c.decode (.ofJson j) = .ok a) (a' : α) :
    c.decode (.ofJson j') ≠ .ok a' := by
  intro hread'
  -- Whoever reads the value reads the key with its value, before and after the edit.
  obtain ⟨_, _, hname, h⟩ := h
  obtain ⟨kv, hkv⟩ := h.reads hread
  obtain ⟨kv', hkv'⟩ := h.symm.reads hread'
  obtain ⟨v, hv⟩ := KeyValue.exists_of_decode hkv hname
  obtain ⟨v', hv'⟩ := KeyValue.exists_of_decode hkv' hname
  -- Both objects would have one member of the name, but the second has one less than the first.
  rw [Json.valuesOf_replace_self] at hv
  rw [Json.valuesOf_append] at hv'
  have hlen := congrArg List.length hv
  have hlen' := congrArg List.length hv'
  simp only [List.length_append, List.length_cons, List.length_nil] at hlen hlen'
  omega

end PodDesk
