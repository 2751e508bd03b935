import PodDesk.Proofs.Json.Reading

/-!
# Codecs that do not care about order

A codec is stable when it reads what it writes, and reads the same after the members of some object
in the value, at any depth, were put in another order. Scalars and named alternatives are stable,
and lists, optional values and records of what is stable are.

## Main statements

- `Fields.Reads.replace`, `Fields.ReadsItems.replace`: a record is still read when one of its values
  is replaced by another from which the same is read
- `Codec.Stable.list`, `Codec.Stable.choice`, `Codec.Stable.record`: stable codecs
-/

namespace PodDesk

/-- `j.Reorders j'` says that the members of one object in `j` are in another order in `j'`. -/
inductive Json.Reorders : Json → Json → Prop where
  | here {members members' : List (String × Json)} (h : members.Perm members') :
      Reorders (.obj members) (.obj members')
  | item {j j' : Json} (before after : List Json) (h : Reorders j j') :
      Reorders (.arr (before ++ j :: after)) (.arr (before ++ j' :: after))
  | member {name : String} {j j' : Json} (before after : List (String × Json))
      (h : Reorders j j') :
      Reorders (.obj (before ++ (name, j) :: after)) (.obj (before ++ (name, j') :: after))

/-- `c.Keeps j j'` says that what `c` reads from `j` it reads from `j'`, too. -/
def Codec.Keeps {α : Type} (c : Codec α) (j j' : Json) : Prop :=
  ∀ a, c.decode (.ofJson j) = .ok a → c.decode (.ofJson j') = .ok a

/-- `c.Stable` says that `c` reads what it writes, and that it does not care about the order of
members. -/
structure Codec.Stable {α : Type} (c : Codec α) : Prop where
  round : ∀ a, c.decode (.ofJson (c.encode a)) = .ok a
  reorders : ∀ {j j' : Json}, j.Reorders j' → c.Keeps j j'

/-! ## Values that are replaced -/

theorem Json.valuesOf_replace_self (before after : List (String × Json)) (name : String)
    (j : Json) : valuesOf (before ++ (name, j) :: after) name =
      valuesOf before name ++ j :: valuesOf after name := by
  rw [valuesOf_append, valuesOf_cons_self]

theorem Json.valuesOf_replace_of_ne {name other : String} (h : name ≠ other)
    (before after : List (String × Json)) (j : Json) :
    valuesOf (before ++ (name, j) :: after) other = valuesOf (before ++ after) other := by
  rw [valuesOf_append, valuesOf_append, valuesOf_cons_of_ne h]

namespace Field

variable {α : Type} {field : Field α} {a : α}

/-- `field.Reads` takes a value when it is the only one. -/
theorem reads_append_cons {before after : List Json} {j : Json} :
    field.Reads (before ++ j :: after) a ↔
      before = [] ∧ after = [] ∧ field.codec.decode (.ofJson j) = .ok a := by
  cases before with
  | nil => simpa using reads_cons
  | cons first before => simp [reads_cons]

theorem Reads.perm {js js' : List Json} (h : field.Reads js a) (hperm : js.Perm js') :
    field.Reads js' a := by
  cases js with
  | nil => rwa [hperm.nil_eq] at h
  | cons j js =>
    obtain ⟨rfl, -⟩ := reads_cons.1 h
    rwa [List.singleton_perm.1 hperm] at h

end Field

namespace Fields

variable {τ : Type} {fs : Fields τ} {x : τ}

/-- `fs.Keep name j j'` says that the fields of a name keep what they read. -/
def Keep (name : String) (j j' : Json) : {τ : Type} → Fields τ → Prop
  | _, .nil => True
  | _, .cons field rest => (field.name = name → field.codec.Keeps j j') ∧ rest.Keep name j j'

/-- `fs.KeepAt j j' i` says that the field at position `i` keeps what it reads. -/
def KeepAt (j j' : Json) : {τ : Type} → Fields τ → Nat → Prop
  | _, .nil, _ => True
  | _, .cons field _, 0 => field.codec.Keeps j j'
  | _, .cons _ rest, i + 1 => rest.KeepAt j j' i

/-- `Fields.Keep` says nothing about a name that no field has. -/
theorem keep_of_not_mem {name : String} (h : name ∉ fs.names) (j j' : Json) :
    fs.Keep name j j' := by
  induction fs with
  | nil => trivial
  | cons field rest ih =>
    obtain ⟨hname, hrest⟩ := not_or.1 (mt List.mem_cons.2 h)
    exact ⟨fun heq => absurd heq.symm hname, ih hrest⟩

/-- `Fields.Reads` allows the members in any order. -/
theorem Reads.perm {members members' : List (String × Json)} (h : fs.Reads members x)
    (hperm : members.Perm members') : fs.Reads members' x := by
  induction fs with
  | nil => trivial
  | cons field rest ih => exact ⟨h.1.perm ((hperm.filter _).map _), ih h.2⟩

/-- `Fields.Reads` still holds when a member is replaced by one from which the same is read. -/
theorem Reads.replace {before after : List (String × Json)} {name : String} {j j' : Json}
    (h : fs.Reads (before ++ (name, j) :: after) x) (hkeep : fs.Keep name j j') :
    fs.Reads (before ++ (name, j') :: after) x := by
  induction fs with
  | nil => trivial
  | cons field rest ih =>
    refine ⟨?_, ih h.2 hkeep.2⟩
    by_cases hname : name = field.name
    · subst hname
      have hreads := h.1
      rw [Json.valuesOf_replace_self, Field.reads_append_cons] at hreads ⊢
      exact ⟨hreads.1, hreads.2.1, hkeep.1 rfl _ hreads.2.2⟩
    · have hreads := h.1
      rwa [Json.valuesOf_replace_of_ne hname] at hreads ⊢

/-- `Fields.ReadsItems` still holds when an item is replaced by one from which the same is read. -/
theorem ReadsItems.replace {before after : List Json} {j j' : Json}
    (h : fs.ReadsItems (before ++ j :: after) x) (hkeep : fs.KeepAt j j' before.length) :
    fs.ReadsItems (before ++ j' :: after) x := by
  induction fs generalizing before with
  | nil => cases before <;> simp [ReadsItems] at h
  | cons field rest ih =>
    cases before with
    | nil => exact ⟨hkeep _ h.1, h.2⟩
    | cons item before => exact ⟨h.1, ih h.2 hkeep⟩

end Fields

namespace Codec

variable {α : Type} {c : Codec α}

/-- `Codec.list` keeps what it reads when its codec does for an item. -/
theorem Keeps.list {j j' : Json} (h : c.Keeps j j') (before after : List Json) :
    c.list.Keeps (.arr (before ++ j :: after)) (.arr (before ++ j' :: after)) := by
  intro as hread
  obtain ⟨items, heq, hitems⟩ := (decode_list_iff c _ as).1 hread
  obtain rfl := Json.arr.inj heq
  refine (decode_list_iff c _ as).2 ⟨_, rfl, ?_⟩
  clear hread heq
  induction before generalizing as with
  | nil =>
    cases hitems with
    | cons hitem hrest => exact .cons (h _ hitem) hrest
  | cons item before ih =>
    cases hitems with
    | cons hitem hrest => exact .cons hitem (ih _ hrest)

/-- `Codec.record` keeps what it reads where its fields do. -/
theorem Keeps.record {τ σ : Type} {fs : Fields τ} {make : τ → σ} {back : σ → τ} {j j' : Json}
    (hnames : fs.names.Nodup) (h : ∀ x, fs.ReadsJson j x → fs.ReadsJson j' x) :
    (Codec.record fs make back).Keeps j j' := by
  intro s hread
  obtain ⟨x, hx, hmake⟩ := (decode_record_iff hnames j s).1 hread
  exact (decode_record_iff hnames j' s).2 ⟨x, h x hx, hmake⟩

namespace Stable

/-! ## Scalars -/

/-- `Codec.Stable` holds of a codec that never reads an object or a list, as only those have an
order. -/
theorem of_scalar (hround : ∀ a, c.decode (.ofJson (c.encode a)) = .ok a)
    (hobj : ∀ members a, c.decode (.ofJson (.obj members)) ≠ .ok a)
    (harr : ∀ items a, c.decode (.ofJson (.arr items)) ≠ .ok a) : c.Stable where
  round := hround
  reorders h a hread := by
    cases h with
    | here => exact absurd hread (hobj _ a)
    | item => exact absurd hread (harr _ a)
    | member => exact absurd hread (hobj _ a)

theorem text : Codec.text.Stable :=
  of_scalar (fun _ => rfl) nofun nofun

theorem bool : Codec.bool.Stable :=
  of_scalar (fun _ => rfl) nofun nofun

/-- `integer low high` reads a whole number within its bounds again. -/
private theorem decode_integer {low high n : Int} (hlow : low ≤ n) (hhigh : n ≤ high) :
    (integer low high).decode (.ofJson (.ofInt n)) = .ok n :=
  if_pos ⟨hlow, hhigh⟩

/-- `Codec.via` reads what is written for a corresponding value as the value itself. -/
private theorem decode_via {β : Type} {make : α → β} {back : β → α} {b : β}
    (hread : c.decode (.ofJson (c.encode (back b))) = .ok (back b)) (hback : make (back b) = b) :
    (c.via make back).decode (.ofJson ((c.via make back).encode b)) = .ok b := by
  show (c.decode (.ofJson (c.encode (back b)))).map make = .ok b
  rw [hread]
  exact congrArg Except.ok hback

theorem int32 : Codec.int32.Stable := by
  refine of_scalar (fun n => ?_) nofun nofun
  have hlow := Int32.le_toInt n
  have hhigh := Int32.toInt_lt n
  refine decode_via (decode_integer ?_ ?_) (Int32.ofInt_toInt n)
  · simp only [word31]
    omega
  · simp only [word31]
    omega

theorem int64 : Codec.int64.Stable := by
  refine of_scalar (fun n => ?_) nofun nofun
  have hlow := Int64.le_toInt n
  have hhigh := Int64.toInt_lt n
  refine decode_via (decode_integer ?_ ?_) (Int64.ofInt_toInt n)
  · simp only [word63]
    omega
  · simp only [word63]
    omega

/-! ## Lists, optional values and alternatives -/

private theorem decode_option_of_ne_null {j : Json} (h : j ≠ .null) :
    c.option.decode (.ofJson j) = (c.decode (.ofJson j)).map some := by
  cases j with
  | null => exact absurd rfl h
  | _ => rfl

theorem option (h : c.Stable) (hnull : ∀ a, c.encode a ≠ .null) : c.option.Stable where
  round o := by
    cases o with
    | none => rfl
    | some a =>
      show c.option.decode (.ofJson (c.encode a)) = _
      rw [decode_option_of_ne_null (hnull a), h.round]
      rfl
  reorders {j j'} hj o hread := by
    -- Only objects and lists are reordered, and neither is null.
    have hj' : j ≠ .null ∧ j' ≠ .null := by cases hj <;> exact ⟨nofun, nofun⟩
    rw [decode_option_of_ne_null hj'.1] at hread
    rw [decode_option_of_ne_null hj'.2]
    rcases hdecode : c.decode (.ofJson j) with f | a
    · rw [hdecode] at hread
      exact absurd hread nofun
    · rw [h.reorders hj a hdecode, ← hread, hdecode]

theorem list (h : c.Stable) : c.list.Stable where
  round as := by
    refine (decode_list_iff c _ as).2 ⟨as.map c.encode, rfl, ?_⟩
    rw [List.forall₂_map_left_iff]
    exact List.forall₂_same.2 fun a _ => h.round a
  reorders hj := by
    cases hj with
    | here => exact nofun
    | item before after hitem => exact (h.reorders hitem).list before after
    | member => exact nofun

/-- `Codec.choice` takes an object for an alternative only if it has one member, whose value is
null. -/
private theorem members_of_decode_choice {alternatives : List α} {name : α → String}
    {members : List (String × Json)} {a : α}
    (h : (Codec.choice alternatives name).decode (.ofJson (.obj members)) = .ok a) :
    ∃ key, members = [(key, .null)] := by
  rcases members with _ | ⟨⟨key, j⟩, more⟩
  · exact absurd h nofun
  refine ⟨key, ?_⟩
  simp only [Codec.choice, Doc.ofJson, Doc.ofMembers] at h
  rcases hfind : choice.find alternatives name key with f | a'
  · simp [bind, Except.bind, hfind] at h
  · simp only [bind, Except.bind, hfind] at h
    cases j <;> cases more <;> simp [Doc.ofJson, Doc.ofMembers] at h ⊢

/-- `Codec.choice` is stable: only an object with one member stands for an alternative, and that
maps its name to null. -/
theorem choice {alternatives : List α} {name : α → String}
    (h : ∀ a, alternatives.find? (name · == name a) = some a) :
    (Codec.choice alternatives name).Stable where
  round a := by
    show choice.find alternatives name (name a) = _
    rw [choice.find, h]
  reorders hj a hread := by
    cases hj with
    | here hperm =>
      obtain ⟨key, rfl⟩ := members_of_decode_choice hread
      rwa [List.singleton_perm.1 hperm] at hread
    | item => exact absurd hread nofun
    | @member key j j' before after hmember =>
      -- Nothing can be reordered in null.
      obtain ⟨key', hmembers⟩ := members_of_decode_choice hread
      have hmem : (key, j) ∈ [(key', Json.null)] :=
        hmembers ▸ List.mem_append_right _ List.mem_cons_self
      obtain rfl : j = .null := congrArg Prod.snd (List.mem_singleton.1 hmem)
      cases hmember

end Stable

end Codec

/-! ## Records -/

namespace Fields

/-- `fs.Stable` says that every field has a stable codec, and that what is not written is what is
read for an absent field. -/
def Stable : {τ : Type} → Fields τ → Prop
  | _, .nil => True
  | _, .cons field rest => field.codec.Stable ∧
      (∀ a, field.written a = false → field.absent = some a) ∧ rest.Stable

variable {τ : Type} {fs : Fields τ} {x : τ}

/-- `Fields.toMembers` writes no members with unknown names. -/
theorem valuesOf_toMembers_of_not_mem {name : String} (h : name ∉ fs.names) (x : τ) :
    Json.valuesOf (fs.toMembers x) name = [] := by
  induction fs with
  | nil => rfl
  | cons field rest ih =>
    obtain ⟨hname, hrest⟩ := not_or.1 (mt List.mem_cons.2 h)
    simp only [toMembers]
    split
    · rw [Json.valuesOf_cons_of_ne (Ne.symm hname)]
      exact ih hrest x.2
    · exact ih hrest x.2

/-- `Fields.Reads` skips a member with an unknown name. -/
theorem reads_append_cons_of_not_mem {name : String} (h : name ∉ fs.names)
    (before after : List (String × Json)) (j : Json) :
    fs.Reads (before ++ (name, j) :: after) x ↔ fs.Reads (before ++ after) x := by
  induction fs with
  | nil => exact Iff.rfl
  | cons field rest ih =>
    obtain ⟨hname, hrest⟩ := not_or.1 (mt List.mem_cons.2 h)
    simp only [Reads, Json.valuesOf_replace_of_ne hname]
    exact and_congr_right fun _ => ih hrest

/-- `Fields.Reads` holds of the members that `Fields.toMembers` writes. -/
theorem Stable.reads_toMembers (h : fs.Stable) (hnames : fs.names.Nodup) (x : τ) :
    fs.Reads (fs.toMembers x) x := by
  induction fs with
  | nil => trivial
  | cons field rest ih =>
    obtain ⟨a, as⟩ := x
    obtain ⟨hcodec, hunwritten, hrest⟩ := h
    obtain ⟨hfresh, hnames⟩ := List.nodup_cons.1 hnames
    have hothers := valuesOf_toMembers_of_not_mem hfresh as
    simp only [toMembers]
    split
    -- The field is written, and the members after it are not of its name.
    · refine ⟨?_, (reads_append_cons_of_not_mem hfresh [] _ _).2 (ih hrest hnames as)⟩
      rw [Json.valuesOf_cons_self, hothers]
      exact hcodec.round a
    · rename_i hwritten
      -- The field is left out, so it is read as absent.
      refine ⟨?_, ih hrest hnames as⟩
      rw [hothers]
      exact hunwritten a (by simpa using hwritten)

/-- `Fields.Stable` keeps a member that is reordered, whatever its name. -/
theorem Stable.keep {j j' : Json} (h : fs.Stable) (hj : j.Reorders j') (name : String) :
    fs.Keep name j j' := by
  induction fs with
  | nil => trivial
  | cons field rest ih => exact ⟨fun _ => h.1.reorders hj, ih h.2.2⟩

/-- `Fields.Stable` keeps an item that is reordered, whatever its position. -/
theorem Stable.keepAt {j j' : Json} (h : fs.Stable) (hj : j.Reorders j') (i : Nat) :
    fs.KeepAt j j' i := by
  induction fs generalizing i with
  | nil => trivial
  | cons field rest ih =>
    cases i with
    | zero => exact h.1.reorders hj
    | succ i => exact ih h.2.2 i

end Fields

/-- `Codec.record` is stable when its fields are. -/
theorem Codec.Stable.record {τ σ : Type} {fs : Fields τ} {make : τ → σ} {back : σ → τ}
    (hnames : fs.names.Nodup) (hfields : fs.Stable) (hback : ∀ s, make (back s) = s) :
    (Codec.record fs make back).Stable where
  round s := (decode_record_iff hnames _ s).2
    ⟨back s, hfields.reads_toMembers hnames (back s), hback s⟩
  reorders hj := by
    refine .record hnames fun x hx => ?_
    cases hj with
    | here hperm => exact hx.perm hperm
    | item _ _ hitem => exact hx.replace (hfields.keepAt hitem _)
    | member _ _ hmember => exact hx.replace (hfields.keep hmember _)

end PodDesk
