import Mathlib.Data.List.Forall2
import PodDesk.Json.Record

/-!
# What values are read from

A codec reads a value step by step and reports the first fault. Here is what it takes for a value to
be read, without the steps: a record is read from an object when every field is read from the
members of its name, whatever their order and whatever else is there.

## Main statements

- `Codec.decode_list_iff`: what a list is read from
- `Fields.ofMembers_eq_ok_iff`: what a record is read from
- `Codec.decode_record_iff`: the same for the codec of a record, in both of its forms
-/

namespace PodDesk

namespace Doc

@[simp] theorem ofItems_eq_map (items : List Json) : ofItems items = items.map ofJson := by
  induction items with
  | nil => rfl
  | cons item items ih => rw [ofItems, ih, List.map_cons]

@[simp] theorem ofMembers_eq_map (members : List (String × Json)) :
    ofMembers members = members.map fun m => (.ok m.1, ofJson m.2) := by
  induction members with
  | nil => rfl
  | cons m members ih => rw [ofMembers, ih, List.map_cons]

/-- `Doc.skipFault?` finds no fault in a value. -/
theorem skipFault?_ofJson (j : Json) : (ofJson j).skipFault? = none := by
  cases j <;> rfl

end Doc

namespace Json

/-- `valuesOf members name` has the values of the members with that name, in order. -/
def valuesOf (members : List (String × Json)) (name : String) : List Json :=
  (members.filter (·.1 = name)).map (·.2)

variable {members : List (String × Json)} {name other : String} {j : Json}

theorem valuesOf_append (before after : List (String × Json)) (name : String) :
    valuesOf (before ++ after) name = valuesOf before name ++ valuesOf after name := by
  rw [valuesOf, List.filter_append, List.map_append]
  rfl

theorem valuesOf_cons_self : valuesOf ((name, j) :: members) name = j :: valuesOf members name := by
  simp [valuesOf]

theorem valuesOf_cons_of_ne (h : name ≠ other) :
    valuesOf ((name, j) :: members) other = valuesOf members other := by
  simp [valuesOf, h]

end Json

/-- `field.Reads` says what a field is read from: the only value of its name, or none when the field
may be absent. -/
def Field.Reads {α : Type} (field : Field α) : List Json → α → Prop
  | [], a => field.absent = some a
  | [j], a => field.codec.decode (.ofJson j) = .ok a
  | _, _ => False

theorem Field.reads_cons {α : Type} {field : Field α} {j : Json} {js : List Json} {a : α} :
    field.Reads (j :: js) a ↔ js = [] ∧ field.codec.decode (.ofJson j) = .ok a := by
  cases js <;> simp [Reads]

/-- `field.Reads` needs a value of a field that may not be absent. -/
theorem Field.Reads.exists_of_required {α : Type} {field : Field α} {js : List Json} {a : α}
    (h : field.Reads js a) (hrequired : field.absent = none) : ∃ j, js = [j] := by
  cases js with
  | nil => exact absurd (hrequired.symm.trans h) nofun
  | cons j js => exact ⟨j, congrArg _ (Field.reads_cons.1 h).1⟩

namespace Fields

/-- `fs.Reads` says what a record is read from: every field from the members of its name. -/
def Reads : {τ : Type} → Fields τ → List (String × Json) → τ → Prop
  | _, .nil, _, _ => True
  | _, .cons field rest, members, (a, as) =>
    field.Reads (Json.valuesOf members field.name) a ∧ rest.Reads members as

/-- `fs.ReadsOn slots` says what a record is read from when some fields were read already: those
must not come again. -/
def ReadsOn : {τ : Type} → (fs : Fields τ) → fs.Slots → List (String × Json) → τ → Prop
  | _, .nil, _, _, _ => True
  | _, @cons α _ field rest, slots, members, (a, as) =>
    let slots : Option α × rest.Slots := slots
    (match slots.1 with
      | none => field.Reads (Json.valuesOf members field.name) a
      | some a' => Json.valuesOf members field.name = [] ∧ a' = a) ∧
    rest.ReadsOn slots.2 members as

variable {τ : Type} {fs : Fields τ}

/-! ## Members of an object -/

theorem readsOn_noSlots (fs : Fields τ) (members : List (String × Json)) (x : τ) :
    fs.ReadsOn fs.noSlots members x ↔ fs.Reads members x := by
  induction fs with
  | nil => exact Iff.rfl
  | cons field rest ih => exact and_congr_right fun _ => ih x.2

/-- `Fields.complete` succeeds when what is missing may be absent. -/
private theorem complete_eq_ok_iff (fs : Fields τ) (slots : fs.Slots) (x : τ) :
    fs.complete slots = .ok x ↔ fs.ReadsOn slots [] x := by
  induction fs with
  | nil => exact ⟨fun _ => trivial, fun _ => rfl⟩
  | @cons α β field rest ih =>
    obtain ⟨slot, slots⟩ : Option α × rest.Slots := slots
    obtain ⟨a, as⟩ := x
    have hrest := ih slots as
    simp only [complete, ReadsOn]
    rw [← hrest]
    -- The value of the field is the one that was read, or the one for an absent field.
    cases slot with
    | some a' =>
      cases rest.complete slots <;> simp [Except.map, Json.valuesOf]
    | none =>
      cases habsent : field.absent <;> cases rest.complete slots <;>
        simp [Except.map, Json.valuesOf, Field.Reads, habsent]

/-- `Fields.put` leaves a member with a name of no field. -/
private theorem put_of_not_mem (slots : fs.Slots) {name : String} (h : name ∉ fs.names)
    (doc : Doc) : fs.put slots name doc = .ok none := by
  induction fs with
  | nil => rfl
  | @cons α β field rest ih =>
    obtain ⟨hname, hrest⟩ := not_or.1 (mt List.mem_cons.2 h)
    simp only [put, if_neg (Ne.symm hname), ih _ hrest]
    rfl

/-- `Fields.put` reads the first member into the field of its name, if there is one and it was not
read yet. -/
private theorem readsOn_cons (hnames : fs.names.Nodup) (slots : fs.Slots) (name : String)
    (j : Json) (members : List (String × Json)) (x : τ) :
    fs.ReadsOn slots ((name, j) :: members) x ↔
      ∃ found, fs.put slots name (.ofJson j) = .ok found ∧
        fs.ReadsOn (found.getD slots) members x := by
  induction fs with
  | nil => exact ⟨fun _ => ⟨none, rfl, trivial⟩, fun _ => trivial⟩
  | @cons α β field rest ih =>
    obtain ⟨slot, slots⟩ : Option α × rest.Slots := slots
    obtain ⟨a, as⟩ := x
    obtain ⟨hfresh, hrest⟩ := List.nodup_cons.1 hnames
    have hothers := ih hrest slots as
    -- Either this field has the name of the member, or the member goes on to the others.
    by_cases hname : field.name = name
    · subst hname
      -- The other fields have other names.
      rw [put_of_not_mem slots hfresh] at hothers
      simp only [ReadsOn, put, if_true, Json.valuesOf_cons_self, hothers, Except.ok.injEq,
        exists_eq_left', Option.getD_none]
      cases slot with
      | some a' => simp
      | none =>
        dsimp only
        constructor
        · rintro ⟨hreads, hmore⟩
          obtain ⟨hvalues, hread⟩ := Field.reads_cons.1 hreads
          exact ⟨some (some a, slots), by rw [hread]; rfl, ⟨hvalues, rfl⟩, hmore⟩
        · rintro ⟨found, hput, hreads, hmore⟩
          cases hread : field.codec.decode (.ofJson j) with
          | error f =>
            rw [hread] at hput
            exact absurd hput nofun
          | ok a' =>
            rw [hread] at hput
            obtain rfl : some (some a', slots) = found := Except.ok.inj hput
            obtain ⟨hvalues, rfl⟩ := hreads
            exact ⟨Field.reads_cons.2 ⟨hvalues, hread⟩, hmore⟩
    · simp only [ReadsOn, put, if_neg hname, Json.valuesOf_cons_of_ne (Ne.symm hname), hothers]
      constructor
      · rintro ⟨hslot, found, hput, hmore⟩
        refine ⟨found.map fun more => (slot, more), by rw [hput]; rfl, ?_⟩
        cases found <;> exact ⟨hslot, hmore⟩
      · rintro ⟨found, hput, hread⟩
        rcases hfound : rest.put slots name (.ofJson j) with f | found' <;> rw [hfound] at hput
        · exact absurd hput nofun
        · obtain rfl : found'.map (fun more => (slot, more)) = found := Except.ok.inj hput
          cases found' <;> exact ⟨hread.1, _, rfl, hread.2⟩

/-- `Fields.readMember` skips a member that no field reads. -/
private theorem readMember_ofJson (slots : fs.Slots) (name : String) (j : Json) :
    fs.readMember slots (.ok name, .ofJson j) =
      (fs.put slots name (.ofJson j)).map (·.getD slots) := by
  show ((fs.put slots name (.ofJson j)).bind _ : Except Fault fs.Slots) = _
  rcases fs.put slots name (.ofJson j) with f | _ | more
  · rfl
  · simp only [Except.bind, Doc.skipFault?_ofJson]
    rfl
  · rfl

/-- `Fields.ofMembers` reads a record from members when each of its fields is read. -/
theorem ofMembers_eq_ok_iff (hnames : fs.names.Nodup) (members : List (String × Json)) (x : τ) :
    fs.ofMembers (Doc.ofMembers members) none = .ok x ↔ fs.Reads members x := by
  -- The same from fields of which some were read already.
  suffices ∀ slots : fs.Slots,
      ((Doc.ofMembers members).foldlM fs.readMember slots >>= fs.complete) = .ok x ↔
        fs.ReadsOn slots members x from
    (this fs.noSlots).trans (readsOn_noSlots fs members x)
  induction members with
  | nil => exact fun slots => complete_eq_ok_iff fs slots x
  | cons m members ih =>
    obtain ⟨name, j⟩ := m
    intro slots
    rw [readsOn_cons hnames, Doc.ofMembers, List.foldlM_cons, readMember_ofJson]
    rcases fs.put slots name (.ofJson j) with f | found
    · exact ⟨nofun, fun ⟨_, hput, _⟩ => absurd hput nofun⟩
    · exact (ih (found.getD slots)).trans
        ⟨fun h => ⟨found, rfl, h⟩, fun ⟨_, hput, h⟩ => Except.ok.inj hput ▸ h⟩

/-! ## Both forms of a record -/

/-- `fs.ReadsItems` says what a record is read from as a list: the values of its fields in order, of
which those at the end may be missing when they may be absent. -/
def ReadsItems : {τ : Type} → Fields τ → List Json → τ → Prop
  | _, .nil, items, _ => items = []
  | _, .cons field rest, [], (a, as) => field.absent = some a ∧ rest.ReadsItems [] as
  | _, .cons field rest, item :: items, (a, as) =>
    field.codec.decode (.ofJson item) = .ok a ∧ rest.ReadsItems items as

theorem ofItems_eq_ok_iff (fs : Fields τ) (items : List Json) (x : τ) :
    fs.ofItems (Doc.ofItems items) none = .ok x ↔ fs.ReadsItems items x := by
  induction fs generalizing items with
  | nil => cases items <;> simp [ofItems, ReadsItems, Doc.ofItems]
  | @cons α β field rest ih =>
    obtain ⟨a, as⟩ := x
    cases items with
    | nil =>
      have hrest := ih [] as
      simp only [ReadsItems, Doc.ofItems, ofItems] at hrest ⊢
      rw [← hrest]
      cases field.absent with
      | none => simp
      | some a' => cases rest.ofItems [] none <;> simp [Except.map]
    | cons item items =>
      have hrest := ih items as
      simp only [ReadsItems, Doc.ofItems, ofItems]
      rw [← hrest]
      rcases field.codec.decode (.ofJson item) with f | a'
      · exact ⟨nofun, fun h => absurd h.1 nofun⟩
      · rcases rest.ofItems (Doc.ofItems items) none with f | as'
        · exact ⟨nofun, fun h => absurd h.2 nofun⟩
        · show Except.ok (a', as') = Except.ok (a, as) ↔ _
          simp

/-- `fs.ReadsJson` says what a record is read from: an object or a list. -/
def ReadsJson (fs : Fields τ) (j : Json) (x : τ) : Prop :=
  match j with
  | .obj members => fs.Reads members x
  | .arr items => fs.ReadsItems items x
  | _ => False

end Fields

namespace Codec

variable {α τ σ : Type} {fs : Fields τ} {make : τ → σ} {back : σ → τ}

/-- `Codec.record` reads the fields of a record and makes it of them. -/
theorem decode_record_iff (hnames : fs.names.Nodup) (j : Json) (s : σ) :
    (record fs make back).decode (.ofJson j) = .ok s ↔ ∃ x, fs.ReadsJson j x ∧ make x = s := by
  have hmap : ∀ result : Except Fault τ,
      result.map make = .ok s ↔ ∃ x, result = .ok x ∧ make x = s := by
    intro result
    cases result <;> simp [Except.map]
  cases j with
  | obj members =>
    show (fs.ofMembers (Doc.ofMembers members) none).map make = .ok s ↔ _
    simp only [hmap, Fields.ofMembers_eq_ok_iff hnames, Fields.ReadsJson]
  | arr items =>
    show (fs.ofItems (Doc.ofItems items) none).map make = .ok s ↔ _
    simp only [hmap, Fields.ofItems_eq_ok_iff, Fields.ReadsJson]
  | _ => exact ⟨nofun, fun ⟨_, h, _⟩ => h.elim⟩

/-- `Codec.decode` for each of the items, of which the first fault ends the reading. -/
private theorem mapM_decode_iff (c : Codec α) (items : List Json) (as : List α) :
    (Doc.ofItems items).mapM c.decode = .ok as ↔
      List.Forall₂ (fun item a => c.decode (.ofJson item) = .ok a) items as := by
  induction items generalizing as with
  | nil =>
    cases as with
    | nil => exact ⟨fun _ => .nil, fun _ => rfl⟩
    | cons a as => exact ⟨fun h => absurd (Except.ok.inj h) nofun, nofun⟩
  | cons item items ih =>
    rw [Doc.ofItems, List.mapM_cons]
    rcases hitem : c.decode (.ofJson item) with f | a
    · refine ⟨nofun, fun h => ?_⟩
      cases h with
      | cons hread _ => exact absurd (hitem.symm.trans hread) nofun
    -- The first item is read, so it is up to the others.
    · rcases hitems : (Doc.ofItems items).mapM c.decode with f | rest
      · refine ⟨nofun, fun h => ?_⟩
        cases h with
        | cons _ hrest => exact absurd (hitems.symm.trans ((ih _).2 hrest)) nofun
      · have hrest := (ih rest).1 hitems
        constructor
        · intro h
          obtain rfl : a :: rest = as := Except.ok.inj h
          exact .cons hitem hrest
        · intro h
          cases h with
          | cons hread hmore =>
            obtain rfl := Except.ok.inj (hitem.symm.trans hread)
            obtain rfl := Except.ok.inj (hitems.symm.trans ((ih _).2 hmore))
            rfl

/-- `Codec.list` reads every value from its item. -/
theorem decode_list_iff (c : Codec α) (j : Json) (as : List α) :
    c.list.decode (.ofJson j) = .ok as ↔ ∃ items, j = .arr items ∧
      List.Forall₂ (fun item a => c.decode (.ofJson item) = .ok a) items as := by
  cases j with
  | arr items =>
    have hdecode : c.list.decode (.ofJson (.arr items)) = (Doc.ofItems items).mapM c.decode := by
      show ((Doc.ofItems items).mapM c.decode >>= fun as => Except.ok as) = _
      cases (Doc.ofItems items).mapM c.decode <;> rfl
    rw [hdecode, mapM_decode_iff]
    exact ⟨fun h => ⟨items, rfl, h⟩, fun ⟨_, heq, h⟩ => Json.arr.inj heq ▸ h⟩
  | _ => exact ⟨nofun, fun ⟨_, h, _⟩ => absurd h nofun⟩

/-! ## Values that are read on their own -/

theorem ofJson_eq_ok_iff (c : Codec α) (j : Json) (a : α) :
    c.ofJson j = .ok a ↔ c.decode (.ofJson j) = .ok a := by
  rw [ofJson]
  cases c.decode (.ofJson j) <;> simp [Except.mapError]

/-- `Codec.ofJson` has only one fault for a value. -/
theorem ofJson_eq_error (c : Codec α) {j : Json} (h : ∀ a, c.decode (.ofJson j) ≠ .ok a) :
    c.ofJson j = .error .mismatch := by
  rw [ofJson]
  cases hdecode : c.decode (.ofJson j) with
  | error f => rfl
  | ok a => exact absurd hdecode (h a)

end Codec

end PodDesk
