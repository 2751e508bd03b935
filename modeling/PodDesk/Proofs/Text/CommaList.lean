import Mathlib.Data.List.Forall2
import PodDesk.Text.CommaList

/-!
# Normal form of comma separated lists

The entries that a comma separated text can name are not empty, have no comma, and have no white
space at their ends. Writing such entries and reading them again gives the same entries, so every
text has a normal form that names the same entries: the one that is written for what was read.

## Main statements

- `Text.CommaList.isEntry_of_mem_parse`: what is read are such entries
- `Text.CommaList.forall₂_isCore_parse`: they are what stands between the commas
- `Text.CommaList.parse_join`: entries that are written are read again
- `Text.CommaList.parse_join_parse`: the normal form names the same entries
- `Text.CommaList.parse_has_normal_form`: all of this
-/

namespace PodDesk.Text

variable {sep c : Char} {part rest cs : List Char}

/-! ## Splitting at a separator -/

theorem splitAtEach_of_not_mem (h : sep ∉ part) : splitAtEach sep part = [part] := by
  induction part with
  | nil => rfl
  | cons c part ih =>
    have hc : c ≠ sep := fun heq => h (heq ▸ List.mem_cons_self)
    have hpart : sep ∉ part := fun hmem => h (List.mem_cons_of_mem _ hmem)
    simp only [splitAtEach, hc, if_false, ih hpart]

theorem splitAtEach_append (h : sep ∉ part) :
    splitAtEach sep (part ++ sep :: rest) = part :: splitAtEach sep rest := by
  induction part with
  | nil => simp [splitAtEach]
  | cons c part ih =>
    have hc : c ≠ sep := fun heq => h (heq ▸ List.mem_cons_self)
    have hpart : sep ∉ part := fun hmem => h (List.mem_cons_of_mem _ hmem)
    simp only [List.cons_append, splitAtEach, hc, if_false, ih hpart]

/-- `splitAtEach` finds parts without the separator in the text that has the separator between them.
-/
theorem splitAtEach_intercalate {parts : List (List Char)} (h : ∀ part ∈ parts, sep ∉ part)
    (hne : parts ≠ []) : splitAtEach sep ([sep].intercalate parts) = parts := by
  induction parts with
  | nil => exact absurd rfl hne
  | cons first parts ih =>
    have hfirst := h first List.mem_cons_self
    cases parts with
    | nil =>
      rw [List.intercalate_singleton]
      exact splitAtEach_of_not_mem hfirst
    | cons second parts =>
      have hrest := ih (fun part hpart => h part (List.mem_cons_of_mem _ hpart)) nofun
      rw [List.intercalate_cons_cons, List.append_assoc, List.singleton_append,
        splitAtEach_append hfirst, hrest]

/-- `List.intercalate` has no characters but the separator and those of the parts. -/
theorem mem_intercalate {parts : List (List Char)} (h : c ∈ [sep].intercalate parts) :
    c = sep ∨ ∃ part ∈ parts, c ∈ part := by
  induction parts with
  | nil => exact absurd h List.not_mem_nil
  | cons first parts ih =>
    cases parts with
    | nil =>
      rw [List.intercalate_singleton] at h
      exact .inr ⟨first, List.mem_singleton_self _, h⟩
    | cons second parts =>
      rw [List.intercalate_cons_cons, List.mem_append, List.mem_append, List.mem_singleton] at h
      rcases h with (h | h) | h
      · exact .inr ⟨first, List.mem_cons_self, h⟩
      · exact .inl h
      · refine (ih h).imp_right ?_
        rintro ⟨part, hpart, hc⟩
        exact ⟨part, List.mem_cons_of_mem _ hpart, hc⟩

theorem splitAtEach_ne_nil (sep : Char) (cs : List Char) : splitAtEach sep cs ≠ [] := by
  cases cs with
  | nil => exact nofun
  | cons c cs =>
    simp only [splitAtEach]
    split
    · exact nofun
    · split <;> exact nofun

/-- `splitAtEach` leaves no separator in a part. -/
theorem not_mem_of_mem_splitAtEach (h : part ∈ splitAtEach sep cs) : sep ∉ part := by
  induction cs generalizing part with
  | nil =>
    obtain rfl : part = [] := by simpa [splitAtEach] using h
    exact List.not_mem_nil
  | cons c cs ih =>
    simp only [splitAtEach] at h
    split at h
    · rcases List.mem_cons.1 h with rfl | h
      · exact List.not_mem_nil
      · exact ih h
    · rename_i hc
      -- The character belongs to the first part of the rest.
      cases hsplit : splitAtEach sep cs with
      | nil =>
        obtain rfl : part = [c] := by simpa [hsplit] using h
        simpa using Ne.symm hc
      | cons first parts =>
        rw [hsplit] at h ih
        rcases List.mem_cons.1 h with rfl | h
        · have hfirst := ih List.mem_cons_self
          simpa [Ne.symm hc] using hfirst
        · exact ih (List.mem_cons_of_mem _ h)

/-- `splitAtEach` loses nothing: the parts with the separators between them are the text again. -/
theorem intercalate_splitAtEach (sep : Char) (cs : List Char) :
    [sep].intercalate (splitAtEach sep cs) = cs := by
  induction cs with
  | nil => rfl
  | cons c cs ih =>
    cases hsplit : splitAtEach sep cs with
    | nil =>
      rw [hsplit] at ih
      obtain rfl : cs = [] := ih.symm
      simp [splitAtEach] at hsplit
    | cons first parts =>
      rw [hsplit] at ih
      simp only [splitAtEach, hsplit]
      -- A separator: an empty part goes before the others.
      split
      · rename_i hc
        rw [List.intercalate_cons_cons, ih, hc]
        rfl
      -- The character goes before the first part, whether there are others or not.
      · cases parts with
        | nil =>
          rw [List.intercalate_singleton] at ih ⊢
          rw [ih]
        | cons second parts =>
          rw [List.intercalate_cons_cons] at ih ⊢
          rw [← ih]
          rfl

/-- `splitAtEach` tells a text from every other one. -/
theorem splitAtEach_inj {cs' : List Char} (h : splitAtEach sep cs = splitAtEach sep cs') :
    cs = cs' := by
  rw [← intercalate_splitAtEach sep cs, h, intercalate_splitAtEach]

/-- `splitAtFirst` ends what has no separator at the first one. -/
theorem splitAtFirst_append (h : sep ∉ part) :
    splitAtFirst sep (part ++ sep :: rest) = (part, some rest) := by
  induction part with
  | nil => simp [splitAtFirst]
  | cons c part ih =>
    have hc : c ≠ sep := fun heq => h (heq ▸ List.mem_cons_self)
    have hpart : sep ∉ part := fun hmem => h (List.mem_cons_of_mem _ hmem)
    simp only [List.cons_append, splitAtFirst, hc, if_false, ih hpart]

/-! ## Trimming -/

/-- `IsTrimmed cs` says that there is no white space at the ends of `cs`. -/
def IsTrimmed (cs : List Char) : Prop :=
  (∀ c ∈ cs.head?, isBlank c = false) ∧ ∀ c ∈ cs.getLast?, isBlank c = false

/-- `List.dropWhile` leaves a text that starts with a character that is not dropped. -/
private theorem head?_dropWhile_blank (cs : List Char) :
    ∀ c ∈ (cs.dropWhile isBlank).head?, isBlank c = false := by
  intro c hc
  have hhead := List.head?_dropWhile_not isBlank cs
  rw [Option.mem_def.1 hc] at hhead
  exact hhead

private theorem trimEnd_isPrefix (cs : List Char) : trimEnd cs <+: cs := by
  rw [← List.reverse_suffix, trimEnd, List.reverse_reverse]
  exact List.dropWhile_suffix isBlank

/-- `trimChars` takes a part out of the middle of a text. -/
theorem trimChars_isInfix (cs : List Char) : trimChars cs <:+: cs :=
  (trimEnd_isPrefix _).isInfix.trans (List.dropWhile_suffix isBlank).isInfix

theorem isTrimmed_trimChars (cs : List Char) : IsTrimmed (trimChars cs) := by
  constructor
  · intro c hc
    -- What is dropped at the end leaves the first character where it is.
    obtain ⟨dropped, happend⟩ := trimEnd_isPrefix (cs.dropWhile isBlank)
    apply head?_dropWhile_blank cs c
    rw [← happend, List.head?_append, show (trimEnd (cs.dropWhile isBlank)).head? = some c from hc]
    rfl
  · intro c hc
    rw [trimChars, trimEnd, List.getLast?_reverse] at hc
    exact head?_dropWhile_blank _ c hc

/-- `List.dropWhile` drops nothing where the text does not start with white space. -/
private theorem dropWhile_blank (h : ∀ c ∈ cs.head?, isBlank c = false) :
    cs.dropWhile isBlank = cs := by
  cases cs with
  | nil => rfl
  | cons c cs => simp [h c rfl]

theorem trimChars_of_isTrimmed (h : IsTrimmed cs) : trimChars cs = cs := by
  have hlast : ∀ c ∈ cs.reverse.head?, isBlank c = false := by
    rw [List.head?_reverse]
    exact h.2
  rw [trimChars, dropWhile_blank h.1, trimEnd, dropWhile_blank hlast, List.reverse_reverse]

/-- `IsTrimmed` holds of a text without any white space. -/
theorem isTrimmed_of_forall (h : ∀ c ∈ cs, isBlank c = false) : IsTrimmed cs :=
  ⟨fun c hc => h c (List.mem_of_mem_head? hc), fun c hc => h c (List.mem_of_getLast? hc)⟩

/-- `trimChars` drops the white space around a text. -/
theorem trimChars_of_blank_ends {before after : List Char}
    (hbefore : ∀ c ∈ before, isBlank c = true) (hafter : ∀ c ∈ after, isBlank c = true)
    (h : IsTrimmed cs) : trimChars (before ++ cs ++ after) = cs := by
  have hend : trimEnd (cs ++ after) = trimEnd cs := by
    rw [trimEnd, trimEnd, List.reverse_append, List.dropWhile_append_of_pos]
    simpa using hafter
  rw [trimChars, List.append_assoc, List.dropWhile_append_of_pos hbefore]
  -- Of an empty text with white space around it nothing is left.
  cases cs with
  | nil =>
    have hall : (after ++ []).dropWhile isBlank = [] := List.dropWhile_append_of_pos hafter
    rw [List.append_nil] at hall
    rw [List.nil_append, hall]
    rfl
  | cons c cs =>
    rw [dropWhile_blank (by simpa using h.1), hend, trimEnd, dropWhile_blank, List.reverse_reverse]
    rw [List.head?_reverse]
    exact h.2

/-- `IsCore core cs` says that `core` is the text `cs` without the white space around it. -/
structure IsCore (core cs : List Char) : Prop where
  trimmed : IsTrimmed core
  around : ∃ before after, cs = before ++ core ++ after ∧
    (∀ c ∈ before, isBlank c = true) ∧ ∀ c ∈ after, isBlank c = true

/-- `trimEnd` drops white space only. -/
private theorem trimEnd_append_blank (cs : List Char) :
    ∃ after, trimEnd cs ++ after = cs ∧ ∀ c ∈ after, isBlank c = true := by
  refine ⟨(cs.reverse.takeWhile isBlank).reverse, ?_, fun c hc => ?_⟩
  · rw [trimEnd, ← List.reverse_append, List.takeWhile_append_dropWhile, List.reverse_reverse]
  · exact (List.all_eq_true.1 List.all_takeWhile) c (List.mem_reverse.1 hc)

/-- `trimChars` drops the white space around a text, and nothing else. -/
theorem isCore_trimChars (cs : List Char) : IsCore (trimChars cs) cs := by
  obtain ⟨after, happend, hafter⟩ := trimEnd_append_blank (cs.dropWhile isBlank)
  refine ⟨isTrimmed_trimChars cs, cs.takeWhile isBlank, after, ?_, ?_, hafter⟩
  · rw [List.append_assoc, trimChars, happend, List.takeWhile_append_dropWhile]
  · exact List.all_eq_true.1 List.all_takeWhile

/-- `trimChars` leaves nothing of a text exactly when it is blank. -/
theorem isEmpty_trimChars (cs : List Char) : (trimChars cs).isEmpty = cs.all isBlank := by
  rw [Bool.eq_iff_iff, List.isEmpty_iff, List.all_eq_true]
  constructor
  · intro hempty
    obtain ⟨-, before, after, hcs, hbefore, hafter⟩ := isCore_trimChars cs
    rw [hempty, List.append_nil] at hcs
    rw [hcs, List.forall_mem_append]
    exact ⟨hbefore, hafter⟩
  · intro hblank
    have hnothing : IsTrimmed [] := isTrimmed_of_forall (List.forall_mem_nil _)
    simpa using @trimChars_of_blank_ends [] cs [] hblank (List.forall_mem_nil _) hnothing

namespace CommaList

/-! ## The entries of a list -/

/-- `IsEntry s` says that `s` is an entry that a comma separated text can name. -/
structure IsEntry (s : String) : Prop where
  nonEmpty : s.toList ≠ []
  noComma : ',' ∉ s.toList
  trimmed : IsTrimmed s.toList

/-- `parse` reads only entries that a text can name. -/
theorem isEntry_of_mem_parse {s entry : String} (h : entry ∈ parse s) : IsEntry entry := by
  obtain ⟨cs, hcs, rfl⟩ := List.mem_map.1 h
  obtain ⟨hcs, hnonempty⟩ := List.mem_filter.1 hcs
  obtain ⟨part, hpart, rfl⟩ := List.mem_map.1 hcs
  constructor
  · simpa using hnonempty
  · intro hcomma
    rw [String.toList_ofList] at hcomma
    exact not_mem_of_mem_splitAtEach hpart ((trimChars_isInfix part).subset hcomma)
  · rw [String.toList_ofList]
    exact isTrimmed_trimChars part

/-- `parse` reads what is left of the parts between the commas without white space, in their order;
blank parts are left out. -/
theorem forall₂_isCore_parse (s : String) :
    List.Forall₂ (fun part entry => IsCore entry.toList part)
      ((splitAtEach ',' s.toList).filter (! ·.all isBlank)) (parse s) := by
  have hparse : parse s = ((splitAtEach ',' s.toList).filter (! ·.all isBlank)).map
      fun part => String.ofList (trimChars part) := by
    simp only [parse, List.filter_map, List.map_map, Function.comp_def, isEmpty_trimChars]
  rw [hparse, List.forall₂_map_right_iff, List.forall₂_same]
  intro part _
  rw [String.toList_ofList]
  exact isCore_trimChars part

/-- `splitAtEach` finds the entries that `join` wrote. -/
private theorem splitAtEach_join {entries : List String} (h : ∀ entry ∈ entries, IsEntry entry)
    (hne : entries ≠ []) : splitAtEach ',' (join entries).toList = entries.map String.toList := by
  rw [join, String.toList_intercalate]
  refine splitAtEach_intercalate ?_ (by simpa using hne)
  intro part hpart
  obtain ⟨entry, hentry, rfl⟩ := List.mem_map.1 hpart
  exact (h entry hentry).noComma

/-- `parse` reads the entries that `join` wrote. -/
theorem parse_join {entries : List String} (h : ∀ entry ∈ entries, IsEntry entry) :
    parse (join entries) = entries := by
  cases entries with
  | nil => rfl
  | cons first entries =>
    have htrim : ((first :: entries).map String.toList).map trimChars =
        (first :: entries).map String.toList := by
      rw [List.map_map]
      apply List.map_congr_left
      intro entry hentry
      exact trimChars_of_isTrimmed (h entry hentry).trimmed
    have hfilter : ((first :: entries).map String.toList).filter (! ·.isEmpty) =
        (first :: entries).map String.toList := by
      rw [List.filter_eq_self]
      intro cs hcs
      obtain ⟨entry, hentry, rfl⟩ := List.mem_map.1 hcs
      simpa using (h entry hentry).nonEmpty
    rw [parse, splitAtEach_join h nofun, htrim, hfilter, List.map_map]
    exact List.map_id'' (fun _ => String.ofList_toList) _

/-- `parse` finds the same entries in the normal form of a text. -/
theorem parse_join_parse (s : String) : parse (join (parse s)) = parse s :=
  parse_join fun _ => isEntry_of_mem_parse

/-- `parse` finds entries in every text that are not empty, have no comma and have no white space at
their ends: the parts that stand between its commas, in their order, without the white space around
them and without the blank ones. Whatever such entries are written are read again, so the text that
is written for the entries of a text is a normal form of it. -/
theorem parse_has_normal_form (s : String) :
    (∀ entry ∈ parse s, IsEntry entry) ∧
    (∃ parts, parts ≠ [] ∧ (∀ part ∈ parts, ',' ∉ part) ∧ s.toList = [','].intercalate parts ∧
      List.Forall₂ (fun part entry => IsCore entry.toList part)
        (parts.filter (! ·.all isBlank)) (parse s)) ∧
    (∀ entries, (∀ entry ∈ entries, IsEntry entry) → parse (join entries) = entries) ∧
    parse (join (parse s)) = parse s := by
  refine ⟨fun _ => isEntry_of_mem_parse, ⟨splitAtEach ',' s.toList, ?_, ?_, ?_, ?_⟩,
    fun _ => parse_join, parse_join_parse s⟩
  · exact splitAtEach_ne_nil ',' s.toList
  · exact fun _ => not_mem_of_mem_splitAtEach
  · exact (intercalate_splitAtEach ',' s.toList).symm
  · exact forall₂_isCore_parse s

/-- `parse` passes over blank parts and the white space around an entry, but not that inside it. -/
theorem parse_join_of_spaced :
    parse " node a ,, \u00a0,node-b " = ["node a", "node-b"] ∧
      parse (join ["node a", "node-b"]) = ["node a", "node-b"] := by
  have hparse : parse " node a ,, \u00a0,node-b " = ["node a", "node-b"] := by decide
  obtain ⟨hentries, -, hjoin, -⟩ := parse_has_normal_form " node a ,, \u00a0,node-b "
  rw [hparse] at hentries
  exact ⟨hparse, hjoin _ hentries⟩

end CommaList

end PodDesk.Text
