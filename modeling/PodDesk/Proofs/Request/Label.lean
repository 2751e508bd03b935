import Mathlib.Computability.Language
import PodDesk.Request.Validation

/-!
# Labels

The labels of the domain name system are the words of `[a-z0-9]([-a-z0-9]*[a-z0-9])?`. Here they are
a language, built like the expression, and the check of a text looks at its ends and at every
character in between.

## Main statements

- `Label.mem_words_iff`: the words are the texts with the right characters and the right ends
- `Label.check_iff`: the check of the characters of a text accepts the words
-/

namespace PodDesk

open Computability

namespace Label

/-- The words of one lowercase letter or digit: `[a-z0-9]`. -/
def edge : Language Char :=
  {cs | ∃ c, (('a' ≤ c ∧ c ≤ 'z') ∨ ('0' ≤ c ∧ c ≤ '9')) ∧ cs = [c]}

/-- The words of one lowercase letter, digit or hyphen: `[-a-z0-9]`. -/
def inner : Language Char :=
  {['-']} + edge

/-- The labels: `[a-z0-9]([-a-z0-9]*[a-z0-9])?`. -/
def words : Language Char :=
  edge * (1 + inner∗ * edge)

variable {c : Char} {cs : List Char}

theorem isLabelEdge_iff : isLabelEdge c = true ↔ ('a' ≤ c ∧ c ≤ 'z') ∨ ('0' ≤ c ∧ c ≤ '9') := by
  simp [isLabelEdge]

theorem mem_edge_iff : cs ∈ edge ↔ ∃ c, isLabelEdge c = true ∧ cs = [c] := by
  simp only [isLabelEdge_iff]
  rfl

theorem mem_inner_iff : cs ∈ inner ↔ ∃ c, isLabelChar c = true ∧ cs = [c] := by
  have hhyphen : cs ∈ ({['-']} : Language Char) ↔ cs = ['-'] := Iff.rfl
  rw [inner, Language.mem_add, hhyphen, mem_edge_iff]
  simp only [isLabelChar, Bool.or_eq_true, beq_iff_eq]
  constructor
  · rintro (rfl | ⟨c, hc, rfl⟩)
    · exact ⟨'-', .inr rfl, rfl⟩
    · exact ⟨c, .inl hc, rfl⟩
  · rintro ⟨c, hc | rfl, rfl⟩
    · exact .inr ⟨c, hc, rfl⟩
    · exact .inl rfl

/-- The words of `inner∗` are the texts with the characters of labels. -/
theorem mem_kstar_inner_iff : cs ∈ inner∗ ↔ ∀ c ∈ cs, isLabelChar c = true := by
  rw [Language.mem_kstar]
  constructor
  · rintro ⟨parts, rfl, hparts⟩ c hc
    obtain ⟨part, hpart, hc⟩ := List.mem_flatten.1 hc
    obtain ⟨d, hd, rfl⟩ := mem_inner_iff.1 (hparts part hpart)
    rwa [List.mem_singleton.1 hc]
  · intro h
    refine ⟨cs.map ([·]), ?_, ?_⟩
    · rw [← List.flatMap_def, List.flatMap_singleton']
    · intro part hpart
      obtain ⟨c, hc, rfl⟩ := List.mem_map.1 hpart
      exact mem_inner_iff.2 ⟨c, h c hc, rfl⟩

/-- `isLabelEdge` implies `isLabelChar`: what may be at an end of a label may be anywhere in it. -/
theorem isLabelChar_of_isLabelEdge (h : isLabelEdge c = true) : isLabelChar c = true := by
  simp [isLabelChar, h]

/-- A text is in `Label.words` exactly when all of its characters are those of labels and it starts
and ends with a letter or a digit. -/
theorem mem_words_iff : cs ∈ words ↔
    (∀ c ∈ cs, isLabelChar c = true) ∧ (∃ c ∈ cs.head?, isLabelEdge c = true) ∧
      ∃ c ∈ cs.getLast?, isLabelEdge c = true := by
  rw [words, Language.mem_mul]
  constructor
  -- The first character is one end, and the last one of the rest is the other.
  · rintro ⟨first, hfirst, rest, hrest, rfl⟩
    obtain ⟨a, ha, rfl⟩ := mem_edge_iff.1 hfirst
    have hchar := isLabelChar_of_isLabelEdge ha
    rcases hrest with rfl | hrest
    -- One character is at both ends.
    · simp [ha, hchar]
    · obtain ⟨middle, hmiddle, last, hlast, rfl⟩ := Language.mem_mul.1 hrest
      obtain ⟨z, hz, rfl⟩ := mem_edge_iff.1 hlast
      rw [mem_kstar_inner_iff] at hmiddle
      refine ⟨?_, ⟨a, rfl, ha⟩, ⟨z, ?_, hz⟩⟩
      · simp only [List.forall_mem_append, List.forall_mem_singleton]
        exact ⟨hchar, hmiddle, isLabelChar_of_isLabelEdge hz⟩
      · rw [← List.append_assoc]
        exact List.getLast?_concat
  · rintro ⟨hchars, ⟨a, ha, hedge⟩, ⟨z, hz, hedge'⟩⟩
    -- What follows the first character is nothing, or it has a last one of its own.
    obtain ⟨rest, rfl⟩ := List.head?_eq_some_iff.1 ha
    refine ⟨[a], mem_edge_iff.2 ⟨a, hedge, rfl⟩, rest, ?_, rfl⟩
    rcases rest.eq_nil_or_concat' with rfl | ⟨middle, last, rfl⟩
    · exact .inl rfl
    · right
      rw [← List.cons_append, List.getLast?_concat, Option.mem_some_iff] at hz
      subst hz
      refine Language.mem_mul.2 ⟨middle, ?_, [last], mem_edge_iff.2 ⟨last, hedge', rfl⟩, rfl⟩
      rw [mem_kstar_inner_iff]
      intro c hc
      exact hchars c (List.mem_cons_of_mem _ (List.mem_append_left _ hc))

/-- The check of the characters of a text accepts `Label.words`. -/
theorem check_iff :
    (cs.all isLabelChar && cs.head?.any isLabelEdge && cs.getLast?.any isLabelEdge) = true ↔
      cs ∈ words := by
  simp only [mem_words_iff, Bool.and_eq_true, List.all_eq_true, Option.any_eq_true, and_assoc,
    Option.mem_def]

/-- No label in `Label.words` is empty. -/
theorem ne_nil_of_mem_words (h : cs ∈ words) : cs ≠ [] := by
  rintro rfl
  obtain ⟨c, hc, -⟩ := (mem_words_iff.1 h).2.1
  simp at hc

end Label

end PodDesk
