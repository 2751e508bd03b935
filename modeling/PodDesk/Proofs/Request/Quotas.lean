import PodDesk.Proofs.Request.Canonical

/-!
# Quotas that are shown

A quota is a text in the Pod and a figure of 32 bits in the request. Amounts of memory in whole
numbers and amounts of processor time down to thousandths are shown as the figures that exact
arithmetic gives, however many digits they have, and figures that a request writes come back.

## Main statements

- `Resources.memory_shown_exactly`: amounts of memory with any suffix
- `Resources.processorTime_shown_exactly`: amounts of processor time in cores and thousandths
-/

namespace PodDesk.Resources

open Decimal (IsNumeral IsThousandths signed)
open Quantity (IsMemory IsProcessorTime Spells)

variable {r : Resources} {quantities : Option TextMap} {s : String} {negative : Bool}
  {text : List Char} {bytes n : Nat}

/-- `Resources.memory` of quantities that have an amount of it. -/
theorem memory_of_isMemory (htext : IsMemory text bytes) (hs : Spells s negative text)
    (hget : quantities.bind (·.get? "memory") = some s) :
    (memory quantities).toInt =
      max (-2147483648) (min (signed negative (bytes / 2 ^ 20)) 2147483647) := by
  rw [memory, hget, Option.map_some, Option.getD_some, Quantity.mebibytes_of_isMemory htext hs,
    Quantity.toInt_clampInt32]
  rfl

/-- `Resources.cpu` of quantities that have an amount of processor time. -/
theorem cpu_of_isProcessorTime (htext : IsProcessorTime text n) (hs : Spells s negative text)
    (hget : quantities.bind (·.get? "cpu") = some s) :
    (cpu quantities).toInt = max (-2147483648) (min (signed negative n) 2147483647) := by
  rw [cpu, hget, Option.map_some, Option.getD_some, Quantity.millicores_of_isProcessorTime htext hs,
    Quantity.toInt_clampInt32]

/-- `Resources.ofPod` of the quotas that a request writes, if there is any figure. -/
theorem ofPod_toPod?_of_hasFigure (henabled : r.enabled = true) (h : r.HasFigure) :
    ofPod r.toPod? =
      { enabled := true
        memRequest := nonNegative r.memRequest
        memLimit := nonNegative r.memLimit
        cpuRequest := nonNegative r.cpuRequest
        cpuLimit := nonNegative r.cpuLimit } := by
  rw [ofPod_toPod?, normal_of_hasFigure henabled h]

theorem nonNegative_of_pos {k : Int32} (h : 0 < k) : nonNegative k = k :=
  if_pos h

/-- An amount of memory in whole numbers is shown by `ofPod` as the figure that exact arithmetic
gives, with a remainder dropped, or as the nearest one of 32 bits. Positive figures that the Pod of
a request holds are shown as they were. -/
theorem memory_shown_exactly (htext : IsMemory text bytes) (hs : Spells s negative text) :
    (∀ r : Pod.Resources,
      (r.requests.bind (·.get? "memory") = some s → (ofPod (some r)).memRequest.toInt =
        max (-2147483648) (min (signed negative (bytes / 2 ^ 20)) 2147483647)) ∧
      (r.limits.bind (·.get? "memory") = some s → (ofPod (some r)).memLimit.toInt =
        max (-2147483648) (min (signed negative (bytes / 2 ^ 20)) 2147483647))) ∧
    ∀ r : Resources, r.enabled = true →
      (0 < r.memRequest → (ofPod r.toPod?).memRequest = r.memRequest) ∧
      (0 < r.memLimit → (ofPod r.toPod?).memLimit = r.memLimit) := by
  refine ⟨fun r => ⟨memory_of_isMemory htext hs, memory_of_isMemory htext hs⟩,
    fun r henabled => ⟨fun hpos => ?_, fun hpos => ?_⟩⟩
  · rw [ofPod_toPod?_of_hasFigure henabled (.inr (.inl hpos)), nonNegative_of_pos hpos]
  · rw [ofPod_toPod?_of_hasFigure henabled (.inr (.inr (.inr hpos))), nonNegative_of_pos hpos]

/-- A negative amount with zeros in front and white space around, of which the last KiB is dropped,
still fits; an amount with as many digits in a larger unit does not. -/
theorem memory_shown_exactly_at_edge :
    (ofPod (some { limits := some (SortedMap.empty.insert "memory" "\t-0002199023255551Ki \n") })
      ).memLimit.toInt = -2147483647 ∧
    (ofPod (some { requests := some (SortedMap.empty.insert "memory" "2199023255551E") })
      ).memRequest.toInt = 2147483647 ∧
    (ofPod ({ enabled := true, memRequest := 2147483647 } : Resources).toPod?).memRequest =
      2147483647 := by
  -- The texts as the numerals and suffixes that they spell.
  have hzeros : IsNumeral "0002199023255551".toList 2199023255551 :=
    ⟨by decide, by simp, by decide⟩
  have hnumeral : IsNumeral "2199023255551".toList 2199023255551 :=
    ⟨by decide, by simp, by decide⟩
  have hkibi : ("Ki", 1024) ∈ Quantity.memorySuffixes := by decide
  have hexa : ("E", 1000 ^ 6) ∈ Quantity.memorySuffixes := by decide
  have hedge : Spells "\t-0002199023255551Ki \n" true
      ("0002199023255551".toList ++ "Ki".toList) :=
    ⟨['\t'], [' ', '\n'], by simp [Text.isBlank], by simp [Text.isBlank], by decide⟩
  have hbeyond : Spells "2199023255551E" false ("2199023255551".toList ++ "E".toList) :=
    ⟨[], [], by simp, by simp, by decide⟩
  refine ⟨?_, ?_, ?_⟩
  · exact ((memory_shown_exactly (.mk hzeros hkibi) hedge).1 _).2 (by simp)
  · exact ((memory_shown_exactly (.mk hnumeral hexa) hbeyond).1 _).1 (by simp)
  · exact ((memory_shown_exactly (.mk hnumeral hexa) hbeyond).2 _ rfl).1 (by decide)

/-- An amount of processor time down to thousandths of a core is shown by `ofPod` as so many
thousandths, or as the nearest figure of 32 bits. Positive figures that the Pod of a request holds
are shown as they were. -/
theorem processorTime_shown_exactly (htext : IsProcessorTime text n) (hs : Spells s negative text) :
    (∀ r : Pod.Resources,
      (r.requests.bind (·.get? "cpu") = some s → (ofPod (some r)).cpuRequest.toInt =
        max (-2147483648) (min (signed negative n) 2147483647)) ∧
      (r.limits.bind (·.get? "cpu") = some s → (ofPod (some r)).cpuLimit.toInt =
        max (-2147483648) (min (signed negative n) 2147483647))) ∧
    ∀ r : Resources, r.enabled = true →
      (0 < r.cpuRequest → (ofPod r.toPod?).cpuRequest = r.cpuRequest) ∧
      (0 < r.cpuLimit → (ofPod r.toPod?).cpuLimit = r.cpuLimit) := by
  refine ⟨fun r => ⟨cpu_of_isProcessorTime htext hs, cpu_of_isProcessorTime htext hs⟩,
    fun r henabled => ⟨fun hpos => ?_, fun hpos => ?_⟩⟩
  · rw [ofPod_toPod?_of_hasFigure henabled (.inl hpos), nonNegative_of_pos hpos]
  · rw [ofPod_toPod?_of_hasFigure henabled (.inr (.inr (.inl hpos))), nonNegative_of_pos hpos]

/-- A negative amount with a fraction, a zero in front and white space around still fits; one
thousandth of a core more than the largest figure does not. -/
theorem processorTime_shown_exactly_at_edge :
    (ofPod (some { limits := some (SortedMap.empty.insert "cpu" "\t-02147483.64 \n") })
      ).cpuLimit.toInt = -2147483640 ∧
    (ofPod (some { requests := some (SortedMap.empty.insert "cpu" "2147483648m") })
      ).cpuRequest.toInt = 2147483647 ∧
    (ofPod ({ enabled := true, cpuRequest := 2147483647 } : Resources).toPod?).cpuRequest =
      2147483647 := by
  have hwhole : IsNumeral "02147483".toList 2147483 := ⟨by decide, by simp, by decide⟩
  have hplaces : IsThousandths "64".toList 640 := ⟨by simp, by decide, by decide⟩
  have hnumeral : IsNumeral "2147483648".toList 2147483648 := ⟨by decide, by simp, by decide⟩
  have hedge : Spells "\t-02147483.64 \n" true ("02147483".toList ++ '.' :: "64".toList) :=
    ⟨['\t'], [' ', '\n'], by simp [Text.isBlank], by simp [Text.isBlank], by decide⟩
  have hbeyond : Spells "2147483648m" false ("2147483648".toList ++ ['m']) :=
    ⟨[], [], by simp, by simp, by decide⟩
  refine ⟨?_, ?_, ?_⟩
  · exact ((processorTime_shown_exactly (.fraction hwhole hplaces) hedge).1 _).2 (by simp)
  · exact ((processorTime_shown_exactly (.millicores hnumeral) hbeyond).1 _).1 (by simp)
  · exact ((processorTime_shown_exactly (.millicores hnumeral) hbeyond).2 _ rfl).1 (by decide)

end PodDesk.Resources
