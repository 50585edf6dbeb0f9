import BlockCodec.Proofs.FaultLocation
import BlockCodec.Proofs.IsoText

namespace BlockCodec

/-- Every arity fault a decoder reports lies on a node whose header breaks its family's
rule. -/
def ReportsArityAtHeaders {α : Type} (decode : Nat → Json → Except DecodeError α) : Prop :=
  ∀ m v e label found, decode m v = .error e → e.problem = .argCount label found →
    ∃ u, v.at? e.path = some u ∧ ¬e.family.HeaderOk u

theorem ReportsFirstFault.arityAtHeaders {α : Type} {decode : Nat → Json → Except DecodeError α}
    {F : Family} (first : ReportsFirstFault decode F) : ReportsArityAtHeaders decode := by
  intro m v e label found failed arity
  obtain ⟨u, r, located, -, fault, -⟩ := first m v e failed
  refine ⟨u, located, ?_⟩
  rcases fault with ⟨-, -, ⟨depth, -⟩ | ⟨-, broken⟩⟩ | ⟨valueFault, -⟩
  · rw [arity] at depth
    cases depth
  · exact broken
  · rw [arity] at valueFault
    cases valueFault

namespace Calendar

/-- A valid date of a 32-bit year lies within `2 ^ 40` days of the epoch. -/
theorem daysFromCivil_natAbs_lt {year : Int} {month day : Nat} (year32 : year.natAbs < 2 ^ 31)
    (valid : ValidDate year month day) : (daysFromCivil year month day).natAbs < 2 ^ 40 := by
  obtain ⟨low, high⟩ := daysFromCivil_within_era valid
  generalize shifted : (if month ≤ 2 then year - 1 else year) = y at low high
  have near : y = year - 1 ∨ y = year := by
    rw [← shifted]
    split <;> omega
  unfold epochDays at low high
  omega

end Calendar

theorem decoding_stays_in_bounds :
    ReportsArityAtHeaders Expression.decode ∧ ReportsArityAtHeaders Stage.decode ∧
      ReportsArityAtHeaders Pipeline.decode ∧ ReportsArityAtHeaders Program.decode ∧
      (∀ year month day, year.natAbs < 2 ^ 31 → Calendar.ValidDate year month day →
        (Calendar.daysFromCivil year month day).natAbs < 2 ^ 40) ∧
      ∀ t : Instant, t.dayNumber.natAbs ≤ 100000000 ∧ t.year.natAbs < 2 ^ 31 :=
  ⟨(ReportsFirstFault.of_decodeAt (fun _ _ => rfl) Expression.firstFault_of_decodeAt).arityAtHeaders,
    (ReportsFirstFault.of_decodeAt (fun _ _ => rfl) Stage.firstFault_of_decodeAt).arityAtHeaders,
    (ReportsFirstFault.of_decodeAt (fun _ _ => rfl) Pipeline.firstFault_of_decodeAt).arityAtHeaders,
    (ReportsFirstFault.of_decodeAt (fun _ _ => rfl) Program.firstFault_of_decodeAt).arityAtHeaders,
    fun _ _ _ year32 valid => Calendar.daysFromCivil_natAbs_lt year32 valid,
    fun t => ⟨t.dayNumber_natAbs_le, lt_trans (Instant.year_natAbs_lt t) (by norm_num)⟩⟩

end BlockCodec
