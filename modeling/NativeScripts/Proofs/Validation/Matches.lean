import NativeScripts.Proofs.Validation.Account
import NativeScripts.Proofs.Validation.Substitution

/-! All witnesses that match. A witness is judged if no later one has its hash, so that a pass
speaks for every match only where witnesses with one hash have one verdict. Scripts without
a collision are such witnesses. -/

namespace NativeScripts

namespace WitnessRule

variable {ω : Type} (rule : WitnessRule ω)

/-- Each hash that is required is matched, and whatever matches one holds. -/
structure AllMatchesHold (required : List ScriptHash) (witnesses : List ω) : Prop where
  exists_match : ∀ hash ∈ required, ∃ w ∈ witnesses, rule.hashOf w = hash
  holds : ∀ w ∈ witnesses, rule.hashOf w ∈ required → rule.holds w = true

variable {rule} {required : List ScriptHash} {witnesses : List ω}

theorem IsLast.mem {hash : ScriptHash} {w : ω} (h : rule.IsLast witnesses hash w) :
    w ∈ witnesses ∧ rule.hashOf w = hash :=
  of_decisive?_eq_some (decisive?_eq_some.mpr h)

theorem exists_last {hash : ScriptHash} (h : ∃ w ∈ witnesses, rule.hashOf w = hash) :
    ∃ w, rule.IsLast witnesses hash w := by
  obtain ⟨w, hw, hhash⟩ := h
  cases hd : rule.decisive? witnesses hash with
  | none => exact absurd hhash (decisive?_eq_none.mp hd w hw)
  | some v => exact ⟨v, decisive?_eq_some.mp hd⟩

theorem passed_iff_last :
    (rule.validate required witnesses).passed = true ↔
      ∀ hash ∈ required, ∃ w, rule.IsLast witnesses hash w ∧ rule.holds w = true := by
  simp only [passed_validate, decisive?_eq_some]

theorem AllMatchesHold.passed (h : rule.AllMatchesHold required witnesses) :
    (rule.validate required witnesses).passed = true := by
  refine passed_iff_last.mpr fun hash hr => ?_
  obtain ⟨w, hlast⟩ := exists_last (h.exists_match hash hr)
  obtain ⟨hw, hhash⟩ := hlast.mem
  exact ⟨w, hlast, h.holds w hw (hhash ▸ hr)⟩

theorem allMatchesHold_of_passed (hc : rule.Coherent witnesses)
    (h : (rule.validate required witnesses).passed = true) :
    rule.AllMatchesHold required witnesses := by
  have hlast := passed_iff_last.mp h
  refine ⟨fun hash hr => ?_, fun w hw hr => ?_⟩
  · obtain ⟨w, hw, -⟩ := hlast hash hr
    exact ⟨w, hw.mem⟩
  · obtain ⟨v, hv, hholds⟩ := hlast _ hr
    rw [hc w hw v hv.mem.1 hv.mem.2.symm]
    exact hholds

end WitnessRule

/-- Native scripts are coherent witnesses, unless two of them collide. -/
theorem NativeScript.coherent_or_collides {c : Context} {witnesses : List NativeScript}
    (hw : ∀ w ∈ witnesses, w.Fits) :
    (witnessRule c).Coherent witnesses ∨ ∃ w ∈ witnesses, ∃ v ∈ witnesses, w.Collides v := by
  by_cases h : ∃ w ∈ witnesses, ∃ v ∈ witnesses, w.Collides v
  · exact .inr h
  · refine .inl fun w hwm v hvm hhash => ?_
    rcases eq_or_collides_of_hash_eq (hw w hwm) (hw v hvm) hhash with rfl | hcollides
    · rfl
    · exact absurd ⟨w, hwm, v, hvm, hcollides⟩ h

/-- Passed means that each required hash is matched and that the last match holds. This is so
if all matches hold, and for coherent witnesses only then. -/
theorem passed_iff_last_match_holds {ω : Type} (rule : WitnessRule ω)
    (required : List ScriptHash) (witnesses : List ω) :
    ((rule.validate required witnesses).passed = true ↔
      ∀ hash ∈ required, ∃ w, rule.IsLast witnesses hash w ∧ rule.holds w = true) ∧
    (rule.AllMatchesHold required witnesses →
      (rule.validate required witnesses).passed = true) ∧
    (rule.Coherent witnesses → ((rule.validate required witnesses).passed = true ↔
      rule.AllMatchesHold required witnesses)) :=
  ⟨WitnessRule.passed_iff_last, WitnessRule.AllMatchesHold.passed, fun hc =>
    ⟨WitnessRule.allMatchesHold_of_passed hc, WitnessRule.AllMatchesHold.passed⟩⟩

theorem coherent_locks_pass :
    (lockRule signedByFirst).AllMatchesHold [.filled 9] [lock 9 1, lock 8 2, lock 9 1] ∧
    (lockRule signedByFirst).Coherent [lock 9 1, lock 8 2, lock 9 1] ∧
    ((lockRule signedByFirst).validate [.filled 9] [lock 9 1, lock 8 2, lock 9 1]).passed = true ∧
    (((lockRule signedByFirst).validate [.filled 9] [lock 9 1, lock 8 2, lock 9 1]).passed = true ↔
      (lockRule signedByFirst).AllMatchesHold [.filled 9] [lock 9 1, lock 8 2, lock 9 1]) := by
  have hmatches :
      (lockRule signedByFirst).AllMatchesHold [.filled 9] [lock 9 1, lock 8 2, lock 9 1] :=
    ⟨by decide, by decide⟩
  have hcoherent : (lockRule signedByFirst).Coherent [lock 9 1, lock 8 2, lock 9 1] := by decide
  have h := passed_iff_last_match_holds (lockRule signedByFirst) [.filled 9]
    [lock 9 1, lock 8 2, lock 9 1]
  exact ⟨hmatches, hcoherent, h.2.1 hmatches, h.2.2 hcoherent⟩

/-- A lock whose key has not signed is passed over when a later one has its hash. -/
theorem covered_lock_passes :
    ¬(((lockRule signedByFirst).validate [.filled 9] [lock 9 2, lock 9 1]).passed = true ↔
      (lockRule signedByFirst).AllMatchesHold [.filled 9] [lock 9 2, lock 9 1]) := by
  intro h
  have hpassed : ((lockRule signedByFirst).validate [.filled 9] [lock 9 2, lock 9 1]).passed =
      true := by decide
  have hheld : (lockRule signedByFirst).holds (lock 9 2) = true :=
    (h.mp hpassed).holds (lock 9 2) List.mem_cons_self List.mem_cons_self
  have hopen : (lockRule signedByFirst).holds (lock 9 2) = false := by decide
  rw [hopen] at hheld
  cases hheld

end NativeScripts
