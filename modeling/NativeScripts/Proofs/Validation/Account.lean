import Mathlib.Data.List.Basic
import NativeScripts.Proofs.Validation.Passing
import NativeScripts.ScriptFault

/-! What a report says of every hash that is required. The last witness with the hash
decides, whatever stands before it, and if witnesses with one hash have one verdict, then
neither their order nor their number counts. -/

namespace NativeScripts

namespace WitnessRule

variable {ω : Type} (rule : WitnessRule ω)

/-- The witness has the hash, and no witness after it does. -/
def IsLast (witnesses : List ω) (hash : ScriptHash) (w : ω) : Prop :=
  ∃ earlier later, witnesses = earlier ++ w :: later ∧ rule.hashOf w = hash ∧
    ∀ v ∈ later, rule.hashOf v ≠ hash

/-- The failures that a list of required hashes comes down to, hash by hash. -/
inductive Accounts (witnesses : List ω) : List ScriptHash → List Failure → Prop where
  | nil : Accounts witnesses [] []
  | missing {hash : ScriptHash} {required : List ScriptHash} {failures : List Failure}
      (h : ∀ w ∈ witnesses, rule.hashOf w ≠ hash) (rest : Accounts witnesses required failures) :
      Accounts witnesses (hash :: required) (.missing hash :: failures)
  | unsatisfied {hash : ScriptHash} {required : List ScriptHash} {failures : List Failure} {w : ω}
      (h : rule.IsLast witnesses hash w) (hw : rule.holds w = false)
      (rest : Accounts witnesses required failures) :
      Accounts witnesses (hash :: required) (.unsatisfied hash :: failures)
  | satisfied {hash : ScriptHash} {required : List ScriptHash} {failures : List Failure} {w : ω}
      (h : rule.IsLast witnesses hash w) (hw : rule.holds w = true)
      (rest : Accounts witnesses required failures) :
      Accounts witnesses (hash :: required) failures

/-- Witnesses with one hash have one verdict. -/
def Coherent (witnesses : List ω) : Prop :=
  ∀ w ∈ witnesses, ∀ v ∈ witnesses, rule.hashOf w = rule.hashOf v → rule.holds w = rule.holds v

instance (witnesses : List ω) : Decidable (rule.Coherent witnesses) :=
  inferInstanceAs (Decidable (∀ w ∈ witnesses, ∀ v ∈ witnesses,
    rule.hashOf w = rule.hashOf v → rule.holds w = rule.holds v))

variable {rule} {required : List ScriptHash} {witnesses others : List ω} {hash : ScriptHash} {w : ω}

theorem decisive?_eq_some :
    rule.decisive? witnesses hash = some w ↔ rule.IsLast witnesses hash w := by
  rw [decisive?, List.find?_eq_some_iff_append]
  constructor
  · rintro ⟨hw, later, earlier, hsplit, hlater⟩
    have hwitnesses : witnesses = earlier.reverse ++ w :: later.reverse := by
      rw [← witnesses.reverse_reverse, hsplit]
      simp
    exact ⟨earlier.reverse, later.reverse, hwitnesses, by simpa using hw, by simpa using hlater⟩
  · rintro ⟨earlier, later, rfl, hw, hlater⟩
    exact ⟨by simpa using hw, later.reverse, earlier.reverse, by simp, by simpa using hlater⟩

theorem decisive?_eq_none :
    rule.decisive? witnesses hash = none ↔ ∀ w ∈ witnesses, rule.hashOf w ≠ hash := by
  simp [decisive?]

theorem failure?_missing (h : ∀ w ∈ witnesses, rule.hashOf w ≠ hash) :
    rule.failure? (rule.index witnesses) hash = some (.missing hash) := by
  rw [failure?, lookup_index, decisive?_eq_none.mpr h]

theorem failure?_last (h : rule.IsLast witnesses hash w) :
    rule.failure? (rule.index witnesses) hash =
      if rule.holds w then none else some (.unsatisfied hash) := by
  rw [failure?, lookup_index, decisive?_eq_some.mpr h]

theorem failures_missing (h : ∀ w ∈ witnesses, rule.hashOf w ≠ hash) :
    (rule.validate (hash :: required) witnesses).failures =
      .missing hash :: (rule.validate required witnesses).failures :=
  List.filterMap_cons_some (failure?_missing h)

theorem failures_unsatisfied (h : rule.IsLast witnesses hash w) (hw : rule.holds w = false) :
    (rule.validate (hash :: required) witnesses).failures =
      .unsatisfied hash :: (rule.validate required witnesses).failures := by
  have hfailure := failure?_last h
  simp only [hw, Bool.false_eq_true, if_false] at hfailure
  exact List.filterMap_cons_some hfailure

theorem failures_satisfied (h : rule.IsLast witnesses hash w) (hw : rule.holds w = true) :
    (rule.validate (hash :: required) witnesses).failures =
      (rule.validate required witnesses).failures := by
  have hfailure := failure?_last h
  simp only [hw, if_true] at hfailure
  exact List.filterMap_cons_none hfailure

theorem accounts_validate (required : List ScriptHash) (witnesses : List ω) :
    rule.Accounts witnesses required (rule.validate required witnesses).failures := by
  induction required with
  | nil => exact .nil
  | cons hash required ih =>
    cases hd : rule.decisive? witnesses hash with
    | none =>
      have hnone := decisive?_eq_none.mp hd
      rw [failures_missing hnone]
      exact .missing hnone ih
    | some w =>
      have hlast := decisive?_eq_some.mp hd
      cases hw : rule.holds w with
      | true =>
        rw [failures_satisfied hlast hw]
        exact .satisfied hlast hw ih
      | false =>
        rw [failures_unsatisfied hlast hw]
        exact .unsatisfied hlast hw ih

theorem Accounts.eq_failures {failures : List Failure}
    (h : rule.Accounts witnesses required failures) :
    failures = (rule.validate required witnesses).failures := by
  induction h with
  | nil => rfl
  | missing hnone _ ih => rw [failures_missing hnone, ← ih]
  | unsatisfied hlast hw _ ih => rw [failures_unsatisfied hlast hw, ← ih]
  | satisfied hlast hw _ ih => rw [failures_satisfied hlast hw, ← ih]

theorem accounts_iff {failures : List Failure} :
    rule.Accounts witnesses required failures ↔
      failures = (rule.validate required witnesses).failures := by
  constructor
  · exact Accounts.eq_failures
  · rintro rfl
    exact accounts_validate required witnesses

/-- A coherent list answers for a hash as any list does that has the same witnesses with it. -/
theorem failure?_congr (hc : rule.Coherent witnesses)
    (h : ∀ w, rule.hashOf w = hash → (w ∈ others ↔ w ∈ witnesses)) :
    rule.failure? (rule.index others) hash = rule.failure? (rule.index witnesses) hash := by
  cases hd : rule.decisive? witnesses hash with
  | none =>
    have hnone := decisive?_eq_none.mp hd
    have hnone' : ∀ w ∈ others, rule.hashOf w ≠ hash :=
      fun w hw he => hnone w ((h w he).mp hw) he
    rw [failure?_missing hnone, failure?_missing hnone']
  | some w =>
    obtain ⟨hw, hhash⟩ := of_decisive?_eq_some hd
    cases hd' : rule.decisive? others hash with
    | none => exact absurd hhash (decisive?_eq_none.mp hd' w ((h w hhash).mpr hw))
    | some v =>
      -- another witness may be the last one now, but it has the same hash
      obtain ⟨hv, hhash'⟩ := of_decisive?_eq_some hd'
      have hverdict : rule.holds v = rule.holds w :=
        hc v ((h v hhash').mp hv) w hw (hhash'.trans hhash.symm)
      rw [failure?_last (decisive?_eq_some.mp hd), failure?_last (decisive?_eq_some.mp hd'),
        hverdict]

theorem validate_congr (hc : rule.Coherent witnesses)
    (h : ∀ w, rule.hashOf w ∈ required → (w ∈ others ↔ w ∈ witnesses)) :
    rule.validate required others = rule.validate required witnesses := by
  have hfailures : required.filterMap (rule.failure? (rule.index others)) =
      required.filterMap (rule.failure? (rule.index witnesses)) :=
    List.filterMap_congr fun hash hr => failure?_congr hc fun w hw => h w (hw ▸ hr)
  exact congrArg Report.mk hfailures

end WitnessRule

theorem Report.passed_iff {r : Report} : r.passed = true ↔ r.failures = [] := by
  rw [passed, List.isEmpty_iff]

theorem Report.enforce_message (r : Report) :
    (r.enforce.mapError fun report => (ScriptFault.validationFailed report).message) =
      if r.failures = [] then .ok ()
      else .error ("script validation failed: " ++
        "; ".intercalate (r.failures.map Failure.message)) := by
  by_cases h : r.failures = []
  · rw [if_pos h, enforce, if_pos (passed_iff.mpr h)]
    rfl
  · rw [if_neg h, enforce, if_neg (mt passed_iff.mp h)]
    rfl

/-- A report lists what the required hashes come down to and nothing else, it is passed if it
lists nothing, and a refusal strings the messages together. Among coherent witnesses only
those with a required hash count, in any order and any number. -/
theorem report_accounts_for_required {ω : Type} (rule : WitnessRule ω)
    (required : List ScriptHash) (witnesses : List ω) :
    let report := rule.validate required witnesses
    (∀ failures, rule.Accounts witnesses required failures ↔ failures = report.failures) ∧
    (report.passed = true ↔ report.failures = []) ∧
    (report.enforce = .ok () ↔ report.passed = true) ∧
    ((report.enforce.mapError fun r => (ScriptFault.validationFailed r).message) =
      if report.failures = [] then .ok ()
      else .error ("script validation failed: " ++
        "; ".intercalate (report.failures.map Failure.message))) ∧
    ∀ others, rule.Coherent witnesses →
      (∀ w, rule.hashOf w ∈ required → (w ∈ others ↔ w ∈ witnesses)) →
      rule.validate required others = report :=
  ⟨fun _ => WitnessRule.accounts_iff, Report.passed_iff, Report.enforce_eq_ok,
    Report.enforce_message _, fun _ => WitnessRule.validate_congr⟩

/-- A witness that is a hash and the key that has to sign. -/
def lockRule (c : Context) : WitnessRule (ScriptHash × KeyHash) :=
  ⟨Prod.fst, fun lock => c (.signedBy lock.2)⟩

def lock (id key : UInt8) : ScriptHash × KeyHash :=
  (.filled id, .filled key)

/-- Only the first key has signed. -/
def signedByFirst : Context :=
  (Transaction.empty.sign (.filled 1)).answer

/-- One hash is required twice and another has no witness. The lock that only the second list
has is for a hash that is not required. -/
theorem locks_reported_alike :
    (lockRule signedByFirst).Coherent [lock 9 1, lock 8 2] ∧
    (∀ w : ScriptHash × KeyHash, w.1 ∈ [.filled 8, .filled 9, .filled 7, .filled 8] →
      (w ∈ [lock 8 2, lock 5 1, lock 9 1, lock 8 2] ↔ w ∈ [lock 9 1, lock 8 2])) ∧
    (lockRule signedByFirst).validate [.filled 8, .filled 9, .filled 7, .filled 8]
        [lock 8 2, lock 5 1, lock 9 1, lock 8 2] =
      (lockRule signedByFirst).validate [.filled 8, .filled 9, .filled 7, .filled 8]
        [lock 9 1, lock 8 2] := by
  have hcoherent : (lockRule signedByFirst).Coherent [lock 9 1, lock 8 2] := by decide
  have hnew : (.filled 5 : ScriptHash) ∉ [.filled 8, .filled 9, .filled 7, .filled 8] := by decide
  have hsame : ∀ w : ScriptHash × KeyHash,
      w.1 ∈ [.filled 8, .filled 9, .filled 7, .filled 8] →
      (w ∈ [lock 8 2, lock 5 1, lock 9 1, lock 8 2] ↔ w ∈ [lock 9 1, lock 8 2]) := by
    intro w hw
    have hne : w ≠ lock 5 1 := by
      rintro rfl
      exact hnew hw
    simp only [List.mem_cons, List.not_mem_nil, or_false]
    tauto
  exact ⟨hcoherent, hsame, (report_accounts_for_required _ _ _).2.2.2.2 _ hcoherent hsame⟩

end NativeScripts
