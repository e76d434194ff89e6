import NativeScripts.Validation

/-! When a validation is passed. The witness that counts for a hash is the last
one that has it, and each hash that is required needs such a witness to hold. -/

namespace NativeScripts

theorem Report.enforce_eq_ok {r : Report} : r.enforce = .ok () ↔ r.passed = true := by
  cases h : r.passed <;> simp [enforce, h]

namespace WitnessRule

variable {ω : Type} (rule : WitnessRule ω) {required : List ScriptHash} {witnesses : List ω}

/-- The witness that counts for the hash. -/
def decisive? (witnesses : List ω) (hash : ScriptHash) : Option ω :=
  witnesses.reverse.find? fun w => rule.hashOf w = hash

theorem lookup_index (witnesses : List ω) (hash : ScriptHash) :
    (rule.index witnesses).lookup hash = rule.decisive? witnesses hash := by
  rw [index, decisive?]
  induction witnesses.reverse with
  | nil => rfl
  | cons w ws ih =>
    rw [List.map_cons, List.lookup_cons, List.find?_cons, ih]
    by_cases h : rule.hashOf w = hash
    · simp [h]
    · have hne : (hash == rule.hashOf w) = false := beq_eq_false_iff_ne.mpr fun he => h he.symm
      simp [h, hne]

variable {rule}

theorem of_decisive?_eq_some {hash : ScriptHash} {w : ω}
    (h : rule.decisive? witnesses hash = some w) : w ∈ witnesses ∧ rule.hashOf w = hash :=
  ⟨List.mem_reverse.mp (List.mem_of_find?_eq_some h), by simpa using List.find?_some h⟩

theorem failure?_eq_none {hash : ScriptHash} :
    rule.failure? (rule.index witnesses) hash = none ↔
      ∃ w, rule.decisive? witnesses hash = some w ∧ rule.holds w = true := by
  rw [failure?, lookup_index]
  cases rule.decisive? witnesses hash <;> simp

theorem passed_validate :
    (rule.validate required witnesses).passed = true ↔
      ∀ hash ∈ required, ∃ w, rule.decisive? witnesses hash = some w ∧ rule.holds w = true := by
  simp only [validate, Report.passed, List.isEmpty_iff, List.filterMap_eq_nil_iff, failure?_eq_none]

end WitnessRule

end NativeScripts
