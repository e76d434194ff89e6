import NativeScripts.Proofs.Script.TimeLocks
import NativeScripts.Proofs.Validation.Passing

/-! Shelley scripts among native scripts. Nothing that can be seen of a script changes when
it is looked at as a native script, and the native scripts that come from there are those
without a time lock. -/

namespace NativeScripts

section Witnesses

variable {ω ω' : Type} {rule : WitnessRule ω} {rule' : WitnessRule ω'} {f : ω → ω'}

theorem WitnessRule.decisive?_map (hhash : ∀ w, rule'.hashOf (f w) = rule.hashOf w)
    (witnesses : List ω) (hash : ScriptHash) :
    rule'.decisive? (witnesses.map f) hash = (rule.decisive? witnesses hash).map f := by
  simp only [decisive?, ← List.map_reverse, List.find?_map, Function.comp_def, hhash]

/-- Witnesses that keep their hashes and verdicts are reported on alike. -/
theorem WitnessRule.validate_map (hhash : ∀ w, rule'.hashOf (f w) = rule.hashOf w)
    (hholds : ∀ w, rule'.holds (f w) = rule.holds w) (required : List ScriptHash)
    (witnesses : List ω) :
    rule'.validate required (witnesses.map f) = rule.validate required witnesses := by
  have hfailure (hash : ScriptHash) :
      rule'.failure? (rule'.index (witnesses.map f)) hash =
        rule.failure? (rule.index witnesses) hash := by
    rw [failure?, failure?, lookup_index, lookup_index, decisive?_map hhash]
    cases rule.decisive? witnesses hash with
    | none => rfl
    | some w => simp only [Option.map_some, hholds]
  simp only [validate, hfailure]

end Witnesses

namespace ShelleyScript

theorem hash_lift (s : ShelleyScript) : s.lift.hash = s.hash :=
  congrArg ScriptHash.ofEncoding s.encode_lift

theorem eval_lift (c : Context) (s : ShelleyScript) : s.lift.eval c = s.eval c := by
  induction s with
  | mk layer ih =>
    rw [lift_mk, NativeScript.eval_multisig, Multisig.map_map, Multisig.map_congr ih, eval, fold_mk]

theorem exists_lift_eq {n : NativeScript} :
    (∃ s : ShelleyScript, s.lift = n) ↔ n.timeLocks = [] := by
  rw [← exists_ok_iff fun _ => NativeScript.toShelley_eq_error]
  exact exists_congr fun s => eq_comm.trans NativeScript.toShelley_eq_ok.symm

end ShelleyScript

/-- A script and its lift have one encoding, one hash, one description and one verdict. The
lifts are the scripts without time locks, each of one script only, and as witnesses they
lead to the same report. -/
theorem lift_changes_nothing :
    (∀ s : ShelleyScript, s.lift.encode = s.encode ∧ s.lift.hash = s.hash ∧
      s.lift.toJson = s.toJson ∧ ∀ c : Context, s.lift.eval c = s.eval c) ∧
    Function.Injective ShelleyScript.lift ∧
    (∀ n : NativeScript, (∃ s : ShelleyScript, s.lift = n) ↔ n.timeLocks = []) ∧
    ∀ (c : Context) (required : List ScriptHash) (witnesses : List ShelleyScript),
      (NativeScript.witnessRule c).validate required (witnesses.map ShelleyScript.lift) =
        (ShelleyScript.witnessRule c).validate required witnesses :=
  ⟨fun s => ⟨s.encode_lift, s.hash_lift, s.toJson_lift, fun c => s.eval_lift c⟩,
    ShelleyScript.lift_inj, fun _ => ShelleyScript.exists_lift_eq,
    fun c => WitnessRule.validate_map ShelleyScript.hash_lift (ShelleyScript.eval_lift c)⟩

end NativeScripts
