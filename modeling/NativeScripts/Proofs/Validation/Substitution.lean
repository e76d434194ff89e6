import NativeScripts.Proofs.Script.RoundTrip
import NativeScripts.Proofs.Validation.Passing

/-! No script stands in for another. A witness found under the hash of a script
is that script, or else two messages with one digest have been found. -/

namespace NativeScripts

namespace NativeScript

/-- Two scripts whose encodings, marked with a zero, are told apart but not by
their digests. -/
structure Collides (w s : NativeScript) : Prop where
  ne : w ≠ s
  message_ne : (0 :: w.encode : Bytes) ≠ 0 :: s.encode
  digest_eq : Blake2b.digest (0 :: w.encode) = Blake2b.digest (0 :: s.encode)

theorem eq_or_collides_of_hash_eq {w s : NativeScript} (hw : w.Fits) (hs : s.Fits)
    (h : w.hash = s.hash) : w = s ∨ w.Collides s := by
  by_cases hne : w = s
  · exact .inl hne
  · refine .inr ⟨hne, fun he => hne ?_, congrArg Hash.bytes h⟩
    exact encode_inj hw hs (List.cons.inj he).2

/-- The script behind a required hash holds if validation is passed, unless some
witness collides with it. -/
theorem eval_or_collides_of_passed {c : Context} {s : NativeScript} {required : List ScriptHash}
    {witnesses : List NativeScript} (hs : s.Fits) (hw : ∀ w ∈ witnesses, w.Fits)
    (hr : s.hash ∈ required) :
    let report := (witnessRule c).validate required witnesses
    (report.passed = true ↔ report.enforce = .ok ()) ∧
      (report.passed = true → s.eval c = true ∨ ∃ w ∈ witnesses, w.Collides s) := by
  refine ⟨Report.enforce_eq_ok.symm, fun h => ?_⟩
  obtain ⟨w, hd, heval⟩ := WitnessRule.passed_validate.mp h s.hash hr
  obtain ⟨hmem, hhash⟩ := WitnessRule.of_decisive?_eq_some hd
  rcases eq_or_collides_of_hash_eq (hw w hmem) hs hhash with rfl | hcollides
  · exact .inl heval
  · exact .inr ⟨w, hmem, hcollides⟩

/-- Of the four witnesses one is not asked for, and two are the same. -/
def supplied : List NativeScript :=
  [.after 5, .before 3, .multisig (.all []), .after 5]

/-- What a transaction answers that nobody has signed, for the slots from 5 on. -/
def fromFive : Context :=
  (Transaction.empty.during ⟨some 5, none⟩).answer

theorem supplied_passes :
    ((witnessRule fromFive).validate [hash (.multisig (.all [])), hash (.after 5)]
      supplied).passed = true ∧
    (eval fromFive (.after 5) = true ∨ ∃ w ∈ supplied, w.Collides (.after 5)) := by
  have hpassed : ((witnessRule fromFive).validate [hash (.multisig (.all [])), hash (.after 5)]
      supplied).passed = true := by decide +kernel
  exact ⟨hpassed, (eval_or_collides_of_passed (by decide) (by decide) (by simp)).2 hpassed⟩

end NativeScript

end NativeScripts
