import NativeScripts.Evaluation
import NativeScripts.Script.Encoding

/-! Validation of a transaction: every script hash that it requires needs a
witness with that hash, and the witness has to hold. Of several witnesses with
one hash the last counts, and all failures are reported. -/

namespace NativeScripts

/-- Where witnesses get their hashes and their verdicts from. -/
structure WitnessRule (ω : Type) where
  hashOf : ω → ScriptHash
  holds : ω → Bool

inductive Failure where
  | missing (hash : ScriptHash)
  | unsatisfied (hash : ScriptHash)
  deriving DecidableEq

def Failure.hash : Failure → ScriptHash
  | .missing hash => hash
  | .unsatisfied hash => hash

def Failure.message : Failure → String
  | .missing hash => "no witness supplied for script " ++ hash.toHex
  | .unsatisfied hash => "script " ++ hash.toHex ++ " evaluated to false"

/-- The failures of one pass, in the order of what is required. -/
structure Report where
  failures : List Failure
  deriving DecidableEq

def Report.passed (r : Report) : Bool :=
  r.failures.isEmpty

def Report.summary (r : Report) : String :=
  String.intercalate "; " (r.failures.map Failure.message)

/-- Refuses a report that lists failures. -/
def Report.enforce (r : Report) : Except Report Unit :=
  if r.passed then .ok () else .error r

namespace WitnessRule

variable {ω : Type} (rule : WitnessRule ω)

/-- The witnesses under their hashes, the last of them in front. -/
def index (witnesses : List ω) : List (ScriptHash × ω) :=
  witnesses.reverse.map fun w => (rule.hashOf w, w)

def failure? (index : List (ScriptHash × ω)) (hash : ScriptHash) : Option Failure :=
  match index.lookup hash with
  | none => some (.missing hash)
  | some w => if rule.holds w then none else some (.unsatisfied hash)

def validate (required : List ScriptHash) (witnesses : List ω) : Report :=
  let index := rule.index witnesses
  ⟨required.filterMap (rule.failure? index)⟩

end WitnessRule

def NativeScript.witnessRule (c : Context) : WitnessRule NativeScript :=
  ⟨hash, eval c⟩

def ShelleyScript.witnessRule (c : Context) : WitnessRule ShelleyScript :=
  ⟨hash, eval c⟩

end NativeScripts
