import NativeScripts.ShelleyScript
import NativeScripts.Transaction

/-! Judging scripts in a context, which a time lock asks about slots and a
signature about its key. A verdict may come together with the questions that lead
to it, in the order in which they are put. What is settled already is not asked
about, except under a threshold, where every script is judged. -/

namespace NativeScripts

def NativeScript.eval (c : Context) : NativeScript → Bool :=
  fold (Multisig.holds fun key => c (.signedBy key)) (fun slot => c (.after slot))
    (fun slot => c (.before slot))

def ShelleyScript.eval (c : Context) : ShelleyScript → Bool :=
  fold (Multisig.holds fun key => c (.signedBy key))

theorem NativeScript.eval_multisig (c : Context) (layer : Multisig NativeScript) :
    eval c (.multisig layer) = (layer.map (eval c)).holds fun key => c (.signedBy key) :=
  fold_multisig _ _ _ layer

/-- A layer over native scripts. -/
def Multisig.eval (c : Context) (m : Multisig NativeScript) : Bool :=
  (m.map (NativeScript.eval c)).holds fun key => c (.signedBy key)

structure Inquiry where
  verdict : Bool
  questions : List Question
  deriving DecidableEq

namespace Inquiry

def ask (c : Context) (q : Question) : Inquiry :=
  ⟨c q, [q]⟩

/-- Goes on for as long as the verdict is `awaited`. -/
def whileVerdict (awaited : Bool) : List Inquiry → Inquiry
  | [] => ⟨awaited, []⟩
  | i :: is =>
    if i.verdict = awaited then
      let rest := whileVerdict awaited is
      ⟨rest.verdict, i.questions ++ rest.questions⟩
    else i

def ofLayer (c : Context) : Multisig Inquiry → Inquiry
  | .sig key => ask c (.signedBy key)
  | .all inquiries => whileVerdict true inquiries
  | .any inquiries => whileVerdict false inquiries
  | .atLeast required inquiries =>
    ⟨required.toNat ≤ (inquiries.map verdict).count true, inquiries.flatMap questions⟩

end Inquiry

def NativeScript.inquire (c : Context) : NativeScript → Inquiry :=
  fold (Inquiry.ofLayer c) (fun slot => Inquiry.ask c (.after slot))
    (fun slot => Inquiry.ask c (.before slot))

def ShelleyScript.inquire (c : Context) : ShelleyScript → Inquiry :=
  fold (Inquiry.ofLayer c)

end NativeScripts
