import NativeScripts.Proofs.Configuration.Document
import NativeScripts.Proofs.Configuration.Transaction
import NativeScripts.Proofs.Tool.Composition

/-! Evaluation from the texts to the exit code. What is printed is the verdict on the script
in the transaction that the texts stand for, and a text that is refused leaves nothing to
print, the script being the first to be read. -/

namespace NativeScripts

open List (Forall₂)

theorem Hex.unescaped_of_isDigit {cs : List Char} (h : ∀ c ∈ cs, IsDigit c) :
    Toml.Unescaped cs := by
  intro c hc
  obtain ⟨x, hx⟩ := isDigit_iff.mp (h c hc)
  have hrange : 0x30 ≤ c.toNat ∧ c.toNat ≤ 0x66 := by
    rw [hexValue?_eq] at hx
    grind
  have hquote : c ≠ '"' := by
    rintro rfl
    cases hx
  have hbackslash : c ≠ '\\' := by
    rintro rfl
    cases hx
  have hdelete : c.toNat ≠ 0x7f := by omega
  have hcontrol : 0x20 ≤ c.toNat := by omega
  exact ⟨by simp [Toml.isPlain, hcontrol, hdelete], hquote, hbackslash⟩

namespace Configuration

/-- The entries spell these keys, one each. -/
def Lists (config : Configuration) (keys : List KeyHash) : Prop :=
  Forall₂ (fun s key => Hex.Spelled s.toList key.bytes) config.signers keys

variable {config : Configuration} {keys : List KeyHash} {text : String} {c : Transaction}

theorem Lists.reads (h : config.Lists keys) :
    Forall₂ (fun s key => signerOf s = .ok key) config.signers keys :=
  forall₂_imp_mem (fun _ _ _ _ hs => signerOf_eq_ok.mpr (Hash.ofHex_eq_ok.mpr hs)) h

theorem Lists.toTransaction_eq (h : config.Lists keys)
    (hkeys : ∀ key, key ∈ c.signers.keys ↔ key ∈ keys) (hv : c.validity = config.validity) :
    config.toTransaction = .ok c := by
  have hok : config.toTransaction = .ok ⟨.ofList keys, config.validity⟩ :=
    toTransaction_eq_ok.mpr ⟨keys, h.reads, rfl⟩
  rw [hok, Except.ok.injEq]
  apply eq_of_signers
  · intro key
    rw [hkeys]
    exact Signers.mem_ofList
  · exact hv.symm

theorem Lists.digits (h : config.Lists keys) {s : String} (hs : s ∈ config.signers) :
    s.length = 56 ∧ ∀ d ∈ s.toList, Hex.IsDigit d := by
  obtain ⟨key, -, hspelled⟩ := exists_of_forall₂ h hs
  exact Hash.exists_ofHex_iff.mp ⟨key, Hash.ofHex_eq_ok.mpr hspelled⟩

/-- What a text comes to, in place of the file that holds it. -/
def transactionOf (text : String) : Except ConfigFault Transaction :=
  ofToml text >>= toTransaction

theorem Lists.transactionOf_eq (h : config.Lists keys) (hwritten : config.WrittenIn text)
    (hw : config.validity.Writable) (hkeys : ∀ key, key ∈ c.signers.keys ↔ key ∈ keys)
    (hv : c.validity = config.validity) : transactionOf text = .ok c := by
  have hne : ∀ s ∈ config.signers, s ≠ "" := by
    rintro s hs rfl
    exact absurd (h.digits hs).1 (by decide)
  have hplain : ∀ s ∈ config.signers, Toml.Unescaped s.toList :=
    fun s hs => Hex.unescaped_of_isDigit (h.digits hs).2
  rw [transactionOf, bind_of_eq_ok (ofToml_of_writtenIn hwritten hne hplain hw)]
  exact h.toTransaction_eq hkeys hv

end Configuration

namespace Tool

open NativeScripts.Configuration (transactionOf)

variable {sources : Sources} {path contextPath text document : String} {s : NativeScript}
  {c : Transaction}

theorem Sources.context_eq (h : sources.file contextPath = .ok (Bytes.ofText document)) :
    sources.context contextPath = (transactionOf document).mapError .config := by
  have htext : textOf (sources.file contextPath) = .ok document := by
    rw [h, textOf]
    simp only [Bytes.toText?_ofText]
  simp only [context, htext, transactionOf]
  cases Configuration.ofToml document <;> rfl

/-- The verdict as a word, and as an exit code that is zero for true and one for false. -/
def Ending.ofVerdict (verdict : Bool) : Ending :=
  .printed (if verdict then "true" else "false") (if verdict then 0 else 1)

/-- The command has failed, and there is nothing on the standard output. -/
def Ending.Refuses (ending : Ending) : Prop :=
  ending.code = 2 ∧ ending.output = ""

theorem eval_prints (hs : sources.Holds path text) (hp : NativeScript.parse text = .ok s)
    (hf : sources.file contextPath = .ok (Bytes.ofText document))
    (hc : transactionOf document = .ok c) :
    ((Command.eval path contextPath).run sources).ending = .ofVerdict (s.eval c.answer) := by
  have hscript := hs.script_eq
  have hcontext := Sources.context_eq hf
  rw [NativeScript.acceptText, hp, mapError_ok] at hscript
  rw [hc, mapError_ok] at hcontext
  simp only [Command.run, hscript, hcontext, Outcome.ofEvaluation, Ending.ofVerdict]

/-- Nothing is asked of the context if the script is refused. -/
theorem eval_script_refused (hs : sources.Holds path text) {fault : JsonFault}
    (hp : NativeScript.parse text = .error fault) (contextPath : String) :
    ((Command.eval path contextPath).run sources).ending = .failed (.malformedJson fault) := by
  have hscript := hs.script_eq
  rw [NativeScript.acceptText, hp, mapError_error] at hscript
  simp only [Command.run, hscript]

theorem eval_context_refused (hs : sources.Holds path text) (hp : NativeScript.parse text = .ok s)
    (hf : sources.file contextPath = .ok (Bytes.ofText document)) {fault : ConfigFault}
    (hc : transactionOf document = .error fault) :
    ((Command.eval path contextPath).run sources).ending = .failed (.config fault) := by
  have hscript := hs.script_eq
  have hcontext := Sources.context_eq hf
  rw [NativeScript.acceptText, hp, mapError_ok] at hscript
  rw [hc, mapError_error] at hcontext
  simp only [Command.run, hscript, hcontext]

/-- One signer and both bounds. -/
def sampleConfiguration : Configuration :=
  ⟨[(Hash.filled 7 : KeyHash).toHex], ⟨some 100, some 200⟩⟩

def sampleDocument : String :=
  "\n".intercalate [Configuration.signersLine sampleConfiguration.signers, "", "[validity]",
    "invalid_before = 100", "invalid_hereafter = 200", ""]

/-- The document under one name, and the text of a script everywhere else. -/
def sampleSources (text : String) : Sources :=
  ⟨fun path => .ok (Bytes.ofText (if path = "context.toml" then sampleDocument else text)),
    .ok (Bytes.ofText text)⟩

end Tool

end NativeScripts
