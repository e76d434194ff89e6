import Mathlib.Data.List.Basic
import NativeScripts.Acceptance
import NativeScripts.Proofs.Hex.LowerCase
import NativeScripts.Proofs.Hex.Refusal
import NativeScripts.Proofs.Script.HexText
import NativeScripts.Proofs.Text.Trimmed

/-! Scripts as digits with blanks around them. What is left when the blanks are trimmed is
judged as digits first, and the bytes that the digits spell are then decoded as they would be
without digits. Neither the blanks nor the case of the digits are seen in the result. -/

namespace NativeScripts

open Text (AllBlank Trimmed)

namespace Hex

theorem IsDigit.not_blank {c : Char} (h : IsDigit c) : Text.isBlank c = false := by
  obtain ⟨x, hx⟩ := isDigit_iff.mp h
  exact isBlank_of_hexValue? hx

theorem Spelled.isDigit {cs : List Char} {bs : Bytes} (h : Spelled cs bs) : ∀ c ∈ cs, IsDigit c :=
  (exists_spelled_iff.mp ⟨bs, h⟩).2

theorem FirstBad.byte_at {p position : Nat} {digits : Bytes} {byte : UInt8}
    (h : FirstBad p digits (.badDigit byte position)) : digits[position - p]? = some byte := by
  cases h with
  | @mk before _ _ split =>
    rw [split, Nat.add_sub_cancel_left, List.getElem?_append_right (Nat.le_refl _), Nat.sub_self]
    rfl

theorem Refused.byte_at {position : Nat} {digits : Bytes} {byte : UInt8}
    (h : Refused digits (.badDigit byte position)) : digits[position]? = some byte := by
  cases h with
  | digit _ h => exact h.byte_at

end Hex

/-- A text that begins and ends with a digit is all that trimming leaves of it. -/
theorem Text.trimmed_of_digits {before after front middle back : String}
    (hb : AllBlank before.toList) (ha : AllBlank after.toList) (hfront : front ≠ "")
    (hback : back ≠ "") (hdigits : ∀ c ∈ (front ++ back).toList, Hex.IsDigit c) :
    Trimmed (before ++ (front ++ middle ++ back) ++ after) (front ++ middle ++ back) := by
  rw [String.toList_append, List.forall_mem_append] at hdigits
  have hfirst : front.toList ≠ [] := fun h => hfront (String.toList_eq_nil_iff.mp h)
  have hlast : back.toList ≠ [] := fun h => hback (String.toList_eq_nil_iff.mp h)
  refine trimmed_between hb ha (fun c hc => ?_) fun c hc => ?_
  · rw [String.toList_append, String.toList_append, List.append_assoc,
      List.head?_append_of_ne_nil _ hfirst] at hc
    exact (hdigits.1 c (List.mem_of_mem_head? hc)).not_blank
  · rw [String.toList_append, List.getLast?_append_of_ne_nil _ hlast] at hc
    exact (hdigits.2 c (List.mem_of_mem_getLast? hc)).not_blank

namespace NativeScript

theorem acceptDigits_of_spelled {s t : String} {bs : Bytes} (ht : Trimmed s t)
    (h : Hex.Spelled t.toList bs) : acceptDigits s = acceptBytes bs := by
  rw [acceptDigits, decodeHex, Text.trim_eq_iff.mpr ht, Hex.decode_eq_ok.mpr h]
  rfl

theorem acceptDigits_of_not_spelled {s t : String} (ht : Trimmed s t)
    (h : ¬∃ bs, Hex.Spelled t.toList bs) :
    ∃ fault, acceptDigits s = .error (.malformedCbor (.notHex fault)) ∧
      Hex.Refused (Bytes.ofText t) fault := by
  cases hd : Hex.decode t with
  | ok bs => exact absurd ⟨bs, Hex.decode_eq_ok.mp hd⟩ h
  | error fault =>
    refine ⟨fault, ?_, Hex.decode_eq_error.mp hd⟩
    rw [acceptDigits, decodeHex, Text.trim_eq_iff.mpr ht, hd]
    rfl

/-- The text `s` is decoded through the digits `t` that trimming leaves of it. What is no
row of digits is faulty CBOR, and its fault gives the byte at fault and its position there. -/
structure DecodesDigits (s t : String) : Prop where
  spelled : ∀ bs, Hex.Spelled t.toList bs → acceptDigits s = acceptBytes bs
  refused : (¬∃ bs, Hex.Spelled t.toList bs) →
    ∃ fault, acceptDigits s = .error (.malformedCbor (.notHex fault)) ∧
      Hex.Refused (Bytes.ofText t) fault ∧
      ∀ byte position, fault = .badDigit byte position →
        (Bytes.ofText t)[position]? = some byte

theorem decodesDigits {s t : String} (ht : Trimmed s t) : DecodesDigits s t := by
  refine ⟨fun bs => acceptDigits_of_spelled ht, fun h => ?_⟩
  obtain ⟨fault, hfault, hrefused⟩ := acceptDigits_of_not_spelled ht h
  refine ⟨fault, hfault, hrefused, fun byte position he => ?_⟩
  exact (he ▸ hrefused).byte_at

theorem acceptDigits_surrounded {script : NativeScript} (hfits : script.Fits)
    {before digits after : String} (hb : AllBlank before.toList) (ha : AllBlank after.toList)
    (hd : digits.toLower = Hex.encode script.encode) :
    acceptDigits (before ++ digits ++ after) = .ok script := by
  have hs : Hex.Spelled digits.toList script.encode := Hex.spelled_iff_toLower.mpr hd
  have ht : Trimmed (before ++ digits ++ after) digits :=
    Text.trimmed_between hb ha (fun c hc => hs.not_blank c (List.mem_of_mem_head? hc))
      fun c hc => hs.not_blank c (List.mem_of_mem_getLast? hc)
  rw [acceptDigits_of_spelled ht hs]
  exact mapError_eq_ok.mpr (decodeMarked_encode hfits)

theorem acceptDigits_inserted {before front inserted back after : String} {bs : Bytes}
    (hb : AllBlank before.toList) (ha : AllBlank after.toList) (hfront : front ≠ "")
    (hback : back ≠ "") (hs : Hex.Spelled (front ++ back).toList bs)
    (hi : ∃ c ∈ inserted.toList, ¬Hex.IsDigit c) :
    ∃ fault, acceptDigits (before ++ (front ++ inserted ++ back) ++ after) =
      .error (.malformedCbor (.notHex fault)) := by
  have ht : Trimmed (before ++ (front ++ inserted ++ back) ++ after) (front ++ inserted ++ back) :=
    Text.trimmed_of_digits hb ha hfront hback hs.isDigit
  have hnot : ¬∃ bs, Hex.Spelled (front ++ inserted ++ back).toList bs := by
    rintro ⟨_, hspelled⟩
    obtain ⟨c, hc, hbad⟩ := hi
    apply hbad
    apply hspelled.isDigit
    simp only [String.toList_append, List.mem_append]
    exact .inl (.inr hc)
  obtain ⟨fault, hfault, -⟩ := acceptDigits_of_not_spelled ht hnot
  exact ⟨fault, hfault⟩

end NativeScript

/-- Digits with blanks around them are decoded as the bytes that they spell, and nothing else
is. A script is found again from its digits in either case and between any blanks, but not
from digits that something else stands between. -/
theorem digits_decode_as_their_bytes :
    (∀ s, ∃! t, Trimmed s t) ∧
    (∀ t : String, (∃ bs, Hex.Spelled t.toList bs) ↔
      t.length % 2 = 0 ∧ ∀ c ∈ t.toList, Hex.IsDigit c) ∧
    (∀ s t, Trimmed s t → NativeScript.DecodesDigits s t) ∧
    ∀ (script : NativeScript) (before after : String),
      AllBlank before.toList → AllBlank after.toList →
      (script.Fits → ∀ digits : String, digits.toLower = Hex.encode script.encode →
        NativeScript.acceptDigits (before ++ digits ++ after) = .ok script) ∧
      ∀ front inserted back : String, front ≠ "" → back ≠ "" →
        (front ++ back).toLower = Hex.encode script.encode →
        (∃ c ∈ inserted.toList, ¬Hex.IsDigit c) →
        ∃ fault, NativeScript.acceptDigits (before ++ (front ++ inserted ++ back) ++ after) =
          .error (.malformedCbor (.notHex fault)) := by
  refine ⟨Text.existsUnique_trimmed, fun t => ?_, fun _ _ => NativeScript.decodesDigits,
    fun script before after hb ha => ⟨fun hfits digits => ?_, ?_⟩⟩
  · rw [← String.length_toList]
    exact Hex.exists_spelled_iff
  · exact NativeScript.acceptDigits_surrounded hfits hb ha
  · intro front inserted back hfront hback hd hi
    exact NativeScript.acceptDigits_inserted hb ha hfront hback (Hex.spelled_iff_toLower.mpr hd) hi

theorem surrounded_lock_decoded :
    (NativeScript.acceptDigits ("\u00a0 " ++ "82040A" ++ "\n") = .ok (.after 10) ∧
      ∃ fault, NativeScript.acceptDigits ("\u00a0 " ++ ("8204" ++ " " ++ "0A") ++ "\n") =
        .error (.malformedCbor (.notHex fault))) ∧
    (Trimmed ("\t" ++ "0é" ++ "") "0é" ∧
      NativeScript.acceptDigits ("\t" ++ "0é" ++ "") =
        .error (.malformedCbor (.notHex .oddLength))) := by
  obtain ⟨-, hdigits, hdecodes, hscripts⟩ := digits_decode_as_their_bytes
  have hlower : "82040A".toLower = Hex.encode (NativeScript.after 10).encode := by
    apply String.toList_injective
    rw [Hex.toList_toLower]
    decide
  obtain ⟨hsurrounded, hinserted⟩ :=
    hscripts (.after 10) "\u00a0 " "\n" (by decide) (by decide)
  have htrimmed : Trimmed ("\t" ++ "0é" ++ "") "0é" := by
    refine Text.trimmed_between (by decide) (by decide) (fun c hc => ?_) fun c hc => ?_
    · cases hc
      decide
    · cases hc
      decide
  have hbad : ¬∃ bs, Hex.Spelled "0é".toList bs := by
    rw [hdigits]
    rintro ⟨-, hall⟩
    exact absurd (hall 'é' (by decide)) (by decide)
  obtain ⟨fault, hfault, hrefused, -⟩ := (hdecodes _ _ htrimmed).refused hbad
  refine ⟨⟨hsurrounded (by decide) _ hlower, ?_⟩, htrimmed, ?_⟩
  · exact hinserted "8204" " " "0A" (by decide) (by decide) hlower ⟨' ', by decide, by decide⟩
  · cases hrefused with
    | odd => exact hfault
    | digit even => exact absurd even (by decide)

end NativeScripts
