import NativeScripts.Acceptance
import NativeScripts.Proofs.Script.JsonText
import NativeScripts.Proofs.Script.NumberPlace
import NativeScripts.Proofs.Script.TagRefusal

/-! Numbers read in their places. What is written there is taken exactly, whatever the
script around it, or the whole is refused. -/

namespace NativeScripts

open Cbor (Item SpelledInteger)
open JsonForm (typed)

namespace NumberPlace

section Descriptions

variable {v : Json}

theorem ofJson_timeLock {kind : Kind} (hk : kind = .after ∨ kind = .before)
    (hv : v.asWord? = none) :
    NativeScript.ofJson (.object [("slot", v), typed kind]) = .error (.noSlot kind) := by
  have hslot : (Json.get? [("slot", v), typed kind] "slot").bind Json.asWord? = none := hv
  have hread : JsonForm.slotOf kind [("slot", v), typed kind] = .error (.noSlot kind) := by
    rw [JsonForm.slotOf, hslot]
  rcases hk with rfl | rfl
  · rw [NativeScript.ofJson_object .after rfl, hread]
    rfl
  · rw [NativeScript.ofJson_object .before rfl, hread]
    rfl

theorem ofJson_threshold (scripts : Json) (hv : v.asWord? = none) :
    NativeScript.ofJson (.object [("required", v), ("scripts", scripts), typed .atLeast]) =
      .error .noRequired := by
  have hrequired : (Json.get? [("required", v), ("scripts", scripts), typed .atLeast]
      "required").bind Json.asWord? = none := hv
  have hread : JsonForm.requiredOf [("required", v), ("scripts", scripts), typed .atLeast] =
      .error .noRequired := by
    rw [JsonForm.requiredOf, hrequired]
  rw [NativeScript.ofJson_object .atLeast rfl, Multisig.ofJsonWith,
    Multisig.ofJson_object .atLeast rfl, Multisig.ofFieldsOfType, Kind.ofName?_name]
  simp only [hread]
  rfl

/-- The fault is that of the object with the number, since all before it is read. -/
theorem ofJson_of_not_word (place : NumberPlace) (hv : v.asWord? = none) :
    ∃ fault, NativeScript.ofJson (place.inJson.plug v) = .error fault := by
  induction place with
  | after => exact ⟨_, ofJson_timeLock (.inl rfl) hv⟩
  | before => exact ⟨_, ofJson_timeLock (.inr rfl) hv⟩
  | threshold scripts => exact ⟨_, ofJson_threshold _ hv⟩
  | inside layer place ih =>
    obtain ⟨fault, hf⟩ := ih
    have hbefore : ∀ w ∈ (layer.map NativeScript.toJson).before,
        ∃ s, NativeScript.ofJson w = .ok s := by
      rw [Multisig.Frame.before_map]
      exact List.forall_mem_map.mpr fun s _ => ⟨s, s.ofJson_toJson⟩
    refine ⟨fault, ?_⟩
    rw [inJson, Json.Frames.plug_append]
    exact NativeScript.ofJson_error_of_lists (Multisig.Frame.lists_inJson _ _)
      (readEach_eq_error_iff.mpr ⟨_, _, _, rfl, hbefore, hf⟩)

theorem read?_textWith (place : NumberPlace) (l : Json.Literal) :
    Json.read? (place.textWith l.text) = l.numeral.toJson?.map place.inJson.plug := by
  have hexact := (place.fill 0).exact_toJson
  rw [toJson_fill] at hexact
  exact Json.Frames.read?_literal hexact l

theorem parse_natural (place : NumberPlace) {l : Json.Literal} (h : l.Natural)
    (hlt : l.value < UInt64.size) :
    NativeScript.parse (place.textWith l.text) = .ok (place.fill (.ofNat l.value)) := by
  have hword : Json.integer l.value = .ofWord (.ofNat l.value) := by
    rw [Json.ofWord, UInt64.toNat_ofNat_of_lt' hlt]
  rw [NativeScript.parse, read?_textWith, Json.Literal.toJson?_natural h hlt, Option.map_some,
    hword, ← toJson_fill]
  exact NativeScript.ofJson_toJson _

theorem parse_refused (place : NumberPlace) {l : Json.Literal}
    (h : ¬(l.Natural ∧ l.value < UInt64.size)) :
    ∃ fault, NativeScript.parse (place.textWith l.text) = .error fault := by
  have hnone := Json.Literal.asWord?_eq_none h
  rw [NativeScript.parse, read?_textWith]
  cases hl : l.numeral.toJson? with
  | none => exact ⟨.unreadable, rfl⟩
  | some v =>
    rw [hl, Option.bind_some] at hnone
    exact place.ofJson_of_not_word hnone

end Descriptions

section Encodings

variable {i : Int} {bs : Bytes}

theorem inCbor_eq_cons (place : NumberPlace) : ∃ f fs, place.inCbor = f :: fs := by
  cases place with
  | inside layer place => cases layer <;> exact ⟨_, _, rfl⟩
  | _ => exact ⟨_, _, rfl⟩

theorem dropMarker_bytesWith (place : NumberPlace) (bs : Bytes) :
    dropMarker (place.bytesWith bs) = place.bytesWith bs := by
  obtain ⟨f, fs, hframes⟩ := place.inCbor_eq_cons
  rw [bytesWith, hframes, Cbor.Frames.front_cons, Cbor.Frame.front]
  simp only [List.append_assoc, dropMarker_array]

theorem not_tagged_plug (place : NumberPlace) {n : UInt64} (hfits : (place.fill n).Fits)
    (h : SpelledInteger i bs) : ¬(place.inCbor.plug (.integer i)).Tagged := by
  have hplain := NativeScript.plain_toItem hfits
  rw [toItem_fill] at hplain
  exact (Cbor.Frames.plain_plug hplain h.plain).bare.not_tagged

theorem decodeMarked_bytesWith (place : NumberPlace) {n : UInt64} (hfits : (place.fill n).Fits)
    (h : SpelledInteger i bs) :
    NativeScript.decodeMarked (place.bytesWith bs) =
      (NativeScript.ofItem (place.inCbor.plug (.integer i))).mapError .layout := by
  have hplain := NativeScript.plain_toItem hfits
  rw [toItem_fill] at hplain
  have hread : Item.read (place.bytesWith bs) = .ok (place.inCbor.plug (.integer i), []) := by
    have hr := Cbor.Frames.readFrom_plug hplain h.readFrom _ [] (Nat.le_refl _)
    rwa [List.append_nil] at hr
  rw [NativeScript.decodeMarked, dropMarker_bytesWith, NativeScript.decode,
    decodeAs_of_read hread (place.not_tagged_plug hfits h)]

theorem decodeMarked_unsigned (place : NumberPlace) {n : UInt64} (hfits : (place.fill n).Fits)
    (h : SpelledInteger i bs) (hi : 0 ≤ i) :
    NativeScript.decodeMarked (place.bytesWith bs) = .ok (place.fill (.ofNat i.toNat)) := by
  cases h with
  | negative => omega
  | @unsigned k info spelled ha =>
    have hword : Item.integer k = .ofWord (.ofNat k) := by
      rw [Item.ofWord, UInt64.toNat_ofNat_of_lt' ha.lt_size]
    rw [decodeMarked_bytesWith place hfits (.unsigned ha), hword, ← toItem_fill,
      NativeScript.ofItem_toItem, Int.toNat_natCast]
    rfl

theorem decodeMarked_negative (place : NumberPlace) {n : UInt64} (hfits : (place.fill n).Fits)
    (h : SpelledInteger i bs) (hi : i < 0) :
    ∃ fault, NativeScript.decodeMarked (place.bytesWith bs) = .error fault := by
  have hnot : ¬(Item.integer i).Unsigned := by
    intro hu
    cases hu
    omega
  have hplug : ¬(place.inCbor.plug (.integer i)).Unsigned := Cbor.Frames.not_unsigned_plug hnot
  rw [decodeMarked_bytesWith place hfits h]
  cases hs : NativeScript.ofItem (place.inCbor.plug (.integer i)) with
  | error fault => exact ⟨.layout fault, rfl⟩
  | ok s =>
    rw [(NativeScript.ofItem_eq_ok (place.not_tagged_plug hfits h)).mp hs] at hplug
    exact absurd s.unsigned_toItem hplug

end Encodings

section Acceptance

variable {l : Json.Literal} {i : Int} {bs : Bytes}

theorem acceptText_natural (place : NumberPlace) (h : l.Natural ∧ l.value < UInt64.size) :
    NativeScript.acceptText (place.textWith l.text) = .ok (place.fill (.ofNat l.value)) :=
  mapError_eq_ok.mpr (place.parse_natural h.1 h.2)

theorem acceptText_refused (place : NumberPlace) (h : ¬(l.Natural ∧ l.value < UInt64.size)) :
    ∃ fault, NativeScript.acceptText (place.textWith l.text) = .error (.malformedJson fault) := by
  obtain ⟨fault, hf⟩ := place.parse_refused h
  exact ⟨fault, mapError_eq_error.mpr ⟨fault, hf, rfl⟩⟩

theorem acceptBytes_unsigned (place : NumberPlace) {n : UInt64} (hfits : (place.fill n).Fits)
    (h : SpelledInteger i bs) (hi : 0 ≤ i) :
    NativeScript.acceptBytes (place.bytesWith bs) = .ok (place.fill (.ofNat i.toNat)) :=
  mapError_eq_ok.mpr (place.decodeMarked_unsigned hfits h hi)

theorem acceptBytes_negative (place : NumberPlace) {n : UInt64} (hfits : (place.fill n).Fits)
    (h : SpelledInteger i bs) (hi : i < 0) :
    ∃ fault, NativeScript.acceptBytes (place.bytesWith bs) = .error (.malformedCbor fault) := by
  obtain ⟨fault, hf⟩ := place.decodeMarked_negative hfits h hi
  exact ⟨fault, mapError_eq_error.mpr ⟨fault, hf, rfl⟩⟩

end Acceptance

end NumberPlace

/-- At each place of a number, whatever the script around it, JSON text yields the script with
the literal that stands there if this is a natural number of sixty-four bits, and bytes yield
it with the integer that stands there if this is not negative. Anything else is refused as
faulty JSON or faulty CBOR. -/
theorem numbers_read_exactly :
    (∀ (s : NativeScript) (n : UInt64), n ∈ s.numbers ↔ ∃ place : NumberPlace, place.fill n = s) ∧
    (∀ (place : NumberPlace) (n : UInt64),
      (place.fill n).toJson.compact = place.textWith (Nat.toDigits 10 n.toNat) ∧
        (place.fill n).encode = place.bytesWith (Cbor.headBytes 0 n.toNat)) ∧
    (∀ (place : NumberPlace) (l : Json.Literal),
      (l.Natural ∧ l.value < UInt64.size →
        NativeScript.acceptText (place.textWith l.text) = .ok (place.fill (.ofNat l.value))) ∧
      (¬(l.Natural ∧ l.value < UInt64.size) →
        ∃ fault, NativeScript.acceptText (place.textWith l.text) =
          .error (.malformedJson fault))) ∧
    ∀ (place : NumberPlace) (n : UInt64), (place.fill n).Fits →
      ∀ (i : Int) (bs : Bytes), SpelledInteger i bs →
        (0 ≤ i →
          NativeScript.acceptBytes (place.bytesWith bs) = .ok (place.fill (.ofNat i.toNat))) ∧
        (i < 0 → ∃ fault, NativeScript.acceptBytes (place.bytesWith bs) =
          .error (.malformedCbor fault)) :=
  ⟨fun _ _ => NumberPlace.mem_numbers_iff,
    fun place n => ⟨place.compact_fill n, place.encode_fill n⟩,
    fun place _ => ⟨place.acceptText_natural, place.acceptText_refused⟩,
    fun place _ hfits _ _ h => ⟨place.acceptBytes_unsigned hfits h,
      place.acceptBytes_negative hfits h⟩⟩

/-- The slot of a lock below a threshold, behind another lock. -/
def NumberPlace.innerSlot : NumberPlace :=
  .inside (.all [.before 7] []) (.inside (.atLeast 1 [] [.multisig (.any [])]) .after)

/-- One hundred, with an exponent. -/
def Json.Literal.scaledHundred : Json.Literal where
  negative := false
  whole := ⟨['1'], by decide, List.forall_mem_singleton.mpr rfl⟩
  zero_alone := by decide
  fraction := none
  exponent := some ⟨'e', .inl rfl, .none, ⟨['2'], by decide, List.forall_mem_singleton.mpr rfl⟩⟩

theorem inner_slot_read_exactly :
    (((Json.Literal.ofInt 18446744073709551615).Natural ∧
        (Json.Literal.ofInt 18446744073709551615).value < UInt64.size) ∧
      NativeScript.acceptText
          (NumberPlace.innerSlot.textWith (Json.Literal.ofInt 18446744073709551615).text) =
        .ok (NumberPlace.innerSlot.fill 18446744073709551615)) ∧
    (¬(Json.Literal.scaledHundred.Natural ∧ Json.Literal.scaledHundred.value < UInt64.size) ∧
      ∃ fault, NativeScript.acceptText
        (NumberPlace.innerSlot.textWith Json.Literal.scaledHundred.text) =
          .error (.malformedJson fault)) ∧
    (NumberPlace.innerSlot.fill 0).Fits ∧
    (SpelledInteger 10 [0x19, 0x00, 0x0a] ∧
      NativeScript.acceptBytes [0x82, 0x01, 0x82, 0x82, 0x05, 0x07, 0x83, 0x03, 0x01, 0x82, 0x82,
        0x04, 0x19, 0x00, 0x0a, 0x82, 0x02, 0x80] = .ok (NumberPlace.innerSlot.fill 10)) ∧
    SpelledInteger (-1) [0x20] ∧
      ∃ fault, NativeScript.acceptBytes (NumberPlace.innerSlot.bytesWith [0x20]) =
        .error (.malformedCbor fault) := by
  obtain ⟨-, -, hjson, hcbor⟩ := numbers_read_exactly
  have hnatural : (Json.Literal.ofInt 18446744073709551615).Natural := ⟨by decide, rfl, rfl⟩
  have hvalue : (Json.Literal.ofInt 18446744073709551615).value = 18446744073709551615 :=
    Json.Literal.value_ofInt 18446744073709551615
  have hlt : (Json.Literal.ofInt 18446744073709551615).value < UInt64.size := by
    rw [hvalue]
    decide
  have hgreatest := (hjson .innerSlot _).1 ⟨hnatural, hlt⟩
  rw [hvalue] at hgreatest
  have hscaled : ¬(Json.Literal.scaledHundred.Natural ∧
      Json.Literal.scaledHundred.value < UInt64.size) := by
    rintro ⟨h, -⟩
    cases h.unscaled
  have hfits : (NumberPlace.innerSlot.fill 0).Fits := by decide
  have hten : SpelledInteger 10 [0x19, 0x00, 0x0a] :=
    .unsigned (.following 1 (by decide) (by decide))
  have hnegative : SpelledInteger (-1) [0x20] := .negative (n := 0) (.inside (by decide))
  have hread := (hcbor .innerSlot 0 hfits 10 _ hten).1 (by decide)
  exact ⟨⟨⟨hnatural, hlt⟩, hgreatest⟩, ⟨hscaled, (hjson .innerSlot _).2 hscaled⟩, hfits,
    ⟨hten, hread⟩, hnegative, (hcbor .innerSlot 0 hfits (-1) _ hnegative).2 (by decide)⟩

end NativeScripts
