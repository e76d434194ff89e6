import NativeScripts.Proofs.Script.Description
import NativeScripts.Proofs.Script.RoundTrip

/-! Time locks in the order of the document. Where the wider decoder reads a script,
the narrower one reads the same script or stops at the first time lock in it. -/

namespace NativeScripts

open Cbor (Item)

section Faults

variable {α β ε : Type}

theorem exists_ok_iff {x : Except ε α} {faults : List ε}
    (h : ∀ e, x = .error e ↔ faults.head? = some e) : (∃ a, x = .ok a) ↔ faults = [] := by
  rw [← List.head?_eq_none_iff, Option.eq_none_iff_forall_ne_some]
  simp only [ne_eq, ← h]
  cases x <;> simp

/-- The first fault of a list is the first one that `faults` has for its members. -/
theorem readEach_eq_error {read : α → Except ε β} {faults : α → List ε} {xs : List α} {e : ε}
    (h : ∀ x ∈ xs, ∀ e, read x = .error e ↔ (faults x).head? = some e) :
    readEach read xs = .error e ↔ (xs.flatMap faults).head? = some e := by
  induction xs with
  | nil => simp [readEach]
  | cons x xs ih =>
    have hx := h x List.mem_cons_self
    have hxs := ih fun x' hx' => h x' (List.mem_cons_of_mem x hx')
    rw [readEach, List.flatMap_cons, List.head?_append]
    cases hr : read x with
    | error fault =>
      rw [(hx fault).mp hr]
      simp
    | ok y =>
      have hnil : faults x = [] := (exists_ok_iff hx).mp ⟨y, hr⟩
      rw [hnil, List.head?_nil, Option.none_or, ← hxs]
      cases readEach read xs <;> simp

end Faults

namespace NativeScript

/-- The kinds of the time locks from the first to the last. -/
def timeLocks : NativeScript → List Kind :=
  fold (fun layer => layer.children.flatten) (fun _ => [.after]) (fun _ => [.before])

theorem timeLocks_multisig (layer : Multisig NativeScript) :
    timeLocks (.multisig layer) = layer.children.flatMap timeLocks := by
  rw [timeLocks, fold_multisig, Multisig.children_map, List.flatMap_def]

theorem mem_timeLocks {s : NativeScript} {k : Kind} (h : k ∈ s.timeLocks) :
    k = .after ∨ k = .before := by
  induction s with
  | multisig layer ih =>
    rw [timeLocks_multisig] at h
    obtain ⟨c, hc, hk⟩ := List.mem_flatMap.mp h
    exact ih c hc hk
  | after slot => exact .inl (List.mem_singleton.mp h)
  | before slot => exact .inr (List.mem_singleton.mp h)

/-- The same script without the kinds of time locks, or the kind of the first one. -/
def toShelley : NativeScript → Except Kind ShelleyScript :=
  fold (fun layer => (layer.traverse id).map .mk) (fun _ => .error .after) (fun _ => .error .before)

theorem toShelley_multisig (layer : Multisig NativeScript) :
    toShelley (.multisig layer) = (layer.traverse toShelley).map .mk := by
  rw [toShelley, fold_multisig]
  refine congrArg (Except.map ShelleyScript.mk) (Multisig.traverse_congr ?_)
  exact Multisig.pointwise_map_left fun _ _ => rfl

theorem toShelley_eq_ok {n : NativeScript} {s : ShelleyScript} :
    n.toShelley = .ok s ↔ n = s.lift := by
  induction n generalizing s with
  | multisig layer ih =>
    cases s with
    | mk layer' =>
      have hlayer : layer.traverse toShelley = .ok layer' ↔ layer = layer'.map ShelleyScript.lift :=
        Multisig.traverse_eq_ok fun c hc s => ih c hc
      rw [toShelley_multisig, map_eq_ok, ShelleyScript.lift_mk, multisig.injEq, ← hlayer]
      simp
  | after slot =>
    cases s with
    | mk layer => simp [toShelley, fold, ShelleyScript.lift_mk]
  | before slot =>
    cases s with
    | mk layer => simp [toShelley, fold, ShelleyScript.lift_mk]

theorem toShelley_eq_error {n : NativeScript} {k : Kind} :
    n.toShelley = .error k ↔ n.timeLocks.head? = some k := by
  induction n generalizing k with
  | multisig layer ih =>
    rw [toShelley_multisig, map_eq_error, Multisig.traverse_eq_error, timeLocks_multisig]
    exact readEach_eq_error fun c hc k => ih c hc
  | after slot => simp [toShelley, timeLocks, fold]
  | before slot => simp [toShelley, timeLocks, fold]

/-- A reader that fails as `toShelley` does takes the script or reports its first time lock. -/
theorem cases_of_toShelley {ε : Type} {n : NativeScript} {fault : Kind → ε}
    {read : Except ε ShelleyScript} (h : read = n.toShelley.mapError fault) :
    (n.timeLocks = [] ∧ ∃ s, read = .ok s ∧ s.lift = n) ∨
    (n.timeLocks.head? = some .after ∧ read = .error (fault .after)) ∨
    (n.timeLocks.head? = some .before ∧ read = .error (fault .before)) := by
  subst h
  cases hn : n.toShelley with
  | error k =>
    have hfirst := toShelley_eq_error.mp hn
    rcases mem_timeLocks (List.mem_of_head? hfirst) with rfl | rfl
    · exact .inr (.inl ⟨hfirst, rfl⟩)
    · exact .inr (.inr ⟨hfirst, rfl⟩)
  | ok s =>
    have hnil : n.timeLocks = [] := (exists_ok_iff fun _ => toShelley_eq_error).mp ⟨s, hn⟩
    exact .inl ⟨hnil, s, rfl, (toShelley_eq_ok.mp hn).symm⟩

end NativeScript

namespace ShelleyScript

theorem ofItem_native (n : NativeScript) :
    ofItem n.toItem = n.toShelley.mapError fun k => .unknownTag k.tag := by
  have htimeLock (kind : Kind) (slot : Slot) (hk : kind = .after ∨ kind = .before) :
      ofItem (.array [.ofWord kind.tag, .ofWord slot]) = .error (.unknownTag kind.tag) := by
    have hf : Layout.fieldsOf .multisig (.array [.ofWord kind.tag, .ofWord slot]) =
        .ok [.ofWord kind.tag, .ofWord slot] := rfl
    rw [ofItem_eq, Multisig.ofItem, bind_of_eq_ok hf, bind_of_eq_ok (Layout.wordAt_head _ _),
      Multisig.ofFields, Kind.ofTag?_tag]
    rcases hk with rfl | rfl <;> rfl
  induction n with
  | multisig layer ih =>
    rw [ofItem_eq, NativeScript.toItem_multisig, Multisig.ofItem_toItem,
      NativeScript.toShelley_multisig, ← mapError_map, ← Multisig.traverse_mapError]
    refine congrArg (Except.map mk) (Multisig.traverse_congr ?_)
    exact Multisig.pointwise_map_left ih
  | after slot => exact htimeLock .after slot (.inl rfl)
  | before slot => exact htimeLock .before slot (.inr rfl)

theorem ofJson_of_described {v : Json} {n : NativeScript} (h : NativeScript.Described v n) :
    ofJson v = n.toShelley.mapError fun k => .unknownType k.name := by
  induction n generalizing v with
  | multisig layer ih =>
    cases h with
    | multisig h =>
      obtain ⟨layer', hl, hp⟩ := h.exists_layer
      rw [ofJson_eq, Multisig.ofJsonWith, hl, NativeScript.toShelley_multisig, ← mapError_map,
        ← Multisig.traverse_mapError]
      refine congrArg (Except.map mk) (Multisig.traverse_congr ?_)
      exact hp.imp fun w _ c hc => ih c hc
  | after slot =>
    cases h with
    | after ht =>
      rw [ofJson_eq, Multisig.ofJsonWith, Multisig.ofJson_object .after ht,
        Multisig.ofFieldsOfType, Kind.ofName?_name]
      rfl
  | before slot =>
    cases h with
    | before ht =>
      rw [ofJson_eq, Multisig.ofJsonWith, Multisig.ofJson_object .before ht,
        Multisig.ofFieldsOfType, Kind.ofName?_name]
      rfl

theorem ofJson_lift {v : Json} {s : ShelleyScript} (h : ofJson v = .ok s) :
    NativeScript.ofJson v = .ok s.lift := by
  induction s generalizing v with
  | mk layer ih =>
    rw [ofJson_eq, map_eq_ok] at h
    obtain ⟨layer', hl, he⟩ := h
    cases he
    obtain ⟨parts, hp, hc⟩ := (Multisig.ofJsonWith_eq_ok.mp hl).exists_layer
    rw [lift_mk, NativeScript.ofJson_eq_multisig, Multisig.ofJsonWith_eq_ok]
    refine Multisig.described_of_layer hp (Multisig.Pointwise.map_right ?_)
    exact hc.imp fun w _ c hc => ih c hc

theorem decode_of_native {bs : Bytes} {n : NativeScript} (h : NativeScript.decode bs = .ok n) :
    decode bs = n.toShelley.mapError fun k => .layout (.unknownTag k.tag) := by
  have hread : Item.read bs = .ok (n.toItem, []) := NativeScript.decode_eq_ok.mp h
  rw [decode, decodeAs_of_read hread n.bare_toItem.not_tagged, ofItem_native]
  cases n.toShelley <;> rfl

end ShelleyScript

/-- A script without time locks is the same to both decoders. One with time locks is read
by the wider decoder only, and the other names the tag or the type of the first of them. -/
theorem narrower_decoders_agree :
    (∀ (bs : Bytes) (s : ShelleyScript), ShelleyScript.decodeMarked bs = .ok s →
      NativeScript.decodeMarked bs = .ok s.lift) ∧
    (∀ (bs : Bytes) (n : NativeScript), NativeScript.decodeMarked bs = .ok n →
      (n.timeLocks = [] ∧ ∃ s, ShelleyScript.decodeMarked bs = .ok s ∧ s.lift = n) ∨
      (n.timeLocks.head? = some .after ∧
        ShelleyScript.decodeMarked bs = .error (.layout (.unknownTag 4))) ∨
      (n.timeLocks.head? = some .before ∧
        ShelleyScript.decodeMarked bs = .error (.layout (.unknownTag 5)))) ∧
    (∀ (v : Json) (s : ShelleyScript), ShelleyScript.ofJson v = .ok s →
      NativeScript.ofJson v = .ok s.lift) ∧
    ∀ (v : Json) (n : NativeScript), NativeScript.ofJson v = .ok n →
      (n.timeLocks = [] ∧ ∃ s, ShelleyScript.ofJson v = .ok s ∧ s.lift = n) ∨
      (n.timeLocks.head? = some .after ∧
        ShelleyScript.ofJson v = .error (.unknownType "after")) ∨
      (n.timeLocks.head? = some .before ∧
        ShelleyScript.ofJson v = .error (.unknownType "before")) := by
  refine ⟨fun bs s h => ShelleyScript.decode_lift h, fun bs n h => ?_,
    fun v s h => ShelleyScript.ofJson_lift h, fun v n h => ?_⟩
  · exact NativeScript.cases_of_toShelley (ShelleyScript.decode_of_native h)
  · have hd : NativeScript.Described v n := NativeScript.ofJson_eq_ok.mp h
    exact NativeScript.cases_of_toShelley (ShelleyScript.ofJson_of_described hd)

/-- One script without time locks, and one whose first time lock is an `after`. -/
theorem narrower_decoders_agree_on_specimens :
    (ShelleyScript.decodeMarked ShelleyScript.specimen.encode = .ok .specimen ∧
      NativeScript.decodeMarked ShelleyScript.specimen.encode = .ok ShelleyScript.specimen.lift) ∧
    (NativeScript.decodeMarked NativeScript.specimen.encode = .ok .specimen ∧
      ShelleyScript.decodeMarked NativeScript.specimen.encode =
        .error (.layout (.unknownTag 4))) ∧
    (ShelleyScript.ofJson ShelleyScript.specimen.toJson = .ok .specimen ∧
      NativeScript.ofJson ShelleyScript.specimen.toJson = .ok ShelleyScript.specimen.lift) ∧
    NativeScript.ofJson NativeScript.specimen.toJson = .ok .specimen ∧
      ShelleyScript.ofJson NativeScript.specimen.toJson = .error (.unknownType "after") := by
  have hs := ShelleyScript.decodeMarked_encode (s := .specimen) (by decide)
  have hn := NativeScript.decodeMarked_encode (s := .specimen) (by decide)
  have hsj := ShelleyScript.specimen.ofJson_toJson
  have hnj := NativeScript.specimen.ofJson_toJson
  have hlocks : NativeScript.specimen.timeLocks = [.after, .before] := by decide
  refine ⟨⟨hs, narrower_decoders_agree.1 _ _ hs⟩, ⟨hn, ?_⟩,
    ⟨hsj, narrower_decoders_agree.2.2.1 _ _ hsj⟩, hnj, ?_⟩
  · rcases narrower_decoders_agree.2.1 _ _ hn with ⟨h, -⟩ | ⟨-, h⟩ | ⟨h, -⟩
    · rw [hlocks] at h
      cases h
    · exact h
    · rw [hlocks] at h
      cases h
  · rcases narrower_decoders_agree.2.2.2 _ _ hnj with ⟨h, -⟩ | ⟨-, h⟩ | ⟨h, -⟩
    · rw [hlocks] at h
      cases h
    · exact h
    · rw [hlocks] at h
      cases h

end NativeScripts
