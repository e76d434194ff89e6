import Mathlib.Logic.Relation
import NativeScripts.Proofs.Script.Description
import NativeScripts.Proofs.Script.RoundTrip

/-! Faults deep inside a script. What stands around a faulty part is judged only as far as
it stands before that part, so however deep the part lies, its own fault is the one
reported. -/

namespace NativeScripts

open Cbor (Item)
open Relation (ReflTransGen)

section Wrapping

variable {ν α ε : Type} {lists : ν → List ν → Prop} {read : ν → Except ε α}

/-- The first value lists the second, and all that it lists before it is read. -/
inductive Wraps (lists : ν → List ν → Prop) (read : ν → Except ε α) : ν → ν → Prop where
  | mk {w v : ν} (before after : List ν) (h : lists w (before ++ v :: after))
      (hb : ∀ b ∈ before, ∃ s, read b = .ok s) : Wraps lists read w v

/-- If the first fault in a list is the fault of whatever lists it, then a fault is also that
of any chain of wrappers around it. -/
theorem error_of_wraps
    (hlist : ∀ {w items e}, lists w items → readEach read items = .error e → read w = .error e)
    {w v : ν} (h : ReflTransGen (Wraps lists read) w v) {e : ε} (hv : read v = .error e) :
    read w = .error e := by
  -- from the faulty part outwards, one wrapper at a time
  induction h using ReflTransGen.head_induction_on with
  | refl => exact hv
  | head hstep _ ih =>
    cases hstep with
    | mk before after hl hb =>
      exact hlist hl (readEach_eq_error_iff.mpr ⟨before, _, after, rfl, hb, ih⟩)

end Wrapping

/-- The values that an object for a layer has below it. -/
def Json.Lists (w : Json) (items : List Json) : Prop :=
  ∃ layer, Multisig.Described Eq w layer ∧ layer.children = items

/-- The items that an array for a layer has below it. Any fields may follow. -/
inductive Cbor.Item.Lists : Item → List Item → Prop where
  | all (items rest : List Item) : Lists (.array (.integer 1 :: .array items :: rest)) items
  | any (items rest : List Item) : Lists (.array (.integer 2 :: .array items :: rest)) items
  | atLeast (required : UInt64) (items rest : List Item) :
      Lists (.array (.integer 3 :: .integer required.toNat :: .array items :: rest)) items

theorem NativeScript.ofJson_error_of_lists {w : Json} {items : List Json} {e : JsonFault}
    (hl : w.Lists items) (h : readEach ofJson items = .error e) : ofJson w = .error e := by
  obtain ⟨layer, hd, rfl⟩ := hl
  rw [ofJson_of_described hd]
  exact map_eq_error.mpr (Multisig.traverse_eq_error.mpr h)

namespace Cbor.Item.Lists

variable {w v : Item} {items : List Item}

theorem exists_layer (h : w.Lists items) :
    ∃ (layer : Multisig Item) (rest : List Item),
      w = .array (.ofWord layer.kind.tag :: (layer.fieldItems ++ rest)) ∧
        layer.children = items := by
  cases h with
  | all items rest => exact ⟨.all items, rest, rfl, rfl⟩
  | any items rest => exact ⟨.any items, rest, rfl, rfl⟩
  | atLeast required items rest => exact ⟨.atLeast required items, rest, rfl, rfl⟩

theorem tagged (h : w.Lists items) (hv : v ∈ items) (ht : v.Tagged) : w.Tagged := by
  have hitems : (Item.array items).Tagged := .array hv ht
  cases h with
  | all | any | atLeast => exact .array (by simp) hitems

end Cbor.Item.Lists

/-- The fields behind those of a layer do not count before its children are read. -/
theorem NativeScript.ofItem_layer (layer : Multisig Item) (rest : List Item) :
    let fields := Item.ofWord layer.kind.tag :: (layer.fieldItems ++ rest)
    ofItem (.array fields) = (Layout.close fields (layer.traverse ofItem)).map .multisig := by
  intro fields
  have hf : Layout.fieldsOf .nativeScript (.array fields) = .ok fields := rfl
  have hl : Multisig.ofFields layer.kind.tag fields = .ok layer :=
    Multisig.ofFields_of_prefix (List.prefix_append layer.fieldItems rest)
  rw [ofItem_eq, bind_of_eq_ok hf, bind_of_eq_ok (Layout.wordAt_head _ _), Kind.ofTag?_tag,
    bind_of_eq_ok hl]
  cases layer <;> rfl

theorem NativeScript.ofItem_error_of_lists {w : Item} {items : List Item} {e : LayoutFault}
    (hl : w.Lists items) (h : readEach ofItem items = .error e) : ofItem w = .error e := by
  obtain ⟨layer, rest, rfl, rfl⟩ := hl.exists_layer
  rw [ofItem_layer, Multisig.traverse_eq_error.mpr h]
  rfl

theorem Cbor.Item.tagged_of_wraps {α : Type} {read : Item → Except LayoutFault α} {w v : Item}
    (h : ReflTransGen (Wraps Item.Lists read) w v) (ht : v.Tagged) : w.Tagged := by
  induction h using ReflTransGen.head_induction_on with
  | refl => exact ht
  | head hstep _ ih =>
    cases hstep with
    | mk _ _ hl _ => exact hl.tagged (by simp) ih

theorem NativeScript.decodeMarked_error_of_wraps {w v : Item}
    (h : ReflTransGen (Wraps Item.Lists ofItem) w v) (ht : ¬w.Tagged) {bs bs' : Bytes}
    (hv : Item.read (dropMarker bs) = .ok (v, [])) (hw : Item.read (dropMarker bs') = .ok (w, []))
    {fault : CborFault} (hf : decodeMarked bs = .error fault) :
    decodeMarked bs' = .error fault := by
  have hvt : ¬v.Tagged := fun htag => ht (Item.tagged_of_wraps h htag)
  rw [decodeMarked, decode, decodeAs_of_read hv hvt] at hf
  rw [decodeMarked, decode, decodeAs_of_read hw ht]
  cases hi : ofItem v with
  | ok s => simp [hi] at hf
  | error e => rw [error_of_wraps ofItem_error_of_lists h hi, ← hi, hf]

/-- The fault of a part is the fault of all that is wrapped around it, in JSON, in items and
in bytes, if whatever stands before the part is read. -/
theorem first_fault_reported :
    (∀ w v : Json, ReflTransGen (Wraps Json.Lists NativeScript.ofJson) w v →
      ∀ fault, NativeScript.ofJson v = .error fault → NativeScript.ofJson w = .error fault) ∧
    (∀ w v : Item, ReflTransGen (Wraps Item.Lists NativeScript.ofItem) w v →
      ∀ fault, NativeScript.ofItem v = .error fault → NativeScript.ofItem w = .error fault) ∧
    ∀ w v : Item, ReflTransGen (Wraps Item.Lists NativeScript.ofItem) w v → ¬w.Tagged →
      ∀ bs bs' : Bytes, Item.read (dropMarker bs) = .ok (v, []) →
        Item.read (dropMarker bs') = .ok (w, []) →
          ∀ fault, NativeScript.decodeMarked bs = .error fault →
            NativeScript.decodeMarked bs' = .error fault :=
  ⟨fun _ _ h _ => error_of_wraps NativeScript.ofJson_error_of_lists h,
    fun _ _ h _ => error_of_wraps NativeScript.ofItem_error_of_lists h,
    fun _ _ h ht _ _ hv hw _ => NativeScript.decodeMarked_error_of_wraps h ht hv hw⟩

/-- The second of three listed values is no script. -/
def Json.nullListed : Json :=
  .object [("note", .null),
    ("scripts", .array [(NativeScript.after 1).toJson, .null, .integer 7]), ("type", .string "all")]

def Json.nullInside : Json :=
  .object [("required", .integer 5), ("scripts", .array [.nullListed, .integer 8]),
    ("type", .string "atLeast")]

/-- The second of three listed items is no script, and there is a field too many. -/
def Cbor.Item.sevenListed : Item :=
  .array [.integer 1, .array [(NativeScript.after 1).toItem, .integer 7, .bytes []], .integer 9]

def Cbor.Item.sevenInside : Item :=
  .array [.integer 3, .integer 5, .array [.sevenListed, .integer 8], .integer 9]

theorem inner_fault_reported :
    (ReflTransGen (Wraps Json.Lists NativeScript.ofJson) .nullInside .null ∧
      NativeScript.ofJson .null = .error (.notObject .null) ∧
      NativeScript.ofJson .nullInside = .error (.notObject .null)) ∧
    (ReflTransGen (Wraps Item.Lists NativeScript.ofItem) .sevenInside (.integer 7) ∧
      NativeScript.ofItem (.integer 7) = .error (.unsuited (.integer 7) .nativeScript) ∧
      NativeScript.ofItem .sevenInside = .error (.unsuited (.integer 7) .nativeScript)) ∧
    ¬Item.sevenInside.Tagged ∧ Item.read (dropMarker [0x07]) = .ok (.integer 7, []) ∧
      Item.read (dropMarker Item.sevenInside.encode) = .ok (.sevenInside, []) ∧
      NativeScript.decodeMarked [0x07] =
        .error (.layout (.unsuited (.integer 7) .nativeScript)) ∧
      NativeScript.decodeMarked Item.sevenInside.encode =
        .error (.layout (.unsuited (.integer 7) .nativeScript)) := by
  have hafter : ∀ b ∈ [(NativeScript.after 1).toJson], ∃ s, NativeScript.ofJson b = .ok s :=
    List.forall_mem_singleton.mpr ⟨_, NativeScript.ofJson_toJson _⟩
  have hlisted : Json.nullListed.Lists [(NativeScript.after 1).toJson, .null, .integer 7] :=
    ⟨.all _, .all rfl rfl (List.forall₂_refl _), rfl⟩
  have hinside : Json.nullInside.Lists [.nullListed, .integer 8] :=
    ⟨.atLeast 5 _, .atLeast rfl rfl rfl (List.forall₂_refl _), rfl⟩
  have hchain : ReflTransGen (Wraps Json.Lists NativeScript.ofJson) .nullInside .null :=
    .head (.mk [] _ hinside (List.forall_mem_nil _)) (.single (.mk [_] _ hlisted hafter))
  have hnull : NativeScript.ofJson .null = .error (.notObject .null) := by
    rw [NativeScript.ofJson_eq]
    rfl
  have hafter' : ∀ b ∈ [(NativeScript.after 1).toItem], ∃ s, NativeScript.ofItem b = .ok s :=
    List.forall_mem_singleton.mpr ⟨_, NativeScript.ofItem_toItem _⟩
  have hchain' : ReflTransGen (Wraps Item.Lists NativeScript.ofItem) .sevenInside (.integer 7) :=
    .head (.mk [] _ (.atLeast 5 _ _) (List.forall_mem_nil _))
      (.single (.mk [_] _ (.all _ _) hafter'))
  have hseven : NativeScript.ofItem (.integer 7) =
      .error (.unsuited (.integer 7) .nativeScript) := by
    rw [NativeScript.ofItem_eq]
    rfl
  have hlistedBare : Item.sevenListed.Bare := by
    refine .array ?_
    have hitems : (Item.array [(NativeScript.after 1).toItem, .integer 7, .bytes []]).Bare :=
      .array (by simp [NativeScript.bare_toItem, Item.Bare.integer, Item.Bare.bytes])
    simp [hitems, Item.Bare.integer]
  have hbare : Item.sevenInside.Bare := by
    refine .array ?_
    have hitems : (Item.array [.sevenListed, .integer 8]).Bare :=
      .array (by simp [hlistedBare, Item.Bare.integer])
    simp [hitems, Item.Bare.integer]
  have hreadSeven : Item.read (dropMarker [0x07]) = .ok (.integer 7, []) := rfl
  have hread : Item.read (dropMarker Item.sevenInside.encode) = .ok (.sevenInside, []) := rfl
  have hdecode : NativeScript.decodeMarked [0x07] =
      .error (.layout (.unsuited (.integer 7) .nativeScript)) := by
    rw [NativeScript.decodeMarked, NativeScript.decode,
      decodeAs_of_read hreadSeven (Item.Bare.integer 7).not_tagged, hseven]
    rfl
  obtain ⟨hjson, hitem, hbytes⟩ := first_fault_reported
  exact ⟨⟨hchain, hnull, hjson _ _ hchain _ hnull⟩, ⟨hchain', hseven, hitem _ _ hchain' _ hseven⟩,
    hbare.not_tagged, hreadSeven, hread, hdecode,
    hbytes _ _ hchain' hbare.not_tagged _ _ hreadSeven hread _ hdecode⟩

end NativeScripts
