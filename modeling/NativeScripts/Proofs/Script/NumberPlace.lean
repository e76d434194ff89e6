import NativeScripts.Proofs.Cbor.Frame
import NativeScripts.Proofs.Json.Frame
import NativeScripts.Proofs.Script.FirstFault

/-! The places of numbers in scripts: the slots of time locks and the thresholds, at any
depth. What stands at a place changes the text and the encoding of a script there only. -/

namespace NativeScripts

open Cbor (Item)
open JsonForm (typed)

/-- A layer around one of its children. -/
inductive Multisig.Frame (α : Type) where
  | all (before after : List α)
  | any (before after : List α)
  | atLeast (required : UInt64) (before after : List α)

namespace Multisig.Frame

variable {α β : Type}

def plug : Frame α → α → Multisig α
  | .all before after, c => .all (before ++ c :: after)
  | .any before after, c => .any (before ++ c :: after)
  | .atLeast required before after, c => .atLeast required (before ++ c :: after)

def before : Frame α → List α
  | .all before _ => before
  | .any before _ => before
  | .atLeast _ before _ => before

def after : Frame α → List α
  | .all _ after => after
  | .any _ after => after
  | .atLeast _ _ after => after

def map (g : α → β) : Frame α → Frame β
  | .all before after => .all (before.map g) (after.map g)
  | .any before after => .any (before.map g) (after.map g)
  | .atLeast required before after => .atLeast required (before.map g) (after.map g)

theorem children_plug (f : Frame α) (c : α) : (f.plug c).children = f.before ++ c :: f.after := by
  cases f <;> rfl

theorem exists_plug {m : Multisig α} {c : α} (h : c ∈ m.children) :
    ∃ f : Frame α, f.plug c = m := by
  obtain ⟨before, after, hchildren⟩ := List.append_of_mem h
  cases m with
  | sig key => cases h
  | all scripts => exact ⟨.all before after, congrArg Multisig.all hchildren.symm⟩
  | any scripts => exact ⟨.any before after, congrArg Multisig.any hchildren.symm⟩
  | atLeast required scripts =>
    exact ⟨.atLeast required before after, congrArg (Multisig.atLeast required) hchildren.symm⟩

theorem map_plug (g : α → β) (f : Frame α) (c : α) : (f.plug c).map g = (f.map g).plug (g c) := by
  cases f <;> simp [plug, map, Multisig.map]

theorem before_map (g : α → β) (f : Frame α) : (f.map g).before = f.before.map g := by
  cases f <;> rfl

/-- The field with the scripts, and the list in it. -/
def inJson : Frame Json → Json.Frames
  | .all before after => [.field [] "scripts" [typed .all], .item before after]
  | .any before after => [.field [] "scripts" [typed .any], .item before after]
  | .atLeast required before after =>
    [.field [("required", .ofWord required)] "scripts" [typed .atLeast], .item before after]

theorem toJson_plug (f : Frame Json) (v : Json) : (f.plug v).toJson = f.inJson.plug v := by
  cases f <;> rfl

/-- The array of the fields, and the last of them. -/
def inCbor : Frame Item → Cbor.Frames
  | .all before after => [⟨[.ofWord Kind.all.tag], []⟩, ⟨before, after⟩]
  | .any before after => [⟨[.ofWord Kind.any.tag], []⟩, ⟨before, after⟩]
  | .atLeast required before after =>
    [⟨[.ofWord Kind.atLeast.tag, .ofWord required], []⟩, ⟨before, after⟩]

theorem lists_inJson (f : Frame Json) (v : Json) :
    (f.inJson.plug v).Lists (f.before ++ v :: f.after) := by
  cases f with
  | all before after => exact ⟨.all _, .all rfl rfl (List.forall₂_refl _), rfl⟩
  | any before after => exact ⟨.any _, .any rfl rfl (List.forall₂_refl _), rfl⟩
  | atLeast required before after =>
    exact ⟨.atLeast required _, .atLeast rfl rfl rfl (List.forall₂_refl _), rfl⟩

theorem toItem_plug (f : Frame Item) (i : Item) : (f.plug i).toItem = f.inCbor.plug i := by
  cases f <;> rfl

end Multisig.Frame

def Multisig.thresholds {α : Type} : Multisig α → List UInt64
  | .atLeast required _ => [required]
  | _ => []

/-- The slots and the thresholds from the first to the last. -/
def NativeScript.numbers : NativeScript → List UInt64 :=
  fold (fun layer => layer.thresholds ++ layer.children.flatten) (fun slot => [slot])
    (fun slot => [slot])

theorem NativeScript.numbers_multisig (layer : Multisig NativeScript) :
    numbers (.multisig layer) = layer.thresholds ++ layer.children.flatMap numbers := by
  rw [numbers, fold_multisig, Multisig.children_map, ← numbers, List.flatMap_def]
  cases layer <;> rfl

/-- The slot of a time lock or a threshold, in the script or below it. -/
inductive NumberPlace where
  | after
  | before
  | threshold (scripts : List NativeScript)
  | inside (layer : Multisig.Frame NativeScript) (place : NumberPlace)

namespace NumberPlace

def fill (n : UInt64) : NumberPlace → NativeScript
  | .after => .after n
  | .before => .before n
  | .threshold scripts => .multisig (.atLeast n scripts)
  | .inside layer place => .multisig (layer.plug (place.fill n))

theorem mem_numbers_fill (place : NumberPlace) (n : UInt64) : n ∈ (place.fill n).numbers := by
  induction place with
  | after | before => exact List.mem_singleton_self n
  | threshold scripts =>
    rw [fill, NativeScript.numbers_multisig]
    exact List.mem_append_left _ (List.mem_singleton_self n)
  | inside layer place ih =>
    rw [fill, NativeScript.numbers_multisig, Multisig.Frame.children_plug]
    exact List.mem_append_right _ (List.mem_flatMap.mpr ⟨place.fill n, by simp, ih⟩)

/-- The numbers in a script are those at its places. -/
theorem mem_numbers_iff {s : NativeScript} {n : UInt64} :
    n ∈ s.numbers ↔ ∃ place : NumberPlace, place.fill n = s := by
  constructor
  · intro h
    induction s with
    | multisig layer ih =>
      rw [NativeScript.numbers_multisig, List.mem_append] at h
      rcases h with h | h
      · cases layer with
        | atLeast required scripts =>
          obtain rfl := List.mem_singleton.mp h
          exact ⟨.threshold scripts, rfl⟩
        | _ => cases h
      · obtain ⟨c, hc, hn⟩ := List.mem_flatMap.mp h
        obtain ⟨place, rfl⟩ := ih c hc hn
        obtain ⟨frame, rfl⟩ := Multisig.Frame.exists_plug hc
        exact ⟨.inside frame place, rfl⟩
    | after slot =>
      obtain rfl := List.mem_singleton.mp h
      exact ⟨.after, rfl⟩
    | before slot =>
      obtain rfl := List.mem_singleton.mp h
      exact ⟨.before, rfl⟩
  · rintro ⟨place, rfl⟩
    exact place.mem_numbers_fill n

def inJson : NumberPlace → Json.Frames
  | .after => [.field [] "slot" [typed .after]]
  | .before => [.field [] "slot" [typed .before]]
  | .threshold scripts =>
    [.field [] "required" [("scripts", .array (scripts.map NativeScript.toJson)), typed .atLeast]]
  | .inside layer place => (layer.map NativeScript.toJson).inJson ++ place.inJson

def inCbor : NumberPlace → Cbor.Frames
  | .after => [⟨[.ofWord Kind.after.tag], []⟩]
  | .before => [⟨[.ofWord Kind.before.tag], []⟩]
  | .threshold scripts =>
    [⟨[.ofWord Kind.atLeast.tag], [.array (scripts.map NativeScript.toItem)]⟩]
  | .inside layer place => (layer.map NativeScript.toItem).inCbor ++ place.inCbor

/-- The text of a script without blanks, with this text in the place of the number. -/
def textWith (place : NumberPlace) (number : List Char) : String :=
  String.ofList (place.inJson.front ++ (number ++ place.inJson.back))

/-- The encoding of a script, with these bytes in the place of the number. -/
def bytesWith (place : NumberPlace) (number : Bytes) : Bytes :=
  place.inCbor.front ++ (number ++ place.inCbor.back)

theorem toJson_fill (place : NumberPlace) (n : UInt64) :
    (place.fill n).toJson = place.inJson.plug (.ofWord n) := by
  induction place with
  | after | before => rfl
  | threshold scripts => exact NativeScript.toJson_multisig _
  | inside layer place ih =>
    rw [fill, NativeScript.toJson_multisig, Multisig.Frame.map_plug, ih,
      Multisig.Frame.toJson_plug, inJson, Json.Frames.plug_append]

theorem toItem_fill (place : NumberPlace) (n : UInt64) :
    (place.fill n).toItem = place.inCbor.plug (.ofWord n) := by
  induction place with
  | after | before => rfl
  | threshold scripts => exact NativeScript.toItem_multisig _
  | inside layer place ih =>
    rw [fill, NativeScript.toItem_multisig, Multisig.Frame.map_plug, ih,
      Multisig.Frame.toItem_plug, inCbor, Cbor.Frames.plug_append]

theorem compact_fill (place : NumberPlace) (n : UInt64) :
    (place.fill n).toJson.compact = place.textWith (Nat.toDigits 10 n.toNat) := by
  have hdigits : (Json.ofWord n).compactChars = Nat.toDigits 10 n.toNat := by
    have hpos : ¬(n.toNat : Int) < 0 := by omega
    simp only [Json.ofWord, Json.compactChars, Json.integerText, if_neg hpos, Int.natAbs_natCast]
  rw [toJson_fill, Json.compact, Json.Frames.compactChars_plug, hdigits, textWith]

theorem encode_fill (place : NumberPlace) (n : UInt64) :
    (place.fill n).encode = place.bytesWith (Cbor.headBytes 0 n.toNat) := by
  rw [NativeScript.encode, toItem_fill, Cbor.Frames.encode_plug, Item.ofWord, Item.encode_unsigned,
    bytesWith]

end NumberPlace

end NativeScripts
