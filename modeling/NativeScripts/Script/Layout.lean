import NativeScripts.Script.Encoding
import NativeScripts.Script.LayoutFault

/-! Scripts read from the arrays that hold them. The number of the kind is judged
as soon as it is read, the fields follow in order with everything inside them, and
fields beyond the last come to light at the end. The tags of CBOR are looked
through here, so it takes a search for them to keep them out of scripts. -/

namespace NativeScripts

namespace Layout

open Cbor (Item)

def fieldsOf (wanted : Wanted) (item : Item) : Except LayoutFault (List Item) :=
  match item.untagged with
  | .array fields => .ok fields
  | found => .error (.unsuited found wanted)

/-- The number that a byte string under a tag spells. -/
def magnitudeOf : Item → Except LayoutFault Nat
  | .bytes digits =>
    if Bytes.toNat digits < 0x100000000000000000000000000000000 then .ok (Bytes.toNat digits)
    else .error .hugeNumber
  | item => .error (.unsuited item .digits)

/-- The tag 2 makes a number of the byte string in it, and the tag 3 a negative one. -/
def wordOf : Item → Except LayoutFault UInt64
  | .integer n =>
    if 0 ≤ n ∧ n < UInt64.size then .ok (UInt64.ofNat n.toNat)
    else .error (.unsuited (.integer n) .word)
  | .tag 2 content => do
    let n ← magnitudeOf content
    if n < UInt64.size then .ok (UInt64.ofNat n) else .error (.unsuited (.tag 2 content) .word)
  | .tag 3 content => do
    let _ ← magnitudeOf content
    .error (.unsuited (.tag 3 content) .word)
  | item => .error (.unsuited item .word)

def hashOf (kind : HashKind) (item : Item) : Except LayoutFault (Hash kind) :=
  match item.untagged with
  | .bytes content =>
    match Hash.ofBytes? content with
    | some h => .ok h
    | none => .error (.wrongHashLength kind content.length)
  | found => .error (.unsuited found (.hash kind))

/-- The field at `index`, read by `read`. -/
def fieldAt {α : Type} (read : Item → Except LayoutFault α) (fields : List Item) (index : Nat) :
    Except LayoutFault α :=
  match fields[index]? with
  | none => .error (.missingField index)
  | some item => read item

def wordAt (fields : List Item) (index : Nat) : Except LayoutFault UInt64 :=
  fieldAt wordOf fields index

def scriptsAt (fields : List Item) (index : Nat) : Except LayoutFault (List Item) :=
  fieldAt (fieldsOf .scripts) fields index

/-- Refuses fields after the first `count`. -/
def endAt (count : Nat) (fields : List Item) : Except LayoutFault Unit :=
  if count < fields.length then .error (.extraField count) else .ok ()

end Layout

open Layout

/-- The layer in an array with this tag, its children not yet read. -/
def Multisig.ofFields (tag : UInt64) (fields : List Cbor.Item) :
    Except LayoutFault (Multisig Cbor.Item) :=
  match Kind.ofTag? tag with
  | some .sig => (fieldAt (hashOf .key) fields 1).map .sig
  | some .all => (scriptsAt fields 1).map .all
  | some .any => (scriptsAt fields 1).map .any
  | some .atLeast => do
    let required ← wordAt fields 1
    let scripts ← scriptsAt fields 2
    .ok (.atLeast required scripts)
  | _ => .error (.unknownTag tag)

theorem Layout.sizeOf_lt_of_fieldsOf {wanted : Wanted} {item : Cbor.Item}
    {fields : List Cbor.Item} (h : fieldsOf wanted item = .ok fields) :
    sizeOf fields < sizeOf item := by
  have hle := item.sizeOf_untagged_le
  unfold fieldsOf at h
  split at h
  · rename_i he
    cases h
    rw [he, Cbor.Item.array.sizeOf_spec] at hle
    omega
  · cases h

theorem Layout.sizeOf_lt_of_scriptsAt {fields scripts : List Cbor.Item} {index : Nat}
    (h : scriptsAt fields index = .ok scripts) : sizeOf scripts < sizeOf fields := by
  unfold scriptsAt fieldAt at h
  split at h
  · cases h
  · rename_i item hi
    have := List.sizeOf_lt_of_mem (List.mem_of_getElem? hi)
    have := sizeOf_lt_of_fieldsOf h
    omega

theorem Multisig.sizeOf_lt_of_ofFields {tag : UInt64} {fields : List Cbor.Item}
    {m : Multisig Cbor.Item} (h : ofFields tag fields = .ok m) {c : Cbor.Item}
    (hc : c ∈ m.children) : sizeOf c < sizeOf fields := by
  have below {scripts : List Cbor.Item} {index : Nat} (hs : scriptsAt fields index = .ok scripts)
      (hm : c ∈ scripts) : sizeOf c < sizeOf fields := by
    have := List.sizeOf_lt_of_mem hm
    have := sizeOf_lt_of_scriptsAt hs
    omega
  unfold ofFields at h
  split at h
  · cases hk : fieldAt (hashOf .key) fields 1 <;> rw [hk] at h <;> cases h
    simp [children] at hc
  · cases hs : scriptsAt fields 1 <;> rw [hs] at h <;> cases h
    exact below hs hc
  · cases hs : scriptsAt fields 1 <;> rw [hs] at h <;> cases h
    exact below hs hc
  · cases hw : wordAt fields 1 <;> rw [hw] at h
    · cases h
    · cases hs : scriptsAt fields 2 <;> simp only [hs, bind, Except.bind] at h <;> cases h
      exact below hs hc
  · cases h

/-- The layer once its children are read, if its fields end there. -/
def Layout.close {α : Type} (fields : List Cbor.Item)
    (script : Except LayoutFault (Multisig α)) : Except LayoutFault (Multisig α) := do
  let script ← script
  endAt script.fieldCount fields
  .ok script

/-- A layer whose children are read by `child`. -/
def Multisig.ofItem {α : Type} (child : Cbor.Item → Except LayoutFault α) (item : Cbor.Item) :
    Except LayoutFault (Multisig α) := do
  let fields ← fieldsOf .multisig item
  let tag ← wordAt fields 0
  let layer ← Multisig.ofFields tag fields
  close fields (layer.traverse child)

theorem Layout.sizeOf_child_lt {wanted : Wanted} {item c : Cbor.Item} {fields : List Cbor.Item}
    {tag : UInt64} {layer : Multisig Cbor.Item} (hf : fieldsOf wanted item = .ok fields)
    (hl : Multisig.ofFields tag fields = .ok layer) (hc : c ∈ layer.children) :
    sizeOf c < sizeOf item :=
  Nat.lt_trans (Multisig.sizeOf_lt_of_ofFields hl hc) (sizeOf_lt_of_fieldsOf hf)

def ShelleyScript.ofItem (item : Cbor.Item) : Except LayoutFault ShelleyScript :=
  match hf : fieldsOf .multisig item with
  | .error fault => .error fault
  | .ok fields =>
    match wordAt fields 0 with
    | .error fault => .error fault
    | .ok tag =>
      match hl : Multisig.ofFields tag fields with
      | .error fault => .error fault
      | .ok layer =>
        let script := layer.attach.traverse fun c =>
          have := sizeOf_child_lt hf hl c.2
          ShelleyScript.ofItem c.1
        (close fields script).map .mk
termination_by sizeOf item

theorem ShelleyScript.ofItem_eq (item : Cbor.Item) :
    ofItem item = (Multisig.ofItem ofItem item).map .mk := by
  rw [ofItem, Multisig.ofItem]
  split
  · rename_i hf
    simp only [hf]
    rfl
  · rename_i fields hf
    simp only [hf, bind, Except.bind]
    cases wordAt fields 0 with
    | error fault => rfl
    | ok tag =>
      simp only
      split
      · rename_i hl
        simp only [hl]
        rfl
      · rename_i layer hl
        simp only [hl, Multisig.traverse_attach layer ofItem]

/-- The slot of a time lock, its only field. -/
def Layout.slotOf (fields : List Cbor.Item) : Except LayoutFault Slot := do
  let slot ← wordAt fields 1
  endAt 2 fields
  .ok slot

def NativeScript.ofItem (item : Cbor.Item) : Except LayoutFault NativeScript :=
  match hf : fieldsOf .nativeScript item with
  | .error fault => .error fault
  | .ok fields =>
    match wordAt fields 0 with
    | .error fault => .error fault
    | .ok tag =>
      match Kind.ofTag? tag with
      | some .after => (slotOf fields).map .after
      | some .before => (slotOf fields).map .before
      | _ =>
        match hl : Multisig.ofFields tag fields with
        | .error fault => .error fault
        | .ok layer =>
          let script := layer.attach.traverse fun c =>
            have := sizeOf_child_lt hf hl c.2
            NativeScript.ofItem c.1
          (close fields script).map .multisig
termination_by sizeOf item

theorem NativeScript.ofItem_eq (item : Cbor.Item) :
    ofItem item =
      (do
        let fields ← fieldsOf .nativeScript item
        let tag ← wordAt fields 0
        match Kind.ofTag? tag with
        | some .after => (slotOf fields).map .after
        | some .before => (slotOf fields).map .before
        | _ =>
          let layer ← Multisig.ofFields tag fields
          (close fields (layer.traverse ofItem)).map .multisig) := by
  rw [ofItem]
  split
  · rename_i hf
    simp only [hf]
    rfl
  · rename_i fields hf
    simp only [hf, bind, Except.bind]
    cases wordAt fields 0 with
    | error fault => rfl
    | ok tag =>
      simp only
      split
      · rfl
      · rfl
      · split
        · rename_i hl
          simp only [hl]
        · rename_i layer hl
          simp only [hl, Multisig.traverse_attach layer ofItem]

end NativeScripts
