import NativeScripts.Proofs.Cbor.Tagged
import NativeScripts.Proofs.Pointwise
import NativeScripts.Script.Layout

/-! An item without tags is read as a script if and only if it is the one that the script
is written as. Fields of the wrong kind, missing fields and fields too many leave no second
layout for a script, and tags are the only disguise that reading sees through. -/

namespace NativeScripts

open Cbor (Item)

namespace Layout

section Items

variable {item : Item}

theorem fieldsOf_eq_ok {wanted : Wanted} {fields : List Item} (ht : ¬item.Tagged) :
    fieldsOf wanted item = .ok fields ↔ item = .array fields := by
  rw [fieldsOf, Item.untagged_eq_self ht]
  cases item <;> simp

theorem wordOf_ofWord (n : UInt64) : wordOf (.ofWord n) = .ok n := by
  have hn : (0 : Int) ≤ n.toNat ∧ (n.toNat : Int) < UInt64.size := by
    have hlt := n.toNat_lt
    have hs : UInt64.size = 18446744073709551616 := rfl
    omega
  rw [Item.ofWord, wordOf, if_pos hn, Int.toNat_natCast, UInt64.ofNat_toNat]

theorem wordOf_eq_ok {n : UInt64} (ht : ¬item.Tagged) : wordOf item = .ok n ↔ item = .ofWord n := by
  cases item with
  | integer i =>
    rw [Item.ofWord, Item.integer.injEq, ← ofNat_toNat_eq_iff, wordOf]
    split
    · rename_i h
      rw [Except.ok.injEq, and_iff_right h]
    · rename_i h
      simp only [h, false_and, reduceCtorEq]
  | tag number content => exact absurd (.tag number content) ht
  | _ => simp [wordOf, Item.ofWord]

theorem hashOf_toItem {kind : HashKind} (h : Hash kind) : hashOf kind h.toItem = .ok h := by
  have hbytes : Hash.ofBytes? h.bytes = some h := Hash.ofBytes?_eq_some.mpr rfl
  simp only [hashOf, Hash.toItem, Item.untagged, hbytes]

theorem hashOf_eq_ok {kind : HashKind} {h : Hash kind} (ht : ¬item.Tagged) :
    hashOf kind item = .ok h ↔ item = h.toItem := by
  rw [hashOf, Item.untagged_eq_self ht]
  cases item with
  | bytes content =>
    rw [Hash.toItem, Item.bytes.injEq, ← Hash.ofBytes?_eq_some]
    cases hc : (Hash.ofBytes? content : Option (Hash kind)) <;> simp [hc]
  | _ => simp [Hash.toItem]

end Items

section Fields

variable {α : Type} {fields : List Item} {index : Nat}

theorem fieldAt_eq_ok {read : Item → Except LayoutFault α} {x : α} :
    fieldAt read fields index = .ok x ↔ ∃ item, fields[index]? = some item ∧ read item = .ok x := by
  cases h : fields[index]? <;> simp [fieldAt, h]

theorem fieldAt_eq_ok_iff {read : Item → Except LayoutFault α} {write : α → Item} {x : α}
    (h : ∀ i ∈ fields, read i = .ok x ↔ i = write x) :
    fieldAt read fields index = .ok x ↔ fields[index]? = some (write x) := by
  rw [fieldAt_eq_ok]
  constructor
  · rintro ⟨item, hi, hr⟩
    rw [hi, (h item (List.mem_of_getElem? hi)).mp hr]
  · intro hi
    exact ⟨_, hi, (h _ (List.mem_of_getElem? hi)).mpr rfl⟩

section Untagged

variable (ht : ∀ i ∈ fields, ¬i.Tagged)

include ht

theorem wordAt_eq_ok {n : UInt64} :
    wordAt fields index = .ok n ↔ fields[index]? = some (.ofWord n) :=
  fieldAt_eq_ok_iff fun i hi => wordOf_eq_ok (ht i hi)

theorem scriptsAt_eq_ok {scripts : List Item} :
    scriptsAt fields index = .ok scripts ↔ fields[index]? = some (.array scripts) :=
  fieldAt_eq_ok_iff fun i hi => fieldsOf_eq_ok (ht i hi)

theorem hashAt_eq_ok {kind : HashKind} {h : Hash kind} :
    fieldAt (hashOf kind) fields index = .ok h ↔ fields[index]? = some h.toItem :=
  fieldAt_eq_ok_iff fun i hi => hashOf_eq_ok (ht i hi)

end Untagged

theorem wordAt_head (n : UInt64) (rest : List Item) : wordAt (.ofWord n :: rest) 0 = .ok n :=
  fieldAt_eq_ok.mpr ⟨_, rfl, wordOf_ofWord n⟩

theorem endAt_eq_ok {count : Nat} {u : Unit} :
    endAt count fields = .ok u ↔ fields.length ≤ count := by
  rw [endAt]
  split <;> simp <;> omega

theorem close_eq_ok {script : Except LayoutFault (Multisig α)} {m : Multisig α} :
    close fields script = .ok m ↔ script = .ok m ∧ fields.length ≤ m.fieldCount := by
  simp only [close, bind_eq_ok, endAt_eq_ok, Except.ok.injEq]
  constructor
  · intro h
    rcases h with ⟨r, hr, -, hl, rfl⟩
    exact ⟨hr, hl⟩
  · intro h
    rcases h with ⟨hr, hl⟩
    exact ⟨m, hr, (), hl, rfl⟩

theorem slotOf_eq_ok (ht : ∀ i ∈ fields, ¬i.Tagged) {slot : Slot} :
    slotOf fields = .ok slot ↔ fields[1]? = some (.ofWord slot) ∧ fields.length ≤ 2 := by
  simp only [slotOf, wordAt_eq_ok ht, bind_eq_ok, endAt_eq_ok, Except.ok.injEq]
  constructor
  · intro h
    rcases h with ⟨slot', hf, -, hl, rfl⟩
    exact ⟨hf, hl⟩
  · intro h
    rcases h with ⟨hf, hl⟩
    exact ⟨slot, hf, (), hl, rfl⟩

end Fields

end Layout

open Layout

namespace Multisig

section Layers

variable {tag : UInt64} {fields : List Item} {layer : Multisig Item}

theorem singleton_prefix_tail {item : Item} : [item] <+: fields.tail ↔ fields[1]? = some item := by
  simp [List.prefix_iff_getElem?]

theorem pair_prefix_tail {item item' : Item} :
    [item, item'] <+: fields.tail ↔ fields[1]? = some item ∧ fields[2]? = some item' := by
  rcases fields with _ | ⟨tag, _ | ⟨first, _ | ⟨second, rest⟩⟩⟩ <;>
    simp [List.cons_prefix_cons, @eq_comm _ item, @eq_comm _ item']

/-- The fields of a layer are found one after the other behind the tag. -/
def FieldsRead (fields : List Item) : Multisig Item → Prop
  | .sig key => fieldAt (hashOf .key) fields 1 = .ok key
  | .all scripts => scriptsAt fields 1 = .ok scripts
  | .any scripts => scriptsAt fields 1 = .ok scripts
  | .atLeast required scripts =>
    wordAt fields 1 = .ok required ∧ scriptsAt fields 2 = .ok scripts

theorem ofFields_eq_ok :
    ofFields tag fields = .ok layer ↔ tag = layer.kind.tag ∧ layer.FieldsRead fields := by
  constructor
  · intro h
    unfold ofFields at h
    split at h <;> rename_i hk
    · obtain ⟨key, hf, rfl⟩ := map_eq_ok.mp h
      exact ⟨Kind.ofTag?_eq_some.mp hk, hf⟩
    · obtain ⟨scripts, hf, rfl⟩ := map_eq_ok.mp h
      exact ⟨Kind.ofTag?_eq_some.mp hk, hf⟩
    · obtain ⟨scripts, hf, rfl⟩ := map_eq_ok.mp h
      exact ⟨Kind.ofTag?_eq_some.mp hk, hf⟩
    · obtain ⟨required, hw, h⟩ := bind_eq_ok.mp h
      obtain ⟨scripts, hs, h⟩ := bind_eq_ok.mp h
      cases h
      exact ⟨Kind.ofTag?_eq_some.mp hk, hw, hs⟩
    · cases h
  · intro h
    rcases h with ⟨rfl, hf⟩
    rw [ofFields, Kind.ofTag?_tag]
    cases layer with
    | sig key => exact map_eq_ok.mpr ⟨key, hf, rfl⟩
    | all scripts => exact map_eq_ok.mpr ⟨scripts, hf, rfl⟩
    | any scripts => exact map_eq_ok.mpr ⟨scripts, hf, rfl⟩
    | atLeast required scripts =>
      exact bind_eq_ok.mpr ⟨required, hf.1, bind_eq_ok.mpr ⟨scripts, hf.2, rfl⟩⟩

/-- Where no field is tagged, those of the layer come first after the tag. -/
theorem prefix_of_fieldsRead (ht : ∀ i ∈ fields, ¬i.Tagged) (h : layer.FieldsRead fields) :
    layer.fieldItems <+: fields.tail := by
  cases layer with
  | sig key => exact singleton_prefix_tail.mpr ((hashAt_eq_ok ht).mp h)
  | all scripts | any scripts => exact singleton_prefix_tail.mpr ((scriptsAt_eq_ok ht).mp h)
  | atLeast required scripts =>
    exact pair_prefix_tail.mpr ⟨(wordAt_eq_ok ht).mp h.1, (scriptsAt_eq_ok ht).mp h.2⟩

theorem fieldsRead_of_prefix (hp : layer.fieldItems <+: fields.tail) :
    layer.FieldsRead fields := by
  cases layer with
  | sig key => exact fieldAt_eq_ok.mpr ⟨_, singleton_prefix_tail.mp hp, hashOf_toItem key⟩
  | all scripts | any scripts => exact fieldAt_eq_ok.mpr ⟨_, singleton_prefix_tail.mp hp, rfl⟩
  | atLeast required scripts =>
    obtain ⟨hr, hs⟩ := pair_prefix_tail.mp hp
    exact ⟨fieldAt_eq_ok.mpr ⟨_, hr, wordOf_ofWord required⟩, fieldAt_eq_ok.mpr ⟨_, hs, rfl⟩⟩

theorem ofFields_of_prefix (hp : layer.fieldItems <+: fields.tail) :
    ofFields layer.kind.tag fields = .ok layer :=
  ofFields_eq_ok.mpr ⟨rfl, fieldsRead_of_prefix hp⟩

theorem ofFields_fieldItems (layer : Multisig Item) :
    ofFields layer.kind.tag (.ofWord layer.kind.tag :: layer.fieldItems) = .ok layer :=
  ofFields_of_prefix (List.prefix_refl layer.fieldItems)

/-- Tag, fields and end together leave one array for a layer. -/
theorem fields_eq (ht : ∀ i ∈ fields, ¬i.Tagged) (hw : wordAt fields 0 = .ok tag)
    (hl : ofFields tag fields = .ok layer) (hend : fields.length ≤ layer.fieldCount) :
    fields = .ofWord layer.kind.tag :: layer.fieldItems := by
  obtain ⟨rfl, hf⟩ := ofFields_eq_ok.mp hl
  have hfirst := (wordAt_eq_ok ht).mp hw
  have hp := prefix_of_fieldsRead ht hf
  rw [← length_fieldItems] at hend
  cases fields with
  | nil => cases hfirst
  | cons first fields =>
    rw [List.getElem?_cons_zero, Option.some.injEq] at hfirst
    have hrest : layer.fieldItems = fields := hp.eq_of_length_le (by simpa using hend)
    rw [hfirst, hrest]

theorem kind_ne_timeLock (hl : ofFields tag fields = .ok layer) :
    Kind.ofTag? tag ≠ some .after ∧ Kind.ofTag? tag ≠ some .before := by
  rw [(ofFields_eq_ok.mp hl).1, Kind.ofTag?_tag]
  cases layer <;> simp [kind]

theorem sizeOf_child_lt_array (hl : ofFields tag fields = .ok layer) {c : Item}
    (hc : c ∈ layer.children) : sizeOf c < sizeOf (Item.array fields) :=
  have hf : fieldsOf .multisig (.array fields) = .ok fields := rfl
  sizeOf_child_lt hf hl hc

theorem array_children_mem {c : Item} (hc : c ∈ layer.children) :
    .array layer.children ∈ layer.fieldItems := by
  cases layer with
  | sig => cases hc
  | all | any | atLeast => simp [fieldItems, children]

theorem not_tagged_child (ht : ∀ i ∈ fields, ¬i.Tagged) (hl : ofFields tag fields = .ok layer)
    {c : Item} (hc : c ∈ layer.children) : ¬c.Tagged := by
  have hp := prefix_of_fieldsRead ht (ofFields_eq_ok.mp hl).2
  have hfield : Item.array layer.children ∈ fields :=
    List.mem_of_mem_tail (hp.mem (array_children_mem hc))
  exact Item.not_tagged_array.mp (ht _ hfield) c hc

end Layers

section Items

variable {α : Type} {child : Item → Except LayoutFault α}

/-- A layer is read from its own array, whatever its children are. -/
theorem ofItem_toItem (m : Multisig Item) : Multisig.ofItem child m.toItem = m.traverse child := by
  have hf : fieldsOf .multisig m.toItem = .ok (.ofWord m.kind.tag :: m.fieldItems) := rfl
  have hend : (Item.ofWord m.kind.tag :: m.fieldItems).length ≤ m.fieldCount :=
    Nat.le_of_eq m.length_fieldItems
  rw [ofItem, bind_of_eq_ok hf, bind_of_eq_ok (wordAt_head _ _),
    bind_of_eq_ok (ofFields_fieldItems m)]
  cases hm : m.traverse child with
  | error fault => rfl
  | ok r =>
    rw [(traverse_eq_ok_iff.mp hm).fieldCount_eq] at hend
    exact close_eq_ok.mpr ⟨rfl, hend⟩

/-- Where nothing is tagged, it is read from that array alone if the same is true of the
children. -/
theorem ofItem_eq_ok {write : α → Item} {item : Item} {m : Multisig α} (ht : ¬item.Tagged)
    (h : ∀ c, sizeOf c < sizeOf item → ¬c.Tagged → ∀ x, child c = .ok x ↔ c = write x) :
    Multisig.ofItem child item = .ok m ↔ item = (m.map write).toItem := by
  constructor
  · simp only [Multisig.ofItem, bind_eq_ok, fieldsOf_eq_ok ht, close_eq_ok]
    rintro ⟨fields, rfl, tag, hw, layer, hl, hm, hend⟩
    have hfields := Item.not_tagged_array.mp ht
    have hc : layer = m.map write :=
      (traverse_eq_ok fun c hc =>
        h c (sizeOf_child_lt_array hl hc) (not_tagged_child hfields hl hc)).mp hm
    subst hc
    rw [← fieldCount_map write] at hend
    rw [toItem, fields_eq hfields hw hl hend]
  · rintro rfl
    rw [ofItem_toItem]
    have hl := ofFields_fieldItems (m.map write)
    have hfields := Item.not_tagged_array.mp ht
    exact (traverse_eq_ok fun c hc =>
      h c (sizeOf_child_lt_array hl hc) (not_tagged_child hfields hl hc)).mpr rfl

end Items

end Multisig

section Scripts

variable {item : Item}

theorem ShelleyScript.ofItem_eq_ok {s : ShelleyScript} (ht : ¬item.Tagged) :
    ofItem item = .ok s ↔ item = s.toItem := by
  induction hn : sizeOf item using Nat.strongRecOn generalizing item s with
  | ind n ih =>
    subst hn
    cases s with
    | mk layer =>
      rw [ofItem_eq, toItem_mk,
        ← Multisig.ofItem_eq_ok ht fun c hc hct x => ih _ hc hct rfl, map_eq_ok]
      simp

/-- The slots of the two time locks are laid out alike. -/
theorem Layout.slotOf_array {tag slot : UInt64} {fields : List Item}
    (ht : ∀ i ∈ fields, ¬i.Tagged) :
    wordAt fields 0 = .ok tag ∧ slotOf fields = .ok slot ↔
      fields = [.ofWord tag, .ofWord slot] := by
  rw [wordAt_eq_ok ht, slotOf_eq_ok ht]
  constructor
  · intro h
    rcases h with ⟨hw, hs, hl⟩
    rcases fields with _ | ⟨first, _ | ⟨second, _ | ⟨third, rest⟩⟩⟩
    · cases hw
    · cases hs
    · simp_all
    · simp at hl
  · rintro rfl
    simp

/-- Nothing of the layout tells a script from the same script in a tag. -/
theorem NativeScript.ofItem_tag (number : Nat) (content : Item) :
    ofItem (.tag number content) = ofItem content := by
  rw [ofItem_eq, ofItem_eq]
  rfl

/-- An item without tags is read as the one script that is written so. -/
theorem NativeScript.ofItem_eq_ok {s : NativeScript} (ht : ¬item.Tagged) :
    ofItem item = .ok s ↔ item = s.toItem := by
  induction hn : sizeOf item using Nat.strongRecOn generalizing item s with
  | ind n ih =>
    subst hn
    have hlayer (m : Multisig NativeScript) :
        Multisig.ofItem ofItem item = .ok m ↔ item = toItem (.multisig m) := by
      rw [toItem_multisig]
      exact Multisig.ofItem_eq_ok ht fun c hc hct x => ih _ hc hct rfl
    simp only [ofItem_eq, bind_eq_ok, fieldsOf_eq_ok ht]
    constructor
    · intro h
      rcases h with ⟨fields, rfl, tag, hw, h⟩
      have hfields := Item.not_tagged_array.mp ht
      split at h <;> rename_i hk
      · obtain ⟨slot, hs, rfl⟩ := map_eq_ok.mp h
        rw [(Layout.slotOf_array hfields).mp ⟨hw, hs⟩, Kind.ofTag?_eq_some.mp hk]
        rfl
      · obtain ⟨slot, hs, rfl⟩ := map_eq_ok.mp h
        rw [(Layout.slotOf_array hfields).mp ⟨hw, hs⟩, Kind.ofTag?_eq_some.mp hk]
        rfl
      · obtain ⟨layer, hl, h⟩ := bind_eq_ok.mp h
        obtain ⟨m, hm, rfl⟩ := map_eq_ok.mp h
        refine (hlayer m).mp (bind_eq_ok.mpr ⟨fields, rfl, ?_⟩)
        exact bind_eq_ok.mpr ⟨tag, hw, bind_eq_ok.mpr ⟨layer, hl, hm⟩⟩
    · intro hitem
      have hlock {kind : Kind} {slot : Slot} (he : item = .array [.ofWord kind.tag, .ofWord slot]) :
          wordAt [.ofWord kind.tag, .ofWord slot] 0 = .ok kind.tag ∧
            slotOf [.ofWord kind.tag, .ofWord slot] = .ok slot :=
        (Layout.slotOf_array (Item.not_tagged_array.mp (he ▸ ht))).mpr rfl
      cases s with
      | multisig m =>
        obtain ⟨fields, hf, h⟩ := bind_eq_ok.mp ((hlayer m).mpr hitem)
        obtain ⟨tag, hw, h⟩ := bind_eq_ok.mp h
        obtain ⟨layer, hl, hm⟩ := bind_eq_ok.mp h
        obtain ⟨ha, hb⟩ := Multisig.kind_ne_timeLock hl
        refine ⟨fields, (fieldsOf_eq_ok ht).mp hf, tag, hw, ?_⟩
        split
        · contradiction
        · contradiction
        · exact bind_eq_ok.mpr ⟨layer, hl, map_eq_ok.mpr ⟨m, hm, rfl⟩⟩
      | after slot =>
        obtain ⟨hw, hs⟩ := hlock hitem
        refine ⟨_, hitem, _, hw, ?_⟩
        rw [Kind.ofTag?_tag]
        exact map_eq_ok.mpr ⟨slot, hs, rfl⟩
      | before slot =>
        obtain ⟨hw, hs⟩ := hlock hitem
        refine ⟨_, hitem, _, hw, ?_⟩
        rw [Kind.ofTag?_tag]
        exact map_eq_ok.mpr ⟨slot, hs, rfl⟩

end Scripts

end NativeScripts
