import NativeScripts.Proofs.Cbor.Content
import NativeScripts.Proofs.Cbor.HeadSpelling
import NativeScripts.Proofs.Cbor.Tagged

/-! The items that scripts are made of: integers, byte strings and arrays. What
is written for one of them is read back from in front of any other bytes, and no
tag is found in it. -/

namespace NativeScripts.Cbor

/-- Integers, byte strings and arrays of whatever size. -/
inductive Item.Bare : Item → Prop where
  | integer (n : Int) : Bare (.integer n)
  | bytes (content : Bytes) : Bare (.bytes content)
  | array {items : List Item} (each : ∀ i ∈ items, Bare i) : Bare (.array items)

/-- Those of them that are within what a head can tell. -/
inductive Item.Plain : Item → Prop where
  | unsigned {n : Nat} (h : n < UInt64.size) : Plain (.integer n)
  | negative {n : Nat} (h : n < UInt64.size) : Plain (.integer (-1 - (n : Int)))
  | bytes {content : Bytes} (h : content.length < UInt64.size) : Plain (.bytes content)
  | array {items : List Item} (h : items.length < UInt64.size) (each : ∀ i ∈ items, Plain i) :
      Plain (.array items)

theorem Item.Plain.bare {item : Item} (h : item.Plain) : item.Bare := by
  induction h with
  | unsigned | negative => exact .integer _
  | bytes => exact .bytes _
  | array _ _ ih => exact .array ih

theorem headBytes_ne_nil (major n : Nat) : headBytes major n ≠ [] := by
  obtain ⟨info, tail, -, hb⟩ := headBytes_eq_cons major n
  simp [hb]

namespace Item

theorem encode_unsigned (n : Nat) : encode (.integer n) = headBytes 0 n := by
  simp [encode]

theorem encode_negative (n : Nat) : encode (.integer (-1 - (n : Int))) = headBytes 1 n := by
  have hneg : ¬(0 : Int) ≤ -1 - n := by omega
  have habs : (-1 - (-1 - (n : Int))).toNat = n := by omega
  rw [encode, if_neg hneg, habs]

theorem encode_array (items : List Item) :
    encode (.array items) = headBytes 4 items.length ++ encodeAll items := by
  rw [encode]

theorem encodeAll_eq_flatten (items : List Item) :
    encodeAll items = (items.map encode).flatten := by
  induction items with
  | nil => rfl
  | cons item items ih => rw [encodeAll, ih, List.map_cons, List.flatten_cons]

theorem length_encode_le {item : Item} {items : List Item} (h : item ∈ items) :
    item.encode.length ≤ (encodeAll items).length := by
  rw [encodeAll_eq_flatten]
  exact (List.sublist_flatten_of_mem (List.mem_map_of_mem h)).length_le

theorem encode_ne_nil (item : Item) : item.encode ≠ [] := by
  cases item with
  | integer n => by_cases h : 0 ≤ n <;> simp [encode, h, headBytes_ne_nil]
  | float x => simp [encode]
  | _ => simp [encode, headBytes_ne_nil]

end Item

/-- The reader for what stands inside an item at this depth. -/
def insideAt : Nat → Inside
  | 0 => none
  | depth + 1 => some (readItem depth)

theorem exists_of_insideAt {depth : Nat} {read : Reader Item} (h : insideAt depth = some read) :
    ∃ below, depth = below + 1 ∧ read = readItem below := by
  cases depth with
  | zero => cases h
  | succ below =>
    cases h
    exact ⟨below, rfl, rfl⟩

theorem readItem_eq (depth : Nat) (bs : Bytes) :
    readItem depth bs = readItemWith (insideAt depth) bs := by
  cases depth <;> rfl

theorem readItem_head {bs rest : Bytes} {head : Head} (h : readHead bs = .ok (head, rest))
    (depth : Nat) : readItem depth bs = readContent (insideAt depth) head rest := by
  rw [readItem_eq, readItemWith, h]

theorem readMany_encodeAll {read : Reader Item} {items : List Item}
    (h : ∀ i ∈ items, ∀ rest, read (i.encode ++ rest) = .ok (i, rest)) (rest : Bytes) :
    readMany read items.length (Item.encodeAll items ++ rest) = .ok (items, rest) := by
  induction items with
  | nil => rfl
  | cons item items ih =>
    have hi := h item (by simp) (Item.encodeAll items ++ rest)
    have hs := ih fun i hi => h i (by simp [hi])
    rw [Item.encodeAll, List.append_assoc, List.length_cons]
    exact readMany_succ_eq_ok.mpr ⟨item, items, _, hi, hs, rfl⟩

theorem readItem_encode {item : Item} (h : item.Plain) {depth : Nat}
    (hd : item.encode.length ≤ depth) (rest : Bytes) :
    readItem depth (item.encode ++ rest) = .ok (item, rest) := by
  induction h generalizing depth rest with
  | @unsigned n hn =>
    rw [Item.encode_unsigned, readItem_head (readHead_headBytes (by omega) hn rest)]
    rfl
  | @negative n hn =>
    rw [Item.encode_negative, readItem_head (readHead_headBytes (by omega) hn rest)]
    rfl
  | @bytes content hn =>
    have hr : readBytes content.length (content ++ rest) = .ok (content, rest) :=
      readBytes_eq_ok.mpr ⟨rfl, rfl⟩
    rw [Item.encode, List.append_assoc, readItem_head (readHead_headBytes (by omega) hn _)]
    simp [Head.ofArgument, readContent, readString, readPiece, hr]
  | @array items hn _ ih =>
    rw [Item.encode_array, List.length_append] at hd
    have hpos := List.length_pos_iff.mpr (headBytes_ne_nil 4 items.length)
    obtain ⟨depth, rfl⟩ : ∃ d, depth = d + 1 := ⟨depth - 1, by omega⟩
    have hi : ∀ i ∈ items, ∀ rest, readItem depth (i.encode ++ rest) = .ok (i, rest) := by
      intro i hi rest
      have hl := Item.length_encode_le hi
      exact ih i hi (by omega) rest
    rw [Item.encode_array, List.append_assoc, readItem_head (readHead_headBytes (by omega) hn _)]
    simp only [Head.ofArgument, readContent, insideAt, readSeries, readMany_encodeAll hi]

theorem Item.Bare.not_tagged {item : Item} (h : item.Bare) : ¬item.Tagged := by
  induction h with
  | integer n =>
    intro ht
    cases ht
  | bytes content =>
    intro ht
    cases ht
  | array _ ih =>
    rw [tagged_array]
    rintro ⟨i, hi, ht⟩
    exact ih i hi ht

theorem Item.read_encode {item : Item} (h : item.Plain) :
    Item.read item.encode = .ok (item, []) := by
  simpa [Item.read] using readItem_encode h (Nat.le_refl _) []

end NativeScripts.Cbor
