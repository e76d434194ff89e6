import NativeScripts.Cbor.Head

/-! CBOR items as trees, and their deterministic form: every head as short as
can be and every length given. -/

namespace NativeScripts.Cbor

/-- Undefined counts as null, and the widths of numbers are not kept. -/
inductive Item where
  | integer (n : Int)
  | bytes (content : Bytes)
  | text (content : String)
  | float (x : Binary64)
  | bool (b : Bool)
  | null
  | array (items : List Item)
  | map (entries : List (Item × Item))
  | tag (number : Nat) (content : Item)

namespace Item

/-- What stands inside all the tags around an item. -/
def untagged : Item → Item
  | .tag _ content => content.untagged
  | item => item

theorem sizeOf_untagged_le (item : Item) : sizeOf item.untagged ≤ sizeOf item := by
  fun_induction untagged item with
  | case1 number content ih =>
    rw [tag.sizeOf_spec]
    omega
  | case2 => exact Nat.le_refl _

mutual

def encode : Item → Bytes
  | .integer n => if 0 ≤ n then headBytes 0 n.toNat else headBytes 1 (-1 - n).toNat
  | .bytes content => headBytes 2 content.length ++ content
  | .text content =>
    let encoded := Bytes.ofText content
    headBytes 3 encoded.length ++ encoded
  | .float x => 0xfb :: Bytes.ofNat 8 x.word.toNat
  | .bool b => headBytes 7 (if b then 21 else 20)
  | .null => headBytes 7 22
  | .array items => headBytes 4 items.length ++ encodeAll items
  | .map entries => headBytes 5 entries.length ++ encodeEntries entries
  | .tag number content => headBytes 6 number ++ content.encode

def encodeAll : List Item → Bytes
  | [] => []
  | item :: items => item.encode ++ encodeAll items

def encodeEntries : List (Item × Item) → Bytes
  | [] => []
  | (key, value) :: entries => key.encode ++ value.encode ++ encodeEntries entries

end

end Item

end NativeScripts.Cbor
