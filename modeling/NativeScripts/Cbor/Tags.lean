import NativeScripts.Cbor.Item

/-! The search for a tagged item. Containers are opened onto a stack, so what
stands last in the document is looked at first. -/

namespace NativeScripts.Cbor

mutual

/-- How many items a document is made of. -/
def Item.count : Item → Nat
  | .array items => countAll items + 1
  | .map entries => countEntries entries + 1
  | .tag _ content => content.count + 1
  | .integer _ => 1
  | .bytes _ => 1
  | .text _ => 1
  | .float _ => 1
  | .bool _ => 1
  | .null => 1

def countAll : List Item → Nat
  | [] => 0
  | item :: items => item.count + countAll items

def countEntries : List (Item × Item) → Nat
  | [] => 0
  | (key, value) :: entries => key.count + (value.count + countEntries entries)

end

theorem Item.count_pos (item : Item) : 0 < item.count := by
  cases item <;> simp [Item.count]

theorem countAll_append (xs ys : List Item) : countAll (xs ++ ys) = countAll xs + countAll ys := by
  induction xs with
  | nil => simp [countAll]
  | cons x xs ih => simp [countAll, ih, Nat.add_assoc]

theorem countAll_reverse (xs : List Item) : countAll xs.reverse = countAll xs := by
  induction xs with
  | nil => rfl
  | cons x xs ih => simp [countAll, countAll_append, ih, Nat.add_comm]

/-- Keys and values in the order of the document. -/
def flattenEntries : List (Item × Item) → List Item
  | [] => []
  | (key, value) :: entries => key :: value :: flattenEntries entries

theorem countAll_flattenEntries (entries : List (Item × Item)) :
    countAll (flattenEntries entries) = countEntries entries := by
  induction entries with
  | nil => simp [flattenEntries, countAll, countEntries]
  | cons e es ih => simp [flattenEntries, countAll, countEntries, ih]

theorem countAll_open_array (items pending : List Item) :
    countAll (items.reverse ++ pending) < countAll (.array items :: pending) := by
  simp only [countAll_append, countAll_reverse, countAll, Item.count]
  omega

theorem countAll_open_map (entries : List (Item × Item)) (pending : List Item) :
    countAll ((flattenEntries entries).reverse ++ pending) <
      countAll (.map entries :: pending) := by
  simp only [countAll_append, countAll_reverse, countAll_flattenEntries, countAll, Item.count]
  omega

theorem countAll_lt_cons (item : Item) (pending : List Item) :
    countAll pending < countAll (item :: pending) := by
  have h := item.count_pos
  simp only [countAll]
  omega

/-- The number of the first tag found, the top of the stack being the head of
the list. What a tag holds is not searched. -/
def searchTag : List Item → Option Nat
  | [] => none
  | .tag number _ :: _ => some number
  | .array items :: pending => searchTag (items.reverse ++ pending)
  | .map entries :: pending => searchTag ((flattenEntries entries).reverse ++ pending)
  | .integer _ :: pending => searchTag pending
  | .bytes _ :: pending => searchTag pending
  | .text _ :: pending => searchTag pending
  | .float _ :: pending => searchTag pending
  | .bool _ :: pending => searchTag pending
  | .null :: pending => searchTag pending
termination_by pending => countAll pending
decreasing_by
  · simp only [List.unattach_reverse, List.unattach_attach]
    exact countAll_open_array _ _
  · exact countAll_open_map _ _
  all_goals exact countAll_lt_cons _ _

end NativeScripts.Cbor
