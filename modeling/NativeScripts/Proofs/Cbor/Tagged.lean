import NativeScripts.Cbor.Tags

/-! Items with a tag somewhere among their elements, keys and values. The search
over a stack comes back without a number if and only if no item on it is one. -/

namespace NativeScripts.Cbor

inductive Item.Tagged : Item → Prop where
  | tag (number : Nat) (content : Item) : Tagged (.tag number content)
  | array {items : List Item} {item : Item} (hi : item ∈ items) (h : Tagged item) :
      Tagged (.array items)
  | key {entries : List (Item × Item)} {key value : Item} (he : (key, value) ∈ entries)
      (h : Tagged key) : Tagged (.map entries)
  | value {entries : List (Item × Item)} {key value : Item} (he : (key, value) ∈ entries)
      (h : Tagged value) : Tagged (.map entries)

theorem mem_flattenEntries {entries : List (Item × Item)} {item : Item} :
    item ∈ flattenEntries entries ↔ ∃ e ∈ entries, item = e.1 ∨ item = e.2 := by
  induction entries with
  | nil => simp [flattenEntries]
  | cons e es ih => simp [flattenEntries, ih, or_assoc]

namespace Item

theorem tagged_array {items : List Item} : Tagged (.array items) ↔ ∃ i ∈ items, i.Tagged := by
  constructor
  · intro h
    cases h with
    | array hi h => exact ⟨_, hi, h⟩
  · intro h
    rcases h with ⟨i, hi, h⟩
    exact .array hi h

theorem not_tagged_array {items : List Item} :
    ¬Tagged (.array items) ↔ ∀ i ∈ items, ¬i.Tagged := by
  rw [tagged_array]
  simp only [not_exists, not_and]

theorem untagged_eq_self {item : Item} (h : ¬item.Tagged) : item.untagged = item := by
  cases item with
  | tag number content => exact absurd (.tag number content) h
  | _ => rfl

theorem tagged_map {entries : List (Item × Item)} :
    Tagged (.map entries) ↔ ∃ i ∈ flattenEntries entries, i.Tagged := by
  constructor
  · intro h
    cases h with
    | key he h => exact ⟨_, mem_flattenEntries.mpr ⟨_, he, .inl rfl⟩, h⟩
    | value he h => exact ⟨_, mem_flattenEntries.mpr ⟨_, he, .inr rfl⟩, h⟩
  · intro h
    rcases h with ⟨i, hi, h⟩
    obtain ⟨⟨key, value⟩, he, rfl | rfl⟩ := mem_flattenEntries.mp hi
    · exact .key he h
    · exact .value he h

end Item

theorem searchTag_eq_none_iff {pending : List Item} :
    searchTag pending = none ↔ ∀ i ∈ pending, ¬i.Tagged := by
  fun_induction searchTag pending with
  | case1 => simp
  | case2 number content pending =>
    have ht : (Item.tag number content).Tagged := .tag number content
    simp [ht]
  | case3 items pending ih =>
    simp only [List.unattach_reverse, List.unattach_attach] at ih
    simp only [ih, List.mem_append, List.mem_reverse, List.mem_cons, or_imp, forall_and,
      forall_eq, Item.tagged_array, not_exists, not_and]
  | case4 entries pending ih =>
    simp only [ih, List.mem_append, List.mem_reverse, List.mem_cons, or_imp, forall_and,
      forall_eq, Item.tagged_map, not_exists, not_and]
  | _ =>
    rename_i ih
    rw [ih, List.forall_mem_cons, and_iff_right]
    intro h
    cases h

end NativeScripts.Cbor
