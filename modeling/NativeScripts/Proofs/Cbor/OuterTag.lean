import NativeScripts.Proofs.Cbor.Count
import NativeScripts.Proofs.Cbor.Tagged

/-! The tags of a document that no other tag holds. They are listed in the order of the
document, so that the last of them in the list is the one at the greatest place. -/

namespace NativeScripts

theorem getLast?_flatMap {α β : Type} {f : α → List β} {xs : List α} {y : β}
    (h : (xs.flatMap f).getLast? = some y) :
    ∃ before x after, xs = before ++ x :: after ∧ (f x).getLast? = some y ∧
      ∀ z ∈ after, f z = [] := by
  induction xs with
  | nil => cases h
  | cons x xs ih =>
    rw [List.flatMap_cons, List.getLast?_append] at h
    cases hxs : (xs.flatMap f).getLast? with
    | none =>
      rw [hxs, Option.none_or] at h
      have hafter := List.flatMap_eq_nil_iff.mp (List.getLast?_eq_none_iff.mp hxs)
      exact ⟨[], x, xs, rfl, h, hafter⟩
    | some y' =>
      rw [hxs, Option.some_or, Option.some.injEq] at h
      obtain ⟨before, x', after, he, hx', hafter⟩ := ih (h ▸ hxs)
      exact ⟨x :: before, x', after, by rw [he, List.cons_append], hx', hafter⟩

namespace Cbor

mutual

/-- The numbers of the tags that no other tag holds. Elements come by their positions and
entries by theirs, each key before its value. -/
def Item.outerTags : Item → List Nat
  | .array items => outerTagsAll items
  | .map entries => outerTagsEntries entries
  | .tag number _ => [number]
  | .integer _ => []
  | .bytes _ => []
  | .text _ => []
  | .float _ => []
  | .bool _ => []
  | .null => []

def outerTagsAll : List Item → List Nat
  | [] => []
  | item :: items => item.outerTags ++ outerTagsAll items

def outerTagsEntries : List (Item × Item) → List Nat
  | [] => []
  | (key, value) :: entries => key.outerTags ++ (value.outerTags ++ outerTagsEntries entries)

end

theorem outerTagsAll_eq (items : List Item) :
    outerTagsAll items = items.flatMap Item.outerTags := by
  induction items with
  | nil => rfl
  | cons item items ih => rw [outerTagsAll, ih, List.flatMap_cons]

theorem outerTagsEntries_eq (entries : List (Item × Item)) :
    outerTagsEntries entries = (flattenEntries entries).flatMap Item.outerTags := by
  induction entries with
  | nil => rfl
  | cons e entries ih =>
    obtain ⟨key, value⟩ := e
    rw [outerTagsEntries, ih, flattenEntries, List.flatMap_cons, List.flatMap_cons]

theorem flattenEntries_eq (entries : List (Item × Item)) :
    flattenEntries entries = entries.flatMap fun e => [e.1, e.2] := by
  induction entries with
  | nil => rfl
  | cons e entries ih =>
    rw [flattenEntries, ih, List.flatMap_cons]
    rfl

namespace Item

/-- The items right below an item, in the order of the document. What a tag holds is left
out of account. -/
def parts? : Item → Option (List Item)
  | .array items => some items
  | .map entries => some (entries.flatMap fun e => [e.1, e.2])
  | .tag _ _ => none
  | _ => some []

section Parts

variable {item : Item} {parts : List Item}

theorem parts?_eq_none : item.parts? = none ↔ ∃ number content, item = .tag number content := by
  cases item <;> simp [parts?]

theorem outerTags_of_parts? (h : item.parts? = some parts) :
    item.outerTags = parts.flatMap outerTags := by
  cases item <;> simp only [parts?, Option.some.injEq, reduceCtorEq] at h <;> subst h
  case array items => exact outerTagsAll_eq items
  case map entries => rw [outerTags, outerTagsEntries_eq, flattenEntries_eq]
  all_goals rfl

theorem count_of_parts? (h : item.parts? = some parts) : item.count = countAll parts + 1 := by
  cases item <;> simp only [parts?, Option.some.injEq, reduceCtorEq] at h <;> subst h
  case array items => rfl
  case map entries => rw [count, ← countAll_flattenEntries, flattenEntries_eq]
  all_goals rfl

/-- What every item has if it passes from the items below an item to the item. -/
@[elab_as_elim]
theorem induct_parts {P : Item → Prop} (tag : ∀ number content, P (.tag number content))
    (opened : ∀ item parts, item.parts? = some parts → (∀ part ∈ parts, P part) → P item)
    (item : Item) : P item :=
  match h : item.parts? with
  | none => by
    obtain ⟨number, content, rfl⟩ := parts?_eq_none.mp h
    exact tag number content
  | some parts => opened item parts h fun part _ => induct_parts tag opened part
termination_by item.count
decreasing_by
  have hle := count_le_countAll ‹_›
  rw [count_of_parts? h]
  omega

end Parts

/-- The item at a place, which is told by the positions on the way to it. No way leads into
what a tag holds. -/
inductive At : Item → List Nat → Item → Prop where
  | here (item : Item) : At item [] item
  | inside {item part found : Item} {parts : List Item} {i : Nat} {place : List Nat}
      (hp : item.parts? = some parts) (hi : parts[i]? = some part) (h : At part place found) :
      At item (i :: place) found

section At

variable {item content : Item} {place : List Nat} {number : Nat}

theorem At.outerTags_ne_nil (h : At item place (.tag number content)) : item.outerTags ≠ [] := by
  induction place generalizing item with
  | nil =>
    cases h
    exact List.cons_ne_nil _ _
  | cons i place ih =>
    cases h with
    | inside hp hi h =>
      rw [outerTags_of_parts? hp]
      intro hnil
      exact ih h (List.flatMap_eq_nil_iff.mp hnil _ (List.mem_of_getElem? hi))

/-- The tag stands at the place, and every other tag stands at one before it. -/
def LastAt (item : Item) (place : List Nat) (number : Nat) : Prop :=
  (∃ content, At item place (.tag number content)) ∧
    ∀ place' number' content', At item place' (.tag number' content') →
      place' < place ∨ place' = place

theorem lastAt_tag (number : Nat) (content : Item) : LastAt (.tag number content) [] number := by
  refine ⟨⟨content, .here _⟩, fun place' _ _ h => ?_⟩
  cases h with
  | here => exact .inr rfl
  | inside hp => cases hp

/-- The parts behind the one with the greatest place hold no tag. -/
theorem LastAt.below {part : Item} {before after : List Item} (h : LastAt part place number)
    (hp : item.parts? = some (before ++ part :: after)) (ha : ∀ z ∈ after, z.outerTags = []) :
    LastAt item (before.length :: place) number := by
  have hpart : (before ++ part :: after)[before.length]? = some part := by simp
  obtain ⟨⟨content, hat⟩, hlast⟩ := h
  refine ⟨⟨content, .inside hp hpart hat⟩, fun place' number' content' h' => ?_⟩
  cases h' with
  | here => cases hp
  | @inside _ found _ _ i rest hp' hi h' =>
    cases hp.symm.trans hp'
    rw [List.cons_lt_cons_iff, List.cons.injEq]
    rcases Nat.lt_trichotomy i before.length with hlt | rfl | hgt
    · exact .inl (.inl hlt)
    · rw [hpart, Option.some.injEq] at hi
      rcases hlast _ _ _ (hi ▸ h') with hlt | heq
      · exact .inl (.inr ⟨rfl, hlt⟩)
      · exact .inr ⟨rfl, heq⟩
    · rw [List.getElem?_append_right (Nat.le_of_lt hgt),
        List.getElem?_cons, if_neg (by omega)] at hi
      exact absurd (ha _ (List.mem_of_getElem? hi)) h'.outerTags_ne_nil

theorem exists_lastAt (item : Item) : ∀ {number : Nat}, item.outerTags.getLast? = some number →
    ∃ place, LastAt item place number := by
  induction item using induct_parts with
  | tag number content =>
    intro number' h
    cases h
    exact ⟨[], lastAt_tag number content⟩
  | opened item parts hp ih =>
    intro number h
    rw [outerTags_of_parts? hp] at h
    obtain ⟨before, part, after, rfl, hpart, hafter⟩ := getLast?_flatMap h
    obtain ⟨place, hplace⟩ := ih part (by simp) hpart
    exact ⟨_, hplace.below hp hafter⟩

end At

end Item

end Cbor

end NativeScripts
