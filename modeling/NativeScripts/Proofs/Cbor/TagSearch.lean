import NativeScripts.Proofs.Cbor.OuterTag
import NativeScripts.Script.Decoding

/-! The search for a tag, turn by turn. No turn changes which tags are still to be found nor
their order, and each makes the stack lighter by one item, so that the search comes to an end
and what it meets is the last tag of the document that no other tag holds. -/

namespace NativeScripts

namespace Cbor

/-- The item on top is taken off the stack and the items right below it are put there, the
last of them on top. -/
inductive Turn : List Item → List Item → Prop where
  | opened {item : Item} {parts : List Item} (pending : List Item)
      (h : item.parts? = some parts) : Turn (item :: pending) (parts.reverse ++ pending)

/-- The search takes so many turns, and ends with a tag on top of the stack or with nothing
on it. -/
inductive Search : Nat → List Item → Option Nat → Prop where
  | emptied : Search 0 [] none
  | met (number : Nat) (content : Item) (pending : List Item) :
      Search 0 (.tag number content :: pending) (some number)
  | turn {n : Nat} {stack stack' : List Item} {found : Option Nat} (first : Turn stack stack')
      (rest : Search n stack' found) : Search (n + 1) stack found

/-- The outer tags of what is on the stack, in the order of the document. -/
def pendingTags (stack : List Item) : List Nat :=
  stack.reverse.flatMap Item.outerTags

theorem pendingTags_cons (item : Item) (pending : List Item) :
    pendingTags (item :: pending) = pendingTags pending ++ item.outerTags := by
  simp [pendingTags]

namespace Turn

variable {stack stack' : List Item}

theorem count_eq (h : Turn stack stack') : countAll stack = countAll stack' + 1 := by
  obtain ⟨pending, hp⟩ := h
  rw [countAll, Item.count_of_parts? hp, countAll_append, countAll_reverse]
  omega

theorem pendingTags_eq (h : Turn stack stack') : pendingTags stack = pendingTags stack' := by
  obtain ⟨pending, hp⟩ := h
  rw [pendingTags_cons, Item.outerTags_of_parts? hp, pendingTags, pendingTags,
    List.reverse_append, List.reverse_reverse, List.flatMap_append]

theorem searchTag_eq (h : Turn stack stack') : searchTag stack = searchTag stack' := by
  obtain @⟨item, parts, pending, hp⟩ := h
  cases item <;> simp only [Item.parts?, Option.some.injEq, reduceCtorEq] at hp <;> subst hp <;>
    rw [searchTag]
  case map entries => rw [flattenEntries_eq]
  all_goals rfl

end Turn

namespace Search

variable {n : Nat} {stack : List Item} {found : Option Nat}

theorem found_eq (h : Search n stack found) : found = (pendingTags stack).getLast? := by
  induction h with
  | emptied => rfl
  | met number content pending =>
    rw [pendingTags_cons, Item.outerTags, List.getLast?_concat]
  | turn first _ ih => rw [first.pendingTags_eq, ih]

theorem searchTag_eq (h : Search n stack found) : searchTag stack = found := by
  induction h with
  | emptied => rw [searchTag]
  | met => rw [searchTag]
  | turn first _ ih => rw [first.searchTag_eq, ih]

/-- Each turn is paid for with one of the items on the stack. -/
theorem le_countAll (h : Search n stack found) : n ≤ countAll stack := by
  induction h with
  | emptied => exact Nat.zero_le _
  | met => exact Nat.zero_le _
  | turn first _ ih =>
    rw [first.count_eq]
    exact Nat.succ_le_succ ih

end Search

theorem exists_search (stack : List Item) : ∃ n found, Search n stack found := by
  match stack with
  | [] => exact ⟨0, none, .emptied⟩
  | item :: pending =>
    cases hp : item.parts? with
    | none =>
      obtain ⟨number, content, rfl⟩ := Item.parts?_eq_none.mp hp
      exact ⟨0, some number, .met number content pending⟩
    | some parts =>
      have hturn := Turn.opened pending hp
      have hcount := hturn.count_eq
      obtain ⟨n, found, hsearch⟩ := exists_search (parts.reverse ++ pending)
      exact ⟨n + 1, found, .turn hturn hsearch⟩
termination_by countAll stack
decreasing_by omega

theorem searchTag_eq_getLast? (stack : List Item) :
    searchTag stack = (pendingTags stack).getLast? := by
  obtain ⟨_, _, hsearch⟩ := exists_search stack
  rw [hsearch.searchTag_eq, hsearch.found_eq]

theorem searchTag_singleton (item : Item) : searchTag [item] = item.outerTags.getLast? := by
  rw [searchTag_eq_getLast?, pendingTags_cons]
  rfl

end Cbor

open Cbor (Item Search searchTag)

/-- The search ends, comes back empty-handed only from a document without tags, and otherwise
tells the number of the last of the tags that no other tag holds. -/
theorem search_tells_last_outer_tag (item : Item) :
    (∃ n, Search n [item] item.outerTags.getLast?) ∧
    (∀ n found, Search n [item] found → n ≤ item.count ∧ found = item.outerTags.getLast?) ∧
    searchTag [item] = item.outerTags.getLast? ∧
    (searchTag [item] = none ↔ ¬item.Tagged) ∧
    (∀ number, searchTag [item] = some number → ∃ place, item.LastAt place number) ∧
    ∀ bs, Item.read bs = .ok (item, []) →
      decodeItem bs = match item.outerTags.getLast? with
        | some number => .error (.tagged number)
        | none => .ok item := by
  have htag := Cbor.searchTag_singleton item
  refine ⟨?_, fun n found hsearch => ⟨hsearch.le_countAll, ?_⟩, htag, ?_, fun number h => ?_,
    fun bs hr => ?_⟩
  · obtain ⟨n, found, hsearch⟩ := Cbor.exists_search [item]
    rw [← htag, hsearch.searchTag_eq]
    exact ⟨n, hsearch⟩
  · rw [← htag, hsearch.searchTag_eq]
  · rw [Cbor.searchTag_eq_none_iff, List.forall_mem_singleton]
  · exact item.exists_lastAt (htag ▸ h)
  · rw [← htag]
    cases hs : searchTag [item] <;> simp [decodeItem, hr, hs]

/-- An array with a tag, a map whose key and value are tags, one of them around another, and
nothing else. -/
def taggedEntries : Item :=
  .array [.tag 9 .null, .map [(.tag 4 .null, .tag 5 (.tag 6 .null))], .bool true]

theorem tag_of_last_value_told :
    (searchTag [taggedEntries] = some 5 ∧ ∃ place, taggedEntries.LastAt place 5) ∧
    Item.read [0x83, 0xc9, 0xf6, 0xa1, 0xc4, 0xf6, 0xc5, 0xc6, 0xf6, 0xf5] =
        .ok (taggedEntries, []) ∧
      decodeItem [0x83, 0xc9, 0xf6, 0xa1, 0xc4, 0xf6, 0xc5, 0xc6, 0xf6, 0xf5] =
        .error (.tagged 5) := by
  obtain ⟨-, -, hlast, -, hplace, hdecode⟩ := search_tells_last_outer_tag taggedEntries
  have hread : Item.read [0x83, 0xc9, 0xf6, 0xa1, 0xc4, 0xf6, 0xc5, 0xc6, 0xf6, 0xf5] =
      .ok (taggedEntries, []) := rfl
  exact ⟨⟨hlast, hplace 5 hlast⟩, hread, hdecode _ hread⟩

end NativeScripts
