import Mathlib.Data.Finset.Card
import NativeScripts.Proofs.Signers

/-! What is left of the history of a set of signers: the keys that were taken in, each once
and in the order of bytes, and nothing of when or how often they came. -/

namespace NativeScripts.Signers

variable {s t : Signers} {keys : List KeyHash}

theorem contains_eq_true {k : KeyHash} : s.contains k = true ↔ k ∈ s.keys :=
  decide_eq_true_iff

theorem nodup_keys (s : Signers) : s.keys.Nodup :=
  s.ascending.nodup

theorem size_eq_card (s : Signers) : s.size = s.keys.toFinset.card :=
  (List.toFinset_card_of_nodup s.nodup_keys).symm

/-- The set shows the keys that were taken in, whatever came twice and in whatever order. -/
structure Shows (s : Signers) (keys : List KeyHash) : Prop where
  contains_iff : ∀ k, s.contains k = true ↔ k ∈ keys
  ascending : s.keys.Pairwise fun a b => a.bytes < b.bytes
  nodup : s.keys.Nodup
  mem_iff : ∀ k, k ∈ s.keys ↔ s.contains k = true
  size_eq : s.size = keys.toFinset.card
  isEmpty_iff : s.isEmpty = true ↔ ∀ k, s.contains k = false

theorem shows_of_mem (h : ∀ k, k ∈ s.keys ↔ k ∈ keys) : s.Shows keys := by
  refine ⟨fun k => contains_eq_true.trans (h k), s.ascending, s.nodup_keys,
    fun k => contains_eq_true.symm, ?_, ?_⟩
  · have hsame : s.keys.toFinset = keys.toFinset := by
      ext k
      rw [List.mem_toFinset, List.mem_toFinset, h]
    rw [size_eq_card, hsame]
  · simp only [isEmpty, List.isEmpty_iff, List.eq_nil_iff_forall_not_mem, ← contains_eq_true,
      Bool.not_eq_true]

theorem eq_iff_contains : s = t ↔ ∀ k, s.contains k = t.contains k := by
  constructor
  · rintro rfl k
    rfl
  · intro h
    apply ext_of_mem
    intro k
    rw [← contains_eq_true, ← contains_eq_true, h]

theorem ofList_keys (s : Signers) : ofList s.keys = s :=
  ext_of_mem fun _ => mem_ofList

/-- A set is its members: any history of keys, from nothing or from a list, leaves those that
came in it, and histories with the same keys leave the same set. -/
theorem histories_leave_their_keys :
    (∀ start attested : List KeyHash,
      (attested.foldl insert (ofList start)).Shows (start ++ attested)) ∧
    (∀ attested : List KeyHash, (attested.foldl insert empty).Shows attested) ∧
    (∀ s t : Signers, s = t ↔ ∀ k, s.contains k = t.contains k) ∧
    (∀ start attested start' attested' : List KeyHash,
      attested.foldl insert (ofList start) = attested'.foldl insert (ofList start') ↔
        ∀ k, k ∈ start ++ attested ↔ k ∈ start' ++ attested') ∧
    ∀ s : Signers, ∃ keys, ofList keys = s := by
  have hmem (start attested : List KeyHash) (k : KeyHash) :
      k ∈ (attested.foldl insert (ofList start)).keys ↔ k ∈ start ++ attested := by
    rw [mem_foldl_insert, mem_ofList, List.mem_append, or_comm]
  refine ⟨fun start attested => shows_of_mem (hmem start attested),
    fun attested => shows_of_mem (hmem [] attested), fun _ _ => eq_iff_contains,
    fun start attested start' attested' => ⟨fun h k => ?_, fun h => ?_⟩,
    fun s => ⟨s.keys, s.ofList_keys⟩⟩
  · rw [← hmem, ← hmem, h]
  · apply ext_of_mem
    intro k
    rw [hmem, hmem, h]

end NativeScripts.Signers
