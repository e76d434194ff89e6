import NativeScripts.Hash

/-! The keys that have signed, each held once and in the order of bytes, so
that equal sets are equal as lists. -/

namespace NativeScripts

theorem Hash.lt_irrefl {kind : HashKind} (a : Hash kind) : ¬ a < a :=
  List.lt_irrefl a.bytes

theorem Hash.lt_trans {kind : HashKind} {a b c : Hash kind} (h : a < b) (h' : b < c) : a < c :=
  List.lt_trans h h'

theorem Hash.lt_of_not_lt {kind : HashKind} {a b : Hash kind} (h : ¬ a < b) (hne : a ≠ b) :
    b < a := by
  have hle : b.bytes ≤ a.bytes := List.not_lt.mp h
  rcases List.le_iff_lt_or_eq.mp hle with hlt | heq
  · exact hlt
  · exact absurd (Hash.ext heq.symm) hne

structure Signers where
  keys : List KeyHash
  ascending : keys.Pairwise (· < ·)
  deriving DecidableEq

namespace Signers

def empty : Signers := ⟨[], .nil⟩

def contains (s : Signers) (key : KeyHash) : Bool :=
  key ∈ s.keys

def size (s : Signers) : Nat :=
  s.keys.length

def isEmpty (s : Signers) : Bool :=
  s.keys.isEmpty

def insertKey (key : KeyHash) : List KeyHash → List KeyHash
  | [] => [key]
  | k :: ks =>
    if key < k then key :: k :: ks
    else if key = k then k :: ks
    else k :: insertKey key ks

theorem mem_insertKey {key k : KeyHash} {ks : List KeyHash} :
    k ∈ insertKey key ks ↔ k = key ∨ k ∈ ks := by
  induction ks with
  | nil => simp [insertKey]
  | cons a as ih =>
    rw [insertKey]
    split
    · simp
    · split
      · rename_i h
        simp [h]
      · simp only [List.mem_cons, ih]
        grind

theorem insertKey_ascending {key : KeyHash} {ks : List KeyHash} (h : ks.Pairwise (· < ·)) :
    (insertKey key ks).Pairwise (· < ·) := by
  induction ks with
  | nil => simp [insertKey]
  | cons a as ih =>
    rw [insertKey]
    have ha := List.pairwise_cons.mp h
    split
    · rename_i hlt
      refine List.pairwise_cons.mpr ⟨fun k hk => ?_, h⟩
      rcases List.mem_cons.mp hk with rfl | hk
      · exact hlt
      · exact Hash.lt_trans hlt (ha.1 k hk)
    · split
      · exact h
      · rename_i hlt hne
        refine List.pairwise_cons.mpr ⟨fun k hk => ?_, ih ha.2⟩
        rcases mem_insertKey.mp hk with rfl | hk
        · exact Hash.lt_of_not_lt hlt hne
        · exact ha.1 k hk

/-- The set with one more key, if it does not hold the key already. -/
def insert (s : Signers) (key : KeyHash) : Signers :=
  ⟨insertKey key s.keys, insertKey_ascending s.ascending⟩

def ofList (keys : List KeyHash) : Signers :=
  keys.foldl insert empty

end Signers

end NativeScripts
