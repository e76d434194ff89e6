import NativeScripts.Cbor.Tags
import NativeScripts.Proofs.Cbor.Content
import NativeScripts.Proofs.Cbor.HeadSpelling
import NativeScripts.Proofs.Pointwise

/-! Items are paid for in bytes. Every item that is read takes up a byte of its own, so no
document is made of more items than it has bytes. -/

namespace NativeScripts.Cbor

theorem countAll_eq_sum (items : List Item) : countAll items = (items.map Item.count).sum := by
  induction items with
  | nil => rfl
  | cons item items ih => rw [countAll, ih, List.map_cons, List.sum_cons]

theorem countEntries_eq_sum (entries : List (Item × Item)) :
    countEntries entries = (entries.map fun e => e.1.count + e.2.count).sum := by
  induction entries with
  | nil => rfl
  | cons e entries ih =>
    obtain ⟨key, value⟩ := e
    rw [countEntries, ih, List.map_cons, List.sum_cons, Nat.add_assoc]

theorem length_le_countAll (items : List Item) : items.length ≤ countAll items := by
  rw [countAll_eq_sum]
  exact length_le_sum_map Item.count_pos items

theorem count_le_countAll {item : Item} {items : List Item} (h : item ∈ items) :
    item.count ≤ countAll items := by
  rw [countAll_eq_sum]
  exact le_sum_map Item.count h

section Takes

variable {α : Type}

/-- What is read takes up no fewer bytes than it weighs. -/
def Takes (read : Reader α) (weight : α → Nat) : Prop :=
  ∀ {bs x rest}, read bs = .ok (x, rest) → weight x + rest.length ≤ bs.length

theorem takes_readBytes (n : Nat) : Takes (readBytes n) List.length := by
  intro bs front rest h
  obtain ⟨rfl, -⟩ := readBytes_eq_ok.mp h
  rw [List.length_append]

theorem length_of_readHead {bs rest : Bytes} {head : Head} (h : readHead bs = .ok (head, rest)) :
    rest.length < bs.length := by
  obtain ⟨first, tail, argument, rfl, hr, -⟩ := readHead_eq_ok.mp h
  rw [List.length_cons]
  rcases spelled_of_readArgument hr with ⟨n, spelled, -, -, rfl⟩ | ⟨-, -, rfl⟩
  · rw [List.length_append]
    omega
  · omega

theorem takes_readPiece (kind : StringKind) (n : Nat) :
    Takes (readPiece kind n) List.length := by
  intro bs piece rest h
  rw [readPiece] at h
  split at h
  · cases h
  · rename_i piece rest hbytes
    split at h
    · cases h
    · cases h
      exact takes_readBytes n hbytes

theorem takes_readPieces (kind : StringKind) (fuel opened : Nat) :
    Takes (readPieces kind fuel opened) List.length := by
  induction fuel generalizing opened with
  | zero => exact fun h => by cases h
  | succ fuel ih =>
    intro bs content rest h
    rw [readPieces] at h
    split at h
    · cases h
    · rename_i after hhead
      have hl := length_of_readHead hhead
      split at h
      · cases h
        simp only [List.length_nil]
        omega
      · have hrest := ih _ h
        omega
    · rename_i head after _ hhead
      have hl := length_of_readHead hhead
      split at h
      · cases h
      · have hrest := ih _ h
        omega
      · split at h
        · cases h
        · rename_i piece between hpiece
          have hp := takes_readPiece kind _ hpiece
          split at h
          · cases h
          · rename_i pieces after' hpieces
            have hps := ih _ hpieces
            cases h
            rw [List.length_append]
            omega

theorem takes_readString (kind : StringKind) (length : Option Nat) :
    Takes (readString kind length) List.length := by
  cases length with
  | none => exact fun h => takes_readPieces kind _ _ h
  | some n => exact takes_readPiece kind n

variable {read : Reader α} {weight : α → Nat}

theorem takes_readMany (h : Takes read weight) (n : Nat) :
    Takes (readMany read n) fun xs => (xs.map weight).sum := by
  induction n with
  | zero =>
    intro bs xs rest hr
    cases hr
    simp
  | succ n ih =>
    intro bs xs rest hr
    obtain ⟨y, ys, between, hy, hys, rfl⟩ := readMany_succ_eq_ok.mp hr
    have hl := h hy
    have hls := ih hys
    simp only [List.map_cons, List.sum_cons] at hls ⊢
    omega

theorem takes_readUntilStop (h : Takes read weight) (fuel : Nat) :
    Takes (readUntilStop read fuel) fun xs => (xs.map weight).sum := by
  induction fuel with
  | zero => exact fun hr => by cases hr
  | succ fuel ih =>
    intro bs xs rest hr
    rcases readUntilStop_cases hr with ⟨hstop, rfl⟩ | ⟨y, ys, between, hy, hys, rfl⟩
    · have hl := length_of_readHead hstop
      simp only [List.map_nil, List.sum_nil]
      omega
    · have hl := h hy
      have hls := ih hys
      simp only [List.map_cons, List.sum_cons] at hls ⊢
      omega

theorem takes_readSeries (h : Takes read weight) (length : Option Nat) :
    Takes (readSeries read length) fun xs => (xs.map weight).sum := by
  cases length with
  | none => exact fun hr => takes_readUntilStop h _ hr
  | some n => exact takes_readMany h n

theorem takes_readEntry (h : Takes read weight) :
    Takes (readEntry read) fun e => weight e.1 + weight e.2 := by
  intro bs e rest hr
  obtain ⟨between, hkey, hvalue⟩ := readEntry_eq_ok hr
  have hk := h hkey
  have hv := h hvalue
  simp only
  omega

end Takes

section Items

variable {inside : Inside} {bs rest : Bytes} {item : Item}

theorem count_ofBigNumber_le {negative : Bool} {n : Nat}
    (h : Item.ofBigNumber negative n = .ok item) : item.count ≤ 2 := by
  rw [Item.ofBigNumber] at h
  split at h
  · cases h
    simp [Item.count]
  · split at h
    · cases h
    · cases h
      simp [Item.count]

/-- The byte that is short here is the head's. -/
theorem Content.count_le (hinside : ∀ read, inside = some read → Takes read Item.count)
    {head : Head} (h : Content inside bs head item rest) :
    item.count + rest.length ≤ bs.length + 1 := by
  cases h with
  | unsigned | negative | bool | null | float =>
    rw [Item.count]
    omega
  | bytes h =>
    have hl := takes_readString .bytes _ h
    rw [Item.count]
    omega
  | text h =>
    have hl := takes_readString .text _ h
    rw [Item.count]
    omega
  | @array length read items rest hi h =>
    have hl : (items.map Item.count).sum + rest.length ≤ bs.length :=
      takes_readSeries (hinside read hi) length h
    rw [Item.count, countAll_eq_sum]
    omega
  | @map length read entries rest hi h =>
    have hl : (entries.map fun e => e.1.count + e.2.count).sum + rest.length ≤ bs.length :=
      takes_readSeries (takes_readEntry (hinside read hi)) length h
    rw [Item.count, countEntries_eq_sum]
    omega
  | @tag number read content rest hi h =>
    have hl := hinside read hi h
    rw [Item.count]
    omega
  | @bigNumber number n after digits rest item hh ht hn hd hi =>
    have hl := length_of_readHead hh
    have hl' := takes_readBytes n hd
    have hc := count_ofBigNumber_le hi
    omega

theorem takes_readItemWith (hinside : ∀ read, inside = some read → Takes read Item.count) :
    Takes (readItemWith inside) Item.count := by
  intro bs item rest h
  rw [readItemWith] at h
  split at h
  · cases h
  · rename_i head after hhead
    have hl := length_of_readHead hhead
    have hc := (content_of_readContent h).count_le hinside
    omega

theorem takes_readItem (depth : Nat) : Takes (readItem depth) Item.count := by
  induction depth with
  | zero => exact takes_readItemWith fun read hread => by cases hread
  | succ depth ih =>
    refine takes_readItemWith fun read hread => ?_
    cases hread
    exact ih

theorem Item.count_of_read (h : Item.read bs = .ok (item, rest)) :
    item.count + rest.length ≤ bs.length :=
  takes_readItem _ h

end Items

end NativeScripts.Cbor
