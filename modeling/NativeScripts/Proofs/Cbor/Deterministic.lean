import NativeScripts.Proofs.Cbor.PlainItem

/-! Deterministic CBOR: no head could be shorter, every length is given, and no
tag is used. Of a deterministic byte string the encoder gives back each byte, if
it is made of integers, byte strings and arrays. -/

namespace NativeScripts.Cbor

/-- The bytes spell the head, and no fewer bytes do. -/
structure Head.Shortest (head : Head) (bs : Bytes) : Prop where
  spells : readHead bs = .ok (head, [])
  le_length : ∀ bs', readHead bs' = .ok (head, []) → bs.length ≤ bs'.length

/-- One item of any kind but a tag. The keys and values of a map stand one after
the other. -/
inductive Deterministic : Bytes → Prop where
  | unsigned {n : Nat} {head : Bytes} (h : (Head.unsigned n).Shortest head) : Deterministic head
  | negative {n : Nat} {head : Bytes} (h : (Head.negative n).Shortest head) : Deterministic head
  | bytes {content head : Bytes} (h : (Head.bytes (some content.length)).Shortest head) :
      Deterministic (head ++ content)
  | text {content head : Bytes} (h : (Head.text (some content.length)).Shortest head) :
      Deterministic (head ++ content)
  | array {items : List Bytes} {head : Bytes} (h : (Head.array (some items.length)).Shortest head)
      (each : ∀ i ∈ items, Deterministic i) : Deterministic (head ++ items.flatten)
  | map {items : List Bytes} {entries : Nat} {head : Bytes}
      (h : (Head.map (some entries)).Shortest head) (hl : items.length = 2 * entries)
      (each : ∀ i ∈ items, Deterministic i) :
      Deterministic (head ++ items.flatten)
  | simple {n : Nat} {head : Bytes} (h : (Head.simple n).Shortest head) : Deterministic head
  | float {x : Binary64} {head : Bytes} (h : (Head.float x).Shortest head) : Deterministic head

theorem Head.shortest_ofArgument (major : Nat) (hm : major < 7) {n : Nat} {bs : Bytes} :
    (Head.ofArgument major n).Shortest bs ↔ n < UInt64.size ∧ bs = headBytes major n := by
  have hreads (hn : n < UInt64.size) :
      readHead (headBytes major n) = .ok (Head.ofArgument major n, []) := by
    simpa using readHead_headBytes hm hn []
  constructor
  · intro h
    rcases h with ⟨hs, hle⟩
    obtain ⟨info, spelled, ha, rfl⟩ := (readHead_eq_ofArgument hm).mp hs
    have hn := ha.lt_size
    obtain ⟨info', spelled', ha', hb, hmin⟩ := headBytes_spelled major hn
    have hl : spelled.length ≤ spelled'.length := by
      simpa [hb] using hle _ (hreads hn)
    obtain ⟨rfl, rfl⟩ := ha.eq_of_length_eq ha' (Nat.le_antisymm hl (hmin ha))
    exact ⟨hn, by simp [hb]⟩
  · intro h
    rcases h with ⟨hn, rfl⟩
    refine ⟨hreads hn, fun bs' hs => ?_⟩
    obtain ⟨info, spelled, ha, rfl⟩ := (readHead_eq_ofArgument hm).mp hs
    obtain ⟨info', spelled', ha', hb, hmin⟩ := headBytes_spelled major hn
    simpa [hb] using hmin ha

theorem Item.deterministic_encode {item : Item} (h : item.Plain) : Deterministic item.encode := by
  induction h with
  | unsigned hn =>
    rw [encode_unsigned]
    exact .unsigned ((Head.shortest_ofArgument 0 (by omega)).mpr ⟨hn, rfl⟩)
  | negative hn =>
    rw [encode_negative]
    exact .negative ((Head.shortest_ofArgument 1 (by omega)).mpr ⟨hn, rfl⟩)
  | bytes hn =>
    rw [encode]
    exact .bytes ((Head.shortest_ofArgument 2 (by omega)).mpr ⟨hn, rfl⟩)
  | @array items hn _ ih =>
    have hl : (items.map encode).length < UInt64.size := by simpa using hn
    rw [encode_array, encodeAll_eq_flatten, ← List.length_map encode]
    refine .array ((Head.shortest_ofArgument 4 (by omega)).mpr ⟨hl, rfl⟩) fun i hi => ?_
    obtain ⟨item, hitem, rfl⟩ := List.mem_map.mp hi
    exact ih item hitem

/-- The heads behind which no integer, byte string or array stands. -/
def Head.OfOther : Head → Prop
  | .text _ => True
  | .map _ => True
  | .simple _ => True
  | .float _ => True
  | _ => False

theorem not_bare_of_readContent {inside : Inside} {head : Head} {bs rest : Bytes} {item : Item}
    (h : readContent inside head bs = .ok (item, rest)) (hh : head.OfOther) : ¬item.Bare := by
  intro hb
  cases content_of_readContent h with
  | text | map | bool | null | float => cases hb
  | _ => exact hh.elim

theorem encodeAll_of_readMany {read : Reader Item} {items : List Bytes} {xs : List Item}
    {rest rest' : Bytes}
    (each : ∀ i ∈ items, ∀ {x rest rest'}, x ∈ xs → read (i ++ rest) = .ok (x, rest') →
      x.encode = i ∧ rest' = rest)
    (h : readMany read items.length (items.flatten ++ rest) = .ok (xs, rest')) :
    xs.length = items.length ∧ Item.encodeAll xs = items.flatten ∧ rest' = rest := by
  induction items generalizing xs with
  | nil =>
    cases h
    exact ⟨rfl, rfl, rfl⟩
  | cons i items ih =>
    rw [List.length_cons, List.flatten_cons, List.append_assoc] at h
    obtain ⟨y, ys, between, hread, hmany, rfl⟩ := readMany_succ_eq_ok.mp h
    obtain ⟨rfl, rfl⟩ := each i List.mem_cons_self List.mem_cons_self hread
    have heach : ∀ i' ∈ items, ∀ {x rest rest'}, x ∈ ys → read (i' ++ rest) = .ok (x, rest') →
        x.encode = i' ∧ rest' = rest := by
      intro i' hi' x rest rest' hx
      exact each i' (List.mem_cons_of_mem _ hi') (List.mem_cons_of_mem y hx)
    obtain ⟨hl, he, hrest⟩ := ih heach hmany
    refine ⟨?_, ?_, hrest⟩
    · rw [List.length_cons, hl, List.length_cons]
    · rw [Item.encodeAll, he, List.flatten_cons]

theorem Deterministic.encode_eq {bs : Bytes} (h : Deterministic bs) {depth : Nat}
    {item : Item} {rest rest' : Bytes} (hb : item.Bare)
    (hr : readItem depth (bs ++ rest) = .ok (item, rest')) : item.encode = bs ∧ rest' = rest := by
  have hcontent {head : Head} {bs : Bytes} (hs : head.Shortest bs) (more : Bytes) (depth : Nat) :
      readItem depth (bs ++ more) = readContent (insideAt depth) head more :=
    readItem_head (readHead_append hs.spells more) depth
  induction h generalizing depth item rest rest' with
  | @unsigned n head hs =>
    rw [hcontent hs, readContent, Except.ok.injEq, Prod.mk.injEq] at hr
    obtain ⟨rfl, rfl⟩ := hr
    have hhead : head = headBytes 0 n := ((Head.shortest_ofArgument 0 (by omega)).mp hs).2
    exact ⟨by rw [Item.encode_unsigned, hhead], rfl⟩
  | @negative n head hs =>
    rw [hcontent hs, readContent, Except.ok.injEq, Prod.mk.injEq] at hr
    obtain ⟨rfl, rfl⟩ := hr
    have hhead : head = headBytes 1 n := ((Head.shortest_ofArgument 1 (by omega)).mp hs).2
    exact ⟨by rw [Item.encode_negative, hhead], rfl⟩
  | @bytes content head hs =>
    have hread : readBytes content.length (content ++ rest) = .ok (content, rest) :=
      readBytes_eq_ok.mpr ⟨rfl, rfl⟩
    rw [List.append_assoc, hcontent hs] at hr
    simp only [readContent, readString, readPiece, hread, reduceCtorEq, false_and, if_false,
      Except.ok.injEq, Prod.mk.injEq] at hr
    obtain ⟨rfl, rfl⟩ := hr
    have hhead : head = headBytes 2 content.length :=
      ((Head.shortest_ofArgument 2 (by omega)).mp hs).2
    exact ⟨by rw [Item.encode, hhead], rfl⟩
  | @array items head hs _ ih =>
    rw [List.append_assoc, hcontent hs] at hr
    cases depth with
    | zero => cases hr
    | succ depth =>
      simp only [readContent, insideAt, readSeries] at hr
      split at hr
      · cases hr
      · rename_i xs rest'' hm
        simp only [Except.ok.injEq, Prod.mk.injEq] at hr
        obtain ⟨rfl, rfl⟩ := hr
        cases hb with
        | array each =>
          obtain ⟨hl, he, rfl⟩ :=
            encodeAll_of_readMany (fun i hi x _ _ hx hread => ih i hi (each x hx) hread) hm
          have hhead : head = headBytes 4 items.length :=
            ((Head.shortest_ofArgument 4 (by omega)).mp hs).2
          exact ⟨by rw [Item.encode_array, hl, he, hhead], rfl⟩
  | text hs =>
    rw [List.append_assoc, hcontent hs] at hr
    exact absurd hb (not_bare_of_readContent hr trivial)
  | map hs =>
    rw [List.append_assoc, hcontent hs] at hr
    exact absurd hb (not_bare_of_readContent hr trivial)
  | simple hs =>
    rw [hcontent hs] at hr
    exact absurd hb (not_bare_of_readContent hr trivial)
  | float hs =>
    rw [hcontent hs] at hr
    exact absurd hb (not_bare_of_readContent hr trivial)

end NativeScripts.Cbor
