import NativeScripts.Proofs.Cbor.WellFormed

/-! Arrays with a place left open. The bytes around the place are the same whatever item
stands there, and whichever of its spellings. -/

namespace NativeScripts.Cbor

/-- An integer behind a head of any width. -/
inductive SpelledInteger : Int → Bytes → Prop where
  | unsigned {n info : Nat} {spelled : Bytes} (h : Argument n info spelled) :
      SpelledInteger n (UInt8.ofNat info :: spelled)
  | negative {n info : Nat} {spelled : Bytes} (h : Argument n info spelled) :
      SpelledInteger (-1 - (n : Int)) (UInt8.ofNat (32 + info) :: spelled)

theorem SpelledInteger.plain {i : Int} {bs : Bytes} (h : SpelledInteger i bs) :
    (Item.integer i).Plain := by
  cases h with
  | unsigned h => exact .unsigned h.lt_size
  | negative h => exact .negative h.lt_size

/-- The item is read from these bytes in front of any others. -/
def Item.ReadFrom (item : Item) (bs : Bytes) : Prop :=
  ∀ depth rest, bs.length ≤ depth → readItem depth (bs ++ rest) = .ok (item, rest)

theorem SpelledInteger.readFrom {i : Int} {bs : Bytes} (h : SpelledInteger i bs) :
    (Item.integer i).ReadFrom bs := by
  intro depth rest _
  cases h with
  | @unsigned n info spelled h =>
    have hh : readHead (UInt8.ofNat info :: spelled ++ rest) = .ok (.unsigned n, rest) :=
      (readHead_eq_ofArgument (by decide : 0 < 7)).mpr ⟨info, spelled, h, by simp⟩
    rw [readItem_head hh]
    rfl
  | @negative n info spelled h =>
    have hh : readHead (UInt8.ofNat (32 + info) :: spelled ++ rest) = .ok (.negative n, rest) :=
      (readHead_eq_ofArgument (by decide : 1 < 7)).mpr ⟨info, spelled, h, rfl⟩
    rw [readItem_head hh]
    rfl

/-- An array around one place. -/
structure Frame where
  before : List Item
  after : List Item

theorem encodeAll_append (items more : List Item) :
    Item.encodeAll (items ++ more) = Item.encodeAll items ++ Item.encodeAll more := by
  simp only [Item.encodeAll_eq_flatten, List.map_append, List.flatten_append]

theorem readMany_append {α : Type} {read : Reader α} {m n : Nat} {bs between rest : Bytes}
    {xs ys : List α} (hx : readMany read m bs = .ok (xs, between))
    (hy : readMany read n between = .ok (ys, rest)) :
    readMany read (m + n) bs = .ok (xs ++ ys, rest) := by
  induction m generalizing bs xs with
  | zero =>
    cases hx
    rwa [Nat.zero_add]
  | succ m ih =>
    obtain ⟨x, xs, after, hfirst, hxs, rfl⟩ := readMany_succ_eq_ok.mp hx
    rw [Nat.succ_add]
    exact readMany_succ_eq_ok.mpr ⟨x, xs ++ ys, after, hfirst, ih hxs, rfl⟩

namespace Frame

def plug (f : Frame) (item : Item) : Item :=
  .array (f.before ++ item :: f.after)

def front (f : Frame) : Bytes :=
  headBytes 4 (f.before.length + (f.after.length + 1)) ++ Item.encodeAll f.before

def back (f : Frame) : Bytes :=
  Item.encodeAll f.after

theorem encode_plug (f : Frame) (item : Item) :
    (f.plug item).encode = f.front ++ (item.encode ++ f.back) := by
  rw [plug, Item.encode_array, encodeAll_append, Item.encodeAll, front, back, List.length_append,
    List.length_cons, List.append_assoc]

variable {f : Frame} {item w : Item} {bs : Bytes}

theorem plain_of_plug (h : (f.plug w).Plain) : w.Plain := by
  cases h with
  | array _ each => exact each w (by simp)

theorem plain_plug (h : (f.plug w).Plain) (hi : item.Plain) : (f.plug item).Plain := by
  cases h with
  | array hlen each =>
    simp only [List.forall_mem_append, List.forall_mem_cons] at each
    refine .array (by simpa using hlen) ?_
    simpa only [List.forall_mem_append, List.forall_mem_cons] using ⟨each.1, hi, each.2.2⟩

theorem not_unsigned_plug (h : ¬item.Unsigned) : ¬(f.plug item).Unsigned := by
  intro hu
  cases hu with
  | array each => exact h (each item (by simp))

theorem readFrom_plug (h : (f.plug w).Plain) (hr : item.ReadFrom bs) :
    (f.plug item).ReadFrom (f.front ++ (bs ++ f.back)) := by
  intro depth rest hdepth
  cases h with
  | array hlen each =>
    simp only [List.forall_mem_append, List.forall_mem_cons] at each
    obtain ⟨hbefore, -, hafter⟩ := each
    rw [List.length_append, List.length_cons] at hlen
    simp only [front, back, List.length_append] at hdepth
    have hpos := List.length_pos_iff.mpr
      (headBytes_ne_nil 4 (f.before.length + (f.after.length + 1)))
    obtain ⟨depth, rfl⟩ : ∃ d, depth = d + 1 := ⟨depth - 1, by omega⟩
    have hread (items : List Item) (hplain : ∀ i ∈ items, i.Plain)
        (hle : (Item.encodeAll items).length ≤ depth) (rest : Bytes) :
        readMany (readItem depth) items.length (Item.encodeAll items ++ rest) =
          .ok (items, rest) :=
      readMany_encodeAll (fun i hi => readItem_encode (hplain i hi)
        (Nat.le_trans (Item.length_encode_le hi) hle)) rest
    have hown : readMany (readItem depth) (f.after.length + 1)
        (bs ++ (Item.encodeAll f.after ++ rest)) = .ok (item :: f.after, rest) :=
      readMany_succ_eq_ok.mpr ⟨item, f.after, _, hr depth _ (by omega),
        hread f.after hafter (by omega) rest, rfl⟩
    have hall := readMany_append (hread f.before hbefore (by omega) _) hown
    simp only [front, back, List.append_assoc]
    rw [readItem_head (readHead_headBytes (by decide : 4 < 7) hlen _)]
    simp only [Head.ofArgument, readContent, insideAt, readSeries, hall, plug]

end Frame

/-- Frames one inside the other, the outermost first. -/
abbrev Frames := List Frame

namespace Frames

def plug (fs : Frames) (item : Item) : Item :=
  fs.foldr Frame.plug item

def front (fs : Frames) : Bytes :=
  fs.flatMap Frame.front

def back (fs : Frames) : Bytes :=
  fs.reverse.flatMap Frame.back

theorem plug_cons (f : Frame) (fs : Frames) (item : Item) :
    plug (f :: fs) item = f.plug (plug fs item) :=
  rfl

theorem plug_append (fs fs' : Frames) (item : Item) :
    plug (fs ++ fs') item = plug fs (plug fs' item) :=
  List.foldr_append

theorem front_cons (f : Frame) (fs : Frames) : front (f :: fs) = f.front ++ front fs :=
  List.flatMap_cons

theorem back_cons (f : Frame) (fs : Frames) : back (f :: fs) = back fs ++ f.back := by
  simp [back]

theorem encode_plug (fs : Frames) (item : Item) :
    (fs.plug item).encode = fs.front ++ (item.encode ++ fs.back) := by
  induction fs with
  | nil => simp [plug, front, back]
  | cons f fs ih =>
    rw [plug_cons, f.encode_plug, ih, front_cons, back_cons]
    simp only [List.append_assoc]

variable {fs : Frames} {item w : Item} {bs : Bytes}

theorem readFrom_plug (h : (fs.plug w).Plain) (hr : item.ReadFrom bs) :
    (fs.plug item).ReadFrom (fs.front ++ (bs ++ fs.back)) := by
  induction fs with
  | nil => simpa [plug, front, back] using hr
  | cons f fs ih =>
    have hall := Frame.readFrom_plug h (ih (Frame.plain_of_plug h))
    rw [plug_cons, front_cons, back_cons]
    simpa only [List.append_assoc] using hall

theorem plain_plug (h : (fs.plug w).Plain) (hi : item.Plain) : (fs.plug item).Plain := by
  induction fs with
  | nil => exact hi
  | cons f fs ih => exact Frame.plain_plug h (ih (Frame.plain_of_plug h))

theorem not_unsigned_plug (h : ¬item.Unsigned) : ¬(fs.plug item).Unsigned := by
  induction fs with
  | nil => exact h
  | cons f fs ih => exact Frame.not_unsigned_plug ih

end Frames

end NativeScripts.Cbor
