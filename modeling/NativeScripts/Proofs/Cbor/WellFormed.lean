import NativeScripts.Proofs.Cbor.PlainItem
import NativeScripts.Proofs.Pointwise

/-! Well-formed CBOR, with the tags that stand in it. The reader takes a well-formed item
as a whole or not at all. No tag is lost on the way but one before a short natural number
that is spelled as bytes. -/

namespace NativeScripts.Cbor

open List (Forall₂)

def Head.Spelled (head : Head) (bs : Bytes) : Prop :=
  readHead bs = .ok (head, [])

theorem Head.Spelled.append {head : Head} {bs : Bytes} (h : head.Spelled bs) (rest : Bytes) :
    readHead (bs ++ rest) = .ok (head, rest) :=
  readHead_append h rest

/-- The heads that are items by themselves. -/
def Head.Single : Head → Prop
  | .unsigned _ => True
  | .negative _ => True
  | .simple _ => True
  | .float _ => True
  | _ => False

def StringKind.head : StringKind → Option Nat → Head
  | .bytes, length => .bytes length
  | .text, length => .text length

/-- A string that tells its length. -/
inductive Piece (kind : StringKind) : Bytes → Prop where
  | mk {content head : Bytes} (hs : (kind.head (some content.length)).Spelled head) :
      Piece kind (head ++ content)

/-- What ends a series: nothing if its length was given, and else a stop. -/
inductive Ends (count : Nat) : Option Nat → Bytes → Prop where
  | counted : Ends count (some count) []
  | stopped : Ends count none [0xff]

/-- A tag and the bytes of the item that it stands before. -/
structure TagUse where
  number : Nat
  content : Bytes

/-- One well-formed item, and the tags in it in the order of the document. -/
inductive WellFormed : List TagUse → Bytes → Prop where
  | single {form : Head} {head : Bytes} (hs : form.Spelled head) (hk : form.Single) :
      WellFormed [] head
  | piece {kind : StringKind} {bs : Bytes} (h : Piece kind bs) : WellFormed [] bs
  | pieces {kind : StringKind} {head : Bytes} {pieces : List Bytes}
      (hs : (kind.head none).Spelled head) (each : ∀ p ∈ pieces, Piece kind p) :
      WellFormed [] (head ++ (pieces.flatten ++ [0xff]))
  | array {length : Option Nat} {head ending : Bytes} {items : List (List TagUse × Bytes)}
      (hs : (Head.array length).Spelled head) (he : Ends items.length length ending)
      (each : ∀ i ∈ items, WellFormed i.1 i.2) :
      WellFormed (items.flatMap fun i => i.1) (head ++ (items.flatMap (fun i => i.2) ++ ending))
  | map {length : Option Nat} {head ending : Bytes}
      {entries : List ((List TagUse × Bytes) × (List TagUse × Bytes))}
      (hs : (Head.map length).Spelled head) (he : Ends entries.length length ending)
      (keys : ∀ e ∈ entries, WellFormed e.1.1 e.1.2)
      (values : ∀ e ∈ entries, WellFormed e.2.1 e.2.2) :
      WellFormed (entries.flatMap fun e => e.1.1 ++ e.2.1)
        (head ++ (entries.flatMap (fun e => e.1.2 ++ e.2.2) ++ ending))
  | tag {number : Nat} {head content : Bytes} {tags : List TagUse}
      (hs : (Head.tag number).Spelled head) (h : WellFormed tags content) :
      WellFormed (⟨number, content⟩ :: tags) (head ++ content)

/-- The tag makes a number below 2 to the power of 64 of a short string of bytes. -/
structure TagUse.Folds (t : TagUse) : Prop where
  number_eq : t.number = 2
  content_eq : ∃ head digits, t.content = head ++ digits ∧
    (Head.bytes (some digits.length)).Spelled head ∧ digits.length ≤ bigNumberLength ∧
    digits.toNat < UInt64.size

/-- Natural numbers, byte strings and arrays of such items. -/
inductive Item.Unsigned : Item → Prop where
  | integer {n : Int} (h : 0 ≤ n) : Unsigned (.integer n)
  | bytes (content : Bytes) : Unsigned (.bytes content)
  | array {items : List Item} (each : ∀ i ∈ items, Unsigned i) : Unsigned (.array items)

section Spans

variable {α ι : Type}

/-- What the reader takes of bytes that begin so is these bytes, and it has the property. -/
def Spans (read : Reader α) (bs : Bytes) (P : α → Prop) : Prop :=
  ∀ rest x rest', read (bs ++ rest) = .ok (x, rest') → rest' = rest ∧ P x

variable {read : Reader α} {bytes : ι → Bytes} {P : ι → α → Prop} {parts : List ι}

theorem spans_readMany (h : ∀ p ∈ parts, Spans read (bytes p) (P p)) :
    Spans (readMany read parts.length) (parts.flatMap bytes) (Forall₂ P parts) := by
  induction parts with
  | nil =>
    intro rest x rest' hr
    cases hr
    exact ⟨rfl, .nil⟩
  | cons p parts ih =>
    intro rest x rest' hr
    rw [List.flatMap_cons, List.append_assoc, List.length_cons] at hr
    obtain ⟨y, ys, between, hy, hys, rfl⟩ := readMany_succ_eq_ok.mp hr
    obtain ⟨rfl, hp⟩ := h p List.mem_cons_self _ _ _ hy
    obtain ⟨rfl, hps⟩ := ih (fun q hq => h q (List.mem_cons_of_mem p hq)) _ _ _ hys
    exact ⟨rfl, .cons hp hps⟩

theorem readHead_stop (rest : Bytes) : readHead (0xff :: rest) = .ok (.stop, rest) := rfl

/-- The bytes begin with a head that is no stop. -/
def Begins (bs : Bytes) : Prop :=
  ∃ (head : Head) (front back : Bytes), bs = front ++ back ∧ head.Spelled front ∧ head ≠ .stop

theorem Begins.append {bs : Bytes} (h : Begins bs) (rest : Bytes) : Begins (bs ++ rest) := by
  obtain ⟨head, front, back, rfl, hs, hne⟩ := h
  exact ⟨head, front, back ++ rest, List.append_assoc _ _ _, hs, hne⟩

theorem Begins.not_stop {bs : Bytes} (h : Begins bs) (rest : Bytes) :
    readHead bs ≠ .ok (.stop, rest) := by
  obtain ⟨head, front, back, rfl, hs, hne⟩ := h
  rw [hs.append]
  intro he
  cases he
  exact hne rfl

theorem spans_readUntilStop (h : ∀ p ∈ parts, Spans read (bytes p) (P p))
    (hb : ∀ p ∈ parts, Begins (bytes p)) (fuel : Nat) :
    Spans (readUntilStop read fuel) (parts.flatMap bytes ++ [0xff]) (Forall₂ P parts) := by
  induction parts generalizing fuel with
  | nil =>
    intro rest x rest' hr
    cases fuel with
    | zero => cases hr
    | succ fuel =>
      simp only [List.flatMap_nil, List.nil_append, List.singleton_append, readUntilStop,
        readHead_stop, Except.ok.injEq, Prod.mk.injEq] at hr
      obtain ⟨rfl, rfl⟩ := hr
      exact ⟨rfl, .nil⟩
  | cons p parts ih =>
    intro rest x rest' hr
    cases fuel with
    | zero => cases hr
    | succ fuel =>
      rw [List.forall_mem_cons] at h hb
      rw [List.flatMap_cons, List.append_assoc, List.append_assoc] at hr
      have hne := (hb.1.append (parts.flatMap bytes ++ ([0xff] ++ rest))).not_stop rest'
      obtain ⟨y, ys, between, hy, hys, rfl⟩ :=
        (readUntilStop_cases hr).resolve_left fun hs => hne hs.1
      obtain ⟨rfl, hp⟩ := h.1 _ _ _ hy
      rw [← List.append_assoc] at hys
      obtain ⟨rfl, hps⟩ := ih h.2 hb.2 fuel _ _ _ hys
      exact ⟨rfl, .cons hp hps⟩

theorem spans_readSeries {length : Option Nat} {ending : Bytes}
    (he : Ends parts.length length ending) (h : ∀ p ∈ parts, Spans read (bytes p) (P p))
    (hb : ∀ p ∈ parts, Begins (bytes p)) :
    Spans (readSeries read length) (parts.flatMap bytes ++ ending) (Forall₂ P parts) := by
  intro rest x rest' hr
  cases he with
  | counted =>
    rw [List.append_nil] at hr
    exact spans_readMany h rest x rest' hr
  | stopped => exact spans_readUntilStop h hb _ rest x rest' hr

theorem spans_readEntry {key value : Bytes} {P Q : α → Prop} (hk : Spans read key P)
    (hv : Spans read value Q) : Spans (readEntry read) (key ++ value) fun e => P e.1 ∧ Q e.2 := by
  intro rest x rest' hr
  rw [List.append_assoc] at hr
  obtain ⟨between, hkey, hvalue⟩ := readEntry_eq_ok hr
  obtain ⟨rfl, hp⟩ := hk _ _ _ hkey
  obtain ⟨rfl, hq⟩ := hv _ _ _ hvalue
  exact ⟨rfl, hp, hq⟩

end Spans

section Strings

variable {kind : StringKind} {content x rest rest' : Bytes}

theorem readPiece_append
    (h : readPiece kind content.length (content ++ rest) = .ok (x, rest')) : rest' = rest := by
  have hr : readBytes content.length (content ++ rest) = .ok (content, rest) :=
    readBytes_eq_ok.mpr ⟨rfl, rfl⟩
  simp only [readPiece, hr] at h
  split at h
  · cases h
  · cases h
    rfl

theorem readPieces_piece {fuel : Nat} {head : Bytes}
    (hs : (kind.head (some content.length)).Spelled head)
    (h : readPieces kind (fuel + 1) 1 (head ++ (content ++ rest)) = .ok (x, rest')) :
    ∃ pieces, readPieces kind fuel 1 rest = .ok (pieces, rest') := by
  cases kind
  all_goals
    simp only [StringKind.head] at hs
    simp only [readPieces, hs.append, StringKind.length?] at h
    split at h
    · cases h
    · rename_i piece after hpiece
      cases readPiece_append hpiece
      split at h
      · cases h
      · rename_i pieces after hpieces
        cases h
        exact ⟨pieces, hpieces⟩

theorem readPieces_append {pieces : List Bytes} (each : ∀ p ∈ pieces, Piece kind p) {fuel : Nat}
    (h : readPieces kind fuel 1 (pieces.flatten ++ 0xff :: rest) = .ok (x, rest')) :
    rest' = rest := by
  induction pieces generalizing fuel x with
  | nil =>
    cases fuel with
    | zero => cases h
    | succ fuel =>
      simp only [List.flatten_nil, List.nil_append, readPieces, readHead_stop] at h
      cases h
      rfl
  | cons p pieces ih =>
    cases fuel with
    | zero => cases h
    | succ fuel =>
      rw [List.forall_mem_cons] at each
      obtain ⟨⟨hs⟩, each⟩ := each
      rw [List.flatten_cons, List.append_assoc, List.append_assoc] at h
      obtain ⟨xs, hxs⟩ := readPieces_piece hs h
      exact ih each hxs

theorem Content.string {inside : Inside} {length : Option Nat} {bs : Bytes} {item : Item}
    (h : Content inside bs (kind.head length) item rest) :
    ∃ content, readString kind length bs = .ok (content, rest) := by
  cases kind with
  | bytes =>
    cases h with
    | bytes h => exact ⟨_, h⟩
  | text =>
    cases h with
    | text h => exact ⟨_, h⟩

end Strings

section Tags

variable {inside : Inside} {number : Nat} {bs rest : Bytes} {item : Item}

theorem not_unsigned_of_ofBigNumber {negative : Bool} {n : Nat}
    (hn : negative = false → UInt64.size ≤ n) (h : Item.ofBigNumber negative n = .ok item) :
    ¬item.Unsigned := by
  intro hu
  rw [Item.ofBigNumber] at h
  split at h
  · rename_i hlt
    cases negative with
    | true =>
      cases h
      cases hu with
      | integer hneg => simp only [if_true] at hneg; omega
    | false => exact absurd hlt (Nat.not_lt.mpr (hn rfl))
  · split at h
    · cases h
    · cases h
      cases hu

theorem Content.eq_of_single {form : Head} (h : Content inside bs form item rest)
    (hk : form.Single) : rest = bs := by
  cases h with
  | unsigned | negative | bool | null | float => rfl
  | _ => exact hk.elim

theorem StringKind.head_ne_stop (kind : StringKind) (length : Option Nat) :
    kind.head length ≠ .stop := by
  cases kind <;> simp [StringKind.head]

theorem WellFormed.begins {tags : List TagUse} (h : WellFormed tags bs) : Begins bs := by
  cases h with
  | @single form head hs hk =>
    refine ⟨form, bs, [], (List.append_nil bs).symm, hs, ?_⟩
    rintro rfl
    exact hk
  | @piece kind bs h =>
    cases h with
    | mk hs => exact ⟨_, _, _, rfl, hs, kind.head_ne_stop _⟩
  | @pieces kind head pieces hs => exact ⟨_, _, _, rfl, hs, kind.head_ne_stop none⟩
  | array hs | map hs | tag hs => exact ⟨_, _, _, rfl, hs, by simp⟩

/-- An item that begins as a string of bytes of known length is one. -/
theorem WellFormed.bytes {tags : List TagUse} (h : WellFormed tags bs) {n : Nat} {after : Bytes}
    (hr : readHead (bs ++ rest) = .ok (.bytes (some n), after)) :
    tags = [] ∧ ∃ head content, bs = head ++ content ∧
      (Head.bytes (some content.length)).Spelled head ∧ n = content.length ∧
      after = content ++ rest := by
  cases h with
  | @single form head hs hk =>
    rw [hs.append] at hr
    cases hr
    exact hk.elim
  | @piece kind bs h =>
    cases h with
    | @mk content head hs =>
      rw [List.append_assoc, hs.append] at hr
      cases kind <;> cases hr
      exact ⟨rfl, head, content, rfl, hs, rfl, rfl⟩
  | @pieces kind head pieces hs =>
    rw [List.append_assoc, hs.append] at hr
    cases kind <;> cases hr
  | array hs | map hs | tag hs =>
    rw [List.append_assoc, hs.append] at hr
    cases hr

/-- Some tag does not fold. -/
def Marked (tags : List TagUse) : Prop :=
  ∃ t ∈ tags, ¬t.Folds

theorem not_marked_nil : ¬Marked [] := by
  simp [Marked]

theorem WellFormed.spans {tags : List TagUse} (h : WellFormed tags bs) (depth : Nat) :
    Spans (readItem depth) bs fun item => Marked tags → ¬item.Unsigned := by
  -- A tag stays in the item that is read, or folds into a number, and then no other tag
  -- stands below it. So only the arrays hand on what is known of their members.
  induction h generalizing depth with
  | @single form head hs hk =>
    intro rest item rest' hr
    rw [readItem_head (hs.append rest)] at hr
    exact ⟨(content_of_readContent hr).eq_of_single hk, fun hm => absurd hm not_marked_nil⟩
  | @piece kind bs h =>
    intro rest item rest' hr
    obtain ⟨hs⟩ := h
    rw [List.append_assoc, readItem_head (hs.append _)] at hr
    obtain ⟨x, hx⟩ := (content_of_readContent hr).string
    exact ⟨readPiece_append hx, fun hm => absurd hm not_marked_nil⟩
  | @pieces kind head pieces hs each =>
    intro rest item rest' hr
    rw [List.append_assoc, List.append_assoc, readItem_head (hs.append _)] at hr
    obtain ⟨x, hx⟩ := (content_of_readContent hr).string
    exact ⟨readPieces_append each hx, fun hm => absurd hm not_marked_nil⟩
  | @array length head ending items hs he each ih =>
    intro rest item rest' hr
    rw [List.append_assoc, readItem_head (hs.append _)] at hr
    cases content_of_readContent hr with
    | @array _ read xs _ hi hxs =>
      obtain ⟨depth, rfl, rfl⟩ := exists_of_insideAt hi
      obtain ⟨rfl, hall⟩ := spans_readSeries he (fun i hi => ih i hi depth)
        (fun i hi => (each i hi).begins) _ _ _ hxs
      refine ⟨rfl, fun hm hu => ?_⟩
      obtain ⟨t, ht, hf⟩ := hm
      obtain ⟨i, hi, ht⟩ := List.mem_flatMap.mp ht
      obtain ⟨x, hx, hunsigned⟩ := exists_of_forall₂ hall hi
      cases hu with
      | array each => exact hunsigned ⟨t, ht, hf⟩ (each x hx)
  | @map length head ending entries hs he keys values ihk ihv =>
    intro rest item rest' hr
    rw [List.append_assoc, readItem_head (hs.append _)] at hr
    cases content_of_readContent hr with
    | map hi hxs =>
      obtain ⟨depth, rfl, rfl⟩ := exists_of_insideAt hi
      obtain ⟨rfl, -⟩ := spans_readSeries he
        (fun e he => spans_readEntry (ihk e he depth) (ihv e he depth))
        (fun e he => (keys e he).begins.append _) _ _ _ hxs
      refine ⟨rfl, fun _ hu => ?_⟩
      cases hu
  | @tag number head content tags hs h ih =>
    intro rest item rest' hr
    rw [List.append_assoc, readItem_head (hs.append _)] at hr
    cases content_of_readContent hr with
    | tag hi hx =>
      obtain ⟨depth, rfl, rfl⟩ := exists_of_insideAt hi
      refine ⟨(ih depth _ _ _ hx).1, fun _ hu => ?_⟩
      cases hu
    | bigNumber hhead hnumber hn hdigits hitem =>
      obtain ⟨rfl, head', content', rfl, hs', rfl, rfl⟩ := h.bytes hhead
      obtain ⟨he, hl⟩ := readBytes_eq_ok.mp hdigits
      obtain ⟨rfl, rfl⟩ := List.append_inj he hl.symm
      refine ⟨rfl, fun hm => not_unsigned_of_ofBigNumber (fun htwo => ?_) hitem⟩
      obtain ⟨t, ht, hf⟩ := hm
      obtain rfl := List.mem_singleton.mp ht
      have hnumber : number = 2 := hnumber.resolve_right (of_decide_eq_false htwo)
      exact Nat.not_lt.mp fun hlt => hf ⟨hnumber, head', content', rfl, hs', hn, hlt⟩

end Tags

end NativeScripts.Cbor
