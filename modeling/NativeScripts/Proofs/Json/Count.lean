import NativeScripts.Json.Reader
import NativeScripts.Proofs.Cbor.Count

/-! Values are paid for in characters. Each value that is read, and each name of a field,
takes up a character of its own, so no value has more parts than its text is long. -/

namespace NativeScripts.Json

/-- As many as there are items in its CBOR. -/
def count (v : Json) : Nat :=
  v.toItem.count

/-- The name counts as well. -/
def countField (f : String × Json) : Nat :=
  f.2.count + 1

theorem count_array (items : List Json) : count (.array items) = (items.map count).sum + 1 := by
  have hitems : Cbor.countAll (toItems items) = (items.map count).sum := by
    induction items with
    | nil => rfl
    | cons v items ih => rw [toItems, Cbor.countAll, ih, List.map_cons, List.sum_cons, count]
  rw [count, toItem, Cbor.Item.count, hitems]

theorem count_pos (v : Json) : 0 < v.count :=
  v.toItem.count_pos

theorem count_object (fields : Fields) :
    count (.object fields) = (fields.map countField).sum + 1 := by
  have hfields : Cbor.countEntries (toEntries fields) = (fields.map countField).sum := by
    induction fields with
    | nil => rfl
    | cons f fields ih =>
      obtain ⟨name, v⟩ := f
      simp only [toEntries, Cbor.countEntries, ih, List.map_cons, List.sum_cons, countField, count,
        Cbor.Item.count]
      omega
  rw [count, toItem, Cbor.Item.count, hfields]

theorem count_of_get? {fields : Fields} {name : String} {v : Json}
    (h : get? fields name = some v) : v.count < count (.object fields) := by
  obtain ⟨before, after, rfl, -⟩ := List.lookup_eq_some_iff.mp h
  simp only [count_object, List.map_append, List.map_cons, List.sum_append, List.sum_cons,
    countField]
  omega

theorem sum_put_le (name : String) (v : Json) (fields : Fields) :
    ((put name v fields).map countField).sum ≤
      (fields.map countField).sum + countField (name, v) := by
  induction fields with
  | nil => simp [put]
  | cons f fields ih =>
    obtain ⟨k, v⟩ := f
    rw [put]
    split
    · simp only [List.map_cons, List.sum_cons]
      omega
    · split
      all_goals
        simp only [List.map_cons, List.sum_cons]
        omega

/-- A field that is replaced counts no more. -/
theorem sum_fieldsOf_le (members : List (String × Json)) :
    ((fieldsOf members).map countField).sum ≤ (members.map countField).sum := by
  have hfold (front : Fields) : ((members.foldl (fun fields m => put m.1 m.2 fields) front).map
      countField).sum ≤ (front.map countField).sum + (members.map countField).sum := by
    induction members generalizing front with
    | nil => simp
    | cons m members ih =>
      have htail := ih (put m.1 m.2 front)
      have hput := sum_put_le m.1 m.2 front
      simp only [List.foldl_cons, List.map_cons, List.sum_cons, countField] at hput htail ⊢
      omega
  have hnil := hfold []
  rwa [List.map_nil, List.sum_nil, Nat.zero_add] at hnil

section Numbers

variable {cs rest : List Char}

theorem length_skipBlanks_le (cs : List Char) : (skipBlanks cs).length ≤ cs.length :=
  (List.dropWhile_sublist _).length_le

theorem length_of_takeDigits {digits : List Nat} (h : takeDigits cs = (digits, rest)) :
    digits.length + rest.length = cs.length := by
  induction cs generalizing digits with
  | nil =>
    cases h
    rfl
  | cons c cs ih =>
    rw [takeDigits] at h
    split at h
    · cases h
      have hl := ih rfl
      simp only [List.length_cons]
      omega
    · cases h
      simp

theorem length_of_readWhole? {whole : List Nat} (h : readWhole? cs = some (whole, rest)) :
    rest.length < cs.length := by
  unfold readWhole? at h
  split at h
  · cases h
    simp
  · split at h
    · cases h
    · rename_i hne
      have hd := Option.some.inj h
      have hl := length_of_takeDigits hd
      have hpos : whole ≠ [] := by
        rintro rfl
        exact hne rest hd
      have hpos := List.length_pos_iff.mpr hpos
      omega

theorem length_of_readFraction? {fraction : Option (List Nat)}
    (h : readFraction? cs = some (fraction, rest)) : rest.length ≤ cs.length := by
  unfold readFraction? at h
  split at h
  · split at h
    · cases h
    · rename_i hd
      cases h
      have hl := length_of_takeDigits hd
      rw [List.length_cons]
      omega
  · cases h
    exact Nat.le_refl _

theorem length_of_readExponentDigits? {negative : Bool} {exponent : Option Int}
    (h : readExponentDigits? negative cs = some (exponent, rest)) : rest.length ≤ cs.length := by
  unfold readExponentDigits? at h
  split at h
  · cases h
  · rename_i hd
    cases h
    have hl := length_of_takeDigits hd
    omega

theorem length_of_readExponent? {exponent : Option Int}
    (h : readExponent? cs = some (exponent, rest)) : rest.length ≤ cs.length := by
  unfold readExponent? at h
  split at h
  · split at h
    · split at h
      all_goals
        have hl := length_of_readExponentDigits? h
        simp only [List.length_cons]
        omega
    · cases h
      exact Nat.le_refl _
  · cases h
    exact Nat.le_refl _

theorem length_of_readUnsigned? {negative : Bool} {numeral : Numeral}
    (h : readUnsigned? negative cs = some (numeral, rest)) : rest.length < cs.length := by
  unfold readUnsigned? at h
  split at h
  · cases h
  · rename_i hwhole
    have hw := length_of_readWhole? hwhole
    split at h
    · cases h
    · rename_i hfraction
      have hf := length_of_readFraction? hfraction
      split at h
      · cases h
      · rename_i hexponent
        have he := length_of_readExponent? hexponent
        cases h
        omega

theorem length_of_readNumeral? {numeral : Numeral} (h : readNumeral? cs = some (numeral, rest)) :
    rest.length < cs.length := by
  unfold readNumeral? at h
  split at h
  · have hl := length_of_readUnsigned? h
    rw [List.length_cons]
    omega
  · exact length_of_readUnsigned? h

end Numbers

section Takes

variable {α : Type}

/-- What is read takes up no fewer characters than it weighs. -/
def Takes (read : List Char → Option (α × List Char)) (weight : α → Nat) : Prop :=
  ∀ {cs x rest}, read cs = some (x, rest) → weight x + rest.length ≤ cs.length

theorem takes_readText : Takes readText List.length := by
  intro cs text rest h
  fun_induction readText cs generalizing text
  case case2 rest =>
    cases h
    simp
  case case5 | case9 | case11 | case13 =>
    rename_i ih
    simp only [Option.map_eq_some_iff, Prod.exists, Prod.mk.injEq] at h
    obtain ⟨text, after, hr, rfl, rfl⟩ := h
    have hl := ih hr
    simp only [List.length_cons]
    omega
  all_goals cases h

variable {read : List Char → Option (α × List Char)} {weight : α → Nat}

theorem takes_readListed (close : Char) (h : Takes read weight) (fuel : Nat) :
    Takes (readListed close read fuel) fun xs => (xs.map weight).sum := by
  induction fuel with
  | zero => exact fun hr => by cases hr
  | succ fuel ih =>
    intro cs xs rest hr
    rw [readListed] at hr
    split at hr
    · cases hr
    · rename_i x between hx
      have hl := h hx
      have hskip := length_skipBlanks_le between
      split at hr
      · cases hr
      · rename_i c after hafter
        rw [hafter, List.length_cons] at hskip
        split at hr
        · cases hr
          simp only [List.map_cons, List.map_nil, List.sum_cons, List.sum_nil]
          omega
        · split at hr
          · simp only [Option.map_eq_some_iff, Prod.exists, Prod.mk.injEq] at hr
            obtain ⟨ys, after', hys, rfl, rfl⟩ := hr
            have hls := ih hys
            simp only [List.map_cons, List.sum_cons] at hls ⊢
            omega
          · cases hr

end Takes

section Values

variable {read : List Char → Option (Json × List Char)}

/-- The bracket has been read before. -/
theorem count_of_readArray (h : Takes read count) {cs rest : List Char} {v : Json}
    (hr : readArray read cs = some (v, rest)) : v.count + rest.length ≤ cs.length + 1 := by
  have hskip := length_skipBlanks_le cs
  rw [readArray] at hr
  split at hr
  · rename_i hafter
    cases hr
    rw [hafter, List.length_cons] at hskip
    simp only [count_array, List.map_nil, List.sum_nil]
    omega
  · simp only [Option.map_eq_some_iff, Prod.exists, Prod.mk.injEq] at hr
    obtain ⟨items, after, hitems, rfl, rfl⟩ := hr
    have hl : (items.map count).sum + after.length ≤ (skipBlanks cs).length :=
      takes_readListed ']' h _ hitems
    rw [count_array]
    omega

theorem takes_readMember (h : Takes read count) : Takes (readMember read) countField := by
  intro cs m rest hr
  have hskip := length_skipBlanks_le cs
  rw [readMember] at hr
  split at hr
  · rename_i opened hopened
    rw [hopened, List.length_cons] at hskip
    split at hr
    · cases hr
    · rename_i name between hname
      have hn := takes_readText hname
      have hskip' := length_skipBlanks_le between
      split at hr
      · rename_i after hafter
        rw [hafter, List.length_cons] at hskip'
        simp only [Option.map_eq_some_iff, Prod.exists, Prod.mk.injEq] at hr
        obtain ⟨v, after', hv, rfl, rfl⟩ := hr
        have hl := h hv
        simp only [countField]
        omega
      · cases hr
  · cases hr

theorem count_of_readObject (h : Takes read count) {cs rest : List Char} {v : Json}
    (hr : readObject read cs = some (v, rest)) : v.count + rest.length ≤ cs.length + 1 := by
  have hskip := length_skipBlanks_le cs
  rw [readObject] at hr
  split at hr
  · rename_i hafter
    cases hr
    rw [hafter, List.length_cons] at hskip
    simp only [count_object, List.map_nil, List.sum_nil]
    omega
  · simp only [Option.map_eq_some_iff, Prod.exists, Prod.mk.injEq] at hr
    obtain ⟨members, after, hmembers, rfl, rfl⟩ := hr
    have hl : (members.map countField).sum + after.length ≤ (skipBlanks cs).length :=
      takes_readListed '\x7d' (takes_readMember h) _ hmembers
    have hf := sum_fieldsOf_le members
    rw [count_object]
    omega

theorem count_of_toJson? {numeral : Numeral} {v : Json} (h : numeral.toJson? = some v) :
    v.count = 1 := by
  have hreal {w : Json} (hw : numeral.real? = some w) : w.count = 1 := by
    obtain ⟨x, -, rfl⟩ := Option.map_eq_some_iff.mp hw
    rfl
  simp only [Numeral.toJson?] at h
  split at h
  · split at h
    · split at h
      · cases h
        rfl
      · exact hreal h
    · split at h
      · cases h
        rfl
      · exact hreal h
  · exact hreal h

theorem takes_readNumber : Takes readNumber count := by
  intro cs v rest h
  rw [readNumber] at h
  split at h
  · cases h
  · rename_i numeral after hnumeral
    have hl := length_of_readNumeral? hnumeral
    simp only [Option.map_eq_some_iff, Prod.mk.injEq] at h
    obtain ⟨v, hv, rfl, rfl⟩ := h
    have hone := count_of_toJson? hv
    omega

theorem takes_readValueWith (h : Takes read count) : Takes (readValueWith read) count := by
  intro cs v rest hr
  have hskip := length_skipBlanks_le cs
  have hone {w : Json} (hw : w.count = 1) (hl : rest.length < (skipBlanks cs).length) :
      w.count + rest.length ≤ cs.length := by omega
  rw [readValueWith] at hr
  split at hr
  case h_1 hcs | h_2 hcs | h_3 hcs =>
    cases hr
    simp only [hcs, List.length_cons] at hone
    exact hone rfl (by omega)
  · rename_i after hcs
    rw [hcs, List.length_cons] at hskip
    simp only [Option.map_eq_some_iff, Prod.exists, Prod.mk.injEq] at hr
    obtain ⟨text, after', htext, rfl, rfl⟩ := hr
    have hl := takes_readText htext
    exact hone rfl (by rw [hcs, List.length_cons]; omega)
  · rename_i after hcs
    rw [hcs, List.length_cons] at hskip
    have hl := count_of_readArray h hr
    omega
  · rename_i after hcs
    rw [hcs, List.length_cons] at hskip
    have hl := count_of_readObject h hr
    omega
  · have hl := takes_readNumber hr
    omega

theorem takes_readValue (depth : Nat) : Takes (readValue depth) count := by
  induction depth with
  | zero => exact fun h => by cases h
  | succ depth ih => exact takes_readValueWith ih

theorem count_of_read? {s : String} {v : Json} (h : read? s = some v) :
    v.count ≤ s.toList.length := by
  simp only [read?] at h
  split at h
  · cases h
  · rename_i v rest hv
    have hl := takes_readValue _ hv
    split at h
    · cases h
      omega
    · cases h

end Values

end NativeScripts.Json
