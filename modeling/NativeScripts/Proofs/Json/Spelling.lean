import Mathlib.Data.List.DropRight
import NativeScripts.Proofs.Json.Integers
import NativeScripts.Proofs.Json.Quotation

/-! The texts of JSON values, with blanks wherever they may stand inside a value. The
reader takes each of them, and stops where it ends. -/

namespace NativeScripts.Json

def Blanks (cs : List Char) : Prop :=
  ∀ c ∈ cs, isBlank c = true

/-- Texts with commas between them, up to the closing mark. -/
inductive Listed {α : Type} (close : Char) (spelled : α → List Char → Prop) :
    List α → List Char → Prop where
  | last {x : α} {cs after : List Char} (h : spelled x cs) (ha : Blanks after) :
      Listed close spelled [x] (cs ++ (after ++ [close]))
  | more {x : α} {xs : List α} {cs after before text : List Char} (h : spelled x cs)
      (ha : Blanks after) (hb : Blanks before) (hs : Listed close spelled xs text) :
      Listed close spelled (x :: xs) (cs ++ (after ++ ',' :: (before ++ text)))

inductive Member (spelled : Json → List Char → Prop) : String × Json → List Char → Prop where
  | mk {name : String} {v : Json} {after before cs : List Char} (ha : Blanks after)
      (hb : Blanks before) (h : spelled v cs) :
      Member spelled (name, v) (quoted name ++ (after ++ ':' :: (before ++ cs)))

inductive Spelled : Json → List Char → Prop where
  | null : Spelled .null ['n', 'u', 'l', 'l']
  | isTrue : Spelled (.bool true) ['t', 'r', 'u', 'e']
  | isFalse : Spelled (.bool false) ['f', 'a', 'l', 's', 'e']
  | number {l : Literal} {v : Json} (h : l.numeral.toJson? = some v) : Spelled v l.text
  | string (s : String) : Spelled (.string s) (quoted s)
  | emptyArray {before : List Char} (hb : Blanks before) :
      Spelled (.array []) ('[' :: (before ++ [']']))
  | array {items : List Json} {before cs : List Char} (hb : Blanks before)
      (h : Listed ']' Spelled items cs) : Spelled (.array items) ('[' :: (before ++ cs))
  | emptyObject {before : List Char} (hb : Blanks before) :
      Spelled (.object []) ('\x7b' :: (before ++ ['\x7d']))
  | object {members : List (String × Json)} {before cs : List Char} (hb : Blanks before)
      (h : Listed '\x7d' (Member Spelled) members cs) :
      Spelled (.object (fieldsOf members)) ('\x7b' :: (before ++ cs))

theorem skipBlanks_append {blanks : List Char} (h : Blanks blanks) (cs : List Char) :
    skipBlanks (blanks ++ cs) = skipBlanks cs :=
  List.dropWhile_append_of_pos h

theorem skipBlanks_cons {c : Char} (h : isBlank c = false) (cs : List Char) :
    skipBlanks (c :: cs) = c :: cs := by
  simp [skipBlanks, h]

theorem delimited_cons {c : Char} {cs : List Char} :
    Delimited (c :: cs) ↔ c.isDigit = false ∧ c ≠ '.' ∧ c ≠ 'e' ∧ c ≠ 'E' := by
  simp [Delimited]

theorem delimited_append {blanks cs : List Char} (hb : Blanks blanks) (h : Delimited cs) :
    Delimited (blanks ++ cs) := by
  cases blanks with
  | nil => exact h
  | cons c blanks =>
    have hc := hb c List.mem_cons_self
    simp only [isBlank, Bool.or_eq_true, decide_eq_true_eq] at hc
    rw [List.cons_append, delimited_cons]
    rcases hc with ((rfl | rfl) | rfl) | rfl <;> decide

/-- A list that is read comes to an item at once, and not to its own end. -/
def Opens (cs : List Char) : Prop :=
  ∃ c tail, cs = c :: tail ∧ isBlank c = false ∧ c ≠ ']' ∧ c ≠ '\x7d'

theorem Opens.append {cs : List Char} (h : Opens cs) (rest : List Char) : Opens (cs ++ rest) := by
  obtain ⟨c, tail, rfl, hc⟩ := h
  exact ⟨c, tail ++ rest, rfl, hc⟩

theorem Opens.skipBlanks {before cs : List Char} (h : Opens cs) (hb : Blanks before) :
    skipBlanks (before ++ cs) = cs := by
  obtain ⟨c, tail, rfl, hblank, -⟩ := h
  rw [skipBlanks_append hb, skipBlanks_cons hblank]

theorem Opens.ne_close {cs : List Char} (h : Opens cs) (tail : List Char) :
    cs ≠ ']' :: tail ∧ cs ≠ '\x7d' :: tail := by
  obtain ⟨c, tail', rfl, -, harray, hobject⟩ := h
  exact ⟨fun he => harray (List.cons.inj he).1, fun he => hobject (List.cons.inj he).1⟩

/-- What begins a number begins nothing else. -/
theorem ne_of_number {c : Char} (hc : c = '-' ∨ c.isDigit = true) (d : Char)
    (hd : d.isDigit = false) (hminus : d ≠ '-') : c ≠ d := by
  rintro rfl
  rcases hc with rfl | hc
  · exact hminus rfl
  · rw [hc] at hd
    cases hd

theorem isBlank_number {c : Char} (hc : c = '-' ∨ c.isDigit = true) : isBlank c = false := by
  simp [isBlank, ne_of_number hc]

theorem Literal.opens (l : Literal) : Opens l.text := by
  obtain ⟨c, tail, he, hc⟩ := l.text_eq_cons
  exact ⟨c, tail, he, isBlank_number hc, ne_of_number hc ']' (by decide) (by decide),
    ne_of_number hc '\x7d' (by decide) (by decide)⟩

theorem Spelled.integer {n : Int} (h : InRange n) : Spelled (.integer n) (integerText n) :=
  Literal.text_ofInt n ▸ .number (Literal.toJson?_ofInt h)

theorem Spelled.opens {v : Json} {cs : List Char} (h : Spelled v cs) : Opens cs := by
  cases h with
  | @number l => exact l.opens
  | _ => exact ⟨_, _, rfl, by decide⟩

theorem Member.opens {member : String × Json} {cs : List Char} (h : Member Spelled member cs) :
    Opens cs := by
  cases h
  exact ⟨_, _, rfl, by decide⟩

/-- A reader takes each text shorter than the bound, and any blanks before it. -/
structure Reads {α : Type} (spelled : α → List Char → Prop)
    (read : List Char → Option (α × List Char)) (bound : Nat) : Prop where
  append : ∀ {x cs rest}, spelled x cs → cs.length < bound → Delimited rest →
    read (cs ++ rest) = some (x, rest)
  skip : ∀ cs, read (skipBlanks cs) = read cs

section Lists

variable {α : Type} {close : Char} {spelled : α → List Char → Prop}
  {read : List Char → Option (α × List Char)} {bound : Nat} {xs : List α}

theorem Listed.opens {text : List Char} (h : Listed close spelled xs text)
    (hopens : ∀ x cs, spelled x cs → Opens cs) : Opens text := by
  cases h with
  | last h => exact (hopens _ _ h).append _
  | more h => exact (hopens _ _ h).append _

theorem Reads.blanks (hr : Reads spelled read bound) {blanks : List Char} (hb : Blanks blanks)
    (cs : List Char) : read (blanks ++ cs) = read cs := by
  rw [← hr.skip (blanks ++ cs), skipBlanks_append hb, hr.skip]

theorem readListed_blanks (hr : Reads spelled read bound) {blanks : List Char} (hb : Blanks blanks)
    (fuel : Nat) (cs : List Char) :
    readListed close read fuel (blanks ++ cs) = readListed close read fuel cs := by
  cases fuel with
  | zero => rfl
  | succ fuel => rw [readListed, readListed, hr.blanks hb]

theorem readListed_append (hr : Reads spelled read bound) (hclose : close = ']' ∨ close = '\x7d')
    {text : List Char} (h : Listed close spelled xs text) (hbound : text.length ≤ bound)
    {fuel : Nat} (hfuel : text.length < fuel) (rest : List Char) :
    readListed close read fuel (text ++ rest) = some (xs, rest) := by
  have hclosing : isBlank close = false ∧ Delimited (close :: rest) ∧ ',' ≠ close := by
    rw [delimited_cons]
    rcases hclose with rfl | rfl <;> decide
  obtain ⟨hblank, hdelimited, hcomma⟩ := hclosing
  induction h generalizing fuel with
  | @last x cs after h ha =>
    simp only [List.length_append, List.length_singleton] at hbound hfuel
    cases fuel with
    | zero => omega
    | succ fuel =>
      have hx : read (cs ++ (after ++ close :: rest)) = some (x, after ++ close :: rest) :=
        hr.append h (by omega) (delimited_append ha hdelimited)
      simp only [List.append_assoc, List.singleton_append, readListed, hx, skipBlanks_append ha,
        skipBlanks_cons hblank, if_true]
  | @more x xs cs after before text h ha hb hs ih =>
    simp only [List.length_append, List.length_cons] at hbound hfuel
    cases fuel with
    | zero => omega
    | succ fuel =>
      have hmark : isBlank ',' = false ∧ Delimited (',' :: (before ++ (text ++ rest))) :=
        ⟨by decide, delimited_cons.mpr (by decide)⟩
      have hx := hr.append h (by omega) (delimited_append ha hmark.2)
      have hxs : readListed close read fuel (before ++ (text ++ rest)) = some (xs, rest) := by
        rw [readListed_blanks hr hb]
        exact ih (by omega) (by omega)
      simp only [List.append_assoc, List.cons_append, readListed, hx, skipBlanks_append ha,
        skipBlanks_cons hmark.1, if_neg hcomma, hxs, if_true, Option.map_some]

end Lists

section Values

variable {read : List Char → Option (Json × List Char)} {bound : Nat}

theorem reads_readMember (hr : Reads Spelled read bound) :
    Reads (Member Spelled) (readMember read) bound where
  append := by
    intro member cs rest h hbound hrest
    cases h with
    | @mk name v after before cs ha hb h =>
      simp only [List.length_append, List.length_cons] at hbound
      have hv : read (before ++ (cs ++ rest)) = some (v, rest) := by
        rw [hr.blanks hb]
        exact hr.append h (by omega) hrest
      have hname := readText_quoted name.toList (after ++ ':' :: (before ++ (cs ++ rest)))
      have hmark : isBlank '"' = false ∧ isBlank ':' = false := by decide
      simp only [quoted, List.append_assoc, List.cons_append, List.nil_append, readMember,
        skipBlanks_cons hmark.1, hname, skipBlanks_append ha, skipBlanks_cons hmark.2, hv,
        Option.map_some, String.ofList_toList]
  skip cs := by simp only [readMember, skipBlanks, List.dropWhile_idempotent]

theorem readArray_empty {before : List Char} (hb : Blanks before) (rest : List Char) :
    readArray read (before ++ ']' :: rest) = some (.array [], rest) := by
  rw [readArray, skipBlanks_append hb]
  rfl

theorem readArray_append (hr : Reads Spelled read bound) {items : List Json}
    {before cs : List Char} (hb : Blanks before) (h : Listed ']' Spelled items cs)
    (hbound : cs.length ≤ bound) (rest : List Char) :
    readArray read (before ++ (cs ++ rest)) = some (.array items, rest) := by
  have hopens := (h.opens fun _ _ => Spelled.opens).append rest
  rw [readArray, hopens.skipBlanks hb]
  split
  · rename_i hend
    exact absurd hend (hopens.ne_close _).1
  · rw [readListed_append hr (.inl rfl) h hbound (by rw [List.length_append]; omega) rest]
    rfl

theorem readObject_empty {before : List Char} (hb : Blanks before) (rest : List Char) :
    readObject read (before ++ '\x7d' :: rest) = some (.object [], rest) := by
  rw [readObject, skipBlanks_append hb]
  rfl

theorem readObject_append (hr : Reads Spelled read bound) {members : List (String × Json)}
    {before cs : List Char} (hb : Blanks before) (h : Listed '\x7d' (Member Spelled) members cs)
    (hbound : cs.length ≤ bound) (rest : List Char) :
    readObject read (before ++ (cs ++ rest)) = some (.object (fieldsOf members), rest) := by
  have hopens := (h.opens fun _ _ => Member.opens).append rest
  have hread := reads_readMember hr
  rw [readObject, hopens.skipBlanks hb]
  split
  · rename_i hend
    exact absurd hend (hopens.ne_close _).2
  · rw [readListed_append hread (.inr rfl) h hbound (by rw [List.length_append]; omega) rest]
    rfl

theorem readValueWith_number {c : Char} (hc : c = '-' ∨ c.isDigit = true) (cs : List Char) :
    readValueWith read (c :: cs) = readNumber (c :: cs) := by
  rw [readValueWith, skipBlanks_cons (isBlank_number hc)]
  split
  case h_7 => rfl
  all_goals
    rename_i he
    exact absurd (List.cons.inj he).1 (ne_of_number hc _ (by decide) (by decide))

theorem readValueWith_literal (l : Literal) {rest : List Char} (h : Delimited rest) :
    readValueWith read (l.text ++ rest) = l.numeral.toJson?.map fun v => (v, rest) := by
  obtain ⟨c, tail, he, hc⟩ := l.text_eq_cons
  have hnumber : readNumber (l.text ++ rest) = l.numeral.toJson?.map fun v => (v, rest) := by
    rw [readNumber, l.readNumeral?_append h]
  rw [← hnumber, he]
  exact readValueWith_number hc (tail ++ rest)

theorem readValueWith_string (s : String) (rest : List Char) :
    readValueWith read (quoted s ++ rest) = some (.string s, rest) := by
  have hs := readText_quoted s.toList rest
  have hmark : isBlank '"' = false := by decide
  simp only [quoted, List.append_assoc, List.cons_append, List.nil_append, readValueWith,
    skipBlanks_cons hmark, hs, Option.map_some, String.ofList_toList]

theorem reads_readValue (depth : Nat) : Reads Spelled (readValue depth) depth := by
  -- A text in brackets is shorter than the whole by one, and is read one level below.
  induction depth with
  | zero => exact ⟨fun _ h => by omega, fun _ => rfl⟩
  | succ depth ih =>
    refine ⟨?_, fun cs => ?_⟩
    · intro v cs rest h hdepth hrest
      rw [readValue]
      cases h with
      | null | isTrue | isFalse => rfl
      | @number l v hl => rw [readValueWith_literal l hrest, hl, Option.map_some]
      | string s => exact readValueWith_string s rest
      | emptyArray hb =>
        rw [List.cons_append, List.append_assoc]
        exact readArray_empty hb rest
      | array hb h =>
        simp only [List.length_cons, List.length_append] at hdepth
        rw [List.cons_append, List.append_assoc]
        exact readArray_append ih hb h (by omega) rest
      | emptyObject hb =>
        rw [List.cons_append, List.append_assoc]
        exact readObject_empty hb rest
      | object hb h =>
        simp only [List.length_cons, List.length_append] at hdepth
        rw [List.cons_append, List.append_assoc]
        exact readObject_append ih hb h (by omega) rest
    · simp only [readValue, readValueWith, skipBlanks, List.dropWhile_idempotent]

theorem Spelled.read? {v : Json} {cs after : List Char} (h : Spelled v cs) (ha : Blanks after) :
    read? (String.ofList (cs ++ after)) = some v := by
  have hd : Delimited [] := by simp [Delimited]
  have hafter : Delimited after := by simpa using delimited_append ha hd
  have hskip : skipBlanks after = [] := by
    rw [← List.append_nil after, skipBlanks_append ha]
    rfl
  have hdepth : cs.length < (cs ++ after).length + 1 := by
    rw [List.length_append]
    omega
  have hr := (reads_readValue _).append h hdepth hafter
  simp only [Json.read?, String.toList_ofList, hr, hskip, if_true]

end Values

end NativeScripts.Json
