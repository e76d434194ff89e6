import NativeScripts.Json.Reader

/-! Number literals of JSON. Each part of a literal is taken as far as it goes, so what
follows must not begin as that part goes on. -/

namespace NativeScripts.Json

/-- Digits, at least one of them. -/
structure Digits where
  chars : List Char
  ne_nil : chars ≠ []
  isDigit : ∀ c ∈ chars, c.isDigit = true

inductive ExponentSign where
  | none
  | plus
  | minus

def ExponentSign.text : ExponentSign → List Char
  | .none => []
  | .plus => ['+']
  | .minus => ['-']

structure Exponent where
  mark : Char
  mark_eq : mark = 'e' ∨ mark = 'E'
  sign : ExponentSign
  digits : Digits

/-- A minus sign, a fraction and an exponent may be left out, and a leading zero stands alone. -/
structure Literal where
  negative : Bool
  whole : Digits
  zero_alone : whole.chars.head? = some '0' → whole.chars = ['0']
  fraction : Option Digits
  exponent : Option Exponent

def signText : Bool → List Char
  | true => ['-']
  | false => []

def fractionText : Option Digits → List Char
  | none => []
  | some digits => '.' :: digits.chars

def exponentText : Option Exponent → List Char
  | none => []
  | some e => e.mark :: (e.sign.text ++ e.digits.chars)

def Literal.text (l : Literal) : List Char :=
  signText l.negative ++ (l.whole.chars ++ (fractionText l.fraction ++ exponentText l.exponent))

def digitValues (ds : List Char) : List Nat :=
  ds.map fun c => c.toNat - 48

def Exponent.value (e : Exponent) : Int :=
  match e.sign with
  | .minus => -(Numeral.valueOf (digitValues e.digits.chars) : Int)
  | _ => Numeral.valueOf (digitValues e.digits.chars)

/-- What the reader makes of the parts. -/
def Literal.numeral (l : Literal) : Numeral :=
  ⟨l.negative, digitValues l.whole.chars, l.fraction.map fun ds => digitValues ds.chars,
    l.exponent.map Exponent.value⟩

/-- What can stand after digits. -/
def NoDigit (rest : List Char) : Prop :=
  ∀ c ∈ rest.head?, c.isDigit = false

/-- What can stand after digits that are no fraction without beginning one. -/
def NoFraction (rest : List Char) : Prop :=
  ∀ c ∈ rest.head?, c.isDigit = false ∧ c ≠ '.'

/-- What can stand after a number without being taken for a part of it. -/
def Delimited (rest : List Char) : Prop :=
  ∀ c ∈ rest.head?, c.isDigit = false ∧ c ≠ '.' ∧ c ≠ 'e' ∧ c ≠ 'E'

variable {rest : List Char}

theorem NoFraction.noDigit (h : NoFraction rest) : NoDigit rest :=
  fun c hc => (h c hc).1

theorem Delimited.noFraction_exponent (h : Delimited rest) (e : Option Exponent) :
    NoFraction (exponentText e ++ rest) := by
  cases e with
  | none => exact fun c hc => ⟨(h c hc).1, (h c hc).2.1⟩
  | some e =>
    intro c hc
    cases hc
    rcases e.mark_eq with he | he <;> rw [he] <;> decide

theorem NoFraction.noDigit_fraction (h : NoFraction rest) (f : Option Digits) :
    NoDigit (fractionText f ++ rest) := by
  cases f with
  | none => exact h.noDigit
  | some ds =>
    intro c hc
    cases hc
    decide

theorem takeDigits_append {ds : List Char} (hds : ∀ c ∈ ds, c.isDigit = true) (h : NoDigit rest) :
    takeDigits (ds ++ rest) = (digitValues ds, rest) := by
  induction ds with
  | nil =>
    cases rest with
    | nil => rfl
    | cons c cs => simp [takeDigits, h c rfl, digitValues]
  | cons d ds ih =>
    have hd := hds d List.mem_cons_self
    have htail := ih fun c hc => hds c (List.mem_cons_of_mem d hc)
    simp [takeDigits, hd, htail, digitValues]

theorem Digits.exists_cons (ds : Digits) : ∃ d tail, ds.chars = d :: tail ∧ d.isDigit = true := by
  cases hds : ds.chars with
  | nil => exact absurd hds ds.ne_nil
  | cons d tail => exact ⟨d, tail, rfl, ds.isDigit d (hds ▸ List.mem_cons_self)⟩

theorem Digits.takeDigits_append (ds : Digits) (h : NoDigit rest) :
    ∃ v vs, digitValues ds.chars = v :: vs ∧ takeDigits (ds.chars ++ rest) = (v :: vs, rest) := by
  obtain ⟨d, tail, hds, -⟩ := ds.exists_cons
  refine ⟨d.toNat - 48, digitValues tail, by rw [hds]; rfl, ?_⟩
  rw [Json.takeDigits_append ds.isDigit h, hds]
  rfl

/-- Digits are all taken if a leading zero is the only one of them. -/
theorem Digits.readWhole?_append (ds : Digits)
    (hzero : ds.chars.head? = some '0' → ds.chars = ['0']) (h : NoDigit rest) :
    readWhole? (ds.chars ++ rest) = some (digitValues ds.chars, rest) := by
  obtain ⟨d, tail, hds, -⟩ := ds.exists_cons
  obtain ⟨v, vs, hvalues, htake⟩ := ds.takeDigits_append h
  by_cases hd : d = '0'
  · have hone := hzero (by rw [hds, hd]; rfl)
    rw [hone]
    rfl
  · rw [readWhole?, htake, hvalues]
    intro cs he
    rw [hds] at he
    exact hd (List.cons.inj he).1

theorem readFraction?_append (f : Option Digits) (h : NoFraction rest) :
    readFraction? (fractionText f ++ rest) =
      some (f.map fun ds => digitValues ds.chars, rest) := by
  cases f with
  | none =>
    refine readFraction?.eq_2 rest fun cs he => ?_
    subst he
    exact (h '.' rfl).2 rfl
  | some ds =>
    obtain ⟨v, vs, hvalues, htake⟩ := ds.takeDigits_append h.noDigit
    simp only [fractionText, List.cons_append, readFraction?, htake, Option.map_some, hvalues]

theorem readExponentDigits?_append (ds : Digits) (negative : Bool) (h : NoDigit rest) :
    readExponentDigits? negative (ds.chars ++ rest) =
      some (some (if negative then -(Numeral.valueOf (digitValues ds.chars) : Int)
        else Numeral.valueOf (digitValues ds.chars)), rest) := by
  obtain ⟨v, vs, hvalues, htake⟩ := ds.takeDigits_append h
  rw [readExponentDigits?, htake, hvalues]

theorem readExponent?_append (e : Option Exponent) (h : Delimited rest) :
    readExponent? (exponentText e ++ rest) = some (e.map Exponent.value, rest) := by
  have hdigit : NoDigit rest := fun c hc => (h c hc).1
  cases e with
  | none =>
    cases rest with
    | nil => rfl
    | cons c cs =>
      obtain ⟨-, -, hsmall, hlarge⟩ := h c rfl
      have hc : ¬(c = 'e' ∨ c = 'E') := by simp [hsmall, hlarge]
      simp only [exponentText, List.nil_append, readExponent?, if_neg hc, Option.map_none]
  | some e =>
    obtain ⟨mark, hmark, sign, ds⟩ := e
    have hread (negative : Bool) := readExponentDigits?_append ds negative hdigit
    simp only [exponentText, List.cons_append, List.append_assoc, readExponent?, if_pos hmark]
    cases sign with
    | none =>
      -- what begins with a digit begins with no sign
      obtain ⟨d, tail, hds, hd⟩ := ds.exists_cons
      rw [ExponentSign.text, List.nil_append]
      split
      case h_3 => exact hread false
      all_goals
        rename_i he
        rw [hds] at he
        cases he
        cases hd
    | plus => exact hread false
    | minus => exact hread true

theorem Literal.readUnsigned?_append (l : Literal) (h : Delimited rest) :
    readUnsigned? l.negative
        (l.whole.chars ++ (fractionText l.fraction ++ (exponentText l.exponent ++ rest))) =
      some (l.numeral, rest) := by
  have hexponent := h.noFraction_exponent l.exponent
  have hfraction := hexponent.noDigit_fraction l.fraction
  simp only [readUnsigned?, l.whole.readWhole?_append l.zero_alone hfraction,
    readFraction?_append l.fraction hexponent, readExponent?_append l.exponent h, numeral]

theorem Literal.readNumeral?_append (l : Literal) (h : Delimited rest) :
    readNumeral? (l.text ++ rest) = some (l.numeral, rest) := by
  rw [← l.readUnsigned?_append h]
  simp only [text, List.append_assoc]
  cases l.negative with
  | true => rfl
  | false =>
    obtain ⟨d, tail, hds, hd⟩ := l.whole.exists_cons
    rw [signText, List.nil_append, readNumeral?]
    intro cs he
    rw [hds] at he
    cases he
    cases hd

/-- A literal begins as no other value does. -/
theorem Literal.text_eq_cons (l : Literal) :
    ∃ c cs, l.text = c :: cs ∧ (c = '-' ∨ c.isDigit = true) := by
  obtain ⟨d, tail, hds, hd⟩ := l.whole.exists_cons
  rw [text]
  cases l.negative with
  | true => exact ⟨'-', _, rfl, .inl rfl⟩
  | false =>
    rw [hds]
    exact ⟨d, _, rfl, .inr hd⟩

theorem valueOf_digitValues (ds : List Char) :
    Numeral.valueOf (digitValues ds) = Nat.ofDigitChars 10 ds 0 := by
  simp only [Numeral.valueOf, digitValues, List.foldl_map, Nat.ofDigitChars_eq_foldl, Nat.mul_comm]
  rfl

theorem Numeral.asWord?_real? (n : Numeral) : n.real?.bind asWord? = none := by
  rw [real?]
  cases n.magnitude? <;> rfl

/-- Only digits that stand alone make a word. -/
theorem Numeral.asWord?_cases (n : Numeral) :
    (n.negative = false ∧ n.fraction = none ∧ n.exponent = none ∧
      valueOf n.whole < UInt64.size) ∨ n.toJson?.bind asWord? = none := by
  simp only [toJson?]
  split
  case h_2 => exact .inr n.asWord?_real?
  case h_1 hfraction hexponent =>
    split
    case isTrue =>
      split
      case isTrue hpos =>
        have hneg : ¬(0 : Int) ≤ -valueOf n.whole := by omega
        exact .inr (by simp only [Option.bind_some, asWord?, hneg, false_and, if_false])
      case isFalse => exact .inr n.asWord?_real?
    case isFalse hunsigned =>
      split
      case isTrue hlt =>
        exact .inl ⟨by simpa using hunsigned, hfraction, hexponent, hlt⟩
      case isFalse => exact .inr n.asWord?_real?

/-- No minus sign, no fraction and no exponent. -/
structure Literal.Natural (l : Literal) : Prop where
  unsigned : l.negative = false
  whole : l.fraction = none
  unscaled : l.exponent = none

/-- The value of the digits in front of a fraction and an exponent. -/
def Literal.value (l : Literal) : Nat :=
  Nat.ofDigitChars 10 l.whole.chars 0

theorem Literal.toJson?_natural {l : Literal} (h : l.Natural) (hlt : l.value < UInt64.size) :
    l.numeral.toJson? = some (.integer l.value) := by
  rw [value, ← valueOf_digitValues] at *
  simp only [numeral, Numeral.toJson?, h.unsigned, h.whole, h.unscaled, Option.map_none,
    Bool.false_eq_true, if_false, if_pos hlt]

theorem Literal.asWord?_eq_none {l : Literal} (h : ¬(l.Natural ∧ l.value < UInt64.size)) :
    l.numeral.toJson?.bind asWord? = none := by
  refine l.numeral.asWord?_cases.resolve_left fun hword => h ?_
  obtain ⟨hunsigned, hwhole, hunscaled, hlt⟩ := hword
  rw [numeral, valueOf_digitValues] at hlt
  exact ⟨⟨hunsigned, Option.map_eq_none_iff.mp hwhole, Option.map_eq_none_iff.mp hunscaled⟩, hlt⟩

end NativeScripts.Json
