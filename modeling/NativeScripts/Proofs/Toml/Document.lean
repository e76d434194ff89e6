import NativeScripts.Proofs.Toml.Scalar

/-! Documents as lines. What a line adds is told once, whatever follows its end, and a
document of lines then comes to what they add one after the other. Empty lines add nothing. -/

namespace NativeScripts.Toml

variable {rest after : List Char}

section Parts

/-- A bare word and what stops it, neither of which is a blank in front. -/
theorem readKey?_word {word : List Char} (hne : word ≠ [])
    (hword : ∀ c ∈ word, isBare c = true) (hend : ∀ c ∈ rest.head?, isBare c = false)
    (hdot : ∀ cs, skipBlanks rest ≠ '.' :: cs) :
    readKey? (word ++ rest) = some (([], String.ofList word), skipBlanks rest) := by
  have htake : (word ++ rest).takeWhile isBare = word := by
    rw [List.takeWhile_append_of_pos hword]
    cases rest with
    | nil => simp
    | cons r rest => simp [hend r rfl]
  have hdrop : (word ++ rest).dropWhile isBare = rest := by
    rw [List.dropWhile_append_of_pos hword]
    cases rest with
    | nil => rfl
    | cons r rest => simp [hend r rfl]
  obtain ⟨c, cs, rfl⟩ := List.exists_cons_of_ne_nil hne
  have hne {d : Char} (hd : isBare d = false) : c ≠ d := by
    rintro rfl
    rw [hword c List.mem_cons_self] at hd
    cases hd
  have hpart : readKeyPart? (c :: cs ++ rest) = some (c :: cs, rest) := by
    rw [List.cons_append] at htake hdrop ⊢
    rw [readKeyPart?]
    · simp only [htake, hdrop, List.isEmpty_cons, Bool.false_eq_true, if_false]
    · exact fun _ he => hne rfl (List.cons.inj he).1
    · exact fun _ he => hne rfl (List.cons.inj he).1
  have hblank : skipBlanks (c :: cs ++ rest) = c :: cs ++ rest := by
    have hspace : c ≠ ' ' := hne rfl
    have htab : c ≠ '\t' := hne rfl
    have hc : isBlank c = false := by simp [isBlank, hspace, htab]
    simp [skipBlanks, hc]
  have hparts : readParts? keyLimit (c :: cs ++ rest) =
      some ([String.ofList (c :: cs)], skipBlanks rest) := by
    simp only [keyLimit, readParts?, hblank, hpart]
  rw [readKey?, hparts]
  rfl

theorem readPair?_line {name text : List Char} {value : Value} (hne : name ≠ [])
    (hname : ∀ c ∈ name, isBare c = true) (htext : skipBlanks (text ++ rest) = text ++ rest)
    (hread : readValue depthLimit (text ++ rest) = some (value, rest)) :
    readPair? (readValue depthLimit) (name ++ (' ' :: '=' :: ' ' :: text) ++ rest) =
      some (([], String.ofList name), value, rest) := by
  have hkey : readKey? (name ++ ' ' :: '=' :: ' ' :: (text ++ rest)) =
      some (([], String.ofList name), '=' :: ' ' :: (text ++ rest)) := by
    apply readKey?_word hne hname
    · simp [isBare]
    · simp [skipBlanks, isBlank]
  have hvalue : skipBlanks (' ' :: (text ++ rest)) = text ++ rest := htext
  simp only [List.append_assoc, List.cons_append, readPair?, hkey, hvalue, hread, Option.map_some]

/-- A text between quotation marks. -/
def quoted (t : List Char) : List Char :=
  '"' :: (t ++ ['"'])

theorem readItems_blank (read : ReadValue) (fuel : Nat) (cs : List Char) :
    readItems read fuel (' ' :: cs) = readItems read fuel cs := by
  have hblank : skipFiller false (' ' :: cs) = skipFiller false cs := by
    rw [skipFiller.eq_def]
    rfl
  cases fuel with
  | zero => rfl
  | succ fuel => rw [readItems, hblank, readItems]

theorem readItems_quoted {t : List Char} (hne : t ≠ []) (h : Unescaped t) (depth fuel : Nat)
    (c : Char) (cs : List Char) (hc : c = ']' ∨ c = ',') :
    readItems (readValue depth) (fuel + 1) (quoted t ++ c :: cs) =
      if c = ']' then some ([.text (String.ofList t)], cs)
      else (readItems (readValue depth) fuel cs).map
        fun r => (.text (String.ofList t) :: r.1, r.2) := by
  have hquoted : quoted t ++ c :: cs = '"' :: (t ++ '"' :: c :: cs) := by simp [quoted]
  have hread := readValue_text hne h depth (c :: cs)
  rcases hc with rfl | rfl
  · simp [readItems, hquoted, skipFiller, isBlank, hread]
  · simp [readItems, hquoted, skipFiller, isBlank, hread]

/-- Texts between brackets, with a comma and a blank between any two of them. -/
theorem readItems_texts {texts : List (List Char)} (hne : ∀ t ∈ texts, t ≠ [])
    (hplain : ∀ t ∈ texts, Unescaped t) (depth fuel : Nat) (rest : List Char)
    (hf : ([',', ' '].intercalate (texts.map quoted)).length < fuel) :
    readItems (readValue depth) fuel ([',', ' '].intercalate (texts.map quoted) ++ ']' :: rest) =
      some (texts.map fun t => .text (String.ofList t), rest) := by
  obtain ⟨fuel, rfl⟩ : ∃ f, fuel = f + 1 := ⟨fuel - 1, by omega⟩
  induction texts generalizing fuel with
  | nil => simp [readItems, skipFiller, isBlank]
  | cons t texts ih =>
    obtain ⟨ht, hne⟩ := List.forall_mem_cons.mp hne
    obtain ⟨hu, hplain⟩ := List.forall_mem_cons.mp hplain
    have hitem := readItems_quoted ht hu depth fuel
    cases texts with
    | nil =>
      have hlast := hitem ']' rest (.inl rfl)
      simpa using hlast
    | cons t' texts =>
      rw [List.map_cons, List.map_cons, List.intercalate_cons_cons] at hf ⊢
      simp only [List.length_append, List.length_cons, List.length_nil] at hf
      obtain ⟨fuel, rfl⟩ : ∃ f, fuel = f + 1 := ⟨fuel - 1, by omega⟩
      have hrest := ih hne hplain fuel (by rw [List.map_cons]; omega)
      have hmore :=
        hitem ',' (' ' :: ([',', ' '].intercalate ((t' :: texts).map quoted) ++ ']' :: rest))
        (.inr rfl)
      rw [readItems_blank, hrest] at hmore
      simpa using hmore

theorem readValue_texts {texts : List (List Char)} (hne : ∀ t ∈ texts, t ≠ [])
    (hplain : ∀ t ∈ texts, Unescaped t) (rest : List Char) :
    readValue depthLimit ('[' :: ([',', ' '].intercalate (texts.map quoted) ++ ']' :: rest)) =
      some (.array (texts.map fun t => .text (String.ofList t)), rest) := by
  have hf : ([',', ' '].intercalate (texts.map quoted)).length <
      ([',', ' '].intercalate (texts.map quoted) ++ ']' :: rest).length + 1 := by
    rw [List.length_append]
    omega
  have hitems := readItems_texts hne hplain 78 _ rest hf
  rw [depthLimit, readValue, hitems]
  rfl

end Parts

section Lines

variable {d d' d'' : Document} {line : List Char} {lines : List (List Char)}

/-- The first character of a line that holds a header or a pair with a bare key. -/
def Begins (c : Char) : Prop :=
  isBare c = true ∨ c = '['

theorem skipFiller_begins {c : Char} (h : Begins c) (cs : List Char) :
    skipFiller false (c :: cs) = c :: cs := by
  have hne {b : Char} (hb : isBare b = false ∧ b ≠ '[') : c ≠ b := by
    rintro rfl
    rcases h with h | h
    · rw [hb.1] at h
      cases h
    · exact hb.2 h
  have hfeed : c ≠ '\n' := hne (by decide)
  have hreturn : c ≠ '\r' := hne (by decide)
  have hspace : c ≠ ' ' := hne (by decide)
  have htab : c ≠ '\t' := hne (by decide)
  have hcomment : c ≠ '#' := hne (by decide)
  have hblank : isBlank c = false := by simp [isBlank, hspace, htab]
  rw [skipFiller]
  · simp [hblank, hcomment]
  · exact hfeed
  · exact fun _ he => absurd he hreturn

theorem Begins.toNat_le {c : Char} (h : Begins c) : c.toNat ≤ 0x7f := by
  rcases h with h | rfl
  · rw [isBare, Bool.or_eq_true, Bool.or_eq_true, decide_eq_true_eq, decide_eq_true_eq] at h
    rcases h with (h | rfl) | rfl
    · delta Char.isAlphanum Char.isAlpha Char.isUpper Char.isLower Char.isDigit at h
      simp only [ge_iff_le, UInt32.le_iff_toNat_le, Bool.or_eq_true, Bool.and_eq_true,
        decide_eq_true_eq] at h
      change c.val.toNat ≤ 0x7f
      have hbounds : 'Z'.val.toNat = 0x5a ∧ 'z'.val.toNat = 0x7a ∧ '9'.val.toNat = 0x39 := by decide
      omega
    · decide
    · decide
  · decide

/-- What the line adds to a document. -/
structure Adds (line : List Char) (d d' : Document) : Prop where
  begins : ∃ c cs, line = c :: cs ∧ Begins c
  read : ∀ rest after, LineEnd rest after → d.readLine (line ++ rest) = some (d', after)

theorem adds_pair {name text : List Char} {value : Value} (hne : name ≠ [])
    (hname : ∀ c ∈ name, isBare c = true) (htext : ∃ c cs, text = c :: cs ∧ isBlank c = false)
    (hread : ∀ rest after, LineEnd rest after →
      readValue depthLimit (text ++ rest) = some (value, rest))
    (hd : d.addPair [] (String.ofList name) value = some d') :
    Adds (name ++ ' ' :: '=' :: ' ' :: text) d d' := by
  obtain ⟨c, cs, rfl⟩ := List.exists_cons_of_ne_nil hne
  have hc : isBare c = true := hname c List.mem_cons_self
  refine ⟨⟨c, _, rfl, .inl hc⟩, fun rest after hend => ?_⟩
  obtain ⟨b, bs, rfl, hb⟩ := htext
  have hskip : skipBlanks (b :: bs ++ rest) = b :: bs ++ rest := by simp [skipBlanks, hb]
  have hpair := readPair?_line hne hname hskip (hread rest after hend)
  have hbracket : c ≠ '[' := by
    rintro rfl
    cases hc
  rw [List.cons_append, List.cons_append] at hpair ⊢
  rw [Document.readLine, hpair]
  · simp only [Option.bind_eq_bind, Option.bind_some, hend.dropLine?_eq, hd]
  · exact fun _ he => hbracket (List.cons.inj he).1
  · exact fun _ he => hbracket (List.cons.inj he).1

theorem adds_header {name : List Char} (hne : name ≠ []) (hname : ∀ c ∈ name, isBare c = true)
    (hd : d.openTable ([], String.ofList name) = some d') : Adds ('[' :: (name ++ [']'])) d d' := by
  refine ⟨⟨'[', _, rfl, .inr rfl⟩, fun rest after hend => ?_⟩
  have hkey : readKey? (name ++ ']' :: rest) = some (([], String.ofList name), ']' :: rest) := by
    apply readKey?_word hne hname
    · simp [isBare]
    · simp [skipBlanks, isBlank]
  have hline : '[' :: (name ++ [']']) ++ rest = '[' :: (name ++ ']' :: rest) := by simp
  rw [hline]
  obtain ⟨c, cs, rfl⟩ := List.exists_cons_of_ne_nil hne
  have hc : isBare c = true := hname c List.mem_cons_self
  have hbracket : c ≠ '[' := by
    rintro rfl
    cases hc
  rw [List.cons_append] at hkey ⊢
  rw [Document.readLine, hkey]
  · simp only [Option.bind_eq_bind, Option.bind_some, hend.dropLine?_eq, hd]
  · exact fun _ he => hbracket (List.cons.inj he).1

/-- The lines one after the other, with empty lines anywhere between them. -/
inductive Runs : Document → List (List Char) → Document → Prop where
  | done (d : Document) : Runs d [] d
  | empty {d d' : Document} {lines : List (List Char)} (h : Runs d lines d') :
      Runs d ([] :: lines) d'
  | line {d d' d'' : Document} {line : List Char} {lines : List (List Char)}
      (ha : Adds line d d') (h : Runs d' lines d'') : Runs d (line :: lines) d''

theorem Runs.of_filter (h : Runs d (lines.filter (· ≠ [])) d') : Runs d lines d' := by
  induction lines generalizing d with
  | nil => exact h
  | cons line lines ih =>
    by_cases hline : line = []
    · subst hline
      exact .empty (ih (by simpa using h))
    · rw [List.filter_cons_of_pos (by simpa using hline)] at h
      cases h with
      | empty => exact absurd rfl hline
      | line ha h => exact .line ha (ih h)

theorem readLines_feed (fuel : Nat) (d : Document) (cs : List Char) :
    d.readLines fuel ('\n' :: cs) = d.readLines fuel cs := by
  cases fuel with
  | zero => rfl
  | succ fuel => rw [Document.readLines, skipFiller, Document.readLines]

theorem Adds.readLines_eq (h : Adds line d d') (hend : LineEnd rest after) (fuel : Nat) :
    d.readLines (fuel + 1) (line ++ rest) = d'.readLines fuel after := by
  obtain ⟨⟨c, cs, rfl, hc⟩, hread⟩ := h
  have hline := hread rest after hend
  rw [List.cons_append] at hline ⊢
  simp [Document.readLines, skipFiller_begins hc, hline]

/-- A document of lines comes to what its lines add. -/
theorem Runs.readLines_eq (h : Runs d lines d') {fuel : Nat}
    (hf : (['\n'].intercalate lines).length < fuel) :
    d.readLines fuel (['\n'].intercalate lines) = some d' := by
  obtain ⟨fuel, rfl⟩ : ∃ f, fuel = f + 1 := ⟨fuel - 1, by omega⟩
  induction h generalizing fuel with
  | done d => simp [Document.readLines, skipFiller]
  | @empty d d' lines h ih =>
    cases lines with
    | nil => exact ih fuel hf
    | cons line lines =>
      rw [List.intercalate_cons_cons] at hf ⊢
      simp only [List.nil_append, List.singleton_append, List.length_cons] at hf ⊢
      rw [readLines_feed]
      exact ih fuel (by omega)
  | @line d d' d'' line lines ha h ih =>
    obtain ⟨c, cs, hc, -⟩ := ha.begins
    have hpos : 0 < line.length := by simp [hc]
    cases lines with
    | nil =>
      cases h
      obtain ⟨fuel, rfl⟩ : ∃ f, fuel = f + 1 :=
        ⟨fuel - 1, by rw [List.intercalate_singleton] at hf; omega⟩
      have hlast := ha.readLines_eq .last (fuel + 1)
      rw [List.append_nil] at hlast
      rw [List.intercalate_singleton, hlast]
      rfl
    | cons line' lines =>
      rw [List.intercalate_cons_cons] at hf ⊢
      simp only [List.append_assoc, List.singleton_append, List.length_append,
        List.length_cons] at hf ⊢
      obtain ⟨fuel, rfl⟩ : ∃ f, fuel = f + 1 := ⟨fuel - 1, by omega⟩
      rw [ha.readLines_eq (.feed _)]
      exact ih fuel (by omega)

/-- No mark for the order of bytes is taken off such a document. -/
theorem Runs.skipOrderMark_eq (h : Runs d lines d') :
    skipOrderMark (['\n'].intercalate lines) = ['\n'].intercalate lines := by
  have hfirst : ∀ c ∈ (['\n'].intercalate lines).head?, c.toNat ≤ 0x7f := by
    cases h with
    | done => simp
    | @empty _ _ lines h =>
      cases lines with
      | nil => simp
      | cons line lines => simp [List.intercalate_cons_cons]
    | @line _ _ _ line lines ha h =>
      obtain ⟨c, cs, rfl, hc⟩ := ha.begins
      have hle := hc.toNat_le
      cases lines with
      | nil => simpa using hle
      | cons line lines => simpa [List.intercalate_cons_cons] using hle
  cases hcs : ['\n'].intercalate lines with
  | nil => rfl
  | cons c cs =>
    rw [hcs] at hfirst
    have hc : c.toNat ≤ 0x7f := hfirst c rfl
    rw [skipOrderMark, if_neg (by omega)]

theorem Runs.read?_eq (h : Runs .empty lines d) {s : String}
    (hs : s.toList = ['\n'].intercalate lines) : read? s = some d.entries := by
  have hlines := h.readLines_eq (Nat.lt_succ_self _)
  rw [read?, hs, h.skipOrderMark_eq]
  simp only [hlines, Option.map_some]

end Lines

section Tables

variable {entries : Entries} {name : String}

theorem alter_new (h : ∀ e ∈ entries, e.1 ≠ name) (f : Option Value → Option Value) :
    entries.alter name f = (f none).map fun v => entries ++ [(name, v)] := by
  induction entries with
  | nil => rfl
  | cons e entries ih =>
    obtain ⟨he, hentries⟩ := List.forall_mem_cons.mp h
    rw [Entries.alter, if_neg he, ih hentries]
    cases f none <;> rfl

end Tables

end NativeScripts.Toml
