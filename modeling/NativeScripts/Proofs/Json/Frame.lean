import NativeScripts.Proofs.Json.Compact

/-! Values with a place left open. The text around the place is the same whatever stands
there. The reader gets as far as the place, and if it reads nothing there, it reads nothing
of the whole. -/

namespace NativeScripts.Json

/-- A list or an object around one place. -/
inductive Frame where
  | item (before after : List Json)
  | field (before : Fields) (name : String) (after : Fields)

namespace Frame

def plug : Frame → Json → Json
  | .item before after, v => .array (before ++ v :: after)
  | .field before name after, v => .object (before ++ (name, v) :: after)

def front : Frame → List Char
  | .item before _ => '[' :: before.flatMap fun v => v.compactChars ++ [',']
  | .field before name _ =>
    '\x7b' :: (before.flatMap (fun f => compactField f ++ [',']) ++ (quoted name ++ [':']))

def back : Frame → List Char
  | .item _ after => after.flatMap (fun v => ',' :: v.compactChars) ++ [']']
  | .field _ _ after => after.flatMap (fun f => ',' :: compactField f) ++ ['\x7d']

end Frame

section Texts

variable {α : Type} {spelled : α → List Char → Prop} {text : α → List Char}

/-- Commas between texts, put behind the texts that have another behind them. -/
theorem flatMap_comma (text : α → List Char) (x : α) (xs : List α) (rest : List Char) :
    text x ++ (xs.flatMap (fun y => ',' :: text y) ++ ',' :: rest) =
      (x :: xs).flatMap (fun y => text y ++ [',']) ++ rest := by
  induction xs generalizing x with
  | nil => simp
  | cons y xs ih =>
    have htail := ih y
    simp only [List.flatMap_cons, List.append_assoc, List.cons_append, List.nil_append] at htail ⊢
    rw [htail]

theorem Listed.prepend {close : Char} {xs ys : List α} {cs : List Char}
    (h : ∀ x ∈ xs, spelled x (text x)) (hs : Listed close spelled ys cs) :
    Listed close spelled (xs ++ ys) (xs.flatMap (fun x => text x ++ [',']) ++ cs) := by
  induction xs with
  | nil => exact hs
  | cons x xs ih =>
    rw [List.forall_mem_cons] at h
    have hmore := Listed.more h.1 blanks_nil blanks_nil (ih h.2)
    simpa using hmore

theorem opens_prepend {xs : List α} {cs : List Char} (h : ∀ x ∈ xs, Opens (text x))
    (hs : Opens cs) : Opens (xs.flatMap (fun x => text x ++ [',']) ++ cs) := by
  cases xs with
  | nil => exact hs
  | cons x xs =>
    rw [List.flatMap_cons, List.append_assoc, List.append_assoc]
    exact (h x List.mem_cons_self).append _

theorem length_lt_flatMap {x : α} {xs : List α} (h : x ∈ xs) :
    (text x).length < (xs.flatMap fun x => text x ++ [',']).length := by
  have hmem : text x ++ [','] ∈ xs.map fun x => text x ++ [','] := List.mem_map.mpr ⟨x, h, rfl⟩
  have hle := (List.sublist_flatten_of_mem hmem).length_le
  rwa [List.length_append, ← List.flatMap_def] at hle

/-- What cannot be read ends the list, whatever was read in front of it. -/
theorem readListed_prepend {close : Char} {read : List Char → Option (α × List Char)} {bound : Nat}
    (hr : Reads spelled read bound) (hclose : close ≠ ',') {xs : List α} {cs : List Char}
    (h : ∀ x ∈ xs, spelled x (text x) ∧ (text x).length < bound) (hcs : read cs = none)
    (fuel : Nat) :
    readListed close read fuel (xs.flatMap (fun x => text x ++ [',']) ++ cs) = none := by
  induction xs generalizing fuel with
  | nil =>
    cases fuel with
    | zero => rfl
    | succ fuel => simp only [List.flatMap_nil, List.nil_append, readListed, hcs]
  | cons x xs ih =>
    rw [List.forall_mem_cons] at h
    cases fuel with
    | zero => rfl
    | succ fuel =>
      have hmark : isBlank ',' = false := by decide
      have hx : read (text x ++ ',' :: (xs.flatMap (fun x => text x ++ [',']) ++ cs)) =
          some (x, ',' :: (xs.flatMap (fun x => text x ++ [',']) ++ cs)) :=
        hr.append h.1.1 h.1.2 (delimited_cons.mpr (by decide))
      simp only [List.flatMap_cons, List.append_assoc, List.cons_append, List.nil_append,
        readListed, hx, skipBlanks_cons hmark, if_neg hclose.symm, if_true, ih h.2 fuel,
        Option.map_none]

end Texts

namespace Frame

theorem compactChars_plug (f : Frame) (v : Json) :
    (f.plug v).compactChars = f.front ++ (v.compactChars ++ f.back) := by
  cases f with
  | item before after =>
    cases before with
    | nil => simp [plug, front, back, compactChars, compactItems_eq]
    | cons w before =>
      have hcomma := flatMap_comma compactChars w before
        (v.compactChars ++ (after.flatMap (fun v => ',' :: v.compactChars) ++ [']']))
      simp only [plug, front, back, compactChars, compactItems_eq, List.cons_append,
        List.append_assoc, List.flatMap_append, List.flatMap_cons] at hcomma ⊢
      rw [hcomma]
  | field before name after =>
    cases before with
    | nil => simp [plug, front, back, compactChars, compactFields_eq]
    | cons w before =>
      obtain ⟨key, w⟩ := w
      have hcomma := flatMap_comma compactField (key, w) before
        (compactField (name, v) ++ (after.flatMap (fun f => ',' :: compactField f) ++ ['\x7d']))
      simp only [plug, front, back, compactChars, compactFields_eq, compactField, List.cons_append,
        List.append_assoc, List.flatMap_append, List.flatMap_cons, List.nil_append] at hcomma ⊢
      rw [hcomma]

section Reading

variable {f : Frame} {v w : Json} {cs : List Char}

theorem exact_of_plug (h : Exact (f.plug w)) : Exact w := by
  cases f with
  | item before after =>
    cases h with
    | array h => exact h w (by simp)
  | field before name after =>
    cases h with
    | object _ h => exact h (name, w) (by simp)

theorem ascending_replace {before after : Fields} {name : String}
    (h : Ascending (before ++ (name, w) :: after)) (v : Json) :
    Ascending (before ++ (name, v) :: after) :=
  ascending_of_names _ (by simp only [List.map_append, List.map_cons]) (List.pairwise_map.mpr h)

theorem spelled_plug (h : Exact (f.plug w)) (hs : Spelled v cs) :
    Spelled (f.plug v) (f.front ++ (cs ++ f.back)) := by
  cases f with
  | item before after =>
    cases h with
    | array h =>
      simp only [List.forall_mem_append, List.forall_mem_cons] at h
      obtain ⟨hbefore, -, hafter⟩ := h
      have hlast : Listed ']' Spelled (v :: after) _ := listed_cons blanks_nil blanks_nil hs
        fun v hv => (hafter v hv).spelled
      have hall := Spelled.array blanks_nil (hlast.prepend fun v hv => (hbefore v hv).spelled)
      simpa [plug, front, back] using hall
  | field before name after =>
    cases h with
    | object ha h =>
      simp only [List.forall_mem_append, List.forall_mem_cons] at h
      obtain ⟨hbefore, -, hafter⟩ := h
      have hmember (f : String × Json) (hf : Exact f.2) : Member Spelled f (compactField f) :=
        .mk blanks_nil blanks_nil hf.spelled
      have hown : Member Spelled (name, v) (quoted name ++ ':' :: cs) :=
        .mk blanks_nil blanks_nil hs
      have hlast : Listed '\x7d' (Member Spelled) ((name, v) :: after) _ :=
        listed_cons blanks_nil blanks_nil hown fun f hf => hmember f (hafter f hf)
      have hall := Spelled.object blanks_nil
        (hlast.prepend fun f hf => hmember f (hbefore f hf))
      rw [fieldsOf_ascending (ascending_replace ha v)] at hall
      simpa [plug, front, back] using hall

end Reading

end Frame

/-- The text begins a value, and the reader finds none at any depth. -/
structure Refused (cs : List Char) : Prop where
  opens : Opens cs
  read : ∀ depth, cs.length < depth → readValue depth cs = none

theorem Literal.refused {l : Literal} (h : l.numeral.toJson? = none) {rest : List Char}
    (hd : Delimited rest) : Refused (l.text ++ rest) where
  opens := l.opens.append rest
  read depth _ := by
    cases depth with
    | zero => rfl
    | succ depth => rw [readValue, readValueWith_literal l hd, h, Option.map_none]

theorem readMember_refused {read : List Char → Option (Json × List Char)} {cs : List Char}
    (h : read cs = none) (name : String) : readMember read (quoted name ++ ':' :: cs) = none := by
  have hname := readText_quoted name.toList (':' :: cs)
  have hmark : isBlank '"' = false ∧ isBlank ':' = false := by decide
  simp only [quoted, List.append_assoc, List.cons_append, List.nil_append, readMember,
    skipBlanks_cons hmark.1, hname, skipBlanks_cons hmark.2, h, Option.map_none]

section Containers

variable {depth : Nat} {cs : List Char}

theorem readArray_refused {before : List Json} (hb : ∀ v ∈ before, Exact v)
    (hlen : (before.flatMap fun v => v.compactChars ++ [',']).length ≤ depth)
    (ho : Opens cs) (h : readValue depth cs = none) :
    readArray (readValue depth) (before.flatMap (fun v => v.compactChars ++ [',']) ++ cs) =
      none := by
  have hopens := opens_prepend (fun v hv => (hb v hv).spelled.opens) ho
  have hbound (v : Json) (hv : v ∈ before) :
      Spelled v v.compactChars ∧ v.compactChars.length < depth :=
    ⟨(hb v hv).spelled, Nat.lt_of_lt_of_le (length_lt_flatMap hv) hlen⟩
  have hskip := hopens.skipBlanks blanks_nil
  rw [List.nil_append] at hskip
  rw [readArray, hskip]
  split
  · rename_i hend
    exact absurd hend (hopens.ne_close _).1
  · rw [readListed_prepend (reads_readValue depth) (by decide) hbound h]
    rfl

theorem readObject_refused {before : Fields} (hb : ∀ f ∈ before, Exact f.2)
    (hlen : (before.flatMap fun f => compactField f ++ [',']).length ≤ depth)
    (name : String) (h : readValue depth cs = none) :
    readObject (readValue depth)
      (before.flatMap (fun f => compactField f ++ [',']) ++ (quoted name ++ ':' :: cs)) = none := by
  have hmember (f : String × Json) (hf : f ∈ before) : Member Spelled f (compactField f) :=
    .mk blanks_nil blanks_nil (hb f hf).spelled
  have hbound (f : String × Json) (hf : f ∈ before) :
      Member Spelled f (compactField f) ∧ (compactField f).length < depth :=
    ⟨hmember f hf, Nat.lt_of_lt_of_le (length_lt_flatMap hf) hlen⟩
  have hopens := opens_prepend (fun f hf => (hmember f hf).opens)
    (⟨'"', _, rfl, by decide⟩ : Opens (quoted name ++ ':' :: cs))
  have hskip := hopens.skipBlanks blanks_nil
  rw [List.nil_append] at hskip
  rw [readObject, hskip]
  split
  · rename_i hend
    exact absurd hend (hopens.ne_close _).2
  · rw [readListed_prepend (reads_readMember (reads_readValue depth)) (by decide) hbound
      (readMember_refused h name)]
    rfl

end Containers

theorem Frame.refused_front {f : Frame} {w : Json} {cs : List Char} (hf : Exact (f.plug w))
    (h : Refused cs) : Refused (f.front ++ cs) := by
  cases f with
  | item before after =>
    cases hf with
    | array hf =>
      simp only [List.forall_mem_append, List.forall_mem_cons] at hf
      refine ⟨⟨'[', _, rfl, by decide⟩, fun depth hdepth => ?_⟩
      cases depth with
      | zero => rfl
      | succ depth =>
        simp only [front, List.cons_append, List.length_cons, List.length_append] at hdepth
        exact readArray_refused hf.1 (by omega) h.opens (h.read depth (by omega))
  | field before name after =>
    cases hf with
    | object _ hf =>
      simp only [List.forall_mem_append, List.forall_mem_cons] at hf
      refine ⟨⟨'\x7b', _, rfl, by decide⟩, fun depth hdepth => ?_⟩
      cases depth with
      | zero => rfl
      | succ depth =>
        simp only [front, List.cons_append, List.length_cons, List.length_append] at hdepth
        simp only [front, List.cons_append, List.append_assoc, List.nil_append]
        exact readObject_refused hf.1 (by omega) name (h.read depth (by omega))

theorem Frame.delimited_back (f : Frame) (rest : List Char) : Delimited (f.back ++ rest) := by
  cases f with
  | item before after => cases after <;> exact delimited_cons.mpr (by decide)
  | field before name after => cases after <;> exact delimited_cons.mpr (by decide)

/-- Frames one inside the other, the outermost first. -/
abbrev Frames := List Frame

namespace Frames

def plug (fs : Frames) (v : Json) : Json :=
  fs.foldr Frame.plug v

def front (fs : Frames) : List Char :=
  fs.flatMap Frame.front

def back (fs : Frames) : List Char :=
  fs.reverse.flatMap Frame.back

theorem plug_cons (f : Frame) (fs : Frames) (v : Json) : plug (f :: fs) v = f.plug (plug fs v) :=
  rfl

theorem plug_append (fs fs' : Frames) (v : Json) : plug (fs ++ fs') v = plug fs (plug fs' v) :=
  List.foldr_append

theorem front_cons (f : Frame) (fs : Frames) : front (f :: fs) = f.front ++ front fs :=
  List.flatMap_cons

theorem back_cons (f : Frame) (fs : Frames) : back (f :: fs) = back fs ++ f.back := by
  simp [back]

theorem compactChars_plug (fs : Frames) (v : Json) :
    (fs.plug v).compactChars = fs.front ++ (v.compactChars ++ fs.back) := by
  induction fs with
  | nil => simp [plug, front, back]
  | cons f fs ih =>
    rw [plug_cons, f.compactChars_plug, ih, front_cons, back_cons]
    simp only [List.append_assoc]

variable {fs : Frames} {v w : Json}

theorem spelled_plug {cs : List Char} (h : Exact (fs.plug w)) (hs : Spelled v cs) :
    Spelled (fs.plug v) (fs.front ++ (cs ++ fs.back)) := by
  induction fs with
  | nil => simpa [plug, front, back] using hs
  | cons f fs ih =>
    have hall := Frame.spelled_plug h (ih (Frame.exact_of_plug h))
    rw [plug_cons, front_cons, back_cons]
    simpa only [List.append_assoc] using hall

theorem refused {l : Literal} (h : Exact (fs.plug w)) (hl : l.numeral.toJson? = none)
    {rest : List Char} (hd : Delimited rest) :
    Refused (fs.front ++ (l.text ++ (fs.back ++ rest))) := by
  induction fs generalizing rest with
  | nil => exact l.refused hl hd
  | cons f fs ih =>
    have hinner := ih (Frame.exact_of_plug h) (f.delimited_back rest)
    have hall := Frame.refused_front h hinner
    rw [front_cons, back_cons]
    simpa only [List.append_assoc] using hall

/-- A number is read in its place, and a number too large for the reader nowhere. -/
theorem read?_literal (h : Exact (fs.plug w)) (l : Literal) :
    read? (String.ofList (fs.front ++ (l.text ++ fs.back))) = l.numeral.toJson?.map fs.plug := by
  cases hl : l.numeral.toJson? with
  | some v =>
    have hr := (spelled_plug h (.number hl)).read? blanks_nil
    rwa [List.append_nil] at hr
  | none =>
    have hd : Delimited [] := by simp [Delimited]
    have hr := (refused h hl hd).read
    rw [List.append_nil] at hr
    simp only [Json.read?, String.toList_ofList, hr _ (Nat.lt_succ_self _), Option.map_none]

end Frames

end NativeScripts.Json
