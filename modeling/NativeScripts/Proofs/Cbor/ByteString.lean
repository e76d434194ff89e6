import NativeScripts.Proofs.Cbor.PlainItem

/-! Byte strings, in one piece or in several. The reader takes exactly these for byte
strings, however deep it may go, since nothing it looks for inside one nests as items do. -/

namespace NativeScripts.Cbor

/-- One untagged byte string and its content. The pieces of one without a length are byte
strings again, and their contents are joined. -/
inductive ByteString : Bytes → Bytes → Prop where
  | whole {content spelled : Bytes} {info : Nat} (h : Argument content.length info spelled) :
      ByteString content (UInt8.ofNat (64 + info) :: (spelled ++ content))
  | pieces {parts : List (Bytes × Bytes)} (each : ∀ p ∈ parts, ByteString p.1 p.2) :
      ByteString (parts.flatMap Prod.fst) (0x5f :: (parts.flatMap Prod.snd ++ [0xff]))

section Heads

variable {bs rest tail : Bytes} {first : UInt8}

theorem readHead_length_iff {n : Nat} :
    readHead bs = .ok (.bytes (some n), rest) ↔
      ∃ info spelled, Argument n info spelled ∧
        bs = UInt8.ofNat (64 + info) :: (spelled ++ rest) := by
  have hm : 2 < 7 := by omega
  have hh : readHead bs = .ok (.bytes (some n), rest) ↔ _ := readHead_eq_ofArgument hm
  simpa using hh

theorem readHead_length {n info : Nat} {spelled : Bytes} (h : Argument n info spelled)
    (rest : Bytes) :
    readHead (UInt8.ofNat (64 + info) :: (spelled ++ rest)) = .ok (.bytes (some n), rest) :=
  readHead_length_iff.mpr ⟨info, spelled, h, rfl⟩

/-- A head without an argument is a single byte, in which the low bits are all set. -/
theorem first_of_absent {major : Nat} {head : Head}
    (hparts : ∀ {major' info : Nat} {argument : Option Nat},
      Head.ofParts major' info argument = .ok head → major' = major ∧ argument = none)
    (h : readHead bs = .ok (head, rest)) : bs = UInt8.ofNat (32 * major + 31) :: rest := by
  obtain ⟨first, tail, argument, rfl, hr, hp⟩ := readHead_eq_ok.mp h
  obtain ⟨rfl, rfl⟩ := hparts hp
  rcases spelled_of_readArgument hr with ⟨n, spelled, hn, -, -⟩ | ⟨-, hinfo, rfl⟩
  · cases hn
  · have hfirst : first = UInt8.ofNat (32 * (first.toNat / 32) + 31) := by
      rw [← hinfo, Nat.div_add_mod]
      exact UInt8.ofNat_toNat.symm
    rw [← hfirst]

theorem bytes_of_readHead_none (h : readHead bs = .ok (.bytes none, rest)) : bs = 0x5f :: rest := by
  have hparts {major info : Nat} {argument : Option Nat}
      (hp : Head.ofParts major info argument = .ok (.bytes none)) :
      major = 2 ∧ argument = none := by
    unfold Head.ofParts at hp
    repeat' split at hp
    all_goals simp_all
  exact first_of_absent hparts h

theorem bytes_of_readHead_stop (h : readHead bs = .ok (.stop, rest)) : bs = 0xff :: rest := by
  have hparts {major info : Nat} {argument : Option Nat}
      (hp : Head.ofParts major info argument = .ok .stop) : major = 7 ∧ argument = none := by
    unfold Head.ofParts at hp
    repeat' split at hp
    all_goals simp_all
  exact first_of_absent hparts h

end Heads

section Pieces

variable {bs rest content : Bytes} {fuel opened : Nat}

theorem readPiece_bytes {n : Nat} {piece : Bytes} :
    readPiece .bytes n bs = .ok (piece, rest) ↔ bs = piece ++ rest ∧ piece.length = n := by
  rw [← readBytes_eq_ok, readPiece]
  cases readBytes n bs with
  | error fault => simp
  | ok read => simp

/-- What stands inside so many open strings, up to the stop of the outermost of them. -/
inductive Closing : Nat → Bytes → Bytes → Prop where
  | done : Closing 0 [] []
  | stop {opened : Nat} {content bs : Bytes} (h : Closing opened content bs) :
      Closing (opened + 1) content (0xff :: bs)
  | string {opened : Nat} {content bs content' bs' : Bytes} (hs : ByteString content bs)
      (h : Closing (opened + 1) content' bs') :
      Closing (opened + 1) (content ++ content') (bs ++ bs')

/-- The innermost of the open strings is told by its pieces. -/
theorem Closing.innermost (h : Closing (opened + 1) content bs) :
    ∃ (parts : List (Bytes × Bytes)) (content' bs' : Bytes),
      (∀ p ∈ parts, ByteString p.1 p.2) ∧ Closing opened content' bs' ∧
        content = parts.flatMap Prod.fst ++ content' ∧
        bs = parts.flatMap Prod.snd ++ 0xff :: bs' := by
  generalize hn : opened + 1 = n at h
  induction h with
  | done => omega
  | stop h =>
    cases hn
    exact ⟨[], _, _, List.forall_mem_nil _, h, rfl, rfl⟩
  | @string _ front text _ _ hs _ ih =>
    obtain ⟨parts, content', bs', each, hc, rfl, rfl⟩ := ih hn
    have hparts : ∀ p ∈ (front, text) :: parts, ByteString p.1 p.2 :=
      List.forall_mem_cons.mpr ⟨hs, each⟩
    exact ⟨(front, text) :: parts, content', bs', hparts, hc, by simp, by simp⟩

/-- A step ends the innermost string, opens another one in it, or takes a piece. -/
theorem readPieces_cases
    (h : readPieces .bytes (fuel + 1) (opened + 1) bs = .ok (content, rest)) :
    (opened = 0 ∧ bs = 0xff :: rest ∧ content = []) ∨
    (∃ below after, opened = below + 1 ∧ bs = 0xff :: after ∧
      readPieces .bytes fuel (below + 1) after = .ok (content, rest)) ∨
    (∃ after, bs = 0x5f :: after ∧
      readPieces .bytes fuel (opened + 2) after = .ok (content, rest)) ∨
    ∃ piece text content' after, ByteString piece text ∧ bs = text ++ after ∧
      readPieces .bytes fuel (opened + 1) after = .ok (content', rest) ∧
        content = piece ++ content' := by
  simp only [readPieces] at h
  split at h
  case h_1 => cases h
  case h_2 after hhead =>
    rw [bytes_of_readHead_stop hhead]
    cases opened with
    | zero =>
      cases h
      exact .inl ⟨rfl, rfl, rfl⟩
    | succ below =>
      rw [if_neg (by omega)] at h
      exact .inr (.inl ⟨below, after, rfl, rfl, h⟩)
  case h_3 head after _ hhead =>
    split at h
    case h_1 => cases h
    case h_2 hlength =>
      have hopen : head = .bytes none := by
        cases head <;> simp_all [StringKind.length?]
      subst hopen
      exact .inr (.inr (.inl ⟨after, bytes_of_readHead_none hhead, h⟩))
    case h_3 n hlength =>
      have hwhole : head = .bytes (some n) := by
        cases head <;> simp_all [StringKind.length?]
      subst hwhole
      split at h
      · cases h
      · rename_i piece between hpiece
        obtain ⟨rfl, rfl⟩ := readPiece_bytes.mp hpiece
        split at h
        · cases h
        · rename_i content' after' hrest
          cases h
          obtain ⟨info, spelled, ha, rfl⟩ := readHead_length_iff.mp hhead
          exact .inr (.inr (.inr ⟨piece, _, content', between, .whole ha, by simp, hrest, rfl⟩))

theorem closing_of_readPieces
    (h : readPieces .bytes fuel (opened + 1) bs = .ok (content, rest)) :
    ∃ front, bs = front ++ rest ∧ Closing (opened + 1) content front := by
  -- A string without a length opens one level more, and what closes that level is its text.
  induction fuel generalizing opened bs content with
  | zero => cases h
  | succ fuel ih =>
    obtain ⟨rfl, rfl, rfl⟩ | ⟨below, after, rfl, rfl, hr⟩ | ⟨after, rfl, hr⟩ |
      ⟨piece, text, content', after, hs, rfl, hr, rfl⟩ := readPieces_cases h
    · exact ⟨[0xff], rfl, .stop .done⟩
    · obtain ⟨front, rfl, hc⟩ := ih hr
      exact ⟨0xff :: front, rfl, .stop hc⟩
    · obtain ⟨front, rfl, hc⟩ := ih hr
      obtain ⟨parts, content', bs', each, hc', rfl, rfl⟩ := hc.innermost
      exact ⟨_, by simp, Closing.string (.pieces each) hc'⟩
    · obtain ⟨front, rfl, hc⟩ := ih hr
      exact ⟨text ++ front, by simp, .string hs hc⟩

/-- Whatever is read inside an open string is read behind the text too, with the content in
front. More fuel than bytes is never used up. -/
def Prepends (content text : Bytes) : Prop :=
  ∀ opened bs x rest,
    (∀ fuel, bs.length < fuel → readPieces .bytes fuel (opened + 1) bs = .ok (x, rest)) →
      ∀ fuel, (text ++ bs).length < fuel →
        readPieces .bytes fuel (opened + 1) (text ++ bs) = .ok (content ++ x, rest)

theorem prepends_flatMap {parts : List (Bytes × Bytes)} (h : ∀ p ∈ parts, Prepends p.1 p.2) :
    Prepends (parts.flatMap Prod.fst) (parts.flatMap Prod.snd) := by
  induction parts with
  | nil =>
    intro opened bs x rest hbs
    exact hbs
  | cons p parts ih =>
    intro opened bs x rest hbs
    obtain ⟨hp, hparts⟩ := List.forall_mem_cons.mp h
    have htail := ih hparts opened bs x rest hbs
    have hall := hp opened _ _ _ htail
    simpa only [List.flatMap_cons, List.append_assoc] using hall

theorem readPieces_stop (hbs : ∀ fuel, bs.length < fuel →
    readPieces .bytes fuel (opened + 1) bs = .ok (content, rest)) (hf : bs.length + 1 < fuel) :
    readPieces .bytes fuel (opened + 2) (0xff :: bs) = .ok (content, rest) := by
  obtain ⟨fuel, rfl⟩ : ∃ f, fuel = f + 1 := ⟨fuel - 1, by omega⟩
  have hstop : readHead (0xff :: bs) = .ok (.stop, bs) := rfl
  have hstep := hbs fuel (by omega)
  simpa [readPieces, hstop] using hstep

theorem ByteString.prepends {text : Bytes} (h : ByteString content text) :
    Prepends content text := by
  induction h with
  | @whole content spelled info ha =>
    intro opened bs x rest hbs fuel hf
    have hhead := readHead_length ha (content ++ bs)
    have hpiece : readPiece .bytes content.length (content ++ bs) = .ok (content, bs) :=
      readPiece_bytes.mpr ⟨rfl, rfl⟩
    simp only [List.length_append, List.length_cons] at hf
    obtain ⟨fuel, rfl⟩ : ∃ f, fuel = f + 1 := ⟨fuel - 1, by omega⟩
    have hrest := hbs fuel (by omega)
    rw [List.cons_append, List.append_assoc]
    simp only [readPieces, hhead, StringKind.length?, hpiece, hrest]
  | @pieces parts _ ih =>
    intro opened bs x rest hbs fuel hf
    have hparts := prepends_flatMap ih (opened + 1) (0xff :: bs) x rest
      fun fuel hf => readPieces_stop hbs hf
    have hhead (after : Bytes) : readHead (0x5f :: after) = .ok (.bytes none, after) := rfl
    simp only [List.length_append, List.length_cons, List.length_nil] at hf
    obtain ⟨fuel, rfl⟩ : ∃ f, fuel = f + 1 := ⟨fuel - 1, by omega⟩
    have hread := hparts fuel (by simp only [List.length_append, List.length_cons]; omega)
    rw [List.cons_append, List.append_assoc]
    simpa [readPieces, hhead, StringKind.length?] using hread

theorem not_bytes_of_ofBigNumber {negative : Bool} {n : Nat} :
    Item.ofBigNumber negative n ≠ .ok (.bytes content) := by
  unfold Item.ofBigNumber
  repeat' split
  all_goals simp

theorem byteString_of_readItem {depth : Nat}
    (h : readItem depth bs = .ok (.bytes content, rest)) :
    ∃ front, bs = front ++ rest ∧ ByteString content front := by
  rw [readItem_eq, readItemWith] at h
  cases hh : readHead bs with
  | error fault => simp [hh] at h
  | ok read =>
    obtain ⟨head, after⟩ := read
    simp only [hh] at h
    cases content_of_readContent h with
    | @bytes length _ _ hs =>
      cases length with
      | none =>
        obtain ⟨front, rfl, hc⟩ := closing_of_readPieces hs
        obtain ⟨parts, content', bs', each, hdone, rfl, rfl⟩ := hc.innermost
        cases hdone
        rw [bytes_of_readHead_none hh, List.append_nil]
        exact ⟨0x5f :: (parts.flatMap Prod.snd ++ [0xff]), by simp, .pieces each⟩
      | some n =>
        obtain ⟨rfl, rfl⟩ := readPiece_bytes.mp hs
        obtain ⟨info, spelled, ha, rfl⟩ := readHead_length_iff.mp hh
        exact ⟨_, by simp, .whole ha⟩
    | bigNumber _ _ _ _ hi => exact absurd hi not_bytes_of_ofBigNumber

theorem ByteString.readItem_append {text : Bytes} (h : ByteString content text) (depth : Nat)
    (rest : Bytes) : readItem depth (text ++ rest) = .ok (.bytes content, rest) := by
  cases h with
  | @whole _ spelled info ha =>
    have hhead := readHead_length ha (content ++ rest)
    have hpiece : readPiece .bytes content.length (content ++ rest) = .ok (content, rest) :=
      readPiece_bytes.mpr ⟨rfl, rfl⟩
    rw [List.cons_append, List.append_assoc, readItem_head hhead]
    simp [readContent, readString, hpiece]
  | @pieces parts each =>
    have hend (fuel : Nat) (hf : (0xff :: rest).length < fuel) :
        readPieces .bytes fuel 1 (0xff :: rest) = .ok ([], rest) := by
      obtain ⟨fuel, rfl⟩ : ∃ f, fuel = f + 1 := ⟨fuel - 1, by simp at hf; omega⟩
      have hstop : readHead (0xff :: rest) = .ok (.stop, rest) := rfl
      simp [readPieces, hstop]
    have hhead (after : Bytes) : readHead (0x5f :: after) = .ok (.bytes none, after) := rfl
    have hparts := prepends_flatMap (fun p hp => (each p hp).prepends) 0 _ _ _ hend
    have hread := hparts _ (Nat.lt_succ_self _)
    rw [List.append_nil] at hread
    rw [List.cons_append, List.append_assoc, List.singleton_append, readItem_head (hhead _)]
    simp only [readContent, readString, hread]

/-- The depth is of no account, as there are no items inside a byte string. -/
theorem readItem_bytes_iff {depth : Nat} :
    readItem depth bs = .ok (.bytes content, rest) ↔
      ∃ front, bs = front ++ rest ∧ ByteString content front := by
  constructor
  · exact byteString_of_readItem
  · rintro ⟨front, rfl, hs⟩
    exact hs.readItem_append depth rest

end Pieces

end NativeScripts.Cbor
