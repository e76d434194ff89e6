import NativeScripts.Cbor.Reader

/-! What the reader did, told by what it returned: the steps it took through a series, and
the content it found behind a head. -/

namespace NativeScripts.Cbor

section Series

variable {α : Type} {read : Reader α} {n : Nat} {bs rest : Bytes} {xs : List α}

theorem readMany_succ_eq_ok :
    readMany read (n + 1) bs = .ok (xs, rest) ↔
      ∃ y ys between, read bs = .ok (y, between) ∧ readMany read n between = .ok (ys, rest) ∧
        xs = y :: ys := by
  constructor
  · intro h
    simp only [readMany] at h
    split at h
    · cases h
    · rename_i y between hy
      split at h
      · cases h
      · rename_i ys rest' hys
        cases h
        exact ⟨y, ys, between, hy, hys, rfl⟩
  · intro h
    rcases h with ⟨y, ys, between, hy, hys, rfl⟩
    simp only [readMany, hy, hys]

/-- A stop ends the series, and anything else begins a member of it. -/
theorem readUntilStop_cases {fuel : Nat} (h : readUntilStop read (fuel + 1) bs = .ok (xs, rest)) :
    (readHead bs = .ok (.stop, rest) ∧ xs = []) ∨
      ∃ y ys between, read bs = .ok (y, between) ∧
        readUntilStop read fuel between = .ok (ys, rest) ∧ xs = y :: ys := by
  rw [readUntilStop] at h
  split at h
  · cases h
  · rename_i hstop
    cases h
    exact .inl ⟨hstop, rfl⟩
  · split at h
    · cases h
    · rename_i y between hy
      split at h
      · cases h
      · rename_i ys after hys
        cases h
        exact .inr ⟨y, ys, between, hy, hys, rfl⟩

theorem readEntry_eq_ok {e : α × α} (h : readEntry read bs = .ok (e, rest)) :
    ∃ between, read bs = .ok (e.1, between) ∧ read between = .ok (e.2, rest) := by
  rw [readEntry] at h
  split at h
  · cases h
  · rename_i key between hkey
    split at h
    · cases h
    · rename_i value after hvalue
      cases h
      exact ⟨between, hkey, hvalue⟩

end Series

section Contents

variable {inside : Inside} {bs rest : Bytes} {item : Item}

/-- The item that the content behind a head makes, and the bytes after it. -/
inductive Content (inside : Inside) (bs : Bytes) : Head → Item → Bytes → Prop where
  | unsigned (n : Nat) : Content inside bs (.unsigned n) (.integer n) bs
  | negative (n : Nat) : Content inside bs (.negative n) (.integer (-1 - (n : Int))) bs
  | bytes {length : Option Nat} {content rest : Bytes}
      (h : readString .bytes length bs = .ok (content, rest)) :
      Content inside bs (.bytes length) (.bytes content) rest
  | text {length : Option Nat} {content rest : Bytes} {text : String}
      (h : readString .text length bs = .ok (content, rest)) (ht : content.toText? = some text) :
      Content inside bs (.text length) (.text text) rest
  | array {length : Option Nat} {read : Reader Item} {items : List Item} {rest : Bytes}
      (hi : inside = some read) (h : readSeries read length bs = .ok (items, rest)) :
      Content inside bs (.array length) (.array items) rest
  | map {length : Option Nat} {read : Reader Item} {entries : List (Item × Item)} {rest : Bytes}
      (hi : inside = some read) (h : readSeries (readEntry read) length bs = .ok (entries, rest)) :
      Content inside bs (.map length) (.map entries) rest
  | tag {number : Nat} {read : Reader Item} {content : Item} {rest : Bytes}
      (hi : inside = some read) (h : read bs = .ok (content, rest)) :
      Content inside bs (.tag number) (.tag number content) rest
  | bigNumber {number n : Nat} {after digits rest : Bytes} {item : Item}
      (hh : readHead bs = .ok (.bytes (some n), after)) (ht : number = 2 ∨ number = 3)
      (hn : n ≤ bigNumberLength) (hd : readBytes n after = .ok (digits, rest))
      (hi : Item.ofBigNumber (number = 3) digits.toNat = .ok item) :
      Content inside bs (.tag number) item rest
  | bool (n : Nat) (b : Bool) : Content inside bs (.simple n) (.bool b) bs
  | null (n : Nat) : Content inside bs (.simple n) .null bs
  | float (x : Binary64) : Content inside bs (.float x) (.float x) bs

theorem content_of_readTagged {number : Nat} (h : readTagged inside number bs = .ok (item, rest)) :
    Content inside bs (.tag number) item rest := by
  simp only [readTagged] at h
  split at h
  case h_1 => cases h
  case h_2 hhead =>
    split at h
    case isTrue hfold =>
      split at h
      · cases h
      · rename_i hdigits
        split at h
        · cases h
        · rename_i hitem
          cases h
          exact .bigNumber hhead hfold.1 hfold.2 hdigits hitem
    case isFalse =>
      split at h
      · cases h
      · split at h
        · cases h
        · rename_i hread
          cases h
          exact .tag rfl hread
  case h_3 =>
    split at h
    · cases h
    · split at h
      · cases h
      · rename_i hread
        cases h
        exact .tag rfl hread

theorem content_of_readContent {head : Head} (h : readContent inside head bs = .ok (item, rest)) :
    Content inside bs head item rest := by
  unfold readContent at h
  split at h
  case h_1 n =>
    cases h
    exact .unsigned n
  case h_2 n =>
    cases h
    exact .negative n
  case h_3 =>
    split at h
    · cases h
    · rename_i hcontent
      cases h
      exact .bytes hcontent
  case h_4 =>
    split at h
    · cases h
    · rename_i hcontent
      split at h
      · cases h
      · rename_i htext
        cases h
        exact .text hcontent htext
  case h_5 =>
    split at h
    · cases h
    · split at h
      · cases h
      · rename_i hitems
        cases h
        exact .array rfl hitems
  case h_6 =>
    split at h
    · cases h
    · split at h
      · cases h
      · rename_i hentries
        cases h
        exact .map rfl hentries
  case h_7 => exact content_of_readTagged h
  case h_8 =>
    cases h
    exact .bool 20 false
  case h_9 =>
    cases h
    exact .bool 21 true
  case h_10 =>
    cases h
    exact .null 22
  case h_11 =>
    cases h
    exact .null 23
  case h_13 x =>
    cases h
    exact .float x
  case h_12 | h_14 => cases h

end Contents

end NativeScripts.Cbor
