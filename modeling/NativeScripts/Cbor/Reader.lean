import NativeScripts.Cbor.Item

/-! Reading one CBOR item from the front of a byte string. How deep arrays,
maps and tags may nest is a parameter, and the first fault from the left is
the one reported. -/

namespace NativeScripts.Cbor

inductive StringKind where
  | bytes
  | text
  deriving DecidableEq

/-- The length in a head of this kind of string. -/
def StringKind.length? : StringKind → Head → Option (Option Nat)
  | .bytes, .bytes length => some length
  | .text, .text length => some length
  | _, _ => none

/-- How many bytes of a long text are judged at a time. -/
def portionLength : Nat := 4096

theorem length_drop_portion_lt {bs : Bytes} {k : Nat} (hl : ¬bs.length < portionLength)
    (hk : k < portionLength) : (bs.drop (portionLength - k)).length < bs.length := by
  simp only [List.length_drop]
  omega

/-- Whether one of the full portions at the front is ill formed. A character
that the end of a portion cuts is left to the next. -/
def spoilsPortion (bs : Bytes) : Bool :=
  if bs.length < portionLength then false
  else
    match [0, 1, 2, 3].find? fun k => (Bytes.toText? (bs.take (portionLength - k))).isSome with
    | none => true
    | some k =>
      if k < portionLength then spoilsPortion (bs.drop (portionLength - k))
      else false
termination_by bs.length
decreasing_by exact length_drop_portion_lt ‹_› ‹_›

/-- A piece of text has to be well formed by itself. One that breaks off early
is judged as far as its portions go. -/
def readPiece (kind : StringKind) (n : Nat) : Reader Bytes := fun bs =>
  match readBytes n bs with
  | .error fault => .error (if kind = .text ∧ spoilsPortion bs then .illFormed else fault)
  | .ok (piece, rest) =>
    if kind = .text ∧ piece.toText? = none then .error .illFormed else .ok (piece, rest)

/-- The pieces up to the stop of the outermost of the `opened` strings. Every
step takes a byte, so fuel beyond the number of bytes is never used up. -/
def readPieces (kind : StringKind) : Nat → Nat → Reader Bytes
  | 0, _, _ => .error .early
  | fuel + 1, opened, bs =>
    match readHead bs with
    | .error fault => .error fault
    | .ok (.stop, rest) =>
      if opened ≤ 1 then .ok ([], rest) else readPieces kind fuel (opened - 1) rest
    | .ok (head, rest) =>
      match kind.length? head with
      | none => .error .illFormed
      | some none => readPieces kind fuel (opened + 1) rest
      | some (some n) =>
        match readPiece kind n rest with
        | .error fault => .error fault
        | .ok (piece, rest) =>
          match readPieces kind fuel opened rest with
          | .error fault => .error fault
          | .ok (pieces, rest) => .ok (piece ++ pieces, rest)

def readString (kind : StringKind) : Option Nat → Reader Bytes
  | some n, bs => readPiece kind n bs
  | none, bs => readPieces kind (bs.length + 1) 1 bs

section Series

variable {α : Type} (read : Reader α)

def readMany : Nat → Reader (List α)
  | 0, bs => .ok ([], bs)
  | n + 1, bs =>
    match read bs with
    | .error fault => .error fault
    | .ok (x, bs) =>
      match readMany n bs with
      | .error fault => .error fault
      | .ok (xs, bs) => .ok (x :: xs, bs)

def readUntilStop : Nat → Reader (List α)
  | 0, _ => .error .early
  | fuel + 1, bs =>
    match readHead bs with
    | .error fault => .error fault
    | .ok (.stop, rest) => .ok ([], rest)
    | .ok (_, _) =>
      match read bs with
      | .error fault => .error fault
      | .ok (x, bs) =>
        match readUntilStop fuel bs with
        | .error fault => .error fault
        | .ok (xs, bs) => .ok (x :: xs, bs)

def readSeries : Option Nat → Reader (List α)
  | some n, bs => readMany read n bs
  | none, bs => readUntilStop read (bs.length + 1) bs

def readEntry : Reader (α × α) := fun bs =>
  match read bs with
  | .error fault => .error fault
  | .ok (key, bs) =>
    match read bs with
    | .error fault => .error fault
    | .ok (value, bs) => .ok ((key, value), bs)

end Series

/-- A number spelled as bytes, after the tag for its sign. One that has a head
of its own is an integer like any other. -/
def Item.ofBigNumber (negative : Bool) (n : Nat) : Except ReadFault Item :=
  if n < UInt64.size then .ok (.integer (if negative then -1 - (n : Int) else n))
  else if negative ∧ 0x80000000000000000000000000000000 ≤ n then .error .unsupported
  else .ok (.tag (if negative then 3 else 2) (.bytes (Bytes.ofNatMinimal n)))

/-- The most bytes that spell a number. -/
def bigNumberLength : Nat := 16

/-- The reader for what a container holds, if it may hold anything. -/
abbrev Inside := Option (Reader Item)

/-- The head after a tag is read before the depth counts, so a fault in that
head comes first, and a number spelled as bytes lies no deeper than its tag. -/
def readTagged (inside : Inside) (number : Nat) : Reader Item := fun bs =>
  let wrapped : Except ReadFault (Item × Bytes) :=
    match inside with
    | none => .error .tooDeep
    | some read =>
      match read bs with
      | .error fault => .error fault
      | .ok (content, rest) => .ok (.tag number content, rest)
  match readHead bs with
  | .error fault => .error fault
  | .ok (.bytes (some n), rest) =>
    if (number = 2 ∨ number = 3) ∧ n ≤ bigNumberLength then
      match readBytes n rest with
      | .error fault => .error fault
      | .ok (digits, rest) =>
        match Item.ofBigNumber (number = 3) digits.toNat with
        | .error fault => .error fault
        | .ok item => .ok (item, rest)
    else wrapped
  | .ok (_, _) => wrapped

def readContent (inside : Inside) : Head → Reader Item
  | .unsigned n, bs => .ok (.integer n, bs)
  | .negative n, bs => .ok (.integer (-1 - (n : Int)), bs)
  | .bytes length, bs =>
    match readString .bytes length bs with
    | .error fault => .error fault
    | .ok (content, rest) => .ok (.bytes content, rest)
  | .text length, bs =>
    match readString .text length bs with
    | .error fault => .error fault
    | .ok (content, rest) =>
      match content.toText? with
      | none => .error .illFormed
      | some text => .ok (.text text, rest)
  | .array length, bs =>
    match inside with
    | none => .error .tooDeep
    | some read =>
      match readSeries read length bs with
      | .error fault => .error fault
      | .ok (items, rest) => .ok (.array items, rest)
  | .map length, bs =>
    match inside with
    | none => .error .tooDeep
    | some read =>
      match readSeries (readEntry read) length bs with
      | .error fault => .error fault
      | .ok (entries, rest) => .ok (.map entries, rest)
  | .tag number, bs => readTagged inside number bs
  | .simple 20, bs => .ok (.bool false, bs)
  | .simple 21, bs => .ok (.bool true, bs)
  | .simple 22, bs => .ok (.null, bs)
  | .simple 23, bs => .ok (.null, bs)
  | .simple _, _ => .error .unsupported
  | .float x, bs => .ok (.float x, bs)
  | .stop, _ => .error .unsupported

def readItemWith (inside : Inside) : Reader Item := fun bs =>
  match readHead bs with
  | .error fault => .error fault
  | .ok (head, rest) => readContent inside head rest

/-- An item in which arrays, maps and tags nest no deeper than `depth`. -/
def readItem : Nat → Reader Item
  | 0, bs => readItemWith none bs
  | depth + 1, bs => readItemWith (some (readItem depth)) bs

/-- Each level of nesting takes a byte, so this sets no limit. -/
def Item.read : Reader Item := fun bs =>
  readItem bs.length bs

end NativeScripts.Cbor
