import NativeScripts.Bytes
import NativeScripts.Decimal.Binary64

/-! Heads of CBOR items. The first byte holds a major type and either a small
argument or the width of the argument that follows it. -/

namespace NativeScripts.Cbor

/-- Why bytes hold no CBOR item. -/
inductive ReadFault where
  | early
  | illFormed
  | unsupported
  | tooDeep
  deriving DecidableEq

def ReadFault.message : ReadFault → String
  | .early => "Io"
  | .illFormed => "Syntax"
  | .unsupported => "Semantic"
  | .tooDeep => "RecursionLimitExceeded"

/-- Reads a value from the front of the bytes and leaves the rest. -/
abbrev Reader (α : Type) := Bytes → Except ReadFault (α × Bytes)

def readBytes (n : Nat) : Reader Bytes := fun bs =>
  match bs.split? n with
  | some r => .ok r
  | none => .error .early

/-- A string, array or map without a length lasts until a stop. -/
inductive Head where
  | unsigned (n : Nat)
  | negative (n : Nat)
  | bytes (length : Option Nat)
  | text (length : Option Nat)
  | array (length : Option Nat)
  | map (length : Option Nat)
  | tag (number : Nat)
  | simple (number : Nat)
  | float (x : Binary64)
  | stop
  deriving DecidableEq

/-- The argument named by the low five bits of the first byte, none standing
for an absent length. -/
def readArgument (info : Nat) : Reader (Option Nat) := fun bs =>
  let following (width : Nat) : Except ReadFault (Option Nat × Bytes) :=
    match readBytes width bs with
    | .ok (argument, rest) => .ok (some argument.toNat, rest)
    | .error fault => .error fault
  if info < 24 then .ok (some info, bs)
  else if info = 24 then following 1
  else if info = 25 then following 2
  else if info = 26 then following 4
  else if info = 27 then following 8
  else if info = 31 then .ok (none, bs)
  else .error .illFormed

/-- In major type seven the width of the argument tells floats from simple
values. -/
def Head.ofParts (major info : Nat) (argument : Option Nat) : Except ReadFault Head :=
  match major, argument with
  | 0, some n => .ok (.unsigned n)
  | 1, some n => .ok (.negative n)
  | 2, length => .ok (.bytes length)
  | 3, length => .ok (.text length)
  | 4, length => .ok (.array length)
  | 5, length => .ok (.map length)
  | 6, some n => .ok (.tag n)
  | 7, none => .ok .stop
  | 7, some n =>
    if info = 25 then .ok (.float (Binary64.ofNarrow 5 10 n))
    else if info = 26 then .ok (.float (Binary64.ofNarrow 8 23 n))
    else if info = 27 then .ok (.float ⟨UInt64.ofNat n⟩)
    else .ok (.simple n)
  | _, _ => .error .illFormed

def readHead : Reader Head
  | [] => .error .early
  | first :: rest =>
    let info := first.toNat % 32
    match readArgument info rest with
    | .error fault => .error fault
    | .ok (argument, rest) =>
      match Head.ofParts (first.toNat / 32) info argument with
      | .error fault => .error fault
      | .ok head => .ok (head, rest)

/-- The shortest head of the given major type with argument `n`. -/
def headBytes (major n : Nat) : Bytes :=
  let first (info : Nat) : UInt8 := UInt8.ofNat (32 * major + info)
  if n < 24 then [first n]
  else if n < UInt8.size then first 24 :: Bytes.ofNat 1 n
  else if n < UInt16.size then first 25 :: Bytes.ofNat 2 n
  else if n < UInt32.size then first 26 :: Bytes.ofNat 4 n
  else first 27 :: Bytes.ofNat 8 n

end NativeScripts.Cbor
