import NativeScripts.Toml.Text
import NativeScripts.Toml.Value

/-! Numbers in TOML. Integers have sixty-four bits with sign; a number with a
fraction or an exponent is the nearest floating-point number. -/

namespace NativeScripts.Toml

/-- The digits at the front of a text, a single underscore between two of them
being passed over. -/
def takeDigits (isDigit : Char → Bool) : List Char → List Char × List Char
  | [] => ([], [])
  | '_' :: d :: rest =>
    if isDigit d then
      let (digits, rest) := takeDigits isDigit rest
      (d :: digits, rest)
    else ([], '_' :: d :: rest)
  | c :: rest =>
    if isDigit c then
      let (digits, rest) := takeDigits isDigit rest
      (c :: digits, rest)
    else ([], c :: rest)

/-- Digits of which the first stands at the front. -/
def readDigits? (isDigit : Char → Bool) : List Char → Option (List Char × List Char)
  | [] => none
  | c :: rest =>
    if isDigit c then
      let (digits, rest) := takeDigits isDigit rest
      some (c :: digits, rest)
    else none

def valueOf (radix : Nat) (digits : List Char) : Nat :=
  digits.foldl (fun n c => n * radix + (Text.hexValue? c).getD 0) 0

/-- Whether an integer fits sixty-four bits with sign. -/
def fits (n : Int) : Bool :=
  -0x8000000000000000 ≤ n && n < 0x8000000000000000

def integer? (n : Int) : Option Value :=
  if fits n then some (.integer n) else none

def isHexDigit (c : Char) : Bool :=
  (Text.hexValue? c).isSome

def isOctalDigit (c : Char) : Bool :=
  '0' ≤ c && c ≤ '7'

def isBinaryDigit (c : Char) : Bool :=
  c = '0' || c = '1'

def readRadix? (radix : Nat) (isDigit : Char → Bool) (cs : List Char) :
    Option (Value × List Char) := do
  let (digits, rest) ← readDigits? isDigit cs
  let value ← integer? (valueOf radix digits)
  some (value, rest)

/-- No zero stands in front of other digits. -/
def readWhole? : List Char → Option (List Char × List Char)
  | '0' :: rest => some (['0'], rest)
  | cs => readDigits? Char.isDigit cs

def readFraction? : List Char → Option (List Char × List Char)
  | '.' :: rest => readDigits? Char.isDigit rest
  | _ => none

/-- The exponent after its letter. -/
def readExponent? : List Char → Option (Int × List Char)
  | [] => none
  | c :: rest =>
    let signed (sign : Int) (cs : List Char) : Option (Int × List Char) :=
      (readDigits? Char.isDigit cs).map fun r => (sign * (valueOf 10 r.1 : Int), r.2)
    if c = 'e' ∨ c = 'E' then
      match rest with
      | '+' :: rest => signed 1 rest
      | '-' :: rest => signed (-1) rest
      | rest => signed 1 rest
    else none

/-- The float nearest to `n` times a power of ten. An exponent beyond what the
number of digits can outweigh is cut down first. -/
def nearestReal (negative : Bool) (n : Nat) (exponent : Int) : Binary64 :=
  let bound : Int := 400 + (Nat.toDigits 10 n).length
  let exponent := max (-bound) (min bound exponent)
  if 0 ≤ exponent then Binary64.nearest negative (n * Nat.pow 10 exponent.toNat) 1
  else Binary64.nearest negative n (Nat.pow 10 exponent.natAbs)

/-- A number too great to be finite is refused, unless it is negative. -/
def real? (negative : Bool) (digits fraction : List Char) (exponent : Int) : Option Value :=
  let x := nearestReal negative (valueOf 10 (digits ++ fraction)) (exponent - fraction.length)
  if x.isFinite || negative then some (.real x) else none

def readUnsigned? (negative : Bool) (cs : List Char) : Option (Value × List Char) := do
  let (whole, cs) ← readWhole? cs
  match readFraction? cs, readExponent? cs with
  | some (fraction, cs), _ =>
    let (exponent, cs) := (readExponent? cs).getD (0, cs)
    let value ← real? negative whole fraction exponent
    some (value, cs)
  | none, some (exponent, cs) =>
    let value ← real? negative whole [] exponent
    some (value, cs)
  | none, none =>
    let n : Int := valueOf 10 whole
    let value ← integer? (if negative then -n else n)
    some (value, cs)

def readSpecial? (negative : Bool) : List Char → Option (Value × List Char)
  | 'i' :: 'n' :: 'f' :: rest => some (.real (Binary64.infinity negative), rest)
  | 'n' :: 'a' :: 'n' :: rest => some (.real ⟨0x7ff8000000000000⟩, rest)
  | cs => readUnsigned? negative cs

def readNumber? : List Char → Option (Value × List Char)
  | '+' :: rest => readSpecial? false rest
  | '-' :: rest => readSpecial? true rest
  | '0' :: 'x' :: rest => readRadix? 16 isHexDigit rest
  | '0' :: 'o' :: rest => readRadix? 8 isOctalDigit rest
  | '0' :: 'b' :: rest => readRadix? 2 isBinaryDigit rest
  | cs => readSpecial? false cs

end NativeScripts.Toml
