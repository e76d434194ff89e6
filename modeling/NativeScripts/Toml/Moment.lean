import NativeScripts.Toml.Text

/-! Dates and times in TOML. Only their extent matters here, together with the
ranges that their fields keep. -/

namespace NativeScripts.Toml

/-- A field of exactly so many digits. -/
def readField? : Nat → List Char → Option (Nat × List Char)
  | 0, cs => some (0, cs)
  | _ + 1, [] => none
  | width + 1, c :: cs =>
    if c.isDigit then
      (readField? width cs).map fun r => ((c.toNat - 48) * Nat.pow 10 width + r.1, r.2)
    else none

/-- A field of two digits, from `low` to `high`. -/
def readWithin? (low high : Nat) (cs : List Char) : Option (Nat × List Char) :=
  match readField? 2 cs with
  | none => none
  | some (n, rest) => if low ≤ n ∧ n ≤ high then some (n, rest) else none

def drop? (c : Char) : List Char → Option (List Char)
  | a :: rest => if a = c then some rest else none
  | [] => none

def isLeapYear (year : Nat) : Bool :=
  year % 4 = 0 && (year % 100 ≠ 0 || year % 400 = 0)

def daysInMonth (year month : Nat) : Nat :=
  if month = 2 then (if isLeapYear year then 29 else 28)
  else if month = 4 ∨ month = 6 ∨ month = 9 ∨ month = 11 then 30
  else 31

def dropDate? (cs : List Char) : Option (List Char) := do
  let (year, cs) ← readField? 4 cs
  let cs ← drop? '-' cs
  let (month, cs) ← readWithin? 1 12 cs
  let cs ← drop? '-' cs
  let (_, cs) ← readWithin? 1 (daysInMonth year month) cs
  some cs

def dropFraction (cs : List Char) : List Char :=
  match cs with
  | '.' :: c :: rest => if c.isDigit then rest.dropWhile Char.isDigit else cs
  | _ => cs

/-- A minute may have sixty-one seconds. -/
def dropTime? (cs : List Char) : Option (List Char) := do
  let (_, cs) ← readWithin? 0 23 cs
  let cs ← drop? ':' cs
  let (_, cs) ← readWithin? 0 59 cs
  let cs ← drop? ':' cs
  let (_, cs) ← readWithin? 0 60 cs
  some (dropFraction cs)

def dropOffset? : List Char → Option (List Char)
  | [] => none
  | c :: cs =>
    if c = 'Z' ∨ c = 'z' then some cs
    else if c = '+' ∨ c = '-' then do
      let (_, cs) ← readWithin? 0 23 cs
      let cs ← drop? ':' cs
      let (_, cs) ← readWithin? 0 59 cs
      some cs
    else none

/-- The time of a day, after a letter or a blank. -/
def dropTimeOfDay? : List Char → Option (List Char)
  | [] => none
  | c :: cs =>
    if c = 'T' ∨ c = 't' ∨ c = ' ' then
      (dropTime? cs).map fun cs => (dropOffset? cs).getD cs
    else none

def dropMoment? (cs : List Char) : Option (List Char) :=
  match dropDate? cs with
  | some rest => some ((dropTimeOfDay? rest).getD rest)
  | none => dropTime? cs

/-- A date, a time or both, as they stand in the text. -/
def readMoment? (cs : List Char) : Option (String × List Char) :=
  (dropMoment? cs).map fun rest => (String.ofList (cs.take (cs.length - rest.length)), rest)

end NativeScripts.Toml
