import NativeScripts.Json.Numeral
import NativeScripts.Text

/-! Reading JSON text, strictly and without a limit on nesting. -/

namespace NativeScripts.Json

def isBlank (c : Char) : Bool :=
  c = ' ' || c = '\t' || c = '\n' || c = '\r'

def skipBlanks (cs : List Char) : List Char :=
  cs.dropWhile isBlank

/-- A code unit of sixteen bits by its four hexadecimal digits. -/
def codeUnit? (a b c d : Char) : Option Nat :=
  match Text.hexValue? a, Text.hexValue? b, Text.hexValue? c, Text.hexValue? d with
  | some a, some b, some c, some d => some (((a * 16 + b) * 16 + c) * 16 + d)
  | _, _, _, _ => none

def isHighSurrogate (u : Nat) : Bool :=
  0xD800 ≤ u && u < 0xDC00

def isLowSurrogate (u : Nat) : Bool :=
  0xDC00 ≤ u && u < 0xE000

/-- The character that a letter after a backslash stands for. -/
def escaped? (c : Char) : Option Char :=
  if c = '"' ∨ c = '\\' ∨ c = '/' then some c
  else if c = 'b' then some '\x08'
  else if c = 'f' then some '\x0c'
  else if c = 'n' then some '\n'
  else if c = 'r' then some '\r'
  else if c = 't' then some '\t'
  else none

/-- The characters up to the closing quotation mark. Surrogates come in pairs,
and controls only escaped. -/
def readText : List Char → Option (List Char × List Char)
  | [] => none
  | '"' :: rest => some ([], rest)
  | '\\' :: 'u' :: a :: b :: c :: d :: rest =>
    match codeUnit? a b c d with
    | none => none
    | some u =>
      if isHighSurrogate u then
        match rest with
        | '\\' :: 'u' :: a :: b :: c :: d :: rest =>
          match codeUnit? a b c d with
          | none => none
          | some v =>
            if isLowSurrogate v then
              let point := 0x10000 + (u - 0xD800) * 0x400 + (v - 0xDC00)
              (readText rest).map fun r => (Char.ofNat point :: r.1, r.2)
            else none
        | _ => none
      else if isLowSurrogate u then none
      else (readText rest).map fun r => (Char.ofNat u :: r.1, r.2)
  | '\\' :: c :: rest =>
    match escaped? c with
    | none => none
    | some e => (readText rest).map fun r => (e :: r.1, r.2)
  | c :: rest =>
    if c.toNat < 0x20 ∨ c = '\\' then none
    else (readText rest).map fun r => (c :: r.1, r.2)

/-- What `read` reads, once or more, up to the closing mark. Each time takes a
character, so fuel beyond the length of the text is never used up. -/
def readListed {α : Type} (close : Char) (read : List Char → Option (α × List Char)) :
    Nat → List Char → Option (List α × List Char)
  | 0, _ => none
  | fuel + 1, cs =>
    match read cs with
    | none => none
    | some (x, cs) =>
      match skipBlanks cs with
      | [] => none
      | c :: rest =>
        if c = close then some ([x], rest)
        else if c = ',' then (readListed close read fuel rest).map fun r => (x :: r.1, r.2)
        else none

section Containers

variable (read : List Char → Option (Json × List Char))

def readArray (cs : List Char) : Option (Json × List Char) :=
  match skipBlanks cs with
  | ']' :: rest => some (.array [], rest)
  | cs => (readListed ']' read (cs.length + 1) cs).map fun r => (.array r.1, r.2)

def readMember (cs : List Char) : Option ((String × Json) × List Char) :=
  match skipBlanks cs with
  | '"' :: rest =>
    match readText rest with
    | none => none
    | some (name, cs) =>
      match skipBlanks cs with
      | ':' :: rest => (read rest).map fun r => ((String.ofList name, r.1), r.2)
      | _ => none
  | _ => none

def readObject (cs : List Char) : Option (Json × List Char) :=
  match skipBlanks cs with
  | '\x7d' :: rest => some (.object [], rest)
  | cs =>
    (readListed '\x7d' (readMember read) (cs.length + 1) cs).map fun r =>
      (.object (fieldsOf r.1), r.2)

def readNumber (cs : List Char) : Option (Json × List Char) :=
  match readNumeral? cs with
  | none => none
  | some (numeral, rest) => numeral.toJson?.map fun value => (value, rest)

/-- A value after blanks, the values inside it being read by `read`. -/
def readValueWith (cs : List Char) : Option (Json × List Char) :=
  match skipBlanks cs with
  | 'n' :: 'u' :: 'l' :: 'l' :: rest => some (.null, rest)
  | 't' :: 'r' :: 'u' :: 'e' :: rest => some (.bool true, rest)
  | 'f' :: 'a' :: 'l' :: 's' :: 'e' :: rest => some (.bool false, rest)
  | '"' :: rest => (readText rest).map fun r => (.string (String.ofList r.1), r.2)
  | '[' :: rest => readArray read rest
  | '\x7b' :: rest => readObject read rest
  | cs => readNumber cs

end Containers

/-- A value in which arrays and objects nest less deep than `depth`. -/
def readValue : Nat → List Char → Option (Json × List Char)
  | 0, _ => none
  | depth + 1, cs => readValueWith (readValue depth) cs

/-- Each level of nesting takes a character, so there is no limit here. -/
def read? (s : String) : Option Json :=
  let cs := s.toList
  match readValue (cs.length + 1) cs with
  | none => none
  | some (value, rest) => if skipBlanks rest = [] then some value else none

end NativeScripts.Json
