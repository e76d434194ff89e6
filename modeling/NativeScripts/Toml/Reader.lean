import NativeScripts.Toml.Moment
import NativeScripts.Toml.Number

/-! TOML documents. Brackets and braces nest to a fixed depth. -/

namespace NativeScripts.Toml

/-- Reads a value from the front of a text and leaves the rest. -/
abbrev ReadValue := List Char → Option (Value × List Char)

section Containers

variable (read : ReadValue)

/-- Values up to the closing bracket, before which a comma may stand. Every
value takes a character, so fuel beyond their number is never used up. -/
def readItems : Nat → List Char → Option (List Value × List Char)
  | 0, _ => none
  | fuel + 1, cs =>
    match skipFiller false cs with
    | ']' :: rest => some ([], rest)
    | cs =>
      match read cs with
      | none => none
      | some (value, cs) =>
        match skipFiller false cs with
        | ']' :: rest => some ([value], rest)
        | ',' :: rest => (readItems fuel rest).map fun r => (value :: r.1, r.2)
        | _ => none

/-- A key, an equals sign and a value, on one line. -/
def readPair? (cs : List Char) : Option ((List String × String) × Value × List Char) :=
  match readKey? cs with
  | none => none
  | some (key, '=' :: cs) =>
    (read (skipBlanks cs)).map fun r => (key, r.1, r.2)
  | some _ => none

/-- Pairs up to the closing brace, at least one, added to a table. -/
def readPairs : Nat → Entries → List Char → Option (Entries × List Char)
  | 0, _, _ => none
  | fuel + 1, entries, cs =>
    match readPair? read cs with
    | none => none
    | some ((path, name), value, cs) =>
      match entries.insert path name value .braced with
      | none => none
      | some entries =>
        match skipBlanks cs with
        | '\x7d' :: rest => some (entries, rest)
        | ',' :: rest => readPairs fuel entries rest
        | _ => none

def readBraces (cs : List Char) : Option (Entries × List Char) :=
  match skipBlanks cs with
  | '\x7d' :: rest => some ([], rest)
  | cs => readPairs read (cs.length + 1) [] cs

end Containers

def readScalar? (cs : List Char) : Option (Value × List Char) :=
  match cs with
  | 't' :: 'r' :: 'u' :: 'e' :: rest => some (.bool true, rest)
  | 'f' :: 'a' :: 'l' :: 's' :: 'e' :: rest => some (.bool false, rest)
  | _ =>
    match readString? cs with
    | some (text, rest) => some (.text (String.ofList text), rest)
    | none =>
      match readMoment? cs with
      | some (text, rest) => some (.moment text, rest)
      | none => readNumber? cs

/-- A value in which brackets and braces nest no deeper than `depth`. -/
def readValue : Nat → ReadValue
  | depth + 1, '[' :: rest =>
    (readItems (readValue depth) (rest.length + 1) rest).map fun r => (.array r.1, r.2)
  | depth + 1, '\x7b' :: rest =>
    (readBraces (readValue depth) rest).map fun r => (.table .braced r.1, r.2)
  | _, cs => readScalar? cs

def depthLimit : Nat := 79

/-- What has been read so far, and the header under which the next pairs go. -/
structure Document where
  entries : Entries
  header? : Option (List String × String)

namespace Document

def empty : Document := ⟨[], none⟩

def path (d : Document) : List String :=
  match d.header? with
  | none => []
  | some (path, name) => path ++ [name]

def addPair (d : Document) (path : List String) (name : String) (value : Value) :
    Option Document :=
  (Entries.within false d.path (fun origin entries => entries.insert path name value origin)
    .header d.entries).map fun entries => ⟨entries, d.header?⟩

def openTable (d : Document) (key : List String × String) : Option Document :=
  (d.entries.openTable key.1 key.2).map fun entries => ⟨entries, some key⟩

def openItem (d : Document) (key : List String × String) : Option Document :=
  (d.entries.openItem key.1 key.2).map fun entries => ⟨entries, some key⟩

/-- One line that is neither blank nor a comment, and what follows it. -/
def readLine (d : Document) (cs : List Char) : Option (Document × List Char) :=
  match cs with
  | '[' :: '[' :: rest =>
    match readKey? rest with
    | some (key, ']' :: ']' :: rest) => do
      let rest ← dropLine? rest
      let d ← d.openItem key
      some (d, rest)
    | _ => none
  | '[' :: rest =>
    match readKey? rest with
    | some (key, ']' :: rest) => do
      let rest ← dropLine? rest
      let d ← d.openTable key
      some (d, rest)
    | _ => none
  | cs => do
    let ((path, name), value, rest) ← readPair? (readValue depthLimit) cs
    let rest ← dropLine? rest
    let d ← d.addPair path name value
    some (d, rest)

/-- All lines of a text. Every line takes a character, so fuel beyond their
number is never used up. -/
def readLines : Nat → Document → List Char → Option Document
  | 0, _, _ => none
  | fuel + 1, d, cs =>
    match skipFiller false cs with
    | [] => some d
    | cs =>
      match d.readLine cs with
      | none => none
      | some (d, rest) => readLines fuel d rest

end Document

/-- A mark for the order of bytes may stand first. -/
def skipOrderMark : List Char → List Char
  | c :: rest => if c.toNat = 0xFEFF then rest else c :: rest
  | [] => []

/-- The entries of the outermost table. -/
def read? (s : String) : Option Entries :=
  let cs := skipOrderMark s.toList
  (Document.readLines (cs.length + 1) .empty cs).map Document.entries

end NativeScripts.Toml
