import NativeScripts.Text

/-! The characters of TOML: blanks, line ends and comments, the four kinds of
string, and keys. -/

namespace NativeScripts.Toml

def isBlank (c : Char) : Bool :=
  c = ' ' || c = '\t'

def skipBlanks (cs : List Char) : List Char :=
  cs.dropWhile isBlank

/-- What may stand in a comment: all but controls, the tab excepted. -/
def isPlain (c : Char) : Bool :=
  c = '\t' || (0x20 ≤ c.toNat && c.toNat ≠ 0x7f)

/-- What follows a line feed, with or without a carriage return. -/
def dropNewline? : List Char → Option (List Char)
  | '\n' :: rest => some rest
  | '\r' :: '\n' :: rest => some rest
  | _ => none

def dropComment : List Char → List Char
  | '#' :: rest => rest.dropWhile isPlain
  | cs => cs

/-- What follows the rest of a line, which may hold a comment. -/
def dropLine? (cs : List Char) : Option (List Char) :=
  match dropComment (skipBlanks cs) with
  | [] => some []
  | cs => dropNewline? cs

/-- Skips blanks, line ends and comments that end with their lines. -/
def skipFiller : Bool → List Char → List Char
  | _, [] => []
  | _, '\n' :: rest => skipFiller false rest
  | _, '\r' :: '\n' :: rest => skipFiller false rest
  | true, c :: rest => if isPlain c then skipFiller true rest else c :: rest
  | false, c :: rest =>
    if isBlank c then skipFiller false rest
    else if c = '#' then skipFiller true rest
    else c :: rest

/-- The character with the code point given by hexadecimal digits. -/
def point? (digits : List Char) : Option Char :=
  match digits.mapM Text.hexValue? with
  | none => none
  | some values =>
    let n := values.foldl (fun n d => n * 16 + d) 0
    if n.isValidChar then some (Char.ofNat n) else none

def escaped? (c : Char) : Option Char :=
  if c = '"' ∨ c = '\\' then some c
  else if c = 'b' then some '\x08'
  else if c = 'f' then some '\x0c'
  else if c = 'n' then some '\n'
  else if c = 'r' then some '\r'
  else if c = 't' then some '\t'
  else none

/-- A text that has been read and what follows it. -/
abbrev ReadText := Option (List Char × List Char)

def ReadText.after (c : Option Char) (r : ReadText) : ReadText :=
  match c, r with
  | some c, some (cs, rest) => some (c :: cs, rest)
  | _, _ => none

/-- The rest of a string on one line, with escapes. -/
def readBasic : List Char → ReadText
  | [] => none
  | '"' :: rest => some ([], rest)
  | '\\' :: 'u' :: a :: b :: c :: d :: rest => (readBasic rest).after (point? [a, b, c, d])
  | '\\' :: 'U' :: a :: b :: c :: d :: e :: f :: g :: h :: rest =>
    (readBasic rest).after (point? [a, b, c, d, e, f, g, h])
  | '\\' :: c :: rest => (readBasic rest).after (escaped? c)
  | c :: rest => if isPlain c && c ≠ '\\' then (readBasic rest).after (some c) else none

/-- The rest of a string on one line, without escapes. -/
def readLiteral : List Char → ReadText
  | [] => none
  | '\x27' :: rest => some ([], rest)
  | c :: rest => if isPlain c then (readLiteral rest).after (some c) else none

/-- Up to two marks right after the closing three belong to the string. -/
def closeLong (mark : Char) : List Char → List Char × List Char
  | a :: b :: rest =>
    if a = mark ∧ b = mark then ([mark, mark], rest)
    else if a = mark then ([mark], b :: rest)
    else ([], a :: b :: rest)
  | [a] => if a = mark then ([mark], []) else ([], [a])
  | [] => ([], [])

/-- The rest of a string over several lines, with escapes. A backslash at the
end of a line takes the blanks and line ends after it along, and while these
are skipped the flag is set. -/
def readLongBasic : Bool → List Char → ReadText
  | _, [] => none
  | _, '"' :: '"' :: '"' :: rest => some (closeLong '"' rest)
  | skipping, '\n' :: rest =>
    if skipping then readLongBasic true rest else (readLongBasic false rest).after (some '\n')
  | skipping, '\r' :: '\n' :: rest =>
    if skipping then readLongBasic true rest else (readLongBasic false rest).after (some '\n')
  | _, '\\' :: 'u' :: a :: b :: c :: d :: rest =>
    (readLongBasic false rest).after (point? [a, b, c, d])
  | _, '\\' :: 'U' :: a :: b :: c :: d :: e :: f :: g :: h :: rest =>
    (readLongBasic false rest).after (point? [a, b, c, d, e, f, g, h])
  | _, '\\' :: c :: rest =>
    if (dropNewline? (skipBlanks (c :: rest))).isSome then readLongBasic true (c :: rest)
    else (readLongBasic false rest).after (escaped? c)
  | skipping, c :: rest =>
    if skipping && isBlank c then readLongBasic true rest
    else if isPlain c && c ≠ '\\' then (readLongBasic false rest).after (some c)
    else none

/-- The rest of a string over several lines, without escapes. -/
def readLongLiteral : List Char → ReadText
  | [] => none
  | '\x27' :: '\x27' :: '\x27' :: rest => some (closeLong '\x27' rest)
  | '\n' :: rest => (readLongLiteral rest).after (some '\n')
  | '\r' :: '\n' :: rest => (readLongLiteral rest).after (some '\n')
  | c :: rest => if isPlain c then (readLongLiteral rest).after (some c) else none

/-- A line end right after the opening marks is not part of the string. -/
def skipFirstLineEnd (cs : List Char) : List Char :=
  (dropNewline? cs).getD cs

/-- A string of any kind; the text begins with its opening mark. -/
def readString? : List Char → ReadText
  | '"' :: '"' :: '"' :: rest => readLongBasic false (skipFirstLineEnd rest)
  | '"' :: rest => readBasic rest
  | '\x27' :: '\x27' :: '\x27' :: rest => readLongLiteral (skipFirstLineEnd rest)
  | '\x27' :: rest => readLiteral rest
  | _ => none

def isBare (c : Char) : Bool :=
  c.isAlphanum || c = '-' || c = '_'

/-- One part of a key: a string on one line or a bare word. -/
def readKeyPart? : List Char → ReadText
  | '"' :: rest => readBasic rest
  | '\x27' :: rest => readLiteral rest
  | cs =>
    let word := cs.takeWhile isBare
    if word.isEmpty then none else some (word, cs.dropWhile isBare)

/-- The most parts that a key may have. -/
def keyLimit : Nat := 79

/-- At most so many parts with dots between them, in blanks if need be. -/
def readParts? : Nat → List Char → Option (List String × List Char)
  | 0, _ => none
  | n + 1, cs =>
    match readKeyPart? (skipBlanks cs) with
    | none => none
    | some (part, cs) =>
      match skipBlanks cs with
      | '.' :: rest => (readParts? n rest).map fun r => (String.ofList part :: r.1, r.2)
      | cs => some ([String.ofList part], cs)

/-- A key as the path to its last part, and that part. -/
def readKey? (cs : List Char) : Option ((List String × String) × List Char) :=
  match readParts? keyLimit cs with
  | none => none
  | some (parts, rest) => parts.getLast?.map fun name => ((parts.dropLast, name), rest)

end NativeScripts.Toml
