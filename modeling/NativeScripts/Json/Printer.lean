import NativeScripts.Json.Value
import NativeScripts.Decimal.NumberStyle

/-! JSON text, either without any blanks or on indented lines. -/

namespace NativeScripts.Json

/-- Two hexadecimal digits below `0x20` are enough for a control. -/
def escapeControl (c : Char) : List Char :=
  ['\\', 'u', '0', '0'] ++ [Nat.digitChar (c.toNat / 16), Nat.digitChar (c.toNat % 16)]

def escape (c : Char) : List Char :=
  if c = '"' then ['\\', '"']
  else if c = '\\' then ['\\', '\\']
  else if c = '\x08' then ['\\', 'b']
  else if c = '\x0c' then ['\\', 'f']
  else if c = '\n' then ['\\', 'n']
  else if c = '\r' then ['\\', 'r']
  else if c = '\t' then ['\\', 't']
  else if c.toNat < 0x20 then escapeControl c
  else [c]

def quoted (s : String) : List Char :=
  '"' :: s.toList.flatMap escape ++ ['"']

def integerText (n : Int) : List Char :=
  if n < 0 then '-' :: Nat.toDigits 10 n.natAbs else Nat.toDigits 10 n.natAbs

mutual

/-- Text without blanks. -/
def compactChars : Json → List Char
  | .null => ['n', 'u', 'l', 'l']
  | .bool true => ['t', 'r', 'u', 'e']
  | .bool false => ['f', 'a', 'l', 's', 'e']
  | .integer n => integerText n
  | .real x => (NumberStyle.json.text x).toList
  | .string s => quoted s
  | .array [] => ['[', ']']
  | .array (item :: items) => '[' :: (item.compactChars ++ compactItems items) ++ [']']
  | .object [] => ['\x7b', '\x7d']
  | .object ((name, value) :: fields) =>
    '\x7b' :: (quoted name ++ ':' :: (value.compactChars ++ compactFields fields)) ++ ['\x7d']

def compactItems : List Json → List Char
  | [] => []
  | item :: items => ',' :: (item.compactChars ++ compactItems items)

def compactFields : Fields → List Char
  | [] => []
  | (name, value) :: fields =>
    ',' :: (quoted name ++ ':' :: (value.compactChars ++ compactFields fields))

end

def compact (v : Json) : String :=
  String.ofList v.compactChars

def newLine (indent : Nat) : List Char :=
  '\n' :: List.replicate (2 * indent) ' '

mutual

/-- Text with a line for each item and field, indented by two blanks a level. -/
def prettyChars (indent : Nat) : Json → List Char
  | .null => ['n', 'u', 'l', 'l']
  | .bool true => ['t', 'r', 'u', 'e']
  | .bool false => ['f', 'a', 'l', 's', 'e']
  | .integer n => integerText n
  | .real x => (NumberStyle.json.text x).toList
  | .string s => quoted s
  | .array [] => ['[', ']']
  | .array (item :: items) =>
    '[' :: (newLine (indent + 1) ++ item.prettyChars (indent + 1) ++
      prettyItems (indent + 1) items) ++ newLine indent ++ [']']
  | .object [] => ['\x7b', '\x7d']
  | .object ((name, value) :: fields) =>
    '\x7b' :: (newLine (indent + 1) ++ quoted name ++ ':' :: ' ' ::
      (value.prettyChars (indent + 1) ++ prettyFields (indent + 1) fields)) ++
      newLine indent ++ ['\x7d']

def prettyItems (indent : Nat) : List Json → List Char
  | [] => []
  | item :: items => ',' :: (newLine indent ++ item.prettyChars indent ++ prettyItems indent items)

def prettyFields (indent : Nat) : Fields → List Char
  | [] => []
  | (name, value) :: fields =>
    ',' :: (newLine indent ++ quoted name ++ ':' :: ' ' ::
      (value.prettyChars indent ++ prettyFields indent fields))

end

def pretty (v : Json) : String :=
  String.ofList (v.prettyChars 0)

end NativeScripts.Json
