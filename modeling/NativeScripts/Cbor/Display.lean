import NativeScripts.Cbor.Item
import NativeScripts.Decimal.NumberStyle
import NativeScripts.Text

/-! CBOR items as messages show them: in full, with the name of each node, or
in a few words that tell what kind of item was met. -/

namespace NativeScripts.Cbor

def boolText (b : Bool) : String :=
  if b then "true" else "false"

def listText (texts : List String) : String :=
  "[" ++ String.intercalate ", " texts ++ "]"

namespace Item

mutual

/-- The whole tree. -/
def display : Item → String
  | .integer n => "Integer(Integer(" ++ toString n ++ "))"
  | .bytes content => "Bytes(" ++ listText (content.map fun b => toString b.toNat) ++ ")"
  | .text content => "Text(" ++ Text.quote content ++ ")"
  | .float x => "Float(" ++ NumberStyle.item.text x ++ ")"
  | .bool b => "Bool(" ++ boolText b ++ ")"
  | .null => "Null"
  | .array items => "Array(" ++ listText (displayAll items) ++ ")"
  | .map entries => "Map(" ++ listText (displayEntries entries) ++ ")"
  | .tag number content => "Tag(" ++ toString number ++ ", " ++ content.display ++ ")"

def displayAll : List Item → List String
  | [] => []
  | item :: items => item.display :: displayAll items

def displayEntries : List (Item × Item) → List String
  | [] => []
  | (key, value) :: entries =>
    ("(" ++ key.display ++ ", " ++ value.display ++ ")") :: displayEntries entries

end

/-- What was met where something else was wanted, numbers being written in the
style given. -/
def describe (style : NumberStyle) : Item → String
  | .integer n =>
    if n < -0x8000000000000000 then "large integer" else "integer `" ++ toString n ++ "`"
  | .bytes _ => "byte array"
  | .text content => "string " ++ Text.quote content
  | .float x => "floating point `" ++ style.text x ++ "`"
  | .bool b => "boolean `" ++ boolText b ++ "`"
  | .null => "null"
  | .array _ => "sequence"
  | .map _ => "map"
  | .tag _ _ => "tag"

end Item

end NativeScripts.Cbor
