import NativeScripts.Cbor.Item

/-! JSON values. The fields of an object that has been read are in ascending
order of their names, each name once. -/

namespace NativeScripts

inductive Json where
  | null
  | bool (b : Bool)
  | integer (n : Int)
  | real (x : Binary64)
  | string (s : String)
  | array (items : List Json)
  | object (fields : List (String × Json))

namespace Json

abbrev Fields := List (String × Json)

def get? (fields : Fields) (name : String) : Option Json :=
  fields.lookup name

theorem sizeOf_lt_of_get? {fields : Fields} {name : String} {value : Json}
    (h : get? fields name = some value) : sizeOf value < sizeOf fields := by
  induction fields with
  | nil => simp [get?] at h
  | cons f fs ih =>
    obtain ⟨k, v⟩ := f
    simp only [get?, List.lookup_cons] at h ih
    simp only [List.cons.sizeOf_spec, Prod.mk.sizeOf_spec]
    split at h
    · cases h
      omega
    · have := ih h
      omega

/-- A field of the same name is replaced. -/
def put (name : String) (value : Json) : Fields → Fields
  | [] => [(name, value)]
  | (k, v) :: rest =>
    if name < k then (name, value) :: (k, v) :: rest
    else if name = k then (name, value) :: rest
    else (k, v) :: put name value rest

/-- The fields of an object, of which the last with a name counts. -/
def fieldsOf (members : List (String × Json)) : Fields :=
  members.foldl (fun fields m => put m.1 m.2 fields) []

def asString? : Json → Option String
  | .string s => some s
  | _ => none

/-- An unsigned integer of sixty-four bits. -/
def asWord? : Json → Option UInt64
  | .integer n => if 0 ≤ n ∧ n < UInt64.size then some (UInt64.ofNat n.toNat) else none
  | _ => none

mutual

/-- The same value as a CBOR item. -/
def toItem : Json → Cbor.Item
  | .null => .null
  | .bool b => .bool b
  | .integer n => .integer n
  | .real x => .float x
  | .string s => .text s
  | .array items => .array (toItems items)
  | .object fields => .map (toEntries fields)

def toItems : List Json → List Cbor.Item
  | [] => []
  | item :: items => item.toItem :: toItems items

def toEntries : Fields → List (Cbor.Item × Cbor.Item)
  | [] => []
  | (name, value) :: fields => (.text name, value.toItem) :: toEntries fields

end

end Json

end NativeScripts
