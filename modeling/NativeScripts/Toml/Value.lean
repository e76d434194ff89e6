import NativeScripts.Decimal.Binary64

/-! TOML values, and how a table comes to hold them. A table remembers how it
came about, because that decides who may still add to it. -/

namespace NativeScripts.Toml

inductive Origin where
  /-- Under a header of its own. -/
  | header
  /-- Only named on the way to some header. -/
  | implied
  /-- Made by a dotted key. -/
  | dotted
  /-- Between braces. -/
  | braced
  deriving DecidableEq

/-- The tables of an array of tables are kept with the last apart, since it is
the one that is added to. -/
inductive Value where
  | text (s : String)
  | integer (n : Int)
  | real (x : Binary64)
  | bool (b : Bool)
  | moment (s : String)
  | array (items : List Value)
  | table (origin : Origin) (entries : List (String × Value))
  | tables (earlier : List (List (String × Value))) (last : List (String × Value))

abbrev Entries := List (String × Value)

namespace Entries

/-- Replaces what stands under a name, or adds it at the end. -/
def alter (name : String) (f : Option Value → Option Value) : Entries → Option Entries
  | [] => (f none).map fun v => [(name, v)]
  | (k, v) :: rest =>
    if k = name then (f (some v)).map fun v => (k, v) :: rest
    else (alter name f rest).map fun rest => (k, v) :: rest

/-- Whether a path may lead through a table. Nothing is added to what stands
between braces, and no dotted key leads through a table with a header. -/
def passable (dotted : Bool) : Origin → Bool
  | .header => !dotted
  | .implied => true
  | .dotted => true
  | .braced => false

/-- Follows a path, making the tables that are missing, and changes what is at
its end. -/
def within (dotted : Bool) : List String → (Origin → Entries → Option Entries) →
    Origin → Entries → Option Entries
  | [], f, origin, entries => f origin entries
  | name :: path, f, _, entries =>
    entries.alter name fun
      | none =>
        let origin := if dotted then .dotted else .implied
        (within dotted path f origin []).map (.table origin)
      | some (.table origin inner) =>
        if passable dotted origin then (within dotted path f origin inner).map (.table origin)
        else none
      | some (.tables earlier last) => (within dotted path f .header last).map (.tables earlier)
      | some _ => none

/-- Adds a value under a new name. A dotted key adds only to a table that
dotted keys have made. -/
def insert (path : List String) (name : String) (value : Value) (origin : Origin)
    (entries : Entries) : Option Entries :=
  let place (origin : Origin) (entries : Entries) : Option Entries :=
    if path.isEmpty || origin = .dotted then
      entries.alter name fun
        | none => some value
        | some _ => none
    else none
  within true path place origin entries

/-- Gives a table its header, which a table has but once. -/
def openTable (path : List String) (name : String) (entries : Entries) : Option Entries :=
  within false path
    (fun _ entries =>
      entries.alter name fun
        | none => some (.table .header [])
        | some (.table .implied inner) => some (.table .header inner)
        | some _ => none)
    .header entries

/-- Begins one more table in an array of tables. -/
def openItem (path : List String) (name : String) (entries : Entries) : Option Entries :=
  within false path
    (fun _ entries =>
      entries.alter name fun
        | none => some (.tables [] [])
        | some (.tables earlier last) => some (.tables (earlier ++ [last]) [])
        | some _ => none)
    .header entries

end Entries

end NativeScripts.Toml
