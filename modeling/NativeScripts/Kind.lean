/-! The six kinds of script, with their names in JSON and their tags in CBOR.
The time locks came last; the other four are as old as scripts are. -/

namespace NativeScripts

inductive Kind where
  | sig
  | all
  | any
  | atLeast
  | after
  | before
  deriving DecidableEq

namespace Kind

def every : List Kind :=
  [.sig, .all, .any, .atLeast, .after, .before]

def name : Kind → String
  | .sig => "sig"
  | .all => "all"
  | .any => "any"
  | .atLeast => "atLeast"
  | .after => "after"
  | .before => "before"

def tag : Kind → UInt64
  | .sig => 0
  | .all => 1
  | .any => 2
  | .atLeast => 3
  | .after => 4
  | .before => 5

def ofName? (s : String) : Option Kind :=
  every.find? fun k => k.name = s

def ofTag? (n : UInt64) : Option Kind :=
  every.find? fun k => k.tag = n

theorem ofName?_name (k : Kind) : ofName? k.name = some k := by
  cases k <;> decide

theorem ofTag?_tag (k : Kind) : ofTag? k.tag = some k := by
  cases k <;> decide

theorem ofTag?_eq_some {n : UInt64} {k : Kind} : ofTag? n = some k ↔ n = k.tag := by
  constructor
  · intro h
    simpa [eq_comm] using List.find?_some h
  · rintro rfl
    exact ofTag?_tag k

theorem ofName?_eq_some {s : String} {k : Kind} : ofName? s = some k ↔ s = k.name := by
  constructor
  · intro h
    simpa [eq_comm] using List.find?_some h
  · rintro rfl
    exact ofName?_name k

def isTimeLock (k : Kind) : Bool :=
  k == .after || k == .before

end Kind

end NativeScripts
