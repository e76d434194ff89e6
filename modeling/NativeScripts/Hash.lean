import NativeScripts.Hex

/-! Hashes of twenty-eight bytes. A key hash names a signer and a script hash
names a script; the two differ in nothing but what they name. -/

namespace NativeScripts

inductive HashKind where
  | key
  | script
  deriving DecidableEq

/-- What messages call a hash of this kind. -/
def HashKind.label : HashKind → String
  | .key => "public key hash"
  | .script => "script hash"

def hashLength : Nat := 28

structure Hash (kind : HashKind) where
  bytes : Bytes
  length_eq : bytes.length = hashLength
  deriving DecidableEq

abbrev KeyHash := Hash .key

abbrev ScriptHash := Hash .script

inductive HashFault where
  | notHex (kind : HashKind) (text : String) (fault : Hex.Fault)
  | wrongLength (kind : HashKind) (length : Nat)
  deriving DecidableEq

def HashFault.message : HashFault → String
  | .notHex kind text fault =>
    kind.label ++ " '" ++ text ++ "' is not valid hex: " ++ fault.message
  | .wrongLength kind length =>
    kind.label ++ " must be " ++ toString hashLength ++ " bytes, got " ++ toString length

namespace Hash

variable {kind : HashKind}

theorem ext {a b : Hash kind} (h : a.bytes = b.bytes) : a = b := by
  cases a
  cases b
  cases h
  rfl

/-- The hash that is one byte throughout. -/
def filled (b : UInt8) : Hash kind :=
  ⟨List.replicate hashLength b, List.length_replicate⟩

def ofBytes? (bs : Bytes) : Option (Hash kind) :=
  if h : bs.length = hashLength then some ⟨bs, h⟩ else none

theorem ofBytes?_eq_some {bs : Bytes} {h : Hash kind} : ofBytes? bs = some h ↔ bs = h.bytes := by
  have hl := h.length_eq
  rw [ofBytes?]
  split
  · rw [Option.some.injEq]
    exact ⟨fun he => he ▸ rfl, fun he => ext he⟩
  · rename_i hne
    simp only [reduceCtorEq, false_iff]
    rintro rfl
    exact hne hl

def ofBytes (bs : Bytes) : Except HashFault (Hash kind) :=
  match ofBytes? bs with
  | some h => .ok h
  | none => .error (.wrongLength kind bs.length)

/-- Digits are judged before the length. -/
def ofHex (s : String) : Except HashFault (Hash kind) :=
  match Hex.decode s with
  | .error fault => .error (.notHex kind s fault)
  | .ok bs => ofBytes bs

def toHex (h : Hash kind) : String :=
  Hex.encode h.bytes

/-- Hashes are ordered by their bytes, the first difference deciding. -/
instance : LT (Hash kind) where
  lt a b := a.bytes < b.bytes

instance (a b : Hash kind) : Decidable (a < b) :=
  inferInstanceAs (Decidable (a.bytes < b.bytes))

end Hash

end NativeScripts
