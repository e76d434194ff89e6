import NativeScripts.Proofs.Json.Compact

/-! Values that are read back from their text on indented lines. It has a line break or
a blank at some of the places where blanks may stand, and at no other. -/

namespace NativeScripts.Json

theorem blanks_newLine (indent : Nat) : Blanks (newLine indent) := by
  simp [Blanks, newLine, isBlank]

theorem prettyItems_eq (indent : Nat) (items : List Json) :
    prettyItems indent items =
      items.flatMap fun v => ',' :: (newLine indent ++ v.prettyChars indent) := by
  induction items with
  | nil => rfl
  | cons v items ih => rw [prettyItems, List.flatMap_cons, ih, List.cons_append]

def prettyField (indent : Nat) (f : String × Json) : List Char :=
  quoted f.1 ++ ':' :: ' ' :: f.2.prettyChars indent

theorem prettyFields_eq (indent : Nat) (fields : Fields) :
    prettyFields indent fields =
      fields.flatMap fun f => ',' :: (newLine indent ++ prettyField indent f) := by
  induction fields with
  | nil => rfl
  | cons f fields ih =>
    obtain ⟨name, v⟩ := f
    rw [prettyFields, List.flatMap_cons, ih, prettyField]
    simp

theorem Exact.spelled_pretty {v : Json} (h : Exact v) (indent : Nat) :
    Spelled v (v.prettyChars indent) := by
  induction h generalizing indent with
  | null => exact .null
  | bool b => cases b with
    | true => exact .isTrue
    | false => exact .isFalse
  | integer h => exact .integer h
  | string s => exact .string s
  | @array items _ ih =>
    cases items with
    | nil => exact .emptyArray blanks_nil
    | cons v items =>
      have hline := blanks_newLine (indent + 1)
      have hs := Spelled.array hline
        (listed_flatMap (blanks_newLine indent) hline fun w hw => ih w hw (indent + 1))
      simpa [prettyChars, prettyItems_eq] using hs
  | @object fields ha _ ih =>
    cases fields with
    | nil => exact .emptyObject blanks_nil
    | cons f fields =>
      have hline := blanks_newLine (indent + 1)
      have hblank : Blanks [' '] := by simp [Blanks, isBlank]
      have hm : ∀ g ∈ f :: fields, Member Spelled g (prettyField (indent + 1) g) :=
        fun g hg => .mk blanks_nil hblank (ih g hg (indent + 1))
      have hs := Spelled.object hline (listed_flatMap (blanks_newLine indent) hline hm)
      rw [fieldsOf_ascending ha] at hs
      simpa [prettyChars, prettyFields_eq, prettyField] using hs

/-- Blanks behind the text change nothing. -/
theorem read?_pretty {v : Json} (h : Exact v) {after : List Char} (ha : Blanks after) :
    read? (v.pretty ++ String.ofList after) = some v := by
  rw [pretty, ← String.ofList_append]
  exact (h.spelled_pretty 0).read? ha

end NativeScripts.Json
