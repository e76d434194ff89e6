import NativeScripts.Proofs.Json.Spelling

/-! Values that are read back from their text without blanks: integers of sixty-four
bits, and objects with their names in order. Other numbers are left out. -/

namespace NativeScripts.Json

def Ascending (fields : Fields) : Prop :=
  fields.Pairwise fun f g => f.1 < g.1

inductive Exact : Json → Prop where
  | null : Exact .null
  | bool (b : Bool) : Exact (.bool b)
  | integer {n : Int} (h : InRange n) : Exact (.integer n)
  | string (s : String) : Exact (.string s)
  | array {items : List Json} (h : ∀ v ∈ items, Exact v) : Exact (.array items)
  | object {fields : Fields} (ha : Ascending fields) (h : ∀ f ∈ fields, Exact f.2) :
      Exact (.object fields)

theorem ascending_of_names {fields : Fields} (names : List String)
    (he : fields.map Prod.fst = names) (h : names.Pairwise (· < ·)) : Ascending fields :=
  List.pairwise_map.mp (he ▸ h)

theorem put_of_lt {name : String} {fields : Fields} (value : Json)
    (h : ∀ f ∈ fields, f.1 < name) : put name value fields = fields ++ [(name, value)] := by
  induction fields with
  | nil => rfl
  | cons f fields ih =>
    obtain ⟨k, v⟩ := f
    have hk : k < name := h (k, v) List.mem_cons_self
    have hne : name ≠ k := by
      rintro rfl
      exact String.lt_irrefl name hk
    rw [put, if_neg (String.lt_asymm hk), if_neg hne,
      ih fun f hf => h f (List.mem_cons_of_mem _ hf)]
    rfl

theorem foldl_put (front : Fields) {fields : Fields} (h : Ascending (front ++ fields)) :
    fields.foldl (fun fields m => put m.1 m.2 fields) front = front ++ fields := by
  induction fields generalizing front with
  | nil => simp
  | cons f fields ih =>
    have hlt : ∀ g ∈ front, g.1 < f.1 :=
      fun g hg => (List.pairwise_append.mp h).2.2 g hg f List.mem_cons_self
    rw [List.append_cons] at h
    rw [List.foldl_cons, put_of_lt f.2 hlt, ih (front ++ [f]) h, ← List.append_cons]

theorem fieldsOf_ascending {fields : Fields} (h : Ascending fields) : fieldsOf fields = fields :=
  foldl_put [] h

theorem blanks_nil : Blanks [] := by
  simp [Blanks]

theorem compactItems_eq (items : List Json) :
    compactItems items = items.flatMap fun v => ',' :: v.compactChars := by
  induction items with
  | nil => rfl
  | cons v items ih => rw [compactItems, List.flatMap_cons, ih, List.cons_append]

def compactField (f : String × Json) : List Char :=
  quoted f.1 ++ ':' :: f.2.compactChars

theorem compactFields_eq (fields : Fields) :
    compactFields fields = fields.flatMap fun f => ',' :: compactField f := by
  induction fields with
  | nil => rfl
  | cons f fields ih =>
    obtain ⟨name, v⟩ := f
    rw [compactFields, List.flatMap_cons, ih, compactField]
    simp

theorem listed_cons {α : Type} {close : Char} {spelled : α → List Char → Prop}
    {text : α → List Char} {after before cs : List Char} (ha : Blanks after) (hb : Blanks before)
    {x : α} {xs : List α} (hx : spelled x cs) (h : ∀ y ∈ xs, spelled y (text y)) :
    Listed close spelled (x :: xs)
      (cs ++ (xs.flatMap (fun y => ',' :: (before ++ text y)) ++ (after ++ [close]))) := by
  induction xs generalizing x cs with
  | nil => exact .last hx ha
  | cons y xs ih =>
    rw [List.forall_mem_cons] at h
    have hs := Listed.more hx blanks_nil hb (ih h.1 h.2)
    simpa using hs

theorem listed_flatMap {α : Type} {close : Char} {spelled : α → List Char → Prop}
    {text : α → List Char} {after before : List Char} (ha : Blanks after) (hb : Blanks before)
    {x : α} {xs : List α} (h : ∀ y ∈ x :: xs, spelled y (text y)) :
    Listed close spelled (x :: xs)
      (text x ++ (xs.flatMap (fun y => ',' :: (before ++ text y)) ++ (after ++ [close]))) :=
  listed_cons ha hb (List.forall_mem_cons.mp h).1 (List.forall_mem_cons.mp h).2

theorem Exact.spelled {v : Json} (h : Exact v) : Spelled v v.compactChars := by
  induction h with
  | null => exact .null
  | bool b => cases b with
    | true => exact .isTrue
    | false => exact .isFalse
  | integer h => exact .integer h
  | string s => exact .string s
  | @array items _ ih =>
    cases items with
    | nil => exact .emptyArray blanks_nil
    | cons v items =>
      have hs := Spelled.array blanks_nil (listed_flatMap blanks_nil blanks_nil ih)
      simpa [compactChars, compactItems_eq] using hs
  | @object fields ha _ ih =>
    cases fields with
    | nil => exact .emptyObject blanks_nil
    | cons f fields =>
      have hm : ∀ g ∈ f :: fields, Member Spelled g (compactField g) :=
        fun g hg => .mk blanks_nil blanks_nil (ih g hg)
      have hs := Spelled.object blanks_nil (listed_flatMap blanks_nil blanks_nil hm)
      rw [fieldsOf_ascending ha] at hs
      simpa [compactChars, compactFields_eq, compactField] using hs

theorem read?_compact {v : Json} (h : Exact v) : read? v.compact = some v := by
  have hr := h.spelled.read? blanks_nil
  rwa [List.append_nil] at hr

end NativeScripts.Json
