import NativeScripts.Acceptance
import NativeScripts.Proofs.Script.Description

/-! Fields that the type of an object does not call for. Whatever they hold and
wherever they stand, a script that was read stays the same. -/

namespace NativeScripts

open Json (Fields get?)
open List (Forall₂)

/-- The names of the fields that an object of this kind calls for. -/
def Kind.fields : Kind → List String
  | .sig => ["type", "keyHash"]
  | .all => ["type", "scripts"]
  | .any => ["type", "scripts"]
  | .atLeast => ["type", "required", "scripts"]
  | .after => ["type", "slot"]
  | .before => ["type", "slot"]

/-- Objects of one type may differ in all the fields that it does not call for, and so may
the objects below them. -/
inductive Json.Alike : Json → Json → Prop where
  | same (v : Json) : Alike v v
  | array {vs ws : List Json} (each : Forall₂ Alike vs ws) : Alike (.array vs) (.array ws)
  | object (kind : Kind) {fields fields' : Fields}
      (ht : get? fields "type" = some (.string kind.name))
      (each : ∀ name ∈ kind.fields, Option.Rel Alike (get? fields name) (get? fields' name)) :
      Alike (.object fields) (.object fields')

theorem Kind.name_inj {k k' : Kind} (h : k.name = k'.name) : k = k' := by
  have hk := Kind.ofName?_name k
  rw [h, Kind.ofName?_name, Option.some.injEq] at hk
  exact hk.symm

namespace Json.Alike

variable {o o' : Option Json} {fields : Fields} {w : Json}

theorem rel_refl (o : Option Json) : Option.Rel Alike o o := by
  cases o with
  | none => exact .none
  | some v => exact .some (.same v)

theorem eq_string {s : String} (h : Option.Rel Alike o o') (ho : o = some (.string s)) :
    o' = some (.string s) := by
  subst ho
  cases h with
  | some h =>
    cases h
    rfl

theorem eq_integer {n : Int} (h : Option.Rel Alike o o') (ho : o = some (.integer n)) :
    o' = some (.integer n) := by
  subst ho
  cases h with
  | some h =>
    cases h
    rfl

theorem exists_array {vs : List Json} (h : Option.Rel Alike o o') (ho : o = some (.array vs)) :
    ∃ ws, o' = some (.array ws) ∧ Forall₂ Alike vs ws := by
  subst ho
  cases h with
  | some h =>
    cases h with
    | same => exact ⟨vs, rfl, List.forall₂_same.mpr fun v _ => .same v⟩
    | array each => exact ⟨_, rfl, each⟩

theorem exists_fields (kind : Kind) (h : Alike (.object fields) w)
    (ht : get? fields "type" = some (.string kind.name)) :
    ∃ fields', w = .object fields' ∧
      ∀ name ∈ kind.fields, Option.Rel Alike (get? fields name) (get? fields' name) := by
  cases h with
  | same => exact ⟨fields, rfl, fun name _ => rel_refl _⟩
  | @object kind' _ fields' ht' each =>
    rw [ht, Option.some.injEq, Json.string.injEq] at ht'
    cases Kind.name_inj ht'
    exact ⟨fields', rfl, each⟩

end Json.Alike

theorem forall₂_of_alike {α : Type} {child : Json → α → Prop} {vs ws : List Json}
    {scripts : List α} (ha : Forall₂ Json.Alike vs ws) (hc : Forall₂ child vs scripts)
    (h : ∀ c ∈ scripts, ∀ v w, v.Alike w → child v c → child w c) : Forall₂ child ws scripts := by
  induction ha generalizing scripts with
  | nil =>
    cases hc
    exact .nil
  | @cons v w vs ws hvw _ ih =>
    cases hc with
    | @cons _ c _ cs hv hcs =>
      exact .cons (h c List.mem_cons_self v w hvw hv)
        (ih hcs fun c' hc' => h c' (List.mem_cons_of_mem c hc'))

open Json.Alike

theorem Multisig.Described.of_alike {α : Type} {child : Json → α → Prop} {v w : Json}
    {m : Multisig α} (hd : Described child v m) (ha : v.Alike w)
    (h : ∀ c ∈ m.children, ∀ v w, v.Alike w → child v c → child w c) : Described child w m := by
  cases hd with
  | @sig fields text key ht hk hl hd =>
    obtain ⟨fields', rfl, each⟩ := ha.exists_fields .sig ht
    exact .sig (eq_string (each "type" (by decide)) ht)
      (eq_string (each "keyHash" (by decide)) hk) hl hd
  | @all fields items scripts ht hs hc =>
    obtain ⟨fields', rfl, each⟩ := ha.exists_fields .all ht
    obtain ⟨items', hs', hi⟩ := exists_array (each "scripts" (by decide)) hs
    exact .all (eq_string (each "type" (by decide)) ht) hs' (forall₂_of_alike hi hc h)
  | @any fields items scripts ht hs hc =>
    obtain ⟨fields', rfl, each⟩ := ha.exists_fields .any ht
    obtain ⟨items', hs', hi⟩ := exists_array (each "scripts" (by decide)) hs
    exact .any (eq_string (each "type" (by decide)) ht) hs' (forall₂_of_alike hi hc h)
  | @atLeast fields items scripts required ht hr hs hc =>
    obtain ⟨fields', rfl, each⟩ := ha.exists_fields .atLeast ht
    obtain ⟨items', hs', hi⟩ := exists_array (each "scripts" (by decide)) hs
    exact .atLeast (eq_string (each "type" (by decide)) ht)
      (eq_integer (each "required" (by decide)) hr) hs' (forall₂_of_alike hi hc h)

theorem NativeScript.Described.of_alike {v w : Json} {s : NativeScript} (hd : Described v s)
    (ha : v.Alike w) : Described w s := by
  induction s generalizing v w with
  | multisig layer ih =>
    cases hd with
    | multisig hd => exact .multisig (hd.of_alike ha fun c hc v w hvw hv => ih c hc hv hvw)
  | after slot =>
    cases hd with
    | after ht hs =>
      obtain ⟨fields', rfl, each⟩ := ha.exists_fields .after ht
      exact .after (eq_string (each "type" (by decide)) ht)
        (eq_integer (each "slot" (by decide)) hs)
  | before slot =>
    cases hd with
    | before ht hs =>
      obtain ⟨fields', rfl, each⟩ := ha.exists_fields .before ht
      exact .before (eq_string (each "type" (by decide)) ht)
        (eq_integer (each "slot" (by decide)) hs)

theorem NativeScript.acceptValue_eq_ok {v : Json} {s : NativeScript} :
    acceptValue v = .ok s ↔ Described v s :=
  mapError_eq_ok.trans ofJson_eq_ok

/-- Values are read as the scripts that they describe, are faulty JSON if they describe
none, and are read alike if they differ in idle fields only. -/
theorem reading_follows_descriptions :
    (∀ (v : Json) (s : NativeScript),
      NativeScript.acceptValue v = .ok s ↔ NativeScript.Described v s) ∧
    (∀ v : Json, (∃ fault, NativeScript.acceptValue v = .error (.malformedJson fault)) ↔
      ¬∃ s, NativeScript.Described v s) ∧
    ∀ (v w : Json) (s : NativeScript), v.Alike w → NativeScript.acceptValue v = .ok s →
      NativeScript.acceptValue w = .ok s := by
  refine ⟨fun _ _ => NativeScript.acceptValue_eq_ok,
    fun _ => exists_mapError_iff fun _ => NativeScript.ofJson_eq_ok, fun v w s ha hv => ?_⟩
  have hd : NativeScript.Described v s := NativeScript.acceptValue_eq_ok.mp hv
  exact NativeScript.acceptValue_eq_ok.mpr (hd.of_alike ha)

/-- A time lock with remarks of its own, and the object above it with others. -/
def Json.remarked : Json :=
  .object [("comment", .string "vesting"),
    ("scripts",
      .array [.object [("note", .null), ("slot", .integer 5), ("type", .string "after")]]),
    ("type", .string "all")]

/-- The same script, and fields that other types call for. -/
def Json.cluttered : Json :=
  .object [("scripts", .array [.object
      [("keyHash", .bool true), ("slot", .integer 5), ("type", .string "after")]]),
    ("slot", .integer (-1)), ("type", .string "all")]

theorem Json.remarked_alike_cluttered : remarked.Alike cluttered := by
  have hlock : Alike (.object [("note", .null), ("slot", .integer 5), ("type", .string "after")])
      (.object [("keyHash", .bool true), ("slot", .integer 5), ("type", .string "after")]) := by
    refine .object .after rfl fun name hname => ?_
    simp only [Kind.fields, List.mem_cons, List.not_mem_nil, or_false] at hname
    rcases hname with rfl | rfl <;> exact Json.Alike.rel_refl _
  refine .object .all rfl fun name hname => ?_
  simp only [Kind.fields, List.mem_cons, List.not_mem_nil, or_false] at hname
  rcases hname with rfl | rfl
  · exact Json.Alike.rel_refl _
  · exact .some (.array (.cons hlock .nil))

theorem cluttered_reads_as_remarked :
    Json.remarked.Alike Json.cluttered ∧
    NativeScript.acceptValue Json.remarked = .ok (.multisig (.all [.after 5])) ∧
    NativeScript.acceptValue Json.cluttered = .ok (.multisig (.all [.after 5])) := by
  have hr : NativeScript.acceptValue Json.remarked = .ok (.multisig (.all [.after 5])) :=
    NativeScript.acceptValue_eq_ok.mpr (.multisig (.all rfl rfl (.cons (.after rfl rfl) .nil)))
  have ha := Json.remarked_alike_cluttered
  exact ⟨ha, hr, reading_follows_descriptions.2.2 _ _ _ ha hr⟩

end NativeScripts
