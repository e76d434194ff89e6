import NativeScripts.Configuration
import NativeScripts.Proofs.Toml.Document

/-! Configurations written down: a line with the signers, then a table with a line for each
bound. They are read back from such a document, wherever it has empty lines. -/

namespace NativeScripts

open Toml (Adds Document Entries LineEnd Runs Unescaped Value)

namespace Validity

/-- The bounds that are not open, under the names that they have in documents. -/
def bounds (v : Validity) : List (String × Slot) :=
  v.invalidBefore.toList.map (Prod.mk "invalid_before") ++
    v.invalidHereafter.toList.map (Prod.mk "invalid_hereafter")

/-- The bounds are within the integers of TOML, which have sixty-four bits with sign. -/
def Writable (v : Validity) : Prop :=
  ∀ bound ∈ v.bounds, bound.2.toNat < 0x8000000000000000

end Validity

namespace Configuration

def signersLine (signers : List String) : String :=
  "signers = [" ++ ", ".intercalate (signers.map fun s => "\"" ++ s ++ "\"") ++ "]"

def boundLine (bound : String × Slot) : String :=
  bound.1 ++ " = " ++ toString bound.2.toNat

/-- The text has these lines, the bounds in either order, and perhaps empty lines between
them or at the ends. -/
def WrittenIn (config : Configuration) (text : String) : Prop :=
  ∃ bounds lines, (bounds = config.validity.bounds ∨ bounds = config.validity.bounds.reverse) ∧
    lines.filter (· ≠ "") =
      signersLine config.signers :: "[validity]" :: bounds.map boundLine ∧
    text = "\n".intercalate lines

theorem toList_signersLine (signers : List String) :
    (signersLine signers).toList =
      "signers".toList ++ ' ' :: '=' :: ' ' ::
        ('[' :: ([',', ' '].intercalate ((signers.map String.toList).map Toml.quoted) ++
          [']'])) := by
  have hquoted : (signers.map fun s => "\"" ++ s ++ "\"").map String.toList =
      (signers.map String.toList).map Toml.quoted := by
    simp [Toml.quoted]
  simp only [signersLine, String.toList_append, String.toList_intercalate, hquoted]
  simp

theorem toList_boundLine (bound : String × Slot) :
    (boundLine bound).toList =
      bound.1.toList ++ ' ' :: '=' :: ' ' :: Nat.toDigits 10 bound.2.toNat := by
  simp [boundLine]

/-- The document once its table of bounds is open. -/
def inTable (signers : List String) (inner : Entries) : Document :=
  ⟨[("signers", .array (signers.map .text)), ("validity", .table .header inner)],
    some ([], "validity")⟩

theorem addPair_inTable {inner : Entries} {name : String} (h : ∀ e ∈ inner, e.1 ≠ name)
    (signers : List String) (value : Value) :
    (inTable signers inner).addPair [] name value =
      some (inTable signers (inner ++ [(name, value)])) := by
  have hpath : (inTable signers inner).path = ["validity"] := rfl
  rw [Document.addPair, hpath]
  simp [inTable, Entries.within, Entries.alter, Entries.insert, Entries.passable,
    Toml.alter_new h]

def entryOf (bound : String × Slot) : String × Value :=
  (bound.1, .integer bound.2.toNat)

theorem adds_signersLine {signers : List String} (hne : ∀ s ∈ signers, s ≠ "")
    (hplain : ∀ s ∈ signers, Unescaped s.toList) :
    Adds (signersLine signers).toList .empty
      ⟨[("signers", .array (signers.map .text))], none⟩ := by
  rw [toList_signersLine]
  apply Toml.adds_pair (by decide) (List.all_eq_true.mp (by decide))
  · exact ⟨'[', _, rfl, rfl⟩
  · intro rest after _
    have hne' : ∀ t ∈ signers.map String.toList, t ≠ [] := by simpa using hne
    have hplain' : ∀ t ∈ signers.map String.toList, Unescaped t := by simpa using hplain
    have hread := Toml.readValue_texts hne' hplain' rest
    simpa [Function.comp_def] using hread
  · rfl

theorem adds_header (signers : List String) :
    Adds "[validity]".toList ⟨[("signers", .array (signers.map .text))], none⟩
      (inTable signers []) :=
  Toml.adds_header (by decide : "validity".toList ≠ []) (List.all_eq_true.mp (by decide)) rfl

theorem adds_boundLine {bound : String × Slot} (hname : bound.1.toList ≠ [])
    (hbare : ∀ c ∈ bound.1.toList, Toml.isBare c = true)
    (hw : bound.2.toNat < 0x8000000000000000) {inner : Entries} (hnew : ∀ e ∈ inner, e.1 ≠ bound.1)
    (signers : List String) :
    Adds (boundLine bound).toList (inTable signers inner)
      (inTable signers (inner ++ [entryOf bound])) := by
  rw [toList_boundLine]
  apply Toml.adds_pair hname hbare
  · obtain ⟨d, ds, hds, hd⟩ := Json.toDigits_eq_cons bound.2.toNat
    have hspace : d ≠ ' ' := by
      rintro rfl
      cases hd
    have htab : d ≠ '\t' := by
      rintro rfl
      cases hd
    exact ⟨d, ds, hds, by simp [Toml.isBlank, hspace, htab]⟩
  · intro rest after hend
    exact Toml.readValue_toDigits hw hend.head_eq _
  · rw [String.ofList_toList]
    exact addPair_inTable hnew signers _

/-- The names of the bounds are bare words, and each of them is there once at most. -/
theorem runs_boundLines {bounds : List (String × Slot)} {inner : Entries}
    (hname : ∀ b ∈ bounds, b.1.toList ≠ [] ∧ ∀ c ∈ b.1.toList, Toml.isBare c = true)
    (hw : ∀ b ∈ bounds, b.2.toNat < 0x8000000000000000)
    (hnew : (inner.map Prod.fst ++ bounds.map Prod.fst).Nodup) (signers : List String) :
    Runs (inTable signers inner) ((bounds.map boundLine).map String.toList)
      (inTable signers (inner ++ bounds.map entryOf)) := by
  induction bounds generalizing inner with
  | nil => simpa using Runs.done _
  | cons bound bounds ih =>
    obtain ⟨⟨hb, hbare⟩, hname⟩ := List.forall_mem_cons.mp hname
    obtain ⟨hlow, hw⟩ := List.forall_mem_cons.mp hw
    have hfresh : ∀ e ∈ inner, e.1 ≠ bound.1 := by
      intro e he heq
      have hdisjoint := (List.nodup_append.mp hnew).2.2
      exact hdisjoint _ (List.mem_map_of_mem he) _ (by simp) heq
    have hadds := adds_boundLine hb hbare hlow hfresh signers
    have hnew' : ((inner ++ [entryOf bound]).map Prod.fst ++ bounds.map Prod.fst).Nodup := by
      simpa [entryOf] using hnew
    have hrest := ih hname hw hnew'
    exact .line hadds (by simpa using hrest)

theorem textsOf?_map (signers : List String) :
    (signers.map Value.text).mapM textOf? = some signers := by
  induction signers with
  | nil => rfl
  | cons s signers ih => simp [textOf?, ih]

theorem slotOf?_word (slot : Slot) : slotOf? (.integer slot.toNat) = some slot := by
  have hnonneg : (0 : Int) ≤ slot.toNat := Int.natCast_nonneg _
  rw [slotOf?, if_pos hnonneg, Int.toNat_natCast, UInt64.ofNat_toNat]

theorem validityOf?_bounds {v : Validity} {bounds : List (String × Slot)}
    (hb : bounds = v.bounds ∨ bounds = v.bounds.reverse) :
    validityOf? (.table .header (bounds.map entryOf)) = some v := by
  obtain ⟨invalidBefore, invalidHereafter⟩ := v
  rcases hb with rfl | rfl <;> cases invalidBefore <;> cases invalidHereafter <;>
    simp [Validity.bounds, validityOf?, boundsOf?, boundOf?, entryOf, List.lookup_cons,
      slotOf?_word]

theorem ofEntries?_inTable {config : Configuration} {bounds : List (String × Slot)}
    (hb : bounds = config.validity.bounds ∨ bounds = config.validity.bounds.reverse) :
    ofEntries? (inTable config.signers (bounds.map entryOf)).entries = some config := by
  have hsigners : signersOf? (.array (config.signers.map .text)) = some config.signers :=
    textsOf?_map config.signers
  have hvalidity := validityOf?_bounds hb
  simp [inTable, ofEntries?, isField, List.lookup_cons, hsigners, hvalidity]

theorem names_bounds (v : Validity) {bounds : List (String × Slot)}
    (hb : bounds = v.bounds ∨ bounds = v.bounds.reverse) :
    (∀ b ∈ bounds, b.1.toList ≠ [] ∧ ∀ c ∈ b.1.toList, Toml.isBare c = true) ∧
      (bounds.map Prod.fst).Nodup := by
  have hbare : ∀ name ∈ ["invalid_before", "invalid_hereafter"],
      name.toList ≠ [] ∧ name.toList.all Toml.isBare = true := by decide
  simp only [List.all_eq_true] at hbare
  obtain ⟨invalidBefore, invalidHereafter⟩ := v
  rcases hb with rfl | rfl <;> cases invalidBefore <;> cases invalidHereafter <;>
    simp_all [Validity.bounds]

theorem ofToml_of_writtenIn {config : Configuration} {text : String} (h : config.WrittenIn text)
    (hne : ∀ s ∈ config.signers, s ≠ "") (hplain : ∀ s ∈ config.signers, Unescaped s.toList)
    (hw : config.validity.Writable) : ofToml text = .ok config := by
  obtain ⟨bounds, lines, hb, hlines, rfl⟩ := h
  obtain ⟨hnames, hnodup⟩ := names_bounds config.validity hb
  have hw' : ∀ b ∈ bounds, b.2.toNat < 0x8000000000000000 := by
    rcases hb with rfl | rfl
    · exact hw
    · exact fun b hb => hw b (List.mem_reverse.mp hb)
  have hfresh : (([] : Entries).map Prod.fst ++ bounds.map Prod.fst).Nodup := by simpa using hnodup
  have hbounds := runs_boundLines hnames hw' hfresh config.signers
  have hfilter : (lines.map String.toList).filter (· ≠ []) =
      (lines.filter (· ≠ "")).map String.toList := by
    rw [List.filter_map]
    simp [Function.comp_def]
  have hruns : Runs .empty (lines.map String.toList)
      (inTable config.signers (bounds.map entryOf)) := by
    apply Runs.of_filter
    rw [hfilter, hlines]
    exact .line (adds_signersLine hne hplain) (.line (adds_header _) hbounds)
  have htext : ("\n".intercalate lines).toList = ['\n'].intercalate (lines.map String.toList) :=
    String.toList_intercalate
  have hread := hruns.read?_eq htext
  rw [ofToml, hread, Option.bind_some, ofEntries?_inTable hb]

end Configuration

end NativeScripts
