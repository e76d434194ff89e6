import Mathlib.Data.List.TakeWhile
import NativeScripts.Text

/-! What trimming leaves of a text: all but the blanks at the two ends, and nothing else
lies between blanks without beginning or ending with one. -/

namespace NativeScripts.Text

def AllBlank (cs : List Char) : Prop :=
  ∀ c ∈ cs, isBlank c = true

instance (cs : List Char) : Decidable (AllBlank cs) :=
  List.decidableBAll (fun c => isBlank c = true) cs

/-- The second text is the first without the blanks at its ends. -/
structure Trimmed (s t : String) : Prop where
  around : ∃ before after, s.toList = before ++ (t.toList ++ after) ∧ AllBlank before ∧
    AllBlank after
  begins : ∀ c ∈ t.toList.head?, isBlank c = false
  ends : ∀ c ∈ t.toList.getLast?, isBlank c = false

section Ends

variable {cs blanks : List Char}

theorem dropWhile_append_blank (hb : AllBlank blanks) (hc : ∀ c ∈ cs.head?, isBlank c = false) :
    (blanks ++ cs).dropWhile isBlank = cs := by
  rw [List.dropWhile_append_of_pos hb]
  cases cs with
  | nil => rfl
  | cons c cs => exact List.dropWhile_cons_of_neg (by simp [hc c rfl])

theorem trimEnd_append_blank (hb : AllBlank blanks)
    (hc : ∀ c ∈ cs.getLast?, isBlank c = false) : trimEnd (cs ++ blanks) = cs := by
  have hreversed : AllBlank blanks.reverse := fun c h => hb c (List.mem_reverse.mp h)
  have hlast : ∀ c ∈ cs.reverse.head?, isBlank c = false := by rwa [List.head?_reverse]
  rw [trimEnd, List.reverse_append, dropWhile_append_blank hreversed hlast, List.reverse_reverse]

theorem exists_trimEnd (cs : List Char) :
    (∃ after, cs = trimEnd cs ++ after ∧ AllBlank after) ∧
      ∀ c ∈ (trimEnd cs).getLast?, isBlank c = false := by
  have hsplit := List.takeWhile_append_dropWhile (p := isBlank) (l := cs.reverse)
  constructor
  · refine ⟨(cs.reverse.takeWhile isBlank).reverse, ?_, fun c hc => ?_⟩
    · rw [trimEnd, ← List.reverse_append, hsplit, List.reverse_reverse]
    · exact List.mem_takeWhile_imp (List.mem_reverse.mp hc)
  · intro c hc
    have hhead := List.head?_dropWhile_not isBlank cs.reverse
    rw [trimEnd, List.getLast?_reverse] at hc
    rwa [hc] at hhead

end Ends

theorem trimmed_trim (s : String) : Trimmed s (trim s) := by
  have hsplit := List.takeWhile_append_dropWhile (p := isBlank) (l := s.toList)
  obtain ⟨⟨after, hafter, hblank⟩, hend⟩ := exists_trimEnd (s.toList.dropWhile isBlank)
  have htrim : (trim s).toList = trimEnd (s.toList.dropWhile isBlank) := by
    rw [trim, String.toList_ofList]
  constructor
  · refine ⟨s.toList.takeWhile isBlank, after, ?_, fun c hc => List.mem_takeWhile_imp hc, hblank⟩
    rw [htrim, ← hafter, hsplit]
  · intro c hc
    have hhead := List.head?_dropWhile_not isBlank s.toList
    obtain ⟨rest, hrest⟩ := List.head?_eq_some_iff.mp (htrim ▸ hc)
    rw [hafter, hrest] at hhead
    exact hhead
  · rwa [htrim]

theorem trim_eq_iff {s t : String} : trim s = t ↔ Trimmed s t := by
  constructor
  · rintro rfl
    exact trimmed_trim s
  · intro h
    obtain ⟨before, after, hs, hbefore, hafter⟩ := h.around
    apply String.toList_injective
    rw [trim, String.toList_ofList, hs]
    cases ht : t.toList with
    | nil =>
      have hall : AllBlank (before ++ after) :=
        fun c hc => (List.mem_append.mp hc).elim (hbefore c) (hafter c)
      rw [List.nil_append, List.dropWhile_eq_nil_iff.mpr hall]
      rfl
    | cons c cs =>
      rw [← ht]
      have hbegins : ∀ d ∈ (t.toList ++ after).head?, isBlank d = false := by
        rw [ht]
        exact fun d hd => h.begins d (by rwa [ht])
      rw [dropWhile_append_blank hbefore hbegins, trimEnd_append_blank hafter h.ends]

theorem trimmed_between {before t after : String} (hb : AllBlank before.toList)
    (ha : AllBlank after.toList) (begins : ∀ c ∈ t.toList.head?, isBlank c = false)
    (ends : ∀ c ∈ t.toList.getLast?, isBlank c = false) : Trimmed (before ++ t ++ after) t := by
  refine ⟨⟨before.toList, after.toList, ?_, hb, ha⟩, begins, ends⟩
  simp only [String.toList_append, List.append_assoc]

theorem existsUnique_trimmed (s : String) : ∃! t, Trimmed s t :=
  ⟨trim s, trimmed_trim s, fun _ h => (trim_eq_iff.mpr h).symm⟩

end NativeScripts.Text
