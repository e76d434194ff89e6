/-! Reading every member of a list in order, up to the first fault. -/

namespace NativeScripts

variable {α β ε : Type}

def readEach (read : α → Except ε β) : List α → Except ε (List β)
  | [] => .ok []
  | x :: xs =>
    match read x with
    | .error fault => .error fault
    | .ok y =>
      match readEach read xs with
      | .error fault => .error fault
      | .ok ys => .ok (y :: ys)

theorem readEach_map {γ : Type} (f : γ → α) (read : α → Except ε β) (xs : List γ) :
    readEach read (xs.map f) = readEach (fun x => read (f x)) xs := by
  induction xs with
  | nil => rfl
  | cons x xs ih => rw [List.map_cons, readEach, readEach, ih]

theorem readEach_attach (read : α → Except ε β) (xs : List α) :
    (readEach (fun x => read x.1) xs.attach) = readEach read xs := by
  rw [← readEach_map Subtype.val read xs.attach, List.attach_map_subtype_val]

end NativeScripts
