import Mathlib.Data.List.Basic

/-- The elements of a list up to the first one that stops, with it. -/
def upTo {α : Type} (stops : α → Bool) : List α → List α
  | [] => []
  | a :: as => a :: if stops a then [] else upTo stops as

section

variable {α : Type} {stops : α → Bool} {a : α} {as : List α}

@[simp] theorem upTo_nil : upTo stops [] = [] := rfl

@[simp] theorem upTo_cons : upTo stops (a :: as) = a :: if stops a then [] else upTo stops as := rfl

theorem upTo_cons_of_stops (h : stops a = true) : upTo stops (a :: as) = [a] := by simp [h]

theorem upTo_cons_of_goes (h : stops a = false) : upTo stops (a :: as) = a :: upTo stops as := by simp [h]

@[simp] theorem upTo_eq_nil : upTo stops as = [] ↔ as = [] := by
  cases as with
  | nil => exact iff_of_true rfl rfl
  | cons a as => exact iff_of_false (List.cons_ne_nil _ _) (List.cons_ne_nil _ _)

theorem upTo_eq_self : upTo stops as = as ↔ ∀ a ∈ as.dropLast, stops a = false := by
  induction as with
  | nil => exact iff_of_true rfl nofun
  | cons a as ih =>
    rw [upTo_cons, List.cons_eq_cons, and_iff_right rfl]
    cases as with
    | nil => exact iff_of_true (by split <;> rfl) nofun
    | cons b bs =>
      rw [List.dropLast_cons_cons, List.forall_mem_cons]
      cases stops a with
      | true => exact iff_of_false nofun fun h => Bool.noConfusion h.1
      | false => exact ih.trans (and_iff_right rfl).symm

end
