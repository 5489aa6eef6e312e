/-
Checks that are made in turn.

A row of checks, `List.forM` in `Except`, ends at the first that fails, with its error.  So it
passes just when each check does, and else tells of the first that does not.
-/
import Mathlib.Data.List.Basic

namespace ConfigBinder

variable {α ε : Type} {check : α → Except ε Unit} {e : ε}

private theorem forM_cons_of_ok {a : α} (h : check a = .ok ()) (rest : List α) :
    (a :: rest).forM check = rest.forM check := by
  show (check a >>= fun _ => rest.forM check) = _
  rw [h]
  rfl

private theorem forM_cons_of_error {a : α} (h : check a = .error e) (rest : List α) :
    (a :: rest).forM check = .error e := by
  show (check a >>= fun _ => rest.forM check) = _
  rw [h]
  rfl

/-- A row of checks passes just when each of them does. -/
theorem forM_eq_ok_iff {l : List α} : l.forM check = .ok () ↔ ∀ x ∈ l, check x = .ok () := by
  induction l with
  | nil => simp [List.forM, pure, Except.pure]
  | cons a rest ih =>
      cases ha : check a with
      | ok _ => rw [forM_cons_of_ok ha, ih, List.forall_mem_cons, ha, and_iff_right rfl]
      | error e => simp [forM_cons_of_error ha, ha]

/-- A row of checks fails for the first that does. -/
theorem forM_eq_error_iff {l : List α} : l.forM check = .error e ↔
    ∃ before x after, l = before ++ x :: after ∧ (∀ y ∈ before, check y = .ok ()) ∧
      check x = .error e := by
  induction l with
  | nil => simp [List.forM, pure, Except.pure]
  | cons a rest ih =>
      refine ⟨?_, ?_⟩
      · intro h
        cases ha : check a with
        | ok _ =>
            rw [forM_cons_of_ok ha, ih] at h
            obtain ⟨before, x, after, rfl, hbefore, hx⟩ := h
            exact ⟨a :: before, x, after, rfl, List.forall_mem_cons.mpr ⟨ha, hbefore⟩, hx⟩
        | error e' =>
            rw [forM_cons_of_error ha, Except.error.injEq] at h
            exact ⟨[], a, rest, rfl, by simp, by rw [ha, h]⟩
      · intro h
        obtain ⟨before, x, after, hsplit, hbefore, hx⟩ := h
        cases before with
        | nil =>
            obtain ⟨rfl, -⟩ := List.cons.inj hsplit
            exact forM_cons_of_error hx rest
        | cons b before =>
            obtain ⟨rfl, rfl⟩ := List.cons.inj hsplit
            rw [List.forall_mem_cons] at hbefore
            rw [forM_cons_of_ok hbefore.1, ih]
            exact ⟨before, x, after, rfl, hbefore.2, hx⟩

end ConfigBinder
