/-
Decimal digits of a natural number.
-/

namespace ConfigBinder.Decimal

/-- The character of a digit below ten. -/
def digitChar (n : Nat) : Char := Char.ofNat (48 + n)

/-- The number that a digit stands for. -/
def digitValue (c : Char) : Nat := c.toNat - 48

/-- The digits of a number, the most significant first; zero has one digit. -/
def digits (n : Nat) : List Char :=
  if n < 10 then [digitChar n] else digits (n / 10) ++ [digitChar (n % 10)]

/-- The number that a list of digits denotes. -/
def value (ds : List Char) : Nat := ds.foldl (fun acc c => 10 * acc + digitValue c) 0

theorem digitValue_digitChar {n : Nat} (h : n < 10) : digitValue (digitChar n) = n := by
  match n, h with
  | 0, _ | 1, _ | 2, _ | 3, _ | 4, _ | 5, _ | 6, _ | 7, _ | 8, _ | 9, _ => rfl

theorem isDigit_digitChar {n : Nat} (h : n < 10) : (digitChar n).isDigit = true := by
  match n, h with
  | 0, _ | 1, _ | 2, _ | 3, _ | 4, _ | 5, _ | 6, _ | 7, _ | 8, _ | 9, _ => rfl

/-- The digits of a number denote it. -/
theorem value_digits (n : Nat) : value (digits n) = n := by
  induction n using Nat.strongRecOn with
  | _ n ih =>
    rw [digits]
    split
    · simp [value, digitValue_digitChar ‹n < 10›]
    · have h := ih (n / 10) (by omega)
      simp only [value, List.foldl_append, List.foldl_cons, List.foldl_nil] at h ⊢
      rw [h, digitValue_digitChar (by omega)]
      omega

theorem digits_ne_nil (n : Nat) : digits n ≠ [] := by
  rw [digits]
  split <;> simp

theorem isDigit_of_mem_digits (n : Nat) : ∀ c ∈ digits n, c.isDigit = true := by
  induction n using Nat.strongRecOn with
  | _ n ih =>
    intro c hc
    rw [digits] at hc
    split at hc
    · rw [List.mem_singleton.mp hc]
      exact isDigit_digitChar ‹n < 10›
    · rcases List.mem_append.mp hc with hc | hc
      · exact ih (n / 10) (by omega) c hc
      · rw [List.mem_singleton.mp hc]
        exact isDigit_digitChar (by omega)

theorem digitChar_ne_zero {n : Nat} (h : n < 10) (hpos : 0 < n) : digitChar n ≠ '0' := by
  intro hzero
  have hvalue := digitValue_digitChar h
  rw [hzero] at hvalue
  have hnone : digitValue '0' = 0 := rfl
  omega

/-- Digits do not start with a needless zero. -/
theorem head?_digits {n : Nat} (hpos : 0 < n) : (digits n).head? ≠ some '0' := by
  induction n using Nat.strongRecOn with
  | _ n ih =>
    rw [digits]
    split
    · intro h
      exact digitChar_ne_zero ‹n < 10› hpos (Option.some.inj h)
    · have hfirst := ih (n / 10) (by omega) (by omega)
      cases hds : digits (n / 10) with
      | nil => exact absurd hds (digits_ne_nil _)
      | cons d ds => rwa [hds] at hfirst

end ConfigBinder.Decimal
