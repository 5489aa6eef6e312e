/-
Reading an integer is exact.

The reader never holds a number beyond its limit: `accumulate` stops at the digit that leaves
it.  So what it says of the digits so far must be the same as what the whole text denotes, its
`placeValue`.  Digits behind can only make a number larger, and with that the one question that
is left is where the number of all digits stands to the limits, which differ by one for the two
signs.
-/
import ConfigBinder.Decimal.Integer
import ConfigBinder.Decimal.Numeral
import Mathlib.Data.List.TakeWhile
import Mathlib.Data.Nat.Digits.Defs
import Mathlib.Tactic.IntervalCases

namespace ConfigBinder.Decimal

/-- There is a digit and nothing but digits. -/
def AreDigits (ds : List Char) : Prop := ds ≠ [] ∧ ∀ c ∈ ds, c.isDigit = true

/-- The digits, in the order of their worth. -/
def ascendingDigits : List Char := ['0', '1', '2', '3', '4', '5', '6', '7', '8', '9']

/-- The worth of a digit is the number of digits before it in `ascendingDigits`. -/
def worth (c : Char) : Nat := ascendingDigits.idxOf c

/-- The number that digits denote by their places, the ones at the end, each with its `worth`. -/
def placeValue (ds : List Char) : Nat := Nat.ofDigits 10 (ds.reverse.map worth)

/-- The characters write an integer: one sign or none, and then digits. -/
inductive Writes : List Char → Int → Prop
  | unsigned {ds : List Char} (h : AreDigits ds) : Writes ds (placeValue ds)
  | plus {ds : List Char} (h : AreDigits ds) : Writes ('+' :: ds) (placeValue ds)
  | minus {ds : List Char} (h : AreDigits ds) : Writes ('-' :: ds) (-placeValue ds)

/-! ### Digits onto a magnitude -/

/-- The reader takes each digit for its `worth`. -/
theorem digitValue_eq_worth {c : Char} (h : c.isDigit = true) : digitValue c = worth c := by
  have hrange : 48 ≤ c.toNat ∧ c.toNat ≤ 57 := by
    simpa [Char.isDigit, UInt32.le_iff_toNat_le] using h
  have hvalue : c = Char.ofNat c.toNat := (Char.ofNat_toNat c).symm
  obtain ⟨hlow, hhigh⟩ := hrange
  rw [hvalue]
  interval_cases c.toNat <;> rfl

private theorem placeValue_cons {c : Char} (h : c.isDigit = true) (ds : List Char) :
    placeValue (c :: ds) = 10 ^ ds.length * digitValue c + placeValue ds := by
  simp [placeValue, Nat.ofDigits_append, Nat.add_comm, digitValue_eq_worth h]

/-- `accumulate` reads digits onto a magnitude as far as the number of all of them is within the
limit. -/
theorem accumulate_of_digits {limit : Nat} {beyond : IntegerFault} {ds : List Char} :
    ∀ acc, (∀ c ∈ ds, c.isDigit = true) → acc ≤ limit →
      accumulate limit beyond acc ds =
        if 10 ^ ds.length * acc + placeValue ds ≤ limit
        then .ok (10 ^ ds.length * acc + placeValue ds) else .error beyond := by
  induction ds with
  | nil =>
      intro acc _ hacc
      simp [accumulate, placeValue, hacc]
  | cons c rest ih =>
      intro acc hdigits hacc
      have hc : c.isDigit = true := hdigits c (by simp)
      have hsum : 10 ^ (c :: rest).length * acc + placeValue (c :: rest) =
          10 ^ rest.length * (10 * acc + digitValue c) + placeValue rest := by
        rw [placeValue_cons hc, List.length_cons]
        ring
      rw [accumulate, if_pos hc, hsum]
      dsimp only
      by_cases hnext : 10 * acc + digitValue c ≤ limit
      · rw [if_pos hnext, ih _ (fun d hd => hdigits d (by simp [hd])) hnext]
      · have hgrow : 10 * acc + digitValue c ≤
            10 ^ rest.length * (10 * acc + digitValue c) := Nat.le_mul_of_pos_left _ (by positivity)
        rw [if_neg hnext, if_neg (by omega)]

/-- What `accumulate` reads has only digits. -/
theorem digits_of_accumulate {limit : Nat} {beyond : IntegerFault} {ds : List Char} :
    ∀ acc n, accumulate limit beyond acc ds = .ok n → ∀ c ∈ ds, c.isDigit = true := by
  induction ds with
  | nil => simp
  | cons c rest ih =>
      intro acc n h
      rw [accumulate] at h
      split at h
      · rename_i hc
        dsimp only at h
        split at h
        · simpa [hc] using ih _ _ h
        · exact nomatch h
      · exact nomatch h

/-! ### Integers

`Writes` tells an integer from its text without the reader, and each of its three forms is one
branch of `readInteger`.
-/

/-- What the digits behind a sign give, or digits without one. -/
theorem readInteger_of_digits (width : Nat) {ds : List Char} (h : AreDigits ds) :
    readInteger width ds =
        (accumulate (Nat.pow 2 (width - 1) - 1) .tooLarge 0 ds).map (fun n => (n : Int)) ∧
      readInteger width ('+' :: ds) =
        (accumulate (Nat.pow 2 (width - 1) - 1) .tooLarge 0 ds).map (fun n => (n : Int)) ∧
      readInteger width ('-' :: ds) =
        (accumulate (Nat.pow 2 (width - 1)) .tooSmall 0 ds).map (fun n => -(n : Int)) := by
  obtain ⟨hne, hdigits⟩ := h
  refine ⟨?_, ?_, ?_⟩
  · unfold readInteger
    split <;> simp_all
  · unfold readInteger
    split <;> simp_all
  · unfold readInteger
    split <;> simp_all

/-- `accumulate` reads digits when the limit holds their `placeValue`. -/
theorem accumulate_zero {limit : Nat} {beyond : IntegerFault} {ds : List Char}
    (h : AreDigits ds) : accumulate limit beyond 0 ds =
      if placeValue ds ≤ limit then .ok (placeValue ds) else .error beyond := by
  simpa using accumulate_of_digits 0 h.2 (Nat.zero_le limit)

/-- **A written integer is read just when it is in the range of the width.**  Below the range
it is too small, above it is too large. -/
theorem readInteger_of_writes (width : Nat) {cs : List Char} {n : Int} (h : Writes cs n) :
    readInteger width cs =
      if n < -2 ^ (width - 1) then .error .tooSmall
      else if 2 ^ (width - 1) - 1 < n then .error .tooLarge else .ok n := by
  obtain ⟨bound, hbound, hpos⟩ : ∃ bound : Nat, bound = Nat.pow 2 (width - 1) ∧ 0 < bound :=
    ⟨_, rfl, Nat.two_pow_pos _⟩
  have hcast : (2 : Int) ^ (width - 1) = bound := by
    rw [hbound]
    exact (Nat.cast_pow 2 (width - 1)).symm
  have hplain : ∀ v : Nat,
      ((if v ≤ bound - 1 then .ok v else .error .tooLarge : Except IntegerFault Nat).map
          fun n => (n : Int)) =
        if (v : Int) < -bound then .error .tooSmall
        else if (bound : Int) - 1 < v then .error .tooLarge else .ok v := by
    intro v
    rw [if_neg (by omega : ¬ (v : Int) < -bound)]
    by_cases hv : v ≤ bound - 1
    · rw [if_pos hv, if_neg (by omega)]
      rfl
    · rw [if_neg hv, if_pos (by omega)]
      rfl
  rw [hcast]
  cases h with
  | unsigned hds =>
      rw [(readInteger_of_digits width hds).1, accumulate_zero hds, ← hbound]
      exact hplain _
  | plus hds =>
      rw [(readInteger_of_digits width hds).2.1, accumulate_zero hds, ← hbound]
      exact hplain _
  | @minus ds hds =>
      rw [(readInteger_of_digits width hds).2.2, accumulate_zero hds, ← hbound]
      by_cases hv : placeValue ds ≤ bound
      · rw [if_pos hv, if_neg (by omega), if_neg (by omega)]
        rfl
      · rw [if_neg hv, if_pos (by omega)]
        rfl

/-- What `readInteger` reads `Writes` the integer that it gives. -/
theorem exists_writes_of_readInteger {width : Nat} {cs : List Char} {n : Int}
    (h : readInteger width cs = .ok n) : ∃ m, Writes cs m := by
  have hdigits : ∀ {limit beyond ds} {f : Int → Int}, ds ≠ [] →
      (do let v ← accumulate limit beyond 0 ds; pure (v : Int) : Except IntegerFault Int).map f =
        .ok n → AreDigits ds := by
    intro limit beyond ds f hne h
    cases hacc : accumulate limit beyond 0 ds with
    | error e =>
        rw [hacc] at h
        exact nomatch h
    | ok v => exact ⟨hne, digits_of_accumulate 0 v hacc⟩
  unfold readInteger at h
  split at h
  · exact nomatch h
  · exact nomatch h
  · exact nomatch h
  · rename_i ds hne
    exact ⟨_, .minus (hdigits hne h)⟩
  · rename_i ds hne
    exact ⟨_, .plus (hdigits hne h)⟩
  · rename_i hne _ _ _ _
    exact ⟨_, .unsigned (hdigits hne h)⟩

/-! ### Integers as numerals -/

private theorem unsigned?_of_digits (negative : Bool) {ds : List Char} (h : AreDigits ds) :
    Numeral.unsigned? negative ds = some ⟨negative, ds, [], 0⟩ := by
  have htake : ds.takeWhile Char.isDigit = ds := List.takeWhile_eq_self_iff.mpr h.2
  have hdrop : ds.dropWhile Char.isDigit = [] := List.dropWhile_eq_nil_iff.mpr h.2
  simp [Numeral.unsigned?, htake, hdrop, h.1, Numeral.exponent?]

private theorem sign_of_digits {ds : List Char} (h : AreDigits ds) :
    Numeral.sign ds = (false, ds) := by
  obtain ⟨hne, hdigits⟩ := h
  unfold Numeral.sign
  split <;> simp_all

/-- **A written integer is a floating-point number too.** -/
theorem checkFloat_of_writes {cs : List Char} {n : Int} (h : Writes cs n) :
    checkFloat cs = .ok () := by
  have hnumeral : cs ≠ [] ∧ (Numeral.ofChars? cs).isSome = true := by
    cases h with
    | unsigned hds => simp [hds.1, Numeral.ofChars?, sign_of_digits hds, unsigned?_of_digits _ hds]
    | plus hds => simp [Numeral.ofChars?, Numeral.sign, unsigned?_of_digits _ hds]
    | minus hds => simp [Numeral.ofChars?, Numeral.sign, unsigned?_of_digits _ hds]
  rw [checkFloat, if_neg hnumeral.1, if_pos (Or.inl hnumeral.2)]

end ConfigBinder.Decimal
