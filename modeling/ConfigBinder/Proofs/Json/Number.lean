/-
An integer is read back as it was.

Its digits are all digits, with no needless zero in front, so the reader takes just
them when what follows does not go on with a number: that is what `Stops` says of it.
-/
import ConfigBinder.Json.Printer
import ConfigBinder.Json.Parser

namespace ConfigBinder.Json

open Decimal

/-- The integers that 64 bits hold, with or without sign. -/
def IsWhole (n : Int) : Prop := -(Nat.pow 2 63 : Int) ≤ n ∧ n < Nat.pow 2 64

namespace Number

/-- Whether a character can go on with a number. -/
def goesOn (c : Char) : Bool := c.isDigit || c = '.' || c = 'e' || c = 'E'

/-- No number goes on in what follows. -/
def Stops (rest : List Char) : Prop := ∀ c ∈ rest.head?, goesOn c = false

theorem stops_cons {c : Char} {rest : List Char} (h : goesOn c = false) : Stops (c :: rest) := by
  intro d hd
  rw [← Option.some.inj hd]
  exact h

/-- `digits` are a whole part as the format wants it. -/
theorem not_needless_zero (n : Nat) :
    ¬ (digits n = [] ∨ (digits n).length ≠ 1 ∧ (digits n).head? = some '0') := by
  intro hbad
  rcases hbad with hnil | hlong
  · exact digits_ne_nil n hnil
  · by_cases hpos : 0 < n
    · exact head?_digits hpos hlong.2
    · obtain rfl : n = 0 := by omega
      exact hlong.1 (by simp [digits])

/-- `digits` do not start with a minus sign. -/
theorem digits_append_ne_minus (n : Nat) (rest tail : List Char) :
    digits n ++ rest ≠ '-' :: tail := by
  intro heq
  cases hds : digits n with
  | nil => exact digits_ne_nil n hds
  | cons d ds =>
      have hdigit := isDigit_of_mem_digits n d (by simp [hds])
      rw [hds, List.cons_append] at heq
      rw [(List.cons.inj heq).1] at hdigit
      exact absurd hdigit (by decide)

section

variable {rest : List Char} (h : Stops rest)

include h

private theorem takeWhile_digits (n : Nat) :
    (digits n ++ rest).takeWhile Char.isDigit = digits n := by
  rw [List.takeWhile_append_of_pos (isDigit_of_mem_digits n)]
  cases rest with
  | nil => simp
  | cons c rest =>
      have hc := h c rfl
      rw [List.takeWhile_cons_of_neg (by simp_all [goesOn]), List.append_nil]

private theorem dropWhile_digits (n : Nat) : (digits n ++ rest).dropWhile Char.isDigit = rest := by
  rw [List.dropWhile_append_of_pos (isDigit_of_mem_digits n)]
  cases rest with
  | nil => rfl
  | cons c rest =>
      have hc := h c rfl
      rw [List.dropWhile_cons_of_neg (by simp_all [goesOn])]

private theorem fraction?_of_stops : fraction? rest = some (none, rest) := by
  unfold fraction?
  split
  · have hc := h '.' rfl
    simp [goesOn] at hc
  · rfl

private theorem exponent?_of_stops : exponent? rest = some (none, rest) := by
  unfold exponent?
  split
  · rename_i c rest
    have hc := h c rfl
    rw [if_neg (by simp_all [goesOn])]
  · rfl

/-- Digits with a sign or without one are read as the whole number that they denote. -/
theorem read_digits (n : Nat) :
    read (digits n ++ rest) = some (whole false (digits n), rest) ∧
      read ('-' :: (digits n ++ rest)) = some (whole true (digits n), rest) := by
  have hplain := not_needless_zero n
  have htake := takeWhile_digits h n
  have hdrop := dropWhile_digits h n
  refine ⟨?_, ?_⟩
  · unfold read
    split
    rename_i negative start hsplit
    split at hsplit
    · rename_i tail heq
      exact absurd heq (digits_append_ne_minus n rest tail)
    · obtain ⟨rfl, rfl⟩ := Prod.mk.inj hsplit
      simp only [htake, hdrop, if_neg hplain, fraction?_of_stops h]
      show (exponent? rest >>= fun e => some (ofParts false (digits n) none e.1, e.2)) = _
      rw [exponent?_of_stops h]
      rfl
  · unfold read
    simp only [htake, hdrop, if_neg hplain, fraction?_of_stops h]
    show (exponent? rest >>= fun e => some (ofParts true (digits n) none e.1, e.2)) = _
    rw [exponent?_of_stops h]
    rfl

/-- **An integer is read back** when 64 bits hold it and no number goes on behind it. -/
theorem read_intChars {n : Int} (hn : IsWhole n) :
    read (intChars n ++ rest) = some (.int n, rest) := by
  obtain ⟨hlow, hhigh⟩ := hn
  obtain ⟨hplain, hsigned⟩ := read_digits h n.natAbs
  unfold intChars
  by_cases hneg : n < 0
  · rw [if_pos hneg, List.cons_append, hsigned]
    have hwhole : whole true (digits n.natAbs) = .int n := by
      unfold whole
      rw [value_digits]
      have hrange : ¬ (n.natAbs = 0 ∨ Nat.pow 2 63 < n.natAbs) := by
        have hpow : Nat.pow 2 63 = 9223372036854775808 := rfl
        omega
      have hback : -(n.natAbs : Int) = n := by omega
      simp only [if_true, if_neg hrange, hback]
    rw [hwhole]
  · rw [if_neg hneg, hplain]
    have hwhole : whole false (digits n.natAbs) = .int n := by
      unfold whole
      rw [value_digits]
      have hrange : n.natAbs < Nat.pow 2 64 := by
        have hpow : Nat.pow 2 64 = 18446744073709551616 := rfl
        omega
      have hback : (n.natAbs : Int) = n := by omega
      simp only [Bool.false_eq_true, if_false, if_pos hrange, hback]
    rw [hwhole]

end

end Number

end ConfigBinder.Json
