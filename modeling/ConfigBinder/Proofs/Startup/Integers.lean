/-
Which texts the integer types accept.

A text is trimmed and read as an integer of the type's width.  With the reader exact, what a
type accepts is told by the text alone: it `StandsFor` an integer, and that is in range.  The
ranges contain one another as the widths grow, so a wider type accepts what a narrower one
does (`ConvertsIntegers.mono`).  A written integer is also a numeral without point and
exponent, and the floating-point types accept numerals of any size.
-/
import ConfigBinder.Proofs.Decimal.Integer
import ConfigBinder.Proofs.Startup.Resolution

namespace ConfigBinder

open Decimal

/-- A text stands for an integer that it `Writes`, white space around it apart. -/
def Text.StandsFor (raw : String) (n : Int) : Prop := Writes (trimChars raw.toList) n

namespace Converter

open Text

/-- How a type of integers of a width converts. -/
structure ConvertsIntegers (converter : Converter) (width : Nat) : Prop where
  /-- Accepted are the texts that stand for an integer (`StandsFor`) in the range of the width. -/
  accepts_iff : ∀ raw, converter raw = .ok () ↔
    ∃ n, StandsFor raw n ∧ -2 ^ (width - 1) ≤ n ∧ n ≤ 2 ^ (width - 1) - 1
  /-- An integer above the range is told as such. -/
  tooLarge : ∀ raw n, StandsFor raw n → 2 ^ (width - 1) - 1 < n →
    converter raw = .error s!"'{raw}': number too large to fit in target type"
  /-- So is one below it. -/
  tooSmall : ∀ raw n, StandsFor raw n → n < -2 ^ (width - 1) →
    converter raw = .error s!"'{raw}': number too small to fit in target type"

private theorem checkInteger_of_standsFor {width : Nat} {raw : String} {n : Int}
    (h : StandsFor raw n) :
    checkInteger width (trimChars raw.toList) =
      if n < -2 ^ (width - 1) then .error IntegerFault.tooSmall.message
      else if 2 ^ (width - 1) - 1 < n then .error IntegerFault.tooLarge.message else .ok () := by
  rw [checkInteger, readInteger_of_writes width h]
  split_ifs <;> rfl

private theorem exists_standsFor_of_checkInteger {width : Nat} {raw : String}
    (h : checkInteger width (trimChars raw.toList) = .ok ()) : ∃ n, StandsFor raw n := by
  rw [checkInteger] at h
  split at h
  · rename_i hread
    exact exists_writes_of_readInteger hread
  · exact nomatch h

theorem primitive_eq_ok_iff {p : Primitive} {raw : String} :
    primitive p raw = .ok () ↔ checkPrimitive p (trimChars raw.toList) = .ok () := by
  rw [primitive]
  cases checkPrimitive p (trimChars raw.toList) with
  | ok _ => simp
  | error e => simp

private theorem primitive_of_error {p : Primitive} {raw reason : String}
    (h : checkPrimitive p (trimChars raw.toList) = .error reason) :
    primitive p raw = .error s!"'{raw}': {reason}" := by
  rw [primitive, h]

private theorem convertsIntegers_primitive {p : Primitive} {width : Nat}
    (hp : checkPrimitive p = checkInteger width) : (primitive p).ConvertsIntegers width := by
  have hpos : (0 : Int) < 2 ^ (width - 1) := by positivity
  refine ⟨?_, ?_, ?_⟩
  · intro raw
    rw [primitive_eq_ok_iff, hp]
    refine ⟨?_, ?_⟩
    · intro h
      obtain ⟨n, hn⟩ := exists_standsFor_of_checkInteger h
      refine ⟨n, hn, ?_⟩
      rw [checkInteger_of_standsFor hn] at h
      split_ifs at h with hsmall hlarge
      omega
    · rintro ⟨n, hn, hlow, hhigh⟩
      rw [checkInteger_of_standsFor hn, if_neg (by omega), if_neg (by omega)]
  · intro raw n hn hlarge
    have hcheck : checkPrimitive p (trimChars raw.toList) =
        .error IntegerFault.tooLarge.message := by
      rw [hp, checkInteger_of_standsFor hn, if_neg (by omega), if_pos hlarge]
    rw [primitive_of_error hcheck]
    simp only [IntegerFault.message, String.append_assoc]
    rfl
  · intro raw n hn hsmall
    have hcheck : checkPrimitive p (trimChars raw.toList) =
        .error IntegerFault.tooSmall.message := by
      rw [hp, checkInteger_of_standsFor hn, if_pos hsmall]
    rw [primitive_of_error hcheck]
    simp only [IntegerFault.message, String.append_assoc]
    rfl

/-- What one width takes in, a larger one does too. -/
theorem ConvertsIntegers.mono {a b : Converter} {v w : Nat} (ha : a.ConvertsIntegers v)
    (hb : b.ConvertsIntegers w) (h : v ≤ w) {raw : String} (hraw : a raw = .ok ()) :
    b raw = .ok () := by
  obtain ⟨n, hn, hlow, hhigh⟩ := (ha.accepts_iff raw).mp hraw
  have hpow : (2 : Int) ^ (v - 1) ≤ 2 ^ (w - 1) :=
    pow_le_pow_right₀ (by decide) (Nat.sub_le_sub_right h 1)
  exact (hb.accepts_iff raw).mpr ⟨n, hn, by omega, by omega⟩

private theorem primitive_float_of_standsFor {p : Primitive} (hp : checkPrimitive p = checkFloat)
    {raw : String} {n : Int} (h : StandsFor raw n) : primitive p raw = .ok () := by
  rw [primitive_eq_ok_iff, hp, checkFloat, checkFloat_of_writes h]

end Converter

namespace KnownTypes

open Converter

/-- The types of integers with their widths, each with the class around it. -/
def integerTypes : List (String × Nat) :=
  [("byte", 8), ("java.lang.Byte", 8), ("short", 16), ("java.lang.Short", 16),
    ("int", 32), ("java.lang.Integer", 32), ("long", 64), ("java.lang.Long", 64)]

/-- The types of floating-point numbers, each with the class around it. -/
def floatTypes : List String := ["float", "java.lang.Float", "double", "java.lang.Double"]

/-- A name resolves to a converter that accepts the text. -/
def Accepts (known : KnownTypes) (name raw : String) : Prop :=
  ∃ converter, known.resolve name = some converter ∧ converter raw = .ok ()

theorem resolve_integerTypes : ∀ t ∈ integerTypes, ∃ p,
    builtinOnly.resolve t.1 = some (.primitive p) ∧ checkPrimitive p = checkInteger t.2 := by
  intro t ht
  simp only [integerTypes, List.mem_cons, List.not_mem_nil, or_false] at ht
  rcases ht with rfl | rfl | rfl | rfl | rfl | rfl | rfl | rfl <;> exact ⟨_, rfl, rfl⟩

theorem resolve_floatTypes : ∀ name ∈ floatTypes, ∃ p,
    builtinOnly.resolve name = some (.primitive p) ∧ checkPrimitive p = Converter.checkFloat := by
  intro name hname
  simp only [floatTypes, List.mem_cons, List.not_mem_nil, or_false] at hname
  rcases hname with rfl | rfl | rfl | rfl <;> exact ⟨_, rfl, rfl⟩

/-- How the built-in types of integers convert. -/
structure IntegersConvert : Prop where
  /-- Each accepts the integers of its width, and tells apart those above and below. -/
  converts : ∀ t ∈ integerTypes, ∃ converter, builtinOnly.resolve t.1 = some converter ∧
    converter.ConvertsIntegers t.2
  /-- A wider type accepts what a narrower one does. -/
  widens : ∀ s ∈ integerTypes, ∀ t ∈ integerTypes, s.2 ≤ t.2 →
    ∀ raw, builtinOnly.Accepts s.1 raw → builtinOnly.Accepts t.1 raw
  /-- The types of floating-point numbers accept what any of them does. -/
  floats : ∀ s ∈ integerTypes, ∀ name ∈ floatTypes,
    ∀ raw, builtinOnly.Accepts s.1 raw → builtinOnly.Accepts name raw

/-- **Integers convert exactly.**  Where only the built-in types are known, a type of integers
accepts just the texts that write an integer in its range: one sign or none, then digits in
any number, and white space around them.  Beyond the range a number is told to be too large
or too small.  So types with larger ranges accept more, and the floating-point types accept
every integer that one of them does. -/
theorem integers_convert : IntegersConvert := by
  have hconverts : ∀ t ∈ integerTypes, ∃ converter, builtinOnly.resolve t.1 = some converter ∧
      converter.ConvertsIntegers t.2 := by
    intro t ht
    obtain ⟨p, hp, hcheck⟩ := resolve_integerTypes t ht
    exact ⟨_, hp, convertsIntegers_primitive hcheck⟩
  refine ⟨hconverts, ?_, ?_⟩
  · rintro s hs t ht hwidth raw ⟨a, ha, hraw⟩
    obtain ⟨_, ha', hfrom⟩ := hconverts s hs
    obtain ⟨b, hb, hto⟩ := hconverts t ht
    obtain rfl := Option.some.inj (ha.symm.trans ha')
    exact ⟨b, hb, hfrom.mono hto hwidth hraw⟩
  · rintro s hs name hname raw ⟨a, ha, hraw⟩
    obtain ⟨_, ha', hfrom⟩ := hconverts s hs
    obtain rfl := Option.some.inj (ha.symm.trans ha')
    obtain ⟨n, hn, -⟩ := (hfrom.accepts_iff raw).mp hraw
    obtain ⟨p, hp, hcheck⟩ := resolve_floatTypes name hname
    exact ⟨_, hp, primitive_float_of_standsFor hcheck hn⟩

end KnownTypes

end ConfigBinder
