/-
A quoted text is read back as it was.

Each character is written on its own by `escape` and read as one `piece`: a control character
without a short escape as its code, every other character as itself.  No written character
holds a bare quote, so the reader comes to the closing one with all pieces.  The code of a
control character is no half of a surrogate pair, so `join` puts the pieces together to the
characters.
-/
import ConfigBinder.Json.Quoted

namespace ConfigBinder.Json.Quoted

open Text

/-! ### One character -/

/-- The characters with a short escape other than the quote and the backslash. -/
def shortControls : List Char := ['\x08', '\t', '\n', '\x0c', '\r']

/-- The piece that a written character is read as. -/
def piece (c : Char) : Piece :=
  if c.toNat < 0x20 ∧ c ∉ shortControls then .code c.toNat else .char c

/-- The digits of the code of a control character, as `escape` writes them, stand for the code. -/
theorem number?_hexDigit :
    ∀ n < 0x20, number? 16 ['0', '0', hexDigit (n / 16), hexDigit (n % 16)] = some n := by
  decide

section

variable {ps : List Piece} {rest after : List Char}

private theorem pieces_short {letter c : Char} (hletter : letter ≠ 'u')
    (hshort : short? letter = some c) (h : pieces rest = some (ps, after)) :
    pieces ('\\' :: letter :: rest) = some (.char c :: ps, after) := by
  rw [pieces]
  · rw [hshort, h]
    rfl
  · intro a b x d tail hu
    exact absurd hu hletter

private theorem pieces_code {a b c d : Char} {n : Nat} (hn : number? 16 [a, b, c, d] = some n)
    (h : pieces rest = some (ps, after)) :
    pieces ('\\' :: 'u' :: a :: b :: c :: d :: rest) = some (.code n :: ps, after) := by
  rw [pieces, hn, h]
  rfl

private theorem pieces_self {c : Char} (hquote : c ≠ '"') (hback : c ≠ '\\')
    (hcontrol : ¬ c.toNat < 0x20) (h : pieces rest = some (ps, after)) :
    pieces (c :: rest) = some (.char c :: ps, after) := by
  rw [pieces]
  · rw [if_neg (by simp [hcontrol, hback]), h]
    rfl
  · exact hquote
  · intro a b x d tail hc
    exact absurd hc hback
  · intro e tail hc
    exact absurd hc hback

/-- A character written by `escape` is read as its `piece`, whatever follows. -/
theorem pieces_escape (c : Char) (h : pieces rest = some (ps, after)) :
    pieces (escape c ++ rest) = some (piece c :: ps, after) := by
  by_cases hquote : c = '"'
  · subst hquote
    exact pieces_short (by decide) rfl h
  by_cases hback : c = '\\'
  · subst hback
    exact pieces_short (by decide) rfl h
  by_cases hcontrol : c.toNat < 0x20
  · by_cases hshort : c ∈ shortControls
    · have hpiece : piece c = .char c := by simp [piece, hshort]
      rw [hpiece]
      simp only [shortControls, List.mem_cons, List.not_mem_nil, or_false] at hshort
      rcases hshort with rfl | rfl | rfl | rfl | rfl
      all_goals exact pieces_short (by decide) rfl h
    · have hpiece : piece c = .code c.toNat := by simp [piece, hcontrol, hshort]
      have hescape : escape c =
          ['\\', 'u', '0', '0', hexDigit (c.toNat / 16), hexDigit (c.toNat % 16)] := by
        simp only [shortControls, List.mem_cons, List.not_mem_nil, or_false, not_or] at hshort
        unfold escape
        simp [hquote, hback, hshort, hcontrol]
      rw [hpiece, hescape]
      exact pieces_code (number?_hexDigit _ hcontrol) h
  · have hne : ∀ d : Char, d.toNat < 0x20 → c ≠ d := by
      intro d hd hc
      rw [hc] at hcontrol
      exact hcontrol hd
    have hpiece : piece c = .char c := by simp [piece, hcontrol]
    have hescape : escape c = [c] := by
      unfold escape
      simp [hquote, hback, hcontrol, hne '\x08' (by decide), hne '\t' (by decide),
        hne '\n' (by decide), hne '\x0c' (by decide), hne '\r' (by decide)]
    rw [hpiece, hescape]
    exact pieces_self hquote hback hcontrol h

end

/-! ### A whole text -/

/-- What is written between quotes is read as the `piece` of each character. -/
theorem pieces_flatMap_escape (cs rest : List Char) :
    pieces (cs.flatMap escape ++ '"' :: rest) = some (cs.map piece, rest) := by
  induction cs with
  | nil => rfl
  | cons c cs ih =>
      rw [List.flatMap_cons, List.append_assoc]
      exact pieces_escape c ih

/-- `join` makes the characters of their pieces. -/
theorem join_map_piece (cs : List Char) : join (cs.map piece) = some cs := by
  induction cs with
  | nil => rfl
  | cons c cs ih =>
      rw [List.map_cons, piece]
      split
      · rename_i hcoded
        have htrail : isTrail c.toNat = false := by
          unfold isTrail
          rw [decide_eq_false (by omega)]
          rfl
        have hlead : isLead c.toNat = false := by
          unfold isLead
          rw [decide_eq_false (by omega)]
          rfl
        rw [join.eq_def]
        simp [htrail, hlead, ih, Char.ofNat_toNat]
      · rw [join, ih]
        rfl

/-- **A quoted text is read back**, whatever characters it holds and whatever follows the
closing quote. -/
theorem read_flatMap_escape (cs rest : List Char) :
    read (cs.flatMap escape ++ '"' :: rest) = some (some (String.ofList cs), rest) := by
  rw [read, pieces_flatMap_escape]
  simp [join_map_piece]

end ConfigBinder.Json.Quoted
