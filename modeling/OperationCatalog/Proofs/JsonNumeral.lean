import Mathlib.Data.List.TakeWhile
import OperationCatalog.Json.Numeral

/-!
# What follows a number does not matter

A scanner takes the longest piece that it can, so it takes the same piece from any text that does not
go on with another character of the piece.  Between the values of an array or an object, and at the
end of a text, no character of a number can follow: there the piece that `Numeral.read` has taken from
one text is taken from any other one.

## Key results

- `readDigits_eq_some`, `readWhole_eq_some`, `readFraction_eq_some`, `readExponent_eq_some`: the
  pieces of a number, each with what may follow it
- `read_eq_some`: the whole number
-/

namespace OperationCatalog.Json

/-- Whether no text that satisfies `p` at its first character follows. -/
def NotAhead (p : Char → Bool) (cs : List Char) : Prop := ∀ c ∈ cs.head?, p c = false

theorem NotAhead.nil (p : Char → Bool) : NotAhead p [] := by
  intro c hc
  cases hc

theorem NotAhead.cons {p : Char → Bool} {c : Char} (h : p c = false) (cs : List Char) :
    NotAhead p (c :: cs) := by
  intro c' hc'
  cases hc'
  exact h

theorem NotAhead.takeWhile {p : Char → Bool} {cs : List Char} (h : NotAhead p cs) :
    cs.takeWhile p = [] := by
  cases cs with
  | nil => rfl
  | cons c cs => exact List.takeWhile_cons_of_neg (by simp [h c rfl])

theorem NotAhead.dropWhile {p : Char → Bool} {cs : List Char} (h : NotAhead p cs) :
    cs.dropWhile p = cs := by
  cases cs with
  | nil => rfl
  | cons c cs => exact List.dropWhile_cons_of_neg (by simp [h c rfl])

theorem NotAhead.append {p : Char → Bool} {cs rest : List Char} (hcs : NotAhead p cs)
    (hrest : NotAhead p rest) : NotAhead p (cs ++ rest) := by
  cases cs with
  | nil => exact hrest
  | cons c cs => exact hcs

/-- What follows a value inside an array or an object, or at the end of a text. -/
def Ends (cs : List Char) : Prop := NotAhead (fun c => c ≠ ',' && c ≠ ']' && c ≠ '\x7d') cs

/-- No character of a number follows there. -/
theorem Ends.notAhead {p : Char → Bool} {cs : List Char} (h : Ends cs)
    (hp : p ',' = false ∧ p ']' = false ∧ p '\x7d' = false) : NotAhead p cs := by
  intro c hc
  have hends : c = ',' ∨ c = ']' ∨ c = '\x7d' := by
    have := h c hc
    simp only [Bool.and_eq_false_iff, decide_eq_false_iff_not, not_not, or_assoc] at this
    exact this
  rcases hends with rfl | rfl | rfl
  · exact hp.1
  · exact hp.2.1
  · exact hp.2.2

namespace Numeral

/-- A row of digits is read from any text that goes on with something else. -/
theorem readDigits_eq_some {cs ds rest : List Char} (h : readDigits cs = some (ds, rest)) :
    cs = ds ++ rest ∧ (∃ d t, ds = d :: t ∧ d.isDigit) ∧
      ∀ rest', NotAhead Char.isDigit rest' → readDigits (ds ++ rest') = some (ds, rest') := by
  have hall : ∀ d ∈ cs.takeWhile Char.isDigit, d.isDigit := fun d hd => List.mem_takeWhile_imp hd
  unfold readDigits at h
  -- the row is all that `takeWhile` gives, and it is not empty
  split at h
  · cases h
  · rename_i hne
    simp only [Option.some.injEq, Prod.mk.injEq] at h
    obtain ⟨rfl, rfl⟩ := h
    refine ⟨List.takeWhile_append_dropWhile.symm, ?_, fun rest' hrest => ?_⟩
    · cases htake : cs.takeWhile Char.isDigit with
      | nil => exact absurd htake hne
      | cons d t => exact ⟨d, t, rfl, hall d (htake ▸ List.mem_cons_self)⟩
    · rw [readDigits, List.takeWhile_append_of_pos hall, List.dropWhile_append_of_pos hall,
        hrest.takeWhile, hrest.dropWhile, List.append_nil]
      split
      · rename_i hnil
        exact absurd hnil hne
      · rfl

/-- The digits before the point. -/
theorem readWhole_eq_some {cs ds rest : List Char} (h : readWhole cs = some (ds, rest)) :
    cs = ds ++ rest ∧ (∃ d t, ds = d :: t ∧ d.isDigit) ∧
      ∀ rest', NotAhead Char.isDigit rest' → readWhole (ds ++ rest') = some (ds, rest') := by
  unfold readWhole at h
  split at h
  · -- a zero stands alone: no digit follows it here, and none will follow it there
    split at h
    · cases h
    · simp only [Option.some.injEq, Prod.mk.injEq] at h
      obtain ⟨rfl, rfl⟩ := h
      refine ⟨rfl, ⟨'0', [], rfl, rfl⟩, fun rest' hrest => ?_⟩
      have hhead : (rest'.head?.map Char.isDigit).getD false = false := by
        cases rest' with
        | nil => rfl
        | cons c t => exact hrest c rfl
      rw [List.singleton_append, readWhole, if_neg (by simp [hhead])]
  · rename_i hzero
    obtain ⟨rfl, ⟨d, t, rfl, hd⟩, htakes⟩ := readDigits_eq_some h
    refine ⟨rfl, ⟨d, t, rfl, hd⟩, fun rest' hrest => ?_⟩
    -- the first digit is the same in front of any rest, so it is still no zero
    rw [readWhole]
    · exact htakes rest' hrest
    · intro r hr
      injection hr with hr
      exact hzero (t ++ rest) (by rw [hr]; rfl)

/-- A point with its digits, or nothing where no point follows. -/
theorem readFraction_eq_some {cs rest : List Char} {ds : Option (List Char)}
    (h : readFraction cs = some (ds, rest)) :
    ∃ piece, cs = piece ++ rest ∧ NotAhead Char.isDigit piece ∧
      ∀ rest', NotAhead Char.isDigit rest' → NotAhead (· = '.') rest' →
        readFraction (piece ++ rest') = some (ds, rest') := by
  unfold readFraction at h
  split at h
  · -- a point with its digits
    obtain ⟨⟨ds', rest'⟩, hdigits, he⟩ := Option.map_eq_some_iff.1 h
    cases he
    obtain ⟨rfl, -, htakes⟩ := readDigits_eq_some hdigits
    refine ⟨'.' :: ds', rfl, .cons rfl ds', fun r hr _ => ?_⟩
    rw [List.cons_append, readFraction, htakes r hr]
    rfl
  · -- nothing is taken, so the rest must not begin with a point
    cases h
    refine ⟨[], rfl, .nil _, fun r _ hr => ?_⟩
    rw [List.nil_append, readFraction]
    intro t ht
    rw [ht] at hr
    exact absurd (hr '.' rfl) (by decide)

/-- Whether a character begins an exponent. -/
private def isExponentMark (c : Char) : Bool := c = 'e' || c = 'E'

private theorem readExponent_of_notAhead {cs : List Char} (h : NotAhead isExponentMark cs) :
    readExponent cs = some (none, cs) := by
  unfold readExponent
  split
  · rename_i e rest
    have he : ¬(e = 'e' ∨ e = 'E') := by simpa [isExponentMark] using h e rfl
    rw [if_neg he]
  · rfl

/-- Behind the mark of an exponent come its digits, with a sign before them or without. -/
private theorem readExponent_of_mark {e : Char} {cs rest : List Char} {n : Option Int}
    (he : e = 'e' ∨ e = 'E') (h : readExponent (e :: cs) = some (n, rest)) :
    ∃ piece, cs = piece ++ rest ∧ ∀ rest', NotAhead Char.isDigit rest' →
      readExponent (e :: (piece ++ rest')) = some (n, rest') := by
  rw [readExponent.eq_def] at h
  simp only [he, if_true] at h
  split at h
  all_goals
    obtain ⟨⟨ds, r⟩, hdigits, hn⟩ := Option.map_eq_some_iff.1 h
    cases hn
    obtain ⟨rfl, ⟨d, t, rfl, hd⟩, htakes⟩ := readDigits_eq_some hdigits
  · refine ⟨'-' :: d :: t, rfl, fun r hr => ?_⟩
    rw [readExponent.eq_def]
    simp only [he, if_true, List.cons_append]
    rw [← List.cons_append, htakes r hr]
    rfl
  · refine ⟨'+' :: d :: t, rfl, fun r hr => ?_⟩
    rw [readExponent.eq_def]
    simp only [he, if_true, List.cons_append]
    rw [← List.cons_append, htakes r hr]
    rfl
  · refine ⟨d :: t, rfl, fun r hr => ?_⟩
    rw [readExponent.eq_def]
    simp only [he, if_true]
    -- a digit is not a sign
    split
    · rename_i heq
      injection heq with heq
      subst heq
      cases hd
    · rename_i heq
      injection heq with heq
      subst heq
      cases hd
    · rw [htakes r hr]
      rfl

/-- An exponent, or nothing where none follows. -/
theorem readExponent_eq_some {cs rest : List Char} {n : Option Int}
    (h : readExponent cs = some (n, rest)) :
    ∃ piece, cs = piece ++ rest ∧ NotAhead Char.isDigit piece ∧ NotAhead (· = '.') piece ∧
      ∀ rest', NotAhead Char.isDigit rest' → NotAhead isExponentMark rest' →
        readExponent (piece ++ rest') = some (n, rest') := by
  by_cases hmark : NotAhead isExponentMark cs
  · rw [readExponent_of_notAhead hmark] at h
    cases h
    exact ⟨[], rfl, .nil _, .nil _, fun r _ hr => readExponent_of_notAhead hr⟩
  · cases cs with
    | nil => exact absurd (NotAhead.nil _) hmark
    | cons e cs =>
      -- a mark is ahead, and it is neither a digit nor a point
      have he : e = 'e' ∨ e = 'E' := by
        apply Classical.byContradiction
        intro hne
        exact hmark (.cons (by simpa [isExponentMark] using hne) cs)
      obtain ⟨piece, rfl, htakes⟩ := readExponent_of_mark he h
      have hdigit : e.isDigit = false := by rcases he with rfl | rfl <;> rfl
      have hpoint : decide (e = '.') = false := by rcases he with rfl | rfl <;> rfl
      exact ⟨e :: piece, rfl, .cons hdigit piece, .cons hpoint piece, fun r hr _ => htakes r hr⟩

/-- The parts of a number behind its sign. -/
private def readUnsigned (negative : Bool) (cs : List Char) : Option (Numeral × List Char) := do
  let (whole, cs) ← readWhole cs
  let (fraction, cs) ← readFraction cs
  let (exponent, cs) ← readExponent cs
  return (⟨negative, whole, fraction, exponent⟩, cs)

private theorem read_minus (cs : List Char) : read ('-' :: cs) = readUnsigned true cs := rfl

private theorem read_of_ne_minus {cs : List Char} (h : cs.head? ≠ some '-') :
    read cs = readUnsigned false cs := by
  unfold read
  split
  rename_i negative cs' hsign
  split at hsign
  · exact absurd rfl h
  · cases hsign
    rfl

private theorem readUnsigned_eq_some {negative : Bool} {cs rest : List Char} {n : Numeral}
    (h : readUnsigned negative cs = some (n, rest)) :
    ∃ d piece, cs = d :: piece ++ rest ∧ d.isDigit ∧
      ∀ rest', Ends rest' → readUnsigned negative (d :: piece ++ rest') = some (n, rest') := by
  simp only [readUnsigned, Option.bind_eq_bind, Option.bind_eq_some_iff, Prod.exists] at h
  obtain ⟨whole, cs₁, hwhole, fraction, cs₂, hfraction, exponent, cs₃, hexponent, hn⟩ := h
  obtain ⟨rfl, rfl⟩ : (⟨negative, whole, fraction, exponent⟩ : Numeral) = n ∧ cs₃ = rest := by
    simpa using hn
  obtain ⟨rfl, ⟨d, t, rfl, hd⟩, htakes₁⟩ := readWhole_eq_some hwhole
  obtain ⟨p₂, rfl, hdigit₂, htakes₂⟩ := readFraction_eq_some hfraction
  obtain ⟨p₃, rfl, hdigit₃, hpoint₃, htakes₃⟩ := readExponent_eq_some hexponent
  refine ⟨d, t ++ (p₂ ++ p₃), by simp, hd, fun r hr => ?_⟩
  -- each piece is followed by the next ones, and none of those goes on with its characters
  have hdigit : NotAhead Char.isDigit r := hr.notAhead (by decide)
  have hpoint : NotAhead (· = '.') r := hr.notAhead (by decide)
  have hmark : NotAhead isExponentMark r := hr.notAhead (by decide)
  have h₁ := htakes₁ (p₂ ++ (p₃ ++ r)) (hdigit₂.append (hdigit₃.append hdigit))
  have h₂ := htakes₂ (p₃ ++ r) (hdigit₃.append hdigit) (hpoint₃.append hpoint)
  have h₃ := htakes₃ r hdigit hmark
  simp only [List.cons_append, List.append_assoc] at h₁ ⊢
  simp [readUnsigned, h₁, h₂, h₃]

/-- The number at the start of a text is read from any text that goes on as between values. -/
theorem read_eq_some {cs rest : List Char} {n : Numeral} (h : read cs = some (n, rest)) :
    ∃ c piece, cs = c :: piece ++ rest ∧ (c = '-' ∨ c.isDigit) ∧
      ∀ rest', Ends rest' → read (c :: piece ++ rest') = some (n, rest') := by
  by_cases hminus : cs.head? = some '-'
  · obtain ⟨t, rfl⟩ : ∃ t, cs = '-' :: t := by
      cases cs with
      | nil => cases hminus
      | cons c t => exact ⟨t, by rw [Option.some.inj hminus]⟩
    rw [read_minus] at h
    obtain ⟨d, piece, rfl, -, htakes⟩ := readUnsigned_eq_some h
    exact ⟨'-', d :: piece, rfl, .inl rfl, htakes⟩
  · rw [read_of_ne_minus hminus] at h
    obtain ⟨d, piece, rfl, hd, htakes⟩ := readUnsigned_eq_some h
    refine ⟨d, piece, rfl, .inr hd, fun r hr => ?_⟩
    -- whether there is a sign is decided by the first character of the piece
    have hother : (d :: piece ++ r).head? ≠ some '-' := hminus
    rw [read_of_ne_minus hother]
    exact htakes r hr

end Numeral
end OperationCatalog.Json
