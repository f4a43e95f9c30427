import OperationCatalog.Json.Text

/-!
# Written strings are read back

`writeChar` writes a character so that `readText` finds it again, whatever comes behind.  A whole
string follows by induction on its characters.

## Key results

- `readText_writeChar`: one written character is read off the front of a text
- `readText_flatMap_writeChar`: a written string is read up to its closing quote
-/

namespace OperationCatalog.Json

/-- A pair of hexadecimal digits for a number below 32 is read back. -/
private theorem hexadecimal?_hexChar :
    ∀ n < 32, Text.hexadecimal? ['0', '0', hexChar (n / 16), hexChar (n % 16)] = some n := by
  decide

private theorem charOfNat?_toNat (c : Char) : Text.charOfNat? c.toNat = some c := by
  rw [Text.charOfNat?, dif_pos (show c.toNat.isValidChar from c.valid)]
  rfl

theorem readEscape_writeChar_control (c : Char) (h : c < ' ') (rest : List Char) :
    readEscape ('u' :: '0' :: '0' :: hexChar (c.toNat / 16) :: hexChar (c.toNat % 16) :: rest) =
      some (c, rest) := by
  have hlt : c.toNat < 32 := h
  rw [readEscape, readUnit, hexadecimal?_hexChar c.toNat hlt]
  have hlow : ¬(0xD800 ≤ c.toNat ∧ c.toNat < 0xDC00) := by omega
  simp [hlow, charOfNat?_toNat]

theorem readText_cons_escape {cs rest : List Char} {c : Char} (h : readEscape cs = some (c, rest)) :
    readText ('\\' :: cs) = (readText rest).map fun (s, rest) => (c :: s, rest) := by
  rw [readText]
  split
  · rename_i hnone; rw [h] at hnone; cases hnone
  · rename_i hsome
    rw [h] at hsome
    cases hsome
    rfl

theorem readText_writeChar (c : Char) (rest : List Char) :
    readText (writeChar c ++ rest) = (readText rest).map fun (s, rest) => (c :: s, rest) := by
  unfold writeChar
  split
  case h_8 =>
    split
    · rename_i hc
      exact readText_cons_escape (readEscape_writeChar_control c hc rest)
    · rw [List.singleton_append, readText]
      · rename_i hc
        rw [if_neg hc]
      · assumption
      · assumption
  all_goals exact readText_cons_escape rfl

/-- A written string is read back. -/
theorem readText_flatMap_writeChar (s rest : List Char) :
    readText (s.flatMap writeChar ++ '"' :: rest) = some (s, rest) := by
  induction s with
  | nil => rw [List.flatMap_nil, List.nil_append, readText]
  | cons c s ih => rw [List.flatMap_cons, List.append_assoc, readText_writeChar, ih]; rfl

end OperationCatalog.Json
