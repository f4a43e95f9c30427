import OperationCatalog.Decimal.Shortest

/-!
# Number texts

How the digits of a number are laid out.  A `Layout` holds the decisions of one format; `Layout.text`
writes a double by it.  `Layout.mem_text` says which characters can stand in such a text.
-/

namespace OperationCatalog.Decimal

/-- The decisions of a number format. -/
structure Layout where
  /-- Which of two equally near shortest decimals is written. -/
  tie : Tie
  /-- Whether a number with this leading exponent is written without one. -/
  positional : Int → Bool
  /-- What stands behind the digits of a number without a fraction. -/
  wholeEnd : String
  infinity : String
  negativeInfinity : String
  notANumber : String

/-- The decimal digits of a number without the zeros at its end. -/
def significant (n : Nat) : List Char :=
  ((Nat.toDigits 10 n).reverse.dropWhile (· = '0')).reverse

/-- Digits with the decimal point put after the digit that stands for `10 ^ lead`, or zeros where there
are no digits. -/
def positionalText (wholeEnd : String) (digits : List Char) (lead : Int) : String :=
  if lead < 0 then
    "0." ++ String.ofList (List.replicate (-lead - 1).toNat '0' ++ digits)
  else
    let whole := lead.toNat + 1
    if digits.length ≤ whole then
      String.ofList (digits ++ List.replicate (whole - digits.length) '0') ++ wholeEnd
    else String.ofList (digits.take whole) ++ "." ++ String.ofList (digits.drop whole)

/-- One digit before the point and the signed exponent behind. -/
def scientificText (digits : List Char) (lead : Int) : String :=
  let fraction := digits.drop 1
  String.ofList (digits.take 1)
    ++ (if fraction.isEmpty then "" else "." ++ String.ofList fraction)
    ++ (if lead < 0 then "e-" else "e+") ++ toString lead.natAbs

namespace Layout

/-- The text of a number that is not negative. -/
def absText (layout : Layout) (mantissa : Nat) (exponent : Int) (narrow : Bool) : String :=
  if mantissa = 0 then "0" ++ layout.wholeEnd
  else
    let s := (Rounding.around mantissa exponent narrow).shortest layout.tie
    let lead := s.exponent + ((Nat.toDigits 10 s.digits).length - 1 : Nat)
    if layout.positional lead then positionalText layout.wholeEnd (significant s.digits) lead
    else scientificText (significant s.digits) lead

/-- The text of a double. -/
def text (layout : Layout) (x : Float) : String :=
  match Binary64.ofFloat x with
  | .finite negative mantissa exponent narrow =>
    (if negative then "-" else "") ++ layout.absText mantissa exponent narrow
  | .infinite false => layout.infinity
  | .infinite true => layout.negativeInfinity
  | .notANumber => layout.notANumber

end Layout

/-! ## The characters of numbers -/

/-- Whether a character may stand in the text of a finite number. -/
def isNumeric (c : Char) : Bool := c.isDigit || c = '-' || c = '+' || c = '.' || c = 'e'

theorem isNumeric_of_mem {s : String} {c : Char} (hs : s.toList.all isNumeric = true)
    (h : c ∈ s.toList) : isNumeric c = true :=
  List.all_eq_true.1 hs c h

theorem isNumeric_of_mem_toDigits {n : Nat} {c : Char} (h : c ∈ Nat.toDigits 10 n) :
    isNumeric c = true := by
  simp [isNumeric, Nat.isDigit_of_mem_toDigits (by decide) (by decide) h]

theorem isNumeric_of_mem_toString {n : Nat} {c : Char} (h : c ∈ (toString n).toList) :
    isNumeric c = true := by
  apply isNumeric_of_mem_toDigits (n := n)
  simpa [toString, Nat.repr] using h

theorem isNumeric_of_mem_toString_int {i : Int} {c : Char} (h : c ∈ (toString i).toList) :
    isNumeric c = true := by
  cases i with
  | ofNat n => exact isNumeric_of_mem_toString h
  | negSucc n =>
    have hcons : (toString (Int.negSucc n)).toList = '-' :: (toString (n + 1)).toList := by
      rw [show toString (Int.negSucc n) = "-" ++ toString (n + 1) from rfl, String.toList_append]
      rfl
    rw [hcons] at h
    rcases List.mem_cons.1 h with rfl | h
    · rfl
    · exact isNumeric_of_mem_toString h

theorem isNumeric_of_mem_significant {n : Nat} {c : Char} (h : c ∈ significant n) :
    isNumeric c = true := by
  rw [significant, List.mem_reverse] at h
  have hdigits := (List.dropWhile_suffix _).subset h
  exact isNumeric_of_mem_toDigits (List.mem_reverse.1 hdigits)

theorem mem_positionalText {wholeEnd : String} {digits : List Char} {lead : Int} {c : Char}
    (hdigits : ∀ d ∈ digits, isNumeric d = true)
    (h : c ∈ (positionalText wholeEnd digits lead).toList) :
    isNumeric c = true ∨ c ∈ wholeEnd.toList := by
  have hzeros : ∀ n, c ∈ List.replicate n '0' → isNumeric c = true := by
    intro n hc
    rw [List.eq_of_mem_replicate hc]
    rfl
  simp only [positionalText] at h
  split at h
  · simp only [String.toList_append, String.toList_ofList, List.mem_append] at h
    rcases h with h | h | h
    · exact .inl (isNumeric_of_mem (by decide) h)
    · exact .inl (hzeros _ h)
    · exact .inl (hdigits c h)
  · split at h
    · simp only [String.toList_append, String.toList_ofList, List.mem_append] at h
      rcases h with (h | h) | h
      · exact .inl (hdigits c h)
      · exact .inl (hzeros _ h)
      · exact .inr h
    · simp only [String.toList_append, String.toList_ofList, List.mem_append] at h
      rcases h with (h | h) | h
      · exact .inl (hdigits c (List.mem_of_mem_take h))
      · exact .inl (isNumeric_of_mem (by decide) h)
      · exact .inl (hdigits c (List.mem_of_mem_drop h))

theorem mem_scientificText {digits : List Char} {lead : Int} {c : Char}
    (hdigits : ∀ d ∈ digits, isNumeric d = true) (h : c ∈ (scientificText digits lead).toList) :
    isNumeric c = true := by
  simp only [scientificText, String.toList_append, List.mem_append, String.toList_ofList] at h
  rcases h with ((h | h) | h) | h
  · exact hdigits c (List.mem_of_mem_take h)
  · split at h
    · cases h
    · simp only [String.toList_append, List.mem_append, String.toList_ofList] at h
      rcases h with h | h
      · exact isNumeric_of_mem (by decide) h
      · exact hdigits c (List.mem_of_mem_drop h)
  · split at h
    · exact isNumeric_of_mem (by decide) h
    · exact isNumeric_of_mem (by decide) h
  · exact isNumeric_of_mem_toString h

namespace Layout

/-- The texts of a layout that are written as they are. -/
def fixedText (layout : Layout) : String :=
  layout.wholeEnd ++ layout.infinity ++ layout.negativeInfinity ++ layout.notANumber

theorem mem_absText {layout : Layout} {mantissa : Nat} {exponent : Int} {narrow : Bool} {c : Char}
    (h : c ∈ (layout.absText mantissa exponent narrow).toList) :
    isNumeric c = true ∨ c ∈ layout.wholeEnd.toList := by
  simp only [absText] at h
  split at h
  · rw [String.toList_append, List.mem_append] at h
    exact h.imp_left fun h => isNumeric_of_mem (by decide) h
  · split at h
    · exact mem_positionalText (fun d => isNumeric_of_mem_significant) h
    · exact .inl (mem_scientificText (fun d => isNumeric_of_mem_significant) h)

/-- The characters of a number are digits, signs, the point and the mark of the exponent, and those of
the texts that its layout prescribes. -/
theorem mem_text {layout : Layout} {x : Float} {c : Char} (h : c ∈ (layout.text x).toList) :
    isNumeric c = true ∨ c ∈ layout.fixedText.toList := by
  simp only [fixedText, String.toList_append, List.mem_append]
  rw [text] at h
  split at h
  · rw [String.toList_append, List.mem_append] at h
    rcases h with h | h
    · split at h
      · exact .inl (isNumeric_of_mem (by decide) h)
      · cases h
    · rcases mem_absText h with h | h <;> simp [h]
  · simp [h]
  · simp [h]
  · simp [h]

end Layout

end OperationCatalog.Decimal
