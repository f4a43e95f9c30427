import OperationCatalog.Text.CodeRanges

/-!
# White space and trimming

`isBlank` is the property White_Space: the controls from tab to carriage return, the blank, next
line, and the spaces outside ASCII.  `trim` takes it off both ends of a text.  The functions work on
lists of characters; those on `String` wrap them.
-/

namespace OperationCatalog.Text

/-- The characters with the property White_Space. -/
def blankRanges : CodeRanges :=
  [(0x0009, 0x000D), (0x0020, 0x0020), (0x0085, 0x0085), (0x00A0, 0x00A0), (0x1680, 0x1680),
   (0x2000, 0x200A), (0x2028, 0x2029), (0x202F, 0x202F), (0x205F, 0x205F), (0x3000, 0x3000)]

/-- Whether `c` is white space. -/
def isBlank (c : Char) : Bool := blankRanges.holds c

/-- What is left of a list when the elements at its end that satisfy `p` are taken off. -/
def dropTrailing {α : Type} (p : α → Bool) (xs : List α) : List α :=
  (xs.reverse.dropWhile p).reverse

@[simp] theorem dropTrailing_nil {α : Type} (p : α → Bool) : dropTrailing p ([] : List α) = [] := rfl

theorem dropTrailing_concat {α : Type} (p : α → Bool) (xs : List α) (x : α) :
    dropTrailing p (xs ++ [x]) = if p x then dropTrailing p xs else xs ++ [x] := by
  simp only [dropTrailing, List.reverse_append, List.reverse_singleton, List.singleton_append,
    List.dropWhile_cons]
  split <;> simp

theorem dropTrailing_prefix {α : Type} (p : α → Bool) (xs : List α) : dropTrailing p xs <+: xs := by
  rw [dropTrailing, ← List.reverse_suffix, List.reverse_reverse]
  exact List.dropWhile_suffix p

/-- The first element of two lists is that of one of them. -/
theorem mem_head?_append {α : Type} {x : α} {xs ys : List α} (h : x ∈ (xs ++ ys).head?) :
    x ∈ xs.head? ∨ x ∈ ys.head? := by
  rw [List.head?_append] at h
  exact (Option.or_eq_some_iff.1 h).imp_right And.right

/-- So is the last one. -/
theorem mem_getLast?_append {α : Type} {x : α} {xs ys : List α} (h : x ∈ (xs ++ ys).getLast?) :
    x ∈ xs.getLast? ∨ x ∈ ys.getLast? := by
  rw [List.getLast?_append] at h
  exact (Option.or_eq_some_iff.1 h).symm.imp_left And.right

theorem dropWhile_of_head? {α : Type} {p : α → Bool} {xs : List α}
    (h : ∀ x ∈ xs.head?, p x = false) : xs.dropWhile p = xs := by
  cases xs with
  | nil => rfl
  | cons x xs =>
    rw [List.dropWhile_cons, h x rfl]
    rfl

/-- From an element on that does not satisfy `p`, all stays. -/
theorem dropWhile_append_cons {α : Type} {p : α → Bool} {x : α} (h : p x = false)
    (xs ys : List α) : (xs ++ x :: ys).dropWhile p = xs.dropWhile p ++ x :: ys := by
  rw [List.dropWhile_append]
  split
  · rename_i hempty
    rw [List.isEmpty_iff.1 hempty, List.nil_append, List.dropWhile_cons_of_neg (by simp [h])]
  · rfl

/-- What is left behind the leading elements that satisfy `p`: a first one that does not, with such
elements before it only. -/
theorem dropWhile_eq_iff {α : Type} {p : α → Bool} {xs kept : List α} :
    xs.dropWhile p = kept ↔
      (∃ front, xs = front ++ kept ∧ ∀ x ∈ front, p x = true) ∧ ∀ x ∈ kept.head?, p x = false := by
  constructor
  · rintro rfl
    refine ⟨⟨xs.takeWhile p, List.takeWhile_append_dropWhile.symm, fun x hx => ?_⟩, fun x hx => ?_⟩
    · exact List.all_eq_true.1 List.all_takeWhile x hx
    · have hnot := List.head?_dropWhile_not p xs
      rw [hx] at hnot
      simpa using hnot
  · rintro ⟨⟨front, rfl, hfront⟩, hkept⟩
    rw [List.dropWhile_append_of_pos hfront]
    exact dropWhile_of_head? hkept

/-- The same from the other end. -/
theorem dropTrailing_eq_iff {α : Type} {p : α → Bool} {xs kept : List α} :
    dropTrailing p xs = kept ↔
      (∃ back, xs = kept ++ back ∧ ∀ x ∈ back, p x = true) ∧ ∀ x ∈ kept.getLast?, p x = false := by
  rw [dropTrailing, List.reverse_eq_iff, dropWhile_eq_iff, List.head?_reverse]
  refine and_congr_left fun _ => ⟨?_, ?_⟩
  · rintro ⟨front, hxs, hfront⟩
    refine ⟨front.reverse, ?_, fun x hx => hfront x (List.mem_reverse.1 hx)⟩
    rw [← List.reverse_reverse xs, hxs, List.reverse_append, List.reverse_reverse]
  · rintro ⟨back, rfl, hback⟩
    exact ⟨back.reverse, List.reverse_append, fun x hx => hback x (List.mem_reverse.1 hx)⟩

/-- Up to an element that does not satisfy `p`, all stays. -/
theorem dropTrailing_append_cons {α : Type} {p : α → Bool} {x : α} (h : p x = false)
    (xs ys : List α) : dropTrailing p (xs ++ x :: ys) = xs ++ x :: dropTrailing p ys := by
  obtain ⟨⟨back, hys, hback⟩, hlast⟩ := dropTrailing_eq_iff.1 (rfl : dropTrailing p ys = _)
  refine dropTrailing_eq_iff.2 ⟨⟨back, ?_, hback⟩, fun y hy => ?_⟩
  · rw [List.append_assoc, List.cons_append, ← hys]
  · rw [List.append_cons] at hy
    rcases mem_getLast?_append hy with hxs | hkept
    · rw [List.getLast?_concat, Option.mem_some_iff] at hxs
      rw [← hxs, h]
    · exact hlast y hkept

theorem dropTrailing_of_getLast? {α : Type} {p : α → Bool} {xs : List α}
    (h : ∀ x ∈ xs.getLast?, p x = false) : dropTrailing p xs = xs :=
  dropTrailing_eq_iff.2 ⟨⟨[], (List.append_nil xs).symm, by simp⟩, h⟩

theorem getLast?_dropTrailing {α : Type} (p : α → Bool) (xs : List α) :
    ∀ x ∈ (dropTrailing p xs).getLast?, p x = false :=
  (dropTrailing_eq_iff.1 rfl).2

/-- The text without the white space at its ends. -/
def trimChars (cs : List Char) : List Char := dropTrailing isBlank (cs.dropWhile isBlank)

/-- Whether a text has no white space at its ends. -/
def Trimmed (cs : List Char) : Prop :=
  (∀ c ∈ cs.head?, isBlank c = false) ∧ ∀ c ∈ cs.getLast?, isBlank c = false

theorem Trimmed.trimChars_eq {cs : List Char} (h : Trimmed cs) : trimChars cs = cs := by
  rw [trimChars, dropWhile_of_head? h.1, dropTrailing_of_getLast? h.2]

theorem trimmed_trimChars (cs : List Char) : Trimmed (trimChars cs) := by
  refine ⟨fun c hc => ?_, getLast?_dropTrailing isBlank _⟩
  -- the first character is that of the text without white space before it
  obtain ⟨rest, hrest⟩ := dropTrailing_prefix isBlank (cs.dropWhile isBlank)
  have hfirst : (cs.dropWhile isBlank).head? = some c := by
    rw [trimChars] at hc
    rw [← hrest, List.head?_append, hc]
    rfl
  exact (dropWhile_eq_iff.1 rfl).2 c hfirst

/-- A text is trimmed to the part of it that has white space on both sides and none at its ends. -/
theorem trimChars_eq_iff {cs kept : List Char} :
    trimChars cs = kept ↔
      (∃ front back, cs = front ++ kept ++ back ∧ (∀ c ∈ front, isBlank c = true) ∧
        ∀ c ∈ back, isBlank c = true) ∧ Trimmed kept := by
  constructor
  · rintro rfl
    obtain ⟨⟨front, hfront, hblank⟩, -⟩ := dropWhile_eq_iff.1 (rfl : cs.dropWhile isBlank = _)
    obtain ⟨⟨back, hback, hblank'⟩, -⟩ := dropTrailing_eq_iff.1 (rfl : trimChars cs = _)
    refine ⟨⟨front, back, ?_, hblank, hblank'⟩, trimmed_trimChars cs⟩
    rw [List.append_assoc, ← hback]
    exact hfront
  · rintro ⟨⟨front, back, rfl, hfront, hback⟩, hkept⟩
    rw [trimChars, List.append_assoc, List.dropWhile_append_of_pos hfront]
    cases kept with
    | nil =>
      -- a text of white space alone is gone before its end is looked at
      have hnil : back.dropWhile isBlank = [] :=
        dropWhile_eq_iff.2 ⟨⟨back, (List.append_nil back).symm, hback⟩, by simp⟩
      rw [List.nil_append, hnil, dropTrailing_nil]
    | cons c rest =>
      rw [dropWhile_of_head? (by simpa using hkept.1)]
      exact dropTrailing_eq_iff.2 ⟨⟨back, rfl, hback⟩, hkept.2⟩

/-- White space that is put around a text is taken off again. -/
theorem trimChars_around {front back : List Char} (hfront : ∀ c ∈ front, isBlank c = true)
    (hback : ∀ c ∈ back, isBlank c = true) (cs : List Char) :
    trimChars (front ++ cs ++ back) = trimChars cs := by
  obtain ⟨⟨before, behind, hcs, hbefore, hbehind⟩, htrimmed⟩ :=
    trimChars_eq_iff.1 (rfl : trimChars cs = _)
  refine trimChars_eq_iff.2 ⟨⟨front ++ before, behind ++ back, ?_, ?_, ?_⟩, htrimmed⟩
  · conv => lhs; rw [hcs]
    simp only [List.append_assoc]
  · exact List.forall_mem_append.2 ⟨hfront, hbefore⟩
  · exact List.forall_mem_append.2 ⟨hbehind, hback⟩

/-- The text without the white space at its ends. -/
def trim (s : String) : String := String.ofList (trimChars s.toList)

/-- Whether nothing but white space is in the text. -/
def isAllBlank (s : String) : Bool := s.toList.all isBlank

/-- The text without the characters at its end that satisfy `p`. -/
def trimEnd (p : Char → Bool) (s : String) : String := String.ofList (dropTrailing p s.toList)

@[simp] theorem toList_trim (s : String) : (trim s).toList = trimChars s.toList := by
  simp [trim]

@[simp] theorem toList_trimEnd (p : Char → Bool) (s : String) :
    (trimEnd p s).toList = dropTrailing p s.toList := by
  simp [trimEnd]

end OperationCatalog.Text
