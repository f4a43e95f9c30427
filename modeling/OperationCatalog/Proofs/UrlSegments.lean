import OperationCatalog.UrlVariants

/-!
# URLs that are put together from segments

An evaluated URL is a row of segments, some of which may be left out and stand in brackets.
`UrlVariants` works on the characters of the row.  As long as no segment has a bracket or a question
mark of its own, it finds the segments again: the scan goes over a plain segment without a stop, takes
a bracketed one as a whole, and is then at the start of the next one.

## Key results

- `minimal_append`, `minimal_bracketed`: the scan over one plain and over one bracketed segment
- `path_row`, `full_row`, `minimal_row`: what becomes of a row of segments
- `expand_row`: its two variants, whatever query follows
-/

namespace OperationCatalog.UrlVariants

/-- A part of a URL, which may be `optional`. -/
structure Segment where
  optional : Bool
  text : List Char

/-- A segment as it stands in an evaluated URL. -/
def Segment.marked (s : Segment) : List Char :=
  if s.optional then '[' :: (s.text ++ [']']) else s.text

/-- Several segments as they stand in an evaluated URL. -/
def row (segments : List Segment) : List Char := segments.flatMap Segment.marked

/-- Whether a text has no bracket and no question mark. -/
def Unmarked (cs : List Char) : Prop := '[' ∉ cs ∧ ']' ∉ cs ∧ '?' ∉ cs

/-! ## The query -/

theorem path_append {cs : List Char} (h : '?' ∉ cs) (rest : List Char) :
    path (cs ++ rest) = cs ++ path rest := by
  apply List.takeWhile_append_of_pos
  intro c hc
  have hne : c ≠ '?' := by
    intro heq
    exact h (heq ▸ hc)
  exact decide_eq_true hne

/-- What a text with no question mark is followed by is no part of the path if it is a query. -/
theorem path_append_query {cs tail : List Char} (h : '?' ∉ cs) (htail : ∀ c ∈ tail.head?, c = '?') :
    path (cs ++ tail) = cs := by
  rw [path_append h]
  cases tail with
  | nil => rw [path, List.takeWhile_nil, List.append_nil]
  | cons c tail =>
    rw [htail c rfl, path, List.takeWhile_cons_of_neg (by decide), List.append_nil]

/-- No segment brings a question mark in. -/
theorem not_mem_row {segments : List Segment} (h : ∀ s ∈ segments, Unmarked s.text) :
    '?' ∉ row segments := by
  intro hmem
  obtain ⟨s, hs, hc⟩ := List.mem_flatMap.1 hmem
  have htext : '?' ∉ s.text := (h s hs).2.2
  unfold Segment.marked at hc
  split at hc
  · -- in brackets, which are no question marks
    simp only [List.mem_cons, List.mem_append, List.not_mem_nil, or_false] at hc
    rcases hc with hc | hc | hc
    · exact absurd hc (by decide)
    · exact htext hc
    · exact absurd hc (by decide)
  · exact htext hc

/-! ## The variant with everything -/

theorem full_append (cs ds : List Char) : full (cs ++ ds) = full cs ++ full ds :=
  List.filter_append ..

theorem full_of_unmarked {cs : List Char} (h : Unmarked cs) : full cs = cs := by
  rw [full, List.filter_eq_self]
  intro c hc
  have hopen : c ≠ '[' := fun heq => h.1 (heq ▸ hc)
  have hclose : c ≠ ']' := fun heq => h.2.1 (heq ▸ hc)
  simp only [hopen, hclose, ne_eq, not_false_eq_true, decide_true, Bool.and_self]

/-- A segment without its brackets is its text. -/
theorem full_marked {s : Segment} (h : Unmarked s.text) : full s.marked = s.text := by
  unfold Segment.marked
  split
  · have hopen : full ['['] = [] := by decide
    have hclose : full [']'] = [] := by decide
    rw [← List.singleton_append, full_append, full_append, hopen, hclose, full_of_unmarked h,
      List.nil_append, List.append_nil]
  · exact full_of_unmarked h

theorem full_row {segments : List Segment} (h : ∀ s ∈ segments, Unmarked s.text) :
    full (row segments) = segments.flatMap Segment.text := by
  induction segments with
  | nil => rfl
  | cons s rest ih =>
    have hs : Unmarked s.text := h s List.mem_cons_self
    have hrest : ∀ t ∈ rest, Unmarked t.text := fun t ht => h t (List.mem_cons_of_mem s ht)
    rw [row, List.flatMap_cons, full_append, full_marked hs, List.flatMap_cons]
    exact congrArg (s.text ++ ·) (ih hrest)

/-! ## The variant without the optional segments -/

/-- The scan goes over a text without an opening bracket. -/
theorem minimal_append {cs : List Char} (h : '[' ∉ cs) (rest : List Char) :
    minimal (cs ++ rest) = cs ++ minimal rest := by
  induction cs with
  | nil => rfl
  | cons c cs ih =>
    rw [List.mem_cons, not_or] at h
    rw [List.cons_append, minimal, if_neg (Ne.symm h.1), ih h.2, List.cons_append]

/-- A bracketed text is taken as a whole, with all closing brackets that follow. -/
theorem minimal_bracketed {cs : List Char} (h : ']' ∉ cs) (rest : List Char) :
    minimal ('[' :: (cs ++ ']' :: rest)) = minimal (rest.dropWhile (· = ']')) := by
  -- the first closing bracket is the one behind the text
  have hclose : (cs ++ ']' :: rest).dropWhile (· ≠ ']') = ']' :: rest := by
    rw [List.dropWhile_append_of_pos]
    · exact List.dropWhile_cons_of_neg (by decide)
    · intro c hc
      have hne : c ≠ ']' := by
        intro heq
        exact h (heq ▸ hc)
      exact decide_eq_true hne
  rw [minimal, if_pos rfl]
  simp only [hclose, List.isEmpty_cons, Bool.false_eq_true, if_false]
  rw [List.dropWhile_cons_of_pos (by decide)]

/-- A row of segments does not begin with a closing bracket, so that one which comes before it stays
    apart from it, if what is behind the row does not begin with one either. -/
theorem dropWhile_row_append {segments : List Segment} (h : ∀ s ∈ segments, Unmarked s.text)
    {tail : List Char} (htail : tail.dropWhile (· = ']') = tail) :
    (row segments ++ tail).dropWhile (· = ']') = row segments ++ tail := by
  induction segments with
  | nil => exact htail
  | cons s rest ih =>
    have hs : Unmarked s.text := h s List.mem_cons_self
    have hrest : ∀ t ∈ rest, Unmarked t.text := fun t ht => h t (List.mem_cons_of_mem s ht)
    rw [row, List.flatMap_cons]
    unfold Segment.marked
    split
    · exact List.dropWhile_cons_of_neg (by decide)
    · cases htext : s.text with
      | nil => exact ih hrest
      | cons c cs =>
        -- a plain segment with a text begins with a character of it
        have hne : c ≠ ']' := by
          intro heq
          apply hs.2.1
          rw [htext, heq]
          exact List.mem_cons_self
        exact List.dropWhile_cons_of_neg (by simpa using hne)

/-- The scan takes the optional segments out of a row and goes on behind it. -/
theorem minimal_row_append {segments : List Segment} (h : ∀ s ∈ segments, Unmarked s.text)
    {tail : List Char} (htail : tail.dropWhile (· = ']') = tail) :
    minimal (row segments ++ tail) =
      (segments.filter (!·.optional)).flatMap Segment.text ++ minimal tail := by
  induction segments with
  | nil => rfl
  | cons s rest ih =>
    have hs : Unmarked s.text := h s List.mem_cons_self
    have hrest : ∀ t ∈ rest, Unmarked t.text := fun t ht => h t (List.mem_cons_of_mem s ht)
    have hrow : row (s :: rest) = s.marked ++ row rest := List.flatMap_cons
    rw [hrow, List.append_assoc]
    unfold Segment.marked
    cases hopt : s.optional with
    | true =>
      -- the closing brackets that follow are only its own
      rw [if_pos rfl, List.cons_append, List.append_assoc, List.singleton_append,
        minimal_bracketed hs.2.1, dropWhile_row_append hrest htail, ih hrest]
      simp [hopt]
    | false =>
      rw [if_neg (by decide), minimal_append hs.1, ih hrest]
      simp [hopt]

theorem minimal_row {segments : List Segment} (h : ∀ s ∈ segments, Unmarked s.text) :
    minimal (row segments) = (segments.filter (!·.optional)).flatMap Segment.text := by
  have hnil : minimal [] = [] := by rw [minimal]
  have hrow := minimal_row_append h (List.dropWhile_nil : [].dropWhile (· = ']') = [])
  rwa [hnil, List.append_nil, List.append_nil] at hrow

/-! ## Both variants -/

/-- A bracket in a row is that of an optional segment. -/
theorem contains_row {segments : List Segment} (h : ∃ s ∈ segments, s.optional) :
    (row segments).contains '[' = true := by
  obtain ⟨s, hs, hopt⟩ := h
  rw [List.contains_iff_mem]
  apply List.mem_flatMap.2 ⟨s, hs, _⟩
  rw [Segment.marked, if_pos hopt]
  exact List.mem_cons_self

/-- The variants of a row of segments with an optional one among them: all texts, and those of the
    segments that may not be left out. -/
theorem expand_row {segments : List Segment} (h : ∀ s ∈ segments, Unmarked s.text)
    (hopt : ∃ s ∈ segments, s.optional) {tail : List Char} (htail : ∀ c ∈ tail.head?, c = '?') :
    expand (String.ofList (row segments ++ tail)) =
      [String.ofList (segments.flatMap Segment.text),
        String.ofList ((segments.filter (!·.optional)).flatMap Segment.text)] := by
  rw [expand, String.toList_ofList]
  simp only [path_append_query (not_mem_row h) htail, contains_row hopt, if_true, full_row h,
    minimal_row h]

end OperationCatalog.UrlVariants
