import Mathlib.Data.List.TakeWhile
import OperationCatalog.Proofs.UrlSources

/-!
# Marks of optional segments in the URLs of records

The query is dropped before the optional segments are looked for, so the cut may fall into one of them
and leave its opening bracket alone.  If the sources of a text have no brackets, this is the only way
for a bracket into the URL of a record, and it is always the variant without the optional segments
that has it.

## Key results

- `path_row_cases`: where the query may begin in a row of segments
- `expand_of_closed`, `expand_of_open`: the variants of a path that is cut between two segments, and of
  one that is cut inside of an optional one
- `marks_of_records`: the brackets in the URLs of a method's records
-/

namespace OperationCatalog

namespace UrlVariants

/-- Whether a path ends inside an optional segment: its last bracket is an opening one. -/
def EndsOpen (path : List Char) : Prop := path.reverse.find? isBracket = some '['

instance (path : List Char) : Decidable (EndsOpen path) := inferInstanceAs (Decidable (_ = _))

theorem unmarked_of_any {cs : List Char} (h : cs.any isBracket = false) (hquery : '?' ∉ cs) :
    Unmarked cs := by
  rw [List.any_eq_false] at h
  exact ⟨fun hmem => h _ hmem rfl, fun hmem => h _ hmem rfl, hquery⟩

theorem Unmarked.isBracket_eq_false {cs : List Char} (h : Unmarked cs) :
    ∀ c ∈ cs, isBracket c = false := by
  intro c hc
  rw [Bool.eq_false_iff, ne_eq, isBracket_iff]
  rintro (rfl | rfl)
  · exact h.1 hc
  · exact h.2.1 hc

theorem Unmarked.find?_reverse {cs : List Char} (h : Unmarked cs) :
    cs.reverse.find? isBracket = none := by
  rw [List.find?_eq_none]
  intro c hc
  rw [h.isBracket_eq_false c (List.mem_reverse.1 hc)]
  decide

theorem Unmarked.append {cs ds : List Char} (hcs : Unmarked cs) (hds : Unmarked ds) :
    Unmarked (cs ++ ds) := by
  simp only [Unmarked, List.mem_append, not_or]
  exact ⟨⟨hcs.1, hds.1⟩, ⟨hcs.2.1, hds.2.1⟩, hcs.2.2, hds.2.2⟩

theorem unmarked_flatMap_text {segments : List Segment} (h : ∀ s ∈ segments, Unmarked s.text) :
    Unmarked (segments.flatMap Segment.text) := by
  induction segments with
  | nil => exact ⟨List.not_mem_nil, List.not_mem_nil, List.not_mem_nil⟩
  | cons s rest ih =>
    rw [List.flatMap_cons]
    exact (h s List.mem_cons_self).append (ih fun t ht => h t (List.mem_cons_of_mem s ht))

/-- The texts of the segments that may not be left out. -/
theorem unmarked_of_filter {segments : List Segment} (h : ∀ s ∈ segments, Unmarked s.text) :
    ∀ s ∈ segments.filter (!·.optional), Unmarked s.text :=
  fun s hs => h s (List.mem_filter.1 hs).1

/-! ## Where the query begins -/

/-- The path of a row of segments ends behind a segment, or inside of an optional one.  The segments up
    to there have no mark at all, one that the query begins in being cut. -/
theorem path_row_cases {segments : List Segment}
    (h : ∀ s ∈ segments, s.text.any isBracket = false) :
    ∃ done : List Segment, (∀ s ∈ done, Unmarked s.text) ∧
      (path (row segments) = row done ∨
        ∃ inside, Unmarked inside ∧ path (row segments) = row done ++ '[' :: inside) := by
  induction segments with
  | nil => exact ⟨[], by simp, .inl rfl⟩
  | cons s rest ih =>
    have hs : s.text.any isBracket = false := h s List.mem_cons_self
    have hrow : row (s :: rest) = s.marked ++ row rest := List.flatMap_cons
    rw [hrow]
    by_cases hquery : '?' ∈ s.text
    · -- the query begins in this segment, which is cut
      obtain ⟨before, after, htext, hbefore⟩ := List.eq_append_cons_of_mem hquery
      have hcut : Unmarked before := by
        rw [htext, List.any_append, Bool.or_eq_false_iff] at hs
        exact unmarked_of_any hs.1 hbefore
      unfold Segment.marked
      split
      · have hopen : '?' ∉ '[' :: before := by
          rw [List.mem_cons, not_or]
          exact ⟨by decide, hbefore⟩
        have hlist : '[' :: (s.text ++ [']']) ++ row rest =
            '[' :: before ++ '?' :: (after ++ ']' :: row rest) := by
          simp [htext]
        refine ⟨[], by simp, .inr ⟨before, hcut, ?_⟩⟩
        rw [hlist, path_append_query hopen (by simp)]
        rfl
      · refine ⟨[⟨false, before⟩], by simpa using hcut, .inl ?_⟩
        rw [htext, List.append_assoc, List.cons_append, path_append_query hbefore (by simp)]
        simp [row, Segment.marked]
    · have hunmarked : Unmarked s.text := unmarked_of_any hs hquery
      have hmarked : '?' ∉ s.marked := by
        have hone : '?' ∉ row [s] := not_mem_row (by simpa using hunmarked)
        rwa [row, List.flatMap_singleton] at hone
      obtain ⟨done, hdone, hcases⟩ := ih fun t ht => h t (List.mem_cons_of_mem s ht)
      refine ⟨s :: done, List.forall_mem_cons.2 ⟨hunmarked, hdone⟩, ?_⟩
      have hrow' : row (s :: done) = s.marked ++ row done := List.flatMap_cons
      rw [path_append hmarked, hrow']
      rcases hcases with heq | ⟨inside, hinside, heq⟩
      · exact .inl (by rw [heq])
      · exact .inr ⟨inside, hinside, by rw [heq, List.append_assoc]⟩

/-- A row without optional segments is what their texts are. -/
theorem row_of_plain {segments : List Segment} (h : ∀ s ∈ segments, s.optional = false) :
    row segments = segments.flatMap Segment.text := by
  rw [row, List.flatMap_def, List.flatMap_def]
  congr 1
  apply List.map_congr_left
  intro s hs
  rw [Segment.marked, h s hs]
  rfl

/-! ## Paths cut between segments and inside of one -/

theorem find?_reverse_row {segments : List Segment} (h : ∀ s ∈ segments, Unmarked s.text) :
    (row segments).reverse.find? isBracket ≠ some '[' := by
  induction segments with
  | nil => simp [row]
  | cons s rest ih =>
    have hs : Unmarked s.text := h s List.mem_cons_self
    have hrest := ih fun t ht => h t (List.mem_cons_of_mem s ht)
    have hrow : row (s :: rest) = s.marked ++ row rest := List.flatMap_cons
    rw [hrow, List.reverse_append, List.find?_append]
    cases hlast : (row rest).reverse.find? isBracket with
    | some c =>
      rw [hlast] at hrest
      exact hrest
    | none =>
      -- the last bracket is one of this segment
      rw [Option.none_or, Segment.marked]
      split
      · simp [isBracket]
      · rw [hs.find?_reverse]
        intro hnone
        cases hnone

/-- A path that is cut between two segments has variants without brackets. -/
theorem expand_of_closed {segments : List Segment} (h : ∀ s ∈ segments, Unmarked s.text)
    {url : String} (hpath : path url.toList = row segments) :
    ¬EndsOpen (path url.toList) ∧ ∀ u ∈ expand url, '[' ∉ u.toList ∧ ']' ∉ u.toList := by
  have htexts := unmarked_flatMap_text h
  have hplain := unmarked_flatMap_text (unmarked_of_filter h)
  refine ⟨by rw [hpath]; exact find?_reverse_row h, ?_⟩
  rw [expand]
  simp only [hpath, full_row h, minimal_row h]
  split
  · simp only [List.forall_mem_cons, String.toList_ofList]
    exact ⟨⟨htexts.1, htexts.2.1⟩, ⟨hplain.1, hplain.2.1⟩, by simp⟩
  · -- without an opening bracket, no segment is optional
    rename_i hcontains
    have hnone : ∀ s ∈ segments, s.optional = false := by
      intro s hs
      rw [← Bool.not_eq_true]
      exact fun hopt => hcontains (contains_row ⟨s, hs, hopt⟩)
    rw [List.forall_mem_singleton, String.toList_ofList, row_of_plain hnone]
    exact ⟨htexts.1, htexts.2.1⟩

/-- A path that is cut inside of an optional segment has a variant without brackets, and one with the
    opening bracket of that segment. -/
theorem expand_of_open {segments : List Segment} (h : ∀ s ∈ segments, Unmarked s.text)
    {inside : List Char} (hinside : Unmarked inside) {url : String}
    (hpath : path url.toList = row segments ++ '[' :: inside) :
    EndsOpen (path url.toList) ∧ ∃ full minimal, expand url = [full, minimal] ∧
      ('[' ∉ full.toList ∧ ']' ∉ full.toList) ∧ '[' ∈ minimal.toList ∧ ']' ∉ minimal.toList := by
  have htexts := unmarked_flatMap_text h
  have hplain := unmarked_flatMap_text (unmarked_of_filter h)
  have hcontains : (row segments ++ '[' :: inside).contains '[' = true :=
    List.contains_iff_mem.2 (List.mem_append_right _ List.mem_cons_self)
  have hfull : full (row segments ++ '[' :: inside) = segments.flatMap Segment.text ++ inside := by
    have hopen : full ['['] = [] := by decide
    rw [full_append, full_row h, ← List.singleton_append, full_append, hopen,
      full_of_unmarked hinside, List.nil_append]
  -- the scan stops at the bracket that is not closed
  have hminimal : minimal (row segments ++ '[' :: inside) =
      (segments.filter (!·.optional)).flatMap Segment.text ++ '[' :: inside := by
    have hclose : inside.dropWhile (· ≠ ']') = [] := by
      rw [List.dropWhile_eq_nil_iff]
      exact fun c hc => decide_eq_true fun heq => hinside.2.1 (heq ▸ hc)
    rw [minimal_row_append h (List.dropWhile_cons_of_neg (by decide)), minimal, if_pos rfl]
    simp only [hclose, List.isEmpty_nil, if_true]
  have hexpand : expand url = [String.ofList (segments.flatMap Segment.text ++ inside),
      String.ofList ((segments.filter (!·.optional)).flatMap Segment.text ++ '[' :: inside)] := by
    rw [expand]
    simp only [hpath, hcontains, if_true, hfull, hminimal]
  refine ⟨?_, _, _, hexpand, ?_, ?_, ?_⟩
  · rw [EndsOpen, hpath, List.reverse_append, List.reverse_cons, List.append_assoc,
      List.find?_append, hinside.find?_reverse]
    rfl
  · have hall := htexts.append hinside
    rw [String.toList_ofList]
    exact ⟨hall.1, hall.2.1⟩
  · rw [String.toList_ofList]
    exact List.mem_append_right _ List.mem_cons_self
  · rw [String.toList_ofList, List.mem_append, List.mem_cons]
    rintro (hmem | hmem | hmem)
    · exact hplain.2.1 hmem
    · exact absurd hmem (by decide)
    · exact hinside.2.1 hmem

end UrlVariants

open UrlVariants (isBracket path EndsOpen)

/-- If no source of the text of a URL has a bracket, and no conditional stands inside another one, the
    URLs of the records have no closing bracket, and the first of them has no opening one.  None at all
    has a bracket exactly if the query does not begin inside of an optional segment. -/
theorem marks_of_records {ev : Evaluator} {m : Method} {records : List Record}
    (hnests : m.url.nestsOptional = false) (hmentions : ev.mentions isBracket m.url = false)
    (hrender : ev.render m = .ok records) :
    ∃ text, ev.evaluateText m.url = .ok text ∧
      (∀ r ∈ records, ']' ∉ r.url.toList) ∧ (∀ r ∈ records.head?, '[' ∉ r.url.toList) ∧
      ((∀ r ∈ records, '[' ∉ r.url.toList) ↔ ¬EndsOpen (path text.toList)) := by
  obtain ⟨request, response, text, -, -, htext, rfl⟩ := Evaluator.render_eq_ok_iff.1 hrender
  obtain ⟨segments, hrow, hsegments⟩ :=
    ev.evaluateText_drawn (fun _ => id) hmentions hnests htext
  obtain ⟨done, hdone, hcases⟩ := UrlVariants.path_row_cases fun s hs => (hsegments s hs).1
  rw [← hrow] at hcases
  refine ⟨text, htext, ?_⟩
  rcases hcases with hpath | ⟨inside, hinside, hpath⟩
  · obtain ⟨hclosed, hmarks⟩ := UrlVariants.expand_of_closed hdone hpath
    have hall : ∀ r ∈ (UrlVariants.expand text).map fun url =>
        (⟨m.name, m.verb, url, request, response⟩ : Record), '[' ∉ r.url.toList ∧ ']' ∉ r.url.toList := by
      rw [List.forall_mem_map]
      exact hmarks
    refine ⟨fun r hr => (hall r hr).2, fun r hr => (hall r (List.mem_of_mem_head? hr)).1, ?_⟩
    exact ⟨fun _ => hclosed, fun _ r hr => (hall r hr).1⟩
  · obtain ⟨hopen, full, minimal, hexpand, hfull, hmem, hminimal⟩ :=
      UrlVariants.expand_of_open hdone hinside hpath
    rw [hexpand]
    simp only [List.map_cons, List.map_nil, List.forall_mem_cons, List.head?_cons, Option.mem_def,
      Option.some.injEq, forall_eq', List.not_mem_nil, false_imp_iff, implies_true, and_true]
    exact ⟨⟨hfull.2, hminimal⟩, hfull.1, fun h => absurd hmem h.2, fun h => absurd hopen h⟩

theorem marks_of_records_sample :
    ∃ r r', Evaluator.render ⟨"https://h", []⟩
        (bareMethod (.concat [.literal "/a", .conditional (.literal "/b"), .literal "/c?d"])) =
          .ok [r, r'] ∧
      '[' ∉ r.url.toList ∧ '[' ∉ r'.url.toList := by
  have hrender : ∃ r r', Evaluator.render ⟨"https://h", []⟩
      (bareMethod (.concat [.literal "/a", .conditional (.literal "/b"), .literal "/c?d"])) =
        .ok [r, r'] := ⟨_, _, rfl⟩
  obtain ⟨r, r', hrender⟩ := hrender
  obtain ⟨text, htext, -, -, hiff⟩ := marks_of_records rfl rfl hrender
  have hclosed : ¬EndsOpen (path text.toList) := by
    cases htext
    decide +kernel
  have hall := hiff.2 hclosed
  exact ⟨r, r', hrender, hall r List.mem_cons_self, hall r' (by simp)⟩

/-- A query that begins inside of an optional segment leaves its opening bracket in the second URL. -/
theorem mark_in_record_of_query :
    ∃ e : Expression, e.nestsOptional = false ∧
      Evaluator.mentions ⟨"https://h", []⟩ isBracket e = false ∧
      (Evaluator.render ⟨"https://h", []⟩ (bareMethod e)).map (·.map Record.url) =
        .ok ["/a/b", "/a[/b"] := by
  have hminimal : UrlVariants.minimal ['/', 'a', '[', '/', 'b'] = ['/', 'a', '[', '/', 'b'] := by
    simp [UrlVariants.minimal]
  have hexpand : UrlVariants.expand "/a[/b?c]" = ["/a/b", "/a[/b"] := by
    rw [show UrlVariants.expand "/a[/b?c]" =
      ["/a/b", String.ofList (UrlVariants.minimal ['/', 'a', '[', '/', 'b'])] from rfl, hminimal]
  have hrender : Evaluator.render ⟨"https://h", []⟩
      (bareMethod (.concat [.literal "/a", .conditional (.literal "/b?c")])) =
      .ok ((UrlVariants.expand "/a[/b?c]").map fun url => ⟨"M", .get, url, none, none⟩) := rfl
  refine ⟨.concat [.literal "/a", .conditional (.literal "/b?c")], rfl, rfl, ?_⟩
  rw [hrender, hexpand]
  rfl

end OperationCatalog
