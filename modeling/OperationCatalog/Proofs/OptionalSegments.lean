import OperationCatalog.Proofs.UnsupportedParts
import OperationCatalog.Proofs.UrlSegments

/-!
# Optional items of a concatenation

A conditional item of a concatenation puts brackets around its text, and `UrlVariants.expand` looks
for the brackets in the text of the whole.  Here the two are brought together: the evaluated text is a
row of segments, one for each item, so the variants of the URL are the texts of all items and the texts
of the items that are not conditional.

## Key results

- `Evaluator.evaluateItems_of_ok`: items that have texts have the texts one after the other
- `Expression.isRootToken_concat`: a conditional item keeps a concatenation from being the root token
- `Evaluator.evaluateText_eq_marked`: the text of an item is its segment
- `expand_optional_segments`: the variants of the URL, with or without a query behind
-/

namespace OperationCatalog

namespace Expression

/-- Whether an expression is a part that may be left out. -/
def isOptional : Expression → Bool
  | .conditional _ => true
  | _ => false

/-- An expression without the mark that it may be left out. -/
def core : Expression → Expression
  | .conditional inner => inner
  | e => e

theorem occurs_of_isOptional {e : Expression} (h : e.isOptional = true) :
    occurs .conditional e = true := by
  cases e with
  | conditional inner => simp [occurs]
  | _ => cases h

/-- A concatenation with an optional part is not the root token. -/
theorem isRootToken_concat {items : List Expression} (h : ∃ e ∈ items, e.isOptional = true) :
    (concat items).isRootToken = false := by
  obtain ⟨e, he, hopt⟩ := h
  have hitems : occursIn .conditional items = true :=
    occursIn_iff.2 ⟨e, he, occurs_of_isOptional hopt⟩
  refine isRootToken_of_mark (k := .conditional) rfl ?_
  rw [occurs, hitems, Bool.or_true]

end Expression

namespace Evaluator

/-- The text of an expression, the empty one if it has none. -/
def textOf (ev : Evaluator) (e : Expression) : String := (ev.evaluateText e).toOption.getD ""

theorem textOf_of_ok {ev : Evaluator} {e : Expression} {t : String}
    (h : ev.evaluateText e = .ok t) : ev.textOf e = t := by
  rw [textOf, h]
  rfl

theorem evaluateItems_of_ok {ev : Evaluator} {items : List Expression}
    (h : ∀ e ∈ items, ∃ t, ev.evaluateText e = .ok t) :
    ev.evaluateItems items = .ok (String.join (items.map ev.textOf)) := by
  induction items with
  | nil => rfl
  | cons e rest ih =>
    obtain ⟨t, ht⟩ := h e List.mem_cons_self
    have hrest := ih fun e' he' => h e' (List.mem_cons_of_mem e he')
    rw [evaluateItems_cons, ht, hrest, List.map_cons, String.join_cons, textOf_of_ok ht]
    rfl

/-- A concatenation that is not the root token has the texts of its items. -/
theorem evaluateText_concat {ev : Evaluator} {items : List Expression}
    (htoken : (Expression.concat items).isRootToken = false)
    (h : ∀ e ∈ items, ∃ t, ev.evaluateText e = .ok t) :
    ev.evaluateText (.concat items) = .ok (String.join (items.map ev.textOf)) := by
  rw [ev.evaluateText_concat_eq htoken, evaluateItems_of_ok h]

theorem evaluateText_literal {ev : Evaluator} {text : String}
    (htoken : (Expression.literal text).isRootToken = false) :
    ev.evaluateText (.literal text) = .ok text := by
  rw [evaluateText, evaluate, htoken]
  rfl

/-- A conditional has the text of what is in it, in brackets. -/
theorem evaluateText_conditional {ev : Evaluator} {inner : Expression} {t : String}
    (h : ev.evaluateText inner = .ok t) :
    ev.evaluateText (.conditional inner) = .ok ("[" ++ t ++ "]") := by
  rw [evaluateText, ev.evaluate_conditional (Expression.isRootToken_conditional inner), h]
  rfl

/-- The segment of the URL that an item stands for. -/
def segment (ev : Evaluator) (e : Expression) : UrlVariants.Segment where
  optional := e.isOptional
  text := (ev.textOf e.core).toList

/-- The texts of all items without their marks, and those of the items that may not be left out. -/
def variants (ev : Evaluator) (items : List Expression) : List String :=
  [String.join (items.map fun e => ev.textOf e.core),
    String.join ((items.filter (!·.isOptional)).map fun e => ev.textOf e.core)]

/-- The text of an item is its segment as it stands in a URL. -/
theorem evaluateText_eq_marked {ev : Evaluator} {e : Expression} {t : String}
    (h : ev.evaluateText e.core = .ok t) :
    ev.evaluateText e = .ok (String.ofList (ev.segment e).marked) := by
  rw [UrlVariants.Segment.marked, segment, textOf_of_ok h]
  cases e with
  | conditional inner =>
    have hinner : ev.evaluateText inner = .ok t := h
    rw [evaluateText_conditional hinner]
    apply congrArg Except.ok
    rw [← String.toList_inj]
    simp [Expression.isOptional]
  | _ =>
    simp only [Expression.isOptional, Bool.false_eq_true, if_false, String.ofList_toList]
    exact h

/-- The texts of items, one after the other, are the row of their segments. -/
theorem join_textOf_eq_row {ev : Evaluator} {items : List Expression}
    (h : ∀ e ∈ items, ∃ t, ev.evaluateText e.core = .ok t) :
    (String.join (items.map ev.textOf)).toList = UrlVariants.row (items.map ev.segment) := by
  induction items with
  | nil => rfl
  | cons e rest ih =>
    obtain ⟨t, ht⟩ := h e List.mem_cons_self
    have hrest := ih fun e' he' => h e' (List.mem_cons_of_mem e he')
    rw [List.map_cons, String.join_cons, String.toList_append, hrest,
      textOf_of_ok (evaluateText_eq_marked ht), String.toList_ofList]
    rfl

/-- Without their marks the segments are the texts of what is in the items. -/
theorem ofList_flatMap_segment (ev : Evaluator) (items : List Expression) :
    String.ofList ((items.map ev.segment).flatMap UrlVariants.Segment.text) =
      String.join (items.map fun e => ev.textOf e.core) := by
  rw [← String.toList_inj, String.toList_ofList, String.toList_join, List.flatMap_map,
    List.flatMap_map]
  rfl

/-- The variants of a concatenation of unmarked items, some of them optional, and of further items that
    begin a query, if there are any. -/
theorem expand_concat_append {ev : Evaluator} {items tail : List Expression}
    (hitems : ∀ e ∈ items, ∃ t, ev.evaluateText e.core = .ok t ∧ UrlVariants.Unmarked t.toList)
    (hopt : ∃ e ∈ items, e.isOptional = true)
    (htail : ∀ e ∈ tail, ∃ t, ev.evaluateText e = .ok t)
    (hquery : ∀ c ∈ (String.join (tail.map ev.textOf)).toList.head?, c = '?') :
    ∃ url, ev.evaluateText (.concat (items ++ tail)) = .ok url ∧
      UrlVariants.expand url = ev.variants items := by
  have hcores : ∀ e ∈ items, ∃ t, ev.evaluateText e.core = .ok t := by
    intro e he
    obtain ⟨t, ht, -⟩ := hitems e he
    exact ⟨t, ht⟩
  have htexts : ∀ e ∈ items ++ tail, ∃ t, ev.evaluateText e = .ok t := by
    intro e he
    rcases List.mem_append.1 he with he | he
    · obtain ⟨t, ht⟩ := hcores e he
      exact ⟨_, evaluateText_eq_marked ht⟩
    · exact htail e he
  -- the optional item shows in the display form of the whole, so that this is not the root token
  obtain ⟨e, he, hopte⟩ := hopt
  have htoken := Expression.isRootToken_concat ⟨e, List.mem_append_left tail he, hopte⟩
  refine ⟨_, evaluateText_concat htoken htexts, ?_⟩
  -- the text of the whole is a row of segments with the query behind it
  have hunmarked : ∀ s ∈ items.map ev.segment, UrlVariants.Unmarked s.text := by
    intro s hs
    obtain ⟨e', he', rfl⟩ := List.mem_map.1 hs
    obtain ⟨t, ht, hclean⟩ := hitems e' he'
    rw [segment, textOf_of_ok ht]
    exact hclean
  have hsome : ∃ s ∈ items.map ev.segment, s.optional = true :=
    ⟨ev.segment e, List.mem_map_of_mem he, hopte⟩
  have hurl : String.join ((items ++ tail).map ev.textOf) =
      String.ofList (UrlVariants.row (items.map ev.segment) ++
        (String.join (tail.map ev.textOf)).toList) := by
    rw [← String.toList_inj, List.map_append, String.join_append, String.toList_append,
      String.toList_ofList, join_textOf_eq_row hcores]
  have hmandatory : (items.map ev.segment).filter (!·.optional) =
      (items.filter (!·.isOptional)).map ev.segment := List.filter_map
  rw [hurl, UrlVariants.expand_row hunmarked hsome hquery, hmandatory, ofList_flatMap_segment,
    ofList_flatMap_segment, variants]

end Evaluator

/-- A concatenation of unmarked items, some of them optional, has the two variants that the segments
    say: the texts of all items, and those of the items that may not be left out.  More items behind,
    of which the first begins a query, change nothing. -/
theorem expand_optional_segments (ev : Evaluator) {items : List Expression}
    (hitems : ∀ e ∈ items, ∃ t, ev.evaluateText e.core = .ok t ∧ UrlVariants.Unmarked t.toList)
    (hopt : ∃ e ∈ items, e.isOptional = true) :
    (∃ url, ev.evaluateText (.concat items) = .ok url ∧
      UrlVariants.expand url = ev.variants items) ∧
    ∀ first more, (∀ e ∈ first :: more, ∃ t, ev.evaluateText e = .ok t) →
      (ev.textOf first).toList.head? = some '?' →
      ∃ url, ev.evaluateText (.concat (items ++ first :: more)) = .ok url ∧
        UrlVariants.expand url = ev.variants items := by
  constructor
  · have htail : ∀ e ∈ ([] : List Expression), ∃ t, ev.evaluateText e = .ok t := by simp
    have hplain := ev.expand_concat_append hitems hopt htail (by simp)
    rw [List.append_nil] at hplain
    exact hplain
  · intro first more htexts hquery
    refine ev.expand_concat_append hitems hopt htexts fun c hc => ?_
    -- the first character of the tail is that of its first item
    rw [List.map_cons, String.join_cons, String.toList_append, List.head?_append, hquery] at hc
    exact (Option.some.inj hc).symm

theorem expand_optional_segments_sample :
    ∃ url, Evaluator.evaluateText ⟨"", []⟩ (.concat ([.literal "/a", .conditional (.literal "/b")] ++
        .literal "?c" :: [.conditional (.literal "?d")])) = .ok url ∧
      UrlVariants.expand url = ["/a/b", "/a"] := by
  have ha : Evaluator.evaluateText ⟨"", []⟩ (.literal "/a") = .ok "/a" :=
    Evaluator.evaluateText_literal (by decide)
  have hb : Evaluator.evaluateText ⟨"", []⟩ (.literal "/b") = .ok "/b" :=
    Evaluator.evaluateText_literal (by decide)
  have hc : Evaluator.evaluateText ⟨"", []⟩ (.literal "?c") = .ok "?c" :=
    Evaluator.evaluateText_literal (by decide)
  have hd : Evaluator.evaluateText ⟨"", []⟩ (.literal "?d") = .ok "?d" :=
    Evaluator.evaluateText_literal (by decide)
  have hitems : ∀ e ∈ [Expression.literal "/a", .conditional (.literal "/b")],
      ∃ t, Evaluator.evaluateText ⟨"", []⟩ e.core = .ok t ∧ UrlVariants.Unmarked t.toList := by
    simp only [List.forall_mem_cons]
    refine ⟨⟨"/a", ha, by decide, by decide, by decide⟩,
      ⟨"/b", hb, by decide, by decide, by decide⟩, by simp⟩
  have hopt : ∃ e ∈ [Expression.literal "/a", .conditional (.literal "/b")], e.isOptional = true :=
    ⟨_, List.mem_cons_of_mem _ List.mem_cons_self, rfl⟩
  have htexts : ∀ e ∈ [Expression.literal "?c", .conditional (.literal "?d")],
      ∃ t, Evaluator.evaluateText ⟨"", []⟩ e = .ok t := by
    simp only [List.forall_mem_cons]
    refine ⟨⟨"?c", hc⟩, ⟨_, Evaluator.evaluateText_conditional hd⟩, by simp⟩
  have hquery : (Evaluator.textOf ⟨"", []⟩ (.literal "?c")).toList.head? = some '?' := by
    rw [Evaluator.textOf_of_ok hc]
    rfl
  obtain ⟨url, hurl, hexpand⟩ := (expand_optional_segments ⟨"", []⟩ hitems hopt).2 _ _ htexts hquery
  refine ⟨url, hurl, ?_⟩
  simpa [Evaluator.variants, Expression.core, Expression.isOptional, Evaluator.textOf_of_ok ha,
    Evaluator.textOf_of_ok hb] using hexpand

end OperationCatalog
