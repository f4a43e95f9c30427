import OperationCatalog.Proofs.CaseMapping
import OperationCatalog.Proofs.UnsupportedParts
import OperationCatalog.Proofs.UrlSegments
import OperationCatalog.Rendering
import OperationCatalog.Settings

/-!
# Where the characters of a URL come from

Evaluation puts a URL together from the base endpoint, the texts and names that stand in the expression
and the values of the context.  Of its own it adds braces, digits and the like, and brackets around the
text of a conditional.  So an evaluated text is a row of segments, the optional ones for conditionals,
and a character such as a bracket that stands inside a segment stands in one of the sources.

## Key results

- `Evaluator.evaluate_drawn`: the values of an expression, by induction on its tree
- `Evaluator.evaluateText_drawn`: an evaluated text is a row of segments
- `records_of_unconditional`: without conditionals there is one record unless a bracket comes from
  elsewhere
- `two_records_without_conditional`: each of the sources can bring one in
-/

namespace OperationCatalog

namespace UrlVariants

/-- Whether a character is one of the marks around optional segments. -/
def isBracket (c : Char) : Bool := c = '[' || c = ']'

theorem isBracket_iff {c : Char} : isBracket c = true ↔ c = '[' ∨ c = ']' := by
  rw [isBracket, Bool.or_eq_true, decide_eq_true_eq, decide_eq_true_eq]

end UrlVariants

/-! ## Sources -/

mutual

/-- Whether a text in a property, at any depth, has a character with `p`. -/
def Property.mentions (p : Char → Bool) : Property → Bool
  | .text s => s.toList.any p
  | .object properties => Context.mentions p properties
  | _ => false
termination_by structural property => property

/-- Whether a text in a context, at any depth, has a character with `p`. -/
def Context.mentions (p : Char → Bool) : List (String × Property) → Bool
  | [] => false
  | (_, property) :: rest => property.mentions p || Context.mentions p rest
termination_by structural context => context

end

mutual

/-- Whether a text or a name in an expression has a character with `p`. -/
def Expression.mentions (p : Char → Bool) : Expression → Bool
  | .literal text => text.toList.any p
  | .concat items => mentionsIn p items
  | .conditional inner => mentions p inner
  | .property base name => mentions p base || name.toList.any p
  | .parameter name => name.toList.any p
  | .formatting format => format.toList.any p
  | .root => false
  | .unsupported => false
termination_by structural e => e

/-- Whether a text or a name in one of the items has a character with `p`. -/
def Expression.mentionsIn (p : Char → Bool) : List Expression → Bool
  | [] => false
  | e :: rest => mentions p e || mentionsIn p rest
termination_by structural es => es

end

/-- Whether a character with `p` stands in what the text of an expression is made of: the base
    endpoint, the texts and names of the expression, and the texts of the context. -/
def Evaluator.mentions (ev : Evaluator) (p : Char → Bool) (e : Expression) : Bool :=
  ev.baseEndpoint.toList.any p || Context.mentions p ev.root || e.mentions p

mutual

/-- Whether a conditional stands inside another one. -/
def Expression.nestsOptional : Expression → Bool
  | .concat items => nestsOptionalIn items
  | .conditional inner => occurs .conditional inner
  | .property base _ => nestsOptional base
  | _ => false
termination_by structural e => e

/-- Whether a conditional stands inside another one, in one of the items. -/
def Expression.nestsOptionalIn : List Expression → Bool
  | [] => false
  | e :: rest => nestsOptional e || nestsOptionalIn rest
termination_by structural es => es

end

open UrlVariants (isBracket Segment row)

mutual

/-- Where there is no conditional at all, there is none inside another one. -/
theorem Expression.nestsOptional_of_occurs : ∀ {e : Expression}, occurs .conditional e = false →
    nestsOptional e = false
  | .concat items, h => by
    simp only [occurs, Bool.or_eq_false_iff] at h
    exact nestsOptionalIn_of_occursIn h.2
  | .conditional _, h => by simp [occurs] at h
  | .property base _, h => by
    simp only [occurs, Bool.or_eq_false_iff] at h
    exact nestsOptional_of_occurs (e := base) h.2
  | .literal _, _ | .root, _ | .parameter _, _ | .formatting _, _ | .unsupported, _ => rfl

/-- The same for several expressions. -/
theorem Expression.nestsOptionalIn_of_occursIn : ∀ {items : List Expression},
    occursIn .conditional items = false → nestsOptionalIn items = false
  | [], _ => rfl
  | e :: rest, h => by
    simp only [occursIn, Bool.or_eq_false_iff] at h
    simp only [nestsOptionalIn, nestsOptional_of_occurs h.1, nestsOptionalIn_of_occursIn h.2,
      Bool.or_self]

end

/-! ## Texts made of segments -/

/-- A text is a row of segments whose texts have no character with `p`; only where `optional` is set
    may it have optional ones. -/
def Drawn (p : Char → Bool) (optional : Bool) (s : String) : Prop :=
  ∃ segments : List Segment, s.toList = row segments ∧
    ∀ g ∈ segments, g.text.any p = false ∧ (g.optional = true → optional = true)

namespace Drawn

variable {p : Char → Bool} {optional : Bool} {s t : String}

/-- A text without such a character is one plain segment. -/
theorem of_any (h : s.toList.any p = false) : Drawn p optional s := by
  refine ⟨[⟨false, s.toList⟩], by simp [row, Segment.marked], fun g hg => ?_⟩
  rw [List.mem_singleton.1 hg]
  exact ⟨h, fun hopt => absurd hopt Bool.false_ne_true⟩

/-- Without optional segments, a text has only the characters of its segments. -/
theorem any_eq_false (h : Drawn p false s) : s.toList.any p = false := by
  obtain ⟨segments, hs, hsegments⟩ := h
  rw [hs, List.any_eq_false]
  intro c hc
  obtain ⟨g, hg, hcg⟩ := List.mem_flatMap.1 hc
  obtain ⟨htext, hopt⟩ := hsegments g hg
  have hplain : g.optional = false := Bool.eq_false_iff.2 fun h => Bool.false_ne_true (hopt h)
  rw [Segment.marked, hplain] at hcg
  exact List.any_eq_false.1 htext c hcg

theorem append {optional' : Bool} (hs : Drawn p optional s) (ht : Drawn p optional' t) :
    Drawn p (optional || optional') (s ++ t) := by
  obtain ⟨segments, hrow, hsegments⟩ := hs
  obtain ⟨segments', hrow', hsegments'⟩ := ht
  refine ⟨segments ++ segments', ?_, fun g hg => ?_⟩
  · rw [String.toList_append, hrow, hrow', row, row, row, List.flatMap_append]
  · rcases List.mem_append.1 hg with hg | hg
    · exact (hsegments g hg).imp_right fun h hopt => by rw [h hopt, Bool.true_or]
    · exact (hsegments' g hg).imp_right fun h hopt => by rw [h hopt, Bool.or_true]

/-- A text in brackets is one optional segment. -/
theorem bracketed (h : Drawn p false s) : Drawn p true ("[" ++ s ++ "]") := by
  refine ⟨[⟨true, s.toList⟩], by simp [row, Segment.marked], fun g hg => ?_⟩
  rw [List.mem_singleton.1 hg]
  exact ⟨h.any_eq_false, fun _ => rfl⟩

end Drawn

/-- A value whose text is made of segments, or a context without a character with `p`. -/
def BoundValue.Drawn (p : Char → Bool) (optional : Bool) : BoundValue → Prop
  | .null => True
  | .text s => OperationCatalog.Drawn p optional s
  | .context place => Context.mentions p place.context = false

/-- A value has a text if it is no context. -/
theorem BoundValue.Drawn.render {p : Char → Bool} {optional : Bool} {value : BoundValue}
    {source : Expression} {s : String} (h : value.Drawn p optional)
    (hrender : value.render source = .ok s) : OperationCatalog.Drawn p optional s := by
  cases value with
  | null =>
    cases hrender
    exact .of_any rfl
  | text t =>
    cases hrender
    exact h
  | context place => cases hrender

/-! ## Texts that evaluation makes itself -/

/-- The text of a number has no brackets. -/
theorem isBracket_of_isNumeric {c : Char} (h : Decimal.isNumeric c = true) :
    isBracket c = false := by
  rw [Bool.eq_false_iff, ne_eq, UrlVariants.isBracket_iff]
  rintro (rfl | rfl) <;> cases h

theorem any_isBracket_braces : "\x7b".toList.any isBracket = false ∧
    "\x7d".toList.any isBracket = false := by
  decide

/-- A name in braces has no brackets but those of the name. -/
theorem mem_placeholder {name : String} {c : Char} (h : c ∈ (placeholder name).toList)
    (hc : isBracket c = true) : c ∈ name.toList := by
  have hmark : Text.markRanges.holds c = true := by
    rcases UrlVariants.isBracket_iff.1 hc with rfl | rfl <;> decide
  simp only [placeholder, Expression.braced, String.toList_append, String.toList_ofList,
    List.mem_append] at h
  rcases h with (hopen | hname) | hclose
  · exact absurd hc (List.any_eq_false.1 any_isBracket_braces.1 c hopen)
  · cases hlist : name.toList with
    | nil =>
      rw [hlist] at hname
      cases hname
    | cons first rest =>
      -- lower-casing the first character makes no bracket
      rw [hlist] at hname
      rcases List.mem_append.1 hname with hfirst | hrest
      · rw [Text.eq_of_mem_lowerChar hfirst hmark]
        exact List.mem_cons_self
      · exact List.mem_cons_of_mem first hrest
  · exact absurd hc (List.any_eq_false.1 any_isBracket_braces.2 c hclose)

/-- The last part of a name has only characters of the name. -/
theorem mem_of_mem_lastPart? {name part : String} {c : Char} (h : lastPart? name = some part)
    (hc : c ∈ part.toList) : c ∈ name.toList := by
  simp only [lastPart?] at h
  split at h
  · cases h
  · cases h
    rw [String.toList_ofList, List.mem_reverse] at hc
    have hcore := (List.takeWhile_prefix _).subset hc
    exact (Text.dropTrailing_prefix _ _).subset (List.mem_reverse.1 hcore)

section

variable {p : Char → Bool} (hp : ∀ c, p c = true → isBracket c = true)

include hp

/-- A text without brackets has no character with `p`. -/
theorem any_of_isBracket {cs : List Char} (h : cs.any isBracket = false) : cs.any p = false := by
  rw [List.any_eq_false] at h ⊢
  intro c hc hpc
  exact h c hc (hp c hpc)

/-- A text whose brackets are those of another one that has no character with `p`. -/
theorem any_of_subset {cs ds : List Char} (hds : ds.any p = false)
    (h : ∀ c ∈ cs, isBracket c = true → c ∈ ds) : cs.any p = false := by
  rw [List.any_eq_false] at hds ⊢
  intro c hc hpc
  exact hds c (h c hc (hp c hpc)) hpc

theorem any_placeholder {name : String} (h : name.toList.any p = false) :
    (placeholder name).toList.any p = false :=
  any_of_subset hp h fun _ => mem_placeholder

theorem any_braced {format : String} (h : format.toList.any p = false) :
    (Expression.braced format).toList.any p = false := by
  have hopen := any_of_isBracket hp any_isBracket_braces.1
  have hclose := any_of_isBracket hp any_isBracket_braces.2
  rw [Expression.braced, String.toList_append, String.toList_append, List.any_append,
    List.any_append, hopen, h, hclose]
  rfl

/-- What a property denotes has no character that the property has not. -/
theorem Property.bind_drawn {property : Property} (h : property.mentions p = false)
    (path : List String) (optional : Bool) : (property.bind path).Drawn p optional := by
  cases property with
  | null => trivial
  | bool b =>
    apply Drawn.of_any
    apply any_of_isBracket hp
    cases b <;> decide
  | integer i =>
    apply Drawn.of_any
    apply any_of_isBracket hp
    rw [List.any_eq_false]
    intro c hc
    exact Bool.eq_false_iff.1 (isBracket_of_isNumeric (Decimal.isNumeric_of_mem_toString_int hc))
  | float x =>
    apply Drawn.of_any
    apply any_of_isBracket hp
    have hfixed : Context.numberLayout.fixedText.toList.any isBracket = false := by decide
    rw [List.any_eq_false] at hfixed ⊢
    intro c hc
    rcases Decimal.Layout.mem_text hc with hnum | hmem
    · exact Bool.eq_false_iff.1 (isBracket_of_isNumeric hnum)
    · exact hfixed c hmem
  | text s => exact .of_any h
  | object properties => exact h

omit hp in
/-- A property of a context has no character that the context has not. -/
theorem Context.mentions_of_find? {context : Context} {name : String} {property : Property}
    (h : Context.mentions p context = false) (hfind : context.find? name = some property) :
    property.mentions p = false := by
  induction context with
  | nil => cases hfind
  | cons entry rest ih =>
    obtain ⟨k, q⟩ := entry
    simp only [Context.mentions, Bool.or_eq_false_iff] at h
    simp only [Context.find?, List.lookup_cons] at hfind
    split at hfind
    · cases hfind
      exact h.1
    · exact ih h.2 hfind

/-- What a value has under a name is made of the value and the name. -/
theorem BoundValue.get?_drawn {value : BoundValue} {name : String} {optional : Bool}
    (h : value.Drawn p optional) (hname : name.toList.any p = false) :
    ((value.get? name).getD (.text (placeholder name))).Drawn p optional := by
  have hplaceholder : (BoundValue.text (placeholder name)).Drawn p optional :=
    Drawn.of_any (any_placeholder hp hname)
  cases value with
  | null => exact hplaceholder
  | text s => exact hplaceholder
  | context place =>
    rw [BoundValue.get?, Place.get?]
    cases hfind : place.context.find? name with
    | none => exact hplaceholder
    | some property =>
      exact Property.bind_drawn hp (Context.mentions_of_find? h hfind) _ _

end

/-! ## Evaluation -/

namespace Evaluator

open Expression

section

variable {p : Char → Bool} {ev : Evaluator}

mutual

/-- The text of an expression without such a character, and without conditionals inside one another,
    is made of segments without it, optional ones for its conditionals. -/
theorem evaluate_drawn (hp : ∀ c, p c = true → isBracket c = true)
    (hbase : ev.baseEndpoint.toList.any p = false) (hroot : Context.mentions p ev.root = false) :
    ∀ (e : Expression) {value : BoundValue}, e.mentions p = false → e.nestsOptional = false →
      ev.evaluate e = .ok value → value.Drawn p (e.occurs .conditional)
  | e, value, hmentions, hnests, hvalue => by
    rcases evaluate_ok hvalue with rfl | hcase
    · exact Drawn.of_any hbase
    · cases e with
      | literal text =>
        cases hcase
        exact Drawn.of_any hmentions
      | concat items =>
        obtain ⟨text, htext, rfl⟩ := hcase
        exact evaluateItems_drawn hp hbase hroot items hmentions hnests htext
      | conditional inner =>
        -- no conditional stands inside, so the text in the brackets has no such character at all
        obtain ⟨v, text, hv, htext, rfl⟩ := hcase
        have hinner := evaluate_drawn hp hbase hroot inner hmentions (nestsOptional_of_occurs hnests) hv
        rw [show inner.occurs .conditional = false from hnests] at hinner
        exact (hinner.render htext).bracketed
      | root =>
        cases hcase
        exact hroot
      | property base name =>
        obtain ⟨v, hv, rfl⟩ := hcase
        obtain ⟨hmbase, hmname⟩ := Bool.or_eq_false_iff.1 hmentions
        exact BoundValue.get?_drawn hp (evaluate_drawn hp hbase hroot base hmbase hnests hv) hmname
      | parameter name =>
        obtain ⟨part, hpart, rfl⟩ := hcase
        have hmpart := any_of_subset hp hmentions fun c hc _ => mem_of_mem_lastPart? hpart hc
        exact Drawn.of_any (any_placeholder hp hmpart)
      | formatting format =>
        cases hcase
        exact Drawn.of_any (any_braced hp hmentions)
      | unsupported => cases hcase
termination_by structural e => e

/-- The same for the texts of several expressions, one after the other. -/
theorem evaluateItems_drawn (hp : ∀ c, p c = true → isBracket c = true)
    (hbase : ev.baseEndpoint.toList.any p = false) (hroot : Context.mentions p ev.root = false) :
    ∀ (items : List Expression) {text : String}, mentionsIn p items = false →
      nestsOptionalIn items = false → ev.evaluateItems items = .ok text →
      Drawn p (occursIn .conditional items) text
  | [], text, _, _, htext => by
    cases htext
    exact .of_any rfl
  | e :: rest, text, hmentions, hnests, htext => by
    obtain ⟨hmfirst, hmrest⟩ := Bool.or_eq_false_iff.1 hmentions
    obtain ⟨hnfirst, hnrest⟩ := Bool.or_eq_false_iff.1 hnests
    rw [evaluateItems] at htext
    cases hv : ev.evaluate e with
    | error error => simp [hv] at htext
    | ok v =>
      cases hfirst : v.render e with
      | error error => simp [hv, hfirst] at htext
      | ok first =>
        cases hrest : ev.evaluateItems rest with
        | error error => simp [hv, hfirst, hrest, Except.map] at htext
        | ok more =>
          simp only [hv, hfirst, hrest, Except.map, Except.ok.injEq] at htext
          rw [← htext]
          exact ((evaluate_drawn hp hbase hroot e hmfirst hnfirst hv).render hfirst).append
            (evaluateItems_drawn hp hbase hroot rest hmrest hnrest hrest)
termination_by structural items => items

end

/-- An evaluated text is a row of segments without a character with `p` if its sources have none. -/
theorem evaluateText_drawn {e : Expression} {text : String}
    (hp : ∀ c, p c = true → isBracket c = true) (hmentions : ev.mentions p e = false)
    (hnests : e.nestsOptional = false) (h : ev.evaluateText e = .ok text) :
    Drawn p (e.occurs .conditional) text := by
  simp only [Evaluator.mentions, Bool.or_eq_false_iff] at hmentions
  obtain ⟨⟨hbase, hroot⟩, hexpression⟩ := hmentions
  rw [evaluateText] at h
  cases hvalue : ev.evaluate e with
  | error error => simp [hvalue] at h
  | ok value =>
    simp only [hvalue] at h
    exact (evaluate_drawn hp hbase hroot e hexpression hnests hvalue).render h

end

end Evaluator

/-! ## URLs without conditionals -/

open UrlVariants (path expand)

/-- A URL is the only one if its path has no opening bracket. -/
theorem UrlVariants.expand_of_notMem {url : String} (h : '[' ∉ path url.toList) :
    expand url = [String.ofList (path url.toList)] := by
  have hcontains : (path url.toList).contains '[' = false := by
    rwa [Bool.eq_false_iff, ne_eq, List.contains_iff_mem]
  rw [expand]
  simp only [hcontains, Bool.false_eq_true, if_false]

theorem UrlVariants.length_expand_of_mem {url : String} (h : '[' ∈ path url.toList) :
    (expand url).length = 2 := by
  have hcontains : (path url.toList).contains '[' = true := List.contains_iff_mem.2 h
  rw [expand]
  simp only [hcontains, if_true, List.length_cons, List.length_nil]

/-- A method whose URL has no conditional becomes one record exactly if no opening bracket stands in its
    evaluated text before the query, and the text before the query is then the URL of the record.  This
    is always so if no source of the text has an opening bracket. -/
theorem records_of_unconditional {ev : Evaluator} {m : Method} {records : List Record}
    (hcond : m.url.occurs .conditional = false) (hrender : ev.render m = .ok records) :
    ∃ text, ev.evaluateText m.url = .ok text ∧
      (ev.mentions (· = '[') m.url = false → '[' ∉ path text.toList) ∧
      ((∃ r, records = [r]) ↔ '[' ∉ path text.toList) ∧
      ∀ r, records = [r] → r.url = String.ofList (path text.toList) := by
  obtain ⟨request, response, text, -, -, htext, rfl⟩ := Evaluator.render_eq_ok_iff.1 hrender
  have hiff : (∃ r, (expand text).map (fun url => (⟨m.name, m.verb, url, request, response⟩ : Record)) =
      [r]) ↔ '[' ∉ path text.toList := by
    constructor
    · rintro ⟨r, hr⟩ hmem
      have hlength := congrArg List.length hr
      rw [List.length_map, UrlVariants.length_expand_of_mem hmem] at hlength
      cases hlength
    · intro hmem
      exact ⟨_, by rw [UrlVariants.expand_of_notMem hmem, List.map_singleton]⟩
  refine ⟨text, htext, fun hmentions hmem => ?_, hiff, fun r hr => ?_⟩
  · have hp : ∀ c, decide (c = '[') = true → isBracket c = true := by
      intro c hc
      exact UrlVariants.isBracket_iff.2 (.inl (of_decide_eq_true hc))
    have hdrawn := ev.evaluateText_drawn hp hmentions (Expression.nestsOptional_of_occurs hcond) htext
    rw [hcond] at hdrawn
    have hbefore := (List.takeWhile_prefix _).subset hmem
    exact List.any_eq_false.1 hdrawn.any_eq_false '[' hbefore (by decide)
  · have hmem := hiff.1 ⟨r, hr⟩
    rw [UrlVariants.expand_of_notMem hmem, List.map_singleton] at hr
    cases hr
    rfl

/-- A method with the given URL and nothing else. -/
def bareMethod (url : Expression) : Method := ⟨"M", .get, url, [], []⟩

theorem records_of_unconditional_sample :
    ∃ text, Evaluator.evaluateText ⟨"https://h", []⟩ (.concat [.literal "/a?", .formatting "["]) =
        .ok text ∧ String.ofList (path text.toList) = "/a" := by
  obtain ⟨records, hrender, hsingle⟩ : ∃ records, Evaluator.render ⟨"https://h", []⟩
      (bareMethod (.concat [.literal "/a?", .formatting "["])) = .ok records ∧
      records.map Record.url = ["/a"] := by
    refine ⟨_, rfl, ?_⟩
    rfl
  obtain ⟨r, rfl, hurl⟩ := List.map_eq_singleton_iff.1 hsingle
  obtain ⟨text, htext, -, -, hrecord⟩ := records_of_unconditional rfl hrender
  exact ⟨text, htext, (hrecord r rfl).symm.trans hurl⟩

/-- An expression without conditionals that becomes two records below a base endpoint which settings
    can have. -/
structure Evaluator.Doubles (ev : Evaluator) (e : Expression) : Prop where
  accepted : ∃ a settings, Settings.ofArguments a = .ok settings ∧
    settings.baseEndpoint = ev.baseEndpoint
  unconditional : e.occurs .conditional = false
  doubled : ∃ r r', ev.render (bareMethod e) = .ok [r, r']

/-- A base endpoint in its normal form is one that settings can have. -/
theorem Settings.exists_of_normal {base : String} (h : normalBaseEndpoint base = .ok base) :
    ∃ a settings, Settings.ofArguments a = .ok settings ∧ settings.baseEndpoint = base := by
  refine ⟨⟨.v4 127 0 0 1, 18790, base, "model.json", "info", false⟩,
    ⟨.v4 127 0 0 1, 18790, base, "model.json", "info", false⟩, ?_, rfl⟩
  rw [ofArguments, if_neg (show (18790 : Nat) ≠ 0 by decide)]
  simp only [h]

/-- None of the sources of an evaluated text is harmless: an opening bracket may come from the base
    endpoint, a literal, a format, a parameter, the name of a property that is not there, or the text of
    one that is. -/
theorem two_records_without_conditional :
    Evaluator.Doubles ⟨"http://[::1]:8080", []⟩ (.property .root "BaseUri") ∧
    Evaluator.Doubles ⟨"https://h", []⟩ (.literal "/a[b]") ∧
    Evaluator.Doubles ⟨"https://h", []⟩ (.formatting "a[b]") ∧
    Evaluator.Doubles ⟨"https://h", []⟩ (.parameter "a[b]") ∧
    Evaluator.Doubles ⟨"https://h", []⟩ (.property .root "a[b]") ∧
    Evaluator.Doubles ⟨"https://h", [("P", .text "a[b]")]⟩ (.property .root "P") := by
  have haddress : ∃ a settings, Settings.ofArguments a = .ok settings ∧
      settings.baseEndpoint = "http://[::1]:8080" := Settings.exists_of_normal rfl
  have hhost : ∃ a settings, Settings.ofArguments a = .ok settings ∧
      settings.baseEndpoint = "https://h" := Settings.exists_of_normal rfl
  exact ⟨⟨haddress, rfl, _, _, rfl⟩, ⟨hhost, rfl, _, _, rfl⟩, ⟨hhost, rfl, _, _, rfl⟩,
    ⟨hhost, rfl, _, _, rfl⟩, ⟨hhost, rfl, _, _, rfl⟩, ⟨hhost, rfl, _, _, rfl⟩⟩

end OperationCatalog
