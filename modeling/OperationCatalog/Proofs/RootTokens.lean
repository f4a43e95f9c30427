import OperationCatalog.Proofs.PropertyChains
import OperationCatalog.Proofs.UnsupportedParts

/-!
# Which expressions stand for the base endpoint

Whether an expression is the root token is decided by its display form, and different trees are
displayed alike.  `StandsForBase` says for each kind of expression which ones are.  They are also the
only ones whose value is the base endpoint, whatever this is: in a context without properties, an
expression that gives no text of its own is made of a number of root tokens and of empty texts, so that
its value is that number of copies of the base endpoint, and one copy stands alone only if nothing is
displayed beside it.

## Key results

- `Expression.isRootToken_iff`: the root tokens, kind by kind
- `Evaluator.copies_of_empty`: an expression without a text of its own gives copies of the base endpoint
- `root_token_expressions`: when an expression stands for the base endpoint, and when it never does
-/

namespace OperationCatalog

namespace Expression

open Text (sameIgnoringCase)

/-! ## Root tokens, kind by kind -/

/-- The expressions that stand for the base endpoint: literals with the token, formats with the name of
    the base endpoint, parameters with this name and any braces around it, properties of this name of the
    root, with nothing but empty names between them, and concatenations that are displayed as the token. -/
inductive StandsForBase : Expression → Prop where
  | literal {text : String} (h : sameIgnoringCase text "\x7bBaseUri\x7d" = true) :
    StandsForBase (.literal text)
  | formatting {format : String} (h : sameIgnoringCase format "BaseUri" = true) :
    StandsForBase (.formatting format)
  | parameter {name : String} (opening : Nat) (core : String) (closing : Nat)
    (hname : name.toList =
      List.replicate opening '\x7b' ++ core.toList ++ List.replicate closing '\x7d')
    (h : sameIgnoringCase core "BaseUri" = true) : StandsForBase (.parameter name)
  | property (front : List String) {name : String} (hfront : ∀ n ∈ front, n = "")
    (h : sameIgnoringCase name "BaseUri" = true) : StandsForBase (.property (chain front) name)
  | concat {items : List Expression}
    (h : sameIgnoringCase (String.join (items.map display)) "\x7bBaseUri\x7d" = true) :
    StandsForBase (.concat items)

/-- The characters of a text are those of another one, but for the case of ASCII letters. -/
theorem toLower_mem_of_sameIgnoringCase {s t : String} (h : sameIgnoringCase s t = true) {c : Char}
    (hc : c ∈ s.toList) : c.toLower ∈ t.toList.map Char.toLower := by
  rw [← beq_iff_eq.1 h]
  exact List.mem_map_of_mem hc

/-- Of a name with braces around it the braces are taken off, if there are no others at its ends. -/
theorem unbraced_eq_iff {name core : String} (hopen : '\x7b' ∉ core.toList)
    (hclose : '\x7d' ∉ core.toList) :
    unbraced name = core ↔ ∃ opening closing, name.toList =
      List.replicate opening '\x7b' ++ core.toList ++ List.replicate closing '\x7d' := by
  rw [unbraced, ← String.toList_inj, String.toList_ofList]
  constructor
  · intro h
    obtain ⟨⟨front, hname, hfront⟩, -⟩ :=
      Text.dropWhile_eq_iff.1 (rfl : name.toList.dropWhile (· = '\x7b') = _)
    obtain ⟨⟨back, hrest, hback⟩, -⟩ := Text.dropTrailing_eq_iff.1 h
    refine ⟨front.length, back.length, ?_⟩
    rw [← List.eq_replicate_of_mem (by simpa using hfront),
      ← List.eq_replicate_of_mem (by simpa using hback), List.append_assoc, ← hrest]
    exact hname
  · rintro ⟨opening, closing, hname⟩
    have hhead : name.toList.dropWhile (· = '\x7b') =
        core.toList ++ List.replicate closing '\x7d' := by
      refine Text.dropWhile_eq_iff.2 ⟨⟨_, by rw [hname, List.append_assoc], by simp⟩, fun c hc => ?_⟩
      have hmem := List.mem_of_mem_head? hc
      simp only [decide_eq_false_iff_not]
      rintro rfl
      rcases List.mem_append.1 hmem with hcore | hback
      · exact hopen hcore
      · exact absurd (List.eq_of_mem_replicate hback) (by decide)
    rw [hhead]
    refine Text.dropTrailing_eq_iff.2 ⟨⟨_, rfl, by simp⟩, fun c hc => ?_⟩
    simp only [decide_eq_false_iff_not]
    rintro rfl
    exact hclose (List.mem_of_mem_getLast? hc)

/-- A text in braces is the root token if it is the name of the base endpoint. -/
theorem isRootToken_of_display_braced {e : Expression} {text : String}
    (h : e.display = braced text) : e.isRootToken = sameIgnoringCase text "BaseUri" := by
  have htoken : rootToken = braced "BaseUri" := by decide
  rw [isRootToken, h, htoken, sameIgnoringCase_braced]

theorem isRootToken_parameter_iff {name : String} :
    (parameter name).isRootToken = true ↔ StandsForBase (.parameter name) := by
  rw [isRootToken_of_display_braced (by rw [display])]
  constructor
  · intro h
    have hcore : ∀ c, c.toLower ∉ "BaseUri".toList.map Char.toLower → c ∉ (unbraced name).toList :=
      fun c hc hmem => hc (toLower_mem_of_sameIgnoringCase h hmem)
    obtain ⟨opening, closing, hname⟩ :=
      (unbraced_eq_iff (hcore '\x7b' (by decide)) (hcore '\x7d' (by decide))).1 rfl
    exact .parameter opening (unbraced name) closing hname h
  · rintro (_ | _ | ⟨opening, core, closing, hname, h⟩ | _ | _)
    have hcore : ∀ c, c.toLower ∉ "BaseUri".toList.map Char.toLower → c ∉ core.toList :=
      fun c hc hmem => hc (toLower_mem_of_sameIgnoringCase h hmem)
    rwa [(unbraced_eq_iff (hcore '\x7b' (by decide)) (hcore '\x7d' (by decide))).2
      ⟨opening, closing, hname⟩]

/-- The display form of a property of something else than a chain has a dot. -/
theorem isRootToken_property_of_not_chain {base : Expression} (h : ∀ names, base ≠ chain names)
    (name : String) : (property base name).isRootToken = false := by
  have hchain : chain? base = none :=
    Option.eq_none_iff_forall_ne_some.2 fun names hnames => h names (chain?_eq_some_iff.1 hnames)
  have hdisplay : (property base name).display = base.display ++ "." ++ name := by
    rw [display, chain?, hchain, Option.map_none]
  have hmem : '.' ∈ (property base name).display.toList := by
    rw [hdisplay]
    simp only [String.toList_append, List.mem_append]
    exact .inl (.inr (by decide))
  exact isRootToken_of_mem hmem (by decide)

theorem isRootToken_property_iff {base : Expression} {name : String} :
    (property base name).isRootToken = true ↔ StandsForBase (.property base name) := by
  by_cases hchain : ∃ names, base = chain names
  · obtain ⟨front, rfl⟩ := hchain
    rw [← chain_concat, isRootToken_chain_concat, chain_concat]
    constructor
    · rintro ⟨hfront, h⟩
      exact .property front hfront h
    · generalize hbase : chain front = base
      rintro (_ | _ | _ | ⟨front', hfront, h⟩ | _)
      rw [chain_inj.1 hbase]
      exact ⟨hfront, h⟩
  · rw [isRootToken_property_of_not_chain (by simpa using hchain) name]
    refine ⟨nofun, ?_⟩
    rintro (_ | _ | _ | ⟨front, hfront, h⟩ | _)
    exact absurd ⟨front, rfl⟩ hchain

/-- The root tokens are the expressions that stand for the base endpoint. -/
theorem isRootToken_iff (e : Expression) : e.isRootToken = true ↔ StandsForBase e := by
  cases e with
  | literal text =>
    refine ⟨.literal, fun h => ?_⟩
    cases h with
    | literal htext => exact htext
  | concat items =>
    rw [isRootToken, display, displayItems_eq_join]
    refine ⟨.concat, fun h => ?_⟩
    cases h with
    | concat hitems => exact hitems
  | conditional inner =>
    refine iff_of_false (Bool.eq_false_iff.1 (isRootToken_conditional inner)) ?_
    rintro ⟨⟩
  | root =>
    refine iff_of_false (Bool.eq_false_iff.1 isRootToken_root) ?_
    rintro ⟨⟩
  | property base name => exact isRootToken_property_iff
  | parameter name => exact isRootToken_parameter_iff
  | formatting format =>
    rw [isRootToken_of_display_braced (by rw [display])]
    refine ⟨.formatting, fun h => ?_⟩
    cases h with
    | formatting hformat => exact hformat
  | unsupported =>
    refine iff_of_false (Bool.eq_false_iff.1 (isRootToken_of_occurs rfl)) ?_
    rintro ⟨⟩

end Expression

namespace Evaluator

open Expression
open Text (sameIgnoringCase)

/-! ## Copies of the base endpoint -/

/-- In a context without properties the value of an expression has none. -/
theorem get?_of_empty {base : String} : ∀ {e : Expression} {value : BoundValue},
    evaluate ⟨base, []⟩ e = .ok value → ∀ name, value.get? name = none := by
  intro e value h name
  rcases evaluate_ok h with rfl | hmakes
  · rfl
  · cases e with
    | literal text => cases hmakes; rfl
    | concat items =>
      obtain ⟨text, -, rfl⟩ := hmakes
      rfl
    | conditional inner =>
      obtain ⟨v, text, -, -, rfl⟩ := hmakes
      rfl
    | root => cases hmakes; rfl
    | property base name' =>
      obtain ⟨v, hv, rfl⟩ := hmakes
      rw [get?_of_empty hv name']
      rfl
    | parameter name' =>
      obtain ⟨part, -, rfl⟩ := hmakes
      rfl
    | formatting format => cases hmakes; rfl
    | unsupported => cases hmakes

/-- What depends on the base endpoint is this number of copies of it.  If there is none, then nothing is
    displayed, and if there is one, then the root token is. -/
structure Copies (n : Nat) (textFor : String → Except EvaluationError String) (display : String) :
    Prop where
  text : ∀ base, textFor base = .ok (String.join (List.replicate n base))
  display_of_zero : n = 0 → display = ""
  display_of_one : n = 1 → sameIgnoringCase display rootToken = true

theorem Copies.append {n m : Nat} {f g : String → Except EvaluationError String} {s t : String}
    (hf : Copies n f s) (hg : Copies m g t) :
    Copies (n + m) (fun base => (f base).bind fun u => (g base).map (u ++ ·)) (s ++ t) where
  text := by
    intro base
    rw [hf.text, hg.text, List.replicate_add, String.join_append]
    rfl
  display_of_zero := by
    intro h
    rw [hf.display_of_zero (by omega), hg.display_of_zero (by omega), String.empty_append]
  display_of_one := by
    intro h
    -- the one copy is on one side, and nothing is displayed on the other
    rcases Nat.eq_zero_or_pos n with hn | hn
    · rw [hf.display_of_zero hn, String.empty_append]
      exact hg.display_of_one (by omega)
    · rw [hg.display_of_zero (by omega), String.append_empty]
      exact hf.display_of_one (by omega)

/-- The root token is one copy. -/
theorem copies_of_isRootToken {e : Expression} (h : e.isRootToken = true) :
    Copies 1 (fun base => evaluateText ⟨base, []⟩ e) e.display where
  text := by
    intro base
    rw [evaluateText_of_isRootToken _ h]
    simp
  display_of_zero := nofun
  display_of_one := fun _ => h

theorem placeholder_ne_empty (name : String) : placeholder name ≠ "" := by
  simp [placeholder, braced]

/-- Any other expression without a text of its own is a literal or a concatenation. -/
theorem empty_cases {e : Expression} (htoken : e.isRootToken = false)
    (h : evaluateText ⟨"", []⟩ e = .ok "") :
    e = .literal "" ∨ ∃ items, e = .concat items := by
  rw [evaluateText] at h
  cases hvalue : evaluate ⟨"", []⟩ e with
  | error error => simp [hvalue] at h
  | ok value =>
    simp only [hvalue] at h
    have hmakes := makes_of_evaluate htoken hvalue
    cases e with
    | literal text =>
      cases hmakes
      cases h
      exact .inl rfl
    | concat items => exact .inr ⟨items, rfl⟩
    | conditional inner =>
      obtain ⟨v, text, -, -, rfl⟩ := hmakes
      simp [BoundValue.render] at h
    | root => cases hmakes; cases h
    | property base name =>
      obtain ⟨v, hv, rfl⟩ := hmakes
      rw [get?_of_empty hv name] at h
      exact absurd (Except.ok.inj h) (placeholder_ne_empty name)
    | parameter name =>
      obtain ⟨part, -, rfl⟩ := hmakes
      exact absurd (Except.ok.inj h) (placeholder_ne_empty part)
    | formatting format =>
      cases hmakes
      simp [BoundValue.render, braced] at h
    | unsupported => cases hmakes

mutual

/-- An expression that gives no text of its own in a context without properties gives copies of the base
    endpoint there. -/
theorem copies_of_empty : ∀ e : Expression, evaluateText ⟨"", []⟩ e = .ok "" →
    ∃ n, Copies n (fun base => evaluateText ⟨base, []⟩ e) e.display
  | e, h => by
    cases htoken : e.isRootToken with
    | true => exact ⟨1, copies_of_isRootToken htoken⟩
    | false =>
      cases e with
      | concat items =>
        rw [evaluateText_concat_eq _ htoken] at h
        obtain ⟨n, hn⟩ := copies_of_emptyItems items h
        refine ⟨n, ?_⟩
        simp only [evaluateText_concat_eq _ htoken]
        rwa [display]
      | literal text =>
        rcases empty_cases htoken h with hempty | ⟨items, hconcat⟩
        · cases hempty
          exact ⟨0, fun _ => rfl, fun _ => rfl, nofun⟩
        · cases hconcat
      | _ =>
        -- all others give some text of their own
        rcases empty_cases htoken h with hempty | ⟨items, hconcat⟩
        · cases hempty
        · cases hconcat
termination_by structural e => e

/-- The same for several expressions, one after the other. -/
theorem copies_of_emptyItems : ∀ items : List Expression, evaluateItems ⟨"", []⟩ items = .ok "" →
    ∃ n, Copies n (fun base => evaluateItems ⟨base, []⟩ items) (displayItems items)
  | [], _ => ⟨0, fun _ => rfl, fun _ => rfl, nofun⟩
  | e :: rest, h => by
    rw [evaluateItems_cons] at h
    cases hfirst : evaluateText ⟨"", []⟩ e with
    | error error => simp [hfirst, Except.bind] at h
    | ok s =>
      cases hrest : evaluateItems ⟨"", []⟩ rest with
      | error error => simp [hfirst, hrest, Except.bind, Except.map] at h
      | ok t =>
        simp only [hfirst, hrest, Except.bind, Except.map, Except.ok.injEq,
          String.append_eq_empty_iff] at h
        obtain ⟨n, hn⟩ := copies_of_empty e (by rw [hfirst, h.1])
        obtain ⟨m, hm⟩ := copies_of_emptyItems rest (by rw [hrest, h.2])
        refine ⟨n + m, ?_⟩
        simp only [evaluateItems_cons]
        rw [displayItems]
        exact hn.append hm
termination_by structural items => items

end

/-- An expression whose value is the base endpoint, whatever this is, is the root token. -/
theorem isRootToken_of_forall {e : Expression}
    (h : ∀ ev : Evaluator, ev.evaluate e = .ok (.text ev.baseEndpoint)) : e.isRootToken = true := by
  have htext : ∀ base, evaluateText ⟨base, []⟩ e = .ok base := by
    intro base
    rw [evaluateText, h]
    rfl
  obtain ⟨n, hcopies⟩ := copies_of_empty e (htext "")
  have hone : String.join (List.replicate n "x") = "x" :=
    Except.ok.inj ((hcopies.text "x").symm.trans (htext "x"))
  have hlength : (String.join (List.replicate n "x")).length = n := by
    simp [String.length_join, show "x".length = 1 from rfl]
  rw [hone] at hlength
  exact hcopies.display_of_one hlength.symm

end Evaluator

open Expression

/-- An expression is the root token exactly if it stands for the base endpoint, and exactly if its value
    is the base endpoint in every evaluator.  So it is neither the root nor a property of something else
    than a chain, and nothing in it can be left out or is unsupported. -/
theorem root_token_expressions (e : Expression) :
    (e.isRootToken = true ↔ StandsForBase e) ∧
    ((∀ ev : Evaluator, ev.evaluate e = .ok (.text ev.baseEndpoint)) ↔ StandsForBase e) ∧
    (e = .root ∨ (∃ inner, e = .conditional inner) ∨ e = .unsupported ∨
      (∃ base name, e = .property base name ∧ ∀ names, base ≠ chain names) ∨
      occurs .conditional e = true ∨ occurs .unsupported e = true → e.isRootToken = false) := by
  refine ⟨isRootToken_iff e, ⟨fun h => ?_, fun h ev => ?_⟩, ?_⟩
  · exact (isRootToken_iff e).1 (Evaluator.isRootToken_of_forall h)
  · exact ev.evaluate_of_isRootToken ((isRootToken_iff e).2 h)
  · rintro (rfl | ⟨inner, rfl⟩ | rfl | ⟨base, name, rfl, hbase⟩ | hocc | hocc)
    · exact isRootToken_root
    · exact isRootToken_conditional inner
    · exact isRootToken_of_occurs rfl
    · exact isRootToken_property_of_not_chain hbase name
    · exact isRootToken_of_mark (k := .conditional) rfl hocc
    · exact isRootToken_of_occurs hocc

/-- A token in two literals, one beside a part that may be left out, and names of each other kind. -/
theorem root_token_expressions_sample :
    (∀ ev : Evaluator, ev.evaluate (.concat [.literal "\x7bbase", .concat [], .literal "URI\x7d"]) =
      .ok (.text ev.baseEndpoint)) ∧
    (∀ ev : Evaluator, ev.evaluate (.parameter "\x7b\x7bbaseuri\x7d") = .ok (.text ev.baseEndpoint)) ∧
    (∀ ev : Evaluator, ev.evaluate (.property (.property .root "") "BASEURI") =
      .ok (.text ev.baseEndpoint)) ∧
    (concat [.literal "\x7bBaseUri\x7d", .conditional (.literal "")]).isRootToken = false ∧
    (property (.parameter "Id") "BaseUri").isRootToken = false := by
  refine ⟨(root_token_expressions _).2.1.2 (.concat rfl), ?_, ?_, ?_, ?_⟩
  · exact (root_token_expressions _).2.1.2 (.parameter 2 "baseuri" 1 rfl rfl)
  · exact (root_token_expressions _).2.1.2 (.property [""] (by simp) rfl)
  · exact (root_token_expressions _).2.2 (.inr (.inr (.inr (.inr (.inl rfl)))))
  · refine (root_token_expressions _).2.2 (.inr (.inr (.inr (.inl ⟨_, _, rfl, fun names h => ?_⟩))))
    have hchain := chain?_chain names
    rw [← h] at hchain
    cases hchain

end OperationCatalog
