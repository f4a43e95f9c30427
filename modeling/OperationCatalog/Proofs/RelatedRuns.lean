import OperationCatalog.Expression.Evaluate

/-!
# Two runs of the evaluator

Two evaluators go through an expression side by side.  Which parts of it stand for the base endpoint is
the same for both, so they take the same way and part in values only.  A `Pairing` says which texts and
which contexts may stand opposite each other.  If the base endpoints, the roots and what is found in two
contexts keep to it, then so do the values of every expression, and an error is the same on both sides.

## Key results

- `Pairing.evaluate`: the values of an expression keep to the pairing, by induction on its tree
- `Pairing.evaluateText`: so do the texts
-/

namespace OperationCatalog

namespace Expression

mutual

/-- All that stands in an expression, itself first. -/
def parts : Expression → List Expression
  | .concat items => .concat items :: partsIn items
  | .conditional inner => .conditional inner :: parts inner
  | .property base name => .property base name :: parts base
  | e => [e]
termination_by structural e => e

/-- All that stands in the items. -/
def partsIn : List Expression → List Expression
  | [] => []
  | e :: rest => parts e ++ partsIn rest
termination_by structural es => es

end

theorem mem_parts_self (e : Expression) : e ∈ e.parts := by
  cases e <;> exact List.mem_cons_self

end Expression

/-! ## What may stand opposite what -/

/-- The same error on both sides, or results that go together. -/
inductive Outcomes {α : Type} (r : α → α → Prop) :
    Except EvaluationError α → Except EvaluationError α → Prop where
  | error (e : EvaluationError) : Outcomes r (.error e) (.error e)
  | ok {x y : α} (h : r x y) : Outcomes r (.ok x) (.ok y)

namespace Outcomes

variable {α β : Type} {r : α → α → Prop} {r' : β → β → Prop} {a b : Except EvaluationError α}

theorem bind {f g : α → Except EvaluationError β} (h : Outcomes r a b)
    (hfg : ∀ x y, r x y → Outcomes r' (f x) (g y)) : Outcomes r' (a.bind f) (b.bind g) := by
  cases h with
  | error e => exact .error e
  | ok h => exact hfg _ _ h

theorem map {f g : α → β} (h : Outcomes r a b) (hfg : ∀ x y, r x y → r' (f x) (g y)) :
    Outcomes r' (a.map f) (b.map g) := by
  cases h with
  | error e => exact .error e
  | ok h => exact .ok (hfg _ _ h)

/-- Results that go together only if they are equal make equal outcomes. -/
theorem eq (h : Outcomes r a b) (heq : ∀ x y, r x y → x = y) : a = b := by
  cases h with
  | error e => rfl
  | ok h => rw [heq _ _ h]

end Outcomes

/-- Which texts may stand opposite each other, and which contexts as the values of an expression. -/
structure Pairing where
  text : String → String → Prop
  place : Expression → Place → Place → Prop

namespace Pairing

/-- Values of an expression that may stand opposite each other are of one kind. -/
inductive Values (R : Pairing) (e : Expression) : BoundValue → BoundValue → Prop where
  | null : R.Values e .null .null
  | text {s t : String} (h : R.text s t) : R.Values e (.text s) (.text t)
  | context {p q : Place} (h : R.place e p q) : R.Values e (.context p) (.context q)

/-- What the two evaluators must keep to, so that their runs do, on the parts of an expression. -/
structure Holds (R : Pairing) (ev ev' : Evaluator) (parts : List Expression) : Prop where
  same : ∀ s, R.text s s
  append : ∀ {s t s' t'}, R.text s t → R.text s' t' → R.text (s ++ s') (t ++ t')
  baseEndpoint : R.text ev.baseEndpoint ev'.baseEndpoint
  root : .root ∈ parts → R.place .root ⟨[], ev.root⟩ ⟨[], ev'.root⟩
  /-- What is found under one name in two contexts. -/
  property : ∀ {base name p q}, .property base name ∈ parts → R.place base p q →
    Option.Rel (R.Values (.property base name)) (p.get? name) (q.get? name)

variable {R : Pairing} {ev ev' : Evaluator}

theorem Holds.mono {parts more : List Expression} (h : R.Holds ev ev' more)
    (hsub : ∀ e ∈ parts, e ∈ more) : R.Holds ev ev' parts where
  same := h.same
  append := h.append
  baseEndpoint := h.baseEndpoint
  root := fun hroot => h.root (hsub _ hroot)
  property := fun hproperty => h.property (hsub _ hproperty)

/-! ## One step -/

/-- The texts of values that go together go together, and a context has a text on neither side. -/
theorem Values.render {e : Expression} {v w : BoundValue} (hsame : ∀ s, R.text s s)
    (h : R.Values e v w) : Outcomes R.text (v.render e) (w.render e) := by
  cases h with
  | null => exact .ok (hsame "")
  | text h => exact .ok h
  | context h => exact .error (.unrenderableContext e.display)

private theorem rel_getD {α : Type} {r : α → α → Prop} {a b : Option α} {x y : α}
    (h : Option.Rel r a b) (hdefault : r x y) : r (a.getD x) (b.getD y) := by
  cases h with
  | none => exact hdefault
  | some h => exact h

/-- What is looked up in values that go together goes together. -/
theorem Values.lookUp {base : Expression} {name : String} {v w : BoundValue}
    {parts : List Expression} (hR : R.Holds ev ev' parts) (hmem : .property base name ∈ parts)
    (h : R.Values base v w) :
    Outcomes (R.Values (.property base name)) (v.lookUp base name) (w.lookUp base name) := by
  cases h with
  | null => exact .error (.absentBase base.display)
  | text h => exact .ok (.text (hR.same _))
  | @context p q h =>
    -- the name stands for a placeholder on both sides, or on neither
    exact .ok (rel_getD (hR.property hmem h) (.text (hR.same _)))

/-! ## A whole run -/

mutual

/-- The values of an expression go together, if the two evaluators keep to the pairing on its parts. -/
theorem evaluate : ∀ e : Expression, R.Holds ev ev' e.parts →
    Outcomes (R.Values e) (ev.evaluate e) (ev'.evaluate e)
  | e, hR => by
    cases htoken : e.isRootToken with
    | true =>
      rw [ev.evaluate_of_isRootToken htoken, ev'.evaluate_of_isRootToken htoken]
      exact .ok (.text hR.baseEndpoint)
    | false =>
      cases e with
      | literal text =>
        rw [Evaluator.evaluate, Evaluator.evaluate, htoken]
        exact .ok (.text (hR.same text))
      | concat items =>
        have hitems := evaluateItems items (hR.mono fun _ => List.mem_cons_of_mem _)
        rw [ev.evaluate_concat htoken, ev'.evaluate_concat htoken]
        exact hitems.map fun _ _ h => .text h
      | conditional inner =>
        have hinner := evaluate inner (hR.mono fun _ => List.mem_cons_of_mem _)
        rw [ev.evaluate_conditional htoken, ev'.evaluate_conditional htoken,
          ev.evaluateText_eq_bind, ev'.evaluateText_eq_bind]
        refine (hinner.bind fun v w h => h.render hR.same).map fun s t h => .text ?_
        exact hR.append (hR.append (hR.same "[") h) (hR.same "]")
      | root =>
        rw [Evaluator.evaluate, Evaluator.evaluate, htoken]
        exact .ok (.context (hR.root (Expression.mem_parts_self _)))
      | property base name =>
        have hbase := evaluate base (hR.mono fun _ => List.mem_cons_of_mem _)
        rw [ev.evaluate_property htoken, ev'.evaluate_property htoken]
        exact hbase.bind fun v w h => h.lookUp hR (Expression.mem_parts_self _)
      | parameter name =>
        rw [Evaluator.evaluate, Evaluator.evaluate, htoken]
        cases lastPart? name with
        | none => exact .error (.emptyParameter name)
        | some part => exact .ok (.text (hR.same _))
      | formatting format =>
        rw [Evaluator.evaluate, Evaluator.evaluate, htoken]
        exact .ok (.text (hR.same _))
      | unsupported =>
        rw [Evaluator.evaluate, Evaluator.evaluate, htoken]
        exact .error .unsupportedExpression
termination_by structural e => e

/-- So do the texts of several expressions, one after the other. -/
theorem evaluateItems : ∀ items : List Expression, R.Holds ev ev' (Expression.partsIn items) →
    Outcomes R.text (ev.evaluateItems items) (ev'.evaluateItems items)
  | [], hR => .ok (hR.same "")
  | e :: rest, hR => by
    have hfirst := evaluate e (hR.mono fun _ => List.mem_append_left _)
    have hrest := evaluateItems rest (hR.mono fun _ => List.mem_append_right _)
    rw [ev.evaluateItems_cons, ev'.evaluateItems_cons, ev.evaluateText_eq_bind,
      ev'.evaluateText_eq_bind]
    refine (hfirst.bind fun v w h => h.render hR.same).bind fun s t h => ?_
    exact hrest.map fun s' t' h' => hR.append h h'
termination_by structural items => items

end

/-- And so do the texts of an expression. -/
theorem evaluateText {e : Expression} (hR : R.Holds ev ev' e.parts) :
    Outcomes R.text (ev.evaluateText e) (ev'.evaluateText e) := by
  rw [ev.evaluateText_eq_bind, ev'.evaluateText_eq_bind]
  exact (evaluate e hR).bind fun v w h => h.render hR.same

end Pairing

end OperationCatalog
