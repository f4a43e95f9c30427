import OperationCatalog.Expression.Evaluate

/-!
# Expressions with a part that is not supported

Evaluation goes into every part of an expression unless it is stopped by an expression whose display
form is the root token.  Unsupported parts, and parts that may be left out, show in the display form of
everything around them, by a character that the token does not have.  So an unsupported part is always
reached, and nothing around it has a value.

## Key results

- `kind_of_occurs_chain`: a chain of properties has no parts but the root and properties
- `mem_display_of_occurs`: a part with a mark shows in the display form
- `isRootToken_of_mark`: an expression with such a part is not the root token
- `Evaluator.evaluate_of_occurs`: an expression with an unsupported part has no value
-/

namespace OperationCatalog

namespace Expression

mutual

/-- Whether an expression of this kind stands anywhere in an expression, itself included. -/
def occurs (k : Kind) : Expression → Bool
  | .concat items => k = .concat || occursIn k items
  | .conditional inner => k = .conditional || occurs k inner
  | .property base _ => k = .property || occurs k base
  | e => e.kind = k
termination_by structural e => e

/-- Whether an expression of this kind stands anywhere in the items. -/
def occursIn (k : Kind) : List Expression → Bool
  | [] => false
  | e :: rest => occurs k e || occursIn k rest
termination_by structural es => es

end

theorem occursIn_iff {k : Kind} {items : List Expression} :
    occursIn k items = true ↔ ∃ e ∈ items, occurs k e = true := by
  induction items with
  | nil => simp [occursIn]
  | cons e rest ih => simp [occursIn, ih]

/-- A chain of properties consists of the root and properties. -/
theorem kind_of_occurs_chain {k : Kind} : ∀ {e : Expression} {names : List String},
    chain? e = some names → occurs k e = true → k = .root ∨ k = .property
  | .root, _, _, hocc => by
    exact .inl (of_decide_eq_true hocc).symm
  | .property base name, names, hchain, hocc => by
    obtain ⟨before, hbefore, -⟩ := Option.map_eq_some_iff.1 hchain
    simp only [occurs, Bool.or_eq_true, decide_eq_true_eq] at hocc
    rcases hocc with hk | hbase
    · exact .inr hk
    · exact kind_of_occurs_chain hbefore hbase

/-- The character by which the expressions of a kind show in the display form of all that they stand in,
    if there is one. -/
def Kind.mark? : Kind → Option Char
  | .conditional => some '['
  | .unsupported => some '<'
  | _ => none

/-- Only an expression that is no chain of properties has a part with a mark. -/
theorem chain?_of_occurs {k : Kind} {c : Char} (hk : k.mark? = some c) {e : Expression}
    (h : occurs k e = true) : chain? e = none := by
  cases hchain : chain? e with
  | none => rfl
  | some names => rcases kind_of_occurs_chain hchain h with rfl | rfl <;> cases hk

mutual

/-- A part with a mark shows in the display form of an expression: nothing is left out of it but the
    root, and the names in front of a chain's last one. -/
theorem mem_display_of_occurs {k : Kind} {c : Char} (hk : k.mark? = some c) :
    ∀ e : Expression, occurs k e = true → c ∈ e.display.toList
  | .concat items, h => by
    simp only [occurs, Bool.or_eq_true, decide_eq_true_eq] at h
    rcases h with rfl | hitems
    · cases hk
    · exact mem_displayItems_of_occursIn hk items hitems
  | .conditional inner, h => by
    simp only [occurs, Bool.or_eq_true, decide_eq_true_eq] at h
    simp only [display, String.toList_append, List.mem_append]
    rcases h with rfl | hinner
    · cases hk
      exact .inl (.inl (by decide))
    · exact .inl (.inr (mem_display_of_occurs hk inner hinner))
  | .property base name, h => by
    -- the expression is no chain, so the display form of its base is a part of its own
    have hchain := chain?_of_occurs hk h
    simp only [occurs, Bool.or_eq_true, decide_eq_true_eq] at h
    rcases h with rfl | hbase
    · cases hk
    · have hmem := mem_display_of_occurs hk base hbase
      simp only [display, hchain, String.toList_append, List.mem_append, hmem, true_or]
  | .unsupported, h => by
    obtain rfl := of_decide_eq_true h
    cases hk
    decide
  | .literal _, h | .root, h | .parameter _, h | .formatting _, h => by
    obtain rfl := of_decide_eq_true h
    cases hk
termination_by structural e => e

/-- The same for several expressions, one after the other. -/
theorem mem_displayItems_of_occursIn {k : Kind} {c : Char} (hk : k.mark? = some c) :
    ∀ items : List Expression, occursIn k items = true → c ∈ (displayItems items).toList
  | e :: rest, h => by
    simp only [occursIn, Bool.or_eq_true] at h
    rw [displayItems, String.toList_append, List.mem_append]
    exact h.imp (mem_display_of_occurs hk e) (mem_displayItems_of_occursIn hk rest)
termination_by structural items => items

end

/-- An expression with such a part is not the root token. -/
theorem isRootToken_of_mark {k : Kind} {c : Char} (hk : k.mark? = some c) {e : Expression}
    (h : occurs k e = true) : e.isRootToken = false := by
  refine isRootToken_of_mem (mem_display_of_occurs hk e h) ?_
  cases k <;> cases hk <;> decide

/-- An expression that may be left out is not the root token. -/
theorem isRootToken_conditional (inner : Expression) : (conditional inner).isRootToken = false :=
  isRootToken_of_mark (k := .conditional) rfl (by simp [occurs])

/-- Nor is one with an unsupported part. -/
theorem isRootToken_of_occurs {e : Expression} (h : occurs .unsupported e = true) :
    e.isRootToken = false :=
  isRootToken_of_mark rfl h

end Expression

namespace Evaluator

open Expression

mutual

/-- An expression with an unsupported part has no value. -/
theorem evaluate_of_occurs (ev : Evaluator) : ∀ e : Expression, occurs .unsupported e = true →
    ∃ error, ev.evaluate e = .error error
  | .literal _, h => by simp [occurs, kind] at h
  | .concat items, h => by
    have htoken := isRootToken_of_occurs h
    simp only [occurs, Bool.or_eq_true] at h
    obtain ⟨error, herror⟩ := evaluateItems_of_occursIn ev items (h.resolve_left (by decide))
    refine ⟨error, ?_⟩
    rw [evaluate, htoken, herror]
    rfl
  | .conditional inner, h => by
    have htoken := isRootToken_of_occurs h
    simp only [occurs, Bool.or_eq_true] at h
    obtain ⟨error, herror⟩ := evaluate_of_occurs ev inner (h.resolve_left (by decide))
    refine ⟨error, ?_⟩
    rw [evaluate, htoken, herror]
    rfl
  | .root, h => by simp [occurs, kind] at h
  | .property base name, h => by
    have htoken := isRootToken_of_occurs h
    simp only [occurs, Bool.or_eq_true] at h
    obtain ⟨error, herror⟩ := evaluate_of_occurs ev base (h.resolve_left (by decide))
    refine ⟨error, ?_⟩
    rw [evaluate, htoken, herror]
    rfl
  | .parameter _, h => by simp [occurs, kind] at h
  | .formatting _, h => by simp [occurs, kind] at h
  | .unsupported, h => by
    refine ⟨.unsupportedExpression, ?_⟩
    rw [evaluate, isRootToken_of_occurs h]
    rfl
termination_by structural e => e

/-- Nor have items with an unsupported part a text. -/
theorem evaluateItems_of_occursIn (ev : Evaluator) : ∀ items : List Expression,
    occursIn .unsupported items = true → ∃ error, ev.evaluateItems items = .error error
  | [], h => by simp [occursIn] at h
  | e :: rest, h => by
    simp only [occursIn, Bool.or_eq_true] at h
    rw [evaluateItems]
    cases hvalue : ev.evaluate e with
    | error error => exact ⟨error, rfl⟩
    | ok value =>
      -- the first item has a value, so the part stands in one of the others
      have hrest : occursIn .unsupported rest = true := by
        refine h.resolve_left fun hfirst => ?_
        obtain ⟨error, herror⟩ := evaluate_of_occurs ev e hfirst
        rw [hvalue] at herror
        cases herror
      obtain ⟨error, herror⟩ := evaluateItems_of_occursIn ev rest hrest
      simp only [herror]
      cases value.render e with
      | error first => exact ⟨first, rfl⟩
      | ok text => exact ⟨error, rfl⟩
termination_by structural items => items

end

/-- Such an expression has no text either. -/
theorem evaluateText_of_occurs (ev : Evaluator) {e : Expression}
    (h : occurs .unsupported e = true) : ∃ error, ev.evaluateText e = .error error := by
  obtain ⟨error, herror⟩ := ev.evaluate_of_occurs e h
  refine ⟨error, ?_⟩
  rw [evaluateText, herror]

end Evaluator

end OperationCatalog
