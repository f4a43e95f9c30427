import OperationCatalog.Context
import OperationCatalog.Expression
import OperationCatalog.Text.Case

/-!
# Evaluation

`Evaluator.evaluate` reduces an expression to a value against one root context.  An expression whose
display form is the root token gives the base endpoint, whatever its kind.  A name that cannot be
found becomes a placeholder in braces.
-/

namespace OperationCatalog

/-- What expressions are evaluated against. -/
structure Evaluator where
  baseEndpoint : String
  root : Context

/-- Why an expression has no value or no text. -/
inductive EvaluationError where
  /-- The property of an expression that denotes nothing was asked for. -/
  | absentBase (display : String)
  /-- A parameter has nothing but separators in its name. -/
  | emptyParameter (name : String)
  | unsupportedExpression
  /-- A context stands where text is needed. -/
  | unrenderableContext (display : String)
  deriving DecidableEq

/-- The wording of an error. -/
def EvaluationError.message : EvaluationError → String
  | .absentBase display => "expression \x60" ++ display ++ "\x60 resolved to no value"
  | .emptyParameter name => "parameter reference \x60" ++ name ++ "\x60 has no name"
  | .unsupportedExpression =>
    "unsupported binding expression kind \x60" ++ Expression.Kind.unsupported.name ++ "\x60"
  | .unrenderableContext display =>
    "context object produced by \x60" ++ display ++ "\x60 cannot be rendered as text"

/-- The display form that stands for the base endpoint, in any case of its letters. -/
def rootToken : String := "\x7bBaseUri\x7d"

/-- Whether an expression stands for the base endpoint. -/
def Expression.isRootToken (e : Expression) : Bool := Text.sameIgnoringCase e.display rootToken

/-- A display form with a character that the root token does not have in either case. -/
theorem Expression.isRootToken_of_mem {e : Expression} {c : Char} (hmem : c ∈ e.display.toList)
    (hc : c.toLower ∉ rootToken.toList.map Char.toLower) : e.isRootToken = false := by
  apply Bool.eq_false_iff.2
  intro htoken
  rw [isRootToken, Text.sameIgnoringCase, beq_iff_eq] at htoken
  rw [← htoken] at hc
  exact hc (List.mem_map_of_mem hmem)

/-- Expressions that are displayed alike stand for it together. -/
theorem Expression.isRootToken_congr {e e' : Expression} (h : e.display = e'.display) :
    e.isRootToken = e'.isRootToken := by
  rw [isRootToken, isRootToken, h]

/-- A name in braces, its first character lower-cased. -/
def placeholder (name : String) : String :=
  Expression.braced (String.ofList (Text.lowerFirst name.toList))

/-- What separates the parts of a parameter name. -/
def isSeparator (c : Char) : Bool := c = '.' || c = '\x7b' || c = '\x7d'

/-- The last part of a parameter name that is not empty. -/
def lastPart? (name : String) : Option String :=
  let core := Text.dropTrailing isSeparator name.toList
  if core.isEmpty then none
  else some (String.ofList (core.reverse.takeWhile (!isSeparator ·)).reverse)

/-- The text of a value that `source` gave. -/
def BoundValue.render (source : Expression) : BoundValue → Except EvaluationError String
  | .null => .ok ""
  | .text s => .ok s
  | .context _ => .error (.unrenderableContext source.display)

/-- What the property `name` of a value denotes, where `base` gave the value: what is not there is a
placeholder, but nothing has no properties. -/
def BoundValue.lookUp (base : Expression) (name : String) :
    BoundValue → Except EvaluationError BoundValue
  | .null => .error (.absentBase base.display)
  | value => .ok ((value.get? name).getD (.text (placeholder name)))

theorem BoundValue.lookUp_of_ne_null {value : BoundValue} (h : value ≠ .null) (base : Expression)
    (name : String) :
    value.lookUp base name = .ok ((value.get? name).getD (.text (placeholder name))) := by
  cases value with
  | null => exact absurd rfl h
  | text s => rfl
  | context place => rfl

namespace Evaluator

mutual

/-- The value of an expression. -/
def evaluate (ev : Evaluator) (e : Expression) : Except EvaluationError BoundValue :=
  if e.isRootToken then .ok (.text ev.baseEndpoint)
  else
    match e with
    | .literal text => .ok (.text text)
    | .concat items => (evaluateItems ev items).map .text
    | .conditional inner =>
      match evaluate ev inner with
      | .error error => .error error
      | .ok value => (value.render inner).map fun text => .text ("[" ++ text ++ "]")
    | .root => .ok ev.root.bound
    | .property base name =>
      match evaluate ev base with
      | .error error => .error error
      | .ok .null => .error (.absentBase base.display)
      | .ok value => .ok ((value.get? name).getD (.text (placeholder name)))
    | .parameter name =>
      match lastPart? name with
      | some part => .ok (.text (placeholder part))
      | none => .error (.emptyParameter name)
    | .formatting format => .ok (.text (Expression.braced format))
    | .unsupported => .error .unsupportedExpression
termination_by structural e

/-- The texts of the items, one after the other; the first item without a text decides the error. -/
def evaluateItems (ev : Evaluator) : List Expression → Except EvaluationError String
  | [] => .ok ""
  | e :: rest =>
    match evaluate ev e with
    | .error error => .error error
    | .ok value =>
      match value.render e with
      | .error error => .error error
      | .ok text => (evaluateItems ev rest).map (text ++ ·)
termination_by structural es => es

end

/-- The text of an expression. -/
def evaluateText (ev : Evaluator) (e : Expression) : Except EvaluationError String :=
  match ev.evaluate e with
  | .error error => .error error
  | .ok value => value.render e

theorem evaluateText_eq_bind (ev : Evaluator) (e : Expression) :
    ev.evaluateText e = (ev.evaluate e).bind (·.render e) := by
  rw [evaluateText]
  cases ev.evaluate e <;> rfl

/-! ## Expressions of each kind -/

section

variable (ev : Evaluator)

theorem evaluate_of_isRootToken {e : Expression} (h : e.isRootToken = true) :
    ev.evaluate e = .ok (.text ev.baseEndpoint) := by
  rw [evaluate.eq_def, h]
  rfl

/-- Expressions that are displayed alike have one value, if they have one when they are not the root
token. -/
theorem evaluate_congr_of_display {e e' : Expression} (hdisplay : e.display = e'.display)
    (h : e.isRootToken = false → e'.isRootToken = false → ev.evaluate e = ev.evaluate e') :
    ev.evaluate e = ev.evaluate e' := by
  have htoken := Expression.isRootToken_congr hdisplay
  cases htoken' : e'.isRootToken with
  | true => rw [evaluate_of_isRootToken ev htoken', evaluate_of_isRootToken ev (htoken.trans htoken')]
  | false => exact h (htoken.trans htoken') htoken'

theorem evaluate_concat {items : List Expression}
    (h : (Expression.concat items).isRootToken = false) :
    ev.evaluate (.concat items) = (ev.evaluateItems items).map .text := by
  rw [evaluate, h]
  rfl

/-- A concatenation that is not the root token has the texts of its items, or their first error. -/
theorem evaluateText_concat_eq {items : List Expression}
    (h : (Expression.concat items).isRootToken = false) :
    ev.evaluateText (.concat items) = ev.evaluateItems items := by
  rw [evaluateText, evaluate_concat ev h]
  cases ev.evaluateItems items <;> rfl

theorem evaluateText_of_isRootToken {e : Expression} (h : e.isRootToken = true) :
    ev.evaluateText e = .ok ev.baseEndpoint := by
  rw [evaluateText, evaluate_of_isRootToken ev h]
  rfl

theorem evaluate_conditional {inner : Expression}
    (h : (Expression.conditional inner).isRootToken = false) :
    ev.evaluate (.conditional inner) =
      (ev.evaluateText inner).map fun text => .text ("[" ++ text ++ "]") := by
  rw [evaluate, h, evaluateText]
  cases ev.evaluate inner <;> rfl

theorem evaluate_property {base : Expression} {name : String}
    (h : (Expression.property base name).isRootToken = false) :
    ev.evaluate (.property base name) = (ev.evaluate base).bind (·.lookUp base name) := by
  rw [evaluate, h]
  cases ev.evaluate base with
  | error error => rfl
  | ok value => cases value <;> rfl

theorem evaluate_parameter {name : String} (h : (Expression.parameter name).isRootToken = false) :
    ev.evaluate (.parameter name) =
      (lastPart? name).elim (.error (.emptyParameter name)) fun part =>
        .ok (.text (placeholder part)) := by
  rw [evaluate, h]
  cases lastPart? name <;> rfl

end

/-- Items are evaluated one by one. -/
theorem evaluateItems_cons (ev : Evaluator) (e : Expression) (rest : List Expression) :
    ev.evaluateItems (e :: rest) =
      (ev.evaluateText e).bind fun t => (ev.evaluateItems rest).map (t ++ ·) := by
  rw [evaluateItems, evaluateText]
  cases ev.evaluate e with
  | error error => rfl
  | ok value => cases hr : value.render e <;> simp only [hr] <;> rfl

/-- So the first one without a text decides the error, wherever a list of items is cut in two. -/
theorem evaluateItems_append (ev : Evaluator) (xs ys : List Expression) :
    ev.evaluateItems (xs ++ ys) =
      (ev.evaluateItems xs).bind fun t => (ev.evaluateItems ys).map (t ++ ·) := by
  induction xs with
  | nil =>
    rw [List.nil_append, evaluateItems]
    cases ev.evaluateItems ys <;> simp [Except.bind, Except.map]
  | cons e rest ih =>
    rw [List.cons_append, evaluateItems_cons, ih, evaluateItems_cons]
    cases ev.evaluateText e with
    | error error => rfl
    | ok text =>
      cases ev.evaluateItems rest with
      | error error => rfl
      | ok texts => cases ev.evaluateItems ys <;> simp [Except.bind, Except.map, String.append_assoc]

/-! ## How an expression comes by its value -/

/-- What an expression that does not stand for the base endpoint makes of the values of its parts. -/
def Makes (ev : Evaluator) (value : BoundValue) : Expression → Prop
  | .literal text => value = .text text
  | .concat items => ∃ text, ev.evaluateItems items = .ok text ∧ value = .text text
  | .conditional inner => ∃ v text, ev.evaluate inner = .ok v ∧ v.render inner = .ok text ∧
      value = .text ("[" ++ text ++ "]")
  | .root => value = ev.root.bound
  | .property base name => ∃ v, ev.evaluate base = .ok v ∧
      value = (v.get? name).getD (.text (placeholder name))
  | .parameter name => ∃ part, lastPart? name = some part ∧ value = .text (placeholder part)
  | .formatting format => value = .text (Expression.braced format)
  | .unsupported => False

/-- An expression that is not the root token has a value that is made of those of its parts. -/
theorem makes_of_evaluate {ev : Evaluator} {e : Expression} {value : BoundValue}
    (htoken : e.isRootToken = false) (h : ev.evaluate e = .ok value) : ev.Makes value e := by
  rw [evaluate.eq_def, htoken] at h
  cases e with
  | literal text => cases h; rfl
  | concat items =>
    cases hitems : ev.evaluateItems items with
    | error error => simp [hitems, Except.map] at h
    | ok text =>
      simp only [hitems, Except.map, Bool.false_eq_true, if_false, Except.ok.injEq] at h
      exact ⟨text, hitems, h.symm⟩
  | conditional inner =>
    cases hinner : ev.evaluate inner with
    | error error => simp [hinner] at h
    | ok v =>
      cases hrender : v.render inner with
      | error error => simp [hinner, hrender, Except.map] at h
      | ok text =>
        simp only [hinner, hrender, Except.map, Bool.false_eq_true, if_false, Except.ok.injEq] at h
        exact ⟨v, text, hinner, hrender, h.symm⟩
  | root => cases h; rfl
  | property base name =>
    cases hbase : ev.evaluate base with
    | error error => simp [hbase] at h
    | ok v =>
      -- the property of nothing was no value
      cases v <;> simp only [hbase, Bool.false_eq_true, if_false, Except.ok.injEq, reduceCtorEq] at h <;>
        exact ⟨_, hbase, h.symm⟩
  | parameter name =>
    cases hpart : lastPart? name with
    | none => simp [hpart] at h
    | some part =>
      simp only [hpart, Bool.false_eq_true, if_false, Except.ok.injEq] at h
      exact ⟨part, hpart, h.symm⟩
  | formatting format => cases h; rfl
  | unsupported => cases h

theorem evaluate_ok {ev : Evaluator} {e : Expression} {value : BoundValue}
    (h : ev.evaluate e = .ok value) : value = .text ev.baseEndpoint ∨ ev.Makes value e := by
  cases htoken : e.isRootToken with
  | true =>
    rw [evaluate_of_isRootToken ev htoken] at h
    cases h
    exact .inl rfl
  | false => exact .inr (makes_of_evaluate htoken h)

end Evaluator

end OperationCatalog
