import OperationCatalog.Expression.Evaluate

/-!
# Concatenations inside each other

A concatenation in a list of items may be replaced by its own items: its display form and its text are
those of its items, one after the other, and the first item without a text decides the error in either
case.  The one exception is a concatenation that is the root token, since this stands for the base
endpoint as a whole, whatever its items are.  `flattened` takes all other concatenations apart,
wherever they stand in an expression, and keeps its display form and its value.

## Key results

- `display_flattened`: the flattened expression has the same display form
- `flattened_regrouped`: it does not show whether items were grouped
- `Evaluator.evaluate_flattened`: it has the same value, by induction on the tree
- `nesting_of_concatenations`: the nesting does not matter to the value
-/

namespace OperationCatalog

namespace Expression

/-! ## Taking concatenations apart -/

/-- The items that an expression stands for in a concatenation: its own ones, if it is a concatenation
    and not the root token. -/
def itemsOf : Expression → List Expression
  | .concat items => if (concat items).isRootToken then [.concat items] else items
  | e => [e]

mutual

/-- The expression with every list of items in it flattened.  What may be left out is put as a list of
    items, too, so that one item alone is the same as a concatenation of one. -/
def flattened : Expression → Expression
  | .concat items => .concat (flattenedItems items)
  | .conditional inner => .conditional (.concat (itemsOf (flattened inner)))
  | .property base name => .property (flattened base) name
  | e => e
termination_by structural e => e

/-- The items of the concatenations among the items, and the others. -/
def flattenedItems : List Expression → List Expression
  | [] => []
  | e :: rest => itemsOf (flattened e) ++ flattenedItems rest
termination_by structural es => es

end

theorem flattenedItems_append (xs ys : List Expression) :
    flattenedItems (xs ++ ys) = flattenedItems xs ++ flattenedItems ys := by
  induction xs with
  | nil => rfl
  | cons e rest ih =>
    rw [List.cons_append, flattenedItems, ih, flattenedItems, List.append_assoc]

/-! ## Display forms -/

theorem displayItems_singleton (e : Expression) : displayItems [e] = e.display := by
  rw [displayItems, displayItems, String.append_empty]

theorem displayItems_itemsOf (e : Expression) : displayItems (itemsOf e) = e.display := by
  cases e with
  | concat items =>
    rw [itemsOf]
    split
    · exact displayItems_singleton _
    · rw [display]
  | _ => exact displayItems_singleton _

/-- A chain of properties has no concatenation in it. -/
theorem chain?_flattened : ∀ e : Expression, chain? (flattened e) = chain? e
  | .property base name => by rw [flattened, chain?, chain?_flattened base, chain?]
  | .literal _ | .concat _ | .conditional _ | .root | .parameter _ | .formatting _
  | .unsupported => rfl

mutual

theorem display_flattened : ∀ e : Expression, (flattened e).display = e.display
  | .concat items => by rw [flattened, display, displayItems_flattenedItems items, display]
  | .conditional inner => by
    rw [flattened, display, display, displayItems_itemsOf, display_flattened inner, display]
  | .property base name => by
    have hchain : chain? (.property (flattened base) name) = chain? (.property base name) :=
      chain?_flattened (.property base name)
    rw [flattened, display, hchain, display_flattened base, display]
  | .literal _ | .root | .parameter _ | .formatting _ | .unsupported => rfl

theorem displayItems_flattenedItems : ∀ items : List Expression,
    displayItems (flattenedItems items) = displayItems items
  | [] => rfl
  | e :: rest => by
    rw [flattenedItems, displayItems_append, displayItems_itemsOf, display_flattened e,
      displayItems_flattenedItems rest, displayItems]

end

/-- The flattened expression does not show whether some items of a concatenation were grouped. -/
theorem flattened_regrouped {ys : List Expression} (h : (concat ys).isRootToken = false)
    (xs zs : List Expression) :
    flattened (.concat (xs ++ [.concat ys] ++ zs)) = flattened (.concat (xs ++ ys ++ zs)) := by
  have htoken : (concat (flattenedItems ys)).isRootToken = false := by
    have hdisplay := display_flattened (.concat ys)
    rw [flattened] at hdisplay
    rw [isRootToken_congr hdisplay, h]
  have hgroup : flattenedItems [.concat ys] = flattenedItems ys := by
    rw [flattenedItems, flattenedItems, List.append_nil, flattened, itemsOf, htoken]
    rfl
  simp only [flattened, flattenedItems_append, hgroup]

end Expression

namespace Evaluator

open Expression

variable (ev : Evaluator)

/-! ## Values -/

/-- One item has the text that it has by itself. -/
theorem evaluateItems_singleton (e : Expression) : ev.evaluateItems [e] = ev.evaluateText e := by
  rw [evaluateItems_cons, evaluateItems]
  cases ev.evaluateText e <;> simp [Except.bind, Except.map]

/-- In a concatenation an expression has the text of the items that it stands for. -/
theorem evaluateItems_itemsOf (e : Expression) : ev.evaluateItems (itemsOf e) = ev.evaluateText e := by
  cases e with
  | concat items =>
    rw [itemsOf]
    cases h : (concat items).isRootToken with
    | true => exact ev.evaluateItems_singleton _
    | false =>
      rw [ev.evaluateText_concat_eq h]
      rfl
  | _ => exact ev.evaluateItems_singleton _

/-- Errors name expressions by their display forms, so that expressions with one display form and one
    value have one text. -/
theorem evaluateText_congr {e e' : Expression} (hdisplay : e.display = e'.display)
    (hvalue : ev.evaluate e = ev.evaluate e') : ev.evaluateText e = ev.evaluateText e' := by
  rw [evaluateText_eq_bind, evaluateText_eq_bind, hvalue]
  apply congrArg
  funext value
  cases value with
  | context place => rw [BoundValue.render, BoundValue.render, hdisplay]
  | _ => rfl

/-- A list of items that is displayed as an expression and has its text is as good as it. -/
theorem evaluateText_concat_of_items {e : Expression} {items : List Expression}
    (hdisplay : displayItems items = e.display) (htext : ev.evaluateItems items = ev.evaluateText e) :
    ev.evaluateText (.concat items) = ev.evaluateText e := by
  have htoken : (concat items).isRootToken = e.isRootToken := by
    apply isRootToken_congr
    rw [display, hdisplay]
  cases h : e.isRootToken with
  | true => rw [ev.evaluateText_of_isRootToken h, ev.evaluateText_of_isRootToken (htoken.trans h)]
  | false => rw [ev.evaluateText_concat_eq (htoken.trans h), htext]

mutual

/-- Taking concatenations apart keeps the value of an expression, or its error. -/
theorem evaluate_flattened : ∀ e : Expression, ev.evaluate (flattened e) = ev.evaluate e
  | .concat items => by
    refine ev.evaluate_congr_of_display (display_flattened _) fun htoken htoken' => ?_
    rw [flattened] at htoken ⊢
    rw [ev.evaluate_concat htoken, ev.evaluate_concat htoken', evaluateItems_flattenedItems items]
  | .conditional inner => by
    refine ev.evaluate_congr_of_display (display_flattened _) fun htoken htoken' => ?_
    -- the text of what may be left out is that of its items
    have hinner := ev.evaluateText_congr (display_flattened inner) (evaluate_flattened inner)
    rw [flattened] at htoken ⊢
    rw [ev.evaluate_conditional htoken, ev.evaluate_conditional htoken',
      ev.evaluateText_concat_of_items (displayItems_itemsOf _) (ev.evaluateItems_itemsOf _), hinner]
  | .property base name => by
    refine ev.evaluate_congr_of_display (display_flattened _) fun htoken htoken' => ?_
    have hlookUp : ∀ value : BoundValue,
        value.lookUp (flattened base) name = value.lookUp base name := by
      intro value
      cases value with
      | null => rw [BoundValue.lookUp, BoundValue.lookUp, display_flattened base]
      | _ => rfl
    rw [flattened] at htoken ⊢
    rw [ev.evaluate_property htoken, ev.evaluate_property htoken', evaluate_flattened base]
    simp only [hlookUp]
  | .literal _ | .root | .parameter _ | .formatting _ | .unsupported => rfl

/-- The texts of items, one after the other, are those of the flattened items. -/
theorem evaluateItems_flattenedItems : ∀ items : List Expression,
    ev.evaluateItems (flattenedItems items) = ev.evaluateItems items
  | [] => rfl
  | e :: rest => by
    have hfirst := ev.evaluateText_congr (display_flattened e) (evaluate_flattened e)
    rw [flattenedItems, evaluateItems_append, evaluateItems_itemsOf, hfirst,
      evaluateItems_flattenedItems rest, evaluateItems_cons]

end

end Evaluator

open Expression

/-- The nesting of concatenations does not matter.  A concatenation of one item has the text of the
    item or its error.  Items may be grouped into a concatenation wherever they stand in a list, unless
    the group is the root token: the text of the whole stays, or the error.  So it does with any number
    of groups anywhere in an expression, which are not seen when it is flattened. -/
theorem nesting_of_concatenations (ev : Evaluator) :
    (∀ e, ev.evaluateText (.concat [e]) = ev.evaluateText e) ∧
    (∀ xs ys zs, (concat ys).isRootToken = false →
      ev.evaluate (.concat (xs ++ [.concat ys] ++ zs)) = ev.evaluate (.concat (xs ++ ys ++ zs))) ∧
    ∀ e e', flattened e = flattened e' →
      ev.evaluate e = ev.evaluate e' ∧ ev.evaluateText e = ev.evaluateText e' := by
  have hsame : ∀ e e', flattened e = flattened e' → ev.evaluate e = ev.evaluate e' := by
    intro e e' h
    rw [← ev.evaluate_flattened, h, ev.evaluate_flattened]
  refine ⟨fun e => ?_, fun xs ys zs h => hsame _ _ (flattened_regrouped h xs zs), fun e e' h => ?_⟩
  · exact ev.evaluateText_concat_of_items (displayItems_singleton e) (ev.evaluateItems_singleton e)
  · have hdisplay : e.display = e'.display := by rw [← display_flattened, h, display_flattened]
    exact ⟨hsame e e' h, ev.evaluateText_congr hdisplay (hsame e e' h)⟩

/-- An evaluator with a context in which there is a null. -/
def nullSample : Evaluator := ⟨"https://h", [("Proxy", .null)]⟩

/-- A group with a null and an error in it, and groups at different places of an optional part. -/
theorem nesting_of_concatenations_sample :
    nullSample.evaluate (.concat [.literal "/a",
        .concat [.property .root "Proxy", .parameter "..", .root], .unsupported]) =
      nullSample.evaluate (.concat [.literal "/a", .property .root "Proxy", .parameter "..", .root,
        .unsupported]) ∧
    nullSample.evaluateText (.conditional (.concat [.concat [.property .root "BaseUri"],
        .concat [.literal "/a", .concat [.literal "/b"]]])) =
      nullSample.evaluateText (.conditional (.concat [.concat [.concat [.property .root "BaseUri"],
        .literal "/a"], .literal "/b"])) := by
  obtain ⟨-, hgroup, hsame⟩ := nesting_of_concatenations nullSample
  exact ⟨hgroup [.literal "/a"] _ [.unsupported] (by decide), (hsame _ _ (by decide)).2⟩

/-- A group that is the root token is the base endpoint, and not what its items are. -/
example : nullSample.evaluateText (.concat [.concat [.literal "\x7bBase", .literal "Uri\x7d"],
      .literal "/a"]) = .ok "https://h/a" ∧
    nullSample.evaluateText (.concat [.literal "\x7bBase", .literal "Uri\x7d", .literal "/a"]) =
      .ok "\x7bBaseUri\x7d/a" :=
  ⟨rfl, rfl⟩

end OperationCatalog
