import OperationCatalog.Proofs.PropertyChains
import OperationCatalog.Proofs.RelatedRuns
import OperationCatalog.Proofs.UnsupportedParts

/-!
# What evaluation reads of the context

An expression comes by a context in one way only, along a chain of properties that stands in it.  So two
root contexts are as good as each other for an expression if the walks along its chains come to the same:
to nothing, to a null, to one text, or to some context each.  The contexts may differ in everything else,
and the two contexts at the end of a chain may have nothing in common; if a name is looked up there, that
makes a longer chain.

## Key results

- `Pairing.alongChains_holds`: contexts stand opposite each other at the ends of one chain only
- `text_of_chains`: contexts that agree on the chains give the same text or error
-/

namespace OperationCatalog

namespace Expression

/-! ## Chains among the parts of an expression -/

theorem mem_filterMap_chain? {parts : List Expression} {names : List String} :
    names ∈ parts.filterMap chain? ↔ chain names ∈ parts := by
  simp [List.mem_filterMap, chain?_eq_some_iff]

theorem occurs_root_chain (names : List String) : occurs .root (chain names) = true := by
  induction names using List.reverseRecOn with
  | nil => rfl
  | append_singleton front name ih => rw [chain_concat, occurs, ih, Bool.or_true]

mutual

/-- What occurs in a part occurs in the whole. -/
theorem occurs_of_mem_parts {k : Kind} {part : Expression} (hocc : occurs k part = true) :
    ∀ e : Expression, part ∈ e.parts → occurs k e = true
  | .concat items, h => by
    rcases List.mem_cons.1 h with rfl | h
    · exact hocc
    · rw [occurs, occursIn_of_mem_partsIn hocc items h, Bool.or_true]
  | .conditional inner, h => by
    rcases List.mem_cons.1 h with rfl | h
    · exact hocc
    · rw [occurs, occurs_of_mem_parts hocc inner h, Bool.or_true]
  | .property base name, h => by
    rcases List.mem_cons.1 h with rfl | h
    · exact hocc
    · rw [occurs, occurs_of_mem_parts hocc base h, Bool.or_true]
  | .literal _, h | .root, h | .parameter _, h | .formatting _, h | .unsupported, h => by
    rwa [List.mem_singleton.1 h] at hocc
termination_by structural e => e

/-- The same for the parts of several expressions. -/
theorem occursIn_of_mem_partsIn {k : Kind} {part : Expression} (hocc : occurs k part = true) :
    ∀ items : List Expression, part ∈ partsIn items → occursIn k items = true
  | e :: rest, h => by
    rw [occursIn, Bool.or_eq_true]
    exact (List.mem_append.1 h).imp (occurs_of_mem_parts hocc e) (occursIn_of_mem_partsIn hocc rest)
termination_by structural items => items

end

end Expression

open Expression

/-- Values that a walk may come to in two contexts: of one kind, and if they are texts, equal. -/
inductive BoundValue.Alike : BoundValue → BoundValue → Prop where
  | null : Alike .null .null
  | text (s : String) : Alike (.text s) (.text s)
  | context (p q : Place) : Alike (.context p) (.context q)

/-- Whether walks along the chains among some expressions come to the same in two contexts. -/
def Context.AgreeAlong (parts : List Expression) (root root' : Context) : Prop :=
  ∀ names ∈ parts.filterMap chain?,
    Option.Rel BoundValue.Alike (root.bound.walk names) (root'.bound.walk names)

/-- Equal texts, and the two contexts that one chain leads to. -/
def Pairing.alongChains (root root' : Context) : Pairing where
  text s t := s = t
  place e p q := ∃ names, e = chain names ∧
    root.bound.walk names = some (.context p) ∧ root'.bound.walk names = some (.context q)

theorem Pairing.alongChains_holds (b : String) {root root' : Context} {parts : List Expression}
    (hagree : Context.AgreeAlong parts root root') :
    (alongChains root root').Holds ⟨b, root⟩ ⟨b, root'⟩ parts where
  same _ := rfl
  append := by
    rintro s t s' t' rfl rfl
    rfl
  baseEndpoint := rfl
  root _ := ⟨[], rfl, rfl, rfl⟩
  property := by
    rintro base name p q hmem ⟨names, rfl, hp, hq⟩
    -- a name that is looked up at the end of a chain makes a longer one
    rw [← chain_concat] at hmem ⊢
    have hwalk : root.bound.walk (names ++ [name]) = p.get? name := by
      rw [BoundValue.walk_concat, hp]
      rfl
    have hwalk' : root'.bound.walk (names ++ [name]) = q.get? name := by
      rw [BoundValue.walk_concat, hq]
      rfl
    have hfound := hagree _ (mem_filterMap_chain?.2 hmem)
    rw [hwalk, hwalk'] at hfound
    generalize p.get? name = v, q.get? name = w at hfound hwalk hwalk' ⊢
    cases hfound with
    | none => exact .none
    | some halike =>
      refine .some ?_
      cases halike with
      | null => exact .null
      | text s => exact .text rfl
      | context p q => exact .context ⟨_, rfl, hwalk, hwalk'⟩

/-- The text of an expression, or the error, is the same for two contexts in which the walks along its
    chains come to the same.  An expression without the root has one value, whatever the context. -/
theorem text_of_chains (b : String) (e : Expression) :
    (∀ root root', Context.AgreeAlong e.parts root root' →
      Evaluator.evaluateText ⟨b, root⟩ e = Evaluator.evaluateText ⟨b, root'⟩ e) ∧
    (e.occurs .root = false → ∀ root root',
      Evaluator.evaluate ⟨b, root⟩ e = Evaluator.evaluate ⟨b, root'⟩ e) := by
  constructor
  · intro root root' hagree
    exact (Pairing.evaluateText (Pairing.alongChains_holds b hagree)).eq fun s t h => h
  · intro hroot root root'
    have hnone : ∀ names, chain names ∉ e.parts := by
      intro names hmem
      rw [occurs_of_mem_parts (occurs_root_chain names) e hmem] at hroot
      cases hroot
    have hagree : Context.AgreeAlong e.parts root root' :=
      fun names hmem => absurd (mem_filterMap_chain?.1 hmem) (hnone names)
    refine (Pairing.evaluate e (Pairing.alongChains_holds b hagree)).eq fun v w h => ?_
    cases h with
    | null => rfl
    | text h => rw [h]
    | context h =>
      -- only a chain denotes a context, and there is none
      obtain ⟨names, rfl, -⟩ := h
      exact absurd (mem_parts_self _) (hnone names)

/-- Two contexts that have nothing in common but a text, and one path to it. -/
theorem text_of_chains_sample :
    Evaluator.evaluateText ⟨"https://h", [("A", .object [("B", .text "x")])]⟩
        (.concat [chain ["A", "B"], .conditional (.property (chain ["A", "B", "X"]) "Y")]) =
      Evaluator.evaluateText
        ⟨"https://h", [("A", .object [("B", .text "x"), ("C", .null)]), ("D", .bool true)]⟩
        (.concat [chain ["A", "B"], .conditional (.property (chain ["A", "B", "X"]) "Y")]) := by
  refine (text_of_chains "https://h" _).1 _ _ fun names hmem => ?_
  have hchains : names ∈ [["A", "B"], ["A"], [], ["A", "B", "X", "Y"], ["A", "B", "X"], ["A", "B"],
      ["A"], []] := hmem
  simp only [List.mem_cons, List.not_mem_nil, or_false] at hchains
  rcases hchains with rfl | rfl | rfl | rfl | rfl | rfl | rfl | rfl
  · exact .some (.text "x")
  · exact .some (.context _ _)
  · exact .some (.context _ _)
  · exact .none
  · exact .none
  · exact .some (.text "x")
  · exact .some (.context _ _)
  · exact .some (.context _ _)

end OperationCatalog
