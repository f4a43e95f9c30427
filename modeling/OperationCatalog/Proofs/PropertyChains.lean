import Mathlib.Data.List.Basic
import Mathlib.Data.List.Induction
import OperationCatalog.Expression.Evaluate

/-!
# Chains of properties

A chain is the root with names looked up one after the other.  Its display form joins the names by
dots, so that it is the root token only if the last name is that of the base endpoint and no other name
is there.  A chain that is not cut short by the root token has the value that its names lead to from the
root context.

## Key results

- `chain?_eq_some_iff`: the chains are the expressions with `chain?`
- `isRootToken_chain_concat`: when a chain is the root token
- `evaluate_chain`: the value of a chain on which nothing before the last name is null
- `value_of_property_chain`: the outcome of every chain that does not pass the root token
-/

namespace OperationCatalog

namespace Expression

/-! ## Names -/

/-- The chain that looks up the names one after the other. -/
def chain (names : List String) : Expression := names.foldl .property .root

@[simp] theorem chain_nil : chain [] = .root := rfl

@[simp] theorem chain_concat (front : List String) (name : String) :
    chain (front ++ [name]) = .property (chain front) name :=
  List.foldl_append ..

@[simp] theorem chain?_chain (names : List String) : chain? (chain names) = some names := by
  induction names using List.reverseRecOn with
  | nil => rfl
  | append_singleton front name ih => rw [chain_concat, chain?, ih, Option.map_some]

/-- The chains are the expressions that `chain?` finds the names of. -/
theorem chain?_eq_some_iff : ∀ {e : Expression} {names : List String},
    chain? e = some names ↔ e = chain names := by
  intro e names
  refine ⟨fun h => ?_, fun h => by rw [h, chain?_chain]⟩
  induction names using List.reverseRecOn generalizing e with
  | nil =>
    cases e with
    | root => rfl
    | property base name => simp [chain?] at h
    | _ => cases h
  | append_singleton front name ih =>
    cases e with
    | property base last =>
      obtain ⟨names, hbase, heq⟩ := Option.map_eq_some_iff.1 h
      obtain ⟨rfl, hlast⟩ := List.append_inj' heq rfl
      cases hlast
      rw [chain_concat, ih hbase]
    | root => simp [chain?] at h
    | _ => cases h

theorem chain_inj {names names' : List String} : chain names = chain names' ↔ names = names' := by
  refine ⟨fun h => ?_, fun h => by rw [h]⟩
  have hsome := chain?_chain names
  rw [h, chain?_chain, Option.some_inj] at hsome
  exact hsome.symm

/-! ## The display form of a chain -/

theorem dotted_concat (front : List String) (name : String) :
    dotted (front ++ [name]) = if dotted front = "" then name else dotted front ++ "." ++ name := by
  simp only [dotted, List.foldl_append, List.foldl_cons, List.foldl_nil, String.isEmpty_iff]

/-- Nothing is left of names only if they are empty: a dot stands between any others. -/
theorem dotted_eq_empty_iff {names : List String} : dotted names = "" ↔ ∀ n ∈ names, n = "" := by
  induction names using List.reverseRecOn with
  | nil => simp [dotted]
  | append_singleton front name ih =>
    rw [dotted_concat, List.forall_mem_append, ← ih]
    split
    · rename_i hfront
      simp [hfront]
    · rename_i hfront
      simp [hfront]

theorem display_chain_concat (front : List String) (name : String) :
    (chain (front ++ [name])).display = braced (dotted (front ++ [name])) := by
  have hchain := chain?_chain (front ++ [name])
  rw [chain_concat] at hchain ⊢
  rw [display, hchain]

theorem isRootToken_root : root.isRootToken = false := by decide

/-- Braces are the same in either case. -/
theorem sameIgnoringCase_braced (s t : String) :
    Text.sameIgnoringCase (braced s) (braced t) = Text.sameIgnoringCase s t := by
  rw [Bool.eq_iff_iff]
  simp [Text.sameIgnoringCase, braced]

/-- A chain is the root token if its last name is that of the base endpoint and all others are empty. -/
theorem isRootToken_chain_concat (front : List String) (name : String) :
    (chain (front ++ [name])).isRootToken = true ↔
      (∀ n ∈ front, n = "") ∧ Text.sameIgnoringCase name "BaseUri" = true := by
  have htoken : rootToken = braced "BaseUri" := by decide
  rw [isRootToken, display_chain_concat, htoken, sameIgnoringCase_braced, dotted_concat,
    ← dotted_eq_empty_iff]
  split
  · rename_i hfront
    simp [hfront]
  · rename_i hfront
    -- a dot stands before the name, and the token has none
    have hdot : Text.sameIgnoringCase (dotted front ++ "." ++ name) "BaseUri" = false := by
      rw [Bool.eq_false_iff, Text.sameIgnoringCase, ne_eq, beq_iff_eq]
      intro h
      have hmem : '.' ∈ (dotted front ++ "." ++ name).toList.map Char.toLower := by
        simp only [String.toList_append, List.map_append, List.mem_append]
        exact .inl (.inr (by decide))
      rw [h] at hmem
      exact absurd hmem (by decide)
    simp [hfront, hdot]

/-- Whether evaluation gets along a chain without coming to the root token: no name is that of the base
    endpoint, in any case of its letters, with nothing but empty names before it. -/
def Passes (names : List String) : Prop :=
  ∀ front name, front ++ [name] <+: names → (∀ n ∈ front, n = "") →
    Text.sameIgnoringCase name "BaseUri" = false

theorem Passes.anti {names more : List String} (h : Passes more) (hle : names <+: more) :
    Passes names :=
  fun front name hname => h front name (hname.trans hle)

/-- Behind a name that is not empty, the name of the base endpoint is a name like any other. -/
theorem passes_cons {name : String} {rest : List String} (hname : name ≠ "")
    (htoken : Text.sameIgnoringCase name "BaseUri" = false) : Passes (name :: rest) := by
  intro front last hle hempty
  cases front with
  | nil =>
    obtain ⟨hlast, -⟩ := List.cons_prefix_cons.1 hle
    rw [hlast]
    exact htoken
  | cons first front =>
    obtain ⟨rfl, -⟩ := List.cons_prefix_cons.1 hle
    exact absurd (hempty first List.mem_cons_self) hname

theorem Passes.isRootToken {names : List String} (h : Passes names) :
    (chain names).isRootToken = false := by
  rcases List.eq_nil_or_concat' names with rfl | ⟨front, name, rfl⟩
  · exact isRootToken_root
  · rw [Bool.eq_false_iff, ne_eq, isRootToken_chain_concat]
    rintro ⟨hempty, hname⟩
    rw [h front name (List.prefix_refl _) hempty] at hname
    cases hname

end Expression

namespace Evaluator

open Expression

/-! ## Walking along the names -/

variable {ev : Evaluator}

theorem evaluate_root (ev : Evaluator) : ev.evaluate .root = .ok ev.root.bound := by
  rw [evaluate, isRootToken_root]
  rfl

/-- A chain on which nothing before the last name is null has the value that the names lead to, or is a
    placeholder for the last one. -/
theorem evaluate_chain (ev : Evaluator) {names : List String} (hpasses : Passes names)
    (hnull : ∀ front, front <+: names → front ≠ names → ev.root.bound.walk front ≠ some .null) :
    ev.evaluate (chain names) =
      .ok ((ev.root.bound.walk names).getD (.text (placeholder (names.getLastD "")))) := by
  induction names using List.reverseRecOn with
  | nil =>
    rw [chain_nil, evaluate_root]
    rfl
  | append_singleton front name ih =>
    have hbefore : front <+: front ++ [name] := List.prefix_append front [name]
    have hshort : ∀ {xs : List String}, xs <+: front → xs ≠ front ++ [name] := by
      intro xs hxs heq
      have hlength := hxs.length_le
      rw [heq, List.length_append, List.length_singleton] at hlength
      omega
    -- the value of the chain without its last name
    have hbase := ih (hpasses.anti hbefore)
      fun xs hxs _ => hnull xs (hxs.trans hbefore) (hshort hxs)
    have hfront := hnull front hbefore (hshort (List.prefix_refl front))
    have htoken := hpasses.isRootToken
    rw [chain_concat] at htoken
    rw [chain_concat, BoundValue.walk_concat, List.getLastD_concat]
    rw [ev.evaluate_property htoken, hbase]
    cases hwalk : ev.root.bound.walk front with
    | none =>
      -- the chain so far is a placeholder, and a text has no properties
      rfl
    | some value =>
      have hvalue : value ≠ .null := fun h => hfront (by rw [hwalk, h])
      exact BoundValue.lookUp_of_ne_null hvalue (chain front) name

/-- Behind a null there is nothing. -/
theorem walk_of_prefix_null {value : BoundValue} {front names : List String}
    (hle : front <+: names) (hne : front ≠ names) (h : value.walk front = some .null) :
    value.walk names = none := by
  obtain ⟨rest, rfl⟩ := hle
  rw [BoundValue.walk_append, h]
  cases rest with
  | nil => simp at hne
  | cons name rest => rfl

/-- A chain that goes on behind a null has no value. -/
theorem evaluate_chain_of_null {front rest : List String} {name : String}
    (hpasses : Passes (front ++ name :: rest)) (hnull : ev.root.bound.walk front = some .null) :
    ev.evaluate (chain (front ++ name :: rest)) = .error (.absentBase (chain front).display) := by
  induction rest using List.reverseRecOn with
  | nil =>
    -- no null stands before this one, so the names so far have a value
    have hbefore : front <+: front ++ [name] := List.prefix_append front [name]
    have hbase := evaluate_chain ev (hpasses.anti hbefore) fun xs hxs hne h => by
      rw [walk_of_prefix_null hxs hne h] at hnull
      cases hnull
    rw [hnull, Option.getD_some] at hbase
    have htoken := hpasses.isRootToken
    rw [chain_concat] at htoken ⊢
    rw [ev.evaluate_property htoken, hbase]
    rfl
  | append_singleton rest last ih =>
    rw [← List.cons_append, ← List.append_assoc] at hpasses ⊢
    have hbase := ih (hpasses.anti (List.prefix_append _ [last]))
    have htoken := hpasses.isRootToken
    rw [chain_concat] at htoken ⊢
    rw [ev.evaluate_property htoken, hbase]
    rfl

/-- The outcome of a chain with at least one name that does not come to the root token.  If the walk
    along the names is at a null before the last one, there is no value, for want of a base; this is so at
    one place at most.  Otherwise the chain has the value that the names lead to, if they lead to one,
    and if not, it is the last name in braces, with its first character in lower case. -/
theorem value_of_property_chain (ev : Evaluator) (front : List String) (last : String)
    (hpasses : Passes (front ++ [last])) :
    (∀ before, before <+: front → ev.root.bound.walk before = some .null →
      (∀ other, other <+: front → ev.root.bound.walk other = some .null → other = before) ∧
      ev.evaluate (chain (front ++ [last])) = .error (.absentBase (chain before).display)) ∧
    ((∀ before, before <+: front → ev.root.bound.walk before ≠ some .null) →
      (∀ value, ev.root.bound.walk (front ++ [last]) = some value →
        ev.evaluate (chain (front ++ [last])) = .ok value) ∧
      (ev.root.bound.walk (front ++ [last]) = none →
        ev.evaluate (chain (front ++ [last])) =
          .ok (.text ("\x7b" ++ String.ofList (Text.lowerFirst last.toList) ++ "\x7d")))) := by
  refine ⟨fun before hbefore hnull => ⟨fun other hother hnull' => ?_, ?_⟩, fun hnull => ?_⟩
  · -- of two prefixes one is a prefix of the other
    by_contra hne
    rcases List.prefix_or_prefix_of_prefix hother hbefore with hle | hle
    · rw [walk_of_prefix_null hle hne hnull'] at hnull
      cases hnull
    · rw [walk_of_prefix_null hle (Ne.symm hne) hnull] at hnull'
      cases hnull'
  · obtain ⟨rest, rfl⟩ := hbefore
    obtain ⟨name, more, hmore⟩ := List.exists_cons_of_ne_nil (List.concat_ne_nil last rest)
    rw [List.append_assoc, hmore] at hpasses ⊢
    exact evaluate_chain_of_null hpasses hnull
  · have hvalue := evaluate_chain ev hpasses fun xs hxs hne =>
      hnull xs ((List.prefix_concat_iff.1 hxs).resolve_left hne)
    rw [List.getLastD_concat] at hvalue
    refine ⟨fun value hwalk => ?_, fun hwalk => ?_⟩
    · rw [hvalue, hwalk, Option.getD_some]
    · rw [hvalue, hwalk, Option.getD_none]
      rfl

/-- An evaluator whose context has one object, with a null and a number in it. -/
def nestedSample : Evaluator :=
  ⟨"https://h", [("A", .object [("B", .integer 7), ("BaseUri", .null)])]⟩

theorem value_of_property_chain_sample :
    nestedSample.evaluate (chain ["A", "BaseUri", "X", "Y"]) =
        .error (.absentBase "\x7bA.BaseUri\x7d") ∧
      nestedSample.evaluate (chain ["A", "B"]) = .ok (.text "7") ∧
      nestedSample.evaluate (chain ["A", "B", "BaseUri"]) = .ok (.text "\x7bbaseUri\x7d") := by
  have hpasses : ∀ rest, Passes ("A" :: rest) := fun rest => passes_cons (by decide) (by decide)
  have hnull : nestedSample.root.bound.walk ["A", "BaseUri"] = some .null := rfl
  -- the other chains come to a value behind their second name, so they pass no null
  have hvalue : ∀ before, before <+: ["A", "B"] →
      nestedSample.root.bound.walk before ≠ some .null := by
    intro before hbefore h
    by_cases heq : before = ["A", "B"]
    · rw [heq] at h
      cases h
    · have hnone := walk_of_prefix_null hbefore heq h
      cases hnone
  refine ⟨?_, ?_, ?_⟩
  · exact ((value_of_property_chain nestedSample ["A", "BaseUri", "X"] "Y" (hpasses _)).1 _
      ⟨["X"], rfl⟩ hnull).2
  · exact ((value_of_property_chain nestedSample ["A"] "B" (hpasses _)).2 fun before hbefore =>
      hvalue before (hbefore.trans ⟨["B"], rfl⟩)).1 _ rfl
  · exact ((value_of_property_chain nestedSample ["A", "B"] "BaseUri" (hpasses _)).2 hvalue).2 rfl

/-- An empty name makes an empty placeholder. -/
example : nestedSample.evaluate (chain ["A", ""]) = .ok (.text "\x7b\x7d") := rfl

end Evaluator

end OperationCatalog
