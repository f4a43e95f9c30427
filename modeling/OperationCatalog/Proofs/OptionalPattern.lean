import Mathlib.Data.List.TakeWhile
import OperationCatalog.Proofs.UrlSegments

/-!
# The optional parts of a URL as matches of a pattern

What `UrlVariants.minimal` leaves out by a scan are the matches of a regular expression,
`\[[^\]]*\]+`: an opening bracket, anything up to the next closing one, and all closing ones directly
behind.  A pattern is matched as by a backtracking matcher, which tries as many turns of a repetition
as possible at first; matches are deleted from left to right and do not overlap.

## Key results

- `Pattern.mem_rests_iff`: the matcher finds all that the pattern allows and nothing else
- `Pattern.head?_rests_optionalPart`: the match that is found at an opening bracket
- `minimal_eq_erase`: the scan deletes the matches
- `expand_erases_matches`: the variants of any URL
-/

namespace OperationCatalog.UrlVariants

/-- Regular patterns. -/
inductive Pattern where
  /-- One character of a class. -/
  | one (accepts : Char → Bool)
  | seq (p q : Pattern)
  /-- Any number of turns, as many as possible. -/
  | star (p : Pattern)

namespace Pattern

/-- At least one turn, and as many as possible. -/
def plus (p : Pattern) : Pattern := .seq p (.star p)

/-- The texts that a pattern allows. -/
inductive Matches : Pattern → List Char → Prop where
  | one {accepts : Char → Bool} {c : Char} (h : accepts c = true) : Matches (.one accepts) [c]
  | seq {p q : Pattern} {s t : List Char} (hs : Matches p s) (ht : Matches q t) :
    Matches (.seq p q) (s ++ t)
  | stop {p : Pattern} : Matches (.star p) []
  | turn {p : Pattern} {s t : List Char} (hs : Matches p s) (ht : Matches (.star p) t) :
    Matches (.star p) (s ++ t)

/-! ## Matching -/

/-- What may be left after at most `n` turns, each of which has to take something. -/
def turns (rests : List Char → List (List Char)) : Nat → List Char → List (List Char)
  | 0, cs => [cs]
  | n + 1, cs =>
    ((rests cs).filter (·.length < cs.length)).flatMap (turns rests n) ++ [cs]

/-- What may be left of a text after a match at its start, in the order in which a greedy matcher
    tries it. -/
def rests : Pattern → List Char → List (List Char)
  | .one _, [] => []
  | .one accepts, c :: cs => if accepts c then [cs] else []
  | .seq p q, cs => (p.rests cs).flatMap q.rests
  | .star p, cs => turns p.rests cs.length cs

theorem mem_turns_iff {p : Pattern}
    (hp : ∀ cs rest, rest ∈ p.rests cs ↔ ∃ m, cs = m ++ rest ∧ p.Matches m) {n : Nat}
    {cs rest : List Char} (hn : cs.length ≤ n) :
    rest ∈ turns p.rests n cs ↔ ∃ m, cs = m ++ rest ∧ (star p).Matches m := by
  constructor
  · intro h
    clear hn
    induction n generalizing cs with
    | zero =>
      obtain rfl := List.mem_singleton.1 h
      exact ⟨[], rfl, .stop⟩
    | succ n ih =>
      rcases List.mem_append.1 h with h | h
      · obtain ⟨cs', hcs', hrest⟩ := List.mem_flatMap.1 h
        obtain ⟨s, rfl, hs⟩ := (hp _ _).1 (List.mem_filter.1 hcs').1
        obtain ⟨t, rfl, ht⟩ := ih hrest
        exact ⟨s ++ t, (List.append_assoc ..).symm, .turn hs ht⟩
      · obtain rfl := List.mem_singleton.1 h
        exact ⟨[], rfl, .stop⟩
  · rintro ⟨m, rfl, hm⟩
    -- by induction on the match, for any number of turns that is large enough
    generalize hq : star p = q at hm
    induction hm generalizing n with
    | one | seq => cases hq
    | stop =>
      cases n with
      | zero => exact List.mem_singleton.2 rfl
      | succ n => exact List.mem_append_right _ (List.mem_singleton.2 rfl)
    | @turn p' s t hs ht _ ih =>
      cases hq
      cases s with
      -- the matcher has no turn that takes nothing, and needs none
      | nil => exact ih hn rfl
      | cons c s =>
        -- a turn that takes something leaves less to the others
        cases n with
        | zero => cases hn
        | succ n =>
          have hle : (t ++ rest).length ≤ n := by
            simp only [List.cons_append, List.length_cons, List.length_append] at hn ⊢
            omega
          refine List.mem_append_left _ (List.mem_flatMap.2 ⟨t ++ rest, ?_, ih hle rfl⟩)
          refine List.mem_filter.2 ⟨(hp _ _).2 ⟨c :: s, List.append_assoc .., hs⟩, ?_⟩
          simp only [List.cons_append, List.length_cons, List.length_append, decide_eq_true_eq]
          omega

/-- The matcher finds the texts that the pattern allows. -/
theorem mem_rests_iff {p : Pattern} {cs rest : List Char} :
    rest ∈ p.rests cs ↔ ∃ m, cs = m ++ rest ∧ p.Matches m := by
  induction p generalizing cs rest with
  | one accepts =>
    constructor
    · intro h
      cases cs with
      | nil => cases h
      | cons c cs =>
        rw [rests] at h
        split at h
        · rename_i hc
          obtain rfl := List.mem_singleton.1 h
          exact ⟨[c], rfl, .one hc⟩
        · cases h
    · rintro ⟨m, rfl, hm⟩
      cases hm with
      | one hc => simp [rests, hc]
  | seq p q hp hq =>
    rw [rests, List.mem_flatMap]
    constructor
    · rintro ⟨cs', hcs', hrest⟩
      obtain ⟨s, rfl, hs⟩ := hp.1 hcs'
      obtain ⟨t, rfl, ht⟩ := hq.1 hrest
      exact ⟨s ++ t, (List.append_assoc ..).symm, .seq hs ht⟩
    · rintro ⟨m, rfl, hm⟩
      cases hm with
      | @seq _ _ s t hs ht =>
        exact ⟨t ++ rest, hp.2 ⟨s, List.append_assoc .., hs⟩, hq.2 ⟨t, rfl, ht⟩⟩
  | star p hp => exact mem_turns_iff (fun _ _ => hp) Nat.le.refl

/-- No match is found if none of the pattern's texts is there. -/
theorem rests_eq_nil {p : Pattern} {cs : List Char} (h : ∀ m rest, cs = m ++ rest → ¬ p.Matches m) :
    p.rests cs = [] := by
  rw [List.eq_nil_iff_forall_not_mem]
  intro rest hrest
  obtain ⟨m, hcs, hm⟩ := mem_rests_iff.1 hrest
  exact h m rest hcs hm

/-! ## Repeated classes -/

/-- A repeated class takes characters as long as it can, and gives them back one by one. -/
theorem rests_star_one_cons (accepts : Char → Bool) (c : Char) (cs : List Char) :
    (star (one accepts)).rests (c :: cs) =
      (if accepts c then (star (one accepts)).rests cs else []) ++ [c :: cs] := by
  rw [rests, List.length_cons, turns, rests]
  split
  · rw [List.filter_cons_of_pos (by simp)]
    simp [rests]
  · rfl

theorem head?_rests_star_one (accepts : Char → Bool) (cs : List Char) :
    ((star (one accepts)).rests cs).head? = some (cs.dropWhile accepts) := by
  induction cs with
  | nil => rfl
  | cons c cs ih =>
    rw [rests_star_one_cons]
    by_cases hc : accepts c
    · rw [if_pos hc, List.head?_append, ih, List.dropWhile_cons_of_pos hc]
      rfl
    · rw [if_neg hc, List.dropWhile_cons_of_neg hc]
      rfl

/-! ## Deleting the matches -/

/-- The text without the matches that are found from left to right, each one behind the last. -/
def erase (p : Pattern) (cs : List Char) : List Char :=
  match cs with
  | [] => []
  | c :: cs =>
    match (p.rests (c :: cs)).head? with
    | some rest => if rest.length ≤ cs.length then p.erase rest else c :: p.erase cs
    | none => c :: p.erase cs
termination_by cs.length
decreasing_by all_goals simp only [List.length_cons]; omega

/-- Where there is no match, the character stays. -/
theorem erase_cons_of_none {p : Pattern} {c : Char} {cs : List Char} (h : p.rests (c :: cs) = []) :
    p.erase (c :: cs) = c :: p.erase cs := by
  rw [erase, h]
  rfl

/-- The match that is found first is deleted, and it goes on behind it. -/
theorem erase_cons_of_some {p : Pattern} {c : Char} {cs rest : List Char}
    (h : (p.rests (c :: cs)).head? = some rest) (hrest : rest.length ≤ cs.length) :
    p.erase (c :: cs) = p.erase rest := by
  rw [erase, h]
  exact if_pos hrest

/-- What is not deleted stays in its order. -/
theorem erase_sublist (p : Pattern) (cs : List Char) : (p.erase cs).Sublist cs := by
  fun_induction erase p cs with
  | case1 => exact List.Sublist.refl _
  | case2 c cs rest hfound hle ih =>
    -- what is left is the end of the text behind the match
    obtain ⟨m, hcs, -⟩ := mem_rests_iff.1 (List.mem_of_mem_head? hfound)
    rw [hcs]
    exact ih.trans (List.sublist_append_right m rest)
  | case3 c cs rest hfound hle ih => exact ih.cons_cons c
  | case4 c cs hfound ih => exact ih.cons_cons c

/-! ## The optional parts -/

/-- What an optional part has between its brackets, `[^\]]*`. -/
def inner : Pattern := .star (.one (· ≠ ']'))

/-- The closing brackets of an optional part, `\]+`. -/
def closing : Pattern := .plus (.one (· = ']'))

/-- The pattern of an optional part, `\[[^\]]*\]+`. -/
def optionalPart : Pattern := .seq (.one (· = '[')) (.seq inner closing)

/-- An optional part goes from an opening bracket to a closing one. -/
theorem Matches.of_optionalPart {m : List Char} (h : optionalPart.Matches m) :
    m.head? = some '[' ∧ ']' ∈ m := by
  cases h with
  | seq hopen hrest =>
    cases hopen with
    | one hc =>
      cases hrest with
      | seq _ hclosing =>
        cases hclosing with
        | seq hfirst _ =>
          cases hfirst with
          | one hc' => simp_all

/-- The closing brackets are all that follow. -/
theorem head?_rests_closing (cs : List Char) :
    (closing.rests (']' :: cs)).head? = some (cs.dropWhile (· = ']')) := by
  rw [← head?_rests_star_one]
  simp [closing, plus, rests]

/-- Where no closing bracket is, none is found. -/
theorem rests_closing_eq_nil {c : Char} (hc : c ≠ ']') (cs : List Char) :
    closing.rests (c :: cs) = [] := by
  simp [closing, plus, rests, hc]

/-- What is between the brackets goes on to the first closing one. -/
theorem rests_inner_closing (cs : List Char) :
    (seq inner closing).rests cs = closing.rests (cs.dropWhile (· ≠ ']')) := by
  rw [rests]
  induction cs with
  | nil => rfl
  | cons c cs ih =>
    rw [inner, rests_star_one_cons, List.flatMap_append, List.flatMap_singleton]
    by_cases hc : c = ']'
    · rw [if_neg (by simpa using hc), List.dropWhile_cons_of_neg (by simpa using hc)]
      rfl
    · -- where it stops before another character, there is nothing to close it
      rw [if_pos (by simpa using hc), List.dropWhile_cons_of_pos (by simpa using hc),
        rests_closing_eq_nil hc, List.append_nil]
      exact ih

/-- At an opening bracket the match goes to the next closing one and the closing ones directly
    behind. -/
theorem head?_rests_optionalPart (cs : List Char) :
    (optionalPart.rests ('[' :: cs)).head? =
      if (cs.dropWhile (· ≠ ']')).isEmpty then none
      else some ((cs.dropWhile (· ≠ ']')).dropWhile (· = ']')) := by
  have hrests : optionalPart.rests ('[' :: cs) = closing.rests (cs.dropWhile (· ≠ ']')) := by
    rw [optionalPart, rests, rests, if_pos (by decide), List.flatMap_singleton, rests_inner_closing]
  rw [hrests]
  cases hclose : cs.dropWhile (· ≠ ']') with
  | nil => rfl
  | cons d ds =>
    obtain rfl : d = ']' := by
      have hhead := List.head?_dropWhile_not (fun c => decide (c ≠ ']')) cs
      rw [hclose] at hhead
      simpa using hhead
    rw [head?_rests_closing, List.dropWhile_cons_of_pos (by decide)]
    rfl

/-- A text in which no bracket is closed stays as it is. -/
theorem erase_of_not_mem {cs : List Char} (h : ']' ∉ cs) : optionalPart.erase cs = cs := by
  induction cs with
  | nil => rw [erase]
  | cons c cs ih =>
    have hnone : optionalPart.rests (c :: cs) = [] := by
      refine rests_eq_nil fun m rest hcs hm => h ?_
      rw [hcs]
      exact List.mem_append_left rest hm.of_optionalPart.2
    rw [erase_cons_of_none hnone, ih (List.not_mem_of_not_mem_cons h)]

end Pattern

open Pattern

/-- The scan deletes the matches of the pattern. -/
theorem minimal_eq_erase (p : List Char) : minimal p = optionalPart.erase p := by
  fun_induction minimal p with
  | case1 => rw [erase]
  | case2 rest close hclose =>
    -- the bracket is not closed, nor is any behind it
    rw [erase_of_not_mem]
    intro hmem
    have hnil : rest.dropWhile (· ≠ ']') = [] := List.isEmpty_iff.1 hclose
    rw [List.dropWhile_eq_nil_iff] at hnil
    rcases List.mem_cons.1 hmem with heq | hmem
    · exact absurd heq (by decide)
    · simpa using hnil _ hmem
  | case3 rest close hclose ih =>
    -- both go on behind the same closing brackets
    rw [ih]
    have hfound := head?_rests_optionalPart rest
    rw [if_neg hclose] at hfound
    rw [erase_cons_of_some hfound]
    exact ((List.dropWhile_suffix _).trans (List.dropWhile_suffix _)).length_le
  | case4 c rest hc ih =>
    -- no match begins with another character than an opening bracket
    have hnone : optionalPart.rests (c :: rest) = [] := by
      refine rests_eq_nil fun m after hcs hm => hc ?_
      have hhead := hm.of_optionalPart.1
      cases m with
      | nil => cases hhead
      | cons d m =>
        obtain ⟨rfl, -⟩ := List.cons.inj hcs
        exact Option.some.inj hhead
    rw [ih, erase_cons_of_none hnone]

/-- The variants of a URL, whatever its brackets: of the path before the query, the characters that are
    no brackets, and what is left when all matches of the pattern of optional parts are deleted; the
    path itself if it has no opening bracket.  No variant has a question mark. -/
theorem expand_erases_matches (url : String) :
    ∃ p tail, url.toList = p ++ tail ∧ '?' ∉ p ∧ (∀ c ∈ tail.head?, c = '?') ∧
      expand url =
        (if '[' ∈ p then
          [String.ofList (p.filter fun c => c ≠ '[' ∧ c ≠ ']'), String.ofList (optionalPart.erase p)]
        else [String.ofList p]) ∧
      ∀ v ∈ expand url, '?' ∉ v.toList := by
  have hquery : '?' ∉ path url.toList := by
    intro hmem
    simpa using List.mem_takeWhile_imp hmem
  have hexpand : expand url = if '[' ∈ path url.toList then
      [String.ofList ((path url.toList).filter fun c => c ≠ '[' ∧ c ≠ ']'),
        String.ofList (optionalPart.erase (path url.toList))]
      else [String.ofList (path url.toList)] := by
    simp only [expand, full, minimal_eq_erase, List.contains_iff_mem, Bool.decide_and]
  refine ⟨path url.toList, url.toList.dropWhile (· ≠ '?'), List.takeWhile_append_dropWhile.symm,
    hquery, ?_, hexpand, ?_⟩
  · intro c hc
    have hhead := List.head?_dropWhile_not (fun c => decide (c ≠ '?')) url.toList
    rw [hc] at hhead
    simpa using hhead
  · -- each variant is a part of the path
    have hpart : ∀ cs, cs.Sublist (path url.toList) → '?' ∉ (String.ofList cs).toList := by
      intro cs hcs hmem
      rw [String.toList_ofList] at hmem
      exact hquery (hcs.subset hmem)
    intro v hv
    rw [hexpand] at hv
    split at hv
    · rcases List.mem_cons.1 hv with rfl | hv
      · exact hpart _ List.filter_sublist
      · obtain rfl := List.mem_singleton.1 hv
        exact hpart _ (erase_sublist ..)
    · obtain rfl := List.mem_singleton.1 hv
      exact hpart _ (List.Sublist.refl _)

end OperationCatalog.UrlVariants
