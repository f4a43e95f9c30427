import Mathlib.Data.List.TakeWhile
import OperationCatalog.Expression.Evaluate
import OperationCatalog.Proofs.CaseMapping

/-!
# Names of parameters

A parameter shows as the last part of its name, in braces and with its first character in lower case.
The parts are the runs of characters between separators; `LastRun` says which of them is the last one.
What stands before it does not count, nor do the separators behind it, and only a name of separators
alone has no such part.

## Key results

- `exists_lastRun`, `LastRun.lastPart?_eq`: a name has a last run unless it has separators only
- `LastRun.around`: the last run stays when a text with a separator at its end comes before the name and
  separators behind it
- `not_separator_of_mem_lowerFirst`: lower-casing the first character makes no separator
- `value_of_parameter`: the outcome of a parameter that is not the root token
-/

namespace OperationCatalog

open Text (dropTrailing lowerFirst)

/-! ## The last run -/

/-- Whether `run` is the last run of characters in a text that are not separators: it begins the text or
    comes directly behind a separator, and nothing but separators comes behind it. -/
structure LastRun (cs run : List Char) : Prop where
  made_of : ∃ front back, cs = front ++ run ++ back ∧
    (∀ c ∈ front.getLast?, isSeparator c = true) ∧ ∀ c ∈ back, isSeparator c = true
  ne_nil : run ≠ []
  plain : ∀ c ∈ run, isSeparator c = false

/-- A text with a character that is no separator has a last run. -/
theorem exists_lastRun {cs : List Char} (h : ∃ c ∈ cs, isSeparator c = false) :
    ∃ run, LastRun cs run := by
  -- the separators at the end are taken off, and then the run before them
  obtain ⟨⟨back, hcs, hback⟩, hlast⟩ :=
    Text.dropTrailing_eq_iff.1 (rfl : dropTrailing isSeparator cs = _)
  obtain ⟨⟨run, hcore, hrun⟩, hfront⟩ := Text.dropTrailing_eq_iff.1
    (rfl : dropTrailing (!isSeparator ·) (dropTrailing isSeparator cs) = _)
  refine ⟨run, ⟨_, back, by rw [← hcore]; exact hcs, by simpa using hfront, hback⟩, ?_, ?_⟩
  · rintro rfl
    rw [List.append_nil] at hcore
    rw [← hcore] at hfront
    -- without a run the rest would end with a separator
    cases hend : (dropTrailing isSeparator cs).getLast? with
    | none =>
      obtain ⟨c, hc, hplain⟩ := h
      rw [hcs, List.getLast?_eq_none_iff.1 hend] at hc
      rw [hback c hc] at hplain
      cases hplain
    | some c =>
      have hplain := hfront c hend
      rw [hlast c hend] at hplain
      cases hplain
  · simpa using hrun

/-- The last part of a name is its last run. -/
theorem LastRun.lastPart?_eq {name : String} {run : List Char} (h : LastRun name.toList run) :
    lastPart? name = some (String.ofList run) := by
  obtain ⟨front, back, hname, hfront, hback⟩ := h.made_of
  have hcore : dropTrailing isSeparator name.toList = front ++ run := by
    refine Text.dropTrailing_eq_iff.2 ⟨⟨back, hname, hback⟩, fun c hc => ?_⟩
    rw [List.getLast?_append_of_ne_nil _ h.ne_nil] at hc
    exact h.plain c (List.mem_of_getLast? hc)
  have hstop : front.reverse.takeWhile (!isSeparator ·) = [] := by
    rw [← List.head?_reverse] at hfront
    cases hreverse : front.reverse with
    | nil => rfl
    | cons c rest =>
      rw [hreverse] at hfront
      rw [List.takeWhile_cons_of_neg (by simp [hfront c rfl])]
  have hrun : (front ++ run).reverse.takeWhile (!isSeparator ·) = run.reverse := by
    rw [List.reverse_append, List.takeWhile_append_of_pos, hstop, List.append_nil]
    intro c hc
    rw [h.plain c (List.mem_reverse.1 hc)]
    rfl
  have hne : (front ++ run).isEmpty = false := by simp [h.ne_nil]
  simp only [lastPart?, hcore, hne, hrun, List.reverse_reverse, Bool.false_eq_true, if_false]

theorem lastPart?_of_separators {name : String} (h : ∀ c ∈ name.toList, isSeparator c = true) :
    lastPart? name = none := by
  have hcore : dropTrailing isSeparator name.toList = [] :=
    Text.dropTrailing_eq_iff.2 ⟨⟨name.toList, rfl, h⟩, by simp⟩
  simp only [lastPart?, hcore, List.isEmpty_nil, if_true]

/-- What comes before a separator does not count, and separators behind do not either. -/
theorem LastRun.around {cs run : List Char} (h : LastRun cs run) {before behind : List Char}
    (hbefore : ∀ c ∈ before.getLast?, isSeparator c = true)
    (hbehind : ∀ c ∈ behind, isSeparator c = true) : LastRun (before ++ cs ++ behind) run := by
  obtain ⟨front, back, rfl, hfront, hback⟩ := h.made_of
  refine ⟨⟨before ++ front, back ++ behind, by simp, fun c hc => ?_, fun c hc => ?_⟩, h.ne_nil, h.plain⟩
  · exact (Text.mem_getLast?_append hc).elim (hbefore c) (hfront c)
  · exact (List.mem_append.1 hc).elim (hback c) (hbehind c)

/-! ## The first character in lower case -/

theorem lowerFirst_ne_nil {cs : List Char} (h : cs ≠ []) : lowerFirst cs ≠ [] := by
  cases cs with
  | nil => exact h
  | cons c rest =>
    rw [lowerFirst]
    exact List.append_ne_nil_of_left_ne_nil (Text.lowerChar_ne_nil c) rest

/-- Lower-casing may make several characters of one, but none of them is a separator. -/
theorem not_separator_of_mem_lowerFirst {cs : List Char} (h : ∀ c ∈ cs, isSeparator c = false) :
    ∀ d ∈ lowerFirst cs, isSeparator d = false := by
  intro d hd
  cases cs with
  | nil => cases hd
  | cons c rest =>
    rcases List.mem_append.1 hd with hfirst | hrest
    · rw [Bool.eq_false_iff]
      intro hsep
      have hmark : Text.markRanges.holds d = true := by
        simp only [isSeparator, Bool.or_eq_true, decide_eq_true_eq] at hsep
        rcases hsep with (rfl | rfl) | rfl <;> decide
      -- a separator would come out of itself
      obtain rfl := Text.eq_of_mem_lowerChar hfirst hmark
      rw [h c List.mem_cons_self] at hsep
      cases hsep
    · exact h d (List.mem_cons_of_mem c hrest)

/-! ## Values of parameters -/

namespace Expression

/-- Braces around a name are taken off with those that it has at its ends. -/
theorem unbraced_braced {name : String} (h : ∃ c ∈ name.toList, c ≠ '\x7b') :
    unbraced (braced name) = unbraced name := by
  have hkept : name.toList.dropWhile (· = '\x7b') ≠ [] := by
    obtain ⟨c, hc, hne⟩ := h
    rw [ne_eq, List.dropWhile_eq_nil_iff]
    intro hall
    exact hne (by simpa using hall c hc)
  have hopen : (braced name).toList = '\x7b' :: (name.toList ++ ['\x7d']) := by simp [braced]
  rw [unbraced, hopen, List.dropWhile_cons_of_pos (by decide), List.dropWhile_append,
    if_neg (by simpa using hkept), Text.dropTrailing_concat, if_pos (by decide), unbraced]

end Expression

namespace Evaluator

variable (ev : Evaluator)

theorem evaluate_parameter_of_lastRun {name : String} {run : List Char}
    (htoken : (Expression.parameter name).isRootToken = false) (h : LastRun name.toList run) :
    ev.evaluate (.parameter name) = .ok (.text ("\x7b" ++ String.ofList (lowerFirst run) ++ "\x7d")) := by
  rw [ev.evaluate_parameter htoken, h.lastPart?_eq, Option.elim_some, placeholder, String.toList_ofList,
    Expression.braced]

theorem evaluate_parameter_of_separators {name : String}
    (htoken : (Expression.parameter name).isRootToken = false)
    (h : ∀ c ∈ name.toList, isSeparator c = true) :
    ev.evaluate (.parameter name) = .error (.emptyParameter name) := by
  rw [ev.evaluate_parameter htoken, lastPart?_of_separators h, Option.elim_none]

/-- Names with the same last run are as good as each other, if neither is the root token. -/
theorem evaluate_parameter_congr {name name' : String} {run : List Char}
    (htoken : (Expression.parameter name).isRootToken = false)
    (htoken' : (Expression.parameter name').isRootToken = false)
    (h : LastRun name.toList run) (h' : LastRun name'.toList run) :
    ev.evaluate (.parameter name) = ev.evaluate (.parameter name') := by
  rw [ev.evaluate_parameter_of_lastRun htoken h, ev.evaluate_parameter_of_lastRun htoken' h']

/-- Braces around a name do not count, whether it is the root token or not. -/
theorem evaluate_parameter_braced {name : String} (h : ∃ c ∈ name.toList, isSeparator c = false) :
    ev.evaluate (.parameter (Expression.braced name)) = ev.evaluate (.parameter name) := by
  have hne : ∃ c ∈ name.toList, c ≠ '\x7b' := by
    obtain ⟨c, hc, hplain⟩ := h
    refine ⟨c, hc, ?_⟩
    rintro rfl
    cases hplain
  have hdisplay : (Expression.parameter (Expression.braced name)).display =
      (Expression.parameter name).display := by
    rw [Expression.display, Expression.display, Expression.unbraced_braced hne]
  refine ev.evaluate_congr_of_display hdisplay fun htoken htoken' => ?_
  obtain ⟨run, hrun⟩ := exists_lastRun h
  have hbraced : LastRun (Expression.braced name).toList run := by
    have haround : LastRun (['\x7b'] ++ name.toList ++ ['\x7d']) run :=
      hrun.around (by simp [isSeparator]) (by simp [isSeparator])
    simpa [Expression.braced] using haround
  exact ev.evaluate_parameter_congr htoken htoken' hbraced hrun

end Evaluator

/-- The outcome of a parameter that is not the root token.  It has no value exactly if its name has
    separators only, and the error gives the name.  Otherwise it is the last run of the name in braces, with
    its first character in lower case; this is not empty and has no separator.  Braces around such a
    name do not count then, nor does a text with a separator behind it that comes before the name, unless
    it makes the whole the root token. -/
theorem value_of_parameter (ev : Evaluator) (raw : String)
    (htoken : (Expression.parameter raw).isRootToken = false) :
    (∀ error, ev.evaluate (.parameter raw) = .error error ↔
      error = .emptyParameter raw ∧ ∀ c ∈ raw.toList, isSeparator c = true) ∧
    ((∃ c ∈ raw.toList, isSeparator c = false) →
      (∃ run word, LastRun raw.toList run ∧ word = lowerFirst run ∧ word ≠ [] ∧
        (∀ c ∈ word, isSeparator c = false) ∧
        ev.evaluate (.parameter raw) = .ok (.text ("\x7b" ++ String.ofList word ++ "\x7d"))) ∧
      ev.evaluate (.parameter ("\x7b" ++ raw ++ "\x7d")) = ev.evaluate (.parameter raw) ∧
      ∀ (before : String) (separator : Char), isSeparator separator = true →
        (Expression.parameter (before ++ String.singleton separator ++ raw)).isRootToken = false →
        ev.evaluate (.parameter (before ++ String.singleton separator ++ raw)) =
          ev.evaluate (.parameter raw)) := by
  refine ⟨fun error => ?_, fun hplain => ?_⟩
  · by_cases hall : ∀ c ∈ raw.toList, isSeparator c = true
    · rw [ev.evaluate_parameter_of_separators htoken hall, Except.error.injEq, eq_comm,
        and_iff_left hall]
    · -- a name with another character has a value
      have hplain : ∃ c ∈ raw.toList, isSeparator c = false := by simpa using hall
      obtain ⟨run, hrun⟩ := exists_lastRun hplain
      rw [ev.evaluate_parameter_of_lastRun htoken hrun]
      simp [hall]
  · obtain ⟨run, hrun⟩ := exists_lastRun hplain
    refine ⟨⟨run, _, hrun, rfl, lowerFirst_ne_nil hrun.ne_nil,
      not_separator_of_mem_lowerFirst hrun.plain, ev.evaluate_parameter_of_lastRun htoken hrun⟩,
      ev.evaluate_parameter_braced hplain, fun before separator hsep htoken' => ?_⟩
    have hbehind : LastRun (before ++ String.singleton separator ++ raw).toList run := by
      have haround : LastRun (before.toList ++ [separator] ++ raw.toList ++ []) run :=
        hrun.around (by simpa using hsep) (by simp)
      simpa using haround
    exact ev.evaluate_parameter_congr htoken' htoken hbehind hrun

/-- A capital letter that makes two characters in lower case, with separators on both sides, and a name of
    separators. -/
theorem value_of_parameter_sample :
    (Evaluator.evaluate ⟨"https://h", []⟩ (.parameter "p.\u0130d\x7d.") =
        .ok (.text "\x7bi\u0307d\x7d") ∧
      Evaluator.evaluate ⟨"https://h", []⟩ (.parameter "\x7bp.\u0130d\x7d.\x7d") =
        .ok (.text "\x7bi\u0307d\x7d") ∧
      Evaluator.evaluate ⟨"https://h", []⟩ (.parameter "BaseUri\x7dp.\u0130d\x7d.") =
        .ok (.text "\x7bi\u0307d\x7d")) ∧
    Evaluator.evaluate ⟨"https://h", []⟩ (.parameter "..\x7b\x7d") =
      .error (.emptyParameter "..\x7b\x7d") := by
  have hvalue : Evaluator.evaluate ⟨"https://h", []⟩ (.parameter "p.\u0130d\x7d.") =
      .ok (.text "\x7bi\u0307d\x7d") := rfl
  obtain ⟨-, hbraced, hbefore⟩ := (value_of_parameter ⟨"https://h", []⟩ "p.\u0130d\x7d." (by decide)).2
    ⟨'p', by decide, by decide⟩
  refine ⟨⟨hvalue, hbraced.trans hvalue, ?_⟩, ?_⟩
  · exact (hbefore "BaseUri" '\x7d' (by decide) (by decide)).trans hvalue
  · exact ((value_of_parameter ⟨"https://h", []⟩ "..\x7b\x7d" (by decide)).1 _).2
      ⟨rfl, List.all_eq_true.1 (by decide)⟩

end OperationCatalog
