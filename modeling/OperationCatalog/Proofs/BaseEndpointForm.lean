import Mathlib.Data.List.Basic
import OperationCatalog.Settings

/-!
# The form of a base endpoint

White space is taken off both ends of a base endpoint first, and then the slashes at its end, each of
them once.  What stood before these slashes becomes the end of what is stored, whatever it is.  If it is
white space, then the base endpoint is stored with white space at its end and would be changed by being
put into its normal form again; white space and slashes alone are stored in this way, too, instead of
being refused.  Nothing else goes wrong: `SpaceBeforeSlashes` is the exact condition.

## Key results

- `baseEndpointChars_eq_iff`: what is kept of a text
- `spaceBeforeSlashes_iff`: when what is kept ends with white space
- `baseEndpointChars_eq_self_iff`: when nothing more is taken off
- `stored_base_endpoint`: the base endpoint of valid settings
-/

namespace OperationCatalog

open Text (isBlank Trimmed trimChars dropTrailing)

/-! ## What is kept of a text -/

/-- The characters of a base endpoint that are kept. -/
def baseEndpointChars (cs : List Char) : List Char := dropTrailing (· = '/') (trimChars cs)

theorem normalBaseEndpoint_eq (text : String) :
    normalBaseEndpoint text =
      if baseEndpointChars text.toList = [] then .error .emptyBaseEndpoint
      else .ok (String.ofList (baseEndpointChars text.toList)) := by
  have hchars : (Text.trimEnd (· = '/') (Text.trim text)).toList = baseEndpointChars text.toList := by
    rw [Text.toList_trimEnd, Text.toList_trim]
    rfl
  simp only [normalBaseEndpoint, String.isEmpty_iff, ← String.toList_eq_nil_iff, ← hchars,
    String.ofList_toList]

/-- How a text is taken apart, if `kept` is kept of it: white space around, and slashes behind. -/
structure TakenApart (cs kept slashes : List Char) : Prop where
  made_of : ∃ front back, cs = front ++ (kept ++ slashes) ++ back ∧
    (∀ c ∈ front, isBlank c = true) ∧ ∀ c ∈ back, isBlank c = true
  trimmed : Trimmed (kept ++ slashes)
  slashes : ∀ c ∈ slashes, c = '/'
  last_ne : ∀ c ∈ kept.getLast?, c ≠ '/'

theorem baseEndpointChars_eq_iff {cs kept : List Char} :
    baseEndpointChars cs = kept ↔ ∃ slashes, TakenApart cs kept slashes := by
  rw [baseEndpointChars, Text.dropTrailing_eq_iff]
  constructor
  · rintro ⟨⟨slashes, htrim, hslashes⟩, hlast⟩
    obtain ⟨hmade, htrimmed⟩ := Text.trimChars_eq_iff.1 htrim
    exact ⟨slashes, hmade, htrimmed, by simpa using hslashes, by simpa using hlast⟩
  · rintro ⟨slashes, hmade, htrimmed, hslashes, hlast⟩
    have htrim : trimChars cs = kept ++ slashes := Text.trimChars_eq_iff.2 ⟨hmade, htrimmed⟩
    exact ⟨⟨slashes, htrim, by simpa using hslashes⟩, by simpa using hlast⟩

/-- What is kept does not begin with white space. -/
theorem TakenApart.head_not_blank {cs kept slashes : List Char} (h : TakenApart cs kept slashes) :
    ∀ c ∈ kept.head?, isBlank c = false := by
  intro c hc
  apply h.trimmed.1 c
  rw [List.head?_append, hc]
  rfl

theorem head_baseEndpointChars_not_blank (cs : List Char) :
    ∀ c ∈ (baseEndpointChars cs).head?, isBlank c = false := by
  obtain ⟨slashes, h⟩ := baseEndpointChars_eq_iff.1 (rfl : baseEndpointChars cs = _)
  exact h.head_not_blank

theorem last_baseEndpointChars_ne (cs : List Char) :
    ∀ c ∈ (baseEndpointChars cs).getLast?, c ≠ '/' := by
  obtain ⟨slashes, h⟩ := baseEndpointChars_eq_iff.1 (rfl : baseEndpointChars cs = _)
  exact h.last_ne

/-- What is kept was there. -/
theorem mem_of_mem_baseEndpointChars {cs : List Char} {c : Char} (h : c ∈ baseEndpointChars cs) :
    c ∈ cs := by
  obtain ⟨slashes, happart⟩ := baseEndpointChars_eq_iff.1 (rfl : baseEndpointChars cs = _)
  obtain ⟨front, back, hcs, -, -⟩ := happart.made_of
  rw [hcs]
  simp [h]

/-! ## White space at the end -/

/-- Whether white space stands directly before the slashes at the end of a text, and not only white
    space before that.  White space behind the slashes is not looked at. -/
def SpaceBeforeSlashes (cs : List Char) : Prop :=
  ∃ before space slashes back, cs = before ++ space :: slashes ++ back ∧
    (∃ c ∈ before, isBlank c = false) ∧ isBlank space = true ∧
    slashes ≠ [] ∧ (∀ c ∈ slashes, c = '/') ∧ ∀ c ∈ back, isBlank c = true

theorem isBlank_slash : isBlank '/' = false := by decide

/-- White space before the slashes is kept, with what stands before it. -/
theorem baseEndpointChars_of_space {before slashes back : List Char} {space : Char}
    (hbefore : ∃ c ∈ before, isBlank c = false) (hspace : isBlank space = true)
    (hne : slashes ≠ []) (hslashes : ∀ c ∈ slashes, c = '/') (hback : ∀ c ∈ back, isBlank c = true) :
    baseEndpointChars (before ++ space :: slashes ++ back) =
      before.dropWhile isBlank ++ [space] := by
  -- the white space before the first other character is the front of the text
  obtain ⟨⟨front, hfront, hblank⟩, hhead⟩ :=
    Text.dropWhile_eq_iff.1 (rfl : before.dropWhile isBlank = _)
  have hkept : before.dropWhile isBlank ≠ [] := by
    intro hnil
    obtain ⟨c, hc, hcblank⟩ := hbefore
    rw [hnil, List.append_nil] at hfront
    rw [hfront] at hc
    rw [hblank c hc] at hcblank
    cases hcblank
  refine baseEndpointChars_eq_iff.2 ⟨slashes, ⟨front, back, ?_, hblank, hback⟩, ⟨?_, ?_⟩, hslashes, ?_⟩
  · conv => lhs; rw [hfront]
    simp only [List.append_assoc, List.cons_append, List.nil_append]
  · intro c hc
    rw [List.append_assoc, List.head?_append_of_ne_nil _ hkept] at hc
    exact hhead c hc
  · intro c hc
    rw [List.getLast?_append_of_ne_nil _ hne] at hc
    rw [hslashes c (List.mem_of_getLast? hc)]
    exact isBlank_slash
  · rintro c hc rfl
    rw [List.getLast?_concat, Option.mem_some_iff] at hc
    rw [hc, isBlank_slash] at hspace
    cases hspace

/-- If what is kept ends with white space, then this stood before the slashes. -/
theorem TakenApart.spaceBeforeSlashes {cs kept slashes : List Char} {space : Char}
    (h : TakenApart cs (kept ++ [space]) slashes) (hspace : isBlank space = true) :
    SpaceBeforeSlashes cs := by
  obtain ⟨front, back, hcs, hfront, hback⟩ := h.made_of
  refine ⟨front ++ kept, space, slashes, back, ?_, ?_, hspace, ?_, h.slashes, hback⟩
  · rw [hcs]
    simp only [List.append_assoc, List.cons_append, List.nil_append]
  · -- what is kept begins with another character than the white space at its end
    cases kept with
    | nil =>
      have hnot := h.head_not_blank space rfl
      rw [hspace] at hnot
      cases hnot
    | cons c rest => exact ⟨c, by simp, h.head_not_blank c rfl⟩
  · -- without slashes the text would end with it, and would not be trimmed
    rintro rfl
    have hnot := h.trimmed.2 space (by simp)
    rw [hspace] at hnot
    cases hnot

/-- What is kept ends with white space exactly if white space stands before the slashes. -/
theorem spaceBeforeSlashes_iff {cs : List Char} :
    SpaceBeforeSlashes cs ↔ ∃ c ∈ (baseEndpointChars cs).getLast?, isBlank c = true := by
  constructor
  · rintro ⟨before, space, slashes, back, rfl, hbefore, hspace, hne, hslashes, hback⟩
    refine ⟨space, ?_, hspace⟩
    rw [baseEndpointChars_of_space hbefore hspace hne hslashes hback]
    exact List.getLast?_concat
  · rintro ⟨space, hlast, hspace⟩
    obtain ⟨kept, hkept⟩ := List.getLast?_eq_some_iff.1 hlast
    obtain ⟨slashes, happart⟩ := baseEndpointChars_eq_iff.1 hkept
    exact happart.spaceBeforeSlashes hspace

theorem trimmed_baseEndpointChars_iff {cs : List Char} :
    Trimmed (baseEndpointChars cs) ↔ ¬ SpaceBeforeSlashes cs := by
  rw [spaceBeforeSlashes_iff]
  constructor
  · rintro h ⟨c, hc, hblank⟩
    rw [h.2 c hc] at hblank
    cases hblank
  · intro h
    refine ⟨head_baseEndpointChars_not_blank cs, fun c hc => ?_⟩
    cases hblank : isBlank c with
    | false => rfl
    | true => exact absurd ⟨c, hc, hblank⟩ h

/-- Nothing is taken off exactly if there is neither white space at the ends nor a slash at the end. -/
theorem baseEndpointChars_eq_self_iff {cs : List Char} :
    baseEndpointChars cs = cs ↔ Trimmed cs ∧ ∀ c ∈ cs.getLast?, c ≠ '/' := by
  constructor
  · intro h
    obtain ⟨slashes, happart⟩ := baseEndpointChars_eq_iff.1 h
    obtain ⟨front, back, hcs, -, -⟩ := happart.made_of
    -- there is no room for slashes
    have hlength : slashes.length = 0 := by
      have hsum := congrArg List.length hcs
      simp only [List.length_append] at hsum
      omega
    have htrimmed := happart.trimmed
    rw [List.length_eq_zero_iff.1 hlength, List.append_nil] at htrimmed
    exact ⟨htrimmed, happart.last_ne⟩
  · rintro ⟨htrimmed, hlast⟩
    refine baseEndpointChars_eq_iff.2 ⟨[], ⟨[], [], ?_, by simp, by simp⟩, ?_, by simp, hlast⟩
    · simp
    · rwa [List.append_nil]

/-- A base endpoint is in normal form exactly if it is not empty and nothing is taken off. -/
theorem normalBaseEndpoint_eq_self_iff {text : String} :
    normalBaseEndpoint text = .ok text ↔
      text ≠ "" ∧ Trimmed text.toList ∧ ∀ c ∈ text.toList.getLast?, c ≠ '/' := by
  rw [← baseEndpointChars_eq_self_iff, normalBaseEndpoint_eq, ne_eq, ← String.toList_eq_nil_iff]
  constructor
  · intro h
    split at h
    · cases h
    · rename_i hne
      have hsame : baseEndpointChars text.toList = text.toList := by
        rw [← String.toList_ofList (l := baseEndpointChars text.toList), Except.ok.inj h]
      exact ⟨fun hnil => hne (hsame.trans hnil), hsame⟩
  · rintro ⟨hne, hsame⟩
    rw [hsame, if_neg hne, String.ofList_toList]

/-- Of white space and slashes nothing is kept, or what is kept ends with white space. -/
theorem baseEndpointChars_of_spaces_slashes {cs : List Char}
    (h : ∀ c ∈ cs, isBlank c = true ∨ c = '/') (happart : ¬ SpaceBeforeSlashes cs) :
    baseEndpointChars cs = [] := by
  cases hlast : (baseEndpointChars cs).getLast? with
  | none => exact List.getLast?_eq_none_iff.1 hlast
  | some c =>
    have hslash : c ≠ '/' := last_baseEndpointChars_ne cs c hlast
    have hblank : isBlank c = true :=
      (h c (mem_of_mem_baseEndpointChars (List.mem_of_getLast? hlast))).resolve_right hslash
    exact absurd (spaceBeforeSlashes_iff.2 ⟨c, hlast, hblank⟩) happart

/-! ## Valid settings -/

namespace Settings

theorem ofArguments_of_zero {a : Arguments} (h : a.port = 0) : ofArguments a = .error .zeroPort := by
  rw [ofArguments, if_pos h]

theorem ofArguments_of_empty {a : Arguments} (hport : a.port ≠ 0)
    (h : baseEndpointChars a.baseEndpoint.toList = []) :
    ofArguments a = .error .emptyBaseEndpoint := by
  rw [ofArguments, if_neg hport, normalBaseEndpoint_eq, if_pos h]

theorem ofArguments_of_ne {a : Arguments} (hport : a.port ≠ 0)
    (h : baseEndpointChars a.baseEndpoint.toList ≠ []) :
    ofArguments a = .ok
      { host := a.host, port := a.port,
        baseEndpoint := String.ofList (baseEndpointChars a.baseEndpoint.toList), model := a.model,
        logFilter := a.logFilter, jsonLogs := a.jsonLogs } := by
  rw [ofArguments, if_neg hport, normalBaseEndpoint_eq, if_neg h]

/-- The base endpoint of valid settings. -/
theorem toList_baseEndpoint {a : Arguments} {s : Settings} (h : ofArguments a = .ok s) :
    s.baseEndpoint.toList = baseEndpointChars a.baseEndpoint.toList ∧
      baseEndpointChars a.baseEndpoint.toList ≠ [] := by
  by_cases hport : a.port = 0
  · rw [ofArguments_of_zero hport] at h
    cases h
  · by_cases hempty : baseEndpointChars a.baseEndpoint.toList = []
    · rw [ofArguments_of_empty hport hempty] at h
      cases h
    · rw [ofArguments_of_ne hport hempty] at h
      cases h
      exact ⟨String.toList_ofList, hempty⟩

end Settings

/-- The base endpoint of valid settings is not empty, begins with something else than white space and
    does not end with a slash.  It ends with something else than white space and is in normal form, and
    white space and slashes alone are refused, exactly where no white space stands before the slashes at
    the end of what was given. -/
theorem stored_base_endpoint (a : Arguments) :
    (∀ s, Settings.ofArguments a = .ok s →
      s.baseEndpoint ≠ "" ∧ (∀ c ∈ s.baseEndpoint.toList.head?, isBlank c = false) ∧
        ∀ c ∈ s.baseEndpoint.toList.getLast?, c ≠ '/') ∧
    (¬ SpaceBeforeSlashes a.baseEndpoint.toList →
      (∀ s, Settings.ofArguments a = .ok s →
        Trimmed s.baseEndpoint.toList ∧
          normalBaseEndpoint s.baseEndpoint = .ok s.baseEndpoint) ∧
      ((∀ c ∈ a.baseEndpoint.toList, isBlank c = true ∨ c = '/') →
        Settings.ofArguments a =
          .error (if a.port = 0 then .zeroPort else .emptyBaseEndpoint))) ∧
    (SpaceBeforeSlashes a.baseEndpoint.toList → a.port ≠ 0 →
      ∃ s, Settings.ofArguments a = .ok s ∧
        (∃ c ∈ s.baseEndpoint.toList.getLast?, isBlank c = true) ∧
        normalBaseEndpoint s.baseEndpoint ≠ .ok s.baseEndpoint) := by
  refine ⟨fun s hs => ?_, fun happart => ⟨fun s hs => ?_, fun hchars => ?_⟩, fun happart hport => ?_⟩
  · obtain ⟨hkept, hne⟩ := Settings.toList_baseEndpoint hs
    rw [ne_eq, ← String.toList_eq_nil_iff, hkept]
    exact ⟨hne, head_baseEndpointChars_not_blank _, last_baseEndpointChars_ne _⟩
  · obtain ⟨hkept, hne⟩ := Settings.toList_baseEndpoint hs
    have htrimmed : Trimmed s.baseEndpoint.toList := by
      rw [hkept]
      exact trimmed_baseEndpointChars_iff.2 happart
    refine ⟨htrimmed, normalBaseEndpoint_eq_self_iff.2 ⟨?_, htrimmed, ?_⟩⟩
    · rwa [ne_eq, ← String.toList_eq_nil_iff, hkept]
    · rw [hkept]
      exact last_baseEndpointChars_ne _
  · have hempty := baseEndpointChars_of_spaces_slashes hchars happart
    by_cases hport : a.port = 0
    · rw [if_pos hport]
      exact Settings.ofArguments_of_zero hport
    · rw [if_neg hport]
      exact Settings.ofArguments_of_empty hport hempty
  · -- something is kept, since it has an end
    obtain ⟨c, hlast, hblank⟩ := spaceBeforeSlashes_iff.1 happart
    have hne : baseEndpointChars a.baseEndpoint.toList ≠ [] := by
      intro hnil
      rw [hnil] at hlast
      cases hlast
    obtain ⟨s, hs⟩ : ∃ s, Settings.ofArguments a = .ok s :=
      ⟨_, Settings.ofArguments_of_ne hport hne⟩
    obtain ⟨hkept, -⟩ := Settings.toList_baseEndpoint hs
    refine ⟨s, hs, ⟨c, by rwa [hkept], hblank⟩, fun hnormal => ?_⟩
    have htrimmed := (normalBaseEndpoint_eq_self_iff.1 hnormal).2.1
    rw [hkept] at htrimmed
    exact trimmed_baseEndpointChars_iff.1 htrimmed happart

/-- A base endpoint with white space inside and slashes and white space behind, and slashes alone. -/
theorem stored_base_endpoint_sample :
    ((∃ s, Settings.ofArguments
        ⟨.v4 127 0 0 1, 18790, " https://h/a b// ", "model.json", "info", false⟩ = .ok s ∧
        s.baseEndpoint = "https://h/a b") ∧
      normalBaseEndpoint "https://h/a b" = .ok "https://h/a b") ∧
    Settings.ofArguments ⟨.v4 127 0 0 1, 18790, " // ", "model.json", "info", false⟩ =
      .error .emptyBaseEndpoint := by
  have hlast : (baseEndpointChars " https://h/a b// ".toList).getLast? = some 'b' := rfl
  have hempty : (baseEndpointChars " // ".toList).getLast? = none := rfl
  have hplain : ¬ SpaceBeforeSlashes " https://h/a b// ".toList := by
    rw [spaceBeforeSlashes_iff, hlast]
    rintro ⟨c, hc, hblank⟩
    cases hc
    cases hblank
  have hplain' : ¬ SpaceBeforeSlashes " // ".toList := by
    rw [spaceBeforeSlashes_iff, hempty]
    rintro ⟨c, hc, -⟩
    cases hc
  constructor
  · obtain ⟨hstored, -⟩ := (stored_base_endpoint
      ⟨.v4 127 0 0 1, 18790, " https://h/a b// ", "model.json", "info", false⟩).2.1 hplain
    exact ⟨⟨_, rfl, rfl⟩, (hstored _ rfl).2⟩
  · obtain ⟨-, hrefused⟩ := (stored_base_endpoint
      ⟨.v4 127 0 0 1, 18790, " // ", "model.json", "info", false⟩).2.1 hplain'
    have hchars : " // ".toList.all (fun c => isBlank c || c = '/') = true := rfl
    exact hrefused fun c hc => by simpa using List.all_eq_true.1 hchars c hc

/-- White space before a slash comes to the end of what is stored, and is lost when that is put into
    normal form again.  Slashes with white space between them are stored. -/
theorem space_before_slash_stored :
    (¬ ∀ (a : Arguments) (s : Settings), Settings.ofArguments a = .ok s →
      Trimmed s.baseEndpoint.toList) ∧
    (¬ ∀ (a : Arguments) (s : Settings), Settings.ofArguments a = .ok s →
      normalBaseEndpoint s.baseEndpoint = .ok s.baseEndpoint) ∧
    ¬ ∀ a : Arguments, (∀ c ∈ a.baseEndpoint.toList, isBlank c = true ∨ c = '/') →
      ∃ e, Settings.ofArguments a = .error e := by
  have haccepted : Settings.ofArguments
      ⟨.v4 127 0 0 1, 18790, "https://h /", "model.json", "info", false⟩ =
      .ok ⟨.v4 127 0 0 1, 18790, "https://h ", "model.json", "info", false⟩ := by
    rfl
  refine ⟨fun h => ?_, fun h => ?_, fun h => ?_⟩
  · have hlast := (h _ _ haccepted).2 ' ' (by decide)
    exact absurd hlast (by decide)
  · exact absurd (h _ _ haccepted) (by decide)
  · have hchars : "/ /".toList.all (fun c => isBlank c || c = '/') = true := rfl
    obtain ⟨e, he⟩ := h ⟨.v4 127 0 0 1, 18790, "/ /", "model.json", "info", false⟩ fun c hc => by
      simpa using List.all_eq_true.1 hchars c hc
    have hstored : Settings.ofArguments ⟨.v4 127 0 0 1, 18790, "/ /", "model.json", "info", false⟩ =
        .ok ⟨.v4 127 0 0 1, 18790, "/ ", "model.json", "info", false⟩ := by
      rfl
    rw [hstored] at he
    cases he

end OperationCatalog
