import Mathlib.Data.List.Forall2
import OperationCatalog.Proofs.CaseMapping
import OperationCatalog.Visibility

/-!
# Which names are hidden

A name is hidden if its lower case has one of some words in it.  Lower-casing may lengthen a text, looks
at the characters around a capital sigma, and makes small letters of ASCII out of others.  For words of
ASCII letters all this comes down to single characters: each letter of the word stands there in one of
its cases, and for `k` there may be the Kelvin sign.  The one character that becomes a letter and more,
`İ`, gives an `i` with a dot behind it, which is found in a word only if `i` is its last letter.

## Key results

- `Text.lowerFrom_cons`: what lower-casing makes of a character is a small letter only for a case of it
- `Text.infix_lowerFrom_iff`: a word in the lower case of a text stands in the text, letter by letter
- `Text.isCaseOf_iff_of_mem_lowerFrom`: no other case of a letter is left in lower case
- `hidden_iff_fragment`: which names are hidden, and what can be done to a name without a change
-/

namespace OperationCatalog

namespace Text

/-- Whether a character is this letter of ASCII in one of its cases; the Kelvin sign is a capital `k`. -/
def IsCaseOf (letter c : Char) : Prop :=
  c.toLower = letter.toLower ∨ letter.toLower = 'k' ∧ c = '\u212A'

theorem toList_lower (s : String) : (lower s).toList = lowerChars s.toList := by
  rw [lower, String.toList_ofList]

/-! ## Small letters come from cases of them -/

theorem isLower_iff {c : Char} : c.isLower = true ↔ 0x61 ≤ c.toNat ∧ c.toNat ≤ 0x7A := by
  show (decide (c.val ≥ 'a'.val) && decide (c.val ≤ 'z'.val)) = true ↔ _
  simp [UInt32.le_iff_toNat_le]

theorem isUpper_iff {c : Char} : c.isUpper = true ↔ 0x41 ≤ c.toNat ∧ c.toNat ≤ 0x5A := by
  show decide (c.val ≥ 'A'.val ∧ c.val ≤ 'Z'.val) = true ↔ _
  simp [UInt32.le_iff_toNat_le]

/-- Only the capital letters of ASCII have another lower case in ASCII. -/
theorem toLower_of_not_isUpper {c : Char} (hupper : ¬c.isUpper = true) : c.toLower = c :=
  dif_neg fun h => hupper (decide_eq_true h)

theorem toLower_toLower (c : Char) : c.toLower.toLower = c.toLower := by
  by_cases hupper : c.isUpper = true
  · have hrange := isUpper_iff.1 hupper
    have htry : ∀ n < 0x80, (Char.ofNat n).toLower.toLower = (Char.ofNat n).toLower := by decide
    rw [← Char.ofNat_toNat c]
    exact htry c.toNat (by omega)
  · rw [toLower_of_not_isUpper hupper, toLower_of_not_isUpper hupper]

/-- A small letter of ASCII is its own lower case. -/
theorem toLower_of_isLower {p : Char} (hp : p.isLower = true) : p.toLower = p := by
  refine toLower_of_not_isUpper fun hupper => ?_
  rw [isLower_iff] at hp
  rw [isUpper_iff] at hupper
  omega

/-- Outside ASCII only the Kelvin sign is a case of a letter. -/
theorem isCaseOf_iff_of_not_ascii {p c : Char} (hp : p.isLower = true) (hc : 0x80 ≤ c.toNat) :
    IsCaseOf p c ↔ p = 'k' ∧ c = '\u212A' := by
  have hupper : ¬c.isUpper = true := by
    rw [isUpper_iff]
    omega
  rw [IsCaseOf, toLower_of_isLower hp, toLower_of_not_isUpper hupper]
  refine or_iff_right fun h => ?_
  rw [isLower_iff, ← h] at hp
  omega

/-- A run of the table makes letters of ASCII of the Kelvin sign alone. -/
private theorem lowerRuns_target : ∀ r ∈ lowerRuns,
    r = ⟨0x212A, 0x212A, 1, 0x006B⟩ ∨ 0x80 ≤ r.target ∧ r.map? 0x212A = none := by
  decide +kernel

/-- What a run of the table gives is a small letter of ASCII only for the Kelvin sign. -/
private theorem ofNat_eq_iff_of_lowerRuns {r : CaseRun} {c p : Char} {n : Nat} (hr : r ∈ lowerRuns)
    (hmap : r.map? c.toNat = some n) (hp : p.isLower = true) :
    Char.ofNat n = p ↔ p = 'k' ∧ c = '\u212A' := by
  obtain ⟨hfirst, hlast, -, hn⟩ := CaseRun.map?_eq_some_iff.1 hmap
  rcases lowerRuns_target r hr with rfl | ⟨htarget, hkelvin⟩
  · have hc : c = '\u212A' := Char.toNat_inj.1 (Nat.le_antisymm hlast hfirst)
    have hk : n = 0x6B := by rw [hn, hc]; rfl
    rw [hk, and_iff_left hc]
    exact eq_comm
  · refine iff_of_false (fun h => ?_) fun h => ?_
    · -- the code point is kept or becomes that of the null character
      rw [isLower_iff, ← h] at hp
      rcases toNat_ofNat_eq_or n with h | h <;> omega
    · rw [h.2] at hmap
      exact absurd (hkelvin.symm.trans hmap) (Option.some_ne_none n).symm

/-- Lower-casing makes one character of any other than `İ`, and a small letter of ASCII only of a case of
    that letter. -/
theorem lowerChar_eq_singleton {c : Char} (hc : c ≠ 'İ') :
    ∃ d, lowerChar c = [d] ∧ ∀ p : Char, p.isLower = true → (d = p ↔ IsCaseOf p c) := by
  rw [lowerChar]
  split
  · rename_i hascii
    refine ⟨c.toLower, rfl, fun p hp => ?_⟩
    rw [IsCaseOf, toLower_of_isLower hp]
    refine (or_iff_left fun h => ?_).symm
    rw [h.2] at hascii
    exact absurd hascii (by decide)
  · rename_i hascii
    rw [Nat.not_lt] at hascii
    rw [mapCase]
    split
    · rename_i n hn
      obtain ⟨r, hr, hmap⟩ := List.exists_of_findSome?_eq_some hn
      refine ⟨Char.ofNat n, rfl, fun p hp => ?_⟩
      rw [isCaseOf_iff_of_not_ascii hp hascii, ofNat_eq_iff_of_lowerRuns hr hmap hp]
    · rename_i hnone
      split
      · -- the only sequence is that of the capital letter with a dot
        rename_i ns hns
        obtain ⟨before, after, heq, -⟩ := List.lookup_eq_some_iff.1 hns
        have hmem : (c.toNat, ns) ∈ lowerSequences := by simp [heq]
        have hdotted : c.toNat = 0x130 := (Prod.mk.inj (List.mem_singleton.1 hmem)).1
        exact absurd (Char.toNat_inj.1 hdotted) hc
      · -- the character stays, and there is a run for the Kelvin sign
        refine ⟨c, rfl, fun p hp => ?_⟩
        rw [isCaseOf_iff_of_not_ascii hp hascii]
        refine iff_of_false (fun h => ?_) fun h => ?_
        · rw [isLower_iff, ← h] at hp
          omega
        · rw [h.2] at hnone
          exact absurd hnone (by decide)

/-- The same in a text, where a capital sigma becomes one of two characters that are no letters of
    ASCII. -/
theorem lowerFrom_cons {c : Char} (hc : c ≠ 'İ') (before rest : List Char) :
    ∃ d, lowerFrom before (c :: rest) = d :: lowerFrom (c :: before) rest ∧
      ∀ p : Char, p.isLower = true → (d = p ↔ IsCaseOf p c) := by
  rw [lowerFrom]
  split
  · rename_i hsigma
    refine ⟨_, rfl, fun p hp => ?_⟩
    rw [isCaseOf_iff_of_not_ascii hp (by rw [hsigma]; decide)]
    refine iff_of_false (fun h => ?_) fun h => ?_
    · rw [← h] at hp
      revert hp
      split <;> decide
    · rw [hsigma] at h
      exact absurd h.2 (by decide)
  · obtain ⟨d, hd, hcase⟩ := lowerChar_eq_singleton hc
    exact ⟨d, by rw [hd, List.singleton_append], hcase⟩

theorem lowerFrom_dotted (before rest : List Char) :
    lowerFrom before ('İ' :: rest) = 'i' :: '\u0307' :: lowerFrom ('İ' :: before) rest := by
  rw [lowerFrom]
  rfl

/-- The dotted letter is no case of a letter of ASCII. -/
theorem not_isCaseOf_dotted {p : Char} (hp : p.isLower = true) : ¬IsCaseOf p 'İ' := by
  rw [isCaseOf_iff_of_not_ascii hp (by decide)]
  exact fun h => absurd h.2 (by decide)

/-! ## Words in a text -/

/-- A word of small letters that does not end in `i`. -/
structure Word (part : List Char) : Prop where
  isLower : ∀ p ∈ part, p.isLower = true
  last : part.getLast? ≠ some 'i'

theorem Word.tail {p : Char} {part : List Char} (h : Word (p :: part)) : Word part where
  isLower := fun q hq => h.isLower q (List.mem_cons_of_mem p hq)
  last := by
    intro hlast
    refine h.last ?_
    rw [List.getLast?_cons, hlast]
    rfl

/-- The dot above stands at the start of no word. -/
theorem Word.not_prefix_dot {part rest : List Char} (h : Word part) (hne : part ≠ []) :
    ¬part <+: '\u0307' :: rest := by
  intro hprefix
  cases part with
  | nil => exact hne rfl
  | cons p part =>
    have hp := h.isLower p List.mem_cons_self
    rw [(List.cons_prefix_cons.1 hprefix).1] at hp
    exact absurd hp (by decide)

/-- A word stands at the start of the lower case of a text if it does so in the text, letter by
    letter. -/
theorem prefix_lowerFrom_iff {part : List Char} (h : Word part) (before cs : List Char) :
    part <+: lowerFrom before cs ↔ ∃ run, run <+: cs ∧ List.Forall₂ IsCaseOf part run := by
  induction part generalizing before cs with
  | nil => exact iff_of_true List.nil_prefix ⟨[], List.nil_prefix, .nil⟩
  | cons p part ih =>
    have hp := h.isLower p List.mem_cons_self
    simp only [List.forall₂_cons_left_iff]
    cases cs with
    | nil =>
      refine iff_of_false (by simp [lowerFrom]) ?_
      rintro ⟨run, hrun, c, run', -, -, rfl⟩
      simp at hrun
    | cons c cs =>
      by_cases hc : c = 'İ'
      · -- behind the `i` there is the dot, and the word would go on with a letter
        subst hc
        rw [lowerFrom_dotted]
        refine iff_of_false (fun hprefix => ?_) ?_
        · obtain ⟨hpi, hdot⟩ := List.cons_prefix_cons.1 hprefix
          refine h.tail.not_prefix_dot (fun hnil => h.last ?_) hdot
          rw [hnil, hpi]
          rfl
        · rintro ⟨run, hrun, c, run', hcase, -, rfl⟩
          rw [(List.cons_prefix_cons.1 hrun).1] at hcase
          exact not_isCaseOf_dotted hp hcase
      · obtain ⟨d, hd, hcase⟩ := lowerFrom_cons hc before cs
        rw [hd, List.cons_prefix_cons, ih h.tail, eq_comm, hcase p hp]
        constructor
        · rintro ⟨hpc, run, hrun, hall⟩
          exact ⟨c :: run, List.cons_prefix_cons.2 ⟨rfl, hrun⟩, c, run, hpc, hall, rfl⟩
        · rintro ⟨_, hrun, c', run, hpc, hall, rfl⟩
          obtain ⟨rfl, hrest⟩ := List.cons_prefix_cons.1 hrun
          exact ⟨hpc, run, hrest, hall⟩

/-- A word stands in the lower case of a text if it stands in the text, letter by letter. -/
theorem infix_lowerFrom_iff {part : List Char} (h : Word part) (hne : part ≠ [])
    (before cs : List Char) :
    part <:+: lowerFrom before cs ↔ ∃ run, run <:+: cs ∧ List.Forall₂ IsCaseOf part run := by
  induction cs generalizing before with
  | nil =>
    refine iff_of_false (by simpa [lowerFrom] using hne) ?_
    rintro ⟨run, hrun, hall⟩
    rw [List.infix_nil.1 hrun] at hall
    exact hne (List.forall₂_nil_right_iff.1 hall)
  | cons c cs ih =>
    -- it stands at the start or behind the first character, in the text as in its lower case
    have hsplit : part <:+: lowerFrom before (c :: cs) ↔
        part <+: lowerFrom before (c :: cs) ∨ part <:+: lowerFrom (c :: before) cs := by
      by_cases hc : c = 'İ'
      · rw [hc, lowerFrom_dotted, List.infix_cons_iff, List.infix_cons_iff,
          or_iff_right (h.not_prefix_dot hne)]
      · obtain ⟨d, hd, -⟩ := lowerFrom_cons hc before cs
        rw [hd, List.infix_cons_iff]
    rw [hsplit, prefix_lowerFrom_iff h, ih, ← exists_or]
    simp only [List.infix_cons_iff, or_and_right]

/-! ## Lower case once more -/

/-- Nothing that the table of lower case gives is a capital letter of ASCII or the Kelvin sign. -/
private theorem apart_capitals : (imageRuns lowerRuns lowerSequences).all
    (fun r => r.apart ⟨0x41, 0x5A, 1, 0x61⟩ && r.apart (.single 0x212A)) = true := by
  decide +kernel

/-- What lower-casing gives is no capital letter of ASCII, and not the Kelvin sign. -/
theorem not_capital_of_mem_lowerChar {c d : Char} (h : d ∈ lowerChar c) :
    ¬d.isUpper = true ∧ d ≠ '\u212A' := by
  rw [lowerChar] at h
  split at h
  · rename_i hascii
    have htry : ∀ n < 0x80, ¬(Char.ofNat n).toLower.isUpper = true ∧
        (Char.ofNat n).toLower ≠ '\u212A' := by
      decide
    rw [List.mem_singleton.1 h, ← Char.ofNat_toNat c]
    exact htry _ hascii
  · rename_i hascii
    rcases mem_mapCase h with ⟨hsame, rfl⟩ | ⟨r, hr, n, hmap⟩
    · -- a character that stays is outside ASCII, and the Kelvin sign does not stay
      refine ⟨?_, fun hkelvin => ?_⟩
      · rw [isUpper_iff]
        omega
      · rw [hkelvin] at hsame
        exact absurd hsame (by decide)
    · have hapart := List.all_eq_true.1 apart_capitals r hr
      rw [Bool.and_eq_true] at hapart
      refine ⟨fun hupper => ?_, fun hkelvin => ?_⟩
      · have hnone := CaseRun.map?_eq_none_of_apart hapart.1 hmap
        rw [isUpper_iff] at hupper
        rw [CaseRun.map?_eq_some_iff.2 ⟨hupper.1, hupper.2, Nat.mod_one _, rfl⟩] at hnone
        cases hnone
      · have hnone := CaseRun.map?_eq_none_of_apart hapart.2 hmap
        rw [hkelvin] at hnone
        exact absurd hnone (by decide)

theorem not_capital_of_mem_lowerFrom {d : Char} : ∀ {before cs : List Char},
    d ∈ lowerFrom before cs → ¬d.isUpper = true ∧ d ≠ '\u212A'
  | _, [], h => by cases h
  | before, c :: rest, h => by
    rw [lowerFrom, List.mem_append] at h
    rcases h with h | h
    · split at h
      · rw [List.mem_singleton.1 h]
        split <;> decide
      · exact not_capital_of_mem_lowerChar h
    · exact not_capital_of_mem_lowerFrom h

/-- In lower case a small letter is the only case of it. -/
theorem isCaseOf_iff_of_mem_lowerFrom {p d : Char} {before cs : List Char} (hp : p.isLower = true)
    (hd : d ∈ lowerFrom before cs) : IsCaseOf p d ↔ p = d := by
  obtain ⟨hupper, hkelvin⟩ := not_capital_of_mem_lowerFrom hd
  rw [IsCaseOf, toLower_of_isLower hp, toLower_of_not_isUpper hupper,
    or_iff_left fun h => hkelvin h.2]
  exact eq_comm

/-- A row of cases of letters in lower case is the word itself. -/
theorem forall₂_isCaseOf_iff {part run : List Char} (h : ∀ p ∈ part, p.isLower = true)
    {before cs : List Char} (hrun : ∀ d ∈ run, d ∈ lowerFrom before cs) :
    List.Forall₂ IsCaseOf part run ↔ part = run := by
  induction part generalizing run with
  | nil => rw [List.forall₂_nil_left_iff, eq_comm]
  | cons p part ih =>
    cases run with
    | nil => simp
    | cons d run =>
      obtain ⟨hp, hpart⟩ := List.forall_mem_cons.1 h
      obtain ⟨hd, hrun⟩ := List.forall_mem_cons.1 hrun
      rw [List.forall₂_cons, isCaseOf_iff_of_mem_lowerFrom hp hd, ih hpart hrun, List.cons.injEq]

/-- A word stands in the lower case of a text if it does so when that is lower-cased again. -/
theorem infix_lowerChars_lowerChars_iff {part : List Char} (h : Word part) (hne : part ≠ [])
    (cs : List Char) : part <:+: lowerChars (lowerChars cs) ↔ part <:+: lowerChars cs := by
  rw [lowerChars, infix_lowerFrom_iff h hne]
  constructor
  · rintro ⟨run, hrun, hall⟩
    rw [forall₂_isCaseOf_iff h.isLower fun d hd => hrun.subset hd] at hall
    rw [hall]
    exact hrun
  · intro hpart
    exact ⟨part, hpart, (forall₂_isCaseOf_iff h.isLower fun d hd => hpart.subset hd).2 rfl⟩

/-! ## Changes of case in ASCII -/

theorem isCaseOf_toLower {letter c : Char} : IsCaseOf letter c.toLower ↔ IsCaseOf letter c := by
  by_cases hupper : c.isUpper = true
  · -- neither a capital letter of ASCII nor its small one is the Kelvin sign
    have hrange := isUpper_iff.1 hupper
    have htry : ∀ n < 0x80, Char.ofNat n ≠ '\u212A' ∧ (Char.ofNat n).toLower ≠ '\u212A' := by decide
    obtain ⟨hc, hlower⟩ := htry c.toNat (by omega)
    rw [Char.ofNat_toNat] at hc hlower
    rw [IsCaseOf, IsCaseOf, toLower_toLower, or_iff_left fun h => hlower h.2,
      or_iff_left fun h => hc h.2]
  · rw [toLower_of_not_isUpper hupper]

/-- Words stand in the same places of texts that differ in the case of ASCII letters. -/
theorem exists_infix_map_toLower_iff {part : List Char} (cs : List Char) :
    (∃ run, run <:+: cs.map Char.toLower ∧ List.Forall₂ IsCaseOf part run) ↔
      ∃ run, run <:+: cs ∧ List.Forall₂ IsCaseOf part run := by
  simp only [List.infix_map_iff]
  constructor
  · rintro ⟨_, ⟨run, hrun, rfl⟩, hall⟩
    rw [List.forall₂_map_right_iff] at hall
    exact ⟨run, hrun, hall.imp fun _ _ => isCaseOf_toLower.1⟩
  · rintro ⟨run, hrun, hall⟩
    refine ⟨_, ⟨run, hrun, rfl⟩, ?_⟩
    rw [List.forall₂_map_right_iff]
    exact hall.imp fun _ _ => isCaseOf_toLower.2

end Text

open Text

namespace Visibility

theorem hasPart_iff {part cs : List Char} : hasPart part cs = true ↔ part <:+: cs := by
  induction cs with
  | nil => simp [hasPart]
  | cons c rest ih => rw [hasPart, Bool.or_eq_true, List.isPrefixOf_iff_prefix, ih, List.infix_cons_iff]

/-- The words that hide an operation are of ASCII letters, and none of them ends in `i`. -/
private theorem fragment_letters : ∀ fragment ∈ hiddenFragments,
    (lower fragment).toList = fragment.toList.map Char.toLower ∧ fragment.toList ≠ [] ∧
      (fragment.toList.map Char.toLower).all Char.isLower = true ∧
      (fragment.toList.map Char.toLower).getLast? ≠ some 'i' := by
  decide +kernel

/-- In lower case they are words. -/
theorem fragment_word {fragment : String} (h : fragment ∈ hiddenFragments) :
    Word (lower fragment).toList ∧ (lower fragment).toList ≠ [] := by
  obtain ⟨hlower, hne, hletters, hlast⟩ := fragment_letters fragment h
  rw [hlower]
  exact ⟨⟨List.all_eq_true.1 hletters, hlast⟩, by simpa using hne⟩

/-- A letter has the cases of its lower case. -/
theorem forall₂_lower_fragment {fragment : String} (h : fragment ∈ hiddenFragments)
    {run : List Char} :
    List.Forall₂ IsCaseOf (lower fragment).toList run ↔
      List.Forall₂ IsCaseOf fragment.toList run := by
  have hcase : ∀ letter, IsCaseOf letter.toLower = IsCaseOf letter := by
    intro letter
    funext c
    rw [IsCaseOf, IsCaseOf, toLower_toLower]
  rw [(fragment_letters fragment h).1, List.forall₂_map_left_iff]
  simp only [hcase]

theorem ofName_eq_hidden_iff {name : String} :
    ofName name = .hidden ↔
      ∃ fragment ∈ hiddenFragments, (lower fragment).toList <:+: lowerChars name.toList := by
  rw [ofName, ← toList_lower]
  split <;> simp_all [hasPart_iff]

/-- A hidden name has one of the words in it, letter by letter. -/
theorem hidden_iff_run {name : String} :
    ofName name = .hidden ↔ ∃ fragment ∈ hiddenFragments, ∃ run, run <:+: name.toList ∧
      List.Forall₂ IsCaseOf fragment.toList run := by
  rw [ofName_eq_hidden_iff]
  refine exists_congr fun fragment => and_congr_right fun h => ?_
  obtain ⟨hword, hne⟩ := fragment_word h
  rw [lowerChars, infix_lowerFrom_iff hword hne]
  simp only [forall₂_lower_fragment h]

/-- Two names are hidden or visible together if the one is hidden exactly if the other is. -/
theorem ofName_congr {name name' : String} (h : ofName name = .hidden ↔ ofName name' = .hidden) :
    ofName name = ofName name' := by
  cases hname : ofName name <;> cases hname' : ofName name' <;> simp_all

end Visibility

open Visibility in
/-- A name is hidden exactly if it has a row of characters in it that are, one by one, the letters of one
    of the words, in either case of ASCII or the Kelvin sign for `k`.  So a hidden name stays hidden
    whatever comes before or behind, and neither the case of ASCII letters nor lower-casing the whole
    name matters. -/
theorem hidden_iff_fragment :
    (∀ name, ofName name = .hidden ↔ ∃ fragment ∈ hiddenFragments, ∃ run, run <:+: name.toList ∧
      List.Forall₂ IsCaseOf fragment.toList run) ∧
    (∀ before name after, ofName name = .hidden → ofName (before ++ name ++ after) = .hidden) ∧
    (∀ name name', sameIgnoringCase name name' = true → ofName name = ofName name') ∧
    ∀ name, ofName (lower name) = ofName name := by
  refine ⟨fun name => hidden_iff_run, fun before name after h => ?_, fun name name' h => ?_,
    fun name => ?_⟩
  · obtain ⟨fragment, hfragment, run, hrun, hall⟩ := hidden_iff_run.1 h
    refine hidden_iff_run.2 ⟨fragment, hfragment, run, hrun.trans ?_, hall⟩
    rw [String.toList_append, String.toList_append]
    exact List.infix_append ..
  · have hcase : name.toList.map Char.toLower = name'.toList.map Char.toLower := eq_of_beq h
    apply ofName_congr
    rw [hidden_iff_run, hidden_iff_run]
    simp only [← exists_infix_map_toLower_iff name.toList,
      ← exists_infix_map_toLower_iff name'.toList, hcase]
  · apply ofName_congr
    rw [ofName_eq_hidden_iff, ofName_eq_hidden_iff]
    refine exists_congr fun fragment => and_congr_right fun h => ?_
    obtain ⟨hword, hne⟩ := fragment_word h
    rw [toList_lower name, infix_lowerChars_lowerChars_iff hword hne]

example : Visibility.ofName "BAC\u212AUP" = .hidden ∧ Visibility.ofName "metr\u0130cs" = .visible := by
  decide +kernel

end OperationCatalog
