import Mathlib.Data.List.Basic
import OperationCatalog.Text.Case
import OperationCatalog.Text.Trim

/-!
# What the case mappings give

A case table maps runs of code points to runs of code points.  One run is *apart* from another if
nothing that it gives stands in the other one, which two comparisons or the parity of the two show.
So a fact about all characters is a check of pairs of runs: what upper-casing gives is in upper case
already, and neither white space nor a bracket comes out of another character.

## Key results

- `CaseRun.map?_eq_none_of_apart`: what a run gives does not stand in a run that it is apart from
- `upperChar_of_mem`: what upper-casing gives is in upper case
- `isBlank_of_mem_upperChar`: white space comes out of white space only
- `eq_of_mem_lowerChar`: a bracket, and any other mark of ASCII, comes out of itself only
- `trimChars_upperChars`: trimming and upper-casing may change places
- `upper_trim_upper`: trimmed and in upper case, a text stays as it is
-/

namespace OperationCatalog.Text

/-! ## Runs that are apart -/

namespace CaseRun

/-- The run of one code point, which maps to itself. -/
def single (n : Nat) : CaseRun := ⟨n, n, 1, n⟩

/-- Whether the code points of a run are all even or all odd. -/
def sameParity (r : CaseRun) : Bool := r.first.beq r.last || r.stride.beq 2

/-- Whether nothing that the run gives stands in `s`: all of it comes before, all of it comes behind, or
    one has the even code points only and the other the odd ones. -/
def apart (r s : CaseRun) : Bool :=
  (r.target + (r.last - r.first)).blt s.first || s.last.blt r.target ||
    (r.sameParity && s.sameParity && r.target % 2 != s.first % 2)

theorem map?_eq_some_iff {r : CaseRun} {n m : Nat} :
    r.map? n = some m ↔
      r.first ≤ n ∧ n ≤ r.last ∧ (n - r.first) % r.stride = 0 ∧ m = r.target + (n - r.first) := by
  rw [map?]
  split
  · simp_all [eq_comm]
  · simp_all

/-- What a run gives does not stand in a run that it is apart from. -/
theorem map?_eq_none_of_apart {r s : CaseRun} (h : r.apart s = true) {n m : Nat}
    (hm : r.map? n = some m) : s.map? m = none := by
  obtain ⟨hfirst, hlast, hstride, rfl⟩ := map?_eq_some_iff.1 hm
  simp only [apart, sameParity, Bool.or_eq_true, Bool.and_eq_true, Nat.blt_eq, Nat.beq_eq,
    bne_iff_ne] at h
  rw [Option.eq_none_iff_forall_ne_some]
  intro k hk
  obtain ⟨hfirst', hlast', hstride', -⟩ := map?_eq_some_iff.1 hk
  rcases h with (h | h) | ⟨⟨hr, hs⟩, hparity⟩
  · omega
  · omega
  · -- both code points have the parity of the first one of their run
    rcases hr with hr | hr <;> rcases hs with hs | hs
    · omega
    · rw [hs] at hstride'
      omega
    · rw [hr] at hstride
      omega
    · rw [hr] at hstride
      rw [hs] at hstride'
      omega

/-- A run that maps a code point to itself holds just this one. -/
theorem map?_single (n : Nat) : (single n).map? n = some n := by
  simp [map?, single]

end CaseRun

/-- A set of characters as runs that map to themselves. -/
def CodeRanges.runs (ranges : CodeRanges) : List CaseRun := ranges.map fun r => ⟨r.1, r.2, 1, r.1⟩

/-- A character in one of the ranges has its code point in a run, which maps it to itself. -/
theorem CodeRanges.exists_of_holds {ranges : CodeRanges} {c : Char} (h : ranges.holds c = true) :
    ∃ r ∈ ranges.runs, r.map? c.toNat = some c.toNat := by
  obtain ⟨r, hr, hheld⟩ := List.any_eq_true.1 h
  simp only [Bool.and_eq_true, decide_eq_true_eq] at hheld
  refine ⟨⟨r.1, r.2, 1, r.1⟩, List.mem_map_of_mem hr, ?_⟩
  have htarget := (Nat.add_sub_cancel' hheld.1).symm
  exact CaseRun.map?_eq_some_iff.2 ⟨hheld.1, hheld.2, Nat.mod_one _, htarget⟩

/-- A character whose code point is in none of the runs is in none of the ranges. -/
theorem CodeRanges.holds_eq_false {ranges : CodeRanges} {c : Char}
    (h : ∀ s ∈ ranges.runs, s.map? c.toNat = none) : ranges.holds c = false := by
  rw [Bool.eq_false_iff]
  intro hheld
  obtain ⟨r, hr, hmap⟩ := exists_of_holds hheld
  rw [h r hr] at hmap
  cases hmap

/-! ## Blocks of runs -/

/-- Some runs with bounds for what they hold, so that a run which gives nothing within the bounds need
    not be compared with each of them. -/
structure Block where
  low : Nat
  high : Nat
  runs : List CaseRun

namespace Block

/-- The block of some runs. -/
def of (runs : List CaseRun) : Block where
  low := runs.foldr (fun s n => min s.first n) 0x110000
  high := runs.foldr (fun s n => max s.last n) 0
  runs := runs

/-- Runs in blocks of sixteen, at most `count` of them. -/
def split : Nat → List CaseRun → List Block
  | 0, _ => []
  | count + 1, runs => of (runs.take 16) :: split count (runs.drop 16)

/-- Whether a run is apart from all runs of a block. -/
def isApart (r : CaseRun) (b : Block) : Bool :=
  (r.target + (r.last - r.first)).blt b.low || b.high.blt r.target || b.runs.all r.apart

theorem bounds_of {runs : List CaseRun} {s : CaseRun} (h : s ∈ runs) :
    (of runs).low ≤ s.first ∧ s.last ≤ (of runs).high := by
  induction runs with
  | nil => cases h
  | cons r rest ih =>
    simp only [of, List.foldr_cons] at ih ⊢
    rcases List.mem_cons.1 h with rfl | h
    · omega
    · have := ih h
      omega

theorem apart_of_isApart {r s : CaseRun} {runs : List CaseRun} (h : isApart r (of runs) = true)
    (hs : s ∈ runs) : r.apart s = true := by
  have hbounds := bounds_of hs
  simp only [isApart, Bool.or_eq_true, Nat.blt_eq] at h
  rcases h with (h | h) | h
  · simp only [CaseRun.apart, Bool.or_eq_true, Nat.blt_eq]
    omega
  · simp only [CaseRun.apart, Bool.or_eq_true, Nat.blt_eq]
    omega
  · exact List.all_eq_true.1 h s hs

/-- A run that is apart from all blocks is apart from all runs, if there are blocks enough. -/
theorem apart_of_all {r s : CaseRun} {count : Nat} {runs : List CaseRun}
    (h : (split count runs).all (isApart r) = true) (hcount : runs.length ≤ 16 * count)
    (hs : s ∈ runs) : r.apart s = true := by
  induction count generalizing runs with
  | zero =>
    rw [List.length_eq_zero_iff.1 (Nat.le_zero.1 hcount)] at hs
    cases hs
  | succ count ih =>
    rw [split, List.all_cons, Bool.and_eq_true] at h
    rw [← List.take_append_drop 16 runs, List.mem_append] at hs
    rcases hs with hs | hs
    · exact apart_of_isApart h.1 hs
    · exact ih h.2 (by rw [List.length_drop]; omega) hs

end Block

/-! ## The two tables -/

/-- The character of a number has that number, or is the null character. -/
theorem toNat_ofNat_eq_or (n : Nat) : (Char.ofNat n).toNat = n ∨ (Char.ofNat n).toNat = 0 := by
  by_cases h : n.isValidChar
  · have hn : Char.ofNat n = Char.ofNatAux n h := dif_pos h
    exact .inl (hn ▸ rfl)
  · have hn : Char.ofNat n = Char.ofNat 0 := dif_neg h
    exact .inr (hn ▸ rfl)

/-- What a table gives, as runs.  The null character is what is made of a number that is no code
    point. -/
def imageRuns (runs : List CaseRun) (sequences : List (Nat × List Nat)) : List CaseRun :=
  .single 0 :: runs ++ (sequences.flatMap (·.2)).eraseDups.map .single

/-- What is made of a number that a table gives stands in a run of the table. -/
theorem toNat_ofNat_of_image {runs : List CaseRun} {sequences : List (Nat × List Nat)} {m : Nat}
    (h : ∃ r ∈ imageRuns runs sequences, ∃ n, r.map? n = some m) :
    ∃ r ∈ imageRuns runs sequences, ∃ n, r.map? n = some (Char.ofNat m).toNat := by
  rcases toNat_ofNat_eq_or m with hm | hm <;> rw [hm]
  · exact h
  · exact ⟨.single 0, by simp [imageRuns], 0, CaseRun.map?_single 0⟩

/-- What a table gives for a character stands in one of its runs, unless it leaves the character as it
    is. -/
theorem mem_mapCase {runs : List CaseRun} {sequences : List (Nat × List Nat)} {c d : Char}
    (h : d ∈ mapCase runs sequences c) :
    mapCase runs sequences c = [c] ∧ d = c ∨
      ∃ r ∈ imageRuns runs sequences, ∃ n, r.map? n = some d.toNat := by
  rw [mapCase] at h ⊢
  split at h
  · -- a run
    rename_i m hm
    obtain ⟨r, hr, hmap⟩ := List.exists_of_findSome?_eq_some hm
    rw [List.mem_singleton.1 h]
    exact .inr (toNat_ofNat_of_image ⟨r, by simp [imageRuns, hr], c.toNat, hmap⟩)
  · split at h
    · -- a sequence
      rename_i ns hns
      obtain ⟨m, hm, rfl⟩ := List.mem_map.1 h
      obtain ⟨before, after, hsequences, -⟩ := List.lookup_eq_some_iff.1 hns
      have hmem : m ∈ (sequences.flatMap (·.2)).eraseDups := by
        rw [List.mem_eraseDups, List.mem_flatMap]
        exact ⟨(c.toNat, ns), by simp [hsequences], hm⟩
      exact .inr (toNat_ofNat_of_image
        ⟨.single m, List.mem_append_right _ (List.mem_map_of_mem hmem), m, CaseRun.map?_single m⟩)
    · exact .inl ⟨rfl, List.mem_singleton.1 h⟩

/-- A table without empty texts maps no character to nothing. -/
theorem mapCase_ne_nil {runs : List CaseRun} {sequences : List (Nat × List Nat)} {c : Char}
    (h : ∀ p ∈ sequences, p.2 ≠ []) : mapCase runs sequences c ≠ [] := by
  rw [mapCase]
  split
  · exact List.cons_ne_nil _ _
  · split
    · rename_i ns hns
      obtain ⟨before, after, heq, -⟩ := List.lookup_eq_some_iff.1 hns
      rw [Ne, List.map_eq_nil_iff]
      exact h (c.toNat, ns) (by simp [heq])
    · exact List.cons_ne_nil _ _

/-! ## Upper case -/

/-- The code points that upper-casing changes, as runs. -/
def upperSources : List CaseRun :=
  ⟨0x61, 0x7A, 1, 0x41⟩ :: upperRuns ++ upperSequences.map (.single ·.1)

private theorem all_isApart_upperSources : (imageRuns upperRuns upperSequences).all
    (fun r => (Block.split 20 (upperSources ++ blankRanges.runs)).all (Block.isApart r)) = true := by
  decide +kernel

/-- Nothing that the table of upper case gives is changed by upper-casing, or is white space. -/
theorem apart_upperSources {r s : CaseRun} (hr : r ∈ imageRuns upperRuns upperSequences)
    (hs : s ∈ upperSources ++ blankRanges.runs) : r.apart s = true :=
  Block.apart_of_all (List.all_eq_true.1 all_isApart_upperSources r hr) (by decide +kernel) hs

/-- Outside the run of the small letters of ASCII, the rule for ASCII changes nothing. -/
theorem toUpper_of_map? {c : Char} (h : (⟨0x61, 0x7A, 1, 0x41⟩ : CaseRun).map? c.toNat = none) :
    c.toUpper = c := by
  refine dif_neg fun hlower => ?_
  have hfirst : 0x61 ≤ c.toNat := UInt32.le_iff_toNat_le.1 hlower.1
  have hlast : c.toNat ≤ 0x7A := UInt32.le_iff_toNat_le.1 hlower.2
  rw [CaseRun.map?_eq_some_iff.2 ⟨hfirst, hlast, Nat.mod_one _, rfl⟩] at h
  cases h

/-- A character that stands in no run of the sources is in upper case. -/
theorem upperChar_of_sources {c : Char} (h : ∀ s ∈ upperSources, s.map? c.toNat = none) :
    upperChar c = [c] := by
  have hascii : (⟨0x61, 0x7A, 1, 0x41⟩ : CaseRun).map? c.toNat = none := h _ (by simp [upperSources])
  have hruns : ∀ s ∈ upperRuns, s.map? c.toNat = none := by
    intro s hs
    exact h s (by simp [upperSources, hs])
  have hsequences : ∀ p ∈ upperSequences, c.toNat ≠ p.1 := by
    intro p hp heq
    have hnone := h (.single p.1) (List.mem_append_right _ (List.mem_map_of_mem hp))
    rw [heq, CaseRun.map?_single] at hnone
    cases hnone
  rw [upperChar]
  split
  · rw [toUpper_of_map? hascii]
  · have hlookup : upperSequences.lookup c.toNat = none := by
      rw [List.lookup_eq_none_iff]
      intro p hp
      simpa using hsequences p hp
    rw [mapCase, List.findSome?_eq_none_iff.2 hruns, hlookup]

/-- A character comes out of upper-casing another one in three ways: by the rule for ASCII, unchanged,
    or out of the table, and then it is in none of the runs that matter. -/
theorem upperChar_cases {c d : Char} (h : d ∈ upperChar c) :
    (c.toNat < 0x80 ∧ d = c.toUpper) ∨ (upperChar c = [c] ∧ d = c) ∨
      ∀ s ∈ upperSources ++ blankRanges.runs, s.map? d.toNat = none := by
  rw [upperChar] at h ⊢
  split at h
  · rename_i hascii
    exact .inl ⟨hascii, List.mem_singleton.1 h⟩
  · rename_i hascii
    rw [if_neg hascii]
    rcases mem_mapCase h with hsame | ⟨r, hr, n, hmap⟩
    · exact .inr (.inl hsame)
    · refine .inr (.inr fun s hs => ?_)
      exact CaseRun.map?_eq_none_of_apart (apart_upperSources hr hs) hmap

/-- What upper-casing gives is in upper case. -/
theorem upperChar_of_mem {c d : Char} (h : d ∈ upperChar c) : upperChar d = [d] := by
  rcases upperChar_cases h with ⟨hascii, rfl⟩ | ⟨hsame, rfl⟩ | hruns
  · have htry : ∀ n < 0x80, upperChar (Char.ofNat n).toUpper = [(Char.ofNat n).toUpper] := by decide
    rw [← Char.ofNat_toNat c]
    exact htry _ hascii
  · exact hsame
  · exact upperChar_of_sources fun s hs => hruns s (List.mem_append_left _ hs)

/-- White space comes out of white space only. -/
theorem isBlank_of_mem_upperChar {c d : Char} (h : d ∈ upperChar c) (hd : isBlank d = true) :
    isBlank c = true := by
  rcases upperChar_cases h with ⟨hascii, rfl⟩ | ⟨-, rfl⟩ | hruns
  · have htry : ∀ n < 0x80, isBlank (Char.ofNat n).toUpper = true → isBlank (Char.ofNat n) = true := by
      decide
    rw [← Char.ofNat_toNat c] at hd ⊢
    exact htry _ hascii hd
  · exact hd
  · have hnone := CodeRanges.holds_eq_false fun s hs => hruns s (List.mem_append_right _ hs)
    rw [isBlank, hnone] at hd
    cases hd

theorem upperChar_ne_nil (c : Char) : upperChar c ≠ [] := by
  have hsequences : ∀ p ∈ upperSequences, p.2 ≠ [] := by decide
  rw [upperChar]
  split
  · exact List.cons_ne_nil _ _
  · exact mapCase_ne_nil hsequences

/-- A text whose characters are all in upper case is in upper case. -/
theorem upperChars_eq_self {cs : List Char} (h : ∀ c ∈ cs, upperChar c = [c]) : upperChars cs = cs := by
  induction cs with
  | nil => rfl
  | cons c rest ih =>
    rw [upperChars, List.flatMap_cons, h c List.mem_cons_self]
    exact congrArg (c :: ·) (ih fun d hd => h d (List.mem_cons_of_mem c hd))

theorem upperChars_upperChars (cs : List Char) : upperChars (upperChars cs) = upperChars cs := by
  apply upperChars_eq_self
  intro d hd
  obtain ⟨c, -, hc⟩ := List.mem_flatMap.1 hd
  exact upperChar_of_mem hc

/-- Upper-casing brings no white space to the ends of a text: each end comes from a character that was
    there before. -/
theorem Trimmed.upperChars {cs : List Char} (h : Trimmed cs) : Trimmed (upperChars cs) := by
  have hblank : ∀ {c d : Char}, d ∈ upperChar c → isBlank c = false → isBlank d = false := by
    intro c d hd hc
    rw [← Bool.not_eq_true] at hc ⊢
    exact fun hblank => hc (isBlank_of_mem_upperChar hd hblank)
  constructor
  · intro d hd
    cases cs with
    | nil => cases hd
    | cons c rest =>
      rw [Text.upperChars, List.flatMap_cons, List.head?_append_of_ne_nil _ (upperChar_ne_nil c)] at hd
      exact hblank (List.mem_of_mem_head? hd) (h.1 c rfl)
  · intro d hd
    cases hlast : cs.getLast? with
    | none =>
      rw [List.getLast?_eq_none_iff.1 hlast] at hd
      cases hd
    | some c =>
      obtain ⟨before, rfl⟩ := List.getLast?_eq_some_iff.1 hlast
      rw [Text.upperChars, List.flatMap_append, List.flatMap_singleton,
        List.getLast?_append_of_ne_nil _ (upperChar_ne_nil c)] at hd
      exact hblank (List.mem_of_mem_getLast? hd) (h.2 c hlast)

/-- No white space is changed by upper-casing. -/
private theorem apart_blanks :
    blankRanges.runs.all (fun r => upperSources.all r.apart) = true := by
  decide +kernel

theorem upperChar_of_isBlank {c : Char} (h : isBlank c = true) : upperChar c = [c] := by
  obtain ⟨r, hr, hmap⟩ := CodeRanges.exists_of_holds h
  refine upperChar_of_sources fun s hs => ?_
  have hapart := List.all_eq_true.1 (List.all_eq_true.1 apart_blanks r hr) s hs
  exact CaseRun.map?_eq_none_of_apart hapart hmap

/-- It does not matter whether white space is taken off before upper-casing or after it. -/
theorem trimChars_upperChars (cs : List Char) :
    trimChars (upperChars cs) = upperChars (trimChars cs) := by
  have hsame : ∀ {ds : List Char}, (∀ d ∈ ds, isBlank d = true) → upperChars ds = ds :=
    fun hds => upperChars_eq_self fun d hd => upperChar_of_isBlank (hds d hd)
  obtain ⟨⟨front, back, hcs, hfront, hback⟩, htrimmed⟩ :=
    trimChars_eq_iff.1 (rfl : trimChars cs = _)
  refine trimChars_eq_iff.2 ⟨⟨front, back, ?_, hfront, hback⟩, htrimmed.upperChars⟩
  conv => lhs; rw [hcs]
  simp only [upperChars, List.flatMap_append]
  exact congrArg₂ (· ++ upperChars (trimChars cs) ++ ·) (hsame hfront) (hsame hback)

@[simp] theorem toList_upper (s : String) : (upper s).toList = upperChars s.toList := by
  simp [upper]

/-- Trimmed and in upper case, a text stays as it is when that is done again. -/
theorem upper_trim_upper (s : String) : upper (trim (upper (trim s))) = upper (trim s) := by
  have htrim := (trimmed_trimChars s.toList).upperChars.trimChars_eq
  rw [← String.toList_inj]
  simp only [toList_upper, toList_trim, htrim, upperChars_upperChars]

/-- Nor does it matter whether a text was in upper case before. -/
theorem upper_trim_of_upper (s : String) : upper (trim (upper s)) = upper (trim s) := by
  rw [← String.toList_inj]
  simp only [toList_upper, toList_trim, trimChars_upperChars, upperChars_upperChars]

/-! ## Lower case -/

theorem lowerChar_ne_nil (c : Char) : lowerChar c ≠ [] := by
  have hsequences : ∀ p ∈ lowerSequences, p.2 ≠ [] := by decide
  rw [lowerChar]
  split
  · exact List.cons_ne_nil _ _
  · exact mapCase_ne_nil hsequences

/-- The characters of ASCII that are not letters, without the null character. -/
def markRanges : CodeRanges := [(0x01, 0x40), (0x5B, 0x60), (0x7B, 0x7F)]

/-- Nothing that the table of lower case gives is such a character. -/
private theorem apart_marks : (imageRuns lowerRuns lowerSequences).all
    (fun r => markRanges.runs.all r.apart) = true := by
  decide +kernel

/-- A bracket, a brace, a dot and the like come out of lower-casing themselves only. -/
theorem eq_of_mem_lowerChar {c d : Char} (h : d ∈ lowerChar c) (hd : markRanges.holds d = true) :
    c = d := by
  rw [lowerChar] at h
  split at h
  · rename_i hascii
    have htry : ∀ n < 0x80, markRanges.holds (Char.ofNat n).toLower = true →
        Char.ofNat n = (Char.ofNat n).toLower := by
      decide
    obtain rfl := List.mem_singleton.1 h
    rw [← Char.ofNat_toNat c] at hd ⊢
    exact htry _ hascii hd
  · rcases mem_mapCase h with ⟨-, heq⟩ | ⟨r, hr, n, hmap⟩
    · exact heq.symm
    · -- what comes out of the table is none of them
      have hapart := List.all_eq_true.1 (List.all_eq_true.1 apart_marks r hr)
      rw [CodeRanges.holds_eq_false fun s hs => CaseRun.map?_eq_none_of_apart (hapart s hs) hmap] at hd
      cases hd

end OperationCatalog.Text
