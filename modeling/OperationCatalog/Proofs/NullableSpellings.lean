import Mathlib.Data.List.Basic
import OperationCatalog.BodyType.Schema

/-!
# Spellings of nullable types

The nullable form of a type is spelled with question marks behind its name, or with the name inside
brackets.  `BodyType.nullableInner` takes such a spelling off layer by layer: the white space around the
whole, what stands before the first opening bracket, the closing brackets, more opening ones, and the
white space around the name.  Each layer ends where the next one begins, whatever the name has inside.

## Key results

- `nullableInner_marked`, `nullableInner_opened`: the two ways that a name is read
- `exists_dropTrailing_closers`: the closing brackets end where the name does
- `nullableInner_spelling`: the name inside a nullable spelling
- `schema_of_nullable_spelling`: the type has the schema of the plain one
-/

namespace OperationCatalog.BodyType

open Text (isBlank Trimmed trimChars dropTrailing)

/-! ## Spellings -/

/-- The spellings of the nullable form of a type with the name `name`. -/
inductive NullableSpelling (name : List Char) : List Char → Prop where
  /-- Question marks behind, or nothing. -/
  | marked (hangle : '<' ∉ name) (hsquare : '[' ∉ name) (hlast : ∀ c ∈ name.getLast?, c ≠ '?')
    (marks : Nat) : NullableSpelling name (name ++ List.replicate marks '?')
  /-- In brackets, with white space around the name and something else before the brackets, such as the
      name of the wrapper.  The closing brackets need not fit the opening ones, and may be missing. -/
  | wrapped (wrapper before after closers : List Char) (opener : Char) (more : Nat)
    (hhead : ∀ c ∈ name.head?, c ≠ '[') (hlast : ∀ c ∈ name.getLast?, c ≠ '>' ∧ c ≠ ']')
    (hangle : '<' ∉ wrapper) (hsquare : '[' ∉ wrapper) (hopener : opener = '<' ∨ opener = '[')
    (hbefore : ∀ c ∈ before, isBlank c = true) (hafter : ∀ c ∈ after, isBlank c = true)
    (hclosers : ∀ c ∈ closers, c = '>' ∨ c = ']') :
    NullableSpelling name
      (wrapper ++ opener :: (List.replicate more '[' ++ (before ++ name ++ after) ++ closers))

/-! ## Reading a spelling -/

/-- In a text without opening brackets no character ends the search for one. -/
theorem not_opens_of_not_mem {cs : List Char} (hangle : '<' ∉ cs) (hsquare : '[' ∉ cs) :
    ∀ c ∈ cs, (c ≠ '<' && c ≠ '[') = true := by
  intro c hc
  have hne : c ≠ '<' := fun heq => hangle (heq ▸ hc)
  have hne' : c ≠ '[' := fun heq => hsquare (heq ▸ hc)
  simp [hne, hne']

/-- A name without brackets is read up to the question marks at its end. -/
theorem nullableInner_marked {name : String} {kept : List Char} {marks : Nat}
    (hname : name.toList = kept ++ List.replicate marks '?') (htrim : Trimmed kept)
    (hangle : '<' ∉ kept) (hsquare : '[' ∉ kept) (hlast : ∀ c ∈ kept.getLast?, c ≠ '?') :
    (nullableInner name).toList = kept := by
  have hmark : ∀ c ∈ List.replicate marks '?', c = '?' := fun c => List.eq_of_mem_replicate
  have htrim' : trimChars (kept ++ List.replicate marks '?') = kept ++ List.replicate marks '?' := by
    have hblank : ∀ c ∈ List.replicate marks '?', isBlank c = false := by
      intro c hc
      rw [hmark c hc]
      decide
    refine Trimmed.trimChars_eq ⟨fun c hc => ?_, fun c hc => ?_⟩
    · exact (Text.mem_head?_append hc).elim (htrim.1 c) fun h => hblank c (List.mem_of_mem_head? h)
    · exact (Text.mem_getLast?_append hc).elim (htrim.2 c) fun h => hblank c (List.mem_of_getLast? h)
  have hopen : (kept ++ List.replicate marks '?').dropWhile (fun c => c ≠ '<' && c ≠ '[') = [] := by
    refine Text.dropWhile_eq_iff.2 ⟨⟨_, (List.append_nil _).symm, fun c hc => ?_⟩, by simp⟩
    rcases List.mem_append.1 hc with hc | hc
    · exact not_opens_of_not_mem hangle hsquare c hc
    · rw [hmark c hc]
      decide
  have hkept : dropTrailing (· = '?') (kept ++ List.replicate marks '?') = kept :=
    Text.dropTrailing_eq_iff.2 ⟨⟨_, rfl, by simp⟩, by simpa using hlast⟩
  simp only [nullableInner, hname, htrim', hopen, String.toList_ofList, hkept]

/-- A name with a bracket is read from there on. -/
theorem nullableInner_opened {name : String} {wrapper inner : List Char} {opener : Char}
    (hname : name.toList = wrapper ++ opener :: inner) (hangle : '<' ∉ wrapper)
    (hsquare : '[' ∉ wrapper) (hopener : opener = '<' ∨ opener = '[') :
    (nullableInner name).toList = trimChars
      ((dropTrailing (fun c => c = '>' || c = ']') (dropTrailing isBlank inner)).dropWhile
        (· = '[')) := by
  have hblank : isBlank opener = false := by
    rcases hopener with rfl | rfl <;> decide
  -- the white space that is taken off first does not reach the bracket from either side
  have htrim : trimChars (wrapper ++ opener :: inner) =
      wrapper.dropWhile isBlank ++ opener :: dropTrailing isBlank inner := by
    rw [trimChars, Text.dropWhile_append_cons hblank, Text.dropTrailing_append_cons hblank]
  have hopen : (wrapper.dropWhile isBlank ++ opener :: dropTrailing isBlank inner).dropWhile
      (fun c => c ≠ '<' && c ≠ '[') = opener :: dropTrailing isBlank inner := by
    refine Text.dropWhile_eq_iff.2 ⟨⟨_, rfl, fun c hc => ?_⟩, fun c hc => ?_⟩
    · exact not_opens_of_not_mem hangle hsquare c ((List.dropWhile_suffix isBlank).subset hc)
    · cases hc
      rcases hopener with rfl | rfl <;> decide
  simp only [nullableInner, hname, htrim, hopen, String.toList_ofList]

/-- White space is different from any character that is not. -/
theorem ne_of_isBlank {c d : Char} (hc : isBlank c = true) (hd : isBlank d = false) : c ≠ d := by
  rintro rfl
  rw [hd] at hc
  cases hc

/-- A name in white space begins with white space or as the name does. -/
theorem head?_in_blanks {name left right : List Char} (hleft : ∀ c ∈ left, isBlank c = true)
    (hright : ∀ c ∈ right, isBlank c = true) :
    ∀ c ∈ (left ++ name ++ right).head?, isBlank c = true ∨ c ∈ name.head? := by
  intro c hc
  rcases Text.mem_head?_append hc with hc | hc
  · exact (Text.mem_head?_append hc).imp_left fun h => hleft c (List.mem_of_mem_head? h)
  · exact .inl (hright c (List.mem_of_mem_head? hc))

/-- It ends with white space or as the name does. -/
theorem getLast?_in_blanks {name left right : List Char} (hleft : ∀ c ∈ left, isBlank c = true)
    (hright : ∀ c ∈ right, isBlank c = true) :
    ∀ c ∈ (left ++ name ++ right).getLast?, isBlank c = true ∨ c ∈ name.getLast? := by
  intro c hc
  rcases Text.mem_getLast?_append hc with hc | hc
  · exact (Text.mem_getLast?_append hc).imp_left fun h => hleft c (List.mem_of_getLast? h)
  · exact .inl (hright c (List.mem_of_getLast? hc))

section Wrapped

variable {name before after closers : List Char} (htrim : Trimmed name)
  (hlast : ∀ c ∈ name.getLast?, c ≠ '>' ∧ c ≠ ']') (hbefore : ∀ c ∈ before, isBlank c = true)
  (hafter : ∀ c ∈ after, isBlank c = true)

include hlast hbefore hafter in
/-- The closing brackets behind a name in white space are all that is taken off its end. -/
theorem dropTrailing_closers (hclosers : ∀ c ∈ closers, c = '>' ∨ c = ']') (more : Nat) :
    dropTrailing (fun c => c = '>' || c = ']')
      (List.replicate more '[' ++ (before ++ name ++ after) ++ closers) =
        List.replicate more '[' ++ (before ++ name ++ after) := by
  refine Text.dropTrailing_eq_iff.2 ⟨⟨closers, rfl, by simpa using hclosers⟩, fun c hc => ?_⟩
  rcases Text.mem_getLast?_append hc with hc | hc
  · rw [List.eq_of_mem_replicate (List.mem_of_getLast? hc)]
    decide
  · rcases getLast?_in_blanks hbefore hafter c hc with hblank | hc
    · have hne : c ≠ '>' := ne_of_isBlank hblank (by decide)
      have hne' : c ≠ ']' := ne_of_isBlank hblank (by decide)
      simp [hne, hne']
    · simpa using hlast c hc

include htrim hbefore hafter in
/-- Without closing brackets the white space behind the name is gone before they are looked for, and if
    the name is empty, so is that before it. -/
theorem dropTrailing_isBlank_unclosed (more : Nat) :
    dropTrailing isBlank (List.replicate more '[' ++ (before ++ name ++ after)) =
      List.replicate more '[' ++ ((if name = [] then [] else before) ++ name ++ []) := by
  have hsquare : ∀ c ∈ (List.replicate more '[').getLast?, isBlank c = false := by
    intro c hc
    rw [List.eq_of_mem_replicate (List.mem_of_getLast? hc)]
    decide
  split
  · rename_i hempty
    refine Text.dropTrailing_eq_iff.2 ⟨⟨before ++ after, by simp [hempty], fun c hc => ?_⟩, ?_⟩
    · exact (List.mem_append.1 hc).elim (hbefore c) (hafter c)
    · simpa [hempty] using hsquare
  · rename_i hne
    refine Text.dropTrailing_eq_iff.2 ⟨⟨after, by simp, hafter⟩, fun c hc => ?_⟩
    rw [List.append_nil, ← List.append_assoc, List.getLast?_append_of_ne_nil _ hne] at hc
    exact htrim.2 c hc

include htrim hlast hbefore hafter in
/-- Either way a name in white space is left, with opening brackets before it. -/
theorem exists_dropTrailing_closers (hclosers : ∀ c ∈ closers, c = '>' ∨ c = ']') (more : Nat) :
    ∃ left right, (∀ c ∈ left, isBlank c = true) ∧ (∀ c ∈ right, isBlank c = true) ∧
      dropTrailing (fun c => c = '>' || c = ']') (dropTrailing isBlank
        (List.replicate more '[' ++ (before ++ name ++ after) ++ closers)) =
      List.replicate more '[' ++ (left ++ name ++ right) := by
  by_cases hnil : closers = []
  · have hleft : ∀ c ∈ (if name = [] then [] else before), isBlank c = true := by
      intro c hc
      split at hc
      · cases hc
      · exact hbefore c hc
    refine ⟨_, [], hleft, by simp, ?_⟩
    rw [hnil, List.append_nil, dropTrailing_isBlank_unclosed htrim hbefore hafter]
    have hrest : dropTrailing (fun c => c = '>' || c = ']')
        (List.replicate more '[' ++ (_ ++ name ++ []) ++ []) = _ :=
      dropTrailing_closers hlast hleft (by simp) (by simp) more
    rwa [List.append_nil] at hrest
  · -- the text ends with a closing bracket, so no white space is taken off before
    have hend : dropTrailing isBlank
        (List.replicate more '[' ++ (before ++ name ++ after) ++ closers) =
          List.replicate more '[' ++ (before ++ name ++ after) ++ closers := by
      refine Text.dropTrailing_of_getLast? fun c hc => ?_
      rw [List.getLast?_append_of_ne_nil _ hnil] at hc
      rcases hclosers c (List.mem_of_getLast? hc) with rfl | rfl <;> decide
    exact ⟨before, after, hbefore, hafter, by
      rw [hend, dropTrailing_closers hlast hbefore hafter hclosers]⟩

end Wrapped

/-- The name inside a nullable spelling of it. -/
theorem nullableInner_spelling {name : String} {plain : List Char} (htrim : Trimmed plain)
    (h : NullableSpelling plain name.toList) : (nullableInner name).toList = plain := by
  generalize hname : name.toList = cs at h
  cases h with
  | marked hangle hsquare hlast marks => exact nullableInner_marked hname htrim hangle hsquare hlast
  | wrapped _ _ _ _ _ more hhead hlast hangle hsquare hopener hbefore hafter hclosers =>
    obtain ⟨left, right, hleft, hright, hclosed⟩ :=
      exists_dropTrailing_closers htrim hlast hbefore hafter hclosers more
    have hopened : (List.replicate more '[' ++ (left ++ plain ++ right)).dropWhile (· = '[') =
        left ++ plain ++ right := by
      refine Text.dropWhile_eq_iff.2 ⟨⟨_, rfl, by simp⟩, fun c hc => decide_eq_false ?_⟩
      rcases head?_in_blanks hleft hright c hc with hblank | hc
      · exact ne_of_isBlank hblank (by decide)
      · exact hhead c hc
    rw [nullableInner_opened hname hangle hsquare hopener, hclosed, hopened]
    exact Text.trimChars_eq_iff.2 ⟨⟨left, right, rfl, hleft, hright⟩, htrim⟩

/-- A nullable primitive type, in whatever way its name is spelled, has the schema of the plain one. -/
theorem schema_of_nullable_spelling {name plain : String} (htrim : Trimmed plain.toList)
    (h : NullableSpelling plain.toList name.toList) :
    (primitive name true).schema = (primitive plain false).schema := by
  have hinner : nullableInner name = plain := String.toList_inj.1 (nullableInner_spelling htrim h)
  rw [schema, schema, leafSchema, leafSchema, hinner]
  rfl

/-- A name with brackets and white space inside, in brackets that do not fit, a name without closing
    brackets, and a name with question marks behind. -/
theorem schema_of_nullable_spelling_sample :
    ((primitive " System.Nullable\x601[[ Map<Key, Item>s\t]>" true).schema =
        (primitive "Map<Key, Item>s" false).schema ∧
      (primitive "Nullable<DateTime " true).schema = (primitive "DateTime" false).schema) ∧
    (primitive "Int64??" true).schema = (primitive "Int64" false).schema := by
  have hwrapped : NullableSpelling "Map<Key, Item>s".toList
      " System.Nullable\x601[[ Map<Key, Item>s\t]>".toList :=
    .wrapped " System.Nullable\x601".toList [' '] ['\t'] [']', '>'] '[' 1 (by simp) (by simp)
      (by decide) (by decide) (.inr rfl) (List.all_eq_true.1 rfl) (List.all_eq_true.1 rfl) (by simp)
  have hopen : NullableSpelling "DateTime".toList "Nullable<DateTime ".toList :=
    .wrapped "Nullable".toList [] [' '] [] '<' 0 (by simp) (by simp) (by decide) (by decide) (.inl rfl)
      (by simp) (List.all_eq_true.1 rfl) (by simp)
  have hmarked : NullableSpelling "Int64".toList "Int64??".toList :=
    .marked (by decide) (by decide) (by simp) 2
  refine ⟨⟨schema_of_nullable_spelling ?_ hwrapped, schema_of_nullable_spelling ?_ hopen⟩,
    schema_of_nullable_spelling ?_ hmarked⟩ <;>
    exact ⟨by simp; decide, by simp; decide⟩

end OperationCatalog.BodyType
