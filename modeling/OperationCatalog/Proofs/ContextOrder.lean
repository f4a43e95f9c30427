import Mathlib.Data.List.Induction
import Mathlib.Data.List.Nodup
import Mathlib.Data.String.Basic
import OperationCatalog.Context.Document
import OperationCatalog.Proofs.NamedEntries

/-!
# Contexts as ordered maps

A context is what is left of a row of insertions: each name has the property that was inserted last, and
the names stand in strictly ascending order of their code points.  These two facts fix a context, so it
does not matter in which order different names are inserted, and a context that is written and read again
is the same.

## Key results

- `Context.Ascending.insert`, `Context.find?_insert`: what one insertion does
- `Context.ascending_ofEntries`, `Context.find?_ofEntries`: what a row of them does
- `Context.Ascending.ext`: a context is determined by its properties
- `Context.ofEntries_perm`: different names may be inserted in any order
- `Property.ordered_of_ofValue?`: what a document denotes is in order at every level
- `Property.ofValue?_toValue`: a property in order is denoted by the value that is written for it
-/

namespace OperationCatalog

namespace Context

/-! ## Insertions -/

/-- Whether the names are in strictly ascending order. -/
def Ascending (context : Context) : Prop := context.Pairwise (·.1 < ·.1)

variable {context context' : Context} {name : String} {property : Property}

theorem mem_of_mem_insert {entry : String × Property} (h : entry ∈ insert name property context) :
    entry = (name, property) ∨ entry ∈ context := by
  induction context with
  | nil => exact .inl (List.mem_singleton.1 h)
  | cons first rest ih =>
    obtain ⟨k, p⟩ := first
    rw [insert] at h
    split at h
    · exact (List.mem_cons.1 h).imp_right (List.mem_cons_of_mem _)
    · split at h
      · exact List.mem_cons.1 h
      · rcases List.mem_cons.1 h with rfl | h
        · exact .inr List.mem_cons_self
        · exact (ih h).imp_right (List.mem_cons_of_mem _)

theorem Ascending.insert (h : Ascending context) : Ascending (insert name property context) := by
  induction context with
  | nil => exact List.pairwise_singleton _ _
  | cons first rest ih =>
    obtain ⟨k, p⟩ := first
    obtain ⟨hfirst, hrest⟩ := List.pairwise_cons.1 h
    rw [Context.insert]
    split
    · rename_i heq
      exact List.pairwise_cons.2 ⟨fun e he => heq ▸ hfirst e he, hrest⟩
    · rename_i hne
      split
      · -- it comes before all others, since it comes before the first of them
        rename_i hlt
        refine List.pairwise_cons.2 ⟨fun e he => ?_, h⟩
        rcases List.mem_cons.1 he with rfl | he
        · exact hlt
        · exact hlt.trans (hfirst e he)
      · rename_i hnot
        refine List.pairwise_cons.2 ⟨fun e he => ?_, ih hrest⟩
        rcases mem_of_mem_insert he with rfl | he
        · exact lt_of_le_of_ne (not_lt.1 hnot) (Ne.symm hne)
        · exact hfirst e he

/-- The inserted property is found under its name, and what was there under all others. -/
theorem find?_insert (n : String) :
    find? n (insert name property context) = if n = name then some property else find? n context := by
  induction context with
  | nil => exact lookup_cons_eq_ite ..
  | cons first rest ih =>
    obtain ⟨k, p⟩ := first
    simp only [find?] at ih ⊢
    rw [insert]
    split
    · rename_i heq
      rw [lookup_cons_eq_ite, lookup_cons_eq_ite, ← heq]
      by_cases hn : n = name <;> simp [hn]
    · rename_i hne
      split
      · rw [lookup_cons_eq_ite]
      · rw [lookup_cons_eq_ite, lookup_cons_eq_ite, ih]
        by_cases hn : n = name
        · simp [hn, hne]
        · simp [hn]

theorem ofEntries_concat (entries : List (String × Property)) (entry : String × Property) :
    ofEntries (entries ++ [entry]) = insert entry.1 entry.2 (ofEntries entries) :=
  List.foldl_append ..

theorem ascending_ofEntries (entries : List (String × Property)) : Ascending (ofEntries entries) := by
  induction entries using List.reverseRecOn with
  | nil => exact List.Pairwise.nil
  | append_singleton front entry ih =>
    rw [ofEntries_concat]
    exact ih.insert

/-- Of several properties that are inserted under one name the last is found. -/
theorem find?_ofEntries (entries : List (String × Property)) (n : String) :
    find? n (ofEntries entries) = entries.reverse.lookup n := by
  induction entries using List.reverseRecOn with
  | nil => rfl
  | append_singleton front entry ih =>
    rw [ofEntries_concat, find?_insert, ih, List.reverse_append, List.reverse_singleton,
      List.singleton_append]
    exact (lookup_cons_eq_ite ..).symm

theorem mem_of_mem_ofEntries {entries : List (String × Property)} {entry : String × Property}
    (h : entry ∈ ofEntries entries) : entry ∈ entries := by
  induction entries using List.reverseRecOn with
  | nil => cases h
  | append_singleton front last ih =>
    rw [ofEntries_concat] at h
    rw [List.mem_append, List.mem_singleton]
    exact (mem_of_mem_insert h).symm.imp_left ih

/-! ## What fixes a context -/

theorem Ascending.nodup (h : Ascending context) : (context.map Prod.fst).Nodup := by
  rw [List.Nodup, List.pairwise_map]
  exact h.imp fun hlt => hlt.ne

/-- A context in order is determined by its properties. -/
theorem Ascending.ext (h : Ascending context) (h' : Ascending context')
    (hfind : ∀ n, find? n context = find? n context') : context = context' := by
  have hmem : ∀ entry, entry ∈ context ↔ entry ∈ context' := by
    intro entry
    rw [← lookup_eq_some_iff_mem h.nodup, ← lookup_eq_some_iff_mem h'.nodup]
    exact Eq.congr_left (hfind entry.1)
  -- they have the same entries, and there is one order for these
  have hperm : context.Perm context' :=
    (List.perm_ext_iff_of_nodup (h.nodup.of_map _) (h'.nodup.of_map _)).2 hmem
  refine hperm.eq_of_pairwise (fun a b _ _ hab hba => ?_) h h'
  exact absurd (hab.trans hba) (lt_irrefl _)

/-- Different names may be inserted in any order. -/
theorem ofEntries_perm {entries entries' : List (String × Property)}
    (hnames : (entries.map Prod.fst).Nodup) (h : entries.Perm entries') :
    ofEntries entries = ofEntries entries' := by
  refine (ascending_ofEntries _).ext (ascending_ofEntries _) fun n => ?_
  have hreverse : (entries.reverse.map Prod.fst).Nodup := by
    rwa [List.map_reverse, List.nodup_reverse]
  have hperm := (List.reverse_perm entries).trans (h.trans (List.reverse_perm entries').symm)
  rw [find?_ofEntries, find?_ofEntries, lookup_perm hreverse hperm]

/-- A context in order is made by inserting its properties. -/
theorem Ascending.ofEntries_eq (h : Ascending context) : ofEntries context = context := by
  refine (ascending_ofEntries _).ext h fun n => ?_
  rw [find?_ofEntries, find?, lookup_perm h.nodup (List.reverse_perm context).symm]

end Context

/-! ## Order at every level -/

namespace Property

mutual

/-- Whether the names are in order in all contexts inside a property. -/
def Ordered : Property → Prop
  | .object properties => Context.Ascending properties ∧ OrderedIn properties
  | _ => True
termination_by structural p => p

/-- Whether the names are in order in all contexts inside some properties. -/
def OrderedIn : List (String × Property) → Prop
  | [] => True
  | (_, p) :: rest => p.Ordered ∧ OrderedIn rest
termination_by structural properties => properties

end

theorem orderedIn_iff {properties : List (String × Property)} :
    OrderedIn properties ↔ ∀ entry ∈ properties, entry.2.Ordered := by
  induction properties with
  | nil => simp [OrderedIn]
  | cons entry rest ih => simp [OrderedIn, ih]

/-- A context of properties in order is in order. -/
theorem ordered_object_ofEntries {entries : List (String × Property)} (h : OrderedIn entries) :
    (object (Context.ofEntries entries)).Ordered := by
  refine ⟨Context.ascending_ofEntries entries, orderedIn_iff.2 fun entry hentry => ?_⟩
  exact orderedIn_iff.1 h entry (Context.mem_of_mem_ofEntries hentry)

mutual

/-- What a value denotes is in order. -/
theorem ordered_of_ofValue? : ∀ {v : Value} {p : Property}, ofValue? v = some p → p.Ordered
  | .object fields, p, h => by
    obtain ⟨entries, hentries, rfl⟩ := Option.map_eq_some_iff.1 h
    exact ordered_object_ofEntries (orderedIn_entriesOfFields? hentries)
  | .natural n, p, h => by
    cases h
    split <;> trivial
  | .null, p, h | .bool _, p, h | .integer _, p, h | .float _, p, h | .text _, p, h => by
    cases h
    trivial
  | .array _, _, h => by cases h

theorem orderedIn_entriesOfFields? : ∀ {fields : List (String × Value)}
    {entries : List (String × Property)}, entriesOfFields? fields = some entries → OrderedIn entries
  | [], _, h => by
    cases h
    trivial
  | (name, v) :: rest, entries, h => by
    rw [entriesOfFields?] at h
    split at h
    · rename_i p more hp hmore
      cases h
      exact ⟨ordered_of_ofValue? hp, orderedIn_entriesOfFields? hmore⟩
    · cases h

end

mutual

/-- A property in order is denoted by the value that is written for it. -/
theorem ofValue?_toValue : ∀ {p : Property}, p.Ordered → ofValue? p.toValue = some p
  | .object properties, h => by
    rw [toValue, ofValue?, entriesOfFields?_propertiesToFields h.2, Option.map_some,
      Context.Ascending.ofEntries_eq h.1]
  | .null, _ | .bool _, _ | .integer _, _ | .float _, _ | .text _, _ => rfl

theorem entriesOfFields?_propertiesToFields : ∀ {properties : List (String × Property)},
    OrderedIn properties → entriesOfFields? (propertiesToFields properties) = some properties
  | [], _ => rfl
  | (name, p) :: rest, h => by
    simp only [propertiesToFields, entriesOfFields?, ofValue?_toValue h.1,
      entriesOfFields?_propertiesToFields h.2]

end

end Property

end OperationCatalog
