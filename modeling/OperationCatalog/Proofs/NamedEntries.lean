import Mathlib.Data.List.Nodup

/-!
# Entries with names

Entries are looked up by their names, and the first one with a name is found.  Where each name stands
once, this is the only one, so the order of the entries does not matter.

## Key results

- `mem_of_lookup`, `exists_lookup`: what is found stands there, and a name that stands there is found
- `lookup_cons_eq_ite`: what the first entry contributes
- `lookup_eq_some_iff_mem`: where each name stands once, an entry is found wherever it stands
- `lookup_perm`: then the order of the entries does not matter
-/

namespace OperationCatalog

variable {κ α : Type} [DecidableEq κ] {entries entries' : List (κ × α)} {name : κ}

theorem mem_of_lookup {x : α} (h : entries.lookup name = some x) : (name, x) ∈ entries := by
  obtain ⟨front, rest, rfl, -⟩ := List.lookup_eq_some_iff.1 h
  exact List.mem_append_right _ List.mem_cons_self

theorem name_mem_of_lookup {x : α} (h : entries.lookup name = some x) :
    name ∈ entries.map Prod.fst :=
  List.mem_map.2 ⟨_, mem_of_lookup h, rfl⟩

theorem exists_lookup (h : name ∈ entries.map Prod.fst) : ∃ x, entries.lookup name = some x := by
  cases hname : entries.lookup name with
  | some x => exact ⟨x, rfl⟩
  | none =>
    obtain ⟨entry, hentry, rfl⟩ := List.mem_map.1 h
    simpa using List.lookup_eq_none_iff.1 hname entry hentry

theorem lookup_cons_eq_ite (k : κ) (x : α) (rest : List (κ × α)) :
    List.lookup name ((k, x) :: rest) = if name = k then some x else rest.lookup name := by
  rw [List.lookup_cons]
  split <;> simp_all

/-- Where each name stands once, it is looked up wherever it stands. -/
theorem lookup_eq_some_iff_mem (hnames : (entries.map Prod.fst).Nodup) {x : α} :
    entries.lookup name = some x ↔ (name, x) ∈ entries := by
  induction entries with
  | nil => simp
  | cons entry rest ih =>
    obtain ⟨k, y⟩ := entry
    rw [List.map_cons, List.nodup_cons] at hnames
    rw [lookup_cons_eq_ite, List.mem_cons, Prod.mk.injEq]
    split
    · rename_i hk
      have hnot : (k, x) ∉ rest := fun hmem =>
        hnames.1 (List.mem_map.2 ⟨(k, x), hmem, rfl⟩)
      simp [hnot, hk, eq_comm]
    · rename_i hk
      simp [ih hnames.2, hk]

theorem lookup_perm (hnames : (entries.map Prod.fst).Nodup) (h : entries.Perm entries') :
    entries.lookup name = entries'.lookup name := by
  have hnames' : (entries'.map Prod.fst).Nodup := (h.map Prod.fst).nodup_iff.1 hnames
  ext x
  rw [lookup_eq_some_iff_mem hnames, lookup_eq_some_iff_mem hnames', h.mem_iff]

end OperationCatalog
