import OperationCatalog.Proofs.ContextOrder
import OperationCatalog.Proofs.EnvelopeSchema

/-!
# Schemas of objects

An object none of whose members passes through is gone over to its end, or to the first member whose type
has no schema.  The schemas are put under the names of their members, where a name that is there already
keeps its place and gets another value.  So what is left is the last value of each name, in the order in
which the names came up first, and this is what the fields of a document are reduced to as well.

## Key results

- `Entries.map_fst_put`, `Entries.lookup_put`: what one value under a name does
- `Fields.map_fst_lastOfEach`, `Fields.lookup_lastOfEach`: what a row of them does
- `BodyType.membersSchema_eq`: the loop over the members, by induction, whatever was collected before
- `BodyType.schema_of_plain_members`: the schema of an object, or why it has none
-/

namespace OperationCatalog

/-! ## The last value of each name -/

theorem eraseDups_concat (names : List String) (name : String) :
    (names ++ [name]).eraseDups =
      if name ∈ names then names.eraseDups else names.eraseDups ++ [name] := by
  rw [List.eraseDups_append]
  by_cases h : name ∈ names
  · simp [List.removeAll, h]
  · simp [List.removeAll, h, List.eraseDups_cons]

theorem nodup_eraseDups (names : List String) : names.eraseDups.Nodup := by
  induction names using List.reverseRecOn with
  | nil => exact List.nodup_nil
  | append_singleton front name ih =>
    rw [eraseDups_concat]
    split
    · exact ih
    · rename_i hnew
      refine List.nodup_append.2 ⟨ih, List.nodup_singleton name, fun other hother n hn => ?_⟩
      rw [List.mem_singleton.1 hn]
      rintro rfl
      exact hnew (List.mem_eraseDups.1 hother)

namespace Entries

variable {α : Type} {entries : Entries α}

/-- A name that is there keeps its place, another one comes to the end. -/
theorem map_fst_put (name : String) (x : α) (entries : Entries α) :
    (put name x entries).map Prod.fst =
      if name ∈ entries.map Prod.fst then entries.map Prod.fst
      else entries.map Prod.fst ++ [name] := by
  induction entries with
  | nil => rfl
  | cons entry rest ih =>
    obtain ⟨k, y⟩ := entry
    rw [put]
    by_cases hk : k = name
    · simp [hk]
    · rw [if_neg hk, List.map_cons, ih]
      by_cases hrest : name ∈ rest.map Prod.fst
      · simp [hrest]
      · simp [hrest, Ne.symm hk]

/-- A name that is not there comes to the end. -/
theorem put_of_not_mem {name : String} {x : α} (h : name ∉ entries.map Prod.fst) :
    put name x entries = entries ++ [(name, x)] := by
  induction entries with
  | nil => rfl
  | cons entry rest ih =>
    obtain ⟨k, y⟩ := entry
    rw [List.map_cons, List.mem_cons, not_or] at h
    rw [put, if_neg (Ne.symm h.1), ih h.2, List.cons_append]

/-- The value is found under its name, and what was there under all others. -/
theorem lookup_put (n name : String) (x : α) (entries : Entries α) :
    (put name x entries).lookup n = if n = name then some x else entries.lookup n := by
  induction entries with
  | nil => exact lookup_cons_eq_ite ..
  | cons entry rest ih =>
    obtain ⟨k, y⟩ := entry
    rw [put]
    by_cases hk : k = name
    · rw [if_pos hk, lookup_cons_eq_ite, lookup_cons_eq_ite, hk]
      by_cases hn : n = name <;> simp [hn]
    · rw [if_neg hk, lookup_cons_eq_ite, lookup_cons_eq_ite, ih]
      by_cases hn : n = name
      · simp [hn, Ne.symm hk]
      · simp [hn]

end Entries

namespace Fields

theorem lastOfEach_concat (fields : Fields) (field : String × Value) :
    lastOfEach (fields ++ [field]) = (lastOfEach fields).put field.1 field.2 :=
  List.foldl_append ..

/-- The names stand in the order in which they came up first, each once. -/
theorem map_fst_lastOfEach (fields : Fields) :
    fields.lastOfEach.map Prod.fst = (fields.map Prod.fst).eraseDups := by
  induction fields using List.reverseRecOn with
  | nil => rfl
  | append_singleton front field ih =>
    rw [lastOfEach_concat, Entries.map_fst_put, List.map_append, List.map_singleton,
      eraseDups_concat, ih]
    simp only [List.mem_eraseDups]

/-- Under a name its last value is found. -/
theorem lookup_lastOfEach (fields : Fields) (name : String) :
    List.lookup name fields.lastOfEach = fields.reverse.lookup name := by
  induction fields using List.reverseRecOn with
  | nil => rfl
  | append_singleton front field ih =>
    rw [lastOfEach_concat, Entries.lookup_put, ih, List.reverse_append, List.reverse_singleton,
      List.singleton_append]
    exact (lookup_cons_eq_ite ..).symm

theorem nodup_lastOfEach (fields : Fields) : (fields.lastOfEach.map Prod.fst).Nodup := by
  rw [map_fst_lastOfEach]
  exact nodup_eraseDups _

theorem mem_of_mem_lastOfEach {fields : Fields} {field : String × Value}
    (h : field ∈ fields.lastOfEach) : field ∈ fields := by
  have hlookup := (lookup_eq_some_iff_mem (nodup_lastOfEach fields)).2 h
  rw [lookup_lastOfEach] at hlookup
  obtain ⟨front, back, hsplit, -⟩ := List.lookup_eq_some_iff.1 hlookup
  have hmem : field ∈ fields.reverse := hsplit ▸ List.mem_append_right _ List.mem_cons_self
  exact List.mem_reverse.1 hmem

/-- Where each name stands once, nothing is left out. -/
theorem lastOfEach_of_nodup {fields : Fields} (h : (fields.map Prod.fst).Nodup) :
    fields.lastOfEach = fields := by
  induction fields using List.reverseRecOn with
  | nil => rfl
  | append_singleton front field ih =>
    rw [List.map_append, List.map_singleton, List.nodup_append] at h
    have hnew : field.1 ∉ front.map Prod.fst := fun hmem =>
      h.2.2 _ hmem _ List.mem_cons_self rfl
    rw [lastOfEach_concat, ih h.1, Entries.put_of_not_mem hnew]

end Fields

namespace BodyType

/-! ## Going over the members -/

/-- Whether an object ends at a member: the first that passes through or whose type has no schema. -/
def endsAt (m : Member BodyType) : Bool := m.passThrough || m.type.schema.toOption.isNone

theorem endsAt_eq_true_iff {m : Member BodyType} :
    endsAt m = true ↔ m.passThrough = true ∨ ∃ e, m.type.schema = .error e := by
  rw [endsAt, Bool.or_eq_true]
  cases m.type.schema <;> simp [Except.toOption]

theorem endsAt_eq_false_iff {m : Member BodyType} :
    endsAt m = false ↔ m.passThrough = false ∧ ∃ s, m.type.schema = .ok s := by
  rw [endsAt, Bool.or_eq_false_iff]
  cases m.type.schema <;> simp [Except.toOption]

/-- The schemas of types that have one, as a function of the members. -/
theorem exists_schemas {members : List (Member BodyType)}
    (h : ∀ m ∈ members, ∃ s, m.type.schema = .ok s) :
    ∃ g : Member BodyType → Value, ∀ m ∈ members, m.type.schema = .ok (g m) := by
  have : Nonempty Value := ⟨.null⟩
  choose! g hg using h
  exact ⟨g, hg⟩

/-- What a member that does not pass through gives to the object, if its type has a schema. -/
def Gives (m : Member BodyType) (field : String × Value) : Prop :=
  m.passThrough = false ∧ m.name = field.1 ∧ m.type.schema = .ok field.2

/-- The fields that were collected are kept, and those of the members are put to them one by one. -/
theorem membersSchema_eq {members : List (Member BodyType)} {given : Fields}
    (h : List.Forall₂ Gives members given) (fields : Fields) :
    membersSchema fields members =
      .ok (.object (given.foldl (fun (done : Fields) f => done.put f.1 f.2) fields)) := by
  induction h generalizing fields with
  | nil => rfl
  | cons hgives _ ih =>
    obtain ⟨hpass, hname, hschema⟩ := hgives
    simp only [membersSchema, hpass, Bool.false_eq_true, if_false, hschema]
    rw [ih, List.foldl_cons, hname]

theorem schema_object_of_gives {members : List (Member BodyType)} {given : Fields}
    (h : List.Forall₂ Gives members given) :
    (object members).schema = .ok (.object given.lastOfEach) := by
  rw [schema]
  exact membersSchema_eq h []

theorem gives_map {members : List (Member BodyType)} {g : Member BodyType → Value}
    (h : ∀ m ∈ members, m.passThrough = false ∧ m.type.schema = .ok (g m)) :
    List.Forall₂ Gives members (members.map fun m => (m.name, g m)) :=
  List.forall₂_map_right_iff.2 (List.forall₂_same.2 fun m hm => ⟨(h m hm).1, rfl, (h m hm).2⟩)

/-- An object is gone over to its end, and has the last schema under each name, or it ends at a member
    and has the schema of that member's type. -/
theorem schema_object_cases (members : List (Member BodyType)) :
    (∃ g : Member BodyType → Value,
      (∀ m ∈ members, m.passThrough = false ∧ m.type.schema = .ok (g m)) ∧
      (object members).schema =
        .ok (.object (Fields.lastOfEach (members.map fun m => (m.name, g m))))) ∨
    ∃ before m after, members = before ++ m :: after ∧
      (∀ c ∈ before, c.passThrough = false ∧ ∃ s, c.type.schema = .ok s) ∧
      (m.passThrough = true ∨ ∃ e, m.type.schema = .error e) ∧
      (object members).schema = m.type.schema := by
  cases hfind : members.find? endsAt with
  | none =>
    left
    have hall : ∀ m ∈ members, m.passThrough = false ∧ ∃ s, m.type.schema = .ok s := fun m hm =>
      endsAt_eq_false_iff.1 (by simpa using List.find?_eq_none.1 hfind m hm)
    obtain ⟨g, hg⟩ := exists_schemas fun m hm => (hall m hm).2
    have hmembers : ∀ m ∈ members, m.passThrough = false ∧ m.type.schema = .ok (g m) :=
      fun m hm => ⟨(hall m hm).1, hg m hm⟩
    exact ⟨g, hmembers, schema_object_of_gives (gives_map hmembers)⟩
  | some m =>
    right
    obtain ⟨hm, before, after, hsplit, hbefore⟩ := List.find?_eq_some_iff_append.1 hfind
    have hfirst : ∀ c ∈ before, c.passThrough = false ∧ ∃ s, c.type.schema = .ok s := fun c hc =>
      endsAt_eq_false_iff.1 (by simpa using hbefore c hc)
    have hends := endsAt_eq_true_iff.1 hm
    refine ⟨before, m, after, hsplit, hfirst, hends, ?_⟩
    rw [hsplit]
    exact schema_object_of_first hfirst hends

/-! ## Objects none of whose members passes through -/

section Plain

variable {members : List (Member BodyType)} (hplain : ∀ m ∈ members, m.passThrough = false)

include hplain

theorem schema_plain_eq_ok_iff {s : Value} :
    (object members).schema = .ok s ↔ ∃ g : Member BodyType → Value,
      (∀ m ∈ members, m.type.schema = .ok (g m)) ∧
      s = .object (Fields.lastOfEach (members.map fun m => (m.name, g m))) := by
  constructor
  · intro hs
    rcases schema_object_cases members with
      ⟨g, hmembers, hschema⟩ | ⟨before, m, after, hsplit, -, hends, hschema⟩
    · rw [hschema] at hs
      exact ⟨g, fun m hm => (hmembers m hm).2, (Except.ok.inj hs).symm⟩
    · -- the object does not end at a member, since none passes through and there is no error
      have hm : m ∈ members := hsplit ▸ List.mem_append_right _ List.mem_cons_self
      rcases hends with hpass | ⟨e, he⟩
      · rw [hplain m hm] at hpass
        cases hpass
      · rw [hschema, he] at hs
        cases hs
  · rintro ⟨g, hg, rfl⟩
    exact schema_object_of_gives (gives_map fun m hm => ⟨hplain m hm, hg m hm⟩)

theorem exists_schema_plain_iff :
    (∃ s, (object members).schema = .ok s) ↔ ∀ m ∈ members, ∃ s, m.type.schema = .ok s := by
  constructor
  · rintro ⟨s, hs⟩ m hm
    obtain ⟨g, hg, -⟩ := (schema_plain_eq_ok_iff hplain).1 hs
    exact ⟨g m, hg m hm⟩
  · intro h
    obtain ⟨g, hg⟩ := exists_schemas h
    exact ⟨_, (schema_plain_eq_ok_iff hplain).2 ⟨g, hg, rfl⟩⟩

theorem schema_plain_eq_error_iff {e : SchemaError} :
    (object members).schema = .error e ↔
      ∃ before m after, members = before ++ m :: after ∧
        (∀ c ∈ before, ∃ s, c.type.schema = .ok s) ∧ m.type.schema = .error e := by
  constructor
  · intro he
    rcases schema_object_cases members with
      ⟨g, -, hschema⟩ | ⟨before, m, after, hsplit, hbefore, -, hschema⟩
    · rw [hschema] at he
      cases he
    · exact ⟨before, m, after, hsplit, fun c hc => (hbefore c hc).2, hschema ▸ he⟩
  · rintro ⟨before, m, after, hsplit, hbefore, he⟩
    have hfirst : ∀ c ∈ before, c.passThrough = false ∧ ∃ s, c.type.schema = .ok s := fun c hc =>
      ⟨hplain c (hsplit ▸ List.mem_append_left _ hc), hbefore c hc⟩
    rw [hsplit, schema_object_of_first hfirst (.inr ⟨e, he⟩), he]

end Plain

/-- Under the name of a member that no member of that name comes after, its schema is found. -/
theorem lookup_lastOfEach_members {before after : List (Member BodyType)} {m : Member BodyType}
    (hlast : m.name ∉ after.map Member.name) (g : Member BodyType → Value) :
    List.lookup m.name (Fields.lastOfEach ((before ++ m :: after).map fun m => (m.name, g m))) =
      some (g m) := by
  have hafter : List.lookup m.name (after.map fun m => (m.name, g m)).reverse = none := by
    rw [List.lookup_eq_none_iff]
    intro f hf
    obtain ⟨c, hc, rfl⟩ := List.mem_map.1 (List.mem_reverse.1 hf)
    exact bne_iff_ne.2 fun heq => hlast (List.mem_map.2 ⟨c, hc, heq.symm⟩)
  -- from behind, it is the first one of its name
  rw [Fields.lookup_lastOfEach, List.map_append, List.map_cons, List.reverse_append,
    List.reverse_cons, List.lookup_append, List.lookup_append, hafter, lookup_cons_eq_ite, if_pos rfl]
  rfl

/-- An object none of whose members passes through has a schema exactly if the types of all members have
    one: the object of these schemas, with each name at the place where it came up first and with the
    schema of its last member.  Otherwise it has the error of the first member whose type has none. -/
theorem schema_of_plain_members {members : List (Member BodyType)}
    (hplain : ∀ m ∈ members, m.passThrough = false) :
    ((∃ s, (object members).schema = .ok s) ↔ ∀ m ∈ members, ∃ s, m.type.schema = .ok s) ∧
    (∀ s, (object members).schema = .ok s → ∃ fields : Fields, s = .object fields ∧
      fields.map Prod.fst = (members.map Member.name).eraseDups ∧ (fields.map Prod.fst).Nodup ∧
      ∀ before m after, members = before ++ m :: after → m.name ∉ after.map Member.name →
        ∃ v, m.type.schema = .ok v ∧ fields.lookup m.name = some v) ∧
    ∀ e, (object members).schema = .error e ↔
      ∃ before m after, members = before ++ m :: after ∧
        (∀ c ∈ before, ∃ s, c.type.schema = .ok s) ∧ m.type.schema = .error e := by
  refine ⟨exists_schema_plain_iff hplain, fun s hs => ?_, fun e => schema_plain_eq_error_iff hplain⟩
  obtain ⟨g, hg, rfl⟩ := (schema_plain_eq_ok_iff hplain).1 hs
  have hnames : (Fields.lastOfEach (members.map fun m => (m.name, g m))).map Prod.fst =
      (members.map Member.name).eraseDups := by
    rw [Fields.map_fst_lastOfEach, List.map_map]
    rfl
  refine ⟨_, rfl, hnames, ?_, fun before m after hsplit hlast => ?_⟩
  · exact Fields.nodup_lastOfEach _
  · have hm : m ∈ members := hsplit ▸ List.mem_append_right _ List.mem_cons_self
    refine ⟨g m, hg m hm, ?_⟩
    rw [hsplit]
    exact lookup_lastOfEach_members hlast g

/-- A name that stands twice keeps its first place and has its last schema.  With an array of unknown
    elements in the row there is no schema, whatever comes behind. -/
theorem schema_of_plain_members_sample :
    (∃ s fields, (object [⟨"a", .xml, false⟩, ⟨"b", .primitive "Int32" false, false⟩,
        ⟨"a", .dictionary, false⟩]).schema = .ok s ∧ s = .object fields ∧
      fields.map Prod.fst = ["a", "b"] ∧ fields.lookup "a" = some (.object [])) ∧
    (object [⟨"a", .xml, false⟩, ⟨"b", .array none none, false⟩,
      ⟨"c", .unsupported, false⟩]).schema = .error .missingArrayElement := by
  have hplain : ∀ m ∈ [(⟨"a", .xml, false⟩ : Member BodyType),
      ⟨"b", .primitive "Int32" false, false⟩, ⟨"a", .dictionary, false⟩], m.passThrough = false := by
    simp
  have hplain' : ∀ m ∈ [(⟨"a", .xml, false⟩ : Member BodyType), ⟨"b", .array none none, false⟩,
      ⟨"c", .unsupported, false⟩], m.passThrough = false := by
    simp
  constructor
  · obtain ⟨hexists, hfields, -⟩ := schema_of_plain_members hplain
    obtain ⟨s, hs⟩ := hexists.2 (by simp [schema, leafSchema])
    obtain ⟨fields, rfl, hnames, -, hlast⟩ := hfields s hs
    -- the last member named `a` is the third one
    obtain ⟨v, hv, hlookup⟩ := hlast [⟨"a", .xml, false⟩, ⟨"b", .primitive "Int32" false, false⟩]
      ⟨"a", .dictionary, false⟩ [] rfl (by simp)
    cases hv
    exact ⟨_, fields, hs, rfl, hnames, hlookup⟩
  · obtain ⟨-, -, herror⟩ := schema_of_plain_members hplain'
    exact (herror _).2 ⟨[⟨"a", .xml, false⟩], ⟨"b", .array none none, false⟩,
      [⟨"c", .unsupported, false⟩], rfl, by simp [schema], rfl⟩

end BodyType

end OperationCatalog
