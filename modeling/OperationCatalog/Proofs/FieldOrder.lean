import Mathlib.Logic.Relation
import OperationCatalog.Proofs.DocumentShapes

/-!
# The order of fields and fields that are not known

The fields of an object may be put into another order at any depth of a document, and further fields may
be put into its records, as long as their names are none of those that are read there.  `Rearranged` is
one such change.  Neither changes what the document denotes, or that it denotes nothing.  In a context
every name is read, so that fields may only change places there, and only where each name stands once.

## Key results

- `Role.FieldsSame.of_perm`, `Role.FieldsSame.insert`, `Role.FieldsSame.exchange`: the known fields of a
  record after one change
- `ofEntries_entriesOfFields?_perm`: a context with its fields in another order
- `Rearranged.same`: what is read after one change, by induction from the place of it outwards
- `rearranged_documents_denote_same`: any number of changes
-/

namespace OperationCatalog

/-! ## Known fields after one change -/

namespace Role

theorem same_atMostOne?_refl (role : Role) (v?? : Option (Option Value)) :
    Option.Rel (Option.Rel role.Same) v?? v?? := by
  rcases v?? with _ | _ | v
  · exact .none
  · exact .some .none
  · exact .some (.some (Same.refl role v))

namespace FieldsSame

variable {known : List (String × Role)} {name : String}

theorem of_perm {fs fs' : Fields} (h : fs.Perm fs') : FieldsSame known fs fs' := by
  intro n part _
  rw [Fields.atMostOne?_perm h]
  exact same_atMostOne?_refl part _

theorem insert (hname : name ∉ known.map Prod.fst) (v : Value) (before after : Fields) :
    FieldsSame known (before ++ after) (before ++ (name, v) :: after) := by
  intro n part hn
  have hne : name ≠ n := fun heq => hname (heq ▸ name_mem_of_lookup hn)
  rw [Fields.atMostOne?_insert_of_ne hne]
  exact same_atMostOne?_refl part _

theorem exchange {role : Role} (hname : known.lookup name = some role) {x y : Value}
    (h : role.Same x y) (before after : Fields) :
    FieldsSame known (before ++ (name, x) :: after) (before ++ (name, y) :: after) := by
  intro n part hn
  by_cases heq : name = n
  · subst heq
    cases hname.symm.trans hn
    exact Fields.rel_atMostOne?_exchange h before after
  · rw [Fields.atMostOne?_insert_of_ne heq, Fields.atMostOne?_insert_of_ne heq]
    exact same_atMostOne?_refl part _

end FieldsSame

/-- Only records have known fields. -/
theorem isRecord_of_lookup {role part : Role} {v : Value} {name : String}
    (h : (role.fields v).lookup name = some part) : role.isRecord = true := by
  cases role with
  | leaf | context | list _ => cases h
  | _ => rfl

/-- The first known field is read as it is. -/
theorem leaf_of_lookup_head {role part : Role} {v : Value} {name : String}
    (h : (role.fields v).lookup name = some part) (hhead : (role.fieldNames v)[0]? = some name) :
    part = leaf := by
  cases role with
  | leaf | context | list _ => cases h
  | _ =>
    cases hhead
    exact (Option.some.inj h).symm

end Role

/-! ## Contexts -/

/-- The same things in another order denote the same in another order, or one of them nothing. -/
theorem mapM_perm {α β : Type} {f : α → Option β} {as as' : List α} (h : as.Perm as') :
    Option.Rel List.Perm (as.mapM f) (as'.mapM f) := by
  induction h with
  | nil => exact .some (.refl [])
  | @cons a as as' _ ih =>
    rw [List.mapM_cons, List.mapM_cons]
    cases f a with
    | none => exact .none
    | some b =>
      generalize as.mapM f = bs? at ih
      generalize as'.mapM f = bs?' at ih
      cases ih with
      | none => exact .none
      | some hperm => exact .some (hperm.cons b)
  | swap a a' as =>
    simp only [List.mapM_cons]
    cases f a with
    | none => cases f a' <;> exact .none
    | some b =>
      cases f a' with
      | none => exact .none
      | some b' =>
        cases as.mapM f with
        | none => exact .none
        | some bs => exact .some (.swap b b' bs)
  | @trans as as' as'' _ _ ih ih' =>
    generalize as.mapM f = bs? at ih
    generalize as'.mapM f = bs?' at ih ih'
    generalize as''.mapM f = bs?'' at ih'
    cases ih with
    | none => exact ih'
    | some hperm =>
      cases ih' with
      | some hperm' => exact .some (hperm.trans hperm')

theorem entriesOfFields?_eq (fields : Fields) :
    entriesOfFields? fields = fields.mapM fun f => (Property.ofValue? f.2).map (f.1, ·) := by
  induction fields with
  | nil => rfl
  | cons f rest ih =>
    obtain ⟨k, v⟩ := f
    rw [entriesOfFields?, List.mapM_cons, ← ih]
    cases Property.ofValue? v <;> cases entriesOfFields? rest <;> rfl

theorem map_fst_of_entriesOfFields? {fields : Fields} {entries : List (String × Property)}
    (h : entriesOfFields? fields = some entries) : entries.map Prod.fst = fields.map Prod.fst := by
  induction fields generalizing entries with
  | nil =>
    cases h
    rfl
  | cons f rest ih =>
    obtain ⟨k, v⟩ := f
    rw [entriesOfFields?] at h
    split at h
    · rename_i hp hmore
      cases h
      rw [List.map_cons, List.map_cons, ih hmore]
    · cases h

/-- A context whose names stand there once may have them in any order. -/
theorem ofEntries_entriesOfFields?_perm {fields fields' : Fields}
    (hnames : (fields.map Prod.fst).Nodup) (h : fields.Perm fields') :
    (entriesOfFields? fields).map Context.ofEntries =
      (entriesOfFields? fields').map Context.ofEntries := by
  have hrel : Option.Rel List.Perm (entriesOfFields? fields) (entriesOfFields? fields') := by
    rw [entriesOfFields?_eq, entriesOfFields?_eq]
    exact mapM_perm h
  cases hentries : entriesOfFields? fields with
  | none =>
    rw [hentries] at hrel
    generalize entriesOfFields? fields' = entries?' at hrel
    cases hrel
    rfl
  | some entries =>
    rw [← map_fst_of_entriesOfFields? hentries] at hnames
    rw [hentries] at hrel
    generalize entriesOfFields? fields' = entries?' at hrel
    cases hrel with
    | some hperm => exact congrArg some (Context.ofEntries_perm hnames hperm)

theorem same_context_of_entries {fields fields' : Fields}
    (h : (entriesOfFields? fields).map Context.ofEntries =
      (entriesOfFields? fields').map Context.ofEntries) :
    Role.context.Same (.object fields) (.object fields') := by
  have hproperty : ∀ fs : Fields, Property.ofValue? (.object fs) =
      ((entriesOfFields? fs).map Context.ofEntries).map .object := fun fs => by
    rw [Option.map_map]
    rfl
  refine ⟨?_, h⟩
  rw [hproperty, hproperty, h]

/-! ## Changes -/

/-- Whether a value differs from another one, which plays a role, by one change of its fields. -/
inductive Rearranged : Role → Value → Value → Prop
  /-- The fields of a record are put in another order. -/
  | reordered {role : Role} {fields fields' : Fields} (record : role.isRecord = true)
    (order : fields.Perm fields') : Rearranged role (.object fields) (.object fields')
  /-- A field that is not known is put into a record. -/
  | widened {role : Role} {before after : Fields} {name : String} {v : Value}
    (record : role.isRecord = true) (unknown : name ∉ role.fieldNames (.object (before ++ after))) :
    Rearranged role (.object (before ++ after)) (.object (before ++ (name, v) :: after))
  /-- A known field of a record is changed inside. -/
  | inField {role part : Role} {v v' x y : Value} {name : String}
    (known : (role.fields v).lookup name = some part)
    (record : Value.Exchanged (role.fieldNames v) name x y v v') (change : Rearranged part x y) :
    Rearranged role v v'
  /-- An item of a list is changed inside. -/
  | inItem {item : Role} {before after : List Value} {x y : Value} (change : Rearranged item x y) :
    Rearranged (.list item) (.array (before ++ x :: after)) (.array (before ++ y :: after))
  /-- The fields of a context, no two of one name, are put in another order. -/
  | reorderedContext {fields fields' : Fields} (names : (fields.map Prod.fst).Nodup)
    (order : fields.Perm fields') : Rearranged .context (.object fields) (.object fields')
  /-- A property of a context is changed inside. -/
  | inProperty {before after : Fields} {name : String} {x y : Value}
    (change : Rearranged .context x y) :
    Rearranged .context (.object (before ++ (name, x) :: after))
      (.object (before ++ (name, y) :: after))

namespace Role

/-- After an exchange of values that are the same in their role, the record is the same. -/
theorem Same.of_exchanged {role part : Role} {v v' x y : Value} {name : String}
    (known : (role.fields v).lookup name = some part)
    (record : Value.Exchanged (role.fieldNames v) name x y v v') (h : part.Same x y) :
    role.Same v v' := by
  have hrecord := isRecord_of_lookup known
  cases record with
  | field before after => exact Same.of_fields hrecord (FieldsSame.exchange known h before after)
  | item before after place =>
    cases before with
    | nil =>
      -- the first item is read as it is, so nothing has changed
      cases leaf_of_lookup_head known place
      cases (h : x = y)
      exact Same.refl role _
    | cons first before =>
      obtain ⟨-, hzip⟩ := zip_around place after
      have hsame : FieldsSame (role.fields (.array (first :: before ++ x :: after)))
          ((role.fieldNames (.array (first :: before ++ x :: after))).zip
            (first :: before ++ x :: after))
          ((role.fieldNames (.array (first :: before ++ x :: after))).zip
            (first :: before ++ y :: after)) := by
        rw [hzip, hzip]
        exact FieldsSame.exchange known h _ _
      refine Same.of_zip hrecord (by simp) (Same.of_fields hrecord ?_)
      rw [fields_zip]
      exact hsame

end Role

/-- One change of fields leaves what is read.  The induction is on the change, from its place outwards. -/
theorem Rearranged.same {role : Role} {v v' : Value} (h : Rearranged role v v') : role.Same v v' := by
  induction h with
  | reordered record order => exact Role.Same.of_fields record (Role.FieldsSame.of_perm order)
  | widened record unknown =>
    exact Role.Same.of_fields record (Role.FieldsSame.insert unknown _ _ _)
  | inField known record _ ih => exact Role.Same.of_exchanged known record ih
  | @inItem item before after x y _ ih =>
    refine Option.Rel.some (List.rel_append ?_ (.cons ih ?_))
    · exact List.forall₂_same.2 fun v _ => Role.Same.refl item v
    · exact List.forall₂_same.2 fun v _ => Role.Same.refl item v
  | reorderedContext names order =>
    exact same_context_of_entries (ofEntries_entriesOfFields?_perm names order)
  | @inProperty before after name x y _ ih =>
    refine same_context_of_entries ?_
    rw [entriesOfFields?_eq, entriesOfFields?_eq, List.mapM_append, List.mapM_append,
      List.mapM_cons, List.mapM_cons, ih.1]

/-- Any number of changes leave what is read. -/
theorem eq_of_rearranged {α : Type} {role : Role} {read : Value → α} {v v' : Value}
    (h : Relation.ReflTransGen (Rearranged role) v v')
    (hread : ∀ v v', role.Same v v' → read v = read v') : read v = read v' := by
  induction h with
  | refl => rfl
  | tail _ change ih => exact ih.trans (hread _ _ change.same)

/-- A document may have the fields of its objects in any order, those of a context if no two have one
    name, and any further fields in its records, and it is read as the same as without these changes, or
    rejected both times.  The changes may be at any depth, and any number of them; for services it is the
    same with the texts of the documents in JSON. -/
theorem rearranged_documents_denote_same :
    (∀ v v', Relation.ReflTransGen (Rearranged .expression) v v' →
      ∀ inner, Expression.ofValue? inner v = Expression.ofValue? inner v') ∧
    (∀ v v', Relation.ReflTransGen (Rearranged .bodyType) v v' →
      ∀ inner, BodyType.ofValue? inner v = BodyType.ofValue? inner v') ∧
    (∀ v v', Relation.ReflTransGen (Rearranged .member) v v' →
      BodyType.memberOfValue? v = BodyType.memberOfValue? v') ∧
    (∀ v v', Relation.ReflTransGen (Rearranged .method) v v' →
      ∀ ignored, Method.ofValue? ignored v = Method.ofValue? ignored v') ∧
    (∀ v v', Relation.ReflTransGen (Rearranged .group) v v' →
      ∀ ignored, Group.ofValue? ignored v = Group.ofValue? ignored v') ∧
    (∀ v v', Relation.ReflTransGen (Rearranged .service) v v' →
      ∀ ignored, Service.ofValue? ignored v = Service.ofValue? ignored v') ∧
    (∀ text text' v v', Json.read .whole text = some v → Json.read .whole text' = some v' →
      Relation.ReflTransGen (Rearranged .service) v v' →
      Model.Format.json.read? text = Model.Format.json.read? text') := by
  refine ⟨fun v v' h inner => ?_, fun v v' h inner => ?_, fun v v' h => ?_, fun v v' h ignored => ?_,
    fun v v' h ignored => ?_, fun v v' h ignored => ?_, fun text text' v v' hv hv' h => ?_⟩
  · exact eq_of_rearranged h fun _ _ hsame => hsame inner
  · exact eq_of_rearranged h fun _ _ hsame => hsame.1 inner
  · exact eq_of_rearranged h fun _ _ hsame => hsame
  · exact eq_of_rearranged h fun _ _ hsame => hsame ignored
  · exact eq_of_rearranged h fun _ _ hsame => hsame ignored
  · exact eq_of_rearranged h fun _ _ hsame => hsame ignored
  · rw [Model.read?_of_read hv, Model.read?_of_read hv']
    exact eq_of_rearranged h fun _ _ hsame => hsame false

namespace Rearranged

/-- The fields of a URL. -/
def sampleUrl : Fields :=
  [("kind", .text "property"), ("base", .object [("kind", .text "instance")]), ("name", .text "Id")]

/-- The fields of a context. -/
def sampleContext : Fields := [("Id", .text "7"), ("Sku", .object [("Name", .null)])]

/-- A method in a document, with a URL of these fields. -/
def sampleMethod (url : Fields) : Value :=
  .object [("name", .text "find"), ("httpVerb", .text "GET"), ("url", .object url)]

/-- The method in a group. -/
def sampleGroup (url : Fields) : Value :=
  .object [("name", .text "G"), ("methods", .array [sampleMethod url])]

/-- The group in a document, which has `more` fields. -/
def sampleDocument (url context more : Fields) : Value :=
  .object ([("name", .text "S"), ("context", .object context), ("groups", .array [sampleGroup url])] ++
    more)

/-- The service that it denotes. -/
def sampleService : Service :=
  ⟨"S", [("Id", .text "7"), ("Sku", .object [("Name", .null)])], [],
    [⟨"G", [⟨"find", .get, .property .root "Id", [], []⟩]⟩]⟩

/-- The fields of the URL are turned around, and those of the context. -/
theorem sampleDocument_rearranged (more : Fields) :
    Relation.ReflTransGen (Rearranged .service) (sampleDocument sampleUrl sampleContext more)
      (sampleDocument sampleUrl.reverse sampleContext.reverse more) := by
  have hurl : Rearranged .expression (.object sampleUrl) (.object sampleUrl.reverse) :=
    .reordered rfl (List.reverse_perm _).symm
  have hmethod : Rearranged .method (sampleMethod sampleUrl) (sampleMethod sampleUrl.reverse) :=
    .inField (by rfl) (.field [_, _] [] ..) hurl
  have hmethods : Rearranged (.list .method) (.array [sampleMethod sampleUrl])
      (.array [sampleMethod sampleUrl.reverse]) :=
    @inItem _ [] [] _ _ hmethod
  have hgroup : Rearranged .group (sampleGroup sampleUrl) (sampleGroup sampleUrl.reverse) :=
    .inField (by rfl) (.field [_] [] ..) hmethods
  have hgroups : Rearranged (.list .group) (.array [sampleGroup sampleUrl])
      (.array [sampleGroup sampleUrl.reverse]) :=
    @inItem _ [] [] _ _ hgroup
  have hcontext : Rearranged .context (.object sampleContext) (.object sampleContext.reverse) :=
    .reorderedContext (by decide) (List.reverse_perm _).symm
  refine .tail (.single ?_) (.inField (by rfl) (.field [_] _ ..) hcontext)
  exact .inField (by rfl) (.field [_, _] _ ..) hgroups

/-- Turned around, and with another field in it, the document is read as the same service. -/
theorem rearranged_documents_denote_same_sample :
    Model.Format.json.read? (Json.text (sampleDocument sampleUrl sampleContext [])) =
        some sampleService ∧
      Model.Format.json.read? (Json.text (sampleDocument sampleUrl.reverse sampleContext.reverse
        [("version", .array [.null])])) = some sampleService := by
  have hread : Json.read .whole (Json.text (sampleDocument sampleUrl sampleContext [])) =
      some (sampleDocument sampleUrl sampleContext []) :=
    Json.read_text (by simp [sampleDocument, sampleGroup, sampleMethod, sampleUrl, sampleContext,
      Json.Plain, Json.PlainFields, Json.PlainItems]) (by decide) (Json.Shape.cut_whole _)
  have hread' : Json.read .whole (Json.text (sampleDocument sampleUrl.reverse sampleContext.reverse
      [("version", .array [.null])])) = some (sampleDocument sampleUrl.reverse sampleContext.reverse
        [("version", .array [.null])]) :=
    Json.read_text (by simp [sampleDocument, sampleGroup, sampleMethod, sampleUrl, sampleContext,
      Json.Plain, Json.PlainFields, Json.PlainItems]) (by decide) (Json.Shape.cut_whole _)
  have hdenoted : Model.Format.json.read? (Json.text (sampleDocument sampleUrl sampleContext [])) =
      some sampleService := by
    rw [Model.read?_of_read hread]
    rfl
  have hwidened : Rearranged .service (sampleDocument sampleUrl sampleContext [])
      (sampleDocument sampleUrl sampleContext [("version", .array [.null])]) :=
    @widened _ (_ :: _ :: _ :: []) [] _ _ rfl (by decide)
  obtain ⟨-, -, -, -, -, -, htexts⟩ := rearranged_documents_denote_same
  refine ⟨hdenoted, ?_⟩
  rw [← htexts _ _ _ _ hread hread' (.head hwidened (sampleDocument_rearranged _)), hdenoted]

end Rearranged

end OperationCatalog
