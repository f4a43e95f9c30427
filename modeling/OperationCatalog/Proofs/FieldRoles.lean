import OperationCatalog.Proofs.ExpressionExchange
import OperationCatalog.Proofs.NamedEntries

/-!
# Records are read by their known fields

Every value that is read in a document plays a `Role`: it is read as an expression, as a method, as a
list of these, or just as it is.  Two values are the same in a role if they are read as the same, or both
rejected.  A record has known fields, which depend on its kind if it has one; two objects whose known
fields are the same are the same record, whatever else stands in them and in whatever order.

## Key results

- `Fields.atMostOne?_perm`, `Fields.atMostOne?_insert_of_ne`, `Fields.rel_atMostOne?_exchange`: one name
  under a change of the fields
- `Role.FieldsSame.recordFields?`: what is looked up in records with the same known fields
- `Role.Same.of_fields`: objects with the same known fields are the same record
-/

namespace OperationCatalog

/-! ## The value under a name -/

namespace Fields

variable {name : String} {fields fields' : Fields}

theorem all_eq_map_filter (name : String) (fields : Fields) :
    all name fields = (fields.filter (·.1 = name)).map Prod.snd := by
  induction fields with
  | nil => rfl
  | cons f rest ih =>
    obtain ⟨k, v⟩ := f
    rw [all_cons, ih, List.filter_cons]
    by_cases h : k = name <;> simp [h]

/-- What stands there at most once does not depend on the order. -/
theorem atMostOne?_perm (h : fields.Perm fields') :
    atMostOne? name fields = atMostOne? name fields' := by
  have hall : (all name fields).Perm (all name fields') := by
    rw [all_eq_map_filter, all_eq_map_filter]
    exact (h.filter _).map _
  rw [atMostOne?, atMostOne?]
  generalize all name fields = vs at hall
  generalize all name fields' = vs' at hall
  rcases vs with _ | ⟨v, _ | ⟨w, rest⟩⟩
  · rw [hall.nil_eq]
  · rw [List.perm_singleton.1 hall.symm]
  · -- two values of the name are too many in any order
    have hlength := hall.length_eq
    rcases vs' with _ | ⟨v', _ | ⟨w', rest'⟩⟩
    · cases hlength
    · cases hlength
    · rfl

/-- Another field changes nothing under the name. -/
theorem atMostOne?_insert_of_ne {k : String} (h : k ≠ name) (v : Value) (before after : Fields) :
    atMostOne? name (before ++ (k, v) :: after) = atMostOne? name (before ++ after) := by
  simp only [atMostOne?, all_append, all_cons, h, if_false]

/-- A value that is exchanged for a related one is the only one both times or neither. -/
theorem rel_atMostOne?_exchange {R : Value → Value → Prop} {x y : Value} (h : R x y)
    (before after : Fields) :
    Option.Rel (Option.Rel R) (atMostOne? name (before ++ (name, x) :: after))
      (atMostOne? name (before ++ (name, y) :: after)) := by
  simp only [atMostOne?, all_append, all_cons, if_true]
  cases all name before with
  | nil =>
    cases all name after with
    | nil => exact .some (.some h)
    | cons a as => exact .none
  | cons b bs => cases bs <;> exact .none

theorem lookup_eq_head? (name : String) (fields : Fields) :
    List.lookup name fields = (all name fields).head? := by
  induction fields with
  | nil => rfl
  | cons f rest ih =>
    obtain ⟨k, v⟩ := f
    rw [List.lookup_cons, all_cons, ih]
    by_cases h : k = name
    · rw [if_pos h, h, beq_self_eq_true]
      rfl
    · rw [if_neg h, beq_eq_false_iff_ne.2 (Ne.symm h)]

/-- What stands there at most once is looked up. -/
theorem atMostOne?_eq_ite (name : String) (fields : Fields) :
    atMostOne? name fields =
      if (all name fields).length ≤ 1 then some (List.lookup name fields) else none := by
  rw [atMostOne?, lookup_eq_head?]
  rcases all name fields with _ | ⟨v, _ | ⟨w, rest⟩⟩ <;> rfl

end Fields

/-! ## Roles -/

/-- What a value is read as. -/
inductive Role where
  /-- A text, a truth value, a kind or a list of texts. -/
  | leaf
  | expression
  | bodyType
  | member
  | method
  | group
  | service
  /-- A context, or a property of one. -/
  | context
  | list (item : Role)

namespace Expression

theorem Kind.ofFields?_inner {inner : Bool} {fields : Fields} {k : Kind}
    (h : Kind.ofFields? inner fields = some k) : Kind.ofFields? true fields = some k := by
  obtain ⟨tag, htag, hk⟩ := Option.bind_eq_some_iff.1 h
  rw [Kind.ofFields?, htag, Option.bind_some, ofValue?_inner hk]

/-- The fields of a kind beside `kind`, in order. -/
def Kind.fields : Kind → List (String × Role)
  | .literal => [("text", .leaf)]
  | .concat => [("items", .list .expression)]
  | .conditional => [("inner", .expression)]
  | .property => [("base", .expression), ("name", .leaf)]
  | .parameter => [("name", .leaf)]
  | .formatting => [("format", .leaf)]
  | .root | .unsupported => []

end Expression

namespace BodyType

/-- The fields of a kind beside `kind`, in order. -/
def Kind.fields : Kind → List (String × Role)
  | .object => [("members", .list .member)]
  | .array => [("elementFormat", .bodyType), ("elementType", .bodyType)]
  | .enumeration => [("values", .leaf)]
  | .primitive => [("name", .leaf), ("nullable", .leaf)]
  | .dictionary | .xml | .unsupported => []

/-- The kind that a value names before anything else in it is read, by its field `kind` or by its first
    item. -/
def Kind.ofHead? : Value → Option Kind
  | .object fields => Kind.ofFields? true fields
  | .array (tag :: _) => Kind.ofValue? true tag
  | _ => none

/-- A kind that is given outside counts inside as well. -/
theorem Kind.ofValue?_inner {inner : Bool} {tag : Value} {k : Kind}
    (h : Kind.ofValue? inner tag = some k) : Kind.ofValue? true tag = some k := by
  cases inner with
  | true => exact h
  | false => cases tag <;> first | exact h | cases h

theorem Kind.ofFields?_inner {inner : Bool} {fields : Fields} {k : Kind}
    (h : Kind.ofFields? inner fields = some k) : Kind.ofFields? true fields = some k := by
  obtain ⟨tag, htag, hk⟩ := Option.bind_eq_some_iff.1 h
  rw [Kind.ofFields?, htag, Option.bind_some, ofValue?_inner hk]

end BodyType

namespace Role

/-- The known fields of a value in a role, in order.  An object whose kind is not known has no fields
    but that one. -/
def fields : Role → Value → List (String × Role)
  | .expression, v => ("kind", .leaf) :: ((Expression.Kind.ofHead? v).map (·.fields)).getD []
  | .bodyType, v => ("kind", .leaf) :: ((BodyType.Kind.ofHead? v).map (·.fields)).getD []
  | .member, _ => [("name", .leaf), ("type", .bodyType), ("passThrough", .leaf)]
  | .method, _ => [("name", .leaf), ("httpVerb", .leaf), ("url", .expression),
      ("requestBodies", .list .bodyType), ("responseBodies", .list .bodyType)]
  | .group, _ => [("name", .leaf), ("methods", .list .method)]
  | .service, _ => [("name", .leaf), ("context", .context), ("methods", .list .method),
      ("groups", .list .group)]
  | .leaf, _ | .context, _ | .list _, _ => []

/-- The names of the known fields. -/
def fieldNames (role : Role) (v : Value) : List String := (role.fields v).map Prod.fst

/-- Whether the values of a role are records, with known fields. -/
def isRecord : Role → Bool
  | .leaf | .context | .list _ => false
  | _ => true

/-- Whether two values are read as the same in a role, or rejected both. -/
def Same : Role → Value → Value → Prop
  | .leaf, v, v' => v = v'
  | .expression, v, v' => ∀ inner, Expression.ofValue? inner v = Expression.ofValue? inner v'
  -- null in the place of a type of elements is none
  | .bodyType, v, v' =>
    (∀ inner, BodyType.ofValue? inner v = BodyType.ofValue? inner v') ∧ v.isNull = v'.isNull
  | .member, v, v' => BodyType.memberOfValue? v = BodyType.memberOfValue? v'
  | .method, v, v' => ∀ ignored, Method.ofValue? ignored v = Method.ofValue? ignored v'
  | .group, v, v' => ∀ ignored, Group.ofValue? ignored v = Group.ofValue? ignored v'
  | .service, v, v' => ∀ ignored, Service.ofValue? ignored v = Service.ofValue? ignored v'
  | .context, v, v' =>
    Property.ofValue? v = Property.ofValue? v' ∧ Context.ofValue? v = Context.ofValue? v'
  | .list item, v, v' => Option.Rel (List.Forall₂ item.Same) v.items? v'.items?

theorem Same.refl (role : Role) (v : Value) : role.Same v v := by
  induction role generalizing v with
  | leaf => rfl
  | expression | method | group | service => exact fun _ => rfl
  | bodyType => exact ⟨fun _ => rfl, rfl⟩
  | member => rfl
  | context => exact ⟨rfl, rfl⟩
  | list item ih =>
    rw [Same]
    cases v.items? with
    | none => exact .none
    | some items => exact .some (List.forall₂_same.2 fun v _ => ih v)

/-- Lists of the same items are read as the same list. -/
theorem Same.bind_items? {α : Type} {item : Role} {v v' : Value} (h : (list item).Same v v')
    {read : Value → Option α} (hread : ∀ x y, item.Same x y → read x = read y) :
    v.items?.bind (·.mapM read) = v'.items?.bind (·.mapM read) := by
  rw [Same] at h
  generalize v.items? = items? at h
  generalize v'.items? = items?' at h
  cases h with
  | none => rfl
  | some hitems =>
    rw [Option.bind_some, Option.bind_some]
    induction hitems with
    | nil => rfl
    | cons hxy _ ih => rw [List.mapM_cons, List.mapM_cons, hread _ _ hxy, ih]

/-- Whether all known fields are the same: each stands there equally often, up to more than once, and
    is the same in its role. -/
def FieldsSame (known : List (String × Role)) (fields fields' : Fields) : Prop :=
  ∀ name role, known.lookup name = some role →
    Option.Rel (Option.Rel role.Same) (fields.atMostOne? name) (fields'.atMostOne? name)

namespace FieldsSame

variable {known : List (String × Role)} {fs fs' : Fields} {role : Role}

/-- A known field that may be missing. -/
theorem atMostOne? {β : Type} (h : FieldsSame known fs fs') (name : String)
    (hname : known.lookup name = some role)
    {read : Option Value → Option β} (hread : ∀ x y, role.Same x y → read (some x) = read (some y)) :
    (fs.atMostOne? name).bind read = (fs'.atMostOne? name).bind read := by
  have hrel := h name role hname
  generalize fs.atMostOne? name = v?? at hrel
  generalize fs'.atMostOne? name = v??' at hrel
  rcases hrel with (hxy | _) | _
  · exact hread _ _ hxy
  · rfl
  · rfl

/-- A known field that must stand there. -/
theorem only? {β : Type} (h : FieldsSame known fs fs') (name : String)
    (hname : known.lookup name = some role)
    {read : Value → Option β} (hread : ∀ x y, role.Same x y → read x = read y) :
    (fs.only? name).bind read = (fs'.only? name).bind read := by
  rw [Fields.only?_eq_bind, Fields.only?_eq_bind, Option.bind_assoc, Option.bind_assoc]
  exact h.atMostOne? name hname hread

/-- A known field that is read as it is. -/
theorem leaf (h : FieldsSame known fs fs') (name : String)
    (hname : known.lookup name = some .leaf) :
    fs.atMostOne? name = fs'.atMostOne? name := by
  have hread : ∀ x y, Role.leaf.Same x y → some (some x) = some (some y) := fun x y hxy =>
    congrArg (some ∘ some) hxy
  simpa using h.atMostOne? name hname hread

theorem only?_leaf (h : FieldsSame known fs fs') (name : String)
    (hname : known.lookup name = some .leaf) : fs.only? name = fs'.only? name := by
  rw [Fields.only?_eq_bind, Fields.only?_eq_bind, h.leaf name hname]

end FieldsSame

/-! ## Objects with the same known fields -/

section Objects

variable {fs fs' : Fields}

theorem Same.orNull {x y : Value} (h : bodyType.Same x y) :
    BodyType.orNull x (BodyType.ofValue? true x) = BodyType.orNull y (BodyType.ofValue? true y) := by
  rw [BodyType.orNull, BodyType.orNull, h.1, h.2]

/-- Where the kind and the other fields of the kind are the same, so is the expression. -/
theorem same_expression_of_fields (h : FieldsSame (expression.fields (.object fs)) fs fs') :
    expression.Same (.object fs) (.object fs') := by
  intro inner
  have hkind : Expression.Kind.ofFields? inner fs = Expression.Kind.ofFields? inner fs' :=
    h.only? "kind" rfl fun x y hxy => congrArg _ hxy
  rw [Expression.ofValue?, Expression.ofValue?, ← hkind]
  cases hk : Expression.Kind.ofFields? inner fs with
  | none => rfl
  | some k =>
    rw [fields, Expression.Kind.ofHead?, Expression.Kind.ofFields?_inner hk, Option.map_some,
      Option.getD_some] at h
    have htext : ∀ name, (("kind", leaf) :: k.fields).lookup name = some leaf →
        Expression.textField? name fs = Expression.textField? name fs' :=
      fun name hname => h.only? name hname fun x y hxy => congrArg _ hxy
    have hpart : ∀ name, (("kind", leaf) :: k.fields).lookup name = some expression →
        Expression.field? name fs = Expression.field? name fs' := by
      intro name hname
      rw [Expression.field?_eq, Expression.field?_eq]
      exact h.only? name hname fun x y hxy => hxy true
    cases k with
    | literal => simp only [htext "text" rfl]
    | concat =>
      have hitems : Expression.arrayField? "items" fs = Expression.arrayField? "items" fs' := by
        rw [Expression.arrayField?_eq, Expression.arrayField?_eq]
        refine h.only? "items" rfl fun x y (hxy : (list expression).Same x y) => ?_
        rw [Expression.ofArray?_eq, Expression.ofArray?_eq]
        exact hxy.bind_items? fun x y hxy => hxy true
      simp only [hitems]
    | conditional => simp only [hpart "inner" rfl]
    | property => simp only [hpart "base" rfl, htext "name" rfl]
    | parameter => simp only [htext "name" rfl]
    | formatting => simp only [htext "format" rfl]
    | root | unsupported => rfl

/-- So is the type of a body. -/
theorem same_bodyType_of_fields (h : FieldsSame (bodyType.fields (.object fs)) fs fs') :
    bodyType.Same (.object fs) (.object fs') := by
  refine ⟨fun inner => ?_, rfl⟩
  have hkind : BodyType.Kind.ofFields? inner fs = BodyType.Kind.ofFields? inner fs' :=
    h.only? "kind" rfl fun x y hxy => congrArg _ hxy
  rw [BodyType.ofValue?, BodyType.ofValue?, ← hkind]
  cases hk : BodyType.Kind.ofFields? inner fs with
  | none => rfl
  | some k =>
    rw [fields, BodyType.Kind.ofHead?, BodyType.Kind.ofFields?_inner hk, Option.map_some,
      Option.getD_some] at h
    cases k with
    | object =>
      have hmembers : BodyType.membersField? "members" fs = BodyType.membersField? "members" fs' := by
        rw [BodyType.membersField?_eq, BodyType.membersField?_eq]
        refine h.only? "members" rfl fun x y (hxy : (list member).Same x y) => ?_
        rw [BodyType.membersOfValue?_eq, BodyType.membersOfValue?_eq]
        exact hxy.bind_items? fun x y hxy => hxy
      simp only [hmembers]
    | array =>
      have helement : ∀ name, (("kind", leaf) :: BodyType.Kind.fields .array).lookup name =
          some bodyType → BodyType.elementField? name fs = BodyType.elementField? name fs' := by
        intro name hname
        rw [BodyType.elementField?_eq, BodyType.elementField?_eq]
        exact h.atMostOne? name hname fun x y hxy => hxy.orNull
      simp only [helement "elementFormat" rfl, helement "elementType" rfl]
    | enumeration => simp only [h.only?_leaf "values" rfl]
    | primitive => simp only [h.only?_leaf "name" rfl, h.leaf "nullable" rfl]
    | dictionary | xml | unsupported => rfl

theorem same_member_of_fields (h : FieldsSame (member.fields (.object fs)) fs fs') :
    member.Same (.object fs) (.object fs') := by
  have htype : BodyType.field? "type" fs = BodyType.field? "type" fs' := by
    rw [BodyType.field?_eq, BodyType.field?_eq]
    exact h.only? "type" rfl fun x y (hxy : bodyType.Same x y) => hxy.1 true
  show BodyType.memberOfValue? (.object fs) = BodyType.memberOfValue? (.object fs')
  simp only [BodyType.memberOfValue?, h.only?_leaf "name" rfl, htype, h.leaf "passThrough" rfl]

/-! ### Records without a kind -/

/-- Whether all known fields are looked up as the same. -/
def LookupsSame (known : List (String × Role)) (fs fs' : Fields) : Prop :=
  ∀ name role, known.lookup name = some role →
    Option.Rel role.Same (List.lookup name fs) (List.lookup name fs')

namespace LookupsSame

variable {known : List (String × Role)} {role : Role}

theorem congr {β : Type} (h : LookupsSame known fs fs') (name : String)
    (hname : known.lookup name = some role) (read : Option Value → β)
    (hread : ∀ x y, role.Same x y → read (some x) = read (some y)) :
    read (List.lookup name fs) = read (List.lookup name fs') := by
  have hrel := h name role hname
  generalize List.lookup name fs = v? at hrel
  generalize List.lookup name fs' = v?' at hrel
  cases hrel with
  | some hxy => exact hread _ _ hxy
  | none => rfl

/-- A field that is read as it is. -/
theorem leaf (h : LookupsSame known fs fs') (name : String)
    (hname : known.lookup name = some .leaf) : List.lookup name fs = List.lookup name fs' :=
  h.congr name hname id fun _ _ hxy => congrArg some hxy

/-- A field that must stand there. -/
theorem bind {β : Type} (h : LookupsSame known fs fs') (name : String)
    (hname : known.lookup name = some role) {read : Value → Option β}
    (hread : ∀ x y, role.Same x y → read x = read y) :
    (List.lookup name fs).bind read = (List.lookup name fs').bind read :=
  h.congr name hname (·.bind read) hread

/-- A field that may be missing. -/
theorem orElse {β : Type} (h : LookupsSame known fs fs') (name : String)
    (hname : known.lookup name = some role) {missing : β} {read : Value → Option β}
    (hread : ∀ x y, role.Same x y → read x = read y) :
    OperationCatalog.orElse missing read (List.lookup name fs) =
      OperationCatalog.orElse missing read (List.lookup name fs') :=
  h.congr name hname (OperationCatalog.orElse missing read) hread

end LookupsSame

/-- Objects with the same known fields are records both or neither. -/
theorem FieldsSame.recordFields? {known : List (String × Role)} (h : FieldsSame known fs fs')
    (ignored : Bool) :
    Option.Rel (LookupsSame known) (Value.recordFields? (known.map Prod.fst) ignored (.object fs))
      (Value.recordFields? (known.map Prod.fst) ignored (.object fs')) := by
  have hname : ∀ name role, known.lookup name = some role →
      (Fields.all name fs).length ≤ 1 ∧ (Fields.all name fs').length ≤ 1 ∧
        Option.Rel role.Same (List.lookup name fs) (List.lookup name fs') ∨
      ¬(Fields.all name fs).length ≤ 1 ∧ ¬(Fields.all name fs').length ≤ 1 := by
    intro name role hrole
    have hrel := h name role hrole
    rw [Fields.atMostOne?_eq_ite, Fields.atMostOne?_eq_ite] at hrel
    split at hrel <;> rename_i hfs <;> split at hrel <;> rename_i hfs'
    · cases hrel with
      | some hrel => exact .inl ⟨hfs, hfs', hrel⟩
    · cases hrel
    · cases hrel
    · exact .inr ⟨hfs, hfs'⟩
  have honce : (known.map Prod.fst).all (fun n => (Fields.all n fs).length ≤ 1) =
      (known.map Prod.fst).all (fun n => (Fields.all n fs').length ≤ 1) := by
    rw [Bool.eq_iff_iff, List.all_eq_true, List.all_eq_true]
    refine forall₂_congr fun n hn => ?_
    obtain ⟨role, hrole⟩ := exists_lookup hn
    rcases hname n role hrole with ⟨hfs, hfs', -⟩ | ⟨hfs, hfs'⟩ <;> simp [hfs, hfs']
  rw [Value.recordFields?, Value.recordFields?, honce]
  split
  · rename_i hall
    refine .some fun n role hrole => ?_
    rcases hname n role hrole with ⟨-, -, hrel⟩ | ⟨-, hmore⟩
    · exact hrel
    · exact absurd (by simpa using List.all_eq_true.1 hall n (name_mem_of_lookup hrole)) hmore
  · exact .none

/-- Related results are there both or neither. -/
theorem exists_iff_of_rel {α β : Type} {R : α → β → Prop} {a? : Option α} {b? : Option β}
    {P : α → Prop} {Q : β → Prop} (h : Option.Rel R a? b?) (hPQ : ∀ a b, R a b → (P a ↔ Q b)) :
    (∃ a, a? = some a ∧ P a) ↔ ∃ b, b? = some b ∧ Q b := by
  cases h with
  | none => simp
  | some hab => simpa using hPQ _ _ hab

theorem same_method_of_fields (h : FieldsSame (method.fields (.object fs)) fs fs') :
    method.Same (.object fs) (.object fs') := by
  intro ignored
  have hbodies : ∀ x y, (list bodyType).Same x y →
      x.listOf? (BodyType.ofValue? false) = y.listOf? (BodyType.ofValue? false) :=
    fun x y hxy => hxy.bind_items? fun x y hxy => hxy.1 false
  ext m
  rw [Method.ofValue?_eq_some_iff, Method.ofValue?_eq_some_iff]
  refine exists_iff_of_rel (h.recordFields? ignored) fun fs fs' hsame => ?_
  simp only [hsame.leaf "name" rfl, hsame.leaf "httpVerb" rfl,
    hsame.bind "url" rfl fun x y hxy => hxy false, hsame.orElse "requestBodies" rfl hbodies,
    hsame.orElse "responseBodies" rfl hbodies]

theorem same_group_of_fields (h : FieldsSame (group.fields (.object fs)) fs fs') :
    group.Same (.object fs) (.object fs') := by
  intro ignored
  have hmethods : ∀ x y, (list method).Same x y →
      x.listOf? (Method.ofValue? ignored) = y.listOf? (Method.ofValue? ignored) :=
    fun x y hxy => hxy.bind_items? fun x y hxy => hxy ignored
  ext g
  rw [Group.ofValue?_eq_some_iff, Group.ofValue?_eq_some_iff]
  refine exists_iff_of_rel (h.recordFields? ignored) fun fs fs' hsame => ?_
  simp only [hsame.leaf "name" rfl, hsame.orElse "methods" rfl hmethods]

theorem same_service_of_fields (h : FieldsSame (service.fields (.object fs)) fs fs') :
    service.Same (.object fs) (.object fs') := by
  intro ignored
  have hmethods : ∀ x y, (list method).Same x y →
      x.listOf? (Method.ofValue? ignored) = y.listOf? (Method.ofValue? ignored) :=
    fun x y hxy => hxy.bind_items? fun x y hxy => hxy ignored
  have hgroups : ∀ x y, (list group).Same x y →
      x.listOf? (Group.ofValue? ignored) = y.listOf? (Group.ofValue? ignored) :=
    fun x y hxy => hxy.bind_items? fun x y hxy => hxy ignored
  ext s
  rw [Service.ofValue?_eq_some_iff, Service.ofValue?_eq_some_iff]
  refine exists_iff_of_rel (h.recordFields? ignored) fun fs fs' hsame => ?_
  simp only [hsame.leaf "name" rfl,
    hsame.orElse "context" rfl fun x y hxy => hxy.2, hsame.orElse "methods" rfl hmethods,
    hsame.orElse "groups" rfl hgroups]

/-- Objects with the same known fields are the same record. -/
theorem Same.of_fields {role : Role} (hrecord : role.isRecord = true)
    (h : FieldsSame (role.fields (.object fs)) fs fs') : role.Same (.object fs) (.object fs') := by
  cases role with
  | expression => exact same_expression_of_fields h
  | bodyType => exact same_bodyType_of_fields h
  | member => exact same_member_of_fields h
  | method => exact same_method_of_fields h
  | group => exact same_group_of_fields h
  | service => exact same_service_of_fields h
  | leaf | context | list _ => cases hrecord

end Objects

end Role

end OperationCatalog
