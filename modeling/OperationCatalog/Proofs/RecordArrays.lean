import OperationCatalog.Proofs.FieldRoles

/-!
# Arrays in the place of records

A record may be given as an array of its fields in order.  It is read like the object of its items, each
under the name at its place, if there are not too many of them and, where the kinds of records count,
not too few.

## Key results

- `Value.recordFields?_array`, `Expression.ofValue?_array`, `BodyType.ofValue?_array`,
  `BodyType.memberOfValue?_array`: what an array is read as
- `Role.Same.of_zip`: arrays are the same record if the objects of their items are
- `Role.fields_zip`: the known fields of such an object
-/

namespace OperationCatalog

namespace Fields

theorem all_zip_of_not_mem {names : List String} {name : String} (h : name ∉ names)
    (items : List Value) : all name (names.zip items) = [] := by
  rw [all_eq_map_filter, List.map_eq_nil_iff, List.filter_eq_nil_iff]
  intro f hf hname
  rw [← of_decide_eq_true hname] at h
  exact h (List.of_mem_zip hf).1

theorem length_all_zip_le {names : List String} (hnodup : names.Nodup) (items : List Value)
    (name : String) : (all name (names.zip items)).length ≤ 1 := by
  induction names generalizing items with
  | nil => exact Nat.zero_le 1
  | cons n rest ih =>
    rw [List.nodup_cons] at hnodup
    cases items with
    | nil => exact Nat.zero_le 1
    | cons v items =>
      rw [List.zip_cons_cons, all_cons]
      split
      · rename_i hn
        rw [← hn, all_zip_of_not_mem hnodup.1]
        exact Nat.le_refl 1
      · exact ih hnodup.2 items

theorem only?_zip_head {name : String} {names : List String} (hnodup : (name :: names).Nodup)
    (v : Value) (items : List Value) : only? name ((name, v) :: names.zip items) = some v := by
  rw [only?, all_cons, if_pos rfl, all_zip_of_not_mem (List.nodup_cons.1 hnodup).1]

end Fields

/-- An array that is not too long is the record of its items. -/
theorem Value.recordFields?_array {names : List String} (hnodup : names.Nodup) (ignored : Bool)
    (items : List Value) :
    recordFields? names ignored (.array items) =
      if ignored || items.length ≤ names.length then
        recordFields? names ignored (.object (names.zip items))
      else none := by
  have honce : (names.all fun n => (Fields.all n (names.zip items)).length ≤ 1) = true :=
    List.all_eq_true.2 fun n _ => decide_eq_true (Fields.length_all_zip_le hnodup items n)
  rw [recordFields?, recordFields?, if_pos honce]

theorem Method.ofValue?_array (ignored : Bool) (items : List Value) :
    ofValue? ignored (.array items) =
      if ignored || items.length ≤ fieldNames.length then
        ofValue? ignored (.object (fieldNames.zip items))
      else none := by
  rw [ofValue?, ofValue?, Value.recordFields?_array (by decide)]
  split <;> rfl

theorem Group.ofValue?_array (ignored : Bool) (items : List Value) :
    ofValue? ignored (.array items) =
      if ignored || items.length ≤ fieldNames.length then
        ofValue? ignored (.object (fieldNames.zip items))
      else none := by
  rw [ofValue?, ofValue?, Value.recordFields?_array (by decide)]
  split <;> rfl

theorem Service.ofValue?_array (ignored : Bool) (items : List Value) :
    ofValue? ignored (.array items) =
      if ignored || items.length ≤ fieldNames.length then
        ofValue? ignored (.object (fieldNames.zip items))
      else none := by
  rw [ofValue?, ofValue?, Value.recordFields?_array (by decide)]
  split <;> rfl

namespace Expression

variable {inner : Bool} {tag : Value} {k : Kind} {arguments : List Value}

theorem Kind.ofFields?_zip (hk : Kind.ofValue? inner tag = some k) :
    Kind.ofFields? inner (("kind", tag) :: (k.fields.map Prod.fst).zip arguments) = some k := by
  have hnodup : ("kind" :: k.fields.map Prod.fst).Nodup := by
    cases k <;> decide
  rw [Kind.ofFields?, Fields.only?_zip_head hnodup]
  exact hk

/-- An array of a kind and as many items as it has fields is the object of them. -/
theorem ofValue?_array (hk : Kind.ofValue? inner tag = some k) :
    ofValue? inner (.array (tag :: arguments)) =
      if arguments.length = k.fields.length then
        ofValue? inner (.object (("kind", tag) :: (k.fields.map Prod.fst).zip arguments))
      else none := by
  rw [ofValue?.eq_def, ofValue?, Kind.ofFields?_zip hk]
  simp only [hk]
  cases k with
  | literal | concat | conditional | parameter | formatting =>
    rcases arguments with _ | ⟨v, _ | ⟨w, more⟩⟩
    · rfl
    · cases v <;> rfl
    · simp [Kind.fields]
  | property =>
    rcases arguments with _ | ⟨v, _ | ⟨w, _ | ⟨w', more⟩⟩⟩
    · rfl
    · rfl
    · have hbase : field? "base" [("kind", tag), ("base", v), ("name", w)] = ofValue? true v := rfl
      have hname : textField? "name" [("kind", tag), ("base", v), ("name", w)] = w.text? := rfl
      simp only [Kind.fields, List.map_cons, List.map_nil, List.zip_cons_cons, List.zip_nil_left,
        List.length_cons, List.length_nil, if_true, hbase, hname]
      cases w with
      | text name =>
        show (ofValue? true v).map (·.property name) = _
        cases ofValue? true v <;> rfl
      | _ => cases ofValue? true v <;> rfl
    · simp [Kind.fields]
  | root | unsupported => cases arguments <;> rfl

/-- An array whose first item is no kind denotes nothing. -/
theorem ofValue?_array_none (hk : Kind.ofValue? inner tag = none) :
    ofValue? inner (.array (tag :: arguments)) = none := by
  rw [ofValue?.eq_def]
  simp only [hk]

end Expression

namespace BodyType

variable {inner : Bool} {tag : Value} {k : Kind} {arguments : List Value}

theorem Kind.ofFields?_zip (hk : Kind.ofValue? inner tag = some k) :
    Kind.ofFields? inner (("kind", tag) :: (k.fields.map Prod.fst).zip arguments) = some k := by
  have hnodup : ("kind" :: k.fields.map Prod.fst).Nodup := by
    cases k <;> decide
  rw [Kind.ofFields?, Fields.only?_zip_head hnodup]
  exact hk

/-- An array of a kind and as many items as it has fields is the object of them.  For a primitive type
    the last one may be left off. -/
theorem ofValue?_array (hk : Kind.ofValue? inner tag = some k) :
    ofValue? inner (.array (tag :: arguments)) =
      if arguments.length = k.fields.length ∨ k = .primitive ∧ arguments.length = 1 then
        ofValue? inner (.object (("kind", tag) :: (k.fields.map Prod.fst).zip arguments))
      else none := by
  rw [ofValue?.eq_def, ofValue?, Kind.ofFields?_zip hk]
  simp only [hk]
  cases k with
  | object | enumeration =>
    rcases arguments with _ | ⟨v, _ | ⟨w, more⟩⟩
    · rfl
    · rfl
    · simp [Kind.fields]
  | array =>
    rcases arguments with _ | ⟨v, _ | ⟨w, _ | ⟨w', more⟩⟩⟩
    · rfl
    · rfl
    · rfl
    · simp [Kind.fields]
  | primitive =>
    rcases arguments with _ | ⟨v, _ | ⟨w, _ | ⟨w', more⟩⟩⟩
    · rfl
    · cases v <;> rfl
    · cases v <;> cases w <;> rfl
    · simp [Kind.fields]
  | dictionary | xml | unsupported =>
    cases arguments with
    | nil => rfl
    | cons v more => simp [Kind.fields]

/-- An array whose first item is no kind denotes nothing. -/
theorem ofValue?_array_none (hk : Kind.ofValue? inner tag = none) :
    ofValue? inner (.array (tag :: arguments)) = none := by
  rw [ofValue?.eq_def]
  simp only [hk]

/-- An array of the fields of a member is the object of them; the last one may be left off. -/
theorem memberOfValue?_array (items : List Value) :
    memberOfValue? (.array items) =
      if items.length = 2 ∨ items.length = 3 then
        memberOfValue? (.object (["name", "type", "passThrough"].zip items))
      else none := by
  rw [memberOfValue?.eq_def, memberOfValue?]
  rcases items with _ | ⟨v, _ | ⟨w, _ | ⟨w', _ | ⟨w'', more⟩⟩⟩⟩
  · rfl
  · cases v <;> rfl
  · have hname : (Fields.only? "name" [("name", v), ("type", w)]).bind Value.text? = v.text? := rfl
    have htype : field? "type" [("name", v), ("type", w)] = ofValue? true w := rfl
    simp only [List.zip_cons_cons, List.zip_nil_right, hname, htype]
    cases v with
    | text name =>
      show (ofValue? true w).map _ = _
      cases ofValue? true w <;> rfl
    | _ => rfl
  · have hname : (Fields.only? "name" [("name", v), ("type", w), ("passThrough", w')]).bind
        Value.text? = v.text? := rfl
    have htype : field? "type" [("name", v), ("type", w), ("passThrough", w')] = ofValue? true w := rfl
    simp only [List.zip_cons_cons, List.zip_nil_right, hname, htype]
    cases v with
    | text name =>
      cases w' with
      | bool passThrough =>
        show (ofValue? true w).map _ = _
        cases ofValue? true w <;> rfl
      | _ => cases ofValue? true w <;> rfl
    | _ => rfl
  · simp

end BodyType

namespace Role

variable {role : Role} {first : Value} {rest rest' : List Value}

theorem fieldNames_expression_array {inner : Bool} {k : Expression.Kind}
    (hk : Expression.Kind.ofValue? inner first = some k) :
    expression.fieldNames (.array (first :: rest)) = "kind" :: k.fields.map Prod.fst := by
  rw [fieldNames, fields, Expression.Kind.ofHead?, Expression.Kind.ofValue?_inner hk]
  rfl

theorem fieldNames_bodyType_array {inner : Bool} {k : BodyType.Kind}
    (hk : BodyType.Kind.ofValue? inner first = some k) :
    bodyType.fieldNames (.array (first :: rest)) = "kind" :: k.fields.map Prod.fst := by
  rw [fieldNames, fields, BodyType.Kind.ofHead?, BodyType.Kind.ofValue?_inner hk]
  rfl

/-- Arrays of equal length that begin with the same item are the same record if the objects of their
    items are. -/
theorem Same.of_zip (hrecord : role.isRecord = true) (hlen : rest.length = rest'.length)
    (h : role.Same (.object ((role.fieldNames (.array (first :: rest))).zip (first :: rest)))
      (.object ((role.fieldNames (.array (first :: rest))).zip (first :: rest')))) :
    role.Same (.array (first :: rest)) (.array (first :: rest')) := by
  have hlen' : (first :: rest).length = (first :: rest').length := by
    rw [List.length_cons, List.length_cons, hlen]
  cases role with
  | expression =>
    intro inner
    cases hk : Expression.Kind.ofValue? inner first with
    | none => rw [Expression.ofValue?_array_none hk, Expression.ofValue?_array_none hk]
    | some k =>
      rw [fieldNames_expression_array hk] at h
      rw [Expression.ofValue?_array hk, Expression.ofValue?_array hk, hlen]
      exact if_congr Iff.rfl (h inner) rfl
  | bodyType =>
    refine ⟨fun inner => ?_, rfl⟩
    cases hk : BodyType.Kind.ofValue? inner first with
    | none => rw [BodyType.ofValue?_array_none hk, BodyType.ofValue?_array_none hk]
    | some k =>
      rw [fieldNames_bodyType_array hk] at h
      rw [BodyType.ofValue?_array hk, BodyType.ofValue?_array hk, hlen]
      exact if_congr Iff.rfl (h.1 inner) rfl
  | member =>
    rw [Same, BodyType.memberOfValue?_array, BodyType.memberOfValue?_array, hlen']
    exact if_congr Iff.rfl h rfl
  | method =>
    intro ignored
    rw [Method.ofValue?_array, Method.ofValue?_array, hlen']
    exact if_congr Iff.rfl (h ignored) rfl
  | group =>
    intro ignored
    rw [Group.ofValue?_array, Group.ofValue?_array, hlen']
    exact if_congr Iff.rfl (h ignored) rfl
  | service =>
    intro ignored
    rw [Service.ofValue?_array, Service.ofValue?_array, hlen']
    exact if_congr Iff.rfl (h ignored) rfl
  | leaf | context | list _ => cases hrecord

/-- The object of the items of an array has the known fields of the array. -/
theorem fields_zip (role : Role) (first : Value) (rest : List Value) :
    role.fields (.object ((role.fieldNames (.array (first :: rest))).zip (first :: rest))) =
      role.fields (.array (first :: rest)) := by
  cases role with
  | expression =>
    cases hk : Expression.Kind.ofValue? true first with
    | none =>
      have hfields : expression.fields (.array (first :: rest)) = [("kind", leaf)] := by
        rw [fields, Expression.Kind.ofHead?, hk]
        rfl
      rw [fieldNames, hfields, fields]
      show ("kind", leaf) :: ((Expression.Kind.ofValue? true first).map _).getD [] = _
      rw [hk]
      rfl
    | some k =>
      rw [fieldNames_expression_array hk, fields, fields, List.zip_cons_cons, Expression.Kind.ofHead?,
        Expression.Kind.ofFields?_zip hk, Expression.Kind.ofHead?, hk]
  | bodyType =>
    cases hk : BodyType.Kind.ofValue? true first with
    | none =>
      have hfields : bodyType.fields (.array (first :: rest)) = [("kind", leaf)] := by
        rw [fields, BodyType.Kind.ofHead?, hk]
        rfl
      rw [fieldNames, hfields, fields]
      show ("kind", leaf) :: ((BodyType.Kind.ofValue? true first).map _).getD [] = _
      rw [hk]
      rfl
    | some k =>
      rw [fieldNames_bodyType_array hk, fields, fields, List.zip_cons_cons, BodyType.Kind.ofHead?,
        BodyType.Kind.ofFields?_zip hk, BodyType.Kind.ofHead?, hk]
  | _ => rfl

end Role

end OperationCatalog
