import OperationCatalog.Model
import OperationCatalog.Proofs.ContextOrder
import OperationCatalog.Proofs.RecordArrays
import OperationCatalog.Proofs.ShapedReading

/-!
# The shape of services loses nothing

The text of a service is read under a shape that has the known fields of services, groups and methods.
The fields that are passed over are not known to any of these, so a text that can be read as a whole
denotes what its value denotes.

## Key results

- `Shape.atMostOne?_cutFields`, `Shape.zip_cutItems`: what is left of the fields of a record
- `Role.same_cut_record`: a record is the same under a shape that has its known fields
- `Model.read?_of_read`: a text is read as what its value denotes
-/

namespace OperationCatalog

open Json (Shape)

namespace Json.Shape

mutual

/-- Where nothing is passed over, all is left. -/
theorem cut_whole : ∀ v : Value, whole.cut v = v
  | .array items => congrArg Value.array (cutItems_whole 0 items)
  | .object fields => congrArg Value.object (cutFields_whole fields)
  | .null | .bool _ | .natural _ | .integer _ | .float _ | .text _ => rfl

theorem cutItems_whole (index : Nat) : ∀ items : List Value, whole.cutItems index items = items
  | [] => rfl
  | v :: rest => congrArg₂ List.cons (cut_whole v) (cutItems_whole (index + 1) rest)

theorem cutFields_whole : ∀ fields : List (String × Value), whole.cutFields fields = fields
  | [] => rfl
  | (name, v) :: rest =>
    congrArg₂ (fun v rest => (name, v) :: rest) (cut_whole v) (cutFields_whole rest)

end

theorem cutItems_list (shape : Shape) (index : Nat) (items : List Value) :
    (list shape).cutItems index items = items.map shape.cut := by
  induction items generalizing index with
  | nil => rfl
  | cons v rest ih =>
    rw [cutItems, ih]
    rfl

theorem length_cutItems (shape : Shape) (index : Nat) (items : List Value) :
    (shape.cutItems index items).length = items.length := by
  induction items generalizing index with
  | nil => rfl
  | cons v rest ih => rw [cutItems, List.length_cons, List.length_cons, ih]

/-- A field of interest is left, and stands there as often as before. -/
theorem atMostOne?_cutFields {shape s : Shape} {name : String} (h : shape.field name = some s)
    (fields : Fields) :
    Fields.atMostOne? name (shape.cutFields fields) =
      (fields.atMostOne? name).map (·.map s.cut) := by
  have hall : Fields.all name (shape.cutFields fields) = (fields.all name).map s.cut := by
    induction fields with
    | nil => rfl
    | cons f rest ih =>
      obtain ⟨k, v⟩ := f
      rw [cutFields, Fields.all_cons]
      by_cases hk : k = name
      · rw [if_pos hk, hk, h, List.map_cons, ← ih]
        exact if_pos rfl
      · rw [if_neg hk, ← ih]
        cases shape.field k with
        | none => rfl
        | some s' => exact if_neg hk
  rw [Fields.atMostOne?, Fields.atMostOne?, hall]
  rcases fields.all name with _ | ⟨v, _ | ⟨w, rest⟩⟩ <;> rfl

/-- What is left of the items of a record is left of the fields that they are. -/
theorem zip_cutItems {shapes : List (String × Shape)} (hnames : (shapes.map Prod.fst).Nodup)
    (index : Nat) (items : List Value) :
    ((shapes.drop index).map Prod.fst).zip ((record shapes).cutItems index items) =
      (record shapes).cutFields (((shapes.drop index).map Prod.fst).zip items) := by
  induction items generalizing index with
  | nil => simp [cutItems, cutFields]
  | cons v rest ih =>
    by_cases hlt : index < shapes.length
    · have hfield : (record shapes).field shapes[index].1 = some shapes[index].2 :=
        (lookup_eq_some_iff_mem hnames).2 (List.getElem_mem hlt)
      have hitem : (record shapes).item index = shapes[index].2 := by
        rw [item, List.getElem?_eq_getElem hlt]
        rfl
      rw [List.drop_eq_getElem_cons hlt, List.map_cons, cutItems, List.zip_cons_cons,
        List.zip_cons_cons, cutFields, hfield, hitem, ih]
    · rw [List.drop_eq_nil_of_le (Nat.not_lt.1 hlt)]
      rfl

end Json.Shape

namespace Role

theorem same_cut_whole (role : Role) (v : Value) : role.Same v (Shape.whole.cut v) := by
  rw [Shape.cut_whole]
  exact Same.refl role v

/-- A list is the same if all items are. -/
theorem same_cut_list {item : Role} {shape : Shape} (h : ∀ v, item.Same v (shape.cut v))
    (v : Value) : (list item).Same v ((Shape.list shape).cut v) := by
  cases v with
  | array items =>
    rw [Shape.cut, Shape.cutItems_list]
    refine Option.Rel.some ?_
    rw [List.forall₂_map_right_iff]
    exact List.forall₂_same.2 fun v _ => h v
  | _ => exact .none

variable {known : List (String × Role)} {shapes : List (String × Shape)}

/-- The known fields are the same if each is under its own shape. -/
theorem FieldsSame.cut
    (h : ∀ field ∈ known, ∃ shape, (Shape.record shapes).field field.1 = some shape ∧
      ∀ v, field.2.Same v (shape.cut v))
    (fields : Fields) : FieldsSame known fields ((Shape.record shapes).cutFields fields) := by
  intro name part hname
  obtain ⟨shape, hshape, hsame⟩ := h (name, part) (mem_of_lookup hname)
  rw [Shape.atMostOne?_cutFields hshape]
  rcases fields.atMostOne? name with _ | _ | v
  · exact .none
  · exact .some .none
  · exact .some (.some (hsame v))

/-- A record is the same under a shape of its known fields, if the first of them is read as it is. -/
theorem same_cut_record {role : Role} (hrecord : role.isRecord = true)
    (hknown : ∀ v, role.fields v = known) (hnames : known.map Prod.fst = shapes.map Prod.fst)
    (hnodup : (shapes.map Prod.fst).Nodup) (hfirst : (Shape.record shapes).item 0 = .whole)
    (h : ∀ field ∈ known, ∃ shape, (Shape.record shapes).field field.1 = some shape ∧
      ∀ v, field.2.Same v (shape.cut v))
    (v : Value) : role.Same v ((Shape.record shapes).cut v) := by
  cases v with
  | object fields =>
    refine Same.of_fields hrecord ?_
    rw [hknown]
    exact FieldsSame.cut h fields
  | array items =>
    cases items with
    | nil => exact Same.refl role _
    | cons first rest =>
      have hzip := Shape.zip_cutItems hnodup 0 (first :: rest)
      rw [List.drop_zero, Shape.cutItems, hfirst, Shape.cut_whole] at hzip
      rw [Shape.cut, Shape.cutItems, hfirst, Shape.cut_whole]
      refine Same.of_zip hrecord (Shape.length_cutItems ..).symm (Same.of_fields hrecord ?_)
      rw [fieldNames, hknown, hknown, hnames, hzip]
      exact FieldsSame.cut h _
  | _ => exact Same.refl role _

theorem same_cut_method (v : Value) : method.Same v (Method.shape.cut v) := by
  have hknown : ∀ w, method.fields w = method.fields v := fun _ => rfl
  refine same_cut_record rfl hknown rfl (by decide) rfl ?_ v
  simp only [fields, List.forall_mem_cons]
  exact ⟨⟨.whole, rfl, same_cut_whole _⟩, ⟨.whole, rfl, same_cut_whole _⟩,
    ⟨.whole, rfl, same_cut_whole _⟩, ⟨.whole, rfl, same_cut_whole _⟩,
    ⟨.whole, rfl, same_cut_whole _⟩, by simp⟩

theorem same_cut_group (v : Value) : group.Same v (Group.shape.cut v) := by
  have hknown : ∀ w, group.fields w = group.fields v := fun _ => rfl
  refine same_cut_record rfl hknown rfl (by decide) rfl ?_ v
  simp only [fields, List.forall_mem_cons]
  exact ⟨⟨.whole, rfl, same_cut_whole _⟩,
    ⟨.list Method.shape, rfl, same_cut_list same_cut_method⟩, by simp⟩

theorem same_cut_service (v : Value) : service.Same v (Service.shape.cut v) := by
  have hknown : ∀ w, service.fields w = service.fields v := fun _ => rfl
  refine same_cut_record rfl hknown rfl (by decide) rfl ?_ v
  simp only [fields, List.forall_mem_cons]
  exact ⟨⟨.whole, rfl, same_cut_whole _⟩, ⟨.whole, rfl, same_cut_whole _⟩,
    ⟨.list Method.shape, rfl, same_cut_list same_cut_method⟩,
    ⟨.list Group.shape, rfl, same_cut_list same_cut_group⟩, by simp⟩

end Role

/-- A text in JSON that can be read as a whole denotes the service that its value denotes. -/
theorem Model.read?_of_read {text : String} {v : Value} (h : Json.read .whole text = some v) :
    Model.Format.json.read? text = Service.ofValue? false v := by
  rw [Model.Format.read?, Json.read_cut h, Option.bind_some]
  exact (Role.same_cut_service v false).symm

end OperationCatalog
