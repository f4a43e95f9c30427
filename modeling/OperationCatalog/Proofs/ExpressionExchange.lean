import Mathlib.Data.List.Nodup
import OperationCatalog.Proofs.JsonReading
import OperationCatalog.Proofs.UnsupportedParts
import OperationCatalog.Service.Document

/-!
# One expression in the place of another

A record is an object or an array of the values of its fields, so one value of it can be exchanged in
two ways; in both the other fields keep what they denote.  An expression that stands somewhere inside
another one is reached through such exchanges, one for each level.  If what comes in its place denotes
an unsupported expression, the whole still denotes an expression, and one with an unsupported part.

## Key results

- `Value.Exchanged.recordFields?`: the fields of a record before and after an exchange
- `Value.Exchanged.denotable`: what can be read stays so
- `Expression.Exchanged.ofValue?`: an unsupported expression anywhere gives an unsupported part
-/

namespace OperationCatalog

/-! ## Fields with one value exchanged -/

namespace Fields

theorem all_append (name : String) (fields more : Fields) :
    all name (fields ++ more) = all name fields ++ all name more := by
  induction fields with
  | nil => rfl
  | cons f rest ih =>
    obtain ⟨k, v⟩ := f
    simp only [List.cons_append, all_cons, ih]
    split <;> rfl

variable {name : String} {x : Value} {before after : Fields}

/-- Under the other names nothing changes. -/
theorem only?_exchange_of_ne {n : String} (h : name ≠ n) (x y : Value) (before after : Fields) :
    only? n (before ++ (name, y) :: after) = only? n (before ++ (name, x) :: after) := by
  simp only [only?, all_append, all_cons, h, if_false]

/-- A value that stands alone under its name can be exchanged there. -/
theorem only?_exchange {v : Value} (h : only? name (before ++ (name, x) :: after) = some v) :
    v = x ∧ ∀ y, only? name (before ++ (name, y) :: after) = some y := by
  simp only [only?, all_append, all_cons, if_true] at h ⊢
  -- nothing of the name stands before or behind, otherwise there would be two of them
  cases hb : all name before with
  | nil =>
    cases ha : all name after with
    | nil =>
      simp only [hb, ha, List.nil_append, Option.some.injEq] at h
      exact ⟨h.symm, fun y => rfl⟩
    | cons a as => simp [hb, ha] at h
  | cons b bs => cases bs <;> simp [hb] at h

/-- A name under which nothing stands is not found. -/
theorem lookup_eq_none {name : String} {fields : Fields} (h : all name fields = []) :
    List.lookup name fields = none := by
  induction fields with
  | nil => rfl
  | cons f rest ih =>
    obtain ⟨k, v⟩ := f
    by_cases hk : k = name
    · simp [hk] at h
    · rw [all_cons, if_neg hk] at h
      rw [List.lookup_cons, beq_eq_false_iff_ne.2 (Ne.symm hk)]
      exact ih h

theorem lookup_exchange (h : List.lookup name before = none) (x : Value) :
    List.lookup name (before ++ (name, x) :: after) = some x := by
  rw [List.lookup_append, h, List.lookup_cons, beq_self_eq_true]
  rfl

theorem lookup_exchange_of_ne {n : String} (h : n ≠ name) (x y : Value) :
    List.lookup n (before ++ (name, y) :: after) =
      List.lookup n (before ++ (name, x) :: after) := by
  simp only [List.lookup_append, List.lookup_cons, beq_eq_false_iff_ne.2 h]

end Fields

/-! ## Records -/

/-- A name stands in one place only. -/
theorem eq_idxOf {names : List String} (hnodup : names.Nodup) {i : Nat} {name : String}
    (h : names[i]? = some name) : i = names.idxOf name := by
  obtain ⟨hlt, rfl⟩ := List.getElem?_eq_some_iff.1 h
  exact (hnodup.idxOf_getElem i hlt).symm

/-- The item at the place of a name is its value, wherever the names are put beside the items: there are
    the names up to that one, and those behind it. -/
theorem zip_around {names : List String} {name : String} {before : List Value}
    (place : names[before.length]? = some name) (after : List Value) :
    names = names.take before.length ++ name :: names.drop (before.length + 1) ∧
      ∀ z, names.zip (before ++ z :: after) =
        (names.take before.length).zip before ++
          (name, z) :: (names.drop (before.length + 1)).zip after := by
  obtain ⟨hlt, hget⟩ := List.getElem?_eq_some_iff.1 place
  have hnames : names = names.take before.length ++ name :: names.drop (before.length + 1) := by
    rw [← hget, ← List.drop_eq_getElem_cons hlt, List.take_append_drop]
  have hlen : (names.take before.length).length = before.length := by
    rw [List.length_take]
    omega
  refine ⟨hnames, fun z => ?_⟩
  rw [← List.zip_cons_cons, ← List.zip_append hlen, ← hnames]

/-- Whether two records are the same but for the value of the field `name`, which is `x` in the first
    and `y` in the second one.  The fields of an array are those of `names` in order. -/
inductive Value.Exchanged (names : List String) (name : String) (x y : Value) :
    Value → Value → Prop
  | field (before after : Fields) :
    Exchanged names name x y (.object (before ++ (name, x) :: after))
      (.object (before ++ (name, y) :: after))
  | item (before after : List Value) (place : names[before.length]? = some name) :
    Exchanged names name x y (.array (before ++ x :: after)) (.array (before ++ y :: after))

namespace Value.Exchanged

variable {names : List String} {name : String} {x y v v' : Value}

/-- The fields of both records, as far as they can be told apart. -/
theorem recordFields? {ignored : Bool} {fields : Fields} (h : Exchanged names name x y v v')
    (hnodup : names.Nodup) (hname : name ∈ names)
    (hfields : v.recordFields? names ignored = some fields) :
    ∃ before after : Fields, List.lookup name before = none ∧
      fields = before ++ (name, x) :: after ∧
      v'.recordFields? names ignored = some (before ++ (name, y) :: after) := by
  cases h with
  | field before after =>
    rw [Value.recordFields?] at hfields ⊢
    split at hfields
    · rename_i hcount
      cases hfields
      have hcounts := List.all_eq_true.1 hcount
      refine ⟨before, after, Fields.lookup_eq_none ?_, rfl, ?_⟩
      · -- the field itself is the only one of its name
        have hone := of_decide_eq_true (hcounts name hname)
        rw [Fields.all_append, Fields.all_cons, if_pos rfl, List.length_append,
          List.length_cons] at hone
        exact List.length_eq_zero_iff.1 (by omega)
      · -- each name stands there as often as before
        rw [if_pos]
        rw [List.all_eq_true]
        intro n hn
        rw [← hcounts n hn]
        simp only [Fields.all_append, Fields.all_cons]
        by_cases hk : name = n
        · simp only [hk, if_true, List.length_append, List.length_cons]
        · simp only [hk, if_false]
    · cases hfields
  | item before after place =>
    rw [Value.recordFields?] at hfields ⊢
    obtain ⟨hnames, hzip⟩ := zip_around place after
    simp only [List.length_append, List.length_cons, hzip] at hfields ⊢
    split at hfields
    · rename_i hfit
      cases hfields
      -- the names before are other ones, since none stands twice
      refine ⟨_, _, ?_, rfl, if_pos hfit⟩
      rw [List.lookup_eq_none_iff]
      intro p hp
      have hmem : p.1 ∈ names.take before.length := (List.of_mem_zip hp).1
      rw [hnames, List.nodup_append] at hnodup
      have hne := hnodup.2.2 p.1 hmem name List.mem_cons_self
      simpa using Ne.symm hne
    · cases hfields

open Json in
/-- What can be read can be read after the exchange, if the new value can be read where the old one
    stands. -/
theorem denotable {shape s : Shape} (h : Exchanged names name x y v v') (hnodup : names.Nodup)
    (hfield : shape.field name = some s) (hitem : shape.item (names.idxOf name) = s)
    (hxy : Denotable s x → Denotable s y) (hv : Denotable shape v) : Denotable shape v' := by
  cases h with
  | field before after =>
    simp only [Denotable, denotableFields_append, DenotableFields] at hv ⊢
    obtain ⟨hbefore, ⟨s', hs', hx⟩, hafter⟩ := hv
    rw [hfield] at hs'
    cases hs'
    exact ⟨hbefore, ⟨s, hfield, hxy hx⟩, hafter⟩
  | item before after place =>
    simp only [Denotable, denotableItems_append, DenotableItems, Nat.zero_add,
      eq_idxOf hnodup place, hitem] at hv ⊢
    obtain ⟨hbefore, hx, hafter⟩ := hv
    exact ⟨hbefore, hxy hx, hafter⟩

/-- The nesting stays where that of the exchanged values is the same. -/
theorem nesting_eq (h : Exchanged names name x y v v') (hxy : x.nesting = y.nesting) :
    v.nesting = v'.nesting := by
  cases h with
  | field before after =>
    simp only [Value.nesting, Json.nestingFields_append, Value.nestingFields, hxy]
  | item before after place =>
    simp only [Value.nesting, Json.nestingItems_append, Value.nestingItems, hxy]

end Value.Exchanged

/-! ## Lists -/

/-- One element of a list has its part of what the list denotes, and the others theirs. -/
theorem mapM_around_iff {α β : Type} {f : α → Option β} {before after : List α} {a : α}
    {bs : List β} :
    (before ++ a :: after).mapM f = some bs ↔
      ∃ bs₁ b bs₂, before.mapM f = some bs₁ ∧ f a = some b ∧ after.mapM f = some bs₂ ∧
        bs = bs₁ ++ b :: bs₂ := by
  simp only [List.mapM_append, List.mapM_cons, Option.bind_eq_bind, Option.pure_def,
    Option.bind_eq_some_iff, Option.some.injEq]
  grind

/-! ## Expressions -/

namespace Expression

/-- The kind that a value names before anything else in it is read, by its field `kind` or by its first
    item. -/
def Kind.ofHead? : Value → Option Kind
  | .object fields => Kind.ofFields? true fields
  | .array (tag :: _) => Kind.ofValue? true tag
  | _ => none

/-- Whether two values are the same but for one expression in them: `x` in the first and `y` in the
    second one.  The expression may be the whole, or stand at any depth among the items of a
    concatenation, inside a conditional, or as the base of a property. -/
inductive Exchanged (x y : Value) : Value → Value → Prop
  | whole : Exchanged x y x y
  | item {v v' a b : Value} {before after : List Value}
    (kind : Kind.ofHead? v = some .concat)
    (record : Value.Exchanged ["kind", "items"] "items" (.array (before ++ a :: after))
      (.array (before ++ b :: after)) v v')
    (inside : Exchanged x y a b) : Exchanged x y v v'
  | inner {v v' a b : Value} (kind : Kind.ofHead? v = some .conditional)
    (record : Value.Exchanged ["kind", "inner"] "inner" a b v v')
    (inside : Exchanged x y a b) : Exchanged x y v v'
  | base {v v' a b : Value} (kind : Kind.ofHead? v = some .property)
    (record : Value.Exchanged ["kind", "base", "name"] "base" a b v v')
    (inside : Exchanged x y a b) : Exchanged x y v v'

/-- A kind that is given outside counts inside as well. -/
theorem Kind.ofValue?_inner {inner : Bool} {tag : Value} {k : Kind}
    (h : Kind.ofValue? inner tag = some k) : Kind.ofValue? true tag = some k := by
  cases inner with
  | true => exact h
  | false => cases tag <;> first | exact h | cases h

/-- An object that denotes an expression is read by the kind that it names. -/
theorem ofFields?_of_ofValue? {inner : Bool} {fields : Fields} {e : Expression} {k : Kind}
    (h : ofValue? inner (.object fields) = some e) (hk : Kind.ofHead? (.object fields) = some k) :
    Kind.ofFields? inner fields = some k := by
  cases hinner : Kind.ofFields? inner fields with
  | none =>
    rw [ofValue?, hinner] at h
    cases h
  | some k' =>
    obtain ⟨tag, htag, hk'⟩ := Option.bind_eq_some_iff.1 hinner
    rw [Kind.ofHead?, Kind.ofFields?, htag, Option.bind_some, Kind.ofValue?_inner hk'] at hk
    exact hk

/-- So is an array. -/
theorem ofTag?_of_ofValue? {inner : Bool} {tag : Value} {arguments : List Value} {e : Expression}
    {k : Kind} (h : ofValue? inner (.array (tag :: arguments)) = some e)
    (hk : Kind.ofHead? (.array (tag :: arguments)) = some k) :
    Kind.ofValue? inner tag = some k := by
  cases hinner : Kind.ofValue? inner tag with
  | none =>
    rw [ofValue?.eq_def] at h
    simp only [hinner] at h
    cases h
  | some k' =>
    rw [Kind.ofHead?, Kind.ofValue?_inner hinner] at hk
    exact hk

/-- The kind of an object does not depend on its other fields. -/
theorem ofFields?_exchange {name : String} (h : name ≠ "kind") (inner : Bool) (x y : Value)
    (before after : Fields) :
    Kind.ofFields? inner (before ++ (name, y) :: after) =
      Kind.ofFields? inner (before ++ (name, x) :: after) := by
  rw [Kind.ofFields?, Kind.ofFields?, Fields.only?_exchange_of_ne h]

variable {inner : Bool} {x y v v' : Value} {e : Expression}

/-! ### What an object or an array of a kind denotes -/

section Kinds

variable {inner : Bool} {fields : Fields} {tag : Value} {arguments : List Value} {e : Expression}

theorem ofValue?_object_concat (hkind : Kind.ofFields? inner fields = some .concat) :
    ofValue? inner (.object fields) = some e ↔
      ∃ v es, fields.only? "items" = some v ∧ ofArray? v = some es ∧ .concat es = e := by
  rw [ofValue?, hkind]
  simp only [arrayField?_eq, Option.map_eq_some_iff, Option.bind_eq_some_iff]
  grind

theorem ofValue?_object_conditional (hkind : Kind.ofFields? inner fields = some .conditional) :
    ofValue? inner (.object fields) = some e ↔
      ∃ v e', fields.only? "inner" = some v ∧ ofValue? true v = some e' ∧ .conditional e' = e := by
  rw [ofValue?, hkind]
  simp only [field?_eq, Option.map_eq_some_iff, Option.bind_eq_some_iff]
  grind

theorem ofValue?_object_property (hkind : Kind.ofFields? inner fields = some .property) :
    ofValue? inner (.object fields) = some e ↔
      ∃ v base name, fields.only? "base" = some v ∧ ofValue? true v = some base ∧
        textField? "name" fields = some name ∧ .property base name = e := by
  rw [ofValue?, hkind]
  simp only [field?_eq]
  grind [Option.bind_eq_some_iff]

theorem ofValue?_array_concat (htag : Kind.ofValue? inner tag = some .concat) :
    ofValue? inner (.array (tag :: arguments)) = some e ↔
      ∃ v es, arguments = [v] ∧ ofArray? v = some es ∧ .concat es = e := by
  rw [ofValue?.eq_def]
  simp only [htag]
  rcases arguments with _ | ⟨v, _ | ⟨w, more⟩⟩
  · simp
  · cases v <;> simp [ofArray?]
  · simp

theorem ofValue?_array_conditional (htag : Kind.ofValue? inner tag = some .conditional) :
    ofValue? inner (.array (tag :: arguments)) = some e ↔
      ∃ v e', arguments = [v] ∧ ofValue? true v = some e' ∧ .conditional e' = e := by
  rw [ofValue?.eq_def]
  simp only [htag]
  rcases arguments with _ | ⟨v, _ | ⟨w, more⟩⟩ <;> simp

theorem ofValue?_array_property (htag : Kind.ofValue? inner tag = some .property) :
    ofValue? inner (.array (tag :: arguments)) = some e ↔
      ∃ v base name, arguments = [v, .text name] ∧ ofValue? true v = some base ∧
        .property base name = e := by
  rw [ofValue?.eq_def]
  simp only [htag]
  rcases arguments with _ | ⟨v, _ | ⟨w, _ | ⟨w', more⟩⟩⟩
  · simp
  · simp
  · cases w <;> simp
  · simp

end Kinds

/-! ### Unknown kinds -/

/-- An object of a kind that is none of the known ones. -/
def UnknownKind (y : Value) : Prop :=
  ∃ (fields : Fields) (kind : String), y = .object fields ∧ fields.only? "kind" = some (.text kind) ∧
    ∀ k ∈ Kind.all, k ≠ .unsupported → k.name ≠ kind

/-- Such an object denotes an unsupported expression everywhere. -/
theorem UnknownKind.ofValue? {y : Value} (h : UnknownKind y) (inner : Bool) :
    Expression.ofValue? inner y = some .unsupported := by
  obtain ⟨fields, kind, rfl, hkind, hunknown⟩ := h
  -- the only name of a kind that may be found is that of the unsupported ones themselves
  have hname : Kind.ofName kind = .unsupported := by
    rw [Kind.ofName]
    cases hfind : Kind.all.find? (·.name = kind) with
    | none => rfl
    | some k =>
      by_contra hne
      exact hunknown k (List.mem_of_find?_eq_some hfind) hne (by simpa using List.find?_some hfind)
  have hfields : Kind.ofFields? inner fields = some .unsupported := by
    rw [Kind.ofFields?, hkind, Option.bind_some, Kind.ofValue?, hname]
  rw [Expression.ofValue?, hfields]

/-! ### What an exchange does -/

section Exchange

variable {inner : Bool} {x y v v' : Value} {e : Expression}

/-- The items decide what a concatenation denotes. -/
theorem ofValue?_exchange_items (hkind : Kind.ofHead? v = some .concat)
    (record : Value.Exchanged ["kind", "items"] "items" x y v v')
    (h : ofValue? inner v = some e) :
    ∃ es, ofArray? x = some es ∧
      ∀ es', ofArray? y = some es' → ofValue? inner v' = some (.concat es') := by
  cases record with
  | field before after =>
    have hfields := ofFields?_of_ofValue? h hkind
    obtain ⟨w, es, hw, hes, -⟩ := (ofValue?_object_concat hfields).1 h
    obtain ⟨rfl, hothers⟩ := Fields.only?_exchange hw
    refine ⟨es, hes, fun es' hes' => ?_⟩
    rw [← ofFields?_exchange (by decide) inner w y] at hfields
    exact (ofValue?_object_concat hfields).2 ⟨y, es', hothers y, hes', rfl⟩
  | item before after place =>
    obtain ⟨tag, rfl⟩ := List.length_eq_one_iff.1 (eq_idxOf (by decide) place)
    have htag := ofTag?_of_ofValue? h hkind
    obtain ⟨w, es, harguments, hes, -⟩ := (ofValue?_array_concat htag).1 h
    obtain ⟨rfl, rfl⟩ := List.cons.inj harguments
    exact ⟨es, hes, fun es' hes' => (ofValue?_array_concat htag).2 ⟨y, es', rfl, hes', rfl⟩⟩

/-- The inner expression decides what a conditional denotes. -/
theorem ofValue?_exchange_inner (hkind : Kind.ofHead? v = some .conditional)
    (record : Value.Exchanged ["kind", "inner"] "inner" x y v v')
    (h : ofValue? inner v = some e) :
    ∃ a, ofValue? true x = some a ∧
      ∀ a', ofValue? true y = some a' → ofValue? inner v' = some (.conditional a') := by
  cases record with
  | field before after =>
    have hfields := ofFields?_of_ofValue? h hkind
    obtain ⟨w, a, hw, ha, -⟩ := (ofValue?_object_conditional hfields).1 h
    obtain ⟨rfl, hothers⟩ := Fields.only?_exchange hw
    refine ⟨a, ha, fun a' ha' => ?_⟩
    rw [← ofFields?_exchange (by decide) inner w y] at hfields
    exact (ofValue?_object_conditional hfields).2 ⟨y, a', hothers y, ha', rfl⟩
  | item before after place =>
    obtain ⟨tag, rfl⟩ := List.length_eq_one_iff.1 (eq_idxOf (by decide) place)
    have htag := ofTag?_of_ofValue? h hkind
    obtain ⟨w, a, harguments, ha, -⟩ := (ofValue?_array_conditional htag).1 h
    obtain ⟨rfl, rfl⟩ := List.cons.inj harguments
    exact ⟨a, ha, fun a' ha' => (ofValue?_array_conditional htag).2 ⟨y, a', rfl, ha', rfl⟩⟩

/-- The base and the name decide what a property denotes. -/
theorem ofValue?_exchange_base (hkind : Kind.ofHead? v = some .property)
    (record : Value.Exchanged ["kind", "base", "name"] "base" x y v v')
    (h : ofValue? inner v = some e) :
    ∃ a name, ofValue? true x = some a ∧
      ∀ a', ofValue? true y = some a' → ofValue? inner v' = some (.property a' name) := by
  cases record with
  | field before after =>
    have hfields := ofFields?_of_ofValue? h hkind
    obtain ⟨w, a, name, hw, ha, hname, -⟩ := (ofValue?_object_property hfields).1 h
    obtain ⟨rfl, hothers⟩ := Fields.only?_exchange hw
    refine ⟨a, name, ha, fun a' ha' => ?_⟩
    rw [← ofFields?_exchange (by decide) inner w y] at hfields
    rw [textField?, ← Fields.only?_exchange_of_ne (by decide) w y] at hname
    exact (ofValue?_object_property hfields).2 ⟨y, a', name, hothers y, ha', hname, rfl⟩
  | item before after place =>
    obtain ⟨tag, rfl⟩ := List.length_eq_one_iff.1 (eq_idxOf (by decide) place)
    have htag := ofTag?_of_ofValue? h hkind
    obtain ⟨w, a, name, harguments, ha, -⟩ := (ofValue?_array_property htag).1 h
    obtain ⟨rfl, rfl⟩ := List.cons.inj harguments
    exact ⟨a, name, ha, fun a' ha' => (ofValue?_array_property htag).2 ⟨y, a', name, rfl, ha', rfl⟩⟩

/-- An unsupported expression in the place of one inside another leaves an expression, and it is a part
    of that one.  The induction is on the exchange, from the whole down to the place. -/
theorem Exchanged.ofValue? (hy : ∀ inner, Expression.ofValue? inner y = some .unsupported)
    (h : Exchanged x y v v') : ∀ {inner : Bool} {e : Expression},
      Expression.ofValue? inner v = some e →
      ∃ e', Expression.ofValue? inner v' = some e' ∧ occurs .unsupported e' = true := by
  induction h with
  | whole =>
    intro inner e _
    exact ⟨.unsupported, hy inner, rfl⟩
  | item kind record inside ih =>
    intro inner e he
    obtain ⟨es, hes, hothers⟩ := ofValue?_exchange_items kind record he
    rw [ofArray?, ofItems?_eq] at hes
    -- only the one item is denoted anew
    obtain ⟨es₁, a, es₂, h₁, ha, h₂, -⟩ := mapM_around_iff.1 hes
    obtain ⟨a', ha', hocc⟩ := ih ha
    have hes' := mapM_around_iff.2 ⟨es₁, a', es₂, h₁, ha', h₂, rfl⟩
    refine ⟨.concat (es₁ ++ a' :: es₂), hothers _ (by rw [ofArray?, ofItems?_eq, hes']), ?_⟩
    have hin : occursIn .unsupported (es₁ ++ a' :: es₂) = true :=
      occursIn_iff.2 ⟨a', by simp, hocc⟩
    simp only [occurs, hin, Bool.or_true]
  | inner kind record inside ih =>
    intro inner e he
    obtain ⟨a, ha, hothers⟩ := ofValue?_exchange_inner kind record he
    obtain ⟨a', ha', hocc⟩ := ih ha
    refine ⟨.conditional a', hothers a' ha', ?_⟩
    simp only [occurs, hocc, Bool.or_true]
  | base kind record inside ih =>
    intro inner e he
    obtain ⟨a, name, ha, hothers⟩ := ofValue?_exchange_base kind record he
    obtain ⟨a', ha', hocc⟩ := ih ha
    refine ⟨.property a' name, hothers a' ha', ?_⟩
    simp only [occurs, hocc, Bool.or_true]

open Json in
/-- The values that can be read stay so, wherever in an expression the exchange is. -/
theorem Exchanged.denotable (hy : Denotable .whole y) (h : Exchanged x y v v') :
    Denotable .whole v → Denotable .whole v' := by
  induction h with
  | whole => exact fun _ => hy
  | item kind record inside ih =>
    refine record.denotable (by decide) rfl rfl fun hitems => ?_
    simp only [Denotable, denotableItems_append, DenotableItems] at hitems ⊢
    obtain ⟨hbefore, ha, hafter⟩ := hitems
    exact ⟨hbefore, ih ha, hafter⟩
  | inner kind record inside ih => exact record.denotable (by decide) rfl rfl ih
  | base kind record inside ih => exact record.denotable (by decide) rfl rfl ih

end Exchange

end Expression

end OperationCatalog
