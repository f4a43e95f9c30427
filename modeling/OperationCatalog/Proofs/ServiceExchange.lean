import OperationCatalog.Model
import OperationCatalog.Proofs.CatalogAssembly
import OperationCatalog.Proofs.ExpressionExchange

/-!
# One expression of a service in the place of another

The methods of a service stand in its document at the top level and in groups, and each has an
expression for its URL.  An expression anywhere inside one of these can be exchanged for an unsupported
one: the document still denotes a service, the same but for one URL, and it still has a text.

## Key results

- `Method.ofValue?_exchange`, `Group.ofValue?_exchange`, `Service.ofValue?_exchange_methods`,
  `Service.ofValue?_exchange_groups`: one field of a record exchanged by itself
- `Service.Exchanged.ofValue?`: the service before and after an exchange
- `Service.Exchanged.denotable`: the document can be read after it, if the new expression can
-/

namespace OperationCatalog

/-! ## Lists in records -/

/-- The items of the array that stands under a field of a record, none if there is no such array. -/
def Value.itemsOf (names : List String) (name : String) (v : Value) : List Value :=
  (((v.recordFields? names false).bind (List.lookup name)).bind Value.items?).getD []

/-- A list that may be missing is denoted item by item. -/
theorem orElse_listOf? {α : Type} {denoted : Value → Option α} {v? : Option Value} {as : List α}
    (h : orElse [] (Value.listOf? denoted) v? = some as) :
    ((v?.bind Value.items?).getD []).mapM denoted = some as := by
  cases v? with
  | none =>
    cases h
    rfl
  | some v =>
    obtain ⟨items, hitems, has⟩ := Option.bind_eq_some_iff.1 h
    rw [Option.bind_some, hitems]
    exact has

/-- After an exchange in a record the exchanged field denotes something else and the others the
    same. -/
theorem Value.Exchanged.lookups {names : List String} {name : String} {x y v v' : Value}
    {ignored : Bool} {fields : Fields} (h : Value.Exchanged names name x y v v')
    (hnodup : names.Nodup) (hname : name ∈ names)
    (hfields : v.recordFields? names ignored = some fields) :
    ∃ fields', v'.recordFields? names ignored = some fields' ∧
      List.lookup name fields = some x ∧ List.lookup name fields' = some y ∧
      ∀ n, n ≠ name → List.lookup n fields' = List.lookup n fields := by
  obtain ⟨before, after, hnone, rfl, hfields'⟩ := h.recordFields? hnodup hname hfields
  exact ⟨_, hfields', Fields.lookup_exchange hnone x, Fields.lookup_exchange hnone y,
    fun n hn => Fields.lookup_exchange_of_ne hn x y⟩

/-! ## Methods, groups and services -/

namespace Method

/-- Whether two values are the same method but for one expression inside its URL. -/
def Exchanged (x y m m' : Value) : Prop :=
  ∃ u u', Value.Exchanged fieldNames "url" u u' m m' ∧ Expression.Exchanged x y u u'

/-- The URL of a method can be exchanged by itself. -/
theorem ofValue?_exchange {ignored : Bool} {u u' v v' : Value} {m : Method}
    (record : Value.Exchanged fieldNames "url" u u' v v') (h : ofValue? ignored v = some m) :
    Expression.ofValue? false u = some m.url ∧
      ∀ e, Expression.ofValue? false u' = some e → ofValue? ignored v' = some { m with url := e } := by
  obtain ⟨fields, hfields, hname, hverb, hurl, hrequests, hresponses⟩ := ofValue?_eq_some_iff.1 h
  obtain ⟨fields', hfields', hold, hnew, hothers⟩ :=
    record.lookups (by decide) (by decide) hfields
  rw [hold, Option.bind_some] at hurl
  refine ⟨hurl, fun e he => ofValue?_eq_some_iff.2 ⟨fields', hfields', ?_⟩⟩
  -- the other fields are looked up as before
  refine ⟨?_, ?_, ?_, ?_, ?_⟩
  · rw [hothers _ (by decide)]
    exact hname
  · rw [hothers _ (by decide)]
    exact hverb
  · rw [hnew]
    exact he
  · rw [hothers _ (by decide)]
    exact hrequests
  · rw [hothers _ (by decide)]
    exact hresponses

/-- An unsupported expression inside the URL leaves a method, with an unsupported part. -/
theorem Exchanged.ofValue? {ignored : Bool} {x y v v' : Value} {m : Method}
    (hy : ∀ inner, Expression.ofValue? inner y = some .unsupported) (h : Exchanged x y v v')
    (hm : Method.ofValue? ignored v = some m) :
    ∃ e, e.occurs .unsupported = true ∧ Method.ofValue? ignored v' = some { m with url := e } := by
  obtain ⟨u, u', record, inside⟩ := h
  obtain ⟨hurl, hothers⟩ := ofValue?_exchange record hm
  obtain ⟨e, he, hocc⟩ := inside.ofValue? hy hurl
  exact ⟨e, hocc, hothers e he⟩

end Method

namespace Group

/-- The methods of a group can be exchanged by themselves. -/
theorem ofValue?_exchange {ignored : Bool} {w w' v v' : Value} {g : Group}
    (record : Value.Exchanged fieldNames "methods" w w' v v') (h : ofValue? ignored v = some g) :
    w.listOf? (Method.ofValue? ignored) = some g.methods ∧
      ∀ ms, w'.listOf? (Method.ofValue? ignored) = some ms →
        ofValue? ignored v' = some { g with methods := ms } := by
  obtain ⟨fields, hfields, hname, hmethods⟩ := ofValue?_eq_some_iff.1 h
  obtain ⟨fields', hfields', hold, hnew, hothers⟩ :=
    record.lookups (by decide) (by decide) hfields
  rw [hold] at hmethods
  refine ⟨hmethods, fun ms hms => ofValue?_eq_some_iff.2 ⟨fields', hfields', ?_, ?_⟩⟩
  · rw [hothers _ (by decide)]
    exact hname
  · rw [hnew]
    exact hms

/-- The methods of a group are those that its value lists. -/
theorem ofValue?_itemsOf {v : Value} {g : Group} (h : ofValue? false v = some g) :
    (v.itemsOf fieldNames "methods").mapM (Method.ofValue? false) = some g.methods := by
  obtain ⟨fields, hfields, -, hmethods⟩ := ofValue?_eq_some_iff.1 h
  rw [Value.itemsOf, hfields]
  exact orElse_listOf? hmethods

/-- The methods of several groups are those that their values list, one group after the other. -/
theorem mapM_flatMap_itemsOf {vs : List Value} {gs : List Group}
    (h : vs.mapM (ofValue? false) = some gs) :
    (vs.flatMap (Value.itemsOf fieldNames "methods")).mapM (Method.ofValue? false) =
      some (gs.flatMap Group.methods) := by
  induction vs generalizing gs with
  | nil =>
    cases h
    rfl
  | cons v rest ih =>
    simp only [List.mapM_cons, Option.bind_eq_bind, Option.bind_eq_some_iff, Option.pure_def] at h
    obtain ⟨g, hg, others, hothers, hgs⟩ := h
    cases hgs
    rw [List.flatMap_cons, List.mapM_append, ofValue?_itemsOf hg, ih hothers]
    rfl

end Group

namespace Service

/-- Whether two documents are the same service but for one expression inside the URL of one method,
    which stands behind those of the values `declared`: at the top level, or in a group behind all
    methods of the top level and of the groups before. -/
inductive Exchanged (x y : Value) : List Value → Value → Value → Prop
  | method {v v' m m' : Value} {before after : List Value}
    (record : Value.Exchanged fieldNames "methods" (.array (before ++ m :: after))
      (.array (before ++ m' :: after)) v v')
    (inside : Method.Exchanged x y m m') : Exchanged x y before v v'
  | group {v v' g g' m m' : Value} {groupsBefore groupsAfter before after : List Value}
    (record : Value.Exchanged fieldNames "groups" (.array (groupsBefore ++ g :: groupsAfter))
      (.array (groupsBefore ++ g' :: groupsAfter)) v v')
    (methods : Value.Exchanged Group.fieldNames "methods" (.array (before ++ m :: after))
      (.array (before ++ m' :: after)) g g')
    (inside : Method.Exchanged x y m m') :
    Exchanged x y (v.itemsOf fieldNames "methods" ++
      groupsBefore.flatMap (Value.itemsOf Group.fieldNames "methods") ++ before) v v'

/-- The methods at the top level of a service can be exchanged by themselves. -/
theorem ofValue?_exchange_methods {ignored : Bool} {w w' v v' : Value} {s : Service}
    (record : Value.Exchanged fieldNames "methods" w w' v v') (h : ofValue? ignored v = some s) :
    w.listOf? (Method.ofValue? ignored) = some s.methods ∧
      ∀ ms, w'.listOf? (Method.ofValue? ignored) = some ms →
        ofValue? ignored v' = some { s with methods := ms } := by
  obtain ⟨fields, hfields, hname, hcontext, hmethods, hgroups⟩ := ofValue?_eq_some_iff.1 h
  obtain ⟨fields', hfields', hold, hnew, hothers⟩ :=
    record.lookups (by decide) (by decide) hfields
  rw [hold] at hmethods
  refine ⟨hmethods, fun ms hms => ofValue?_eq_some_iff.2 ⟨fields', hfields', ?_, ?_, ?_, ?_⟩⟩
  · rw [hothers _ (by decide)]
    exact hname
  · rw [hothers _ (by decide)]
    exact hcontext
  · rw [hnew]
    exact hms
  · rw [hothers _ (by decide)]
    exact hgroups

/-- So can the groups. -/
theorem ofValue?_exchange_groups {ignored : Bool} {w w' v v' : Value} {s : Service}
    (record : Value.Exchanged fieldNames "groups" w w' v v') (h : ofValue? ignored v = some s) :
    w.listOf? (Group.ofValue? ignored) = some s.groups ∧
      ∀ gs, w'.listOf? (Group.ofValue? ignored) = some gs →
        ofValue? ignored v' = some { s with groups := gs } := by
  obtain ⟨fields, hfields, hname, hcontext, hmethods, hgroups⟩ := ofValue?_eq_some_iff.1 h
  obtain ⟨fields', hfields', hold, hnew, hothers⟩ :=
    record.lookups (by decide) (by decide) hfields
  rw [hold] at hgroups
  refine ⟨hgroups, fun gs hgs => ofValue?_eq_some_iff.2 ⟨fields', hfields', ?_, ?_, ?_, ?_⟩⟩
  · rw [hothers _ (by decide)]
    exact hname
  · rw [hothers _ (by decide)]
    exact hcontext
  · rw [hothers _ (by decide)]
    exact hmethods
  · rw [hnew]
    exact hgs

/-- The methods at the top level of a service are those that its value lists there. -/
theorem ofValue?_itemsOf {v : Value} {s : Service} (h : ofValue? false v = some s) :
    (v.itemsOf fieldNames "methods").mapM (Method.ofValue? false) = some s.methods := by
  obtain ⟨fields, hfields, -, -, hmethods, -⟩ := ofValue?_eq_some_iff.1 h
  rw [Value.itemsOf, hfields]
  exact orElse_listOf? hmethods

variable {x y v v' : Value} {declared : List Value}

/-- After an exchange of an expression for an unsupported one the same service is denoted, but for the
    URL of the one method. -/
theorem Exchanged.ofValue? {s : Service}
    (hy : ∀ inner, Expression.ofValue? inner y = some .unsupported)
    (h : Exchanged x y declared v v') (hs : Service.ofValue? false v = some s) :
    ∃ before m after e s', declared.mapM (Method.ofValue? false) = some before ∧
      s.allMethods = before ++ m :: after ∧ e.occurs .unsupported = true ∧
      Service.ofValue? false v' = some s' ∧ s.Alike s' ∧
      s'.allMethods = before ++ { m with url := e } :: after := by
  cases h with
  | @method _ _ m m' before after record inside =>
    obtain ⟨hmethods, hothers⟩ := ofValue?_exchange_methods record hs
    obtain ⟨ms₁, meth, ms₂, h₁, hm, h₂, hms⟩ := mapM_around_iff.1 hmethods
    obtain ⟨e, hocc, hm'⟩ := inside.ofValue? hy hm
    have hnew := hothers _ (mapM_around_iff.2 ⟨ms₁, _, ms₂, h₁, hm', h₂, rfl⟩)
    -- all groups stand behind
    refine ⟨ms₁, meth, ms₂ ++ s.groups.flatMap Group.methods, e, _, h₁, ?_, hocc, hnew, ⟨rfl, rfl⟩,
      ?_⟩
    · rw [allMethods, hms, List.append_assoc, List.cons_append]
    · rw [allMethods, List.append_assoc, List.cons_append]
  | @group _ _ g g' m m' groupsBefore groupsAfter before after record methods inside =>
    obtain ⟨hgroups, hothers⟩ := ofValue?_exchange_groups record hs
    obtain ⟨gs₁, grp, gs₂, hg₁, hg, hg₂, hgs⟩ := mapM_around_iff.1 hgroups
    -- inside the group it is as at the top level
    obtain ⟨hmethods, hothers'⟩ := Group.ofValue?_exchange methods hg
    obtain ⟨ms₁, meth, ms₂, h₁, hm, h₂, hms⟩ := mapM_around_iff.1 hmethods
    obtain ⟨e, hocc, hm'⟩ := inside.ofValue? hy hm
    have hg' := hothers' _ (mapM_around_iff.2 ⟨ms₁, _, ms₂, h₁, hm', h₂, rfl⟩)
    have hnew := hothers _ (mapM_around_iff.2 ⟨gs₁, _, gs₂, hg₁, hg', hg₂, rfl⟩)
    -- the methods before: those of the top level, of the groups before, and of the same group
    refine ⟨s.methods ++ gs₁.flatMap Group.methods ++ ms₁, meth,
      ms₂ ++ gs₂.flatMap Group.methods, e, _, ?_, ?_, hocc, hnew, ⟨rfl, rfl⟩, ?_⟩
    · rw [List.mapM_append, List.mapM_append, ofValue?_itemsOf hs,
        Group.mapM_flatMap_itemsOf hg₁, h₁]
      rfl
    · simp only [allMethods, hgs, hms, List.flatMap_append, List.flatMap_cons, List.append_assoc,
        List.cons_append]
    · simp only [allMethods, List.flatMap_append, List.flatMap_cons, List.append_assoc,
        List.cons_append]

open Json in
/-- A list of values that can be read stays one if one of them is exchanged for another that can. -/
theorem denotable_list {shape : Shape} {a b : Value} {before after : List Value}
    (hab : Denotable shape a → Denotable shape b)
    (h : Denotable (.list shape) (.array (before ++ a :: after))) :
    Denotable (.list shape) (.array (before ++ b :: after)) := by
  simp only [Denotable, denotableItems_append, DenotableItems] at h ⊢
  obtain ⟨hbefore, ha, hafter⟩ := h
  exact ⟨hbefore, hab ha, hafter⟩

open Json in
/-- The document can be read after the exchange, if the new expression can be read by itself. -/
theorem Exchanged.denotable (hy : Denotable .whole y) (h : Exchanged x y declared v v')
    (hv : Denotable Service.shape v) : Denotable Service.shape v' := by
  have hmethod : ∀ {m m' : Value}, Method.Exchanged x y m m' →
      Denotable Method.shape m → Denotable Method.shape m' := by
    intro m m' ⟨u, u', record, inside⟩ hm
    exact record.denotable (by decide) rfl rfl (inside.denotable hy) hm
  cases h with
  | method record inside =>
    exact record.denotable (by decide) rfl rfl (denotable_list (hmethod inside)) hv
  | group record methods inside =>
    refine record.denotable (by decide) rfl rfl (denotable_list fun hg => ?_) hv
    exact methods.denotable (by decide) rfl rfl (denotable_list (hmethod inside)) hg

end Service

end OperationCatalog
