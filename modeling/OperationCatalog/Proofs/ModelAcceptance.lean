import Mathlib.Logic.Relation
import OperationCatalog.Proofs.ServiceExchange
import OperationCatalog.Proofs.ShapedReading

/-!
# Which models are accepted

The text of a model either denotes no service in the format of its path, or it denotes one.  That service
is accepted exactly if it has a name and all its methods have, be they at the top level or in groups,
where white space is no name.  Nothing else counts: neither the names of groups nor that a name is used
several times, nor kinds that are not known, nor any verb.

## Key results

- `Service.flaw?_eq_some_iff`, `Service.flaw?_eq_none_iff`: what is wrong with a service
- `Model.parse_eq_error_iff`: the errors of parsing
- `Service.VerbChanged.ofValue?`: a document with another verb denotes a service of the same names
- `Service.VerbChanged.exists_read`: it has a text in JSON if the first one has
- `model_accepted_iff_named`: the outcomes of parsing, and what they do not depend on
-/

namespace OperationCatalog

/-! ## Blank names -/

namespace Text

theorem trimChars_eq_nil_iff {cs : List Char} : trimChars cs = [] ↔ ∀ c ∈ cs, isBlank c = true := by
  rw [trimChars_eq_iff]
  constructor
  · rintro ⟨⟨front, back, rfl, hfront, hback⟩, -⟩ c hc
    rw [List.append_nil, List.mem_append] at hc
    exact hc.elim (hfront c) (hback c)
  · intro h
    exact ⟨⟨cs, [], by simp, h, by simp⟩, by simp [Trimmed]⟩

/-- A text is all white space exactly if nothing is left when it is trimmed. -/
theorem isAllBlank_iff {s : String} : isAllBlank s = true ↔ trim s = "" := by
  rw [isAllBlank, List.all_eq_true, ← trimChars_eq_nil_iff, ← toList_trim, String.toList_eq_nil_iff]

end Text

namespace Service

/-- Whether some method has a blank name, at the top level or in a group. -/
def DeclaresUnnamed (s : Service) : Prop :=
  (∃ m ∈ s.methods, Text.trim m.name = "") ∨
    ∃ g ∈ s.groups, ∃ m ∈ g.methods, Text.trim m.name = ""

theorem declaresUnnamed_iff {s : Service} :
    s.DeclaresUnnamed ↔ ∃ m ∈ s.allMethods, Text.trim m.name = "" := by
  constructor
  · rintro (⟨m, hm, hname⟩ | ⟨g, hg, m, hm, hname⟩)
    · exact ⟨m, List.mem_append_left _ hm, hname⟩
    · exact ⟨m, List.mem_append_right _ (List.mem_flatMap.2 ⟨g, hg, hm⟩), hname⟩
  · intro ⟨m, hm, hname⟩
    rcases List.mem_append.1 hm with hm | hm
    · exact .inl ⟨m, hm, hname⟩
    · obtain ⟨g, hg, hm⟩ := List.mem_flatMap.1 hm
      exact .inr ⟨g, hg, m, hm, hname⟩

/-- Only the names of methods count, not how often they are used. -/
theorem declaresUnnamed_congr {s s' : Service}
    (h : ∀ name, name ∈ s.allMethods.map Method.name ↔ name ∈ s'.allMethods.map Method.name) :
    s.DeclaresUnnamed ↔ s'.DeclaresUnnamed := by
  have hnames : ∀ t : Service, t.DeclaresUnnamed ↔
      ∃ name ∈ t.allMethods.map Method.name, Text.trim name = "" := fun t => by
    simp only [declaresUnnamed_iff, List.mem_map, exists_exists_and_eq_and]
  rw [hnames, hnames]
  exact exists_congr fun name => and_congr_left' (h name)

/-- The check of all methods finds a blank name wherever there is one. -/
theorem any_isAllBlank_iff {s : Service} :
    (s.allMethods.any fun m => Text.isAllBlank m.name) = true ↔ s.DeclaresUnnamed := by
  simp only [List.any_eq_true, Text.isAllBlank_iff, declaresUnnamed_iff]

/-- A blank name of the service comes first. -/
theorem flaw?_eq_some_iff {s : Service} {flaw : ModelFlaw} :
    s.flaw? = some flaw ↔
      Text.trim s.name = "" ∧ flaw = .blankName ∨
      Text.trim s.name ≠ "" ∧ s.DeclaresUnnamed ∧ flaw = .unnamedMethod s.name := by
  rw [flaw?]
  by_cases hname : Text.trim s.name = ""
  · simp [Text.isAllBlank_iff.2 hname, hname, eq_comm]
  · rw [if_neg fun h => hname (Text.isAllBlank_iff.1 h)]
    by_cases hmethod : s.DeclaresUnnamed
    · simp [any_isAllBlank_iff.2 hmethod, hname, hmethod, eq_comm]
    · rw [if_neg fun h => hmethod (any_isAllBlank_iff.1 h)]
      simp [hname, hmethod]

theorem flaw?_eq_none_iff {s : Service} :
    s.flaw? = none ↔ Text.trim s.name ≠ "" ∧ ¬s.DeclaresUnnamed := by
  rw [Option.eq_none_iff_forall_ne_some]
  simp only [ne_eq, flaw?_eq_some_iff]
  constructor
  · intro h
    refine ⟨fun hname => h _ (.inl ⟨hname, rfl⟩), fun hmethod => ?_⟩
    by_cases hname : Text.trim s.name = ""
    · exact h _ (.inl ⟨hname, rfl⟩)
    · exact h _ (.inr ⟨hname, hmethod, rfl⟩)
  · rintro ⟨hname, hmethod⟩ flaw (⟨hblank, -⟩ | ⟨-, hunnamed, -⟩)
    · exact hname hblank
    · exact hmethod hunnamed

end Service

namespace Model

variable {wording : Wording}

/-- There is no service if the text denotes none, or one that something is wrong with. -/
theorem parse_eq_error_iff {path text : String} {e : ModelError} :
    parse wording path text = .error e ↔
      ((Format.ofPath path).read? text).map Service.flaw? = none ∧
        e = .parse path (wording (Format.ofPath path) text) ∨
      ∃ flaw, ((Format.ofPath path).read? text).map Service.flaw? = some (some flaw) ∧
        e = .invalid flaw := by
  rw [parse]
  cases (Format.ofPath path).read? text with
  | none => simp [eq_comm]
  | some s =>
    rw [Option.map_some]
    cases hflaw : s.flaw? with
    | none => simp [hflaw]
    | some flaw => simp [hflaw, eq_comm]

theorem exists_parse_eq_ok_iff {path text : String} :
    (∃ s, parse wording path text = .ok s) ↔
      ((Format.ofPath path).read? text).map Service.flaw? = some none := by
  simp only [parse_eq_ok_iff, Option.map_eq_some_iff]

theorem parse_eq_unread_iff {path text : String} :
    parse wording path text = .error (.parse path (wording (Format.ofPath path) text)) ↔
      ((Format.ofPath path).read? text).map Service.flaw? = none := by
  simp [parse_eq_error_iff]

theorem parse_eq_invalid_iff {path text : String} {flaw : ModelFlaw} :
    parse wording path text = .error (.invalid flaw) ↔
      ((Format.ofPath path).read? text).map Service.flaw? = some (some flaw) := by
  simp only [parse_eq_error_iff, reduceCtorEq, and_false, false_or, ModelError.invalid.injEq,
    exists_eq_right']

end Model

/-! ## Verbs -/

theorem Value.Exchanged.symm {names : List String} {name : String} {x y v v' : Value}
    (h : Exchanged names name x y v v') : Exchanged names name y x v' v := by
  cases h with
  | field before after => exact .field before after
  | item before after place => exact .item before after place

namespace Method

/-- Whether two values are the same method but for the text of the verb. -/
def VerbChanged (v v' : Value) : Prop :=
  ∃ old new, Value.Exchanged fieldNames "httpVerb" (.text old) (.text new) v v'

theorem VerbChanged.symm {v v' : Value} (h : VerbChanged v v') : VerbChanged v' v := by
  obtain ⟨old, new, record⟩ := h
  exact ⟨new, old, record.symm⟩

/-- Any text is a verb, so there is still a method, with the same name. -/
theorem VerbChanged.ofValue? {ignored : Bool} {v v' : Value} {m : Method} (h : VerbChanged v v')
    (hm : Method.ofValue? ignored v = some m) :
    ∃ verb, Method.ofValue? ignored v' = some { m with verb := verb } := by
  obtain ⟨old, new, record⟩ := h
  obtain ⟨fields, hfields, hname, -, hurl, hrequests, hresponses⟩ := ofValue?_eq_some_iff.1 hm
  obtain ⟨fields', hfields', -, hnew, hothers⟩ := record.lookups (by decide) (by decide) hfields
  refine ⟨Verb.ofText new, ofValue?_eq_some_iff.2 ⟨fields', hfields', ?_, ?_, ?_, ?_, ?_⟩⟩
  · rw [hothers _ (by decide)]
    exact hname
  · rw [hnew, Option.bind_some, Verb.ofValue?, Value.text?, Option.map_some]
  · rw [hothers _ (by decide)]
    exact hurl
  · rw [hothers _ (by decide)]
    exact hrequests
  · rw [hothers _ (by decide)]
    exact hresponses

theorem VerbChanged.denotable {v v' : Value} (h : VerbChanged v v')
    (hv : Json.Denotable Method.shape v) : Json.Denotable Method.shape v' := by
  obtain ⟨old, new, record⟩ := h
  exact record.denotable (by decide) rfl rfl (fun _ => trivial) hv

theorem VerbChanged.nesting_eq {v v' : Value} (h : VerbChanged v v') : v.nesting = v'.nesting := by
  obtain ⟨old, new, record⟩ := h
  exact record.nesting_eq rfl

end Method

namespace Service

/-- Whether two documents are the same service but for the text of the verb of one method, at the top
    level or in a group. -/
inductive VerbChanged : Value → Value → Prop
  | method {v v' m m' : Value} {before after : List Value}
    (record : Value.Exchanged fieldNames "methods" (.array (before ++ m :: after))
      (.array (before ++ m' :: after)) v v')
    (change : Method.VerbChanged m m') : VerbChanged v v'
  | group {v v' g g' m m' : Value} {groupsBefore groupsAfter before after : List Value}
    (record : Value.Exchanged fieldNames "groups" (.array (groupsBefore ++ g :: groupsAfter))
      (.array (groupsBefore ++ g' :: groupsAfter)) v v')
    (methods : Value.Exchanged Group.fieldNames "methods" (.array (before ++ m :: after))
      (.array (before ++ m' :: after)) g g')
    (change : Method.VerbChanged m m') : VerbChanged v v'

theorem VerbChanged.symm {v v' : Value} (h : VerbChanged v v') : VerbChanged v' v := by
  cases h with
  | method record change => exact .method record.symm change.symm
  | group record methods change => exact .group record.symm methods.symm change.symm

/-- The document denotes a service with the same names, if it denoted one. -/
theorem VerbChanged.ofValue? {ignored : Bool} {v v' : Value} {s : Service} (h : VerbChanged v v')
    (hs : Service.ofValue? ignored v = some s) :
    ∃ s', Service.ofValue? ignored v' = some s' ∧ s.name = s'.name ∧
      s.allMethods.map Method.name = s'.allMethods.map Method.name := by
  cases h with
  | @method m m' before after record change =>
    obtain ⟨hmethods, hothers⟩ := ofValue?_exchange_methods record hs
    obtain ⟨ms₁, meth, ms₂, h₁, hm, h₂, hms⟩ := mapM_around_iff.1 hmethods
    obtain ⟨verb, hm'⟩ := change.ofValue? hm
    refine ⟨_, hothers _ (mapM_around_iff.2 ⟨ms₁, _, ms₂, h₁, hm', h₂, rfl⟩), rfl, ?_⟩
    simp only [allMethods, hms, List.map_append, List.map_cons]
  | @group g g' m m' groupsBefore groupsAfter before after record methods change =>
    obtain ⟨hgroups, hothers⟩ := ofValue?_exchange_groups record hs
    obtain ⟨gs₁, grp, gs₂, hg₁, hg, hg₂, hgs⟩ := mapM_around_iff.1 hgroups
    -- inside the group it is as at the top level
    obtain ⟨hmethods, hothers'⟩ := Group.ofValue?_exchange methods hg
    obtain ⟨ms₁, meth, ms₂, h₁, hm, h₂, hms⟩ := mapM_around_iff.1 hmethods
    obtain ⟨verb, hm'⟩ := change.ofValue? hm
    have hg' := hothers' _ (mapM_around_iff.2 ⟨ms₁, _, ms₂, h₁, hm', h₂, rfl⟩)
    refine ⟨_, hothers _ (mapM_around_iff.2 ⟨gs₁, _, gs₂, hg₁, hg', hg₂, rfl⟩), rfl, ?_⟩
    simp only [allMethods, hgs, hms, List.flatMap_append, List.flatMap_cons, List.map_append,
      List.map_cons]

/-- The same is wrong with it, or it denotes no service both times. -/
theorem VerbChanged.map_flaw? {v v' : Value} (h : VerbChanged v v') (ignored : Bool) :
    (Service.ofValue? ignored v).map flaw? = (Service.ofValue? ignored v').map flaw? := by
  cases hs : Service.ofValue? ignored v with
  | some s =>
    obtain ⟨s', hs', hname, hnames⟩ := h.ofValue? hs
    rw [hs', Option.map_some, Option.map_some, flaw?_congr hname hnames]
  | none =>
    -- what the changed document denotes, the first one would denote as well
    cases hs' : Service.ofValue? ignored v' with
    | none => rfl
    | some s' =>
      obtain ⟨s, hs'', -⟩ := h.symm.ofValue? hs'
      rw [hs] at hs''
      cases hs''

/-- Any number of verbs may be changed. -/
theorem map_flaw?_of_verbs {v v' : Value} (h : Relation.ReflTransGen VerbChanged v v')
    (ignored : Bool) :
    (Service.ofValue? ignored v).map flaw? = (Service.ofValue? ignored v').map flaw? := by
  induction h with
  | refl => rfl
  | tail _ change ih => exact ih.trans (change.map_flaw? ignored)

/-- The document can be written in JSON after the change, if it could before. -/
theorem VerbChanged.exists_read {v v' : Value} (h : VerbChanged v v')
    (hv : ∃ text, Json.read Service.shape text = some v) :
    ∃ text, Json.read Service.shape text = some v' := by
  have hlist : ∀ {a b : Value} (before after : List Value), a.nesting = b.nesting →
      (Value.array (before ++ a :: after)).nesting = (Value.array (before ++ b :: after)).nesting := by
    intro a b before after hab
    simp only [Value.nesting, Json.nestingItems_append, Value.nestingItems, hab]
  obtain ⟨hden, hnest⟩ := Json.exists_readWithin_iff.1 hv
  refine Json.exists_readWithin_iff.2 ?_
  cases h with
  | method record change =>
    rw [record.nesting_eq (hlist _ _ change.nesting_eq)] at hnest
    exact ⟨record.denotable (by decide) rfl rfl (denotable_list change.denotable) hden, hnest⟩
  | group record methods change =>
    have hgroup := methods.nesting_eq (hlist _ _ change.nesting_eq)
    rw [record.nesting_eq (hlist _ _ hgroup)] at hnest
    refine ⟨record.denotable (by decide) rfl rfl (denotable_list fun hg => ?_) hden, hnest⟩
    exact methods.denotable (by decide) rfl rfl (denotable_list change.denotable) hg

theorem exists_read_of_verbs {v v' : Value} (h : Relation.ReflTransGen VerbChanged v v')
    (hv : ∃ text, Json.read Service.shape text = some v) :
    ∃ text, Json.read Service.shape text = some v' := by
  induction h with
  | refl => exact hv
  | tail _ change ih => exact change.exists_read ih

end Service

namespace Model

/-- The value of a document, as far as the fields of services are concerned. -/
def Format.document? : Format → String → Option Value
  | .json, text => Json.read Service.shape text
  | .toml, text => Toml.read text

theorem Format.read?_eq (format : Format) (text : String) :
    format.read? text = (format.document? text).bind (Service.ofValue? (format = .toml)) := by
  cases format <;> rfl

end Model

/-- A text is rejected as no model exactly if it denotes no service in the format of its path, and as an
    invalid one exactly if the name of that service is blank when trimmed, which is told first, or that of
    one of its methods, at the top level or in a group.  In all other cases parsing gives just the service
    that is denoted; so it has a name, and all its methods have.  Whether there is a service depends on
    its name and on which names of methods there are, and on nothing else.  In particular any verbs may be
    replaced by any texts: the outcome is of the same sort, and in JSON there is a text for each document
    that comes of it. -/
theorem model_accepted_iff_named (wording : Model.Wording) :
    (∀ path text e, Model.parse wording path text = .error e ↔
      (Model.Format.ofPath path).read? text = none ∧
        e = .parse path (wording (Model.Format.ofPath path) text) ∨
      ∃ s, (Model.Format.ofPath path).read? text = some s ∧
        (Text.trim s.name = "" ∧ e = .invalid .blankName ∨
          Text.trim s.name ≠ "" ∧ s.DeclaresUnnamed ∧ e = .invalid (.unnamedMethod s.name))) ∧
    (∀ path text s, Model.parse wording path text = .ok s ↔
      (Model.Format.ofPath path).read? text = some s ∧ Text.trim s.name ≠ "" ∧
        ¬s.DeclaresUnnamed) ∧
    (∀ path text s, Model.parse wording path text = .ok s →
      Text.trim s.name ≠ "" ∧ ∀ m ∈ s.allMethods, Text.trim m.name ≠ "") ∧
    (∀ path text text' s s', (Model.Format.ofPath path).read? text = some s →
      (Model.Format.ofPath path).read? text' = some s' → s.name = s'.name →
      (∀ name, name ∈ s.allMethods.map Method.name ↔ name ∈ s'.allMethods.map Method.name) →
      ((∃ t, Model.parse wording path text = .ok t) ↔ ∃ t, Model.parse wording path text' = .ok t)) ∧
    (∀ path text text' v v', (Model.Format.ofPath path).document? text = some v →
      (Model.Format.ofPath path).document? text' = some v' →
      Relation.ReflTransGen Service.VerbChanged v v' →
      ((∃ s, Model.parse wording path text = .ok s) ↔ ∃ s, Model.parse wording path text' = .ok s) ∧
      (Model.parse wording path text =
          .error (.parse path (wording (Model.Format.ofPath path) text)) ↔
        Model.parse wording path text' =
          .error (.parse path (wording (Model.Format.ofPath path) text'))) ∧
      ∀ flaw, Model.parse wording path text = .error (.invalid flaw) ↔
        Model.parse wording path text' = .error (.invalid flaw)) ∧
    (∀ path text v v', Model.Format.ofPath path = .json →
      (Model.Format.ofPath path).document? text = some v →
      Relation.ReflTransGen Service.VerbChanged v v' →
      ∃ text', (Model.Format.ofPath path).document? text' = some v') := by
  have hok : ∀ path text s, Model.parse wording path text = .ok s ↔
      (Model.Format.ofPath path).read? text = some s ∧ Text.trim s.name ≠ "" ∧
        ¬s.DeclaresUnnamed := fun path text s => by
    rw [Model.parse_eq_ok_iff, Service.flaw?_eq_none_iff]
  refine ⟨fun path text e => ?_, hok, fun path text s h => ?_, ?_, ?_, ?_⟩
  · rw [Model.parse_eq_error_iff]
    simp only [Option.map_eq_none_iff, Option.map_eq_some_iff, Service.flaw?_eq_some_iff]
    refine or_congr_right ⟨?_, ?_⟩
    · rintro ⟨flaw, ⟨s, hs, ⟨hname, rfl⟩ | ⟨hname, hmethods, rfl⟩⟩, rfl⟩
      · exact ⟨s, hs, .inl ⟨hname, rfl⟩⟩
      · exact ⟨s, hs, .inr ⟨hname, hmethods, rfl⟩⟩
    · rintro ⟨s, hs, ⟨hname, rfl⟩ | ⟨hname, hmethods, rfl⟩⟩
      · exact ⟨_, ⟨s, hs, .inl ⟨hname, rfl⟩⟩, rfl⟩
      · exact ⟨_, ⟨s, hs, .inr ⟨hname, hmethods, rfl⟩⟩, rfl⟩
  · obtain ⟨-, hname, hmethods⟩ := (hok path text s).1 h
    refine ⟨hname, fun m hm hblank => hmethods ?_⟩
    exact Service.declaresUnnamed_iff.2 ⟨m, hm, hblank⟩
  · intro path text text' s s' hs hs' hname hnames
    rw [Model.exists_parse_eq_ok_iff, Model.exists_parse_eq_ok_iff, hs, hs', Option.map_some,
      Option.map_some, Option.some_inj, Option.some_inj, Service.flaw?_eq_none_iff,
      Service.flaw?_eq_none_iff, hname, Service.declaresUnnamed_congr hnames]
  · intro path text text' v v' hv hv' h
    have hflaw : ((Model.Format.ofPath path).read? text).map Service.flaw? =
        ((Model.Format.ofPath path).read? text').map Service.flaw? := by
      rw [Model.Format.read?_eq, Model.Format.read?_eq, hv, hv', Option.bind_some, Option.bind_some,
        Service.map_flaw?_of_verbs h]
    refine ⟨?_, ?_, fun flaw => ?_⟩
    · rw [Model.exists_parse_eq_ok_iff, Model.exists_parse_eq_ok_iff, hflaw]
    · rw [Model.parse_eq_unread_iff, Model.parse_eq_unread_iff, hflaw]
    · rw [Model.parse_eq_invalid_iff, Model.parse_eq_invalid_iff, hflaw]
  · intro path text v v' hpath hv h
    rw [hpath] at hv ⊢
    exact Service.exists_read_of_verbs h ⟨text, hv⟩

namespace Model

/-- A method of an unknown kind of URL. -/
def sampleMethod (verb name : String) : Value :=
  .object [("name", .text name), ("httpVerb", .text verb), ("url", .object [("kind", .text "odd")])]

/-- A document with two groups without a name, each with a method of the same name. -/
def sampleDocument (verb name : String) : Value :=
  .object [("name", .text "S"), ("groups", .array
    [.object [("name", .text " "), ("methods", .array [sampleMethod "GET" name])],
      .object [("name", .text " "), ("methods", .array [sampleMethod verb name])]])]

/-- The service that it denotes. -/
def sampleService (verb name : String) : Service :=
  ⟨"S", [], [], [⟨" ", [⟨name, .ofText "GET", .unsupported, [], []⟩]⟩,
    ⟨" ", [⟨name, .ofText verb, .unsupported, [], []⟩]⟩]⟩

theorem document?_sampleDocument (verb name : String) :
    (Format.ofPath "m.json").document? (Json.text (sampleDocument verb name)) =
      some (sampleDocument verb name) := by
  have hpath : Format.ofPath "m.json" = .json := by decide
  have hplain : Json.Plain (sampleDocument verb name) := by
    simp [sampleDocument, sampleMethod, Json.Plain, Json.PlainFields, Json.PlainItems]
  rw [hpath]
  exact Json.read_text hplain (by decide : 6 ≤ Json.nestingLimit) rfl

theorem read?_sampleDocument (verb name : String) :
    (Format.ofPath "m.json").read? (Json.text (sampleDocument verb name)) =
      some (sampleService verb name) := by
  rw [Format.read?_eq, document?_sampleDocument]
  rfl

/-- The document is accepted, and with any other verb as well, but not if the methods have no name; and no
    more is a text that is no document. -/
theorem model_accepted_iff_named_sample :
    (∃ s, parse (fun _ text => text) "m.json" (Json.text (sampleDocument "GET" "find")) = .ok s) ∧
      (∃ s, parse (fun _ text => text) "m.json" (Json.text (sampleDocument " no verb" "find")) =
        .ok s) ∧
      parse (fun _ text => text) "m.json" (Json.text (sampleDocument "GET" "\t ")) =
        .error (.invalid (.unnamedMethod "S")) ∧
      parse (fun _ text => text) "m.json" "\x7b" = .error (.parse "m.json" "\x7b") := by
  obtain ⟨herror, hok, -, -, hverbs, -⟩ := model_accepted_iff_named fun _ text => text
  have hnone : (Format.ofPath "m.json").read? "\x7b" = none :=
    Option.isNone_iff_eq_none.1 (by decide +kernel)
  have hnamed : ∀ m ∈ (sampleService "GET" "find").allMethods, ¬Text.trim m.name = "" := by decide
  have haccepted : parse (fun _ text => text) "m.json" (Json.text (sampleDocument "GET" "find")) =
      .ok (sampleService "GET" "find") := by
    refine (hok _ _ _).2 ⟨read?_sampleDocument _ _, by decide, fun hunnamed => ?_⟩
    obtain ⟨m, hm, hname⟩ := Service.declaresUnnamed_iff.1 hunnamed
    exact hnamed m hm hname
  -- the verb of the method in the second group is changed
  have hmethod : Method.VerbChanged (sampleMethod "GET" "find") (sampleMethod " no verb" "find") :=
    ⟨_, _, .field [_] [_] ..⟩
  have hchanged : Service.VerbChanged (sampleDocument "GET" "find")
      (sampleDocument " no verb" "find") :=
    @Service.VerbChanged.group _ _ _ _ _ _ [_] [] [] [] (.field [_] [] ..) (.field [_] [] ..) hmethod
  refine ⟨⟨_, haccepted⟩, ?_, ?_, ?_⟩
  · have halike := hverbs _ _ _ _ _ (document?_sampleDocument _ _) (document?_sampleDocument _ _)
      (.single hchanged)
    exact halike.1.1 ⟨_, haccepted⟩
  · refine (herror _ _ _).2 (.inr ⟨_, read?_sampleDocument _ _, .inr ⟨by decide, ?_, rfl⟩⟩)
    exact .inr ⟨_, .head _, _, .head _, by decide⟩
  · exact (herror _ _ _).2 (.inl ⟨hnone, rfl⟩)

end Model

end OperationCatalog
