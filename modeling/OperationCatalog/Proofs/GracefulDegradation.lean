import OperationCatalog.Proofs.DocumentShapes
import OperationCatalog.Proofs.ServiceExchange

/-!
# Unknown kinds of expressions cost one method

A document that is read as a service may have an expression anywhere in the URL of a method exchanged
for an object of a kind that nobody knows.  The document is still read, as the same service with one
other URL, and that URL has an unsupported part.  So the method has no text for its URL: it is left out
of the catalog by name, and the rest of the catalog stays.

## Key results

- `Evaluator.failure?_of_occurs`: an unsupported part keeps a method from being rendered
- `Catalog.of_around`: the catalog of a service as seen from one of its methods
- `unknown_kind_skips_method`: from the text of the document to the catalog
-/

namespace OperationCatalog

/-! ## The catalog -/

/-- An unsupported part of its URL keeps a method from being rendered. -/
theorem Evaluator.failure?_of_occurs (ev : Evaluator) {m : Method}
    (h : m.url.occurs .unsupported = true) : ∃ e, ev.failure? m = some e := by
  obtain ⟨error, herror⟩ := ev.evaluateText_of_occurs h
  cases hr : ev.render m with
  | error e => exact ⟨e, failure?_of_error hr⟩
  | ok records =>
    -- the URL is the last thing that is looked at, and there is no way past it
    simp only [render, herror, bind, Except.bind, Except.mapError] at hr
    split at hr
    · cases hr
    · split at hr <;> cases hr

/-- The catalog of methods before and behind another one that gives the records and names in the
    middle. -/
def Catalog.around (ev : Evaluator) (service : String) (before after : List Method)
    (visible hidden : List Record) (skipped : List String) : Catalog where
  service := service
  visible := before.flatMap (ev.recordsFor .visible) ++ visible ++
    after.flatMap (ev.recordsFor .visible)
  hidden := before.flatMap (ev.recordsFor .hidden) ++ hidden ++
    after.flatMap (ev.recordsFor .hidden)
  skipped := before.filterMap ev.skippedName? ++ skipped ++ after.filterMap ev.skippedName?

/-- Any method of a service can be seen as the one in the middle. -/
theorem Catalog.of_around {s : Service} {before after : List Method} {m : Method}
    (h : s.allMethods = before ++ m :: after) (baseEndpoint : String) :
    Catalog.of baseEndpoint s =
      around (s.evaluator baseEndpoint) s.name before after
        ((s.evaluator baseEndpoint).recordsFor .visible m)
        ((s.evaluator baseEndpoint).recordsFor .hidden m)
        ((s.evaluator baseEndpoint).skippedName? m).toList := by
  rw [of_eq, h, around]
  simp only [List.flatMap_append, List.flatMap_cons, List.append_assoc, List.filterMap_append,
    List.filterMap_cons]
  cases (s.evaluator baseEndpoint).skippedName? m <;> rfl

/-- An expression anywhere in the URL of a method can be exchanged for an object of an unknown kind:
    the document can be written, its text is still a model, and its catalog is the one before, but for
    the records of the method, in whose place its name is skipped. -/
theorem unknown_kind_skips_method {wording : Model.Wording} {path text newText : String}
    {s : Service} {x y v v' : Value} {declared : List Value} (hpath : Model.Format.ofPath path = .json)
    (hread : Json.read Service.shape text = some v) (hparse : Model.parse wording path text = .ok s)
    (hnew : Json.read .whole newText = some y) (hkind : Expression.UnknownKind y)
    (hplace : Service.Exchanged x y declared v v') (hnesting : v'.nesting ≤ Json.nestingLimit) :
    (∃ text', Json.read Service.shape text' = some v') ∧
    ∃ s' before m after, declared.mapM (Method.ofValue? false) = some before ∧
      s.allMethods = before ++ m :: after ∧
      (∀ text', Json.read Service.shape text' = some v' → Model.parse wording path text' = .ok s') ∧
      ∀ baseEndpoint,
        Catalog.of baseEndpoint s =
          .around (s.evaluator baseEndpoint) s.name before after
            ((s.evaluator baseEndpoint).recordsFor .visible m)
            ((s.evaluator baseEndpoint).recordsFor .hidden m)
            ((s.evaluator baseEndpoint).skippedName? m).toList ∧
        Catalog.of baseEndpoint s' =
          .around (s.evaluator baseEndpoint) s.name before after [] [] [m.name] := by
  -- the new document has a text
  have hy : Json.Denotable .whole y := (Json.readWithin_sound hnew).1
  have hv' : Json.Denotable Service.shape v' :=
    hplace.denotable hy (Json.readWithin_sound hread).1
  refine ⟨Json.exists_readWithin_iff.2 ⟨hv', hnesting⟩, ?_⟩
  -- it denotes the same service but for one URL
  obtain ⟨hdenoted, hflaw⟩ := (Model.parse_json_iff hpath hread).1 hparse
  obtain ⟨before, m, after, e, s', hbefore, hall, hocc, hs', halike, hall'⟩ :=
    hplace.ofValue? hkind.ofValue? hdenoted
  refine ⟨s', before, m, after, hbefore, hall, fun text' htext' => ?_, fun baseEndpoint => ?_⟩
  · -- the names are the same, so the new service has no flaw either
    have hnames : s'.allMethods.map Method.name = s.allMethods.map Method.name := by
      rw [hall, hall', List.map_append, List.map_append, List.map_cons, List.map_cons]
    rw [← Service.flaw?_congr halike.1.symm hnames] at hflaw
    exact (Model.parse_json_iff hpath htext').2 ⟨hs', hflaw⟩
  · -- the method fails against any base endpoint, and gives no more than its name
    refine ⟨Catalog.of_around hall baseEndpoint, ?_⟩
    obtain ⟨error, herror⟩ :=
      (s.evaluator baseEndpoint).failure?_of_occurs (m := { m with url := e }) hocc
    rw [Catalog.of_around hall' baseEndpoint, ← halike.evaluator_eq, ← halike.1,
      Evaluator.recordsFor_of_failure? herror, Evaluator.recordsFor_of_failure? herror,
      Evaluator.skippedName?, herror]
    rfl

namespace Service

/-- A method before the one whose URL is changed. -/
def sampleList : Method := ⟨"list", .get, .literal "/a", [], []⟩

/-- The method whose URL is changed. -/
def sampleFind : Method := ⟨"find", .get, .concat [.literal "/a/", .property .root "Id"], [], []⟩

/-- A method behind it, in a group. -/
def sampleAll : Method := ⟨"all", .get, .literal "/b", [], []⟩

/-- A service with these methods. -/
def sampleService : Service :=
  ⟨"S", [("Id", .text "7")], [sampleList, sampleFind], [⟨"G", [sampleAll]⟩]⟩

/-- The property in the URL, of anything. -/
def sampleProperty (base : Value) : Value :=
  Expression.Kind.toValue .property [("base", base), ("name", .text "Id")]

/-- The URL with this property. -/
def sampleUrl (base : Value) : Value :=
  Expression.Kind.toValue .concat
    [("items", .array [(Expression.literal "/a/").toValue, sampleProperty base])]

/-- The document of the service, with this URL. -/
def sampleDocument (base : Value) : Value :=
  .object [("name", .text "S"), ("context", .object [("Id", .text "7")]),
    ("methods", .array [sampleList.toValue,
      .object [("name", .text "find"), ("httpVerb", .text "GET"), ("url", sampleUrl base)]]),
    ("groups", .array [(Group.mk "G" [sampleAll]).toValue])]

/-- An object of an unknown kind, with something in it. -/
def sampleUnknown : Value := .object [("kind", .text "odd"), ("deep", .array [.null])]

theorem sampleDocument_exchanged (x y : Value) :
    Exchanged x y [sampleList.toValue] (sampleDocument x) (sampleDocument y) := by
  have hproperty : Expression.Exchanged x y (sampleProperty x) (sampleProperty y) :=
    .base rfl (.field [_] [_] ..) .whole
  have hitems : Value.Exchanged ["kind", "items"] "items"
      (.array ([(Expression.literal "/a/").toValue] ++ sampleProperty x :: []))
      (.array ([(Expression.literal "/a/").toValue] ++ sampleProperty y :: []))
      (sampleUrl x) (sampleUrl y) :=
    .field [_] [] ..
  exact .method (.field [_, _] [_] ..) ⟨_, _, .field [_, _] [] .., .item rfl hitems hproperty⟩

/-- The document can be read from its text, whatever is in the place. -/
theorem read_sampleDocument {base : Value} (hplain : Json.Plain base)
    (hnest : (sampleDocument base).nesting ≤ Json.nestingLimit) :
    Json.read shape (Json.text (sampleDocument base)) = some (sampleDocument base) := by
  have hdocument : Json.Plain (sampleDocument base) := by
    simp [sampleDocument, sampleUrl, sampleProperty, sampleList, sampleAll, Group.toValue,
      Method.toValue, Verb.toValue, Expression.toValue, Expression.Kind.toValue, Json.Plain,
      Json.PlainFields, Json.PlainItems, hplain]
  have hcut : shape.cut (sampleDocument base) = sampleDocument (Json.Shape.whole.cut base) := rfl
  rw [Json.Shape.cut_whole] at hcut
  exact Json.read_text hdocument hnest hcut

/-- A method of the service with one record has it in the catalog. -/
theorem sampleService_gives {m : Method} {r : Record} (hm : m ∈ sampleService.allMethods)
    (h : (sampleService.evaluator "https://h").render m = .ok [r]) :
    (sampleService.evaluator "https://h").recordsFor .visible m = [r] ∧
      (sampleService.evaluator "https://h").recordsFor .hidden m = [] ∧
      (sampleService.evaluator "https://h").skippedName? m = none := by
  have hvisible : ∀ m ∈ sampleService.allMethods, Visibility.ofName m.name = .visible := by
    decide +kernel
  simp [Evaluator.recordsFor_of_ok h, Evaluator.skippedName?, Evaluator.failure?_of_ok h,
    hvisible m hm]

/-- All three methods have a record, and only the second one loses it. -/
theorem unknown_kind_skips_method_sample :
    ∃ s s', Model.parse (fun _ _ => "") "m.json"
        (Json.text (sampleDocument Expression.root.toValue)) = .ok s ∧
      Model.parse (fun _ _ => "") "m.json" (Json.text (sampleDocument sampleUnknown)) = .ok s' ∧
      Catalog.of "https://h" s = ⟨"S", [⟨"list", .get, "/a", none, none⟩,
        ⟨"find", .get, "/a/7", none, none⟩, ⟨"all", .get, "/b", none, none⟩], [], []⟩ ∧
      Catalog.of "https://h" s' = ⟨"S", [⟨"list", .get, "/a", none, none⟩,
        ⟨"all", .get, "/b", none, none⟩], [], ["find"]⟩ := by
  have hpath : Model.Format.ofPath "m.json" = .json := by decide
  have hplain : Json.Plain sampleUnknown := by
    simp [sampleUnknown, Json.Plain, Json.PlainFields, Json.PlainItems]
  have hread := @read_sampleDocument Expression.root.toValue ⟨trivial, trivial⟩ (by decide)
  have hread' := read_sampleDocument hplain (by decide)
  have hnew : Json.read .whole (Json.text sampleUnknown) = some sampleUnknown :=
    Json.read_text hplain (by decide) rfl
  have hdenoted : ofValue? false (sampleDocument Expression.root.toValue) = some sampleService :=
    rfl
  have hparse : Model.parse (fun _ _ => "") "m.json"
      (Json.text (sampleDocument Expression.root.toValue)) = .ok sampleService :=
    (Model.parse_json_iff hpath hread).2 ⟨hdenoted, rfl⟩
  have hkind : Expression.UnknownKind sampleUnknown := ⟨_, "odd", rfl, rfl, by decide⟩
  obtain ⟨-, s', before, m, after, hbefore, hall, htexts, hcatalogs⟩ :=
    unknown_kind_skips_method hpath hread hparse hnew hkind (sampleDocument_exchanged _ _)
      (by decide)
  -- the method stands between the two others
  have hdeclared : [sampleList.toValue].mapM (Method.ofValue? false) = some [sampleList] := rfl
  obtain rfl := Option.some.inj (hbefore.symm.trans hdeclared)
  change [sampleList, sampleFind, sampleAll] = sampleList :: m :: after at hall
  obtain ⟨rfl, rfl⟩ : m = sampleFind ∧ after = [sampleAll] := by simp_all
  have hlist := sampleService_gives (m := sampleList) (r := ⟨"list", .get, "/a", none, none⟩)
    (.head _) rfl
  have hfind := sampleService_gives (m := sampleFind) (r := ⟨"find", .get, "/a/7", none, none⟩)
    (.tail _ (.head _)) rfl
  have hall := sampleService_gives (m := sampleAll) (r := ⟨"all", .get, "/b", none, none⟩)
    (.tail _ (.tail _ (.head _))) rfl
  obtain ⟨hcatalog, hcatalog'⟩ := hcatalogs "https://h"
  refine ⟨sampleService, s', hparse, htexts _ hread', ?_, ?_⟩
  · simp only [hcatalog, Catalog.around, List.flatMap_cons, List.flatMap_nil, List.filterMap_cons,
      List.filterMap_nil, hlist, hfind, hall]
    rfl
  · simp only [hcatalog', Catalog.around, List.flatMap_cons, List.flatMap_nil, List.filterMap_cons,
      List.filterMap_nil, hlist, hall]
    rfl

end Service

end OperationCatalog
