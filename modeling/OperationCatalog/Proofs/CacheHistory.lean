import OperationCatalog.Cache.History

/-!
# What a cache remembers of its history

After any history a cache holds, for a type of model, the catalog of the service that the first lucky
request on this cache and type has found, and nothing as long as there was none.  The state of the
caches is thereby a function of the history, `Caches.find?_run`, and all the laws of single requests
follow from it.

## Key results

- `Caches.find?_run`: what is kept after a history, by induction with one step at a time
- `Caches.step_of_failure`: a request that fails leaves the caches as they were
- `Caches.run_filter`: requests on other caches or types are of no account
- `cache_serves_first_success`: the answers of a whole history
-/

namespace OperationCatalog

variable {ι κ : Type} [DecidableEq κ]

/-! ## Histories without caches -/

/-- What the types of models answer after a history. -/
def sourcesAfter (sources : κ → Except ModelError Service) :
    List (Occurrence ι κ) → κ → Except ModelError Service
  | [] => sources
  | .change key source :: rest => sourcesAfter (changed sources key source) rest
  | .request .. :: rest => sourcesAfter sources rest

/-- All requests of a history on a cache and a type find that the model fails. -/
def FindsNothing (i : ι) (k : κ) (sources : κ → Except ModelError Service)
    (history : List (Occurrence ι κ)) : Prop :=
  ∀ before view after, history = before ++ .request i k view :: after →
    ∃ e, sourcesAfter sources before k = .error e

/-- The first request of a history on a cache and a type that finds a service finds this one. -/
def FindsFirst (i : ι) (k : κ) (sources : κ → Except ModelError Service)
    (history : List (Occurrence ι κ)) (s : Service) : Prop :=
  ∃ before view after, history = before ++ .request i k view :: after ∧
    FindsNothing i k sources before ∧ sourcesAfter sources before k = .ok s

variable [DecidableEq ι]

/-- The service that the first request on a cache and a type of model finds, among those that find
    one. -/
def found? (i : ι) (k : κ) (sources : κ → Except ModelError Service) :
    List (Occurrence ι κ) → Option Service
  | [] => none
  | .change key source :: rest => found? i k (changed sources key source) rest
  | .request j key _ :: rest =>
    if j = i ∧ key = k then (sources k).toOption <|> found? i k sources rest
    else found? i k sources rest

/-- What the first part of a history finds counts before what its second part finds. -/
theorem found?_append (i : ι) (k : κ) (sources : κ → Except ModelError Service)
    (h t : List (Occurrence ι κ)) :
    found? i k sources (h ++ t) =
      (found? i k sources h <|> found? i k (sourcesAfter sources h) t) := by
  induction h generalizing sources with
  | nil => simp [found?, sourcesAfter]
  | cons o rest ih =>
    cases o with
    | change key source => simp only [List.cons_append, found?, sourcesAfter, ih]
    | request j key view =>
      simp only [List.cons_append, found?, sourcesAfter, ih]
      split
      · cases (sources k).toOption <;> simp
      · rfl

theorem found?_request (i : ι) (k : κ) (view : View) (sources : κ → Except ModelError Service)
    (rest : List (Occurrence ι κ)) :
    found? i k sources (.request i k view :: rest) =
      ((sources k).toOption <|> found? i k sources rest) := by
  simp only [found?, and_self, if_true]

/-- When nothing is found, then by no request. -/
theorem findsNothing_of_found? {i : ι} {k : κ} {sources : κ → Except ModelError Service}
    {history : List (Occurrence ι κ)} (h : found? i k sources history = none) :
    FindsNothing i k sources history := by
  intro before view after hsplit
  rw [hsplit, found?_append, found?_request] at h
  cases hnow : sourcesAfter sources before k with
  | error e => exact ⟨e, rfl⟩
  | ok s => simp [hnow, Except.toOption] at h

/-- When something is found, then by a first lucky request. -/
theorem findsFirst_of_found? {i : ι} {k : κ} {sources : κ → Except ModelError Service}
    {history : List (Occurrence ι κ)} {s : Service} (h : found? i k sources history = some s) :
    FindsFirst i k sources history s := by
  -- the requests before are better counted by `found?`, which the induction can unfold
  suffices ∃ before view after, history = before ++ .request i k view :: after ∧
      found? i k sources before = none ∧ sourcesAfter sources before k = .ok s by
    obtain ⟨before, view, after, hsplit, hnone, hok⟩ := this
    exact ⟨before, view, after, hsplit, findsNothing_of_found? hnone, hok⟩
  induction history generalizing sources with
  | nil => cases h
  | cons o rest ih =>
    cases o with
    | change key source =>
      obtain ⟨before, view, after, rfl, hnone, hok⟩ := ih h
      exact ⟨.change key source :: before, view, after, rfl, hnone, hok⟩
    | request j key v =>
      simp only [found?] at h
      split at h
      · -- a request on this cache and type: either it is the lucky one, or it fails and we go on
        rename_i hpair
        obtain ⟨rfl, rfl⟩ := hpair
        cases hnow : sources key with
        | ok s' =>
          rw [hnow] at h
          obtain rfl : s' = s := Option.some.inj h
          exact ⟨[], v, rest, rfl, rfl, hnow⟩
        | error e =>
          rw [hnow] at h
          obtain ⟨before, view, after, rfl, hnone, hok⟩ := ih h
          refine ⟨.request j key v :: before, view, after, rfl, ?_, hok⟩
          rw [found?_request, hnow]
          exact hnone
      · -- a request on another cache or type
        rename_i hpair
        obtain ⟨before, view, after, rfl, hnone, hok⟩ := ih h
        refine ⟨.request j key v :: before, view, after, rfl, ?_, hok⟩
        rw [found?, if_neg hpair]
        exact hnone

/-- `found?` gives the service of the first lucky request. -/
theorem found?_eq_some_iff {i : ι} {k : κ} {sources : κ → Except ModelError Service}
    {history : List (Occurrence ι κ)} {s : Service} :
    found? i k sources history = some s ↔ FindsFirst i k sources history s := by
  refine ⟨findsFirst_of_found?, ?_⟩
  intro ⟨before, view, after, hsplit, hbefore, hok⟩
  rw [hsplit, found?_append, found?_request, hok]
  cases hfound : found? i k sources before with
  | none => rfl
  | some s' =>
    -- the requests before would have been lucky themselves
    obtain ⟨b, v, a, hsplit', -, hok'⟩ := findsFirst_of_found? hfound
    obtain ⟨e, he⟩ := hbefore b v a hsplit'
    rw [he] at hok'
    cases hok'

/-- `found?` is empty for the histories whose requests all find a failure. -/
theorem found?_eq_none_iff {i : ι} {k : κ} {sources : κ → Except ModelError Service}
    {history : List (Occurrence ι κ)} :
    found? i k sources history = none ↔ FindsNothing i k sources history := by
  refine ⟨findsNothing_of_found?, fun h => ?_⟩
  cases hfound : found? i k sources history with
  | none => rfl
  | some s =>
    -- a lucky request would be one of those that fail
    obtain ⟨b, v, a, hsplit, -, hok⟩ := findsFirst_of_found? hfound
    obtain ⟨e, he⟩ := h b v a hsplit
    rw [he] at hok
    cases hok

/-! ## The caches after a history -/

namespace Caches

/-- No occurrence moves a base endpoint. -/
theorem baseEndpoint_step (s : Caches ι κ) (o : Occurrence ι κ) (i : ι) :
    ((s.step o).2.cache i).baseEndpoint = (s.cache i).baseEndpoint := by
  cases o with
  | change key source => rfl
  | request j key view =>
    simp only [step, cache_putCache]
    split
    · rename_i h
      rw [h, Cache.baseEndpoint_request]
    · rfl

theorem baseEndpoint_run (s : Caches ι κ) (h : List (Occurrence ι κ)) (i : ι) :
    ((s.run h).2.cache i).baseEndpoint = (s.cache i).baseEndpoint := by
  induction h generalizing s with
  | nil => rfl
  | cons o rest ih => rw [run, ih, baseEndpoint_step]

/-- Requests do not move what the models answer. -/
theorem sources_run (s : Caches ι κ) (h : List (Occurrence ι κ)) :
    (s.run h).2.sources = sourcesAfter s.sources h := by
  induction h generalizing s with
  | nil => rfl
  | cons o rest ih => cases o <;> simp only [run, ih, step, sourcesAfter, putCache]

/-- A step keeps the catalog of a cache and a type, or puts there the one of the service that its
    request finds. -/
theorem find?_step (s : Caches ι κ) (o : Occurrence ι κ) (i : ι) (k : κ) :
    ((s.step o).2.cache i).find? k =
      ((s.cache i).find? k <|>
        (found? i k s.sources [o]).map (Catalog.of (s.cache i).baseEndpoint)) := by
  cases o with
  | change key source => simp [step, found?]
  | request j key view =>
    simp only [step, cache_putCache, found?]
    by_cases hi : i = j
    · subst hi
      by_cases hk : k = key
      · subst hk
        simp [Cache.find?_request_self]
      · simp [Cache.find?_request_of_ne hk, Ne.symm hk]
    · simp [hi, Ne.symm hi]

/-- What a cache keeps for a type after a history: what it had before, or else the catalog of the
    service that the first lucky request has found. -/
theorem find?_run (s : Caches ι κ) (h : List (Occurrence ι κ)) (i : ι) (k : κ) :
    ((s.run h).2.cache i).find? k =
      ((s.cache i).find? k <|>
        (found? i k s.sources h).map (Catalog.of (s.cache i).baseEndpoint)) := by
  induction h generalizing s with
  | nil => simp [run, found?]
  | cons o rest ih =>
    -- what the first occurrence finds comes before what the others find
    have hsplit := found?_append i k s.sources [o] rest
    have hsources : (s.step o).2.sources = sourcesAfter s.sources [o] := by
      cases o <;> rfl
    rw [List.singleton_append] at hsplit
    rw [run, ih, find?_step, baseEndpoint_step, hsources, hsplit]
    cases (s.cache i).find? k <;> cases found? i k s.sources [o] <;> simp

/-- A request is served from what its cache keeps and from what its model answers now. -/
theorem step_request (s : Caches ι κ) (i : ι) (k : κ) (view : View) :
    s.step (.request i k view) =
      (some ⟨i, k, view, ((s.cache i).request k (s.sources k)).1⟩,
        s.putCache i ((s.cache i).request k (s.sources k)).2) := rfl

/-- A request that fails leaves the caches as they were. -/
theorem step_of_failure {s : Caches ι κ} {i : ι} {k : κ} {e : ModelError}
    (h : ((s.cache i).request k (s.sources k)).1.answer = .error e) (view : View) :
    (s.step (.request i k view)).2 = s := by
  rw [step_request, Cache.request_of_failure h]
  exact putCache_self s i

/-! ## Requests on other caches and types -/

/-- Two states that a cache and a type of model cannot tell apart. -/
structure Agree (i : ι) (k : κ) (s t : Caches ι κ) : Prop where
  sources : s.sources = t.sources
  base : (s.cache i).baseEndpoint = (t.cache i).baseEndpoint
  kept : (s.cache i).find? k = (t.cache i).find? k

/-- The same step on both sides. -/
theorem Agree.step {i : ι} {k : κ} {s t : Caches ι κ} (h : Agree i k s t) (o : Occurrence ι κ) :
    Agree i k (s.step o).2 (t.step o).2 where
  sources := by
    cases o with
    | change key source =>
      simp only [Caches.step, h.sources]
    | request j key view => exact h.sources
  base := by rw [baseEndpoint_step, baseEndpoint_step, h.base]
  kept := by rw [find?_step, find?_step, h.kept, h.sources, h.base]

/-- A request on another cache or type on one side only. -/
theorem Agree.step_other {i : ι} {k : κ} {s t : Caches ι κ} (h : Agree i k s t)
    {o : Occurrence ι κ} (ho : o.concerns i k = false) : Agree i k (s.step o).2 t := by
  cases o with
  | change key source => cases ho
  | request j key view =>
    have hother : ¬(j = i ∧ key = k) := by
      intro hpair
      simp [Occurrence.concerns, hpair] at ho
    refine ⟨h.sources, by rw [baseEndpoint_step, h.base], ?_⟩
    -- the step finds nothing for this cache and type, so what is kept stays
    rw [find?_step, found?, if_neg hother, found?, h.kept, Option.map_none]
    cases (t.cache i).find? k <;> rfl

/-- Without the requests on other caches or types, the requests on this cache and type come to the
    same.  The invariant of the two runs side by side is that their states agree. -/
theorem run_filter {i : ι} {k : κ} {s t : Caches ι κ} (h : Agree i k s t)
    (history : List (Occurrence ι κ)) :
    (t.run (history.filter (·.concerns i k))).1 = (s.run history).1.filter (·.isOn i k) := by
  induction history generalizing s t with
  | nil => rfl
  | cons o rest ih =>
    cases ho : o.concerns i k with
    | false =>
      -- only the run of the whole history takes the step, and its reply is filtered out
      rw [List.filter_cons_of_neg (by simp [ho]), ih (h.step_other ho), run]
      cases o with
      | change key source => cases ho
      | request j key view =>
        rw [step_request]
        exact (List.filter_cons_of_neg (by simpa [Served.isOn, Occurrence.concerns] using ho)).symm
    | true =>
      -- both runs take the step, and states that agree give the same reply
      rw [List.filter_cons_of_pos (by simp [ho]), run, run, ih (h.step o), List.filter_append]
      cases o with
      | change key source => rfl
      | request j key view =>
        simp only [Occurrence.concerns, Bool.and_eq_true, decide_eq_true_eq] at ho
        obtain ⟨rfl, rfl⟩ := ho
        rw [step_request, step_request, Cache.request_congr h.base h.kept, h.sources]
        simp [Served.isOn]

/-! ## How often a model gives a service -/

/-- A cache and a type of model build their catalog once, if they find a service and have none. -/
theorem countP_builds (s : Caches ι κ) (history : List (Occurrence ι κ)) (i : ι) (k : κ) :
    (s.run history).1.countP (fun r => r.isOn i k && r.builds) =
      if ((s.cache i).find? k).isNone && (found? i k s.sources history).isSome then 1 else 0 := by
  induction history generalizing s with
  | nil => simp [run, found?]
  | cons o rest ih =>
    rw [run, List.countP_append, ih, find?_step]
    cases o with
    | change key source => simp [step, found?]
    | request j key view =>
      simp only [step_request, Option.toList_some, List.countP_singleton, found?, putCache]
      by_cases hpair : j = i ∧ key = k
      · -- the request builds just when nothing is kept and its model gives a service
        obtain ⟨rfl, rfl⟩ := hpair
        simp only [Served.isOn_self, Served.builds_request, and_self, if_true, Bool.true_and]
        cases (s.cache j).find? key <;> cases (s.sources key).toOption <;> simp
      · -- the request does not count, and it changes nothing that counts
        have hon : ∀ r : Reply, Served.isOn i k ⟨j, key, view, r⟩ = false := by
          intro r
          simpa [Served.isOn] using hpair
        simp [hon, hpair]

/-! ## Single requests of a history -/

/-- What a request comes to that follows a history: as long as no request on its cache and type was
    lucky it asks the model, whose answer is its own; from then on it does not ask, and is given what
    the first lucky one was. -/
structure ServedAfter (bases : ι → String) (sources : κ → Except ModelError Service)
    (before : List (Occurrence ι κ)) (r : Served ι κ) : Prop where
  failed : ∀ e, FindsNothing r.cache r.key sources before →
    sourcesAfter sources before r.key = .error e → r.answer = .error e ∧ r.calls = 1
  built : ∀ s, FindsNothing r.cache r.key sources before →
    sourcesAfter sources before r.key = .ok s →
    r.answer = .ok (r.view.content (Catalog.of (bases r.cache) s)) ∧ r.calls = 1
  kept : ∀ s, FindsFirst r.cache r.key sources before s →
    r.answer = .ok (r.view.content (Catalog.of (bases r.cache) s)) ∧ r.calls = 0

/-- What is kept when a history of new caches is over. -/
theorem find?_run_start (bases : ι → String) (sources : κ → Except ModelError Service)
    (history : List (Occurrence ι κ)) (i : ι) (k : κ) :
    (((start bases sources).run history).2.cache i).find? k =
      (found? i k sources history).map (Catalog.of (bases i)) := by
  rw [find?_run]
  rfl

theorem baseEndpoint_run_start (bases : ι → String) (sources : κ → Except ModelError Service)
    (history : List (Occurrence ι κ)) (i : ι) :
    (((start bases sources).run history).2.cache i).baseEndpoint = bases i :=
  baseEndpoint_run _ history i

/-- The request after a history of new caches. -/
theorem servedAfter_run (bases : ι → String) (sources : κ → Except ModelError Service)
    (before : List (Occurrence ι κ)) (i : ι) (k : κ) (view : View) :
    ServedAfter bases sources before ⟨i, k, view,
      ((((start bases sources).run before).2.cache i).request k
        (sourcesAfter sources before k)).1⟩ := by
  have hbase := baseEndpoint_run_start bases sources before i
  have hfind := find?_run_start bases sources before i k
  constructor
  case failed =>
    intro e hnone hnow
    rw [found?_eq_none_iff.2 hnone] at hfind
    rw [hnow, Cache.request_of_error hfind]
    exact ⟨rfl, rfl⟩
  case built =>
    intro s hnone hnow
    rw [found?_eq_none_iff.2 hnone] at hfind
    rw [hnow, Cache.request_of_ok hfind, hbase]
    exact ⟨rfl, rfl⟩
  case kept =>
    intro s hfirst
    rw [found?_eq_some_iff.2 hfirst] at hfind
    rw [Cache.request_of_kept hfind]
    exact ⟨rfl, rfl⟩

/-- A request in a history comes to what `ServedAfter` says.  If it fails, the history without it comes
    to the same for all the others. -/
theorem run_request (bases : ι → String) (sources : κ → Except ModelError Service)
    (before : List (Occurrence ι κ)) (i : ι) (k : κ) (view : View)
    (after : List (Occurrence ι κ)) :
    ∃ r rest, ((start bases sources).run (before ++ .request i k view :: after)).1 =
        ((start bases sources).run before).1 ++ r :: rest ∧
      r.cache = i ∧ r.key = k ∧ r.view = view ∧ ServedAfter bases sources before r ∧
      ∀ e, r.answer = .error e → ((start bases sources).run (before ++ after)).1 =
        ((start bases sources).run before).1 ++ rest := by
  have hsources := sources_run (start bases sources) before
  have hserved := servedAfter_run bases sources before i k view
  -- from here on only the caches after the requests before matter
  generalize hs : ((start bases sources).run before).2 = s at hsources hserved
  refine ⟨⟨i, k, view, ((s.cache i).request k (sourcesAfter sources before k)).1⟩,
    ((s.step (.request i k view)).2.run after).1, ?_, rfl, rfl, rfl, hserved, ?_⟩
  · rw [run_append, hs, run, step_request, hsources]
    rfl
  · intro e he
    -- a failure changes no cache, so the rest of the history goes on from the same caches
    have hreply : ((s.cache i).request k (s.sources k)).1.answer = .error e := by
      rw [hsources]
      exact Served.answer_eq_error_iff.1 he
    rw [run_append, hs, step_of_failure hreply]

end Caches

/-- In any history of requests on any caches, while the models change: a cache and a type of model
    make one catalog, at the first request that finds a service; until then every request asks once
    and is given the failure, from then on none asks and all are given that catalog.  A request that
    fails leaves no trace, and requests on other caches or types are of no account. -/
theorem cache_serves_first_success (bases : ι → String) (sources : κ → Except ModelError Service)
    (history : List (Occurrence ι κ)) (i : ι) (k : κ) :
    (∀ before view after, history = before ++ .request i k view :: after →
      ∃ r rest, ((Caches.start bases sources).run history).1 =
          ((Caches.start bases sources).run before).1 ++ r :: rest ∧
        r.cache = i ∧ r.key = k ∧ r.view = view ∧ Caches.ServedAfter bases sources before r ∧
        ∀ e, r.answer = .error e → ((Caches.start bases sources).run (before ++ after)).1 =
          ((Caches.start bases sources).run before).1 ++ rest) ∧
    (FindsNothing i k sources history ∨ ∃ s, FindsFirst i k sources history s) ∧
    ((Caches.start bases sources).run history).1.countP (fun r => r.isOn i k && r.builds) ≤ 1 ∧
    ((Caches.start bases sources).run (history.filter (·.concerns i k))).1 =
      ((Caches.start bases sources).run history).1.filter (·.isOn i k) ∧
    ∀ c : Catalog, (View.records false).content c = .records c.visible ∧
      (View.records true).content c = .records c.hidden := by
  refine ⟨?_, ?_, ?_, Caches.run_filter ⟨rfl, rfl, rfl⟩ history, fun c => ⟨rfl, rfl⟩⟩
  · intro before view after hsplit
    rw [hsplit]
    exact Caches.run_request bases sources before i k view after
  · cases h : found? i k sources history with
    | none => exact .inl (found?_eq_none_iff.1 h)
    | some s => exact .inr ⟨s, found?_eq_some_iff.1 h⟩
  · -- one if a service is found, none otherwise
    rw [Caches.countP_builds]
    split <;> omega

end OperationCatalog
