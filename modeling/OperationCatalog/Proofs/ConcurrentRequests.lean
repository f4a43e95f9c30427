import OperationCatalog.Proofs.CacheHistory
import OperationCatalog.Proofs.PortionInvariant

/-!
# Concurrent requests share one catalog

Requests that run at the same time, for any types of models and in any interleaving of their steps, are
given what they would be given one after the other: each step is no request at all, or one on a cache
that has its requests in turn.  So the catalog of a type of model is built and stored once, and requests
for other types are of no account.

## Key results

- `Shared.Lawful.step`: the invariant of all portions
- `Shared.Lawful.nodup_stored`: no cell is stored into twice
- `Shared.Serialized.step`, `Shared.Serialized.run`: the requests in turn
- `concurrent_requests_share_one_catalog`: what has become of the requests after any history
-/

namespace OperationCatalog

/-- What a request is given, once that is settled. -/
def Phase.answer? (view : View) : Phase → Option (Except ModelError Content)
  | .decided result => some (result.map view.content)
  | .answered answer => some answer
  | _ => none

variable {κ : Type}

namespace Shared

/-- The number of the cell that a step stores a catalog into, with the catalog. -/
def stores? (s : Shared κ) (step : CallStep) : Option (Nat × Catalog) :=
  match s.calls[step.call]?, step.action with
  | some ⟨_, _, some cell, .built (.ok catalog)⟩, .leave => some (cell, catalog)
  | _, _ => none

theorem stores?_eq_some {s : Shared κ} {step : CallStep} {n : Nat} {catalog : Catalog}
    (h : s.stores? step = some (n, catalog)) :
    ∃ call, s.calls[step.call]? = some call ∧ call.cell = some n ∧
      call.phase = .built (.ok catalog) ∧ step.action = .leave := by
  unfold stores? at h
  split at h
  · rename_i hcall haction
    cases h
    exact ⟨_, hcall, rfl, rfl, haction⟩
  · cases h

variable [DecidableEq κ]

/-- What the steps of a history store, in order. -/
def stored (s : Shared κ) : List CallStep → List (Nat × Catalog)
  | [] => []
  | step :: rest =>
    match s.step? step with
    | some s' => (s.stores? step).toList ++ s'.stored rest
    | none => []

/-! ## The invariant of all portions -/

/-- The cells are where they belong, and each portion has come to what it is by a history of its own. -/
structure Lawful (s : Shared κ) : Prop where
  placed : s.Placed
  sound : ∀ k, ∃ history, Portion.Sound s.baseEndpoint history (s.portion k)

theorem sound_start (baseEndpoint : String) (requests : List (κ × View)) (k : κ) :
    Portion.Sound baseEndpoint [] ((start baseEndpoint requests).portion k) where
  accounts := by
    intro i view phase hi
    obtain ⟨call, hcall, -, -, rfl⟩ := portion_requests_eq_some_iff.1 hi
    obtain ⟨r, -, rfl⟩ := List.mem_map.1 (List.mem_of_getElem? hcall)
    trivial
  held := by
    intro i hi
    cases hi
  made := rfl

theorem lawful_start (baseEndpoint : String) (requests : List (κ × View)) :
    (start baseEndpoint requests).Lawful :=
  ⟨placed_start baseEndpoint requests, fun k => ⟨[], sound_start baseEndpoint requests k⟩⟩

/-- The state in which a request for `k` has come to another phase and its cell is `cell`. -/
structure Moved (s s' : Shared κ) (k : κ) (i : Nat) (view : View) (phase phase' : Phase)
    (cell : Cell) : Prop where
  base : s'.baseEndpoint = s.baseEndpoint
  before : (s.portion k).requests i = some (view, phase)
  after : ∀ j, (s'.portion k).requests j =
    if j = i then some (view, phase') else (s.portion k).requests j
  cell : s'.cellFor k = cell
  others : ∀ l, l ≠ k → s'.portion l = s.portion l

section Moved

variable {s s' : Shared κ} {k : κ} {i : Nat} {view : View} {phase phase' : Phase} {cell : Cell}

/-- The requests of the other numbers are as they were. -/
theorem Moved.requests_of_ne (h : Moved s s' k i view phase phase' cell) {j : Nat} (hj : j ≠ i)
    (l : κ) : (s'.portion l).requests j = (s.portion l).requests j := by
  by_cases hl : l = k
  · subst hl
    rw [h.after, if_neg hj]
  · rw [h.others l hl]

theorem Moved.requests_self (h : Moved s s' k i view phase phase' cell) :
    (s'.portion k).requests i = some (view, phase') := by
  rw [h.after, if_pos rfl]

/-- The cells of the other types of models are as they were. -/
theorem Moved.cellFor_eq (h : Moved s s' k i view phase phase' cell) (l : κ) :
    s'.cellFor l = if l = k then cell else s.cellFor l := by
  split
  · rename_i hl
    rw [hl, h.cell]
  · rename_i hl
    exact congrArg Portion.cell (h.others l hl)

end Moved

/-- What a step does: its request acts on the cell of its type, and all else stays. -/
theorem Lawful.step {s s' : Shared κ} (h : s.Lawful) {step : CallStep}
    (hstep : s.step? step = some s') :
    s'.Lawful ∧ (∀ k n, s.keys.lookup k = some n → s'.keys.lookup k = some n) ∧
      (∀ k c, (s.cellFor k).catalog = some c → (s'.cellFor k).catalog = some c) ∧
      ∃ call phase cell, s.calls[step.call]? = some call ∧
        Cell.Acts s.baseEndpoint step.call call.view (s.cellFor call.key) call.phase step.action
          cell phase ∧
        Moved s s' call.key step.call call.view call.phase phase cell := by
  obtain ⟨hplaced, hbase, -, hkeep, call, hcall, hself, hother⟩ := h.placed.step hstep
  obtain ⟨view, phase, cell, phase', hrequest, hacts, hportion⟩ := Portion.step?_eq_some_iff.1 hself
  rw [portion_requests hcall] at hrequest
  cases hrequest
  obtain ⟨history, hsound⟩ := h.sound call.key
  have hmoved : Moved s s' call.key step.call call.view call.phase phase' cell :=
    ⟨hbase, portion_requests hcall, fun i => congrArg (·.requests i) hportion,
      congrArg Portion.cell hportion, hother⟩
  refine ⟨⟨hplaced, fun k => ?_⟩, hkeep, fun k c hc => ?_, call, phase', cell, hcall, hacts, hmoved⟩
  · rw [hbase]
    by_cases hk : k = call.key
    · exact ⟨history ++ [step], hk ▸ hsound.step hself⟩
    · rw [hother k hk]
      exact h.sound k
  · rw [hmoved.cellFor_eq]
    split
    · rename_i hk
      exact (hsound.acts (portion_requests hcall) hacts).2 c (hk ▸ hc)
    · exact hc

/-! ## Stores -/

/-- A catalog is stored into a cell that is empty, and is there then. -/
theorem Lawful.stores {s s' : Shared κ} (h : s.Lawful) {step : CallStep}
    (hstep : s.step? step = some s') {n : Nat} {catalog : Catalog}
    (hstores : s.stores? step = some (n, catalog)) :
    ∃ k, s.keys.lookup k = some n ∧ (s.cellFor k).catalog = none ∧
      (s'.cellFor k).catalog = some catalog := by
  obtain ⟨-, -, -, call, phase, cell, hcall, hacts, hmoved⟩ := h.step hstep
  obtain ⟨call', hcall', hn, hphase, haction⟩ := stores?_eq_some hstores
  obtain rfl : call = call' := Option.some.inj (hcall.symm.trans hcall')
  refine ⟨call.key, h.placed.known (List.mem_of_getElem? hcall) hn, ?_, ?_⟩
  · -- the request is inside its cell
    obtain ⟨done, hsound⟩ := h.sound call.key
    have haccounts := hsound.accounts (portion_requests hcall)
    exact (hsound.held (haccounts.inside_eq (by rw [hphase]; trivial))).1
  · rw [hphase, haction] at hacts
    rw [hmoved.cell]
    cases hacts
    rfl

/-- A cell that is stored into was empty, and no cell is stored into twice. -/
theorem Lawful.nodup_stored {s : Shared κ} (h : s.Lawful) (history : List CallStep) :
    ((s.stored history).map Prod.fst).Nodup ∧
      ∀ n ∈ (s.stored history).map Prod.fst, ∀ k, s.keys.lookup k = some n →
        (s.cellFor k).catalog = none := by
  induction history generalizing s with
  | nil => simp [stored]
  | cons step rest ih =>
    unfold stored
    cases hstep : s.step? step with
    | none => simp
    | some s' =>
      simp only
      obtain ⟨hlawful, hkeep, hkept, -⟩ := h.step hstep
      obtain ⟨hnodup, hempty⟩ := ih hlawful
      -- a cell that is empty after the step was empty before
      have hbefore : ∀ n ∈ (s'.stored rest).map Prod.fst, ∀ k, s.keys.lookup k = some n →
          (s.cellFor k).catalog = none := by
        intro n hn k hk
        have hnone := hempty n hn k (hkeep k n hk)
        rw [Option.eq_none_iff_forall_ne_some] at hnone ⊢
        exact fun c hc => hnone c (hkept k c hc)
      cases hstores : s.stores? step with
      | none => exact ⟨hnodup, hbefore⟩
      | some store =>
        obtain ⟨n, catalog⟩ := store
        obtain ⟨k, hlookup, hnone, hsome⟩ := h.stores hstep hstores
        rw [Option.toList_some, List.singleton_append, List.map_cons]
        refine ⟨List.nodup_cons.2 ⟨fun hmem => ?_, hnodup⟩, fun m hm l hl => ?_⟩
        · have hnone' := hempty n hmem k (hkeep _ _ hlookup)
          rw [hsome] at hnone'
          cases hnone'
        · rcases List.mem_cons.1 hm with rfl | hm
          · rw [h.placed.inj hl hlookup]
            exact hnone
          · exact hbefore m hm l hl

/-! ## The requests in turn -/

/-- The requests that are settled have been served, one after the other, by a cache that holds the
    catalogs of the cells. -/
structure Serialized (s : Shared κ) (c : Cache κ) (served : List (Nat × Served Unit κ)) : Prop where
  base : c.baseEndpoint = s.baseEndpoint
  kept : ∀ k, c.find? k = (s.cellFor k).catalog
  nodup : (served.map Prod.fst).Nodup
  sound : ∀ {i r}, (i, r) ∈ served → ∃ phase,
    (s.portion r.key).requests i = some (r.view, phase) ∧ phase.answer? r.view = some r.answer
  complete : ∀ {k i view phase}, (s.portion k).requests i = some (view, phase) →
    (phase.answer? view).isSome → i ∈ served.map Prod.fst

theorem serialized_start (baseEndpoint : String) (requests : List (κ × View)) :
    (start baseEndpoint requests).Serialized (Cache.new baseEndpoint) [] where
  base := rfl
  kept := fun _ => rfl
  nodup := List.nodup_nil
  sound := by simp
  complete := by
    intro k i view phase hi hanswer
    obtain ⟨call, hcall, -, -, rfl⟩ := portion_requests_eq_some_iff.1 hi
    obtain ⟨r, -, rfl⟩ := List.mem_map.1 (List.mem_of_getElem? hcall)
    cases hanswer

/-- The number of a request tells its type of model. -/
theorem portion_key_eq {s : Shared κ} {k k' : κ} {i : Nat} {r r' : View × Phase}
    (h : (s.portion k).requests i = some r) (h' : (s.portion k').requests i = some r') :
    k = k' ∧ r = r' := by
  obtain ⟨call, hcall, rfl, hview, hphase⟩ := portion_requests_eq_some_iff.1 h
  obtain ⟨call', hcall', rfl, hview', hphase'⟩ := portion_requests_eq_some_iff.1 h'
  obtain rfl : call = call' := Option.some.inj (hcall.symm.trans hcall')
  exact ⟨rfl, Prod.ext (hview.symm.trans hview') (hphase.symm.trans hphase')⟩

section Turns

variable {s s' : Shared κ} {served : List (Nat × Served Unit κ)} {k : κ} {i : Nat} {view : View}
  {phase phase' : Phase} {cell : Cell}

/-- A step by which nothing is settled is no request. -/
theorem Serialized.wait {c : Cache κ} (h : s.Serialized c served)
    (hmoved : Moved s s' k i view phase phase' cell) (hcell : cell.catalog = (s.cellFor k).catalog)
    (hanswer : phase'.answer? view = phase.answer? view) : s'.Serialized c served where
  base := h.base.trans hmoved.base.symm
  kept := by
    intro l
    rw [h.kept, hmoved.cellFor_eq]
    split
    · rename_i hl
      rw [hl, hcell]
    · rfl
  nodup := h.nodup
  sound := by
    intro j r hr
    obtain ⟨ph, hrequest, hph⟩ := h.sound hr
    by_cases hj : j = i
    · subst hj
      obtain ⟨hk, heq⟩ := portion_key_eq hrequest hmoved.before
      cases heq
      rw [hk]
      exact ⟨phase', hmoved.requests_self, hanswer.trans hph⟩
    · exact ⟨ph, (hmoved.requests_of_ne hj r.key).trans hrequest, hph⟩
  complete := by
    intro l j v ph hrequest hsettled
    by_cases hj : j = i
    · subst hj
      obtain ⟨-, heq⟩ := portion_key_eq hrequest hmoved.requests_self
      cases heq
      rw [hanswer] at hsettled
      exact h.complete hmoved.before hsettled
    · rw [hmoved.requests_of_ne hj] at hrequest
      exact h.complete hrequest hsettled

/-- A step by which a request is settled is that request, if it is served in its turn. -/
theorem Serialized.serve {c c' : Cache κ} (h : s.Serialized c served) {reply : Reply}
    (hmoved : Moved s s' k i view phase phase' cell) (hbase : c'.baseEndpoint = c.baseEndpoint)
    (hfind : ∀ l, c'.find? l = if l = k then cell.catalog else c.find? l)
    (hopen : phase.answer? view = none)
    (hanswer : phase'.answer? view = some (reply.answer.map view.content)) :
    s'.Serialized c' (served ++ [(i, ⟨(), k, view, reply⟩)]) where
  base := by rw [hbase, h.base, hmoved.base]
  kept := by
    intro l
    rw [hfind, hmoved.cellFor_eq, h.kept]
    split <;> rfl
  nodup := by
    -- what has been served is settled, and this request was not
    have hnew : i ∉ served.map Prod.fst := by
      intro hmem
      obtain ⟨⟨j, r⟩, hr, rfl⟩ := List.mem_map.1 hmem
      obtain ⟨ph, hrequest, hph⟩ := h.sound hr
      obtain ⟨-, heq⟩ := portion_key_eq hrequest hmoved.before
      obtain ⟨hview, rfl⟩ := Prod.mk.inj heq
      rw [hview, hopen] at hph
      cases hph
    rw [List.map_append, List.map_singleton]
    refine List.nodup_append.2 ⟨h.nodup, by simp, ?_⟩
    intro j hj j' hj' heq
    obtain rfl : j' = i := List.mem_singleton.1 hj'
    exact hnew (heq ▸ hj)
  sound := by
    intro j r hr
    rcases List.mem_append.1 hr with hold | hnew
    · obtain ⟨ph, hrequest, hph⟩ := h.sound hold
      by_cases hj : j = i
      · subst hj
        obtain ⟨-, heq⟩ := portion_key_eq hrequest hmoved.before
        obtain ⟨hview, rfl⟩ := Prod.mk.inj heq
        rw [hview, hopen] at hph
        cases hph
      · exact ⟨ph, (hmoved.requests_of_ne hj r.key).trans hrequest, hph⟩
    · cases List.mem_singleton.1 hnew
      exact ⟨phase', hmoved.requests_self, hanswer⟩
  complete := by
    intro l j v ph hrequest hsettled
    rw [List.map_append, List.map_singleton, List.mem_append, List.mem_singleton]
    by_cases hj : j = i
    · exact .inr hj
    · rw [hmoved.requests_of_ne hj] at hrequest
      exact .inl (h.complete hrequest hsettled)

/-- A request for which the cell has a catalog. -/
theorem Serialized.hit {c : Caches Unit κ} (h : s.Serialized (c.cache ()) served)
    {catalog : Catalog}
    (hmoved : Moved s s' k i view phase (.decided (.ok catalog)) (s.cellFor k))
    (hopen : phase.answer? view = none) (hcatalog : (s.cellFor k).catalog = some catalog) :
    ∃ turn r, (c.run turn).1 = [r] ∧
      s'.Serialized ((c.run turn).2.cache ()) (served ++ [(i, r)]) := by
  have hkept : (c.cache ()).find? k = some catalog := (h.kept k).trans hcatalog
  refine ⟨[.request () k view], ⟨(), k, view, ((c.cache ()).request k (c.sources k)).1⟩, rfl, ?_⟩
  refine h.serve hmoved (Caches.baseEndpoint_run c _ ()) (fun l => ?_) hopen ?_
  · rw [Caches.find?_run, hcatalog]
    by_cases hl : l = k
    · subst hl
      simp [hkept]
    · simp [found?, hl, Ne.symm hl]
  · rw [Cache.request_of_kept hkept]
    rfl

/-- A request that has asked its model, while the cell was empty. -/
theorem Serialized.asked {c : Caches Unit κ} (h : s.Serialized (c.cache ()) served)
    (instantiate : Except ModelError Service)
    (hmoved : Moved s s' k i view phase
      (.decided (instantiate.map (Catalog.of s.baseEndpoint))) cell)
    (hopen : phase.answer? view = none) (hempty : (s.cellFor k).catalog = none)
    (hcell : cell.catalog = instantiate.toOption.map (Catalog.of s.baseEndpoint)) :
    ∃ turn r, (c.run turn).1 = [r] ∧
      s'.Serialized ((c.run turn).2.cache ()) (served ++ [(i, r)]) := by
  have hnone : (c.cache ()).find? k = none := (h.kept k).trans hempty
  have hnow : changed c.sources k instantiate k = instantiate := if_pos rfl
  refine ⟨[.change k instantiate, .request () k view],
    ⟨(), k, view, ((c.cache ()).request k (changed c.sources k instantiate k)).1⟩, rfl, ?_⟩
  refine h.serve hmoved (Caches.baseEndpoint_run c _ ()) (fun l => ?_) hopen ?_
  · rw [Caches.find?_run, hcell, h.base]
    by_cases hl : l = k
    · subst hl
      cases instantiate <;> simp [found?, hnow, hnone, Except.toOption]
    · simp [found?, hl, Ne.symm hl]
  · rw [hnow]
    cases instantiate with
    | error e =>
      rw [Cache.request_of_error hnone]
      rfl
    | ok service =>
      rw [Cache.request_of_ok hnone, h.base]
      rfl

end Turns

/-- A step is no request at all, or its own request on the cache that has its requests in turn. -/
theorem Serialized.step {s s' : Shared κ} (hs : s.Lawful) {c : Caches Unit κ}
    {served : List (Nat × Served Unit κ)} (h : s.Serialized (c.cache ()) served) {step : CallStep}
    (hstep : s.step? step = some s') :
    ∃ turn more, (c.run turn).1 = more.map Prod.snd ∧ (more.map Prod.fst).Sublist [step.call] ∧
      s'.Serialized ((c.run turn).2.cache ()) (served ++ more) := by
  obtain ⟨-, -, -, call, phase, cell, hcall, hacts, hmoved⟩ := hs.step hstep
  obtain ⟨history, hsound⟩ := hs.sound call.key
  have haccounts := hsound.accounts (portion_requests hcall)
  -- a step that settles nothing leaves the catalogs in the cells alone
  suffices (cell.catalog = (s.cellFor call.key).catalog ∧
      phase.answer? call.view = call.phase.answer? call.view) ∨
      ∃ turn r, (c.run turn).1 = [r] ∧
        s'.Serialized ((c.run turn).2.cache ()) (served ++ [(step.call, r)]) by
    rcases this with ⟨hcell, hanswer⟩ | ⟨turn, r, hrun, hserialized⟩
    · refine ⟨[], [], rfl, List.nil_sublist _, ?_⟩
      rw [List.append_nil]
      exact h.wait hmoved hcell hanswer
    · exact ⟨turn, [(step.call, r)], hrun, List.Sublist.refl _, hserialized⟩
  generalize call.phase = before at hacts hmoved haccounts
  generalize step.action = action at hacts
  cases hacts with
  | take | miss | build | answer => exact .inl ⟨rfl, rfl⟩
  | enter hcatalog => exact .inl ⟨hcatalog.symm, rfl⟩
  | hit hcatalog | late hcatalog => exact .inr (h.hit hmoved rfl hcatalog)
  | store catalog =>
    obtain ⟨hinside, instantiate, -, hresult⟩ := haccounts
    cases instantiate with
    | error e => cases hresult
    | ok service =>
      cases hresult
      exact .inr (h.asked (.ok service) hmoved rfl (hsound.held hinside).1 rfl)
  | giveUp e =>
    obtain ⟨hinside, -⟩ := haccounts
    have hempty := (hsound.held hinside).1
    exact .inr (h.asked (.error e) hmoved rfl hempty hempty)

/-- A history comes to requests in turn, each made at one of its own steps. -/
theorem Serialized.run {s s' : Shared κ} (hs : s.Lawful) {c : Caches Unit κ}
    {served : List (Nat × Served Unit κ)} (h : s.Serialized (c.cache ()) served)
    {history : List CallStep} (hrun : s.run? history = some s') :
    ∃ turn more, (c.run turn).1 = more.map Prod.snd ∧
      (more.map Prod.fst).Sublist (history.map CallStep.call) ∧
      s'.Serialized ((c.run turn).2.cache ()) (served ++ more) := by
  induction history generalizing s c served with
  | nil =>
    cases hrun
    exact ⟨[], [], rfl, List.Sublist.refl _, by rwa [List.append_nil]⟩
  | cons step rest ih =>
    rw [run?_cons] at hrun
    obtain ⟨t, hstep, hrest⟩ := Option.bind_eq_some_iff.1 hrun
    obtain ⟨turn, more, hturn, hsub, hserialized⟩ := h.step hs hstep
    obtain ⟨turn', more', hturn', hsub', hserialized'⟩ := ih (hs.step hstep).1 hserialized hrest
    refine ⟨turn ++ turn', more ++ more', ?_, ?_, ?_⟩
    · rw [Caches.run_append, hturn, hturn', List.map_append]
    · rw [List.map_append]
      exact hsub.append hsub'
    · rw [Caches.run_append, ← List.append_assoc]
      exact hserialized'

/-- A request is settled exactly if it has been served, and then with the same answer. -/
theorem Serialized.answer_iff {s : Shared κ} {c : Cache κ} {served : List (Nat × Served Unit κ)}
    (h : s.Serialized c served) {i : Nat} {call : Call κ} (hcall : s.calls[i]? = some call)
    {answer : Except ModelError Content} :
    call.phase.answer? call.view = some answer ↔
      ∃ r, (i, r) ∈ served ∧ r.key = call.key ∧ r.view = call.view ∧ r.answer = answer := by
  have hself := portion_requests hcall
  constructor
  · intro hanswer
    have hmem := h.complete hself (by rw [hanswer]; rfl)
    obtain ⟨⟨j, r⟩, hr, rfl⟩ := List.mem_map.1 hmem
    obtain ⟨phase, hrequest, hphase⟩ := h.sound hr
    obtain ⟨hkey, heq⟩ := portion_key_eq hrequest hself
    obtain ⟨hview, rfl⟩ := Prod.mk.inj heq
    rw [hview, hanswer] at hphase
    exact ⟨r, hr, hkey, hview, (Option.some.inj hphase).symm⟩
  · rintro ⟨r, hr, hkey, hview, rfl⟩
    obtain ⟨phase, hrequest, hphase⟩ := h.sound hr
    obtain ⟨-, heq⟩ := portion_key_eq hrequest hself
    obtain ⟨-, rfl⟩ := Prod.mk.inj heq
    rw [← hview]
    exact hphase

/-! ## Progress -/

/-- As long as a request is not answered, some request for its type of model can go on, whatever the
    model answers. -/
theorem Lawful.progress {s : Shared κ} (h : s.Lawful) {i : Nat} {call : Call κ}
    (hcall : s.calls[i]? = some call) (hopen : ∀ answer, call.phase ≠ .answered answer)
    (instantiate : Except ModelError Service) :
    ∃ step s', s.step? step = some s' ∧ step.isOn s.requests call.key ∧
      ∀ x, step.action = .build x → x = instantiate := by
  obtain ⟨history, hsound⟩ := h.sound call.key
  obtain ⟨step, p, hp, hbuild⟩ := hsound.progress (portion_requests hcall) hopen instantiate
  obtain ⟨view, phase, -, -, hj, -⟩ := Portion.step?_eq_some_iff.1 hp
  obtain ⟨s', hs', -⟩ := h.placed.exists_step? hp
  obtain ⟨call', hcall', hkey, -⟩ := portion_requests_eq_some_iff.1 hj
  refine ⟨step, s', hs', ?_, hbuild⟩
  simp [CallStep.isOn, Shared.requests, hcall', hkey]

/-! ## Whole histories -/

/-- What has become of requests on one cache after a history of their steps. -/
structure Coherent (baseEndpoint : String) (requests : List (κ × View)) (history : List CallStep)
    (s : Shared κ) : Prop where
  requests_eq : s.requests = requests
  /-- A request that has done anything has a cell. -/
  has_cell : ∀ {call : Call κ}, call ∈ s.calls → call.cell = none → call.phase = .begun
  /-- Requests for one type of model have the same cell, and requests for others another one. -/
  cell_eq_iff : ∀ {a b : Call κ} {m n : Nat}, a ∈ s.calls → b ∈ s.calls → a.cell = some m →
    b.cell = some n → (m = n ↔ a.key = b.key)
  /-- No cell is stored into twice. -/
  stored_once : (((start baseEndpoint requests).stored history).map Prod.fst).Nodup
  /-- A type of model gives a service once at most. -/
  built_once : ∀ k, (services (history.filter (·.isOn requests k))).length ≤ 1
  /-- Whoever is given something is given it from the catalog of that service. -/
  of_catalog : ∀ {i : Nat} {call : Call κ} {content : Content}, s.calls[i]? = some call →
    call.phase = .answered (.ok content) →
    ∃ service, services (history.filter (·.isOn requests call.key)) = [service] ∧
      content = call.view.content (Catalog.of baseEndpoint service)
  /-- Whoever is given an error has got it from the model itself. -/
  of_error : ∀ {i : Nat} {call : Call κ} {e : ModelError}, s.calls[i]? = some call →
    call.phase = .answered (.error e) → ⟨i, .build (.error e)⟩ ∈ history
  /-- Without the requests for other types, those for one type come to the same. -/
  apart : ∀ k, ∃ t, (start baseEndpoint requests).run? (history.filter (·.isOn requests k)) = some t ∧
    t.portion k = s.portion k
  /-- All that is given is given as to requests that come one after the other, each of them made at a
  step of its own. -/
  in_turn : ∀ sources : κ → Except ModelError Service,
    ∃ (turn : List (Occurrence Unit κ)) (served : List (Nat × Served Unit κ)),
      ((Caches.start (fun _ : Unit => baseEndpoint) sources).run turn).1 = served.map Prod.snd ∧
      (served.map Prod.fst).Nodup ∧
      (served.map Prod.fst).Sublist (history.map CallStep.call) ∧
      ∀ {i : Nat} {call : Call κ} {answer : Except ModelError Content}, s.calls[i]? = some call →
        (call.phase.answer? call.view = some answer ↔
          ∃ r, (i, r) ∈ served ∧ r.key = call.key ∧ r.view = call.view ∧ r.answer = answer)
  /-- As long as a request is not answered, one for the same type of model can go on, whatever the
  model answers. -/
  progress : ∀ {i : Nat} {call : Call κ}, s.calls[i]? = some call →
    (∀ answer, call.phase ≠ .answered answer) → ∀ instantiate : Except ModelError Service,
    ∃ (step : CallStep) (s' : Shared κ), s.step? step = some s' ∧ step.isOn requests call.key ∧
      ∀ x, step.action = .build x → x = instantiate

end Shared

open Shared (start)

variable [DecidableEq κ]

/-- Requests on one cache that run at the same time, in any interleaving and whatever their models
    answer: those for one type of model share one cell, which is stored into once; the model gives a
    service once, and its catalog is what all of them are given; an error is given to the request that
    has met it.  Requests for other types are of no account, and all are given what they would be given
    one after the other. -/
theorem concurrent_requests_share_one_catalog (baseEndpoint : String) (requests : List (κ × View))
    (history : List CallStep) (s : Shared κ)
    (hrun : (start baseEndpoint requests).run? history = some s) :
    Shared.Coherent baseEndpoint requests history s := by
  have hstart := Shared.lawful_start baseEndpoint requests
  obtain ⟨hplaced, hbase, hrequests, hportions⟩ := hstart.placed.run hrun
  rw [Shared.requests_start] at hrequests hportions
  have hsound : ∀ k, Portion.Sound baseEndpoint (history.filter (·.isOn requests k)) (s.portion k) :=
    fun k => (Shared.sound_start baseEndpoint requests k).run (hportions k)
  constructor
  case requests_eq => exact hrequests
  case has_cell => exact hplaced.begun
  case cell_eq_iff => exact hplaced.cell_eq_iff
  case stored_once => exact (hstart.nodup_stored history).1
  case built_once => exact fun k => (hsound k).length_services_le
  case of_catalog =>
    intro i call content hcall hphase
    have hself := Shared.portion_requests hcall
    rw [hphase] at hself
    exact (hsound call.key).of_answered_ok hself
  case of_error =>
    intro i call e hcall hphase
    have hself := Shared.portion_requests hcall
    rw [hphase] at hself
    exact (List.mem_filter.1 ((hsound call.key).of_answered_error hself)).1
  case apart => exact fun k => hstart.placed.exists_run? (hportions k)
  case in_turn =>
    intro sources
    have hserial : (start baseEndpoint requests).Serialized
        ((Caches.start (fun _ : Unit => baseEndpoint) sources).cache ()) [] :=
      Shared.serialized_start baseEndpoint requests
    obtain ⟨turn, served, hturn, hsub, hserialized⟩ := hserial.run hstart hrun
    rw [List.nil_append] at hserialized
    exact ⟨turn, served, hturn, hserialized.nodup, hsub, fun hcall => hserialized.answer_iff hcall⟩
  case progress =>
    intro i call hcall hopen instantiate
    have hlawful : s.Lawful := by
      refine ⟨hplaced, fun k => ⟨history.filter (·.isOn requests k), ?_⟩⟩
      rw [hbase]
      exact hsound k
    rw [← hrequests]
    exact hlawful.progress hcall hopen instantiate

/-- Two requests for one type of model and one for another. -/
def sampleRequests : List (Bool × View) := [(true, .records false), (true, .whole), (false, .whole)]

/-- Both requests for the first type see that the cell is empty; the one that goes in first meets an
    error, and the other one is let in after it. -/
def sampleHistory : List CallStep :=
  [⟨0, .take⟩, ⟨0, .look⟩, ⟨1, .take⟩, ⟨1, .look⟩, ⟨0, .enter⟩, ⟨2, .take⟩, ⟨2, .look⟩, ⟨2, .enter⟩,
    ⟨0, .build (.error (.parse "m.json" "EOF while parsing"))⟩, ⟨2, .build (.ok (.empty "T" []))⟩,
    ⟨0, .leave⟩, ⟨1, .enter⟩, ⟨0, .answer⟩, ⟨1, .build (.ok (.empty "S" []))⟩, ⟨1, .leave⟩,
    ⟨2, .leave⟩, ⟨1, .answer⟩, ⟨2, .answer⟩]

theorem concurrent_requests_share_one_catalog_sample :
    ∃ s, (start "https://h" sampleRequests).run? sampleHistory = some s ∧
      Shared.Coherent "https://h" sampleRequests sampleHistory s ∧
      s.calls.map Call.phase = [.answered (.error (.parse "m.json" "EOF while parsing")),
        .answered (.ok (.catalog ⟨"S", [], [], []⟩)), .answered (.ok (.catalog ⟨"T", [], [], []⟩))] :=
  ⟨_, rfl, concurrent_requests_share_one_catalog _ _ _ _ rfl, rfl⟩

end OperationCatalog
