import OperationCatalog.Proofs.CachePortions

/-!
# What holds of a cell and its requests at every moment

Between the look into a cell and the way in, any number of other requests may fill the cell, or fail and
leave it empty.  What holds all the same is said of one portion of the cache at a time, `Portion.Sound`:
whoever is inside is the only one, the cell is empty then, and the catalogs that have been built are the
one that is in the cell or is about to be put there.

## Key results

- `Portion.Sound.acts`: what an action leaves as it was
- `Portion.Sound.step`, `Portion.Sound.run`: the invariant, for one step and for a history
- `Portion.Sound.of_answered_ok`, `Portion.Sound.of_answered_error`: where answers come from
-/

namespace OperationCatalog

/-- The service that a step gets from the model. -/
def CallStep.service? (step : CallStep) : Option Service :=
  match step.action with
  | .build instantiate => instantiate.toOption
  | _ => none

/-- The services that the steps of a history get from their models, in order. -/
def services (history : List CallStep) : List Service := history.filterMap CallStep.service?

theorem services_concat (history : List CallStep) (step : CallStep) :
    services (history ++ [step]) = services history ++ step.service?.toList := by
  cases h : step.service? <;> simp [services, h]

namespace Phase

/-- Whether a request is inside its cell. -/
def Holds : Phase → Prop
  | .inside | .built _ => True
  | _ => False

/-- The catalog that a request has built and not stored yet. -/
def built? : Phase → Option Catalog
  | .built (.ok catalog) => some catalog
  | _ => none

end Phase

namespace Portion

/-! ## The invariant of a portion -/

/-- Where a result comes from: a catalog from the cell, an error from the model that the request has
    asked itself. -/
def Settled (history : List CallStep) (cell : Cell) (i : Nat) : Except ModelError Catalog → Prop
  | .ok catalog => cell.catalog = some catalog
  | .error e => ⟨i, .build (.error e)⟩ ∈ history

/-- What is true of a request in each phase. -/
def Accounts (baseEndpoint : String) (history : List CallStep) (cell : Cell) (i : Nat) (view : View) :
    Phase → Prop
  | .begun | .placed | .waiting => True
  | .inside => cell.inside = some i
  | .built result => cell.inside = some i ∧ ∃ instantiate, ⟨i, .build instantiate⟩ ∈ history ∧
      result = instantiate.map (Catalog.of baseEndpoint)
  | .decided result => Settled history cell i result
  | .answered answer => ∃ result, Settled history cell i result ∧ answer = result.map view.content

/-- The catalog that has been built: it is in the cell, or with the request that is inside. -/
def made (p : Portion) : Option Catalog :=
  p.cell.catalog <|> p.cell.inside.bind fun i => (p.requests i).bind fun r => r.2.built?

/-- What is true of a portion after a history of its requests. -/
structure Sound (baseEndpoint : String) (history : List CallStep) (p : Portion) : Prop where
  accounts : ∀ {i view phase}, p.requests i = some (view, phase) →
    Accounts baseEndpoint history p.cell i view phase
  held : ∀ {i}, p.cell.inside = some i →
    p.cell.catalog = none ∧ ∃ view phase, p.requests i = some (view, phase) ∧ phase.Holds
  made : (services history).map (Catalog.of baseEndpoint) = p.made.toList

variable {baseEndpoint : String} {history : List CallStep} {p p' : Portion} {cell cell' : Cell}
  {i : Nat} {view : View} {phase : Phase}

theorem Settled.mono {result : Except ModelError Catalog} (h : Settled history cell i result)
    (hcatalog : ∀ c, cell.catalog = some c → cell'.catalog = some c) (more : List CallStep) :
    Settled (history ++ more) cell' i result := by
  cases result with
  | ok catalog => exact hcatalog catalog h
  | error e => exact List.mem_append_left more h

/-- What is true of a request stays true while it does nothing, as long as it is not put out of its
    cell and the cell does not lose its catalog. -/
theorem Accounts.mono (h : Accounts baseEndpoint history cell i view phase)
    (hinside : cell.inside = some i → cell'.inside = some i)
    (hcatalog : ∀ c, cell.catalog = some c → cell'.catalog = some c) (more : List CallStep) :
    Accounts baseEndpoint (history ++ more) cell' i view phase := by
  cases phase with
  | begun | placed | waiting => trivial
  | inside => exact hinside h
  | built result =>
    obtain ⟨hi, instantiate, hmem, hresult⟩ := h
    exact ⟨hinside hi, instantiate, List.mem_append_left more hmem, hresult⟩
  | decided result => exact Settled.mono h hcatalog more
  | answered answer =>
    obtain ⟨result, hsettled, hanswer⟩ := h
    exact ⟨result, hsettled.mono hcatalog more, hanswer⟩

/-- A request that is inside its cell is the one that the cell knows of. -/
theorem Accounts.inside_eq (h : Accounts baseEndpoint history cell i view phase)
    (hholds : phase.Holds) : cell.inside = some i := by
  cases phase with
  | inside => exact h
  | built result => exact h.1
  | _ => exact hholds.elim

/-- The cell of an acting request is not left by another one, and keeps its catalog. -/
theorem Sound.acts (h : Sound baseEndpoint history p) {action : Action} {phase' : Phase}
    (hi : p.requests i = some (view, phase))
    (hacts : Cell.Acts baseEndpoint i view p.cell phase action cell' phase') :
    (∀ j, j ≠ i → (p.cell.inside = some j ↔ cell'.inside = some j)) ∧
      ∀ c, p.cell.catalog = some c → cell'.catalog = some c := by
  have haccounts := h.accounts hi
  cases hacts with
  | take | hit | miss | late | build | answer => exact ⟨fun _ _ => Iff.rfl, fun _ => id⟩
  | enter hcatalog hinside =>
    refine ⟨fun j hj => ?_, fun c hc => ?_⟩
    · simp [hinside, Ne.symm hj]
    · rw [hcatalog] at hc
      cases hc
  | store catalog =>
    have hinside := haccounts.inside_eq trivial
    refine ⟨fun j hj => ?_, fun c hc => ?_⟩
    · simp [hinside, Ne.symm hj]
    · rw [(h.held hinside).1] at hc
      cases hc
  | giveUp e =>
    have hinside := haccounts.inside_eq trivial
    refine ⟨fun j hj => ?_, fun c hc => hc⟩
    simp [hinside, Ne.symm hj]

/-- The portion after a request has acted on its cell, if all is well with that request and the
    catalogs built are accounted for. -/
theorem Sound.put (h : Sound baseEndpoint history p) {action : Action} {phase' : Phase}
    (hi : p.requests i = some (view, phase))
    (hacts : Cell.Acts baseEndpoint i view p.cell phase action cell' phase')
    (hself : Accounts baseEndpoint (history ++ [⟨i, action⟩]) cell' i view phase')
    (hheld : cell'.inside = some i → cell'.catalog = none ∧ phase'.Holds)
    (hempty : ∀ j, j ≠ i → cell'.inside = some j → cell'.catalog = p.cell.catalog)
    (hmade : (services (history ++ [⟨i, action⟩])).map (Catalog.of baseEndpoint) =
      (Portion.made ⟨cell', fun j => if j = i then some (view, phase') else p.requests j⟩).toList) :
    Sound baseEndpoint (history ++ [⟨i, action⟩])
      ⟨cell', fun j => if j = i then some (view, phase') else p.requests j⟩ where
  accounts := by
    obtain ⟨hinside, hcatalog⟩ := h.acts hi hacts
    intro j view' phase'' hj
    by_cases hji : j = i
    · subst hji
      simp only [if_true, Option.some.injEq, Prod.mk.injEq] at hj
      obtain ⟨rfl, rfl⟩ := hj
      exact hself
    · simp only [if_neg hji] at hj
      exact (h.accounts hj).mono (hinside j hji).1 hcatalog _
  held := by
    obtain ⟨hinside, -⟩ := h.acts hi hacts
    intro j hj
    by_cases hji : j = i
    · subst hji
      obtain ⟨hnone, hholds⟩ := hheld hj
      exact ⟨hnone, view, phase', if_pos rfl, hholds⟩
    · obtain ⟨hnone, v, ph, hrequest, hholds⟩ := h.held ((hinside j hji).2 hj)
      refine ⟨(hempty j hji hj).trans hnone, v, ph, ?_, hholds⟩
      simp only [if_neg hji]
      exact hrequest
  made := hmade

/-- An action that is not done inside the cell builds nothing. -/
theorem Sound.made_eq (h : Sound baseEndpoint history p) (hi : p.requests i = some (view, phase))
    (hholds : ¬phase.Holds) (phase' : Phase) :
    Portion.made ⟨p.cell, fun j => if j = i then some (view, phase') else p.requests j⟩ = p.made := by
  have hne : p.cell.inside ≠ some i := by
    intro hinside
    obtain ⟨-, _, _, hrequest, hholds'⟩ := h.held hinside
    rw [hi] at hrequest
    cases hrequest
    exact hholds hholds'
  simp only [Portion.made]
  cases hinside : p.cell.inside with
  | none => rfl
  | some j =>
    have hji : j ≠ i := by
      rintro rfl
      exact hne hinside
    simp [hji]

/-- What a request does outside of its cell keeps the invariant. -/
theorem Sound.outside (h : Sound baseEndpoint history p) {action : Action} {phase' : Phase}
    (hi : p.requests i = some (view, phase))
    (hacts : Cell.Acts baseEndpoint i view p.cell phase action p.cell phase')
    (hholds : ¬phase.Holds) (hservice : CallStep.service? ⟨i, action⟩ = none)
    (hself : Accounts baseEndpoint (history ++ [⟨i, action⟩]) p.cell i view phase') :
    Sound baseEndpoint (history ++ [⟨i, action⟩])
      ⟨p.cell, fun j => if j = i then some (view, phase') else p.requests j⟩ := by
  refine h.put hi hacts hself ?_ (fun _ _ _ => rfl) ?_
  · intro hinside
    obtain ⟨-, _, _, hrequest, hholds'⟩ := h.held hinside
    rw [hi] at hrequest
    cases hrequest
    exact (hholds hholds').elim
  · rw [services_concat, hservice, h.made_eq hi hholds]
    simpa using h.made

/-- Each step of a portion keeps the invariant. -/
theorem Sound.step (h : Sound baseEndpoint history p) {step : CallStep}
    (hstep : p.step? baseEndpoint step = some p') :
    Sound baseEndpoint (history ++ [step]) p' := by
  obtain ⟨i, action⟩ := step
  obtain ⟨view, phase, cell', phase', hi, hacts, rfl⟩ := step?_eq_some_iff.1 hstep
  have haccounts := h.accounts hi
  have hacts' := hacts
  cases hacts' with
  | take | miss => exact h.outside hi hacts id rfl trivial
  | hit hcell | late hcell => exact h.outside hi hacts id rfl hcell
  | answer result =>
    exact h.outside hi hacts id rfl ⟨result, haccounts.mono id (fun _ => id) _, rfl⟩
  | enter hcatalog hinside =>
    refine h.put hi hacts rfl (fun _ => ⟨rfl, trivial⟩) ?_ ?_
    · intro j hj hcell
      simp [Ne.symm hj] at hcell
    · -- nothing was built before, and nobody has built anything since
      have hmade := h.made
      simp only [Portion.made, hcatalog, hinside] at hmade
      rw [services_concat]
      simpa [Portion.made, CallStep.service?, Phase.built?] using hmade
  | build instantiate =>
    have hinside := haccounts.inside_eq trivial
    have hempty := (h.held hinside).1
    refine h.put hi hacts ⟨hinside, instantiate, by simp, rfl⟩ (fun _ => ⟨hempty, trivial⟩)
      (fun _ _ _ => rfl) ?_
    -- the request had built nothing before
    have hmade := h.made
    simp only [Portion.made, hempty, hinside, hi, Option.bind_some, Phase.built?] at hmade
    rw [services_concat, List.map_append, hmade]
    cases instantiate <;>
      simp [Portion.made, hempty, hinside, CallStep.service?, Except.toOption, Except.map, Phase.built?]
  | store catalog =>
    have hinside := haccounts.inside_eq trivial
    refine h.put hi hacts rfl (fun hcell => by cases hcell) (fun _ _ hcell => by cases hcell) ?_
    -- the catalog that was with the request is now in the cell
    have hmade := h.made
    simp only [Portion.made, (h.held hinside).1, hinside, hi, Option.bind_some,
      Phase.built?] at hmade
    rw [services_concat]
    simpa [Portion.made, CallStep.service?] using hmade
  | giveUp e =>
    obtain ⟨hinside, instantiate, hmem, hresult⟩ := haccounts
    have hempty := (h.held hinside).1
    have herror : instantiate = .error e := by
      cases instantiate with
      | error e' =>
        cases hresult
        rfl
      | ok service => cases hresult
    refine h.put hi hacts ?_ (fun hcell => by cases hcell) (fun _ _ hcell => by cases hcell) ?_
    · rw [herror] at hmem
      exact List.mem_append_left _ hmem
    · have hmade := h.made
      simp only [Portion.made, hempty, hinside, hi, Option.bind_some, Phase.built?] at hmade
      rw [services_concat]
      simpa [Portion.made, hempty, CallStep.service?] using hmade

/-- Every history of a portion keeps the invariant. -/
theorem Sound.run {more : List CallStep} (h : Sound baseEndpoint history p)
    (hrun : p.run? baseEndpoint more = some p') : Sound baseEndpoint (history ++ more) p' := by
  induction more generalizing history p with
  | nil =>
    cases hrun
    rwa [List.append_nil]
  | cons step rest ih =>
    rw [run?_cons] at hrun
    obtain ⟨q, hstep, hrest⟩ := Option.bind_eq_some_iff.1 hrun
    have hq := ih (h.step hstep) hrest
    rwa [List.append_assoc] at hq

/-! ## Progress -/

theorem step?_of_acts {action : Action} {phase' : Phase} (hi : p.requests i = some (view, phase))
    (hacts : Cell.Acts baseEndpoint i view p.cell phase action cell' phase') :
    p.step? baseEndpoint ⟨i, action⟩ =
      some ⟨cell', fun j => if j = i then some (view, phase') else p.requests j⟩ :=
  step?_eq_some_iff.2 ⟨_, _, _, _, hi, hacts, rfl⟩

/-- A request that is inside its cell can go on, whatever the model answers. -/
theorem exists_step?_of_holds (hi : p.requests i = some (view, phase)) (hholds : phase.Holds)
    (baseEndpoint : String) (instantiate : Except ModelError Service) :
    ∃ step p', p.step? baseEndpoint step = some p' ∧ ∀ x, step.action = .build x → x = instantiate := by
  cases phase with
  | inside =>
    refine ⟨⟨i, .build instantiate⟩, _, step?_of_acts hi (.build _), ?_⟩
    intro x hx
    exact (Action.build.inj hx).symm
  | built result =>
    cases result with
    | ok catalog => exact ⟨⟨i, .leave⟩, _, step?_of_acts hi (.store catalog), nofun⟩
    | error e => exact ⟨⟨i, .leave⟩, _, step?_of_acts hi (.giveUp e), nofun⟩
  | _ => exact hholds.elim

/-- As long as a request is not answered, some request can go on: itself, or the one that is inside the
    cell. -/
theorem Sound.progress (h : Sound baseEndpoint history p) (hi : p.requests i = some (view, phase))
    (hopen : ∀ answer, phase ≠ .answered answer) (instantiate : Except ModelError Service) :
    ∃ step p', p.step? baseEndpoint step = some p' ∧ ∀ x, step.action = .build x → x = instantiate := by
  cases phase with
  | begun => exact ⟨⟨i, .take⟩, _, step?_of_acts hi .take, nofun⟩
  | placed =>
    cases hcatalog : p.cell.catalog with
    | some c => exact ⟨⟨i, .look⟩, _, step?_of_acts hi (.hit hcatalog), nofun⟩
    | none => exact ⟨⟨i, .look⟩, _, step?_of_acts hi (.miss hcatalog), nofun⟩
  | waiting =>
    cases hcatalog : p.cell.catalog with
    | some c => exact ⟨⟨i, .enter⟩, _, step?_of_acts hi (.late hcatalog), nofun⟩
    | none =>
      cases hinside : p.cell.inside with
      | none => exact ⟨⟨i, .enter⟩, _, step?_of_acts hi (.enter hcatalog hinside), nofun⟩
      | some j =>
        -- it has to wait, but whoever is inside need not
        obtain ⟨-, view, phase, hj, hholds⟩ := h.held hinside
        exact exists_step?_of_holds hj hholds baseEndpoint instantiate
  | inside => exact exists_step?_of_holds hi trivial baseEndpoint instantiate
  | built result => exact exists_step?_of_holds hi trivial baseEndpoint instantiate
  | decided result => exact ⟨⟨i, .answer⟩, _, step?_of_acts hi (.answer result), nofun⟩
  | answered answer => exact absurd rfl (hopen answer)

/-! ## The service of a type of model -/

/-- A type of model gives a service once at most. -/
theorem Sound.length_services_le (h : Sound baseEndpoint history p) : (services history).length ≤ 1 := by
  rw [← List.length_map, h.made]
  cases p.made <;> simp

/-- A catalog that is in the cell is that of the one service. -/
theorem Sound.services_eq (h : Sound baseEndpoint history p) {catalog : Catalog}
    (hcell : p.cell.catalog = some catalog) :
    ∃ service, services history = [service] ∧ catalog = Catalog.of baseEndpoint service := by
  have hbuilt : p.made = some catalog := by
    rw [Portion.made, hcell]
    rfl
  have hmade := h.made
  rw [hbuilt] at hmade
  obtain ⟨service, hservice, hof⟩ := List.map_eq_singleton_iff.1 hmade
  exact ⟨service, hservice, hof.symm⟩

/-- What a request has been given comes from the catalog of the one service. -/
theorem Sound.of_answered_ok (h : Sound baseEndpoint history p) {content : Content}
    (hi : p.requests i = some (view, .answered (.ok content))) :
    ∃ service, services history = [service] ∧
      content = view.content (Catalog.of baseEndpoint service) := by
  obtain ⟨result, hsettled, hanswer⟩ := h.accounts hi
  cases result with
  | error e => cases hanswer
  | ok catalog =>
    cases hanswer
    obtain ⟨service, hservice, rfl⟩ := h.services_eq hsettled
    exact ⟨service, hservice, rfl⟩

/-- An error that a request has been given is what the model has answered the request itself. -/
theorem Sound.of_answered_error (h : Sound baseEndpoint history p) {e : ModelError}
    (hi : p.requests i = some (view, .answered (.error e))) : ⟨i, .build (.error e)⟩ ∈ history := by
  obtain ⟨result, hsettled, hanswer⟩ := h.accounts hi
  cases result with
  | ok catalog => cases hanswer
  | error e' =>
    cases hanswer
    exact hsettled

end Portion

end OperationCatalog
