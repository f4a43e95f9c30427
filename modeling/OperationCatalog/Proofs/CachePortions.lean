import OperationCatalog.Cache.Interleaving

/-!
# The portions of a cache with concurrent requests

Each type of model has a cell of its own, and a request works on no other cell than that of its type.
So the state of a shared cache falls into portions, one for each type of model.  `Shared.portion` cuts
one out; a step of a request is a step of the portion of its type and leaves the others as they were.

## Key results

- `Shared.Placed.step`, `Shared.Placed.exists_step?`: the steps of a shared cache are those of its
  portions, one at a time
- `Shared.Placed.run`: a history moves each portion by the steps of its own requests
- `Shared.Placed.exists_run?`: what a portion can do, the cache can do without the other requests
-/

namespace OperationCatalog

/-- What of a cache concerns one type of model: its cell, and the requests for it by their numbers. -/
structure Portion where
  cell : Cell
  requests : Nat → Option (View × Phase)

namespace Portion

/-- The portion after a step of one of its requests. -/
def step? (baseEndpoint : String) (p : Portion) (step : CallStep) : Option Portion :=
  match p.requests step.call with
  | none => none
  | some (view, phase) =>
    (p.cell.act? baseEndpoint step.call view phase step.action).map fun (cell, phase) =>
      ⟨cell, fun i => if i = step.call then some (view, phase) else p.requests i⟩

/-- The portion after a history of its requests. -/
def run? (baseEndpoint : String) (p : Portion) (history : List CallStep) : Option Portion :=
  history.foldlM (step? baseEndpoint) p

theorem run?_cons (baseEndpoint : String) (p : Portion) (step : CallStep) (rest : List CallStep) :
    p.run? baseEndpoint (step :: rest) =
      (p.step? baseEndpoint step).bind (·.run? baseEndpoint rest) := rfl

/-- A step of a portion is an action of one of its requests. -/
theorem step?_eq_some_iff {baseEndpoint : String} {p p' : Portion} {step : CallStep} :
    p.step? baseEndpoint step = some p' ↔
      ∃ view phase cell phase', p.requests step.call = some (view, phase) ∧
        Cell.Acts baseEndpoint step.call view p.cell phase step.action cell phase' ∧
        p' = ⟨cell, fun i => if i = step.call then some (view, phase') else p.requests i⟩ := by
  unfold step?
  split
  · rename_i hnone
    simp [hnone]
  · rename_i view phase hrequest
    simp only [hrequest, Option.map_eq_some_iff, Prod.exists, Cell.act?_eq_some_iff,
      Option.some.injEq, Prod.mk.injEq]
    constructor
    · intro ⟨cell, phase', hacts, hp⟩
      exact ⟨view, phase, cell, phase', ⟨rfl, rfl⟩, hacts, hp.symm⟩
    · intro ⟨_, _, cell, phase', ⟨rfl, rfl⟩, hacts, hp⟩
      exact ⟨cell, phase', hacts, hp.symm⟩

end Portion

variable {κ : Type}

/-- What is asked for by the requests. -/
def Shared.requests (s : Shared κ) : List (κ × View) :=
  s.calls.map fun call => (call.key, call.view)

@[simp] theorem Shared.requests_start (baseEndpoint : String) (requests : List (κ × View)) :
    (start baseEndpoint requests).requests = requests := by
  rw [Shared.requests, start, List.map_map]
  exact List.map_id requests

namespace Shared

/-- The state in which the cell of this number and the request of this number are others. -/
def put (s : Shared κ) (n : Nat) (cell : Cell) (i : Nat) (call : Call κ) : Shared κ :=
  { s with cells := s.cells.set n cell, calls := s.calls.set i call }

section Put

variable {s : Shared κ} {n i : Nat} {cell : Cell} {call call' : Call κ}

theorem calls_put (hcall : s.calls[i]? = some call) (j : Nat) :
    (s.put n cell i call').calls[j]? = if j = i then some call' else s.calls[j]? := by
  obtain ⟨hi, -⟩ := List.getElem?_eq_some_iff.1 hcall
  rw [put, List.getElem?_set]
  by_cases hj : i = j
  · subst hj
    simp [hi]
  · simp [hj, Ne.symm hj]

/-- The request asks for the same as before. -/
theorem requests_put (hcall : s.calls[i]? = some call) (hkey : call'.key = call.key)
    (hview : call'.view = call.view) : (s.put n cell i call').requests = s.requests := by
  apply List.ext_getElem?
  intro j
  rw [Shared.requests, Shared.requests, List.getElem?_map, List.getElem?_map, calls_put hcall]
  split
  · rename_i hj
    rw [hj, hcall, Option.map_some, Option.map_some, hkey, hview]
  · rfl

end Put

end Shared

variable [DecidableEq κ]

/-- Whether a step is one of a request for this type of model. -/
def CallStep.isOn (requests : List (κ × View)) (k : κ) (step : CallStep) : Bool :=
  requests[step.call]?.map Prod.fst = some k

namespace Shared

/-- The cell of a type of model; without one, it is as if it were just made. -/
def cellFor (s : Shared κ) (k : κ) : Cell := ((s.keys.lookup k).bind (s.cells[·]?)).getD .empty

/-- The portion of a type of model. -/
def portion (s : Shared κ) (k : κ) : Portion where
  cell := s.cellFor k
  requests := fun i =>
    s.calls[i]?.bind fun call => if call.key = k then some (call.view, call.phase) else none

theorem run?_cons (s : Shared κ) (step : CallStep) (rest : List CallStep) :
    s.run? (step :: rest) = (s.step? step).bind (·.run? rest) := rfl

theorem portion_requests {s : Shared κ} {i : Nat} {call : Call κ} (h : s.calls[i]? = some call) :
    (s.portion call.key).requests i = some (call.view, call.phase) := by
  simp [portion, h]

/-- A request of a portion is a request for its type of model. -/
theorem portion_requests_eq_some_iff {s : Shared κ} {k : κ} {i : Nat} {view : View} {phase : Phase} :
    (s.portion k).requests i = some (view, phase) ↔
      ∃ call, s.calls[i]? = some call ∧ call.key = k ∧ call.view = view ∧ call.phase = phase := by
  simp [portion, Option.bind_eq_some_iff]

/-! ## Cells and their numbers -/

/-- Each type of model has at most one cell, the cells of two types are different, and a request that
    has begun to work has the cell of its type. -/
structure Placed (s : Shared κ) : Prop where
  lt : ∀ {k n}, s.keys.lookup k = some n → n < s.cells.length
  inj : ∀ {k k' n}, s.keys.lookup k = some n → s.keys.lookup k' = some n → k = k'
  known : ∀ {call}, call ∈ s.calls → ∀ {n}, call.cell = some n → s.keys.lookup call.key = some n
  begun : ∀ {call}, call ∈ s.calls → call.cell = none → call.phase = .begun

theorem placed_start (baseEndpoint : String) (requests : List (κ × View)) :
    (start baseEndpoint requests).Placed where
  lt := by simp [start]
  inj := by simp [start]
  known := by
    intro call hcall n hn
    obtain ⟨_, -, rfl⟩ := List.mem_map.1 hcall
    cases hn
  begun := by
    intro call hcall _
    obtain ⟨_, -, rfl⟩ := List.mem_map.1 hcall
    rfl

/-- The cell at the number that a type of model has. -/
theorem Placed.getElem?_eq {s : Shared κ} (h : s.Placed) {k : κ} {n : Nat}
    (hn : s.keys.lookup k = some n) : s.cells[n]? = some (s.cellFor k) := by
  simp [cellFor, hn, List.getElem?_eq_getElem (h.lt hn)]

/-- Two requests have the same cell if they are for the same type of model, and only then. -/
theorem Placed.cell_eq_iff {s : Shared κ} (h : s.Placed) {a b : Call κ} {m n : Nat} (ha : a ∈ s.calls)
    (hb : b ∈ s.calls) (hm : a.cell = some m) (hn : b.cell = some n) : m = n ↔ a.key = b.key := by
  have hm' := h.known ha hm
  have hn' := h.known hb hn
  constructor
  · rintro rfl
    exact h.inj hm' hn'
  · intro hkey
    rw [hkey, hn'] at hm'
    exact (Option.some.inj hm').symm

/-- A cell that is made for a type of model changes nothing that a request can see. -/
theorem Placed.cellOf {s : Shared κ} (h : s.Placed) {call : Call κ} (hcall : call ∈ s.calls) :
    (s.cellOf call).2.Placed ∧
      (s.cellOf call).2.keys.lookup call.key = some (s.cellOf call).1 ∧
      (∀ k n, s.keys.lookup k = some n → (s.cellOf call).2.keys.lookup k = some n) ∧
      (∀ k, (s.cellOf call).2.cellFor k = s.cellFor k) ∧
      (s.cellOf call).2.calls = s.calls ∧
      (s.cellOf call).2.baseEndpoint = s.baseEndpoint := by
  unfold Shared.cellOf
  split
  · rename_i n hn
    exact ⟨h, h.known hcall hn, fun _ _ => id, fun _ => rfl, rfl, rfl⟩
  · split
    · rename_i n hn
      exact ⟨h, hn, fun _ _ => id, fun _ => rfl, rfl, rfl⟩
    · -- a new cell, whose number no type of model has yet
      rename_i hnone
      have hlookup : ∀ k, ((call.key, s.cells.length) :: s.keys).lookup k =
          if k = call.key then some s.cells.length else s.keys.lookup k := by
        intro k
        rw [List.lookup_cons]
        split <;> simp_all
      have hlt : ∀ {k n}, s.keys.lookup k = some n → n ≠ s.cells.length := by
        intro k n hn
        exact Nat.ne_of_lt (h.lt hn)
      have hkeep : ∀ k n, s.keys.lookup k = some n →
          ((call.key, s.cells.length) :: s.keys).lookup k = some n := by
        intro k n hn
        rw [hlookup, if_neg]
        · exact hn
        · rintro rfl
          rw [hnone] at hn
          cases hn
      refine ⟨⟨?_, ?_, fun hc n hn => hkeep _ n (h.known hc hn), h.begun⟩, by simp, hkeep, ?_, rfl, rfl⟩
      · intro k n hn
        simp only [hlookup] at hn
        have hle := @h.lt k n
        grind
      · intro k k' n hn hn'
        simp only [hlookup] at hn hn'
        have hinj := @h.inj k k' n
        grind
      · intro k
        simp only [cellFor, hlookup]
        split
        · rename_i hk
          subst hk
          simp [hnone]
        · cases hn : s.keys.lookup k with
          | none => rfl
          | some n => simp [List.getElem?_append_left (h.lt hn)]

/-! ## Changes of a cell and a request -/

section Put

variable {s : Shared κ} {n i : Nat} {cell : Cell} {call call' : Call κ}

/-- Only the type of model that has this cell sees the change. -/
theorem Placed.cellFor_put (h : s.Placed) {k : κ} (hn : s.keys.lookup k = some n) (l : κ) :
    (s.put n cell i call').cellFor l = if l = k then cell else s.cellFor l := by
  unfold cellFor put
  split
  · rename_i hl
    simp [hl, hn, h.lt hn]
  · rename_i hl
    cases hlookup : s.keys.lookup l with
    | none => rfl
    | some m =>
      have hne : n ≠ m := by
        rintro rfl
        exact hl (h.inj hlookup hn)
      simp [List.getElem?_set_ne hne]

/-- The request has the cell of its type. -/
theorem Placed.put (h : s.Placed) (hn : s.keys.lookup call.key = some n) (phase : Phase) :
    (s.put n cell i { call with cell := some n, phase }).Placed where
  lt := by
    intro k m hm
    rw [Shared.put, List.length_set]
    exact h.lt hm
  inj := h.inj
  known := by
    intro c hc m hm
    rcases List.mem_or_eq_of_mem_set hc with hold | rfl
    · exact h.known hold hm
    · cases hm
      exact hn
  begun := by
    intro c hc hnone
    rcases List.mem_or_eq_of_mem_set hc with hold | rfl
    · exact h.begun hold hnone
    · cases hnone

/-- Only the portion of the request is another one. -/
theorem Placed.portion_put (h : s.Placed) (hcall : s.calls[i]? = some call)
    (hn : s.keys.lookup call.key = some n) (phase : Phase) (k : κ) :
    (s.put n cell i { call with cell := some n, phase }).portion k =
      if k = call.key then
        ⟨cell, fun j => if j = i then some (call.view, phase) else (s.portion k).requests j⟩
      else s.portion k := by
  by_cases hk : k = call.key
  · subst hk
    simp only [portion, h.cellFor_put hn, calls_put hcall, if_true, Portion.mk.injEq, true_and]
    funext j
    split <;> simp
  · simp only [portion, h.cellFor_put hn, calls_put hcall, if_neg hk, Portion.mk.injEq, true_and]
    funext j
    split
    · rename_i hj
      simp [hj, hcall, Ne.symm hk]
    · rfl

end Put

/-! ## Steps -/

/-- What a request can do depends on the portion of its type of model. -/
theorem Placed.step?_eq {s : Shared κ} (h : s.Placed) {step : CallStep} {call : Call κ}
    (hcall : s.calls[step.call]? = some call) :
    s.step? step = ((s.cellFor call.key).act? s.baseEndpoint step.call call.view call.phase
      step.action).map fun (cell, phase) =>
        (s.cellOf call).2.put (s.cellOf call).1 cell step.call
          { call with cell := some (s.cellOf call).1, phase } := by
  obtain ⟨hplaced, hlookup, -, hcell, -, hbase⟩ := h.cellOf (List.mem_of_getElem? hcall)
  have hget := hplaced.getElem?_eq hlookup
  rw [hcell] at hget
  simp only [step?, hcall, Option.bind_eq_bind, Option.bind_some, hget]
  rw [← hbase]
  cases (s.cellFor call.key).act? (s.cellOf call).2.baseEndpoint step.call call.view call.phase
    step.action <;> rfl

/-- A step is one of the portion of its request, and of no account to the other portions. -/
theorem Placed.step {s s' : Shared κ} (h : s.Placed) {step : CallStep}
    (hstep : s.step? step = some s') :
    s'.Placed ∧ s'.baseEndpoint = s.baseEndpoint ∧ s'.requests = s.requests ∧
      (∀ k n, s.keys.lookup k = some n → s'.keys.lookup k = some n) ∧
      ∃ call, s.calls[step.call]? = some call ∧
        (s.portion call.key).step? s.baseEndpoint step = some (s'.portion call.key) ∧
        ∀ k, k ≠ call.key → s'.portion k = s.portion k := by
  cases hcall : s.calls[step.call]? with
  | none => simp [step?, hcall] at hstep
  | some call =>
    rw [h.step?_eq hcall, Option.map_eq_some_iff] at hstep
    obtain ⟨⟨cell, phase⟩, hact, rfl⟩ := hstep
    dsimp only
    obtain ⟨hplaced, hlookup, hkeep, hcell, hcalls, hbase⟩ :=
      h.cellOf (List.mem_of_getElem? hcall)
    have hcall' : (s.cellOf call).2.calls[step.call]? = some call := by rw [hcalls, hcall]
    -- the cell may have been made just now, which the portions do not show
    have hportion : ∀ k, (s.cellOf call).2.portion k = s.portion k := by
      intro k
      simp only [portion, hcell, hcalls]
    refine ⟨hplaced.put hlookup phase, hbase, ?_, hkeep, call, rfl, ?_, ?_⟩
    · refine Eq.trans (requests_put hcall' rfl rfl) ?_
      rw [Shared.requests, Shared.requests, hcalls]
    · rw [hplaced.portion_put hcall' hlookup, if_pos rfl, hportion, Portion.step?_eq_some_iff]
      exact ⟨call.view, call.phase, cell, phase, portion_requests hcall,
        Cell.act?_eq_some_iff.1 hact, rfl⟩
    · intro k hk
      rw [hplaced.portion_put hcall' hlookup, if_neg hk, hportion]

/-- A step of a portion can be done. -/
theorem Placed.exists_step? {s : Shared κ} (h : s.Placed) {k : κ} {step : CallStep} {p : Portion}
    (hp : (s.portion k).step? s.baseEndpoint step = some p) :
    ∃ s', s.step? step = some s' ∧ s'.portion k = p := by
  have hstep := hp
  rw [Portion.step?_eq_some_iff] at hstep
  obtain ⟨view, phase, cell, phase', hrequest, hacts, -⟩ := hstep
  obtain ⟨call, hcall, rfl, rfl, rfl⟩ := portion_requests_eq_some_iff.1 hrequest
  have hsome : ∃ s', s.step? step = some s' := by
    rw [h.step?_eq hcall]
    exact ⟨_, Option.map_eq_some_iff.2 ⟨(cell, phase'), Cell.act?_eq_some_iff.2 hacts, rfl⟩⟩
  obtain ⟨s', hs'⟩ := hsome
  obtain ⟨-, -, -, -, call', hcall', hself, -⟩ := h.step hs'
  obtain rfl : call = call' := Option.some.inj (hcall.symm.trans hcall')
  exact ⟨s', hs', Option.some.inj (hself.symm.trans hp)⟩

/-! ## Histories -/

/-- A history moves each portion by the steps of its own requests. -/
theorem Placed.run {s s' : Shared κ} (h : s.Placed) {history : List CallStep}
    (hrun : s.run? history = some s') :
    s'.Placed ∧ s'.baseEndpoint = s.baseEndpoint ∧ s'.requests = s.requests ∧
      ∀ k, (s.portion k).run? s.baseEndpoint (history.filter (·.isOn s.requests k)) =
        some (s'.portion k) := by
  induction history generalizing s with
  | nil =>
    cases hrun
    exact ⟨h, rfl, rfl, fun _ => rfl⟩
  | cons step rest ih =>
    rw [run?_cons] at hrun
    obtain ⟨t, hstep, hrest⟩ := Option.bind_eq_some_iff.1 hrun
    obtain ⟨hplaced, hbase, hrequests, -, call, hcall, hself, hother⟩ := h.step hstep
    obtain ⟨hplaced', hbase', hrequests', hportions⟩ := ih hplaced hrest
    refine ⟨hplaced', hbase'.trans hbase, hrequests'.trans hrequests, fun k => ?_⟩
    have hk := hportions k
    rw [hbase, hrequests] at hk
    have hon : step.isOn s.requests k = decide (call.key = k) := by
      simp [CallStep.isOn, Shared.requests, hcall]
    by_cases hkey : call.key = k
    · rw [List.filter_cons_of_pos (by simp [hon, hkey]), Portion.run?_cons, ← hkey, hself, hkey]
      exact hk
    · rw [List.filter_cons_of_neg (by simp [hon, hkey]), ← hother k (Ne.symm hkey)]
      exact hk

/-- What a portion can do, the cache can do without any step of the other requests. -/
theorem Placed.exists_run? {s : Shared κ} (h : s.Placed) {k : κ} {history : List CallStep}
    {p : Portion} (hp : (s.portion k).run? s.baseEndpoint history = some p) :
    ∃ s', s.run? history = some s' ∧ s'.portion k = p := by
  induction history generalizing s with
  | nil =>
    cases hp
    exact ⟨s, rfl, rfl⟩
  | cons step rest ih =>
    rw [Portion.run?_cons] at hp
    obtain ⟨q, hstep, hrest⟩ := Option.bind_eq_some_iff.1 hp
    obtain ⟨t, ht, rfl⟩ := h.exists_step? hstep
    obtain ⟨hplaced, hbase, -⟩ := h.step ht
    rw [← hbase] at hrest
    obtain ⟨s', hs', hportion⟩ := ih hplaced hrest
    exact ⟨s', by rw [run?_cons, ht, Option.bind_some, hs'], hportion⟩

end Shared

end OperationCatalog
