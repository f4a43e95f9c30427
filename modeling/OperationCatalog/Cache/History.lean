import OperationCatalog.Cache

/-!
# Histories of several caches

Any number of caches over the same models, one request after the other.  What a model answers when it
is asked for its service may change at any time; a request sees what its model would answer then.
`Caches.run` gives what every request of a history comes to.
-/

namespace OperationCatalog

/-- What of a catalog a request asks for: all of it, or only the visible or the hidden records. -/
inductive View where
  | whole
  | records (hidden : Bool)
  deriving DecidableEq

/-- What a request is given. -/
inductive Content where
  | catalog (c : Catalog)
  | records (records : List Record)

/-- What a catalog shows to a request. -/
def View.content (v : View) (c : Catalog) : Content :=
  match v with
  | .whole => .catalog c
  | .records hidden => .records (c.records hidden)

/-- Something that happens to the caches `ι` or to the models of the types `κ`. -/
inductive Occurrence (ι κ : Type) where
  /-- From now on the models of this type answer so. -/
  | change (key : κ) (source : Except ModelError Service)
  | request (cache : ι) (key : κ) (view : View)

/-- Whether an occurrence is anything but a request on another cache or for another type. -/
def Occurrence.concerns {ι κ : Type} [DecidableEq ι] [DecidableEq κ] (i : ι) (k : κ) :
    Occurrence ι κ → Bool
  | .change .. => true
  | .request j key _ => j = i && key = k

/-- What a request has come to. -/
structure Served (ι κ : Type) where
  cache : ι
  key : κ
  view : View
  reply : Reply

namespace Served

variable {ι κ : Type}

/-- What the request is given, or why it is given nothing. -/
def answer (r : Served ι κ) : Except ModelError Content := r.reply.answer.map r.view.content

theorem answer_eq_error_iff {r : Served ι κ} {e : ModelError} :
    r.answer = .error e ↔ r.reply.answer = .error e := by
  rw [answer]
  cases r.reply.answer <;> simp [Except.map]

/-- How often the request has asked its model for the service. -/
def calls (r : Served ι κ) : Nat := if r.reply.instantiated then 1 else 0

/-- Whether the request has asked its model and was given a service. -/
def builds (r : Served ι κ) : Bool := r.reply.instantiated && r.answer.isOk

/-- Whether the request was one on this cache and for this type. -/
def isOn [DecidableEq ι] [DecidableEq κ] (i : ι) (k : κ) (r : Served ι κ) : Bool :=
  r.cache = i && r.key = k

theorem isOn_self [DecidableEq ι] [DecidableEq κ] (i : ι) (k : κ) (view : View) (reply : Reply) :
    isOn i k ⟨i, k, view, reply⟩ = true := by
  simp only [isOn, decide_true, Bool.and_self]

/-- A request asks with success if nothing is kept and its model gives a service. -/
theorem builds_request [DecidableEq κ] (i : ι) (k : κ) (view : View) (c : Cache κ)
    (instantiate : Except ModelError Service) :
    builds ⟨i, k, view, (c.request k instantiate).1⟩ =
      ((c.find? k).isNone && instantiate.toOption.isSome) := by
  cases hkept : c.find? k with
  | some catalog =>
    rw [Cache.request_of_kept hkept]
    rfl
  | none =>
    cases instantiate with
    | error e =>
      rw [Cache.request_of_error hkept]
      rfl
    | ok s =>
      rw [Cache.request_of_ok hkept]
      rfl

end Served

/-- Some caches, and what each type of model answers now. -/
structure Caches (ι κ : Type) where
  sources : κ → Except ModelError Service
  cache : ι → Cache κ

/-- What the types of models answer after one of them has changed. -/
def changed {κ : Type} [DecidableEq κ] (sources : κ → Except ModelError Service) (key : κ)
    (source : Except ModelError Service) : κ → Except ModelError Service :=
  fun k => if k = key then source else sources k

namespace Caches

variable {ι κ : Type}

/-- Caches without catalogs. -/
def start (bases : ι → String) (sources : κ → Except ModelError Service) : Caches ι κ :=
  ⟨sources, fun i => Cache.new (bases i)⟩

variable [DecidableEq ι]

/-- The caches with another content of one of them. -/
def putCache (s : Caches ι κ) (i : ι) (c : Cache κ) : Caches ι κ :=
  { s with cache := fun j => if j = i then c else s.cache j }

@[simp] theorem cache_putCache (s : Caches ι κ) (i j : ι) (c : Cache κ) :
    (s.putCache i c).cache j = if j = i then c else s.cache j := rfl

/-- A cache that is put back in its place makes no difference. -/
theorem putCache_self (s : Caches ι κ) (i : ι) : s.putCache i (s.cache i) = s := by
  have hcache : (s.putCache i (s.cache i)).cache = s.cache := by
    funext j
    rw [cache_putCache]
    split
    · rename_i h
      rw [h]
    · rfl
  exact congrArg (Caches.mk s.sources) hcache

variable [DecidableEq κ]

/-- What one occurrence comes to, if it is a request, and the caches after it. -/
def step (s : Caches ι κ) : Occurrence ι κ → Option (Served ι κ) × Caches ι κ
  | .change key source => (none, { s with sources := changed s.sources key source })
  | .request i key view =>
    let (reply, c) := (s.cache i).request key (s.sources key)
    (some ⟨i, key, view, reply⟩, s.putCache i c)

/-- What the requests of a history come to, in order, and the caches after it. -/
def run (s : Caches ι κ) : List (Occurrence ι κ) → List (Served ι κ) × Caches ι κ
  | [] => ([], s)
  | o :: rest => ((s.step o).1.toList ++ ((s.step o).2.run rest).1, ((s.step o).2.run rest).2)

/-- A history goes on from the caches after its first part. -/
theorem run_append (s : Caches ι κ) (h t : List (Occurrence ι κ)) :
    s.run (h ++ t) = ((s.run h).1 ++ ((s.run h).2.run t).1, ((s.run h).2.run t).2) := by
  induction h generalizing s with
  | nil => rfl
  | cons o rest ih => simp only [List.cons_append, run, ih, List.append_assoc]

end Caches

end OperationCatalog
