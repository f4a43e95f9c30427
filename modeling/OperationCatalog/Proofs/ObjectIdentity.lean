import OperationCatalog.Proofs.PropertyChains

/-!
# Which expressions denote one object

The contexts that an expression comes by are objects below the root, and two of them are the same if they
are one object in memory.  Memory is described by `Stored`: a property in which every object has an
address, and `Context.Storage`, the root of a context in which no address stands in two places.  Different
paths then lead to different objects, so an object is known by its path, and that is the path of the one
chain that denotes it.

## Key results

- `Stored.address?_inj`: no two paths lead to one object
- `Context.store`: objects that get their addresses one after the other stand in one place each
- `Evaluator.chain_of_context`: only a chain denotes a context, the one at the end of its path
- `same_object_iff_same_expression`: equal contexts and equal expressions
-/

namespace OperationCatalog

/-- A property in memory, where every object has an address. -/
inductive Stored where
  | plain (property : Property) (h : ∀ properties, property ≠ .object properties)
  | object (address : Nat) (entries : List (String × Stored))

namespace Stored

mutual

/-- The property without the addresses. -/
def property : Stored → Property
  | .plain p _ => p
  | .object _ entries => .object (propertiesOf entries)
termination_by structural s => s

/-- The named properties without the addresses. -/
def propertiesOf : List (String × Stored) → List (String × Property)
  | [] => []
  | (name, s) :: rest => (name, s.property) :: propertiesOf rest
termination_by structural entries => entries

end

mutual

/-- The addresses of all objects in a property, at any depth. -/
def addresses : Stored → List Nat
  | .plain _ _ => []
  | .object address entries => address :: addressesIn entries
termination_by structural s => s

/-- The addresses of all objects in some named properties. -/
def addressesIn : List (String × Stored) → List Nat
  | [] => []
  | (_, s) :: rest => s.addresses ++ addressesIn rest
termination_by structural entries => entries

end

/-- What an object has under a name. -/
def entry? (s : Stored) (name : String) : Option Stored :=
  match s with
  | .plain _ _ => none
  | .object _ entries => entries.lookup name

/-- What a path of names leads to. -/
def at? (s : Stored) : List String → Option Stored
  | [] => some s
  | name :: rest => (s.entry? name).bind (·.at? rest)

/-- The address of the object that a path of names leads to. -/
def address? (s : Stored) (names : List String) : Option Nat :=
  match s.at? names with
  | some (.object address _) => some address
  | _ => none

theorem address?_eq_some_iff {s : Stored} {names : List String} {address : Nat} :
    s.address? names = some address ↔ ∃ entries, s.at? names = some (.object address entries) := by
  rw [address?]
  split
  · rename_i hat
    simp [hat]
  · rename_i hnone
    simp only [reduceCtorEq, false_iff, not_exists]
    exact hnone address

/-! ## Paths in memory -/

theorem lookup_propertiesOf (entries : List (String × Stored)) (name : String) :
    (propertiesOf entries).lookup name = (entries.lookup name).map property := by
  induction entries with
  | nil => rfl
  | cons entry rest ih =>
    obtain ⟨k, s⟩ := entry
    rw [propertiesOf, List.lookup_cons, List.lookup_cons]
    split
    · rfl
    · exact ih

/-- A name is looked up in memory as it is in the context. -/
theorem get?_bind (s : Stored) (path : List String) (name : String) :
    (s.property.bind path).get? name =
      (s.entry? name).map fun t => t.property.bind (path ++ [name]) := by
  cases s with
  | plain p h =>
    rw [property, entry?]
    cases p with
    | object properties => exact absurd rfl (h properties)
    | _ => rfl
  | object address entries =>
    show Option.map _ ((propertiesOf entries).lookup name) = _
    rw [lookup_propertiesOf, Option.map_map]
    rfl

/-- A path leads to the same in memory as in the context. -/
theorem walk_bind (names : List String) (s : Stored) (path : List String) :
    (s.property.bind path).walk names =
      (s.at? names).map fun t => t.property.bind (path ++ names) := by
  induction names generalizing s path with
  | nil => rw [BoundValue.walk, at?, Option.map_some, List.append_nil]
  | cons name rest ih =>
    rw [BoundValue.walk, at?, get?_bind]
    cases s.entry? name with
    | none => rfl
    | some t =>
      show (t.property.bind (path ++ [name])).walk rest = (t.at? rest).map _
      rw [ih, List.append_assoc]
      rfl

/-! ## Objects that stand in one place -/

/-- The addresses below a name are among those of the whole. -/
theorem addresses_of_lookup {entries : List (String × Stored)} {name : String} {t : Stored}
    (h : entries.lookup name = some t) : t.addresses.Sublist (addressesIn entries) := by
  induction entries with
  | nil => cases h
  | cons entry rest ih =>
    obtain ⟨k, s⟩ := entry
    rw [List.lookup_cons] at h
    rw [addressesIn]
    split at h
    · cases h
      exact List.sublist_append_left _ _
    · exact (ih h).trans (List.sublist_append_right _ _)

/-- No address stands below two names. -/
theorem eq_of_mem_addresses {entries : List (String × Stored)} {name name' : String} {t t' : Stored}
    {address : Nat} (hnodup : (addressesIn entries).Nodup) (h : entries.lookup name = some t)
    (h' : entries.lookup name' = some t') (hmem : address ∈ t.addresses)
    (hmem' : address ∈ t'.addresses) : name = name' := by
  induction entries with
  | nil => cases h
  | cons entry rest ih =>
    obtain ⟨k, s⟩ := entry
    rw [addressesIn, List.nodup_append] at hnodup
    obtain ⟨-, hrest, hapart⟩ := hnodup
    rw [List.lookup_cons] at h h'
    split at h <;> split at h'
    · rename_i _ hk _ hk'
      rw [beq_iff_eq.1 hk, beq_iff_eq.1 hk']
    · -- the one is the first entry, the other one of the rest
      cases h
      exact absurd rfl (hapart _ hmem _ ((addresses_of_lookup h').subset hmem'))
    · cases h'
      exact absurd rfl (hapart _ hmem' _ ((addresses_of_lookup h).subset hmem))
    · exact ih hrest h h'

/-- The addresses at the end of a path are among those of the whole. -/
theorem addresses_of_at? {s t : Stored} {names : List String} (h : s.at? names = some t) :
    t.addresses.Sublist s.addresses := by
  induction names generalizing s with
  | nil =>
    cases h
    exact List.Sublist.refl _
  | cons name rest ih =>
    obtain ⟨u, hu, ht⟩ := Option.bind_eq_some_iff.1 h
    cases s with
    | plain p hp => cases hu
    | object address entries =>
      exact (ih ht).trans ((addresses_of_lookup hu).trans (List.sublist_cons_self _ _))

/-- No object stands below itself. -/
theorem ne_of_at?_cons {address : Nat} {entries entries' : List (String × Stored)} {name : String}
    {rest : List String} (hnodup : (object address entries).addresses.Nodup) {address' : Nat}
    (h : (object address entries).at? (name :: rest) = some (.object address' entries')) :
    address' ≠ address := by
  obtain ⟨t, ht, hrest⟩ := Option.bind_eq_some_iff.1 h
  have hmem : address' ∈ addressesIn entries :=
    (addresses_of_lookup ht).subset ((addresses_of_at? hrest).subset List.mem_cons_self)
  rintro rfl
  exact (List.nodup_cons.1 hnodup).1 hmem

/-- No two paths lead to one object, if every object stands in one place. -/
theorem address?_inj {s : Stored} (hnodup : s.addresses.Nodup) {names names' : List String}
    {address : Nat} (h : s.address? names = some address) (h' : s.address? names' = some address) :
    names = names' := by
  obtain ⟨entries, hat⟩ := address?_eq_some_iff.1 h
  obtain ⟨entries', hat'⟩ := address?_eq_some_iff.1 h'
  clear h h'
  induction names generalizing s names' with
  | nil =>
    cases names' with
    | nil => rfl
    | cons name' rest' =>
      cases hat
      exact absurd rfl (ne_of_at?_cons hnodup hat')
  | cons name rest ih =>
    cases names' with
    | nil =>
      cases hat'
      exact absurd rfl (ne_of_at?_cons hnodup hat)
    | cons name' rest' =>
      obtain ⟨t, ht, hrest⟩ := Option.bind_eq_some_iff.1 hat
      obtain ⟨t', ht', hrest'⟩ := Option.bind_eq_some_iff.1 hat'
      cases s with
      | plain p hp => cases ht
      | object a below =>
        -- both paths begin with one name, since the address stands below one name only
        have hbelow := (List.nodup_cons.1 hnodup).2
        obtain rfl := eq_of_mem_addresses hbelow ht ht'
          ((addresses_of_at? hrest).subset List.mem_cons_self)
          ((addresses_of_at? hrest').subset List.mem_cons_self)
        obtain rfl : t = t' := Option.some_inj.1 (ht.symm.trans ht')
        rw [ih ((addresses_of_lookup ht).nodup hbelow) hrest hrest']

end Stored

/-! ## Addresses one after the other -/

mutual

/-- A property in memory, its objects at the addresses from `next` on, and the next free address. -/
def Property.store (next : Nat) : Property → Stored × Nat
  | .null => (.plain .null nofun, next)
  | .bool b => (.plain (.bool b) nofun, next)
  | .integer i => (.plain (.integer i) nofun, next)
  | .float x => (.plain (.float x) nofun, next)
  | .text s => (.plain (.text s) nofun, next)
  | .object properties =>
    let below := storeEntries (next + 1) properties
    (.object next below.1, below.2)
termination_by structural p => p

/-- Named properties in memory, one after the other. -/
def storeEntries (next : Nat) : List (String × Property) → List (String × Stored) × Nat
  | [] => ([], next)
  | (name, p) :: rest =>
    let first := p.store next
    let more := storeEntries first.2 rest
    ((name, first.1) :: more.1, more.2)
termination_by structural properties => properties

end

mutual

theorem Property.property_store : ∀ (p : Property) (next : Nat), (p.store next).1.property = p
  | .null, _ | .bool _, _ | .integer _, _ | .float _, _ | .text _, _ => rfl
  | .object properties, next =>
    congrArg Property.object (propertiesOf_storeEntries properties (next + 1))
termination_by structural p => p

theorem propertiesOf_storeEntries : ∀ (properties : List (String × Property)) (next : Nat),
    Stored.propertiesOf (storeEntries next properties).1 = properties
  | [], _ => rfl
  | (name, p) :: rest, next => by
    rw [storeEntries, Stored.propertiesOf, p.property_store, propertiesOf_storeEntries rest]
termination_by structural properties => properties

end

mutual

/-- The addresses of a property are those up to the next free one, in their order. -/
theorem Property.addresses_store : ∀ (p : Property) (next : Nat),
    ∃ count, (p.store next).1.addresses = List.range' next count ∧ (p.store next).2 = next + count
  | .null, _ | .bool _, _ | .integer _, _ | .float _, _ | .text _, _ => ⟨0, rfl, rfl⟩
  | .object properties, next => by
    obtain ⟨count, hbelow, hfree⟩ := addressesIn_storeEntries properties (next + 1)
    refine ⟨count + 1, ?_, ?_⟩
    · rw [Property.store, Stored.addresses, hbelow, List.range'_succ]
    · rw [Property.store, hfree, Nat.add_assoc, Nat.add_comm 1]
termination_by structural p => p

theorem addressesIn_storeEntries : ∀ (properties : List (String × Property)) (next : Nat),
    ∃ count, Stored.addressesIn (storeEntries next properties).1 = List.range' next count ∧
      (storeEntries next properties).2 = next + count
  | [], _ => ⟨0, rfl, rfl⟩
  | (name, p) :: rest, next => by
    obtain ⟨count, hfirst, hfree⟩ := p.addresses_store next
    obtain ⟨count', hmore, hfree'⟩ := addressesIn_storeEntries rest (next + count)
    refine ⟨count + count', ?_, ?_⟩
    · rw [storeEntries, Stored.addressesIn, hfirst, hfree, hmore, List.range'_append_1]
    · rw [storeEntries, hfree, hfree', Nat.add_assoc]
termination_by structural properties => properties

end

/-- A root context in memory, with no object in two places. -/
structure Context.Storage (root : Context) where
  object : Stored
  property_eq : object.property = .object root
  unshared : object.addresses.Nodup

/-- A root context whose objects get their addresses one after the other. -/
def Context.store (root : Context) : Context.Storage root where
  object := ((Property.object root).store 0).1
  property_eq := Property.property_store _ 0
  unshared := by
    obtain ⟨count, haddresses, -⟩ := (Property.object root).addresses_store 0
    rw [haddresses]
    exact List.nodup_range'

namespace Context.Storage

variable {root : Context}

/-- Whether two values are the same: equal texts, or one object in memory. -/
def same (storage : Storage root) : BoundValue → BoundValue → Bool
  | .null, .null => true
  | .text s, .text t => s = t
  | .context p, .context q => storage.object.address? p.path = storage.object.address? q.path
  | _, _ => false

/-- A context at the end of a path is an object there. -/
theorem exists_address {storage : Storage root} {names : List String} {place : Place}
    (h : root.bound.walk names = some (.context place)) :
    ∃ address, storage.object.address? names = some address := by
  have hwalk := Stored.walk_bind names storage.object []
  rw [storage.property_eq] at hwalk
  obtain ⟨t, ht, hbind⟩ := Option.map_eq_some_iff.1 (hwalk.symm.trans h)
  cases t with
  | object address entries => exact ⟨address, Stored.address?_eq_some_iff.2 ⟨entries, ht⟩⟩
  | plain p hp =>
    cases p with
    | object properties => exact absurd rfl (hp properties)
    | _ => cases hbind

/-- No other path leads to the context at the end of a path. -/
theorem address?_eq_iff {storage : Storage root} {names names' : List String} {place : Place}
    (h : root.bound.walk names = some (.context place)) :
    storage.object.address? names = storage.object.address? names' ↔ names = names' := by
  obtain ⟨address, haddress⟩ := exists_address h
  refine ⟨fun heq => ?_, fun heq => by rw [heq]⟩
  rw [haddress] at heq
  exact Stored.address?_inj storage.unshared haddress heq.symm

end Context.Storage

/-! ## Expressions that denote contexts -/

open Expression

namespace Evaluator

variable {ev : Evaluator}

/-- A context that has a name is found in a context, at the end of a longer path. -/
theorem get?_of_getD {v : BoundValue} {place : Place} {name : String}
    (h : BoundValue.context place = (v.get? name).getD (.text (placeholder name))) :
    ∃ p, v = .context p ∧ v.get? name = some (.context place) ∧ place.path = p.path ++ [name] := by
  cases v with
  | null => cases h
  | text s => cases h
  | context p =>
    rw [BoundValue.get?, Place.get?] at h ⊢
    cases hfind : p.context.find? name with
    | none =>
      rw [hfind] at h
      cases h
    | some property =>
      rw [hfind] at h
      refine ⟨p, rfl, congrArg some h.symm, ?_⟩
      cases property <;> cases h
      rfl

/-- Only a chain denotes a context, and it denotes the one at the end of its path. -/
theorem chain_of_context : ∀ {e : Expression} {place : Place},
    ev.evaluate e = .ok (.context place) →
    e = chain place.path ∧ ev.root.bound.walk place.path = some (.context place)
  | e, place, h => by
    rcases evaluate_ok h with htext | hmakes
    · cases htext
    · cases e with
      | root =>
        cases hmakes
        exact ⟨rfl, rfl⟩
      | property base name =>
        obtain ⟨v, hbase, hvalue⟩ := hmakes
        obtain ⟨p, rfl, hget, hpath⟩ := get?_of_getD hvalue
        -- the base is the chain without the last name
        obtain ⟨hchain, hwalk⟩ := chain_of_context hbase
        rw [hpath, chain_concat, ← hchain, BoundValue.walk_concat, hwalk]
        exact ⟨rfl, hget⟩
      | concat items =>
        obtain ⟨text, -, hvalue⟩ := hmakes
        cases hvalue
      | conditional inner =>
        obtain ⟨v, text, -, -, hvalue⟩ := hmakes
        cases hvalue
      | parameter name =>
        obtain ⟨part, -, hvalue⟩ := hmakes
        cases hvalue
      | literal text => cases hmakes
      | formatting format => cases hmakes
      | unsupported => cases hmakes
termination_by structural e => e

/-- Of the values that expressions have, those are one object in memory that have one path. -/
theorem same_eq_same (storage : ev.root.Storage) {e : Expression} {v : BoundValue}
    (hv : ev.evaluate e = .ok v) (w : BoundValue) : storage.same v w = v.same w := by
  cases v with
  | null => cases w <;> rfl
  | text s => cases w <;> rfl
  | context p =>
    cases w with
    | null => rfl
    | text t => rfl
    | context q =>
      obtain ⟨-, hwalk⟩ := chain_of_context hv
      rw [Context.Storage.same, BoundValue.same]
      exact decide_eq_decide.2 (Context.Storage.address?_eq_iff hwalk)

end Evaluator

/-- A value is the same as itself. -/
theorem BoundValue.same_self (v : BoundValue) : v.same v = true := by
  cases v <;> simp [same]

/-- A root context may stand in memory in any way that puts no object in two places.  Only chains denote
    contexts, and two expressions that do denote one object exactly if they are equal.  Equal expressions
    have the same value or the same error. -/
theorem same_object_iff_same_expression (ev : Evaluator) (storage : ev.root.Storage)
    (e e' : Expression) :
    (∀ place, ev.evaluate e = .ok (.context place) →
      e = chain place.path ∧ ev.root.bound.walk place.path = some (.context place)) ∧
    (∀ p q, ev.evaluate e = .ok (.context p) → ev.evaluate e' = .ok (.context q) →
      (storage.same (.context p) (.context q) = true ↔ e.same e' = true)) ∧
    (∀ v w, ev.evaluate e = .ok v → ev.evaluate e' = .ok w → storage.same v w = v.same w) ∧
    (e.same e' = true →
      (∃ error, ev.evaluate e = .error error ∧ ev.evaluate e' = .error error) ∨
      ∃ v w, ev.evaluate e = .ok v ∧ ev.evaluate e' = .ok w ∧ storage.same v w = true) := by
  refine ⟨fun place h => Evaluator.chain_of_context h, fun p q hp hq => ?_,
    fun v w hv _ => Evaluator.same_eq_same storage hv w, fun hsame => ?_⟩
  · obtain ⟨he, hwalk⟩ := Evaluator.chain_of_context hp
    obtain ⟨he', -⟩ := Evaluator.chain_of_context hq
    rw [same_iff, Context.Storage.same, decide_eq_true_eq, Context.Storage.address?_eq_iff hwalk]
    rw [he, he', chain_inj]
  · obtain rfl := (same_iff e e').1 hsame
    cases hvalue : ev.evaluate e with
    | error error => exact .inl ⟨error, rfl, rfl⟩
    | ok v =>
      refine .inr ⟨v, v, rfl, rfl, ?_⟩
      rw [Evaluator.same_eq_same storage hvalue]
      exact v.same_self

/-- Two objects with the same properties, here none, are two objects. -/
theorem same_object_iff_same_expression_sample :
    (Context.store [("A", .object []), ("B", .object [])]).same
      (.context ⟨["A"], []⟩) (.context ⟨["B"], []⟩) = false := by
  let ev : Evaluator := ⟨"https://h", [("A", .object []), ("B", .object [])]⟩
  have hA : ev.evaluate (chain ["A"]) = .ok (.context ⟨["A"], []⟩) := rfl
  have hB : ev.evaluate (chain ["B"]) = .ok (.context ⟨["B"], []⟩) := rfl
  have hne : (chain ["A"]).same (chain ["B"]) ≠ true := by decide
  rw [Bool.eq_false_iff]
  exact fun h => hne (((same_object_iff_same_expression ev ev.root.store _ _).2.1 _ _ hA hB).1 h)

end OperationCatalog
