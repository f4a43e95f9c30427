import OperationCatalog.Proofs.ContextOrder
import OperationCatalog.Proofs.MethodRoundTrip

/-!
# The written form of a context

A context is written with its names in ascending order at every level, whatever the order of the fields
that it was read from and however often a name stood there.  Where all numbers are whole and fit 64 bits
with a sign, the text that is written is read as the same context, so two contexts are equal exactly if
their texts are.

A number of a context has one form, where the reader tells a number without a sign from one with it:
`Property.asRead` is the value that the reader makes of the text of a property.

## Key results

- `Property.walk_bind_eq`: a path leads to what the last fields of its names lead to
- `Property.ofValue?_asRead`, `Property.ascending_asRead`: what is read from the text of a property
- `Context.decode?_encode`: the text of a context is read as the context
- `context_format_canonical`: from the text that was read to the text that is written
-/

namespace OperationCatalog

/-! ## Values by paths -/

/-- The value under a name, the last one if there are several. -/
def Fields.last? (name : String) (fields : Fields) : Option Value := (fields.all name).getLast?

namespace Value

/-- The value that a path of names leads to through objects. -/
def at? (v : Value) : List String → Option Value
  | [] => some v
  | name :: rest =>
    match v with
    | .object fields => (Fields.last? name fields).bind (·.at? rest)
    | _ => none

/-- What a value stands for at the end of a path from the root: truth values and whole numbers for their
    texts, objects for contexts. -/
def bound? (path : List String) : Value → Option BoundValue
  | .null => some .null
  | .bool b => some (.text (if b then "true" else "false"))
  | .natural n => some (.text (toString n))
  | .integer i => some (.text (toString i))
  | .text s => some (.text s)
  | .object fields =>
    (Context.ofValue? (.object fields)).map fun context => .context ⟨path, context⟩
  | .float _ | .array _ => none

mutual

/-- Whether a value is made of null, truth values, whole numbers that fit 64 bits with a sign, texts and
    objects. -/
def Contextual : Value → Prop
  | .natural n => n < signLimit
  | .integer i => -signLimit ≤ i ∧ i < signLimit
  | .float _ | .array _ => False
  | .object fields => ContextualFields fields
  | .null | .bool _ | .text _ => True
termination_by structural v => v

/-- Whether the values of all fields are. -/
def ContextualFields : List (String × Value) → Prop
  | [] => True
  | (_, v) :: rest => v.Contextual ∧ ContextualFields rest
termination_by structural fields => fields

end

mutual

/-- Whether the names are in strictly ascending order in all objects in a value. -/
def Ascending : Value → Prop
  | .array items => AscendingItems items
  | .object fields => fields.Pairwise (·.1 < ·.1) ∧ AscendingFields fields
  | _ => True
termination_by structural v => v

/-- Whether they are in all items. -/
def AscendingItems : List Value → Prop
  | [] => True
  | v :: rest => v.Ascending ∧ AscendingItems rest
termination_by structural items => items

/-- Whether they are in the values of all fields. -/
def AscendingFields : List (String × Value) → Prop
  | [] => True
  | (_, v) :: rest => v.Ascending ∧ AscendingFields rest
termination_by structural fields => fields

end

theorem ContextualFields.of_mem {fields : Fields} (h : ContextualFields fields) {name : String}
    {v : Value} (hv : v ∈ fields.all name) : v.Contextual := by
  induction fields with
  | nil => cases hv
  | cons f rest ih =>
    obtain ⟨k, w⟩ := f
    rw [Fields.all_cons] at hv
    split at hv
    · rcases List.mem_cons.1 hv with rfl | hv
      · exact h.1
      · exact ih h.2 hv
    · exact ih h.2 hv

end Value

/-- Where all fields denote something, so does each value under a name. -/
theorem exists_ofValue?_of_mem_all {fields : Fields} {entries : List (String × Property)}
    (h : entriesOfFields? fields = some entries) {name : String} {v : Value}
    (hv : v ∈ fields.all name) : ∃ p, Property.ofValue? v = some p := by
  induction fields generalizing entries with
  | nil => cases hv
  | cons f rest ih =>
    obtain ⟨k, w⟩ := f
    rw [entriesOfFields?] at h
    split at h
    · rename_i p more hp hmore
      rw [Fields.all_cons] at hv
      split at hv
      · rcases List.mem_cons.1 hv with rfl | hv
        · exact ⟨p, hp⟩
        · exact ih hmore hv
      · exact ih hmore hv
    · cases h

/-- A context has under a name what the last field of the name denotes. -/
theorem Context.find?_of_entriesOfFields? {fields : Fields} {entries : List (String × Property)}
    (h : entriesOfFields? fields = some entries) (name : String) :
    Context.find? name (Context.ofEntries entries) =
      (Fields.last? name fields).bind Property.ofValue? := by
  rw [Context.find?_ofEntries]
  induction fields generalizing entries with
  | nil =>
    cases h
    rfl
  | cons f rest ih =>
    obtain ⟨k, v⟩ := f
    rw [entriesOfFields?] at h
    split at h
    · rename_i p more hp hmore
      cases h
      rw [List.reverse_cons, List.lookup_append, lookup_cons_eq_ite, List.lookup_nil, ih hmore,
        Fields.last?, Fields.last?, Fields.all_cons]
      by_cases hk : k = name
      · rw [if_pos hk, if_pos hk.symm, List.getLast?_cons]
        cases hlast : (Fields.all name rest).getLast? with
        | none => exact hp.symm
        | some w =>
          -- a later field of the name counts, and it denotes something
          obtain ⟨q, hq⟩ := exists_ofValue?_of_mem_all hmore (List.mem_of_mem_getLast? hlast)
          simp only [Option.bind_some, Option.getD_some, hq, Option.some_or]
      · rw [if_neg hk, if_neg (Ne.symm hk), Option.or_none]
    · cases h

namespace Property

/-- A whole number that fits 64 bits with a sign denotes an integer. -/
theorem ofValue?_natural {n : Nat} (h : n < signLimit) : ofValue? (.natural n) = some (.integer n) := by
  rw [ofValue?, if_pos h]

theorem bind_of_ofValue? {v : Value} {p : Property} (h : ofValue? v = some p) (hv : v.Contextual)
    (path : List String) : v.bound? path = some (p.bind path) := by
  cases v with
  | natural n =>
    cases (ofValue?_natural hv).symm.trans h
    rfl
  | object fields =>
    obtain ⟨entries, hentries, rfl⟩ := Option.map_eq_some_iff.1 h
    rw [Value.bound?, Context.ofValue?, hentries]
    rfl
  | float x => exact hv.elim
  | array items => exact hv.elim
  | _ =>
    cases h
    rfl

/-- A path leads to what the last fields of its names lead to. -/
theorem walk_bind_eq {v : Value} {p : Property} (h : ofValue? v = some p) (hv : v.Contextual)
    (path names : List String) :
    (p.bind path).walk names = (v.at? names).bind (·.bound? (path ++ names)) := by
  induction names generalizing v p path with
  | nil =>
    rw [BoundValue.walk, Value.at?, Option.bind_some, List.append_nil, bind_of_ofValue? h hv]
  | cons name rest ih =>
    rw [BoundValue.walk]
    cases v with
    | object fields =>
      obtain ⟨entries, hentries, rfl⟩ := Option.map_eq_some_iff.1 h
      rw [Property.bind, BoundValue.get?, Place.get?, Value.at?,
        Context.find?_of_entriesOfFields? hentries]
      cases hlast : Fields.last? name fields with
      | none => rfl
      | some w =>
        have hw := List.mem_of_mem_getLast? hlast
        obtain ⟨q, hq⟩ := exists_ofValue?_of_mem_all hentries hw
        have hrest := ih hq (Value.ContextualFields.of_mem hv hw) (path ++ [name])
        rw [List.append_assoc, List.singleton_append] at hrest
        simp only [Option.bind_some, hq, Option.map_some, hrest]
    | natural n =>
      cases (ofValue?_natural hv).symm.trans h
      rfl
    | float x => exact hv.elim
    | array items => exact hv.elim
    | _ =>
      cases h
      rfl

/-! ## What is read from a written property -/

mutual

/-- Whether the numbers in a property are integers that fit 64 bits with a sign. -/
def Exact : Property → Prop
  | .integer i => -signLimit ≤ i ∧ i < signLimit
  | .float _ => False
  | .object properties => ExactIn properties
  | .null | .bool _ | .text _ => True
termination_by structural p => p

/-- Whether the numbers in some properties are. -/
def ExactIn : List (String × Property) → Prop
  | [] => True
  | (_, p) :: rest => p.Exact ∧ ExactIn rest
termination_by structural properties => properties

end

theorem exactIn_iff {properties : List (String × Property)} :
    ExactIn properties ↔ ∀ entry ∈ properties, entry.2.Exact := by
  induction properties with
  | nil => simp [ExactIn]
  | cons entry rest ih => simp [ExactIn, ih]

mutual

/-- The value that is read from the text of a property. -/
def asRead : Property → Value
  | .integer i => if 0 ≤ i then .natural i.toNat else .integer i
  | .object properties => .object (fieldsAsRead properties)
  | .null => .null
  | .bool b => .bool b
  | .float x => .float x
  | .text s => .text s
termination_by structural p => p

/-- The fields that are read from the text of some properties. -/
def fieldsAsRead : List (String × Property) → List (String × Value)
  | [] => []
  | (name, p) :: rest => (name, p.asRead) :: fieldsAsRead rest
termination_by structural properties => properties

end

mutual

/-- Both values of a property have one text. -/
theorem write_asRead : ∀ p : Property, Json.write p.asRead = Json.write p.toValue
  | .integer i => by
    rw [asRead, toValue]
    split
    · rename_i h
      obtain ⟨n, rfl⟩ := Int.eq_ofNat_of_zero_le h
      rfl
    · rfl
  | .object [] => rfl
  | .object ((name, p) :: rest) => by
    simp only [asRead, toValue, fieldsAsRead, propertiesToFields, Json.write, write_asRead p,
      writeFields_fieldsAsRead rest]
  | .null | .bool _ | .float _ | .text _ => rfl
termination_by structural p => p

theorem writeFields_fieldsAsRead : ∀ properties : List (String × Property),
    Json.writeFields (fieldsAsRead properties) = Json.writeFields (propertiesToFields properties)
  | [] => rfl
  | (name, p) :: rest => by
    simp only [fieldsAsRead, propertiesToFields, Json.writeFields, write_asRead p,
      writeFields_fieldsAsRead rest]
termination_by structural properties => properties

end

mutual

/-- What is read from the text of a property denotes it. -/
theorem ofValue?_asRead : ∀ {p : Property}, p.Ordered → p.Exact → ofValue? p.asRead = some p
  | .integer i, _, h => by
    rw [asRead]
    split
    · rename_i hi
      obtain ⟨n, rfl⟩ := Int.eq_ofNat_of_zero_le hi
      have hn : n < signLimit := Int.ofNat_lt.1 h.2
      rw [Int.toNat_natCast, ofValue?_natural hn]
    · rfl
  | .object properties, hordered, h => by
    rw [asRead, ofValue?, entriesOfFields?_fieldsAsRead hordered.2 h, Option.map_some,
      Context.Ascending.ofEntries_eq hordered.1]
  | .null, _, _ | .bool _, _, _ | .text _, _, _ => rfl
  | .float _, _, h => h.elim

theorem entriesOfFields?_fieldsAsRead : ∀ {properties : List (String × Property)},
    OrderedIn properties → ExactIn properties →
    entriesOfFields? (fieldsAsRead properties) = some properties
  | [], _, _ => rfl
  | (name, p) :: rest, hordered, h => by
    simp only [fieldsAsRead, entriesOfFields?, ofValue?_asRead hordered.1 h.1,
      entriesOfFields?_fieldsAsRead hordered.2 h.2]

end

theorem map_fst_fieldsAsRead (properties : List (String × Property)) :
    (fieldsAsRead properties).map Prod.fst = properties.map Prod.fst := by
  induction properties with
  | nil => rfl
  | cons entry rest ih =>
    obtain ⟨name, p⟩ := entry
    rw [fieldsAsRead, List.map_cons, List.map_cons, ih]

/-- The fields stand in the order of the properties. -/
theorem pairwise_fieldsAsRead {properties : List (String × Property)}
    (h : Context.Ascending properties) : (fieldsAsRead properties).Pairwise (·.1 < ·.1) := by
  have hnames : (properties.map Prod.fst).Pairwise (· < ·) := List.pairwise_map.2 h
  rw [← map_fst_fieldsAsRead] at hnames
  exact List.pairwise_map.1 hnames

mutual

/-- In what is read from the text of a property in order, the names are in order. -/
theorem ascending_asRead : ∀ {p : Property}, p.Ordered → p.asRead.Ascending
  | .integer i, _ => by
    rw [asRead]
    split <;> trivial
  | .object properties, h => by
    rw [asRead, Value.Ascending]
    exact ⟨pairwise_fieldsAsRead h.1, ascending_fieldsAsRead h.2⟩
  | .null, _ | .bool _, _ | .float _, _ | .text _, _ => trivial

theorem ascending_fieldsAsRead : ∀ {properties : List (String × Property)},
    OrderedIn properties → Value.AscendingFields (fieldsAsRead properties)
  | [], _ => trivial
  | (_, _) :: _, h => ⟨ascending_asRead h.1, ascending_fieldsAsRead h.2⟩

end

mutual

/-- The numbers that are read are whole, and kept as the reader keeps them. -/
theorem exact_asRead : ∀ {p : Property}, p.Exact → Json.Exact p.asRead
  | .integer i, h => by
    have hlimits : signLimit ≤ wordLimit := by decide
    obtain ⟨hlow, hhigh⟩ := h
    rw [asRead]
    split
    · rename_i hi
      rw [Json.Exact]
      omega
    · rename_i hi
      exact ⟨hlow, Int.not_le.1 hi⟩
  | .object properties, h => exactFields_fieldsAsRead h
  | .null, _ | .bool _, _ | .text _, _ => trivial
  | .float _, h => h.elim

theorem exactFields_fieldsAsRead : ∀ {properties : List (String × Property)},
    ExactIn properties → Json.ExactFields (fieldsAsRead properties)
  | [], _ => trivial
  | (_, _) :: _, h => ⟨exact_asRead h.1, exactFields_fieldsAsRead h.2⟩

end

/-! ## What is denoted -/

mutual

/-- A value of a context denotes a property, and its numbers are integers that fit. -/
theorem exists_ofValue?_of_contextual : ∀ {v : Value}, v.Contextual →
    ∃ p, ofValue? v = some p ∧ p.Exact
  | .natural n, h => by
    refine ⟨_, ofValue?_natural h, ?_, ?_⟩
    · have hpos : 0 ≤ (n : Int) := Int.natCast_nonneg n
      omega
    · exact Int.ofNat_lt.2 h
  | .integer i, h => ⟨.integer i, rfl, h⟩
  | .object fields, h => by
    obtain ⟨entries, hentries, hexact⟩ := exists_entriesOfFields?_of_contextual h
    refine ⟨.object (Context.ofEntries entries), ?_, exactIn_iff.2 fun entry hentry => ?_⟩
    · rw [ofValue?, hentries, Option.map_some]
    · exact exactIn_iff.1 hexact entry (Context.mem_of_mem_ofEntries hentry)
  | .null, _ => ⟨.null, rfl, trivial⟩
  | .bool b, _ => ⟨.bool b, rfl, trivial⟩
  | .text s, _ => ⟨.text s, rfl, trivial⟩
  | .float _, h | .array _, h => h.elim

theorem exists_entriesOfFields?_of_contextual : ∀ {fields : List (String × Value)},
    Value.ContextualFields fields →
    ∃ entries, entriesOfFields? fields = some entries ∧ ExactIn entries
  | [], _ => ⟨[], rfl, trivial⟩
  | (name, v) :: rest, h => by
    obtain ⟨p, hp, hexact⟩ := exists_ofValue?_of_contextual h.1
    obtain ⟨more, hmore, hexactIn⟩ := exists_entriesOfFields?_of_contextual h.2
    exact ⟨(name, p) :: more, by simp only [entriesOfFields?, hp, hmore], hexact, hexactIn⟩

end

theorem nesting_fieldsAsRead_le_iff {properties : List (String × Property)} {n : Nat} :
    Value.nestingFields (fieldsAsRead properties) ≤ n ↔
      ∀ entry ∈ properties, entry.2.asRead.nesting ≤ n := by
  induction properties with
  | nil => simp [fieldsAsRead, Value.nestingFields]
  | cons entry rest ih => simp [fieldsAsRead, Value.nestingFields, ih]

mutual

/-- What is read from the text of a property is nested no deeper than a value that denotes it. -/
theorem nesting_asRead_le : ∀ {v : Value} {p : Property}, ofValue? v = some p →
    p.asRead.nesting ≤ v.nesting
  | .object fields, p, h => by
    obtain ⟨entries, hentries, rfl⟩ := Option.map_eq_some_iff.1 h
    have hle := nesting_fieldsAsRead_le hentries
    rw [nesting_fieldsAsRead_le_iff] at hle
    rw [asRead, Value.nesting, Value.nesting]
    refine Nat.succ_le_succ (nesting_fieldsAsRead_le_iff.2 fun entry hentry => ?_)
    exact hle entry (Context.mem_of_mem_ofEntries hentry)
  | .natural n, p, h => by
    cases h
    split
    · rw [asRead]
      split <;> exact Nat.zero_le _
    · exact Nat.zero_le _
  | .integer i, p, h => by
    cases h
    rw [asRead]
    split <;> exact Nat.zero_le _
  | .null, p, h | .bool _, p, h | .float _, p, h | .text _, p, h => by
    cases h
    exact Nat.zero_le _
  | .array _, _, h => by cases h

theorem nesting_fieldsAsRead_le : ∀ {fields : List (String × Value)}
    {entries : List (String × Property)}, entriesOfFields? fields = some entries →
    Value.nestingFields (fieldsAsRead entries) ≤ Value.nestingFields fields
  | [], _, h => by
    cases h
    exact Nat.le_refl _
  | (name, v) :: rest, entries, h => by
    rw [entriesOfFields?] at h
    split at h
    · rename_i p more hp hmore
      cases h
      have hfirst := nesting_asRead_le hp
      have hrest := nesting_fieldsAsRead_le hmore
      simp only [fieldsAsRead, Value.nestingFields]
      omega
    · cases h

end

end Property

/-! ## Texts of contexts -/

namespace Context

/-- Contexts, as objects. -/
def codec : Codec Context where
  shape := .whole
  denoted := fun _ => ofValue?
  written := toValue

/-- The text of some properties, in any order and under any names, is read as the object of them. -/
theorem read_encode {entries : List (String × Property)} (hexact : Property.ExactIn entries)
    (hnest : (Property.object entries).asRead.nesting ≤ Json.nestingLimit) :
    Json.read .whole (codec.encode entries) = some (Property.object entries).asRead := by
  have hread : Json.Exact (Property.object entries).asRead :=
    Property.exact_asRead (p := .object entries) hexact
  have htext : codec.encode entries = Json.text (Property.object entries).asRead :=
    congrArg String.ofList (Property.write_asRead (.object entries)).symm
  rw [htext]
  exact hread.readWithin_text hread.denotable hnest

/-- It denotes the context that is made by inserting them one after the other. -/
theorem decode?_encode {entries : List (String × Property)} (hordered : Property.OrderedIn entries)
    (hexact : Property.ExactIn entries)
    (hnest : (Property.object entries).asRead.nesting ≤ Json.nestingLimit) :
    codec.decode? (codec.encode entries) = some (ofEntries entries) := by
  rw [Codec.decode?, show codec.shape = .whole from rfl, read_encode hexact hnest, Option.bind_some]
  show (entriesOfFields? (Property.fieldsAsRead entries)).map ofEntries = _
  rw [Property.entriesOfFields?_fieldsAsRead hordered hexact, Option.map_some]

/-- A text whose values may stand in a context denotes one, which can be written and read. -/
theorem exists_decode? {text : String} {fields : Fields}
    (hread : Json.read .whole text = some (.object fields)) (h : Value.ContextualFields fields) :
    ∃ context, codec.decode? text = some context ∧
      Property.ofValue? (.object fields) = some (.object context) ∧ Property.ExactIn context ∧
      (Property.object context).asRead.nesting ≤ Json.nestingLimit := by
  obtain ⟨entries, hentries, hexact⟩ := Property.exists_entriesOfFields?_of_contextual h
  have hdenoted : Property.ofValue? (.object fields) = some (.object (ofEntries entries)) := by
    rw [Property.ofValue?, hentries, Option.map_some]
  refine ⟨ofEntries entries, ?_, hdenoted, ?_, ?_⟩
  · rw [Codec.decode?, show codec.shape = .whole from rfl, hread, Option.bind_some]
    show (entriesOfFields? fields).map ofEntries = _
    rw [hentries, Option.map_some]
  · exact Property.exactIn_iff.2 fun entry hentry =>
      Property.exactIn_iff.1 hexact entry (mem_of_mem_ofEntries hentry)
  · exact Nat.le_trans (Property.nesting_asRead_le hdenoted) (Json.readWithin_sound hread).2

/-- What was read from such a text is read again from the text that is written for it. -/
theorem decode?_encode_of_decode? {text : String} {fields : Fields} {context : Context}
    (hread : Json.read .whole text = some (.object fields)) (h : Value.ContextualFields fields)
    (hdecode : codec.decode? text = some context) :
    codec.decode? (codec.encode context) = some context := by
  obtain ⟨context', hdecode', hdenoted, hexact, hnest⟩ := exists_decode? hread h
  obtain rfl : context' = context := Option.some.inj (hdecode'.symm.trans hdecode)
  have hordered := Property.ordered_of_ofValue? hdenoted
  rw [decode?_encode hordered.2 hexact hnest, Ascending.ofEntries_eq hordered.1]

end Context

/-- Read from a JSON text that holds only values of contexts, in any order and with any names several
    times, a context has what the last field of each name denotes, along any path of names.  Its own text
    has the names in strictly ascending order at every level and is read as it, so equal contexts and
    equal texts are the same.  Inserting properties one after the other makes the context that the object
    of them denotes. -/
theorem context_format_canonical :
    (∀ text fields, Json.read .whole text = some (.object fields) → Value.ContextualFields fields →
      ∃ context, Context.codec.decode? text = some context ∧
        (∀ names, context.bound.walk names =
          ((Value.object fields).at? names).bind (·.bound? names)) ∧
        (∃ v, Json.read .whole (Context.codec.encode context) = some v ∧ v.Ascending) ∧
        Context.codec.decode? (Context.codec.encode context) = some context) ∧
    (∀ text text' fields fields', Json.read .whole text = some (.object fields) →
      Json.read .whole text' = some (.object fields') → Value.ContextualFields fields →
      Value.ContextualFields fields' → ∀ context context',
        Context.codec.decode? text = some context → Context.codec.decode? text' = some context' →
        (context = context' ↔ Context.codec.encode context = Context.codec.encode context')) ∧
    (∀ entries, Property.OrderedIn entries →
      Context.ofValue? (.object (propertiesToFields entries)) =
        some (entries.foldl (fun context entry => Context.insert entry.1 entry.2 context) [])) ∧
    (∀ entries, Property.OrderedIn entries → Property.ExactIn entries →
      (Property.object entries).asRead.nesting ≤ Json.nestingLimit →
      Context.codec.decode? (Json.text (.object (propertiesToFields entries))) =
        some (entries.foldl (fun context entry => Context.insert entry.1 entry.2 context) [])) := by
  refine ⟨fun text fields hread h => ?_, ?_, fun entries hordered => ?_, fun entries => ?_⟩
  · obtain ⟨context, hdecode, hdenoted, hexact, hnest⟩ := Context.exists_decode? hread h
    refine ⟨context, hdecode, fun names => ?_, ?_, ?_⟩
    · exact Property.walk_bind_eq hdenoted (v := .object fields) h [] names
    · have hordered := Property.ordered_of_ofValue? hdenoted
      exact ⟨_, Context.read_encode hexact hnest, Property.ascending_asRead hordered⟩
    · exact Context.decode?_encode_of_decode? hread h hdecode
  · intro text text' fields fields' hread hread' h h' context context' hdecode hdecode'
    refine ⟨congrArg _, fun heq => ?_⟩
    -- both are what the one text is read as
    have hback := Context.decode?_encode_of_decode? hread h hdecode
    rw [heq, Context.decode?_encode_of_decode? hread' h' hdecode'] at hback
    exact (Option.some.inj hback).symm
  · show (entriesOfFields? (propertiesToFields entries)).map Context.ofEntries = _
    rw [Property.entriesOfFields?_propertiesToFields hordered, Option.map_some]
    rfl
  · exact Context.decode?_encode

namespace Context

/-- Fields in no order, with two of one name at both levels. -/
def sampleFields : Fields :=
  [("b", .object [("x", .text "1")]), ("a", .natural 7),
    ("b", .object [("y", .null), ("x", .bool true), ("x", .integer (-1))])]

/-- The context of them. -/
def sampleContext : Context :=
  [("a", .integer 7), ("b", .object [("x", .integer (-1)), ("y", .null)])]

/-- Properties to be inserted one after the other, two of them under one name. -/
def sampleEntries : List (String × Property) :=
  [("b", .text "1"), ("a", .object [("x", .null)]), ("b", .bool true)]

/-- The text of fields with whole numbers only is read back. -/
theorem read_object {fields : Fields} (hexact : Json.ExactFields fields)
    (hnest : (Value.object fields).nesting ≤ Json.nestingLimit) :
    Json.read .whole (Json.text (.object fields)) = some (.object fields) :=
  Json.Exact.readWithin_text hexact (Json.ExactFields.denotable hexact) hnest

/-- The last of two fields counts, and another context has another text. -/
theorem context_format_canonical_sample :
    codec.decode? (Json.text (.object sampleFields)) = some sampleContext ∧
      sampleContext.bound.walk ["b", "x"] = some (.text "-1") ∧
      sampleContext.bound.walk ["a", "x"] = none ∧
      codec.decode? (codec.encode sampleContext) = some sampleContext ∧
      codec.decode? (Json.text (.object [("b", .null)])) = some [("b", .null)] ∧
      codec.encode sampleContext ≠ codec.encode [("b", .null)] ∧
      codec.decode? (Json.text (.object (propertiesToFields sampleEntries))) =
        some [("a", .object [("x", .null)]), ("b", .bool true)] := by
  have hread : Json.read .whole (Json.text (.object sampleFields)) = some (.object sampleFields) :=
    read_object (by simp [sampleFields, Json.Exact, Json.ExactFields, signLimit, wordLimit])
      (by decide)
  have hread' : Json.read .whole (Json.text (.object [("b", .null)])) =
      some (.object [("b", .null)]) :=
    read_object (by simp [Json.Exact, Json.ExactFields]) (by decide)
  have hcontextual : Value.ContextualFields sampleFields := by
    simp [sampleFields, Value.ContextualFields, Value.Contextual, signLimit]
  have hcontextual' : Value.ContextualFields [("b", .null)] := ⟨trivial, trivial⟩
  have hdecode : codec.decode? (Json.text (.object sampleFields)) = some sampleContext := by
    change (Json.read .whole _).bind _ = _
    rw [hread]
    rfl
  have hdecode' : codec.decode? (Json.text (.object [("b", .null)])) = some [("b", .null)] := by
    change (Json.read .whole _).bind _ = _
    rw [hread']
    rfl
  obtain ⟨hlookups, hequal, -, hinserted⟩ := context_format_canonical
  obtain ⟨context, hcontext, hwalk, -, hback⟩ := hlookups _ _ hread hcontextual
  cases hdecode.symm.trans hcontext
  refine ⟨hdecode, (hwalk _).trans rfl, (hwalk _).trans rfl, hback, hdecode', fun htext => ?_, ?_⟩
  · have heq := (hequal _ _ _ _ hread hread' hcontextual hcontextual' _ _ hdecode hdecode').2 htext
    simp [sampleContext] at heq
  · refine (hinserted sampleEntries ?_ ?_ (by decide)).trans rfl
    · simp [sampleEntries, Property.OrderedIn, Property.Ordered, Ascending]
    · simp [sampleEntries, Property.ExactIn, Property.Exact]

end Context

/-- Of two values under one name the last is kept, and the names are put in order. -/
example : (Context.codec.decode? "\x7b\"b\":1,\"a\":null,\"b\":true\x7d").map Context.codec.encode =
    some "\x7b\"a\":null,\"b\":true\x7d" := by
  decide +kernel

end OperationCatalog
