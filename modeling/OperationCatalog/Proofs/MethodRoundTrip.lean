import OperationCatalog.Model
import OperationCatalog.Proofs.CaseMapping
import OperationCatalog.Proofs.TreeRoundTrip

/-!
# Methods and groups survive being written and read

A `Codec` is a kind of data with its JSON form.  It is lawful if what it writes denotes what was
written, can be read under its shape, and is nested no deeper than any value of the same data, but for
a few levels that are always allowed.  Lawful codecs read back what they write, as text; and lists of
lawful data are lawful again, so that methods and groups are all that has to be looked at.

## Key results

- `Codec.Lawful.list`: lists of lawful data
- `Codec.Lawful.roundTrips`: written texts are read back
- `Method.codec_lawful`, `Group.codec_lawful`: the codecs of the model format
- `model_format_roundTrips`: methods and groups, alone and in lists
-/

namespace OperationCatalog

open Json (Plain PlainItems PlainFields Denotable DenotableItems DenotableFields)

/-! ## Codecs -/

/-- The form of some data in documents. -/
structure Codec (α : Type) where
  shape : Json.Shape
  /-- What a value denotes; further items of arrays may be ignored. -/
  denoted : (ignored : Bool) → Value → Option α
  written : α → Value

namespace Codec

variable {α : Type}

/-- The JSON text of data. -/
def encode (c : Codec α) (x : α) : String := Json.text (c.written x)

/-- The data that a JSON text denotes. -/
def decode? (c : Codec α) (text : String) : Option α := (Json.read c.shape text).bind (c.denoted false)

/-- Lists of data, as arrays. -/
def list (c : Codec α) : Codec (List α) where
  shape := .list c.shape
  denoted := fun ignored => Value.listOf? (c.denoted ignored)
  written := fun xs => .array (xs.map c.written)

/-- What a codec writes denotes the data, if it is `valid`, and can be read.  All that is denoted by
    some value is valid, and written with the nesting of that value, or one up to `floor`. -/
structure Lawful (c : Codec α) (valid : α → Prop) (floor : Nat) : Prop where
  denoted_written : ∀ {x}, valid x → c.denoted false (c.written x) = some x
  plain : ∀ x, Plain (c.written x)
  denotable : ∀ x, Denotable c.shape (c.written x)
  valid_of_denoted : ∀ {ignored v x}, c.denoted ignored v = some x → valid x
  nesting_le : ∀ {ignored v x}, c.denoted ignored v = some x →
    (c.written x).nesting ≤ max v.nesting floor

/-- Valid data is read back from its text, and so is all that was read or is denoted by a value. -/
structure RoundTrips (c : Codec α) (valid : α → Prop) : Prop where
  encoded : ∀ x, valid x → (c.written x).nesting ≤ Json.nestingLimit → c.decode? (c.encode x) = some x
  decoded : ∀ text x, c.decode? text = some x → c.decode? (c.encode x) = some x
  denoted : ∀ ignored v x, c.denoted ignored v = some x → v.nesting ≤ Json.nestingLimit →
    c.decode? (c.encode x) = some x

variable {c : Codec α} {valid : α → Prop} {floor : Nat}

/-- Lawful data is read back from its text. -/
theorem Lawful.roundTrips (h : c.Lawful valid floor) (hfloor : floor ≤ Json.nestingLimit) :
    c.RoundTrips valid := by
  have hencoded : ∀ x, valid x → (c.written x).nesting ≤ Json.nestingLimit →
      c.decode? (c.encode x) = some x := by
    intro x hx hnest
    rw [decode?, encode, Json.read, Json.readWithin_text (h.plain x) (h.denotable x) hnest,
      Option.bind_some, h.denoted_written hx]
  have hdenoted : ∀ ignored v x, c.denoted ignored v = some x → v.nesting ≤ Json.nestingLimit →
      c.decode? (c.encode x) = some x := by
    intro ignored v x hv hnest
    have hle := h.nesting_le hv
    exact hencoded x (h.valid_of_denoted hv) (by omega)
  refine ⟨hencoded, fun text x htext => ?_, hdenoted⟩
  obtain ⟨v, hread, hv⟩ := Option.bind_eq_some_iff.1 htext
  exact hdenoted false v x hv (Json.readWithin_sound hread).2

/-! ## Lists -/

theorem mapM_map_written (h : c.Lawful valid floor) {xs : List α} (hxs : ∀ x ∈ xs, valid x) :
    (xs.map c.written).mapM (c.denoted false) = some xs := by
  induction xs with
  | nil => rfl
  | cons x rest ih =>
    rw [List.forall_mem_cons] at hxs
    rw [List.map_cons, List.mapM_cons, h.denoted_written hxs.1, ih hxs.2]
    rfl

theorem denotableItems_map_written (h : c.Lawful valid floor) (xs : List α) (index : Nat) :
    DenotableItems (.list c.shape) index (xs.map c.written) := by
  induction xs generalizing index with
  | nil => trivial
  | cons x rest ih => exact ⟨h.denotable x, ih (index + 1)⟩

/-- What the items of an array denote is valid, and written with their nesting. -/
theorem of_mapM_denoted (h : c.Lawful valid floor) {ignored : Bool} {items : List Value}
    {xs : List α} (hxs : items.mapM (c.denoted ignored) = some xs) :
    (∀ x ∈ xs, valid x) ∧
      Value.nestingItems (xs.map c.written) ≤ max (Value.nestingItems items) floor := by
  induction items generalizing xs with
  | nil =>
    cases hxs
    exact ⟨by simp, Nat.zero_le _⟩
  | cons v rest ih =>
    rw [List.mapM_cons] at hxs
    obtain ⟨x, hx, hxs⟩ := Option.bind_eq_some_iff.1 hxs
    obtain ⟨more, hmore, hxs⟩ := Option.bind_eq_some_iff.1 hxs
    cases hxs
    obtain ⟨hvalid, hle⟩ := ih hmore
    have hfirst := h.nesting_le hx
    refine ⟨List.forall_mem_cons.2 ⟨h.valid_of_denoted hx, hvalid⟩, ?_⟩
    simp only [List.map_cons, Value.nestingItems]
    omega

/-- Lists of lawful data are lawful. -/
theorem Lawful.list (h : c.Lawful valid floor) :
    c.list.Lawful (fun xs => ∀ x ∈ xs, valid x) (floor + 1) where
  denoted_written := mapM_map_written h
  plain := by
    intro xs
    rw [Codec.list]
    simp only [Plain, Json.plainItems_iff, List.forall_mem_map]
    exact fun x _ => h.plain x
  denotable := fun xs => denotableItems_map_written h xs 0
  valid_of_denoted := by
    intro ignored v xs hv
    obtain ⟨items, -, hitems⟩ := Option.bind_eq_some_iff.1 hv
    exact (of_mapM_denoted h hitems).1
  nesting_le := by
    intro ignored v xs hv
    obtain ⟨items, hv', hitems⟩ := Option.bind_eq_some_iff.1 hv
    cases v with
    | array items' =>
      cases hv'
      have hle := (of_mapM_denoted h hitems).2
      simp only [Codec.list, Value.nesting]
      omega
    | _ => cases hv'

/-! ## Fields of records -/

/-- A record is nested deeper than each of its fields. -/
theorem nesting_of_recordFields? {names : List String} {ignored : Bool} {v : Value} {fields : Fields}
    (h : v.recordFields? names ignored = some fields) :
    Value.nestingFields fields + 1 ≤ v.nesting := by
  have hzip : ∀ (names : List String) (items : List Value),
      Value.nestingFields (names.zip items) ≤ Value.nestingItems items := by
    intro names items
    induction items generalizing names with
    | nil => simp [Value.nestingFields]
    | cons v rest ih =>
      cases names with
      | nil => simp [Value.nestingFields]
      | cons name names =>
        have hrest := ih names
        simp only [List.zip_cons_cons, Value.nestingFields, Value.nestingItems]
        omega
  cases v with
  | object fields' =>
    simp only [Value.recordFields?, Option.ite_none_right_eq_some, Option.some.injEq] at h
    rw [Value.nesting, h.2]
  | array items =>
    simp only [Value.recordFields?, Option.ite_none_right_eq_some, Option.some.injEq] at h
    rw [Value.nesting, ← h.2]
    exact Nat.succ_le_succ (hzip names items)
  | _ => cases h

theorem nesting_of_lookup {fields : Fields} {name : String} {v : Value}
    (h : fields.lookup name = some v) : v.nesting ≤ Value.nestingFields fields := by
  induction fields with
  | nil => cases h
  | cons f rest ih =>
    obtain ⟨k, w⟩ := f
    rw [List.lookup_cons] at h
    rw [Value.nestingFields]
    split at h
    · cases h
      exact Nat.le_max_left ..
    · exact Nat.le_trans (ih h) (Nat.le_max_right ..)

/-- A list of lawful data in a field that may be missing. -/
theorem Lawful.of_orElse (h : c.Lawful valid floor) {ignored : Bool} {fields : Fields}
    {name : String} {xs : List α}
    (hxs : orElse [] (c.list.denoted ignored) (fields.lookup name) = some xs) :
    (∀ x ∈ xs, valid x) ∧
      (c.list.written xs).nesting ≤ max (Value.nestingFields fields) (floor + 1) := by
  cases hlookup : fields.lookup name with
  | none =>
    rw [hlookup] at hxs
    cases hxs
    exact ⟨by simp, Nat.le_trans (Nat.le_add_left 1 floor) (Nat.le_max_right ..)⟩
  | some v =>
    rw [hlookup] at hxs
    have hfield := nesting_of_lookup hlookup
    have hle := h.list.nesting_le hxs
    exact ⟨h.list.valid_of_denoted hxs, by omega⟩

end Codec

/-! ## Verbs -/

namespace Verb

/-- Whether a verb is what some text denotes. -/
def Decoded (v : Verb) : Prop := ∃ text, v = ofText text

theorem text_ofCanonical (text : String) : (ofCanonical text).text = text := by
  rw [ofCanonical]
  generalize hfound : common.find? (·.text = text) = found?
  cases found? with
  | none => rfl
  | some v =>
    have htext := List.find?_some hfound
    exact of_decide_eq_true htext

theorem text_ofText (text : String) : (ofText text).text = Text.upper (Text.trim text) :=
  text_ofCanonical _

/-- The text of a decoded verb denotes it. -/
theorem ofText_text {v : Verb} (h : v.Decoded) : ofText v.text = v := by
  obtain ⟨text, h⟩ := h
  rw [h, text_ofText, ofText, Text.upper_trim_upper, ofText]

end Verb

/-! ## Methods and groups -/

/-- Types of bodies in lists of them. -/
def BodyType.codec : Codec BodyType where
  shape := .whole
  denoted := fun _ => ofValue? false
  written := toValue

theorem BodyType.codec_lawful : BodyType.codec.Lawful (fun _ => True) 0 where
  denoted_written := fun {type} _ => ofValue?_toValue type false
  plain := plain_toValue
  denotable := fun type => (plain_toValue type).denotable
  valid_of_denoted := fun _ => trivial
  nesting_le := fun h => Nat.le_trans (nesting_toValue_le h) (Nat.le_max_left ..)

/-- The bodies in a field that may be missing are written with its nesting, or as an empty list. -/
theorem BodyType.nesting_of_orElse {fields : Fields} {name : String} {types : List BodyType}
    (h : orElse [] (Value.listOf? (ofValue? false)) (fields.lookup name) = some types) :
    (BodyType.codec.list.written types).nesting ≤ max (Value.nestingFields fields) 1 := by
  have hdenoted : orElse [] (BodyType.codec.list.denoted false) (fields.lookup name) = some types := h
  exact (codec_lawful.of_orElse hdenoted).2

namespace Method

/-- Methods, as objects. -/
def codec : Codec Method where
  shape := Method.shape
  denoted := ofValue?
  written := toValue

/-- The fields that are written for a method. -/
def fields (m : Method) : Fields :=
  [("name", .text m.name), ("httpVerb", m.verb.toValue), ("url", m.url.toValue),
    ("requestBodies", BodyType.codec.list.written m.requestBodies),
    ("responseBodies", BodyType.codec.list.written m.responseBodies)]

theorem toValue_eq (m : Method) : m.toValue = .object m.fields := rfl

/-- A written method denotes itself, if its verb is decoded. -/
theorem ofValue?_toValue {m : Method} (h : m.verb.Decoded) (ignored : Bool) :
    ofValue? ignored m.toValue = some m := by
  have hbodies : ∀ types, BodyType.codec.list.denoted false (BodyType.codec.list.written types) =
      some types := fun _ => BodyType.codec_lawful.list.denoted_written fun _ _ => trivial
  refine ofValue?_eq_some_iff.2 ⟨m.fields, rfl, rfl, ?_, ?_, ?_, ?_⟩
  · exact congrArg some (Verb.ofText_text h)
  · exact Expression.ofValue?_toValue m.url false
  · exact hbodies m.requestBodies
  · exact hbodies m.responseBodies

/-- A method is written with the nesting of any value that denotes it. -/
theorem nesting_toValue_le {ignored : Bool} {v : Value} {m : Method}
    (h : ofValue? ignored v = some m) : m.toValue.nesting ≤ v.nesting := by
  obtain ⟨fields, hfields, -, -, hurl, hrequests, hresponses⟩ := ofValue?_eq_some_iff.1 h
  obtain ⟨u, hlookup, hu⟩ := Option.bind_eq_some_iff.1 hurl
  have hrecord := Codec.nesting_of_recordFields? hfields
  have hfield := Codec.nesting_of_lookup hlookup
  have hle := Expression.nesting_toValue_le hu
  have hrequests := BodyType.nesting_of_orElse hrequests
  have hresponses := BodyType.nesting_of_orElse hresponses
  -- the URL is an object, and so as deep as an empty list of bodies
  have hpos : 1 ≤ m.url.toValue.nesting := by
    cases m.url <;> simp [Expression.toValue]
  simp only [toValue_eq, Method.fields, Value.nesting, Value.nestingFields, Verb.toValue]
  omega

theorem codec_lawful : codec.Lawful (·.verb.Decoded) 0 where
  denoted_written := fun h => ofValue?_toValue h false
  plain := by
    intro m
    have hrequests := BodyType.codec_lawful.list.plain m.requestBodies
    have hresponses := BodyType.codec_lawful.list.plain m.responseBodies
    exact ⟨trivial, trivial, Expression.plain_toValue m.url, hrequests, hresponses, trivial⟩
  denotable := by
    intro m
    have hbodies : ∀ types, Denotable .whole (BodyType.codec.list.written types) := fun types =>
      (BodyType.codec_lawful.list.plain types).denotable
    exact ⟨⟨.whole, rfl, trivial⟩, ⟨.whole, rfl, trivial⟩,
      ⟨.whole, rfl, (Expression.plain_toValue m.url).denotable⟩, ⟨.whole, rfl, hbodies _⟩,
      ⟨.whole, rfl, hbodies _⟩, trivial⟩
  valid_of_denoted := by
    intro ignored v m h
    obtain ⟨fields, -, -, hverb, -⟩ := ofValue?_eq_some_iff.1 h
    obtain ⟨w, -, hw⟩ := Option.bind_eq_some_iff.1 hverb
    obtain ⟨text, -, htext⟩ := Option.map_eq_some_iff.1 hw
    exact ⟨text, htext.symm⟩
  nesting_le := fun h => Nat.le_trans (nesting_toValue_le h) (Nat.le_max_left ..)

end Method

namespace Group

/-- Groups, as objects. -/
def codec : Codec Group where
  shape := Group.shape
  denoted := ofValue?
  written := toValue

/-- Whether the verbs of all methods are decoded. -/
def Decoded (g : Group) : Prop := ∀ m ∈ g.methods, m.verb.Decoded

/-- A group without methods is written with an empty list of them, wherefore the two levels that are
    always allowed. -/
theorem codec_lawful : codec.Lawful Decoded 2 where
  denoted_written := by
    intro g h
    refine ofValue?_eq_some_iff.2 ⟨[("name", .text g.name),
      ("methods", Method.codec.list.written g.methods)], rfl, rfl, ?_⟩
    exact Method.codec_lawful.list.denoted_written h
  plain := fun g => ⟨trivial, Method.codec_lawful.list.plain g.methods, trivial⟩
  denotable := fun g => ⟨⟨.whole, rfl, trivial⟩,
    ⟨.list Method.shape, rfl, Method.codec_lawful.list.denotable g.methods⟩, trivial⟩
  valid_of_denoted := by
    intro ignored v g h
    obtain ⟨fields, -, -, hmethods⟩ := ofValue?_eq_some_iff.1 h
    exact (Method.codec_lawful.of_orElse hmethods).1
  nesting_le := by
    intro ignored v g h
    obtain ⟨fields, hfields, -, hmethods⟩ := ofValue?_eq_some_iff.1 h
    have hrecord := Codec.nesting_of_recordFields? hfields
    have hle := (Method.codec_lawful.of_orElse hmethods).2
    have hnest : (codec.written g).nesting =
        (Method.codec.list.written g.methods).nesting + 1 := by
      simp [codec, toValue, Value.nesting, Value.nestingFields, Codec.list, Method.codec]
    omega

end Group

/-- Methods and groups of them, alone and in lists, are read back from their JSON text as long as the
    verbs are decoded and the nesting is allowed.  All that has been decoded meets both, so it is read
    back from the text that is written for it. -/
theorem model_format_roundTrips :
    Method.codec.RoundTrips (·.verb.Decoded) ∧
    Method.codec.list.RoundTrips (fun ms => ∀ m ∈ ms, m.verb.Decoded) ∧
    Group.codec.RoundTrips Group.Decoded ∧
    Group.codec.list.RoundTrips (fun gs => ∀ g ∈ gs, g.Decoded) :=
  ⟨Method.codec_lawful.roundTrips (by decide), Method.codec_lawful.list.roundTrips (by decide),
    Group.codec_lawful.roundTrips (by decide), Group.codec_lawful.list.roundTrips (by decide)⟩

namespace Group

/-- A method with expressions and types of many kinds, and a verb that is not one of the common ones. -/
def sampleMethod : Method where
  name := "Find"
  verb := .ofText " purge "
  url := .concat [.literal "/a", .conditional (.property (.property .root "Sku") "Name"),
    .parameter "\x7bid\x7d", .formatting "N", .unsupported]
  requestBodies := [.object [⟨"value", .array none (some (.primitive "Int32" true)), true⟩,
    ⟨"kind", .enumeration ["A", "ß"], false⟩], .unsupported]
  responseBodies := [.array (some .xml) (some .dictionary)]

/-- A method as an array of its fields, and so is the property in its URL. -/
def sampleValue : Value :=
  .array [.text "Get", .text " get",
    .array [.text "property", .object [("kind", .text "instance")], .text "Id"]]

/-- Groups of methods are read back, and so is a method that an array denotes. -/
theorem model_format_roundTrips_sample :
    codec.list.decode? (codec.list.encode [⟨"G", [sampleMethod, sampleMethod]⟩, ⟨"", []⟩]) =
        some [⟨"G", [sampleMethod, sampleMethod]⟩, ⟨"", []⟩] ∧
      Method.codec.denoted false sampleValue =
        some ⟨"Get", .get, .property .root "Id", [], []⟩ ∧
      Method.codec.decode? (Method.codec.encode ⟨"Get", .get, .property .root "Id", [], []⟩) =
        some ⟨"Get", .get, .property .root "Id", [], []⟩ := by
  obtain ⟨hmethod, -, -, hgroups⟩ := model_format_roundTrips
  have hverb : sampleMethod.verb.Decoded := ⟨" purge ", rfl⟩
  have hdenoted : Method.codec.denoted false sampleValue =
      some ⟨"Get", .get, .property .root "Id", [], []⟩ :=
    rfl
  refine ⟨hgroups.encoded _ ?_ (by decide), hdenoted, hmethod.denoted _ _ _ hdenoted (by decide)⟩
  simp [Decoded, hverb]

end Group

end OperationCatalog
