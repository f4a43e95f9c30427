import OperationCatalog.Json.Reader
import OperationCatalog.Proofs.JsonNumeral
import OperationCatalog.Proofs.JsonText

/-!
# Which values a text can denote

`Json.read` accepts texts of many spellings, and with fuel.  Here its results are described without
either: a value is read from some text just when its numbers are numbers of the format, its fields are
of interest to the shape, and no more arrays and objects stand inside each other than allowed.

A `Spells` fact says that a piece of text is read as a value wherever it stands.  Such pieces can be
put together like the values themselves, so every value that can be read has one.

## Key results

- `SpellsItems.array`, `SpellsFields.object`: pieces for the parts give a piece for the whole
- `exists_spells`: every denotable value has a piece of text
- `readWithin_sound`: only denotable values of bounded nesting are read
- `exists_readWithin_iff`: both directions for whole texts
-/

namespace OperationCatalog.Json

/-! ## Denotable values -/

/-- Whether a value is what a number of the format stands for. -/
def Numeral.Denotes (v : Value) : Prop :=
  ∃ cs n, Numeral.read cs = some (n, []) ∧ n.value? = some v

mutual

/-- Whether a value can be read under a shape, its nesting aside. -/
def Denotable (shape : Shape) : Value → Prop
  | .null => True
  | .bool _ => True
  | .natural n => Numeral.Denotes (.natural n)
  | .integer i => Numeral.Denotes (.integer i)
  | .float x => Numeral.Denotes (.float x)
  | .text _ => True
  | .array items => DenotableItems shape 0 items
  | .object fields => DenotableFields shape fields
termination_by structural v => v

/-- Whether all items from number `index` on can be read. -/
def DenotableItems (shape : Shape) (index : Nat) : List Value → Prop
  | [] => True
  | v :: rest => Denotable (shape.item index) v ∧ DenotableItems shape (index + 1) rest
termination_by structural vs => vs

/-- Whether all fields are of interest and can be read. -/
def DenotableFields (shape : Shape) : List (String × Value) → Prop
  | [] => True
  | (name, v) :: rest =>
    (∃ s, shape.field name = some s ∧ Denotable s v) ∧ DenotableFields shape rest
termination_by structural fields => fields

end

theorem denotableItems_append {shape : Shape} {index : Nat} {items more : List Value} :
    DenotableItems shape index (items ++ more) ↔
      DenotableItems shape index items ∧ DenotableItems shape (index + items.length) more := by
  induction items generalizing index with
  | nil => simp [DenotableItems]
  | cons v rest ih =>
    simp only [List.cons_append, DenotableItems, ih, and_assoc, List.length_cons,
      Nat.add_right_comm index 1, Nat.add_assoc]

theorem denotableFields_iff {shape : Shape} {fields : Fields} :
    DenotableFields shape fields ↔
      ∀ f ∈ fields, ∃ s, shape.field f.1 = some s ∧ Denotable s f.2 := by
  induction fields with
  | nil => simp [DenotableFields]
  | cons f rest ih => simp [DenotableFields, ih]

theorem denotableFields_append {shape : Shape} {fields more : Fields} :
    DenotableFields shape (fields ++ more) ↔
      DenotableFields shape fields ∧ DenotableFields shape more := by
  induction fields with
  | nil => simp [DenotableFields]
  | cons f rest ih =>
    obtain ⟨name, v⟩ := f
    simp only [List.cons_append, DenotableFields, ih, and_assoc]

theorem nestingItems_append (items more : List Value) :
    Value.nestingItems (items ++ more) = max (Value.nestingItems items) (Value.nestingItems more) := by
  induction items with
  | nil => simp [Value.nestingItems]
  | cons v rest ih =>
    simp only [List.cons_append, Value.nestingItems, ih]
    omega

theorem nestingFields_append (fields more : Fields) :
    Value.nestingFields (fields ++ more) =
      max (Value.nestingFields fields) (Value.nestingFields more) := by
  induction fields with
  | nil => simp [Value.nestingFields]
  | cons f rest ih =>
    obtain ⟨name, v⟩ := f
    simp only [List.cons_append, Value.nestingFields, ih]
    omega

/-! ## Single steps of the reader -/

theorem dropSpace_cons {c : Char} (h : isSpace c = false) (cs : List Char) :
    dropSpace (c :: cs) = c :: cs := by
  rw [dropSpace, List.dropWhile_cons, h]
  rfl

theorem readValue_null (fuel depth : Nat) (shape : Shape) (rest : List Char) :
    readValue (fuel + 1) depth shape ("null".toList ++ rest) = some (.null, rest) := by
  rw [readValue.eq_def]
  rfl

theorem readValue_true (fuel depth : Nat) (shape : Shape) (rest : List Char) :
    readValue (fuel + 1) depth shape ("true".toList ++ rest) = some (.bool true, rest) := by
  rw [readValue.eq_def]
  rfl

theorem readValue_false (fuel depth : Nat) (shape : Shape) (rest : List Char) :
    readValue (fuel + 1) depth shape ("false".toList ++ rest) = some (.bool false, rest) := by
  rw [readValue.eq_def]
  rfl

theorem readValue_text (fuel depth : Nat) (shape : Shape) (s : String) (rest : List Char) :
    readValue (fuel + 1) depth shape (writeText s.toList ++ rest) = some (.text s, rest) := by
  have htext := readText_flatMap_writeChar s.toList rest
  rw [readValue.eq_def, writeText]
  simp only [List.cons_append, List.append_assoc, List.nil_append,
    dropSpace_cons (c := '"') rfl, htext, Option.map_some, String.ofList_toList]

/-- A sign or a digit is the start of a number, and of nothing else. -/
theorem readValue_number {c : Char} {cs : List Char} (hc : c = '-' ∨ c.isDigit)
    (fuel depth : Nat) (shape : Shape) :
    readValue (fuel + 1) depth shape (c :: cs) =
      (Numeral.read (c :: cs)).bind fun (n, rest) => n.value?.map (·, rest) := by
  have hspace : isSpace c = false := by
    apply Bool.eq_false_iff.2
    intro hs
    simp only [isSpace, Bool.or_eq_true, decide_eq_true_eq] at hs
    rcases hs with ((rfl | rfl) | rfl) | rfl <;> simp [Char.isDigit] at hc
  rw [readValue.eq_def]
  simp only [dropSpace_cons hspace]
  -- all alternatives but the last begin with a character that is neither a sign nor a digit
  split
  all_goals first
    | rfl
    | rename_i heq
      cases heq
      simp [Char.isDigit] at hc

theorem readValue_emptyArray (fuel depth : Nat) (shape : Shape) (rest : List Char) :
    readValue (fuel + 1) (depth + 1) shape ('[' :: ']' :: rest) = some (.array [], rest) := by
  rw [readValue.eq_def]
  rfl

theorem readValue_emptyObject (fuel depth : Nat) (shape : Shape) (rest : List Char) :
    readValue (fuel + 1) (depth + 1) shape ('\x7b' :: '\x7d' :: rest) =
      some (.object [], rest) := by
  rw [readValue.eq_def]
  rfl

theorem readValue_array {c : Char} {cs : List Char} (hspace : isSpace c = false) (hclose : c ≠ ']')
    (fuel depth : Nat) (shape : Shape) :
    readValue (fuel + 1) (depth + 1) shape ('[' :: c :: cs) =
      (readItems fuel depth shape 0 (c :: cs)).map fun (items, rest) => (.array items, rest) := by
  rw [readValue.eq_def]
  simp only [dropSpace_cons (c := '[') rfl, Nat.add_one_ne_zero, if_false, dropSpace_cons hspace]
  split
  · rename_i heq
    exact absurd (List.cons.inj heq).1 hclose
  · rfl

theorem readValue_object (fuel depth : Nat) (shape : Shape) (cs : List Char) :
    readValue (fuel + 1) (depth + 1) shape ('\x7b' :: '"' :: cs) =
      (readFields fuel depth shape ('"' :: cs)).map fun (fields, rest) => (.object fields, rest) := by
  rw [readValue.eq_def]
  rfl

/-! ## Pieces of text -/

/-- A text is read as a value wherever it stands, with fuel for twice its length. -/
structure Spells (shape : Shape) (v : Value) (cs : List Char) : Prop where
  starts : ∃ c t, cs = c :: t ∧ isSpace c = false ∧ c ≠ ']'
  reads : ∀ fuel depth rest, 2 * cs.length ≤ fuel → v.nesting ≤ depth → Ends rest →
    readValue fuel depth shape (cs ++ rest) = some (v, rest)

/-- A text is read as the items from number `index` on, with the bracket behind them. -/
structure SpellsItems (shape : Shape) (index : Nat) (items : List Value) (cs : List Char) :
    Prop where
  starts : ∃ c t, cs = c :: t ∧ isSpace c = false ∧ c ≠ ']'
  reads : ∀ fuel depth rest, 2 * cs.length ≤ fuel → Value.nestingItems items ≤ depth →
    readItems fuel depth shape index (cs ++ rest) = some (items, rest)

/-- A text is read as fields, with the brace behind them. -/
structure SpellsFields (shape : Shape) (fields : Fields) (cs : List Char) : Prop where
  starts : ∃ t, cs = '"' :: t
  reads : ∀ fuel depth rest, 2 * cs.length ≤ fuel → Value.nestingFields fields ≤ depth →
    readFields fuel depth shape (cs ++ rest) = some (fields, rest)

private theorem ends_comma (cs : List Char) : Ends (',' :: cs) := .cons rfl cs

private theorem ends_bracket (cs : List Char) : Ends (']' :: cs) := .cons rfl cs

private theorem ends_brace (cs : List Char) : Ends ('\x7d' :: cs) := .cons rfl cs

/-- The last item with the closing bracket. -/
theorem Spells.last {shape : Shape} {index : Nat} {v : Value} {cs : List Char}
    (h : Spells (shape.item index) v cs) : SpellsItems shape index [v] (cs ++ [']']) where
  starts := by
    obtain ⟨c, t, rfl, hc⟩ := h.starts
    exact ⟨c, t ++ [']'], rfl, hc⟩
  reads := by
    intro fuel depth rest hfuel hdepth
    simp only [List.length_append, List.length_singleton] at hfuel
    simp only [Value.nestingItems] at hdepth
    -- one step is for the item, and the bracket ends it
    obtain ⟨fuel, rfl⟩ : ∃ n, fuel = n + 1 := ⟨fuel - 1, by omega⟩
    have hv := h.reads fuel depth _ (by omega) (by omega) (ends_bracket rest)
    rw [readItems.eq_def]
    simp only [List.append_assoc, List.singleton_append, hv, Option.bind_some,
      dropSpace_cons (c := ']') rfl]

/-- One more item before others. -/
theorem SpellsItems.cons {shape : Shape} {index : Nat} {v : Value} {items : List Value}
    {cs ds : List Char} (hv : Spells (shape.item index) v cs)
    (h : SpellsItems shape (index + 1) items ds) :
    SpellsItems shape index (v :: items) (cs ++ ',' :: ds) where
  starts := by
    obtain ⟨c, t, rfl, hc⟩ := hv.starts
    exact ⟨c, t ++ ',' :: ds, rfl, hc⟩
  reads := by
    intro fuel depth rest hfuel hdepth
    simp only [List.length_append, List.length_cons] at hfuel
    simp only [Value.nestingItems] at hdepth
    -- the fuel that is left is enough for both pieces, since the comma counts twice
    obtain ⟨fuel, rfl⟩ : ∃ n, fuel = n + 1 := ⟨fuel - 1, by omega⟩
    have hfirst := hv.reads fuel depth _ (by omega) (by omega) (ends_comma (ds ++ rest))
    have hothers := h.reads fuel depth rest (by omega) (by omega)
    rw [readItems.eq_def]
    simp only [List.append_assoc, List.cons_append, hfirst, Option.bind_some,
      dropSpace_cons (c := ',') rfl, hothers, Option.map_some]

/-- Items between brackets are an array. -/
theorem SpellsItems.array {shape : Shape} {items : List Value} {cs : List Char}
    (h : SpellsItems shape 0 items cs) : Spells shape (.array items) ('[' :: cs) where
  starts := ⟨'[', cs, rfl, rfl, by decide⟩
  reads := by
    intro fuel depth rest hfuel hdepth _
    simp only [List.length_cons] at hfuel
    simp only [Value.nesting] at hdepth
    obtain ⟨fuel, rfl⟩ : ∃ n, fuel = n + 1 := ⟨fuel - 1, by omega⟩
    obtain ⟨depth, rfl⟩ : ∃ n, depth = n + 1 := ⟨depth - 1, by omega⟩
    have hitems := h.reads fuel depth rest (by omega) (by omega)
    -- the piece does not begin with the bracket of an empty array
    obtain ⟨c, t, rfl, hspace, hclose⟩ := h.starts
    rw [List.cons_append, List.cons_append, readValue_array hspace hclose, ← List.cons_append,
      hitems]
    rfl

theorem Spells.emptyArray (shape : Shape) : Spells shape (.array []) ['[', ']'] where
  starts := ⟨'[', [']'], rfl, rfl, by decide⟩
  reads := by
    intro fuel depth rest hfuel hdepth _
    simp only [List.length_cons, List.length_nil] at hfuel
    simp only [Value.nesting] at hdepth
    obtain ⟨fuel, rfl⟩ : ∃ n, fuel = n + 1 := ⟨fuel - 1, by omega⟩
    obtain ⟨depth, rfl⟩ : ∃ n, depth = n + 1 := ⟨depth - 1, by omega⟩
    exact readValue_emptyArray fuel depth shape rest

/-- What the reader of fields does behind a name. -/
theorem readFields_name (fuel depth : Nat) {shape s : Shape} {name : String}
    (hs : shape.field name = some s) (cs : List Char) :
    readFields (fuel + 1) depth shape (writeText name.toList ++ ':' :: cs) =
      (readValue fuel depth s cs).bind fun (v, rest) =>
        match dropSpace rest with
        | ',' :: rest =>
          (readFields fuel depth shape rest).map fun (fs, rest) => ((name, v) :: fs, rest)
        | '\x7d' :: rest => some ([(name, v)], rest)
        | _ => none := by
  have htext := readText_flatMap_writeChar name.toList (':' :: cs)
  rw [readFields.eq_def, writeText]
  simp only [List.cons_append, List.append_assoc, List.nil_append, dropSpace_cons (c := '"') rfl,
    htext, Option.bind_some, dropSpace_cons (c := ':') rfl, String.ofList_toList, hs]
  cases readValue fuel depth s cs <;> rfl

/-- The last field with the closing brace. -/
theorem Spells.lastField {shape s : Shape} {name : String} {v : Value} {cs : List Char}
    (hs : shape.field name = some s) (h : Spells s v cs) :
    SpellsFields shape [(name, v)] (writeText name.toList ++ ':' :: (cs ++ ['\x7d'])) where
  starts := ⟨_, rfl⟩
  reads := by
    intro fuel depth rest hfuel hdepth
    simp only [List.length_append, List.length_cons, List.length_nil] at hfuel
    simp only [Value.nestingFields] at hdepth
    obtain ⟨fuel, rfl⟩ : ∃ n, fuel = n + 1 := ⟨fuel - 1, by omega⟩
    have hv := h.reads fuel depth _ (by omega) (by omega) (ends_brace rest)
    simp only [List.append_assoc, List.cons_append, List.nil_append, readFields_name fuel depth hs,
      hv, Option.bind_some, dropSpace_cons (c := '\x7d') rfl]

/-- One more field before others. -/
theorem SpellsFields.cons {shape s : Shape} {name : String} {v : Value} {fields : Fields}
    {cs ds : List Char} (hs : shape.field name = some s) (hv : Spells s v cs)
    (h : SpellsFields shape fields ds) :
    SpellsFields shape ((name, v) :: fields)
      (writeText name.toList ++ ':' :: (cs ++ ',' :: ds)) where
  starts := ⟨_, rfl⟩
  reads := by
    intro fuel depth rest hfuel hdepth
    simp only [List.length_append, List.length_cons] at hfuel
    simp only [Value.nestingFields] at hdepth
    obtain ⟨fuel, rfl⟩ : ∃ n, fuel = n + 1 := ⟨fuel - 1, by omega⟩
    have hfirst := hv.reads fuel depth _ (by omega) (by omega) (ends_comma (ds ++ rest))
    have hothers := h.reads fuel depth rest (by omega) (by omega)
    simp only [List.append_assoc, List.cons_append, readFields_name fuel depth hs, hfirst,
      Option.bind_some, dropSpace_cons (c := ',') rfl, hothers, Option.map_some]

/-- Fields between braces are an object. -/
theorem SpellsFields.object {shape : Shape} {fields : Fields} {cs : List Char}
    (h : SpellsFields shape fields cs) : Spells shape (.object fields) ('\x7b' :: cs) where
  starts := ⟨'\x7b', cs, rfl, rfl, by decide⟩
  reads := by
    intro fuel depth rest hfuel hdepth _
    simp only [List.length_cons] at hfuel
    simp only [Value.nesting] at hdepth
    obtain ⟨fuel, rfl⟩ : ∃ n, fuel = n + 1 := ⟨fuel - 1, by omega⟩
    obtain ⟨depth, rfl⟩ : ∃ n, depth = n + 1 := ⟨depth - 1, by omega⟩
    have hfields := h.reads fuel depth rest (by omega) (by omega)
    -- the piece begins with a name, not with the brace of an empty object
    obtain ⟨t, rfl⟩ := h.starts
    rw [List.cons_append, List.cons_append, readValue_object, ← List.cons_append, hfields]
    rfl

theorem Spells.emptyObject (shape : Shape) : Spells shape (.object []) ['\x7b', '\x7d'] where
  starts := ⟨'\x7b', ['\x7d'], rfl, rfl, by decide⟩
  reads := by
    intro fuel depth rest hfuel hdepth _
    simp only [List.length_cons, List.length_nil] at hfuel
    simp only [Value.nesting] at hdepth
    obtain ⟨fuel, rfl⟩ : ∃ n, fuel = n + 1 := ⟨fuel - 1, by omega⟩
    obtain ⟨depth, rfl⟩ : ∃ n, depth = n + 1 := ⟨depth - 1, by omega⟩
    exact readValue_emptyObject fuel depth shape rest

/-! ## Every denotable value has a piece of text -/

/-- A piece of text that is read in one step. -/
theorem Spells.of_step {shape : Shape} {v : Value} {c : Char} {cs : List Char}
    (hspace : isSpace c = false) (hclose : c ≠ ']')
    (h : ∀ fuel depth rest, Ends rest →
      readValue (fuel + 1) depth shape (c :: cs ++ rest) = some (v, rest)) :
    Spells shape v (c :: cs) where
  starts := ⟨c, cs, rfl, hspace, hclose⟩
  reads := by
    intro fuel depth rest hfuel _ hrest
    simp only [List.length_cons] at hfuel
    obtain ⟨fuel, rfl⟩ : ∃ n, fuel = n + 1 := ⟨fuel - 1, by omega⟩
    exact h fuel depth rest hrest

/-- The text of a number is found again wherever it stands. -/
theorem spells_number {shape : Shape} {cs : List Char} {n : Numeral} {v : Value}
    (hread : Numeral.read cs = some (n, [])) (hv : n.value? = some v) : Spells shape v cs := by
  obtain ⟨c, piece, hcs, hc, htakes⟩ := Numeral.read_eq_some hread
  rw [List.append_nil] at hcs
  subst hcs
  refine Spells.of_step ?_ ?_ fun fuel depth rest hrest => ?_
  · rcases hc with rfl | hc
    · rfl
    · apply Bool.eq_false_iff.2
      intro hs
      simp only [isSpace, Bool.or_eq_true, decide_eq_true_eq] at hs
      rcases hs with ((rfl | rfl) | rfl) | rfl <;> simp [Char.isDigit] at hc
  · intro heq
    rw [heq] at hc
    simp [Char.isDigit] at hc
  · rw [List.cons_append, readValue_number hc, ← List.cons_append, htakes rest hrest]
    simp only [Option.bind_some, hv, Option.map_some]

theorem exists_spells_number {shape : Shape} {v : Value} (h : Numeral.Denotes v) :
    ∃ cs, Spells shape v cs := by
  obtain ⟨cs, n, hread, hv⟩ := h
  exact ⟨cs, spells_number hread hv⟩

mutual

/-- A denotable value has a piece of text. -/
theorem exists_spells (shape : Shape) : ∀ v : Value, Denotable shape v → ∃ cs, Spells shape v cs
  | .null, _ => ⟨_, Spells.of_step (c := 'n') rfl (by decide)
      fun fuel depth rest _ => readValue_null fuel depth shape rest⟩
  | .bool true, _ => ⟨_, Spells.of_step (c := 't') rfl (by decide)
      fun fuel depth rest _ => readValue_true fuel depth shape rest⟩
  | .bool false, _ => ⟨_, Spells.of_step (c := 'f') rfl (by decide)
      fun fuel depth rest _ => readValue_false fuel depth shape rest⟩
  | .natural _, h => exists_spells_number h
  | .integer _, h => exists_spells_number h
  | .float _, h => exists_spells_number h
  | .text s, _ => ⟨_, Spells.of_step rfl (by decide)
      fun fuel depth rest _ => readValue_text fuel depth shape s rest⟩
  | .array items, h => by
    by_cases hnil : items = []
    · rw [hnil]
      exact ⟨_, Spells.emptyArray shape⟩
    · obtain ⟨cs, hcs⟩ := exists_spellsItems shape 0 items hnil h
      exact ⟨_, hcs.array⟩
  | .object fields, h => by
    by_cases hnil : fields = []
    · rw [hnil]
      exact ⟨_, Spells.emptyObject shape⟩
    · obtain ⟨cs, hcs⟩ := exists_spellsFields shape fields hnil h
      exact ⟨_, hcs.object⟩
termination_by structural v => v

/-- Items that can be read have a piece of text. -/
theorem exists_spellsItems (shape : Shape) (index : Nat) : ∀ items : List Value, items ≠ [] →
    DenotableItems shape index items → ∃ cs, SpellsItems shape index items cs
  | [], hne, _ => absurd rfl hne
  | v :: rest, _, h => by
    obtain ⟨cs, hcs⟩ := exists_spells (shape.item index) v h.1
    by_cases hnil : rest = []
    · rw [hnil]
      exact ⟨_, hcs.last⟩
    · obtain ⟨ds, hds⟩ := exists_spellsItems shape (index + 1) rest hnil h.2
      exact ⟨_, hds.cons hcs⟩
termination_by structural items => items

/-- Fields that can be read have a piece of text. -/
theorem exists_spellsFields (shape : Shape) : ∀ fields : List (String × Value), fields ≠ [] →
    DenotableFields shape fields → ∃ cs, SpellsFields shape fields cs
  | [], hne, _ => absurd rfl hne
  | (name, v) :: rest, _, h => by
    obtain ⟨⟨s, hs, hv⟩, hrest⟩ := h
    obtain ⟨cs, hcs⟩ := exists_spells s v hv
    by_cases hnil : rest = []
    · rw [hnil]
      exact ⟨_, hcs.lastField hs⟩
    · obtain ⟨ds, hds⟩ := exists_spellsFields shape rest hnil hrest
      exact ⟨_, hds.cons hs hcs⟩
termination_by structural fields => fields

end

/-! ## Nothing else is read -/

/-- What a number stands for is denotable, and nothing stands inside it. -/
private theorem denotable_of_value? {shape : Shape} {cs rest : List Char} {n : Numeral} {v : Value}
    (hread : Numeral.read cs = some (n, rest)) (hv : n.value? = some v) (depth : Nat) :
    Denotable shape v ∧ v.nesting ≤ depth := by
  obtain ⟨c, piece, -, -, htakes⟩ := Numeral.read_eq_some hread
  -- the piece by itself is a text of the number
  have hdenotes : Numeral.Denotes v := by
    refine ⟨c :: piece, n, ?_, hv⟩
    simpa using htakes [] (NotAhead.nil _)
  have hfloat : ∀ x : Option Float, x.map Value.float = some v →
      Denotable shape v ∧ v.nesting ≤ depth := by
    intro x hx
    obtain ⟨x, -, rfl⟩ := Option.map_eq_some_iff.1 hx
    exact ⟨hdenotes, Nat.zero_le _⟩
  simp only [Numeral.value?] at hv
  split at hv
  · exact hfloat _ hv
  · split at hv
    · split at hv
      · cases hv
        exact ⟨hdenotes, Nat.zero_le _⟩
      · exact hfloat _ hv
    · split at hv
      · cases hv
        exact ⟨hdenotes, Nat.zero_le _⟩
      · exact hfloat _ hv

/-- What is read is denotable, and nested no deeper than allowed.  The induction is on the fuel, for
    values, items and fields at once. -/
theorem readValue_sound (fuel : Nat) :
    (∀ depth shape cs v rest, readValue fuel depth shape cs = some (v, rest) →
      Denotable shape v ∧ v.nesting ≤ depth) ∧
    (∀ depth shape index cs items rest, readItems fuel depth shape index cs = some (items, rest) →
      DenotableItems shape index items ∧ Value.nestingItems items ≤ depth) ∧
    (∀ depth shape cs fields rest, readFields fuel depth shape cs = some (fields, rest) →
      DenotableFields shape fields ∧ Value.nestingFields fields ≤ depth) := by
  induction fuel with
  | zero =>
    refine ⟨fun depth shape cs v rest h => ?_, fun depth shape index cs items rest h => ?_,
      fun depth shape cs fields rest h => ?_⟩
    · rw [readValue.eq_def] at h
      cases h
    · rw [readItems.eq_def] at h
      cases h
    · rw [readFields.eq_def] at h
      cases h
  | succ fuel ih =>
    obtain ⟨ihValue, ihItems, ihFields⟩ := ih
    refine ⟨?_, ?_, ?_⟩
    · intro depth shape cs v rest h
      rw [readValue.eq_def] at h
      simp only at h
      split at h
      · -- an array
        split at h
        · cases h
        · split at h
          · cases h
            exact ⟨trivial, by simp only [Value.nesting, Value.nestingItems]; omega⟩
          · obtain ⟨⟨items, rest'⟩, hitems, hv⟩ := Option.map_eq_some_iff.1 h
            cases hv
            obtain ⟨hden, hnest⟩ := ihItems _ _ _ _ _ _ hitems
            exact ⟨hden, by simp only [Value.nesting]; omega⟩
      · -- an object
        split at h
        · cases h
        · split at h
          · cases h
            exact ⟨trivial, by simp only [Value.nesting, Value.nestingFields]; omega⟩
          · obtain ⟨⟨fields, rest'⟩, hfields, hv⟩ := Option.map_eq_some_iff.1 h
            cases hv
            obtain ⟨hden, hnest⟩ := ihFields _ _ _ _ _ hfields
            exact ⟨hden, by simp only [Value.nesting]; omega⟩
      · -- a text
        obtain ⟨⟨s, rest'⟩, -, hv⟩ := Option.map_eq_some_iff.1 h
        cases hv
        exact ⟨trivial, Nat.zero_le _⟩
      · -- null, true and false
        cases h
        exact ⟨trivial, Nat.zero_le _⟩
      · cases h
        exact ⟨trivial, Nat.zero_le _⟩
      · cases h
        exact ⟨trivial, Nat.zero_le _⟩
      · -- a number
        obtain ⟨⟨n, rest'⟩, hread, hv⟩ := Option.bind_eq_some_iff.1 h
        obtain ⟨v', hv', hpair⟩ := Option.map_eq_some_iff.1 hv
        cases hpair
        exact denotable_of_value? hread hv' depth
    · intro depth shape index cs items rest h
      rw [readItems.eq_def] at h
      obtain ⟨⟨v, rest₁⟩, hv, hmore⟩ := Option.bind_eq_some_iff.1 h
      obtain ⟨hden, hnest⟩ := ihValue _ _ _ _ _ hv
      -- a comma, and further items, or the closing bracket
      simp only at hmore
      split at hmore
      · obtain ⟨⟨others, rest₂⟩, hothers, hitems⟩ := Option.map_eq_some_iff.1 hmore
        cases hitems
        obtain ⟨hden', hnest'⟩ := ihItems _ _ _ _ _ _ hothers
        exact ⟨⟨hden, hden'⟩, max_le hnest hnest'⟩
      · cases hmore
        exact ⟨⟨hden, trivial⟩, max_le hnest (Nat.zero_le _)⟩
      · cases hmore
    · intro depth shape cs fields rest h
      rw [readFields.eq_def] at h
      simp only at h
      split at h
      case h_2 => cases h
      obtain ⟨⟨name, rest₁⟩, -, hname⟩ := Option.bind_eq_some_iff.1 h
      split at hname
      case h_2 => cases hname
      obtain ⟨⟨entry, rest₂⟩, hentry, hmore⟩ := Option.bind_eq_some_iff.1 hname
      -- what one field adds: nothing if it is passed over
      have hone : DenotableFields shape entry ∧ Value.nestingFields entry ≤ depth := by
        split at hentry
        · obtain ⟨_, -, hpair⟩ := Option.map_eq_some_iff.1 hentry
          cases hpair
          exact ⟨trivial, Nat.zero_le _⟩
        · rename_i s hs
          obtain ⟨⟨v, rest₃⟩, hv, hpair⟩ := Option.map_eq_some_iff.1 hentry
          cases hpair
          obtain ⟨hden, hnest⟩ := ihValue _ _ _ _ _ hv
          exact ⟨⟨⟨s, hs, hden⟩, trivial⟩, max_le hnest (Nat.zero_le _)⟩
      -- a comma, and further fields, or the closing brace
      split at hmore
      · obtain ⟨⟨others, rest₃⟩, hothers, hpair⟩ := Option.map_eq_some_iff.1 hmore
        cases hpair
        obtain ⟨hden, hnest⟩ := ihFields _ _ _ _ _ hothers
        rw [denotableFields_append, nestingFields_append]
        exact ⟨⟨hone.1, hden⟩, max_le hone.2 hnest⟩
      · cases hmore
        exact hone
      · cases hmore

/-- Only denotable values of bounded nesting are read. -/
theorem readWithin_sound {depth : Nat} {shape : Shape} {text : String} {v : Value}
    (h : readWithin depth shape text = some v) : Denotable shape v ∧ v.nesting ≤ depth := by
  obtain ⟨⟨v', rest⟩, hread, hv⟩ := Option.bind_eq_some_iff.1 h
  simp only at hv
  split at hv
  · cases hv
    exact (readValue_sound _).1 _ _ _ _ _ hread
  · cases hv

/-- A value is read from some text just when it is denotable and its nesting is allowed. -/
theorem exists_readWithin_iff {depth : Nat} {shape : Shape} {v : Value} :
    (∃ text, readWithin depth shape text = some v) ↔ Denotable shape v ∧ v.nesting ≤ depth := by
  constructor
  · intro ⟨text, h⟩
    exact readWithin_sound h
  · intro ⟨hden, hnest⟩
    -- a piece of text for the value is a text by itself
    obtain ⟨cs, hcs⟩ := exists_spells shape v hden
    have hread := hcs.reads (2 * cs.length + 2) depth [] (by omega) hnest (NotAhead.nil _)
    rw [List.append_nil] at hread
    refine ⟨String.ofList cs, ?_⟩
    simp only [readWithin, String.toList_ofList, hread]
    rfl

end OperationCatalog.Json
