import OperationCatalog.Json.Writer
import OperationCatalog.Proofs.JsonReading

/-!
# Written values are read back

`Json.write` puts the pieces of a value together as the reader takes them apart.  If the numbers of a
value are whole and kept as the reader keeps them, its text is therefore one of those that spell the
value, and the whole text is read as the value again, under any shape that does not pass over a field and
as long as the nesting is allowed.

## Key results

- `Numeral.read_toDigits`: the digits of a number are read as a numeral without further parts
- `spells_write`: the written text of a value spells it, by induction on the value
- `readWithin_text`: a whole text is read back
-/

namespace OperationCatalog.Json

mutual

/-- Whether no number stands in a value. -/
def Plain : Value → Prop
  | .natural _ | .integer _ | .float _ => False
  | .array items => PlainItems items
  | .object fields => PlainFields fields
  | .null | .bool _ | .text _ => True
termination_by structural v => v

/-- Whether no number stands in any of the items. -/
def PlainItems : List Value → Prop
  | [] => True
  | v :: rest => Plain v ∧ PlainItems rest
termination_by structural vs => vs

/-- Whether no number stands in any of the fields. -/
def PlainFields : List (String × Value) → Prop
  | [] => True
  | (_, v) :: rest => Plain v ∧ PlainFields rest
termination_by structural fields => fields

end

theorem plainItems_iff {items : List Value} : PlainItems items ↔ ∀ v ∈ items, Plain v := by
  induction items with
  | nil => simp [PlainItems]
  | cons v rest ih => simp [PlainItems, ih]

theorem plainFields_iff {fields : Fields} : PlainFields fields ↔ ∀ f ∈ fields, Plain f.2 := by
  induction fields with
  | nil => simp [PlainFields]
  | cons f rest ih => simp [PlainFields, ih]

/-! ## Whole numbers -/

namespace Numeral

/-- No zero stands in front of other digits. -/
theorem exists_toDigits (n : Nat) : ∃ c cs, Nat.toDigits 10 n = c :: cs ∧ (c = '0' → cs = []) := by
  induction n using Nat.strongRecOn with
  | ind n ih =>
    by_cases hn : n < 10
    · exact ⟨n.digitChar, [], Nat.toDigits_of_lt_base hn, fun _ => rfl⟩
    · -- the first digit is that of a smaller number, and not zero since that one is positive
      obtain ⟨c, cs, hcs, hzero⟩ := ih (n / 10) (by omega)
      rw [Nat.toDigits_of_base_le (by decide) (by omega), hcs]
      refine ⟨c, _, rfl, fun hc => ?_⟩
      have hvalue := Nat.ofDigitChars_toDigits (b := 10) (n := n / 10) (by decide) (by decide)
      rw [hcs, hzero hc, hc] at hvalue
      have hpos : n / 10 = 0 := hvalue.symm
      omega

/-- The digits of a number are the digits before the point, and nothing else. -/
theorem readWhole_toDigits (n : Nat) :
    readWhole (Nat.toDigits 10 n) = some (Nat.toDigits 10 n, []) := by
  have hdigits : ∀ c ∈ Nat.toDigits 10 n, c.isDigit = true := fun c hc =>
    Nat.isDigit_of_mem_toDigits (by decide) (by decide) hc
  obtain ⟨c, cs, hcs, hzero⟩ := exists_toDigits n
  rw [hcs] at hdigits ⊢
  by_cases hc : c = '0'
  · rw [hzero hc, hc]
    rfl
  · rw [readWhole]
    · rw [readDigits, List.takeWhile_eq_self_iff.2 hdigits, List.dropWhile_eq_nil_iff.2 hdigits]
    · intro rest heq
      exact hc (List.cons.inj heq).1

/-- The digits of a number are read as a numeral without further parts. -/
theorem read_toDigits (n : Nat) :
    read (Nat.toDigits 10 n) = some (⟨false, Nat.toDigits 10 n, none, none⟩, []) := by
  have hwhole := readWhole_toDigits n
  obtain ⟨c, cs, hcs, -⟩ := exists_toDigits n
  have hdigit : c.isDigit = true := by
    refine Nat.isDigit_of_mem_toDigits (b := 10) (n := n) (by decide) (by decide) ?_
    rw [hcs]
    exact List.mem_cons_self
  rw [hcs] at hwhole ⊢
  rw [read]
  · rw [hwhole]
    rfl
  · -- a digit is not a sign
    intro rest heq
    rw [(List.cons.inj heq).1] at hdigit
    cases hdigit

/-- With a sign before them as well. -/
theorem read_minus_toDigits (n : Nat) :
    read ('-' :: Nat.toDigits 10 n) = some (⟨true, Nat.toDigits 10 n, none, none⟩, []) := by
  rw [read]
  simp only [readWhole_toDigits]
  rfl

theorem decimal_toDigits (n : Nat) : Text.decimal (Nat.toDigits 10 n) = n :=
  Nat.ofDigitChars_toDigits (by decide) (by decide)

/-- The value is the number itself, if it fits 64 bits. -/
theorem value?_toDigits {n : Nat} (h : n < wordLimit) :
    (⟨false, Nat.toDigits 10 n, none, none⟩ : Numeral).value? = some (.natural n) := by
  simp [value?, decimal_toDigits, h]

/-- With a sign the value is negative, if it fits 64 bits with it. -/
theorem value?_minus_toDigits {n : Nat} (h : n + 1 ≤ signLimit) :
    (⟨true, Nat.toDigits 10 (n + 1), none, none⟩ : Numeral).value? =
      some (.integer (Int.negSucc n)) := by
  have hsize : 0 < n + 1 ∧ n + 1 ≤ signLimit := ⟨Nat.succ_pos n, h⟩
  simp only [value?, decimal_toDigits, Option.isSome_none, Bool.false_eq_true, or_self, if_false,
    if_true, if_pos hsize]
  rfl

theorem denotes_natural {n : Nat} (h : n < wordLimit) : Denotes (.natural n) :=
  ⟨_, _, read_toDigits n, value?_toDigits h⟩

theorem denotes_negSucc {n : Nat} (h : n + 1 ≤ signLimit) : Denotes (.integer (Int.negSucc n)) :=
  ⟨_, _, read_minus_toDigits (n + 1), value?_minus_toDigits h⟩

end Numeral

/-- The text of a number that fits 64 bits is read as it. -/
theorem spells_natural {shape : Shape} {n : Nat} (h : n < wordLimit) :
    Spells shape (.natural n) (write (.natural n)) := by
  have htext : write (.natural n) = Nat.toDigits 10 n := Nat.toList_repr
  rw [htext]
  exact spells_number (Numeral.read_toDigits n) (Numeral.value?_toDigits h)

/-- So is that of a negative number that fits 64 bits with a sign. -/
theorem spells_negSucc {shape : Shape} {n : Nat} (h : n + 1 ≤ signLimit) :
    Spells shape (.integer (Int.negSucc n)) (write (.integer (Int.negSucc n))) := by
  have htext : write (.integer (Int.negSucc n)) = '-' :: Nat.toDigits 10 (n + 1) := by
    rw [write, show toString (Int.negSucc n) = "-" ++ toString (n + 1) from rfl,
      String.toList_append, Nat.toString_eq_repr, Nat.toList_repr]
    rfl
  rw [htext]
  exact spells_number (Numeral.read_minus_toDigits (n + 1)) (Numeral.value?_minus_toDigits h)

mutual

/-- Whether every number in a value is a whole one, kept as the reader keeps it. -/
def Exact : Value → Prop
  | .natural n => n < wordLimit
  | .integer i => -signLimit ≤ i ∧ i < 0
  | .float _ => False
  | .array items => ExactItems items
  | .object fields => ExactFields fields
  | .null | .bool _ | .text _ => True
termination_by structural v => v

/-- Whether every number in the items is. -/
def ExactItems : List Value → Prop
  | [] => True
  | v :: rest => Exact v ∧ ExactItems rest
termination_by structural vs => vs

/-- Whether every number in the fields is. -/
def ExactFields : List (String × Value) → Prop
  | [] => True
  | (_, v) :: rest => Exact v ∧ ExactFields rest
termination_by structural fields => fields

end

mutual

theorem Plain.exact : ∀ {v : Value}, Plain v → Exact v
  | .null, _ | .bool _, _ | .text _, _ => trivial
  | .array _, h => PlainItems.exact h
  | .object _, h => PlainFields.exact h

theorem PlainItems.exact : ∀ {items : List Value}, PlainItems items → ExactItems items
  | [], _ => trivial
  | _ :: _, h => ⟨h.1.exact, PlainItems.exact h.2⟩

theorem PlainFields.exact : ∀ {fields : List (String × Value)}, PlainFields fields →
    ExactFields fields
  | [], _ => trivial
  | (_, _) :: _, h => ⟨h.1.exact, PlainFields.exact h.2⟩

end

theorem exists_negSucc {i : Int} (hlow : -signLimit ≤ i) (hneg : i < 0) :
    ∃ n, i = Int.negSucc n ∧ n + 1 ≤ signLimit := by
  cases i with
  | ofNat n => exact absurd hneg (Int.not_lt.2 (Int.natCast_nonneg n))
  | negSucc n => exact ⟨n, rfl, by omega⟩

mutual

/-- Nothing is passed over where every field is of interest. -/
theorem Exact.denotable : ∀ {v : Value}, Exact v → Denotable .whole v
  | .null, _ | .bool _, _ | .text _, _ => trivial
  | .natural _, h => Numeral.denotes_natural h
  | .integer i, h => by
    obtain ⟨n, rfl, hn⟩ := exists_negSucc h.1 h.2
    exact Numeral.denotes_negSucc hn
  | .float _, h => h.elim
  | .array _, h => ExactItems.denotable h 0
  | .object _, h => ExactFields.denotable h

theorem ExactItems.denotable : ∀ {items : List Value}, ExactItems items → ∀ index,
    DenotableItems .whole index items
  | [], _, _ => trivial
  | _ :: _, h, index => ⟨h.1.denotable, ExactItems.denotable h.2 (index + 1)⟩

theorem ExactFields.denotable : ∀ {fields : List (String × Value)}, ExactFields fields →
    DenotableFields .whole fields
  | [], _ => trivial
  | (_, _) :: _, h => ⟨⟨.whole, rfl, h.1.denotable⟩, ExactFields.denotable h.2⟩

end

theorem Plain.denotable {v : Value} (h : Plain v) : Denotable .whole v := h.exact.denotable

/-! ## Whole values -/

theorem write_object_cons (name : String) (v : Value) (rest : Fields) :
    write (.object ((name, v) :: rest)) =
      '\x7b' :: (writeText name.toList ++ ':' :: (write v ++ writeFields rest)) := by
  simp only [write, List.cons_append, List.append_assoc]

theorem writeFields_cons (name : String) (v : Value) (rest : Fields) :
    writeFields ((name, v) :: rest) =
      ',' :: (writeText name.toList ++ ':' :: (write v ++ writeFields rest)) := by
  simp only [writeFields, List.cons_append, List.append_assoc]

mutual

/-- The written text of a value spells it. -/
theorem spells_write (shape : Shape) : ∀ v : Value, Exact v → Denotable shape v →
    Spells shape v (write v)
  | .null, _, _ => Spells.of_step (c := 'n') rfl (by decide)
      fun fuel depth rest _ => readValue_null fuel depth shape rest
  | .bool true, _, _ => Spells.of_step (c := 't') rfl (by decide)
      fun fuel depth rest _ => readValue_true fuel depth shape rest
  | .bool false, _, _ => Spells.of_step (c := 'f') rfl (by decide)
      fun fuel depth rest _ => readValue_false fuel depth shape rest
  | .natural _, h, _ => spells_natural h
  | .integer i, h, _ => by
    obtain ⟨n, rfl, hn⟩ := exists_negSucc h.1 h.2
    exact spells_negSucc hn
  | .float _, h, _ => h.elim
  | .text s, _, _ => Spells.of_step rfl (by decide)
      fun fuel depth rest _ => readValue_text fuel depth shape s rest
  | .array [], _, _ => Spells.emptyArray shape
  | .array (v :: rest), h, hden => by
    have hfirst := spells_write (shape.item 0) v h.1 hden.1
    exact (spells_writeItems shape rest 0 h.2 hden.2 hfirst).array
  | .object [], _, _ => Spells.emptyObject shape
  | .object ((name, v) :: rest), h, hden => by
    obtain ⟨⟨s, hs, hv⟩, hrest⟩ := hden
    have hfirst := spells_write s v h.1 hv
    rw [write_object_cons]
    exact (spells_writeFields shape rest h.2 hrest hs hfirst).object
termination_by structural v => v

/-- Behind a piece for an item, the written text of the following ones spells all of them. -/
theorem spells_writeItems (shape : Shape) : ∀ (items : List Value) (index : Nat),
    ExactItems items → DenotableItems shape (index + 1) items → ∀ {v : Value} {cs : List Char},
    Spells (shape.item index) v cs → SpellsItems shape index (v :: items) (cs ++ writeItems items)
  | [], _, _, _, _, _, hv => hv.last
  | w :: rest, index, h, hden, _, _, hv => by
    have hnext := spells_write (shape.item (index + 1)) w h.1 hden.1
    exact (spells_writeItems shape rest (index + 1) h.2 hden.2 hnext).cons hv
termination_by structural items => items

/-- Behind a piece for a field, the written text of the following ones spells all of them. -/
theorem spells_writeFields (shape : Shape) : ∀ fields : List (String × Value),
    ExactFields fields → DenotableFields shape fields → ∀ {s : Shape} {name : String} {v : Value}
    {cs : List Char}, shape.field name = some s → Spells s v cs →
    SpellsFields shape ((name, v) :: fields)
      (writeText name.toList ++ ':' :: (cs ++ writeFields fields))
  | [], _, _, _, _, _, _, hs, hv => Spells.lastField hs hv
  | (name', w) :: rest, h, hden, s, name, v, cs, hs, hv => by
    obtain ⟨⟨s', hs', hw⟩, hrest⟩ := hden
    have hnext := spells_write s' w h.1 hw
    rw [writeFields_cons]
    exact (spells_writeFields shape rest h.2 hrest hs' hnext).cons hs hv
termination_by structural fields => fields

end

/-- The text of a value with whole numbers only is read as the value, if nothing in it is passed over
    and its nesting is allowed. -/
theorem Exact.readWithin_text {depth : Nat} {shape : Shape} {v : Value} (hexact : Exact v)
    (hden : Denotable shape v) (hnest : v.nesting ≤ depth) :
    readWithin depth shape (text v) = some v := by
  have hread := (spells_write shape v hexact hden).reads (2 * (write v).length + 2) depth []
    (by omega) hnest (NotAhead.nil _)
  rw [List.append_nil] at hread
  simp only [readWithin, text, String.toList_ofList, hread]
  rfl

/-- Without numbers it is so. -/
theorem readWithin_text {depth : Nat} {shape : Shape} {v : Value} (hplain : Plain v)
    (hden : Denotable shape v) (hnest : v.nesting ≤ depth) :
    readWithin depth shape (text v) = some v :=
  hplain.exact.readWithin_text hden hnest

end OperationCatalog.Json
