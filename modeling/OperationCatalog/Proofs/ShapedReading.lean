import OperationCatalog.Proofs.JsonWriting

/-!
# Reading under a shape

A reader that knows which fields are of interest passes over all others.  What it passes over is found
to end where the reader of whole values ends, so that both go on in step; what comes of it is the whole
value without the fields that are of no interest.

## Key results

- `passText_of_readText`: a string that is read is passed over
- `readPasses`: so are values, items and fields, by induction on the fuel of the reader
- `Shape.readsCut`: what the reader gets to under a shape, by the same induction
- `read_cut`: a text that can be read as a whole is read under any shape as what is left of its value
- `read_text`: a value of which nothing is passed over is read back under a shape
-/

namespace OperationCatalog.Json

/-! ## Passing over strings -/

theorem passText_unit {cs rest : List Char} {n : Nat} (h : readUnit cs = some (n, rest)) :
    passText ('\\' :: 'u' :: cs) = passText rest := by
  unfold readUnit at h
  split at h
  · obtain ⟨n, hn, hpair⟩ := Option.map_eq_some_iff.1 h
    cases hpair
    rw [passText, hn]
    rfl
  · cases h

theorem passText_letter {c c' : Char} (h : letterEscape? c = some c') (rest : List Char) :
    passText ('\\' :: c :: rest) = passText rest := by
  rw [passText]
  · rw [h]
    rfl
  · rintro _ _ _ _ _ rfl
    cases h

/-- An escape that is read is passed over, one half after the other if it is a pair. -/
theorem passText_escape {cs rest : List Char} {c : Char} (h : readEscape cs = some (c, rest)) :
    passText ('\\' :: cs) = passText rest := by
  unfold readEscape at h
  split at h
  · cases h
  · obtain ⟨⟨n, more⟩, hn, hmore⟩ := Option.bind_eq_some_iff.1 h
    rw [passText_unit hn]
    dsimp only at hmore
    split at hmore
    · obtain ⟨⟨t, after⟩, ht, hchar⟩ := Option.bind_eq_some_iff.1 hmore
      obtain ⟨_, -, hpair⟩ := Option.map_eq_some_iff.1 hchar
      cases hpair
      unfold readTrailUnit at ht
      split at ht
      · obtain ⟨⟨m, after⟩, hm, hrange⟩ := Option.bind_eq_some_iff.1 ht
        dsimp only at hrange
        split at hrange
        · cases hrange
          exact passText_unit hm
        · cases hrange
      · cases ht
    · obtain ⟨_, -, hpair⟩ := Option.map_eq_some_iff.1 hmore
      cases hpair
      rfl
  · obtain ⟨_, hletter, hpair⟩ := Option.map_eq_some_iff.1 h
    cases hpair
    exact passText_letter hletter _

/-- A string that is read is passed over. -/
theorem passText_of_readText (cs : List Char) : ∀ {s rest : List Char},
    readText cs = some (s, rest) → passText cs = some rest := by
  induction cs using readText.induct with
  | case1 =>
    intro s rest h
    rw [readText] at h
    cases h
  | case2 rest =>
    intro s rest' h
    rw [readText] at h
    cases h
    rw [passText]
  | case3 rest hnone =>
    intro s rest' h
    rw [readText] at h
    split at h
    · cases h
    · rename_i hsome
      rw [hnone] at hsome
      cases hsome
  | case4 rest c after hescape _ ih =>
    intro s rest' h
    rw [readText] at h
    split at h
    · cases h
    · rename_i hsome
      rw [hescape] at hsome
      cases hsome
      obtain ⟨⟨s', rest''⟩, hmore, hpair⟩ := Option.map_eq_some_iff.1 h
      cases hpair
      rw [passText_escape hescape, ih hmore]
  | case5 c rest hquote hslash hlow =>
    intro s rest' h
    rw [readText, if_pos hlow] at h
    · cases h
    · exact hquote
    · exact hslash
  | case6 c rest hquote hslash hlow ih =>
    intro s rest' h
    rw [readText, if_neg hlow] at h
    · obtain ⟨⟨s', rest''⟩, hmore, hpair⟩ := Option.map_eq_some_iff.1 h
      cases hpair
      rw [passText, if_neg hlow, ih hmore]
      · exact hquote
      · exact fun _ _ _ _ _ hc _ => hslash hc
      · exact fun _ _ hc _ => hslash hc
    · exact hquote
    · exact hslash

theorem length_lt_of_passText (cs : List Char) : ∀ {rest : List Char},
    passText cs = some rest → rest.length < cs.length := by
  fun_induction passText cs with
  | case1 | case4 | case6 | case7 =>
    intro rest h
    cases h
  | case2 rest =>
    intro rest' h
    cases h
    exact Nat.lt_succ_self _
  | case3 _ _ _ _ _ _ ih | case5 _ _ _ _ ih | case8 _ _ _ _ _ _ ih =>
    intro rest' h
    have hlt := ih h
    simp only [List.length_cons]
    omega

/-! ## Passing over values -/

/-- Where a passing reader is: what is open, what must come next, and the text that is left. -/
structure Position where
  stack : List Bool
  awaited : Awaited
  text : List Char

/-- What a passing reader gets to from a position. -/
def Position.pass (fuel : Nat) (p : Position) : Option (List Char) :=
  Json.pass fuel p.stack p.awaited p.text

/-- Whether a passing reader comes from one position to another, with no more steps than there are
    characters between them. -/
def Passes (p q : Position) : Prop :=
  ∃ steps, steps + q.text.length ≤ p.text.length ∧ ∀ fuel, p.pass (fuel + steps) = q.pass fuel

theorem Passes.trans {p q r : Position} (h : Passes p q) (h' : Passes q r) : Passes p r := by
  obtain ⟨steps, hlength, hpass⟩ := h
  obtain ⟨steps', hlength', hpass'⟩ := h'
  refine ⟨steps' + steps, by omega, fun fuel => ?_⟩
  rw [← Nat.add_assoc, hpass, hpass']

theorem Passes.step {p q : Position} (hlength : q.text.length < p.text.length)
    (h : ∀ fuel, p.pass (fuel + 1) = q.pass fuel) : Passes p q :=
  ⟨1, by omega, h⟩

/-- A value at the end of which the reader comes, with nothing open, is passed over. -/
theorem passValue_of_passes {cs rest : List Char}
    (h : Passes ⟨[], .value, cs⟩ ⟨[], .next, rest⟩) : passValue cs = some rest := by
  obtain ⟨steps, hlength, hpass⟩ := h
  have hfuel := hpass (cs.length - steps + 1 + 1)
  simp only [Position.pass, pass] at hfuel hlength
  rw [passValue, ← hfuel]
  congr 1
  omega

theorem length_lt_of_dropSpace {cs rest : List Char} {c : Char} (h : dropSpace cs = c :: rest) :
    rest.length < cs.length := by
  have hle : (dropSpace cs).length ≤ cs.length := List.length_dropWhile_le ..
  rw [h, List.length_cons] at hle
  omega

/-- A value that is spelled out is passed over in one step. -/
theorem passes_literal {stack : List Bool} {cs rest : List Char} {c : Char} (letters : List Char)
    (hcs : dropSpace cs = c :: (letters ++ rest))
    (hpass : ∀ fuel, pass (fuel + 1) stack .value cs = pass fuel stack .next rest) :
    Passes ⟨stack, .value, cs⟩ ⟨stack, .next, rest⟩ := by
  refine .step ?_ hpass
  have hlt := length_lt_of_dropSpace hcs
  rw [List.length_append] at hlt
  show rest.length < cs.length
  omega

/-- A string is passed over in one step. -/
theorem passes_text {stack : List Bool} {cs rest s more : List Char}
    (hcs : dropSpace cs = '"' :: rest) (h : readText rest = some (s, more)) :
    Passes ⟨stack, .value, cs⟩ ⟨stack, .next, more⟩ := by
  have hpass := passText_of_readText rest h
  refine .step ((length_lt_of_passText rest hpass).trans (length_lt_of_dropSpace hcs)) fun fuel => ?_
  simp only [Position.pass, pass, hcs, hpass, Option.bind_some]

theorem length_lt_of_readNumeral {cs rest : List Char} {n : Numeral}
    (h : Numeral.read cs = some (n, rest)) : rest.length < cs.length := by
  obtain ⟨c, piece, rfl, -, -⟩ := Numeral.read_eq_some h
  simp only [List.cons_append, List.length_cons, List.length_append]
  omega

/-- Whether what is read with some fuel is passed over, whatever else is open. -/
structure ReadPasses (fuel : Nat) : Prop where
  value : ∀ depth cs v rest, readValue fuel depth .whole cs = some (v, rest) →
    ∀ stack, Passes ⟨stack, .value, cs⟩ ⟨stack, .next, rest⟩
  items : ∀ depth index cs items rest, readItems fuel depth .whole index cs = some (items, rest) →
    ∀ stack, Passes ⟨false :: stack, .value, cs⟩ ⟨stack, .next, rest⟩
  fields : ∀ depth cs fields rest, readFields fuel depth .whole cs = some (fields, rest) →
    ∀ stack, Passes ⟨true :: stack, .field, cs⟩ ⟨stack, .next, rest⟩

theorem ReadPasses.value_succ {fuel depth : Nat} (ih : ReadPasses fuel) {cs rest : List Char}
    {v : Value} (h : readValue (fuel + 1) depth .whole cs = some (v, rest)) (stack : List Bool) :
    Passes ⟨stack, .value, cs⟩ ⟨stack, .next, rest⟩ := by
  rw [readValue.eq_def] at h
  simp only at h
  split at h
  · -- an array
    rename_i hcs
    split at h
    · cases h
    · split at h
      · rename_i hclose
        cases h
        refine .step ((length_lt_of_dropSpace hclose).trans (length_lt_of_dropSpace hcs))
          fun fuel => ?_
        simp only [Position.pass, pass, hcs, hclose]
      · obtain ⟨⟨items, rest'⟩, hread, hv⟩ := Option.map_eq_some_iff.1 h
        cases hv
        refine .trans (.step ?_ fun fuel => ?_) (ih.items _ _ _ _ _ hread stack)
        · exact Nat.lt_of_le_of_lt (List.length_dropWhile_le ..) (length_lt_of_dropSpace hcs)
        · simp only [Position.pass, pass, hcs]
  · -- an object
    rename_i hcs
    split at h
    · cases h
    · split at h
      · rename_i hclose
        cases h
        refine .step ((length_lt_of_dropSpace hclose).trans (length_lt_of_dropSpace hcs))
          fun fuel => ?_
        simp only [Position.pass, pass, hcs, hclose]
      · obtain ⟨⟨fields, rest'⟩, hread, hv⟩ := Option.map_eq_some_iff.1 h
        cases hv
        refine .trans (.step ?_ fun fuel => ?_) (ih.fields _ _ _ _ hread stack)
        · exact Nat.lt_of_le_of_lt (List.length_dropWhile_le ..) (length_lt_of_dropSpace hcs)
        · simp only [Position.pass, pass, hcs]
  · -- a text
    rename_i hcs
    obtain ⟨⟨s, rest'⟩, htext, hv⟩ := Option.map_eq_some_iff.1 h
    cases hv
    exact passes_text hcs htext
  · -- null, true and false
    rename_i hcs
    cases h
    exact passes_literal ['u', 'l', 'l'] hcs fun fuel => by simp only [pass, hcs]
  · rename_i hcs
    cases h
    exact passes_literal ['r', 'u', 'e'] hcs fun fuel => by simp only [pass, hcs]
  · rename_i hcs
    cases h
    exact passes_literal ['a', 'l', 's', 'e'] hcs fun fuel => by simp only [pass, hcs]
  · -- a number
    obtain ⟨⟨n, rest'⟩, hread, hv⟩ := Option.bind_eq_some_iff.1 h
    obtain ⟨v', -, hpair⟩ := Option.map_eq_some_iff.1 hv
    cases hpair
    refine .step ?_ fun fuel => ?_
    · exact Nat.lt_of_lt_of_le (length_lt_of_readNumeral hread) (List.length_dropWhile_le ..)
    · simp only [Position.pass, pass, hread, Option.bind_some]

theorem ReadPasses.items_succ {fuel depth index : Nat} (ih : ReadPasses fuel) {cs rest : List Char}
    {items : List Value} (h : readItems (fuel + 1) depth .whole index cs = some (items, rest))
    (stack : List Bool) : Passes ⟨false :: stack, .value, cs⟩ ⟨stack, .next, rest⟩ := by
  rw [readItems.eq_def] at h
  obtain ⟨⟨v, rest₁⟩, hv, hmore⟩ := Option.bind_eq_some_iff.1 h
  refine .trans (ih.value _ _ _ _ hv (false :: stack)) ?_
  -- a comma, and further items, or the closing bracket
  simp only at hmore
  split at hmore
  · rename_i hcs
    obtain ⟨⟨others, rest₂⟩, hothers, hitems⟩ := Option.map_eq_some_iff.1 hmore
    cases hitems
    refine .trans (.step (length_lt_of_dropSpace hcs) fun fuel => ?_)
      (ih.items _ _ _ _ _ hothers stack)
    simp only [Position.pass, pass, hcs]
    rfl
  · rename_i hcs
    cases hmore
    refine .step (length_lt_of_dropSpace hcs) fun fuel => ?_
    simp only [Position.pass, pass, hcs]
    rfl
  · cases hmore

theorem ReadPasses.fields_succ {fuel depth : Nat} (ih : ReadPasses fuel) {cs rest : List Char}
    {fields : Fields} (h : readFields (fuel + 1) depth .whole cs = some (fields, rest))
    (stack : List Bool) : Passes ⟨true :: stack, .field, cs⟩ ⟨stack, .next, rest⟩ := by
  rw [readFields.eq_def] at h
  simp only at h
  split at h
  case h_2 => cases h
  rename_i hcs
  obtain ⟨⟨name, rest₁⟩, htext, hname⟩ := Option.bind_eq_some_iff.1 h
  simp only at hname
  split at hname
  case h_2 => cases hname
  rename_i hcolon
  obtain ⟨⟨entry, rest₂⟩, hentry, hmore⟩ := Option.bind_eq_some_iff.1 hname
  obtain ⟨⟨v, rest₃⟩, hv, hpair⟩ := Option.map_eq_some_iff.1 hentry
  cases hpair
  -- the name with its colon, then the value
  refine .trans (.step ?_ fun fuel => ?_) (.trans (ih.value _ _ _ _ hv (true :: stack)) ?_)
  · have hlt := length_lt_of_passText _ (passText_of_readText _ htext)
    exact ((length_lt_of_dropSpace hcolon).trans hlt).trans (length_lt_of_dropSpace hcs)
  · simp only [Position.pass, pass, passName, hcs, passText_of_readText _ htext, Option.map_some,
      hcolon, Option.bind_some]
  -- a comma, and further fields, or the closing brace
  simp only at hmore
  split at hmore
  · rename_i hnext
    obtain ⟨⟨others, rest₄⟩, hothers, hfields⟩ := Option.map_eq_some_iff.1 hmore
    cases hfields
    refine .trans (.step (length_lt_of_dropSpace hnext) fun fuel => ?_)
      (ih.fields _ _ _ _ hothers stack)
    simp only [Position.pass, pass, hnext]
    rfl
  · rename_i hnext
    cases hmore
    refine .step (length_lt_of_dropSpace hnext) fun fuel => ?_
    simp only [Position.pass, pass, hnext]
    rfl
  · cases hmore

/-- What is read is passed over, by induction on the fuel, for values, items and fields at once. -/
theorem readPasses (fuel : Nat) : ReadPasses fuel := by
  induction fuel with
  | zero =>
    constructor
    · intro depth cs v rest h
      rw [readValue.eq_def] at h
      cases h
    · intro depth index cs items rest h
      rw [readItems.eq_def] at h
      cases h
    · intro depth cs fields rest h
      rw [readFields.eq_def] at h
      cases h
  | succ fuel ih =>
    exact ⟨fun _ _ _ _ h => ih.value_succ h, fun _ _ _ _ _ h => ih.items_succ h,
      fun _ _ _ _ h => ih.fields_succ h⟩

theorem passValue_of_readValue {fuel depth : Nat} {cs rest : List Char} {v : Value}
    (h : readValue fuel depth .whole cs = some (v, rest)) : passValue cs = some rest :=
  passValue_of_passes ((readPasses fuel).value _ _ _ _ h [])

/-! ## What is left under a shape -/

namespace Shape

mutual

/-- A value without the fields that are passed over under a shape. -/
def cut (shape : Shape) : Value → Value
  | .array items => .array (cutItems shape 0 items)
  | .object fields => .object (cutFields shape fields)
  | .null => .null
  | .bool b => .bool b
  | .natural n => .natural n
  | .integer i => .integer i
  | .float x => .float x
  | .text s => .text s
termination_by structural v => v

/-- Items from number `index` on without them. -/
def cutItems (shape : Shape) (index : Nat) : List Value → List Value
  | [] => []
  | v :: rest => (shape.item index).cut v :: cutItems shape (index + 1) rest
termination_by structural items => items

/-- Fields without those that are passed over, and without those in them. -/
def cutFields (shape : Shape) : List (String × Value) → List (String × Value)
  | [] => []
  | (name, v) :: rest =>
    match shape.field name with
    | none => cutFields shape rest
    | some s => (name, s.cut v) :: cutFields shape rest
termination_by structural fields => fields

end

theorem cutFields_append (shape : Shape) (fields more : Fields) :
    shape.cutFields (fields ++ more) = shape.cutFields fields ++ shape.cutFields more := by
  induction fields with
  | nil => rfl
  | cons f rest ih =>
    obtain ⟨name, v⟩ := f
    rw [List.cons_append, cutFields, cutFields, ih]
    cases shape.field name <;> rfl

/-- A number stays as it is. -/
theorem cut_of_value? {shape : Shape} {n : Numeral} {v : Value} (h : n.value? = some v) :
    shape.cut v = v := by
  have hfloat : ∀ x : Option Float, x.map Value.float = some v → shape.cut v = v := by
    intro x hx
    obtain ⟨x, -, rfl⟩ := Option.map_eq_some_iff.1 hx
    rfl
  simp only [Numeral.value?] at h
  split at h
  · exact hfloat _ h
  · split at h
    · split at h
      · cases h
        rfl
      · exact hfloat _ h
    · split at h
      · cases h
        rfl
      · exact hfloat _ h

/-- Whether under any shape a reader with some fuel gets as far as the reader of whole values, with what
    is left of these. -/
structure ReadsCut (fuel : Nat) : Prop where
  value : ∀ depth cs v rest, readValue fuel depth .whole cs = some (v, rest) →
    ∀ shape, readValue fuel depth shape cs = some (shape.cut v, rest)
  items : ∀ depth index index' cs items rest,
    readItems fuel depth .whole index' cs = some (items, rest) →
    ∀ shape, readItems fuel depth shape index cs = some (shape.cutItems index items, rest)
  fields : ∀ depth cs fields rest, readFields fuel depth .whole cs = some (fields, rest) →
    ∀ shape, readFields fuel depth shape cs = some (shape.cutFields fields, rest)

theorem ReadsCut.value_succ {fuel depth : Nat} (ih : ReadsCut fuel) {cs rest : List Char} {v : Value}
    (h : readValue (fuel + 1) depth .whole cs = some (v, rest)) (shape : Shape) :
    readValue (fuel + 1) depth shape cs = some (shape.cut v, rest) := by
  rw [readValue.eq_def] at h ⊢
  simp only at h ⊢
  split at h
  · -- an array
    split at h
    · cases h
    · rename_i hdepth
      rw [if_neg hdepth]
      split at h
      · cases h
        rfl
      · obtain ⟨⟨items, rest'⟩, hread, hv⟩ := Option.map_eq_some_iff.1 h
        cases hv
        simp only [ih.items _ 0 _ _ _ _ hread shape, Option.map_some, cut]
  · -- an object
    split at h
    · cases h
    · rename_i hdepth
      rw [if_neg hdepth]
      split at h
      · cases h
        rfl
      · obtain ⟨⟨fields, rest'⟩, hread, hv⟩ := Option.map_eq_some_iff.1 h
        cases hv
        simp only [ih.fields _ _ _ _ hread shape, Option.map_some, cut]
  · -- a text
    obtain ⟨⟨s, rest'⟩, htext, hv⟩ := Option.map_eq_some_iff.1 h
    cases hv
    simp only [htext, Option.map_some, cut]
  · -- null, true and false
    cases h
    rfl
  · cases h
    rfl
  · cases h
    rfl
  · -- a number
    obtain ⟨⟨n, rest'⟩, hread, hv⟩ := Option.bind_eq_some_iff.1 h
    obtain ⟨v', hv', hpair⟩ := Option.map_eq_some_iff.1 hv
    cases hpair
    simp only [hread, Option.bind_some, hv', Option.map_some, cut_of_value? hv']

theorem ReadsCut.items_succ {fuel depth index index' : Nat} (ih : ReadsCut fuel)
    {cs rest : List Char} {items : List Value}
    (h : readItems (fuel + 1) depth .whole index' cs = some (items, rest)) (shape : Shape) :
    readItems (fuel + 1) depth shape index cs = some (shape.cutItems index items, rest) := by
  rw [readItems.eq_def] at h ⊢
  obtain ⟨⟨v, rest₁⟩, hv, hmore⟩ := Option.bind_eq_some_iff.1 h
  simp only [ih.value _ _ _ _ hv (shape.item index), Option.bind_some]
  simp only at hmore
  split at hmore
  · obtain ⟨⟨others, rest₂⟩, hothers, hitems⟩ := Option.map_eq_some_iff.1 hmore
    cases hitems
    simp only [ih.items _ (index + 1) _ _ _ _ hothers shape, Option.map_some, cutItems]
  · cases hmore
    simp only [cutItems]
  · cases hmore

theorem ReadsCut.fields_succ {fuel depth : Nat} (ih : ReadsCut fuel) {cs rest : List Char}
    {fields : Fields} (h : readFields (fuel + 1) depth .whole cs = some (fields, rest))
    (shape : Shape) :
    readFields (fuel + 1) depth shape cs = some (shape.cutFields fields, rest) := by
  rw [readFields.eq_def] at h ⊢
  simp only at h ⊢
  split at h
  case h_2 => cases h
  obtain ⟨⟨name, rest₁⟩, htext, hname⟩ := Option.bind_eq_some_iff.1 h
  simp only [htext, Option.bind_some]
  simp only at hname
  split at hname
  case h_2 => cases hname
  obtain ⟨⟨entry, rest₂⟩, hentry, hmore⟩ := Option.bind_eq_some_iff.1 hname
  obtain ⟨⟨v, rest₃⟩, hv, hpair⟩ := Option.map_eq_some_iff.1 hentry
  cases hpair
  refine Option.bind_eq_some_iff.2 ⟨(shape.cutFields [(String.ofList name, v)], rest₃), ?_, ?_⟩
  · -- a field that is passed over adds nothing, any other one what is left of its value
    rw [cutFields]
    cases hs : shape.field (String.ofList name) with
    | none =>
      simp only [passValue_of_readValue hv, Option.map_some]
      rfl
    | some s =>
      simp only [ih.value _ _ _ _ hv s, Option.map_some]
      rfl
  · simp only at hmore ⊢
    split at hmore
    · obtain ⟨⟨others, rest₄⟩, hothers, hfields⟩ := Option.map_eq_some_iff.1 hmore
      cases hfields
      simp only [ih.fields _ _ _ _ hothers shape, Option.map_some, ← cutFields_append]
    · cases hmore
      rfl
    · cases hmore

/-- Under any shape the reader gets as far as the reader of whole values, by induction on the fuel. -/
theorem readsCut (fuel : Nat) : ReadsCut fuel := by
  induction fuel with
  | zero =>
    constructor
    · intro depth cs v rest h
      rw [readValue.eq_def] at h
      cases h
    · intro depth index index' cs items rest h
      rw [readItems.eq_def] at h
      cases h
    · intro depth cs fields rest h
      rw [readFields.eq_def] at h
      cases h
  | succ fuel ih =>
    exact ⟨fun _ _ _ _ h => ih.value_succ h, fun _ _ _ _ _ _ h => ih.items_succ h,
      fun _ _ _ _ h => ih.fields_succ h⟩

end Shape

/-- A text that can be read as a whole is read under any shape as what is left of its value. -/
theorem read_cut {text : String} {v : Value} (h : read .whole text = some v) (shape : Shape) :
    read shape text = some (shape.cut v) := by
  obtain ⟨⟨v', rest⟩, hread, hv⟩ := Option.bind_eq_some_iff.1 h
  simp only at hv
  split at hv
  · rename_i hrest
    cases hv
    rw [read, readWithin]
    simp only [(Shape.readsCut _).value _ _ _ _ hread shape, Option.bind_some, hrest, if_true]
  · cases hv

/-- A value without numbers is read back under a shape that passes over nothing in it. -/
theorem read_text {shape : Shape} {v : Value} (hplain : Plain v) (hnest : v.nesting ≤ nestingLimit)
    (hcut : shape.cut v = v) : read shape (text v) = some v := by
  rw [read_cut (readWithin_text hplain hplain.denotable hnest), hcut]

end OperationCatalog.Json
