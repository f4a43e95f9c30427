import OperationCatalog.Value

/-!
# TOML tables

How the keys and headers of a document put its tables together.  A table that is only named on the way
to another one is implicit and may still get a header of its own; one that dotted keys made may only
get further dotted keys.
-/

namespace OperationCatalog.Toml

/-- A table with entries `τ`. -/
structure Table (τ : Type) where
  /-- It was only named on the way to another table. -/
  implicit : Bool
  /-- It was made by a dotted key. -/
  dotted : Bool
  entries : List (String × τ)

/-- What stands under a key: a value, a table, or an array of tables, the last one first. -/
inductive Item where
  | value (v : Value)
  | table (t : Table Item)
  | tables (ts : List (Table Item))

namespace Table

/-- A table that has just got its header. -/
def new : Table Item := ⟨false, false, []⟩

/-- The table with an item under a key. -/
def put (key : String) (item : Item) (t : Table Item) : Table Item :=
  { t with entries := Entries.put key item t.entries }

/-- Changes the table at the end of a path, where the last table of an array of tables counts.  Tables
that are missing on the way are made.  Dotted keys may not pass through tables with a header. -/
def change (dotted : Bool) (f : Table Item → Option (Table Item)) :
    List String → Table Item → Option (Table Item)
  | [], t => f t
  | key :: rest, t =>
    match t.entries.lookup key with
    | none => (change dotted f rest ⟨true, dotted, []⟩).map fun s => t.put key (.table s)
    | some (.value _) => none
    | some (.table s) =>
      if dotted && !s.implicit then none
      else (change dotted f rest s).map fun s => t.put key (.table s)
    | some (.tables []) => none
    | some (.tables (s :: older)) =>
      (change dotted f rest s).map fun s => t.put key (.tables (s :: older))

/-- The table with a value under a key that is free.  A table that a dotted key ends in must have been
made by dotted keys. -/
def addPair (t : Table Item) (pair : List String × Value) : Option (Table Item) :=
  let path := pair.1.dropLast
  let key := pair.1.getLast?.getD ""
  t.change true (fun s =>
    if s.dotted = path.isEmpty || (s.entries.lookup key).isSome then none
    else some (s.put key (.value pair.2))) path

mutual

/-- The value that an item stands for. -/
def itemValue : Item → Value
  | .value v => v
  | .table t => .object (entriesFields t.entries)
  | .tables ts => .array (tablesValues ts).reverse
termination_by structural item => item

/-- The fields that entries stand for. -/
def entriesFields : List (String × Item) → List (String × Value)
  | [] => []
  | (key, item) :: rest => (key, itemValue item) :: entriesFields rest
termination_by structural entries => entries

/-- The values that tables stand for. -/
def tablesValues : List (Table Item) → List Value
  | [] => []
  | t :: rest => .object (entriesFields t.entries) :: tablesValues rest
termination_by structural ts => ts

end

/-- The value that a table stands for. -/
def toValue (t : Table Item) : Value := itemValue (.table t)

end Table

/-- The value of an inline table with these pairs. -/
def inlineTable? (pairs : List (List String × Value)) : Option Value :=
  (pairs.foldlM Table.addPair Table.new).map Table.toValue

/-- A part of a document: the header it stands under, and its pairs. -/
structure Part where
  path : List String
  /-- The header adds a table to an array of tables. -/
  element : Bool
  pairs : List (List String × Value)

namespace Part

/-- The table that the part starts from, given what stands under its last key so far: nothing, or an
implicit table that no dotted key made. -/
def start? : Option Item → Option (Table Item)
  | none => some Table.new
  | some (.table t) =>
    if t.implicit && !t.dotted then some { t with implicit := false } else none
  | some _ => none

/-- The tables that come before a new one of an array of tables. -/
def older? : Option Item → Option (List (Table Item))
  | none => some []
  | some (.tables ts) => some ts
  | some _ => none

/-- The table of the whole document with one more part. -/
def add (root : Table Item) (part : Part) : Option (Table Item) :=
  match part.path.getLast? with
  | none => part.pairs.foldlM Table.addPair root
  | some key =>
    root.change false (fun parent => do
      let old := parent.entries.lookup key
      if part.element then
        let older ← older? old
        let t ← part.pairs.foldlM Table.addPair Table.new
        return parent.put key (.tables (t :: older))
      else
        let t ← part.pairs.foldlM Table.addPair (← start? old)
        return parent.put key (.table t)) part.path.dropLast

end Part

/-- The value of a document with these parts. -/
def documentValue? (parts : List Part) : Option Value :=
  (parts.foldlM Part.add Table.new).map Table.toValue

end OperationCatalog.Toml
