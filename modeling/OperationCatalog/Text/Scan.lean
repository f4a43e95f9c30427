/-!
# Scanners

A scanner takes a piece off the front of a text, or fails and takes nothing.
-/

namespace OperationCatalog

/-- A scanner of pieces that denote an `α`. -/
abbrev Scan := StateT (List Char) Option

namespace Scan

variable {α : Type}

/-- One character that satisfies `p`. -/
def satisfy (p : Char → Bool) : Scan Char
  | [] => none
  | c :: rest => if p c then some (c, rest) else none

/-- Exactly these characters. -/
def exactly : List Char → Scan Unit
  | [] => pure ()
  | c :: cs => do
    let _ ← satisfy (· = c)
    exactly cs

/-- The characters that satisfy `p`, as many as there are. -/
def run (p : Char → Bool) : Scan (List Char) := fun cs => some (cs.takeWhile p, cs.dropWhile p)

/-- The characters that satisfy `p`, at least one. -/
def someRun (p : Char → Bool) : Scan (List Char) := do
  let c ← satisfy p
  let cs ← run p
  return c :: cs

/-- Exactly `n` characters that satisfy `p`. -/
def count (p : Char → Bool) : Nat → Scan (List Char)
  | 0 => pure []
  | n + 1 => do
    let c ← satisfy p
    let cs ← count p n
    return c :: cs

/-- The piece, if it is there. -/
def maybe (piece : Scan α) : Scan (Option α) := fun cs =>
  match piece cs with
  | some (a, rest) => some (some a, rest)
  | none => some (none, cs)

/-- Takes nothing, and fails if the piece is not there. -/
def ahead (piece : Scan α) : Scan Unit := fun cs => (piece cs).map fun _ => ((), cs)

/-- Fails if the condition does not hold. -/
def require (holds : Bool) : Scan Unit := if holds then pure () else failure

/-- What an option holds; fails on `none`. -/
def orFail : Option α → Scan α
  | some a => pure a
  | none => failure

/-- As many pieces as there are, at most as many as there is fuel. -/
def manyWithin (piece : Scan α) : Nat → Scan (List α)
  | 0 => pure []
  | fuel + 1 => fun cs =>
    match piece cs with
    | none => some ([], cs)
    | some (a, rest) => (manyWithin piece fuel rest).map fun (as, rest) => (a :: as, rest)

/-- As many pieces as there are; each is at least one character long. -/
def many (piece : Scan α) : Scan (List α) := fun cs => manyWithin piece cs.length cs

/-- Pieces with a separator between each two, at least one piece. -/
def someSeparated (piece : Scan α) (separator : Scan Unit) : Scan (List α) := do
  let a ← piece
  let as ← many (separator *> piece)
  return a :: as

/-- Pieces with a separator between each two. -/
def separated (piece : Scan α) (separator : Scan Unit) : Scan (List α) :=
  someSeparated piece separator <|> pure []

/-- What the piece denotes if nothing comes after it. -/
def complete (piece : Scan α) (cs : List Char) : Option α :=
  match piece cs with
  | some (a, []) => some a
  | _ => none

end Scan

end OperationCatalog
