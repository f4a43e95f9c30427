import OperationCatalog.Text.Digit

/-!
# JSON strings

`readText` reads a string after its opening quote, `writeText` writes one with both quotes.  The
characters below the blank must be escaped; the code points beyond the first plane may be written as a
pair of surrogate escapes, and half a pair stands for nothing.
-/

namespace OperationCatalog.Json

/-- The code unit that four hexadecimal digits stand for, and what follows them. -/
def readUnit : List Char → Option (Nat × List Char)
  | a :: b :: c :: d :: rest => (Text.hexadecimal? [a, b, c, d]).map fun n => (n, rest)
  | _ => none

/-- The character that an escape denotes by one letter. -/
def letterEscape? : Char → Option Char
  | '"' => some '"'
  | '\\' => some '\\'
  | '/' => some '/'
  | 'b' => some '\x08'
  | 'f' => some '\x0C'
  | 'n' => some '\n'
  | 'r' => some '\r'
  | 't' => some '\t'
  | _ => none

/-- The second half of a surrogate pair, with its backslash. -/
def readTrailUnit : List Char → Option (Nat × List Char)
  | '\\' :: 'u' :: rest =>
    (readUnit rest).bind fun (n, rest) => if 0xDC00 ≤ n ∧ n < 0xE000 then some (n, rest) else none
  | _ => none

/-- The character of an escape, after its backslash. -/
def readEscape : List Char → Option (Char × List Char)
  | [] => none
  | 'u' :: rest =>
    (readUnit rest).bind fun (n, rest) =>
      if 0xD800 ≤ n ∧ n < 0xDC00 then
        (readTrailUnit rest).bind fun (t, rest) =>
          (Text.charOfNat? (0x10000 + (n - 0xD800) * 0x400 + (t - 0xDC00))).map (·, rest)
      else (Text.charOfNat? n).map (·, rest)
  | c :: rest => (letterEscape? c).map (·, rest)

theorem readUnit_length {cs rest : List Char} {n : Nat} (h : readUnit cs = some (n, rest)) :
    rest.length < cs.length := by
  unfold readUnit at h
  split at h
  · obtain ⟨_, _, he⟩ := Option.map_eq_some_iff.1 h
    cases he
    simp only [List.length_cons]
    omega
  · cases h

theorem readTrailUnit_length {cs rest : List Char} {n : Nat}
    (h : readTrailUnit cs = some (n, rest)) : rest.length < cs.length := by
  unfold readTrailUnit at h
  split at h
  · obtain ⟨⟨m, r⟩, hm, he⟩ := Option.bind_eq_some_iff.1 h
    have := readUnit_length hm
    dsimp only at he
    split at he
    · cases he
      simp only [List.length_cons]
      omega
    · cases he
  · cases h

/-- An escape is at least one character long. -/
theorem readEscape_length {cs rest : List Char} {c : Char} (h : readEscape cs = some (c, rest)) :
    rest.length < cs.length := by
  unfold readEscape at h
  split at h
  · cases h
  · obtain ⟨⟨n, r⟩, hn, he⟩ := Option.bind_eq_some_iff.1 h
    have := readUnit_length hn
    dsimp only at he
    split at he
    · obtain ⟨⟨t, r'⟩, ht, he⟩ := Option.bind_eq_some_iff.1 he
      have := readTrailUnit_length ht
      obtain ⟨_, _, he⟩ := Option.map_eq_some_iff.1 he
      cases he
      simp only [List.length_cons]
      omega
    · obtain ⟨_, _, he⟩ := Option.map_eq_some_iff.1 he
      cases he
      simp only [List.length_cons]
      omega
  · obtain ⟨_, _, he⟩ := Option.map_eq_some_iff.1 h
    cases he
    simp

/-- The characters up to the closing quote, escapes resolved, and what comes after it. -/
def readText (cs : List Char) : Option (List Char × List Char) :=
  match cs with
  | [] => none
  | '"' :: rest => some ([], rest)
  | '\\' :: rest =>
    match h : readEscape rest with
    | none => none
    | some (c, after) =>
      have := readEscape_length h
      (readText after).map fun (s, rest) => (c :: s, rest)
  | c :: rest =>
    if c < ' ' then none else (readText rest).map fun (s, rest) => (c :: s, rest)
termination_by cs.length

/-- What follows the closing quote of a string whose escapes need only be well formed, one by one. -/
def passText : List Char → Option (List Char)
  | [] => none
  | '"' :: rest => some rest
  | '\\' :: 'u' :: a :: b :: c :: d :: rest =>
    if (Text.hexadecimal? [a, b, c, d]).isSome then passText rest else none
  | '\\' :: c :: rest => if (letterEscape? c).isSome then passText rest else none
  | c :: rest => if c < ' ' then none else passText rest

/-- A digit of the lower-case hexadecimal notation. -/
def hexChar (n : Nat) : Char := if n < 10 then Char.ofNat (48 + n) else Char.ofNat (87 + n)

/-- A character as it stands in a written string. -/
def writeChar (c : Char) : List Char :=
  match c with
  | '"' => ['\\', '"']
  | '\\' => ['\\', '\\']
  | '\x08' => ['\\', 'b']
  | '\x0C' => ['\\', 'f']
  | '\n' => ['\\', 'n']
  | '\r' => ['\\', 'r']
  | '\t' => ['\\', 't']
  | c =>
    if c < ' ' then ['\\', 'u', '0', '0', hexChar (c.toNat / 16), hexChar (c.toNat % 16)] else [c]

/-- A string with its quotes. -/
def writeText (s : List Char) : List Char := '"' :: s.flatMap writeChar ++ ['"']

end OperationCatalog.Json
