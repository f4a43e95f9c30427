import OperationCatalog.Text.CaseTable

/-!
# Upper and lower case

The full case mappings: a character may map to several (`ß` to `SS`, `İ` to `i` and a dot above),
and when a whole text is lower-cased a capital sigma at the end of a word becomes `ς`.  ASCII letters
need no table.
-/

namespace OperationCatalog.Text

/-- The text that the tables give for a character outside ASCII; one that is in neither table maps to
itself. -/
def mapCase (runs : List CaseRun) (sequences : List (Nat × List Nat)) (c : Char) : List Char :=
  match runs.findSome? (·.map? c.toNat) with
  | some n => [Char.ofNat n]
  | none =>
    match sequences.lookup c.toNat with
    | some ns => ns.map Char.ofNat
    | none => [c]

/-- The lower case of one character by itself. -/
def lowerChar (c : Char) : List Char :=
  if c.toNat < 0x80 then [c.toLower] else mapCase lowerRuns lowerSequences c

/-- The upper case of one character. -/
def upperChar (c : Char) : List Char :=
  if c.toNat < 0x80 then [c.toUpper] else mapCase upperRuns upperSequences c

/-- Whether the first character that is not to be passed over is a letter with case. -/
def startsCased (cs : List Char) : Bool :=
  match cs.dropWhile ignorableRanges.holds with
  | [] => false
  | c :: _ => casedRanges.holds c

/-- The lower case of a text whose part before it, last character first, is `before`: a capital sigma
stands at the end of a word if a letter comes before it and none after it. -/
def lowerFrom (before : List Char) : List Char → List Char
  | [] => []
  | c :: rest =>
    (if c = 'Σ' then [if startsCased before && !startsCased rest then 'ς' else 'σ']
     else lowerChar c) ++ lowerFrom (c :: before) rest

/-- The lower case of a whole text. -/
def lowerChars (cs : List Char) : List Char := lowerFrom [] cs

/-- The upper case of a whole text. -/
def upperChars (cs : List Char) : List Char := cs.flatMap upperChar

/-- The lower case of a whole text. -/
def lower (s : String) : String := String.ofList (lowerChars s.toList)

/-- The upper case of a whole text. -/
def upper (s : String) : String := String.ofList (upperChars s.toList)

/-- The text with its first character lower-cased, by itself, and the others left alone. -/
def lowerFirst : List Char → List Char
  | [] => []
  | c :: rest => lowerChar c ++ rest

/-- Whether two texts are the same but for the case of ASCII letters. -/
def sameIgnoringCase (s t : String) : Bool :=
  s.toList.map Char.toLower == t.toList.map Char.toLower

end OperationCatalog.Text
