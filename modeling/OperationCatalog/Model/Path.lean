import OperationCatalog.Text.Case

/-!
# Paths of models

The extension of a file name decides the format of a model.
-/

namespace OperationCatalog.Model

/-- The parts of a path between its slashes, without the empty ones and the dots that mean "here". -/
def components (path : String) : List (List Char) :=
  (path.toList.splitOn '/').filter fun part => !part.isEmpty && part ≠ ['.']

/-- The extension of a path: what follows the last dot of its last component.  A dot that the component
begins with does not count, and the step to the directory above has none. -/
def extension? (path : String) : Option String :=
  match (components path).getLast? with
  | none => none
  | some ['.', '.'] => none
  | some part =>
    let reversed := part.reverse
    match reversed.dropWhile (· ≠ '.') with
    | [] | ['.'] => none
    | _ => some (String.ofList (reversed.takeWhile (· ≠ '.')).reverse)

/-- The formats of models. -/
inductive Format where
  | json
  | toml
  deriving DecidableEq

/-- The format of a file: JSON by the extension `json` in any case, otherwise TOML. -/
def Format.ofPath (path : String) : Format :=
  if (extension? path).any (Text.sameIgnoringCase · "json") then .json else .toml

end OperationCatalog.Model
