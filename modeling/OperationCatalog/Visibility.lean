import OperationCatalog.Text.Case

/-!
# Visible and hidden operations

Operations with certain words in their names are kept out of the catalog that is shown by default.
-/

namespace OperationCatalog

/-- Which of the two catalogs an operation goes to. -/
inductive Visibility where
  | visible
  | hidden
  deriving DecidableEq

namespace Visibility

/-- The words that hide an operation. -/
def hiddenFragments : List String :=
  ["backup", "restore", "discover", "slotConfigNames", "metrics", "repository", "usages", "clone",
   "getOperation", "register", "unregister"]

/-- Whether a text has `part` in it, one character after the other. -/
def hasPart (part : List Char) : List Char → Bool
  | [] => part.isEmpty
  | c :: rest => part.isPrefixOf (c :: rest) || hasPart part rest

/-- An operation is hidden if the lower case of its name has that of one of the words in it. -/
def ofName (name : String) : Visibility :=
  let lowered := (Text.lower name).toList
  if hiddenFragments.any fun fragment => hasPart (Text.lower fragment).toList lowered then .hidden
  else .visible

end Visibility

end OperationCatalog
