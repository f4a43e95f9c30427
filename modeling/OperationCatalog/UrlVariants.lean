/-!
# Variants of a URL

An evaluated URL may have optional parts in brackets.  `expand` drops the query and gives the variant
with the optional parts and the one without them, or the path alone if it has none.
-/

namespace OperationCatalog.UrlVariants

/-- The part of a URL before its query. -/
def path (url : List Char) : List Char := url.takeWhile (· ≠ '?')

/-- The path without brackets, what is in them kept. -/
def full (path : List Char) : List Char := path.filter fun c => c ≠ '[' && c ≠ ']'

/-- The path without its optional parts: each goes from an opening bracket to the next closing one and
the closing ones directly behind.  An opening bracket that is never closed stays, with all after
it. -/
def minimal (path : List Char) : List Char :=
  match path with
  | [] => []
  | c :: rest =>
    if c = '[' then
      let close := rest.dropWhile (· ≠ ']')
      if close.isEmpty then c :: rest
      else minimal (close.dropWhile (· = ']'))
    else c :: minimal rest
termination_by path.length
decreasing_by
  · have h₁ : ((rest.dropWhile (· ≠ ']')).dropWhile (· = ']')).length ≤
        (rest.dropWhile (· ≠ ']')).length := (List.dropWhile_suffix _).length_le
    have h₂ : (rest.dropWhile (· ≠ ']')).length ≤ rest.length :=
      (List.dropWhile_suffix _).length_le
    simp only [List.length_cons]
    omega
  · simp

/-- The variants of a URL. -/
def expand (url : String) : List String :=
  let p := path url.toList
  if p.contains '[' then [String.ofList (full p), String.ofList (minimal p)] else [String.ofList p]

end OperationCatalog.UrlVariants
