import OperationCatalog.Text.Case
import OperationCatalog.Text.Trim

/-!
# Verbs

The verb of a method: one of the common ones, or any other text in upper case.
-/

namespace OperationCatalog

/-- The verb of a method. -/
inductive Verb where
  | get
  | post
  | put
  | delete
  | head
  | patch
  | options
  | other (text : String)
  deriving DecidableEq

namespace Verb

/-- The verbs with a name of their own. -/
def common : List Verb := [.get, .post, .put, .delete, .head, .patch, .options]

/-- The text of a verb. -/
def text : Verb → String
  | .get => "GET"
  | .post => "POST"
  | .put => "PUT"
  | .delete => "DELETE"
  | .head => "HEAD"
  | .patch => "PATCH"
  | .options => "OPTIONS"
  | .other text => text

/-- The text that a verb is handed over as: a text that was kept is that of the verb, and the others are
named. -/
def handedOver : Verb → String
  | .other text => text
  | known => known.text

/-- The verb with exactly this text. -/
def ofCanonical (text : String) : Verb :=
  (common.find? (·.text = text)).getD (.other text)

/-- The verb that a text denotes, without regard to its case and the white space around it. -/
def ofText (text : String) : Verb := ofCanonical (Text.upper (Text.trim text))

end Verb

end OperationCatalog
