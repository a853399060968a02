/-!
Why a resource, a value or a document could not be used.
-/

set_option autoImplicit false
set_option relaxedAutoImplicit false

namespace LayerTree

/-- The causes of failure, each with the detail that its message ends in. -/
inductive Failure where
  /-- An address could not be resolved, mapped or opened. -/
  | missingResource (detail : String)
  /-- A field has the wrong type or form. -/
  | malformed (detail : String)
  /-- A prototype or a path is not known by this name. -/
  | unresolved (detail : String)
  /-- A document is well formed but not what it should be. -/
  | invalid (detail : String)
  | notData (detail : String)
  /-- A file or its content could not be read; the detail is the whole message. -/
  | unreadable (detail : String)
  deriving DecidableEq

namespace Failure

def message : Failure → String
  | missingResource detail => "missing resource: " ++ detail
  | malformed detail => "malformed value: " ++ detail
  | unresolved detail => "unresolved reference: " ++ detail
  | invalid detail => "validation error: " ++ detail
  | notData detail => "serialization error: " ++ detail
  | unreadable detail => detail

end Failure

end LayerTree
