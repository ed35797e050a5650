/-!
Documents: values as configuration texts hold them. A scalar without quotes stays as it is written,
since what it means depends on where it stands.
-/

namespace ServiceGovernance

inductive Document where
  | null
  | bool (value : Bool)
  | integer (value : Int)
  | bare (word : String)
  | text (word : String)
  | list (items : List Document)
  | record (fields : List (Document × Document))
deriving Inhabited

end ServiceGovernance
