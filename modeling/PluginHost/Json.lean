/-!
# JSON values

A value as it is written: members keep their order and their repetitions, and numbers keep
their digits.  A string is text unless one of its escapes names half of a surrogate pair, and
then it spells nothing.
-/

namespace PluginHost

/-- A JSON value, as written. -/
inductive Json where
  | null
  | bool (b : Bool)
  | number (digits : String)
  | string (text : Option String)
  | array (items : List Json)
  | object (members : List (Option String × Json))
  deriving Repr, Inhabited

end PluginHost
