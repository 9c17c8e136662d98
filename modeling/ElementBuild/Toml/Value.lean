/-
# TOML values

Tables keep the order of their keys.  Floats are kept as they are written and dates
as they are shown: nothing is computed with them.  A date may stand where a table is
asked for; it is a table with one reserved key then.
-/

namespace ElementBuild

/-- A TOML value. -/
inductive Toml where
  | string (s : String)
  | integer (n : Int)
  | float (text : String)
  | bool (b : Bool)
  | date (text : String)
  | array (items : List Toml)
  | table (entries : List (String × Toml))
  deriving Repr, Inhabited

namespace Toml

/-- The text of a string. -/
def string? : Toml → Option String
  | string s => some s
  | _ => none

/-- The truth value of a boolean. -/
def bool? : Toml → Option Bool
  | bool b => some b
  | _ => none

/-- The items of an array. -/
def items? : Toml → Option (List Toml)
  | array items => some items
  | _ => none

/-- The reserved key of a date. -/
def dateKey : String := "$__toml_private_datetime"

/-- The entries of a table. -/
def entries? : Toml → Option (List (String × Toml))
  | table entries => some entries
  | date text => some [(dateKey, string text)]
  | _ => none

/-- The value under a key. -/
def member? (entries : List (String × Toml)) (key : String) : Option Toml :=
  (entries.find? (·.1 == key)).map (·.2)

end Toml
end ElementBuild
