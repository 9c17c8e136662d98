/-
# JSON values

Numbers are kept as they are written: a natural number, a negative one, or a
double.  An object lists its members as they stand in the text; of members with
the same name the last one counts.
-/
import ElementBuild.Number.Decimal

namespace ElementBuild

/-- A number. -/
inductive JsonNumber where
  | natural (n : Nat)
  /-- Minus one more than a natural number. -/
  | negative (n : Nat)
  | double (isNegative : Bool) (x : Number.Binary)
  deriving DecidableEq, Repr

/-- A JSON value. -/
inductive Json where
  | null
  | bool (b : Bool)
  | number (n : JsonNumber)
  | string (s : String)
  | array (items : List Json)
  | object (members : List (String × Json))
  deriving Repr, Inhabited

namespace Json

/-- The last of the members with a name. -/
def lastMember? (members : List (String × Json)) (name : String) : Option Json :=
  (members.reverse.find? (·.1 == name)).map (·.2)

/-- The member of an object. -/
def member? : Json → String → Option Json
  | object members, name => lastMember? members name
  | _, _ => none

/-- The text of a string. -/
def string? : Json → Option String
  | string s => some s
  | _ => none

/-- Whether a value is `null`. -/
def isNull : Json → Bool
  | null => true
  | _ => false

/-- A member that may be left out or `null`, and has to be readable else. -/
def optional? {α : Type} (read? : Json → Option α) (members : List (String × Json))
    (name : String) : Option (Option α) :=
  match lastMember? members name with
  | none => some none
  | some null => some none
  | some v => (read? v).map some

/-- The truth value of a boolean. -/
def bool? : Json → Option Bool
  | bool b => some b
  | _ => none

end Json
end ElementBuild
