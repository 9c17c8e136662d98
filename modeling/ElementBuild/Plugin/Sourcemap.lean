/-
# Source map options

Source maps are asked for as a whole, or for scripts and styles apart; what is not
mentioned is not asked for.
-/
import ElementBuild.Json.Value
import ElementBuild.Plugin.Fault

namespace ElementBuild

/-- Which outputs get a source map. -/
inductive SourcemapOption where
  | whole (enabled : Bool)
  | split (js css : Option Bool)
  deriving DecidableEq, Repr

namespace SourcemapOption

/-- The option that a value writes. -/
def ofJson? : Json → Option SourcemapOption
  | .bool b => some (whole b)
  | .object members => do
    let js ← Json.optional? Json.bool? members "js"
    let css ← Json.optional? Json.bool? members "css"
    some (split js css)
  | _ => none

/-- Whether scripts get a source map. -/
def forScripts : SourcemapOption → Bool
  | whole enabled => enabled
  | split js _ => js.getD false

/-- Whether styles get a source map. -/
def forStyles : SourcemapOption → Bool
  | whole enabled => enabled
  | split _ css => css.getD false

/-- Whether anything gets a source map. -/
def any (o : SourcemapOption) : Bool := o.forScripts || o.forStyles

/-- A truth value as it is written. -/
def boolText (b : Bool) : String := if b then "true" else "false"

/-- The option as it is written. -/
def text : SourcemapOption → String
  | whole enabled => boolText enabled
  | split js css =>
    let member (name : String) (b : Bool) : String := "\"" ++ name ++ "\":" ++ boolText b
    let members := (js.map (member "js")).toList ++ (css.map (member "css")).toList
    "\x7b" ++ ",".intercalate members ++ "\x7d"

/-- Refuses an option with a form that a plugin does not take. -/
def require (o : SourcemapOption) (ok : Bool) (expected : String) : Except PluginFault Unit :=
  if ok then .ok () else .error (.invalidSourcemap expected o.text)

/-- Refuses parts that mention neither scripts nor styles. -/
def check (o : SourcemapOption) : Except PluginFault Unit :=
  o.require (o ≠ split none none) "boolean | \x7b [css/js]: boolean \x7d"

/-- Refuses parts that do not mention scripts. -/
def checkScripts (o : SourcemapOption) : Except PluginFault Unit :=
  o.require (match o with | split none _ => false | _ => true) "boolean | \x7b js: boolean \x7d"

end SourcemapOption
end ElementBuild
