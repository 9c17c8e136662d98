/-
# Items of a module

Imports and exports, and the module as a whole.
-/
import ElementBuild.Script.Grammar.Statement

namespace ElementBuild
namespace Script
namespace Grammar

open Reader

variable (g : Grammar)

/-- The string literal that names another module. -/
def source : Reader Span := do
  match (← need) with
  | .string _ _ =>
    let start ← here
    bump
    return ⟨start, ← lastStop⟩
  | _ => unexpected "a string literal"

/-- The word `from`, the module it names, and the end of the statement. -/
def fromSource : Reader Span := do
  expectWord "from"
  let s ← source
  expectStatementEnd
  return s

/-- A name in an import or export clause, and for a string its value. -/
def clauseName : Reader (ExportName × String × Nat) := do
  let start ← here
  match (← whole) with
  | some (.string value _) =>
    bump
    return (.string ⟨start, ← lastStop⟩, value, start)
  | some (.word w) =>
    bump
    return (.identifier w, w, start)
  | _ => unexpected "identifier or string"

/-- The context in which imported names are bound. -/
def importContext (ctx : Context) : Context := { ctx with inAsync := false, inGenerator := false }

/-- One entry of an import clause. -/
def importSpecifier (ctx : Context) : Reader ImportSpecifier := do
  let (name, value, start) ← clauseName
  if ← eatWord "as" then
    let (w, _) ← bindingIdentifier ctx
    return ⟨.named, w⟩
  else
    match name with
    | .identifier w => if isReserved w then fail .reservedInImport start else return ⟨.named, w⟩
    | .string _ => fail (.importBindingIsString value) start

/-- Entries in braces, between commas, and the closing brace. -/
def clause {α : Type} (entry : Reader α) : Reader (List α) := do
  let entries ← loop g.fuel (fun (entries : List α) => do
    if (← atEnd) || (← at? .braceClose) then return (entries, false)
    else
      let e ← entry
      if ← at? .braceClose then return (e :: entries, false)
      else
        expect .comma
        return (e :: entries, true)) []
  expect .braceClose
  return entries.reverse

/-- Whether the word just read, `source` or `defer`, says how a module is
imported rather than being the imported name. -/
def isPhase (w : String) : Reader Bool := do
  if w == "source" || w == "defer" then
    let isFrom ← word? "from"
    if isFrom then return (← peek).token == .word "from"
    else return (← at? (.binary .mul)) || (← at? .braceOpen) || (← atIdentifier)
  else return false

/-- The default binding of an import, if it has one. -/
def defaultBinding (ctx : Context) : Reader (List ImportSpecifier) := do
  if ← atIdentifier then
    let (w, _) ← bindingIdentifier (importContext ctx)
    let phase ← isPhase w
    if phase && !(← atIdentifier) then return []
    else
      let w ← if phase then do
          let (w, _) ← bindingIdentifier (importContext ctx)
          pure w
        else pure w
      unless ← word? "from" do expect .comma
      return [⟨.default, w⟩]
  else return []

/-- An import declaration, or an expression that starts with `import`. -/
def importItem (ctx : Context) : Reader Item := do
  let next ← peek
  if next.token == .punctuator .dot || next.token == .punctuator .parenOpen then
    let e ← g.expression ctx
    let _ ← eatStatementEnd
    return .statement e.calls
  else
    let start ← here
    bump
    match (← whole) with
    | some (.string _ _) =>
      let s ← source
      expectStatementEnd
      return .importFrom ⟨start, ← lastStop⟩ [] s
    | _ =>
      let first ← defaultBinding ctx
      let others ←
        if ← eat (.binary .mul) then do
          expectWord "as"
          let (w, _) ← bindingIdentifier (importContext ctx)
          pure [⟨.namespace, w⟩]
        else do
          if ← eat .braceOpen then g.clause (importSpecifier ctx)
          else pure []
      let s ← fromSource
      return .importFrom ⟨start, ← lastStop⟩ (first ++ others) s

/-- One entry of an export clause. -/
def exportSpecifier : Reader (ExportSpecifier × Nat) := do
  let (name, _, start) ← clauseName
  if ← eatWord "as" then
    let (exported, _, _) ← clauseName
    return (⟨name, some exported⟩, start)
  else return (⟨name, none⟩, start)

/-- An export clause from its opening brace on. -/
def exportClause (start : Nat) : Reader Item := do
  expect .braceOpen
  let entries ← g.clause exportSpecifier
  if ← word? "from" then
    let s ← fromSource
    return .exportFrom ⟨start, ← lastStop⟩ (entries.map (·.1)) s
  else
    match entries.find? fun (e, _) => match e.source with
        | .string _ => true
        | .identifier _ => false with
    | some (_, offset) => fail .exportBindingIsString offset
    | none =>
      let _ ← eat .semicolon
      return .exportList (entries.map (·.1))

/-- What a default export exports. -/
def defaultExport (ctx : Context) : Reader Item := do
  if ← word? "class" then
    let (name, calls) ← g.classDefinition ctx .optional
    return .exportDefault name calls
  else if (← word? "async") && (← beforeFunction) then
    bump
    let (name, calls) ← g.function ctx true false .optional
    return .exportDefault name calls
  else if ← word? "function" then
    let (name, calls) ← g.function ctx false false .optional
    return .exportDefault name calls
  else
    let e ← g.assignment (inside ctx)
    settleInitializers e
    expectStatementEnd
    let name := match e.form with
      | .name w => some w
      | _ => none
    return .exportDefault name e.calls

/-- An export declaration. -/
def exportItem (ctx : Context) : Reader Item := do
  let start ← here
  bump
  let _ ← need
  if ← eat (.binary .mul) then
    if ← eatWord "as" then
      let (name, _, _) ← clauseName
      let s ← fromSource
      return .exportNamespace ⟨start, ← lastStop⟩ name s
    else
      let s ← fromSource
      return .exportAll ⟨start, ← lastStop⟩ s
  else if ← eatWord "default" then g.defaultExport ctx
  else if ← word? "class" then return .statement (← g.classDefinition ctx .required).2
  else if (← word? "async") && (← beforeFunction) then
    bump
    return .statement (← g.function ctx true false .required).2
  else if ← word? "function" then return .statement (← g.function ctx false false .required).2
  else if ← atVariables then
    return .statement ((← g.declarators (inside ctx) false).flatMap (·.calls))
  else g.exportClause start

/-- An item of a module. -/
def item (ctx : Context) : Reader Item := do
  if ← word? "import" then g.importItem ctx
  else if ← word? "export" then g.exportItem ctx
  else return .statement (← g.plainStatement ctx true)

/-- All items up to the end of the text. -/
def items : Reader (List Item) := do
  let found ← loop g.fuel (fun (found : List Item) => do
    match (← whole) with
    | none =>
      settle
      return (found, false)
    | some _ =>
      let i ← g.item {}
      return (i :: found, true)) []
  return found.reverse

end Grammar
end Script
end ElementBuild
