/-
# Finding the references of a module

`scan` lists what a module refers to: the modules that its imports name, those
that its exports name if asked for, and the literal targets of its `import()`
calls.  References are listed by the start of their statements; addresses on the
web are left out.  An `import()` call whose target is not a literal is not a
reference but worth a warning.
-/
import ElementBuild.Script.Parse
import ElementBuild.Reference.Kind
import ElementBuild.Url.Web
import ElementBuild.Text.Frame
import ElementBuild.Text.Order
import ElementBuild.Path.Basic

namespace ElementBuild

open Script (Span)

/-- Something a module refers to. -/
structure Reference where
  target : String
  kind : ReferenceKind
  /-- The extension of the target. -/
  sourceType : Option String
  /-- The statement or call, in bytes. -/
  statement : Span
  /-- The literal with its quotes, in bytes. -/
  literal : Span
  defaultBinding : Option String
  bindings : List String
  isDynamic : Bool
  deriving DecidableEq, Repr

/-- What is wrong with a module's text, and where. -/
structure SyntaxFault where
  message : String
  position : Text.Position
  /-- The lines around the position. -/
  frame : String
  deriving DecidableEq, Repr

namespace SyntaxFault

/-- The fault with the lines around it. -/
def text (f : SyntaxFault) : String := f.message ++ "\n" ++ f.frame

/-- The fault with its position alone. -/
def brief (f : SyntaxFault) : String :=
  f.message ++ " (" ++ toString f.position.line ++ ":" ++ toString f.position.column ++ ")"

/-- The fault at a place of a text. -/
def of (code : String) (f : Script.Located) : SyntaxFault :=
  let position := Text.positionAt code f.offset
  ⟨f.fault.message, position, Text.sourceFrame code position⟩

end SyntaxFault

/-- What to look for. -/
structure ScanOptions where
  /-- The registered component types. -/
  types : List String := []
  /-- Whether exports from other modules count. -/
  withExports : Bool := false
  deriving Repr

namespace Reference

/-- The text between the quotes of a literal. -/
def unquoted (code : List Char) (literal : Span) : String :=
  String.ofList ((Text.slice? code (literal.start + 1) (literal.stop - 1)).getD [])

/-- The reference that a literal makes, unless it is an address on the web. -/
def make? (options : ScanOptions) (code : List Char) (statement literal : Span)
    (defaultBinding : Option String) (bindings : List String) (isDynamic : Bool) :
    Option Reference :=
  let target := unquoted code literal
  if Url.isWebAddress target then none
  else some {
    target, kind := Target.kind options.types target
    sourceType := (Path.mk target).extension?
    statement, literal, defaultBinding, bindings, isDynamic }

/-- The name that an export clause takes from another module. -/
def exportedName (code : List Char) : Script.ExportName → String
  | .identifier w => w
  | .string literal => unquoted code literal

/-- The reference that an item of a module makes. -/
def ofItem? (options : ScanOptions) (code : List Char) : Script.Item → Option Reference
  | .importFrom span specifiers source =>
    let default := (specifiers.find? (·.form == .default)).map (·.binding)
    make? options code span source default (specifiers.map (·.binding)) false
  | .exportFrom span specifiers source =>
    if options.withExports then
      make? options code span source none (specifiers.map fun s => exportedName code s.source) false
    else none
  | .exportNamespace span name source =>
    if options.withExports then make? options code span source none [exportedName code name] false
    else none
  | .exportAll span source =>
    if options.withExports then make? options code span source none [] false else none
  | _ => none

/-- The reference that an `import()` call makes. -/
def ofCall? (options : ScanOptions) (code : List Char) (call : Script.ImportCall) :
    Option Reference :=
  call.literal.bind fun literal => make? options code call.span literal none [] true

/-- The warning about an `import()` call. -/
def callWarning? (code : String) (call : Script.ImportCall) : Option String :=
  match call.literal with
  | some _ => none
  | none =>
    some ("Skipping dynamic import with a non-literal target\n" ++
      Text.sourceFrame code (Text.positionAt code call.span.start))

end Reference

/-- The references of a module, and the warnings about it. -/
structure Scan where
  references : List Reference
  warnings : List String
  deriving Repr

/-- Looks for the references of a module. -/
def scan (options : ScanOptions) (code : String) : Except SyntaxFault Scan :=
  let cs := code.toList
  match Script.parse cs with
  | .error f => .error (SyntaxFault.of code f)
  | .ok m =>
    let found := m.items.filterMap (Reference.ofItem? options cs) ++
      m.calls.filterMap (Reference.ofCall? options cs)
    .ok {
      references := sortBy (·.statement.start) found
      warnings := m.calls.filterMap (Reference.callWarning? code) }

end ElementBuild
