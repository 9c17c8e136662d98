/-
# Compiler plugins

A plugin turns the entry file of a component into a module.  It is given what the
build does to the scripts and styles of the component, and decides which parts of
the entry file these are.
-/
import ElementBuild.Build.Session
import ElementBuild.Element.Name
import ElementBuild.Plugin.Sourcemap

namespace ElementBuild

/-- What is done to a style, given its text and the file it stands in. -/
abbrev StylePreprocessor := String → Path → Step String

/-- What a plugin is asked to compile. -/
structure CompileRequest where
  code : String
  filename : Path
  sourcemap : SourcemapOption
  /-- What is done to a script. -/
  preprocessScript : String → Step String
  preprocessStyle : Option StylePreprocessor

/-- A compiled module, and the text of its source map. -/
structure CompileOutput where
  code : String
  map : Option String
  deriving DecidableEq, Repr

namespace CompileRequest

/-- Whether a text has nothing but blanks. -/
def isVacant (code : String) : Bool := code.toList.all Text.isBlank

/-- Refuses a request without code or file name. -/
def check (r : CompileRequest) : Except PluginFault Unit :=
  if isVacant r.code then .error .missingCode
  else if r.filename.text.isEmpty then .error .missingFilename
  else .ok ()

/-- The name of the folder that holds the entry file, which has to name an
element. -/
def elementFolder (r : CompileRequest) : Except PluginFault String :=
  let folder := (r.filename.parent?.bind Path.fileName?).getD ""
  if Element.isName folder then .ok folder else .error (.invalidElementName folder)

/-- Refuses a request for a file that does not exist. -/
def checkSource (r : CompileRequest) (t : FileTree) : Except PluginFault Unit :=
  if t.isFile r.filename then .ok () else .error (.missingSource r.filename)

end CompileRequest

/-- A compiler for one kind of component. -/
structure Plugin where
  name : String
  compile : CompileRequest → Step CompileOutput

/-- What a plugin refuses, as a step. -/
def Step.refusing {α : Type} (r : Except PluginFault α) : Step α := Step.ofExcept .plugin r

end ElementBuild
