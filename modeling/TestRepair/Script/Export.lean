import TestRepair.FileTree.Replace
import TestRepair.Script.Import

/-!
Making sure that a module exports a class. A class that is declared but not exported gets one more
line at the end of its module; nothing else in the file changes.
-/

namespace TestRepair

namespace Script

open Text Recogniser

/-- The word `export` or the name of an exports object, as forms of export that name the class. -/
def exportForms (cls : List Char) : List (Recogniser Unit) := [
  do
    boundary
    literal "export".toList
    blanks1
    optionalWord "default".toList
    optionalWord "abstract".toList
    literal "class".toList
    afterBlanks do literal cls; boundary,
  do
    boundary
    literal "export".toList
    blanks
    literal ['\x7b']
    latest inBraces do wholeName cls; closeBraces,
  do
    boundary
    literal "export".toList
    blanks1
    literal "default".toList
    afterBlanks do literal cls; boundary,
  do
    boundary
    literal "module.exports".toList
    blanks
    literal ['=']
    latest (· != ';') (wholeName cls),
  do
    boundary
    literal "exports.".toList
    literal cls
    blanks
    literal ['=']]

def isExported (source cls : List Char) : Bool := (exportForms cls).any (·.occursIn source)

def declaration (cls : List Char) : Recogniser Unit := do
  boundary
  literal "class".toList
  afterBlanks do literal cls; boundary

def isDeclared (source cls : List Char) : Bool := (declaration cls).occursIn source

/-- Whether a source is a module of the older kind, which exports by assignment. -/
def exportsByAssignment (source : List Char) : Bool :=
  Text.occursIn "require(".toList source && !Text.occursIn "import ".toList source

def exportLine (source : List Char) (cls : String) : String :=
  if exportsByAssignment source then "module.exports." ++ cls ++ " = " ++ cls ++ ";\n"
  else "export \x7b " ++ cls ++ " \x7d;\n"

def withExport (source cls : String) : String :=
  let whole := if endsWith ['\n'] source.toList then source else source ++ "\n"
  whole ++ exportLine source.toList cls

/-- Why a class could not be exported. -/
inductive ExportError
  | notDeclared (cls : String) (path : Path)
  | read (path : Path) (cause : FileError)
  | patch (cause : PatchError)
  deriving DecidableEq, Repr

def ExportError.message : ExportError → String
  | notDeclared cls path => "'" ++ cls ++ "' is not declared in " ++ path.text
  | read path cause => "Failed to read " ++ path.text ++ ": " ++ cause.message
  | patch cause => cause.message

/-- Exports a class from the module at a path, and tells whether the module had to change. -/
def ensureExported (t : FileTree) (path : Path) (cls : String) :
    Except ExportError (Bool × FileTree) := do
  let source ← (t.readText path).mapError (.read path)
  if isExported source.toList cls.toList then pure (false, t)
  else if !isDeclared source.toList cls.toList then throw (.notDeclared cls path)
  else
    let t ← (t.replaceText path (withExport source cls)).mapError .patch
    pure (true, t)

end Script

end TestRepair
