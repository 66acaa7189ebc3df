import TestRepair.Failure.Diagnosis

/-!
The built-in table of signatures. Telling shapes stand above the general ones that would recognise
the same logs.
-/

namespace TestRepair

namespace Signature

open Text Recogniser

/-- A text between two quote characters; `minimum` characters at least. -/
def quotedText (quote : Char) (minimum : Nat) : Recogniser (List Char) := do
  literal [quote]
  let body ← run (· != quote)
  literal [quote]
  if minimum ≤ body.length then pure body else failure

def restOfLine : Recogniser Unit := do
  let _ ← run (· != '\n')
  pure ()

/-- A module, package or import that cannot be resolved. -/
def importResolution : Recogniser Unit := firstOf [
  do
    literal "Cannot find ".toList
    literal "module".toList <|> literal "package".toList
    literal [' ']
    let _ ← quotedText '\x27' 1,
  literal "ERR_MODULE_NOT_FOUND".toList,
  literal "Relative import paths need explicit file extensions".toList,
  do
    literal "Failed to resolve import ".toList
    let _ ← quotedText '"' 1]

/-- A single-quoted word after `lead`. -/
def quotedWord (lead : List Char) : Recogniser (List Char) := do
  literal lead
  literal ['\x27']
  let word ← run1 isWord
  literal ['\x27']
  pure word

/-- A word and the complaint that it is no constructor. -/
def notConstructor : Recogniser (List Char) := do
  boundary
  let word ← run1 isWord
  literal " is not a constructor".toList
  pure word

/-- The complaint that a module has no export of a name. -/
def noExport : Recogniser (List Char) := quotedWord "does not provide an export named ".toList

/-- The complaint that a typed module has no member of a name. -/
def noMember : Recogniser (List Char) := quotedWord "has no exported member ".toList

/-- A class that is not exported or not a class. -/
def exportConstructor : Recogniser Unit := do
  let _ ← firstOf [notConstructor, noExport, noMember]

def locatorNotFound : Recogniser Unit := firstOf [
  do
    literal "Timeout ".toList
    let _ ← run1 isDigit
    literal "ms exceeded".toList,
  literal "TimeoutError".toList,
  literal "element(s) not found".toList,
  literal "No element found for selector".toList]

def selectorAmbiguity : Recogniser Unit := firstOf [
  literal "strict mode violation".toList,
  do
    literal "resolved to ".toList
    let _ ← run1 isDigit
    literal " elements".toList]

def dataEndings : List (List Char) :=
  [".csv".toList, ".json".toList, ".xlsx".toList, ".xls".toList, ".txt".toList, ".yml".toList,
    ".yaml".toList]

/-- A data file that is not there. -/
def missingDataFile : Recogniser Unit := firstOf [
  do
    literal "ENOENT: no such file or directory".toList
    optional [',']
    literal [' ']
    let _ ← run1 isWord
    literal [' ']
    let name ← quotedText '\x27' 0
    if dataEndings.any (endsWith · name) then pure () else failure,
  do
    literal ['D'] <|> literal ['d']
    literal "ata file not found".toList]

/-- A type error, to the end of its line. -/
def typeError : Recogniser Unit := do
  literal "TypeError:".toList
  restOfLine

/-- A syntax error, to the end of its line. -/
def syntaxError : Recogniser Unit := do
  literal "SyntaxError:".toList <|> literal "Unexpected token".toList
  restOfLine

def builderSubjects : List (List Char) :=
  ["Role".toList, "TestId".toList, "Label".toList, "Text".toList, "Placeholder".toList,
    "AltText".toList, "Title".toList]

/-- The name of a semantic locator builder such as `getByRole`. -/
def locatorBuilder : Recogniser Unit := do
  boundary
  literal "getBy".toList
  firstOf (builderSubjects.map fun subject => do literal subject; boundary)

/-- A method or property that does not exist. -/
def missingMethod : Recogniser Unit := firstOf [
  literal "is not a function".toList,
  do
    literal "Cannot read propert".toList
    literal ['y'] <|> literal "ies".toList
    literal " of ".toList
    literal "undefined".toList <|> literal "null".toList,
  do
    let _ ← quotedWord "Property ".toList
    literal " does not exist on type".toList,
  literal "undefined is not an object".toList]

/-- A script that does not compile. -/
def compilation : Recogniser Unit := firstOf [
  do
    literal "error TS".toList
    let _ ← run1 isDigit
    literal [':'],
  literal "Transform failed".toList,
  literal "Compilation failed".toList,
  literal "Build failed".toList]

/-- The built-in table. A syntax error near a locator builder is a malformed locator and not an error
of the language, which is why its guarded row stands above the plain one. -/
def builtin : List Signature := [
  ⟨.importResolution, importResolution, none⟩,
  ⟨.exportConstructor, exportConstructor, none⟩,
  ⟨.locatorNotFound, locatorNotFound, none⟩,
  ⟨.selectorAmbiguity, selectorAmbiguity, none⟩,
  ⟨.missingDataFile, missingDataFile, none⟩,
  ⟨.typeError, typeError, none⟩,
  ⟨.locatorNotFound, syntaxError, some locatorBuilder⟩,
  ⟨.syntaxError, syntaxError, none⟩,
  ⟨.missingMethod, missingMethod, none⟩,
  ⟨.compilation, compilation, none⟩]

end Signature

def Diagnosis.ofBuiltin? (log : String) : Option Diagnosis :=
  Diagnosis.ofLog? Signature.builtin log

end TestRepair
