import TestRepair.Text.Search

/-!
The closed list of reasons why a trial run fails. Every kind has one code, from which it can be read
back in any case and with dashes for underscores.
-/

namespace TestRepair

/-- Why a trial run failed, most telling reason first. -/
inductive FailureKind
  | importResolution
  | exportConstructor
  | locatorNotFound
  | selectorAmbiguity
  | missingDataFile
  | typeError
  | syntaxError
  | missingMethod
  | compilation
  deriving DecidableEq, Repr

namespace FailureKind

/-- Every kind, most telling first. -/
def all : List FailureKind :=
  [importResolution, exportConstructor, locatorNotFound, selectorAmbiguity, missingDataFile,
    typeError, syntaxError, missingMethod, compilation]

def name : FailureKind → String
  | importResolution => "import_resolution"
  | exportConstructor => "export_constructor"
  | locatorNotFound => "locator_not_found"
  | selectorAmbiguity => "selector_ambiguity"
  | missingDataFile => "missing_data_file"
  | typeError => "type_error"
  | syntaxError => "syntax_error"
  | missingMethod => "missing_method"
  | compilation => "compilation"

def code : FailureKind → String
  | importResolution => "IMPORT_RESOLUTION"
  | exportConstructor => "EXPORT_CONSTRUCTOR"
  | locatorNotFound => "LOCATOR_NOT_FOUND"
  | selectorAmbiguity => "SELECTOR_AMBIGUITY"
  | missingDataFile => "MISSING_DATA_FILE"
  | typeError => "TYPE_ERROR"
  | syntaxError => "SYNTAX_ERROR"
  | missingMethod => "MISSING_METHOD"
  | compilation => "COMPILATION"

def description : FailureKind → String
  | importResolution => "a module import could not be resolved"
  | exportConstructor => "an imported class is not exported or is not a constructor"
  | locatorNotFound => "a locator did not match any element before timing out"
  | selectorAmbiguity => "a locator matched more than one element"
  | missingDataFile => "a test data file referenced by the script is missing"
  | typeError => "a value had an unexpected type at runtime"
  | syntaxError => "the script contains a syntax error"
  | missingMethod => "a method or property does not exist on the target object"
  | compilation => "the script failed to compile"

/-- What a person can do about a failure of this kind. -/
def hint : FailureKind → String
  | importResolution => "Check relative import paths and file extensions"
  | exportConstructor => "Export the page class from its module"
  | locatorNotFound | selectorAmbiguity => "Record the flow again or pick a more specific locator"
  | missingDataFile => "Provide the data file the test reads"
  | typeError | syntaxError | missingMethod | compilation => "Review the generated script by hand"

def isLocator : FailureKind → Bool
  | locatorNotFound | selectorAmbiguity => true
  | _ => false

/-- A code as it is compared: no outer blanks, ASCII capitals, underscores for dashes. -/
def normalCode (text : String) : List Char :=
  (Text.trim text.toList).map fun c => if c = '-' then '_' else c.toUpper

/-- The kind that `text` spells, if it spells one. -/
def ofText? (text : String) : Option FailureKind :=
  all.find? fun kind => kind.code.toList == normalCode text

/-- The complaint about a text that spells no kind. -/
def unknownMessage (text : String) : String := "Unknown error category: " ++ text

def ofName? (name : String) : Option FailureKind := all.find? fun kind => kind.name == name

end FailureKind

end TestRepair
