import TestRepair.Text.Cursor

/-!
Imports of a script: which module a class comes from, and the endings of relative specifiers. Only
specifiers that start with `./` or `../` count as relative.
-/

namespace TestRepair

namespace Script

open Text Recogniser

/-- Reads on with `inner` at the latest place to which only characters that satisfy `p` lead. -/
def latestFrom {α : Type} (p : Char → Bool) (inner : Recogniser α) (before : List Char) :
    (after : List Char) → Option (α × Cursor)
  | [] => inner ⟨before, []⟩
  | c :: after =>
    if p c then latestFrom p inner (c :: before) after <|> inner ⟨before, c :: after⟩
    else inner ⟨before, c :: after⟩

/-- Skips as many characters that satisfy `p` as `inner` allows, and reads on with `inner`. -/
def latest {α : Type} (p : Char → Bool) (inner : Recogniser α) : Recogniser α := fun c =>
  latestFrom p inner c.before c.after

/-- Blanks, one at least, and then `inner`. -/
def afterBlanks {α : Type} (inner : Recogniser α) : Recogniser α := do
  let _ ← one isBlank
  latest isBlank inner

def blanks : Recogniser Unit := do
  let _ ← run isBlank
  pure ()

/-- Blanks, one at least. -/
def blanks1 : Recogniser Unit := do
  let _ ← run1 isBlank
  pure ()

/-- The given word and the blanks behind it, or nothing. -/
def optionalWord (word : List Char) : Recogniser Unit := (do literal word; blanks1) <|> pure ()

/-- A name that is not part of a longer word. -/
def wholeName (name : List Char) : Recogniser Unit := do
  boundary
  literal name
  boundary

/-- A character other than a closing brace. -/
def inBraces (c : Char) : Bool := c != '\x7d'

def closeBraces : Recogniser Unit := do
  let _ ← run inBraces
  literal ['\x7d']

def isQuote (c : Char) : Bool := c == '\x27' || c == '"'

def specifier : Recogniser (List Char) := do
  let _ ← one isQuote
  let s ← run1 fun c => !isQuote c
  let _ ← one isQuote
  pure s

/-- The word `from` and a specifier. -/
def fromSpecifier : Recogniser (List Char) := do
  blanks
  literal "from".toList
  blanks
  specifier

/-- An import of names in braces, one of them `name`. -/
def importOfNames (name : List Char) : Recogniser (List Char) := do
  literal "import".toList
  blanks
  optionalWord "type".toList
  literal ['\x7b']
  latest inBraces do
    wholeName name
    closeBraces
    fromSpecifier

/-- An import whose default is `name`. -/
def importOfDefault (name : List Char) : Recogniser (List Char) := do
  literal "import".toList
  afterBlanks do
    literal name
    blanks
    (do literal [',']; blanks; literal ['\x7b']; closeBraces) <|> pure ()
    fromSpecifier

/-- A declaration of `name` by a call of `require`. -/
def requireOf (name : List Char) : Recogniser (List Char) := do
  wholeName name
  let _ ← run fun c => c != '\n' && c != '='
  literal ['=']
  blanks
  literal "require(".toList
  blanks
  let s ← specifier
  blanks
  literal [')']
  pure s

def isRelative (s : List Char) : Bool := startsWith "./".toList s || startsWith "../".toList s

/-- The relative specifier of the module that a class is imported from. The first form of import in
which the class occurs decides. -/
def importOf? (script cls : String) : Option String := do
  let forms := [importOfNames cls.toList, importOfDefault cls.toList, requireOf cls.toList]
  let found ← forms.findSome? fun form => (form.first? script.toList).map (·.value)
  if isRelative found then pure (String.ofList found) else none

/-- What stands before the specifier of an import: `from`, a call of `import`, or `import` alone. -/
def importLead : Recogniser Unit := firstOf [
  do boundary; literal "from".toList; blanks,
  do boundary; literal "import".toList; blanks; literal ['(']; blanks,
  do boundary; literal "import".toList; blanks1]

/-- A relative specifier of an import in one quote style, with what stands before it. -/
def relativeImport (quote : Char) : Recogniser (List Char × List Char) := do
  let lead ← withText importLead
  literal [quote]
  let specifier ← withText do
    literal "../".toList <|> literal "./".toList
    let _ ← run fun c => c != quote && c != '\n'
    pure ()
  literal [quote]
  pure (lead, specifier)

def knownExtensions : List (List Char) :=
  ["js", "mjs", "cjs", "ts", "mts", "cts", "tsx", "jsx", "json", "css", "svg", "png"].map
    String.toList

/-- Whether a specifier is complete: it ends in a directory step or in a known ending. -/
def hasKnownExtension (specifier : List Char) : Bool :=
  let last := ((splitLast? '/' specifier).map (·.2)).getD specifier
  last == ['.'] || last == ['.', '.'] ||
    (splitLast? '.' last).any fun (stem, ext) => !stem.isEmpty && knownExtensions.contains ext

def needsExtension (specifier : List Char) : Bool :=
  !hasKnownExtension specifier && !endsWith ['/'] specifier

/-- Adds `extension` to the relative imports in one quote style that need it, and counts them. -/
def extendImportsIn (quote : Char) (extension script : List Char) : List Char × Nat :=
  let found := (relativeImport quote).occurrences script
  let rewritten := rewriteFrom (fun o =>
    if needsExtension o.value.2 then
      o.value.1 ++ quote :: o.value.2 ++ extension ++ [quote]
    else o.text) 0 script found
  (rewritten, (found.filter fun o => needsExtension o.value.2).length)

/-- Adds `extension` to the relative imports that need it, first between single and then between
double quotes, and counts them. -/
def extendImports (script extension : String) : String × Nat :=
  let (once, m) := extendImportsIn '\x27' extension.toList script.toList
  let (twice, n) := extendImportsIn '"' extension.toList once
  (String.ofList twice, m + n)

end Script

end TestRepair
