import TestRepair.FileTree.Glob
import TestRepair.Shell.Raw

/-!
Patterns with wildcards, as a shell has them in `case`, in the values of variables and in the names
of files. A quoted character stands for itself only.
-/

namespace TestRepair

namespace Shell

/-- A character of a word with whether it is quoted. -/
abbrev Marked := Bool × Char

/-- The ranges of a named class of characters. -/
def classRanges : String → List (Char × Char)
  | "alpha" => [('a', 'z'), ('A', 'Z')]
  | "digit" => [('0', '9')]
  | "alnum" => [('a', 'z'), ('A', 'Z'), ('0', '9')]
  | "upper" => [('A', 'Z')]
  | "lower" => [('a', 'z')]
  | "space" => [(' ', ' '), ('\t', '\x0d')]
  | "blank" => [(' ', ' '), ('\t', '\t')]
  | "punct" => [('!', '/'), (':', '@'), ('[', '\x60'), ('\x7b', '~')]
  | "xdigit" => [('0', '9'), ('a', 'f'), ('A', 'F')]
  | "print" => [(' ', '~')]
  | "graph" => [('!', '~')]
  | "cntrl" => [('\x00', '\x1f'), ('\x7f', '\x7f')]
  | _ => []

/-- The ranges in a bracket after its first character, and what follows the bracket. -/
def bracketRanges? : (budget : Nat) → (first : Bool) → Raw → Option (List (Char × Char) × Raw)
  | 0, _, _ => none
  | n + 1, first, s =>
    match s with
    | [] => none
    | ']' :: s => if first then (bracketRanges? n false s).map fun (rs, r) => ((']', ']') :: rs, r)
      else some ([], s)
    | '[' :: ':' :: s =>
      let name := s.takeWhile Char.isAlpha
      match s.dropWhile Char.isAlpha with
      | ':' :: ']' :: s =>
        (bracketRanges? n false s).map fun (rs, r) => (classRanges (String.ofList name) ++ rs, r)
      | _ => (bracketRanges? n false (':' :: s)).map fun (rs, r) => (('[', '[') :: rs, r)
    | a :: '-' :: b :: s =>
      if b == ']' then
        (bracketRanges? n false ('-' :: b :: s)).map fun (rs, r) => ((a, a) :: rs, r)
      else (bracketRanges? n false s).map fun (rs, r) => ((a, b) :: rs, r)
    | a :: s => (bracketRanges? n false s).map fun (rs, r) => ((a, a) :: rs, r)

/-- What stands in a bracket that has just been opened: whether it lists what is excluded, its
ranges, and what follows it. -/
def openBracket? (s : Raw) : Option (Bool × List (Char × Char) × Raw) :=
  match s with
  | '!' :: r | '^' :: r => (bracketRanges? (r.length + 1) true r).map fun (rs, r) => (true, rs, r)
  | s => (bracketRanges? (s.length + 1) true s).map fun (rs, r) => (false, rs, r)

def wildcards : (budget : Nat) → List Marked → List GlobToken
  | 0, _ => []
  | _, [] => []
  | n + 1, (quoted, c) :: s =>
    if quoted then .char c :: wildcards n s
    else
      match c with
      | '*' => .anyRun :: wildcards n s
      | '?' => .anyChar :: wildcards n s
      | '[' =>
        match openBracket? (s.map (·.2)) with
        | some (negated, ranges, rest) =>
          .oneOf negated ranges :: wildcards n (s.drop (s.length - rest.length))
        | none => .char '[' :: wildcards n s
      | '\\' =>
        match s with
        | (_, d) :: s => .char d :: wildcards n s
        | [] => [.char '\\']
      | c => .char c :: wildcards n s

def wildcardsOf (s : List Marked) : List GlobToken := wildcards (s.length + 1) s

/-- Whether a word has anything but itself as a pattern. -/
def hasWildcard (s : List Marked) : Bool :=
  s.any fun (quoted, c) => !quoted && (c == '*' || c == '?' || c == '[')

/-- Whether a word is the pattern of a whole text. -/
def matchesWhole (s : List Marked) (text : Raw) : Bool := Glob.nameMatches (wildcardsOf s) text

/-- What is left of a text without the part at its beginning that a pattern is for. -/
def withoutStart (longest : Bool) (s : List Marked) (text : Raw) : Raw :=
  let lengths := List.range (text.length + 1)
  let lengths := if longest then lengths.reverse else lengths
  match lengths.find? fun k => matchesWhole s (text.take k) with
  | some k => text.drop k
  | none => text

/-- What is left of a text without the part at its end that a pattern is for. -/
def withoutEnd (longest : Bool) (s : List Marked) (text : Raw) : Raw :=
  let lengths := List.range (text.length + 1)
  let lengths := if longest then lengths.reverse else lengths
  match lengths.find? fun k => matchesWhole s (text.drop (text.length - k)) with
  | some k => text.take (text.length - k)
  | none => text

/-- The paths that the pieces of a pattern lead to. -/
def pathsFrom (t : FileTree) (base : String) : List (List Marked) → List String
  | [] => [base]
  | piece :: rest =>
    let spelled (name : String) : String := base ++ name ++ if rest.isEmpty then "" else "/"
    if hasWildcard piece then
      let dir : Path := ⟨if base.isEmpty then "." else base⟩
      let names := (((t.canonical dir).toOption.map t.children).getD []).map (·.1)
      let shown := names.filter fun name =>
        (!name.startsWith "." || piece.head? == some (false, '.')) &&
          matchesWhole piece (Raw.ofString name)
      (shown.map fun name => pathsFrom t (spelled name) rest).flatten.filter fun p =>
        rest.isEmpty || t.exists ⟨p⟩
    else
      match Raw.toString? (piece.map (·.2)) with
      | none => []
      | some name =>
        let p := spelled name
        if rest.isEmpty && !t.exists ⟨p⟩ then [] else pathsFrom t p rest

def wordPieces : List Marked → List (List Marked)
  | [] => [[]]
  | (q, c) :: s =>
    if c == '/' then [] :: wordPieces s
    else
      match wordPieces s with
      | [] => [[(q, c)]]
      | p :: ps => ((q, c) :: p) :: ps

/-- The paths that a word is a pattern for, or the word itself if there are none. -/
def pathNames (t : FileTree) (s : List Marked) : List Raw :=
  let found := if hasWildcard s then pathsFrom t "" (wordPieces s) else []
  if found.isEmpty then [s.map (·.2)] else found.map Raw.ofString

end Shell

end TestRepair
