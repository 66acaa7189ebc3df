import TestRepair.Shell.Command

/-!
Reading shell scripts. Words end at blanks and operators unless these are quoted; a word like `if`
counts only where a command begins. A script is read one complete command at a time, so that what
stands before a mistake is carried out. Each reader has a budget that bounds how many calls nest; a
multiple of the length of the script is enough for it.
-/

namespace TestRepair

namespace Shell

def isBlank (c : Char) : Bool := c == ' ' || c == '\t'

def endsWord (c : Char) : Bool := [' ', '\t', '\n', ';', '&', '|', '<', '>', '(', ')'].contains c

def isSpecial (c : Char) : Bool := ['\x27', '"', '\\', '$', '\x60'].contains c

/-- A character that can begin the name of a variable. -/
def beginsName (c : Char) : Bool := c.isAlpha || c == '_'

def isNameChar (c : Char) : Bool := c.isAlphanum || c == '_'

/-- The variables with a name of one character that is no letter. -/
def isSpecialName (c : Char) : Bool := ['?', '$', '!', '#', '@', '*', '-'].contains c

/-- Passes blanks, escaped line ends and a comment. -/
def skipBlanks : Raw → Raw
  | '\\' :: '\n' :: s => skipBlanks s
  | '#' :: s => s.dropWhile (· != '\n')
  | c :: s => if isBlank c then skipBlanks s else c :: s
  | [] => []

/-- Passes blanks, comments and line ends. -/
def skipLines : (budget : Nat) → Raw → Raw
  | 0, s => s
  | n + 1, s =>
    match skipBlanks s with
    | '\n' :: s => skipLines n s
    | s => s

/-- What stands between backquotes, and what follows them. -/
def backquoted : Raw → Option (Raw × Raw)
  | [] => none
  | '\x60' :: s => some ([], s)
  | '\\' :: c :: s =>
    (backquoted s).map fun (a, b) =>
      (if c == '\x60' || c == '\\' || c == '$' then c :: a else '\\' :: c :: a, b)
  | c :: s => (backquoted s).map fun (a, b) => (c :: a, b)

/-- Why a script cannot be read. -/
inductive Misread
  | quote
  | backquote
  | sum
  | brace
  | loopName
  | functionName
  | streamNumber
  /-- A token stands where it cannot stand, and the one that could. -/
  | token (found : Raw) (wanted : Option Raw)
  /-- The budget of the reader is used up. -/
  | depth
  deriving DecidableEq, Repr

def Misread.message : Misread → Raw
  | quote => "Unterminated quoted string".toList
  | backquote => "EOF in backquote substitution".toList
  | sum => "Missing \x27))\x27".toList
  | brace => "Missing \x27\x7d\x27".toList
  | loopName => "Bad for loop variable".toList
  | functionName => "Bad function name".toList
  | streamNumber => "Bad fd number".toList
  | token found none => found ++ " unexpected".toList
  | token found (some wanted) => found ++ " unexpected (expecting ".toList ++ wanted ++ [')']
  | depth => "nested too deeply".toList

/-- Reading a script of which it is known how many lines end in it; what is left is passed on. -/
abbrev Reading := ReaderT Nat (StateT Raw (Except (Nat × Misread)))

def lineNumber : Reading Nat := do return (← read) - (← get).count '\n' + 1

def refuse {α : Type} (m : Misread) : Reading α := do throw (← lineNumber, m)

/-- Where the parts of a word end. -/
inductive Close
  | word
  | quote
  | brace
  /-- Two parentheses; `depth` more are open. -/
  | sum (depth : Nat)
  /-- The end of a text that is put in as it stands. -/
  | text
  deriving DecidableEq, Repr

namespace Close

def isHere : Close → Raw → Bool
  | word, s => s.isEmpty || s.head?.any endsWord
  | quote, s => s.head? == some '"'
  | brace, s => s.head? == some '\x7d'
  | sum depth, s => depth == 0 && [')', ')'].isPrefixOf s
  | text, s => s.isEmpty

def after : Close → Char → Close
  | sum depth, '(' => sum (depth + 1)
  | sum depth, ')' => sum (depth - 1)
  | close, _ => close

/-- Why a script is refused that ends before the parts do. -/
def atEnd (close : Close) (quoted : Bool) : Misread :=
  match close with
  | sum _ => .sum
  | brace => if quoted then .quote else .brace
  | _ => .quote

end Close

/-- A modifier and what follows its sign. -/
def modifier (s : Raw) : Modifier × Raw :=
  match s with
  | ':' :: '-' :: s => (.default true, s)
  | '-' :: s => (.default false, s)
  | ':' :: '=' :: s => (.assign true, s)
  | '=' :: s => (.assign false, s)
  | ':' :: '+' :: s => (.alternative true, s)
  | '+' :: s => (.alternative false, s)
  | ':' :: '?' :: s => (.complain true, s)
  | '?' :: s => (.complain false, s)
  | '%' :: '%' :: s => (.dropEnd true, s)
  | '%' :: s => (.dropEnd false, s)
  | '#' :: '#' :: s => (.dropStart true, s)
  | '#' :: s => (.dropStart false, s)
  | s => (if s.isEmpty || s.head? == some '\x7d' then .none else .unknown, s)

/-- The name of a variable between braces, and what follows it. -/
def bracedName (s : Raw) : Raw × Raw :=
  match s with
  | [] => ([], [])
  | c :: r =>
    if beginsName c then (c :: r.takeWhile isNameChar, r.dropWhile isNameChar)
    else if c.isDigit then (c :: r.takeWhile Char.isDigit, r.dropWhile Char.isDigit)
    else if isSpecialName c then ([c], r)
    else ([], s)

/-- The home directory in place of a tilde that a word begins with. -/
def expandTilde : List Part → List Part
  | .text false ['~'] :: ps =>
    match ps with
    | [] => [.variable true "HOME".toList .none []]
    | .text false ['/'] :: _ => .variable true "HOME".toList .none [] :: ps
    | ps => .text false ['~'] :: ps
  | ps => ps

/-- The text of a word in which nothing is to be put in; none for another word. -/
def literal? (w : Word) : Option Raw :=
  (w.mapM fun (p : Part) =>
    match p with
    | .text _ s => some s
    | _ => none).map List.flatten

/-- Whether a part of a word is quoted. -/
def Part.isQuoted : Part → Bool
  | .text quoted _ | .variable quoted _ _ _ | .output quoted _ | .sum quoted _ => quoted

/-- The stream and the turn of a redirection, and what follows its sign. -/
def turn? (s : Raw) : Option (Nat × Turn × Raw) :=
  let (stream, s) :=
    match s with
    | c :: '>' :: r => if c.isDigit then (some (c.toNat - '0'.toNat), '>' :: r) else (none, s)
    | c :: '<' :: r => if c.isDigit then (some (c.toNat - '0'.toNat), '<' :: r) else (none, s)
    | s => (none, s)
  match s with
  | '>' :: '>' :: s => some (stream.getD 1, .append, s)
  | '>' :: '&' :: s => some (stream.getD 1, .like, s)
  | '>' :: '|' :: s => some (stream.getD 1, .write, s)
  | '>' :: s => some (stream.getD 1, .write, s)
  | '<' :: '&' :: s => some (stream.getD 0, .like, s)
  | '<' :: '<' :: s => some (stream.getD 0, .here, s)
  | '<' :: '>' :: s => some (stream.getD 0, .read, s)
  | '<' :: s => some (stream.getD 0, .read, s)
  | _ => none

/-- The name of a variable that is set here, and what follows the equals sign. -/
def assignment? : Raw → Option (Raw × Raw)
  | [] => none
  | c :: s =>
    if beginsName c then
      match s.dropWhile isNameChar with
      | '=' :: r => some (c :: s.takeWhile isNameChar, r)
      | _ => none
    else none

/-- The bare word that a command begins with, and what follows it. -/
def lead (s : Raw) : Raw × Raw :=
  let isBare (c : Char) : Bool := !endsWord c && !isSpecial c
  let w := s.takeWhile isBare
  let rest := s.dropWhile isBare
  if rest.head?.any isSpecial then ([], s) else (w, rest)

/-- The words that have a meaning of their own where a command can begin. -/
def reserved : List String := [
  "!", "\x7b", "\x7d", "case", "do", "done", "elif", "else", "esac", "fi", "for", "if", "in", "then",
  "until", "while"]

def inMarks (s : Raw) : Raw := '"' :: s ++ ['"']

/-- What stands next, as complaints name it. -/
def nextToken (s : Raw) : Raw :=
  let s := skipBlanks s
  match s with
  | [] => "end of file".toList
  | '\n' :: _ => "newline".toList
  | c :: r =>
    if c == ';' || c == '&' || c == '|' then inMarks (if r.head? == some c then [c, c] else [c])
    else if c == '(' || c == ')' then inMarks [c]
    else if (turn? s).isSome then "redirection".toList
    else
      let w := (lead s).1
      if reserved.contains (String.ofList w) then inMarks w else "word".toList

def refuseNext {α : Type} (wanted : Option String) : Reading α := do
  refuse (.token (nextToken (← get)) (wanted.map String.toList))

def closers : List String := ["then", "fi", "do", "done", "else", "elif", "esac", "\x7d"]

def endsList (s : Raw) : Bool :=
  s.isEmpty || s.head? == some ')' || [';', ';'].isPrefixOf s ||
    closers.contains (String.ofList (lead s).1)

def passBlanks : Reading Unit := modify skipBlanks

/-- Passes blanks, comments and line ends. -/
def passLines : Reading Unit := modify fun s => skipLines s.length s

/-- Passes a reserved word, if it stands next. -/
def passWord (word : String) : Reading Bool := do
  passLines
  let (w, rest) := lead (← get)
  if w = word.toList then
    set rest
    return true
  else return false

/-- Passes a reserved word, which has to stand next. -/
def needWord (word : String) : Reading Unit := do
  if !(← passWord word) then refuseNext (some ("\"" ++ word ++ "\""))

def Command.andThen : Command → Command → Command
  | c, .nothing => c
  | c, d => .sequence c d

def Command.turned (c : Command) (rs : List (Redirect Word)) : Command :=
  if rs.isEmpty then c else .redirected c rs

/-- The lines before the one that ends a text in a script, and what follows that line. -/
def textLines (stripped : Bool) (mark : Raw) : List Raw → List Raw × List Raw
  | [] => ([], [])
  | l :: ls =>
    let l := if stripped then l.dropWhile (· == '\t') else l
    if l = mark then ([], ls)
    else
      let (body, rest) := textLines stripped mark ls
      (l :: body, rest)

mutual

/-- The parts of a word up to where it ends. -/
def parts (quoted : Bool) (close : Close) : (budget : Nat) → Reading (List Part)
  | 0 => refuse .depth
  | n + 1 => do
    let s ← get
    if close.isHere s then return []
    match s with
    | [] => refuse (close.atEnd quoted)
    | '\\' :: '\n' :: s =>
      set s
      parts quoted close n
    | '\\' :: c :: s =>
      let kept := quoted && (!isSpecial c || c == '\x27' || (c == '"' && close = .text))
      set s
      return .text true (if kept then ['\\', c] else [c]) :: (← parts quoted close n)
    | '"' :: s =>
      set s
      if close = .text then return .text true ['"'] :: (← parts quoted close n)
      let inner ← parts true .quote n
      modify (·.drop 1)
      return .text true [] :: inner ++ (← parts quoted close n)
    | '\x27' :: s =>
      if quoted then
        set s
        return .text true ['\x27'] :: (← parts quoted close n)
      else
        match Text.splitFirst? '\x27' s with
        | some (body, s) =>
          set s
          return .text true body :: (← parts quoted close n)
        | none =>
          set ([] : Raw)
          refuse .quote
    | '\x60' :: s =>
      match backquoted s with
      | some (script, s) =>
        set script
        let body ← withReader (fun _ => script.count '\n') (commands n)
        set s
        return .output quoted body :: (← parts quoted close n)
      | none =>
        set ([] : Raw)
        refuse .backquote
    | '$' :: s =>
      set s
      let p ← dollar quoted n
      return p :: (← parts quoted close n)
    | c :: s =>
      set s
      return .text quoted [c] :: (← parts quoted (close.after c) n)

def dollar (quoted : Bool) : (budget : Nat) → Reading Part
  | 0 => refuse .depth
  | n + 1 => do
    match ← get with
    | '(' :: '(' :: s =>
      set s
      let body ← parts true (.sum 0) n
      modify (·.drop 2)
      return .sum quoted body
    | '(' :: s =>
      set s
      passLines
      let body ← if (← get).head? == some ')' then pure .nothing else list true n
      passLines
      if (← get).head? != some ')' then refuseNext (some "\")\"")
      modify (·.drop 1)
      return .output quoted body
    | '\x7b' :: '#' :: c :: s =>
      if c == '\x7d' then
        set s
        return .variable quoted ['#'] .none []
      else
        let (name, s) := bracedName (c :: s)
        set s
        let rest ← parts quoted .brace n
        modify (·.drop 1)
        return .variable quoted name (if rest.isEmpty && !name.isEmpty then .length else .unknown) []
    | '\x7b' :: s =>
      let (name, s) := bracedName s
      let (m, s) := modifier s
      set s
      let word ← parts quoted .brace n
      modify (·.drop 1)
      return .variable quoted name (if name.isEmpty then .unknown else m) word
    | c :: s =>
      if beginsName c then
        set (s.dropWhile isNameChar)
        return .variable quoted (c :: s.takeWhile isNameChar) .none []
      else if c.isDigit || isSpecialName c then
        set s
        return .variable quoted [c] .none []
      else return .text quoted ['$']
    | [] => return .text quoted ['$']

/-- A word, which has to stand next. -/
def word : (budget : Nat) → Reading Word
  | 0 => refuse .depth
  | n + 1 => do
    passBlanks
    let s ← get
    if s.isEmpty || s.head?.any endsWord then refuseNext none
    return expandTilde (← parts false .word n)

/-- The text in a script that a redirection reads from: the lines behind the current one up to a line
that is the mark. -/
def textBelow (mark : Word) (stripped : Bool) : (budget : Nat) → Reading Word
  | 0 => refuse .depth
  | n + 1 => do
    let s ← get
    let line ← lineNumber
    let here := s.takeWhile (· != '\n')
    let (body, rest) := textLines stripped ((literal? mark).getD []) (Raw.lines (s.drop (here.length + 1)))
    let body := Raw.unlines body
    let isLast := rest.isEmpty
    let rest := Raw.unlines rest
    let rest := if !isLast && s.getLast? != some '\n' then rest.dropLast else rest
    if mark.any Part.isQuoted then
      set (here ++ '\n' :: rest)
      return [.text true body]
    else
      set body
      let ps ← withReader (fun _ => line + body.count '\n') (parts true .text n)
      set (here ++ '\n' :: rest)
      return ps

def redirects : (budget : Nat) → Reading (List (Redirect Word))
  | 0 => refuse .depth
  | n + 1 => do
    passBlanks
    match turn? (← get) with
    | none => return []
    | some (stream, turn, s) =>
      let stripped := turn = .here && s.head? == some '-'
      set (if stripped then s.drop 1 else s)
      let target ← word n
      let target ← if turn = .here then textBelow target stripped n else pure target
      let isNumber := (literal? target).all fun t => t = ['-'] || (t.length = 1 && t.all Char.isDigit)
      if turn = .like && !isNumber then refuse .streamNumber
      return ⟨stream, turn, target⟩ :: (← redirects n)

/-- The assignments, words and redirections of a simple command. -/
def simple : (budget : Nat) → (named : Bool) →
    Reading (List (Raw × Word) × List Word × List (Redirect Word))
  | 0, _ => refuse .depth
  | n + 1, named => do
    let rs ← redirects n
    passBlanks
    let s ← get
    if s.isEmpty || s.head?.any endsWord then
      if rs.isEmpty then return ([], [], [])
      else
        let (as, ws, more) ← if (turn? s).isSome then simple n named else pure ([], [], [])
        return (as, ws, rs ++ more)
    match named, assignment? s with
    | false, some (name, s) =>
      set s
      let value ← if s.isEmpty || s.head?.any endsWord then pure [] else word n
      let (as, ws, more) ← simple n false
      return ((name, value) :: as, ws, rs ++ more)
    | _, _ =>
      let w ← word n
      let (as, ws, more) ← simple n true
      return (as, w :: ws, rs ++ more)

/-- Commands up to where their list ends. -/
def list (mayBeEmpty : Bool) : (budget : Nat) → Reading Command
  | 0 => refuse .depth
  | n + 1 => do
    passLines
    if (← get).isEmpty || (mayBeEmpty && endsList (← get)) then return .nothing
    let c ← andOr n
    passBlanks
    match ← get with
    | ';' :: ';' :: _ => return c
    | ';' :: s | '\n' :: s =>
      set s
      return c.andThen (← list true n)
    | '&' :: s =>
      set s
      return Command.andThen (.background c) (← list true n)
    | _ => return c

/-- Pipes joined by `&&` and `||`. -/
def andOr : (budget : Nat) → Reading Command
  | 0 => refuse .depth
  | n + 1 => do moreAndOr n (← pipeline n)

/-- A command with what is joined to it by `&&` and `||`. -/
def moreAndOr : (budget : Nat) → Command → Reading Command
  | 0, _ => refuse .depth
  | n + 1, c => do
    passBlanks
    match ← get with
    | '&' :: '&' :: s =>
      set s
      passLines
      moreAndOr n (.both c (← pipeline n))
    | '|' :: '|' :: s =>
      set s
      passLines
      moreAndOr n (.either c (← pipeline n))
    | _ => return c

/-- Commands joined by pipes, with the sign of negation before them. -/
def pipeline : (budget : Nat) → Reading Command
  | 0 => refuse .depth
  | n + 1 => do
    passBlanks
    let (w, rest) := lead (← get)
    if w = ['!'] then
      set rest
      return .negated (← piped n)
    else piped n

def piped : (budget : Nat) → Reading Command
  | 0 => refuse .depth
  | n + 1 => do
    let c ← command n
    passBlanks
    match ← get with
    | '|' :: '|' :: _ => return c
    | '|' :: s =>
      set s
      passLines
      return .pipe c (← piped n)
    | _ => return c

def command : (budget : Nat) → Reading Command
  | 0 => refuse .depth
  | n + 1 => do
    passBlanks
    let s ← get
    if s.head? == some '(' then
      set (s.drop 1)
      let c ← list false n
      passLines
      if (← get).head? != some ')' then refuseNext (some "\")\"")
      modify (·.drop 1)
      return Command.turned (.apart c) (← redirects n)
    else
      let w := (lead s).1
      if reserved.contains (String.ofList w) then
        let c ← compound (String.ofList w) n
        return c.turned (← redirects n)
      else
        let line ← lineNumber
        let (as, ws, rs) ← simple n false
        let next ← get
        match as, ws, rs with
        | [], [], [] => refuseNext none
        | [], [w], [] =>
          if next.head? == some '(' then
            set (skipBlanks (next.drop 1))
            if (← get).head? != some ')' then refuseNext (some "\")\"")
            modify (·.drop 1)
            match literal? w with
            | some (c :: name) =>
              if !beginsName c || !name.all isNameChar then refuse .functionName
              passLines
              return .define (c :: name) (← command n)
            | _ => refuse .functionName
          else return .simple line as ws rs
        | as, ws, rs => return .simple line as ws rs

def compound (name : String) : (budget : Nat) → Reading Command
  | 0 => refuse .depth
  | n + 1 => do
    let s ← get
    set (lead s).2
    match name with
    | "\x7b" =>
      let c ← list false n
      needWord "\x7d"
      return c
    | "if" => branches n
    | "while" => loop false n
    | "until" => loop true n
    | "for" => each n
    | "case" =>
      passBlanks
      let start ← get
      if start.isEmpty || start.head?.any endsWord then refuseNext (some "word")
      let w ← word n
      needWord "in"
      return .choose w (← arms n)
    | _ =>
      set s
      refuseNext none

/-- What follows `if` or `elif`. -/
def branches : (budget : Nat) → Reading Command
  | 0 => refuse .depth
  | n + 1 => do
    let test ← list false n
    needWord "then"
    let yes ← list false n
    if ← passWord "elif" then return .branch test yes (← branches n)
    else if ← passWord "else" then
      let no ← list false n
      needWord "fi"
      return .branch test yes no
    else
      needWord "fi"
      return .branch test yes .nothing

/-- What follows `while` or `until`. -/
def loop (untilTrue : Bool) : (budget : Nat) → Reading Command
  | 0 => refuse .depth
  | n + 1 => do
    let test ← list false n
    needWord "do"
    let body ← list false n
    needWord "done"
    return .loop untilTrue test body

/-- The items of a loop, up to the end of the command. -/
def loopItems : (budget : Nat) → Reading (List Word)
  | 0 => refuse .depth
  | n + 1 => do
    passBlanks
    match ← get with
    | ';' :: ';' :: _ => refuseNext none
    | ';' :: s | '\n' :: s =>
      set s
      return []
    | _ =>
      let w ← word n
      return w :: (← loopItems n)

/-- What follows `for`. -/
def each : (budget : Nat) → Reading Command
  | 0 => refuse .depth
  | n + 1 => do
    passBlanks
    let (name, s) := lead (← get)
    if !(name.head?.any beginsName && name.all isNameChar) then refuse .loopName
    set s
    passLines
    let items ←
      if ← passWord "in" then pure (some (← loopItems n))
      else
        if (← get).head? == some ';' then modify (·.drop 1)
        pure none
    needWord "do"
    let body ← list false n
    needWord "done"
    return .each name items body

/-- The patterns of an arm, between bars and before a parenthesis. -/
def patterns : (budget : Nat) → Reading (List Word)
  | 0 => refuse .depth
  | n + 1 => do
    passBlanks
    let s ← get
    if s.isEmpty || s.head?.any endsWord then refuseNext (some "\")\"")
    let w ← word n
    passBlanks
    match ← get with
    | '|' :: s =>
      set s
      return w :: (← patterns n)
    | ')' :: s =>
      set s
      return [w]
    | _ => refuseNext (some "\")\"")

/-- The arms of `case`. -/
def arms : (budget : Nat) → Reading (List (List Word × Command))
  | 0 => refuse .depth
  | n + 1 => do
    if ← passWord "esac" then return []
    if (← get).head? == some '(' then modify (·.drop 1)
    let ws ← patterns n
    let body ← list true n
    passLines
    match ← get with
    | ';' :: ';' :: s =>
      set s
      return (ws, body) :: (← arms n)
    | _ =>
      if ← passWord "esac" then return [(ws, body)] else refuseNext (some "\";;\"")

/-- Commands up to the end of the line or of the script. -/
def completeCommand : (budget : Nat) → Reading Command
  | 0 => refuse .depth
  | n + 1 => do
    let c ← andOr n
    passBlanks
    match ← get with
    | [] => return c
    | '\n' :: s =>
      set s
      return c
    | ';' :: ';' :: _ => refuseNext none
    | sign :: s =>
      if sign != ';' && sign != '&' then refuseNext none
      set s
      passBlanks
      let c := if sign == '&' then .background c else c
      match ← get with
      | [] => return c
      | '\n' :: s =>
        set s
        return c
      | _ => return c.andThen (← completeCommand n)

def commands : (budget : Nat) → Reading Command
  | 0 => refuse .depth
  | n + 1 => do
    passLines
    if (← get).isEmpty then return .nothing
    let c ← completeCommand n
    return c.andThen (← commands n)

end

/-- A budget that is enough for reading a script. -/
def readingBudget (s : Raw) : Nat := 16 * s.length + 64

/-- The next complete command of a script in which `ends` lines end, and what follows; none at its
end. -/
def readNext? (ends : Nat) (s : Raw) : Except (Nat × Misread) (Option (Command × Raw)) :=
  let s := skipLines s.length s
  if s.isEmpty then .ok none
  else do return some (← ((completeCommand (readingBudget s)).run ends).run s)

end Shell

end TestRepair
