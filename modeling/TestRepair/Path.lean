import TestRepair.Text.Search

/-!
Paths as they are spelled. A path keeps its text; comparing, ordering, joining, taking apart and
normalising go by its components, among which repeated slashes and inner `.` do not count.
-/

namespace TestRepair

/-- A spelled path. -/
structure Path where
  text : String
  deriving DecidableEq, Repr

/-- A step that a path names. -/
inductive PathComponent
  | root
  /-- A leading `.`, the only one that counts. -/
  | here
  | up
  | name (s : String)
  deriving DecidableEq, Repr

namespace PathComponent

def text : PathComponent → String
  | root => "/"
  | here => "."
  | up => ".."
  | name s => s

/-- The order of components: root, `.`, `..`, then names by their characters. -/
def compare : PathComponent → PathComponent → Ordering
  | name a, name b => Ord.compare a b
  | a, b => Ord.compare (rank a) (rank b)
where
  /-- The place of a component among the kinds. -/
  rank : PathComponent → Nat
    | root => 0
    | here => 1
    | up => 2
    | name _ => 3

end PathComponent

namespace Path

instance : Inhabited Path := ⟨⟨""⟩⟩

def pieces (p : Path) : List (List Char) := Text.splitAtChar '/' p.text.toList

def isAbsolute (p : Path) : Bool := p.text.toList.head? == some '/'

/-- A piece that names no step when something stands before it. -/
def isIdle (piece : List Char) : Bool := piece.isEmpty || piece == ['.']

def component (piece : List Char) : PathComponent :=
  if piece == ['.', '.'] then .up else .name (String.ofList piece)

/-- The components that pieces behind the first one name. -/
def innerComponents (ps : List (List Char)) : List PathComponent :=
  (ps.filter fun p => !isIdle p).map component

def components (p : Path) : List PathComponent :=
  match p.pieces with
  | [] => []
  | first :: rest =>
    let head :=
      if first.isEmpty then (if p.isAbsolute then [.root] else [])
      else if first == ['.'] then [.here] else [component first]
    head ++ innerComponents rest

/-- Whether two paths have the same components. -/
def same (p q : Path) : Bool := p.components == q.components

/-- The order of paths, component by component. -/
def compareComponents : List PathComponent → List PathComponent → Ordering
  | [], [] => .eq
  | [], _ :: _ => .lt
  | _ :: _, [] => .gt
  | a :: as, b :: bs => (a.compare b).then (compareComponents as bs)

/-- The order of paths, component by component. -/
def compare (p q : Path) : Ordering := compareComponents p.components q.components

def ofComponents : List PathComponent → Path
  | .root :: cs => ⟨"/" ++ String.intercalate "/" (cs.map (·.text))⟩
  | cs => ⟨String.intercalate "/" (cs.map (·.text))⟩

/-- `q` seen from `p`: an absolute `q` stands alone. -/
def join (p q : Path) : Path :=
  if q.isAbsolute then q
  else if p.text.isEmpty || p.text.toList.getLast? == some '/' then ⟨p.text ++ q.text⟩
  else ⟨p.text ++ "/" ++ q.text⟩

/-- `name` seen from `p`. -/
def child (p : Path) (name : String) : Path := p.join ⟨name⟩

/-- Drops idle pieces from the end of a list, but never its first piece. -/
def dropIdleEnd (ps : List (List Char)) : List (List Char) :=
  match ps with
  | [] => []
  | first :: rest => first :: (rest.reverse.dropWhile isIdle).reverse

/-- The path that pieces spell; a lone empty piece is the root if there was one. -/
def ofPieces (absolute : Bool) (ps : List (List Char)) : Path :=
  if absolute && ps == [[]] then ⟨"/"⟩ else ⟨String.ofList (Text.joinWith ['/'] ps)⟩

def parent? (p : Path) : Option Path :=
  if p.components == [] || p.components == [.root] then none
  else
    match (dropIdleEnd p.pieces).dropLast with
    | [] => some ⟨""⟩
    | ps => some (ofPieces p.isAbsolute (dropIdleEnd ps))

/-- What is left of the pieces of a path once the given components have been passed. -/
def dropComponents : List PathComponent → List (List Char) → Option (List (List Char))
  | [], ps => some ps
  | .root :: cs, ps => dropComponents cs ps.tail
  | .here :: cs, ps => dropComponents cs ps.tail
  | c :: cs, ps =>
    match ps.dropWhile isIdle with
    | [] => none
    | p :: ps => if component p == c then dropComponents cs ps else none

/-- The part of `p` below `base`, as it is spelled in `p`. -/
def below? (p base : Path) : Option Path :=
  let cs := base.components
  if cs.isPrefixOf p.components then
    if cs.isEmpty then some (ofPieces p.isAbsolute (dropIdleEnd p.pieces))
    else
      (dropComponents cs p.pieces).map fun ps =>
        ⟨String.ofList (Text.joinWith ['/'] (((ps.dropWhile isIdle).reverse.dropWhile isIdle).reverse))⟩
  else none

/-- The path as reports show it: below `root` where possible, with forward slashes. -/
def shownFrom (p root : Path) : String :=
  String.ofList (((p.below? root).getD p).text.toList.map fun c => if c = '\\' then '/' else c)

/-- Carries out one component on the components so far: `.` changes nothing, `..` takes the last
one back unless there is none or only the root. -/
def normalStep (out : List PathComponent) : PathComponent → List PathComponent
  | .here => out
  | .up => if out == [] || out == [.root] then out ++ [.up] else out.dropLast
  | c => out ++ [c]

/-- The path with `.` and `..` carried out, going by the spelling alone. -/
def normalize (p : Path) : Path := ofComponents (p.components.foldl normalStep [])

/-- The steps that a look-up takes: a slash at the end stays at what was reached. -/
def steps (p : Path) : List String :=
  let named := (p.pieces.filter (!·.isEmpty)).map String.ofList
  if p.text.toList.getLast? == some '/' && !named.isEmpty then named ++ ["."] else named

end Path

end TestRepair
