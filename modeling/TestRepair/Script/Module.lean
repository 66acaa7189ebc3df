import TestRepair.FileTree.Basic

/-!
The file that a relative specifier means. A specifier may leave its ending out, name a directory with
an index file, or name the compiled form of a typed module.
-/

namespace TestRepair

namespace Script

/-- The endings that a specifier may leave out, in the order in which they are tried. -/
def omittedEndings : List String := [".ts", ".js", ".tsx", ".mjs"]

/-- The paths that a specifier may mean, in the order in which they are tried. -/
def modulePaths (dir : Path) (specifier : String) : List Path :=
  let plain := dir.child specifier
  let typed :=
    match Text.front? ".js".toList specifier.toList with
    | some stem => [".ts", ".tsx"].map fun ending => dir.child (String.ofList stem ++ ending)
    | none => []
  plain :: typed ++ omittedEndings.map (fun ending => dir.child (specifier ++ ending)) ++
    [plain.child "index.ts", plain.child "index.js"]

/-- The file that a specifier means, seen from a directory. -/
def module? (t : FileTree) (dir : Path) (specifier : String) : Option Path :=
  ((modulePaths dir specifier).map Path.normalize).find? t.isFile

end Script

end TestRepair
