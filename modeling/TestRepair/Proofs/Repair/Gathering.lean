import TestRepair.Proofs.FileTree.Descending
import TestRepair.Proofs.FileTree.Matching
import TestRepair.Proofs.FileTree.Ordering

/-!
What the sources of a project are. In a tree without loops of links they are exactly the files that a
path below one of the locator directories leads to and that have one of the endings, each once and in
the order of paths. So neither the order of directories and endings counts, nor whether a directory is
covered twice.
-/

namespace TestRepair

/-- The path goes on from a base by names. -/
def Path.Continues (p base : Path) : Prop :=
  ∃ names : List String, names ≠ [] ∧ p.route = base.route ++ names.map .name

theorem Path.Continues.trans {p q r : Path} (h : p.Continues q) (h' : q.Continues r) :
    p.Continues r := by
  obtain ⟨names, ne, hp⟩ := h
  obtain ⟨names', -, hq⟩ := h'
  exact ⟨names' ++ names, by simp [ne], by rw [hp, hq, List.map_append, List.append_assoc]⟩

namespace Patch

open FileTree TestRepair.Path

variable {t : FileTree} {workDir dir p f : Path} {dirs dirs' : List Path}
  {extensions extensions' : List String} {files files' : List Path}

/-- A path is a source: it goes on by names from a locator directory that is there, leads to a file, and
its last name ends in a dot and one of the endings. -/
structure Source (t : FileTree) (workDir : Path) (dirs : List Path) (extensions : List String)
    (p : Path) : Prop where
  listed : ∃ dir ∈ dirs, t.isDir (workDir.join dir) = true ∧ p.Continues (workDir.join dir)
  file : t.isFile p = true
  ending : ∃ e ∈ extensions, ∃ n, p.route.getLast? = some (.name n) ∧ '.' :: e.toList <:+ n.toList

/-- Endings that are names without wildcards. -/
def Endings (extensions : List String) : Prop :=
  ∀ e ∈ extensions, Glob.Literal e.toList ∧ '/' ∉ e.toList

instance (extensions : List String) : Decidable (Endings extensions) := List.decidableBAll _ extensions

section Gathering

/-- What is found below one directory. -/
def gathered (t : FileTree) (dir : Path) (extensions : List String) : List Path :=
  if t.isDir dir then
    (extensions.map fun e => (Glob.below t (Glob.budget t) (Glob.spelledBase dir)).filter fun p =>
      Glob.nameMatches (Glob.endingTokens e.toList) (Glob.lastName p)).flatten.filter t.isFile
  else []

theorem mapM_eq_ok {ε α β : Type} {f : α → Except ε β} {g : α → β} {xs : List α}
    (h : ∀ x ∈ xs, f x = .ok (g x)) : xs.mapM f = .ok (xs.map g) :=
  (mapM_congr h).trans List.mapM_pure

theorem sourcesBelow_eq (he : Endings extensions) (dir : Path) :
    sourcesBelow t dir extensions = .ok (gathered t dir extensions) := by
  unfold sourcesBelow gathered
  split
  · rw [mapM_eq_ok fun e mem => Glob.withEnding_of_literal t dir (he e mem).1 (he e mem).2]
    rfl
  · rfl

theorem sources_eq (he : Endings extensions) : sources t workDir dirs extensions =
    .ok ((dirs.map fun dir => gathered t (workDir.join dir) extensions).flatten.foldl
      (fun ps p => insertPath p ps) []) := by
  rw [sources, mapM_eq_ok fun dir _ => sourcesBelow_eq he (workDir.join dir)]
  rfl

theorem mem_gathered : f ∈ gathered t dir extensions ↔ t.isDir dir = true ∧
    f ∈ Glob.below t (Glob.budget t) (Glob.spelledBase dir) ∧
    (∃ e ∈ extensions, '.' :: e.toList <:+ Glob.lastName f) ∧ t.isFile f = true := by
  unfold gathered
  split
  · next there =>
    simp only [List.mem_filter, List.mem_flatten, List.mem_map, there, true_and]
    constructor
    · rintro ⟨⟨_, ⟨e, he, rfl⟩, hf⟩, file⟩
      obtain ⟨found, ending⟩ := List.mem_filter.mp hf
      exact ⟨found, ⟨e, he, Glob.nameMatches_endingTokens.mp ending⟩, file⟩
    · rintro ⟨found, ⟨e, he, ending⟩, file⟩
      exact ⟨⟨_, ⟨e, he, rfl⟩, List.mem_filter.mpr ⟨found, Glob.nameMatches_endingTokens.mpr ending⟩⟩,
        file⟩
  · next missing => simp [missing]

/-- A path that goes on by names ends in the last of them. -/
theorem getLast?_route {names : List String} {n : String} {cs : List PathComponent}
    (h : p.route = cs ++ (names ++ [n]).map .name) : p.route.getLast? = some (.name n) := by
  rw [h, List.map_append, ← List.append_assoc]
  exact List.getLast?_concat

theorem source_of_gathered (ht : t.WellFormed) (hdir : dir ∈ dirs)
    (h : f ∈ gathered t (workDir.join dir) extensions) :
    Source t workDir dirs extensions f ∧ f.components = f.route := by
  obtain ⟨there, found, ⟨e, he, ending⟩, file⟩ := mem_gathered.mp h
  obtain ⟨names, ne, spoken, rfl⟩ := Glob.down_of_mem_below ht found
  have route := (route_down (p := Glob.spelledBase (workDir.join dir)) spoken).trans
    (congrArg (· ++ _) (route_spelledBase _))
  obtain ⟨init, n, rfl⟩ := (List.eq_nil_or_concat' names).resolve_left ne
  have last : Glob.lastName ((Glob.spelledBase (workDir.join dir)).down (init ++ [n])) = n.toList := by
    rw [down_concat, lastName_child (spoken n (by simp))]
  refine ⟨⟨⟨dir, hdir, there, _, ne, route⟩, file, e, he, n, getLast?_route route, last ▸ ending⟩, ?_⟩
  rw [components_down spoken, components_spelledBase, route]

theorem gathered_of_source (ht : t.WellFormed) (loopless : t.Loopless)
    (h : Source t workDir dirs extensions p) : ∃ dir ∈ dirs,
      ∃ f ∈ gathered t (workDir.join dir) extensions, f.components = p.route := by
  obtain ⟨dir, hdir, there, names, ne, route⟩ := h.listed
  obtain ⟨q, leads, b, m, held⟩ := isFile_eq_true_iff.mp h.file
  obtain ⟨e, he, n, last, ending⟩ := h.ending
  have spoken : ∀ n ∈ names, Spoken (.name n) := by
    intro n hn
    have mem : .name n ∈ p.route := by simp [route, hn]
    exact spoken_of_mem_components (List.mem_filter.mp mem).1
  let base := Glob.spelledBase (workDir.join dir)
  have same : (base.down names).route = p.route := by
    rw [route_down spoken, route_spelledBase, route]
  have reaches : t.Reaches (base.down names) q := (reaches_of_canonical leads).of_route same.symm
  have found := Glob.mem_below_budget ht loopless spoken ne reaches
  refine ⟨dir, hdir, base.down names, mem_gathered.mpr ⟨there, found, ⟨e, he, ?_⟩, ?_⟩, ?_⟩
  all_goals obtain ⟨init, n', rfl⟩ := (List.eq_nil_or_concat' names).resolve_left ne
  · obtain rfl : n' = n := by simpa [getLast?_route route] using last
    rwa [down_concat, lastName_child (spoken n' (by simp))]
  · rw [down_concat] at reaches ⊢
    have spoken' := spoken n' (by simp)
    exact isFile_eq_true_iff.mpr ⟨q, (canonical_child_iff spoken').mpr reaches, b, m, held⟩
  · rw [components_down spoken, components_spelledBase, route]

end Gathering

/-- A list of paths is the list of the sources: in order, nothing but sources, and each of them, where a
leading dot is never spelled. -/
structure ListsSources (t : FileTree) (workDir : Path) (dirs : List Path) (extensions : List String)
    (files : List Path) : Prop where
  ascending : Ascending files
  sound : ∀ f ∈ files, Source t workDir dirs extensions f ∧ f.components = f.route
  complete : ∀ p, Source t workDir dirs extensions p → ∃ f ∈ files, f.components = p.route

theorem ListsSources.mem_components (h : ListsSources t workDir dirs extensions files)
    (cs : List PathComponent) : cs ∈ files.map Path.components ↔
      ∃ p, Source t workDir dirs extensions p ∧ p.route = cs := by
  rw [List.mem_map]
  constructor
  · rintro ⟨f, hf, rfl⟩
    obtain ⟨source, same⟩ := h.sound f hf
    exact ⟨f, source, same.symm⟩
  · rintro ⟨p, source, rfl⟩
    exact h.complete p source

theorem ListsSources.eq (h : ListsSources t workDir dirs extensions files)
    (h' : ListsSources t workDir dirs' extensions' files') (same : ∀ p,
      Source t workDir dirs extensions p ↔ Source t workDir dirs' extensions' p) :
    files.map Path.components = files'.map Path.components :=
  components_eq_of_ascending h.ascending h'.ascending fun cs => by
    simp only [h.mem_components, h'.mem_components, same]

theorem sources_listed (ht : t.WellFormed) (loopless : t.Loopless) (he : Endings extensions)
    (workDir : Path) (dirs : List Path) : ∃ files, sources t workDir dirs extensions = .ok files ∧
      ListsSources t workDir dirs extensions files := by
  refine ⟨_, sources_eq he, ascending_foldl_insertPath _ List.Pairwise.nil, fun f hf => ?_,
    fun p source => ?_⟩
  · have mem := (mem_foldl_insertPath hf).resolve_right nofun
    obtain ⟨found, listed, hf⟩ := List.mem_flatten.mp mem
    obtain ⟨dir, hdir, rfl⟩ := List.mem_map.mp listed
    exact source_of_gathered ht hdir hf
  · obtain ⟨dir, hdir, f, hf, same⟩ := gathered_of_source ht loopless source
    have mem : p.route ∈ ((dirs.map fun dir => gathered t (workDir.join dir) extensions).flatten).map
        Path.components := by
      rw [← same]
      exact List.mem_map_of_mem (List.mem_flatten.mpr ⟨_, List.mem_map_of_mem hdir, hf⟩)
    exact List.mem_map.mp ((mem_components_foldl_insertPath _).mpr (.inl mem))

theorem Source.mono (h : Source t workDir dirs extensions p) (hd : dirs ⊆ dirs')
    (he : extensions ⊆ extensions') : Source t workDir dirs' extensions' p := by
  obtain ⟨⟨dir, mem, there, below⟩, file, e, mem', ending⟩ := h
  exact ⟨⟨dir, hd mem, there, below⟩, file, e, he mem', ending⟩

/-- The sources are listed exactly, in the order of paths and none of them twice. The same ones are
listed for the same directories and endings in any order and number, and with directories added that
are below those listed. -/
theorem sources_exact (ht : t.WellFormed) (loopless : t.Loopless) (he : Endings extensions)
    (workDir : Path) (dirs : List Path) :
    ∃ files, sources t workDir dirs extensions = .ok files ∧
      ListsSources t workDir dirs extensions files ∧
      (∀ dirs' extensions', (∀ d, d ∈ dirs' ↔ d ∈ dirs) → (∀ e, e ∈ extensions' ↔ e ∈ extensions) →
        ∃ files', sources t workDir dirs' extensions' = .ok files' ∧
          files'.map Path.components = files.map Path.components) ∧
      ∀ more, (∀ d ∈ more, ∃ dir ∈ dirs, t.isDir (workDir.join dir) = true ∧
          (workDir.join d).Continues (workDir.join dir)) →
        ∃ files', sources t workDir (dirs ++ more) extensions = .ok files' ∧
          files'.map Path.components = files.map Path.components := by
  obtain ⟨files, listed, lists⟩ := sources_listed ht loopless he workDir dirs
  refine ⟨files, listed, lists, fun dirs' extensions' hd hx => ?_, fun more covered => ?_⟩
  · have he' : Endings extensions' := fun e mem => he e ((hx e).mp mem)
    obtain ⟨files', listed', lists'⟩ := sources_listed ht loopless he' workDir dirs'
    refine ⟨files', listed', lists'.eq lists fun p => ⟨fun h => h.mono ?_ ?_, fun h => h.mono ?_ ?_⟩⟩
    · exact fun d => (hd d).mp
    · exact fun e => (hx e).mp
    · exact fun d => (hd d).mpr
    · exact fun e => (hx e).mpr
  · obtain ⟨files', listed', lists'⟩ := sources_listed ht loopless he workDir (dirs ++ more)
    refine ⟨files', listed', lists'.eq lists fun p => ⟨fun h => ?_, fun h => ?_⟩⟩
    · obtain ⟨⟨d, mem, there, below⟩, file, ending⟩ := h
      rcases List.mem_append.mp mem with mem | mem
      · exact ⟨⟨d, mem, there, below⟩, file, ending⟩
      · obtain ⟨dir, hdir, there', above⟩ := covered d mem
        exact ⟨⟨dir, hdir, there', below.trans above⟩, file, ending⟩
    · exact h.mono (List.subset_append_left _ _) (List.Subset.refl _)

/-- Pages with a directory that is named like a source, a link to a page and one to a directory. -/
def linkedPages : FileTree where
  nodes := .ofList [(["lib"], .dir), (["lib", "base.ts"], .file .empty 0o644), (["pages"], .dir),
    (["pages", "log.in.ts"], .file .empty 0o644), (["pages", "old.ts"], .dir),
    (["pages", "old.ts", ".a.ts"], .file .empty 0o644), (["pages", "shared"], .link ⟨"../lib"⟩),
    (["pages", "start.ts"], .link ⟨"log.in.ts"⟩)]

theorem wellFormed_linkedPages : linkedPages.WellFormed := wellFormed_of_fits rfl (by decide)

theorem loopless_linkedPages : linkedPages.Loopless := by
  refine loopless_of_falls (fun q => if q.head? = some "lib" then 0 else 3 - q.length) ?_
  decide +kernel

theorem sources_linkedPages : linkedPages.WellFormed ∧ linkedPages.Loopless ∧ Endings ["ts"] ∧
    ∃ files, sources linkedPages ⟨"/"⟩ [⟨"pages"⟩] ["ts"] = .ok files ∧
      (∃ f ∈ files, f.components = (⟨"/pages/shared/base.ts"⟩ : Path).components) ∧
      ∃ files', sources linkedPages ⟨"/"⟩ [⟨"pages"⟩, ⟨"pages/old.ts"⟩] ["ts"] = .ok files' ∧
        files'.map Path.components = files.map Path.components := by
  have endings : Endings ["ts"] := by decide
  obtain ⟨files, listed, lists, -, covered⟩ :=
    sources_exact wellFormed_linkedPages loopless_linkedPages endings ⟨"/"⟩ [⟨"pages"⟩]
  have source : Source linkedPages ⟨"/"⟩ [⟨"pages"⟩] ["ts"] ⟨"/pages/shared/base.ts"⟩ := {
    listed := ⟨⟨"pages"⟩, List.mem_cons_self, by decide +kernel, ["shared", "base.ts"], by decide,
      by decide⟩
    file := by decide +kernel
    ending := ⟨"ts", List.mem_cons_self, "base.ts", by decide, by decide⟩ }
  refine ⟨wellFormed_linkedPages, loopless_linkedPages, endings, files, listed,
    lists.complete _ source, covered [⟨"pages/old.ts"⟩] ?_⟩
  simp only [List.mem_singleton, forall_eq, exists_eq_left]
  exact ⟨by decide +kernel, ["old.ts"], by decide, by decide⟩

/-- A source in a directory whose name has a dot. -/
def dottedDir : FileTree where
  nodes := .ofList [(["pages"], .dir), (["pages", "a.d"], .dir),
    (["pages", "a.d", "x.ts"], .file .empty 0o644)]

theorem wellFormed_dottedDir : dottedDir.WellFormed := wellFormed_of_fits rfl (by decide)

theorem loopless_dottedDir : dottedDir.Loopless :=
  loopless_of_falls (fun q => 3 - q.length) (by decide +kernel)

theorem withEnding_dottedDir : ∃ found,
    Glob.withEnding dottedDir ⟨"/pages"⟩ "d/x.ts" = .ok found ∧ ⟨"/pages/a.d/x.ts"⟩ ∈ found := by
  refine ⟨Glob.descend dottedDir ⟨"/pages"⟩ [.anyDirs, .name [.anyRun, .char '.', .char 'd'],
    .name ("x.ts".toList.map .char)], rfl, ?_⟩
  have dir : ⟨"/pages/a.d"⟩ ∈ Glob.below dottedDir (Glob.budget dottedDir) ⟨"/pages"⟩ := by
    have spoken : ∀ n ∈ ["a.d"], Spoken (.name n) := by
      simpa using (show Place.Proper "a.d" by decide).spoken
    have leads : dottedDir.canonical ⟨"/pages/a.d"⟩ = .ok ["pages", "a.d"] := by decide +kernel
    exact Glob.mem_below_budget wellFormed_dottedDir loopless_dottedDir spoken (by decide)
      (reaches_of_canonical leads)
  rw [Glob.descend, if_neg (by decide)]
  refine List.mem_flatMap.mpr ⟨_, dir, ?_⟩
  rw [Glob.matching, if_pos (by decide), if_neg (by decide), Glob.descend]
  have there : dottedDir.exists ((⟨"/pages/a.d"⟩ : Path).child "x.ts") = true := by decide +kernel
  have name : Glob.literal? ("x.ts".toList.map .char) = some "x.ts" := by decide
  simp only [name, there, if_true]
  exact List.mem_singleton.mpr rfl

/-- An ending with a slash lists a file whose name does not have it. -/
theorem slash_ending_listed : dottedDir.WellFormed ∧ dottedDir.Loopless ∧
    Glob.Literal "d/x.ts".toList ∧
    ∃ files, sources dottedDir ⟨"/"⟩ [⟨"pages"⟩] ["d/x.ts"] = .ok files ∧
      ∃ f ∈ files, ¬Source dottedDir ⟨"/"⟩ [⟨"pages"⟩] ["d/x.ts"] f := by
  obtain ⟨found, listed, mem⟩ := withEnding_dottedDir
  have there : dottedDir.isDir ⟨"/pages"⟩ = true := by decide +kernel
  have file : dottedDir.isFile ⟨"/pages/a.d/x.ts"⟩ = true := by decide +kernel
  have base : (⟨"/"⟩ : Path).join ⟨"pages"⟩ = ⟨"/pages"⟩ := rfl
  have gathers : sources dottedDir ⟨"/"⟩ [⟨"pages"⟩] ["d/x.ts"] =
      .ok ((found.filter dottedDir.isFile).foldl (fun ps p => insertPath p ps) []) := by
    simp [sources, sourcesBelow, base, there, listed]
  refine ⟨wellFormed_dottedDir, loopless_dottedDir, by decide, _, gathers, ?_⟩
  have inside : (⟨"/pages/a.d/x.ts"⟩ : Path).components ∈ ((found.filter dottedDir.isFile).foldl
      (fun ps p => insertPath p ps) []).map Path.components :=
    (mem_components_foldl_insertPath _).mpr
      (.inl (List.mem_map_of_mem (List.mem_filter.mpr ⟨mem, file⟩)))
  obtain ⟨f, hf, same⟩ := List.mem_map.mp inside
  refine ⟨f, hf, fun source => ?_⟩
  obtain ⟨e, he, n, last, ending⟩ := source.ending
  have name : f.route.getLast? = some (.name "x.ts") := by
    rw [route, same]
    decide
  obtain rfl : "x.ts" = n := by simpa [name] using last
  obtain rfl : e = "d/x.ts" := by simpa using he
  exact absurd ending (by decide)

end Patch
end TestRepair
