import TestRepair.Proofs.FileTree.Searching
import TestRepair.Proofs.Trial.Changes

/-!
How far a trial reaches from its work directory. With the default settings and a runner that changes
nothing, a step makes at most the directory of the script. Every file that it changes is one to which
the path of the script leads, or that of a source, or that of a module that the script imports. The
first two are spelled below the work directory, wherever links may lead them.
-/

namespace TestRepair

open Place (Proper Spellable Below)

namespace FileTree

section

variable {t : FileTree} {d : Place} {n : String}

/-- The path of an entry of a directory leads to it, or its name is free there. -/
theorem goal_entry (ht : t.WellFormed) (hd : t.get? d = some .dir) (hn : Proper n) :
    t.goal false (d ++ [n]).path =
      .ok (if t.get? (d ++ [n]) = none then .free d n else .node (d ++ [n])) := by
  have hnames : ∀ m ∈ d ++ [n], Proper m :=
    List.forall_mem_append.mpr ⟨ht.names (hd ▸ Option.some_ne_none _), by simpa using hn⟩
  rw [goal_eq_ok_iff, Place.steps_path (Place.spellable_of_proper hnames)]
  refine ⟨Place.spelled_path hnames, ?_⟩
  simp only [origin, Place.isAbsolute_path, if_true]
  refine leads_down (d := []) ht hd ?_
  cases hq : t.get? (d ++ [n]) with
  | none => exact .free _ hn.toNamesEntry hq
  | some x =>
      cases x with
      | dir => exact .dir hn.toNamesEntry hq (.done _ _)
      | file b m => exact .file _ hn.toNamesEntry hq
      | link p => exact .link _ hn.toNamesEntry hq rfl

theorem makeDir_entry (ht : t.WellFormed) (hd : t.get? d = some .dir) (hn : Proper n) :
    t.makeDir (d ++ [n]).path =
      if t.get? (d ++ [n]) = none then .ok (t.set (d ++ [n]) .dir) else .error .exists := by
  rw [makeDir, goal_entry ht hd hn]
  split <;> rfl

/-- In a directory that is there, one directory at most has to be made. -/
theorem makeDirs_entry (ht : t.WellFormed) (hd : t.get? d = some .dir) (hn : Proper n) :
    t.makeDirs (d ++ [n]).path =
      if t.get? (d ++ [n]) = none then (.ok (), t.set (d ++ [n]) .dir)
      else if t.isDir (d ++ [n]).path then (.ok (), t) else (.error .exists, t) := by
  rw [makeDirs, ensureDirs, makeDir_entry ht hd hn]
  by_cases hq : t.get? (d ++ [n]) = none
  · simp [hq]
  · simp [hq]

end

/-- A file holds something else but keeps its mode, or there is a plain file where nothing was. -/
inductive Rewritten (t t' : FileTree) (q : Place) : Prop
  | file {b b' : ByteArray} {m : Nat} (before : t.get? q = some (.file b m))
      (after : t'.get? q = some (.file b' m))
  | new {b : ByteArray} (before : t.get? q = none) (after : t'.get? q = some (.file b plainMode))

section

variable {t t' t'' : FileTree} {q : Place}

theorem Rewritten.congr (h : Rewritten t t' q) (he : t''.get? q = t'.get? q) :
    Rewritten t t'' q := by
  cases h with
  | file before after => exact .file before (he.trans after)
  | new before after => exact .new before (he.trans after)

theorem Rewritten.congr_left (h : Rewritten t' t'' q) (he : t'.get? q = t.get? q) :
    Rewritten t t'' q := by
  cases h with
  | file before after => exact .file (he ▸ before) after
  | new before after => exact .new (he ▸ before) after

theorem Rewritten.trans (h : Rewritten t t' q) (h' : Rewritten t' t'' q) : Rewritten t t'' q := by
  cases h' with
  | file before' after' =>
      cases h with
      | file before after =>
          rw [after] at before'
          cases before'
          exact .file before after'
      | new before after =>
          rw [after] at before'
          cases before'
          exact .new before after'
  | new before' _ =>
      cases h with
      | file _ after | new _ after =>
          rw [after] at before'
          cases before'

end

end FileTree

namespace Trial

open FileTree

/-- Where the script lies in a work directory. -/
def scriptNames : Place := ["tests", "generated.spec.ts"]

/-- A trial in the directory at a place that looks for locators and writes its script where all trials
do that are not told otherwise. -/
structure Placed (s : Setup) (d : Place) : Prop where
  runner : s.settings.runner = {}
  healing : s.settings.healing = {}
  workDir : s.request.workDir = d.path

/-- The path of a module that a script in the directory `d` imports. -/
def Imports (t : FileTree) (d : Place) (script : String) (p : Path) : Prop :=
  ∃ cls specifier, Script.importOf? script cls = some specifier ∧
    Script.module? t (d ++ ["tests"]).path specifier = some p

/-- The paths through which a trial of a script in the directory `d` writes. -/
inductive Aims (t : FileTree) (d : Place) (script : String) (p : Path) : Prop
  | script (h : p = (d ++ scriptNames).path)
  | source {files : List Path} (hf : Patch.sources t d.path ({} : HealingSettings).locatorDirs
      ({} : HealingSettings).sourceExtensions = .ok files) (hp : p ∈ files)
  | module (h : Imports t d script p)

/-- How a step of a trial of a script in the directory `d` may change what stands at a place. -/
inductive Reached (t t' : FileTree) (d : Place) (script : String) (q : Place) : Prop
  | made (hq : q = d ++ ["tests"]) (before : t.get? q = none) (after : t'.get? q = some .dir)
  | written (h : Rewritten t t' q) {p : Path} (hp : Aims t d script p) (hq : t'.canonical p = .ok q)

theorem Aims.below_or_imports {t : FileTree} {d : Place} {script : String} {p : Path}
    (h : Aims t d script p) (ht : t.WellFormed) (hd : ∀ n ∈ d, Proper n) :
    Below d p ∨ Imports t d script p := by
  cases h with
  | script h => exact .inl ⟨scriptNames, by decide, h⟩
  | source hf hp =>
      obtain ⟨⟨l, hl, names, hnames, rfl⟩, -⟩ := Patch.mem_sources ht hd hf hp
      refine .inl ⟨l ++ names, ?_, by rw [List.append_assoc]⟩
      exact List.forall_mem_append.mpr ⟨(Patch.proper_of_mem_locatorPlaces hl).2, hnames⟩
  | module h => exact .inr h

/-- What a step of a trial comes to for the files. -/
structure Reaches (t t' : FileTree) (d : Place) (script : String) : Prop where
  grows : Extends t t'
  wellFormed : t'.WellFormed
  changed : ∀ q, t'.get? q ≠ t.get? q → Reached t t' d script q

theorem Reaches.refl {t : FileTree} (ht : t.WellFormed) (d : Place) (script : String) :
    Reaches t t d script :=
  ⟨.refl t, ht, fun _ hq => absurd rfl hq⟩

section

variable {s : Setup} {d : Place} (hs : Placed s d)

include hs

theorem Placed.scriptFile (hd : ∀ n ∈ d, Proper n) : s.scriptFile = (d ++ scriptNames).path := by
  have hpath : s.scriptPath = Place.relative scriptNames := by
    rw [Setup.scriptPath, hs.runner]
    rfl
  rw [Setup.scriptFile, hs.workDir, hpath,
    Place.join_relative (Place.spellable_of_proper hd) (by decide)
      (Place.spellable_of_proper (by decide))]

theorem Placed.parent? (hd : ∀ n ∈ d, Proper n) :
    s.scriptFile.parent? = some (d ++ ["tests"]).path := by
  have hall : ∀ n ∈ d ++ ["tests"], Proper n := List.forall_mem_append.mpr ⟨hd, by decide⟩
  rw [hs.scriptFile hd, scriptNames, List.append_cons, Place.parent?_path hall (by decide)]

theorem Placed.makeParents_eq {t : FileTree} (ht : t.WellFormed) (hd : t.get? d = some .dir) :
    makeParents t s.scriptFile =
      if t.get? (d ++ ["tests"]) = none then (.ok (), t.set (d ++ ["tests"]) .dir)
      else if t.isDir (d ++ ["tests"]).path then (.ok (), t) else (.error .exists, t) := by
  have hnames := ht.names (hd ▸ Option.some_ne_none _)
  simp only [makeParents, hs.parent? hnames, makeDirs_entry ht hd (n := "tests") (by decide)]

theorem Placed.makeParents_cases {t : FileTree} (ht : t.WellFormed) (hd : t.get? d = some .dir) :
    (makeParents t s.scriptFile).2 = t ∨
      t.get? (d ++ ["tests"]) = none ∧
        (makeParents t s.scriptFile).2 = t.set (d ++ ["tests"]) .dir := by
  rw [hs.makeParents_eq ht hd]
  split
  · exact .inr ⟨‹_›, rfl⟩
  · split <;> exact .inl rfl

/-- Writing the script reaches the directory of the script and the file that its path leads to. -/
theorem Placed.reaches_writeScript {t : FileTree} (ht : t.WellFormed) (hd : t.get? d = some .dir)
    (script text : String) : Reaches t (writeScript t s.scriptFile text).2 d script := by
  have hwrote := wrote_writeScript ht s.scriptFile text
  have hadds := (makesDirs_makeParents t s.scriptFile).addsDirs
  have made : ∀ q, (makeParents t s.scriptFile).2.get? q ≠ t.get? q → q = d ++ ["tests"] ∧
      t.get? q = none ∧ (makeParents t s.scriptFile).2.get? q = some .dir := by
    intro q hq
    obtain h | ⟨hfree, h⟩ := hs.makeParents_cases ht hd
    · exact absurd (by rw [h]) hq
    · rw [h] at hq ⊢
      by_cases he : q = d ++ ["tests"]
      · subst he
        exact ⟨rfl, hfree, get?_set_self t _ (by simp)⟩
      · exact absurd (get?_set_of_ne t _ (by simp) he) hq
  refine ⟨hwrote.grows, hwrote.wellFormed, fun q hq => ?_⟩
  obtain ⟨e, h, -⟩ | ⟨t', h, -, hw⟩ := writeScript_cases t s.scriptFile text
  · rw [h] at hq ⊢
    obtain ⟨he, hfree, hmade⟩ := made q hq
    exact .made he hfree hmade
  · rw [h] at hq ⊢
    obtain ⟨p, m, hne, rfl, hfile, hp⟩ := write_eq_ok hw
    by_cases he : q = p
    · subst he
      have hself := get?_set_self (makeParents t s.scriptFile).2 (.file text.toUTF8 m) hne
      refine .written ?_ (.script (hs.scriptFile (ht.names (hd ▸ Option.some_ne_none _)))) hfile
      obtain ⟨⟨e, n, rfl, hfree⟩, rfl⟩ | ⟨b, hb⟩ := hp
      · refine .new ?_ hself
        by_contra hold
        obtain ⟨x, hx⟩ := Option.ne_none_iff_exists'.mp hold
        have hmid := hadds.old _ x hx
        rw [goal_free_get? hfree] at hmid
        cases hmid
      · exact .file (hadds.file_iff.mp hb) hself
    · rw [get?_set_of_ne _ _ hne he] at hq
      obtain ⟨hdir, hfree, hmade⟩ := made q hq
      refine .made hdir hfree ?_
      rw [get?_set_of_ne _ _ hne he, hmade]

theorem Placed.scriptDir (hd : ∀ n ∈ d, Proper n) (l : Ledger) (t : FileTree) :
    (contextOf s l t).scriptDir = (d ++ ["tests"]).path := by
  have hfile : (contextOf s l t).scriptFile = s.scriptFile := rfl
  rw [Repair.Context.scriptDir, hfile, hs.parent? hd, Option.getD_some]

/-- A repair reaches sources below the work directory, or the module that the script imports. -/
theorem Placed.reaches_of_touch {l : Ledger} {t t' : FileTree} (ht : t.WellFormed)
    (hd : t.get? d = some .dir) {kind : FailureKind} {script log : String} {r : Repair}
    (h : Repair.Touch (contextOf s l t) kind script log r t') : Reaches t t' d script := by
  have hnames := ht.names (hd ▸ Option.some_ne_none _)
  have heffect := Repair.effect_of_touch ht h
  refine ⟨heffect.grows, heffect.wellFormed, fun q hq => ?_⟩
  cases h with
  | nothing h => exact absurd (by rw [h]; rfl) hq
  | @exported cls source p q' m _ hm leads held h _ =>
      subst h
      have hne : q' ≠ [] := ne_nil_of_file held
      have he : q = q' := by
        by_contra he
        exact hq (get?_set_of_ne _ _ hne he)
      subst he
      obtain ⟨specifier, -, himport, hmodule⟩ := Repair.complainedModule_eq_ok hm
      rw [hs.scriptDir hnames] at hmodule
      exact .written (.file held (get?_set_self t _ hne)) (.module ⟨cls, specifier, himport, hmodule⟩)
        (heffect.grows.canonical leads)
  | @swapped files _ _ _ _ hf hsw _ _ =>
      obtain ⟨r, hr, rfl⟩ := hsw.mem_of_ne hq
      have hsound := hsw.sound r hr
      have hfiles : Patch.sources t d.path ({} : HealingSettings).locatorDirs
          ({} : HealingSettings).sourceExtensions = .ok files := by
        rw [← hs.healing, ← hs.workDir]
        exact hf
      exact .written (.file hsound.held (hsw.held r hr))
        (.source hfiles (Patch.path_mem_of_rewrites hr)) (heffect.grows.canonical hsound.leads)

variable {σ : Type} {env : Surroundings σ}

omit hs in
theorem tree_of_runScript (hq : Quiet env) (s : Setup) (script : String) (w : World σ) :
    (runScript env s script w).2.tree = (writeScript w.tree s.scriptFile script).2 := by
  unfold runScript
  cases writeScript w.tree s.scriptFile script with
  | mk r t =>
      cases r with
      | error e => rfl
      | ok =>
          have quiet := hq s.invocation w.state t
          dsimp only
          split <;> rename_i h <;> rw [h] at quiet <;> exact quiet

omit hs in
theorem tree_of_execute (env : Surroundings σ) (s : Setup) (p : Progress) (w : World σ) :
    (execute env s p w).2.tree =
      if env.cancelled w.state then w.tree else (runScript env s p.script w).2.tree := by
  unfold execute
  split
  · rfl
  · cases runScript env s p.script w with
    | mk a w' => cases h : a.run <;> simp only [h]

/-- What a step of a trial reaches. -/
theorem Placed.reaches_step (hq : Quiet env) (p : Progress) {w : World σ} (ht : w.tree.WellFormed)
    (hd : w.tree.get? d = some .dir) :
    Reaches w.tree (step env s p w).2.tree d p.script := by
  have stays := Reaches.refl ht d p.script
  unfold step
  split
  · rw [tree_of_execute, tree_of_runScript hq]
    split
    · exact stays
    · exact hs.reaches_writeScript ht hd p.script p.script
  · exact stays
  · rename_i d' log _
    unfold repair
    cases hm : mend env s p.script p.ledger d' log w with
    | mk f w' =>
        cases f with
        | none => exact tree_of_mend_none hm ▸ stays
        | some f => exact hs.reaches_of_touch ht hd (touch_mend ht hm)
  · exact stays

end

end Trial
end TestRepair
