import Mathlib.Data.List.Find
import TestRepair.Proofs.FileTree.Agreement
import TestRepair.Proofs.Repair.Touching

/-!
Repairs of one script in two trees that hold the same below the work directory. If no link stands at
or below the locator directories, and the relative imports of the script go down from the work
directory and past no link, the repairs report the same, and the trees still hold the same there.
-/

namespace TestRepair

open FileTree

variable {L : Place → Prop} {d names : Place} {t t' : FileTree}

namespace Patch

/-- No link stands at a locator directory, on the way to it or below it. -/
def Unlinked (L : Place → Prop) : Prop := ∀ names ∈ locatorPlaces, Linkless L names

theorem canonical_of_isFile {p : Path} (h : t.isFile p = true) : ∃ q, t.canonical p = .ok q := by
  unfold isFile node at h
  cases hq : t.canonical p with
  | error e => simp [hq] at h
  | ok q => exact ⟨q, rfl⟩

theorem sourcesBelow_congr (h : Twin L d t t') (hl : Linkless L names) {extensions : List String}
    (he : ∀ e ∈ extensions, ∃ ts, Glob.Plain e ts) :
    sourcesBelow t' (d ++ names).path extensions = sourcesBelow t (d ++ names).path extensions := by
  have hproper := List.forall_mem_append.mpr
    ⟨h.left.wellFormed.names (h.left.dir ▸ Option.some_ne_none _), hl.proper⟩
  have hfound : extensions.mapM (Glob.withEnding t' (d ++ names).path) =
      extensions.mapM (Glob.withEnding t (d ++ names).path) :=
    mapM_congr fun e hmem => (he e hmem).elim fun _ hplain => Glob.withEnding_congr h hl hplain
  unfold sourcesBelow
  rw [h.isDir_eq hl.self, hfound]
  cases hs : extensions.mapM (Glob.withEnding t (d ++ names).path) with
  | error e => rfl
  | ok lists =>
      have hfiles : lists.flatten.filter t'.isFile = lists.flatten.filter t.isFile := by
        refine List.filter_congr fun p hp => ?_
        obtain ⟨list, hlist, hp⟩ := List.mem_flatten.mp hp
        obtain ⟨e, hmem, hw⟩ := mem_of_mapM hs list hlist
        obtain ⟨ts, hplain⟩ := he e hmem
        obtain ⟨more, hmore, rfl⟩ := Glob.mem_withEnding h.left.wellFormed hproper hplain hw hp
        rw [List.append_assoc, h.isFile_eq (hl.descent hmore)]
      simp only [ok_bind, pure_eq_ok, hfiles]

/-- The sources of a project are the same in both trees, where nothing else is set. -/
theorem sources_congr (h : Twin L d t t') (hl : Unlinked L) :
    sources t' d.path ({} : HealingSettings).locatorDirs ({} : HealingSettings).sourceExtensions =
      sources t d.path ({} : HealingSettings).locatorDirs
        ({} : HealingSettings).sourceExtensions := by
  have hd := h.left.wellFormed.names (h.left.dir ▸ Option.some_ne_none _)
  unfold sources
  rw [mapM_congr fun dir hdir => ?_]
  rw [locatorDirs_default] at hdir
  obtain ⟨names, hnames, rfl⟩ := List.mem_map.mp hdir
  rw [join_locatorPlace hd hnames]
  exact sourcesBelow_congr h (hl names hnames) fun e he => Glob.plain_of_default he

theorem inside_of_mem_sources (h : Home L d t) (hl : Unlinked L) {files : List Path}
    (hf : sources t d.path ({} : HealingSettings).locatorDirs
      ({} : HealingSettings).sourceExtensions = .ok files) {p : Path} (hp : p ∈ files) :
    Inside L d p ∧ ∃ q, t.canonical p = .ok q := by
  have hd := h.wellFormed.names (h.dir ▸ Option.some_ne_none _)
  obtain ⟨⟨names, hnames, more, hmore, rfl⟩, hfile⟩ := mem_sources h.wellFormed hd hf hp
  refine ⟨⟨names ++ more, (hl names hnames).descent hmore, ?_⟩, canonical_of_isFile hfile⟩
  rw [List.append_assoc]

theorem rewrites_congr (h : Twin L d t t') (old new : String) {files : List Path}
    (hf : ∀ p ∈ files, Inside L d p) : rewrites t' old new files = rewrites t old new files := by
  rw [rewrites, rewrites, List.filterMap_congr fun p hp => ?_]
  obtain ⟨names, hs, rfl⟩ := hf p hp
  unfold rewrite?
  rw [h.canonical_eq hs]
  cases hq : t.canonical (d ++ names).path with
  | error e => rfl
  | ok q => simp only [h.left.canonical_eq_ok hs hq, h.same]

theorem twin_rewritten {rs : List Rewrite} (h : Twin L d t t')
    (hr : ∀ r ∈ rs, d <+: r.place ∧ ∃ b m, t.get? r.place = some (.file b m)) :
    Twin L d (rewritten t rs) (rewritten t' rs) := by
  induction rs generalizing t t' with
  | nil => exact h
  | cons r rs ih =>
      obtain ⟨hp, b, m, hb⟩ := hr r List.mem_cons_self
      have hx : Extends t (t.set r.place r.node) := extends_set_of_file hb _ _
      refine ih (h.set_file hp hb) fun r' hr' => ?_
      obtain ⟨hp', b', m', hb'⟩ := hr r' (List.mem_cons_of_mem _ hr')
      exact ⟨hp', hx.file _ _ _ hb'⟩

/-- Where not all files can be read, there is a first one that cannot. -/
theorem exists_first_unreadable {files : List Path}
    (h : ¬∀ p ∈ files, ∃ s, t.readText p = .ok s) : ∃ before p after e,
      files = before ++ p :: after ∧ (∀ p' ∈ before, ∃ s, t.readText p' = .ok s) ∧
        t.readText p = .error e := by
  induction files with
  | nil => exact absurd nofun h
  | cons p ps ih =>
      cases hr : t.readText p with
      | error e => exact ⟨[], p, ps, e, rfl, nofun, hr⟩
      | ok s =>
          obtain ⟨before, p', after, e, rfl, hbefore, he⟩ :=
            ih fun hps => h (List.forall_mem_cons.mpr ⟨⟨s, hr⟩, hps⟩)
          exact ⟨p :: before, p', after, e, rfl, List.forall_mem_cons.mpr ⟨⟨s, hr⟩, hbefore⟩, he⟩

/-- Swapping a locator in the same files of both trees reports the same. -/
theorem swap_agrees (h : Twin L d t t') {files : List Path}
    (hf : ∀ p ∈ files, Inside L d p ∧ ∃ q, t.canonical p = .ok q) (old new : String) :
    (swap t' files old new).1 = (swap t files old new).1 ∧
      Twin L d (swap t files old new).2 (swap t' files old new).2 := by
  have ht := h.left.wellFormed
  have ht' := h.right.wellFormed
  have hread : ∀ p ∈ files, t'.readText p = t.readText p := by
    intro p hp
    obtain ⟨names, hs, rfl⟩ := (hf p hp).1
    exact h.readText_eq hs
  by_cases hall : ∀ p ∈ files, ∃ s, t.readText p = .ok s
  · obtain ⟨hswap, sound⟩ := swap_of_readable ht hall old new
    have hall' : ∀ p ∈ files, ∃ s, t'.readText p = .ok s := fun p hp => hread p hp ▸ hall p hp
    obtain ⟨hswap', -⟩ := swap_of_readable ht' hall' old new
    rw [hswap, hswap', rewrites_congr h old new fun p hp => (hf p hp).1]
    refine ⟨rfl, twin_rewritten h fun r hr => ⟨?_, _, _, (sound r hr).held⟩⟩
    obtain ⟨names, hs, hpath⟩ := (hf r.path (path_mem_of_rewrites hr)).1
    have hleads := (sound r hr).leads
    rw [hpath] at hleads
    exact ⟨names, (h.left.canonical_eq_ok hs hleads).symm⟩
  · -- The first file that cannot be read decides.
    obtain ⟨before, p, after, e, rfl, readable, he⟩ := exists_first_unreadable hall
    have readable' : ∀ p' ∈ before, ∃ s, t'.readText p' = .ok s := fun p' hp' =>
      hread p' (List.mem_append_left _ hp') ▸ readable p' hp'
    have hmem : p ∈ before ++ p :: after := List.mem_append_cons_self
    obtain ⟨⟨names, hs, hpath⟩, q, hq⟩ := hf p hmem
    have hq' : t'.canonical p = .ok q := by
      rw [hpath, h.canonical_eq hs, ← hpath, hq]
    rw [swap_of_unreadable ht readable hq he, swap_of_unreadable ht' readable' hq'
      ((hread p hmem).trans he)]
    exact ⟨rfl, h⟩

end Patch

namespace Script

theorem module?_congr (h : Twin L d t t') {dir : Path} {specifier : String}
    (hi : ∀ p ∈ modulePaths dir specifier, Inside L d p.normalize) :
    module? t' dir specifier = module? t dir specifier := by
  unfold module?
  refine List.find?_congr fun p hp => ?_
  obtain ⟨p', hp', rfl⟩ := List.mem_map.mp hp
  obtain ⟨names, hs, hpath⟩ := hi p' hp'
  rw [hpath, h.isFile_eq hs]

theorem ensureExported_agrees (h : Twin L d t t') (hs : Descent L names) (cls : String) :
    (∃ e, ensureExported t (d ++ names).path cls = .error e ∧
      ensureExported t' (d ++ names).path cls = .error e) ∨
    ∃ changed t₁ t₁', ensureExported t (d ++ names).path cls = .ok (changed, t₁) ∧
      ensureExported t' (d ++ names).path cls = .ok (changed, t₁') ∧ Twin L d t₁ t₁' := by
  unfold ensureExported
  rw [h.readText_eq hs]
  cases hr : t.readText (d ++ names).path with
  | error e => exact .inl ⟨_, rfl, rfl⟩
  | ok source =>
      simp only [mapError_ok, ok_bind]
      split
      · exact .inr ⟨false, t, t', rfl, rfl, h⟩
      · split
        · exact .inl ⟨_, rfl, rfl⟩
        · obtain ⟨q, m, hq, hb, hw⟩ :=
            replaceText_of_readText h.left.wellFormed hr (withExport source cls)
          obtain ⟨q', m', hq', hb', hw'⟩ := replaceText_of_readText h.right.wellFormed
            ((h.readText_eq hs).trans hr) (withExport source cls)
          cases h.left.canonical_eq_ok hs hq
          cases h.right.canonical_eq_ok hs hq'
          rw [h.same, hb] at hb'
          cases hb'
          rw [hw, hw']
          exact .inr ⟨true, _, _, rfl, rfl, h.set_file (List.prefix_append _ _) hb⟩

end Script

namespace Repair

/-- The relative imports of a script, seen from a directory, go down from the place `d` and past no
link, whichever file they mean. -/
def Homely (L : Place → Prop) (d : Place) (dir : Path) (script : String) : Prop :=
  ∀ cls specifier, Script.importOf? script cls = some specifier →
    ∀ p ∈ Script.modulePaths dir specifier, Inside L d p.normalize

/-- Two outcomes that report the same and leave the same below a directory. -/
structure Outcome.Agrees (L : Place → Prop) (d : Place) (o o' : Outcome) : Prop where
  result : o'.result = o.result
  ledger : o'.ledger = o.ledger
  twin : Twin L d o.tree o'.tree

/-- Two finished repairs that report the same and leave the same below a directory. -/
structure Finished.Agrees (L : Place → Prop) (d : Place) (f f' : Finished) : Prop where
  repair : f'.repair = f.repair
  ledger : f'.ledger = f.ledger
  twin : Twin L d f.tree f'.tree

section

variable {c : Context} {script : String} (h : Twin L d c.tree t')

include h

theorem complainedModule_congr (hi : Homely L d c.scriptDir script) (log : String) :
    complainedModule { c with tree := t' } script log = complainedModule c script log := by
  unfold complainedModule
  cases MissingClass.ofLog? log with
  | none => dsimp only
  | some cls =>
      cases him : Script.importOf? script cls with
      | none => simp only [him]
      | some specifier =>
          have hmodule : Script.module? t' (Context.scriptDir { c with tree := t' }) specifier =
              Script.module? c.tree c.scriptDir specifier :=
            Script.module?_congr h (hi cls specifier him)
          simp only [him, hmodule]

theorem exportClass_agrees (hi : Homely L d c.scriptDir script) (log : String) :
    (ofStrategy c (exportClass c script log)).Agrees L d
      (ofStrategy { c with tree := t' } (exportClass { c with tree := t' } script log)) := by
  unfold exportClass
  rw [complainedModule_congr h hi]
  cases hm : complainedModule c script log with
  | error e =>
      simp only [error_bind, ofStrategy]
      exact ⟨rfl, rfl, h⟩
  | ok x =>
      obtain ⟨cls, module⟩ := x
      obtain ⟨specifier, -, him, hmodule⟩ := complainedModule_eq_ok hm
      obtain ⟨p, hp, rfl⟩ := List.mem_map.mp (List.mem_of_find?_eq_some hmodule)
      obtain ⟨names, hs, hpath⟩ := hi cls specifier him p hp
      rw [hpath]
      obtain ⟨e, he, he'⟩ | ⟨changed, t₁, t₁', he, he', h₁⟩ :=
        Script.ensureExported_agrees h hs cls
      · simp only [ok_bind, he, he', mapError_error, error_bind, ofStrategy]
        exact ⟨rfl, rfl, h⟩
      · cases changed <;>
          simp only [ok_bind, he, he', mapError_ok, pure_eq_ok, Bool.false_eq_true, if_false, if_true,
            ofStrategy] <;>
          exact ⟨rfl, rfl, h₁⟩

omit h in
theorem write_agrees (h : Twin L d t t') {s : HealingSettings} {workDir : Path} (hw : workDir = d.path)
    (hh : s = {}) (hl : Patch.Unlinked L) (failing : String) (cand : Candidate) :
    (Healing.write s t' workDir failing cand).1 = (Healing.write s t workDir failing cand).1 ∧
      Twin L d (Healing.write s t workDir failing cand).2
        (Healing.write s t' workDir failing cand).2 := by
  subst hw hh
  unfold Healing.write
  rw [Patch.sources_congr h hl]
  cases hf : Patch.sources t d.path ({} : HealingSettings).locatorDirs
      ({} : HealingSettings).sourceExtensions with
  | error e => exact ⟨rfl, h⟩
  | ok files =>
      obtain ⟨hresult, htwin⟩ := Patch.swap_agrees h
        (fun p hp => Patch.inside_of_mem_sources h.left hl hf hp) failing cand.selector
      dsimp only
      cases hs : Patch.swap t files failing cand.selector with
      | mk r t₁ =>
          cases hs' : Patch.swap t' files failing cand.selector with
          | mk r' t₁' =>
              rw [hs, hs'] at hresult htwin
              cases hresult
              cases r with
              | error e => exact ⟨rfl, htwin⟩
              | ok changed => exact ⟨rfl, htwin⟩

omit h in
/-- What is reported of a healed selector does not depend on the tree. -/
theorem ofHealed_tree (c : Context) (t' : FileTree) (script failing : String)
    (healed : Healing.Healed) :
    ofHealed { c with tree := t' } script failing healed = ofHealed c script failing healed := by
  have hfile : Context.scriptFile { c with tree := t' } = c.scriptFile := rfl
  simp only [ofHealed, hfile]

theorem healSelector_agrees (hw : c.workDir = d.path) (hh : c.settings.healing = {})
    (hl : Patch.Unlinked L) (log : String) :
    (healSelector c script log).Agrees L d (healSelector { c with tree := t' } script log) := by
  unfold healSelector
  cases FailingLocator.ofLog? log with
  | none => exact ⟨rfl, rfl, h⟩
  | some failing =>
      simp only [Healing.heal]
      cases Healing.choose c.settings.healing c.ledger failing c.actions log with
      | error e => exact ⟨rfl, rfl, h⟩
      | ok x =>
          obtain ⟨_ | cand, l⟩ := x
          · exact ⟨rfl, rfl, h⟩
          · obtain ⟨hresult, htwin⟩ := write_agrees h hw hh hl failing cand
            dsimp only
            cases hs : Healing.write c.settings.healing c.tree c.workDir failing cand with
            | mk r t₁ =>
                cases hs' : Healing.write c.settings.healing t' c.workDir failing cand with
                | mk r' t₁' =>
                    rw [hs, hs'] at hresult htwin
                    cases hresult
                    cases r with
                    | error e => exact ⟨rfl, rfl, htwin⟩
                    | ok healed =>
                        exact ⟨congrArg Except.ok (ofHealed_tree c t' script failing healed), rfl, htwin⟩

theorem withoutAssistant_agrees (hw : c.workDir = d.path) (hh : c.settings.healing = {})
    (hl : Patch.Unlinked L) (hi : Homely L d c.scriptDir script) (kind : FailureKind)
    (log : String) :
    (withoutAssistant c kind script log).Agrees L d
      (withoutAssistant { c with tree := t' } kind script log) := by
  unfold withoutAssistant
  split
  · exact exportClass_agrees h hi log
  · exact ⟨rfl, rfl, h⟩
  · exact healSelector_agrees h hw hh hl log
  · exact healSelector_agrees h hw hh hl log
  · exact ⟨rfl, rfl, h⟩

/-- Repairs agree if the assistant answers one question in one way. -/
theorem repair?_agrees {σ : Type} {consult : RewriteRequest → σ → Consultation × σ}
    (hc : ∀ q state state', (consult q state').1 = (consult q state).1)
    (hw : c.workDir = d.path) (hh : c.settings.healing = {}) (hl : Patch.Unlinked L)
    (hi : Homely L d c.scriptDir script) (state state' : σ) (dg : Diagnosis) (log : String) :
    Option.Rel (Finished.Agrees L d) (repair? c consult state script dg log).1
      (repair? { c with tree := t' } consult state' script dg log).1 := by
  unfold repair?
  split
  · dsimp only
    rw [hc _ state state']
    cases ofConsultation? c.settings.assistant _ with
    | none => exact .none
    | some r => exact .some ⟨rfl, rfl, h⟩
  · have agrees := withoutAssistant_agrees h hw hh hl hi dg.kind log
    dsimp only
    generalize withoutAssistant c dg.kind script log = o at agrees ⊢
    generalize withoutAssistant { c with tree := t' } dg.kind script log = o' at agrees ⊢
    exact .some ⟨by simp only [agrees.result], agrees.ledger, agrees.twin⟩

end

end Repair
end TestRepair
