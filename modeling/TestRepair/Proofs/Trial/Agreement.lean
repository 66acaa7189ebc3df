import TestRepair.Proofs.Repair.Agreement
import TestRepair.Proofs.Trial.Reach

/-!
One trial in two worlds that hold the same below its work directory. If the runner and the assistant
answer by what they are given and by what lies there, and the scripts import from there, then a step
comes to the same in both worlds and leaves them the same there; and it changes nothing elsewhere.
-/

namespace TestRepair

open FileTree

namespace FileTree

/-- Nothing has changed but below a directory. -/
structure Within (d : Place) (t t' : FileTree) : Prop where
  current : t'.current = t.current
  other : ∀ q, ¬d <+: q → t'.get? q = t.get? q

theorem Within.refl (d : Place) (t : FileTree) : Within d t t := ⟨rfl, fun _ _ => rfl⟩

theorem Within.trans {d : Place} {t t' t'' : FileTree} (h : Within d t t') (h' : Within d t' t'') :
    Within d t t'' :=
  ⟨h'.current.trans h.current, fun q hq => (h'.other q hq).trans (h.other q hq)⟩

/-- Writing under one path in both trees succeeds or fails in the same way. -/
theorem write_agrees {L : Place → Prop} {d names : Place} {t t' : FileTree} (h : Twin L d t t')
    (hs : Descent L names) (hslash : namesDirectory (d ++ names).path = false) (bytes : ByteArray) :
    (∃ e, t.write (d ++ names).path bytes = .error e ∧
      t'.write (d ++ names).path bytes = .error e) ∨
    ∃ t₁ t₁', t.write (d ++ names).path bytes = .ok t₁ ∧
      t'.write (d ++ names).path bytes = .ok t₁' ∧ Twin L d t₁ t₁' := by
  simp only [write, hslash, Bool.false_eq_true, if_false, h.goal_eq hs]
  cases hg : t.goal true (d ++ names).path with
  | error e => exact .inl ⟨e, rfl, rfl⟩
  | ok g =>
      have hplace := h.left.place_of_goal hs hg
      cases g with
      | free e n =>
          obtain ⟨he, hn, hfree⟩ := free_of_goal h.left.wellFormed hg
          have hbelow : d <+: e := by
            cases names using List.reverseRecOn with
            | nil =>
                rw [Goal.place, List.append_nil] at hplace
                rw [hplace, h.left.dir] at hfree
                cases hfree
            | append_singleton names m =>
                rw [Goal.place, ← List.append_assoc] at hplace
                exact (List.append_inj' hplace rfl).1 ▸ List.prefix_append _ _
          exact .inr ⟨_, _, rfl, rfl, h.set_new hbelow he hn hfree fun _ hlink => by cases hlink⟩
      | node q =>
          obtain rfl : q = d ++ names := hplace
          simp only [ok_bind, h.same]
          cases hq : t.get? (d ++ names) with
          | none => exact .inl ⟨_, rfl, rfl⟩
          | some x =>
              cases x with
              | dir | link => exact .inl ⟨_, rfl, rfl⟩
              | file b m => exact .inr ⟨_, _, rfl, rfl, h.set_file (List.prefix_append _ _) hq⟩

end FileTree

namespace Trial

variable {σ : Type}

/-- Runner and assistant see and change nothing outside the directory at a place, nobody cancels, and
the runner makes no links but where there may be some. -/
structure Confined (L : Place → Prop) (d : Place) (env : Surroundings σ) : Prop where
  never : ∀ state, env.cancelled state = false ∧ env.noticed state = false
  consult : ∀ q state state', (env.consult q state').1 = (env.consult q state).1
  execute : ∀ call state state' t t', call.workDir = d.path → Twin L d t t' →
    (env.execute call state' t').1 = (env.execute call state t).1 ∧
      Twin L d (env.execute call state t).2.2 (env.execute call state' t').2.2
  within : ∀ call state t, call.workDir = d.path → Home L d t →
    Within d t (env.execute call state t).2.2

/-- A trial that has a directory for itself. -/
structure Secluded (L : Place → Prop) (d : Place) (env : Surroundings σ) (s : Setup) : Prop where
  placed : Placed s d
  unlinked : Patch.Unlinked L
  script : Descent L scriptNames
  confined : Confined L d env

/-- Two trials that have come equally far; what the runner was called with may differ. -/
def Alike (p p' : Progress) : Prop := ∃ visits, p' = { p with visits }

theorem Alike.refl (p : Progress) : Alike p p := ⟨p.visits, rfl⟩

theorem Alike.result {p p' : Progress} (h : Alike p p') : p'.result = p.result := by
  obtain ⟨visits, rfl⟩ := h
  rfl

theorem Alike.script {p p' : Progress} (h : Alike p p') : p'.script = p.script := by
  obtain ⟨visits, rfl⟩ := h
  rfl

/-- A trial and its world beside another one that has come equally far. -/
structure Beside (L : Place → Prop) (d : Place) (x x' : Progress × World σ) : Prop where
  alike : Alike x.1 x'.1
  twin : Twin L d x.2.tree x'.2.tree

theorem alike_afterRun (p : Progress) (visits : List Visit) (run : Execution) :
    Alike (afterRun p run) (afterRun { p with visits } run) := by
  refine ⟨visits, ?_⟩
  cases hs : run.success <;> simp only [afterRun, hs] <;> rfl

theorem alike_diagnose (s : Setup) (p : Progress) (visits : List Visit) (log : String) :
    Alike (diagnose s p log) (diagnose s { p with visits } log) := by
  refine ⟨visits, ?_⟩
  unfold diagnose
  split
  · rfl
  · dsimp only
    split <;> rfl

theorem alike_afterRepair (p : Progress) (visits : List Visit) (l : Ledger) (d : Diagnosis)
    (r : Repair) : Alike (afterRepair { p with ledger := l } d r)
      (afterRepair { p with visits, ledger := l } d r) := by
  refine ⟨visits, ?_⟩
  unfold afterRepair
  dsimp only
  split <;> rfl

section

variable {L : Place → Prop} {d : Place} {s : Setup} {t t' : FileTree}

/-- A change that a trial can make lies below its directory. -/
theorem within_of_reaches {script : String} (h : Reaches t t' d script) (ht : Home L d t)
    (ht' : Home L d t') (hl : Patch.Unlinked L) (hs : Descent L scriptNames)
    (hi : Repair.Homely L d (d ++ ["tests"]).path script) : Within d t t' := by
  refine ⟨h.grows.current, fun q hq => ?_⟩
  by_contra hne
  cases h.changed q hne with
  | made he => exact hq (he ▸ List.prefix_append _ _)
  | @written _ p hp hleads =>
      have inside : Inside L d p := by
        cases hp with
        | script h => exact ⟨scriptNames, hs, h⟩
        | source hf hp => exact (Patch.inside_of_mem_sources ht hl hf hp).1
        | module h =>
            obtain ⟨cls, specifier, him, hm⟩ := h
            obtain ⟨p, hp, rfl⟩ := List.mem_map.mp (List.mem_of_find?_eq_some hm)
            exact hi cls specifier him p hp
      obtain ⟨names, hnames, rfl⟩ := inside
      exact hq (ht'.canonical_eq_ok hnames hleads ▸ List.prefix_append _ _)

section

variable (hs : Placed s d) (hn : Descent L scriptNames) (h : Twin L d t t')

include hs hn h

theorem makeParents_agrees :
    (makeParents t' s.scriptFile).1 = (makeParents t s.scriptFile).1 ∧
      Twin L d (makeParents t s.scriptFile).2 (makeParents t' s.scriptFile).2 := by
  have htests : Descent L ["tests"] := hn.of_prefix ⟨["generated.spec.ts"], rfl⟩
  rw [hs.makeParents_eq h.left.wellFormed h.left.dir,
    hs.makeParents_eq h.right.wellFormed h.right.dir, h.same, h.isDir_eq htests]
  split
  · exact ⟨rfl, h.set_new (List.prefix_refl d) h.left.dir (by decide) ‹_› fun _ => nofun⟩
  · split <;> exact ⟨rfl, h⟩

theorem writeScript_agrees (script : String) :
    (writeScript t' s.scriptFile script).1 = (writeScript t s.scriptFile script).1 ∧
      Twin L d (writeScript t s.scriptFile script).2 (writeScript t' s.scriptFile script).2 := by
  have hd := h.left.wellFormed.names (h.left.dir ▸ Option.some_ne_none _)
  have hfile := hs.scriptFile hd
  have hslash : namesDirectory (d ++ scriptNames).path = false :=
    Place.getLast?_path (by simp [scriptNames])
      (List.forall_mem_append.mpr ⟨Place.spellable_of_proper hd, hn.spellable⟩)
  obtain ⟨hparents, htwin⟩ := makeParents_agrees hs hn h
  unfold writeScript
  cases hp : makeParents t s.scriptFile with
  | mk r t₁ =>
      cases hp' : makeParents t' s.scriptFile with
      | mk r' t₁' =>
          rw [hp, hp'] at hparents htwin
          cases hparents
          cases r with
          | error e => exact ⟨rfl, htwin⟩
          | ok =>
              rw [hfile]
              obtain ⟨e, he, he'⟩ | ⟨t₂, t₂', he, he', h₂⟩ :=
                write_agrees htwin hn hslash script.toUTF8
              · simp only [writeText, he, he']
                exact ⟨trivial, htwin⟩
              · simp only [writeText, he, he']
                exact ⟨trivial, h₂⟩

end

variable {env : Surroundings σ} {w w' : World σ} {script : String}

/-- One run of a script in both worlds. -/
theorem runScript_agrees (hs : Secluded L d env s)
    (hi : Repair.Homely L d (d ++ ["tests"]).path script) (h : Twin L d w.tree w'.tree) :
    (runScript env s script w').1.run = (runScript env s script w).1.run ∧
      Twin L d (runScript env s script w).2.tree (runScript env s script w').2.tree ∧
      Within d w.tree (runScript env s script w).2.tree := by
  obtain ⟨hwrote, htwin⟩ := writeScript_agrees hs.placed hs.script h script
  have hwithin := within_of_reaches
    (hs.placed.reaches_writeScript h.left.wellFormed h.left.dir script script) h.left htwin.left
    hs.unlinked hs.script hi
  unfold runScript
  cases hw : writeScript w.tree s.scriptFile script with
  | mk r t =>
      cases hw' : writeScript w'.tree s.scriptFile script with
      | mk r' t' =>
          rw [hw] at hwrote htwin hwithin
          rw [hw'] at hwrote htwin
          cases hwrote
          cases r with
          | error e => exact ⟨rfl, htwin, hwithin⟩
          | ok =>
              have hcall : s.invocation.workDir = d.path := hs.placed.workDir
              obtain ⟨hran, htwin'⟩ :=
                hs.confined.execute s.invocation w.state w'.state t t' hcall htwin
              have hwithin' := hs.confined.within s.invocation w.state t hcall htwin.left
              dsimp only
              cases he : env.execute s.invocation w.state t with
              | mk ran rest =>
                  cases he' : env.execute s.invocation w'.state t' with
                  | mk ran' rest' =>
                      rw [he] at hran htwin' hwithin'
                      rw [he'] at hran htwin'
                      cases hran
                      have hfar := hwithin.trans hwithin'
                      cases ran with
                      | ok run => exact ⟨rfl, htwin', hfar⟩
                      | error e => cases e <;> exact ⟨rfl, htwin', hfar⟩

theorem execute_agrees (hs : Secluded L d env s) {p p' : Progress}
    (hi : Repair.Homely L d (d ++ ["tests"]).path p.script) (hp : Alike p p')
    (h : Twin L d w.tree w'.tree) :
    Beside L d (execute env s p w) (execute env s p' w') ∧
      Within d w.tree (execute env s p w).2.tree := by
  obtain ⟨visits, rfl⟩ := hp
  obtain ⟨hrun, htwin, hwithin⟩ := runScript_agrees hs hi h
  simp only [execute, (hs.confined.never w.state).1, (hs.confined.never w'.state).1,
    Bool.false_eq_true, if_false]
  cases hr : runScript env s p.script w with
  | mk a w₁ =>
      cases hr' : runScript env s p.script w' with
      | mk a' w₁' =>
          rw [hr] at hrun htwin hwithin
          rw [hr'] at hrun htwin
          dsimp only at hrun
          dsimp only
          rw [hrun]
          cases a.run with
          | none => exact ⟨⟨⟨visits ++ a'.visit.toList, rfl⟩, htwin⟩, hwithin⟩
          | some run =>
              exact ⟨⟨alike_afterRun (p.tried a) (visits ++ a'.visit.toList) run, htwin⟩, hwithin⟩

theorem mend_of_not_noticed (hn : env.noticed w.state = false) {l : Ledger} {dg : Diagnosis}
    {log : String} : mend env s script l dg log w =
      match Repair.repair? (contextOf s l w.tree) env.consult w.state script dg log with
      | (none, state) => (none, { w with state })
      | (some f, state) => (some f, ⟨state, f.tree⟩) := by
  rw [mend, hn]
  rfl

theorem mend_agrees (hs : Secluded L d env s)
    (hi : Repair.Homely L d (d ++ ["tests"]).path script) (h : Twin L d w.tree w'.tree) (l : Ledger)
    (dg : Diagnosis) (log : String) :
    Option.Rel (Repair.Finished.Agrees L d) (mend env s script l dg log w).1
        (mend env s script l dg log w').1 ∧
      Twin L d (mend env s script l dg log w).2.tree (mend env s script l dg log w').2.tree := by
  have hd := h.left.wellFormed.names (h.left.dir ▸ Option.some_ne_none _)
  have hrel : Option.Rel (Repair.Finished.Agrees L d)
      (Repair.repair? (contextOf s l w.tree) env.consult w.state script dg log).1
      (Repair.repair? (contextOf s l w'.tree) env.consult w'.state script dg log).1 :=
    Repair.repair?_agrees (c := contextOf s l w.tree) h hs.confined.consult hs.placed.workDir
      hs.placed.healing hs.unlinked (hs.placed.scriptDir hd l w.tree ▸ hi) w.state w'.state dg log
  rw [mend_of_not_noticed (hs.confined.never w.state).2,
    mend_of_not_noticed (hs.confined.never w'.state).2]
  cases hr : Repair.repair? (contextOf s l w.tree) env.consult w.state script dg log with
  | mk f state =>
      cases hr' : Repair.repair? (contextOf s l w'.tree) env.consult w'.state script dg log with
      | mk f' state' =>
          rw [hr, hr'] at hrel
          cases hrel with
          | none => exact ⟨.none, h⟩
          | some agrees => exact ⟨.some agrees, agrees.twin⟩

theorem repair_agrees (hs : Secluded L d env s) {p p' : Progress}
    (hi : Repair.Homely L d (d ++ ["tests"]).path p.script) (hp : Alike p p')
    (h : Twin L d w.tree w'.tree) (dg : Diagnosis) (log : String) :
    Beside L d (repair env s p dg log w) (repair env s p' dg log w') ∧
      Within d w.tree (repair env s p dg log w).2.tree := by
  obtain ⟨visits, rfl⟩ := hp
  obtain ⟨hrel, htwin⟩ := mend_agrees hs hi h p.ledger dg log
  unfold repair
  dsimp only
  cases hm : mend env s p.script p.ledger dg log w with
  | mk f w₁ =>
      cases hm' : mend env s p.script p.ledger dg log w' with
      | mk f' w₁' =>
          rw [hm, hm'] at hrel htwin
          cases hrel with
          | none =>
              have hsame : w₁.tree = w.tree := tree_of_mend_none hm
              exact ⟨⟨⟨visits, rfl⟩, htwin⟩, hsame ▸ Within.refl d _⟩
          | @some f f' agrees =>
              have hreaches := hs.placed.reaches_of_touch h.left.wellFormed h.left.dir
                (touch_mend h.left.wellFormed hm)
              dsimp only
              rw [agrees.repair, agrees.ledger]
              exact ⟨⟨alike_afterRepair p visits f.ledger dg f.repair, htwin⟩,
                within_of_reaches hreaches h.left htwin.left hs.unlinked hs.script hi⟩

/-- A step of a trial comes to the same in both worlds, and changes nothing elsewhere. -/
theorem step_agrees (hs : Secluded L d env s) {p p' : Progress}
    (hi : Repair.Homely L d (d ++ ["tests"]).path p.script) (hp : Alike p p')
    (h : Twin L d w.tree w'.tree) :
    Beside L d (step env s p w) (step env s p' w') ∧ Within d w.tree (step env s p w).2.tree := by
  have hphase : p'.phase = p.phase := by
    obtain ⟨visits, rfl⟩ := hp
    rfl
  unfold step
  rw [hphase]
  split
  · exact execute_agrees hs hi hp h
  · obtain ⟨visits, rfl⟩ := hp
    exact ⟨⟨alike_diagnose s p visits _, h⟩, .refl d _⟩
  · exact repair_agrees hs hi hp h _ _
  · exact ⟨⟨hp, h⟩, .refl d _⟩

end

end Trial
end TestRepair
