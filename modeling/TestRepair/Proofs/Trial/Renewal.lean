import TestRepair.Proofs.Locator.Swapping
import TestRepair.Proofs.Repair.Reports
import TestRepair.Proofs.Trial.Changes

/-!
No script is run twice on the same files. Where the runner changes none, it is called in every round
from the first call on, and some file holds something else whenever it is called again: the file of
the script, or one that the repair in between reports. The reported file may lie anywhere, also outside
the work directory. Two kinds of repairs may come to nothing all the same: those that export a class
from the file of the script, which is written anew before it is run, and those that swap a selector
for a text that gives back what was there.
-/

namespace TestRepair

/-- What the file at a place holds. -/
def FileTree.bytes? (t : FileTree) (q : Place) : Option ByteArray :=
  match t.get? q with
  | some (.file b _) => some b
  | _ => none

namespace Trial

open FileTree

theorem bytes?_of_file {t : FileTree} {q : Place} {b : ByteArray} {m : Nat}
    (h : t.get? q = some (.file b m)) : t.bytes? q = some b := by
  rw [bytes?, h]

theorem toUTF8_ne {a b : String} (h : a ≠ b) : a.toUTF8 ≠ b.toUTF8 := by
  intro same
  have text := fromUTF8?_toUTF8 a
  rw [same, fromUTF8?_toUTF8] at text
  exact h (Option.some.inj text).symm

/-- From one tree to a later one a file has changed for which a repair is responsible. -/
inductive Renewed (s : Setup) (m : Repair) (t t' : FileTree) : Prop
  | script {q : Place} (h : t.canonical s.scriptFile = .ok q) (h' : t'.canonical s.scriptFile = .ok q)
      (hne : t.bytes? q ≠ t'.bytes? q)
  | reported {p : Path} {q : Place} (hp : p.shownFrom s.request.workDir ∈ m.filesTouched)
      (h : t.canonical p = .ok q) (h' : t'.canonical p = .ok q) (hne : t.bytes? q ≠ t'.bytes? q)

/-- A repair after a round exports a class from the file of the script. It keeps the script, which is
there again when the runner is called the next time. -/
structure ExportsItself (s : Setup) (r : Round) (d : Diagnosis) (m : Repair) (t t' : FileTree) :
    Prop where
  kind : d.kind = .exportConstructor
  itself : ∃ p q, m.filesTouched = [p.shownFrom s.request.workDir] ∧ t.canonical p = .ok q ∧
    t.canonical s.scriptFile = .ok q
  kept : m.script = r.script
  again : t'.readText s.scriptFile = .ok r.script

/-- A repair after a round swaps the failing selector of the round's log, and in no file that it
reports this makes a difference. -/
structure SwapsIdly (s : Setup) (r : Round) (d : Diagnosis) (m : Repair) (t t' : FileTree) : Prop where
  kind : d.kind = .locatorNotFound ∨ d.kind = .selectorAmbiguity
  kept : m.script = r.script
  any : m.filesTouched ≠ []
  idle : ∃ run failing healed, r.attempt.run = some run ∧
    FailingLocator.ofLog? run.log = some failing ∧
    m = Repair.ofHealed (contextOf s {} t) r.script failing healed ∧
    (Replacement.letters failing).Perm (Replacement.letters healed.candidate.selector) ∧
    ∀ name ∈ m.filesTouched, ∃ p text, p.shownFrom s.request.workDir = name ∧
      t.readText p = .ok text ∧ t'.readText p = .ok text ∧
      Replacement.inText? text failing healed.candidate.selector = some text

/-- The runner is called in a round and in the one after it, and the repair in between has changed a
file from the tree of one call to that of the other, unless it is of one of the two kinds. -/
def Renews (s : Setup) (r r' : Round) : Prop :=
  ∃ v v' d m, r.attempt.visit = some v ∧ r'.attempt.visit = some v' ∧ r.repair = some (d, m) ∧
    r'.script = m.script ∧
    (Renewed s m v.tree v'.tree ∨ ExportsItself s r d m v.tree v'.tree ∨
      SwapsIdly s r d m v.tree v'.tree)

variable {σ : Type} {env : Surroundings σ} {s : Setup} {w w₁ w₂ w₃ : World σ}

theorem reports_mend {script : String} {l : Ledger} {d : Diagnosis} {log : String}
    {f : Repair.Finished} (ht : w.tree.WellFormed)
    (h : mend env s script l d log w = (some f, w₁)) :
    Repair.Reports (contextOf s l w.tree) d.kind script log f.repair w₁.tree :=
  Repair.reports_of_touch (touch_mend ht h)

/-- Writing the next script keeps what a repair has written elsewhere. -/
theorem get?_of_wrote {t t' : FileTree} {file : Path} (h : Wrote t file t') {q p : Place}
    (hf : t.canonical file = .ok p) (hne : q ≠ p) {b : ByteArray} {m : Nat}
    (hq : t.get? q = some (.file b m)) : t'.get? q = some (.file b m) := by
  obtain ⟨b', m', hq'⟩ := h.grows.file q b m hq
  by_contra hother
  have old : t.get? q ≠ some (.file b' m') := by
    intro same
    rw [hq'] at hother
    rw [hq] at same
    exact hother same.symm
  have place := h.file q b' m' hq' old
  rw [h.grows.canonical hf] at place
  exact hne (Except.ok.inj place).symm

section

variable {r : Round} {d : Diagnosis} {m : Repair} {t t₂ t₃ : FileTree} {l : Ledger} {p : Path}
  {q q₀ : Place}

/-- A file that a repair rewrote elsewhere is different when the next script has been written. -/
theorem renewed_of_rewrote (hf : t.canonical s.scriptFile = .ok q₀) (grows : Extends t t₂)
    (wrote : Wrote t₂ s.scriptFile t₃) {old new : String}
    (hp : p.shownFrom s.request.workDir ∈ m.filesTouched)
    (h : Repair.Rewrote (contextOf s l t) t₂ p q old new) (hne : old ≠ new) (hq : q ≠ q₀) :
    Renewed s m t t₃ := by
  obtain ⟨leads, m, before, after⟩ := h
  change t.get? q = _ at before
  have kept := get?_of_wrote wrote (grows.canonical hf) hq after
  refine .reported hp leads (wrote.grows.canonical (grows.canonical leads)) ?_
  rw [bytes?_of_file before, bytes?_of_file kept]
  exact fun same => toUTF8_ne hne (Option.some.inj same)

/-- A file that a repair rewrote as it was reads the same when the next script has been written. -/
theorem readText_of_rewrote (grows : Extends t t₂) (wrote : Wrote t₂ s.scriptFile t₃)
    {text : String} (h : Repair.Rewrote (contextOf s l t) t₂ p q text text)
    (own : t.canonical s.scriptFile = .ok q → t₃.readText s.scriptFile = .ok text)
    (hf : t.canonical s.scriptFile = .ok q₀) :
    t.readText p = .ok text ∧ t₃.readText p = .ok text := by
  obtain ⟨leads, m, before, after⟩ := h
  change t.canonical p = .ok q at leads
  have leads₃ := wrote.grows.canonical (grows.canonical leads)
  refine ⟨readText_eq_ok_iff.mpr ⟨q, _, m, leads, before, fromUTF8?_toUTF8 text⟩, ?_⟩
  by_cases hq : q = q₀
  · subst hq
    obtain ⟨q', b, m', leads', held, htext⟩ := readText_eq_ok_iff.mp (own hf)
    rw [wrote.grows.canonical (grows.canonical hf)] at leads'
    cases leads'
    exact readText_eq_ok_iff.mpr ⟨q, b, m', leads₃, held, htext⟩
  · have kept := get?_of_wrote wrote (grows.canonical hf) hq after
    exact readText_eq_ok_iff.mpr ⟨q, _, m, leads₃, kept, fromUTF8?_toUTF8 text⟩

/-- The file of a script that was read holds the text of the script. -/
theorem eq_script_of_held {script old : String} {n : Nat} (ht : t.readText s.scriptFile = .ok script)
    (hf : t.canonical s.scriptFile = .ok q) (held : t.get? q = some (.file old.toUTF8 n)) :
    old = script := by
  obtain ⟨q', b, m', hf', held', text⟩ := readText_eq_ok_iff.mp ht
  rw [hf] at hf'
  cases hf'
  rw [held] at held'
  cases held'
  rw [fromUTF8?_toUTF8] at text
  exact Option.some.inj text

variable {run : Execution} (ht : t.readText s.scriptFile = .ok r.script) (grows : Extends t t₂)
  (wrote : Wrote t₂ s.scriptFile t₃) (hrun : r.attempt.run = some run) (kept : m.script = r.script)
  (any : m.filesTouched ≠ []) (again : t₃.readText s.scriptFile = .ok r.script)

include ht grows wrote hrun kept any again

/-- A swap has changed one of the files that it reports, unless it makes no difference in any. -/
theorem renewed_of_swapped (hd : d.kind = .locatorNotFound ∨ d.kind = .selectorAmbiguity)
    {failing : String} (hl : FailingLocator.ofLog? run.log = some failing) {healed : Healing.Healed}
    (hm : m = Repair.ofHealed (contextOf s l t) r.script failing healed)
    (h : ∀ name ∈ m.filesTouched, ∃ p q old new, p.shownFrom s.request.workDir = name ∧
      Repair.Rewrote (contextOf s l t) t₂ p q old new ∧
      Replacement.inText? old failing healed.candidate.selector = some new) :
    Renewed s m t t₃ ∨ SwapsIdly s r d m t t₃ := by
  obtain ⟨q₀, -, -, hf, -, -⟩ := readText_eq_ok_iff.mp ht
  by_cases busy : ∃ name ∈ m.filesTouched, ∃ p q old new, p.shownFrom s.request.workDir = name ∧
      Repair.Rewrote (contextOf s l t) t₂ p q old new ∧
      Replacement.inText? old failing healed.candidate.selector = some new ∧ old ≠ new
  · obtain ⟨name, hname, p, q, old, new, rfl, h, swap, hne⟩ := busy
    refine .inl (renewed_of_rewrote hf grows wrote hname h hne fun hq => hne ?_)
    -- In the file of the script the swap gives the script, which the repair has kept.
    obtain ⟨_, before, -⟩ := h.held
    obtain rfl := eq_script_of_held ht (hq ▸ hf) before
    rw [← kept, hm, Repair.ofHealed, swap, Option.getD_some]
  · have idle (name : String) (hname : name ∈ m.filesTouched) :
        ∃ p text, p.shownFrom s.request.workDir = name ∧ t.readText p = .ok text ∧
          t₃.readText p = .ok text ∧
          Replacement.inText? text failing healed.candidate.selector = some text := by
      obtain ⟨p, q, old, new, shown, h, swap⟩ := h name hname
      obtain rfl : old = new := by
        by_contra hne
        exact busy ⟨name, hname, p, q, old, new, shown, h, swap, hne⟩
      obtain ⟨_, before, -⟩ := h.held
      obtain ⟨reads, reads'⟩ := readText_of_rewrote grows wrote h
        (fun hq => eq_script_of_held ht hq before ▸ again) hf
      exact ⟨p, old, shown, reads, reads', swap⟩
    obtain ⟨name, hname⟩ := List.exists_mem_of_ne_nil _ any
    obtain ⟨-, text, -, -, -, same⟩ := idle name hname
    exact .inr ⟨hd, kept, any, run, failing, healed, hrun, hl, hm,
      (Replacement.letters_of_idle same).2, idle⟩

/-- The repair is looked at only where it kept the script, for the script's file is new otherwise. -/
theorem renews_of_reports
    (h : Repair.Reports (contextOf s l t) d.kind r.script run.log m t₂) :
    Renewed s m t t₃ ∨ ExportsItself s r d m t t₃ ∨ SwapsIdly s r d m t t₃ := by
  obtain ⟨q₀, -, -, hf, -, -⟩ := readText_eq_ok_iff.mp ht
  cases h with
  | nothing h => exact absurd h any
  | @exported hexport p q old new hm h hne =>
      have hp : p.shownFrom s.request.workDir ∈ m.filesTouched := by
        rw [hm]
        exact List.mem_singleton_self _
      by_cases hq : q = q₀
      · exact .inr (.inl ⟨hexport, ⟨p, q, hm, h.leads, hq ▸ hf⟩, kept, again⟩)
      · exact .inl (renewed_of_rewrote hf grows wrote hp h hne hq)
  | swapped hd hl healed hm h =>
      exact (renewed_of_swapped ht grows wrote hrun kept any again hd hl hm h).imp_right .inr

end

/-- Between two rounds that call the runner, the repair has changed something. -/
theorem renews_of_mended {l : Ledger} {r r' : Round} {run : Execution} {d : Diagnosis}
    {f : Repair.Finished} (hq : Quiet env) (ht : w.tree.WellFormed)
    (ha : Attempted env s r.script w r.attempt w₁) (hv : r.attempt.visit ≠ none)
    (hrun : r.attempt.run = some run) (hm : mend env s r.script l d run.log w₁ = (some f, w₂))
    (hf : changesAnything r.script f.repair = true) (hr : r.repair = some (d, f.repair))
    (hs : r'.script = f.repair.script) (ha' : Attempted env s r'.script w₂ r'.attempt w₃)
    (hv' : r'.attempt.visit ≠ none) : Renews s r r' := by
  obtain ⟨v, hv⟩ := Option.ne_none_iff_exists'.mp hv
  obtain ⟨v', hv'⟩ := Option.ne_none_iff_exists'.mp hv'
  have hw := ha.wrote hq ht
  have heffect := effect_mend hw.wellFormed hm
  have hreports := reports_mend hw.wellFormed hm
  have hw' := ha'.wrote hq heffect.wellFormed
  rw [ha.left hq ht hv] at heffect hreports
  rw [ha'.left hq heffect.wellFormed hv'] at hw'
  obtain ⟨-, before⟩ := ha.visit hv
  obtain ⟨-, after⟩ := ha'.visit hv'
  refine ⟨v, v', d, f.repair, hv, hv', hr, hs, ?_⟩
  by_cases kept : f.repair.script = r.script
  · have any : f.repair.filesTouched ≠ [] := by
      intro none
      simp [changesAnything, kept, none] at hf
    rw [hs, kept] at after
    exact renews_of_reports before heffect.grows hw' hrun kept any after hreports
  · obtain ⟨q, b, m, leads, held, text⟩ := readText_eq_ok_iff.mp before
    obtain ⟨q', b', m', leads', held', text'⟩ := readText_eq_ok_iff.mp after
    have place := hw'.grows.canonical (heffect.grows.canonical leads)
    rw [place] at leads'
    cases leads'
    refine .inl (.script leads place ?_)
    rw [bytes?_of_file held, bytes?_of_file held', eq_toUTF8_of_fromUTF8? text,
      eq_toUTF8_of_fromUTF8? text', hs]
    exact fun same => toUTF8_ne (Ne.symm kept) (Option.some.inj same)

namespace Story

variable {left : Nat} {script : String} {l : Ledger} {rs : List Round} {e : Ending}

theorem head_attempted (h : Story env s left script l w rs e w₁) :
    ∀ r ∈ rs.head?, ∃ w₂, Attempted env s r.script w r.attempt w₂ := by
  intro r hr
  cases h with
  | cancelled => cases hr
  | interrupted ha | passed ha | unrecognised ha | usedUp ha | abandoned ha | unmended ha
  | mended ha =>
      cases hr
      exact ⟨_, ha⟩

/-- Once the runner is called, it is called in every round, and each time something has changed. -/
theorem renews_of_ready (h : Story env s left script l w rs e w₁) (hq : Quiet env)
    (ht : w.tree.WellFormed) (called : ∀ r ∈ rs, r.attempt.visit ≠ none) :
    rs.IsChain (Renews s) := by
  induction h with
  | cancelled => exact .nil
  | interrupted | passed | unrecognised | usedUp | abandoned | unmended => exact .singleton _
  | mended ha hd hm hf rest ih =>
      have hw := ha.wrote hq ht
      have heffect := effect_mend hw.wellFormed hm
      obtain ⟨first, later⟩ := List.forall_mem_cons.mp called
      refine List.isChain_cons.mpr ⟨fun r' hr' => ?_, ih heffect.wellFormed later⟩
      obtain ⟨w₄, ha'⟩ := rest.head_attempted r' hr'
      exact renews_of_mended hq ht ha first hd.gave hm hf rfl (rest.head_script r' hr') ha'
        (later r' (List.mem_of_mem_head? hr'))

/-- The rounds in which the script cannot be written come before those in which the runner is called. -/
theorem renews (h : Story env s left script l w rs e w₁) (hq : Quiet env) (ht : w.tree.WellFormed) :
    ∃ silent called, rs = silent ++ called ∧ (∀ r ∈ silent, r.attempt.visit = none) ∧
      (∀ r ∈ called, r.attempt.visit ≠ none) ∧ called.IsChain (Renews s) := by
  have last (r : Round) : ∃ silent called, [r] = silent ++ called ∧
      (∀ r ∈ silent, r.attempt.visit = none) ∧ (∀ r ∈ called, r.attempt.visit ≠ none) ∧
      called.IsChain (Renews s) := by
    by_cases hv : r.attempt.visit = none
    · exact ⟨[r], [], rfl, by simpa using hv, by simp, .nil⟩
    · exact ⟨[], [r], rfl, by simp, by simpa using hv, .singleton _⟩
  induction h with
  | cancelled => exact ⟨[], [], rfl, by simp, by simp, .nil⟩
  | interrupted | passed | unrecognised | usedUp | abandoned | unmended => exact last _
  | @mended _ script _ _ w₁ _ _ a _ d f rs _ ha hd hm hf rest ih =>
      have hw := ha.wrote hq ht
      have heffect := effect_mend hw.wellFormed hm
      by_cases hv : a.visit = none
      · obtain ⟨silent, called, rfl, unseen, seen, chain⟩ := ih heffect.wellFormed
        exact ⟨_ :: silent, called, rfl, List.forall_mem_cons.mpr ⟨hv, unseen⟩, seen, chain⟩
      · -- The file of the script stays where it can be written.
        have hready := (ha.ready hq ht hv).extends heffect.grows
        have called : ∀ r ∈ (⟨script, a, w₁.tree, some (d, f.repair)⟩ : Round) :: rs,
            r.attempt.visit ≠ none :=
          List.forall_mem_cons.mpr ⟨hv, rest.visit_of_ready hq heffect.wellFormed hready⟩
        exact ⟨[], _, rfl, by simp, called,
          (Story.mended ha hd hm hf rest).renews_of_ready hq ht called⟩

end Story

theorem map_some_filterMap {α β : Type} {f : α → Option β} {l : List α} (h : ∀ a ∈ l, f a ≠ none) :
    (l.filterMap f).map some = l.map f := by
  rw [List.map_filterMap_some_eq_filter_map_isSome, List.filter_eq_self]
  intro x hx
  obtain ⟨a, ha, rfl⟩ := List.mem_map.mp hx
  exact Option.isSome_iff_ne_none.mpr (h a ha)

/-- Whenever the runner is called again, some file holds other bytes than the time before, in the
file of the script or in a file, wherever it lies, that the repair in between reports. -/
theorem run_renews (hq : Quiet env) (s : Setup) (ht : w.tree.WellFormed) :
    ∃ rs e p w', run env s w = (p, w') ∧ Story env s s.attempts s.request.script {} w rs e w' ∧
      Account s rs p.visits p.result ∧
      ∃ silent called, rs = silent ++ called ∧ (∀ r ∈ silent, r.attempt.visit = none) ∧
        p.visits.map some = called.map (·.attempt.visit) ∧ called.IsChain (Renews s) := by
  obtain ⟨rs, e, p, w', hrun, story, hb⟩ := run_follows env s w
  obtain ⟨silent, called, rfl, unseen, seen, chain⟩ := story.renews hq ht
  refine ⟨_, e, p, w', hrun, story, account_of_booked story hb, silent, called, rfl, unseen, ?_, chain⟩
  rw [hb.visits_start, List.filterMap_append, List.filterMap_eq_nil_iff.mpr unseen,
    List.nil_append]
  exact map_some_filterMap seen

/-- A page that lies beside the work directory and does not export its class. -/
def sharedPage : FileTree where
  nodes := .ofList [(["shared"], .dir),
    (["shared", "login.ts"], .file "class LoginPage \x7b\x7d\n".toUTF8 0o644), (["work"], .dir)]

theorem wellFormed_sharedPage : sharedPage.WellFormed :=
  wellFormed_of_fits rfl (by decide)

/-- A runner that always misses the export of one class. -/
def missing : Surroundings Unit where
  execute _ _ t := (.ok { success := false, log := "LoginPage is not a constructor" }, (), t)
  consult _ _ := (.silent, ())
  cancelled _ := false

/-- A script that imports its page from beside the work directory. -/
def sharing : Setup where
  settings := {}
  request :=
    { script := "import \x7b LoginPage \x7d from '../../shared/login';\n", workDir := ⟨"/work"⟩ }

/-- What a tree holds in a directory and below it. -/
def entriesBelow (t : FileTree) (dir : Place) : List (Place × Node) :=
  t.nodes.entries.filter fun e => dir.isPrefixOf e.1

theorem find?_entriesBelow {t : FileTree} {dir q : Place} (h : dir <+: q) :
    Dictionary.find? q (entriesBelow t dir) = Dictionary.find? q t.nodes.entries := by
  unfold entriesBelow
  induction t.nodes.entries with
  | nil => rfl
  | cons e es ih =>
      by_cases below : dir.isPrefixOf e.1
      · rw [List.filter_cons_of_pos (by exact below), Dictionary.find?, Dictionary.find?, ih]
      · have other : e.1 ≠ q := by
          rintro rfl
          exact below (List.isPrefixOf_iff_prefix.mpr h)
        rw [List.filter_cons_of_neg (by exact below), Dictionary.find?, if_neg other, ih]

theorem bytes?_of_entriesBelow {t t' : FileTree} {dir q : Place}
    (same : entriesBelow t dir = entriesBelow t' dir) (h : dir <+: q) : t.bytes? q = t'.bytes? q := by
  simp only [bytes?, FileTree.get?, Dictionary.get?, ← find?_entriesBelow h, same]

/-- What the runner finds in the work directory and below it, both times. -/
def sharingWork : List (Place × Node) :=
  [(["work"], .dir), (["work", "tests"], .dir),
    (["work", "tests", "generated.spec.ts"], .file sharing.request.script.toUTF8 0o644)]

theorem sharing_found :
    (run missing sharing ⟨(), sharedPage⟩).1.visits.map (fun v => entriesBelow v.tree ["work"]) =
      [sharingWork, sharingWork] := by decide +kernel

theorem sharing_renews :
    Quiet missing ∧ sharedPage.WellFormed ∧
      (run missing sharing ⟨(), sharedPage⟩).1.visits.length = 2 ∧
      ∃ rs e p w', run missing sharing ⟨(), sharedPage⟩ = (p, w') ∧
        Story missing sharing sharing.attempts sharing.request.script {} ⟨(), sharedPage⟩ rs e w' ∧
        Account sharing rs p.visits p.result ∧
        ∃ silent called, rs = silent ++ called ∧ (∀ r ∈ silent, r.attempt.visit = none) ∧
          p.visits.map some = called.map (·.attempt.visit) ∧ called.IsChain (Renews sharing) :=
  ⟨fun _ _ _ => rfl, wellFormed_sharedPage, by simpa using congrArg List.length sharing_found,
    run_renews (fun _ _ _ => rfl) sharing wellFormed_sharedPage⟩

/-- Below the work directory nothing changes between the two calls of the runner. -/
theorem sharing_keeps_workDir :
    Quiet missing ∧ sharedPage.WellFormed ∧
      ∃ v v', (run missing sharing ⟨(), sharedPage⟩).1.visits = [v, v'] ∧
        ¬∃ q : Place, ["work"] <+: q ∧ v.tree.bytes? q ≠ v'.tree.bytes? q := by
  refine ⟨fun _ _ _ => rfl, wellFormed_sharedPage, ?_⟩
  obtain ⟨v, vs, hv, found, rest⟩ := List.map_eq_cons_iff.mp sharing_found
  obtain ⟨v', vs', rfl, found', none⟩ := List.map_eq_cons_iff.mp rest
  cases List.map_eq_nil_iff.mp none
  exact ⟨v, v', hv, fun ⟨q, hq, hne⟩ => hne (bytes?_of_entriesBelow (found.trans found'.symm) hq)⟩

end Trial
end TestRepair
