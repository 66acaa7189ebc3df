import TestRepair.Proofs.Repair.Effects
import TestRepair.Proofs.Trial.Account

/-!
The files that a trial changes when the runner changes none. Each of them is the file of the script
or is reported by a repair, and a repair after which the trial does not go on has changed none. There
is one exception: the path of the script may end in a dot or a slash. Then no script can be written,
and a source whose path is the same but for that end is taken for the script and not reported.
-/

namespace TestRepair
namespace Trial

open FileTree

variable {σ : Type} {env : Surroundings σ} {s : Setup} {script : String} {w w' : World σ}

/-- The runner leaves all files as they are. -/
def Quiet (env : Surroundings σ) : Prop :=
  ∀ call state t, (env.execute call state t).2.2 = t

/-- The path of the script can only name a directory. -/
def NamesNoFile (s : Setup) : Prop := s.scriptFile.steps.getLast? = some "."

/-- A path with the components of the path of the script leads to a place. -/
def Alias (s : Setup) (t : FileTree) (q : Place) : Prop :=
  ∃ p, p.same s.scriptFile = true ∧ t.canonical p = .ok q

/-- The runner is called just if its script could be written, and then that is what there is. -/
theorem Attempted.visited {a : Attempt} (hq : Quiet env) (ha : Attempted env s script w a w')
    (ht : w.tree.WellFormed) :
    Wrote w.tree s.scriptFile w'.tree ∧
      ((∃ v, a.visit = some v ∧ w'.tree = v.tree ∧ w'.tree.Ready s.scriptFile ∧
        w'.tree.readText s.scriptFile = .ok script) ∨
      a.visit = none ∧ ¬w'.tree.Ready s.scriptFile) := by
  have hran := ha.ran
  have hwrote := wrote_writeScript ht s.scriptFile script
  unfold runScript at hran
  cases hw : writeScript w.tree s.scriptFile script with
  | mk r t =>
      rw [hw] at hwrote
      cases r with
      | error e =>
          simp only [hw] at hran
          cases hran
          exact ⟨hwrote, .inr ⟨rfl, not_ready_of_writeScript ht hw⟩⟩
      | ok =>
          have hquiet := hq s.invocation w.state t
          have hleft : a.visit = some ⟨s.invocation, t⟩ ∧ w'.tree = t := by
            simp only [hw] at hran
            split at hran <;> rename_i he <;> rw [he] at hquiet <;> cases hran <;>
              exact ⟨rfl, hquiet⟩
          refine ⟨hleft.2 ▸ hwrote, .inl ⟨_, hleft.1, hleft.2, ?_⟩⟩
          rw [hleft.2]
          exact ⟨ready_of_writeScript hw, readText_of_writeScript hw⟩

theorem Attempted.wrote {a : Attempt} (hq : Quiet env) (ha : Attempted env s script w a w')
    (ht : w.tree.WellFormed) : Wrote w.tree s.scriptFile w'.tree :=
  (ha.visited hq ht).1

theorem Attempted.left {a : Attempt} (hq : Quiet env) (ha : Attempted env s script w a w')
    (ht : w.tree.WellFormed) {v : Visit} (hv : a.visit = some v) : w'.tree = v.tree := by
  obtain ⟨-, ⟨v', hv', htree, -⟩ | ⟨hnone, -⟩⟩ := ha.visited hq ht
  · rw [hv'] at hv
    exact Option.some.inj hv ▸ htree
  · rw [hnone] at hv
    cases hv

theorem Attempted.ready {a : Attempt} (hq : Quiet env) (ha : Attempted env s script w a w')
    (ht : w.tree.WellFormed) (hv : a.visit ≠ none) : w'.tree.Ready s.scriptFile := by
  obtain ⟨-, ⟨_, -, -, hready, -⟩ | ⟨hnone, -⟩⟩ := ha.visited hq ht
  · exact hready
  · exact absurd hnone hv

theorem Attempted.visit_of_ready {a : Attempt} (hq : Quiet env)
    (ha : Attempted env s script w a w') (ht : w.tree.WellFormed)
    (hr : w.tree.Ready s.scriptFile) : a.visit ≠ none := by
  obtain ⟨hw, ⟨_, hv, -⟩ | ⟨-, hn⟩⟩ := ha.visited hq ht
  · rw [hv]
    exact nofun
  · exact absurd (hr.extends hw.grows) hn

def contextOf (s : Setup) (l : Ledger) (t : FileTree) : Repair.Context :=
  { settings := s.settings
    workDir := s.request.workDir
    actions := s.request.actions
    ledger := l
    tree := t }

theorem touch_mend {l : Ledger} {d : Diagnosis} {log : String} {f : Repair.Finished}
    (ht : w.tree.WellFormed) (h : mend env s script l d log w = (some f, w')) :
    Repair.Touch (contextOf s l w.tree) d.kind script log f.repair w'.tree := by
  unfold mend at h
  split at h
  · cases h
  · dsimp only at h
    split at h
    · cases h
    · rename_i hr
      cases h
      exact Repair.touch_repair? ht hr

theorem effect_mend {l : Ledger} {d : Diagnosis} {log : String} {f : Repair.Finished}
    (ht : w.tree.WellFormed) (h : mend env s script l d log w = (some f, w')) :
    Repair.Effect (contextOf s l w.tree) script f.repair w'.tree :=
  Repair.effect_of_touch ht (touch_mend ht h)

theorem tree_of_mend_none {l : Ledger} {d : Diagnosis} {log : String}
    (h : mend env s script l d log w = (none, w')) : w'.tree = w.tree := by
  unfold mend at h
  split at h
  · cases h
    rfl
  · dsimp only at h
    split at h
    · cases h
      rfl
    · cases h

/-- A place is accounted for: it is that of the script, or reported, or the exception. -/
inductive Accounted (s : Setup) (rs : List Round) (t : FileTree) (q : Place) : Prop
  | script (h : t.canonical s.scriptFile = .ok q)
  | reported {r : Round} {d : Diagnosis} {m : Repair} {p : Path} (hr : r ∈ rs)
      (hm : r.repair = some (d, m)) (hp : p.shownFrom s.request.workDir ∈ m.filesTouched)
      (h : t.canonical p = .ok q)
  | exception (hn : NamesNoFile s) (h : Alias s t q)

/-- The changes from one tree to a later one are accounted for. -/
structure Changes (s : Setup) (rs : List Round) (t t' : FileTree) : Prop where
  grows : Extends t t'
  wellFormed : t'.WellFormed
  accounted : ∀ q b m, t'.get? q = some (.file b m) → t.get? q ≠ some (.file b m) →
    Accounted s rs t' q

theorem Accounted.grow {rs : List Round} {t t' : FileTree} {q : Place}
    (h : Accounted s rs t q) (ht : Extends t t') : Accounted s rs t' q := by
  cases h with
  | script h => exact .script (ht.canonical h)
  | reported hr hm hp h => exact .reported hr hm hp (ht.canonical h)
  | exception hn h =>
      obtain ⟨p, hp, h⟩ := h
      exact .exception hn ⟨p, hp, ht.canonical h⟩

theorem Accounted.cons {rs : List Round} {t : FileTree} {q : Place} (r : Round)
    (h : Accounted s rs t q) : Accounted s (r :: rs) t q := by
  cases h with
  | script h => exact .script h
  | reported hr hm hp h => exact .reported (List.mem_cons_of_mem _ hr) hm hp h
  | exception hn h => exact .exception hn h

section

variable {rs : List Round} {t t' t'' : FileTree}

theorem Changes.refl (ht : t.WellFormed) : Changes s rs t t :=
  ⟨.refl t, ht, fun _ _ _ h hn => absurd h hn⟩

theorem Changes.trans (h : Changes s rs t t') (h' : Changes s rs t' t'') : Changes s rs t t'' := by
  refine ⟨h.grows.trans h'.grows, h'.wellFormed, fun q b m hq hn => ?_⟩
  by_cases hm : t'.get? q = some (.file b m)
  · exact (h.accounted q b m hm hn).grow h'.grows
  · exact h'.accounted q b m hq hm

theorem Changes.cons (r : Round) (h : Changes s rs t t') : Changes s (r :: rs) t t' :=
  ⟨h.grows, h.wellFormed, fun q b m hq hn => (h.accounted q b m hq hn).cons r⟩

theorem changes_of_wrote (h : Wrote t s.scriptFile t') : Changes s rs t t' :=
  ⟨h.grows, h.wellFormed, fun q b m hq hn => .script (h.file q b m hq hn)⟩

theorem changes_of_tree (ht : t.WellFormed) (h : t' = t) : Changes s rs t t' := by
  rw [h]
  exact .refl ht

/-- What a repair changes is accounted for by the rounds if they report what it reports. -/
theorem changes_of_effect {l : Ledger} {r : Repair} (ht : t.WellFormed)
    (h : Repair.Effect (contextOf s l t) script r t')
    (hr : ∀ name ∈ r.filesTouched, ∃ x ∈ rs, ∃ d m, x.repair = some (d, m) ∧ name ∈ m.filesTouched) :
    Changes s rs t t' := by
  refine ⟨h.grows, h.wellFormed, fun q b m hq hn => ?_⟩
  have hne : t'.get? q ≠ t.get? q := fun he => hn (he ▸ hq)
  obtain ⟨p, old, new, m', hp, hb, -, hreported | ⟨hsame, -⟩⟩ := h.change q hne
  · obtain ⟨x, hx, d, r', hx', hname⟩ := hr _ hreported
    exact .reported hx hx' hname (h.grows.canonical hp)
  · by_cases hdot : NamesNoFile s
    · exact .exception hdot ⟨p, hsame, h.grows.canonical hp⟩
    · have hfile : t.get? q ≠ some .dir := ne_dir_of_file hb
      exact .script (h.grows.canonical (canonical_of_same ht hsame hp hfile hdot))

/-- A repair that comes to nothing has changed nothing in a script that could be written. -/
theorem unchanged_of_effect {l : Ledger} {r : Repair} (ht : t.WellFormed)
    (h : Repair.Effect (contextOf s l t) script r t') (hr : changesAnything script r = false)
    (hs : t.Ready s.scriptFile → t.readText s.scriptFile = .ok script) (q : Place) :
    t'.get? q = t.get? q ∨ ¬t.Ready s.scriptFile ∧ NamesNoFile s ∧ Alias s t' q := by
  by_contra hne
  rw [not_or] at hne
  simp only [changesAnything, Bool.or_eq_false_iff, bne_eq_false_iff_eq, Bool.not_eq_false',
    List.isEmpty_iff] at hr
  obtain ⟨p, old, new, m, hp, hb, ha, hreported | ⟨hsame, hnew⟩⟩ := h.change q hne.1
  · rw [hr.2] at hreported
    cases hreported
  · have hfile : t.get? q = some (.file old.toUTF8 m) := hb
    by_cases hready : t.Ready s.scriptFile
    · obtain ⟨q', b, m', hf, hq', htext⟩ := readText_eq_ok_iff.mp (hs hready)
      cases canonical_unique hsame hp hf
      rw [hq'] at hfile
      cases hfile
      rw [fromUTF8?_toUTF8] at htext
      cases htext
      have hsame' : new = script := (hnew rfl).trans hr.1
      exact hne.1 (by rw [ha, hq', hsame'])
    · refine hne.2 ⟨hready, ?_, p, hsame, h.grows.canonical hp⟩
      by_contra hdot
      have hcanonical := canonical_of_same ht hsame hp (ne_dir_of_file hfile) hdot
      exact hready (ready_of_canonical ht hcanonical hfile hdot)

end

namespace Story

variable {left : Nat} {l : Ledger} {rs : List Round} {e : Ending}

theorem changes (h : Story env s left script l w rs e w') (hq : Quiet env)
    (ht : w.tree.WellFormed) : Changes s rs w.tree w'.tree := by
  induction h with
  | cancelled => exact .refl ht
  | interrupted ha | passed ha | unrecognised ha | usedUp ha =>
      exact changes_of_wrote (ha.wrote hq ht)
  | abandoned ha _ hm =>
      have hw := ha.wrote hq ht
      exact (changes_of_wrote hw).trans (changes_of_tree hw.wellFormed (tree_of_mend_none hm))
  | unmended ha _ hm hf =>
      have hw := ha.wrote hq ht
      refine (changes_of_wrote hw).trans (changes_of_effect hw.wellFormed
        (effect_mend hw.wellFormed hm) fun name hname => ?_)
      simp only [changesAnything, Bool.or_eq_false_iff, Bool.not_eq_false', List.isEmpty_iff] at hf
      rw [hf.2] at hname
      cases hname
  | mended ha _ hm _ _ ih =>
      have hw := ha.wrote hq ht
      have heffect := effect_mend hw.wellFormed hm
      refine (changes_of_wrote hw).trans ((changes_of_effect hw.wellFormed heffect ?_).trans
        ((ih heffect.wellFormed).cons _))
      exact fun name hname => ⟨_, List.mem_cons_self, _, _, rfl, hname⟩

theorem left_of_visit (h : Story env s left script l w rs e w') (hq : Quiet env)
    (ht : w.tree.WellFormed) : ∀ r ∈ rs, ∀ v, r.attempt.visit = some v → r.left = v.tree := by
  refine h.forall_round (I := fun w => w.tree.WellFormed) ?_ ?_ ht
  · intro _ _ _ _ ht ha
    exact ⟨(ha.wrote hq ht).wellFormed, fun _ _ hv => ha.left hq ht hv⟩
  · intro _ _ _ _ _ _ _ ht hm
    exact (effect_mend ht hm).wellFormed

theorem visit_of_ready (h : Story env s left script l w rs e w') (hq : Quiet env)
    (ht : w.tree.WellFormed) (hready : w.tree.Ready s.scriptFile) :
    ∀ r ∈ rs, r.attempt.visit ≠ none := by
  refine h.forall_round (I := fun w => w.tree.WellFormed ∧ w.tree.Ready s.scriptFile) ?_ ?_
    ⟨ht, hready⟩
  · intro _ _ _ _ ⟨ht, hready⟩ ha
    have hw := ha.wrote hq ht
    exact ⟨⟨hw.wellFormed, hready.extends hw.grows⟩, fun _ => ha.visit_of_ready hq ht hready⟩
  · intro _ _ _ _ _ _ _ ⟨ht, hready⟩ hm
    have heffect := effect_mend ht hm
    exact ⟨heffect.wellFormed, hready.extends heffect.grows⟩

theorem last_visit (h : Story env s left script l w rs e w') (hq : Quiet env)
    (ht : w.tree.WellFormed) {v : Visit} (hv : (rs.filterMap (·.attempt.visit)).getLast? = some v) :
    ∃ r, rs.getLast? = some r ∧ r.attempt.visit = some v := by
  have single : ∀ r : Round, ([r].filterMap (·.attempt.visit)).getLast? = some v →
      ∃ x, [r].getLast? = some x ∧ x.attempt.visit = some v := by
    intro r hr
    refine ⟨r, rfl, ?_⟩
    cases hn : r.attempt.visit with
    | none => simp [hn] at hr
    | some v' => simpa [hn] using hr
  induction h with
  | cancelled => cases hv
  | interrupted | passed | unrecognised | usedUp | abandoned | unmended => exact single _ hv
  | @mended _ _ _ _ w₁ _ _ a _ d f rs _ ha _ hm _ rest ih =>
      have hw := ha.wrote hq ht
      have heffect := effect_mend hw.wellFormed hm
      cases rs with
      | nil => exact single _ hv
      | cons r rs =>
          have hlast : ((r :: rs).filterMap (·.attempt.visit)).getLast? = some v := by
            cases hn : a.visit with
            | none =>
                rw [List.filterMap_cons_none (by exact hn)] at hv
                exact hv
            | some v' =>
                have hready := (ha.ready hq ht (by rw [hn]; exact nofun)).extends heffect.grows
                have hne := rest.visit_of_ready hq heffect.wellFormed hready r List.mem_cons_self
                obtain ⟨v'', hv''⟩ := Option.ne_none_iff_exists'.mp hne
                have hcons : (r :: rs).filterMap (·.attempt.visit) =
                    v'' :: rs.filterMap (·.attempt.visit) := List.filterMap_cons_some hv''
                rw [List.filterMap_cons_some (by exact hn), hcons, List.getLast?_cons_cons] at hv
                rwa [hcons]
          obtain ⟨x, hx, hxv⟩ := ih heffect.wellFormed hlast
          exact ⟨x, by rwa [List.getLast?_cons_cons], hxv⟩

/-- After an attempt that is not followed by a repair with which the trial goes on, no file
changes, but for the exception. -/
theorem unfixed (h : Story env s left script l w rs e w') (hq : Quiet env)
    (ht : w.tree.WellFormed) {r : Round} (hr : rs.getLast? = some r) (hn : r.repair = none)
    (q : Place) : w'.tree.get? q = r.left.get? q ∨
      e = .noFix ∧ r.attempt.visit = none ∧ NamesNoFile s ∧ Alias s w'.tree q := by
  induction h with
  | cancelled => cases hr
  | interrupted | passed | unrecognised | usedUp =>
      cases hr
      exact .inl rfl
  | abandoned _ _ hm =>
      cases hr
      rw [tree_of_mend_none hm]
      exact .inl rfl
  | @unmended _ text _ _ w₁ _ a _ _ f ha _ hm hf =>
      cases hr
      obtain ⟨hw, hvisit⟩ := ha.visited hq ht
      have hs : w₁.tree.Ready s.scriptFile → w₁.tree.readText s.scriptFile = .ok text := by
        intro hready
        obtain ⟨_, -, -, -, hread⟩ | ⟨-, hnot⟩ := hvisit
        · exact hread
        · exact absurd hready hnot
      refine (unchanged_of_effect hw.wellFormed (effect_mend hw.wellFormed hm) hf hs q).imp_right ?_
      rintro ⟨hnot, hnames, halias⟩
      refine ⟨rfl, ?_, hnames, halias⟩
      by_contra hv
      exact hnot (ha.ready hq ht hv)
  | @mended _ _ _ _ _ _ _ _ _ _ _ rs _ ha _ hm _ _ ih =>
      have hw := ha.wrote hq ht
      cases rs with
      | nil =>
          cases hr
          cases hn
      | cons x rs =>
          rw [List.getLast?_cons_cons] at hr
          exact ih (effect_mend hw.wellFormed hm).wellFormed hr

theorem ended (h : Story env s left script l w rs e w')
    (he : e = .succeeded ∨ e = .unrecognised ∨ e = .attemptsUsedUp) :
    ∃ r, rs.getLast? = some r ∧ w'.tree = r.left := by
  induction h with
  | cancelled | interrupted | abandoned | unmended => simp at he
  | passed | unrecognised | usedUp => exact ⟨_, rfl, rfl⟩
  | @mended _ _ _ _ _ _ _ _ _ _ _ rs _ _ _ _ _ _ ih =>
      obtain ⟨r, hr, ht⟩ := ih he
      cases rs with
      | nil => cases hr
      | cons x rs => exact ⟨r, by rwa [List.getLast?_cons_cons], ht⟩

end Story

theorem mem_fixesOf {rs : List Round} {r : Round} {d : Diagnosis} {m : Repair} (hr : r ∈ rs)
    (hm : r.repair = some (d, m)) (n : Nat) :
    ∃ f ∈ fixesOf n rs, f.filesTouched = m.filesTouched := by
  induction rs generalizing n with
  | nil => cases hr
  | cons x rs ih =>
      rw [fixesOf]
      rcases List.mem_cons.mp hr with rfl | hr
      · rw [hm]
        exact ⟨_, List.mem_append_left _ List.mem_cons_self, rfl⟩
      · obtain ⟨f, hf, hfiles⟩ := ih hr (n + 1)
        exact ⟨f, List.mem_append_right _ hf, hfiles⟩

/-- Every change of a file between two trees is accounted for by a trial that went through the rounds
and ended, with the calls of the runner and the repairs that it has booked. -/
structure Traced (s : Setup) (t t' : FileTree) (rs : List Round) (e : Ending) (p : Progress) :
    Prop where
  grows : Extends t t'
  changed : ∀ q b m, t'.get? q = some (.file b m) → t.get? q ≠ some (.file b m) →
    t'.canonical s.scriptFile = .ok q ∨
    (∃ f ∈ p.result.fixes, ∃ x : Path, x.shownFrom s.request.workDir ∈ f.filesTouched ∧
      t'.canonical x = .ok q) ∨
    NamesNoFile s ∧ Alias s t' q
  /-- A round without a repair is one after which the trial did not go on. -/
  unfixed : ∀ r, rs.getLast? = some r → r.repair = none → ∀ q, t'.get? q = r.left.get? q ∨
    e = .noFix ∧ r.attempt.visit = none ∧ NamesNoFile s ∧ Alias s t' q
  left : ∀ r ∈ rs, ∀ v, r.attempt.visit = some v → r.left = v.tree
  ended : e = .succeeded ∨ e = .unrecognised ∨ e = .attemptsUsedUp →
    ∀ v, p.visits.getLast? = some v → t' = v.tree

/-- Where the runner changes no file, a trial accounts for every file that it changes, and what does
not help changes none. The one exception is a script whose path can only name a directory: a file
under a path with the same components is then changed as if it were the script. -/
theorem run_traced (hq : Quiet env) (s : Setup) {w : World σ} (ht : w.tree.WellFormed) :
    ∃ rs e p w', run env s w = (p, w') ∧ p.phase = .done e ∧
      Story env s s.attempts s.request.script {} w rs e w' ∧
      Traced s w.tree w'.tree rs e p := by
  obtain ⟨rs, e, p, w', hrun, story, hb⟩ := run_follows env s w
  refine ⟨rs, e, p, w', hrun, hb.ended, story, ?_⟩
  have hchanges := story.changes hq ht
  refine ⟨hchanges.grows, fun q b m hq' hn => ?_, fun r hr hn q => story.unfixed hq ht hr hn q,
    story.left_of_visit hq ht, fun he v hv => ?_⟩
  · cases hchanges.accounted q b m hq' hn with
    | script h => exact .inl h
    | reported hr hm hp h =>
        obtain ⟨f, hf, hfiles⟩ := mem_fixesOf hr hm 0
        exact .inr (.inl ⟨f, hb.fixes_start ▸ hf, _, hfiles ▸ hp, h⟩)
    | exception hnames h => exact .inr (.inr ⟨hnames, h⟩)
  · rw [hb.visits_start] at hv
    obtain ⟨r, hr, hrv⟩ := story.last_visit hq ht hv
    obtain ⟨r', hr', hleft⟩ := story.ended he
    rw [hr] at hr'
    cases hr'
    rw [hleft]
    exact story.left_of_visit hq ht r (List.mem_of_getLast? hr) v hrv

/-- A runner that always complains about one locator, and an assistant that is never there. -/
def complaining : Surroundings Unit where
  execute _ _ t := (.ok { success := false, log := "TimeoutError: locator('#old')" }, (), t)
  consult _ _ := (.silent, ())
  cancelled _ := false

theorem run_traced_linkedPage :
    Quiet complaining ∧ Patch.linkedPage.WellFormed ∧
      ∃ rs e p w', run complaining { settings := {}, request := { script := "", workDir := ⟨"/"⟩ } }
          ⟨(), Patch.linkedPage⟩ = (p, w') ∧ p.phase = .done e ∧
        Story complaining { settings := {}, request := { script := "", workDir := ⟨"/"⟩ } }
          (Setup.attempts { settings := {}, request := { script := "", workDir := ⟨"/"⟩ } }) "" {}
          ⟨(), Patch.linkedPage⟩ rs e w' ∧
        Traced { settings := {}, request := { script := "", workDir := ⟨"/"⟩ } } Patch.linkedPage
          w'.tree rs e p :=
  ⟨fun _ _ _ => rfl, Patch.wellFormed_linkedPage,
    run_traced (fun _ _ _ => rfl) _ Patch.wellFormed_linkedPage⟩

end Trial
end TestRepair
