import TestRepair.Proofs.Repair.Swapping
import TestRepair.Repair.Strategy

/-!
What a repair does. It touches no file, or it exports a class from the module that the log complains
about, or it swaps a locator in the sources of the project. Whatever is said about repairs is read off
these three cases, and the strategies are opened nowhere else.
-/

namespace TestRepair

open FileTree

/-- A file that can be read can be replaced. -/
theorem replaceText_of_readText {t : FileTree} (ht : t.WellFormed) {p : Path} {old : String}
    (hp : t.readText p = .ok old) (s : String) :
    ∃ q m, t.canonical p = .ok q ∧ t.get? q = some (.file old.toUTF8 m) ∧
      t.replaceText p s = .ok (t.set q (.file s.toUTF8 m)) := by
  obtain ⟨q, b, m, hq, hb, htext⟩ := readText_eq_ok_iff.mp hp
  have htarget : t.target p = q.path := by simp only [target, hq]
  obtain ⟨e, t₀, he, -, -⟩ | ⟨-, d, t₀, hstage, hd, hl⟩ :=
    (Laid.nil t).stage .none q.path.steps ht hb s.toUTF8
  · cases he
  · obtain ⟨t₁, hpersist, hl₁⟩ := hl.persist ht (Patch.ne_nil_of_unmentioned hd) hb
    refine ⟨q, m, hq, eq_toUTF8_of_fromUTF8? htext ▸ hb, ?_⟩
    simp only [replaceText, htarget, hstage, mapError_ok, ok_bind, hpersist, hl₁.eq]

/-- A class that is exported already needs nothing; another one is exported in its module. -/
theorem ensureExported_eq_ok {t t' : FileTree} {module : Path} {cls : String} {changed : Bool}
    (h : Script.ensureExported t module cls = .ok (changed, t')) :
    changed = false ∧ t' = t ∨
      changed = true ∧ ∃ source, t.readText module = .ok source ∧
        t.replaceText module (Script.withExport source cls) = .ok t' := by
  unfold Script.ensureExported at h
  cases hr : t.readText module with
  | error e => simp [hr] at h
  | ok source =>
      simp only [hr, mapError_ok, ok_bind] at h
      split at h
      · cases h
        exact .inl ⟨rfl, rfl⟩
      · split at h
        · cases h
        · cases hw : t.replaceText module (Script.withExport source cls) with
          | error e => simp [hw] at h
          | ok t₁ =>
              simp only [hw, mapError_ok, ok_bind] at h
              cases h
              exact .inr ⟨rfl, source, rfl, hw⟩

namespace Repair

theorem complainedModule_eq_ok {c : Context} {script log cls : String} {p : Path}
    (h : complainedModule c script log = .ok (cls, p)) :
    ∃ specifier, MissingClass.ofLog? log = some cls ∧
      Script.importOf? script cls = some specifier ∧
      Script.module? c.tree c.scriptDir specifier = some p := by
  unfold complainedModule at h
  cases hc : MissingClass.ofLog? log with
  | none => simp [hc] at h
  | some cls' =>
      cases hi : Script.importOf? script cls' with
      | none => simp [hc, hi] at h
      | some specifier =>
          cases hm : Script.module? c.tree c.scriptDir specifier with
          | none => simp [hc, hi, hm] at h
          | some p' =>
              simp only [hc, hi, hm, pure_eq_ok, Except.ok.injEq, Prod.mk.injEq] at h
              obtain ⟨rfl, rfl⟩ := h
              exact ⟨specifier, rfl, hi, hm⟩

/-- What a repair of a script after a failure of some kind does to the files, and what it reports. -/
inductive Touch (c : Context) (kind : FailureKind) (script log : String) (r : Repair)
    (t : FileTree) : Prop
  | nothing (ht : t = c.tree) (hr : r.filesTouched = [])
  | exported {cls source : String} {p : Path} {q : Place} {m : Nat}
      (hk : kind = .exportConstructor) (hm : complainedModule c script log = .ok (cls, p))
      (leads : c.tree.canonical p = .ok q) (held : c.tree.get? q = some (.file source.toUTF8 m))
      (ht : t = c.tree.set q (.file (Script.withExport source cls).toUTF8 m))
      (hr : r.filesTouched = [p.shownFrom c.workDir])
  | swapped {files : List Path} {failing : String} {cand : Candidate}
      (hk : kind = .locatorNotFound ∨ kind = .selectorAmbiguity)
      (hl : FailingLocator.ofLog? log = some failing)
      (hf : Patch.sources c.tree c.workDir c.settings.healing.locatorDirs
        c.settings.healing.sourceExtensions = .ok files)
      (hs : Patch.Swapped c.tree failing cand.selector
        (Patch.rewrites c.tree failing cand.selector files) t) (wf : t.WellFormed)
      (hr : r = ofHealed c script failing
        ⟨cand, (Patch.rewrites c.tree failing cand.selector files).map (·.path)⟩)

section

variable {c : Context} (hc : c.tree.WellFormed) {script log : String} {kind : FailureKind}

include hc

theorem touch_exportClass {r : Repair} {t : FileTree} (hk : kind = .exportConstructor)
    (h : exportClass c script log = .ok (r, t)) : Touch c kind script log r t := by
  unfold exportClass at h
  cases hm : complainedModule c script log with
  | error e => simp [hm] at h
  | ok x =>
      obtain ⟨cls, module⟩ := x
      simp only [hm, ok_bind] at h
      cases hx : Script.ensureExported c.tree module cls with
      | error e => simp [hx] at h
      | ok y =>
          obtain ⟨changed, t'⟩ := y
          obtain ⟨rfl, rfl⟩ | ⟨rfl, source, hr, hw⟩ := ensureExported_eq_ok hx
          · simp only [hx, mapError_ok, ok_bind, Bool.false_eq_true, if_false, pure_eq_ok,
              Except.ok.injEq, Prod.mk.injEq] at h
            obtain ⟨rfl, rfl⟩ := h
            exact .nothing rfl rfl
          · simp only [hx, mapError_ok, ok_bind, if_true, pure_eq_ok, Except.ok.injEq,
              Prod.mk.injEq] at h
            obtain ⟨rfl, rfl⟩ := h
            obtain ⟨q, m, hq, hb, hset⟩ := replaceText_of_readText hc hr (Script.withExport source cls)
            rw [hw] at hset
            exact .exported hk hm hq hb (Except.ok.inj hset) rfl

theorem touch_write (hk : kind = .locatorNotFound ∨ kind = .selectorAmbiguity)
    (script : String) {log failing : String} (hl : FailingLocator.ofLog? log = some failing)
    (cand : Candidate) :
    (∃ e, Healing.write c.settings.healing c.tree c.workDir failing cand = (.error e, c.tree)) ∨
    ∃ healed t, Healing.write c.settings.healing c.tree c.workDir failing cand = (.ok healed, t) ∧
      Touch c kind script log (ofHealed c script failing healed) t := by
  unfold Healing.write
  cases hf : Patch.sources c.tree c.workDir c.settings.healing.locatorDirs
      c.settings.healing.sourceExtensions with
  | error e => exact .inl ⟨e, rfl⟩
  | ok files =>
      obtain ⟨p, -, e, -, h⟩ | ⟨h, hs, hn⟩ := Patch.swap_cases hc files failing cand.selector
      · simp only [h]
        exact .inl ⟨_, rfl⟩
      · simp only [h]
        have wf := Patch.wellFormed_rewritten hc fun r hr => ⟨_, _, (hs r hr).held⟩
        exact .inr ⟨_, _, rfl, .swapped hk hl hf (Patch.swapped_rewritten hs hn) wf rfl⟩

theorem touch_healSelector (hk : kind = .locatorNotFound ∨ kind = .selectorAmbiguity)
    (script log : String) :
    Touch c kind script log (report script (healSelector c script log).result)
      (healSelector c script log).tree := by
  cases hf : FailingLocator.ofLog? log with
  | none =>
      simp only [healSelector, hf]
      exact .nothing rfl rfl
  | some failing =>
      cases hch : Healing.choose c.settings.healing c.ledger failing c.actions log with
      | error e =>
          simp only [healSelector, hf, Healing.heal, hch]
          exact .nothing rfl rfl
      | ok x =>
          obtain ⟨_ | cand, l⟩ := x
          · simp only [healSelector, hf, Healing.heal, hch]
            exact .nothing rfl rfl
          · obtain ⟨e, h⟩ | ⟨healed, t, h, touch⟩ := touch_write hc hk script hf cand
            · simp only [healSelector, hf, Healing.heal, hch, h]
              exact .nothing rfl rfl
            · simp only [healSelector, hf, Healing.heal, hch, h]
              exact touch

theorem touch_withoutAssistant (kind : FailureKind) (script log : String) :
    Touch c kind script log (report script (withoutAssistant c kind script log).result)
      (withoutAssistant c kind script log).tree := by
  unfold withoutAssistant
  split
  · cases h : exportClass c script log with
    | error e => exact .nothing rfl rfl
    | ok x => exact touch_exportClass hc rfl h
  · exact .nothing rfl rfl
  · exact touch_healSelector hc (.inl rfl) script log
  · exact touch_healSelector hc (.inr rfl) script log
  · exact .nothing rfl rfl

theorem touch_repair? {σ : Type} {consult : RewriteRequest → σ → Consultation × σ}
    {state state' : σ} {d : Diagnosis} {f : Finished}
    (h : repair? c consult state script d log = (some f, state')) :
    Touch c d.kind script log f.repair f.tree := by
  unfold repair? at h
  split at h
  · obtain ⟨hf, -⟩ := Prod.mk.inj h
    obtain ⟨r, hr, rfl⟩ := Option.map_eq_some_iff.mp hf
    refine .nothing rfl ?_
    unfold ofConsultation? at hr
    split at hr
    · cases hr
    · cases hr
      rfl
    · cases hr
      rfl
    · cases hr
      split <;> rfl
  · cases h
    exact touch_withoutAssistant hc d.kind script log

end

end Repair
end TestRepair
