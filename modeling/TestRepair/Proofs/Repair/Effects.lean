import TestRepair.Proofs.Repair.Touching

/-!
What a repair does to the files. Every file that is not what it was before is reported, or it is the
one under the path of the script, and that one holds the repaired script if it held the script. A
repair that fails leaves all files as they were.
-/

namespace TestRepair

open FileTree

namespace Repair

/-- A file that a repair has changed. It is reported, or it is under the path of the script. -/
structure Change (c : Context) (script : String) (r : Repair) (t : FileTree) (q : Place) (p : Path)
    (old new : String) (m : Nat) : Prop where
  leads : c.tree.canonical p = .ok q
  before : c.tree.get? q = some (.file old.toUTF8 m)
  after : t.get? q = some (.file new.toUTF8 m)
  reported : p.shownFrom c.workDir ∈ r.filesTouched ∨
    p.same c.scriptFile = true ∧ (old = script → new = r.script)

/-- A repair of a script that has left the tree `t`. -/
structure Effect (c : Context) (script : String) (r : Repair) (t : FileTree) : Prop where
  grows : Extends c.tree t
  wellFormed : t.WellFormed
  change : ∀ q, t.get? q ≠ c.tree.get? q → ∃ p old new m, Change c script r t q p old new m

theorem effect_of_tree (c : Context) (hc : c.tree.WellFormed) (script : String) (r : Repair) :
    Effect c script r c.tree :=
  ⟨.refl _, hc, fun _ hq => absurd rfl hq⟩

theorem effect_of_touch {c : Context} (hc : c.tree.WellFormed) {kind : FailureKind}
    {script log : String} {r : Repair} {t : FileTree} (h : Touch c kind script log r t) :
    Effect c script r t := by
  cases h with
  | nothing ht => exact ht ▸ effect_of_tree c hc script r
  | @exported _ source p q m _ _ leads held ht hr =>
      subst ht
      have hne : q ≠ [] := ne_nil_of_file held
      refine ⟨extends_set_of_file held _ _, hc.set_file held, fun q' hq' => ?_⟩
      by_cases he : q' = q
      · subst he
        exact ⟨p, source, _, m, leads, held, get?_set_self _ _ hne,
          .inl (hr ▸ List.mem_singleton.mpr rfl)⟩
      · exact absurd (get?_set_of_ne _ _ hne he) hq'
  | swapped _ _ _ hs wf hr =>
      subst hr
      refine ⟨hs.extends, wf, fun q hq => ?_⟩
      obtain ⟨r, hr, rfl⟩ := hs.mem_of_ne hq
      have hsound := hs.sound r hr
      refine ⟨r.path, r.original, r.contents, r.mode, hsound.leads, hsound.held, hs.held r hr, ?_⟩
      cases hsame : r.path.same c.scriptFile with
      | true =>
          refine .inr ⟨rfl, fun he => ?_⟩
          have hswapped := hsound.swapped
          rw [he] at hswapped
          simp only [ofHealed, hswapped, Option.getD_some]
      | false =>
          refine .inl (List.mem_map.mpr ⟨r.path, List.mem_filter.mpr ⟨?_, by simp [hsame]⟩, rfl⟩)
          exact List.mem_map.mpr ⟨r, hr, rfl⟩

end Repair
end TestRepair
