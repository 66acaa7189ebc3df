import TestRepair.Proofs.Repair.Touching

/-!
What a repair reports, it has rewritten. An export makes its module longer. A swap has been made in
every file that is reported for it, just as in the script.
-/

namespace TestRepair

theorem ne_withExport (source cls : String) : source ≠ Script.withExport source cls := by
  intro same
  have line : 0 < (Script.exportLine source.toList cls).toList.length := by
    unfold Script.exportLine
    split <;> simp
  have length := congrArg (fun s : String => s.toList.length) same
  simp only [Script.withExport] at length
  split at length
  · simp only [String.toList_append, List.length_append] at length
    omega
  · simp only [String.toList_append, List.length_append] at length
    omega

namespace Repair

/-- A path that leads to a file which held the old text and holds the new one. -/
structure Rewrote (c : Context) (t : FileTree) (p : Path) (q : Place) (old new : String) :
    Prop where
  leads : c.tree.canonical p = .ok q
  held : ∃ m, c.tree.get? q = some (.file old.toUTF8 m) ∧ t.get? q = some (.file new.toUTF8 m)

/-- What a repair of a script reports, by the kind of failure. -/
inductive Reports (c : Context) (kind : FailureKind) (script log : String) (r : Repair)
    (t : FileTree) : Prop
  | nothing (h : r.filesTouched = [])
  | exported (hk : kind = .exportConstructor) {p : Path} {q : Place} {old new : String}
      (hr : r.filesTouched = [p.shownFrom c.workDir]) (h : Rewrote c t p q old new)
      (hne : old ≠ new)
  | swapped (hk : kind = .locatorNotFound ∨ kind = .selectorAmbiguity) {failing : String}
      (hl : FailingLocator.ofLog? log = some failing) (healed : Healing.Healed)
      (hr : r = ofHealed c script failing healed)
      (h : ∀ name ∈ r.filesTouched, ∃ p q old new, p.shownFrom c.workDir = name ∧
        Rewrote c t p q old new ∧
        Replacement.inText? old failing healed.candidate.selector = some new)

theorem reports_of_touch {c : Context} {kind : FailureKind} {script log : String} {r : Repair}
    {t : FileTree} (h : Touch c kind script log r t) : Reports c kind script log r t := by
  cases h with
  | nothing _ hr => exact .nothing hr
  | @exported cls source _ _ m hk _ leads held ht hr =>
      subst ht
      have after := FileTree.get?_set_self c.tree (.file (Script.withExport source cls).toUTF8 m)
        (FileTree.ne_nil_of_file held)
      exact .exported hk hr ⟨leads, m, held, after⟩ (ne_withExport source cls)
  | @swapped _ failing cand hk hl _ hs _ hr =>
      refine .swapped hk hl _ hr fun name hname => ?_
      rw [hr] at hname
      obtain ⟨p, hp, rfl⟩ := List.mem_map.mp hname
      obtain ⟨r, hr, rfl⟩ := List.mem_map.mp (List.mem_filter.mp hp).1
      have hsound := hs.sound r hr
      exact ⟨r.path, r.place, r.original, r.contents, rfl, ⟨hsound.leads, r.mode, hsound.held,
        hs.held r hr⟩, hsound.swapped⟩

end Repair
end TestRepair
