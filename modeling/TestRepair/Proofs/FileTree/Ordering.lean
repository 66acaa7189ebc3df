import Mathlib.Data.List.Sort
import Mathlib.Data.String.Basic
import TestRepair.Repair.Patch

/-!
The order of paths. It goes by components and nothing else: an ordered list holds no path twice, and
two ordered lists that hold the same paths are the same, apart from how the paths are spelled.
-/

namespace TestRepair

namespace PathComponent

theorem compare_eq_lex :
    PathComponent.compare = compareLex (compareOn compare.rank) (compareOn text) := by
  funext a b
  cases a <;> cases b <;> rfl

instance : Std.TransCmp PathComponent.compare := by
  rw [compare_eq_lex]
  infer_instance

instance : Std.LawfulEqCmp PathComponent.compare where
  eq_of_compare {a b} h := by
    cases a <;> cases b <;> first | rfl | cases h | exact congrArg name (Std.compare_eq_iff_eq.mp h)

end PathComponent

namespace Path

theorem compareComponents_eq_lex : compareComponents = List.compareLex PathComponent.compare := by
  funext cs ds
  induction cs generalizing ds with
  | nil => cases ds <;> rfl
  | cons c cs ih =>
    cases ds with
    | nil => rfl
    | cons d ds => rw [compareComponents, ih, List.compareLex_cons_cons]

instance : Std.TransCmp compareComponents := by
  rw [compareComponents_eq_lex]
  infer_instance

instance : Std.LawfulEqCmp compareComponents := by
  rw [compareComponents_eq_lex]
  infer_instance

/-- The components of a path come before those of another one. -/
def Precede (cs ds : List PathComponent) : Prop := compareComponents cs ds = .lt

instance : Std.Irrefl Precede where
  irrefl cs h := by
    have equal : compareComponents cs cs = .eq := Std.ReflCmp.compare_self
    cases equal.symm.trans h

instance : Std.Antisymm Precede where
  antisymm cs ds h h' := by
    cases h'.symm.trans (Std.OrientedCmp.gt_of_lt h)

theorem Precede.trans {cs ds es : List PathComponent} (h : Precede cs ds) (h' : Precede ds es) :
    Precede cs es := Std.TransCmp.lt_trans h h'

/-- The paths stand in their order, and none of them twice. -/
def Ascending (ps : List Path) : Prop := ps.Pairwise fun p q => p.compare q = .lt

theorem ascending_iff {ps : List Path} : Ascending ps ↔ (ps.map components).Pairwise Precede :=
  Iff.symm (List.pairwise_map (R := Precede))

end Path

namespace Patch

open TestRepair.Path

variable {p : Path} {ps : List Path} {cs : List PathComponent}

theorem mem_components_insertPath : cs ∈ (insertPath p ps).map Path.components ↔
    cs = p.components ∨ cs ∈ ps.map Path.components := by
  induction ps with
  | nil => simp [insertPath]
  | cons q ps ih =>
    rw [insertPath]
    split
    · rw [List.map_cons, List.mem_cons]
    · next same =>
      have equal : p.components = q.components := Std.LawfulEqCmp.eq_of_compare same
      simp [equal]
    · rw [List.map_cons, List.mem_cons, ih, List.map_cons, List.mem_cons]
      exact or_left_comm

theorem ascending_insertPath (h : Ascending ps) : Ascending (insertPath p ps) := by
  induction ps with
  | nil => exact List.pairwise_singleton _ _
  | cons q ps ih =>
    obtain ⟨first, rest⟩ := List.pairwise_cons.mp h
    rw [insertPath]
    split
    · next less =>
      refine List.pairwise_cons.mpr ⟨fun r hr => ?_, h⟩
      rcases List.mem_cons.mp hr with rfl | hr
      · exact less
      · exact Precede.trans less (first r hr)
    · exact h
    · next greater =>
      rw [ascending_iff, List.map_cons, List.pairwise_cons]
      refine ⟨fun cs hcs => ?_, ascending_iff.mp (ih rest)⟩
      rcases mem_components_insertPath.mp hcs with rfl | hcs
      · exact Std.OrientedCmp.lt_of_gt greater
      · obtain ⟨r, hr, rfl⟩ := List.mem_map.mp hcs
        exact first r hr

/-- Paths that are gathered one by one are in their order. -/
theorem ascending_foldl_insertPath (found : List Path) (h : Ascending ps) :
    Ascending (found.foldl (fun ps p => insertPath p ps) ps) := by
  induction found generalizing ps with
  | nil => exact h
  | cons p found ih => exact ih (ascending_insertPath h)

theorem mem_components_foldl_insertPath (found : List Path) :
    cs ∈ (found.foldl (fun ps p => insertPath p ps) ps).map Path.components ↔
      cs ∈ found.map Path.components ∨ cs ∈ ps.map Path.components := by
  induction found generalizing ps with
  | nil => simp
  | cons p found ih =>
    rw [List.foldl_cons, ih, mem_components_insertPath, List.map_cons, List.mem_cons]
    exact or_left_comm.trans or_assoc.symm

/-- Ordered lists with the same paths are the same. -/
theorem components_eq_of_ascending {ps qs : List Path} (hp : Ascending ps) (hq : Ascending qs)
    (h : ∀ cs, cs ∈ ps.map Path.components ↔ cs ∈ qs.map Path.components) :
    ps.map Path.components = qs.map Path.components :=
  List.Pairwise.eq_of_mem_iff (ascending_iff.mp hp) (ascending_iff.mp hq) h

end Patch
end TestRepair
