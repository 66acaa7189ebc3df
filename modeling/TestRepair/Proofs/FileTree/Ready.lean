import TestRepair.Proofs.FileTree.Dots
import TestRepair.Proofs.FileTree.Writing

/-!
When a file can be written whose directory is made first. Making a directory succeeds just if the
directory is there afterwards, so what is ready to be written stays ready, and where writing fails
nothing was ready.
-/

namespace TestRepair
namespace FileTree

open Place (Proper)

/-- A look-up that leads to a directory leads there also if the last link is to be followed. -/
theorem Leads.follow {t : FileTree} {follow : Bool} {k : Nat} {d q : Place} {s : List String}
    {g : Goal} (h : Leads t follow k d s g) (hg : g = .node q) (hq : t.get? q = some .dir) :
    Leads t true k d s g := by
  induction h with
  | done => exact .done _ _
  | here _ ih => exact .here (ih hg)
  | up _ ih => exact .up (ih hg)
  | free => cases hg
  | dir hn h _ ih => exact .dir hn h (ih hg)
  | file _ hn h => exact .file _ hn h
  | link _ _ h =>
      cases hg
      rw [h] at hq
      cases hq
  | jump hn h _ _ ih => exact .jump hn h (by simp) (ih hg)

section

variable {t t' : FileTree} {p : Path}

theorem free_of_goal (ht : t.WellFormed) {follow : Bool} {d : Place} {n : String}
    (h : t.goal follow p = .ok (.free d n)) :
    t.get? d = some .dir ∧ Proper n ∧ t.get? (d ++ [n]) = none := by
  obtain ⟨hs, hl⟩ := goal_eq_ok_iff.mp h
  obtain ⟨hd, hn⟩ :=
    hl.free_in_dir ht (ht.origin p) (fun _ hm => noNul_of_mem_steps hs.notMem hm) rfl
  exact ⟨hd, hn, goal_free_get? h⟩

theorem wellFormed_of_makeDir (ht : t.WellFormed) (h : t.makeDir p = .ok t') : t'.WellFormed := by
  obtain ⟨d, n, hg, rfl⟩ := makeDir_eq_ok h
  obtain ⟨hd, hn, hfree⟩ := free_of_goal ht hg
  exact ht.set hd hn (by simp [hfree]) (fun _ => nofun)

theorem MakesDirs.wellFormed (h : MakesDirs t t') (ht : t.WellFormed) : t'.WellFormed := by
  induction h with
  | refl => exact ht
  | tail _ hm ih =>
      obtain ⟨p, hm⟩ := hm
      exact wellFormed_of_makeDir ih hm

theorem wellFormed_of_write (ht : t.WellFormed) {bytes : ByteArray}
    (h : t.write p bytes = .ok t') : t'.WellFormed := by
  obtain ⟨q, m, -, rfl, -, ⟨⟨d, n, rfl, hg⟩, -⟩ | ⟨b, hq⟩⟩ := write_eq_ok h
  · obtain ⟨hd, hn, hfree⟩ := free_of_goal ht hg
    exact ht.set hd hn (by simp [hfree]) (fun _ => nofun)
  · exact ht.set_file hq

theorem isDir_of_makeDir (h : t.makeDir p = .ok t') : t'.isDir p = true := by
  obtain ⟨d, n, hg, rfl⟩ := makeDir_eq_ok h
  have hne : d ++ [n] ≠ [] := by simp
  have hdir := get?_set_self t .dir hne
  obtain ⟨hs, hl⟩ := goal_eq_ok_iff.mp hg
  have hfill := hl.fill (extends_set_of_none .dir (goal_free_get? hg)) rfl (.inl hdir)
  rw [isDir_eq_true_iff]
  refine ⟨d ++ [n], ?_, hdir⟩
  rw [canonical_eq_ok_iff, goal_eq_ok_iff]
  exact ⟨hs, hfill.follow rfl hdir⟩

theorem isDir_of_ensureDir (h : t.ensureDir p = .ok t') : t'.isDir p = true := by
  rcases ensureDir_eq_ok h with hm | ⟨hd, rfl⟩
  · exact isDir_of_makeDir hm
  · exact hd

/-- Nothing is missing on the way to a directory that is there. -/
theorem not_isDir_of_makeDir (h : t.makeDir p = .error .notFound) : t.isDir p = false := by
  rw [Bool.eq_false_iff]
  intro hd
  obtain ⟨q, hq, -⟩ := isDir_eq_true_iff.mp hd
  obtain ⟨hs, hl⟩ := goal_eq_ok_iff.mp (canonical_eq_ok_iff.mp hq)
  obtain ⟨q', hl'⟩ := hl.unfollowed rfl
  have hg : t.goal false p = .ok (.node q') := goal_eq_ok_iff.mpr ⟨hs, hl'⟩
  simp [makeDir, hg] at h

theorem not_isDir_of_ensureDir {e : FileError} (h : t.ensureDir p = .error e) :
    t.isDir p = false := by
  unfold ensureDir at h
  split at h
  · cases h
  · split at h
    · cases h
    · rename_i hd
      simpa using hd

theorem isDir_of_ensureDirs {depth : Nat} (h : t.ensureDirs depth p = (.ok (), t')) :
    p.text.isEmpty = true ∨ t'.isDir p = true := by
  cases ensures h with
  | empty hempty => exact .inl hempty
  | made hmade => exact .inr (isDir_of_makeDir hmade)
  | there hdir => exact .inr hdir
  | completed _ hlast => exact .inr (isDir_of_ensureDir hlast)

theorem length_moves_parent {q : Path} (h : p.parent? = some q) :
    q.moves.length ≤ p.moves.length - 1 := by
  rcases Path.moves_parent h with hempty | ⟨hmoves, -⟩
  · obtain rfl : q = ⟨""⟩ := congrArg Path.mk (String.isEmpty_iff.mp hempty)
    exact Nat.zero_le _
  · rw [hmoves, List.length_dropLast]

/-- Where the depth is enough, a directory that is not made is not there. -/
theorem Ensures.not_isDir (ht : t.WellFormed) {depth : Nat} {r : Except FileError Unit}
    {e : FileError} (h : Ensures t depth p r t') (hr : r = .error e)
    (hdepth : p.moves.length < depth) : p.text.isEmpty = false ∧ t'.isDir p = false := by
  induction h with
  | spent => exact absurd hdepth (Nat.not_lt_zero _)
  | empty | made | there | completed => cases hr
  | refused ne _ h => exact ⟨ne, h⟩
  | parentless ne h => exact ⟨ne, not_isDir_of_makeDir h⟩
  | stuck ne _ h => exact ⟨ne, not_isDir_of_ensureDir h⟩
  | @above depth p q e' t' ne h hq fails ih =>
      refine ⟨ne, ?_⟩
      cases depth with
      | zero =>
          cases fails
          exact not_isDir_of_makeDir h
      | succ depth =>
          have hlength := length_moves_parent hq
          obtain ⟨hempty, missing⟩ := ih hr (by omega)
          -- A directory that is there has one above it.
          rw [Bool.eq_false_iff]
          intro hd
          obtain ⟨place, hplace, -⟩ := isDir_eq_true_iff.mp hd
          rw [isDir_parent (fails.makesDirs.wellFormed ht) hq hempty hplace] at missing
          cases missing

theorem not_isDir_of_ensureDirs (ht : t.WellFormed) {depth : Nat} {e : FileError}
    (hdepth : p.moves.length < depth) (h : t.ensureDirs depth p = (.error e, t')) :
    t'.isDir p = false :=
  ((ensures h).not_isDir ht rfl hdepth).2

/-- A file that can be written over, beside which directories need not be made. -/
structure Ready (t : FileTree) (p : Path) : Prop where
  parent : ∀ d, p.parent? = some d → d.text.isEmpty = true ∨ t.isDir d = true
  noSlash : namesDirectory p = false
  file : ∃ q b m, t.canonical p = .ok q ∧ t.get? q = some (.file b m)

theorem Ready.extends (h : t.Ready p) (ht : Extends t t') : t'.Ready p where
  parent d hd := (h.parent d hd).imp_right ht.isDir
  noSlash := h.noSlash
  file := by
    obtain ⟨q, b, m, hp, hq⟩ := h.file
    obtain ⟨b', m', hq'⟩ := ht.file q b m hq
    exact ⟨q, b', m', ht.canonical hp, hq'⟩

theorem Ready.write_eq (h : t.Ready p) (bytes : ByteArray) : ∃ t', t.write p bytes = .ok t' := by
  obtain ⟨q, b, m, hp, hq⟩ := h.file
  refine ⟨t.set q (.file bytes m), ?_⟩
  simp [write, h.noSlash, canonical_eq_ok_iff.mp hp, hq]

theorem noSlash_of_write {bytes : ByteArray} (h : t.write p bytes = .ok t') :
    namesDirectory p = false := by
  rw [Bool.eq_false_iff]
  intro hd
  unfold write at h
  cases hp : t.parentPlace p <;> simp [hd, hp] at h

/-- A path that leads to a file and does not end in a dot is ready to be written. -/
theorem ready_of_canonical (ht : t.WellFormed) {q : Place} {b : ByteArray} {m : Nat}
    (hp : t.canonical p = .ok q) (hq : t.get? q = some (.file b m))
    (he : p.steps.getLast? ≠ some ".") : t.Ready p where
  parent d hd := by
    cases hempty : d.text.isEmpty with
    | true => exact .inl rfl
    | false => exact .inr (isDir_parent ht hd hempty hp)
  noSlash := by
    rw [Bool.eq_false_iff]
    intro hs
    have hsteps : p.steps = [] := by
      have hlast : (p.text.toList.getLast? == some '/') = true := hs
      dsimp only [Path.steps] at he ⊢
      rw [hlast, Bool.true_and] at he ⊢
      split
      · rename_i hne
        rw [if_pos hne, List.getLast?_concat] at he
        exact absurd rfl he
      · rename_i hne
        simpa using hne
    rw [canonical_eq_ok_iff, goal_eq_ok_iff, hsteps] at hp
    obtain ⟨-, hl⟩ := hp
    cases hl
    rw [ht.origin p] at hq
    cases hq
  file := ⟨q, b, m, hp, hq⟩

end

end FileTree
end TestRepair
