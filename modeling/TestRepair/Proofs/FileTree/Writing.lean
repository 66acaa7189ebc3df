import Mathlib.Logic.Relation
import TestRepair.Proofs.FileTree.Growth

/-!
What making directories and writing in place do to a tree. Making directories adds directories and
nothing else, also where it fails. Writing a path changes one place, which is where the path leads
afterwards; the text is read back under the same path.
-/

namespace TestRepair
namespace FileTree

/-- The trees differ in directories that only `t'` has. -/
structure AddsDirs (t t' : FileTree) : Prop where
  current : t'.current = t.current
  old : ∀ q n, t.get? q = some n → t'.get? q = some n
  new : ∀ q n, t.get? q = none → t'.get? q = some n → n = .dir

theorem AddsDirs.refl (t : FileTree) : AddsDirs t t :=
  ⟨rfl, fun _ _ h => h, fun q n h h' => by simp [h] at h'⟩

theorem AddsDirs.trans {t t' t'' : FileTree} (h : AddsDirs t t') (h' : AddsDirs t' t'') :
    AddsDirs t t'' where
  current := h'.current.trans h.current
  old q n hq := h'.old q n (h.old q n hq)
  new q n hq hq'' := by
    cases hm : t'.get? q with
    | none => exact h'.new q n hm hq''
    | some m =>
        have hd : m = .dir := h.new q m hq hm
        have hq' := h'.old q m hm
        rw [hq''] at hq'
        cases hq'
        exact hd

theorem AddsDirs.extends {t t' : FileTree} (h : AddsDirs t t') : Extends t t' where
  current := h.current
  dir q hq := h.old q _ hq
  link q _ hq := h.old q _ hq
  file q b m hq := ⟨b, m, h.old q _ hq⟩

theorem AddsDirs.file_iff {t t' : FileTree} (h : AddsDirs t t') {q : Place} {b : ByteArray}
    {m : Nat} : t'.get? q = some (.file b m) ↔ t.get? q = some (.file b m) := by
  refine ⟨fun hq => ?_, fun hq => h.old q _ hq⟩
  cases hn : t.get? q with
  | none => cases h.new q _ hn hq
  | some n =>
      rw [← hq]
      exact (h.old q n hn).symm

theorem makeDir_eq_ok {t t' : FileTree} {p : Path} (h : t.makeDir p = .ok t') :
    ∃ d n, t.goal false p = .ok (.free d n) ∧ t' = t.set (d ++ [n]) .dir := by
  unfold makeDir at h
  cases hg : t.goal false p with
  | error e => simp [hg] at h
  | ok g =>
      cases g with
      | node q => simp [hg] at h
      | free d n =>
          simp only [hg, ok_bind, pure_eq_ok, Except.ok.injEq] at h
          exact ⟨d, n, rfl, h.symm⟩

theorem goal_free_get? {t : FileTree} {follow : Bool} {p : Path} {d : Place} {n : String}
    (h : t.goal follow p = .ok (.free d n)) : t.get? (d ++ [n]) = none :=
  (goal_eq_ok_iff.mp h).2.get?_free rfl

theorem addsDirs_of_makeDir {t t' : FileTree} {p : Path} (h : t.makeDir p = .ok t') :
    AddsDirs t t' := by
  obtain ⟨d, n, hg, rfl⟩ := makeDir_eq_ok h
  have hfree := goal_free_get? hg
  have hne : d ++ [n] ≠ [] := by simp
  refine ⟨rfl, ?_, ?_⟩
  · intro q m hq
    rw [get?_set_of_ne t _ hne, hq]
    rintro rfl
    simp [hfree] at hq
  · intro q m hq hq'
    by_cases hqd : q = d ++ [n]
    · subst hqd
      rw [get?_set_self t _ hne] at hq'
      exact (Option.some.inj hq').symm
    · rw [get?_set_of_ne t _ hne hqd, hq] at hq'
      cases hq'

theorem ensureDir_eq_ok {t t' : FileTree} {p : Path} (h : t.ensureDir p = .ok t') :
    t.makeDir p = .ok t' ∨ t.isDir p = true ∧ t' = t := by
  unfold ensureDir at h
  split at h
  · rename_i hm
    cases h
    exact .inl hm
  · split at h
    · rename_i hd
      cases h
      exact .inr ⟨hd, rfl⟩
    · cases h

/-- One directory after the other is made. -/
def MakesDirs : FileTree → FileTree → Prop :=
  Relation.ReflTransGen fun t t' => ∃ p, t.makeDir p = .ok t'

theorem makesDirs_of_makeDir {t t' : FileTree} {p : Path} (h : t.makeDir p = .ok t') :
    MakesDirs t t' := .single ⟨p, h⟩

theorem makesDirs_of_ensureDir {t t' : FileTree} {p : Path} (h : t.ensureDir p = .ok t') :
    MakesDirs t t' := by
  rcases ensureDir_eq_ok h with h | ⟨-, rfl⟩
  · exact makesDirs_of_makeDir h
  · exact .refl

/-- How making a directory and those above it ends: with a result, and with a tree that is left. -/
inductive Ensures (t : FileTree) : Nat → Path → Except FileError Unit → FileTree → Prop
  | spent (p : Path) : Ensures t 0 p (.error .notFound) t
  | empty {depth : Nat} {p : Path} (h : p.text.isEmpty = true) : Ensures t (depth + 1) p (.ok ()) t
  | made {depth : Nat} {p : Path} {t' : FileTree} (h : t.makeDir p = .ok t') :
      Ensures t (depth + 1) p (.ok ()) t'
  | there {depth : Nat} {p : Path} (h : t.isDir p = true) : Ensures t (depth + 1) p (.ok ()) t
  | refused {depth : Nat} {p : Path} (ne : p.text.isEmpty = false) (e : FileError)
      (h : t.isDir p = false) : Ensures t (depth + 1) p (.error e) t
  | parentless {depth : Nat} {p : Path} (ne : p.text.isEmpty = false)
      (h : t.makeDir p = .error .notFound) : Ensures t (depth + 1) p (.error .notFound) t
  | above {depth : Nat} {p q : Path} {e : FileError} {t' : FileTree} (ne : p.text.isEmpty = false)
      (h : t.makeDir p = .error .notFound) (hq : p.parent? = some q)
      (fails : Ensures t depth q (.error e) t') : Ensures t (depth + 1) p (.error e) t'
  | completed {depth : Nat} {p q : Path} {t' t'' : FileTree} (first : Ensures t depth q (.ok ()) t')
      (h : t'.ensureDir p = .ok t'') : Ensures t (depth + 1) p (.ok ()) t''
  | stuck {depth : Nat} {p q : Path} {e : FileError} {t' : FileTree} (ne : p.text.isEmpty = false)
      (first : Ensures t depth q (.ok ()) t') (h : t'.ensureDir p = .error e) :
      Ensures t (depth + 1) p (.error e) t'

theorem ensures {t t' : FileTree} {depth : Nat} {p : Path} {r : Except FileError Unit}
    (h : t.ensureDirs depth p = (r, t')) : Ensures t depth p r t' := by
  induction depth generalizing p r t' with
  | zero =>
      cases h
      exact .spent p
  | succ depth ih =>
      cases ne : p.text.isEmpty with
      | true =>
          rw [ensureDirs, if_pos ne] at h
          cases h
          exact .empty ne
      | false =>
          rw [ensureDirs, if_neg (by simp [ne])] at h
          split at h
          · rename_i made
            cases h
            exact .made made
          · rename_i missing
            split at h
            · cases h
              exact .parentless ne missing
            · rename_i q parent
              split at h
              · rename_i e t₁ fails
                cases h
                exact .above ne missing parent (ih fails)
              · rename_i t₁ first
                split at h
                · rename_i e last
                  cases h
                  exact .stuck ne (ih first) last
                · rename_i t₂ last
                  cases h
                  exact .completed (ih first) last
          · split at h
            · rename_i there
              cases h
              exact .there there
            · rename_i away
              cases h
              exact .refused ne _ (by simpa using away)

theorem Ensures.makesDirs {t t' : FileTree} {depth : Nat} {p : Path} {r : Except FileError Unit}
    (h : Ensures t depth p r t') : MakesDirs t t' := by
  induction h with
  | spent | empty | there | refused | parentless => exact .refl
  | made h => exact makesDirs_of_makeDir h
  | above _ _ _ _ ih => exact ih
  | completed _ h ih => exact ih.trans (makesDirs_of_ensureDir h)
  | stuck _ _ _ ih => exact ih

theorem makesDirs_ensureDirs (t : FileTree) (depth : Nat) (p : Path) :
    MakesDirs t (t.ensureDirs depth p).2 := (ensures rfl).makesDirs

theorem MakesDirs.addsDirs {t t' : FileTree} (h : MakesDirs t t') : AddsDirs t t' := by
  induction h with
  | refl => exact .refl t
  | tail _ hm ih =>
      obtain ⟨p, hm⟩ := hm
      exact ih.trans (addsDirs_of_makeDir hm)

theorem write_eq_ok {t t' : FileTree} {p : Path} {bytes : ByteArray}
    (h : t.write p bytes = .ok t') :
    ∃ q m, q ≠ [] ∧ t' = t.set q (.file bytes m) ∧ t'.canonical p = .ok q ∧
      ((∃ d n, q = d ++ [n] ∧ t.goal true p = .ok (.free d n)) ∧ m = plainMode ∨
        ∃ b, t.get? q = some (.file b m)) := by
  unfold write at h
  by_cases hd : namesDirectory p
  · cases hp : t.parentPlace p <;>
      simp [hd, hp] at h
  · cases hg : t.goal true p with
    | error e => simp [hd, hg] at h
    | ok g =>
        cases g with
        | free d n =>
            simp only [hd, hg, ok_bind, pure_eq_ok, Bool.false_eq_true, if_false,
              Except.ok.injEq] at h
            subst h
            have hfree := goal_free_get? hg
            refine ⟨d ++ [n], plainMode, by simp, rfl, ?_, .inl ⟨⟨d, n, rfl, rfl⟩, rfl⟩⟩
            rw [canonical_eq_ok_iff, goal_eq_ok_iff]
            have hl := goal_eq_ok_iff.mp hg
            exact ⟨hl.1, hl.2.fill (extends_set_of_none _ hfree) rfl
              (.inr ⟨_, _, get?_set_self t _ (by simp)⟩)⟩
        | node q =>
            cases hq : t.get? q with
            | none =>
                simp [hd, hg, hq] at h
            | some n =>
                cases n with
                | file b m =>
                    simp only [hd, hg, hq, ok_bind, pure_eq_ok,
                      Bool.false_eq_true, if_false, Except.ok.injEq] at h
                    subst h
                    exact ⟨q, m, ne_nil_of_file hq, rfl, (extends_set_of_file hq _ _).canonical
                      (canonical_eq_ok_iff.mpr hg), .inr ⟨b, hq⟩⟩
                | dir | link p' =>
                    simp [hd, hg, hq] at h

theorem extends_of_write {t t' : FileTree} {p : Path} {bytes : ByteArray}
    (h : t.write p bytes = .ok t') : Extends t t' := by
  obtain ⟨q, m, -, rfl, -, ⟨⟨d, n, rfl, hg⟩, -⟩ | ⟨b, hq⟩⟩ := write_eq_ok h
  · exact extends_set_of_none _ (goal_free_get? hg)
  · exact extends_set_of_file hq _ _

theorem readText_of_writeText {t t' : FileTree} {p : Path} {s : String}
    (h : t.writeText p s = .ok t') : t'.readText p = .ok s := by
  obtain ⟨q, m, hne, rfl, hp, -⟩ := write_eq_ok h
  exact readText_eq_ok_iff.mpr ⟨q, s.toUTF8, m, hp, get?_set_self t _ hne, fromUTF8?_toUTF8 s⟩

end FileTree
end TestRepair
