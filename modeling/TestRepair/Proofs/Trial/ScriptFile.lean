import TestRepair.Proofs.FileTree.Ready
import TestRepair.Trial.Run

/-!
Writing the script of an attempt. It changes the file that the path of the script leads to and no
other one, it adds nothing else but directories, and it succeeds just if the file is ready to be
written again afterwards.
-/

namespace TestRepair
namespace Trial

open FileTree

variable {t t' : FileTree} {file : Path} {script : String}

theorem makesDirs_makeParents (t : FileTree) (file : Path) :
    MakesDirs t (makeParents t file).2 := by
  unfold makeParents
  split
  · exact makesDirs_ensureDirs t _ _
  · exact .refl

/-- Writing a script fails after the directories were made, or it writes the text. -/
theorem writeScript_cases (t : FileTree) (file : Path) (script : String) :
    (∃ e, writeScript t file script = (.error e, (makeParents t file).2) ∧
      ((makeParents t file).1 = .error e ∨
        (makeParents t file).2.writeText file script = .error e)) ∨
    ∃ t', writeScript t file script = (.ok (), t') ∧ (makeParents t file).1 = .ok () ∧
      (makeParents t file).2.writeText file script = .ok t' := by
  unfold writeScript
  obtain ⟨r, t₁⟩ := makeParents t file
  cases r with
  | error e => exact .inl ⟨e, rfl, .inl rfl⟩
  | ok =>
      cases h : t₁.writeText file script with
      | error e => exact .inl ⟨e, by simp only [h], .inr rfl⟩
      | ok t' => exact .inr ⟨t', by simp only [h], rfl, rfl⟩

theorem writeScript_eq_ok (h : writeScript t file script = (.ok (), t')) :
    (makeParents t file).1 = .ok () ∧ (makeParents t file).2.writeText file script = .ok t' := by
  obtain ⟨e, h', -⟩ | ⟨t₁, h', hp, hw⟩ := writeScript_cases t file script
  · rw [h] at h'
    cases h'
  · rw [h] at h'
    cases h'
    exact ⟨hp, hw⟩

theorem writeScript_eq_error {e : FileError} (h : writeScript t file script = (.error e, t')) :
    t' = (makeParents t file).2 ∧ ((makeParents t file).1 = .error e ∨
      (makeParents t file).2.writeText file script = .error e) := by
  obtain ⟨e', h', he⟩ | ⟨t₁, h', -⟩ := writeScript_cases t file script
  · rw [h] at h'
    cases h'
    exact ⟨rfl, he⟩
  · rw [h] at h'
    cases h'

theorem readText_of_writeScript (h : writeScript t file script = (.ok (), t')) :
    t'.readText file = .ok script :=
  readText_of_writeText (writeScript_eq_ok h).2

/-- What writing a script leaves, whether or not it succeeds. -/
structure Wrote (t : FileTree) (file : Path) (t' : FileTree) : Prop where
  grows : Extends t t'
  wellFormed : t'.WellFormed
  file : ∀ q b m, t'.get? q = some (.file b m) → t.get? q ≠ some (.file b m) →
    t'.canonical file = .ok q

theorem wrote_of_addsDirs (h : AddsDirs t t') (ht : t'.WellFormed) : Wrote t file t' :=
  ⟨h.extends, ht, fun _ _ _ hq hne => absurd (h.file_iff.mp hq) hne⟩

theorem wrote_writeScript (ht : t.WellFormed) (file : Path) (script : String) :
    Wrote t file (writeScript t file script).2 := by
  have hadds := (makesDirs_makeParents t file).addsDirs
  have hwf := (makesDirs_makeParents t file).wellFormed ht
  obtain ⟨e, h, -⟩ | ⟨t', h, -, hw⟩ := writeScript_cases t file script
  · rw [h]
    exact wrote_of_addsDirs hadds hwf
  · rw [h]
    refine ⟨hadds.extends.trans (extends_of_write hw), wellFormed_of_write hwf hw, ?_⟩
    intro q b m hq hne
    obtain ⟨q', m', hne', ht', hfile, -⟩ := write_eq_ok hw
    by_cases he : q = q'
    · rw [he]
      exact hfile
    · rw [ht', get?_set_of_ne _ _ hne' he] at hq
      exact absurd (hadds.file_iff.mp hq) hne

theorem makeParents_eq {d : Path} (h : file.parent? = some d) :
    makeParents t file = t.ensureDirs (d.text.length + 1) d := by
  simp only [makeParents, h, makeDirs]

theorem ready_of_writeScript (h : writeScript t file script = (.ok (), t')) : t'.Ready file := by
  obtain ⟨hp, hw⟩ := writeScript_eq_ok h
  refine ⟨fun d hd => ?_, noSlash_of_write hw, ?_⟩
  · have hdirs : t.ensureDirs (d.text.length + 1) d = (.ok (), (makeParents t file).2) := by
      rw [← makeParents_eq hd, ← hp]
    exact (isDir_of_ensureDirs hdirs).imp_right (extends_of_write hw).isDir
  · obtain ⟨q, b, m, hc, hq, -⟩ := readText_eq_ok_iff.mp (readText_of_writeText hw)
    exact ⟨q, b, m, hc, hq⟩

theorem not_ready_of_makeParents (ht : t.WellFormed) {e : FileError}
    (h : (makeParents t file).1 = .error e) : ¬(makeParents t file).2.Ready file := by
  intro hready
  cases hd : file.parent? with
  | none => simp [makeParents, hd] at h
  | some d =>
      have hdirs : t.ensureDirs (d.text.length + 1) d = (.error e, (makeParents t file).2) := by
        rw [← makeParents_eq hd, ← h]
      rcases hready.parent d hd with hempty | hdir
      · rw [ensureDirs, if_pos hempty] at hdirs
        cases hdirs
      · have hlength : d.moves.length < d.text.length + 1 := Nat.lt_succ_of_le d.length_moves_le
        rw [not_isDir_of_ensureDirs ht hlength hdirs] at hdir
        cases hdir

theorem not_ready_of_writeScript (ht : t.WellFormed) {e : FileError}
    (h : writeScript t file script = (.error e, t')) : ¬t'.Ready file := by
  obtain ⟨rfl, he | he⟩ := writeScript_eq_error h
  · exact not_ready_of_makeParents ht he
  · intro hready
    obtain ⟨t₁, hok⟩ := hready.write_eq script.toUTF8
    rw [writeText, hok] at he
    cases he

end Trial
end TestRepair
