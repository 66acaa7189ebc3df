import TestRepair.Proofs.FileTree.Lookup
import TestRepair.Proofs.Outcome

/-!
Trees that grow. Whatever a tree held is still there in a tree that extends it, although a file may
hold something else; so every look-up that led to a node still leads to it. Look-ups that failed may
succeed, and nothing is said about them.
-/

namespace TestRepair
namespace FileTree

/-- Everything that stands in `t` stands in `t'`, but the contents and the modes of files. -/
structure Extends (t t' : FileTree) : Prop where
  current : t'.current = t.current
  dir : ∀ q, t.get? q = some .dir → t'.get? q = some .dir
  link : ∀ q p, t.get? q = some (.link p) → t'.get? q = some (.link p)
  file : ∀ q b m, t.get? q = some (.file b m) → ∃ b' m', t'.get? q = some (.file b' m')

theorem Extends.refl (t : FileTree) : Extends t t :=
  ⟨rfl, fun _ h => h, fun _ _ h => h, fun _ b m h => ⟨b, m, h⟩⟩

theorem Extends.trans {t t' t'' : FileTree} (h : Extends t t') (h' : Extends t' t'') :
    Extends t t'' where
  current := h'.current.trans h.current
  dir q hq := h'.dir q (h.dir q hq)
  link q p hq := h'.link q p (h.link q p hq)
  file q b m hq := by
    obtain ⟨b', m', hq'⟩ := h.file q b m hq
    exact h'.file q b' m' hq'

theorem Extends.get?_ne_none {t t' : FileTree} (h : Extends t t') {q : Place}
    (hq : t.get? q ≠ none) : t'.get? q ≠ none := by
  obtain ⟨n, hn⟩ := Option.ne_none_iff_exists'.mp hq
  cases n with
  | dir => simp [h.dir q hn]
  | link p => simp [h.link q p hn]
  | file b m =>
      obtain ⟨b', m', hb⟩ := h.file q b m hn
      simp [hb]

theorem ne_nil_of_get? {t : FileTree} {q : Place} (h : t.get? q ≠ some .dir) : q ≠ [] := by
  rintro rfl
  exact h rfl

theorem ne_dir_of_file {t : FileTree} {q : Place} {b : ByteArray} {m : Nat}
    (h : t.get? q = some (.file b m)) : t.get? q ≠ some .dir := by
  rw [h]
  exact nofun

theorem ne_nil_of_file {t : FileTree} {q : Place} {b : ByteArray} {m : Nat}
    (h : t.get? q = some (.file b m)) : q ≠ [] := ne_nil_of_get? (ne_dir_of_file h)

theorem ne_nil_of_link {t : FileTree} {q : Place} {p : Path} (h : t.get? q = some (.link p)) :
    q ≠ [] :=
  ne_nil_of_get? (t := t) (by rw [h]; exact nofun)

theorem get?_set_self (t : FileTree) {q : Place} (n : Node) (h : q ≠ []) :
    (t.set q n).get? q = some n := by
  rw [get?_set t q q n h, if_pos rfl]

theorem get?_set_of_ne (t : FileTree) {p q : Place} (n : Node) (hp : p ≠ []) (h : q ≠ p) :
    (t.set p n).get? q = t.get? q := by
  rw [get?_set t p q n hp, if_neg h]

theorem extends_set_of_none {t : FileTree} {q : Place} (n : Node) (h : t.get? q = none) :
    Extends t (t.set q n) := by
  have hq : q ≠ [] := ne_nil_of_get? (t := t) (by simp [h])
  have keep : ∀ p m, t.get? p = some m → (t.set q n).get? p = some m := by
    intro p m hp
    rw [get?_set_of_ne t n hq, hp]
    rintro rfl
    simp [h] at hp
  exact ⟨rfl, fun p hp => keep p _ hp, fun p _ hp => keep p _ hp,
    fun p b m hp => ⟨b, m, keep p _ hp⟩⟩

theorem extends_set_of_file {t : FileTree} {q : Place} {b : ByteArray} {m : Nat}
    (h : t.get? q = some (.file b m)) (b' : ByteArray) (m' : Nat) :
    Extends t (t.set q (.file b' m')) := by
  have hq : q ≠ [] := ne_nil_of_file h
  have keep : ∀ p n, p ≠ q → t.get? p = some n → (t.set q (.file b' m')).get? p = some n := by
    intro p n hne hp
    rw [get?_set_of_ne t _ hq hne, hp]
  refine ⟨rfl, ?_, ?_, ?_⟩
  · intro p hp
    exact keep p _ (by rintro rfl; simp [h] at hp) hp
  · intro p l hp
    exact keep p _ (by rintro rfl; simp [h] at hp) hp
  · intro p b₁ m₁ hp
    by_cases hpq : p = q
    · subst hpq
      exact ⟨b', m', get?_set_self t _ hq⟩
    · exact ⟨b₁, m₁, keep p _ hpq hp⟩

section

variable {t t' : FileTree} {follow : Bool} {k : Nat} {d q : Place} {steps : List String}

/-- A look-up that led to a node leads to it in every tree that extends this one. -/
theorem Leads.grow {g : Goal} (h : Leads t follow k d steps g) (ht : Extends t t')
    (hg : g = .node q) : Leads t' follow k d steps (.node q) := by
  induction h with
  | done => cases hg; exact .done _ _
  | here _ ih => exact .here (ih hg)
  | up _ ih => exact .up (ih hg)
  | free => cases hg
  | dir hn h _ ih => exact .dir hn (ht.dir _ h) (ih hg)
  | file _ hn h =>
      cases hg
      obtain ⟨b', m', hb⟩ := ht.file _ _ _ h
      exact .file _ hn hb
  | link _ hn h hf =>
      cases hg
      exact .link _ hn (ht.link _ _ h) hf
  | jump hn h hf _ ih => exact .jump hn (ht.link _ _ h) hf (ih hg)

/-- A look-up that led to a free name leads to what is put there, unless that is a link. -/
theorem Leads.fill {g : Goal} {n : String} (h : Leads t follow k d steps g) (ht : Extends t t')
    (hg : g = .free q n)
    (hq : t'.get? (q ++ [n]) = some .dir ∨ ∃ b m, t'.get? (q ++ [n]) = some (.file b m)) :
    Leads t' follow k d steps (.node (q ++ [n])) := by
  induction h with
  | done | file | link => cases hg
  | here _ ih => exact .here (ih hg)
  | up _ ih => exact .up (ih hg)
  | free _ hn _ =>
      cases hg
      rcases hq with hq | ⟨b, m, hq⟩
      · exact .dir hn hq (.done _ _)
      · exact .file _ hn hq
  | dir hn h _ ih => exact .dir hn (ht.dir _ h) (ih hg)
  | jump hn h hf _ ih => exact .jump hn (ht.link _ _ h) hf (ih hg)

theorem Leads.get?_free {g : Goal} {n : String} (h : Leads t follow k d steps g)
    (hg : g = .free q n) : t.get? (q ++ [n]) = none := by
  induction h with
  | done | file | link => cases hg
  | here _ ih | up _ ih | dir _ _ _ ih | jump _ _ _ _ ih => exact ih hg
  | free _ _ h => cases hg; exact h

/-- What a look-up that follows every link leads to is led to, or to a link on the way to it, where
the last link is not followed. -/
theorem Leads.unfollowed {g : Goal} (h : Leads t true k d steps g) (hg : g = .node q) :
    ∃ p, Leads t false k d steps (.node p) := by
  induction h with
  | done k d => exact ⟨d, .done k d⟩
  | here _ ih =>
      obtain ⟨p, hp⟩ := ih hg
      exact ⟨p, .here hp⟩
  | up _ ih =>
      obtain ⟨p, hp⟩ := ih hg
      exact ⟨p, .up hp⟩
  | free => cases hg
  | dir hn h _ ih =>
      obtain ⟨p, hp⟩ := ih hg
      exact ⟨p, .dir hn h hp⟩
  | file _ hn h => exact ⟨_, .file _ hn h⟩
  | link _ _ _ hf => cases hf
  | @jump k d n p rest g hn h _ _ ih =>
      by_cases hr : rest = []
      · subst hr
        exact ⟨_, .link _ hn h rfl⟩
      · obtain ⟨p, hp⟩ := ih hg
        exact ⟨p, .jump hn h (fun hf => hr hf.1) hp⟩

end

def origin (t : FileTree) (p : Path) : Place := if p.isAbsolute then [] else t.current

/-- A text that the system takes for a path. -/
structure Spelled (p : Path) : Prop where
  nonempty : p.text.isEmpty = false
  noNul : p.text.toList.contains '\x00' = false

theorem Spelled.notMem {p : Path} (h : Spelled p) : '\x00' ∉ p.text.toList := by
  have hnul := h.noNul
  rwa [Bool.eq_false_iff, ne_eq, List.contains_iff_mem] at hnul

theorem goal_eq_ok_iff {t : FileTree} {follow : Bool} {p : Path} {g : Goal} :
    t.goal follow p = .ok g ↔ Spelled p ∧ Leads t follow linkLimit (t.origin p) p.steps g := by
  unfold goal
  split
  · rename_i h
    exact ⟨fun hg => (by cases hg), fun hg => (by simp [hg.1.nonempty] at h)⟩
  · rename_i h
    split
    · rename_i h'
      exact ⟨fun hg => (by cases hg), fun hg => absurd h' (by rw [hg.1.noNul]; exact Bool.false_ne_true)⟩
    · rename_i h'
      rw [walk_eq_ok_iff]
      exact ⟨fun hg => ⟨⟨by simpa using h, by simpa using h'⟩, hg⟩, fun hg => hg.2⟩

theorem canonical_eq_ok_iff {t : FileTree} {p : Path} {q : Place} :
    t.canonical p = .ok q ↔ t.goal true p = .ok (.node q) := by
  unfold canonical
  cases hg : t.goal true p with
  | error e => simp
  | ok g =>
      cases g with
      | node q' => simp
      | free d n => simp

theorem Extends.canonical {t t' : FileTree} (h : Extends t t') {p : Path} {q : Place}
    (hp : t.canonical p = .ok q) : t'.canonical p = .ok q := by
  rw [canonical_eq_ok_iff, goal_eq_ok_iff] at hp ⊢
  refine ⟨hp.1, ?_⟩
  have horigin : t'.origin p = t.origin p := by simp only [origin, h.current]
  rw [horigin]
  exact hp.2.grow h rfl

theorem isDir_eq_true_iff {t : FileTree} {p : Path} :
    t.isDir p = true ↔ ∃ q, t.canonical p = .ok q ∧ t.get? q = some .dir := by
  unfold isDir node
  cases hq : t.canonical p with
  | error e => simp
  | ok q =>
      cases hn : t.get? q with
      | none => simp [hn]
      | some n => cases n <;> simp [hn]

theorem Extends.isDir {t t' : FileTree} (h : Extends t t') {p : Path} (hp : t.isDir p = true) :
    t'.isDir p = true := by
  rw [isDir_eq_true_iff] at hp ⊢
  obtain ⟨q, hq, hd⟩ := hp
  exact ⟨q, h.canonical hq, h.dir q hd⟩

theorem readBytes_eq_ok_iff {t : FileTree} {p : Path} {b : ByteArray} :
    t.readBytes p = .ok b ↔ ∃ q m, t.canonical p = .ok q ∧ t.get? q = some (.file b m) := by
  unfold readBytes node
  cases hq : t.canonical p with
  | error e => simp
  | ok q =>
      cases hn : t.get? q with
      | none => simp [hn]
      | some n =>
          cases n <;>
            simp [hn]

theorem readText_eq_ok_iff {t : FileTree} {p : Path} {s : String} :
    t.readText p = .ok s ↔
      ∃ q b m, t.canonical p = .ok q ∧ t.get? q = some (.file b m) ∧
        String.fromUTF8? b = some s := by
  unfold readText
  cases hb : t.readBytes p with
  | error e =>
      simp only [error_bind, reduceCtorEq, false_iff, not_exists, not_and]
      intro q b m hq hf
      rw [readBytes_eq_ok_iff.mpr ⟨q, m, hq, hf⟩] at hb
      cases hb
  | ok b =>
      obtain ⟨q, m, hq, hf⟩ := readBytes_eq_ok_iff.mp hb
      cases hs : String.fromUTF8? b <;>
        simp [hq, hf, hs]

theorem fromUTF8?_toUTF8 (s : String) : String.fromUTF8? s.toUTF8 = some s := by
  have h : s.toUTF8.IsValidUTF8 := s.isValidUTF8
  rw [String.fromUTF8?, dif_pos h]
  rfl

theorem eq_toUTF8_of_fromUTF8? {b : ByteArray} {s : String} (h : String.fromUTF8? b = some s) :
    b = s.toUTF8 := by
  unfold String.fromUTF8? at h
  split at h
  · cases h
    rfl
  · cases h

end FileTree
end TestRepair
