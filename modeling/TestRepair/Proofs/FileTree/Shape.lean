import Mathlib.Data.List.Induction
import TestRepair.Proofs.Dictionary
import TestRepair.Proofs.FileTree.PlacePath

/-!
Trees as a file system has them: whatever stands somewhere stands in a directory and has a proper
name. In such a tree the path of a place leads back to it, and so it does when the tree has grown.
-/

namespace TestRepair

namespace FileTree

open Place (Proper Spellable)

/-- A tree that a file system can hold. -/
structure WellFormed (t : FileTree) : Prop where
  current : t.get? t.current = some .dir
  above : ∀ d n, t.get? (d ++ [n]) ≠ none → t.get? d = some .dir
  proper : ∀ d n, t.get? (d ++ [n]) ≠ none → Proper n
  noNul : ∀ q p, t.get? q = some (.link p) → '\x00' ∉ p.text.toList

theorem mem_entries_of_get? {t : FileTree} {q : Place} {n : Node} (hq : q ≠ [])
    (h : t.get? q = some n) : (q, n) ∈ t.nodes.entries := by
  rw [get?, if_neg hq] at h
  exact Dictionary.mem_of_find? h

/-- An entry of a tree stands in a directory and has proper names; a link leads to a path. -/
def fits (t : FileTree) (e : Place × Node) : Bool :=
  decide (t.get? e.1.dropLast = some .dir) && e.1.all (fun n => decide (Proper n)) &&
    match e.2 with
    | .link p => !p.text.toList.contains '\x00'
    | _ => true

theorem wellFormed_of_fits {t : FileTree} (hc : t.get? t.current = some .dir)
    (h : t.nodes.entries.all t.fits = true) : t.WellFormed := by
  have entry {q : Place} {n : Node} (hq : q ≠ []) (hn : t.get? q = some n) : t.fits (q, n) = true :=
    List.all_eq_true.mp h _ (mem_entries_of_get? hq hn)
  refine ⟨hc, ?_, ?_, ?_⟩
  · intro d n h
    obtain ⟨x, hx⟩ := Option.ne_none_iff_exists'.mp h
    have fit := entry (by simp) hx
    simp only [fits, Bool.and_eq_true, decide_eq_true_eq, List.dropLast_concat] at fit
    exact fit.1.1
  · intro d n h
    obtain ⟨x, hx⟩ := Option.ne_none_iff_exists'.mp h
    have fit := entry (by simp) hx
    simp only [fits, Bool.and_eq_true, List.all_eq_true, decide_eq_true_eq] at fit
    exact fit.1.2 n (by simp)
  · intro q p h
    have fit := entry (ne_nil_of_link h) h
    simp only [fits, Bool.and_eq_true] at fit
    simpa using fit.2

/-- A directory or a file stands at a place. -/
def Solid (t : FileTree) (q : Place) : Prop :=
  t.get? q = some .dir ∨ ∃ b m, t.get? q = some (.file b m)

theorem Solid.get?_ne_none {t : FileTree} {q : Place} (h : t.Solid q) : t.get? q ≠ none := by
  rcases h with h | ⟨b, m, h⟩ <;> simp [h]

theorem mem_steps {p : Path} {n : String} (h : n ∈ p.steps) :
    Spellable n ∧ ∀ c ∈ n.toList, c = '.' ∨ c ∈ p.text.toList := by
  have hnamed : n ∈ (p.pieces.filter (!·.isEmpty)).map String.ofList ∨ n = "." := by
    dsimp only [Path.steps] at h
    split at h
    · rcases List.mem_append.mp h with h | h
      · exact .inl h
      · exact .inr (List.mem_singleton.mp h)
    · exact .inl h
  rcases hnamed with hn | rfl
  · obtain ⟨s, hs, rfl⟩ := List.mem_map.mp hn
    obtain ⟨hs, hne⟩ := List.mem_filter.mp hs
    have hc : ∀ c ∈ s, c ∈ p.text.toList ∧ c ≠ '/' :=
      fun c hc => Text.mem_splitAtChar.mp ⟨s, hs, hc⟩
    refine ⟨⟨?_, ?_⟩, ?_⟩
    · simpa using hne
    · simpa using fun h => (hc '/' h).2 rfl
    · simpa using fun c h => .inr (hc c h).1
  · exact ⟨⟨by decide, by decide⟩, by simp⟩

theorem noNul_of_mem_steps {p : Path} (hp : '\x00' ∉ p.text.toList) {n : String}
    (h : n ∈ p.steps) : Spellable n ∧ '\x00' ∉ n.toList := by
  obtain ⟨hspell, hc⟩ := mem_steps h
  refine ⟨hspell, fun hnul => ?_⟩
  rcases hc _ hnul with hdot | hnul
  · simp at hdot
  · exact hp hnul

theorem get?_jump {t : FileTree} {d : Place} (hd : t.get? d = some .dir) (p : Path) :
    t.get? (if p.isAbsolute then [] else d) = some .dir := by
  split
  · rfl
  · exact hd

namespace WellFormed

variable {t t' : FileTree}

theorem dir_of_prefix (ht : t.WellFormed) {d q : Place} (h : t.get? (d ++ q) ≠ none)
    (hq : q ≠ []) : t.get? d = some .dir := by
  induction q using List.reverseRecOn with
  | nil => exact absurd rfl hq
  | append_singleton q n ih =>
      rw [← List.append_assoc] at h
      have hd : t.get? (d ++ q) = some .dir := ht.above _ _ h
      by_cases hq' : q = []
      · rwa [hq', List.append_nil] at hd
      · exact ih (hd ▸ Option.some_ne_none _) hq'

/-- Below a place where nothing stands there is nothing. -/
theorem none_below (ht : t.WellFormed) {d : Place} (h : t.get? d = none) (q : Place) :
    t.get? (d ++ q) = none := by
  by_cases hq : q = []
  · rw [hq, List.append_nil]
    exact h
  · by_contra hne
    have hdir := ht.dir_of_prefix hne hq
    rw [h] at hdir
    cases hdir

theorem not_prefix (ht : t.WellFormed) {d q : Place} (h : t.get? d = none) (hq : t.get? q ≠ none) :
    ¬d <+: q := by
  rintro ⟨rest, rfl⟩
  exact hq (ht.none_below h rest)

theorem dropLast (ht : t.WellFormed) {d : Place} (h : t.get? d = some .dir) :
    t.get? d.dropLast = some .dir := by
  by_cases hd : d = []
  · subst hd
    exact h
  · rw [← List.dropLast_concat_getLast hd] at h
    exact ht.above _ _ (h ▸ Option.some_ne_none _)

theorem names (ht : t.WellFormed) {q : Place} (h : t.get? q ≠ none) : ∀ n ∈ q, Proper n := by
  induction q using List.reverseRecOn with
  | nil => simp
  | append_singleton q n ih =>
      intro m hm
      rcases List.mem_append.mp hm with hm | hm
      · exact ih (by simp [ht.above q n h]) m hm
      · cases List.mem_singleton.mp hm
        exact ht.proper q n h

theorem namesEntry (ht : t.WellFormed) {d : Place} {n : String} (h : t.get? (d ++ [n]) ≠ none) :
    NamesEntry n := (ht.proper d n h).toNamesEntry

end WellFormed

section

variable {t : FileTree} {follow : Bool} {k : Nat}

theorem leads_down (ht : t.WellFormed) {d q : Place} {rest : List String} {g : Goal}
    (h : t.get? (d ++ q) = some .dir) (hr : Leads t follow k (d ++ q) rest g) :
    Leads t follow k d (q ++ rest) g := by
  induction q generalizing d with
  | nil => simpa using hr
  | cons n q ih =>
      rw [List.append_cons] at h hr
      have hdir : t.get? (d ++ [n]) = some .dir := by
        by_cases hq : q = []
        · simpa [hq] using h
        · exact ht.dir_of_prefix (h ▸ Option.some_ne_none _) hq
      exact .dir (ht.namesEntry (hdir ▸ Option.some_ne_none _)) hdir (ih h hr)

theorem leads_to (ht : t.WellFormed) {q : Place} (h : t.Solid q) :
    Leads t follow k [] q (.node q) := by
  rcases h with h | ⟨b, m, h⟩
  · have hl : Leads t follow k [] (q ++ []) (.node q) := leads_down ht h (.done k q)
    rwa [List.append_nil] at hl
  · cases q using List.reverseRecOn with
    | nil => simp [get?] at h
    | append_singleton d n =>
        have hne : t.get? (d ++ [n]) ≠ none := by simp [h]
        exact leads_down (d := []) ht (ht.above d n hne) (.file k (ht.namesEntry hne) h)

theorem Leads.solid (ht : t.WellFormed) {d q : Place} {steps : List String} {g : Goal}
    (h : Leads t follow k d steps g) (hf : follow = true) (hd : t.get? d = some .dir)
    (hg : g = .node q) : t.Solid q := by
  induction h with
  | done => cases hg; exact .inl hd
  | here _ ih => exact ih hd hg
  | up _ ih => exact ih (ht.dropLast hd) hg
  | free => cases hg
  | dir _ h _ ih => exact ih h hg
  | file _ _ h => cases hg; exact .inr ⟨_, _, h⟩
  | link _ _ _ hn => simp [hf] at hn
  | jump _ _ _ _ ih => exact ih (get?_jump hd _) hg

/-- A free name is free in a directory, and no path can name it that a file system would refuse. -/
theorem Leads.free_in_dir (ht : t.WellFormed) {d q : Place} {n : String} {steps : List String}
    {g : Goal} (h : Leads t follow k d steps g) (hd : t.get? d = some .dir)
    (hs : ∀ m ∈ steps, Spellable m ∧ '\x00' ∉ m.toList) (hg : g = .free q n) :
    t.get? q = some .dir ∧ Proper n := by
  induction h with
  | done | file | link => cases hg
  | here _ ih => exact ih hd (fun m hm => hs m (List.mem_cons_of_mem _ hm)) hg
  | up _ ih => exact ih (ht.dropLast hd) (fun m hm => hs m (List.mem_cons_of_mem _ hm)) hg
  | free _ hn _ =>
      cases hg
      obtain ⟨hspell, hnul⟩ := hs n List.mem_cons_self
      exact ⟨hd, { hn, hspell with noNul := hnul }⟩
  | dir _ h _ ih => exact ih h (fun m hm => hs m (List.mem_cons_of_mem _ hm)) hg
  | jump _ h _ _ ih =>
      refine ih (get?_jump hd _) (fun m hm => ?_) hg
      rcases List.mem_append.mp hm with hm | hm
      · exact noNul_of_mem_steps (ht.noNul _ _ h) hm
      · exact hs m (List.mem_cons_of_mem _ hm)

end

/-- A file or a directory in a directory, where none was, keeps a tree well-formed. -/
theorem WellFormed.set {t : FileTree} (ht : t.WellFormed) {d : Place} {n : String} {x : Node}
    (hd : t.get? d = some .dir) (hn : Proper n) (ho : t.get? (d ++ [n]) ≠ some .dir)
    (hx : ∀ p, x ≠ .link p) : (t.set (d ++ [n]) x).WellFormed := by
  have hne : d ++ [n] ≠ [] := by simp
  have keep : ∀ q, t.get? q = some .dir → (t.set (d ++ [n]) x).get? q = some .dir := by
    intro q hq
    rw [get?_set_of_ne t x hne, hq]
    rintro rfl
    exact ho hq
  have split : ∀ e m, (t.set (d ++ [n]) x).get? (e ++ [m]) ≠ none →
      (e = d ∧ m = n) ∨ t.get? (e ++ [m]) ≠ none := by
    intro e m h
    by_cases hq : e ++ [m] = d ++ [n]
    · obtain ⟨he, hm⟩ := List.append_inj' hq rfl
      exact .inl ⟨he, List.singleton_inj.mp hm⟩
    · rw [get?_set_of_ne t x hne hq] at h
      exact .inr h
  refine ⟨keep _ ht.current, ?_, ?_, ?_⟩
  · intro e m h
    rcases split e m h with ⟨rfl, rfl⟩ | h
    · exact keep _ hd
    · exact keep _ (ht.above e m h)
  · intro e m h
    rcases split e m h with ⟨rfl, rfl⟩ | h
    · exact hn
    · exact ht.proper e m h
  · intro q p h
    by_cases hq : q = d ++ [n]
    · subst hq
      rw [get?_set_self t x hne] at h
      exact absurd (Option.some.inj h) (hx p)
    · rw [get?_set_of_ne t x hne hq] at h
      exact ht.noNul q p h

theorem WellFormed.set_file {t : FileTree} (ht : t.WellFormed) {q : Place} {b b' : ByteArray}
    {m m' : Nat} (h : t.get? q = some (.file b m)) : (t.set q (.file b' m')).WellFormed := by
  cases q using List.reverseRecOn with
  | nil => simp [get?] at h
  | append_singleton d n =>
      have hne : t.get? (d ++ [n]) ≠ none := h ▸ Option.some_ne_none _
      exact ht.set (ht.above d n hne) (ht.proper d n hne) (ne_dir_of_file h) (fun _ => nofun)

theorem WellFormed.origin {t : FileTree} (ht : t.WellFormed) (p : Path) :
    t.get? (t.origin p) = some .dir := get?_jump ht.current p

theorem solid_of_canonical {t : FileTree} (ht : t.WellFormed) {p : Path} {q : Place}
    (h : t.canonical p = .ok q) : t.Solid q := by
  rw [canonical_eq_ok_iff, goal_eq_ok_iff] at h
  exact h.2.solid ht rfl (ht.origin p) rfl

section

variable {t t' : FileTree} (ht : t.WellFormed) (hx : Extends t t') {q : Place}

include ht

theorem steps_path (h : t.Solid q) : q.path.steps = q :=
  Place.steps_path (Place.spellable_of_proper (ht.names h.get?_ne_none))

include hx

/-- The path of a place leads there, also when the tree has grown. -/
theorem goal_path (h : t.Solid q) (follow : Bool) :
    t'.goal follow q.path = .ok (.node q) := by
  rw [goal_eq_ok_iff, steps_path ht h]
  refine ⟨Place.spelled_path (ht.names h.get?_ne_none), ?_⟩
  simp only [FileTree.origin, Place.isAbsolute_path, if_true]
  exact (leads_to ht h).grow hx rfl

theorem canonical_path (h : t.Solid q) : t'.canonical q.path = .ok q :=
  canonical_eq_ok_iff.mpr (goal_path ht hx h true)

theorem parentPlace_path {d : Place} {n : String} (h : t.Solid (d ++ [n])) :
    t'.parentPlace (d ++ [n]).path = .ok d := by
  have hne : t.get? (d ++ [n]) ≠ none := h.get?_ne_none
  have hd : t.get? d = some .dir := ht.above d n hne
  have hnames : ∀ m ∈ d, Proper m := ht.names (hd ▸ Option.some_ne_none _)
  have hdot : Spellable "." := ⟨by decide, by decide⟩
  have hpath : (((d ++ [n]).path.parent?).getD ⟨"."⟩).join ⟨"."⟩ = (d ++ ["."]).path := by
    rw [Place.parent?_path hnames (ht.proper d n hne), Option.getD_some,
      Place.join_path (Place.spellable_of_proper hnames) hdot]
  have hspell : ∀ m ∈ d ++ ["."], Spellable m := by
    intro m hm
    rcases List.mem_append.mp hm with hm | hm
    · exact (hnames m hm).toSpellable
    · exact List.mem_singleton.mp hm ▸ hdot
  have hnul : '\x00' ∉ (d ++ ["."]).path.text.toList := by
    intro hc
    obtain ⟨m, hm, hcm⟩ := Place.mem_toList_path hspell hc (by decide)
    rcases List.mem_append.mp hm with hm | hm
    · exact (hnames m hm).noNul hcm
    · cases List.mem_singleton.mp hm
      simp at hcm
  have hgoal : t'.goal true (d ++ ["."]).path = .ok (.node d) := by
    rw [goal_eq_ok_iff, Place.steps_path hspell]
    refine ⟨⟨Place.isEmpty_path _, by simpa using hnul⟩, ?_⟩
    simp only [FileTree.origin, Place.isAbsolute_path, if_true]
    exact (leads_down (d := []) ht hd (.here (.done _ d))).grow hx rfl
  simp only [parentPlace, hpath, hgoal, ok_bind, pure_eq_ok]

end

end FileTree
end TestRepair
