import TestRepair.Proofs.FileTree.Shape
import TestRepair.Repair.Patch

/-!
Where sources are found. A directory lists what stands in it and nothing else, and a search below the
path of a place gives paths that go on from there by names. So every source of a project is spelled as
a path below its work directory, wherever links may lead it.
-/

namespace TestRepair

open Place (Proper Spellable)

theorem Place.below?_eq_some_iff {d p rest : Place} : below? d p = some rest ↔ p = d ++ rest := by
  induction d generalizing p with
  | nil => simp [below?]
  | cons n d ih =>
      cases p with
      | nil => simp [below?]
      | cons m p =>
          by_cases h : n = m
          · subst h
            simp [below?, ih]
          · simp [below?, h, Ne.symm h]

/-- A path below the place `d`, spelled with the names that lead there. -/
def Place.Below (d : Place) (p : Path) : Prop :=
  ∃ names : Place, (∀ n ∈ names, Proper n) ∧ p = (d ++ names).path

namespace FileTree

theorem mem_entries_iff {t : FileTree} {q : Place} {n : Node} (hq : q ≠ []) :
    (q, n) ∈ t.nodes.entries ↔ t.get? q = some n := by
  rw [get?, if_neg hq]
  exact ⟨Dictionary.find?_of_mem t.nodes.distinct, Dictionary.mem_of_find?⟩

theorem mem_under_iff {t : FileTree} {d names : Place} {n : Node} (hn : names ≠ []) :
    (names, n) ∈ t.under d ↔ t.get? (d ++ names) = some n := by
  rw [← mem_entries_iff (by simp [hn]), under, List.mem_filterMap]
  constructor
  · rintro ⟨⟨q, m⟩, he, h⟩
    dsimp only at h
    split at h
    · cases h
    · cases h
    · rename_i rest _ hb
      cases h
      rwa [← Place.below?_eq_some_iff.mp hb]
  · intro he
    refine ⟨_, he, ?_⟩
    have hb : Place.below? d (d ++ names) = some names := Place.below?_eq_some_iff.mpr rfl
    simp only [hb]

theorem nodup_under (t : FileTree) (d : Place) : ((t.under d).map (·.1)).Nodup := by
  have hkeys := List.pairwise_map.mp t.nodes.distinct
  refine List.pairwise_map.mpr (List.Pairwise.filterMap _ ?_ hkeys)
  intro e e' hne x hx x' hx' hxx
  apply hne
  split at hx
  · cases hx
  · cases hx
  · rename_i rest _ hr
    split at hx'
    · cases hx'
    · cases hx'
    · rename_i rest' _ hr'
      cases hx
      cases hx'
      dsimp only at hxx
      rw [Place.below?_eq_some_iff.mp hr, Place.below?_eq_some_iff.mp hr', hxx]

theorem ne_nil_of_mem_under {t : FileTree} {d : Place} {e : Place × Node} (h : e ∈ t.under d) :
    e.1 ≠ [] := by
  obtain ⟨x, -, hx⟩ := List.mem_filterMap.mp h
  split at hx
  · cases hx
  · cases hx
  · rename_i rest hrest _
    cases hx
    exact hrest

/-- There is less below an entry of a directory than below the directory. -/
theorem length_under_lt {t : FileTree} {d : Place} {n : String} (h : t.get? (d ++ [n]) ≠ none) :
    (t.under (d ++ [n])).length < (t.under d).length := by
  obtain ⟨x, hx⟩ := Option.ne_none_iff_exists'.mp h
  have hnodup : ([n] :: (t.under (d ++ [n])).map fun e => n :: e.1).Nodup := by
    refine List.nodup_cons.mpr ⟨fun hm => ?_, ?_⟩
    · obtain ⟨e, he, hn⟩ := List.mem_map.mp hm
      exact ne_nil_of_mem_under he (List.cons.inj hn).2
    · refine List.pairwise_map.mpr ((List.pairwise_map.mp (nodup_under t _)).imp ?_)
      exact fun hne he => hne (List.cons.inj he).2
  have hsub : ([n] :: (t.under (d ++ [n])).map fun e => n :: e.1) ⊆ (t.under d).map (·.1) := by
    intro names hm
    rcases List.mem_cons.mp hm with rfl | hm
    · exact List.mem_map.mpr ⟨([n], x), (mem_under_iff (by simp)).mpr hx, rfl⟩
    · obtain ⟨⟨rest, y⟩, he, rfl⟩ := List.mem_map.mp hm
      have hy := (mem_under_iff (ne_nil_of_mem_under he)).mp he
      refine List.mem_map.mpr ⟨(n :: rest, y), (mem_under_iff (by simp)).mpr ?_, rfl⟩
      rw [← hy, List.append_assoc, List.singleton_append]
  have hle := hnodup.length_le_of_subset hsub
  simp only [List.length_cons, List.length_map] at hle
  omega

theorem mem_children_iff {t : FileTree} {d : Place} {name : String} {n : Node} :
    (name, n) ∈ t.children d ↔ t.get? (d ++ [name]) = some n := by
  rw [← mem_entries_iff (by simp), children, List.mem_mergeSort, List.mem_filterMap]
  constructor
  · rintro ⟨⟨q, m⟩, he, h⟩
    dsimp only at h
    split at h
    · rename_i rest hb
      cases h
      rwa [← Place.below?_eq_some_iff.mp hb]
    · cases h
  · intro he
    refine ⟨_, he, ?_⟩
    have hb : Place.below? d (d ++ [name]) = some [name] := Place.below?_eq_some_iff.mpr rfl
    simp only [hb]

end FileTree

namespace Glob

open FileTree

variable {t : FileTree} {d : Place}

theorem spelledBase_path (hd : ∀ n ∈ d, Spellable n) : spelledBase d.path = d.path := by
  by_cases hne : d = []
  · subst hne
    rfl
  · have hkept : (d.map String.toList).filter (fun s => !s.isEmpty) = d.map String.toList := by
      refine List.filter_eq_self.mpr fun s hs => ?_
      obtain ⟨n, hn, rfl⟩ := List.mem_map.mp hs
      simpa using (hd n hn).nonempty
    rw [spelledBase, Place.isAbsolute_path, if_pos rfl, Place.pieces_path hne hd,
      List.filter_cons_of_neg (by simp), hkept, Text.joinWith_eq_intercalate]
    refine congrArg Path.mk (String.toList_injective ?_)
    simp [String.toList_intercalate]

/-- What stands in the directory that a path leads to. -/
def listing (t : FileTree) (p : Path) : List (String × Node) :=
  ((t.canonical p).toOption.map t.children).getD []

theorem mem_listing {p : Path} {x : String × Node} (h : x ∈ listing t p) :
    ∃ q, t.canonical p = .ok q ∧ t.get? (q ++ [x.1]) = some x.2 := by
  unfold listing at h
  cases hq : t.canonical p with
  | error e => simp [hq, Except.toOption] at h
  | ok q =>
      simp only [hq, Except.toOption, Option.map_some, Option.getD_some] at h
      exact ⟨q, rfl, mem_children_iff.mp h⟩

theorem below_succ (t : FileTree) (budget : Nat) (d : Place) :
    below t (budget + 1) d.path = (listing t d.path).flatMap fun x =>
      d.path.child x.1 ::
        if t.isDir (d.path.child x.1) then below t budget (d.path.child x.1) else [] := by
  simp only [below, listing, Place.isEmpty_path, Bool.false_eq_true, if_false]

theorem mem_below (ht : t.WellFormed) (hd : ∀ n ∈ d, Proper n) {budget : Nat} {p : Path}
    (h : p ∈ below t budget d.path) : Place.Below d p := by
  induction budget generalizing d with
  | zero => cases h
  | succ budget ih =>
      rw [below_succ] at h
      obtain ⟨⟨name, node⟩, hmem, h⟩ := List.mem_flatMap.mp h
      obtain ⟨q, -, hq⟩ := mem_listing hmem
      have hname : Proper name := ht.proper q name (hq ▸ Option.some_ne_none _)
      have hchild : d.path.child name = (d ++ [name]).path :=
        Place.join_path (Place.spellable_of_proper hd) hname.toSpellable
      simp only [hchild] at h
      rcases List.mem_cons.mp h with rfl | h
      · exact ⟨[name], by simpa using hname, rfl⟩
      · split at h
        · obtain ⟨names, hnames, rfl⟩ :=
            ih (List.forall_mem_append.mpr ⟨hd, by simpa using hname⟩) h
          exact ⟨name :: names, List.forall_mem_cons.mpr ⟨hname, hnames⟩, by simp⟩
        · cases h

/-- An ending that is read as a single name. -/
def Plain (ending : String) (ts : List GlobToken) : Prop :=
  '/' ∉ ending.toList ∧ component? ('*' :: '.' :: ending.toList) = .ok (.name ts)

theorem plain_of_default {ending : String}
    (h : ending ∈ ({} : HealingSettings).sourceExtensions) : ∃ ts, Plain ending ts := by
  simp only [List.mem_cons, List.not_mem_nil, or_false] at h
  rcases h with rfl | rfl | rfl | rfl | rfl | rfl <;> exact ⟨_, by decide, rfl⟩

/-- A plain ending keeps those of the paths below a directory whose last name matches. -/
theorem withEnding_eq {ending : String} {ts : List GlobToken} (he : Plain ending ts) (t : FileTree)
    (dir : Path) :
    withEnding t dir ending = (do
      let whole := escape dir.text.toList ++ "/**/".toList ++ '*' :: '.' :: ending.toList
      check whole.length 0 none whole
      pure ((below t (budget t) (spelledBase dir)).filter fun p => nameMatches ts (lastName p))) := by
  have hpieces : Text.splitAtChar '/' ('*' :: '.' :: ending.toList) = ['*' :: '.' :: ending.toList] :=
    Text.splitAtChar_of_notMem (by simp [he.1])
  have hfound : descend t (spelledBase dir) (collapse [.anyDirs, .name ts]) =
      (below t (budget t) (spelledBase dir)).filter fun p => nameMatches ts (lastName p) := by
    simp only [collapse, descend, matching, List.isEmpty_cons, List.isEmpty_nil, if_true,
      Bool.false_eq_true, if_false]
    induction below t (budget t) (spelledBase dir) with
    | nil => rfl
    | cons p ps ih =>
        rw [List.flatMap_cons, ih]
        cases hm : nameMatches ts (lastName p) <;> simp [hm]
  simp only [withEnding, hpieces, List.length_singleton, Nat.lt_irrefl, decide_false, Bool.false_and,
    Bool.false_eq_true, if_false, List.mapM_cons, List.mapM_nil, he.2, ok_bind, pure_eq_ok, hfound]

theorem mem_withEnding (ht : t.WellFormed) (hd : ∀ n ∈ d, Proper n) {ending : String}
    {ts : List GlobToken} (he : Plain ending ts) {found : List Path}
    (h : withEnding t d.path ending = .ok found) {p : Path} (hp : p ∈ found) : Place.Below d p := by
  rw [withEnding_eq he, spelledBase_path (Place.spellable_of_proper hd)] at h
  dsimp only at h
  cases hc : check _ _ _ _ with
  | error e => rw [hc] at h; cases h
  | ok =>
      rw [hc] at h
      cases h
      exact mem_below ht hd (List.mem_filter.mp hp).1

end Glob

theorem mapM_congr {ε α β : Type} {f g : α → Except ε β} {xs : List α} (h : ∀ x ∈ xs, f x = g x) :
    xs.mapM f = xs.mapM g := by
  induction xs with
  | nil => rfl
  | cons x xs ih =>
      rw [List.mapM_cons, List.mapM_cons, h x List.mem_cons_self,
        ih fun y hy => h y (List.mem_cons_of_mem _ hy)]

theorem mem_of_mapM {ε α β : Type} {f : α → Except ε β} {xs : List α} {ys : List β}
    (h : xs.mapM f = .ok ys) : ∀ y ∈ ys, ∃ x ∈ xs, f x = .ok y := by
  induction xs generalizing ys with
  | nil =>
      cases h
      simp
  | cons x xs ih =>
      rw [List.mapM_cons] at h
      cases hx : f x with
      | error e => simp [hx] at h
      | ok z =>
          cases hzs : xs.mapM f with
          | error e => simp [hx, hzs] at h
          | ok zs =>
              simp only [hx, hzs, ok_bind, pure_eq_ok, Except.ok.injEq] at h
              subst h
              intro y hy
              rcases List.mem_cons.mp hy with rfl | hy
              · exact ⟨x, List.mem_cons_self, hx⟩
              · obtain ⟨x', hx', hf⟩ := ih hzs y hy
                exact ⟨x', List.mem_cons_of_mem _ hx', hf⟩

namespace Patch

open FileTree

theorem mem_insertPath {p q : Path} {ps : List Path} (h : p ∈ insertPath q ps) :
    p = q ∨ p ∈ ps := by
  induction ps with
  | nil => exact .inl (List.mem_singleton.mp h)
  | cons r ps ih =>
      rw [insertPath] at h
      split at h
      · exact List.mem_cons.mp h
      · exact .inr h
      · rcases List.mem_cons.mp h with rfl | h
        · exact .inr List.mem_cons_self
        · exact (ih h).imp_right (List.mem_cons_of_mem _)

theorem mem_foldl_insertPath {p : Path} {found ps : List Path}
    (h : p ∈ found.foldl (fun ps p => insertPath p ps) ps) : p ∈ found ∨ p ∈ ps := by
  induction found generalizing ps with
  | nil => exact .inr h
  | cons q found ih =>
      rcases ih h with h | h
      · exact .inl (List.mem_cons_of_mem _ h)
      · rcases mem_insertPath h with rfl | h
        · exact .inl List.mem_cons_self
        · exact .inr h

variable {t : FileTree} {d : Place}

/-- The directories that hold locators where nothing else is set, as names. -/
def locatorPlaces : List Place :=
  [["locators"], ["pages"], ["page-objects"], ["tests", "locators"], ["tests", "pages"]]

theorem locatorDirs_default : ({} : HealingSettings).locatorDirs = locatorPlaces.map Place.relative := rfl

theorem proper_of_mem_locatorPlaces {names : Place} (h : names ∈ locatorPlaces) :
    names ≠ [] ∧ ∀ n ∈ names, Proper n := by
  revert names
  decide

theorem join_locatorPlace (hd : ∀ n ∈ d, Proper n) {names : Place} (h : names ∈ locatorPlaces) :
    d.path.join (Place.relative names) = (d ++ names).path := by
  obtain ⟨hne, hproper⟩ := proper_of_mem_locatorPlaces h
  exact Place.join_relative (Place.spellable_of_proper hd) hne (Place.spellable_of_proper hproper)

theorem mem_sourcesBelow (ht : t.WellFormed) (hd : ∀ n ∈ d, Proper n) {extensions : List String}
    (he : ∀ e ∈ extensions, ∃ ts, Glob.Plain e ts) {found : List Path}
    (h : sourcesBelow t d.path extensions = .ok found) {p : Path} (hp : p ∈ found) :
    Place.Below d p ∧ t.isFile p = true := by
  unfold sourcesBelow at h
  split at h
  · cases hs : extensions.mapM (Glob.withEnding t d.path) with
    | error e => simp [hs] at h
    | ok lists =>
        simp only [hs, ok_bind, pure_eq_ok, Except.ok.injEq] at h
        subst h
        obtain ⟨hflat, hfile⟩ := List.mem_filter.mp hp
        obtain ⟨list, hlist, hp⟩ := List.mem_flatten.mp hflat
        obtain ⟨e, hmem, hw⟩ := mem_of_mapM hs list hlist
        obtain ⟨ts, hplain⟩ := he e hmem
        exact ⟨Glob.mem_withEnding ht hd hplain hw hp, hfile⟩
  · cases h
    cases hp

/-- Where nothing else is set, a source of a project is a file under a path below one of the locator
directories. -/
theorem mem_sources (ht : t.WellFormed) (hd : ∀ n ∈ d, Proper n) {files : List Path}
    (h : sources t d.path ({} : HealingSettings).locatorDirs
      ({} : HealingSettings).sourceExtensions = .ok files) {p : Path} (hp : p ∈ files) :
    (∃ names ∈ locatorPlaces, Place.Below (d ++ names) p) ∧ t.isFile p = true := by
  unfold sources at h
  cases hs : ({} : HealingSettings).locatorDirs.mapM fun dir =>
      sourcesBelow t (d.path.join dir) ({} : HealingSettings).sourceExtensions with
  | error e => simp only [hs, mapError_error, error_bind, reduceCtorEq] at h
  | ok lists =>
      simp only [hs, mapError_ok, ok_bind, pure_eq_ok, Except.ok.injEq] at h
      subst h
      rcases mem_foldl_insertPath hp with hp | hp
      · obtain ⟨list, hlist, hp⟩ := List.mem_flatten.mp hp
        obtain ⟨dir, hdir, hbelow⟩ := mem_of_mapM hs list hlist
        rw [locatorDirs_default] at hdir
        obtain ⟨names, hnames, rfl⟩ := List.mem_map.mp hdir
        have hall : ∀ n ∈ d ++ names, Proper n :=
          List.forall_mem_append.mpr ⟨hd, (proper_of_mem_locatorPlaces hnames).2⟩
        rw [join_locatorPlace hd hnames] at hbelow
        obtain ⟨hp, hfile⟩ :=
          mem_sourcesBelow ht hall (fun e he => Glob.plain_of_default he) hbelow hp
        exact ⟨⟨names, hnames, hp⟩, hfile⟩
      · cases hp

end Patch
end TestRepair
