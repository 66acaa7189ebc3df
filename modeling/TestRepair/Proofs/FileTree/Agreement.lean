import Mathlib.Data.List.Nodup
import Mathlib.Data.String.Basic
import TestRepair.Proofs.FileTree.Searching

/-!
Two trees that hold the same below a directory. A path that goes down from there and past no link leads
to the same place in both, whatever the trees hold elsewhere, and what is found there is the same. The
names at which links may stand are a parameter; they are counted from the directory.
-/

namespace TestRepair

open Place (Proper Spellable)

namespace FileTree

/-- A link stands at a place. -/
def Linked (t : FileTree) (q : Place) : Prop := ∃ p, t.get? q = some (.link p)

/-- Where something is or can be put. -/
def Goal.place : Goal → Place
  | .node p => p
  | .free d n => d ++ [n]

/-- Names that lead down and past no link. -/
structure Descent (L : Place → Prop) (names : Place) : Prop where
  spellable : ∀ n ∈ names, Spellable n
  down : ∀ n ∈ names, n ≠ "." ∧ n ≠ ".."
  clear : ∀ first, first <+: names → ¬L first

/-- A directory with links below it at certain names only. -/
structure Home (L : Place → Prop) (d : Place) (t : FileTree) : Prop where
  wellFormed : t.WellFormed
  dir : t.get? d = some .dir
  links : ∀ names, t.Linked (d ++ names) → L names

/-- Two trees with the same below a directory. -/
structure Twin (L : Place → Prop) (d : Place) (t t' : FileTree) : Prop where
  left : Home L d t
  right : Home L d t'
  same : ∀ names, t'.get? (d ++ names) = t.get? (d ++ names)

/-- A path that goes down from a directory and past no link. -/
def Inside (L : Place → Prop) (d : Place) (p : Path) : Prop :=
  ∃ names, Descent L names ∧ p = (d ++ names).path

variable {L : Place → Prop} {d names : Place} {t t' t'' : FileTree} {follow : Bool} {k : Nat}

theorem Descent.of_proper (hn : ∀ n ∈ names, Proper n) (hc : ∀ first, first <+: names → ¬L first) :
    Descent L names :=
  ⟨Place.spellable_of_proper hn, fun n h => ⟨(hn n h).notHere, (hn n h).notUp⟩, hc⟩

theorem Descent.of_prefix {first : Place} (h : Descent L names) (hf : first <+: names) :
    Descent L first :=
  ⟨fun n hn => h.spellable n (hf.subset hn), fun n hn => h.down n (hf.subset hn),
    fun _ hp => h.clear _ (hp.trans hf)⟩

theorem Home.spellable (h : Home L d t) : ∀ n ∈ d, Spellable n :=
  Place.spellable_of_proper (h.wellFormed.names (h.dir ▸ Option.some_ne_none _))

theorem Home.congr (h : Home L d t) (ht : t'.WellFormed)
    (same : ∀ names, t'.get? (d ++ names) = t.get? (d ++ names)) : Home L d t' where
  wellFormed := ht
  dir := by simpa [h.dir] using same []
  links names hl := h.links names (hl.imp fun _ hp => (same names).symm.trans hp)

theorem Twin.refl (h : Home L d t) : Twin L d t t := ⟨h, h, fun _ => rfl⟩

theorem Twin.symm (h : Twin L d t t') : Twin L d t' t := ⟨h.right, h.left, fun q => (h.same q).symm⟩

/-- What happens elsewhere does not matter. -/
theorem Twin.congr_left (h : Twin L d t t') (ht : t''.WellFormed)
    (same : ∀ names, t''.get? (d ++ names) = t.get? (d ++ names)) : Twin L d t'' t' :=
  ⟨h.left.congr ht same, h.right, fun names => (h.same names).trans (same names).symm⟩

/-- Steps to a directory that is there lead to it first. -/
theorem walk_down (ht : t.WellFormed) {d q : Place} (h : t.get? (d ++ q) = some .dir)
    (rest : List String) : t.walk follow k d (q ++ rest) = t.walk follow k (d ++ q) rest := by
  induction q generalizing d with
  | nil => rw [List.append_nil, List.nil_append]
  | cons n q ih =>
      rw [List.append_cons] at h ⊢
      have hdir : t.get? (d ++ [n]) = some .dir := by
        by_cases hq : q = []
        · simpa [hq] using h
        · exact ht.dir_of_prefix (h ▸ Option.some_ne_none _) hq
      have hn := ht.namesEntry (hdir ▸ Option.some_ne_none _)
      rw [List.cons_append, walk_cons, if_neg hn.notHere, if_neg hn.notUp,
        if_neg (Nat.not_lt.mpr hn.short), hdir, ← ih h]

/-- A walk down past no link ends where its steps say. -/
theorem Home.place_of_walk (h : Home L d t) {base steps : List String}
    (hs : Descent L (base ++ steps)) {g : Goal}
    (hg : t.walk follow k (d ++ base) steps = .ok g) : g.place = d ++ (base ++ steps) := by
  induction steps generalizing base with
  | nil =>
      rw [walk_nil] at hg
      cases hg
      rw [List.append_nil, Goal.place]
  | cons n rest ih =>
      have hdown := hs.down n (by simp)
      rw [walk_cons, if_neg hdown.1, if_neg hdown.2] at hg
      split at hg
      · cases hg
      rw [List.append_assoc] at hg
      split at hg
      · split at hg
        · cases hg
          simp [Goal.place, *]
        · cases hg
      · rw [List.append_cons base n rest]
        exact ih (by simpa using hs) hg
      · split at hg
        · cases hg
          simp [Goal.place, *]
        · cases hg
      · rename_i p hp
        exact absurd (h.links _ ⟨p, hp⟩) (hs.clear _ (by simp))

theorem Twin.walk_eq (h : Twin L d t t') {base steps : List String}
    (hs : Descent L (base ++ steps)) :
    t'.walk follow k (d ++ base) steps = t.walk follow k (d ++ base) steps := by
  induction steps generalizing base with
  | nil => rw [walk_nil, walk_nil]
  | cons n rest ih =>
      have hdown := hs.down n (by simp)
      have hs' : Descent L ((base ++ [n]) ++ rest) := by simpa using hs
      have later := ih hs'
      rw [walk_cons, walk_cons, if_neg hdown.1, if_neg hdown.2, if_neg hdown.1, if_neg hdown.2,
        List.append_assoc, h.same, later]
      cases hg : t.get? (d ++ (base ++ [n])) with
      | none => rfl
      | some x =>
          cases x with
          | dir | file => rfl
          | link p => exact absurd (h.left.links _ ⟨p, hg⟩) (hs.clear _ (by simp))

theorem Home.walk_path (h : Home L d t) (hs : Descent L names) :
    t.walk follow k [] (d ++ names).path.steps = t.walk follow k (d ++ []) names := by
  rw [Place.steps_path (List.forall_mem_append.mpr ⟨h.spellable, hs.spellable⟩),
    walk_down h.wellFormed (d := []) h.dir, List.nil_append, List.append_nil]

theorem Home.place_of_goal (h : Home L d t) (hs : Descent L names) {g : Goal}
    (hg : t.goal follow (d ++ names).path = .ok g) : g.place = d ++ names := by
  unfold goal at hg
  split at hg
  · cases hg
  · split at hg
    · cases hg
    · rw [Place.isAbsolute_path, if_pos rfl, h.walk_path hs] at hg
      have hs' : Descent L ([] ++ names) := hs
      exact h.place_of_walk hs' hg

theorem Home.canonical_eq_ok (h : Home L d t) (hs : Descent L names) {q : Place}
    (hq : t.canonical (d ++ names).path = .ok q) : q = d ++ names :=
  h.place_of_goal hs (canonical_eq_ok_iff.mp hq)

theorem Home.target_eq (h : Home L d t) (hs : Descent L names) :
    t.target (d ++ names).path = (d ++ names).path := by
  unfold target
  split
  · rename_i q hq
    rw [h.canonical_eq_ok hs hq]
  · rfl

namespace Twin

variable (h : Twin L d t t') (hs : Descent L names)

include h hs

theorem goal_eq : t'.goal follow (d ++ names).path = t.goal follow (d ++ names).path := by
  have hs' : Descent L ([] ++ names) := hs
  unfold goal
  rw [Place.isAbsolute_path, if_pos rfl, if_pos rfl, h.left.walk_path hs, h.right.walk_path hs,
    h.walk_eq hs']

theorem canonical_eq : t'.canonical (d ++ names).path = t.canonical (d ++ names).path := by
  rw [canonical, canonical, h.goal_eq hs]

theorem node_eq : t'.node (d ++ names).path = t.node (d ++ names).path := by
  rw [node, node, h.canonical_eq hs]
  cases hq : t.canonical (d ++ names).path with
  | error e => rfl
  | ok q => rw [ok_bind, ok_bind, h.left.canonical_eq_ok hs hq, h.same]

theorem isDir_eq : t'.isDir (d ++ names).path = t.isDir (d ++ names).path := by
  rw [isDir, isDir, h.node_eq hs]

theorem isFile_eq : t'.isFile (d ++ names).path = t.isFile (d ++ names).path := by
  rw [isFile, isFile, h.node_eq hs]

theorem readText_eq : t'.readText (d ++ names).path = t.readText (d ++ names).path := by
  rw [readText, readText, readBytes, readBytes, h.node_eq hs]

end Twin

section

variable {q : Place} {x : Node}

/-- The same node, not a link, put at the same place of both trees. -/
theorem Twin.set (h : Twin L d t t') (hq : d <+: q) (hne : q ≠ []) (ho : t.get? q ≠ some .dir)
    (hx : ∀ p, x ≠ .link p) (ht : (t.set q x).WellFormed) (ht' : (t'.set q x).WellFormed) :
    Twin L d (t.set q x) (t'.set q x) := by
  have home : ∀ {t}, Home L d t → t.get? q ≠ some .dir → (t.set q x).WellFormed →
      Home L d (t.set q x) := by
    intro t h ho ht
    refine ⟨ht, ?_, fun names ⟨p, hp⟩ => ?_⟩
    · rw [get?_set_of_ne t x hne, h.dir]
      rintro rfl
      exact ho h.dir
    · by_cases he : d ++ names = q
      · rw [he, get?_set_self t x hne] at hp
        exact absurd (Option.some.inj hp) (hx p)
      · rw [get?_set_of_ne t x hne he] at hp
        exact h.links names ⟨p, hp⟩
  obtain ⟨rest, rfl⟩ := hq
  refine ⟨home h.left ho ht, home h.right (h.same rest ▸ ho) ht', fun names => ?_⟩
  rw [get?_set t _ _ x hne, get?_set t' _ _ x hne, h.same]

theorem Twin.set_file (h : Twin L d t t') (hq : d <+: q) {b b' : ByteArray} {m m' : Nat}
    (hf : t.get? q = some (.file b m)) :
    Twin L d (t.set q (.file b' m')) (t'.set q (.file b' m')) := by
  have hf' : t'.get? q = some (.file b m) := by
    obtain ⟨rest, rfl⟩ := hq
    rw [h.same, hf]
  exact h.set hq (ne_nil_of_file hf) (ne_dir_of_file hf) (fun _ => nofun)
    (h.left.wellFormed.set_file hf) (h.right.wellFormed.set_file hf')

theorem Twin.set_new (h : Twin L d t t') {e : Place} {n : String} (he : d <+: e)
    (hd : t.get? e = some .dir) (hn : Proper n) (hfree : t.get? (e ++ [n]) = none)
    (hx : ∀ p, x ≠ .link p) : Twin L d (t.set (e ++ [n]) x) (t'.set (e ++ [n]) x) := by
  obtain ⟨rest, rfl⟩ := he
  have hd' : t'.get? (d ++ rest) = some .dir := by rw [h.same, hd]
  have hfree' : t'.get? (d ++ rest ++ [n]) = none := by
    rw [List.append_assoc, h.same, ← List.append_assoc, hfree]
  have notDir : ∀ {t : FileTree}, t.get? (d ++ rest ++ [n]) = none →
      t.get? (d ++ rest ++ [n]) ≠ some .dir := fun hf => hf ▸ nofun
  exact h.set ⟨rest ++ [n], by rw [List.append_assoc]⟩ (by simp) (notDir hfree) hx
    (h.left.wellFormed.set hd hn (notDir hfree) hx)
    (h.right.wellFormed.set hd' hn (notDir hfree') hx)

end

theorem nodup_children (t : FileTree) (d : Place) : (t.children d).Nodup := by
  refine (List.mergeSort_perm _ _).nodup_iff.mpr ((List.Nodup.of_map _ t.nodes.distinct).filterMap ?_)
  intro e e' x hx hx'
  split at hx
  · next name hb =>
    split at hx'
    · next name' hb' =>
      cases hx
      obtain ⟨rfl, hnode⟩ := Prod.mk.inj (Option.some.inj hx')
      have hplace := Place.below?_eq_some_iff.mp hb
      exact Prod.ext (hplace.trans (Place.below?_eq_some_iff.mp hb').symm) hnode.symm
    · cases hx'
  · cases hx

/-- The entries of a directory are listed in the order of their names, wherever the tree has them. -/
theorem children_congr {d : Place} (h : ∀ n, t'.get? (d ++ [n]) = t.get? (d ++ [n])) :
    t'.children d = t.children d := by
  have perm : (t'.children d).Perm (t.children d) := by
    refine (List.perm_ext_iff_of_nodup (nodup_children t' d) (nodup_children t d)).mpr ?_
    rintro ⟨name, x⟩
    rw [mem_children_iff, mem_children_iff, h]
  refine Dictionary.eq_of_sorted perm ?_ (Dictionary.pairwise_mergeSort_key _)
    (Dictionary.pairwise_mergeSort_key _)
  intro name x x' hx hx'
  rw [mem_children_iff] at hx hx'
  rw [h, hx'] at hx
  exact (Option.some.inj hx).symm

/-- Names at which and below which there are no links. -/
structure Linkless (L : Place → Prop) (names : Place) : Prop where
  proper : ∀ n ∈ names, Proper n
  clear : ∀ more first, first <+: names ++ more → ¬L first

theorem Linkless.descent (h : Linkless L names) {more : Place} (hm : ∀ n ∈ more, Proper n) :
    Descent L (names ++ more) :=
  .of_proper (List.forall_mem_append.mpr ⟨h.proper, hm⟩) (h.clear more)

theorem Linkless.self (h : Linkless L names) : Descent L names := .of_proper h.proper fun first hf =>
  h.clear [] first (by rwa [List.append_nil])

theorem Linkless.child (h : Linkless L names) {n : String} (hn : Proper n) :
    Linkless L (names ++ [n]) where
  proper := List.forall_mem_append.mpr ⟨h.proper, by simpa using hn⟩
  clear more first hf := h.clear ([n] ++ more) first (by simpa using hf)

end FileTree

namespace Glob

open FileTree

variable {L : Place → Prop} {d names : Place} {t t' : FileTree}

theorem mem_listing_path (h : Home L d t) (hs : Descent L names) {x : String × Node}
    (hx : x ∈ listing t (d ++ names).path) : t.get? (d ++ names ++ [x.1]) ≠ none := by
  obtain ⟨q, hq, hx⟩ := mem_listing hx
  rw [h.canonical_eq_ok hs hq] at hx
  exact hx ▸ Option.some_ne_none _

theorem listing_eq (h : Twin L d t t') (hs : Descent L names) :
    listing t' (d ++ names).path = listing t (d ++ names).path := by
  rw [listing, listing, h.canonical_eq hs]
  cases hq : t.canonical (d ++ names).path with
  | error e => rfl
  | ok q =>
      have hchildren : t'.children q = t.children q := by
        rw [h.left.canonical_eq_ok hs hq]
        refine children_congr fun n => ?_
        rw [List.append_assoc]
        exact h.same _
      simp only [Except.toOption, Option.map_some, hchildren]

theorem listing_eq_nil (h : Home L d t) (hs : Descent L names)
    (hb : (t.under (d ++ names)).length ≤ 0) : listing t (d ++ names).path = [] := by
  refine List.eq_nil_iff_forall_not_mem.mpr fun x hx => ?_
  have hlt := length_under_lt (mem_listing_path h hs hx)
  omega

/-- A search below a directory without links finds the same in both trees, if its budgets are not less
than what there is. -/
theorem below_eq (h : Twin L d t t') (hl : Linkless L names) {budget budget' : Nat}
    (hb : (t.under (d ++ names)).length ≤ budget)
    (hb' : (t'.under (d ++ names)).length ≤ budget') :
    below t' budget' (d ++ names).path = below t budget (d ++ names).path := by
  induction budget generalizing budget' names with
  | zero =>
      cases budget' with
      | zero => rfl
      | succ budget' =>
          rw [below_succ, listing_eq h hl.self, listing_eq_nil h.left hl.self hb]
          rfl
  | succ budget ih =>
      cases budget' with
      | zero =>
          rw [below_succ, ← listing_eq h hl.self, listing_eq_nil h.right hl.self hb']
          rfl
      | succ budget' =>
          rw [below_succ, below_succ, listing_eq h hl.self]
          refine List.flatMap_congr fun x hx => ?_
          have hne := mem_listing_path h.left hl.self hx
          have hname : Proper x.1 := h.left.wellFormed.proper _ _ hne
          have hchild : (d ++ names).path.child x.1 = (d ++ (names ++ [x.1])).path := by
            rw [← List.append_assoc]
            exact Place.join_path
              (List.forall_mem_append.mpr ⟨h.left.spellable, hl.self.spellable⟩) hname.toSpellable
          have hlt := length_under_lt hne
          have hlt' := length_under_lt (t := t') (d := d ++ names) (n := x.1)
            (by rwa [List.append_assoc, h.same, ← List.append_assoc])
          rw [List.append_assoc] at hlt hlt'
          rw [hchild, h.isDir_eq (hl.child hname).self,
            ih (hl.child hname) (by omega) (by omega)]

theorem withEnding_congr (h : Twin L d t t') (hl : Linkless L names) {ending : String}
    {ts : List GlobToken} (he : Plain ending ts) :
    withEnding t' (d ++ names).path ending = withEnding t (d ++ names).path ending := by
  have hspell := List.forall_mem_append.mpr ⟨h.left.spellable, hl.self.spellable⟩
  have enough : ∀ t : FileTree, (t.under (d ++ names)).length ≤ budget t := fun t =>
    Nat.le_succ_of_le (List.length_filterMap_le _ _)
  rw [withEnding_eq he, withEnding_eq he, spelledBase_path hspell,
    below_eq h hl (enough t) (enough t')]

end Glob
end TestRepair
