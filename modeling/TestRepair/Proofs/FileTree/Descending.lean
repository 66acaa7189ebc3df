import Mathlib.Data.List.Nodup
import Mathlib.Logic.Relation
import TestRepair.Proofs.FileTree.Links
import TestRepair.Proofs.FileTree.Route
import TestRepair.Proofs.FileTree.Searching

/-!
Searching below a directory to any depth. Every path that goes on from the directory by names and leads
anywhere is found, unless the search runs into a loop of links: where there is none, the directories on
the way are distinct, so there are no more of them than the tree has.
-/

namespace TestRepair

open TestRepair.Path (Spoken)

theorem Place.Proper.spoken {n : String} (h : Proper n) : Spoken (.name n) :=
  ⟨n.toList, h.isIdle, h.noSlash, h.component⟩

namespace FileTree

variable {t : FileTree} {p p' : Path} {q d : Place} {n : String} {names : List String}

/-- The moves of a path lead to a place. -/
structure Reaches (t : FileTree) (p : Path) (q : Place) : Prop where
  noNul : '\x00' ∉ p.text.toList
  leads : Leads t true linkLimit (t.origin p) p.moves (.node q)

theorem reaches_of_canonical (h : t.canonical p = .ok q) : t.Reaches p q where
  noNul := (goal_eq_ok_iff.mp (canonical_eq_ok_iff.mp h)).1.notMem
  leads := leads_moves h

theorem Reaches.canonical (h : t.Reaches p q) (full : p.text.isEmpty = false)
    (he : t.get? q = some .dir ∨ p.steps.getLast? ≠ some ".") : t.canonical p = .ok q := by
  rw [canonical_eq_ok_iff, goal_eq_ok_iff]
  exact ⟨⟨full, by simpa using h.noNul⟩, h.leads.thicken rfl (thins_filter p.steps) rfl he⟩

theorem Reaches.of_route (h : t.Reaches p q) (same : p.route = p'.route) : t.Reaches p' q where
  noNul := by
    rw [Path.mem_toList_iff (by decide) (by decide), ← Path.moves_of_route same,
      ← Path.mem_toList_iff (by decide) (by decide)]
    exact h.noNul
  leads := by
    have start : t.origin p' = t.origin p := by rw [origin, origin, Path.isAbsolute_of_route same]
    rw [start, ← Path.moves_of_route same]
    exact h.leads

theorem Reaches.unique {q' : Place} (h : t.Reaches p q) (h' : t.Reaches p q') : q = q' := by
  have first := walk_of_leads h.leads
  rw [walk_of_leads h'.leads] at first
  cases first
  rfl

theorem canonical_child_iff (hn : Spoken (.name n)) :
    t.canonical (p.child n) = .ok q ↔ t.Reaches (p.child n) q := by
  refine ⟨reaches_of_canonical, fun h => h.canonical ?_ (.inr (Path.steps_child hn))⟩
  rw [Bool.eq_false_iff, ne_eq, String.isEmpty_iff]
  intro empty
  have none := Path.components_child (p := p) hn
  rw [show p.child n = ⟨""⟩ from congrArg Path.mk empty] at none
  exact absurd none.symm (by simp [Path.components, Path.pieces, Text.splitAtChar, Path.isAbsolute,
    Path.innerComponents])

theorem isDir_child_iff (hn : Spoken (.name n)) :
    t.isDir (p.child n) = true ↔ ∃ q, t.Reaches (p.child n) q ∧ t.get? q = some .dir := by
  simp only [isDir_eq_true_iff, canonical_child_iff hn]

theorem isFile_eq_true_iff : t.isFile p = true ↔
    ∃ q, t.canonical p = .ok q ∧ ∃ b m, t.get? q = some (.file b m) := by
  unfold isFile node
  cases hq : t.canonical p with
  | error e => simp
  | ok q =>
    cases hn : t.get? q with
    | none => simp [hn]
    | some x => cases x <;> simp [hn]

/-- What one name leads to from a directory stands there. -/
theorem Leads.get?_ne_none {k : Nat} (h : Leads t true k d [n] (.node q)) (hn : Spoken (.name n)) :
    t.get? (d ++ [n]) ≠ none := by
  obtain ⟨busy, -, other⟩ := hn.text
  change Path.isIdle n.toList = false at busy
  change Path.component n.toList = .name n at other
  cases h with
  | here => cases busy
  | up => cases other
  | dir _ h => simp [h]
  | file _ _ h => simp [h]
  | link _ _ _ hf => cases hf
  | jump _ h => simp [h]

/-- A path that goes on by a name leads through a directory, and to where the entry with this name
leads. -/
theorem Reaches.above (ht : t.WellFormed) (hn : Spoken (.name n)) (h : t.Reaches (p.child n) q) :
    ∃ d, t.Reaches p d ∧ t.get? d = some .dir ∧ t.get? (d ++ [n]) ≠ none ∧
      t.canonical (d ++ [n]).path = .ok q := by
  have moves := Path.moves_child (p := p) hn
  have start : t.origin (p.child n) = t.origin p := by
    obtain ⟨-, -, -, absolute⟩ := Path.pieces_child (p := p) hn
    rw [origin, origin, absolute]
  obtain ⟨d, j, hj, front, dir, last⟩ :=
    h.leads.split rfl ht (ht.origin _) moves (List.cons_ne_nil _ _)
  have entry := last.get?_ne_none hn
  refine ⟨d, ⟨fun nul => h.noNul ?_, start ▸ front⟩, dir, entry, ?_⟩
  · obtain ⟨m, hm, inside⟩ := (Path.mem_toList_iff (by decide) (by decide)).mp nul
    refine (Path.mem_toList_iff (by decide) (by decide)).mpr ⟨m, ?_, inside⟩
    rw [moves]
    exact List.mem_append_left _ hm
  · rw [canonical_entry ht entry, walk_eq_ok_iff]
    exact last.mono hj

section Loops

/-- One of the entries of the directory `d` leads to the directory `e`. -/
structure Enters (t : FileTree) (d e : Place) : Prop where
  entry : ∃ n, t.get? (d ++ [n]) ≠ none ∧ t.canonical (d ++ [n]).path = .ok e
  dir : t.get? e = some .dir

/-- No directory leads back to itself, whatever links are followed on the way. -/
def Loopless (t : FileTree) : Prop := ∀ d, ¬Relation.TransGen t.Enters d d

theorem loopless_of_rank (rank : Place → Nat) (h : ∀ d e, t.Enters d e → rank e < rank d) :
    t.Loopless := by
  intro d loop
  have falls : ∀ e, Relation.TransGen t.Enters d e → rank e < rank d := by
    intro e way
    induction way with
    | single step => exact h _ _ step
    | tail _ step ih => exact Nat.lt_trans (h _ _ step) ih
  exact Nat.lt_irrefl _ (falls d loop)

/-- Whether an entry that leads to a directory leads to one of a lower rank. -/
def falls (t : FileTree) (rank : Place → Nat) (e : Place × Node) : Bool :=
  match t.canonical e.1.path with
  | .ok q => t.get? q != some .dir || rank q < rank e.1.dropLast
  | .error _ => true

theorem loopless_of_falls (rank : Place → Nat)
    (h : t.nodes.entries.all (t.falls rank) = true) : t.Loopless := by
  refine loopless_of_rank rank fun d e step => ?_
  obtain ⟨n, entry, leads⟩ := step.entry
  obtain ⟨x, hx⟩ := Option.ne_none_iff_exists'.mp entry
  have fall := List.all_eq_true.mp h _ (mem_entries_of_get? (by simp) hx)
  simpa [falls, leads, step.dir] using fall

/-- The directories that a path goes through, behind those of the path it starts from. -/
theorem Reaches.ways (ht : t.WellFormed) (hn : ∀ n ∈ names, Spoken (.name n))
    (h : t.Reaches (p.down names) q) (ne : names ≠ []) :
    ∃ d ds, t.Reaches p d ∧ (d :: ds).IsChain t.Enters ∧ (d :: ds).length = names.length ∧
      ∀ e ∈ d :: ds, t.get? e = some .dir := by
  induction names generalizing p with
  | nil => exact absurd rfl ne
  | cons n names ih =>
    obtain ⟨first, rest⟩ := List.forall_mem_cons.mp hn
    by_cases last : names = []
    · subst last
      obtain ⟨d, front, dir, -⟩ := Reaches.above ht first h
      exact ⟨d, [], front, List.IsChain.singleton d, rfl, by simpa using dir⟩
    · obtain ⟨e, ds, mid, chain, length, dirs⟩ := ih rest h last
      obtain ⟨d, front, dir, entry, leads⟩ := mid.above ht first
      have step : t.Enters d e := ⟨⟨n, entry, leads⟩, dirs e List.mem_cons_self⟩
      exact ⟨d, e :: ds, front, List.isChain_cons_cons.mpr ⟨step, chain⟩,
        by simp only [List.length_cons, ← length], List.forall_mem_cons.mpr ⟨dir, dirs⟩⟩

/-- Without a loop no path goes through more directories than the tree has. -/
theorem Loopless.length_le (loopless : t.Loopless) {ds : List Place} (chain : ds.IsChain t.Enters)
    (dirs : ∀ d ∈ ds, t.get? d = some .dir) : ds.length ≤ Glob.budget t := by
  have apart : ds.Nodup := by
    have ways := (chain.imp fun _ _ step => Relation.TransGen.single step).pairwise
    have distinct {d e : Place} (way : Relation.TransGen t.Enters d e) : d ≠ e := by
      rintro rfl
      exact loopless d way
    exact ways.imp distinct
  have places : ds ⊆ [] :: t.nodes.entries.map (·.1) := by
    intro d hd
    by_cases root : d = []
    · exact root ▸ List.mem_cons_self
    · exact List.mem_cons_of_mem _ (List.mem_map_of_mem (mem_entries_of_get? root (dirs d hd)))
  simpa [Glob.budget] using apart.length_le_of_subset places

end Loops

end FileTree

namespace Glob

open FileTree

variable {t : FileTree} {p f : Path} {q d : Place} {n : String} {names : List String}

/-- The path that a search looks up to list the directory `p`. -/
def start (p : Path) : Path := if p.text.isEmpty then ⟨"."⟩ else p

theorem route_start (p : Path) : (start p).route = p.route := by
  unfold start
  split
  · next empty =>
    rw [show p = ⟨""⟩ from congrArg Path.mk (String.isEmpty_iff.mp empty)]
    decide
  · rfl

theorem canonical_start (h : t.Reaches p d) (dir : t.get? d = some .dir) :
    t.canonical (start p) = .ok d := by
  refine (h.of_route (route_start p).symm).canonical ?_ (.inl dir)
  unfold start
  split
  · rfl
  · next full => simpa using full

theorem mem_listing_iff {x : String × Node} : x ∈ listing t p ↔
    ∃ q, t.canonical p = .ok q ∧ t.get? (q ++ [x.1]) = some x.2 := by
  refine ⟨mem_listing, ?_⟩
  rintro ⟨q, leads, entry⟩
  simpa [listing, leads, Except.toOption] using mem_children_iff.mpr entry

/-- A search finds the entries of a directory, and what it finds below those that are directories. -/
theorem mem_below_succ (ht : t.WellFormed) {budget : Nat} : f ∈ below t (budget + 1) p ↔
    ∃ d n, t.Reaches p d ∧ t.get? (d ++ [n]) ≠ none ∧
      (f = p.child n ∨ t.isDir (p.child n) = true ∧ f ∈ below t budget (p.child n)) := by
  have unfolded : below t (budget + 1) p = (listing t (start p)).flatMap fun x =>
      p.child x.1 :: if t.isDir (p.child x.1) then below t budget (p.child x.1) else [] := rfl
  rw [unfolded, List.mem_flatMap]
  have found {n : String} : (f ∈ p.child n :: if t.isDir (p.child n) then below t budget (p.child n)
      else []) ↔ f = p.child n ∨ t.isDir (p.child n) = true ∧ f ∈ below t budget (p.child n) := by
    rw [List.mem_cons]
    split <;> simp_all
  constructor
  · rintro ⟨⟨n, x⟩, listed, hf⟩
    obtain ⟨d, leads, entry⟩ := mem_listing listed
    exact ⟨d, n, (reaches_of_canonical leads).of_route (route_start p), entry ▸ Option.some_ne_none _,
      found.mp hf⟩
  · rintro ⟨d, n, front, entry, hf⟩
    obtain ⟨x, hx⟩ := Option.ne_none_iff_exists'.mp entry
    exact ⟨(n, x), mem_listing_iff.mpr ⟨d, canonical_start front (ht.above d n entry), hx⟩, found.mpr hf⟩

theorem down_of_mem_below (ht : t.WellFormed) {budget : Nat} (h : f ∈ below t budget p) :
    ∃ names, names ≠ [] ∧ (∀ n ∈ names, Spoken (.name n)) ∧ f = p.down names := by
  induction budget generalizing p with
  | zero => cases h
  | succ budget ih =>
    obtain ⟨d, n, -, entry, hf⟩ := (mem_below_succ ht).mp h
    have hn : Spoken (.name n) := (ht.proper d n entry).spoken
    rcases hf with rfl | ⟨-, hf⟩
    · exact ⟨[n], List.cons_ne_nil _ _, by simpa using hn, rfl⟩
    · obtain ⟨names, -, proper, rfl⟩ := ih hf
      exact ⟨n :: names, List.cons_ne_nil _ _, List.forall_mem_cons.mpr ⟨hn, proper⟩, rfl⟩

theorem mem_below_of_reaches (ht : t.WellFormed) {budget : Nat} (hn : ∀ n ∈ names, Spoken (.name n))
    (ne : names ≠ []) (h : t.Reaches (p.down names) q) (enough : names.length ≤ budget) :
    p.down names ∈ below t budget p := by
  induction names generalizing p budget with
  | nil => exact absurd rfl ne
  | cons n names ih =>
    obtain ⟨first, rest⟩ := List.forall_mem_cons.mp hn
    obtain ⟨budget, rfl⟩ := Nat.exists_eq_add_of_le' (Nat.lt_of_lt_of_le (Nat.succ_pos _) enough)
    by_cases last : names = []
    · subst last
      obtain ⟨d, front, -, entry, -⟩ := Reaches.above ht first h
      exact (mem_below_succ ht).mpr ⟨d, n, front, entry, .inl rfl⟩
    · obtain ⟨e, _, mid, -, -, dirs⟩ := Reaches.ways ht rest h last
      obtain ⟨d, front, -, entry, -⟩ := mid.above ht first
      have inside : t.isDir (p.child n) = true :=
        (isDir_child_iff first).mpr ⟨e, mid, dirs e List.mem_cons_self⟩
      exact (mem_below_succ ht).mpr ⟨d, n, front, entry,
        .inr ⟨inside, ih rest last h (Nat.le_of_succ_le_succ enough)⟩⟩

/-- Without a loop a search finds every path that goes on by names and leads anywhere. -/
theorem mem_below_budget (ht : t.WellFormed) (loopless : t.Loopless)
    (hn : ∀ n ∈ names, Spoken (.name n)) (ne : names ≠ []) (h : t.Reaches (p.down names) q) :
    p.down names ∈ below t (budget t) p := by
  obtain ⟨d, ds, -, chain, length, dirs⟩ := h.ways ht hn ne
  exact mem_below_of_reaches ht hn ne h (length ▸ loopless.length_le chain dirs)

end Glob
end TestRepair
