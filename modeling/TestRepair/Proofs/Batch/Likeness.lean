import TestRepair.Proofs.Batch.Copying
import TestRepair.Proofs.FileTree.Links

/-!
What a private copy that is made outside of its source has in common with it. The same directories and
files stand outside of the shared directories, the files with their bytes and modes, and the copy reaches
the shared directories through links. A link that leads out of the source leads to the same place from the
copy. One that leads to a place inside is kept as it is written, so what it leads to in the copy depends
on its way: as long as the way stays in what is copied, the copy has the same way to its own place; where
the way enters a shared directory or jumps, the two meet in the source.
-/

namespace TestRepair
namespace Batch

open FileTree

/-- How a look-up in a source tree ends, as far as its copy goes. -/
inductive Exit
  /-- In what is copied, at the place with these names. -/
  | stays (names : Place)
  /-- It enters a shared directory. -/
  | shares
  /-- It follows an absolute link, or one that leads out of the tree. -/
  | jumps
  /-- It goes up from the top of the tree. -/
  | climbs

/-- The way that steps take from a directory of the source tree `root`, up to its exit. -/
inductive Way (t : FileTree) (root : Place) : Place → List String → Exit → Prop
  | stop (ns : Place) : Way t root ns [] (.stays ns)
  | here {ns : Place} {rest : List String} {e : Exit} (h : Way t root ns rest e) :
      Way t root ns ("." :: rest) e
  | up {ns : Place} {n : String} {rest : List String} {e : Exit} (h : Way t root ns rest e) :
      Way t root (ns ++ [n]) (".." :: rest) e
  | climb (rest : List String) : Way t root [] (".." :: rest) .climbs
  | dir {ns : Place} {n : String} {rest : List String} {e : Exit} (hn : n ≠ sharedName)
      (h : t.get? (root ++ ns ++ [n]) = some .dir) (hr : Way t root (ns ++ [n]) rest e) :
      Way t root ns (n :: rest) e
  | share {ns : Place} (rest : List String) (h : t.get? (root ++ ns ++ [sharedName]) = some .dir) :
      Way t root ns (sharedName :: rest) .shares
  | file {ns : Place} {n : String} {bytes : ByteArray} {mode : Nat}
      (h : t.get? (root ++ ns ++ [n]) = some (.file bytes mode)) :
      Way t root ns [n] (.stays (ns ++ [n]))
  | absolute {ns : Place} {n : String} {p : Path} (rest : List String)
      (h : t.get? (root ++ ns ++ [n]) = some (.link p)) (hp : p.isAbsolute = true) :
      Way t root ns (n :: rest) .jumps
  | out {ns q : Place} {n : String} {p : Path} (rest : List String)
      (h : t.get? (root ++ ns ++ [n]) = some (.link p)) (hp : p.isAbsolute = false)
      (hq : t.canonical ((root ++ ns).path.join p) = .ok q) (ho : ¬root <+: q) :
      Way t root ns (n :: rest) .jumps
  | inside {ns q : Place} {n : String} {p : Path} {rest : List String} {e : Exit}
      (h : t.get? (root ++ ns ++ [n]) = some (.link p)) (hp : p.isAbsolute = false)
      (hq : t.canonical ((root ++ ns).path.join p) = .ok q) (hi : root <+: q)
      (hr : Way t root ns (p.steps ++ rest) e) : Way t root ns (n :: rest) e

section

variable {t t' : FileTree} {root dest ns q : Place} {n : String} {e : Exit} {k : Nat}

/-- Every look-up in a source tree that succeeds has a way. -/
theorem exists_way (ht : t.WellFormed) {d : Place} {steps : List String} {g : Goal}
    (h : Leads t true k d steps g) (hk : k ≤ linkLimit) (hd : t.get? d = some .dir)
    (place : d = root ++ ns) (hg : g = .node q) : ∃ e, Way t root ns steps e := by
  induction h generalizing ns with
  | done => exact ⟨_, .stop ns⟩
  | here _ ih =>
      obtain ⟨e, way⟩ := ih hk hd place hg
      exact ⟨e, .here way⟩
  | @up k d rest g _ ih =>
      obtain rfl | ⟨ns, n, rfl⟩ := ns.eq_nil_or_concat'
      · exact ⟨_, .climb rest⟩
      · have above : d.dropLast = root ++ ns := by
          rw [place, ← List.append_assoc, List.dropLast_concat]
        obtain ⟨e, way⟩ := ih hk (ht.dropLast hd) above hg
        exact ⟨e, .up way⟩
  | free => cases hg
  | @dir k d n rest g _ h _ ih =>
      subst place
      by_cases shared : n = sharedName
      · subst shared
        exact ⟨_, .share rest h⟩
      · obtain ⟨e, way⟩ := ih hk h (List.append_assoc ..) hg
        exact ⟨e, .dir shared h way⟩
  | file _ _ h =>
      subst place
      exact ⟨_, .file h⟩
  | link _ _ _ hf => cases hf
  | @jump k d n p rest g _ h _ hr ih =>
      subst place hg
      cases hp : p.isAbsolute with
      | true => exact ⟨_, .absolute rest h hp⟩
      | false =>
          rw [hp, if_neg Bool.false_ne_true] at hr ih
          obtain ⟨q', hq', -⟩ := leads_beyond ht hd hp (ht.noNul _ p h) (Nat.le_of_succ_le hk) hr
          by_cases hi : root <+: q'
          · obtain ⟨e, way⟩ := ih (Nat.le_of_succ_le hk) hd rfl rfl
            exact ⟨e, .inside h hp hq' hi way⟩
          · exact ⟨_, .out rest h hp hq' hi⟩

/-- A tree and its copy in the tree that has both. -/
structure Copying (t : FileTree) (root dest : Place) (t' : FileTree) : Prop where
  wellFormed : t.WellFormed
  wellFormed' : t'.WellFormed
  copied : Copied t root dest t'
  grown : Extends t t'

namespace Copying

variable (c : Copying t root dest t')

include c

/-- What was found in the source tree, or elsewhere, is still found there. -/
theorem walk_grow {d : Place} {steps : List String} (h : t.walk true k d steps = .ok (.node q)) :
    t'.walk true k d steps = .ok (.node q) := by
  rw [walk_eq_ok_iff] at h ⊢
  exact h.grow c.grown rfl

/-- What the copy has in place of an entry of the source tree. -/
theorem get?_entry {x : Node} (hx : t.get? (root ++ ns ++ [n]) = some x) :
    t'.get? (dest ++ ns ++ [n]) = copiedNode? t root (ns ++ [n]) x := by
  rw [List.append_assoc] at hx ⊢
  rw [c.copied.below _ (by simp), hx, Option.bind_some]

theorem get?_dir (hns : sharedName ∉ ns) (hn : n ≠ sharedName)
    (hx : t.get? (root ++ ns ++ [n]) = some .dir) : t'.get? (dest ++ ns ++ [n]) = some .dir := by
  rw [c.get?_entry hx, copiedNode?_dir]
  simpa [hns] using Ne.symm hn

theorem get?_shared (hns : sharedName ∉ ns) (hx : t.get? (root ++ ns ++ [sharedName]) = some .dir) :
    t'.get? (dest ++ ns ++ [sharedName]) = some (.link (root ++ ns ++ [sharedName]).path) := by
  rw [c.get?_entry hx, copiedNode?, List.dropLast_concat, if_neg (by simpa using hns),
    List.append_assoc]
  simp

theorem get?_file (hns : sharedName ∉ ns) {bytes : ByteArray} {mode : Nat}
    (hx : t.get? (root ++ ns ++ [n]) = some (.file bytes mode)) :
    t'.get? (dest ++ ns ++ [n]) = some (.file bytes mode) := by
  rw [c.get?_entry hx, copiedNode?, List.dropLast_concat, if_neg (by simpa using hns)]

theorem get?_link (hns : sharedName ∉ ns) {p : Path}
    (hx : t.get? (root ++ ns ++ [n]) = some (.link p)) :
    t'.get? (dest ++ ns ++ [n]) = some (.link (copiedTarget t root (root ++ ns ++ [n]) p)) := by
  rw [c.get?_entry hx, copiedNode?, List.dropLast_concat, if_neg (by simpa using hns),
    List.append_assoc]

theorem get?_absolute (hns : sharedName ∉ ns) {p : Path}
    (hx : t.get? (root ++ ns ++ [n]) = some (.link p)) (hp : p.isAbsolute = true) :
    t'.get? (dest ++ ns ++ [n]) = some (.link p) := by
  rw [c.get?_link hns hx, copiedTarget, if_pos hp]

/-- A link that leaves the source tree is pointed at the place it leads to. -/
theorem get?_out (hns : sharedName ∉ ns) {p : Path}
    (hx : t.get? (root ++ ns ++ [n]) = some (.link p)) (hp : p.isAbsolute = false)
    (hq : t.canonical ((root ++ ns).path.join p) = .ok q) (ho : ¬root <+: q) :
    t'.get? (dest ++ ns ++ [n]) = some (.link q.path) := by
  have outside : (Place.below? root q).isSome = false := by
    rw [Option.isSome_eq_false_iff, Option.isNone_iff_eq_none, Option.eq_none_iff_forall_ne_some]
    intro names below
    exact ho ⟨names, (Place.below?_eq_some_iff.mp below).symm⟩
  rw [c.get?_link hns hx]
  simp only [copiedTarget, hp, List.dropLast_concat, hq, outside, Bool.false_eq_true, if_false]

/-- A link to a place inside is kept as it is written. -/
theorem get?_inside (hns : sharedName ∉ ns) {p : Path}
    (hx : t.get? (root ++ ns ++ [n]) = some (.link p)) (hp : p.isAbsolute = false)
    (hq : t.canonical ((root ++ ns).path.join p) = .ok q) (hi : root <+: q) :
    t'.get? (dest ++ ns ++ [n]) = some (.link p) := by
  obtain ⟨names, rfl⟩ := hi
  have inside : Place.below? root (root ++ names) = some names := Place.below?_eq_some_iff.mpr rfl
  rw [c.get?_link hns hx]
  simp only [copiedTarget, hp, List.dropLast_concat, hq, inside, Option.isSome_some,
    Bool.false_eq_true, if_false, if_true]

/-- A path of the source tree leads there from the copy, through one link. -/
theorem walk_link_path {d : Place} {rest : List String} (hq : t.Solid d)
    (h : t'.get? (dest ++ ns ++ [n]) = some (.link d.path))
    (hw : t.walk true k [] (d ++ rest) = .ok (.node q)) :
    t'.walk true (k + 1) (dest ++ ns) (n :: rest) = .ok (.node q) := by
  refine (walk_link c.wellFormed' h).mpr ⟨k, rfl, ?_⟩
  rw [Place.isAbsolute_path, if_pos rfl, steps_path c.wellFormed hq]
  exact c.walk_grow hw

end Copying

/-- What has become of a look-up in the copy that led to `q` in the source tree by a way with this exit
and followed `k` links at most. -/
def Exit.Carries (lead : Nat → Goal → Prop) (root dest q : Place) (k : Nat) : Exit → Prop
  | stays names => q = root ++ names ∧ lead k (.node (dest ++ names))
  | shares => lead (k + 1) (.node q)
  | jumps => lead k (.node q)
  | climbs => True

theorem Exit.Carries.imp {lead lead' : Nat → Goal → Prop} {j : Nat}
    (h : e.Carries lead root dest q k) (step : ∀ i g, lead i g → lead' (i + j) g) :
    e.Carries lead' root dest q (k + j) := by
  cases e with
  | stays names => exact ⟨h.1, step _ _ h.2⟩
  | shares =>
      have moved := step _ _ h
      rwa [Nat.add_right_comm] at moved
  | jumps => exact step _ _ h
  | climbs => trivial

/-- The same steps from the copy of a directory follow the way up to its exit. -/
theorem Way.carries (c : Copying t root dest t') {steps : List String} (way : Way t root ns steps e)
    (hns : sharedName ∉ ns) (hd : t.get? (root ++ ns) = some .dir) (hk : k ≤ linkLimit)
    (h : t.walk true k (root ++ ns) steps = .ok (.node q)) :
    e.Carries (fun i g => t'.walk true i (dest ++ ns) steps = .ok g) root dest q k := by
  induction way generalizing k with
  | stop ns =>
      rw [walk_nil] at h
      cases h
      exact ⟨rfl, walk_nil ..⟩
  | here _ ih =>
      rw [walk_cons, if_pos rfl] at h
      refine (ih hns hd hk h).imp (j := 0) fun i g hg => ?_
      rwa [walk_cons, if_pos rfl]
  | @up ns n rest e _ ih =>
      have parent (d : Place) : (d ++ (ns ++ [n])).dropLast = d ++ ns := by
        rw [← List.append_assoc, List.dropLast_concat]
      have above := c.wellFormed.dropLast hd
      rw [parent] at above
      rw [walk_cons, if_neg (by decide), if_pos rfl, parent] at h
      refine (ih (fun hs => hns (List.mem_append_left _ hs)) above hk h).imp (j := 0) fun i g hg => ?_
      rwa [walk_cons, if_neg (by decide), if_pos rfl, parent]
  | climb => trivial
  | @dir ns n rest e hn hx _ ih =>
      have copied := c.get?_dir hns hn hx
      rw [walk_dir c.wellFormed hx, List.append_assoc] at h
      rw [List.append_assoc] at hx
      refine (ih (by simpa [hns] using Ne.symm hn) hx hk h).imp (j := 0) fun i g hg => ?_
      rwa [walk_dir c.wellFormed' copied, List.append_assoc]
  | @share ns rest hx =>
      refine c.walk_link_path (.inl hx) (c.get?_shared hns hx) ?_
      have top : t.get? ([] ++ (root ++ ns ++ [sharedName])) = some .dir := hx
      rwa [walk_down c.wellFormed top, List.nil_append, ← walk_dir c.wellFormed hx]
  | @file ns n bytes mode hx =>
      rw [walk_file c.wellFormed hx] at h
      cases h
      refine ⟨List.append_assoc .., (walk_file c.wellFormed' (c.get?_file hns hx)).trans ?_⟩
      rw [List.append_assoc]
  | @absolute ns n p rest hx hp =>
      obtain ⟨j, rfl, on⟩ := (walk_link c.wellFormed hx).mp h
      rw [hp, if_pos rfl] at on
      refine (walk_link c.wellFormed' (c.get?_absolute hns hx hp)).mpr ⟨j, rfl, ?_⟩
      rw [hp, if_pos rfl]
      exact c.walk_grow on
  | @out ns q' n p rest hx hp hq ho =>
      obtain ⟨j, rfl, on⟩ := (walk_link c.wellFormed hx).mp h
      rw [hp, if_neg Bool.false_ne_true, walk_eq_ok_iff] at on
      obtain ⟨q₁, hq₁, beyond⟩ :=
        leads_beyond c.wellFormed hd hp (c.wellFormed.noNul _ p hx) (Nat.le_of_succ_le hk) on
      cases hq.symm.trans hq₁
      exact c.walk_link_path (solid_of_canonical c.wellFormed hq) (c.get?_out hns hx hp hq ho)
        (walk_of_leads beyond)
  | @inside ns q' n p rest e hx hp hq hi _ ih =>
      obtain ⟨j, rfl, on⟩ := (walk_link c.wellFormed hx).mp h
      rw [hp, if_neg Bool.false_ne_true] at on
      refine (ih hns hd (Nat.le_of_succ_le hk) on).imp fun i g hg => ?_
      refine (walk_link c.wellFormed' (c.get?_inside hns hx hp hq hi)).mpr ⟨i, rfl, ?_⟩
      rwa [hp, if_neg Bool.false_ne_true]

/-- What becomes in a copy of a relative link, called `n`, that leads to `q`. -/
structure LinkKept (t : FileTree) (root dest : Place) (t' : FileTree) (ns : Place) (n : String)
    (q : Place) : Prop where
  /-- A link that leads out of the source leads to the same place. -/
  outside : ¬root <+: q → t'.canonical (dest ++ ns ++ [n]).path = .ok q
  hasWay : ∃ e, Way t root ns [n] e
  /-- A way that stays in what is copied leads to the copy of where it led. -/
  stays : ∀ names, Way t root ns [n] (.stays names) →
    q = root ++ names ∧ t'.canonical (dest ++ ns ++ [n]).path = .ok (dest ++ names)
  /-- A way that leaves what is copied leads to the same place. -/
  jumps : Way t root ns [n] .jumps → t'.canonical (dest ++ ns ++ [n]).path = .ok q
  /-- So does one into a shared directory, for which the copy has one link more to follow. -/
  shares : Way t root ns [n] .shares →
    t.walk true (linkLimit - 1) (root ++ ns) [n] = .ok (.node q) →
      t'.canonical (dest ++ ns ++ [n]).path = .ok q

/-- A copy that means the same as its source, but for ways that leave what is copied. -/
structure MeansTheSame (t : FileTree) (root dest : Place) (t' : FileTree) : Prop where
  dirs : ∀ names, t'.get? (dest ++ names) = some .dir ↔
    sharedName ∉ names ∧ t.get? (root ++ names) = some .dir
  files : ∀ names bytes mode, t'.get? (dest ++ names) = some (.file bytes mode) ↔
    sharedName ∉ names.dropLast ∧ t.get? (root ++ names) = some (.file bytes mode)
  shared : ∀ ns, sharedName ∉ ns → t.get? (root ++ ns ++ [sharedName]) = some .dir →
    t'.get? (dest ++ ns ++ [sharedName]) = some (.link (root ++ ns ++ [sharedName]).path) ∧
      t'.canonical (dest ++ ns ++ [sharedName]).path = .ok (root ++ ns ++ [sharedName])
  links : ∀ ns n p q, sharedName ∉ ns → t.get? (root ++ ns ++ [n]) = some (.link p) →
    p.isAbsolute = false → t.canonical (root ++ ns ++ [n]).path = .ok q →
      LinkKept t root dest t' ns n q

namespace Copying

variable (c : Copying t root dest t')

include c

/-- What stands in the copy stands for an entry of the source tree outside of shared directories. -/
theorem entry_of_copy (h : t'.get? (dest ++ ns ++ [n]) ≠ none) :
    sharedName ∉ ns ∧ ∃ x, t.get? (root ++ ns ++ [n]) = some x := by
  obtain ⟨y, hy⟩ := Option.ne_none_iff_exists'.mp h
  rw [List.append_assoc, c.copied.below _ (by simp)] at hy
  obtain ⟨x, hx, copied⟩ := Option.bind_eq_some_iff.mp hy
  exact ⟨notMem_of_copiedNode? copied, x, by rwa [List.append_assoc]⟩

theorem dirs_iff (hroot : t.get? root = some .dir) (names : Place) :
    t'.get? (dest ++ names) = some .dir ↔
      sharedName ∉ names ∧ t.get? (root ++ names) = some .dir := by
  obtain rfl | ⟨ns, n, rfl⟩ := names.eq_nil_or_concat'
  · simp [c.copied.top, hroot]
  rw [← List.append_assoc, ← List.append_assoc, List.mem_append, not_or, List.mem_singleton]
  constructor
  · intro h
    obtain ⟨apart, x, hx⟩ := c.entry_of_copy (h ▸ Option.some_ne_none _)
    cases x with
    | dir =>
        refine ⟨⟨apart, ?_⟩, hx⟩
        rintro rfl
        rw [c.get?_shared apart hx] at h
        cases h
    | file =>
        rw [c.get?_file apart hx] at h
        cases h
    | link =>
        rw [c.get?_link apart hx] at h
        cases h
  · rintro ⟨⟨apart, other⟩, h⟩
    exact c.get?_dir apart (Ne.symm other) h

theorem files_iff (hroot : t.get? root = some .dir) (names : Place) (bytes : ByteArray) (mode : Nat) :
    t'.get? (dest ++ names) = some (.file bytes mode) ↔
      sharedName ∉ names.dropLast ∧ t.get? (root ++ names) = some (.file bytes mode) := by
  obtain rfl | ⟨ns, n, rfl⟩ := names.eq_nil_or_concat'
  · simp [c.copied.top, hroot]
  rw [← List.append_assoc, ← List.append_assoc, List.dropLast_concat]
  constructor
  · intro h
    obtain ⟨apart, x, hx⟩ := c.entry_of_copy (h ▸ Option.some_ne_none _)
    refine ⟨apart, ?_⟩
    cases x with
    | dir =>
        have copied : t'.get? (dest ++ ns ++ [n]) = some .dir ∨
            ∃ p, t'.get? (dest ++ ns ++ [n]) = some (.link p) := by
          by_cases shared : n = sharedName
          · subst shared
            exact .inr ⟨_, c.get?_shared apart hx⟩
          · exact .inl (c.get?_dir apart shared hx)
        obtain copied | ⟨p, copied⟩ := copied <;> cases copied.symm.trans h
    | file =>
        rw [c.get?_file apart hx] at h
        rw [hx, h]
    | link =>
        rw [c.get?_link apart hx] at h
        cases h
  · rintro ⟨apart, h⟩
    exact c.get?_file apart h

/-- A shared directory is reached from the copy. -/
theorem canonical_shared (hns : sharedName ∉ ns)
    (hx : t.get? (root ++ ns ++ [sharedName]) = some .dir) :
    t'.canonical (dest ++ ns ++ [sharedName]).path = .ok (root ++ ns ++ [sharedName]) := by
  have entry := c.get?_shared hns hx
  refine (canonical_entry c.wellFormed' (entry ▸ Option.some_ne_none _)).mpr ?_
  refine c.walk_link_path (.inl hx) entry (walk_of_leads ?_)
  rw [List.append_nil]
  exact leads_to c.wellFormed (.inl hx)

theorem linkKept {p : Path} (hns : sharedName ∉ ns)
    (hx : t.get? (root ++ ns ++ [n]) = some (.link p)) (hp : p.isAbsolute = false)
    (hq : t.canonical (root ++ ns ++ [n]).path = .ok q) : LinkKept t root dest t' ns n q := by
  have hd : t.get? (root ++ ns) = some .dir := c.wellFormed.above _ n (hx ▸ Option.some_ne_none _)
  have some' : t'.get? (dest ++ ns ++ [n]) ≠ none := c.get?_link hns hx ▸ Option.some_ne_none _
  have h := (canonical_entry c.wellFormed (hx ▸ Option.some_ne_none _)).mp hq
  refine ⟨fun ho => ?_, ?_, fun names way => ?_, fun way => ?_, fun way enough => ?_⟩
  · obtain ⟨j, limit, on⟩ := (walk_link c.wellFormed hx).mp h
    rw [hp, if_neg Bool.false_ne_true, List.append_nil, walk_eq_ok_iff] at on
    have leads := canonical_join c.wellFormed hd hp (c.wellFormed.noNul _ p hx)
      (on.mono (limit ▸ Nat.le_succ j))
    have carried := (Way.out [] hx hp leads ho).carries c hns hd (Nat.le_refl _) h
    exact (canonical_entry c.wellFormed' some').mpr carried
  · exact exists_way c.wellFormed (leads_of_walk h) (Nat.le_refl _) hd rfl rfl
  · have carried := way.carries c hns hd (Nat.le_refl _) h
    exact ⟨carried.1, (canonical_entry c.wellFormed' some').mpr carried.2⟩
  · exact (canonical_entry c.wellFormed' some').mpr (way.carries c hns hd (Nat.le_refl _) h)
  · have carried := way.carries c hns hd (Nat.sub_le _ 1) enough
    exact (canonical_entry c.wellFormed' some').mpr carried

end Copying

/-- For every well-formed tree and every free place outside of a directory, the copy of the directory is
made and means the same as the directory, but for the links whose ways leave what is copied. -/
theorem copy_means_the_same {source : Path} (ht : t.WellFormed) (hd : t.Free dest)
    (hr : t.canonical source = .ok root) (hroot : t.get? root = some .dir) (ho : ¬root <+: dest) :
    ∃ t', copy t source dest = .ok t' ∧ MeansTheSame t root dest t' := by
  obtain ⟨t', made, copied⟩ := copy_of_canonical ht hd hr (takesIn_of_outside ho)
  have c : Copying t root dest t' :=
    ⟨ht, copied.wellFormed ht hd, copied, copied.extends ht hd⟩
  exact ⟨t', made, c.dirs_iff hroot, c.files_iff hroot,
    fun ns hns hx => ⟨c.get?_shared hns hx, c.canonical_shared hns hx⟩,
    fun ns n p q hns hx hp hq => c.linkKept hns hx hp hq⟩

end

/-- A workspace with a package that is found among the dependencies, as a link to its source. -/
def workspace : FileTree where
  nodes := .ofList [(["app"], .dir), (["app", "packages"], .dir),
    (["app", "packages", "lib.ts"], .file "export const a = 1;\n".toUTF8 0o644),
    (["app", "node_modules"], .dir),
    (["app", "node_modules", "lib.ts"], .link ⟨"../packages/lib.ts"⟩),
    (["app", "lib.ts"], .link ⟨"node_modules/lib.ts"⟩),
    (["app", "main.ts"], .link ⟨"./packages/lib.ts"⟩)]

theorem wellFormed_workspace : workspace.WellFormed := wellFormed_of_fits rfl (by decide)

theorem free_workspace : workspace.Free ["copy"] := ⟨[], "copy", rfl, by decide, rfl, by decide⟩

theorem canonical_workspace : workspace.canonical ⟨"/app"⟩ = .ok ["app"] := by decide +kernel

theorem workspace_means_the_same : workspace.WellFormed ∧ workspace.Free ["copy"] ∧
    workspace.canonical ⟨"/app"⟩ = .ok ["app"] ∧ workspace.get? ["app"] = some .dir ∧
      ¬["app"] <+: ["copy"] ∧
      ∃ t', copy workspace ⟨"/app"⟩ ["copy"] = .ok t' ∧ MeansTheSame workspace ["app"] ["copy"] t' :=
  ⟨wellFormed_workspace, free_workspace, canonical_workspace, rfl, by decide,
    copy_means_the_same wellFormed_workspace free_workspace canonical_workspace rfl (by decide)⟩

/-- What a copy does whose links go by their destinations alone: to the copy of the destination if that
is copied, and to the destination itself if it is not. -/
def GoesByDestination (t : FileTree) (root dest : Place) (t' : FileTree) : Prop :=
  ∀ ns n p q, sharedName ∉ ns → t.get? (root ++ ns ++ [n]) = some (.link p) →
    p.isAbsolute = false → t.canonical (root ++ ns ++ [n]).path = .ok q →
      (∀ names, q = root ++ names → sharedName ∉ names →
        t'.canonical (dest ++ ns ++ [n]).path = .ok (dest ++ names)) ∧
      ((∀ names, q = root ++ names → sharedName ∈ names) →
        t'.canonical (dest ++ ns ++ [n]).path = .ok q)

/-- Through the dependencies, which are shared, the copy of a link leads back to the package of the
source, although the copy has that package too. -/
theorem workspace_leads_back : workspace.WellFormed ∧ workspace.Free ["copy"] ∧
    workspace.canonical ⟨"/app"⟩ = .ok ["app"] ∧
      ∃ t', copy workspace ⟨"/app"⟩ ["copy"] = .ok t' ∧
        ¬GoesByDestination workspace ["app"] ["copy"] t' := by
  have led : (copy workspace ⟨"/app"⟩ ["copy"]).toOption.all fun t' =>
      t'.canonical (Place.path ["copy", "lib.ts"]) = .ok ["app", "packages", "lib.ts"] := by
    decide +kernel
  obtain ⟨t', made, -⟩ :=
    copy_of_canonical wellFormed_workspace free_workspace canonical_workspace (by decide)
  refine ⟨wellFormed_workspace, free_workspace, canonical_workspace, t', made, fun goes => ?_⟩
  simp only [made, Except.toOption, Option.all_some, decide_eq_true_eq] at led
  have own := (goes [] "lib.ts" ⟨"node_modules/lib.ts"⟩ ["app", "packages", "lib.ts"] (by decide)
    (by decide) (by decide) (by decide +kernel)).1 ["packages", "lib.ts"] rfl (by decide)
  exact absurd (led.symm.trans own) (by decide)

end Batch
end TestRepair
