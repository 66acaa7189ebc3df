import TestRepair.Proofs.Batch.Leaving
import TestRepair.Proofs.Batch.Moves
import TestRepair.Proofs.Trial.Reach

/-!
How well the trials of a batch are kept apart. What a trial changes lies in its own copy, unless a path
through which it writes leads out of the copy. Directories of installed dependencies, and what relative
links out of a work directory lead to, are shared by design, so a trial that finds a source there
changes it for everybody. The other ways out are told apart from these: absolute links, links and
imports that go up from the top of a copy. The copies of the other trials show nothing of what a trial
has changed, unless they are left in the same ways.
-/

namespace TestRepair
namespace Batch

open FileTree
open Place (Proper Below)

variable {σ : Type}

namespace Plan

variable (b : Plan σ)

/-- The place for the next copy is free, in a directory that was there from the beginning, and not in a
work directory. -/
def Room (c : Course σ) : Prop :=
  c.pending ≠ [] →
    (∃ d n, b.dest c.members.length = d ++ [n] ∧ Proper n ∧ b.world.tree.get? d = some .dir ∧
      c.world.tree.get? (d ++ [n]) = none) ∧
    ∀ r ∈ b.requests, ∀ root, b.world.tree.canonical r.workDir = .ok root →
      ¬root <+: b.dest c.members.length

/-- Whenever one of the moves makes a copy, there is room for it. -/
def Roomy (moves : List Move) : Prop :=
  ∀ earlier, earlier ++ [.launch] <+: moves → b.Room (b.after earlier)

/-- The trial with a number got a copy of the directory at `root` when the tree was `t`. -/
def MadeOf (moves : List Move) (i : Nat) (t : FileTree) (root : Place) : Prop :=
  ∃ before r rs, before ++ [.launch] <+: moves ∧ (b.after before).members.length = i ∧
    (b.after before).pending = r :: rs ∧ (b.after before).world.tree = t ∧
    t.canonical r.workDir = .ok root

/-- A path leads out of the copy at `d`, which is that of the trial with a number, through a link that
stands for what the copies share by design. -/
inductive LeavesByDesign (moves : List Move) (i : Nat) (d : Place) (p : Path) : Prop
  | intro {names gate root : Place} {t : FileTree} (hp : p = (d ++ names).path)
      (leaves : Leaves (b.after moves).world.tree d [] names (.link gate))
      (made : b.MadeOf moves i t root) (shared : Shared t root gate)

/-- A path leads out of the copy at `d`, which is that of the trial with a number, through a link that was
absolute before, or through one that goes up from the top. -/
inductive Strays (moves : List Move) (i : Nat) (d : Place) (p : Path) : Prop
  | absolute {names gate root : Place} {t : FileTree} {target : Path} (hp : p = (d ++ names).path)
      (leaves : Leaves (b.after moves).world.tree d [] names (.link gate))
      (made : b.MadeOf moves i t root) (kept : t.get? (root ++ gate) = some (.link target))
      (absolute : target.isAbsolute = true)
  | climbs {names : Place} (hp : p = (d ++ names).path)
      (leaves : Leaves (b.after moves).world.tree d [] names .top)

/-- The trial with a number, which takes the next step, may write through a path that leads to a place
outside of its copy. -/
structure Writes (earlier : List Move) (i : Nat) (m : Member) (p : Path) (q : Place) : Prop where
  member : (b.after earlier).members[i]? = some m
  aims : Trial.Aims (b.after earlier).world.tree m.copy m.progress.script p
  leads : (b.after (earlier ++ [.step i])).world.tree.canonical p = .ok q
  out : ¬m.copy <+: q

/-- How the trial with a number, which takes the next step, gets out of its copy to a place. -/
inductive Escapes (earlier : List Move) (i : Nat) (q : Place) : Prop
  | byDesign {m : Member} {p : Path} (writes : b.Writes earlier i m p q)
      (leaves : b.LeavesByDesign (earlier ++ [.step i]) i m.copy p)
  | strays {m : Member} {p : Path} (writes : b.Writes earlier i m p q)
      (strays : b.Strays (earlier ++ [.step i]) i m.copy p)
  /-- The path of a module that its script imports goes up from the top of the copy. -/
  | imports {m : Member} {p : Path} (writes : b.Writes earlier i m p q)
      (imports : Trial.Imports (b.after earlier).world.tree m.copy m.progress.script p)
      (apart : ¬Below m.copy p)

/-- What the moves of a batch leave untouched. -/
structure Isolates (moves : List Move) : Prop where
  /-- No copy lies where something was. -/
  apart : ∀ m ∈ (b.after moves).members, ∀ q, b.world.tree.get? q ≠ none → ¬m.copy <+: q
  /-- Nothing in a work directory lies in a copy. -/
  sources : ∀ r ∈ b.requests, ∀ root, b.world.tree.canonical r.workDir = .ok root →
    ∀ q, root <+: q → ∀ m ∈ (b.after moves).members, ¬m.copy <+: q
  /-- Outside of the copies nothing changes but the files to which a trial gets out. -/
  outside : ∀ q, (∀ m ∈ (b.after moves).members, ¬m.copy <+: q) →
    (b.after moves).world.tree.get? q = b.world.tree.get? q ∨
    Rewritten b.world.tree (b.after moves).world.tree q ∧
      ∃ earlier i, earlier ++ [.step i] <+: moves ∧ b.Escapes earlier i q
  /-- What a trial changes is seen through the copy of another one only where a path leads out of that
  copy, or where the trial gets out of its own. -/
  unseen : ∀ earlier i, earlier ++ [.step i] <+: moves → ∀ j m, j ≠ i →
    (b.after earlier).members[j]? = some m → ∀ p q, Below m.copy p →
    (b.after (earlier ++ [.step i])).world.tree.canonical p = .ok q →
    (b.after (earlier ++ [.step i])).world.tree.get? q ≠ (b.after earlier).world.tree.get? q →
    b.LeavesByDesign (earlier ++ [.step i]) j m.copy p ∨
      b.Strays (earlier ++ [.step i]) j m.copy p ∨ b.Escapes earlier i q

/-- What holds at every moment of a batch. -/
structure Sound (c : Course σ) : Prop where
  wellFormed : c.world.tree.WellFormed
  grows : Extends b.world.tree c.world.tree
  placed : ∀ m ∈ c.members, Trial.Placed m.setup m.copy
  stands : ∀ m ∈ c.members, c.world.tree.get? m.copy = some .dir
  new : ∀ m ∈ c.members, b.world.tree.get? m.copy = none
  outside : ∀ m ∈ c.members, ∀ r ∈ b.requests, ∀ root,
    b.world.tree.canonical r.workDir = .ok root → ¬root <+: m.copy
  apart : (c.members.map (·.copy)).Pairwise fun d e => ¬d <+: e ∧ ¬e <+: d

variable {b : Plan σ}

theorem Roomy.of_prefix {moves more : List Move} (h : b.Roomy more) (hp : moves <+: more) :
    b.Roomy moves :=
  fun earlier he => h earlier (he.trans hp)

theorem Roomy.room {earlier : List Move} {m : Move} (h : b.Roomy (earlier ++ [m]))
    (hm : m = .launch) : b.Room (b.after earlier) :=
  h earlier (hm ▸ List.prefix_refl _)

theorem copies_set {ms : List Member} {i : Nat} {m : Member} (hm : ms[i]? = some m)
    (p : Trial.Progress) : (ms.set i { m with progress := p }).map (·.copy) = ms.map (·.copy) := by
  refine List.ext_getElem? fun j => ?_
  rw [List.getElem?_map, List.getElem?_map, List.getElem?_set]
  by_cases hij : i = j
  · subst hij
    rw [if_pos rfl, if_pos (List.getElem?_eq_some_iff.mp hm).1, hm]
    rfl
  · rw [if_neg hij]

theorem Sound.begun (ht : b.world.tree.WellFormed) : b.Sound b.begun where
  wellFormed := ht
  grows := .refl _
  placed _ hm := (nomatch hm)
  stands _ hm := (nomatch hm)
  new _ hm := (nomatch hm)
  outside _ hm := (nomatch hm)
  apart := .nil

/-- Where there is room for a copy, its place is free. -/
theorem Sound.free {c : Course σ} (hs : b.Sound c) (room : b.Room c) (hp : c.pending ≠ []) :
    c.world.tree.Free (b.dest c.members.length) := by
  obtain ⟨⟨d, n, hdest, hn, hd, hfree⟩, -⟩ := room hp
  exact ⟨d, n, hdest, hn, hs.grows.dir d hd, hdest ▸ hfree⟩

/-- A new copy lies apart from the others. -/
theorem Sound.apart_concat {c : Course σ} (hs : b.Sound c) (ht : b.world.tree.WellFormed)
    (room : b.Room c) (hp : c.pending ≠ []) :
    (c.members.map (·.copy) ++ [b.dest c.members.length]).Pairwise fun d e =>
      ¬d <+: e ∧ ¬e <+: d := by
  obtain ⟨⟨d, n, hdest, -, hd, hfree⟩, -⟩ := room hp
  rw [hdest]
  refine List.pairwise_append.mpr ⟨hs.apart, List.pairwise_singleton _ _, ?_⟩
  intro e he e' he'
  obtain ⟨m, hm, rfl⟩ := List.mem_map.mp he
  cases List.mem_singleton.mp he'
  have hstands := hs.stands m hm
  constructor
  · intro hp
    obtain heq | hp := List.prefix_concat_iff.mp hp
    · rw [heq, hfree] at hstands
      cases hstands
    · exact ht.not_prefix (hs.new m hm) (hd ▸ Option.some_ne_none _) hp
  · exact hs.wellFormed.not_prefix hfree (hstands ▸ Option.some_ne_none _)

/-- A place lies in one copy at most. -/
theorem Sound.same_copy {c : Course σ} (hs : b.Sound c) {i j : Nat} {x y : Member}
    (hx : c.members[i]? = some x) (hy : c.members[j]? = some y) {q : Place} (hxq : x.copy <+: q)
    (hyq : y.copy <+: q) : i = j := by
  obtain ⟨hi, rfl⟩ := List.getElem?_eq_some_iff.mp hx
  obtain ⟨hj, rfl⟩ := List.getElem?_eq_some_iff.mp hy
  have apart := List.pairwise_iff_getElem.mp (List.pairwise_map.mp hs.apart)
  have hcomparable := List.prefix_or_prefix_of_prefix hxq hyq
  rcases Nat.lt_trichotomy i j with hlt | heq | hgt
  · obtain ⟨hij, hji⟩ := apart i j hi hj hlt
    exact absurd hcomparable (not_or.mpr ⟨hij, hji⟩)
  · exact heq
  · obtain ⟨hji, hij⟩ := apart j i hj hi hgt
    exact absurd hcomparable (not_or.mpr ⟨hij, hji⟩)

variable (hr : b.settings.runner = {}) (hh : b.settings.healing = {})
  (hq : ∀ i, Trial.Quiet (b.env i)) (ht : b.world.tree.WellFormed)

include hr hh hq ht

omit hq in
/-- Making a copy keeps the trials sound. -/
theorem Sound.launched {c : Course σ} (hs : b.Sound c) (room : b.Room c) {r : TrialRequest}
    {rs : List TrialRequest} (hp : c.pending = r :: rs) {t : FileTree}
    (hc : copy c.world.tree r.workDir (b.dest c.members.length) = .ok t) :
    b.Sound { c with
      pending := rs
      members := c.members ++ [.start b.settings b.table r (b.dest c.members.length)]
      world := { c.world with tree := t } } := by
  have more : c.pending ≠ [] := hp ▸ List.cons_ne_nil r rs
  have free := hs.free room more
  obtain ⟨root, -, copied⟩ := copy_eq_ok hs.wellFormed free hc
  have grows := copied.extends hs.wellFormed free
  refine ⟨copied.wellFormed hs.wellFormed free, hs.grows.trans grows, ?_, ?_, ?_, ?_, ?_⟩
  · exact List.forall_mem_append.mpr
      ⟨hs.placed, List.forall_mem_singleton.mpr ⟨hr, hh, rfl⟩⟩
  · exact List.forall_mem_append.mpr
      ⟨fun m hm => grows.dir _ (hs.stands m hm), List.forall_mem_singleton.mpr copied.top⟩
  · refine List.forall_mem_append.mpr ⟨hs.new, List.forall_mem_singleton.mpr ?_⟩
    by_contra hne
    exact hs.grows.get?_ne_none hne free.get?_eq_none
  · exact List.forall_mem_append.mpr
      ⟨hs.outside, List.forall_mem_singleton.mpr (room more).2⟩
  · rw [List.map_append]
    exact hs.apart_concat ht room more

omit hr hh ht in
/-- A step of a trial keeps the trials sound. -/
theorem Sound.stepped {c : Course σ} (hs : b.Sound c) {i : Nat} {m : Member} {p : Trial.Progress}
    {w : World σ} (hm : c.members[i]? = some m)
    (hstep : Trial.step (b.env i) m.setup m.progress c.world = (p, w)) :
    b.Sound { c with members := c.members.set i { m with progress := p }, world := w } := by
  have hmem : m ∈ c.members := List.mem_of_getElem? hm
  have reaches := (hs.placed m hmem).reaches_step (hq i) m.progress hs.wellFormed
    (hs.stands m hmem)
  rw [hstep] at reaches
  have members : ∀ x ∈ c.members.set i { m with progress := p }, ∃ y ∈ c.members,
      y.setup = x.setup ∧ y.copy = x.copy := by
    intro x hx
    rcases List.mem_or_eq_of_mem_set hx with hx | rfl
    · exact ⟨x, hx, rfl, rfl⟩
    · exact ⟨m, hmem, rfl, rfl⟩
  refine ⟨reaches.wellFormed, hs.grows.trans reaches.grows, ?_, ?_, ?_, ?_, ?_⟩
  · intro x hx
    obtain ⟨y, hy, hsetup, hcopy⟩ := members x hx
    exact hsetup ▸ hcopy ▸ hs.placed y hy
  · intro x hx
    obtain ⟨y, hy, -, hcopy⟩ := members x hx
    exact hcopy ▸ reaches.grows.dir _ (hs.stands y hy)
  · intro x hx
    obtain ⟨y, hy, -, hcopy⟩ := members x hx
    exact hcopy ▸ hs.new y hy
  · intro x hx
    obtain ⟨y, hy, -, hcopy⟩ := members x hx
    exact hcopy ▸ hs.outside y hy
  · rw [copies_set hm]
    exact hs.apart

theorem Sound.of_plays {c c' : Course σ} {m : Move} (hs : b.Sound c) (h : b.Plays c m c')
    (room : m = .launch → b.Room c) : b.Sound c' := by
  cases h with
  | ended | nothingPending | nobody => exact hs
  | refused => exact { hs with }
  | launched _ hp hc => exact hs.launched hr hh ht (room rfl) hp hc
  | stepped _ hm hstep => exact hs.stepped hq hm hstep

theorem sound_after {moves : List Move} (room : b.Roomy moves) : b.Sound (b.after moves) := by
  induction moves using List.reverseRecOn with
  | nil => exact .begun ht
  | append_singleton earlier m ih =>
      have sound := ih (room.of_prefix (List.prefix_append _ _))
      exact sound.of_plays hr hh hq ht (b.plays_after earlier m) room.room

omit hr hh hq ht in
theorem Plays.copies_prefix {c c' : Course σ} {m : Move} (h : b.Plays c m c') :
    c.members.map (·.copy) <+: c'.members.map (·.copy) := by
  cases h with
  | ended | nothingPending | nobody | refused => exact List.prefix_refl _
  | launched =>
      rw [List.map_append]
      exact List.prefix_append _ _
  | stepped _ hm => exact (copies_set hm _).symm ▸ List.prefix_refl _

omit hr hh hq ht in
/-- A trial keeps its number and its copy. -/
theorem Plays.member_copy {c c' : Course σ} {move : Move} (h : b.Plays c move c') {i : Nat}
    {m : Member} (hm : c.members[i]? = some m) :
    ∃ m', c'.members[i]? = some m' ∧ m'.copy = m.copy := by
  obtain ⟨more, hmore⟩ := h.copies_prefix
  have copy : (c'.members.map (·.copy))[i]? = some m.copy := by
    rw [← hmore, List.getElem?_append_left, List.getElem?_map, hm]
    · rfl
    · simpa using (List.getElem?_eq_some_iff.mp hm).1
  rw [List.getElem?_map] at copy
  exact Option.map_eq_some_iff.mp copy

omit hr hh hq ht in
/-- A trial that has begun when a move has been made was there before, or the move began it. -/
theorem Plays.member_cases {c c' : Course σ} {move : Move} (h : b.Plays c move c') {i : Nat}
    {m : Member} (hm : c'.members[i]? = some m) :
    (∃ x, c.members[i]? = some x ∧ x.copy = m.copy) ∨
    ∃ r rs, move = .launch ∧ i = c.members.length ∧ m.copy = b.dest c.members.length ∧
      c.pending = r :: rs ∧
      copy c.world.tree r.workDir (b.dest c.members.length) = .ok c'.world.tree := by
  cases h with
  | ended | nothingPending | nobody | refused => exact .inl ⟨m, hm, rfl⟩
  | @launched r rs t _ hp hc =>
      obtain hi | hi := Nat.lt_or_ge i c.members.length
      · rw [List.getElem?_append_left hi] at hm
        exact .inl ⟨m, hm, rfl⟩
      · obtain ⟨hlen, rfl⟩ := List.getElem?_eq_some_iff.mp hm
        rw [List.length_append, List.length_singleton] at hlen
        obtain rfl : i = c.members.length := by omega
        rw [List.getElem_concat_length rfl]
        exact .inr ⟨r, rs, rfl, rfl, rfl, hp, hc⟩
  | @stepped k x p w _ hx =>
      have copies := congrArg (·[i]?) (copies_set hx p)
      simp only [List.getElem?_map, hm, Option.map_some] at copies
      obtain ⟨y, hy, hcopy⟩ := Option.map_eq_some_iff.mp copies.symm
      exact .inl ⟨y, hy, hcopy⟩

omit hr hh hq ht in
/-- A launch changes nothing outside of the new copy. -/
theorem Sound.changed_launch {c c' : Course σ} (hs : b.Sound c) (h : b.Plays c .launch c')
    (room : b.Room c) {q : Place} (hne : c'.world.tree.get? q ≠ c.world.tree.get? q) :
    c.pending ≠ [] ∧ b.dest c.members.length <+: q ∧
      ∃ m ∈ c'.members, m.copy = b.dest c.members.length := by
  cases h with
  | ended | nothingPending | refused => exact absurd rfl hne
  | @launched r rs t _ hp hc =>
      have more : c.pending ≠ [] := hp ▸ List.cons_ne_nil r rs
      obtain ⟨root, -, copied⟩ := copy_eq_ok hs.wellFormed (hs.free room more) hc
      refine ⟨more, ?_, _, List.mem_append_right _ (List.mem_singleton.mpr rfl), rfl⟩
      by_contra hp
      exact hne (copied.outside q hp)

omit hr hh ht in
/-- A step of a trial changes what lies in its copy, or rewrites a file that it reaches from there. -/
theorem Sound.changed_step {c c' : Course σ} {i : Nat} (hs : b.Sound c)
    (h : b.Plays c (.step i) c') {q : Place}
    (hne : c'.world.tree.get? q ≠ c.world.tree.get? q) :
    ∃ m, c.members[i]? = some m ∧ (m.copy <+: q ∨ Rewritten c.world.tree c'.world.tree q ∧
      ∃ p, Trial.Aims c.world.tree m.copy m.progress.script p ∧
        c'.world.tree.canonical p = .ok q) := by
  cases h with
  | ended | nobody => exact absurd rfl hne
  | @stepped _ m p w _ hm hstep =>
      have hmem : m ∈ c.members := List.mem_of_getElem? hm
      have reaches := (hs.placed m hmem).reaches_step (hq i) m.progress hs.wellFormed
        (hs.stands m hmem)
      rw [hstep] at reaches
      refine ⟨m, hm, ?_⟩
      cases reaches.changed q hne with
      | made hq => exact .inl (hq ▸ List.prefix_append _ _)
      | written h hp hq => exact .inr ⟨h, _, hp, hq⟩

omit hr hh ht in
/-- A step of a trial makes no link. -/
theorem Sound.link_of_step {c c' : Course σ} {i : Nat} (hs : b.Sound c) (h : b.Plays c (.step i) c')
    {q : Place} {target : Path} (hl : c'.world.tree.get? q = some (.link target)) :
    c.world.tree.get? q = some (.link target) := by
  cases h with
  | ended | nobody => exact hl
  | @stepped _ m p w _ hm hstep =>
      have hmem : m ∈ c.members := List.mem_of_getElem? hm
      have reaches := (hs.placed m hmem).reaches_step (hq i) m.progress hs.wellFormed
        (hs.stands m hmem)
      rw [hstep] at reaches
      by_contra hold
      have hne : w.tree.get? q ≠ c.world.tree.get? q := fun same => hold (same ▸ hl)
      cases reaches.changed q hne with
      | made _ _ after => cases hl.symm.trans after
      | written h =>
          cases h with
          | file _ after | new _ after => cases hl.symm.trans after

omit hr hh in
/-- A move makes no link in the copies of the trials that have begun before it. -/
theorem Sound.link_of_play {c c' : Course σ} {move : Move} (hs : b.Sound c)
    (room : move = .launch → b.Room c) (h : b.Plays c move c') {i : Nat} {m : Member}
    (hm : c.members[i]? = some m) {names : Place} {target : Path}
    (hl : c'.world.tree.get? (m.copy ++ names) = some (.link target)) :
    c.world.tree.get? (m.copy ++ names) = some (.link target) := by
  cases move with
  | step => exact hs.link_of_step hq h hl
  | launch =>
      by_contra hold
      obtain ⟨more, hp, -⟩ := hs.changed_launch h (room rfl) fun same => hold (same ▸ hl)
      have apart := (List.pairwise_append.mp (hs.apart_concat ht (room rfl) more)).2.2 _
        (List.mem_map_of_mem (List.mem_of_getElem? hm)) _ (List.mem_singleton_self _)
      exact not_or.mpr apart (List.prefix_or_prefix_of_prefix (List.prefix_append _ names) hp)

omit hr hh hq ht in
theorem MadeOf.of_prefix {moves more : List Move} {i : Nat} {t : FileTree} {root : Place}
    (h : b.MadeOf moves i t root) (hp : moves <+: more) : b.MadeOf more i t root := by
  obtain ⟨before, r, rs, hbefore, made⟩ := h
  exact ⟨before, r, rs, hbefore.trans hp, made⟩

/-- The links in the copy of a trial are those of the copy that was made, at every moment. -/
theorem linksFrom_after {moves : List Move} (room : b.Roomy moves) {i : Nat} {m : Member}
    (hm : (b.after moves).members[i]? = some m) :
    ∃ t root, b.MadeOf moves i t root ∧ LinksFrom t root m.copy (b.after moves).world.tree := by
  induction moves using List.reverseRecOn generalizing m with
  | nil => cases hm
  | append_singleton earlier move ih =>
      have grows : earlier <+: earlier ++ [move] := List.prefix_append _ _
      have hroom := room.of_prefix grows
      have hs := sound_after hr hh hq ht hroom
      have plays := b.plays_after earlier move
      obtain ⟨x, hx, same⟩ | ⟨r, rs, rfl, rfl, same, hp, hcopy⟩ := plays.member_cases hm
      · obtain ⟨t, root, made, links⟩ := ih hroom hx
        rw [← same]
        exact ⟨t, root, made.of_prefix grows,
          links.of_no_new fun _ _ hl => hs.link_of_play hq ht room.room plays hx hl⟩
      · have free := hs.free (room.room rfl) (hp ▸ List.cons_ne_nil r rs)
        obtain ⟨root, hroot, copied⟩ := copy_eq_ok hs.wellFormed free hcopy
        exact ⟨_, root, ⟨earlier, r, rs, List.prefix_refl _, rfl, hp, rfl, hroot⟩,
          same ▸ copied.linksFrom⟩

/-- A path below a copy that leads to a place outside of it leaves the copy. -/
theorem leaves_of_below {moves : List Move} (room : b.Roomy moves) {i : Nat} {m : Member}
    (hm : (b.after moves).members[i]? = some m) {p : Path} {q : Place} (hp : Below m.copy p)
    (leads : (b.after moves).world.tree.canonical p = .ok q) (out : ¬m.copy <+: q) :
    b.LeavesByDesign moves i m.copy p ∨ b.Strays moves i m.copy p := by
  have hs := sound_after hr hh hq ht room
  obtain ⟨names, hnames, rfl⟩ := hp
  obtain ⟨gate | -, leaves⟩ := exists_leaves_of_canonical hs.wellFormed
    (hs.stands m (List.mem_of_getElem? hm)) hnames leads out
  · obtain ⟨t, root, made, links⟩ := linksFrom_after hr hh hq ht room hm
    obtain shared | ⟨target, kept, absolute⟩ := leaves.gate_cases links
    · exact .inl (.intro rfl leaves made shared)
    · exact .inr (.absolute rfl leaves made kept absolute)
  · exact .inr (.climbs rfl leaves)

/-- A trial that writes outside of its copy gets out of it. -/
theorem Writes.escapes {earlier : List Move} {i : Nat} (room : b.Roomy (earlier ++ [.step i]))
    {m : Member} {p : Path} {q : Place} (h : b.Writes earlier i m p q) : b.Escapes earlier i q := by
  have hs := sound_after hr hh hq ht (room.of_prefix (List.prefix_append _ _))
  have hcopy := hs.stands m (List.mem_of_getElem? h.member)
  have hnames := hs.wellFormed.names (hcopy ▸ Option.some_ne_none _)
  have plays := b.plays_after earlier (.step i)
  obtain ⟨m', hm', same⟩ := plays.member_copy h.member
  by_cases below : Below m.copy p
  · rw [← same] at below
    obtain leaves | strays :=
      leaves_of_below hr hh hq ht room hm' below h.leads (same ▸ h.out)
    · exact .byDesign h (same ▸ leaves)
    · exact .strays h (same ▸ strays)
  · obtain below' | imports := h.aims.below_or_imports hs.wellFormed hnames
    · exact absurd below' below
    · exact .imports h imports below

theorem outside_after {moves : List Move} (room : b.Roomy moves) {q : Place}
    (hout : ∀ m ∈ (b.after moves).members, ¬m.copy <+: q) :
    (b.after moves).world.tree.get? q = b.world.tree.get? q ∨
    Rewritten b.world.tree (b.after moves).world.tree q ∧
      ∃ earlier i, earlier ++ [.step i] <+: moves ∧ b.Escapes earlier i q := by
  induction moves using List.reverseRecOn with
  | nil => exact .inl rfl
  | append_singleton earlier m ih =>
      have hroom := room.of_prefix (List.prefix_append earlier [m])
      have hs := sound_after hr hh hq ht hroom
      have plays := b.plays_after earlier m
      have hout' : ∀ x ∈ (b.after earlier).members, ¬x.copy <+: q := by
        intro x hx
        obtain ⟨y, hy, hcopy⟩ :=
          List.mem_map.mp (plays.copies_prefix.subset (List.mem_map_of_mem hx))
        exact hcopy ▸ hout y hy
      have before := (ih hroom hout').imp_right fun ⟨h, e, i, he, hesc⟩ =>
        (⟨h, e, i, he.trans (List.prefix_append _ _), hesc⟩ :
          _ ∧ ∃ e i, e ++ [Move.step i] <+: earlier ++ [m] ∧ b.Escapes e i q)
      by_cases hne :
          (b.after (earlier ++ [m])).world.tree.get? q = (b.after earlier).world.tree.get? q
      · exact before.imp (hne.trans ·) fun ⟨h, he⟩ => ⟨h.congr hne, he⟩
      · cases m with
        | launch =>
            obtain ⟨-, hp, x, hx, hcopy⟩ := hs.changed_launch plays (room.room rfl) hne
            exact absurd (hcopy ▸ hp) (hout x hx)
        | step i =>
            obtain ⟨x, hx, hp | ⟨h, hreach⟩⟩ := hs.changed_step hq plays hne
            · exact absurd hp (hout' x (List.mem_of_getElem? hx))
            · obtain ⟨p, hp, hq⟩ := hreach
              have writes : b.Writes earlier i x p q :=
                ⟨hx, hp, hq, hout' x (List.mem_of_getElem? hx)⟩
              refine .inr ⟨?_, earlier, i, List.prefix_refl _, writes.escapes hr hh ‹_› ht room⟩
              exact before.elim (fun same => h.congr_left same) fun ⟨h', _⟩ => h'.trans h

/-- A batch with the default settings and a runner that changes no file keeps its trials apart, at
every moment and up to what links out of the copies and imports from outside make common. -/
theorem isolates (schedule : List Move) (room : b.Roomy (b.moves schedule)) :
    b.course schedule = b.after (b.moves schedule) ∧ b.Isolates (b.moves schedule) := by
  have sound := sound_after hr hh hq ht room
  refine ⟨b.course_eq_after schedule, ?_, ?_, fun q hout => outside_after hr hh hq ht room hout, ?_⟩
  · intro m hm q hn
    exact ht.not_prefix (sound.new m hm) hn
  · intro r hreq root hroot q hin m hm hp
    have stands := (solid_of_canonical ht hroot).get?_ne_none
    obtain hp' | hp' := List.prefix_or_prefix_of_prefix hp hin
    · exact ht.not_prefix (sound.new m hm) stands hp'
    · exact sound.outside m hm r hreq root hroot hp'
  · intro earlier i he j m hji hm p q below leads hne
    have hroom := room.of_prefix he
    have hs := sound_after hr hh hq ht (room.of_prefix ((List.prefix_append _ _).trans he))
    have plays := b.plays_after earlier (.step i)
    obtain ⟨m', hm', same⟩ := plays.member_copy hm
    obtain ⟨x, hx, hreach⟩ := hs.changed_step hq plays hne
    by_cases hp : x.copy <+: q
    · -- A place in the copy of the trial that takes the step lies in no other copy.
      have out : ¬m'.copy <+: q := fun hp' => hji (hs.same_copy hm hx (same ▸ hp') hp)
      rw [← same] at below ⊢
      exact (leaves_of_below hr hh hq ht hroom hm' below leads out).imp_right .inl
    · obtain hp' | ⟨-, p', aims, leads'⟩ := hreach
      · exact absurd hp' hp
      · have writes : b.Writes earlier i x p' q := ⟨hx, aims, leads', hp⟩
        exact .inr (.inr (writes.escapes hr hh hq ht hroom))

end Plan

/-- A project with a page among its dependencies that does not export its class. -/
def vendoredPage : FileTree where
  nodes := .ofList [(["app"], .dir), (["app", "node_modules"], .dir),
    (["app", "node_modules", "pages.ts"], .file "class LoginPage \x7b\x7d\n".toUTF8 0o644)]

/-- A project that has its pages from a library beside it. -/
def borrowedPage : FileTree where
  nodes := .ofList [(["app"], .dir), (["app", "pages"], .link ⟨"../library"⟩), (["library"], .dir),
    (["library", "pages.ts"], .file "class LoginPage \x7b\x7d\n".toUTF8 0o644)]

/-- A runner that misses the export of a class when it is called for the first time. -/
def missingOnce : Surroundings Bool where
  execute _ called t := (.ok { success := called, log := "LoginPage is not a constructor" }, true, t)
  consult _ called := (.silent, called)
  cancelled _ := false

/-- A script that imports the page from a directory, and one that does not, both in the same project. -/
def sharing (dir : String) (t : FileTree) : Plan Bool where
  env _ := missingOnce
  dest i := ["copy" ++ toString i]
  requests := [
    { script := "import \x7b LoginPage \x7d from '../" ++ dir ++ "/pages';\n", workDir := ⟨"/app"⟩ },
    { script := "", workDir := ⟨"/app"⟩ }]
  world := ⟨false, t⟩

/-- Both ways in which two copies of a project share a page by design. -/
def sharings : List (Plan Bool) := [sharing sharedName vendoredPage, sharing "pages" borrowedPage]

theorem defaults_sharings :
    ∀ b ∈ sharings, b.settings.runner = {} ∧ b.settings.healing = {} ∧ (∀ i, Trial.Quiet (b.env i)) ∧
      b.world.tree.WellFormed := by
  refine List.forall_mem_cons.mpr ⟨⟨rfl, rfl, fun _ _ _ _ => rfl, ?_⟩,
    List.forall_mem_singleton.mpr ⟨rfl, rfl, fun _ _ _ _ => rfl, ?_⟩⟩
  all_goals exact wellFormed_of_fits rfl (by decide)

theorem moves_sharings : ∀ b ∈ sharings, b.moves [] =
    [.launch, .launch] ++ List.replicate 15 (.step 0) ++ List.replicate 15 (.step 1) := by
  decide +kernel

theorem room_sharings : ∀ b ∈ sharings, ∀ earlier ∈ [[], [Move.launch]],
    b.Room (b.after earlier) := by
  have place : ∀ b ∈ sharings, ∀ earlier ∈ [[], [Move.launch]],
      ∃ n ∈ ["copy0", "copy1"], b.dest (b.after earlier).members.length = [n] ∧ Proper n ∧
        (b.after earlier).world.tree.get? [n] = none := by decide +kernel
  have work : ∀ b ∈ sharings, ∀ r ∈ b.requests, b.world.tree.canonical r.workDir = .ok ["app"] := by
    decide +kernel
  intro b hb earlier he _
  obtain ⟨n, hn, hdest, proper, hfree⟩ := place b hb earlier he
  refine ⟨⟨[], n, hdest, proper, rfl, hfree⟩, fun r hr root hroot hp => ?_⟩
  cases (work b hb r hr).symm.trans hroot
  have apart : ∀ n ∈ ["copy0", "copy1"], ¬["app"] <+: [n] := by decide
  exact apart n hn (hdest ▸ hp)

theorem roomy_sharings : ∀ b ∈ sharings, b.Roomy (b.moves []) := by
  intro b hb
  rw [moves_sharings b hb]
  rintro (_ | ⟨_, _ | ⟨_, earlier⟩⟩) h
  · exact room_sharings b hb [] List.mem_cons_self
  · obtain ⟨rfl, -⟩ := List.cons_prefix_cons.mp h
    exact room_sharings b hb [.launch] (List.mem_cons_of_mem _ List.mem_cons_self)
  · have hmem : Move.launch ∈ List.replicate 15 (.step 0) ++ List.replicate 15 (.step 1) := by
      refine (List.cons_prefix_cons.mp (List.cons_prefix_cons.mp h).2).2.subset ?_
      exact List.mem_append_right _ List.mem_cons_self
    simp at hmem

theorem vendored_isolates :
    let b := sharing sharedName vendoredPage
    b.settings.runner = {} ∧ b.settings.healing = {} ∧ (∀ i, Trial.Quiet (b.env i)) ∧
      b.world.tree.WellFormed ∧ b.Roomy (b.moves []) ∧
      b.course [] = b.after (b.moves []) ∧ b.Isolates (b.moves []) := by
  intro b
  have hb : b ∈ sharings := List.mem_cons_self
  obtain ⟨hr, hh, hq, ht⟩ := defaults_sharings b hb
  exact ⟨hr, hh, hq, ht, roomy_sharings b hb, Plan.isolates hr hh hq ht [] (roomy_sharings b hb)⟩

/-- The text of the page when the first trial has exported its class. -/
def exportedPage : String := "class LoginPage \x7b\x7d\nexport \x7b LoginPage \x7d;\n"

/-- A page among the dependencies is changed for the project and for the other trial, and one in the
library for the other trial. -/
theorem sharings_leak :
    (∀ b ∈ sharings, b.settings.runner = {} ∧ b.settings.healing = {} ∧
      (∀ i, Trial.Quiet (b.env i)) ∧ b.world.tree.WellFormed) ∧
    (∀ b ∈ sharings, b.Roomy (b.moves [])) ∧
    (¬∀ q, ["app"] <+: q → ((sharing sharedName vendoredPage).course []).world.tree.get? q =
      vendoredPage.get? q) ∧
    ((sharing sharedName vendoredPage).course []).world.tree.readText
      ⟨"/copy1/node_modules/pages.ts"⟩ = .ok exportedPage ∧
    ((sharing "pages" borrowedPage).course []).world.tree.readText ⟨"/copy1/pages/pages.ts"⟩ =
      .ok exportedPage := by
  have vendored : ((sharing sharedName vendoredPage).course []).world.tree.get?
        ["app", "node_modules", "pages.ts"] ≠
        vendoredPage.get? ["app", "node_modules", "pages.ts"] ∧
      ((sharing sharedName vendoredPage).course []).world.tree.readText
        ⟨"/copy1/node_modules/pages.ts"⟩ = .ok exportedPage := by
    decide +kernel
  have borrowed : ((sharing "pages" borrowedPage).course []).world.tree.readText
      ⟨"/copy1/pages/pages.ts"⟩ = .ok exportedPage := by
    decide +kernel
  refine ⟨defaults_sharings, roomy_sharings, fun same => ?_, vendored.2, borrowed⟩
  exact vendored.1 (same ["app", "node_modules", "pages.ts"] ⟨["node_modules", "pages.ts"], rfl⟩)

end Batch
end TestRepair
