import Mathlib.Tactic.FinCases
import TestRepair.Proofs.Batch.Copying
import TestRepair.Proofs.Batch.Moves
import TestRepair.Proofs.Script.Importing
import TestRepair.Proofs.Trial.Agreement

/-!
Every trial of a batch gives what it gives alone. The trials take their steps in any order, and at every
moment each of them has come as far as some number of its own steps would have brought it on a fresh
copy of its work directory. That needs projects without links, imports and locator directories that no
shared directory is part of, a runner and an assistant that see nothing but the copy, and places for
the copies of which nobody knows and which lie in no project.
-/

namespace TestRepair

open FileTree
open Place (Proper)

namespace Batch

/-- The names at which there are links below a place. -/
def linksBelow (t : FileTree) (d : Place) (names : Place) : Prop := t.Linked (d ++ names)

/-- A project without links that has no shared directory below a locator directory. -/
structure SelfContained (t : FileTree) (root : Place) : Prop where
  linkless : ∀ names, ¬t.Linked (root ++ names)
  unshared : ∀ l ∈ Patch.locatorPlaces, ∀ names,
    t.get? (root ++ (l ++ names ++ [sharedName])) ≠ some .dir

section

variable {t t' : FileTree} {root dest names : Place}

/-- A link in the copy of a project without links stands for a shared directory. -/
theorem Copied.shared_of_link (h : Copied t root dest t') (hp : ∀ names, ¬t.Linked (root ++ names))
    (hl : linksBelow t' dest names) :
    ∃ first, names = first ++ [sharedName] ∧ t.get? (root ++ names) = some .dir := by
  obtain ⟨p, hp'⟩ := hl
  have hne : names ≠ [] := by
    rintro rfl
    rw [List.append_nil, h.top] at hp'
    cases hp'
  rw [h.below names hne] at hp'
  obtain ⟨old, hold, hnode⟩ := Option.bind_eq_some_iff.mp hp'
  obtain rfl | ⟨_, rfl, -⟩ | ⟨rfl, hlast, -⟩ := copiedNode?_link hnode
  · exact absurd ⟨_, hold⟩ (hp names)
  · exact absurd ⟨_, hold⟩ (hp names)
  · obtain ⟨first, rfl⟩ := List.getLast?_eq_some_iff.mp hlast
    exact ⟨first, rfl, hold⟩

theorem Copied.unlinked (h : Copied t root dest t') (hp : SelfContained t root) :
    Patch.Unlinked (linksBelow t' dest) := by
  intro l hl
  refine ⟨(Patch.proper_of_mem_locatorPlaces hl).2, fun more first hf hlink => ?_⟩
  obtain ⟨rest, rfl, hdir⟩ := h.shared_of_link hp.linkless hlink
  obtain hpre | ⟨between, heq⟩ := List.prefix_or_prefix_of_prefix hf (List.prefix_append l more)
  · have hshared : ∀ l ∈ Patch.locatorPlaces, sharedName ∉ l := by decide
    exact hshared l hl (hpre.subset (by simp))
  · cases between using List.reverseRecOn with
    | nil =>
        have hshared : ∀ l ∈ Patch.locatorPlaces, sharedName ∉ l := by decide
        rw [List.append_nil] at heq
        exact hshared l hl (heq ▸ by simp)
    | append_singleton between n =>
        rw [← List.append_assoc] at heq
        obtain ⟨hrest, -⟩ := List.append_inj' heq rfl
        exact hp.unshared l hl between (hrest ▸ hdir)

/-- Names among which there is no shared directory lead past no link. -/
theorem Copied.descent (h : Copied t root dest t') (hp : ∀ names, ¬t.Linked (root ++ names))
    (hn : ∀ n ∈ names, Proper n) (hs : sharedName ∉ names) : Descent (linksBelow t' dest) names := by
  refine .of_proper hn fun first hf hlink => ?_
  obtain ⟨rest, rfl, -⟩ := h.shared_of_link hp hlink
  exact hs (hf.subset (by simp))

theorem Copied.home (h : Copied t root dest t') (ht : t'.WellFormed) :
    Home (linksBelow t' dest) dest t' :=
  ⟨ht, h.top, fun _ hl => hl⟩

theorem copiedNode?_congr {node : Node} (h : ∀ p, node ≠ .link p) (t t' : FileTree) (root names : Place) :
    copiedNode? t root names node = copiedNode? t' root names node := by
  cases node with
  | dir | file => simp only [copiedNode?]
  | link p => exact absurd rfl (h p)

/-- Copies of the same nodes are the same, if there are no links among them. -/
theorem Copied.same {t₁ t₁' : FileTree} (h : Copied t root dest t') (h₁ : Copied t₁ root dest t₁')
    (hp : ∀ names, ¬t.Linked (root ++ names))
    (hsame : ∀ names, t₁.get? (root ++ names) = t.get? (root ++ names)) (names : Place) :
    t₁'.get? (dest ++ names) = t'.get? (dest ++ names) := by
  by_cases hne : names = []
  · rw [hne, List.append_nil, h.top, h₁.top]
  · rw [h.below names hne, h₁.below names hne, hsame]
    cases hx : t.get? (root ++ names) with
    | none => rw [Option.bind_none, Option.bind_none]
    | some x =>
        rw [Option.bind_some, Option.bind_some]
        exact copiedNode?_congr (fun p he => hp names ⟨p, he ▸ hx⟩) _ _ _ _

end

/-- Whose turn it is when every member takes as many steps as it can. -/
def turns (ms : List Member) : List Nat :=
  (ms.zipIdx.map fun x => List.replicate (Trial.stepLimit x.1.setup) x.2).flatten

theorem inTurn_eq (ms : List Member) : inTurn ms = (turns ms).map .step := by
  simp [inTurn, turns, List.map_flatten, Function.comp_def]

theorem stepLimit_le_count {ms : List Member} {i : Nat} {m : Member} (h : ms[i]? = some m) :
    Trial.stepLimit m.setup ≤ (turns ms).count i := by
  have hmem : List.replicate (Trial.stepLimit m.setup) i ∈
      ms.zipIdx.map fun x => List.replicate (Trial.stepLimit x.1.setup) x.2 :=
    List.mem_map.mpr ⟨(m, i), List.mk_mem_zipIdx_iff_getElem?.mpr h, rfl⟩
  have hcount := (List.sublist_flatten_of_mem hmem).count_le i
  rwa [List.count_replicate_self] at hcount

namespace Plan

variable {σ : Type} (b : Plan σ)

def setup (i : Nat) (r : TrialRequest) : Trial.Setup :=
  (Member.start b.settings b.table r (b.dest i)).setup

/-- The trial of the `i`-th request alone, in the tree `t`, after some of its steps. -/
def soloSteps (i : Nat) (r : TrialRequest) (t : FileTree) (k : Nat) : Trial.Progress × World σ :=
  Trial.steps (b.env i) (b.setup i r) k (.start (b.setup i r)) ⟨b.world.state, t⟩

/-- The whole trial of the `i`-th request alone, in the tree `t`. -/
def solo (i : Nat) (r : TrialRequest) (t : FileTree) : Trial.Progress × World σ :=
  Trial.run (b.env i) (b.setup i r) ⟨b.world.state, t⟩

/-- A fresh copy of a work directory, where the `i`-th trial gets it. -/
def freshCopy (i : Nat) (r : TrialRequest) : Except CopyError FileTree :=
  copy b.world.tree r.workDir (b.dest i)

/-- The copies have places of their own, of which nobody knows and which lie in no project. -/
structure Spread : Prop where
  wellFormed : b.world.tree.WellFormed
  free : ∀ i < b.requests.length, b.world.tree.Free (b.dest i)
  unmentioned : ∀ i < b.requests.length,
    Unmentioned b.world.tree (b.requests.flatMap (·.workDir.steps)) (b.dest i)
  distinct : ∀ i < b.requests.length, ∀ j < b.requests.length, b.dest i = b.dest j → i = j
  outside : ∀ r ∈ b.requests, ∀ root, b.world.tree.canonical r.workDir = .ok root →
    ∀ i < b.requests.length, ¬root <+: b.dest i

/-- A trial that, alone on a fresh copy `t` of its work directory, keeps to it. -/
structure KeepsTo (i : Nat) (r : TrialRequest) (t : FileTree) : Prop where
  project : ∀ root, b.world.tree.canonical r.workDir = .ok root → SelfContained b.world.tree root
  homely : ∀ k, Repair.Homely (linksBelow t (b.dest i)) (b.dest i) (b.dest i ++ ["tests"]).path
    (b.soloSteps i r t k).1.script
  confined : Trial.Confined (linksBelow t (b.dest i)) (b.dest i) (b.env i)

/-- What a batch gives is what its trials give alone. -/
structure Independent (schedule : List Move) : Prop where
  served : (∀ i r, b.requests[i]? = some r → ∃ t, b.freshCopy i r = .ok t) →
    ∃ ms w, (b.course schedule).result = .ok (ms, w) ∧ ms.length = b.requests.length ∧
      ∀ i r t, b.requests[i]? = some r → b.freshCopy i r = .ok t →
        ∃ m, ms[i]? = some m ∧ m.copy = b.dest i ∧
          m.progress.result = (b.solo i r t).1.result ∧
          ∀ names, w.tree.get? (b.dest i ++ names) = (b.solo i r t).2.tree.get? (b.dest i ++ names)
  refused : ∀ i r e, b.requests[i]? = some r → b.freshCopy i r = .error e →
    (∀ j < i, ∀ r, b.requests[j]? = some r → ∃ t, b.freshCopy j r = .ok t) →
      (b.course schedule).result = .error e
  elsewhere : ∀ q, (∀ i < b.requests.length, ¬b.dest i <+: q) →
    (b.course schedule).world.tree.get? q = b.world.tree.get? q

/-- A member of a batch has come as far as it would have come alone with some number of steps. -/
structure Alongside (i k : Nat) (r : TrialRequest) (t₀ : FileTree) (m : Member) (t : FileTree) :
    Prop where
  request : b.requests[i]? = some r
  copied : b.freshCopy i r = .ok t₀
  setup : m.setup = b.setup i r
  place : m.copy = b.dest i
  alike : Trial.Alike m.progress (b.soloSteps i r t₀ k).1
  twin : Twin (linksBelow t₀ (b.dest i)) (b.dest i) t (b.soloSteps i r t₀ k).2.tree

/-- Every member of a batch has come as far as it would have come alone, with `low` steps at least. -/
structure Tracks (low : Nat → Nat) (c : Course σ) : Prop where
  wellFormed : c.world.tree.WellFormed
  current : c.world.tree.current = b.world.tree.current
  pending : c.pending = b.requests.drop c.members.length
  outside : ∀ q, (∀ i < c.members.length, ¬b.dest i <+: q) →
    c.world.tree.get? q = b.world.tree.get? q
  alongside : ∀ i m, c.members[i]? = some m →
    ∃ r t₀ k, low i ≤ k ∧ b.Alongside i k r t₀ m c.world.tree
  failed : ∀ e, c.failed = some e → ∃ r, b.requests[c.members.length]? = some r ∧
    b.freshCopy c.members.length r = .error e

variable {b} {low : Nat → Nat} {c : Course σ}

namespace Spread

variable (hs : b.Spread)

include hs

theorem apart {i j : Nat} (hi : i < b.requests.length) (hj : j < b.requests.length) (hij : i ≠ j) :
    ¬b.dest i <+: b.dest j := by
  intro hp
  obtain ⟨d, n, hd, -, hdir, -⟩ := hs.free j hj
  obtain ⟨e, m, he, hm⟩ := hs.unmentioned i hi
  obtain heq | hp := List.prefix_concat_iff.mp (hd ▸ hp)
  · exact hij (hs.distinct i hi j hj (heq.trans hd.symm))
  · have hmem : m ∈ d := hp.subset (he ▸ by simp)
    have hnames := mem_names_of_get? (hdir ▸ Option.some_ne_none _) m hmem
    exact hm (List.mem_append_left _ hnames)

theorem apart_below {i j : Nat} (hi : i < b.requests.length) (hj : j < b.requests.length)
    (hij : i ≠ j) (names : Place) : ¬b.dest i <+: b.dest j ++ names := by
  intro hp
  obtain h | h := List.prefix_or_prefix_of_prefix hp (List.prefix_append _ names)
  · exact hs.apart hi hj hij h
  · exact hs.apart hj hi hij.symm h

theorem not_mentioned {i : Nat} (hi : i < b.requests.length) {q : Place}
    (hq : q ⊆ b.world.tree.names ++ b.requests.flatMap (·.workDir.steps)) : ¬b.dest i <+: q := by
  intro hp
  obtain ⟨d, n, hd, hn⟩ := hs.unmentioned i hi
  exact hn (hq (hp.subset (hd ▸ by simp)))

theorem not_below_root {i : Nat} (hi : i < b.requests.length) {r : TrialRequest}
    (hr : r ∈ b.requests) {root : Place} (hroot : b.world.tree.canonical r.workDir = .ok root)
    (names : Place) : ¬b.dest i <+: root ++ names := by
  intro hp
  have hsolid := solid_of_canonical hs.wellFormed hroot
  obtain h | h := List.prefix_or_prefix_of_prefix hp (List.prefix_append root names)
  · refine hs.not_mentioned hi (q := root) (fun n hn => ?_) h
    exact List.mem_append_left _ (mem_names_of_get? hsolid.get?_ne_none n hn)
  · exact hs.outside r hr root hroot i hi h

end Spread

theorem Tracks.begun (hs : b.Spread) : b.Tracks (fun _ => 0) b.begun where
  wellFormed := hs.wellFormed
  current := rfl
  pending := rfl
  outside _ _ := rfl
  alongside _ _ hm := by cases hm
  failed _ he := by cases he

namespace Tracks

variable (h : b.Tracks low c)

include h

theorem mono {low' : Nat → Nat} (hl : ∀ i, low' i ≤ low i) : b.Tracks low' c :=
  { h with
    alongside := fun i m hm => by
      obtain ⟨r, t₀, k, hk, ha⟩ := h.alongside i m hm
      exact ⟨r, t₀, k, (hl i).trans hk, ha⟩ }

theorem length_le : c.members.length ≤ b.requests.length := by
  by_contra hlt
  obtain ⟨r, _, _, _, ha⟩ := h.alongside _ _ (List.getElem?_eq_getElem (by omega :
    b.requests.length < c.members.length))
  have hnone : b.requests[b.requests.length]? = none := List.getElem?_eq_none (Nat.le_refl _)
  rw [ha.request] at hnone
  cases hnone

/-- The next request, if one is pending. -/
theorem request {r : TrialRequest} {rs : List TrialRequest} (hp : c.pending = r :: rs) :
    b.requests[c.members.length]? = some r ∧ rs = b.requests.drop (c.members.length + 1) := by
  have hdrop := h.pending.symm.trans hp
  constructor
  · rw [← List.head?_drop, hdrop, List.head?_cons]
  · rw [← List.tail_drop, hdrop, List.tail_cons]

theorem canonical_eq (hs : b.Spread) {r : TrialRequest} (hr : r ∈ b.requests) :
    c.world.tree.canonical r.workDir = b.world.tree.canonical r.workDir := by
  have hknown : ∀ n ∈ r.workDir.steps, n ∈ b.requests.flatMap (·.workDir.steps) :=
    fun n hn => List.mem_flatMap.mpr ⟨r, hr, hn⟩
  refine canonical_of_mentioned h.current (fun q hq => ?_) hknown
  exact h.outside q fun i hi => hs.not_mentioned (Nat.lt_of_lt_of_le hi h.length_le) hq

theorem free (hs : b.Spread) (hn : c.members.length < b.requests.length) :
    c.world.tree.Free (b.dest c.members.length) := by
  obtain ⟨d, n, hd, hproper, hdir, hfree⟩ := hs.free _ hn
  have apart : ∀ i < c.members.length, ¬b.dest i <+: b.dest c.members.length := fun i hi =>
    hs.apart (by omega) hn (by omega)
  refine ⟨d, n, hd, hproper, ?_, ?_⟩
  · rw [h.outside d fun i hi hp => apart i hi (hd ▸ hp.trans (List.prefix_append _ _)), hdir]
  · rw [h.outside _ apart, hfree]

/-- A work directory that cannot be copied now could not be copied in the beginning. -/
theorem freshCopy_eq_error (hs : b.Spread) {r : TrialRequest} {e : CopyError}
    (hreq : b.requests[c.members.length]? = some r)
    (hc : copy c.world.tree r.workDir (b.dest c.members.length) = .error e) :
    b.freshCopy c.members.length r = .error e := by
  cases hroot : c.world.tree.canonical r.workDir with
  | error e₁ =>
      rw [copy_eq_error hroot] at hc
      rw [h.canonical_eq hs (List.mem_of_getElem? hreq)] at hroot
      rw [freshCopy, copy_eq_error hroot, ← hc]
  | ok root =>
      have hlen : c.members.length < b.requests.length := (List.getElem?_eq_some_iff.mp hreq).1
      have hmem := List.mem_of_getElem? hreq
      have apart := takesIn_of_outside
        (hs.outside r hmem root ((h.canonical_eq hs hmem).symm.trans hroot) _ hlen)
      obtain ⟨t', ht', -⟩ := copy_of_canonical h.wellFormed (h.free hs hlen) hroot apart
      rw [ht'] at hc
      cases hc

/-- A copy that is made now is like a fresh one. -/
theorem twin_freshCopy (hs : b.Spread) {r : TrialRequest} {t : FileTree}
    (hreq : b.requests[c.members.length]? = some r)
    (hk : ∀ t₀, b.freshCopy c.members.length r = .ok t₀ → b.KeepsTo c.members.length r t₀)
    (hc : copy c.world.tree r.workDir (b.dest c.members.length) = .ok t) :
    ∃ t₀, b.freshCopy c.members.length r = .ok t₀ ∧
      Twin (linksBelow t₀ (b.dest c.members.length)) (b.dest c.members.length) t t₀ := by
  have hmem : r ∈ b.requests := List.mem_of_getElem? hreq
  have hlen : c.members.length < b.requests.length := (List.getElem?_eq_some_iff.mp hreq).1
  have hfree := h.free hs hlen
  obtain ⟨root, hroot, copied⟩ := copy_eq_ok h.wellFormed hfree hc
  rw [h.canonical_eq hs hmem] at hroot
  have apart := takesIn_of_outside (hs.outside r hmem root hroot _ hlen)
  obtain ⟨t₀, hcopy, copied₀⟩ := copy_of_canonical hs.wellFormed (hs.free _ hlen) hroot apart
  have project := (hk t₀ hcopy).project root hroot
  have home := copied₀.home (copied₀.wellFormed hs.wellFormed (hs.free _ hlen))
  have same := copied₀.same copied project.linkless fun names => h.outside _ fun i hi =>
    hs.not_below_root (Nat.lt_of_lt_of_le hi h.length_le) hmem hroot names
  exact ⟨t₀, hcopy, (Twin.refl home).congr_left (copied.wellFormed h.wellFormed hfree) same⟩

end Tracks

section

variable (hr : b.settings.runner = {}) (hh : b.settings.healing = {}) (hs : b.Spread)
  (hk : ∀ i r t, b.requests[i]? = some r → b.freshCopy i r = .ok t → b.KeepsTo i r t)

include hs hk

/-- A new member begins as it would begin alone, and the others do not notice. -/
theorem Tracks.launch (h : b.Tracks (fun _ => 0) c) {c' : Course σ} (hp : b.Plays c .launch c') :
    b.Tracks (fun _ => 0) c' := by
  cases hp with
  | ended | nothingPending => exact h
  | @refused r rs e hf hp hc =>
      obtain ⟨hreq, -⟩ := h.request hp
      refine { h with failed := fun e' he' => ⟨r, hreq, ?_⟩ }
      cases he'
      exact h.freshCopy_eq_error hs hreq hc
  | @launched r rs t hf hp hc =>
      obtain ⟨hreq, hrest⟩ := h.request hp
      have hlen : c.members.length < b.requests.length := (List.getElem?_eq_some_iff.mp hreq).1
      obtain ⟨root, -, copied⟩ := copy_eq_ok h.wellFormed (h.free hs hlen) hc
      obtain ⟨t₀, hcopy, twin⟩ := h.twin_freshCopy hs hreq (hk _ r · hreq) hc
      have ht := twin.left.wellFormed
      refine ⟨ht, copied.current.trans h.current, ?_, fun q hq => ?_, fun i m hm => ?_, ?_⟩
      · simpa using hrest
      · simp only [List.length_append, List.length_singleton] at hq
        rw [copied.outside q (hq _ (Nat.lt_succ_self _)),
          h.outside q fun i hi => hq i (Nat.lt_succ_of_lt hi)]
      · rw [List.getElem?_append] at hm
        split at hm
        · obtain ⟨r', t₁, k, hlow, ha⟩ := h.alongside i m hm
          have hi : i < c.members.length := (List.getElem?_eq_some_iff.mp hm).1
          refine ⟨r', t₁, k, hlow, { ha with twin := ha.twin.congr_left ht fun names => ?_ }⟩
          exact copied.outside _ (hs.apart_below hlen (by omega) (by omega) names)
        · rename_i hlt
          obtain ⟨hi, hm⟩ := List.getElem?_eq_some_iff.mp hm
          rw [List.length_singleton] at hi
          obtain rfl : i = c.members.length := by omega
          subst hm
          simp only [Nat.sub_self, List.getElem_cons_zero]
          exact ⟨r, t₀, 0, Nat.le_refl _, hreq, hcopy, rfl, rfl, .refl _, twin⟩
      · intro e he
        rw [hf] at he
        cases he

include hr hh

/-- A step brings a member one step further along its trial alone, and stays in its copy. -/
theorem Alongside.step {i k : Nat} {r : TrialRequest} {t₀ : FileTree} {m : Member}
    {w w' : World σ} {p : Trial.Progress} (ha : b.Alongside i k r t₀ m w.tree)
    (hstep : Trial.step (b.env i) m.setup m.progress w = (p, w')) :
    b.Alongside i (k + 1) r t₀ { m with progress := p } w'.tree ∧
      Within (b.dest i) w.tree w'.tree := by
  have keeps := hk i r t₀ ha.request ha.copied
  have hlen : i < b.requests.length := (List.getElem?_eq_some_iff.mp ha.request).1
  obtain ⟨root, hroot, copied₀⟩ := copy_eq_ok hs.wellFormed (hs.free i hlen) ha.copied
  have project := keeps.project root hroot
  have secluded : Trial.Secluded (linksBelow t₀ (b.dest i)) (b.dest i) (b.env i) (b.setup i r) :=
    ⟨⟨hr, hh, rfl⟩, copied₀.unlinked project,
      copied₀.descent project.linkless (by decide) (by decide), keeps.confined⟩
  have homely := keeps.homely k
  rw [ha.alike.script] at homely
  obtain ⟨beside, within⟩ := Trial.step_agrees secluded homely ha.alike ha.twin
  have further : Trial.step (b.env i) (b.setup i r) (b.soloSteps i r t₀ k).1
      (b.soloSteps i r t₀ k).2 = b.soloSteps i r t₀ (k + 1) := by
    rw [soloSteps, soloSteps, Trial.steps_add]
    rfl
  rw [← ha.setup, hstep] at within
  rw [further, ← ha.setup, hstep] at beside
  exact ⟨⟨ha.request, ha.copied, ha.setup, ha.place, beside.alike, beside.twin⟩, within⟩

/-- A step brings one member one step further, and the others do not notice. -/
theorem Tracks.step (h : b.Tracks low c) (hf : c.failed = none) {i : Nat} {c' : Course σ}
    (hp : b.Plays c (.step i) c') :
    b.Tracks (fun j => low j + if i = j then 1 else 0) c' ∧ c'.failed = none ∧
      c'.members.length = c.members.length := by
  cases hp with
  | ended hf' => exact absurd hf hf'
  | nobody _ hm =>
      refine ⟨{ h with alongside := fun j m hj => ?_ }, hf, rfl⟩
      obtain ⟨r, t₀, k, hlow, ha⟩ := h.alongside j m hj
      have hij : i ≠ j := by
        rintro rfl
        rw [hm] at hj
        cases hj
      exact ⟨r, t₀, k, by simpa [hij] using hlow, ha⟩
  | @stepped _ m p w _ hm hstep =>
      obtain ⟨r, t₀, k, hlow, ha⟩ := h.alongside i m hm
      obtain ⟨ahead, within⟩ := ha.step hr hh hs hk hstep
      have hi : i < c.members.length := (List.getElem?_eq_some_iff.mp hm).1
      have ht := ahead.twin.left.wellFormed
      refine ⟨⟨ht, within.current.trans h.current, by simpa using h.pending, fun q hq => ?_,
        fun j x hx => ?_, by simpa using h.failed⟩, hf, by simp⟩
      · simp only [List.length_set] at hq
        rw [within.other q (hq i hi), h.outside q hq]
      · rw [List.getElem?_set] at hx
        by_cases hij : i = j
        · subst hij
          rw [if_pos rfl, if_pos hi] at hx
          cases hx
          exact ⟨r, t₀, k + 1, by simpa using hlow, ahead⟩
        · rw [if_neg hij] at hx
          obtain ⟨r', t₁, k', hlow', ha'⟩ := h.alongside j x hx
          have hj : j < b.requests.length := (List.getElem?_eq_some_iff.mp ha'.request).1
          refine ⟨r', t₁, k', by simpa [hij] using hlow', { ha' with
            twin := ha'.twin.congr_left ht fun names => ?_ }⟩
          have hlen : i < b.requests.length := Nat.lt_of_lt_of_le hi h.length_le
          exact within.other _ (hs.apart_below hlen hj hij names)

theorem tracks_after (moves : List Move) : b.Tracks (fun _ => 0) (b.after moves) := by
  refine b.after_induction (I := fun _ c => b.Tracks (fun _ => 0) c) (.begun hs) ?_ moves
  intro earlier m c' h hp
  cases m with
  | launch => exact h.launch hs hk hp
  | step i =>
      by_cases hf : (b.after earlier).failed = none
      · exact (h.step hr hh hs hk hf hp).1.mono fun _ => Nat.zero_le _
      · have hsame : c' = b.after earlier := by
          cases hp with
          | ended => rfl
          | nobody hf' | stepped hf' => exact absurd hf' hf
        exact hsame ▸ h

/-- Steps count for the members that take them. -/
theorem Tracks.follow_steps (h : b.Tracks (fun _ => 0) c) (hf : c.failed = none) (is : List Nat) :
    b.Tracks (fun j => is.count j) (b.follow c (is.map .step)) ∧
      (b.follow c (is.map .step)).failed = none ∧
      (b.follow c (is.map .step)).members.length = c.members.length := by
  induction is using List.reverseRecOn with
  | nil => exact ⟨h, hf, rfl⟩
  | append_singleton is i ih =>
      obtain ⟨ih, hf', hlen⟩ := ih
      have hconcat : b.follow c ((is ++ [i]).map .step) =
          b.play (b.follow c (is.map .step)) (.step i) := by
        rw [List.map_append]
        exact List.foldl_append
      have goes := b.plays (b.follow c (is.map .step)) (.step i)
      rw [← hconcat] at goes
      obtain ⟨htracks, hf'', hlen'⟩ := ih.step hr hh hs hk hf' goes
      refine ⟨htracks.mono fun j => ?_, hf'', hlen'.trans hlen⟩
      rw [List.count_append, List.count_singleton]
      simp

/-- A batch ends when a work directory could not be copied, or when every trial has ended. -/
theorem tracks_course (schedule : List Move) :
    ∃ low, b.Tracks low (b.course schedule) ∧ ((b.course schedule).failed = none →
      (b.course schedule).members.length = b.requests.length ∧
        ∀ i r, b.requests[i]? = some r → Trial.stepLimit (b.setup i r) ≤ low i) := by
  have h := tracks_after hr hh hs hk (schedule ++ b.launches schedule)
  rw [course_eq_after, moves, after_append]
  by_cases hf : (b.after (schedule ++ b.launches schedule)).failed = none
  · have hpending : (b.after (schedule ++ b.launches schedule)).pending = [] := by
      have hlaunches : b.launches schedule =
          List.replicate (b.after schedule).pending.length .launch := List.map_const'
      rw [after_append, hlaunches] at hf ⊢
      exact (b.pending_of_launches (Nat.le_refl _)).resolve_left (fun hne => hne hf)
    have hlen : (b.after (schedule ++ b.launches schedule)).members.length = b.requests.length :=
      Nat.le_antisymm h.length_le (List.drop_eq_nil_iff.mp (h.pending.symm.trans hpending))
    rw [inTurn_eq]
    obtain ⟨htracks, -, hsame⟩ := h.follow_steps hr hh hs hk hf
      (turns (b.after (schedule ++ b.launches schedule)).members)
    refine ⟨_, htracks, fun _ => ⟨hsame.trans hlen, fun i r hreq => ?_⟩⟩
    obtain ⟨m, hm⟩ : ∃ m, (b.after (schedule ++ b.launches schedule)).members[i]? = some m := by
      have hi : i < b.requests.length := (List.getElem?_eq_some_iff.mp hreq).1
      exact ⟨_, List.getElem?_eq_getElem (hlen ▸ hi)⟩
    obtain ⟨r', _, _, -, ha⟩ := h.alongside i m hm
    obtain rfl : r = r' := Option.some.inj (hreq.symm.trans ha.request)
    exact ha.setup ▸ stepLimit_le_count hm
  · rw [b.follow_failed hf]
    exact ⟨_, h, fun hf' => absurd hf' hf⟩

omit hr hh hs hk in
/-- A member that has taken all its steps gives what its trial gives alone. -/
theorem Alongside.solo {i k : Nat} {r : TrialRequest} {t₀ t : FileTree} {m : Member}
    (ha : b.Alongside i k r t₀ m t) (hsteps : Trial.stepLimit (b.setup i r) ≤ k) :
    m.progress.result = (b.solo i r t₀).1.result ∧
      ∀ names, t.get? (b.dest i ++ names) = (b.solo i r t₀).2.tree.get? (b.dest i ++ names) := by
  have hsolo : b.soloSteps i r t₀ k = b.solo i r t₀ := Trial.steps_of_stepLimit_le _ _ _ hsteps
  refine ⟨?_, fun names => ?_⟩
  · rw [← hsolo, ha.alike.result]
  · rw [← hsolo, ha.twin.same]

omit hr hh hs hk in
/-- A batch in which every request gets its copy does not fail. -/
theorem Tracks.served (h : b.Tracks low c)
    (hall : ∀ i r, b.requests[i]? = some r → ∃ t, b.freshCopy i r = .ok t) : c.failed = none := by
  by_contra hne
  obtain ⟨e, he⟩ := Option.ne_none_iff_exists'.mp hne
  obtain ⟨r, hreq, hfail⟩ := h.failed e he
  obtain ⟨t, ht⟩ := hall _ r hreq
  rw [ht] at hfail
  cases hfail

omit hr hh hs hk in
/-- A batch that ends fails with the first request whose work directory cannot be copied. -/
theorem Tracks.refused (h : b.Tracks low c)
    (hended : c.failed = none → c.members.length = b.requests.length) {i : Nat} {r : TrialRequest}
    {e : CopyError} (hreq : b.requests[i]? = some r) (he : b.freshCopy i r = .error e)
    (hbefore : ∀ j < i, ∀ r, b.requests[j]? = some r → ∃ t, b.freshCopy j r = .ok t) :
    c.failed = some e := by
  have hle : c.members.length ≤ i := by
    by_contra hlt
    obtain ⟨r', t₀, k, -, ha⟩ :=
      h.alongside i _ (List.getElem?_eq_getElem (Nat.lt_of_not_le hlt))
    obtain rfl : r = r' := Option.some.inj (hreq.symm.trans ha.request)
    rw [ha.copied] at he
    cases he
  obtain ⟨e', he'⟩ : ∃ e', c.failed = some e' := by
    refine Option.ne_none_iff_exists'.mp fun hnone => ?_
    have hi : i < b.requests.length := (List.getElem?_eq_some_iff.mp hreq).1
    have hlen := hended hnone
    omega
  obtain ⟨r', hreq', hfail⟩ := h.failed e' he'
  obtain hlt | heq := Nat.lt_or_eq_of_le hle
  · obtain ⟨t, ht⟩ := hbefore _ hlt r' hreq'
    rw [ht] at hfail
    cases hfail
  · rw [heq] at hreq' hfail
    obtain rfl : r = r' := Option.some.inj (hreq.symm.trans hreq')
    rw [he', Except.error.inj (hfail.symm.trans he)]

/-- With the default settings, and copies in places of their own, trials that keep to their copies are
independent, whatever the order of their steps. -/
theorem independent (schedule : List Move) : b.Independent schedule := by
  obtain ⟨low, h, hended⟩ := tracks_course hr hh hs hk schedule
  refine ⟨fun hall => ?_, fun i r e hreq he hbefore => ?_, fun q hq => ?_⟩
  · have hf := h.served hall
    obtain ⟨hlen, hsteps⟩ := hended hf
    refine ⟨(b.course schedule).members, (b.course schedule).world, ?_, hlen, fun i r t hreq ht => ?_⟩
    · rw [Course.result, hf]
    · have hi : i < b.requests.length := (List.getElem?_eq_some_iff.mp hreq).1
      have hm := List.getElem?_eq_getElem (hlen ▸ hi)
      obtain ⟨r', t₀, k, hlow, ha⟩ := h.alongside i _ hm
      obtain rfl : r = r' := Option.some.inj (hreq.symm.trans ha.request)
      obtain rfl : t = t₀ := Except.ok.inj (ht.symm.trans ha.copied)
      exact ⟨_, hm, ha.place, ha.solo ((hsteps i r hreq).trans hlow)⟩
  · have hf := h.refused (fun hf => (hended hf).1) hreq he hbefore
    rw [Course.result, hf]
  · exact h.outside q fun i hi => hq i (Nat.lt_of_lt_of_le hi h.length_le)

end

end Plan

/-- A page that exports its class. -/
def exportingPage : String := "class Page \x7b\x7d\nexport \x7b Page \x7d;\n"

/-- What a test comes to that constructs the class of a page. -/
def pageTest (page : Except FileError String) : Execution :=
  if page.toOption = some exportingPage then { success := true, log := "" }
  else { success := false, log := "Page is not a constructor" }

/-- A runner that looks at one page of the work directory. -/
def pageRunner : Surroundings Unit where
  execute call state t :=
    (.ok (pageTest (t.readText (call.workDir.join (Place.relative ["pages", "page.ts"])))), state, t)
  consult _ state := (.silent, state)
  cancelled _ := false

theorem confined_pageRunner {L : Place → Prop} {d : Place} (hd : ∀ n ∈ d, Place.Spellable n)
    (hl : Descent L ["pages", "page.ts"]) : Trial.Confined L d pageRunner where
  never _ := ⟨rfl, rfl⟩
  consult _ _ _ := rfl
  execute call state state' t t' hcall h := by
    have hpage : call.workDir.join (Place.relative ["pages", "page.ts"]) =
        (d ++ ["pages", "page.ts"]).path :=
      hcall ▸ Place.join_relative hd (List.cons_ne_nil _ _) hl.spellable
    refine ⟨?_, h⟩
    simp only [pageRunner, hpage, h.readText_eq hl]
  within call state t _ _ := .refl d t

/-- A project with a page in one of its directories that does not export its class. -/
def project (dir : String) : FileTree where
  nodes := .ofList [(["app"], .dir), (["app", dir], .dir),
    (["app", dir, "page.ts"], .file "class Page \x7b\x7d\n".toUTF8 0o644)]

/-- A trial of the project with a script that imports the page. -/
def importing (dir : String) : TrialRequest where
  script := "import \x7b Page \x7d from \x27../" ++ dir ++ "/page\x27;\n"
  workDir := ⟨"/app"⟩

/-- Two such trials of the same project. -/
def sideBySide (dir : String) : Plan Unit where
  env _ := pageRunner
  dest i := ["copy" ++ toString i]
  requests := [importing dir, importing dir]
  world := ⟨(), project dir⟩

/-- Where the page may be: below a locator directory, or in a shared directory beside them. -/
def pageDirs : List String := ["pages", sharedName]

/-- What the import of the page may mean there. -/
def pageFiles : List Place :=
  [["page"], ["page.ts"], ["page.js"], ["page.tsx"], ["page.mjs"], ["page", "index.ts"],
    ["page", "index.js"]]

theorem request_sideBySide {dir : String} {i : Nat} {r : TrialRequest}
    (h : (sideBySide dir).requests[i]? = some r) : i < 2 ∧ r = importing dir := by
  obtain ⟨hi, rfl⟩ := List.getElem?_eq_some_iff.mp h
  have hmem : (sideBySide dir).requests[i] ∈ List.replicate 2 (importing dir) := List.getElem_mem hi
  exact ⟨hi, List.eq_of_mem_replicate hmem⟩

section

variable {dir : String} (hdir : dir ∈ pageDirs)

include hdir

theorem wellFormed_project : (project dir).WellFormed := by
  fin_cases hdir
  all_goals exact wellFormed_of_fits rfl (by decide)

theorem selfContained_project : SelfContained (project dir) ["app"] where
  linkless names h := by
    obtain ⟨p, hp⟩ := h
    have hnode : ∀ e ∈ (project dir).nodes.entries, ∀ p, e.2 ≠ .link p := by
      fin_cases hdir
      all_goals
        intro e he
        fin_cases he <;> nofun
    exact hnode _ (mem_entries_of_get? (List.cons_ne_nil _ _) hp) p rfl
  unshared l hl names h := by
    have hplaces : ∀ l ∈ Patch.locatorPlaces, l ≠ [] := by decide
    have htop : ∀ dir ∈ pageDirs, ∀ e ∈ (project dir).nodes.entries,
        e.1.getLast? = some sharedName → e.1.length ≤ 2 := by decide
    have hlast : (["app"] ++ (l ++ names ++ [sharedName])).getLast? = some sharedName := by
      rw [← List.append_assoc, List.getLast?_concat]
    have hlen : (["app"] ++ (l ++ names ++ [sharedName])).length ≤ 2 :=
      htop dir hdir _ (mem_entries_of_get? (List.cons_ne_nil _ _) h) hlast
    have hpos := List.length_pos_iff.mpr (hplaces l hl)
    simp only [List.length_append, List.length_singleton] at hlen
    omega

theorem canonical_project : (project dir).canonical ⟨"/app"⟩ = .ok ["app"] := by
  have h : ∀ dir ∈ pageDirs, (project dir).canonical ⟨"/app"⟩ = .ok ["app"] := by decide +kernel
  exact h dir hdir

theorem spread_sideBySide : (sideBySide dir).Spread where
  wellFormed := wellFormed_project hdir
  free i hi := by
    have hfree : ∀ dir ∈ pageDirs, ∀ i < 2,
        Proper ("copy" ++ toString i) ∧ (project dir).get? ["copy" ++ toString i] = none := by
      decide +kernel
    obtain ⟨hproper, hnone⟩ := hfree dir hdir i hi
    exact ⟨[], "copy" ++ toString i, rfl, hproper, rfl, hnone⟩
  unmentioned i hi := by
    have hnew : ∀ dir ∈ pageDirs, ∀ i < 2, "copy" ++ toString i ∉
        (project dir).names ++ (sideBySide dir).requests.flatMap (·.workDir.steps) := by
      decide +kernel
    exact ⟨[], "copy" ++ toString i, rfl, hnew dir hdir i hi⟩
  distinct := by
    change ∀ i < 2, ∀ j < 2, ["copy" ++ toString i] = ["copy" ++ toString j] → i = j
    decide +kernel
  outside r hr root h i hi hp := by
    obtain rfl : r = importing dir := by simpa [sideBySide] using hr
    cases (canonical_project hdir).symm.trans h
    have hout : ∀ i < 2, ¬["app"] <+: ["copy" ++ toString i] := by decide +kernel
    exact hout i hi hp

variable {i : Nat} (hi : i < 2)

include hi

theorem served_sideBySide : ∃ t, (sideBySide dir).freshCopy i (importing dir) = .ok t := by
  have outside := (spread_sideBySide hdir).outside (importing dir) List.mem_cons_self ["app"]
    (canonical_project hdir) i hi
  obtain ⟨t, ht, -⟩ := copy_of_canonical (wellFormed_project hdir)
    ((spread_sideBySide hdir).free i hi) (canonical_project hdir) (takesIn_of_outside outside)
  exact ⟨t, ht⟩

/-- The trials see nothing but their copies. -/
theorem confined_sideBySide {t : FileTree}
    (hc : (sideBySide dir).freshCopy i (importing dir) = .ok t) :
    Copied (project dir) ["app"] ((sideBySide dir).dest i) t ∧
      Trial.Confined (linksBelow t ((sideBySide dir).dest i)) ((sideBySide dir).dest i)
        ((sideBySide dir).env i) := by
  obtain ⟨root, hroot, copied⟩ :=
    copy_eq_ok (wellFormed_project hdir) ((spread_sideBySide hdir).free i hi) hc
  cases (canonical_project hdir).symm.trans hroot
  have hproper : ∀ i < 2, ∀ n ∈ ["copy" ++ toString i], Proper n := by decide +kernel
  exact ⟨copied, confined_pageRunner (Place.spellable_of_proper (hproper i hi))
    (copied.descent (selfContained_project hdir).linkless (by decide) (by decide))⟩

/-- The import goes down from the work directory to where the page is. -/
theorem inside_of_import {cls specifier : String}
    (him : Script.importOf? (importing dir).script cls = some specifier) {p : Path}
    (hp : p ∈ Script.modulePaths (Place.path ((sideBySide dir).dest i ++ ["tests"])) specifier) :
    ∃ names, (∀ n ∈ names, Proper n) ∧ names.head? = some dir ∧ sharedName ∉ names.tail ∧
      p.normalize = Place.path ((sideBySide dir).dest i ++ names) := by
  obtain ⟨hmem, hrel⟩ := Script.mem_splitOnP_of_importOf? him
  have hparts : ∀ dir ∈ pageDirs, ∀ part ∈ (importing dir).script.toList.splitOnP Script.isQuote,
      Script.isRelative part → part = ("../" ++ dir ++ "/page").toList := by decide +kernel
  obtain rfl := String.toList_inj.mp (hparts dir hdir _ hmem hrel)
  have hpaths : ∀ dir ∈ pageDirs, ∀ i < 2,
      (Script.modulePaths (Place.path ["copy" ++ toString i, "tests"])
        ("../" ++ dir ++ "/page")).map Path.normalize =
      pageFiles.map fun file => Place.path (["copy" ++ toString i, dir] ++ file) := by
    decide +kernel
  have hmem := hpaths dir hdir i hi ▸ List.mem_map_of_mem hp
  obtain ⟨file, hfile, hp⟩ := List.mem_map.mp hmem
  have hproper : ∀ dir ∈ pageDirs, Proper dir := by decide
  have hfiles : ∀ file ∈ pageFiles, (∀ n ∈ file, Proper n) ∧ sharedName ∉ file := by decide
  obtain ⟨hnames, hshared⟩ := hfiles file hfile
  exact ⟨dir :: file, List.forall_mem_cons.mpr ⟨hproper dir hdir, hnames⟩, rfl, hshared, hp.symm⟩

end

theorem members_of_result {σ : Type} {c : Course σ} {ms : List Member} {w : World σ}
    (h : c.result = .ok (ms, w)) : c.members = ms := by
  unfold Course.result at h
  split at h
  · cases h
  · exact congrArg Prod.fst (Except.ok.inj h)

/-- A trial that has ended after some steps keeps its script from then on. -/
theorem script_soloSteps {σ : Type} {b : Plan σ} {i : Nat} {r : TrialRequest} {t : FileTree} {n : Nat}
    {e : Ending} (hdone : (b.soloSteps i r t n).1.phase = .done e)
    (hkeeps : ∀ k ≤ n, (b.soloSteps i r t k).1.script = r.script) (k : Nat) :
    (b.soloSteps i r t k).1.script = r.script := by
  obtain hk | hk := Nat.le_total k n
  · exact hkeeps k hk
  · obtain ⟨j, rfl⟩ := Nat.exists_eq_add_of_le hk
    have hsteps : b.soloSteps i r t (n + j) = b.soloSteps i r t n := by
      rw [Plan.soloSteps, Trial.steps_add]
      exact Trial.steps_done _ _ hdone j _
    rw [hsteps]
    exact hkeeps n (Nat.le_refl n)

/-- The first run misses the export, the second one passes. -/
theorem phases_sideBySide : ∀ i < 2,
    ((sideBySide "pages").freshCopy i (importing "pages")).toOption.all fun t =>
      ((sideBySide "pages").soloSteps i (importing "pages") t 4).1.phase = .done .succeeded &&
        (List.range 5).all fun k =>
          ((sideBySide "pages").soloSteps i (importing "pages") t k).1.script =
            (importing "pages").script := by
  decide +kernel

theorem keepsTo_sideBySide {i : Nat} (hi : i < 2) {t : FileTree}
    (ht : (sideBySide "pages").freshCopy i (importing "pages") = .ok t) :
    (sideBySide "pages").KeepsTo i (importing "pages") t := by
  have hdir : "pages" ∈ pageDirs := by decide
  have project := selfContained_project hdir
  obtain ⟨copied, confined⟩ := confined_sideBySide hdir hi ht
  refine ⟨fun root hr => ?_, fun k cls specifier him p hp => ?_, confined⟩
  · cases (canonical_project hdir).symm.trans hr
    exact project
  · have hphases := phases_sideBySide i hi
    simp only [ht, Except.toOption, Option.all_some, Bool.and_eq_true, decide_eq_true_eq,
      List.all_eq_true, List.mem_range] at hphases
    obtain ⟨hdone, hkeeps⟩ := hphases
    rw [script_soloSteps hdone (fun k hk => hkeeps k (Nat.lt_succ_of_le hk)) k] at him
    obtain ⟨names, hnames, hfirst, hshared, hp⟩ := inside_of_import hdir hi him hp
    refine ⟨names, copied.descent project.linkless hnames fun hmem => ?_, hp⟩
    obtain ⟨more, rfl⟩ := List.head?_eq_some_iff.mp hfirst
    obtain hmem | hmem := List.mem_cons.mp hmem
    · exact absurd hmem (by decide)
    · exact hshared hmem

/-- Two trials that repair their own pages, in turn. -/
theorem sideBySide_independent :
    (sideBySide "pages").settings.runner = {} ∧ (sideBySide "pages").settings.healing = {} ∧
      (sideBySide "pages").Spread ∧
      (∀ i r t, (sideBySide "pages").requests[i]? = some r →
        (sideBySide "pages").freshCopy i r = .ok t → (sideBySide "pages").KeepsTo i r t) ∧
      (sideBySide "pages").Independent [.launch, .launch, .step 1, .step 0, .step 1, .step 0] := by
  have spread : (sideBySide "pages").Spread := spread_sideBySide (by decide)
  have keeps (i : Nat) (r : TrialRequest) (t : FileTree)
      (hreq : (sideBySide "pages").requests[i]? = some r)
      (ht : (sideBySide "pages").freshCopy i r = .ok t) : (sideBySide "pages").KeepsTo i r t := by
    obtain ⟨hi, rfl⟩ := request_sideBySide hreq
    exact keepsTo_sideBySide hi ht
  exact ⟨rfl, rfl, spread, keeps, Plan.independent rfl rfl spread keeps _⟩

/-- The second trial runs when the first one has repaired the page. -/
def oneAfterOther : List Move := [.launch, .launch] ++ List.replicate 3 (.step 0)

/-- Of a shared page nothing is left to repair for the second trial, but alone it repairs it. -/
theorem fixes_sideBySide {m : Member} {t : FileTree}
    (hm : ((sideBySide sharedName).course oneAfterOther).members[1]? = some m)
    (ht : (sideBySide sharedName).freshCopy 1 (importing sharedName) = .ok t) :
    m.progress.fixes.length = 0 ∧
      ((sideBySide sharedName).solo 1 (importing sharedName) t).1.fixes.length = 1 := by
  have hbatch : ((sideBySide sharedName).course oneAfterOther).members[1]?.all
      (·.progress.fixes.length = 0) := by
    decide +kernel
  have halone : ((sideBySide sharedName).freshCopy 1 (importing sharedName)).toOption.all
      fun t => ((sideBySide sharedName).solo 1 (importing sharedName) t).1.fixes.length = 1 := by
    decide +kernel
  simp only [hm, ht, Except.toOption, Option.all_some, decide_eq_true_eq] at hbatch halone
  exact ⟨hbatch, halone⟩

/-- A page in a shared directory is common to the trials, although nothing that they import, read or
change leads out of their work directories. -/
theorem sideBySide_dependent :
    (sideBySide sharedName).settings.runner = {} ∧ (sideBySide sharedName).settings.healing = {} ∧
      (sideBySide sharedName).Spread ∧ SelfContained (project sharedName) ["app"] ∧
      (∀ i < 2, Repair.Homely (fun _ => False) ((sideBySide sharedName).dest i)
        (Place.path ((sideBySide sharedName).dest i ++ ["tests"])) (importing sharedName).script) ∧
      (∀ i < 2, ∃ t, (sideBySide sharedName).freshCopy i (importing sharedName) = .ok t ∧
        Trial.Confined (linksBelow t ((sideBySide sharedName).dest i))
          ((sideBySide sharedName).dest i) ((sideBySide sharedName).env i)) ∧
      ¬(sideBySide sharedName).Independent oneAfterOther := by
  have hdir : sharedName ∈ pageDirs := by decide
  refine ⟨rfl, rfl, spread_sideBySide hdir, selfContained_project hdir,
    fun i hi cls specifier him p hp => ?_, fun i hi => ?_, fun independent => ?_⟩
  · obtain ⟨names, hnames, -, -, hp⟩ := inside_of_import hdir hi him hp
    exact ⟨names, .of_proper hnames fun _ _ => not_false, hp⟩
  · obtain ⟨t, ht⟩ := served_sideBySide hdir hi
    exact ⟨t, ht, (confined_sideBySide hdir hi ht).2⟩
  · obtain ⟨t, ht⟩ := served_sideBySide hdir (Nat.lt_succ_self 1)
    obtain ⟨ms, w, hresult, -, heach⟩ := independent.served fun i r hreq => by
      obtain ⟨hi, rfl⟩ := request_sideBySide hreq
      exact served_sideBySide hdir hi
    obtain ⟨m, hm, -, hsame, -⟩ := heach 1 _ t rfl ht
    rw [← members_of_result hresult] at hm
    obtain ⟨hnone, hone⟩ := fixes_sideBySide hm ht
    have hfixes := congrArg (List.length ∘ TrialResult.fixes) hsame
    simp only [Function.comp_apply, Trial.Progress.result, hnone, hone] at hfixes
    exact absurd hfixes (by decide)

end Batch
end TestRepair
