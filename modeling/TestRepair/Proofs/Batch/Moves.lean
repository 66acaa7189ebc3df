import Mathlib.Data.List.Induction
import TestRepair.Trial.Batch

/-!
Batches as sequences of moves. A batch comes to what all its moves come to, one after the other, and
every beginning of them is a moment of the batch. What a single move does is told here once: each of
the rules below is one way in which it can go.
-/

namespace TestRepair
namespace Batch

/-- What is given when a batch begins. -/
structure Plan (σ : Type) where
  env : Nat → Surroundings σ
  settings : Settings := {}
  table : List Signature := Signature.builtin
  dest : Nat → Place
  requests : List TrialRequest
  world : World σ

namespace Plan

variable {σ : Type} (b : Plan σ)

def play (c : Course σ) (m : Move) : Course σ := Batch.play b.env b.settings b.table b.dest c m

def begun : Course σ := { pending := b.requests, world := b.world }

/-- What moves come to from the course `c` on. -/
def follow (c : Course σ) (moves : List Move) : Course σ :=
  Batch.follow b.env b.settings b.table b.dest c moves

theorem follow_cons (c : Course σ) (m : Move) (moves : List Move) :
    b.follow c (m :: moves) = b.follow (b.play c m) moves := rfl

/-- What moves come to from the beginning of the batch. -/
def after (moves : List Move) : Course σ := b.follow b.begun moves

theorem after_append (moves more : List Move) :
    b.after (moves ++ more) = b.follow (b.after moves) more :=
  List.foldl_append

theorem after_concat (moves : List Move) (m : Move) :
    b.after (moves ++ [m]) = b.play (b.after moves) m :=
  b.after_append moves [m]

/-- The launches that a schedule leaves to be made. -/
def launches (schedule : List Move) : List Move :=
  (b.after schedule).pending.map fun _ => .launch

/-- All moves of the batch: those of a schedule, and then what is left of it in turn. -/
def moves (schedule : List Move) : List Move :=
  schedule ++ b.launches schedule ++ inTurn (b.after (schedule ++ b.launches schedule)).members

def course (schedule : List Move) : Course σ :=
  Batch.course b.env b.settings b.table b.dest b.requests schedule b.world

theorem course_eq_after (schedule : List Move) : b.course schedule = b.after (b.moves schedule) := by
  rw [moves, after_append, after_append]
  rfl

/-- How a move can go, from the course `c` on. -/
inductive Plays (c : Course σ) : Move → Course σ → Prop
  | ended {m : Move} (hf : c.failed ≠ none) : Plays c m c
  | nothingPending (hf : c.failed = none) (hp : c.pending = []) : Plays c .launch c
  | nobody {i : Nat} (hf : c.failed = none) (hm : c.members[i]? = none) : Plays c (.step i) c
  | refused {r : TrialRequest} {rs : List TrialRequest} {e : CopyError} (hf : c.failed = none)
      (hp : c.pending = r :: rs)
      (hc : copy c.world.tree r.workDir (b.dest c.members.length) = .error e) :
      Plays c .launch { c with failed := some e }
  | launched {r : TrialRequest} {rs : List TrialRequest} {t : FileTree} (hf : c.failed = none)
      (hp : c.pending = r :: rs)
      (hc : copy c.world.tree r.workDir (b.dest c.members.length) = .ok t) :
      Plays c .launch
        { c with
          pending := rs
          members := c.members ++ [.start b.settings b.table r (b.dest c.members.length)]
          world := { c.world with tree := t } }
  | stepped {i : Nat} {m : Member} {p : Trial.Progress} {w : World σ} (hf : c.failed = none)
      (hm : c.members[i]? = some m)
      (hs : Trial.step (b.env i) m.setup m.progress c.world = (p, w)) :
      Plays c (.step i)
        { c with
          members := c.members.set i { m with progress := p }
          world := w }

theorem plays (c : Course σ) (m : Move) : b.Plays c m (b.play c m) := by
  cases hf : c.failed with
  | some e =>
      have hover : b.play c m = c := by simp [play, Batch.play, hf]
      rw [hover]
      exact .ended (hf ▸ Option.some_ne_none e)
  | none =>
      cases m with
      | launch =>
          have hlaunch : b.play c .launch = launch b.settings b.table b.dest c := by
            simp [play, Batch.play, hf]
          rw [hlaunch, launch]
          split
          · rename_i hp
            exact .nothingPending hf hp
          · rename_i r rs hp
            dsimp only
            split
            · rename_i hc
              exact .refused hf hp hc
            · rename_i hc
              exact .launched hf hp hc
      | step i =>
          have hstep : b.play c (.step i) = stepAt b.env i c := by simp [play, Batch.play, hf]
          rw [hstep, stepAt]
          cases hm : c.members[i]? with
          | none => exact .nobody hf hm
          | some m => exact .stepped hf hm rfl

theorem plays_after (moves : List Move) (m : Move) :
    b.Plays (b.after moves) m (b.after (moves ++ [m])) := by
  rw [after_concat]
  exact b.plays _ m

theorem follow_failed {c : Course σ} (h : c.failed ≠ none) (moves : List Move) :
    b.follow c moves = c := by
  induction moves with
  | nil => rfl
  | cons m moves ih =>
      obtain ⟨e, he⟩ := Option.ne_none_iff_exists'.mp h
      have hover : b.play c m = c := by simp [play, Batch.play, he]
      rw [follow_cons, hover, ih]

/-- As many launches as there are requests left leave none of them, unless one fails. -/
theorem pending_of_launches {n : Nat} {c : Course σ} (h : c.pending.length ≤ n) :
    (b.follow c (List.replicate n .launch)).failed ≠ none ∨
      (b.follow c (List.replicate n .launch)).pending = [] := by
  induction n generalizing c with
  | zero => exact .inr (List.eq_nil_of_length_eq_zero (Nat.le_zero.mp h))
  | succ n ih =>
      rw [List.replicate_succ, follow_cons]
      have goes := b.plays c .launch
      generalize b.play c .launch = c' at goes ⊢
      by_cases hf : c'.failed = none
      · cases goes with
        | ended hf' => exact absurd hf hf'
        | refused => cases hf
        | nothingPending _ hp => exact ih (by simp [hp])
        | launched _ hp => exact ih (by simpa [hp] using h)
      · exact .inl (by rwa [b.follow_failed hf])

/-- What holds at the beginning of a batch and after every move of it holds at every moment. -/
theorem after_induction {I : List Move → Course σ → Prop} (begins : I [] b.begun)
    (goes : ∀ earlier m c, I earlier (b.after earlier) → b.Plays (b.after earlier) m c →
      I (earlier ++ [m]) c) (moves : List Move) : I moves (b.after moves) := by
  induction moves using List.reverseRecOn with
  | nil => exact begins
  | append_singleton earlier m ih =>
      rw [after_concat]
      exact goes earlier m _ ih (b.plays _ m)

end Plan
end Batch
end TestRepair
