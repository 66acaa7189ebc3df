import Mathlib.Data.List.Basic
import TestRepair.Proofs.FileTree.Spelling

/-!
Look-ups of paths with the same moves. A dot stays in the directory where it is met; only at the end
of a path it asks that there be a directory. So two such paths lead to the same place if both lead
anywhere, and one that does not end in a dot leads wherever the other one leads.
-/

namespace TestRepair
namespace FileTree

/-- The steps `s'` are the steps `s` without some of the dots. -/
inductive Thins : List String → List String → Prop
  | nil : Thins [] []
  | keep (n : String) {s s' : List String} (h : Thins s s') : Thins (n :: s) (n :: s')
  | dot {n : String} (hn : n = ".") {s s' : List String} (h : Thins s s') : Thins (n :: s) s'

theorem Thins.append_left (a : List String) {s s' : List String} (h : Thins s s') :
    Thins (a ++ s) (a ++ s') := by
  induction a with
  | nil => exact h
  | cons n a ih => exact .keep n ih

theorem thins_filter (s : List String) : Thins s (s.filter (· ≠ ".")) := by
  induction s with
  | nil => exact .nil
  | cons n s ih =>
      by_cases hn : n = "."
      · rw [List.filter_cons_of_neg (by simpa using hn)]
        exact .dot hn ih
      · rw [List.filter_cons_of_pos (by simpa using hn)]
        exact .keep n ih

section

variable {t : FileTree} {k : Nat} {d : Place} {s s' : List String} {g : Goal}

/-- Without some dots, steps lead where they lead with them. -/
theorem Leads.thin {follow : Bool} (h : Leads t follow k d s g) (hf : follow = true)
    (hs : Thins s s') : Leads t follow k d s' g := by
  induction h generalizing s' with
  | done =>
      cases hs
      exact .done _ _
  | here _ ih =>
      cases hs with
      | keep _ hs => exact .here (ih hs)
      | dot _ hs => exact ih hs
  | up _ ih =>
      cases hs with
      | keep _ hs => exact .up (ih hs)
      | dot hn => simp at hn
  | free _ hn h =>
      cases hs with
      | keep _ hs => cases hs; exact .free _ hn h
      | dot hd => exact absurd hd hn.notHere
  | dir hn h _ ih =>
      cases hs with
      | keep _ hs => exact .dir hn h (ih hs)
      | dot hd => exact absurd hd hn.notHere
  | file _ hn h =>
      cases hs with
      | keep _ hs => cases hs; exact .file _ hn h
      | dot hd => exact absurd hd hn.notHere
  | link _ _ _ hff => simp [hf] at hff
  | jump hn h hl _ ih =>
      cases hs with
      | keep _ hs => exact .jump hn h (by simp [hf]) (ih (hs.append_left _))
      | dot hd => exact absurd hd hn.notHere

theorem thins_nil (h : Thins s []) : s = List.replicate s.length "." := by
  generalize he : ([] : List String) = s' at h
  induction h with
  | nil => rfl
  | keep => cases he
  | dot hn _ ih => rw [hn, List.length_cons, List.replicate_succ, ← ih he]

theorem thins_cons {n : String} (h : Thins s (n :: s')) :
    ∃ j s₁, s = List.replicate j "." ++ n :: s₁ ∧ Thins s₁ s' := by
  generalize he : n :: s' = s₂ at h
  induction h with
  | nil => cases he
  | keep m h _ =>
      cases he
      exact ⟨0, _, rfl, h⟩
  | dot hn _ ih =>
      obtain ⟨j, s₁, rfl, hs⟩ := ih he
      exact ⟨j + 1, s₁, by rw [hn]; rfl, hs⟩

theorem leads_replicate {follow : Bool} (h : Leads t follow k d s g) (j : Nat) :
    Leads t follow k d (List.replicate j "." ++ s) g := by
  induction j with
  | zero => exact h
  | succ j ih => exact .here ih

theorem getLast?_of_replicate {j : Nat} {n : String} {q : Place}
    (h : t.get? q = some .dir ∨ (List.replicate j "." ++ n :: s).getLast? ≠ some ".") :
    t.get? q = some .dir ∨ s.getLast? ≠ some "." := by
  refine h.imp_right fun hl => ?_
  cases s with
  | nil => exact nofun
  | cons m s =>
      rw [List.getLast?_append_cons] at hl
      exact hl

/-- With more dots, steps lead where they lead without them, unless a dot behind a file comes last. -/
theorem Leads.thicken {follow : Bool} {q : Place} (h : Leads t follow k d s' g)
    (hf : follow = true) (hs : Thins s s') (hg : g = .node q)
    (he : t.get? q = some .dir ∨ s.getLast? ≠ some ".") : Leads t follow k d s g := by
  induction h generalizing s with
  | done k d =>
      rw [thins_nil hs, ← List.append_nil (List.replicate _ _)]
      exact leads_replicate (.done k d) _
  | here _ ih =>
      obtain ⟨j, s₁, rfl, hs₁⟩ := thins_cons hs
      exact leads_replicate (.here (ih hs₁ hg (getLast?_of_replicate he))) j
  | up _ ih =>
      obtain ⟨j, s₁, rfl, hs₁⟩ := thins_cons hs
      exact leads_replicate (.up (ih hs₁ hg (getLast?_of_replicate he))) j
  | free => cases hg
  | dir hn h _ ih =>
      obtain ⟨j, s₁, rfl, hs₁⟩ := thins_cons hs
      exact leads_replicate (.dir hn h (ih hs₁ hg (getLast?_of_replicate he))) j
  | file k hn h =>
      obtain ⟨j, s₁, rfl, hs₁⟩ := thins_cons hs
      cases hg
      rcases getLast?_of_replicate he with hd | hl
      · rw [h] at hd
        cases hd
      · rw [thins_nil hs₁] at hl ⊢
        cases hlen : s₁.length with
        | zero => exact leads_replicate (.file k hn h) j
        | succ i =>
            rw [hlen, List.replicate_succ', List.getLast?_concat] at hl
            exact absurd rfl hl
  | link _ _ _ hff => simp [hf] at hff
  | @jump k d n p rest g hn h hl hr ih =>
      obtain ⟨j, s₁, rfl, hs₁⟩ := thins_cons hs
      refine leads_replicate (.jump hn h (by simp [hf]) ?_) j
      have he' := getLast?_of_replicate he
      cases s₁ with
      | nil =>
          cases hs₁
          exact hr
      | cons m s₁ =>
          refine ih (hs₁.append_left _) hg ?_
          rwa [List.getLast?_append_cons]

/-- Steps that go on after others lead through a directory, and from there on to where they lead. -/
theorem Leads.split {follow : Bool} {a b : List String} (h : Leads t follow k d s g)
    (hf : follow = true) (ht : t.WellFormed) (hd : t.get? d = some .dir) (hs : s = a ++ b)
    (hb : b ≠ []) : ∃ d' j, j ≤ k ∧ Leads t follow k d a (.node d') ∧ t.get? d' = some .dir ∧
      Leads t follow j d' b g := by
  have stay {k : Nat} {d : Place} {g : Goal} (hd : t.get? d = some .dir)
      (h : Leads t follow k d b g) : ∃ d' j, j ≤ k ∧ Leads t follow k d [] (.node d') ∧
        t.get? d' = some .dir ∧ Leads t follow j d' b g :=
    ⟨d, k, Nat.le_refl k, .done k d, hd, h⟩
  have last {a : List String} (hs : [] = a ++ b) : False :=
    hb (List.append_eq_nil_iff.mp hs.symm).2
  induction h generalizing a with
  | done => exact (last hs).elim
  | here h ih =>
      obtain ⟨rfl, rfl⟩ | ⟨a, rfl, hs₁⟩ := List.cons_eq_append_iff.mp hs
      · exact stay hd (.here h)
      · obtain ⟨d', j, hj, hl, hd', hr⟩ := ih hd hs₁
        exact ⟨d', j, hj, .here hl, hd', hr⟩
  | up h ih =>
      obtain ⟨rfl, rfl⟩ | ⟨a, rfl, hs₁⟩ := List.cons_eq_append_iff.mp hs
      · exact stay hd (.up h)
      · obtain ⟨d', j, hj, hl, hd', hr⟩ := ih (ht.dropLast hd) hs₁
        exact ⟨d', j, hj, .up hl, hd', hr⟩
  | dir hn h hr ih =>
      obtain ⟨rfl, rfl⟩ | ⟨a, rfl, hs₁⟩ := List.cons_eq_append_iff.mp hs
      · exact stay hd (.dir hn h hr)
      · obtain ⟨d', j, hj, hl, hd', hr⟩ := ih h hs₁
        exact ⟨d', j, hj, .dir hn h hl, hd', hr⟩
  | free k hn h =>
      obtain ⟨rfl, rfl⟩ | ⟨a, rfl, hs₁⟩ := List.cons_eq_append_iff.mp hs
      · exact stay hd (.free k hn h)
      · exact (last hs₁).elim
  | file k hn h =>
      obtain ⟨rfl, rfl⟩ | ⟨a, rfl, hs₁⟩ := List.cons_eq_append_iff.mp hs
      · exact stay hd (.file k hn h)
      · exact (last hs₁).elim
  | link _ _ _ hff => simp [hf] at hff
  | @jump k d n p rest g hn h hl hr ih =>
      obtain ⟨rfl, rfl⟩ | ⟨a, rfl, rfl⟩ := List.cons_eq_append_iff.mp hs
      · exact stay hd (.jump hn h hl hr)
      · obtain ⟨d', j, hj, hl', hd', hr⟩ := ih (get?_jump hd p) (List.append_assoc _ _ _).symm
        exact ⟨d', j, Nat.le_succ_of_le hj, .jump hn h (by simp [hf]) hl', hd', hr⟩

end

section

variable {t : FileTree} {p f : Path} {q q' : Place}

theorem leads_moves (h : t.canonical p = .ok q) :
    Leads t true linkLimit (t.origin p) p.moves (.node q) := by
  rw [canonical_eq_ok_iff, goal_eq_ok_iff] at h
  exact h.2.thin rfl (thins_filter p.steps)

theorem origin_of_same (h : p.same f = true) : t.origin p = t.origin f := by
  rw [origin, origin, Path.isAbsolute_of_same h]

theorem canonical_unique (h : p.same f = true) (hp : t.canonical p = .ok q)
    (hf : t.canonical f = .ok q') : q = q' := by
  have hp' := walk_of_leads (leads_moves hp)
  have hf' := walk_of_leads (leads_moves hf)
  rw [origin_of_same h, Path.moves_of_same h, hf'] at hp'
  cases hp'
  rfl

theorem spelled_of_moves (hf : f.text.isEmpty = false) (hp : Spelled p)
    (hm : ∀ n ∈ f.moves, n ∈ p.moves) : Spelled f := by
  refine ⟨hf, ?_⟩
  rw [Bool.eq_false_iff, ne_eq, List.contains_iff_mem]
  intro hc
  obtain ⟨n, hn, hcn⟩ := (Path.mem_toList_iff (by decide) (by decide)).mp hc
  exact hp.notMem ((Path.mem_toList_iff (by decide) (by decide)).mpr ⟨n, hm n hn, hcn⟩)

/-- A path that does not end in a dot leads to the file to which one with the same components
leads. -/
theorem canonical_of_same (ht : t.WellFormed) (h : p.same f = true) (hp : t.canonical p = .ok q)
    (hq : t.get? q ≠ some .dir) (he : f.steps.getLast? ≠ some ".") : t.canonical f = .ok q := by
  have hl := leads_moves hp
  rw [origin_of_same h, Path.moves_of_same h] at hl
  have hne : f.text.isEmpty = false := by
    rw [Bool.eq_false_iff]
    intro hempty
    have hf : f = ⟨""⟩ := congrArg Path.mk (String.isEmpty_iff.mp hempty)
    subst hf
    cases hl
    exact hq (ht.origin _)
  have hspelled := (goal_eq_ok_iff.mp (canonical_eq_ok_iff.mp hp)).1
  rw [canonical_eq_ok_iff, goal_eq_ok_iff]
  refine ⟨spelled_of_moves hne hspelled ?_, hl.thicken rfl (thins_filter f.steps) rfl (.inr he)⟩
  rw [Path.moves_of_same h]
  exact fun _ hn => hn

/-- The path above one that leads anywhere leads to a directory. -/
theorem isDir_parent (ht : t.WellFormed) (h : p.parent? = some f) (hf : f.text.isEmpty = false)
    (hp : t.canonical p = .ok q) : t.isDir f = true := by
  obtain ⟨hm, ha⟩ := (Path.moves_parent h).resolve_left (by simp [hf])
  have horigin : t.origin f = t.origin p := by rw [origin, origin, ha]
  have hspelled := (goal_eq_ok_iff.mp (canonical_eq_ok_iff.mp hp)).1
  obtain ⟨d, hl, hd⟩ : ∃ d, Leads t true linkLimit (t.origin f) f.moves (.node d) ∧
      t.get? d = some .dir := by
    rw [horigin, hm]
    by_cases hpm : p.moves = []
    · rw [hpm]
      exact ⟨t.origin p, .done _ _, ht.origin p⟩
    · obtain ⟨d, -, -, hl, hd, -⟩ := (leads_moves hp).split rfl ht (ht.origin p)
        (List.dropLast_concat_getLast hpm).symm (List.cons_ne_nil _ _)
      exact ⟨d, hl, hd⟩
  rw [isDir_eq_true_iff]
  refine ⟨d, ?_, hd⟩
  rw [canonical_eq_ok_iff, goal_eq_ok_iff]
  refine ⟨spelled_of_moves hf hspelled ?_, hl.thicken rfl (thins_filter f.steps) rfl (.inl hd)⟩
  rw [hm]
  exact fun _ hn => List.dropLast_sublist _ |>.mem hn

end

end FileTree
end TestRepair
