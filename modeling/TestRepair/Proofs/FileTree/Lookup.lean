import TestRepair.FileTree.Write

/-!
Where look-ups lead, as derivations. A derivation has one rule for each way in which `walk` succeeds
and none for its errors, so that what growing a tree keeps is proved by induction on derivations.
-/

namespace TestRepair
namespace FileTree

/-- A step that names an entry of a directory. -/
structure NamesEntry (n : String) : Prop where
  notHere : n ≠ "."
  notUp : n ≠ ".."
  short : n.utf8ByteSize ≤ nameLimit

/-- From the directory `d` the steps lead to `g` and follow `k` links at most. -/
inductive Leads (t : FileTree) (follow : Bool) : Nat → Place → List String → Goal → Prop
  | done (k : Nat) (d : Place) : Leads t follow k d [] (.node d)
  | here {k : Nat} {d : Place} {rest : List String} {g : Goal} (h : Leads t follow k d rest g) :
      Leads t follow k d ("." :: rest) g
  | up {k : Nat} {d : Place} {rest : List String} {g : Goal}
      (h : Leads t follow k d.dropLast rest g) : Leads t follow k d (".." :: rest) g
  | free (k : Nat) {d : Place} {n : String} (hn : NamesEntry n) (h : t.get? (d ++ [n]) = none) :
      Leads t follow k d [n] (.free d n)
  | dir {k : Nat} {d : Place} {n : String} {rest : List String} {g : Goal} (hn : NamesEntry n)
      (h : t.get? (d ++ [n]) = some .dir) (hr : Leads t follow k (d ++ [n]) rest g) :
      Leads t follow k d (n :: rest) g
  | file (k : Nat) {d : Place} {n : String} {b : ByteArray} {m : Nat} (hn : NamesEntry n)
      (h : t.get? (d ++ [n]) = some (.file b m)) : Leads t follow k d [n] (.node (d ++ [n]))
  | link (k : Nat) {d : Place} {n : String} {p : Path} (hn : NamesEntry n)
      (h : t.get? (d ++ [n]) = some (.link p)) (hf : follow = false) :
      Leads t follow k d [n] (.node (d ++ [n]))
  | jump {k : Nat} {d : Place} {n : String} {p : Path} {rest : List String} {g : Goal}
      (hn : NamesEntry n) (h : t.get? (d ++ [n]) = some (.link p))
      (hf : ¬(rest = [] ∧ follow = false))
      (hr : Leads t follow k (if p.isAbsolute then [] else d) (p.steps ++ rest) g) :
      Leads t follow (k + 1) d (n :: rest) g

theorem walk_nil (t : FileTree) (follow : Bool) (k : Nat) (d : Place) :
    t.walk follow k d [] = .ok (.node d) := by cases k <;> rfl

theorem walk_cons (t : FileTree) (follow : Bool) (k : Nat) (d : Place) (n : String)
    (rest : List String) :
    t.walk follow k d (n :: rest) =
      if n = "." then t.walk follow k d rest
      else if n = ".." then t.walk follow k d.dropLast rest
      else if nameLimit < n.utf8ByteSize then .error .nameTooLong
      else
        match t.get? (d ++ [n]) with
        | none => if rest = [] then .ok (.free d n) else .error .notFound
        | some .dir => t.walk follow k (d ++ [n]) rest
        | some (.file ..) => if rest = [] then .ok (.node (d ++ [n])) else .error .notDirectory
        | some (.link p) =>
          if rest = [] ∧ follow = false then .ok (.node (d ++ [n]))
          else
            match k with
            | 0 => .error .tooManyLinks
            | k + 1 => t.walk follow k (if p.isAbsolute then [] else d) (p.steps ++ rest) := by
  cases k <;> rfl

/-- A walk is followed by induction on the links that are left, and on the steps up to the next link. -/
theorem walk_induction {motive : Nat → Place → List String → Prop}
    (nil : ∀ k d, motive k d [])
    (cons : ∀ k d n rest, (∀ d, motive k d rest) →
      (∀ j d steps, k = j + 1 → motive j d steps) → motive k d (n :: rest))
    (k : Nat) (d : Place) (steps : List String) : motive k d steps := by
  induction k generalizing d steps with
  | zero =>
      induction steps generalizing d with
      | nil => exact nil 0 d
      | cons n rest ih => exact cons 0 d n rest ih nofun
  | succ k jump =>
      induction steps generalizing d with
      | nil => exact nil (k + 1) d
      | cons n rest ih =>
          refine cons (k + 1) d n rest ih fun j d steps h => ?_
          cases h
          exact jump d steps

theorem leads_of_walk {t : FileTree} {follow : Bool} {k : Nat} {d : Place} {steps : List String}
    {g : Goal} (h : t.walk follow k d steps = .ok g) : Leads t follow k d steps g := by
  induction k, d, steps using walk_induction with
  | nil k d =>
      rw [walk_nil] at h
      cases h
      exact .done _ _
  | cons k d n rest ih jump =>
      rw [walk_cons] at h
      by_cases h1 : n = "."
      · rw [if_pos h1] at h
        exact h1 ▸ .here (ih d h)
      rw [if_neg h1] at h
      by_cases h2 : n = ".."
      · rw [if_pos h2] at h
        exact h2 ▸ .up (ih _ h)
      rw [if_neg h2] at h
      by_cases h3 : nameLimit < n.utf8ByteSize
      · rw [if_pos h3] at h
        cases h
      rw [if_neg h3] at h
      have hn : NamesEntry n := ⟨h1, h2, Nat.le_of_not_lt h3⟩
      cases hg : t.get? (d ++ [n]) with
      | none =>
          simp only [hg] at h
          split at h
          · next hr =>
            cases h
            exact hr ▸ .free _ hn hg
          · cases h
      | some node =>
          cases node with
          | dir =>
              simp only [hg] at h
              exact .dir hn hg (ih _ h)
          | file b m =>
              simp only [hg] at h
              split at h
              · next hr =>
                cases h
                subst hr
                exact .file _ hn hg
              · cases h
          | link p =>
              simp only [hg] at h
              by_cases hf : rest = [] ∧ follow = false
              · rw [if_pos hf] at h
                cases h
                obtain ⟨rfl, hf⟩ := hf
                exact .link _ hn hg hf
              · rw [if_neg hf] at h
                cases k with
                | zero => cases h
                | succ k => exact .jump hn hg hf (jump k _ _ rfl h)

theorem walk_of_leads {t : FileTree} {follow : Bool} {k : Nat} {d : Place} {steps : List String}
    {g : Goal} (h : Leads t follow k d steps g) : t.walk follow k d steps = .ok g := by
  induction h with
  | done => rw [walk_nil]
  | here _ ih => rw [walk_cons]; simpa using ih
  | up _ ih => rw [walk_cons]; simpa using ih
  | free _ hn h => rw [walk_cons]; simp [hn.notHere, hn.notUp, Nat.not_lt.mpr hn.short, h]
  | dir hn h _ ih => rw [walk_cons]; simpa [hn.notHere, hn.notUp, Nat.not_lt.mpr hn.short, h] using ih
  | file _ hn h => rw [walk_cons]; simp [hn.notHere, hn.notUp, Nat.not_lt.mpr hn.short, h]
  | link _ hn h hf => rw [walk_cons]; simp [hn.notHere, hn.notUp, Nat.not_lt.mpr hn.short, h, hf]
  | jump hn h hf _ ih =>
      rw [walk_cons]
      simpa [hn.notHere, hn.notUp, Nat.not_lt.mpr hn.short, h, hf] using ih

theorem walk_eq_ok_iff {t : FileTree} {follow : Bool} {k : Nat} {d : Place} {steps : List String}
    {g : Goal} : t.walk follow k d steps = .ok g ↔ Leads t follow k d steps g :=
  ⟨leads_of_walk, walk_of_leads⟩

end FileTree
end TestRepair
