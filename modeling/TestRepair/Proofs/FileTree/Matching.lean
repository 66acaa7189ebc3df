import TestRepair.Proofs.FileTree.Searching

/-!
Endings without wildcards. They are read as the names that end in a dot and the ending, whatever
directory the search is for, since nothing in an escaped directory is read as a wildcard.
-/

namespace TestRepair
namespace Glob

variable {e s w : List Char} {c : Char}

/-- A text that a pattern takes for nothing but itself. -/
def Literal (s : List Char) : Prop := ∀ c ∈ s, c ≠ '?' ∧ c ≠ '*' ∧ c ≠ '['

instance (s : List Char) : Decidable (Literal s) := List.decidableBAll _ s

section Names

theorem tokens?_cons (hs : Literal [c]) (budget position : Nat) (s : List Char) :
    tokens? (budget + 1) position (c :: s) =
      (tokens? budget (position + 1) s).map (.char c :: ·) := by
  obtain ⟨one, run, set⟩ := hs c List.mem_cons_self
  rw [tokens?]
  · cases tokens? budget (position + 1) s <;> rfl
  all_goals assumption

theorem tokens?_of_literal (hs : Literal s) (budget position : Nat) (enough : s.length ≤ budget) :
    tokens? budget position s = .ok (s.map .char) := by
  induction s generalizing budget position with
  | nil => cases budget <;> rfl
  | cons c s ih =>
    obtain ⟨first, rest⟩ := List.forall_mem_cons.mp hs
    obtain ⟨budget, rfl⟩ := Nat.exists_eq_add_of_le' (Nat.lt_of_lt_of_le (Nat.succ_pos _) enough)
    rw [tokens?_cons (by simpa [Literal] using first),
      ih rest budget _ (Nat.le_of_succ_le_succ enough)]
    rfl

/-- What the name of a source is matched with. -/
def endingTokens (e : List Char) : List GlobToken := .anyRun :: .char '.' :: e.map .char

theorem plain_of_literal {ending : String} (h : Literal ending.toList) (slash : '/' ∉ ending.toList) :
    Plain ending (endingTokens ending.toList) := by
  refine ⟨slash, ?_⟩
  have other : ('*' :: '.' :: ending.toList == ['*', '*']) = false := by simp
  have dot : tokens? (ending.toList.length + 1) 1 ('.' :: ending.toList) =
      .ok (.char '.' :: ending.toList.map .char) := by
    rw [tokens?_cons (by decide), tokens?_of_literal h _ _ (Nat.le_refl _)]
    rfl
  rw [component?, other, if_neg Bool.false_ne_true, List.length_cons, List.length_cons, tokens?, dot]
  rfl

theorem mem_tails : w ∈ tails s ↔ w <:+ s := by
  induction s with
  | nil => simp [tails]
  | cons c s ih => rw [tails, List.mem_cons, ih, List.suffix_cons_iff]

theorem nameMatches_chars : nameMatches (e.map .char) w = true ↔ w = e := by
  induction e generalizing w with
  | nil => simp [nameMatches]
  | cons c e ih =>
    cases w with
    | nil => simp [nameMatches]
    | cons d w => simp [nameMatches, tokenMatches, ih]

theorem nameMatches_endingTokens : nameMatches (endingTokens e) w = true ↔ '.' :: e <:+ w := by
  have chars (v : List Char) : nameMatches (.char '.' :: e.map .char) v = true ↔ v = '.' :: e :=
    nameMatches_chars (e := '.' :: e)
  simp only [endingTokens, nameMatches, List.any_eq_true, mem_tails, chars]
  exact ⟨fun ⟨v, hv, same⟩ => same ▸ hv, fun h => ⟨_, h, rfl⟩⟩

end Names

section Checking

variable {budget position : Nat} {before : Option Char}

theorem check_nil : check budget position before [] = .ok () := by cases budget <;> rfl

theorem check_step (run : c ≠ '*') (set : c ≠ '[') : check (budget + 1) position before (c :: s) =
    check budget (position + 1) (some c) s := by
  rw [check]
  all_goals assumption

theorem check_of_literal (h : Literal e) : check budget position before e = .ok () := by
  induction e generalizing budget position before with
  | nil => exact check_nil
  | cons c e ih =>
    obtain ⟨⟨-, run, set⟩, rest⟩ := List.forall_mem_cons.mp h
    cases budget with
    | zero => rfl
    | succ budget => exact (check_step run set).trans (ih rest)

theorem check_ending (h : Literal e) : check budget position before ('*' :: '.' :: e) = .ok () := by
  cases budget with
  | zero => rfl
  | succ budget =>
    have dot : Literal ('.' :: e) := List.forall_mem_cons.mpr ⟨by decide, h⟩
    rw [check]
    simpa using check_of_literal dot

theorem check_anyDirs (h : Literal e) :
    check budget position before ("/**/".toList ++ '*' :: '.' :: e) = .ok () := by
  cases budget with
  | zero => rfl
  | succ budget =>
    change check (budget + 1) position before ('/' :: '*' :: '*' :: '/' :: '*' :: '.' :: e) = _
    rw [check_step (by decide) (by decide)]
    cases budget with
    | zero => rfl
    | succ budget =>
      rw [check]
      simpa using check_ending h

theorem escape_cons (c : Char) (dir : List Char) : escape (c :: dir) =
    (if "?*[]".toList.contains c then ['[', c, ']'] else [c]) ++ escape dir := rfl

/-- No character of an escaped directory is taken for a wildcard. -/
theorem check_escape (h : Literal e) (dir : List Char) :
    check budget position before (escape dir ++ ("/**/".toList ++ '*' :: '.' :: e)) = .ok () := by
  induction dir generalizing budget position before with
  | nil => exact check_anyDirs h
  | cons c dir ih =>
    cases budget with
    | zero => rfl
    | succ budget =>
      rw [escape_cons]
      split
      · next special =>
        have other : c ≠ '!' := by
          rintro rfl
          exact absurd special (by decide)
        have body (s : List Char) : bracket? (c :: ']' :: s) = some (false, [c], s) := by
          rw [bracket?]
          · rfl
          · exact fun _ _ mark _ => other mark
          · exact fun mark _ => other mark
        change check (budget + 1) position before ('[' :: c :: ']' :: (escape dir ++ _)) = _
        rw [check, body]
        exact ih
      · next plain =>
        have run : c ≠ '*' := by
          rintro rfl
          exact plain (by decide)
        have set : c ≠ '[' := by
          rintro rfl
          exact plain (by decide)
        exact (check_step run set).trans ih

/-- What is found with an ending without wildcards. -/
theorem withEnding_of_literal (t : FileTree) (dir : Path) {ending : String}
    (h : Literal ending.toList) (slash : '/' ∉ ending.toList) : withEnding t dir ending =
      .ok ((below t (Glob.budget t) (spelledBase dir)).filter fun p =>
        nameMatches (endingTokens ending.toList) (lastName p)) := by
  rw [withEnding_eq (plain_of_literal h slash)]
  dsimp only
  rw [List.append_assoc, check_escape h]
  rfl

end Checking

end Glob
end TestRepair
