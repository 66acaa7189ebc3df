import TestRepair.Proofs.FileTree.Shape

/-!
The steps of a path without its dots, which are its moves. Paths with the same components have the
same moves, and the path above a path has all of them but the last one.
-/

namespace TestRepair

/-- The step that a component is, if it is one that moves. -/
def PathComponent.move? : PathComponent → Option String
  | root | here => none
  | up => some ".."
  | name s => some s

namespace Path

/-- The steps of a path without the dots. -/
def moves (p : Path) : List String := p.steps.filter (· ≠ ".")

theorem moves_eq_pieces (p : Path) :
    p.moves = (p.pieces.filter fun s => !isIdle s).map String.ofList := by
  have hdot : ∀ s : List Char, String.ofList s = "." ↔ s = ['.'] := by
    intro s
    rw [← String.toList_inj, String.toList_ofList]
    rfl
  have hnamed : ((p.pieces.filter (!·.isEmpty)).map String.ofList).filter (· ≠ ".") =
      (p.pieces.filter fun s => !isIdle s).map String.ofList := by
    rw [List.filter_map, List.filter_filter]
    congr 2
    funext s
    rw [Bool.eq_iff_iff]
    simp [isIdle, hdot, and_comm]
  rw [← hnamed, moves]
  dsimp only [steps]
  split
  · rw [List.filter_append]
    simp
  · rfl

theorem pieces_ne_nil (p : Path) : p.pieces ≠ [] := Text.splitAtChar_ne_nil _ _

theorem move?_component {s : List Char} : (component s).move? = some (String.ofList s) := by
  unfold component
  split
  · rename_i h
    rw [beq_iff_eq.mp h]
    rfl
  · rfl

theorem component_ne_root (s : List Char) : component s ≠ .root := by
  intro h
  unfold component at h
  split at h <;> cases h

theorem moves_innerComponents (ps : List (List Char)) :
    (innerComponents ps).filterMap PathComponent.move? =
      (ps.filter fun s => !isIdle s).map String.ofList := by
  rw [innerComponents, List.filterMap_map]
  have hmove : PathComponent.move? ∘ component = fun s => some (String.ofList s) :=
    funext fun _ => move?_component
  rw [hmove, List.filterMap_eq_map']

theorem moves_eq_components (p : Path) : p.moves = p.components.filterMap PathComponent.move? := by
  rw [moves_eq_pieces, components]
  cases hp : p.pieces with
  | nil => rfl
  | cons first rest =>
      simp only [List.filterMap_append, moves_innerComponents]
      by_cases h₁ : first = []
      · subst h₁
        cases p.isAbsolute <;> simp [isIdle, PathComponent.move?]
      · by_cases h₂ : first = ['.']
        · subst h₂
          simp [isIdle, PathComponent.move?]
        · simp [isIdle, h₁, h₂, move?_component]

theorem isAbsolute_iff_pieces {p : Path} : p.isAbsolute = true ↔ ∃ ps, ps ≠ [] ∧ p.pieces = [] :: ps := by
  unfold isAbsolute pieces
  cases p.text.toList with
  | nil => simp [Text.splitAtChar]
  | cons c s =>
      have hs := Text.splitAtChar_ne_nil '/' s
      by_cases hc : c = '/'
      · simp [Text.splitAtChar, hc, hs]
      · cases hp : Text.splitAtChar '/' s with
        | nil => exact absurd hp hs
        | cons p ps => simp [Text.splitAtChar, hc, hp]

theorem isAbsolute_eq_components (p : Path) :
    p.isAbsolute = (p.components.head? == some .root) := by
  have hinner : ∀ ps, (innerComponents ps).head? ≠ some .root := by
    intro ps h
    obtain ⟨s, -, hs⟩ := List.mem_map.mp (List.mem_of_head? h)
    exact component_ne_root s hs
  rw [Bool.eq_iff_iff, beq_iff_eq, components]
  cases hp : p.pieces with
  | nil => exact absurd hp (pieces_ne_nil p)
  | cons first rest =>
      by_cases h₁ : first = []
      · subst h₁
        cases ha : p.isAbsolute with
        | true => simp
        | false => simpa using hinner rest
      · have ha : p.isAbsolute ≠ true := by
          rw [ne_eq, isAbsolute_iff_pieces, hp]
          simp [h₁]
        by_cases h₂ : first = ['.']
        · simp [ha, h₂]
        · simp only [ha, List.isEmpty_eq_false_iff.mpr h₁, Bool.false_eq_true, if_false,
            beq_false_of_ne h₂, List.singleton_append, List.head?_cons, Option.some.injEq, false_iff]
          exact component_ne_root first

theorem isAbsolute_of_same {p q : Path} (h : p.same q = true) : p.isAbsolute = q.isAbsolute := by
  rw [isAbsolute_eq_components, isAbsolute_eq_components, beq_iff_eq.mp h]

theorem moves_of_same {p q : Path} (h : p.same q = true) : p.moves = q.moves := by
  rw [moves_eq_components, moves_eq_components, beq_iff_eq.mp h]

/-- What is spelled in a path besides slashes and dots is spelled in a move. -/
theorem mem_toList_iff {p : Path} {c : Char} (hs : c ≠ '/') (hd : c ≠ '.') :
    c ∈ p.text.toList ↔ ∃ n ∈ p.moves, c ∈ n.toList := by
  have hp : c ∈ p.text.toList ↔ ∃ s ∈ p.pieces, c ∈ s := by
    rw [pieces, Text.mem_splitAtChar]
    exact (and_iff_left hs).symm
  rw [hp, moves_eq_pieces]
  constructor
  · rintro ⟨s, hm, hc⟩
    refine ⟨String.ofList s, List.mem_map_of_mem (List.mem_filter.mpr ⟨hm, ?_⟩), by simpa using hc⟩
    have h₁ : s ≠ [] := List.ne_nil_of_mem hc
    have h₂ : s ≠ ['.'] := fun he => hd (List.mem_singleton.mp (he ▸ hc))
    simp [isIdle, h₁, h₂]
  · rintro ⟨n, hn, hc⟩
    obtain ⟨s, hm, rfl⟩ := List.mem_map.mp hn
    exact ⟨s, (List.mem_filter.mp hm).1, by simpa using hc⟩

theorem noSlash_of_mem_pieces {p : Path} {s : List Char} (h : s ∈ p.pieces) : '/' ∉ s :=
  fun hc => (Text.mem_splitAtChar.mp ⟨s, h, hc⟩).2 rfl

theorem filter_dropIdleEnd (ps : List (List Char)) :
    (dropIdleEnd ps).filter (fun s => !isIdle s) = ps.filter fun s => !isIdle s := by
  have hdrop : ∀ l : List (List Char),
      (l.dropWhile isIdle).filter (fun s => !isIdle s) = l.filter fun s => !isIdle s := by
    intro l
    induction l with
    | nil => rfl
    | cons s l ih => by_cases h : isIdle s <;> simp [h, ih]
  cases ps with
  | nil => rfl
  | cons first rest =>
      rw [dropIdleEnd, List.filter_cons, List.filter_cons, List.filter_reverse, hdrop,
        List.filter_reverse, List.reverse_reverse]

theorem mem_of_mem_dropIdleEnd {ps : List (List Char)} {s : List Char} (h : s ∈ dropIdleEnd ps) :
    s ∈ ps := by
  cases ps with
  | nil => exact h
  | cons first rest =>
      rcases List.mem_cons.mp h with rfl | h
      · exact List.mem_cons_self
      · rw [List.mem_reverse] at h
        exact List.mem_cons_of_mem _ (List.mem_reverse.mp ((List.dropWhile_sublist _).mem h))

theorem dropIdleEnd_last {ps rest : List (List Char)} {first last : List Char}
    (h : dropIdleEnd ps = first :: (rest ++ [last])) : isIdle last = false := by
  cases ps with
  | nil => cases h
  | cons p ps =>
      have hrest : ps.reverse.dropWhile isIdle = last :: rest.reverse := by
        have := congrArg (fun l => l.tail.reverse) h
        simpa [dropIdleEnd] using this
      have hhead := List.head?_dropWhile_not isIdle ps.reverse
      rw [hrest] at hhead
      simpa using hhead

/-- Pieces that were joined to a path are its pieces again, but for the root. -/
theorem pieces_ofPieces {absolute : Bool} {first : List Char} {rest : List (List Char)}
    (hs : ∀ s ∈ first :: rest, '/' ∉ s) (ha : absolute = true ↔ first = []) :
    (ofPieces absolute (first :: rest)).pieces.filter (fun s => !isIdle s) =
        (first :: rest).filter (fun s => !isIdle s) ∧
      (ofPieces absolute (first :: rest)).isAbsolute = absolute := by
  by_cases hroot : absolute = true ∧ rest = []
  · obtain ⟨rfl, rfl⟩ := hroot
    cases ha.mp rfl
    exact ⟨rfl, rfl⟩
  · have hif : (absolute && first :: rest == [[]]) = false := by
      cases absolute with
      | false => rfl
      | true => simpa using fun _ h => hroot ⟨rfl, h⟩
    have hp : (ofPieces absolute (first :: rest)).pieces = first :: rest := by
      rw [ofPieces, hif, if_neg Bool.false_ne_true, pieces, String.toList_ofList,
        Text.joinWith_eq_intercalate, Text.splitAtChar_intercalate (List.cons_ne_nil _ _) hs]
    refine ⟨by rw [hp], ?_⟩
    rw [Bool.eq_iff_iff, isAbsolute_iff_pieces, hp, ha]
    constructor
    · rintro ⟨ps, -, he⟩
      exact (List.cons.inj he).1
    · intro hf
      exact ⟨rest, fun hr => hroot ⟨ha.mpr hf, hr⟩, by rw [hf]⟩

/-- The path above a path is empty, or spelled by its pieces without the last one and without the idle
ones then at the end. -/
theorem parent?_cases {p d : Path} (h : p.parent? = some d) :
    d.text.isEmpty = true ∨ ∃ first rest last, dropIdleEnd p.pieces = first :: (rest ++ [last]) ∧
      d = ofPieces p.isAbsolute (dropIdleEnd (first :: rest)) := by
  unfold parent? at h
  split at h
  · cases h
  · split at h
    · cases h
      exact .inl rfl
    · rename_i hne
      cases h
      right
      obtain ⟨first, r, hr⟩ : ∃ first r, dropIdleEnd p.pieces = first :: r := by
        obtain ⟨first, ps, hp⟩ := List.exists_cons_of_ne_nil (pieces_ne_nil p)
        rw [hp]
        exact ⟨_, _, rfl⟩
      have hrne : r ≠ [] := by
        rintro rfl
        exact hne (by rw [hr]; rfl)
      obtain ⟨rest, last, hrl⟩ := (List.eq_nil_or_concat r).resolve_left hrne
      rw [hrl, List.concat_eq_append] at hr
      refine ⟨first, rest, last, hr, ?_⟩
      rw [hr, ← List.cons_append, List.dropLast_concat]

section

variable {p : Path} {first last : List Char} {rest : List (List Char)}
  (h : dropIdleEnd p.pieces = first :: (rest ++ [last]))

include h

theorem noSlash_of_dropIdleEnd : ∀ s ∈ dropIdleEnd (first :: rest), '/' ∉ s := by
  intro s hm
  have hmem : s ∈ dropIdleEnd p.pieces := by
    rw [h, ← List.cons_append]
    exact List.mem_append_left _ (mem_of_mem_dropIdleEnd hm)
  exact noSlash_of_mem_pieces (mem_of_mem_dropIdleEnd hmem)

theorem isAbsolute_iff_front : p.isAbsolute = true ↔ first = [] := by
  obtain ⟨first', ps, hp⟩ := List.exists_cons_of_ne_nil (pieces_ne_nil p)
  rw [hp] at h
  obtain rfl : first' = first := (List.cons.inj h).1
  rw [isAbsolute_iff_pieces, hp]
  constructor
  · rintro ⟨_, -, he⟩
    exact (List.cons.inj he).1
  · rintro rfl
    refine ⟨ps, ?_, rfl⟩
    rintro rfl
    simp [dropIdleEnd] at h

theorem moves_of_dropIdleEnd :
    p.moves = ((first :: rest).filter fun s => !isIdle s).map String.ofList ++
      [String.ofList last] := by
  have hlast : [last].filter (fun s => !isIdle s) = [last] := by
    simp [dropIdleEnd_last h]
  rw [moves_eq_pieces, ← filter_dropIdleEnd p.pieces, h, ← List.cons_append, List.filter_append,
    hlast, List.map_append, List.map_singleton]

end

/-- The path above a path takes its moves but the last one, from where it takes them. -/
theorem moves_parent {p d : Path} (h : p.parent? = some d) :
    d.text.isEmpty = true ∨ d.moves = p.moves.dropLast ∧ d.isAbsolute = p.isAbsolute := by
  refine (parent?_cases h).imp_right ?_
  rintro ⟨first, rest, last, hp, rfl⟩
  obtain ⟨hfilter, hkeep⟩ := pieces_ofPieces (noSlash_of_dropIdleEnd hp) (isAbsolute_iff_front hp)
  refine ⟨?_, hkeep⟩
  rw [moves_of_dropIdleEnd hp, List.dropLast_concat, ← filter_dropIdleEnd, moves_eq_pieces]
  exact congrArg (List.map String.ofList) hfilter

theorem length_moves_le (p : Path) : p.moves.length ≤ p.text.length := by
  have hlength : ∀ ps : List (List Char),
      (ps.filter fun s => !isIdle s).length ≤ ps.flatten.length := by
    intro ps
    induction ps with
    | nil => exact Nat.le_refl _
    | cons s ps ih =>
        cases s with
        | nil => simpa [isIdle] using ih
        | cons c s =>
            have hle := List.length_filter_le (fun s => !isIdle s) [c :: s]
            rw [← List.singleton_append, List.filter_append]
            simp only [List.length_append, List.flatten_append, List.length_cons, List.length_nil,
              List.flatten_cons, List.flatten_nil] at ih hle ⊢
            omega
  rw [moves_eq_pieces, List.length_map, ← String.length_toList]
  refine Nat.le_trans (hlength p.pieces) ?_
  rw [pieces, Text.flatten_splitAtChar]
  exact List.length_filter_le _ _

end Path

end TestRepair
