import TestRepair.FileTree.Glob
import TestRepair.Proofs.FileTree.Components
import TestRepair.Proofs.FileTree.PlacePath

/-!
The route that a path spells: its components, where a leading dot does not count. Going on by a name
adds this name to the route, and the base of a search has the route of the directory that it is for.
-/

namespace TestRepair
namespace Path

variable {p q : Path} {n : String} {names : List String}

/-- The components but a leading dot. -/
def route (p : Path) : List PathComponent := p.components.filter (· ≠ .here)

theorem filter_inner (p : Path) : p.inner.filter (· ≠ .here) = p.inner :=
  List.filter_eq_self.mpr fun c hc => by
    simpa using fun e : c = .here => here_notMem_inner p (e ▸ hc)

theorem route_of_absolute (h : p.isAbsolute = true) : p.route = .root :: p.inner := by
  rw [route, components_of_absolute h, List.filter_cons_of_pos (by decide), filter_inner]

theorem route_of_relative (h : p.isAbsolute = false) : p.route = p.inner := by
  rw [route]
  rcases components_of_relative h with same | same
  · rw [same, filter_inner]
  · rw [same, List.filter_cons_of_neg (by decide), filter_inner]

theorem isAbsolute_of_route (h : p.route = q.route) : p.isAbsolute = q.isAbsolute := by
  have absolute (r : Path) : r.isAbsolute = true ↔ .root ∈ r.route := by
    cases hr : r.isAbsolute with
    | true => simp [route_of_absolute hr]
    | false => simp [route_of_relative hr, root_notMem_inner]
  rw [Bool.eq_iff_iff, absolute, absolute, h]

theorem moves_eq_route (p : Path) : p.moves = p.route.filterMap PathComponent.move? := by
  rw [moves_eq_components, route, List.filterMap_filter]
  refine List.filterMap_congr fun c _ => ?_
  cases c <;> rfl

theorem moves_of_route (h : p.route = q.route) : p.moves = q.moves := by
  rw [moves_eq_route, moves_eq_route, h]

/-- Where a path goes on by a name, the name is its last piece. -/
theorem pieces_child (hn : Spoken (.name n)) : ∃ ps, (p.child n).pieces = ps ++ [n.toList] ∧
    (p.pieces = ps ∨ p.pieces = ps ++ [[]]) ∧ (p.child n).isAbsolute = p.isAbsolute := by
  obtain ⟨busy, plain, -⟩ := hn.text
  change isIdle n.toList = false at busy
  change '/' ∉ n.toList at plain
  have relative : (⟨n⟩ : Path).isAbsolute = false := by
    cases text : n.toList with
    | nil => simp [isAbsolute, text]
    | cons c s =>
      have other : c ≠ '/' := fun e => plain (by rw [text, e]; exact List.mem_cons_self)
      simp [isAbsolute, text, other]
  have alone : Text.splitAtChar '/' n.toList = [n.toList] := Text.splitAtChar_of_notMem plain
  rw [child, join, relative, if_neg Bool.false_ne_true]
  by_cases empty : p.text = ""
  · refine ⟨[], ?_, .inr ?_, ?_⟩
    · simpa [empty, pieces] using alone
    · simp [pieces, empty, Text.splitAtChar]
    · simpa [empty, isAbsolute] using relative
  · obtain ⟨c, s, text⟩ := List.exists_cons_of_ne_nil (show p.text.toList ≠ [] by simpa using empty)
    have kept (x : String) : (⟨p.text ++ x⟩ : Path).isAbsolute = p.isAbsolute := by
      simp [isAbsolute, text]
    by_cases slash : p.text.toList.getLast? = some '/'
    · obtain ⟨front, ending⟩ := List.getLast?_eq_some_iff.mp slash
      refine ⟨Text.splitAtChar '/' front, ?_, .inr ?_, ?_⟩
      · simp [pieces, ending, Text.splitAtChar_append_cons, alone]
      · rw [pieces, ending, Text.splitAtChar_concat]
      · simpa [slash] using kept n
    · have full : p.text.isEmpty = false := by simpa using empty
      refine ⟨p.pieces, ?_, .inl rfl, ?_⟩
      · simp [slash, full, pieces, Text.splitAtChar_append_cons, alone]
      · rw [full]
        simpa [slash, String.append_assoc] using kept ("/" ++ n)

theorem components_child (hn : Spoken (.name n)) :
    (p.child n).components = p.components ++ [.name n] := by
  obtain ⟨busy, -, component⟩ := hn.text
  change isIdle n.toList = false at busy
  change Path.component n.toList = .name n at component
  obtain ⟨ps, joined, same, absolute⟩ := pieces_child (p := p) hn
  have last : innerComponents [n.toList] = [.name n] := by
    rw [innerComponents_cons busy, component]
    rfl
  cases ps with
  | nil =>
    have empty : p.pieces = [[]] := same.resolve_left (pieces_ne_nil p)
    have relative : p.isAbsolute = false := by
      rw [← Bool.not_eq_true, isAbsolute_iff_pieces, empty]
      simp
    have other : n.toList.isEmpty = false ∧ (n.toList == ['.']) = false := by
      simpa [isIdle] using busy
    simp only [components, joined, empty, List.nil_append, other.1, other.2, relative, List.isEmpty_nil,
      if_true, Bool.false_eq_true, if_false, component]
    rfl
  | cons first rest =>
    have back : ∃ rest', p.pieces = first :: rest' ∧ innerComponents rest' = innerComponents rest := by
      rcases same with same | same
      · exact ⟨rest, same, rfl⟩
      · refine ⟨rest ++ [[]], by rw [same, List.cons_append], ?_⟩
        rw [innerComponents_append, innerComponents_cons_idle rfl]
        exact List.append_nil _
    obtain ⟨rest', pieces, inside⟩ := back
    simp only [components, joined, pieces, List.cons_append, absolute, innerComponents_append, last,
      inside, List.append_assoc]

theorem route_child (hn : Spoken (.name n)) : (p.child n).route = p.route ++ [.name n] := by
  rw [route, components_child hn, List.filter_append]
  rfl

theorem moves_child (hn : Spoken (.name n)) : (p.child n).moves = p.moves ++ [n] := by
  rw [moves_eq_route, route_child hn, List.filterMap_append, ← moves_eq_route]
  rfl

theorem lastName_child (hn : Spoken (.name n)) : Glob.lastName (p.child n) = n.toList := by
  obtain ⟨ps, joined, -⟩ := pieces_child (p := p) hn
  rw [Glob.lastName, joined, List.getLast?_concat]
  rfl

theorem steps_child (hn : Spoken (.name n)) : (p.child n).steps.getLast? ≠ some "." := by
  obtain ⟨busy, -, -⟩ := hn.text
  change isIdle n.toList = false at busy
  have proper : n.toList.isEmpty = false ∧ n ≠ "." := by
    refine ⟨by simpa [isIdle] using (Bool.or_eq_false_iff.mp busy).1, ?_⟩
    rintro rfl
    cases busy
  obtain ⟨ps, joined, -⟩ := pieces_child (p := p) hn
  have slash : ((p.child n).text.toList.getLast? == some '/') = false := by
    rw [beq_eq_false_iff_ne]
    intro ending
    obtain ⟨front, split⟩ := List.getLast?_eq_some_iff.mp ending
    rw [pieces, split, Text.splitAtChar_concat] at joined
    have last := List.append_inj_right' joined rfl
    simp [← (List.cons.inj last).1] at proper
  simp [steps, joined, slash, proper]

/-- The path that goes on from `p` by names. -/
def down (p : Path) (names : List String) : Path := names.foldl child p

@[simp]
theorem down_nil (p : Path) : p.down [] = p := rfl

@[simp]
theorem down_cons (p : Path) (n : String) (names : List String) :
    p.down (n :: names) = (p.child n).down names := rfl

theorem components_down (h : ∀ n ∈ names, Spoken (.name n)) :
    (p.down names).components = p.components ++ names.map .name := by
  induction names generalizing p with
  | nil => simp
  | cons n names ih =>
    obtain ⟨first, rest⟩ := List.forall_mem_cons.mp h
    rw [down_cons, ih rest, components_child first, List.append_assoc]
    rfl

theorem route_down (h : ∀ n ∈ names, Spoken (.name n)) :
    (p.down names).route = p.route ++ names.map .name := by
  rw [route, components_down h, List.filter_append, ← route,
    List.filter_eq_self.mpr (by simp)]

/-- Behind some names a path ends in the last one of them. -/
theorem down_concat (p : Path) (names : List String) (n : String) :
    p.down (names ++ [n]) = (p.down names).child n := by
  rw [down, List.foldl_append]
  rfl

theorem spoken_of_mem_components (h : .name n ∈ p.components) : Spoken (.name n) := by
  cases absolute : p.isAbsolute with
  | true =>
    rw [components_of_absolute absolute] at h
    exact spoken_of_mem_inner ((List.mem_cons.mp h).resolve_left nofun)
  | false =>
    rcases components_of_relative absolute with same | same
    · exact spoken_of_mem_inner (same ▸ h)
    · rw [same] at h
      exact spoken_of_mem_inner ((List.mem_cons.mp h).resolve_left nofun)

theorem innerComponents_filter (ps : List (List Char)) :
    innerComponents (ps.filter (!·.isEmpty)) = innerComponents ps := by
  rw [innerComponents, List.filter_filter, innerComponents]
  congr 2
  funext s
  cases s <;> simp [isIdle]

theorem innerComponents_dropWhile (ps : List (List Char)) :
    innerComponents (ps.dropWhile (· == ['.'])) = innerComponents ps := by
  induction ps with
  | nil => rfl
  | cons s ps ih =>
    by_cases dot : s = ['.']
    · subst dot
      rw [List.dropWhile_cons_of_pos rfl, ih, innerComponents_cons_idle rfl]
    · rw [List.dropWhile_cons_of_neg (by simpa using dot)]

theorem components_spelledBase (p : Path) : (Glob.spelledBase p).components = p.route := by
  have plain : ∀ s ∈ p.pieces.filter (!·.isEmpty), '/' ∉ s :=
    fun s hs => noSlash_of_mem_pieces (List.mem_filter.mp hs).1
  have full : ∀ s ∈ p.pieces.filter (!·.isEmpty), s.isEmpty = false :=
    fun s hs => by simpa using (List.mem_filter.mp hs).2
  have same : innerComponents (p.pieces.filter (!·.isEmpty)) = p.inner := innerComponents_filter _
  cases absolute : p.isAbsolute with
  | true =>
    rw [route_of_absolute absolute, ← same]
    simp only [Glob.spelledBase, absolute, if_true]
    generalize p.pieces.filter (!·.isEmpty) = ps at plain
    have start : (⟨"/" ++ String.ofList (Text.joinWith ['/'] ps)⟩ : Path).isAbsolute = true := by
      simp [isAbsolute]
    have text : ("/" ++ String.ofList (Text.joinWith ['/'] ps)).toList =
        '/' :: Text.joinWith ['/'] ps := by
      simp
    rw [components_of_absolute start, inner, pieces, text, Text.splitAtChar, if_pos rfl,
      innerComponents_cons_idle rfl]
    by_cases ne : ps = []
    · rw [ne]
      rfl
    · rw [Text.joinWith_eq_intercalate, Text.splitAtChar_intercalate ne plain]
  | false =>
    rw [route_of_relative absolute, ← same, ← innerComponents_dropWhile]
    simp only [Glob.spelledBase, absolute, Bool.false_eq_true, if_false]
    cases rest : (p.pieces.filter (!·.isEmpty)).dropWhile (· == ['.']) with
    | nil => rfl
    | cons first ps =>
      have inside : ∀ s ∈ first :: ps, s ∈ p.pieces.filter (!·.isEmpty) := fun s hs =>
        (List.dropWhile_sublist _).mem (rest ▸ hs)
      have dotless : (first == ['.']) = false := by
        have head := List.head?_dropWhile_not (· == ['.']) (p.pieces.filter (!·.isEmpty))
        rw [rest] at head
        simpa using head
      have busy : isIdle first = false := by
        rw [isIdle, full first (inside first List.mem_cons_self), dotless]
        rfl
      rw [components, pieces, String.toList_ofList, Text.joinWith_eq_intercalate,
        Text.splitAtChar_intercalate (List.cons_ne_nil _ _) fun s hs => plain s (inside s hs),
        innerComponents_cons busy]
      simp only [full first (inside first List.mem_cons_self), dotless, Bool.false_eq_true, if_false]
      rfl

theorem route_spelledBase (p : Path) : (Glob.spelledBase p).route = p.route := by
  rw [route, components_spelledBase, route, List.filter_filter]
  simp only [Bool.and_self]

end Path
end TestRepair
