import TestRepair.Proofs.FileTree.Growth
import TestRepair.Proofs.Text.Splitting

/-!
The absolute path of a place. It is spelled with the names of the place and nothing else, so its
steps are those names again, the path above it is the path of the directory, and no two places have
the same components.
-/

namespace TestRepair

namespace Place

/-- A name that a path spells as one step. -/
structure Spellable (n : String) : Prop where
  nonempty : n.toList ≠ []
  noSlash : '/' ∉ n.toList

variable {p : Place}

theorem toList_path (p : Place) :
    p.path.text.toList = '/' :: ['/'].intercalate (p.map String.toList) := by
  simp [path, String.toList_intercalate]

theorem pieces_path (hp : p ≠ []) (h : ∀ n ∈ p, Spellable n) :
    p.path.pieces = [] :: p.map String.toList := by
  rw [Path.pieces, toList_path, Text.splitAtChar, if_pos rfl, Text.splitAtChar_intercalate]
  · simpa using hp
  · intro s hs
    obtain ⟨n, hn, rfl⟩ := List.mem_map.mp hs
    exact (h n hn).noSlash

@[simp]
theorem isAbsolute_path (p : Place) : p.path.isAbsolute = true := by
  simp [Path.isAbsolute, toList_path]

@[simp]
theorem isEmpty_path (p : Place) : p.path.text.isEmpty = false := by
  have h : p.path.text ≠ "" := by
    intro he
    have := toList_path p
    simp [he] at this
  simpa using h

/-- The path of a place ends in a slash only at the root. -/
theorem getLast?_path (hp : p ≠ []) (h : ∀ n ∈ p, Spellable n) :
    (p.path.text.toList.getLast? == some '/') = false := by
  rw [beq_eq_false_iff_ne]
  intro hl
  obtain ⟨s, hs⟩ := List.getLast?_eq_some_iff.mp hl
  have hpieces := pieces_path hp h
  rw [Path.pieces, hs, Text.splitAtChar_concat] at hpieces
  have hlast : (p.map String.toList).getLast? = some [] := by
    have hm : p.map String.toList ≠ [] := by simpa using hp
    rw [← List.getLast?_cons_of_ne_nil hm, ← hpieces, List.getLast?_concat]
  obtain ⟨n, hn, he⟩ := List.mem_map.mp (List.mem_of_getLast? hlast)
  exact (h n hn).nonempty he

theorem steps_path (h : ∀ n ∈ p, Spellable n) : p.path.steps = p := by
  by_cases hp : p = []
  · subst hp
    rfl
  · have hkept : (p.map String.toList).filter (fun s => !s.isEmpty) = p.map String.toList := by
      refine List.filter_eq_self.mpr ?_
      intro s hs
      obtain ⟨n, hn, rfl⟩ := List.mem_map.mp hs
      simpa using (h n hn).nonempty
    rw [Path.steps, pieces_path hp h]
    simp only [getLast?_path hp h, List.filter_cons, List.isEmpty_nil, Bool.not_true, Bool.false_eq_true,
      if_false, hkept, List.map_map, Bool.false_and]
    simp [Function.comp_def]

/-- Names as a path that goes on from a directory. -/
def relative (names : Place) : Path := ⟨String.intercalate "/" names⟩

theorem isAbsolute_relative {names : Place} (hne : names ≠ []) (hn : ∀ n ∈ names, Spellable n) :
    (relative names).isAbsolute = false := by
  cases names with
  | nil => exact absurd rfl hne
  | cons n names =>
      have hspell : Spellable n := hn n List.mem_cons_self
      obtain ⟨c, s, hs⟩ := List.exists_cons_of_ne_nil hspell.nonempty
      have hc : c ≠ '/' := fun hc => hspell.noSlash (by rw [hs, hc]; exact List.mem_cons_self)
      have hhead : (relative (n :: names)).text.toList.head? = some c := by
        cases names with
        | nil => simp [relative, hs]
        | cons m names => simp [relative, String.toList_intercalate, hs]
      simp [Path.isAbsolute, hhead, hc]

/-- Seen from a place, names are the path of the place below it that has them. -/
theorem join_relative (h : ∀ n ∈ p, Spellable n) {names : Place} (hne : names ≠ [])
    (hn : ∀ n ∈ names, Spellable n) : p.path.join (relative names) = (p ++ names).path := by
  rw [Path.join, isAbsolute_relative hne hn, isEmpty_path]
  by_cases hp : p = []
  · subst hp
    rfl
  · rw [getLast?_path hp h]
    simp only [Bool.or_false, Bool.false_eq_true, if_false, path, relative]
    rw [String.intercalate_append_of_ne_nil hp hne]
    simp only [String.append_assoc]

/-- Seen from a place, a name is the path of the place with that name. -/
theorem join_path (h : ∀ n ∈ p, Spellable n) {n : String} (hn : Spellable n) :
    p.path.join ⟨n⟩ = (p ++ [n]).path := by
  have hname : relative [n] = ⟨n⟩ := by rw [relative, String.intercalate_singleton]
  rw [← hname, join_relative h (List.cons_ne_nil n [])]
  simpa using hn

theorem mem_toList_path (h : ∀ n ∈ p, Spellable n) {c : Char} (hc : c ∈ p.path.text.toList)
    (hs : c ≠ '/') : ∃ n ∈ p, c ∈ n.toList := by
  by_cases hp : p = []
  · subst hp
    exact absurd (List.mem_singleton.mp hc) hs
  · obtain ⟨s, hm, hcs⟩ := Text.mem_splitAtChar.mpr ⟨hc, hs⟩
    rw [← Path.pieces, pieces_path hp h] at hm
    rcases List.mem_cons.mp hm with rfl | hm
    · cases hcs
    · obtain ⟨n, hn, rfl⟩ := List.mem_map.mp hm
      exact ⟨n, hn, hcs⟩

/-- A name that an entry of a directory can have. -/
structure Proper (n : String) : Prop extends FileTree.NamesEntry n, Spellable n where
  noNul : '\x00' ∉ n.toList

instance (n : String) : Decidable (Proper n) :=
  decidable_of_iff
    ((n ≠ "." ∧ n ≠ ".." ∧ n.utf8ByteSize ≤ FileTree.nameLimit) ∧
      (n.toList ≠ [] ∧ '/' ∉ n.toList) ∧ '\x00' ∉ n.toList)
    ⟨fun h => ⟨⟨h.1.1, h.1.2.1, h.1.2.2⟩, ⟨h.2.1.1, h.2.1.2⟩, h.2.2⟩,
      fun h => ⟨⟨h.notHere, h.notUp, h.short⟩, ⟨h.nonempty, h.noSlash⟩, h.noNul⟩⟩

theorem spellable_of_proper (h : ∀ n ∈ p, Proper n) : ∀ n ∈ p, Spellable n :=
  fun n hn => (h n hn).toSpellable

theorem noNul_path (h : ∀ n ∈ p, Proper n) : '\x00' ∉ p.path.text.toList := by
  intro hc
  obtain ⟨n, hn, hnul⟩ := mem_toList_path (spellable_of_proper h) hc (by decide)
  exact (h n hn).noNul hnul

theorem spelled_path (h : ∀ n ∈ p, Proper n) : FileTree.Spelled p.path :=
  ⟨isEmpty_path p, by simpa using noNul_path h⟩

theorem Proper.isIdle {n : String} (h : Proper n) : Path.isIdle n.toList = false := by
  have hdot : n.toList ≠ ['.'] := fun he => h.notHere (String.toList_injective he)
  simp [Path.isIdle, h.nonempty, hdot]

theorem Proper.component {n : String} (h : Proper n) : Path.component n.toList = .name n := by
  have hdots : n.toList ≠ ['.', '.'] := fun he => h.notUp (String.toList_injective he)
  simp [Path.component, hdots]

theorem components_path (h : ∀ n ∈ p, Proper n) :
    p.path.components = .root :: p.map .name := by
  by_cases hp : p = []
  · subst hp
    rfl
  · have hkept : (p.map String.toList).filter (fun s => !Path.isIdle s) = p.map String.toList := by
      refine List.filter_eq_self.mpr ?_
      intro s hs
      obtain ⟨n, hn, rfl⟩ := List.mem_map.mp hs
      simp [(h n hn).isIdle]
    rw [Path.components, pieces_path hp (spellable_of_proper h)]
    simp only [List.isEmpty_nil, if_true, isAbsolute_path, Path.innerComponents, hkept,
      List.map_map, List.singleton_append]
    congr 1
    exact List.map_congr_left fun n hn => (h n hn).component

theorem same_path_iff {q : Place} (hp : ∀ n ∈ p, Proper n) (hq : ∀ n ∈ q, Proper n) :
    p.path.same q.path = true ↔ p = q := by
  rw [Path.same, components_path hp, components_path hq, beq_iff_eq, List.cons_inj_right]
  exact List.map_inj_right fun _ _ h => PathComponent.name.inj h

theorem dropIdleEnd_pieces (first : List Char) (h : ∀ n ∈ p, Proper n) :
    Path.dropIdleEnd (first :: p.map String.toList) = first :: p.map String.toList := by
  have hkept : (p.map String.toList).reverse.dropWhile Path.isIdle =
      (p.map String.toList).reverse := by
    cases hr : (p.map String.toList).reverse with
    | nil => rfl
    | cons s ss =>
        have hs : s ∈ p.map String.toList := by
          rw [← List.mem_reverse, hr]
          exact List.mem_cons_self
        obtain ⟨n, hn, rfl⟩ := List.mem_map.mp hs
        exact List.dropWhile_cons_of_neg (by simp [(h n hn).isIdle])
  rw [Path.dropIdleEnd, hkept, List.reverse_reverse]

theorem ofPieces_path (p : Place) : Path.ofPieces true ([] :: p.map String.toList) = p.path := by
  cases p with
  | nil => rfl
  | cons n p =>
      have hne : ([] :: (n :: p).map String.toList == [([] : List Char)]) = false := by simp
      rw [Path.ofPieces, hne, Bool.and_false, if_neg Bool.false_ne_true]
      refine congrArg Path.mk (String.toList_injective ?_)
      have ht : (path (n :: p)).text = "/" ++ String.intercalate "/" (n :: p) := rfl
      rw [← ht, toList_path, String.toList_ofList, Text.joinWith_eq_intercalate]
      rfl

theorem parent?_path (h : ∀ n ∈ p, Proper n) {n : String} (hn : Proper n) :
    (p ++ [n]).path.parent? = some p.path := by
  have hall : ∀ m ∈ p ++ [n], Proper m := by
    intro m hm
    rcases List.mem_append.mp hm with hm | hm
    · exact h m hm
    · cases List.mem_singleton.mp hm
      exact hn
  have hpieces := pieces_path (p := p ++ [n]) (by simp) (spellable_of_proper hall)
  have hcomponents := components_path hall
  have hlast : ([] :: (p ++ [n]).map String.toList).dropLast = [] :: p.map String.toList := by
    rw [List.map_append, ← List.cons_append]
    exact List.dropLast_concat
  rw [Path.parent?, if_neg (by simp [hcomponents]), hpieces, dropIdleEnd_pieces _ hall, hlast,
    isAbsolute_path]
  simp only
  rw [dropIdleEnd_pieces _ h, ofPieces_path]

end Place
end TestRepair
