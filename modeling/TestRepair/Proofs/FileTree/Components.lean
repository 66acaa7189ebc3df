import TestRepair.Proofs.FileTree.Spelling

/-!
The components of a path behind its beginning. They are those of its pieces that are not idle; joining
two paths puts them behind each other, and a path that is written down from components has them again.
-/

namespace TestRepair
namespace Path

section Components

variable {p d : Path} {cs : List PathComponent}

/-- A component that a path can have behind its beginning. -/
def Spoken (c : PathComponent) : Prop := ∃ s, isIdle s = false ∧ '/' ∉ s ∧ component s = c

theorem text_component (s : List Char) : (component s).text.toList = s := by
  unfold component
  split
  · next h => rw [eq_of_beq h]; rfl
  · exact String.toList_ofList

theorem component_ne_here (s : List Char) : component s ≠ .here := by
  unfold component
  split <;> exact nofun

theorem innerComponents_append (ps qs : List (List Char)) :
    innerComponents (ps ++ qs) = innerComponents ps ++ innerComponents qs := by
  simp [innerComponents]

theorem innerComponents_cons_idle {s : List Char} (h : isIdle s = true) (ps : List (List Char)) :
    innerComponents (s :: ps) = innerComponents ps := by
  simp [innerComponents, h]

theorem innerComponents_cons {s : List Char} (h : isIdle s = false) (ps : List (List Char)) :
    innerComponents (s :: ps) = component s :: innerComponents ps := by
  simp [innerComponents, h]

/-- The components behind the root, or behind a leading dot. -/
def inner (p : Path) : List PathComponent := innerComponents p.pieces

theorem spoken_of_mem_inner {c : PathComponent} (h : c ∈ p.inner) : Spoken c := by
  obtain ⟨s, hs, rfl⟩ := List.mem_map.mp h
  obtain ⟨mem, busy⟩ := List.mem_filter.mp hs
  exact ⟨s, by simpa using busy, noSlash_of_mem_pieces mem, rfl⟩

theorem components_of_absolute (h : p.isAbsolute = true) : p.components = .root :: p.inner := by
  obtain ⟨ps, -, pieces⟩ := isAbsolute_iff_pieces.mp h
  rw [inner, components, pieces, innerComponents_cons_idle rfl]
  simp [h]

theorem components_of_relative (h : p.isAbsolute = false) :
    p.components = p.inner ∨ p.components = .here :: p.inner := by
  rw [inner, components]
  cases pieces : p.pieces with
  | nil => exact absurd pieces (pieces_ne_nil p)
  | cons first rest =>
      cases first with
      | nil =>
          left
          rw [innerComponents_cons_idle rfl]
          simp [h]
      | cons c s =>
          by_cases dot : c :: s = ['.']
          · right
            rw [dot, innerComponents_cons_idle rfl]
            rfl
          · left
            have other : (c :: s == ['.']) = false := beq_eq_false_iff_ne.mpr dot
            have busy : isIdle (c :: s) = false := by rw [isIdle, other]; rfl
            simp only [innerComponents_cons busy, List.isEmpty_cons, other, Bool.false_eq_true, if_false]
            rfl

end Components

section Joining

variable {p d : Path}

theorem isAbsolute_join (hd : d.isAbsolute = true) (hp : p.isAbsolute = false) :
    (d.join p).isAbsolute = true := by
  have head : d.text.toList.head? = some '/' := by simpa [isAbsolute] using hd
  have kept (x : String) : (⟨d.text ++ x⟩ : Path).isAbsolute = true := by
    simp [isAbsolute, String.toList_append, List.head?_append, head]
  rw [join, hp, if_neg Bool.false_ne_true]
  split
  · exact kept _
  · rw [String.append_assoc]
    exact kept _

/-- The joined path is spelled with one slash between the two. -/
theorem toList_join (hd : d.isAbsolute = true) (hp : p.isAbsolute = false) :
    ∃ front, (d.join p).text.toList = front ++ '/' :: p.text.toList ∧
      (d.text.toList = front ∨ d.text.toList = front ++ ['/']) := by
  have full : d.text.isEmpty = false := by
    rw [Bool.eq_false_iff, ne_eq, String.isEmpty_iff]
    intro empty
    simp [isAbsolute, empty] at hd
  rw [join, hp, full]
  by_cases slash : d.text.toList.getLast? = some '/'
  · obtain ⟨front, hf⟩ := List.getLast?_eq_some_iff.mp slash
    exact ⟨front, by simp [hf], .inr hf⟩
  · exact ⟨d.text.toList, by simp [slash], .inl rfl⟩

theorem pieces_join (hd : d.isAbsolute = true) (hp : p.isAbsolute = false) :
    ∃ ps, (d.join p).pieces = ps ++ p.pieces ∧ (d.pieces = ps ∨ d.pieces = ps ++ [[]]) := by
  obtain ⟨front, text, same⟩ := toList_join hd hp
  refine ⟨Text.splitAtChar '/' front, by rw [pieces, text, Text.splitAtChar_append_cons]; rfl, ?_⟩
  refine same.imp (fun h => ?_) fun h => ?_
  · rw [pieces, h]
  · rw [pieces, h, Text.splitAtChar_concat]

theorem inner_join (hd : d.isAbsolute = true) (hp : p.isAbsolute = false) :
    (d.join p).inner = d.inner ++ p.inner := by
  obtain ⟨ps, joined, same⟩ := pieces_join hd hp
  have front : d.inner = innerComponents ps := by
    obtain same | same := same
    · rw [inner, same]
    · rw [inner, same, innerComponents_append, innerComponents_cons_idle rfl]
      exact List.append_nil _
  rw [inner, joined, innerComponents_append, front]
  rfl

end Joining

section Spelling

variable {cs : List PathComponent}

theorem Spoken.text {c : PathComponent} (h : Spoken c) :
    isIdle c.text.toList = false ∧ '/' ∉ c.text.toList ∧ component c.text.toList = c := by
  obtain ⟨s, busy, plain, rfl⟩ := h
  rw [text_component]
  exact ⟨busy, plain, rfl⟩

theorem Spoken.ne_root {c : PathComponent} (h : Spoken c) : c ≠ .root := by
  obtain ⟨s, -, -, rfl⟩ := h
  exact component_ne_root s

theorem Spoken.ne_here {c : PathComponent} (h : Spoken c) : c ≠ .here := by
  obtain ⟨s, -, -, rfl⟩ := h
  exact component_ne_here s

theorem root_notMem_inner (p : Path) : .root ∉ p.inner :=
  fun mem => (spoken_of_mem_inner mem).ne_root rfl

theorem here_notMem_inner (p : Path) : .here ∉ p.inner :=
  fun mem => (spoken_of_mem_inner mem).ne_here rfl

theorem innerComponents_text (h : ∀ c ∈ cs, Spoken c) :
    innerComponents (cs.map fun c => c.text.toList) = cs := by
  induction cs with
  | nil => rfl
  | cons c cs ih =>
      obtain ⟨first, rest⟩ := List.forall_mem_cons.mp h
      rw [List.map_cons, innerComponents_cons first.text.1, first.text.2.2, ih rest]

theorem ofComponents_root (cs : List PathComponent) :
    (ofComponents (.root :: cs)).text.toList =
      '/' :: ['/'].intercalate (cs.map fun c => c.text.toList) := by
  simp [ofComponents, String.toList_intercalate, Function.comp_def]

theorem ofComponents_relative (h : ∀ c ∈ cs, Spoken c) :
    (ofComponents cs).text.toList = ['/'].intercalate (cs.map fun c => c.text.toList) := by
  have plain : ofComponents cs = ⟨String.intercalate "/" (cs.map (·.text))⟩ := by
    cases cs with
    | nil => rfl
    | cons c cs =>
        have other := (h c List.mem_cons_self).ne_root
        cases c with
        | root => exact absurd rfl other
        | here | up | name => rfl
  simp [plain, String.toList_intercalate, Function.comp_def]

theorem pieces_intercalate (h : ∀ c ∈ cs, Spoken c) (ne : cs ≠ []) :
    Text.splitAtChar '/' (['/'].intercalate (cs.map fun c => c.text.toList)) =
      cs.map fun c => c.text.toList := by
  apply Text.splitAtChar_intercalate
  · simpa using ne
  · intro s hs
    obtain ⟨c, hc, rfl⟩ := List.mem_map.mp hs
    exact (h c hc).text.2.1

/-- Components that are written down as an absolute path are read back. -/
theorem components_ofComponents_root (h : ∀ c ∈ cs, Spoken c) :
    (ofComponents (.root :: cs)).components = .root :: cs := by
  have absolute : (ofComponents (.root :: cs)).isAbsolute = true := by
    simp [isAbsolute, ofComponents_root]
  rw [components_of_absolute absolute, inner, pieces, ofComponents_root, Text.splitAtChar,
    if_pos rfl, innerComponents_cons_idle rfl]
  by_cases ne : cs = []
  · rw [ne]
    rfl
  · rw [pieces_intercalate h ne, innerComponents_text h]

theorem relative_ofComponents (h : ∀ c ∈ cs, Spoken c) : (ofComponents cs).isAbsolute = false := by
  rw [isAbsolute, ofComponents_relative h]
  cases cs with
  | nil => rfl
  | cons c cs =>
      obtain ⟨busy, plain, -⟩ := (h c List.mem_cons_self).text
      cases text : c.text.toList with
      | nil =>
          rw [text] at busy
          cases busy
      | cons x s =>
          rw [text] at plain
          have other : x ≠ '/' := by
            rintro rfl
            exact plain List.mem_cons_self
          cases cs <;> simp [text, other, List.intercalate_cons_cons]

theorem inner_ofComponents (h : ∀ c ∈ cs, Spoken c) : (ofComponents cs).inner = cs := by
  rw [inner, pieces, ofComponents_relative h]
  by_cases ne : cs = []
  · rw [ne]
    rfl
  · rw [pieces_intercalate h ne, innerComponents_text h]

end Spelling

end Path
end TestRepair
