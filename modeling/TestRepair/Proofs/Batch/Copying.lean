import TestRepair.Proofs.FileTree.Searching
import TestRepair.Trial.Batch

/-!
What copying a work directory does to the tree. The copy holds a node for every one below the root of
the directory, except below a shared directory, and stands at a place that was free; nothing else has
changed. A well-formed tree stays well-formed.
-/

namespace TestRepair

open Place (Proper)

namespace FileTree

/-- A place where something new can be put: nothing stands there, but in a directory. -/
def Free (t : FileTree) (q : Place) : Prop :=
  ∃ d n, q = d ++ [n] ∧ Proper n ∧ t.get? d = some .dir ∧ t.get? q = none

section

variable {t : FileTree} {q : Place}

theorem Free.ne_nil (h : t.Free q) : q ≠ [] := by
  obtain ⟨d, n, rfl, -⟩ := h
  simp

theorem Free.get?_eq_none (h : t.Free q) : t.get? q = none := by
  obtain ⟨-, -, -, -, -, hq⟩ := h
  exact hq

end

/-- Nodes that are put below a place, each under names of its own, stand there afterwards. -/
theorem get?_foldl_set_below {dest names : Place} {es : List (Place × Node)} (hd : dest ≠ [])
    (hn : (es.map (·.1)).Nodup) (t : FileTree) :
    (es.foldl (fun t e => t.set (dest ++ e.1) e.2) t).get? (dest ++ names) =
      (Dictionary.find? names es).or (t.get? (dest ++ names)) := by
  induction es generalizing t with
  | nil => rfl
  | cons e es ih =>
      rw [List.map_cons, List.nodup_cons] at hn
      have hne : dest ++ e.1 ≠ [] := by simp [hd]
      rw [List.foldl_cons, ih hn.2, Dictionary.find?]
      by_cases he : e.1 = names
      · subst he
        rw [if_pos rfl, Dictionary.find?_eq_none_iff.mpr hn.1, get?_set_self t _ hne]
        rfl
      · rw [if_neg he, get?_set_of_ne t _ hne (by simpa using Ne.symm he)]

theorem get?_foldl_set_other {dest q : Place} (hd : dest ≠ []) (hq : ¬dest <+: q)
    (es : List (Place × Node)) (t : FileTree) :
    (es.foldl (fun t e => t.set (dest ++ e.1) e.2) t).get? q = t.get? q := by
  induction es generalizing t with
  | nil => rfl
  | cons e es ih =>
      rw [List.foldl_cons, ih, get?_set_of_ne t _ (by simp [hd])]
      rintro rfl
      exact hq (List.prefix_append _ _)

theorem current_foldl_set (dest : Place) (es : List (Place × Node)) (t : FileTree) :
    (es.foldl (fun t e => t.set (dest ++ e.1) e.2) t).current = t.current := by
  induction es generalizing t with
  | nil => rfl
  | cons e es ih => exact ih _

end FileTree

namespace Batch

open FileTree

theorem nodup_copiedNodes (t : FileTree) (root : Place) :
    ((copiedNodes t root).map (·.1)).Nodup := by
  have hkeys := List.pairwise_map.mp (nodup_under t root)
  refine List.pairwise_map.mpr (List.Pairwise.filterMap _ ?_ hkeys)
  intro e e' hne x hx x' hx'
  obtain ⟨n, -, rfl⟩ := Option.map_eq_some_iff.mp hx
  obtain ⟨n', -, rfl⟩ := Option.map_eq_some_iff.mp hx'
  exact hne

theorem find?_copiedNodes (t : FileTree) {root names : Place} (hn : names ≠ []) :
    Dictionary.find? names (copiedNodes t root) =
      (t.get? (root ++ names)).bind (copiedNode? t root names) := by
  apply Option.ext
  intro node
  rw [Option.bind_eq_some_iff]
  constructor
  · intro h
    obtain ⟨⟨names', old⟩, hold, h⟩ := List.mem_filterMap.mp (Dictionary.mem_of_find? h)
    obtain ⟨new, hnew, h⟩ := Option.map_eq_some_iff.mp h
    cases h
    exact ⟨old, (mem_under_iff hn).mp hold, hnew⟩
  · rintro ⟨old, hold, hnew⟩
    refine Dictionary.find?_of_mem (nodup_copiedNodes t root) (List.mem_filterMap.mpr ?_)
    exact ⟨(names, old), (mem_under_iff hn).mpr hold, by simp only [hnew, Option.map_some]⟩

/-- The tree `t'` has a copy of what stands below `root` in the tree `t`. -/
structure Copied (t : FileTree) (root dest : Place) (t' : FileTree) : Prop where
  current : t'.current = t.current
  top : t'.get? dest = some .dir
  below : ∀ names, names ≠ [] →
    t'.get? (dest ++ names) = (t.get? (root ++ names)).bind (copiedNode? t root names)
  outside : ∀ q, ¬dest <+: q → t'.get? q = t.get? q

section

variable {t t' : FileTree} {source : Path} {root dest : Place}

/-- A copy outside of what is copied is not part of it. -/
theorem takesIn_of_outside (h : ¬root <+: dest) : takesIn root dest = false := by
  unfold takesIn
  cases hb : Place.below? root dest with
  | none => rfl
  | some names => exact absurd ⟨names, (Place.below?_eq_some_iff.mp hb).symm⟩ h

theorem copy_of_canonical (ht : t.WellFormed) (hd : t.Free dest)
    (hr : t.canonical source = .ok root) (apart : takesIn root dest = false) :
    ∃ t', copy t source dest = .ok t' ∧ Copied t root dest t' := by
  have hne := hd.ne_nil
  refine ⟨_, by simp only [copy, hr, apart, mapError_ok, ok_bind, Bool.false_eq_true, if_false,
    pure_eq_ok]; rfl, ?_, ?_, ?_, ?_⟩
  · rw [current_foldl_set]
    rfl
  · have htop := @get?_foldl_set_below dest [] _ hne (nodup_copiedNodes t root) (t.set dest .dir)
    rw [List.append_nil, get?_set_self t _ hne] at htop
    rw [htop]
    cases hf : Dictionary.find? [] (copiedNodes t root) with
    | none => rfl
    | some n =>
        obtain ⟨⟨names, old⟩, hold, h⟩ := List.mem_filterMap.mp (Dictionary.mem_of_find? hf)
        obtain ⟨m, -, h⟩ := Option.map_eq_some_iff.mp h
        cases h
        obtain ⟨e, -, he⟩ := List.mem_filterMap.mp hold
        split at he
        · cases he
        · cases he
        · rename_i rest hrest _
          cases he
          exact absurd rfl hrest
  · intro names hn
    rw [get?_foldl_set_below hne (nodup_copiedNodes t root), find?_copiedNodes t hn,
      get?_set_of_ne t _ hne (by simpa using hn), ht.none_below hd.get?_eq_none, Option.or_none]
  · intro q hq
    rw [get?_foldl_set_other hne hq, get?_set_of_ne t _ hne]
    rintro rfl
    exact hq (List.prefix_refl _)

theorem copy_eq_ok (ht : t.WellFormed) (hd : t.Free dest) (h : copy t source dest = .ok t') :
    ∃ root, t.canonical source = .ok root ∧ Copied t root dest t' := by
  cases hr : t.canonical source with
  | error e => simp [copy, hr] at h
  | ok root =>
      have apart : takesIn root dest = false := by
        by_contra hin
        rw [Bool.not_eq_false] at hin
        simp [copy, hr, hin] at h
      obtain ⟨t₁, h₁, hc⟩ := copy_of_canonical ht hd hr apart
      rw [h] at h₁
      cases h₁
      exact ⟨root, rfl, hc⟩

theorem copy_eq_error {e : FileError} (h : t.canonical source = .error e) (dest : Place) :
    copy t source dest = .error ⟨source, e⟩ := by
  simp only [copy, h, mapError_error, error_bind]

/-- What is copied is not below a shared directory. -/
theorem notMem_of_copiedNode? {names : Place} {n : String} {old new : Node}
    (h : copiedNode? t root (names ++ [n]) old = some new) : sharedName ∉ names := by
  intro hs
  unfold copiedNode? at h
  rw [List.dropLast_concat, if_pos (by simpa using hs)] at h
  cases h

theorem copiedNode?_dir {names : Place} (h : sharedName ∉ names) :
    copiedNode? t root names .dir = some .dir := by
  have hlast : names.getLast? ≠ some sharedName := fun hl => h (List.mem_of_getLast? hl)
  rw [copiedNode?, if_neg (by simpa using fun hs => h (List.dropLast_subset _ hs))]
  simp only [hlast, if_false]

/-- A link in a copy is one of the tree, or stands for a relative one that leaves what is copied, or for a
shared directory. -/
theorem copiedNode?_link {names : Place} {old : Node} {target : Path}
    (h : copiedNode? t root names old = some (.link target)) :
    old = .link target ∨
      (∃ target', old = .link target' ∧ target'.isAbsolute = false ∧ ∃ q,
        t.canonical ((Place.path (root ++ names).dropLast).join target') = .ok q ∧
        ¬root <+: q ∧ target = q.path) ∨
      old = .dir ∧ names.getLast? = some sharedName ∧ target = (root ++ names).path := by
  unfold copiedNode? at h
  split at h
  · cases h
  · cases old with
    | file b m => cases h
    | dir =>
        dsimp only at h
        split at h
        · rename_i hlast
          cases h
          exact .inr (.inr ⟨rfl, hlast, rfl⟩)
        · cases h
    | link target' =>
        simp only [Option.some.injEq, Node.link.injEq, copiedTarget] at h
        split at h
        · exact .inl (h ▸ rfl)
        · rename_i hrel
          split at h
          · rename_i q hq
            split at h
            · exact .inl (h ▸ rfl)
            · rename_i out
              refine .inr (.inl ⟨target', rfl, by simpa using hrel, q, hq, ?_, h.symm⟩)
              rintro ⟨rest, rfl⟩
              exact out (by rw [Place.below?_eq_some_iff.mpr rfl, Option.isSome_some])
          · exact .inl (h ▸ rfl)

theorem Copied.extends (h : Copied t root dest t') (ht : t.WellFormed) (hd : t.Free dest) :
    Extends t t' := by
  have keep : ∀ q n, t.get? q = some n → t'.get? q = some n := by
    intro q n hq
    rw [h.outside q (ht.not_prefix hd.get?_eq_none (hq ▸ Option.some_ne_none n)), hq]
  exact ⟨h.current, fun q hq => keep q _ hq, fun q _ hq => keep q _ hq,
    fun q b m hq => ⟨b, m, keep q _ hq⟩⟩

/-- A node below the copy stands in a directory and has a proper name. -/
theorem Copied.get?_ne_none (h : Copied t root dest t') (ht : t.WellFormed) {names : Place}
    {n : String} (hn : t'.get? (dest ++ (names ++ [n])) ≠ none) :
    t'.get? (dest ++ names) = some .dir ∧ Proper n := by
  rw [h.below _ (by simp)] at hn
  obtain ⟨new, hnew⟩ := Option.ne_none_iff_exists'.mp hn
  obtain ⟨old, hold, hnode⟩ := Option.bind_eq_some_iff.mp hnew
  have hold' : t.get? (root ++ names ++ [n]) ≠ none := by
    rw [List.append_assoc, hold]
    exact Option.some_ne_none _
  refine ⟨?_, ht.proper _ n hold'⟩
  by_cases hnames : names = []
  · rw [hnames, List.append_nil]
    exact h.top
  · rw [h.below _ hnames, ht.above _ n hold', Option.bind_some,
      copiedNode?_dir (notMem_of_copiedNode? hnode)]

theorem Copied.wellFormed (h : Copied t root dest t') (ht : t.WellFormed) (hd : t.Free dest) :
    t'.WellFormed := by
  have hext := h.extends ht hd
  obtain ⟨d, n, rfl, hn, hdir, hfree⟩ := id hd
  refine ⟨h.current ▸ hext.dir _ ht.current, ?_, ?_, ?_⟩
  · intro e m hm
    by_cases hp : d ++ [n] <+: e ++ [m]
    · obtain heq | ⟨names, rfl⟩ := List.prefix_concat_iff.mp hp
      · obtain ⟨rfl, -⟩ := List.append_inj' heq rfl
        exact hext.dir _ hdir
      · rw [List.append_assoc] at hm
        exact (h.get?_ne_none ht hm).1
    · rw [h.outside _ hp] at hm
      exact hext.dir _ (ht.above e m hm)
  · intro e m hm
    by_cases hp : d ++ [n] <+: e ++ [m]
    · obtain heq | ⟨names, rfl⟩ := List.prefix_concat_iff.mp hp
      · obtain ⟨-, heq⟩ := List.append_inj' heq rfl
        exact List.singleton_inj.mp heq ▸ hn
      · rw [List.append_assoc] at hm
        exact (h.get?_ne_none ht hm).2
    · rw [h.outside _ hp] at hm
      exact ht.proper e m hm
  · intro q p hq
    by_cases hp : d ++ [n] <+: q
    · obtain ⟨names, rfl⟩ := hp
      have hne : names ≠ [] := by
        rintro rfl
        rw [List.append_nil, h.top] at hq
        cases hq
      rw [h.below _ hne] at hq
      obtain ⟨old, hold, hnode⟩ := Option.bind_eq_some_iff.mp hq
      obtain rfl | ⟨_, -, -, q', hq', -, rfl⟩ | ⟨rfl, -, rfl⟩ := copiedNode?_link hnode
      · exact ht.noNul _ p hold
      · exact Place.noNul_path (ht.names (solid_of_canonical ht hq').get?_ne_none)
      · exact Place.noNul_path (ht.names (hold ▸ Option.some_ne_none _))
    · rw [h.outside _ hp] at hq
      exact ht.noNul q p hq

end

end Batch
end TestRepair
