import Mathlib.Data.List.Nodup
import TestRepair.Proofs.FileTree.Shape

/-!
Files that are laid out beside others for a while. A tree with drafts in it is the tree without them
and some more entries at its end, under names that nothing mentions; so every look-up leads where it
leads without them, and taking them away gives back the tree as it was.
-/

namespace TestRepair

namespace FileTree

/-- The tree `t'` is the tree `t` with some entries more at its end. -/
structure Laid (t : FileTree) (ds : List (Place × Node)) (t' : FileTree) : Prop where
  current : t'.current = t.current
  entries : t'.nodes.entries = t.nodes.entries ++ ds

theorem mem_keys_iff {t : FileTree} {q : Place} (hq : q ≠ []) :
    q ∈ t.nodes.entries.map (·.1) ↔ t.get? q ≠ none := by
  rw [get?, if_neg hq, Dictionary.get?, ne_eq, Dictionary.find?_eq_none_iff, not_not]

namespace Laid

variable {t t' : FileTree} {ds : List (Place × Node)}

theorem nil (t : FileTree) : Laid t [] t := ⟨rfl, (List.append_nil _).symm⟩

theorem eq (h : Laid t [] t') : t' = t := by
  have hn : t'.nodes = t.nodes := Dictionary.ext (by rw [h.entries, List.append_nil])
  cases t
  cases t'
  cases h.current
  cases hn
  rfl

theorem get? (h : Laid t ds t') {q : Place} (hq : q ∉ ds.map (·.1)) : t'.get? q = t.get? q := by
  unfold FileTree.get?
  split
  · rfl
  · rw [Dictionary.get?, h.entries, Dictionary.find?_append, Dictionary.find?_eq_none_iff.mpr hq,
      Option.or_none]
    rfl

theorem get?_some (h : Laid t ds t') {q : Place} {n : Node} (hq : t.get? q = some n) :
    t'.get? q = some n := by
  unfold FileTree.get? at hq ⊢
  by_cases hne : q = []
  · rwa [if_pos hne] at hq ⊢
  · rw [if_neg hne, Dictionary.get?] at hq
    rw [if_neg hne, Dictionary.get?, h.entries, Dictionary.find?_append, hq, Option.some_or]

theorem toExtends (h : Laid t ds t') : Extends t t' where
  current := h.current
  dir _ hq := h.get?_some hq
  link _ _ hq := h.get?_some hq
  file _ b m hq := ⟨b, m, h.get?_some hq⟩

theorem snoc (h : Laid t ds t') {p : Place} (hp : p ≠ []) (hn : t'.get? p = none) (n : Node) :
    Laid t (ds ++ [(p, n)]) (t'.set p n) where
  current := h.current
  entries := by
    have hk : p ∉ t'.nodes.entries.map (·.1) := fun hm => (mem_keys_iff hp).mp hm hn
    change Dictionary.put p n t'.nodes.entries = _
    rw [Dictionary.put_of_notMem hk, h.entries, List.append_assoc]

/-- No other entry stands at the place of a draft. -/
theorem notMem {es : List (Place × Node)} {p : Place} {n : Node}
    (h : Laid t (ds ++ (p, n) :: es) t') : p ∉ (t.nodes.entries ++ (ds ++ es)).map (·.1) := by
  have distinct : ((t.nodes.entries ++ (ds ++ (p, n) :: es)).map (·.1)).Nodup :=
    h.entries ▸ t'.nodes.distinct
  rw [← List.append_assoc, List.map_append, List.map_cons, List.nodup_middle, List.nodup_cons,
    ← List.map_append, List.append_assoc] at distinct
  exact distinct.1

/-- Taking away what is at a place leaves all entries of other places. -/
theorem filter_eq_self {p : Place} {es : List (Place × Node)} (h : p ∉ es.map (·.1)) :
    es.filter (fun e => e.1 ≠ p) = es := by
  refine List.filter_eq_self.mpr fun e he => ?_
  have hne : e.1 ≠ p := fun hep => h (List.mem_map.mpr ⟨e, he, hep⟩)
  simpa using hne

/-- A draft is taken away. -/
theorem remove {es : List (Place × Node)} {p : Place} {n : Node}
    (h : Laid t (ds ++ (p, n) :: es) t') : Laid t (ds ++ es) (t'.remove p) where
  current := h.current
  entries := by
    change t'.nodes.entries.filter (fun e => e.1 ≠ p) = _
    rw [h.entries, ← List.append_assoc, List.filter_append, List.filter_cons_of_neg (by simp),
      ← List.filter_append, List.append_assoc, filter_eq_self h.notMem]

/-- Where nothing stands there is nothing to be taken away. -/
theorem remove_free {p : Place} (h : Laid t ds t') (hp : p ≠ []) (hn : t'.get? p = none) :
    Laid t ds (t'.remove p) where
  current := h.current
  entries := by
    have free : p ∉ t'.nodes.entries.map (·.1) := fun hm => (mem_keys_iff hp).mp hm hn
    exact (filter_eq_self free).trans h.entries

/-- The last draft is written again. -/
theorem rewrite {p : Place} {m : Node} (h : Laid t (ds ++ [(p, m)]) t') (n : Node) :
    Laid t (ds ++ [(p, n)]) (t'.set p n) where
  current := h.current
  entries := by
    have others : p ∉ (t.nodes.entries ++ ds).map (·.1) := by simpa using h.notMem
    change Dictionary.put p n t'.nodes.entries = _
    rw [h.entries, ← List.append_assoc, Dictionary.put_append_of_notMem others, Dictionary.put,
      if_pos rfl, List.append_assoc]

theorem set (h : Laid t ds t') {q : Place} (hq : q ≠ []) (hn : t.get? q ≠ none) (n : Node) :
    Laid (t.set q n) ds (t'.set q n) where
  current := h.current
  entries := by
    change Dictionary.put q n t'.nodes.entries = Dictionary.put q n t.nodes.entries ++ ds
    rw [h.entries, Dictionary.put_append_of_mem ((mem_keys_iff hq).mpr hn)]

theorem get?_first {p : Place} {n : Node} (h : Laid t ((p, n) :: ds) t') (hp : p ≠ []) :
    t'.get? p = some n := by
  have first : Laid t ([] ++ (p, n) :: ds) t' := h
  have other : p ∉ t.nodes.entries.map (·.1) := fun hm =>
    first.notMem (List.map_append ▸ List.mem_append_left _ hm)
  rw [FileTree.get?, if_neg hp, Dictionary.get?, h.entries, Dictionary.find?_append,
    Dictionary.find?_eq_none_iff.mpr other]
  simp [Dictionary.find?]

end Laid

/-- Neither the tree nor the known names mention the name at a place. -/
def Unmentioned (t : FileTree) (known : List String) (p : Place) : Prop :=
  ∃ d n, p = d ++ [n] ∧ n ∉ t.names ++ known

theorem mem_names_of_get? {t : FileTree} {q : Place} (h : t.get? q ≠ none) :
    ∀ n ∈ q, n ∈ t.names := by
  intro n hn
  have hq : q ≠ [] := List.ne_nil_of_mem hn
  obtain ⟨e, he, rfl⟩ := List.mem_map.mp ((mem_keys_iff hq).mpr h)
  refine List.mem_append_right _ (List.mem_flatMap.mpr ⟨e, he, ?_⟩)
  split
  · exact List.mem_append_left _ hn
  · exact hn

theorem mem_names_of_link {t : FileTree} {q : Place} {p : Path} (h : t.get? q = some (.link p)) :
    ∀ n ∈ p.steps, n ∈ t.names := by
  intro n hn
  have hq : q ≠ [] := ne_nil_of_link h
  rw [get?, if_neg hq] at h
  exact List.mem_append_right _
    (List.mem_flatMap.mpr ⟨_, Dictionary.mem_of_find? h, List.mem_append_right _ hn⟩)

theorem names_subset {t t' : FileTree} {ds : List (Place × Node)} (h : Laid t ds t') :
    t.names ⊆ t'.names := by
  intro n hn
  simp only [names, List.mem_append, h.current, h.entries, List.flatMap_append] at hn ⊢
  exact hn.imp_right .inl

section

variable {t t' : FileTree} {ds : List (Place × Node)} {known : List String}

/-- Steps that are mentioned lead to the same in a tree that holds the same under mentioned names. -/
theorem walk_of_mentioned (same : ∀ q, q ⊆ t.names ++ known → t'.get? q = t.get? q) (follow : Bool)
    (k : Nat) {d : Place} (hd : d ⊆ t.names ++ known) {steps : List String}
    (hs : steps ⊆ t.names ++ known) : t'.walk follow k d steps = t.walk follow k d steps := by
  induction k, d, steps using walk_induction with
  | nil => rw [walk_nil, walk_nil]
  | cons k d n rest ih jump =>
      obtain ⟨hn, later⟩ := List.cons_subset.mp hs
      have deeper : d ++ [n] ⊆ t.names ++ known :=
        List.append_subset.mpr ⟨hd, List.cons_subset.mpr ⟨hn, List.nil_subset _⟩⟩
      have higher : d.dropLast ⊆ t.names ++ known := List.Subset.trans (List.dropLast_subset d) hd
      rw [walk_cons, walk_cons, same _ deeper, ih d hd later, ih d.dropLast higher later,
        ih (d ++ [n]) deeper later]
      cases hg : t.get? (d ++ [n]) with
      | none => rfl
      | some node =>
          cases node with
          | dir | file => rfl
          | link p =>
              cases k with
              | zero => rfl
              | succ k =>
                  -- The target of a link is spelled with names of the tree.
                  have spelled : p.steps ++ rest ⊆ t.names ++ known := List.append_subset.mpr
                    ⟨fun m hm => List.mem_append_left _ (mem_names_of_link hg m hm), later⟩
                  have start : (if p.isAbsolute then [] else d) ⊆ t.names ++ known := by
                    split
                    · exact List.nil_subset _
                    · exact hd
                  simp only [jump k _ _ rfl start spelled]

theorem goal_of_mentioned (hc : t'.current = t.current)
    (same : ∀ q, q ⊆ t.names ++ known → t'.get? q = t.get? q) (follow : Bool) {p : Path}
    (hs : ∀ n ∈ p.steps, n ∈ known) : t'.goal follow p = t.goal follow p := by
  have start : (if p.isAbsolute then [] else t.current) ⊆ t.names ++ known := by
    split
    · exact List.nil_subset _
    · exact fun n hn => List.mem_append_left _ (List.mem_append_left _ hn)
  unfold FileTree.goal
  rw [hc, walk_of_mentioned same follow linkLimit start fun n hn => List.mem_append_right _ (hs n hn)]

theorem canonical_of_mentioned (hc : t'.current = t.current)
    (same : ∀ q, q ⊆ t.names ++ known → t'.get? q = t.get? q) {p : Path}
    (hs : ∀ n ∈ p.steps, n ∈ known) : t'.canonical p = t.canonical p := by
  unfold FileTree.canonical
  rw [goal_of_mentioned hc same true hs]

theorem Laid.get?_mentioned (h : Laid t ds t') (hu : ∀ e ∈ ds, Unmentioned t known e.1) {q : Place}
    (hq : q ⊆ t.names ++ known) : t'.get? q = t.get? q := by
  refine h.get? fun hm => ?_
  obtain ⟨e, he, rfl⟩ := List.mem_map.mp hm
  obtain ⟨d, n, hp, hn⟩ := hu e he
  exact hn (hq (hp ▸ List.mem_append_right _ List.mem_cons_self))

theorem Laid.canonical (h : Laid t ds t') (hu : ∀ e ∈ ds, Unmentioned t known e.1) {p : Path}
    (hs : ∀ n ∈ p.steps, n ∈ known) : t'.canonical p = t.canonical p :=
  canonical_of_mentioned h.current (fun _ => h.get?_mentioned hu) hs

theorem Laid.target (h : Laid t ds t') (hu : ∀ e ∈ ds, Unmentioned t known e.1) {p : Path}
    (hs : ∀ n ∈ p.steps, n ∈ known) : t'.target p = t.target p := by
  unfold FileTree.target
  rw [h.canonical hu hs]

end

theorem readText_of_canonical_error {t : FileTree} {p : Path} {e : FileError}
    (h : t.canonical p = .error e) : t.readText p = .error e := by
  simp only [readText, readBytes, node, h, error_bind]

theorem readText_congr {t t' : FileTree} {p p' : Path} {q : Place} (h : t.canonical p = .ok q)
    (h' : t'.canonical p' = .ok q) (hq : t'.get? q = t.get? q) : t'.readText p' = t.readText p := by
  simp only [readText, readBytes, node, h, h', ok_bind, hq]

theorem node_eq_ok {t : FileTree} {p : Path} {q : Place} {n : Node} (h : t.canonical p = .ok q)
    (hq : t.get? q = some n) : t.node p = .ok n := by
  simp only [node, h, ok_bind, hq, pure_eq_ok]

theorem draftName_injective {m n : Nat} (h : draftName m = draftName n) : m = n := by
  have hl := congrArg (fun s => s.toList.length) h
  simpa [draftName] using hl

/-- Among the names that are tried there is one more than there are known ones. -/
theorem freshName_notMem (known : List String) : freshName known ∉ known := by
  unfold freshName
  cases hf : (List.range (known.length + 1)).find? fun n => !known.contains (draftName n) with
  | some n =>
      have hn := List.find?_some hf
      simpa using hn
  | none =>
      exfalso
      have hall : (List.range (known.length + 1)).map draftName ⊆ known := by
        intro s hs
        obtain ⟨n, hn, rfl⟩ := List.mem_map.mp hs
        simpa using List.find?_eq_none.mp hf n hn
      have hnodup : ((List.range (known.length + 1)).map draftName).Nodup :=
        List.nodup_range.map fun _ _ h => draftName_injective h
      have hlength := hnodup.length_le_of_subset hall
      simp only [List.length_map, List.length_range] at hlength
      omega

section

variable {t t' : FileTree} {ds : List (Place × Node)}

/-- Steps of laying out a file that has its draft: one of them is refused and takes the draft away, or the
draft is in the end what the last step makes of it. -/
theorem Laid.lay_rest {p : Place} {n : Node} (h : Laid t (ds ++ [(p, n)]) t')
    (refused : Access → Option FileError) (steps : List (Access × Node)) :
    (∃ e t'', (steps.findSome? fun s => refused s.1) = some e ∧
      t'.lay refused p steps = (.error e, t'') ∧ Laid t ds t'') ∨
    (steps.findSome? fun s => refused s.1) = none ∧ ∃ t'',
      t'.lay refused p steps = (.ok (), t'') ∧
      Laid t (ds ++ [(p, (steps.map (·.2)).getLastD n)]) t'' := by
  induction steps generalizing t' n with
  | nil => exact .inr ⟨rfl, t', rfl, h⟩
  | cons s steps ih =>
      cases hs : refused s.1 with
      | some e =>
          have gone := h.remove
          rw [List.append_nil] at gone
          exact .inl ⟨e, _, by rw [List.findSome?_cons, hs], by simp only [FileTree.lay, hs], gone⟩
      | none =>
          simp only [List.findSome?_cons, hs, FileTree.lay, List.map_cons, List.getLastD_cons]
          exact ih (h.rewrite s.2)

/-- Laying out a file at a free place leaves nothing if a step is refused. -/
theorem Laid.lay {p : Place} (h : Laid t ds t') (hp : p ≠ []) (hn : t'.get? p = none)
    (refused : Access → Option FileError) (step : Access × Node) (steps : List (Access × Node)) :
    (∃ e t'', ((step :: steps).findSome? fun s => refused s.1) = some e ∧
      t'.lay refused p (step :: steps) = (.error e, t'') ∧ Laid t ds t'') ∨
    ((step :: steps).findSome? fun s => refused s.1) = none ∧ ∃ t'',
      t'.lay refused p (step :: steps) = (.ok (), t'') ∧
      Laid t (ds ++ [(p, (steps.map (·.2)).getLastD step.2)]) t'' := by
  simp only [List.findSome?_cons, FileTree.lay]
  cases refused step.1 with
  | some e => exact .inl ⟨e, _, rfl, rfl, h.remove_free hp hn⟩
  | none => exact (h.snoc hp hn step.2).lay_rest refused steps

/-- What a system refuses first when a file is laid out beside one that is there. -/
def Refusals.draft? (refused : Refusals) (target : Path) : Option FileError :=
  [Access.create, .write, .flush, .setMode].findSome? (refused target)

/-- A file can be laid out beside every file that was there before, unless the system refuses it; then
nothing is left of it. -/
theorem Laid.stage (h : Laid t ds t') (refused : Refusals) (known : List String) (ht : t.WellFormed)
    {q : Place} {b : ByteArray} {m : Nat} (hq : t.get? q = some (.file b m)) (bytes : ByteArray) :
    (∃ e t'', refused.draft? q.path = some e ∧
      t'.stage refused known q.path bytes = (.error e, t'') ∧ Laid t ds t'') ∨
    refused.draft? q.path = none ∧ ∃ draft t'',
      t'.stage refused known q.path bytes = (.ok draft, t'') ∧ Unmentioned t known draft ∧
      Laid t (ds ++ [(draft, .file bytes m)]) t'' := by
  cases q using List.reverseRecOn with
  | nil => simp [FileTree.get?] at hq
  | append_singleton d n =>
      have hsolid : t.Solid (d ++ [n]) := .inr ⟨b, m, hq⟩
      have hparent := parentPlace_path ht h.toExtends hsolid
      have hnode := node_eq_ok (canonical_path ht h.toExtends hsolid) (h.get?_some hq)
      have hmode : t'.mode? (Place.path (d ++ [n])) = some m := by simp only [mode?, hnode]
      have hfresh := freshName_notMem (t'.names ++ known)
      have hfree : t'.get? (d ++ [freshName (t'.names ++ known)]) = none := by
        by_contra hne
        exact hfresh (List.mem_append_left _ (mem_names_of_get? hne _ (by simp)))
      have hnew : Unmentioned t known (d ++ [freshName (t'.names ++ known)]) := by
        refine ⟨d, _, rfl, fun hm => hfresh (List.mem_append.mpr ?_)⟩
        exact (List.mem_append.mp hm).imp_left fun hm => names_subset h hm
      have hsteps : laySteps bytes (some m) = (.create, .file .empty privateMode) ::
          [(.write, .file bytes privateMode), (.flush, .file bytes privateMode),
            (.setMode, .file bytes m)] := rfl
      have hlay := h.lay (List.concat_ne_nil _ _) hfree (refused (Place.path (d ++ [n])))
        (.create, .file .empty privateMode) [(.write, .file bytes privateMode),
          (.flush, .file bytes privateMode), (.setMode, .file bytes m)]
      rw [FileTree.stage, hparent, attempt_ok]
      dsimp only
      rw [hmode, hsteps]
      obtain ⟨e, t'', he, ho, hl⟩ | ⟨he, t'', ho, hl⟩ := hlay
      · exact .inl ⟨e, t'', he, by rw [ho], hl⟩
      · exact .inr ⟨he, _, t'', by rw [ho], hnew, hl⟩

/-- What is laid out first takes the place of a file. -/
theorem Laid.persist {draft : Place} {x : Node} (h : Laid t ((draft, x) :: ds) t')
    (ht : t.WellFormed) (hd : draft ≠ []) {q : Place} {b : ByteArray} {m : Nat}
    (hq : t.get? q = some (.file b m)) :
    ∃ t'', t'.persist draft q.path = .ok t'' ∧ Laid (t.set q x) ds t'' := by
  have hsolid : t.Solid q := .inr ⟨b, m, hq⟩
  have hne : q ≠ [] := ne_nil_of_file hq
  have hslash : namesDirectory q.path = false :=
    Place.getLast?_path hne (Place.spellable_of_proper (ht.names hsolid.get?_ne_none))
  have hgoal := goal_path ht h.toExtends hsolid false
  have hset : Laid (t.set q x) ([] ++ (draft, x) :: ds) (t'.set q x) :=
    h.set hne hsolid.get?_ne_none x
  refine ⟨(t'.set q x).remove draft, ?_, hset.remove⟩
  simp only [FileTree.persist, hslash, Bool.false_and, Bool.false_eq_true, if_false,
    h.get?_first hd, hgoal, h.get?_some hq, ok_bind, pure_eq_ok]

end

end FileTree
end TestRepair
