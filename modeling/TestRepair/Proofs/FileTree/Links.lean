import TestRepair.Proofs.FileTree.Agreement
import TestRepair.Proofs.FileTree.Components
import TestRepair.Proofs.FileTree.Dots

/-!
Where links lead. In a well-formed tree a look-up goes by what stands at the next name. A relative link
is resolved by looking up its text from its own directory, which is what joining the two paths gives, and
a look-up that goes through the link goes on from the place that this leads to.
-/

namespace TestRepair
namespace FileTree

open Place (Spellable)

variable {t t' : FileTree} {follow : Bool} {k j : Nat} {d q : Place} {n : String}
  {rest steps : List String} {p : Path} {g : Goal}

/-- More links than are needed may be followed. -/
theorem Leads.mono (h : Leads t follow k d steps g) (hj : k ≤ j) : Leads t follow j d steps g := by
  induction h generalizing j with
  | done => exact .done _ _
  | here _ ih => exact .here (ih hj)
  | up _ ih => exact .up (ih hj)
  | free _ hn h => exact .free _ hn h
  | dir hn h _ ih => exact .dir hn h (ih hj)
  | file _ hn h => exact .file _ hn h
  | link _ hn h hf => exact .link _ hn h hf
  | jump hn h hf _ ih =>
      obtain ⟨i, rfl⟩ := Nat.exists_eq_add_of_le' (Nat.lt_of_lt_of_le (Nat.succ_pos _) hj)
      exact .jump hn h hf (ih (Nat.le_of_succ_le_succ hj))

section

variable (ht : t.WellFormed)

include ht

theorem walk_dir (h : t.get? (d ++ [n]) = some .dir) :
    t.walk follow k d (n :: rest) = t.walk follow k (d ++ [n]) rest := by
  have hn := ht.namesEntry (h ▸ Option.some_ne_none _)
  rw [walk_cons, if_neg hn.notHere, if_neg hn.notUp, if_neg (Nat.not_lt.mpr hn.short), h]

theorem walk_file {bytes : ByteArray} {m : Nat} (h : t.get? (d ++ [n]) = some (.file bytes m)) :
    t.walk follow k d [n] = .ok (.node (d ++ [n])) := by
  have hn := ht.namesEntry (h ▸ Option.some_ne_none _)
  rw [walk_cons, if_neg hn.notHere, if_neg hn.notUp, if_neg (Nat.not_lt.mpr hn.short), h]
  rfl

/-- A link that is followed takes one of the links that are left. -/
theorem walk_link (h : t.get? (d ++ [n]) = some (.link p)) :
    t.walk true k d (n :: rest) = .ok g ↔ ∃ j, k = j + 1 ∧
      t.walk true j (if p.isAbsolute then [] else d) (p.steps ++ rest) = .ok g := by
  have hn := ht.namesEntry (h ▸ Option.some_ne_none _)
  rw [walk_cons, if_neg hn.notHere, if_neg hn.notUp, if_neg (Nat.not_lt.mpr hn.short), h]
  cases k <;> simp

end

/-- A look-up of the path of an entry is one of its name from its directory. -/
theorem canonical_entry (ht : t.WellFormed) (h : t.get? (d ++ [n]) ≠ none) :
    t.canonical (d ++ [n]).path = .ok q ↔ t.walk true linkLimit d [n] = .ok (.node q) := by
  have proper := ht.names h
  have above : t.get? ([] ++ d) = some .dir := ht.above d n h
  rw [canonical_eq_ok_iff, goal_eq_ok_iff, Place.steps_path (Place.spellable_of_proper proper), origin,
    Place.isAbsolute_path, if_pos rfl, ← walk_eq_ok_iff, walk_down ht above, List.nil_append]
  exact and_iff_right (Place.spelled_path proper)

/-- The names that a path spells, slashes apart. -/
def named (p : Path) : List String := (p.pieces.filter (!·.isEmpty)).map String.ofList

theorem steps_eq (p : Path) : p.steps =
    if p.text.toList.getLast? == some '/' && !(named p).isEmpty then named p ++ ["."] else named p :=
  rfl

theorem named_ne_nil (hp : p.isAbsolute = false) (hne : p.text ≠ "") : named p ≠ [] := by
  obtain ⟨c, s, text⟩ := List.exists_cons_of_ne_nil (show p.text.toList ≠ [] by simpa using hne)
  have slash : c ≠ '/' := by simpa [Path.isAbsolute, text] using hp
  obtain ⟨piece, mem, inside⟩ := Text.mem_splitAtChar.mpr
    ⟨show c ∈ p.text.toList by simp [text], slash⟩
  have kept : piece ∈ p.pieces.filter (!·.isEmpty) :=
    List.mem_filter.mpr ⟨mem, by cases piece <;> simp_all⟩
  exact List.ne_nil_of_mem (List.mem_map_of_mem kept)

theorem named_join (hd : ∀ m ∈ d, Spellable m) (hp : p.isAbsolute = false) :
    named (d.path.join p) = d ++ named p := by
  have down : named d.path = d := by
    by_cases top : d = []
    · rw [top]
      rfl
    · have steps := Place.steps_path hd
      rwa [steps_eq, Place.getLast?_path top hd, Bool.false_and, if_neg Bool.false_ne_true] at steps
  obtain ⟨ps, joined, same⟩ := Path.pieces_join (Place.isAbsolute_path d) hp
  have front : (ps.filter (!·.isEmpty)).map String.ofList = d := by
    rw [named] at down
    obtain same | same := same
    · rwa [same] at down
    · simpa [same] using down
  rw [named, joined, List.filter_append, List.map_append, front]
  rfl

/-- The steps of a relative path from a directory are those down to the directory, and its own. The
empty path asks for a directory and nothing else. -/
theorem steps_join (hd : ∀ m ∈ d, Spellable m) (hp : p.isAbsolute = false) :
    (d.path.join p).steps = d ++ p.steps ∨
      p.text = "" ∧ (d.path.join p).steps = d ++ ["."] := by
  obtain ⟨front, text, -⟩ := Path.toList_join (Place.isAbsolute_path d) hp
  have joined := named_join hd hp
  by_cases empty : p.text = ""
  · obtain rfl : p = ⟨""⟩ := congrArg Path.mk empty
    have last : ((d.path.join ⟨""⟩).text.toList.getLast? == some '/') = true := by simp [text]
    have joined : named (d.path.join ⟨""⟩) = d := joined.trans (List.append_nil d)
    rw [steps_eq, joined, last, Bool.true_and]
    cases d with
    | nil => exact .inl rfl
    | cons m d => exact .inr ⟨rfl, rfl⟩
  · left
    have full : p.text.toList ≠ [] := by simpa using empty
    have last : (d.path.join p).text.toList.getLast? = p.text.toList.getLast? := by
      rw [text, List.getLast?_append_cons, List.getLast?_cons_of_ne_nil full]
    have some : (named p).isEmpty = false := by simpa using named_ne_nil hp empty
    have some' : (d ++ named p).isEmpty = false := by simp [named_ne_nil hp empty]
    rw [steps_eq, steps_eq, joined, some, some', last]
    split
    · exact List.append_assoc ..
    · rfl

theorem spelled_join (hd : ∀ m ∈ d, Place.Proper m) (hp : p.isAbsolute = false)
    (hnul : '\x00' ∉ p.text.toList) : Spelled (d.path.join p) := by
  obtain ⟨front, text, same⟩ := Path.toList_join (Place.isAbsolute_path d) hp
  constructor
  · rw [Bool.eq_false_iff, ne_eq, String.isEmpty_iff]
    intro empty
    simp [empty] at text
  · have clean := Place.noNul_path hd
    have inside : front ⊆ d.path.text.toList := by
      obtain same | same := same <;> simp [same]
    have apart : '\x00' ∉ (d.path.join p).text.toList := by
      simpa [text, hnul] using fun h => clean (inside h)
    simpa using apart

/-- Where a relative link in a directory leads. -/
theorem canonical_join (ht : t.WellFormed) (hd : t.get? d = some .dir) (hp : p.isAbsolute = false)
    (hnul : '\x00' ∉ p.text.toList) (h : Leads t true linkLimit d p.steps (.node q)) :
    t.canonical (d.path.join p) = .ok q := by
  have proper := ht.names (hd ▸ Option.some_ne_none _)
  have absolute : (d.path.join p).isAbsolute = true :=
    Path.isAbsolute_join (Place.isAbsolute_path d) hp
  rw [canonical_eq_ok_iff, goal_eq_ok_iff, origin, absolute, if_pos rfl]
  refine ⟨spelled_join proper hp hnul, ?_⟩
  obtain steps | ⟨empty, steps⟩ := steps_join (Place.spellable_of_proper proper) hp
  · rw [steps]
    exact leads_down (d := []) ht hd h
  · obtain rfl : p = ⟨""⟩ := congrArg Path.mk empty
    cases h
    rw [steps]
    exact leads_down (d := []) ht hd (.here (.done _ _))

/-- A look-up through a relative link goes on from where the link leads. -/
theorem leads_beyond (ht : t.WellFormed) (hd : t.get? d = some .dir) (hp : p.isAbsolute = false)
    (hnul : '\x00' ∉ p.text.toList) (hk : k ≤ linkLimit)
    (h : Leads t true k d (p.steps ++ rest) (.node q)) :
    ∃ q', t.canonical (d.path.join p) = .ok q' ∧ Leads t true k [] (q' ++ rest) (.node q) := by
  by_cases stop : rest = []
  · subst stop
    rw [List.append_nil] at h
    refine ⟨q, canonical_join ht hd hp hnul (h.mono hk), ?_⟩
    rw [List.append_nil]
    exact leads_to ht (h.solid ht rfl hd rfl)
  · obtain ⟨q', j, hj, first, dir, last⟩ := h.split rfl ht hd rfl stop
    refine ⟨q', canonical_join ht hd hp hnul (first.mono hk), ?_⟩
    exact leads_down (d := []) ht dir (last.mono hj)

end FileTree
end TestRepair
