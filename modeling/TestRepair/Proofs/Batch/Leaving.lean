import TestRepair.Proofs.Batch.Copying
import TestRepair.Proofs.FileTree.Agreement

/-!
How a look-up that begins in a private copy leaves it. It follows an absolute link of the copy, or it goes
up from the top. An absolute link of a copy stands for a shared directory, or for a relative link that
leaves what was copied; these two the copies share by design. Otherwise it was absolute before.
-/

namespace TestRepair
namespace Batch

open FileTree
open Place (Proper)

/-- How a look-up leaves a directory. -/
inductive Gate
  /-- Through the absolute link under these names. -/
  | link (names : Place)
  /-- Up from the top. -/
  | top

/-- From the place `ns` below the directory `d` the steps lead out of `d`. -/
inductive Leaves (t : FileTree) (d : Place) : Place → List String → Gate → Prop
  | here {ns : Place} {rest : List String} {g : Gate} (h : Leaves t d ns rest g) :
      Leaves t d ns ("." :: rest) g
  | up {ns : Place} {n : String} {rest : List String} {g : Gate} (h : Leaves t d ns rest g) :
      Leaves t d (ns ++ [n]) (".." :: rest) g
  | climb (rest : List String) : Leaves t d [] (".." :: rest) .top
  | dir {ns : Place} {n : String} {rest : List String} {g : Gate}
      (h : t.get? (d ++ ns ++ [n]) = some .dir) (hr : Leaves t d (ns ++ [n]) rest g) :
      Leaves t d ns (n :: rest) g
  | absolute {ns : Place} {n : String} {p : Path} (rest : List String)
      (h : t.get? (d ++ ns ++ [n]) = some (.link p)) (hp : p.isAbsolute = true) :
      Leaves t d ns (n :: rest) (.link (ns ++ [n]))
  | relative {ns : Place} {n : String} {p : Path} {rest : List String} {g : Gate}
      (h : t.get? (d ++ ns ++ [n]) = some (.link p)) (hp : p.isAbsolute = false)
      (hr : Leaves t d ns (p.steps ++ rest) g) : Leaves t d ns (n :: rest) g

section

variable {t : FileTree} {d q ns : Place}

/-- A look-up that ends outside of the directory in which it begins leaves it. -/
theorem exists_leaves {k : Nat} {e : Place} {steps : List String} {g : Goal}
    (h : Leads t true k e steps g) (place : e = d ++ ns) (hg : g = .node q) (out : ¬d <+: q) :
    ∃ gate, Leaves t d ns steps gate := by
  induction h generalizing ns with
  | done =>
      cases hg
      exact absurd ⟨ns, place.symm⟩ out
  | here _ ih =>
      obtain ⟨gate, leaves⟩ := ih place hg
      exact ⟨gate, .here leaves⟩
  | @up k e rest g _ ih =>
      obtain rfl | ⟨ns, n, rfl⟩ := ns.eq_nil_or_concat'
      · exact ⟨_, .climb rest⟩
      · have above : e.dropLast = d ++ ns := by
          rw [place, ← List.append_assoc, List.dropLast_concat]
        obtain ⟨gate, leaves⟩ := ih above hg
        exact ⟨gate, .up leaves⟩
  | free => cases hg
  | dir _ h _ ih =>
      subst place
      obtain ⟨gate, leaves⟩ := ih (List.append_assoc ..) hg
      exact ⟨gate, .dir h leaves⟩
  | @file k e n b m _ h =>
      cases hg
      exact absurd ⟨ns ++ [n], by rw [place, List.append_assoc]⟩ out
  | link _ _ _ hf => cases hf
  | @jump k e n p rest g _ h _ hr ih =>
      subst place
      cases hp : p.isAbsolute with
      | true => exact ⟨_, .absolute rest h hp⟩
      | false =>
          obtain ⟨gate, leaves⟩ := ih (by rw [hp, if_neg Bool.false_ne_true]) hg
          exact ⟨gate, .relative h hp leaves⟩

/-- A path below a directory that leads to a place outside of it leaves the directory. -/
theorem exists_leaves_of_canonical (ht : t.WellFormed) (hd : t.get? d = some .dir)
    (hn : ∀ n ∈ ns, Proper n) (h : t.canonical (d ++ ns).path = .ok q) (out : ¬d <+: q) :
    ∃ gate, Leaves t d [] ns gate := by
  have proper : ∀ n ∈ d ++ ns, Proper n :=
    List.forall_mem_append.mpr ⟨ht.names (hd ▸ Option.some_ne_none _), hn⟩
  have top : t.get? ([] ++ d) = some .dir := hd
  rw [canonical_eq_ok_iff, goal_eq_ok_iff, Place.steps_path (Place.spellable_of_proper proper),
    origin, Place.isAbsolute_path, if_pos rfl, ← walk_eq_ok_iff, walk_down ht top,
    List.nil_append] at h
  exact exists_leaves (leads_of_walk h.2) (List.append_nil d).symm rfl out

/-- The link through which a directory is left is one of its links, and absolute. -/
theorem Leaves.link_of_gate {steps : List String} {gate : Place}
    (h : Leaves t d ns steps (.link gate)) :
    ∃ p, t.get? (d ++ gate) = some (.link p) ∧ p.isAbsolute = true := by
  generalize hg : Gate.link gate = g at h
  induction h with
  | here _ ih | up _ ih | dir _ _ ih | relative _ _ _ ih => exact ih hg
  | climb => cases hg
  | absolute _ h hp =>
      cases hg
      exact ⟨_, by rwa [← List.append_assoc], hp⟩

/-- What a link through which a copy of `root` is left stands for, where the copies are meant to have
in common what is behind it. -/
inductive Shared (t : FileTree) (root names : Place) : Prop
  /-- A directory of installed dependencies. -/
  | directory (h : t.get? (root ++ names) = some .dir) (hs : names.getLast? = some sharedName)
  /-- A relative link that leaves what is copied. -/
  | leaving {target : Path} {q : Place} (h : t.get? (root ++ names) = some (.link target))
      (hp : target.isAbsolute = false)
      (hq : t.canonical ((Place.path (root ++ names).dropLast).join target) = .ok q)
      (ho : ¬root <+: q)

/-- A link of a copy stands for what is shared, or it was there before. -/
theorem shared_of_copiedNode? {root names : Place} {old : Node} {target : Path}
    (hold : t.get? (root ++ names) = some old)
    (h : copiedNode? t root names old = some (.link target)) :
    Shared t root names ∨ t.get? (root ++ names) = some (.link target) := by
  obtain rfl | ⟨target', rfl, hrel, q, hq, ho, -⟩ | ⟨rfl, hs, -⟩ := copiedNode?_link h
  · exact .inr hold
  · exact .inl (.leaving hold hrel hq ho)
  · exact .inl (.directory hold hs)

/-- The links in the directory `d` of the tree `t'` are those that a copy of `root` in the tree `t` has. -/
def LinksFrom (t : FileTree) (root d : Place) (t' : FileTree) : Prop :=
  ∀ names target, t'.get? (d ++ names) = some (.link target) →
    ∃ old, t.get? (root ++ names) = some old ∧ copiedNode? t root names old = some (.link target)

theorem LinksFrom.of_no_new {t' t'' : FileTree} {root : Place} (h : LinksFrom t root d t')
    (old : ∀ names target, t''.get? (d ++ names) = some (.link target) →
      t'.get? (d ++ names) = some (.link target)) : LinksFrom t root d t'' :=
  fun names target hl => h names target (old names target hl)

theorem Copied.linksFrom {root dest : Place} {t' : FileTree} (h : Copied t root dest t') :
    LinksFrom t root dest t' := by
  intro names target hl
  by_cases hn : names = []
  · rw [hn, List.append_nil, h.top] at hl
    cases hl
  · rw [h.below names hn] at hl
    exact Option.bind_eq_some_iff.mp hl

/-- A copy is left through what is shared, through a link that was absolute before, or from its top. -/
theorem Leaves.gate_cases {t' : FileTree} {root : Place} {steps : List String} {gate : Place}
    (h : Leaves t' d ns steps (.link gate)) (from' : LinksFrom t root d t') :
    Shared t root gate ∨
      ∃ target, t.get? (root ++ gate) = some (.link target) ∧ target.isAbsolute = true := by
  obtain ⟨target, hl, absolute⟩ := h.link_of_gate
  obtain ⟨old, hold, copied⟩ := from' gate target hl
  exact (shared_of_copiedNode? hold copied).imp_right fun kept => ⟨target, kept, absolute⟩

end

end Batch
end TestRepair
