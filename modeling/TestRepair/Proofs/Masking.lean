import Mathlib.Data.List.Nodup
import TestRepair.Proofs.Dictionary
import TestRepair.Proofs.Text.Replacing
import TestRepair.Report

/-!
What the printed environment shows. A name that contains one of the secret words in any case is masked,
although a lower case may be longer than its letter and depend on the letters around it. So the text is
settled by the keys and by the values of all other names, and the entries come in the order of the keys.
-/

namespace TestRepair

namespace Text

/-- What is lowered first does not depend on what follows, but for the form of a sigma. -/
theorem exists_lowerAfter_append (before s t : List Char) :
    ∃ low, lowerAfter before (s ++ t) = low ++ lowerAfter (s.reverse ++ before) t := by
  induction s generalizing before with
  | nil => exact ⟨[], rfl⟩
  | cons c s ih =>
      obtain ⟨low, h⟩ := ih (c :: before)
      rw [List.cons_append, lowerAfter, h, List.reverse_cons, List.append_assoc]
      exact ⟨_, (List.append_assoc ..).symm⟩

/-- Letters other than a capital sigma are lowered one by one. -/
theorem lowerAfter_append {s : List Char} (plain : 'Σ' ∉ s) (before t : List Char) :
    lowerAfter before (s ++ t) = s.flatMap lowerChar ++ lowerAfter (s.reverse ++ before) t := by
  induction s generalizing before with
  | nil => rfl
  | cons c s ih =>
      rw [List.mem_cons, not_or] at plain
      have other : (c == 'Σ') = false := by simpa using Ne.symm plain.1
      rw [List.cons_append, lowerAfter, ih plain.2]
      simp [other]

theorem lowercase_eq {s : List Char} (plain : 'Σ' ∉ s) : lowercase s = s.flatMap lowerChar := by
  simpa [lowercase, lowerAfter] using lowerAfter_append plain [] []

/-- A capital sigma never becomes an ASCII letter. -/
theorem mem_lowercase_of_sigma {s : List Char} (h : 'Σ' ∈ s) :
    'σ' ∈ lowercase s ∨ 'ς' ∈ lowercase s := by
  obtain ⟨front, back, rfl⟩ := List.append_of_mem h
  obtain ⟨low, split⟩ := exists_lowerAfter_append [] front ('Σ' :: back)
  rw [lowercase, split, lowerAfter]
  simp only [beq_self_eq_true, if_true, List.mem_append]
  split
  · right
    simp
  · left
    simp

/-- A part without a capital sigma is lowered in any text as it is on its own. -/
theorem lowercase_infix {part s : List Char} (h : part <:+: s) (plain : 'Σ' ∉ part) :
    lowercase part <:+: lowercase s := by
  obtain ⟨front, back, rfl⟩ := h
  obtain ⟨low, split⟩ := exists_lowerAfter_append [] front (part ++ back)
  rw [List.append_assoc, lowercase, lowercase, ← lowercase, lowercase_eq plain, split,
    lowerAfter_append plain]
  exact ⟨low, _, List.append_assoc ..⟩

end Text

namespace Report

open Text

/-- A name contains one of the secret words, whatever the case of its letters. -/
def NamesSecret (name : String) : Prop :=
  ∃ word ∈ secretWords, ∃ part, part <:+: name.toList ∧ lowercase part = word.toList

theorem isSecret_of_namesSecret {name : String} (h : NamesSecret name) : isSecret name = true := by
  obtain ⟨word, mem, part, inside, low⟩ := h
  have ascii : ∀ word ∈ secretWords, 'σ' ∉ word.toList ∧ 'ς' ∉ word.toList := by decide
  have plain : 'Σ' ∉ part := by
    intro sigma
    obtain found | found := mem_lowercase_of_sigma sigma
    · exact (ascii word mem).1 (low ▸ found)
    · exact (ascii word mem).2 (low ▸ found)
  refine List.any_eq_true.mpr ⟨word, mem, ?_⟩
  rw [occursIn_iff, ← low]
  exact lowercase_infix inside plain

variable {env env' : Dictionary String String} {k v : String}

/-- The entries with their values as they are shown. -/
def shownEntries (env : Dictionary String String) : List (String × String) :=
  env.entries.map fun e => (e.1, shownValue e.1 e.2)

theorem ofEnv_eq (env : Dictionary String String) :
    ofEnv env = "\n".intercalate
      (((shownEntries env).mergeSort fun a b => decide (a.1 ≤ b.1)).map fun e =>
        e.1 ++ "=" ++ e.2) := by
  have sorted : (env.entries.mergeSort fun a b => decide (a.1 ≤ b.1)).map
        (fun e => (e.1, shownValue e.1 e.2)) =
      (shownEntries env).mergeSort fun a b => decide (a.1 ≤ b.1) :=
    List.map_mergeSort fun _ _ _ _ => rfl
  rw [← sorted, List.map_map]
  rfl

theorem mem_shownEntries : (k, v) ∈ shownEntries env ↔
    ∃ value, env.get? k = some value ∧ v = shownValue k value := by
  constructor
  · intro h
    obtain ⟨⟨k', value⟩, mem, e⟩ := List.mem_map.mp h
    cases e
    exact ⟨value, Dictionary.mem_entries_iff.mp mem, rfl⟩
  · rintro ⟨value, h, rfl⟩
    exact List.mem_map_of_mem (Dictionary.mem_entries_iff.mpr h)

theorem nodup_shownEntries (env : Dictionary String String) : (shownEntries env).Nodup := by
  refine List.Nodup.of_map (·.1) ?_
  rw [shownEntries, List.map_map]
  exact env.distinct

/-- Two environments with the same keys that differ in nothing but secrets. -/
structure Alike (env env' : Dictionary String String) : Prop where
  keys : ∀ k, k ∈ env'.keys ↔ k ∈ env.keys
  values : ∀ k, ¬NamesSecret k → env'.get? k = env.get? k

theorem Alike.symm (h : Alike env env') : Alike env' env :=
  ⟨fun k => (h.keys k).symm, fun k hk => (h.values k hk).symm⟩

theorem Alike.mem_shownEntries (h : Alike env env') (mem : (k, v) ∈ shownEntries env) :
    (k, v) ∈ shownEntries env' := by
  obtain ⟨value, found, rfl⟩ := Report.mem_shownEntries.mp mem
  rw [Report.mem_shownEntries]
  by_cases secret : NamesSecret k
  · have held : env'.contains k = true := by
      rw [Dictionary.contains_iff_mem_keys, h.keys, ← Dictionary.contains_iff_mem_keys,
        Dictionary.contains, found, Option.isSome_some]
    obtain ⟨value', found'⟩ := Option.isSome_iff_exists.mp held
    exact ⟨value', found', by simp only [shownValue, isSecret_of_namesSecret secret, if_true]⟩
  · exact ⟨value, by rw [h.values k secret, found], rfl⟩

theorem Alike.ofEnv_eq (h : Alike env env') : ofEnv env' = ofEnv env := by
  have perm : (shownEntries env').Perm (shownEntries env) := by
    refine (List.perm_ext_iff_of_nodup (nodup_shownEntries env') (nodup_shownEntries env)).mpr ?_
    rintro ⟨k, v⟩
    exact ⟨h.symm.mem_shownEntries, h.mem_shownEntries⟩
  rw [Report.ofEnv_eq, Report.ofEnv_eq]
  congr 2
  refine Dictionary.eq_of_sorted ?_ ?_ (Dictionary.pairwise_mergeSort_key _)
    (Dictionary.pairwise_mergeSort_key _)
  · exact (List.mergeSort_perm _ _).trans (perm.trans (List.mergeSort_perm _ _).symm)
  · intro k v v' mem' mem
    rw [List.mem_mergeSort] at mem mem'
    obtain ⟨value, found, rfl⟩ := Report.mem_shownEntries.mp mem'
    obtain ⟨value', found', rfl⟩ := Report.mem_shownEntries.mp (h.mem_shownEntries mem)
    rw [Option.some.inj (found.symm.trans found')]

/-- Two environments with the same keys whose values agree on every name that contains no secret word
are printed alike; and what is printed does not depend on the order of the entries. -/
theorem ofEnv_hides_secrets (env env' : Dictionary String String) :
    ((∀ k, k ∈ env'.keys ↔ k ∈ env.keys) →
        (∀ k, ¬NamesSecret k → env'.get? k = env.get? k) → ofEnv env' = ofEnv env) ∧
      (env'.entries.Perm env.entries → ofEnv env' = ofEnv env) := by
  refine ⟨fun keys values => (Alike.mk keys values).ofEnv_eq, fun order => ?_⟩
  have keys (k : String) : k ∈ env'.keys ↔ k ∈ env.keys := (order.map (·.1)).mem_iff
  exact (Alike.mk keys fun k _ => Dictionary.get?_of_perm order k).ofEnv_eq

/-- The value of a secret that is named in mixed case, and the order of the entries, do not show. -/
theorem ofEnv_hides_token :
    NamesSecret "Api_ToKEN" ∧
      ofEnv (.ofList [("Api_ToKEN", "c2"), ("BASE_URL", "https://example.test")]) =
        ofEnv (.ofList [("BASE_URL", "https://example.test"), ("Api_ToKEN", "b1")]) := by
  have secret : NamesSecret "Api_ToKEN" :=
    ⟨"token", by decide, "ToKEN".toList, ⟨"Api_".toList, [], by decide⟩, by decide⟩
  refine ⟨secret, (ofEnv_hides_secrets _ _).1 (fun k => ?_) fun k hk => ?_⟩
  · simp [Dictionary.ofList, Dictionary.insert, Dictionary.put, Dictionary.empty, Dictionary.keys,
      or_comm]
  · have other : k ≠ "Api_ToKEN" := by
      rintro rfl
      exact hk secret
    simp [Dictionary.ofList, Dictionary.get?_insert, other]

end Report

end TestRepair
