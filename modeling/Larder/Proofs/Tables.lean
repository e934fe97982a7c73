import Mathlib.Data.List.Induction
import Mathlib.Data.List.Nodup
import Mathlib.Data.List.Perm.Basic
import Larder.Table

namespace Larder

variable {α : Type} {l : List (String × α)}

/-- Where every key occurs once, what has a key is what is found under it. -/
theorem find?_key_eq_some_iff (h : (l.map Prod.fst).Nodup) {key : String} {a : α} :
    (l.find? (·.1 = key)).map (·.2) = some a ↔ (key, a) ∈ l := by
  induction l with
  | nil => simp
  | cons p l ih =>
    obtain ⟨k, b⟩ := p
    obtain ⟨hnew, hrest⟩ := List.nodup_cons.mp h
    by_cases hk : k = key
    · subst hk
      have hother : (k, a) ∉ l := fun hm => hnew (List.mem_map.mpr ⟨_, hm, rfl⟩)
      simp [hother, eq_comm]
    · rw [List.find?_cons_of_neg (by simpa using hk), ih hrest]
      simp [Ne.symm hk]

theorem setKey_perm {key : String} {a : α} (h : key ∉ l.map Prod.fst) :
    (setKey key a l).Perm ((key, a) :: l) := by
  induction l with
  | nil => exact List.Perm.refl _
  | cons q r ih =>
    obtain ⟨k, b⟩ := q
    obtain ⟨hne, hrest⟩ := List.ne_and_not_mem_of_not_mem_cons h
    simp only [setKey, if_neg hne]
    split
    · exact List.Perm.refl _
    · exact ((ih hrest).cons (k, b)).trans (List.Perm.swap (key, a) (k, b) r)

/-- Entries of different keys are all kept. -/
theorem sortByKey_perm (h : (l.map Prod.fst).Nodup) : (sortByKey l).Perm l := by
  induction l using List.reverseRecOn with
  | nil => exact List.Perm.refl _
  | append_singleton l p ih =>
    rw [List.map_append, List.map_singleton, ← List.concat_eq_append, List.nodup_concat] at h
    obtain ⟨hnew, hl⟩ := h
    have hstep : sortByKey (l ++ [p]) = setKey p.1 p.2 (sortByKey l) := by
      simp [sortByKey, List.foldl_append]
    have hmissing : p.1 ∉ (sortByKey l).map Prod.fst :=
      fun hm => hnew (((ih hl).map Prod.fst).mem_iff.mp hm)
    rw [hstep]
    exact (setKey_perm hmissing).trans
      (((ih hl).cons p).trans (List.perm_append_singleton p l).symm)

theorem KeysAscend.nodup (h : KeysAscend l) : (l.map Prod.fst).Nodup :=
  List.Pairwise.map Prod.fst (fun _ _ hlt => String.ne_of_lt hlt) h

/-- Two lists in key order that have the same entries are the same. -/
theorem KeysAscend.eq_of_perm {l' : List (String × α)} (h : KeysAscend l) (h' : KeysAscend l')
    (hperm : l.Perm l') : l = l' :=
  hperm.eq_of_pairwise (fun _ _ _ _ hab hba => absurd hba (String.lt_asymm hab)) h h'

end Larder
