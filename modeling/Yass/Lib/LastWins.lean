import Mathlib.Data.List.Perm.Basic
import Mathlib.Data.List.Nodup
import Mathlib.Tactic

/-!
# A map that is filled from a list

A hash map to which the entries of a list are assigned one after the other, as the list of its
entries. The order of a hash map is not specified, so only statements up to a permutation say
something about one.

* `assign`, `build` — an assignment, and all of them.
* `build_sublist`, `nodup_keys_build` — the map has some of the entries, one for each key.
* `filter_build` — a condition on keys can be asked before or after.
-/

namespace LastWins

universe u v

variable {κ : Type u} {ν : Type v} [DecidableEq κ]

/-- `m[k] = v`. -/
def assign (m : List (κ × ν)) (f : κ × ν) : List (κ × ν) := m.filter (fun g => g.1 ≠ f.1) ++ [f]

def build (l : List (κ × ν)) : List (κ × ν) := l.foldl assign []

@[simp] lemma build_nil : build ([] : List (κ × ν)) = [] := rfl

lemma build_snoc (l : List (κ × ν)) (f : κ × ν) : build (l ++ [f]) = assign (build l) f := by
  rw [build, List.foldl_append]
  rfl

lemma build_sublist (l : List (κ × ν)) : (build l).Sublist l := by
  induction l using List.reverseRecOn with
  | nil => exact List.Sublist.refl _
  | append_singleton l f ih =>
    rw [build_snoc]
    exact (List.filter_sublist.trans ih).append (List.Sublist.refl _)

lemma nodup_keys_build (l : List (κ × ν)) : ((build l).map Prod.fst).Nodup := by
  induction l using List.reverseRecOn with
  | nil => exact List.nodup_nil
  | append_singleton l f ih =>
    rw [build_snoc, assign, List.map_append, List.nodup_append]
    refine ⟨ih.sublist (List.filter_sublist.map _), List.nodup_singleton _, ?_⟩
    intro k hk k' hk'
    obtain ⟨g, hg, rfl⟩ := List.mem_map.mp hk
    rw [List.map_singleton, List.mem_singleton] at hk'
    subst hk'
    simpa using (List.mem_filter.mp hg).2

lemma filter_build (p : κ → Bool) (l : List (κ × ν)) :
    (build l).filter (fun f => p f.1) = build (l.filter fun f => p f.1) := by
  induction l using List.reverseRecOn with
  | nil => rfl
  | append_singleton l f ih =>
    rw [build_snoc, assign, List.filter_append, List.filter_append]
    by_cases hp : p f.1
    · rw [List.filter_singleton, hp, cond_true, build_snoc, assign, ← ih, List.filter_filter,
        List.filter_filter]
      simp only [Bool.and_comm]
    -- the key is not among those asked for, so the assignment changes none of them
    rw [Bool.not_eq_true] at hp
    rw [List.filter_singleton, hp, cond_false, List.append_nil, List.append_nil,
      List.filter_filter, ← ih]
    refine List.filter_congr fun g _ => ?_
    by_cases hkey : g.1 = f.1
    · simp [hkey, hp]
    · simp [hkey]

/-- **Nothing is lost** exactly if the keys are distinct. -/
theorem build_eq_self_iff (l : List (κ × ν)) : build l = l ↔ (l.map Prod.fst).Nodup := by
  constructor
  · intro h
    rw [← h]
    exact nodup_keys_build l
  intro h
  induction l using List.reverseRecOn with
  | nil => rfl
  | append_singleton l f ih =>
    rw [List.map_append, List.nodup_append] at h
    obtain ⟨hl, -, hdisjoint⟩ := h
    rw [build_snoc, assign, ih hl]
    congr 1
    refine List.filter_eq_self.mpr fun g hg => ?_
    have hne := hdisjoint g.1 (List.mem_map_of_mem hg) f.1 (by simp)
    simpa using hne

lemma build_eq_nil_iff (l : List (κ × ν)) : build l = [] ↔ l = [] := by
  induction l using List.reverseRecOn with
  | nil => simp
  | append_singleton l f _ => simp [build_snoc, assign]

end LastWins
