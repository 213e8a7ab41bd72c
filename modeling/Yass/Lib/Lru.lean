import Mathlib.Data.List.Basic
import Mathlib.Tactic

/-!
# Caches that keep what was used last

A cache is a list of keys and values, the one used last in front.

* `get` — find a key and move it to the front.
* `put` — a new entry in front. The oldest ones go where the cache is full; `0` stands for a cache
  without a limit.
* `without` — erase a key.
* `length_put` — the number of entries stays within the limit.
-/

namespace Lru

universe u v

variable {K : Type u} {V : Type v} [DecidableEq K]

def without (k : K) (c : List (K × V)) : List (K × V) := c.filter fun p => p.1 ≠ k

def get (k : K) (c : List (K × V)) : Option (V × List (K × V)) :=
  (c.find? fun p => p.1 = k).map fun p => (p.2, (k, p.2) :: without k c)

def put (max : ℕ) (k : K) (v : V) (c : List (K × V)) : List (K × V) :=
  if c.any (fun p => p.1 = k) || max = 0 then (k, v) :: without k c
  else (k, v) :: c.take (max - 1)

variable {k : K} {v : V} {c c' : List (K × V)} {p : K × V}

lemma mem_without : p ∈ without k c ↔ p ∈ c ∧ p.1 ≠ k := by
  rw [without, List.mem_filter, decide_eq_true_iff]

lemma get_eq_some (h : get k c = some (v, c')) : (k, v) ∈ c ∧ c' = (k, v) :: without k c := by
  obtain ⟨q, hq, hpair⟩ := Option.map_eq_some_iff.mp h
  obtain ⟨rfl, rfl⟩ := Prod.mk.inj hpair
  have hkey : q.1 = k := by simpa using List.find?_some hq
  refine ⟨?_, rfl⟩
  rw [← hkey]
  exact List.mem_of_find?_eq_some hq

lemma length_without_lt (h : (k, v) ∈ c) : (without k c).length < c.length := by
  refine List.length_filter_lt_length_iff_exists.mpr ⟨(k, v), h, ?_⟩
  simp

lemma length_put {max : ℕ} (h : max = 0 ∨ c.length ≤ max) :
    max = 0 ∨ (put max k v c).length ≤ max := by
  rcases Nat.eq_zero_or_pos max with hzero | hpos
  · exact .inl hzero
  refine .inr ?_
  have hmax := h.resolve_left hpos.ne'
  rw [put]
  split_ifs with hkey
  · have hany : c.any (fun p => p.1 = k) = true := by
      simpa [hpos.ne'] using hkey
    obtain ⟨q, hq, hqk⟩ := List.any_eq_true.mp hany
    have hmem : (k, q.2) ∈ c := by
      rw [← of_decide_eq_true hqk]
      exact hq
    have := length_without_lt hmem
    rw [List.length_cons]
    omega
  · rw [List.length_cons, List.length_take]
    omega

lemma mem_put {max : ℕ} (h : p ∈ put max k v c) : p = (k, v) ∨ p ∈ c := by
  rw [put] at h
  split_ifs at h with hkey
  · exact (List.mem_cons.mp h).imp_right fun h => (mem_without.mp h).1
  · exact (List.mem_cons.mp h).imp_right List.mem_of_mem_take

end Lru
