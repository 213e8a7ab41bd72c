import Mathlib.Data.Finset.Card
import Mathlib.Data.Option.Basic
import Mathlib.Logic.Relation
import Mathlib.Tactic

/-!
# Following a partial function

A loop that goes from one place to the next, and ends where there is none.

* `Loops` — a place is reached that is reached from itself.
-/

namespace Orbit

open Option (bind_some)
open Relation.ReflTransGen (cases_head_iff)

universe u

variable {α : Type u} (next : α → Option α)

/-- The place after `n` steps. -/
def iter : ℕ → α → Option α
  | 0, a => some a
  | n + 1, a => (next a).bind (iter n)

def Step (a b : α) : Prop := next a = some b

def Loops (a : α) : Prop :=
  ∃ b, Relation.ReflTransGen (Step next) a b ∧ Relation.TransGen (Step next) b b

/-- The relation `r` leads from one place to the other in `n` steps. -/
def Steps (r : α → α → Prop) : ℕ → α → α → Prop
  | 0, a, b => a = b
  | n + 1, a, b => ∃ c, r a c ∧ Steps r n c b

variable {next} {a b : α} {m n : ℕ}

lemma iter_add (m n : ℕ) (a : α) : iter next (m + n) a = (iter next m a).bind (iter next n) := by
  induction m generalizing a with
  | zero => rw [Nat.zero_add, iter, bind_some]
  | succ m ih =>
    rw [Nat.add_right_comm, iter, iter]
    cases next a with
    | none => rfl
    | some b => exact ih b

lemma iter_mono (h : iter next m a = none) (hle : m ≤ n) : iter next n a = none := by
  obtain ⟨k, rfl⟩ := Nat.exists_eq_add_of_le hle
  rw [iter_add, h, Option.bind_none]

lemma iter_of_le (h : (iter next n a).isSome = true) (hle : m ≤ n) :
    (iter next m a).isSome = true := by
  rw [Option.isSome_iff_ne_none] at h ⊢
  exact fun hnone => h (iter_mono hnone hle)

lemma reaches_iff : Relation.ReflTransGen (Step next) a b ↔ ∃ n, iter next n a = some b := by
  constructor
  · intro h
    induction h with
    | refl => exact ⟨0, rfl⟩
    | tail _ hstep ih =>
      obtain ⟨n, hn⟩ := ih
      refine ⟨n + 1, ?_⟩
      rw [iter_add, hn, bind_some, iter, hstep]
      rfl
  · rintro ⟨n, hn⟩
    induction n generalizing a with
    | zero =>
      cases hn
      exact .refl
    | succ n ih =>
      obtain ⟨c, hstep, hrest⟩ := Option.bind_eq_some_iff.mp hn
      exact .head hstep (ih hrest)

lemma returns_iff : Relation.TransGen (Step next) a b ↔ ∃ n, iter next (n + 1) a = some b := by
  constructor
  · intro h
    obtain ⟨c, hstep, hrest⟩ := Relation.TransGen.head'_iff.mp h
    obtain ⟨n, hn⟩ := reaches_iff.mp hrest
    refine ⟨n, ?_⟩
    rw [iter, hstep, bind_some, hn]
  · rintro ⟨n, hn⟩
    obtain ⟨c, hstep, hrest⟩ := Option.bind_eq_some_iff.mp hn
    exact Relation.TransGen.head'_iff.mpr ⟨c, hstep, reaches_iff.mpr ⟨n, hrest⟩⟩

lemma last_unique {p q : α} (hp : Relation.ReflTransGen (Step next) a p) (hpn : next p = none)
    (hq : Relation.ReflTransGen (Step next) a q) (hqn : next q = none) : q = p := by
  have hunique : Relator.RightUnique (Step next) := by
    intro b c d hc hd
    exact Option.some_inj.mp (hc.symm.trans hd)
  rcases Relation.ReflTransGen.total_of_right_unique hunique hp hq with h | h
  · rcases cases_head_iff.mp h with rfl | ⟨c, hstep, -⟩
    · rfl
    · rw [Step, hpn] at hstep
      cases hstep
  rcases cases_head_iff.mp h with rfl | ⟨c, hstep, -⟩
  · rfl
  · rw [Step, hqn] at hstep
    cases hstep

lemma exists_last (h : iter next n a = none) :
    ∃ k b, k < n ∧ iter next k a = some b ∧ next b = none := by
  induction n generalizing a with
  | zero => cases h
  | succ n ih =>
    rw [iter] at h
    cases hnext : next a with
    | none => exact ⟨0, a, Nat.succ_pos n, rfl, hnext⟩
    | some a' =>
      rw [hnext, bind_some] at h
      obtain ⟨k, b, hlt, hiter, hlast⟩ := ih h
      refine ⟨k + 1, b, Nat.succ_lt_succ hlt, ?_, hlast⟩
      rw [iter, hnext, bind_some, hiter]

lemma reaches_of_none (h : next a = none) : Relation.ReflTransGen (Step next) a b ↔ b = a := by
  rw [cases_head_iff]
  constructor
  · rintro (rfl | ⟨c, hstep, -⟩)
    · rfl
    · rw [Step, h] at hstep
      cases hstep
  · rintro rfl
    exact .inl rfl

lemma exists_reaches_of_some {P : α → Prop} {c : α} (h : next a = some c) (hP : ¬ P a) :
    (∃ b, Relation.ReflTransGen (Step next) a b ∧ P b) ↔
      ∃ b, Relation.ReflTransGen (Step next) c b ∧ P b := by
  constructor
  · rintro ⟨b, hreach, hb⟩
    rcases cases_head_iff.mp hreach with rfl | ⟨d, hstep, hrest⟩
    · exact absurd hb hP
    rw [Step, h] at hstep
    cases hstep
    exact ⟨b, hrest, hb⟩
  · rintro ⟨b, hreach, hb⟩
    exact ⟨b, .head h hreach, hb⟩

lemma exists_reaches_of_none {P : α → Prop} (h : next a = none) :
    (∃ b, Relation.ReflTransGen (Step next) a b ∧ P b) ↔ P a := by
  constructor
  · rintro ⟨b, hreach, hb⟩
    rwa [(reaches_of_none h).mp hreach] at hb
  · intro ha
    exact ⟨a, .refl, ha⟩

lemma isSome_of_returns (h : Relation.TransGen (Step next) b b) (n : ℕ) :
    (iter next n b).isSome = true := by
  obtain ⟨k, hk⟩ := returns_iff.mp h
  have hround : ∀ r, iter next (r * (k + 1)) b = some b := by
    intro r
    induction r with
    | zero => rw [Nat.zero_mul, iter]
    | succ r ih => rw [Nat.succ_mul, iter_add, ih, bind_some, hk]
  refine iter_of_le (n := n * (k + 1)) (by rw [hround]; rfl) ?_
  exact Nat.le_mul_of_pos_right n (Nat.succ_pos k)

lemma Loops.isSome (h : Loops next a) (n : ℕ) : (iter next n a).isSome = true := by
  obtain ⟨b, hreach, hback⟩ := h
  obtain ⟨m, hm⟩ := reaches_iff.mp hreach
  refine iter_of_le (n := m + n) ?_ (Nat.le_add_left n m)
  rw [iter_add, hm, bind_some]
  exact isSome_of_returns hback n

lemma loops_of_eq {i j : ℕ} (hlt : i < j) (hi : iter next i a = some b)
    (hj : iter next j a = some b) : Loops next a := by
  obtain ⟨k, rfl⟩ := Nat.exists_eq_add_of_lt hlt
  refine ⟨b, reaches_iff.mpr ⟨i, hi⟩, returns_iff.mpr ⟨k, ?_⟩⟩
  rw [Nat.add_assoc, iter_add, hi, bind_some] at hj
  exact hj

lemma loops_of_isSome {S : Finset α} (hS : ∀ b, Relation.ReflTransGen (Step next) a b → b ∈ S)
    (h : (iter next S.card a).isSome = true) : Loops next a := by
  have hget : ∀ i, i ≤ S.card → ∃ b ∈ S, iter next i a = some b := by
    intro i hi
    obtain ⟨b, hb⟩ := Option.isSome_iff_exists.mp (iter_of_le h hi)
    exact ⟨b, hS b (reaches_iff.mpr ⟨i, hb⟩), hb⟩
  choose f hf hiter using fun i : Fin (S.card + 1) => hget i (Nat.lt_succ_iff.mp i.isLt)
  have hcard : S.card < (Finset.univ : Finset (Fin (S.card + 1))).card := by simp
  obtain ⟨i, -, j, -, hne, heq⟩ :=
    Finset.exists_ne_map_eq_of_card_lt_of_maps_to hcard (f := f) fun i _ => hf i
  rcases Nat.lt_or_gt_of_ne (Fin.val_ne_of_ne hne) with hlt | hlt
  · exact loops_of_eq hlt (hiter i) (heq ▸ hiter j)
  · exact loops_of_eq hlt (heq ▸ hiter j) (hiter i)

/-- **Ending.** -/
theorem iter_card_eq_none_iff {S : Finset α}
    (hS : ∀ b, Relation.ReflTransGen (Step next) a b → b ∈ S) :
    iter next S.card a = none ↔ ¬ Loops next a := by
  constructor
  · intro hnone h
    have hsome := h.isSome S.card
    rw [hnone] at hsome
    exact absurd hsome (by simp)
  intro hloops
  by_contra hne
  exact hloops (loops_of_isSome hS (Option.isSome_iff_ne_none.mpr hne))

end Orbit
