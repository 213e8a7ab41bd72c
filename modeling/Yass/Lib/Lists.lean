import Mathlib.Data.List.Basic
import Mathlib.Tactic

/-!
# Lists

* Entries of a list that has grown at its end, or in which one element was changed.
* Two lists whose entries are related one by one.
* `t <+: m ++ w`: of the block `m` that is expected next, `t.take m.length` has come and
  `m.drop t.length` is missing, and `t.drop m.length` has come behind it.
-/

namespace Lists

universe u v

variable {α : Type u} {β : Type v}

/-! ## Entries -/

section Entries

variable {l : List α} {a b : α} {i : ℕ}

lemma getElem?_snoc (h : (l ++ [a])[i]? = some b) : l[i]? = some b ∨ i = l.length ∧ b = a := by
  rcases Nat.lt_or_ge i l.length with hlt | hge
  · rw [List.getElem?_append_left hlt] at h
    exact .inl h
  rw [List.getElem?_append_right hge] at h
  have hi : i - l.length = 0 := by
    by_contra hne
    rw [List.getElem?_eq_none (by simp; omega)] at h
    cases h
  rw [hi] at h
  cases h
  exact .inr ⟨by omega, rfl⟩

lemma getElem?_append_of_some (h : l[i]? = some b) (l' : List α) : (l ++ l')[i]? = some b := by
  rw [List.getElem?_append_left (List.getElem?_eq_some_iff.mp h).1, h]

lemma getElem?_modify_eq_some {f : α → α} {c : ℕ} (h : (l.modify c f)[i]? = some b) :
    ∃ a, l[i]? = some a ∧ b = if c = i then f a else a := by
  rw [List.getElem?_modify] at h
  obtain ⟨a, ha, hb⟩ := Option.map_eq_some_iff.mp h
  exact ⟨a, ha, hb.symm⟩

lemma map_modify_of_eq {f : α → α} {g : α → β} (hfg : ∀ a, g (f a) = g a) (l : List α) (c : ℕ) :
    (l.modify c f).map g = l.map g := by
  apply List.ext_getElem?
  intro i
  rw [List.getElem?_map, List.getElem?_map, List.getElem?_modify]
  cases l[i]? with
  | none => rfl
  | some a =>
    show some (g (if c = i then f a else a)) = some (g a)
    split_ifs
    · rw [hfg]
    · rfl

lemma prefix_snoc {l' : List α} (h : l <+: l') (ha : l'[l.length]? = some a) : l ++ [a] <+: l' := by
  obtain ⟨t, rfl⟩ := h
  cases t with
  | nil => simp at ha
  | cons q t =>
    obtain rfl : q = a := by simpa using ha
    exact ⟨t, by simp⟩

end Entries

/-! ## Related lists -/

section Related

variable {R : α → β → Prop} {l : List α} {m : List β} {i : ℕ}

lemma forall₂_getElem? (h : List.Forall₂ R l m) {b : β} (hb : m[i]? = some b) :
    ∃ a, l[i]? = some a ∧ R a b := by
  induction h generalizing i with
  | nil => exact absurd hb (by simp)
  | cons hab _ ih =>
    cases i with
    | zero =>
      rw [List.getElem?_cons_zero] at hb
      exact ⟨_, rfl, Option.some.inj hb ▸ hab⟩
    | succ i =>
      rw [List.getElem?_cons_succ] at hb
      exact ih hb

lemma forall₂_set (h : List.Forall₂ R l m) {a : α} {b : β} (hab : R a b) (i : ℕ) :
    List.Forall₂ R (l.set i a) (m.set i b) := by
  induction h generalizing i with
  | nil => exact .nil
  | cons hhead htail ih =>
    cases i with
    | zero => exact .cons hab htail
    | succ i => exact .cons hhead (ih i)

lemma forall₂_snoc (h : List.Forall₂ R l m) {a : α} {b : β} (hab : R a b) :
    List.Forall₂ R (l ++ [a]) (m ++ [b]) := List.rel_append h (.cons hab .nil)

end Related

/-! ## Cutting a block -/

section Cut

variable {t m w : List α}

lemma take_append_drop_of_prefix (h : t <+: m ++ w) : t.take m.length ++ m.drop t.length = m := by
  obtain ⟨u, hu⟩ := h
  rcases List.append_eq_append_iff.mp hu with ⟨x, rfl, rfl⟩ | ⟨x, rfl, rfl⟩ <;> simp

lemma append_drop_of_prefix (h : t <+: m ++ w) : t ++ m.drop t.length = m ++ t.drop m.length := by
  obtain ⟨u, hu⟩ := h
  rcases List.append_eq_append_iff.mp hu with ⟨x, rfl, rfl⟩ | ⟨x, rfl, rfl⟩ <;> simp

lemma drop_eq_nil_or (t m : List α) : m.drop t.length = [] ∨ t.drop m.length = [] := by
  simp only [List.drop_eq_nil_iff]
  exact le_total _ _

end Cut

end Lists
