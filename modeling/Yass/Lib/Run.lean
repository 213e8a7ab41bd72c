import Mathlib.Data.List.Basic
import Mathlib.Tactic

/-!
# Runs of a system that may stop

A system is a step function; `none` is a step that does not return (an abort, a crash).

* `exec` — a run over a list of events.
* `exec_eq_none` — a run that stops, stops at one of its events.
* `along_keeps_history`, `exec_keeps_history` — the same for a property that also speaks of the
  events so far.
-/

namespace Run

open Option (bind_eq_some_iff bind_some)

universe u v

variable {σ : Type u} {ε : Type v} (step : σ → ε → Option σ)

def exec (s : σ) (es : List ε) : Option σ := es.foldlM step s

@[simp] lemma exec_nil (s : σ) : exec step s [] = some s := rfl

lemma exec_cons (s : σ) (e : ε) (es : List ε) :
    exec step s (e :: es) = (step s e).bind fun s' => exec step s' es := rfl

lemma exec_append (s : σ) (es₁ es₂ : List ε) :
    exec step s (es₁ ++ es₂) = (exec step s es₁).bind fun s' => exec step s' es₂ := by
  unfold exec
  rw [List.foldlM_append]
  rfl

/-- Every event of the run satisfies `C` in the state in which it happens. -/
def Along (C : σ → ε → Prop) : σ → List ε → Prop
  | _, [] => True
  | s, e :: es => C s e ∧ ∀ s', step s e = some s' → Along C s' es

instance Along.decidable {C : σ → ε → Prop} [∀ s e, Decidable (C s e)] :
    (s : σ) → (es : List ε) → Decidable (Along step C s es)
  | _, [] => isTrue trivial
  | s, e :: es =>
    match h : step s e with
    | none => decidable_of_iff (C s e) (by simp [Along, h])
    | some s' =>
      have := Along.decidable (C := C) s' es
      decidable_of_iff (C s e ∧ Along step C s' es) (by simp [Along, h])

lemma along_true (s : σ) (es : List ε) : Along step (fun _ _ => True) s es := by
  induction es generalizing s with
  | nil => trivial
  | cons e es ih => exact ⟨trivial, fun s' _ => ih s'⟩

variable {step}

variable {s : σ} {es : List ε}

lemma exec_eq_none (h : exec step s es = none) :
    ∃ es₁ e es₂ s₁, es = es₁ ++ e :: es₂ ∧ exec step s es₁ = some s₁ ∧ step s₁ e = none := by
  induction es generalizing s with
  | nil => cases h
  | cons e es ih =>
    cases hstep : step s e with
    | none => exact ⟨[], e, es, s, rfl, rfl, hstep⟩
    | some s₁ =>
      rw [exec_cons, hstep, bind_some] at h
      obtain ⟨es₁, e', es₂, s₂, rfl, hrun, hstop⟩ := ih h
      refine ⟨e :: es₁, e', es₂, s₂, rfl, ?_, hstop⟩
      rw [exec_cons, hstep, bind_some, hrun]

lemma along_of_forall {C : ε → Prop} (h : ∀ e ∈ es, C e) : Along step (fun _ => C) s es := by
  induction es generalizing s with
  | nil => trivial
  | cons e es ih =>
    exact ⟨h e List.mem_cons_self, fun s' _ => ih fun e' he' => h e' (List.mem_cons_of_mem e he')⟩

variable {C : σ → ε → Prop} {es₁ : List ε}

lemma Along.of_append {es₂ : List ε} (h : Along step C s (es₁ ++ es₂)) : Along step C s es₁ := by
  induction es₁ generalizing s with
  | nil => trivial
  | cons e es₁ ih => exact ⟨h.1, fun s' hs' => ih (h.2 s' hs')⟩

lemma Along.at {s₁ : σ} {es₂ : List ε} {e : ε}
    (h : Along step C s (es₁ ++ e :: es₂)) (hrun : exec step s es₁ = some s₁) : C s₁ e := by
  induction es₁ generalizing s with
  | nil =>
    cases hrun
    exact h.1
  | cons e' es₁ ih =>
    rw [exec_cons] at hrun
    obtain ⟨s', hs', hrest⟩ := bind_eq_some_iff.mp hrun
    exact ih (h.2 s' hs') hrest

lemma Along.imp {C' : σ → ε → Prop} (hC : ∀ s e, C s e → C' s e)
    (h : Along step C s es) : Along step C' s es := by
  induction es generalizing s with
  | nil => trivial
  | cons e es ih => exact ⟨hC s e h.1, fun s' hs' => ih (h.2 s' hs')⟩

lemma Along.and {C' : σ → ε → Prop} (h : Along step C s es)
    (h' : Along step C' s es) : Along step (fun s e => C s e ∧ C' s e) s es := by
  induction es generalizing s with
  | nil => trivial
  | cons e es ih => exact ⟨⟨h.1, h'.1⟩, fun s' hs' => ih (h.2 s' hs') (h'.2 s' hs')⟩

/-- **Stuttering.** Events that leave the states they meet as they are can be left out. -/
theorem exec_filter {p : ε → Bool}
    (h : Along step (fun s e => p e = false → step s e = some s) s es) :
    exec step s (es.filter p) = exec step s es := by
  induction es generalizing s with
  | nil => rfl
  | cons e es ih =>
    rw [exec_cons]
    by_cases hp : p e
    · rw [List.filter_cons_of_pos hp, exec_cons]
      cases hstep : step s e with
      | none => rfl
      | some s' => exact ih (h.2 s' hstep)
    rw [Bool.not_eq_true] at hp
    have hsame := h.1 hp
    rw [List.filter_cons_of_neg (by simp [hp]), hsame, bind_some]
    exact ih (h.2 s hsame)

variable {I : σ → Prop}

/-- **Invariant rule.** Every event keeps `I` and does not stop the system, so the run ends and `I`
holds at its end. -/
theorem exec_invariant (hstep : ∀ s e, I s → C s e → ∃ s', step s e = some s' ∧ I s')
    (hs : I s) (hes : Along step C s es) : ∃ s', exec step s es = some s' ∧ I s' := by
  induction es generalizing s with
  | nil => exact ⟨s, rfl, hs⟩
  | cons e es ih =>
    obtain ⟨s₁, hs₁, hI₁⟩ := hstep s e hs hes.1
    obtain ⟨s₂, hs₂, hI₂⟩ := ih hI₁ (hes.2 s₁ hs₁)
    refine ⟨s₂, ?_, hI₂⟩
    rw [exec_cons, hs₁, bind_some, hs₂]

variable {s' : σ}

/-- **Invariant rule, partial form.** Every event keeps `I` if the system goes on, so `I` holds in
every state the run reaches. -/
theorem reached_invariant (hstep : ∀ s e s', I s → C s e → step s e = some s' → I s')
    (hs : I s) (hes : Along step C s es) (hpre : es₁ <+: es)
    (hrun : exec step s es₁ = some s') : I s' := by
  obtain ⟨es₂, rfl⟩ := hpre
  replace hes := hes.of_append
  induction es₁ generalizing s with
  | nil =>
    cases hrun
    exact hs
  | cons e es₁ ih =>
    rw [exec_cons] at hrun
    cases h : step s e with
    | none => simp [h] at hrun
    | some s₁ =>
      rw [h, bind_some] at hrun
      exact ih (hstep s e s₁ hs hes.1 h) hrun (hes.2 s₁ h)

/-- **Invariant rule, without a condition.** -/
theorem exec_keeps (hstep : ∀ s e s', I s → step s e = some s' → I s') {s s' : σ} {es : List ε}
    (hs : I s) (hrun : exec step s es = some s') : I s' :=
  reached_invariant (fun s e s' hI _ => hstep s e s' hI) hs (along_true step s es)
    (List.prefix_refl es) hrun

/-- **Invariant rule with a history.** The property may also speak of the events so far. -/
theorem along_keeps_history {I : List ε → σ → Prop}
    (hstep : ∀ es s e s', I es s → C s e → step s e = some s' → I (es ++ [e]) s') (hs : I [] s)
    (hes : Along step C s es) (hrun : exec step s es = some s') :
    I es s' := by
  induction es using List.reverseRecOn generalizing s' with
  | nil =>
    cases hrun
    exact hs
  | append_singleton es e ih =>
    rw [exec_append] at hrun
    obtain ⟨s₁, hs₁, hlast⟩ := bind_eq_some_iff.mp hrun
    rw [exec_cons] at hlast
    obtain ⟨s₂, hs₂, hend⟩ := bind_eq_some_iff.mp hlast
    cases hend
    exact hstep es s₁ e _ (ih hes.of_append hs₁) (hes.at hs₁) hs₂

theorem exec_keeps_history {I : List ε → σ → Prop}
    (hstep : ∀ es s e s', I es s → step s e = some s' → I (es ++ [e]) s') (hs : I [] s)
    (hrun : exec step s es = some s') : I es s' :=
  along_keeps_history (fun es s e s' hI _ => hstep es s e s' hI) hs (along_true step s es) hrun

theorem along_of_exec (hstep : ∀ s e s', I s → step s e = some s' → C s e ∧ I s')
    (hs : I s) (hrun : exec step s es = some s') : Along step C s es := by
  induction es generalizing s with
  | nil => trivial
  | cons e es ih =>
    rw [exec_cons] at hrun
    obtain ⟨s₁, hs₁, hrest⟩ := bind_eq_some_iff.mp hrun
    obtain ⟨hC, hI⟩ := hstep s e s₁ hs hs₁
    refine ⟨hC, fun s₂ hs₂ => ?_⟩
    cases hs₁.symm.trans hs₂
    exact ih hI hrest

/-- **Simulation rule.** Where a second system can follow every step, it can follow every run. -/
theorem exec_simulates {τ : Type*} {step' : τ → ε → Option τ} {R : σ → τ → Prop}
    (hstep : ∀ s t e t', R s t → step' t e = some t' → ∃ s', step s e = some s' ∧ R s' t')
    {t t' : τ} (hs : R s t) (hrun : exec step' t es = some t') :
    ∃ s', exec step s es = some s' ∧ R s' t' := by
  induction es generalizing s t with
  | nil =>
    cases hrun
    exact ⟨s, rfl, hs⟩
  | cons e es ih =>
    rw [exec_cons] at hrun
    obtain ⟨t₁, ht₁, hrest⟩ := bind_eq_some_iff.mp hrun
    obtain ⟨s₁, hs₁, hR⟩ := hstep s t e t₁ hs ht₁
    obtain ⟨s', hs', hend⟩ := ih hR hrest
    exact ⟨s', by rw [exec_cons, hs₁, bind_some, hs'], hend⟩

theorem reflTransGen_keeps {R : σ → σ → Prop}
    (hmove : ∀ s s', I s → R s s' → I s') (h : Relation.ReflTransGen R s s') (hs : I s) : I s' := by
  induction h with
  | refl => exact hs
  | tail _ hlast ih => exact hmove _ _ ih hlast

/-- **Level rule.** A change does not raise the level, or leaves it within `bound`, or leaves it
within `bound` and a reserve that is smaller than `cap`. Then at every moment there was an earlier
one whose reserve bounds the level. -/
theorem reflTransGen_level {R : σ → σ → Prop} (level reserve : σ → ℕ) {bound cap : ℕ}
    (hmove : ∀ s s', I s → R s s' → I s' ∧ (level s' ≤ level s ∨ level s' ≤ bound ∨
      reserve s < cap ∧ level s' ≤ bound + reserve s)) {s₀ : σ} (hI : I s₀)
    (hlevel : level s₀ ≤ bound) (hreserve : reserve s₀ < cap) (h : Relation.ReflTransGen R s₀ s) :
    ∃ t, Relation.ReflTransGen R s₀ t ∧ Relation.ReflTransGen R t s ∧ reserve t < cap ∧
      level s ≤ bound + reserve t := by
  suffices hboth : I s ∧ ∃ t, Relation.ReflTransGen R s₀ t ∧ Relation.ReflTransGen R t s ∧
      reserve t < cap ∧ level s ≤ bound + reserve t from hboth.2
  induction h with
  | refl => exact ⟨hI, s₀, .refl, .refl, hreserve, hlevel.trans (Nat.le_add_right _ _)⟩
  | @tail s₁ s₂ hrun hlast ih =>
    obtain ⟨hs₁, t, hbefore, hafter, hcap, hle⟩ := ih
    obtain ⟨hs₂, hstep⟩ := hmove _ _ hs₁ hlast
    refine ⟨hs₂, ?_⟩
    rcases hstep with hfalls | hlow | ⟨hcap₁, hraised⟩
    · exact ⟨t, hbefore, hafter.tail hlast, hcap, hfalls.trans hle⟩
    · exact ⟨t, hbefore, hafter.tail hlast, hcap, hlow.trans (Nat.le_add_right _ _)⟩
    · exact ⟨s₁, hrun, .single hlast, hcap₁, hraised⟩

end Run
