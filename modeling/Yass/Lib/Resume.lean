import Mathlib.Data.Nat.Basic
import Mathlib.Tactic

/-!
# Parsers that are called again

A parser is called with the stage and the fields that it keeps, with where it starts and with where
the input ends. If it asks for more, it is called again from where it stopped, on longer input.

* `Agrees` — they come to the same result, fields and position as one call on the whole input.
* `agrees_iff_of_more` — then the second call, from where the first one stopped, has to come to what
  one call from the start comes to.
-/

namespace Resume

universe u v w

structure Outcome (β : Type u) (κ : Type v) (ρ : Type w) where
  result : β
  stage : κ
  fields : ρ
  pos : ℕ

variable {β : Type u} {κ : Type v} {ρ : Type w}

def Outcome.seen (o : Outcome β κ ρ) : β × ρ × ℕ := (o.result, o.fields, o.pos)

variable [DecidableEq β] (more : β) (parse : κ → ρ → ℕ → ℕ → Outcome β κ ρ)

def again (k : κ) (r : ρ) (cut n : ℕ) : Outcome β κ ρ :=
  let first := parse k r 0 cut
  if first.result = more then parse first.stage first.fields first.pos n else first

def Agrees (k : κ) (r : ρ) (cut n : ℕ) : Prop :=
  (again more parse k r cut n).seen = (parse k r 0 n).seen

variable {more parse} {k k' : κ} {r r' : ρ} {cut n i : ℕ}

lemma agrees_iff_of_more (h : parse k r 0 cut = ⟨more, k', r', i⟩) :
    Agrees more parse k r cut n ↔ (parse k' r' i n).seen = (parse k r 0 n).seen := by
  rw [Agrees, again, h]
  simp

lemma agrees_of_goes_on (h : parse k r 0 cut = ⟨more, k', r', i⟩)
    (hgoes : parse k r 0 n = parse k' r' i n) : Agrees more parse k r cut n := by
  rw [agrees_iff_of_more h, hgoes]

lemma agrees_of_done {o : Outcome β κ ρ} (hfirst : parse k r 0 cut = o)
    (hwhole : parse k r 0 n = o) (h : o.result ≠ more) : Agrees more parse k r cut n := by
  rw [Agrees, again, hfirst, if_neg h, hwhole]

end Resume
