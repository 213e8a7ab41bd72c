import Mathlib.Data.List.Basic
import Mathlib.Tactic

/-!
# Framing: cutting a stream of bytes back into the items it was built from

A receiver gets a stream in pieces whose ends have nothing to do with the ends of the items in it.
It keeps what it could not use, appends the next piece, and takes items off the front for as long
as it can, handing each one to a consumer that may ask it to pause.

* `Attempt` — one try at the front of the buffered bytes: not enough yet, never decodable, or an
  item together with the number of bytes it took and the state after it.
* `drain` — the same with a consumer that never pauses; `drain_append` is the cut rule: draining
  `b ++ c` is draining `b` and then draining what was left followed by `c`.
* `feed`, `feedAll` — the receiver over successive pieces; `feedAll_eq` says that with a
  consumer that never pauses only the concatenation of the pieces counts, and `feed_of_bad` that
  after a front that can never be decoded nothing more is taken.
-/

namespace Framing

universe u v w

inductive Attempt (σ : Type u) (α : Type v) where
  | more
  | bad
  | item (a : α) (n : ℕ) (s : σ)

/-- A try function whose verdicts do not change when more bytes arrive, and whose items take at
least one byte, all of them present. -/
structure Framer (β : Type w) (σ : Type u) (α : Type v) where
  attempt : σ → List β → Attempt σ α
  item_pos : ∀ {s b a n s'}, attempt s b = .item a n s' → 0 < n
  item_le : ∀ {s b a n s'}, attempt s b = .item a n s' → n ≤ b.length
  stable : ∀ {s b} (c : List β), attempt s b ≠ .more → attempt s (b ++ c) = attempt s b

variable {β : Type w} {σ : Type u} {α : Type v}

inductive Stop where
  | starved
  | stuck
  | paused
  deriving DecidableEq, Repr

/-- What taking items gave: the items, the state and the bytes left, and why it ended. -/
structure Taken (β : Type w) (σ : Type u) (α : Type v) where
  items : List α
  state : σ
  rest : List β
  why : Stop

def Taken.prepend (l : List α) (d : Taken β σ α) : Taken β σ α :=
  { d with items := l ++ d.items }

@[simp] lemma Taken.prepend_items (l : List α) (d : Taken β σ α) :
    (d.prepend l).items = l ++ d.items := rfl

@[simp] lemma Taken.prepend_state (l : List α) (d : Taken β σ α) :
    (d.prepend l).state = d.state := rfl

@[simp] lemma Taken.prepend_rest (l : List α) (d : Taken β σ α) :
    (d.prepend l).rest = d.rest := rfl

@[simp] lemma Taken.prepend_why (l : List α) (d : Taken β σ α) :
    (d.prepend l).why = d.why := rfl

@[simp] lemma Taken.prepend_prepend (l m : List α) (d : Taken β σ α) :
    (d.prepend m).prepend l = d.prepend (l ++ m) := by
  simp [Taken.prepend]

@[simp] lemma Taken.prepend_nil (d : Taken β σ α) : d.prepend [] = d := rfl

namespace Framer

variable (F : Framer β σ α) {b : List β}

lemma item_append {s s' : σ} {a : α} {n : ℕ} (c : List β)
    (h : F.attempt s b = .item a n s') : F.attempt s (b ++ c) = .item a n s' := by
  rw [F.stable c (by simp [h]), h]

variable {s : σ}

lemma bad_append (c : List β) (h : F.attempt s b = .bad) :
    F.attempt s (b ++ c) = .bad := by
  rw [F.stable c (by simp [h]), h]

/-- Take items off the front until a try gives none or the consumer, which is shown everything
taken so far, answers `false`. -/
def pump (go : List α → Bool) (past : List α) (s : σ) (b : List β) : Taken β σ α :=
  match _ : F.attempt s b with
  | .more => ⟨[], s, b, .starved⟩
  | .bad => ⟨[], s, b, .stuck⟩
  | .item a n s' =>
    if go (past ++ [a]) then (pump go (past ++ [a]) s' (b.drop n)).prepend [a]
    else ⟨[a], s', b.drop n, .paused⟩
termination_by b.length
decreasing_by
  rename_i h _
  have h₁ := F.item_pos h
  have h₂ := F.item_le h
  rw [List.length_drop]
  omega

section Pump

variable {F} {go : List α → Bool} {past : List α} {s s' : σ} {b : List β} {a : α} {n : ℕ}

lemma pump_of_more (h : F.attempt s b = .more) : F.pump go past s b = ⟨[], s, b, .starved⟩ := by
  rw [pump]
  split <;> simp_all

lemma pump_of_bad (h : F.attempt s b = .bad) : F.pump go past s b = ⟨[], s, b, .stuck⟩ := by
  rw [pump]
  split <;> simp_all

lemma pump_of_item (h : F.attempt s b = .item a n s') :
    F.pump go past s b =
      if go (past ++ [a]) then (F.pump go (past ++ [a]) s' (b.drop n)).prepend [a]
      else ⟨[a], s', b.drop n, .paused⟩ := by
  rw [pump]
  split <;> simp_all

end Pump

theorem attempt_induction {P : σ → List β → Prop} (more : ∀ s b, F.attempt s b = .more → P s b)
    (bad : ∀ s b, F.attempt s b = .bad → P s b)
    (item : ∀ s b a n s', F.attempt s b = .item a n s' → P s' (b.drop n) → P s b) :
    ∀ s b, P s b := by
  intro s b
  induction hlen : b.length using Nat.strong_induction_on generalizing s b with
  | _ len ih =>
    cases h : F.attempt s b with
    | more => exact more s b h
    | bad => exact bad s b h
    | item a n s' =>
      have hpos := F.item_pos h
      have hle := F.item_le h
      refine item s b a n s' h (ih (b.drop n).length ?_ s' (b.drop n) rfl)
      rw [List.length_drop]
      omega

/-- **Invariant rule.** What every single item preserves, relative to the items taken so far,
holds after any number of items. -/
theorem pump_invariant {P : List α → σ → Prop}
    (step : ∀ past s b a n s', F.attempt s b = .item a n s' → P past s → P (past ++ [a]) s')
    (go : List α → Bool) (past : List α) (s : σ) (b : List β) (h : P past s) :
    P (past ++ (F.pump go past s b).items) (F.pump go past s b).state := by
  induction s, b using F.attempt_induction generalizing past with
  | more s b hm => simpa [pump_of_more hm] using h
  | bad s b hb => simpa [pump_of_bad hb] using h
  | item s b a n s' hi ih =>
    have hstep := step past s b a n s' hi h
    rw [pump_of_item hi]
    split
    · simpa using ih (past ++ [a]) hstep
    · simpa using hstep

variable {go : List α → Bool}

lemma attempt_of_pump_stuck {past : List α} (h : (F.pump go past s b).why = .stuck) :
    F.attempt (F.pump go past s b).state (F.pump go past s b).rest = .bad := by
  induction s, b using F.attempt_induction generalizing past with
  | more s b hm => simp [pump_of_more hm] at h
  | bad s b hb => simpa [pump_of_bad hb] using hb
  | item s b a n s' hi ih =>
    rw [pump_of_item hi] at h ⊢
    split at h
    · rename_i hgo
      rw [if_pos hgo]
      exact ih h
    · simp at h

/-! ## A consumer that never pauses -/

def drain (s : σ) (b : List β) : Taken β σ α := F.pump (fun _ => true) [] s b

lemma pump_eq_drain_of
    (hgo : ∀ {s b a n s'} (l : List α), F.attempt s b = .item a n s' → go (l ++ [a]) = true)
    (past : List α) (s : σ) (b : List β) : F.pump go past s b = F.drain s b := by
  unfold drain
  generalize ([] : List α) = past'
  induction s, b using F.attempt_induction generalizing past past' with
  | more s b h => rw [pump_of_more h, pump_of_more h]
  | bad s b h => rw [pump_of_bad h, pump_of_bad h]
  | item s b a n s' h ih =>
    rw [pump_of_item h, pump_of_item h, if_pos (hgo _ h), if_pos rfl,
      ih (past ++ [a]) (past' ++ [a])]

lemma pump_eq_drain (hgo : ∀ l, go l = true) (past : List α) (s : σ)
    (b : List β) : F.pump go past s b = F.drain s b :=
  F.pump_eq_drain_of (fun _ _ => hgo _) past s b

lemma mem_pump {P : α → Prop} (hP : ∀ {s b a n s'}, F.attempt s b = .item a n s' → P a)
    {past : List α} {a : α} (ha : a ∈ (F.pump go past s b).items) : P a := by
  have h := F.pump_invariant (P := fun l _ => ∃ l', l = past ++ l' ∧ ∀ a ∈ l', P a)
    (fun l s b a n s' hi ⟨l', hl, hall⟩ => by
      refine ⟨l' ++ [a], by simp [hl], ?_⟩
      intro x hx
      rcases List.mem_append.mp hx with hx | hx
      · exact hall x hx
      · rw [List.mem_singleton.mp hx]
        exact hP hi) go past s b ⟨[], by simp, by simp⟩
  obtain ⟨l', hl, hall⟩ := h
  rw [List.append_cancel_left hl] at ha
  exact hall a ha

lemma drain_of_more (h : F.attempt s b = .more) :
    F.drain s b = ⟨[], s, b, .starved⟩ := pump_of_more h

lemma drain_of_bad (h : F.attempt s b = .bad) :
    F.drain s b = ⟨[], s, b, .stuck⟩ := pump_of_bad h

lemma drain_of_item {s s' : σ} {a : α} {n : ℕ} (h : F.attempt s b = .item a n s') :
    F.drain s b = (F.drain s' (b.drop n)).prepend [a] := by
  rw [drain, pump_of_item h, if_pos rfl, F.pump_eq_drain fun _ => rfl]

lemma drain_why_ne_paused (s : σ) (b : List β) : (F.drain s b).why ≠ .paused := by
  induction s, b using F.attempt_induction with
  | more s b h => simp [F.drain_of_more h]
  | bad s b h => simp [F.drain_of_bad h]
  | item s b a n s' h ih => simpa [F.drain_of_item h] using ih

lemma attempt_drain_ne_item (s : σ) (b : List β) (a : α) (n : ℕ) (s' : σ) :
    F.attempt (F.drain s b).state (F.drain s b).rest ≠ .item a n s' := by
  induction s, b using F.attempt_induction with
  | more s b hm => simp [F.drain_of_more hm, hm]
  | bad s b hb => simp [F.drain_of_bad hb, hb]
  | item s b a₁ n₁ s₁ hi ih =>
    rw [F.drain_of_item hi]
    exact ih

lemma attempt_of_drain_starved (h : (F.drain s b).why = .starved) :
    F.attempt (F.drain s b).state (F.drain s b).rest = .more := by
  induction s, b using F.attempt_induction with
  | more s b hm => simpa [F.drain_of_more hm] using hm
  | bad s b hb => simp [F.drain_of_bad hb] at h
  | item s b a n s' hi ih =>
    rw [F.drain_of_item hi] at h ⊢
    exact ih h

/-- **The cut rule.** Draining `b ++ c` gives the items of `b`, and then those of what `b` left
followed by `c`. -/
theorem drain_append (s : σ) (b c : List β) :
    F.drain s (b ++ c) =
      (F.drain (F.drain s b).state ((F.drain s b).rest ++ c)).prepend (F.drain s b).items := by
  induction s, b using F.attempt_induction with
  | more s b h => simp [F.drain_of_more h]
  | bad s b h => simp [F.drain_of_bad h]
  | item s b a n s' h ih =>
    have hdrop : (b ++ c).drop n = b.drop n ++ c :=
      List.drop_append_of_le_length (F.item_le h)
    rw [F.drain_of_item (F.item_append c h), hdrop, ih, F.drain_of_item h]
    simp

lemma drain_starved_of_append {b c : List β} (h : (F.drain s (b ++ c)).why = .starved) :
    (F.drain s b).why = .starved := by
  rw [F.drain_append, Taken.prepend_why] at h
  cases hwhy : (F.drain s b).why with
  | starved => rfl
  | stuck =>
    have hbad : F.attempt (F.drain s b).state (F.drain s b).rest = .bad :=
      F.attempt_of_pump_stuck hwhy
    rw [F.drain_of_bad (F.bad_append c hbad)] at h
    cases h
  | paused => exact absurd hwhy (F.drain_why_ne_paused s b)

/-! ## Sessions -/

/-- One more piece for a receiver that has taken `d.items` so far and kept `d.rest`. -/
def feed (go : List α → Bool) (d : Taken β σ α) (piece : List β) : Taken β σ α :=
  (F.pump go d.items d.state (d.rest ++ piece)).prepend d.items

def feedAll (go : List α → Bool) (d : Taken β σ α) (pieces : List (List β)) : Taken β σ α :=
  pieces.foldl (F.feed go) d

/-- **Only the concatenation counts.** With a consumer that never pauses, a session that starts
with a piece ends as one call with all the bytes. -/
theorem feedAll_eq (hgo : ∀ l, go l = true) (d : Taken β σ α) (p : List β)
    (pieces : List (List β)) :
    F.feedAll go d (p :: pieces) = F.feed go d (p ++ pieces.flatten) := by
  induction pieces generalizing d p with
  | nil => simp [feedAll]
  | cons q pieces ih =>
    have hstep : F.feedAll go d (p :: q :: pieces) = F.feedAll go (F.feed go d p) (q :: pieces) :=
      rfl
    rw [hstep, ih]
    simp only [feed, List.flatten_cons, Taken.prepend_state, Taken.prepend_rest,
      Taken.prepend_items, F.pump_eq_drain hgo]
    rw [← List.append_assoc d.rest p, F.drain_append d.state (d.rest ++ p)]
    simp

theorem feedAll_fresh (hgo : ∀ l, go l = true)
    (hs : F.attempt s [] = .more) (pieces : List (List β)) :
    F.feedAll go ⟨[], s, [], .starved⟩ pieces = F.drain s pieces.flatten := by
  cases pieces with
  | nil => exact (F.drain_of_more hs).symm
  | cons p pieces =>
    rw [F.feedAll_eq hgo, feed, F.pump_eq_drain hgo]
    rfl

theorem feedAll_invariant {P : List α → σ → Prop}
    (step : ∀ past s b a n s', F.attempt s b = .item a n s' → P past s → P (past ++ [a]) s')
    (go : List α → Bool) (d : Taken β σ α) (pieces : List (List β)) (h : P d.items d.state) :
    P (F.feedAll go d pieces).items (F.feedAll go d pieces).state := by
  induction pieces generalizing d with
  | nil => exact h
  | cons p pieces ih =>
    exact ih (F.feed go d p) (F.pump_invariant step go d.items d.state (d.rest ++ p) h)

/-- **Failure is final.** Once the front can never be decoded, no further piece of any content
gives another item, and every further piece finds the receiver stuck again. -/
theorem feed_of_bad (go : List α → Bool) {d : Taken β σ α} (h : F.attempt d.state d.rest = .bad)
    (piece : List β) :
    F.feed go d piece = ⟨d.items, d.state, d.rest ++ piece, .stuck⟩ := by
  rw [feed, pump_of_bad (F.bad_append piece h)]
  simp [Taken.prepend]

/-! ## Encoders -/

/-- An encoder for the items of `F`: what it writes for `a` in state `s` is taken back as `a`, with
exactly its own length, in the state the encoder is in afterwards. -/
structure Encodes (F : Framer β σ α) (enc : σ → α → List β) (next : σ → α → σ)
    (ok : σ → α → Prop) : Prop where
  attempt_enc : ∀ s a, ok s a → F.attempt s (enc s a) = .item a (enc s a).length (next s a)

def encodeAll (enc : σ → α → List β) (next : σ → α → σ) : σ → List α → List β
  | _, [] => []
  | s, a :: l => enc s a ++ encodeAll enc next (next s a) l

/-- Every item of the list is one the encoder may be given in the state it is then in. -/
def AllOk (next : σ → α → σ) (ok : σ → α → Prop) : σ → List α → Prop
  | _, [] => True
  | s, a :: l => ok s a ∧ AllOk next ok (next s a) l

variable {F} {enc : σ → α → List β} {next : σ → α → σ} {ok : σ → α → Prop}

/-- **Round trip.** Draining an encoder's output gives back its items and goes on in its state. -/
theorem Encodes.drain_encodeAll (hE : Encodes F enc next ok) (s : σ) (l : List α)
    (hl : AllOk next ok s l) (b : List β) :
    F.drain s (encodeAll enc next s l ++ b) = (F.drain (l.foldl next s) b).prepend l := by
  induction l generalizing s with
  | nil => simp [encodeAll]
  | cons a l ih =>
    obtain ⟨ha, hl⟩ := hl
    have hitem := F.item_append (encodeAll enc next (next s a) l ++ b) (hE.attempt_enc s a ha)
    rw [encodeAll, List.append_assoc, F.drain_of_item hitem, List.drop_left, ih (next s a) hl]
    simp

end Framer

end Framing
