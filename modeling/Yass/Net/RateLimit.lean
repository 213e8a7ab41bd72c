import Yass.Lib.Run

/-!
# The download rate limit of a stream

`wait_read` compares the bytes since a stamp with the time since the stamp, and puts the read off
while there are too many. The stamp is renewed when the stream enters or leaves the limited state,
and uploads share that state.

* `State` — the members of the limiter in both directions, the clock, and what `wait_read` awaits.
* `pgrsLimitWaitTime`, `ratelimit`, `waitRead`, `waitWrite` — the methods, in nanoseconds since the
  connection was made. No time passes inside a call, and byte counts are below `2 ^ 63`.
* `Event`, `step` — time, reads, writes, calls and timers; a timer does not fire early, and nothing
  is read while `wait_read` is outstanding.

Source: `net/stream.hpp`.
-/

namespace Yass.Net.RateLimit

/-! ## The code -/

def perMs : ℕ := 1000000

def int64Max : ℕ := 2 ^ 63 - 1

/-- `MIN_RATE_LIMIT_PERIOD`, in milliseconds. -/
def minRateLimitPeriod : ℕ := 3000

/-- `pgrsLimitWaitTime`. -/
def pgrsLimitWaitTime (cursize startsize limit start now : ℕ) : ℕ :=
  let size := cursize - startsize
  if limit = 0 ∨ size = 0 then 0
  else
    let minimum :=
      if size < int64Max / 1000 then 1000 * size / limit
      else if size / limit < int64Max / 1000 then size / limit * 1000 else int64Max
    let actual := (now - start) / perMs
    if actual < minimum then minimum - actual else 0

/-- What `wait_read` waits for. -/
inductive Phase where
  | reading
  /-- `dl_delay_timer`. -/
  | delayed (expiry : ℕ)
  /-- `read_yield_timer_`. -/
  | yielding
  | waiting
  deriving DecidableEq, Repr

structure Meter where
  start : ℕ
  size : ℕ
  state : Bool
  transferred : ℕ
  deriving DecidableEq, Repr

structure State where
  now : ℕ
  phase : Phase
  dl : Meter
  ul : Meter
  burst : ℕ
  stamps : ℕ
  deriving DecidableEq, Repr

/-- `on_async_connected`, which sets the first stamp. -/
def start : State := ⟨0, .reading, ⟨0, 0, false, 0⟩, ⟨0, 0, false, 0⟩, 0, 1⟩

variable (dlLimitRate ulLimitRate : ℕ)

def Meter.old (m : Meter) (now : ℕ) : Bool := minRateLimitPeriod ≤ (now - m.start) / perMs

def Meter.renew (m : Meter) (now : ℕ) : Meter := { m with start := now, size := m.transferred }

def Meter.wait (m : Meter) (limit now : ℕ) : ℕ :=
  if limit ≠ 0 then pgrsLimitWaitTime m.transferred m.size limit m.start now else 0

namespace State

def ratelimit (s : State) : State :=
  let s := if dlLimitRate ≠ 0 ∧ s.dl.old s.now then
      { s with dl := s.dl.renew s.now, stamps := s.stamps + 1 } else s
  if ulLimitRate ≠ 0 ∧ s.ul.old s.now then { s with ul := s.ul.renew s.now } else s

/-- `wait_read`. -/
def waitRead (s : State) (yield : Bool) : State :=
  let ms := s.dl.wait dlLimitRate s.now
  if ms ≠ 0 then
    let s := if !s.ul.state && !s.dl.state then s.ratelimit dlLimitRate ulLimitRate else s
    { s with dl := { s.dl with state := true }, phase := .delayed (s.now + ms * perMs) }
  else
    let s := if s.dl.state && !s.ul.state then s.ratelimit dlLimitRate ulLimitRate else s
    { s with dl := { s.dl with state := false }, phase := if yield then .yielding else .waiting }

/-- `wait_write`, as far as the limiter is concerned. -/
def waitWrite (s : State) : State :=
  if s.ul.wait ulLimitRate s.now ≠ 0 then
    let s := if !s.ul.state && !s.dl.state then s.ratelimit dlLimitRate ulLimitRate else s
    { s with ul := { s.ul with state := true } }
  else
    let s := if s.ul.state && !s.dl.state then s.ratelimit dlLimitRate ulLimitRate else s
    { s with ul := { s.ul with state := false } }

end State

inductive Event where
  | tick (ns : ℕ)
  | read (n : ℕ)
  | waitRead (yield : Bool)
  | dlTimer
  | yieldTimer
  | readable
  | write (n : ℕ)
  /-- `wait_write` is called, by the caller or by `ul_delay_timer`. -/
  | waitWrite
  deriving DecidableEq, Repr

/-- One event; `none` is one that cannot happen. -/
def step (s : State) : Event → Option State
  | .tick ns => some { s with now := s.now + ns }
  | .read n =>
    if s.phase = .reading then
      some { s with dl := { s.dl with transferred := s.dl.transferred + n }, burst := s.burst + n }
    else none
  | .waitRead yield =>
    if s.phase = .reading then some (s.waitRead dlLimitRate ulLimitRate yield) else none
  | .dlTimer =>
    match s.phase with
    | .delayed expiry =>
      if expiry ≤ s.now then some (s.waitRead dlLimitRate ulLimitRate false) else none
    | _ => none
  | .yieldTimer =>
    if s.phase = .yielding then some (s.waitRead dlLimitRate ulLimitRate false) else none
  | .readable => if s.phase = .waiting then some { s with phase := .reading, burst := 0 } else none
  | .write n => some { s with ul := { s.ul with transferred := s.ul.transferred + n } }
  | .waitWrite => some (s.waitWrite dlLimitRate ulLimitRate)

/-! ## The bound -/

variable {dlLimitRate ulLimitRate} {s s' : State}

def Within (limit : ℕ) (s : State) : Prop :=
  1000 * perMs * s.dl.transferred ≤ limit * s.now + perMs * limit * s.stamps

structure Bounded (limit : ℕ) (s : State) : Prop where
  start_le : s.dl.start ≤ s.now
  size_le : s.dl.size ≤ s.dl.transferred
  stamp : 1000 * perMs * s.dl.size + perMs * limit ≤ limit * s.dl.start + perMs * limit * s.stamps
  bytes : 1000 * perMs * s.dl.transferred ≤
    limit * s.now + perMs * limit * s.stamps + 1000 * perMs * s.burst
  waiting : s.phase = .waiting → Within limit s

/-- The limiter counts exactly: below this size the milliseconds are not rounded to seconds. -/
def Exact (s : State) : Prop := s.dl.transferred - s.dl.size < int64Max / 1000

lemma Bounded.within (h : Bounded dlLimitRate s) (hlimit : 0 < dlLimitRate) (hexact : Exact s)
    (hwait : s.dl.wait dlLimitRate s.now = 0) : Within dlLimitRate s := by
  obtain ⟨size, hsize⟩ := Nat.exists_eq_add_of_le h.size_le
  obtain ⟨elapsed, helapsed⟩ := Nat.exists_eq_add_of_le h.start_le
  have hrate : 1000 * perMs * size ≤ dlLimitRate * elapsed + perMs * dlLimitRate := by
    unfold Exact at hexact
    unfold Meter.wait pgrsLimitWaitTime at hwait
    rw [if_pos hlimit.ne', hsize, Nat.add_sub_cancel_left] at hwait
    rw [hsize, Nat.add_sub_cancel_left] at hexact
    rw [helapsed, Nat.add_sub_cancel_left] at hwait
    by_cases hnone : size = 0
    · rw [hnone, Nat.mul_zero]
      exact Nat.zero_le _
    dsimp only at hwait
    rw [if_neg (by omega), if_pos hexact] at hwait
    have hslow : 1000 * size / dlLimitRate ≤ elapsed / perMs := by
      by_contra hfast
      rw [if_pos (Nat.lt_of_not_le hfast)] at hwait
      omega
    -- the milliseconds are rounded down on both sides
    have hmin : 1000 * size < (elapsed / perMs + 1) * dlLimitRate :=
      (Nat.div_lt_iff_lt_mul hlimit).mp (Nat.lt_succ_of_le hslow)
    calc 1000 * perMs * size = perMs * (1000 * size) := by ring
      _ ≤ perMs * ((elapsed / perMs + 1) * dlLimitRate) := Nat.mul_le_mul_left _ hmin.le
      _ = dlLimitRate * (perMs * (elapsed / perMs)) + perMs * dlLimitRate := by ring
      _ ≤ dlLimitRate * elapsed + perMs * dlLimitRate :=
        Nat.add_le_add_right (Nat.mul_le_mul_left _ (Nat.mul_div_le _ _)) _
  have hstamp := h.stamp
  unfold Within
  rw [hsize, helapsed, Nat.mul_add, Nat.mul_add]
  omega

lemma Bounded.ratelimit (h : Bounded dlLimitRate s)
    (hfair : s.dl.old s.now = true → Within dlLimitRate s) :
    Bounded dlLimitRate (s.ratelimit dlLimitRate ulLimitRate) ∧
      (s.ratelimit dlLimitRate ulLimitRate).now = s.now ∧
      (Within dlLimitRate s → Within dlLimitRate (s.ratelimit dlLimitRate ulLimitRate)) := by
  obtain ⟨t, ht⟩ : ∃ t : State, t = if dlLimitRate ≠ 0 ∧ s.dl.old s.now = true then
      { s with dl := s.dl.renew s.now, stamps := s.stamps + 1 } else s := ⟨_, rfl⟩
  have hrenewed : Bounded dlLimitRate t ∧ t.now = s.now ∧
      (Within dlLimitRate s → Within dlLimitRate t) := by
    by_cases hold : dlLimitRate ≠ 0 ∧ s.dl.old s.now
    · have hwithin := hfair hold.2
      unfold Within at hwithin
      have hmore : perMs * dlLimitRate * (s.stamps + 1) =
          perMs * dlLimitRate * s.stamps + perMs * dlLimitRate := Nat.mul_succ _ _
      rw [if_pos hold] at ht
      subst ht
      refine ⟨⟨le_rfl, le_rfl, ?_, ?_, fun _ => ?_⟩, rfl, fun _ => ?_⟩
      all_goals
        simp only [Within, Meter.renew, hmore]
        omega
    rw [if_neg hold] at ht
    subst ht
    exact ⟨h, rfl, id⟩
  obtain ⟨hbounded, hnow, hwithin⟩ := hrenewed
  unfold State.ratelimit
  dsimp only
  rw [← ht]
  by_cases hold : ulLimitRate ≠ 0 ∧ t.ul.old t.now
  · rw [if_pos hold]
    exact ⟨{ hbounded with }, hnow, hwithin⟩
  · rw [if_neg hold]
    exact ⟨hbounded, hnow, hwithin⟩

lemma Bounded.ratelimit_if (h : Bounded dlLimitRate s) (ulLimitRate : ℕ) (c : Bool)
    (hfair : c = true → s.dl.old s.now = true → Within dlLimitRate s) :
    Bounded dlLimitRate (if c then s.ratelimit dlLimitRate ulLimitRate else s) ∧
      (Within dlLimitRate s →
        Within dlLimitRate (if c then s.ratelimit dlLimitRate ulLimitRate else s)) := by
  cases c with
  | true =>
    obtain ⟨hbounded, -, hwithin⟩ := h.ratelimit (hfair rfl)
    exact ⟨hbounded, hwithin⟩
  | false => exact ⟨h, id⟩

/-- Whether a call of `wait_read` renews the stamp while the download is over its limit, and
whether a call of `wait_write` does. -/
def State.unfairRead (s : State) (limit : ℕ) : Prop :=
  s.dl.wait limit s.now ≠ 0 ∧ s.dl.old s.now = true ∧ (!s.ul.state && !s.dl.state) = true

def State.unfairWrite (s : State) (limit ulLimit : ℕ) : Prop :=
  s.dl.wait limit s.now ≠ 0 ∧ s.dl.old s.now = true ∧ s.dl.state = false ∧
    (s.ul.wait ulLimit s.now = 0 ↔ s.ul.state = true)

/-- The stamp of the download is renewed only while the download is within its limit, and the bytes
since the stamp are counted exactly. -/
def Fair (dlLimitRate ulLimitRate : ℕ) (s : State) : Event → Prop
  | .waitRead _ | .dlTimer | .yieldTimer => Exact s ∧ ¬s.unfairRead dlLimitRate
  | .waitWrite => Exact s ∧ ¬s.unfairWrite dlLimitRate ulLimitRate
  | _ => True

instance (s : State) : Decidable (Exact s) := inferInstanceAs (Decidable (_ < _))

instance (s : State) (limit : ℕ) : Decidable (s.unfairRead limit) :=
  inferInstanceAs (Decidable (_ ∧ _))

instance (s : State) (limit ulLimit : ℕ) : Decidable (s.unfairWrite limit ulLimit) :=
  inferInstanceAs (Decidable (_ ∧ _))

instance (s : State) (e : Event) : Decidable (Fair dlLimitRate ulLimitRate s e) := by
  cases e <;> unfold Fair <;> infer_instance

lemma Bounded.waitRead (h : Bounded dlLimitRate s) (hlimit : 0 < dlLimitRate) (hexact : Exact s)
    (hfair : ¬s.unfairRead dlLimitRate) (yield : Bool) :
    Bounded dlLimitRate (s.waitRead dlLimitRate ulLimitRate yield) := by
  unfold State.waitRead
  dsimp only
  by_cases hwait : s.dl.wait dlLimitRate s.now ≠ 0
  · rw [if_pos hwait]
    obtain ⟨hbounded, -⟩ := h.ratelimit_if ulLimitRate
      (!s.ul.state && !s.dl.state) fun hc hold => absurd ⟨hwait, hold, hc⟩ hfair
    exact { hbounded with waiting := fun hphase => absurd hphase (by simp) }
  rw [if_neg hwait]
  have hwithin := h.within hlimit hexact (not_not.mp hwait)
  obtain ⟨hbounded, hkept⟩ := h.ratelimit_if ulLimitRate
    (s.dl.state && !s.ul.state) fun _ _ => hwithin
  exact { hbounded with waiting := fun _ => hkept hwithin }

lemma Bounded.waitWrite (h : Bounded dlLimitRate s) (hlimit : 0 < dlLimitRate) (hexact : Exact s)
    (hfair : ¬s.unfairWrite dlLimitRate ulLimitRate) :
    Bounded dlLimitRate (s.waitWrite dlLimitRate ulLimitRate) := by
  have hwithin : s.dl.old s.now = true → s.dl.state = false →
      (s.ul.wait ulLimitRate s.now = 0 ↔ s.ul.state = true) → Within dlLimitRate s := by
    intro hold hstate hcalls
    by_cases hwait : s.dl.wait dlLimitRate s.now = 0
    · exact h.within hlimit hexact hwait
    · exact absurd ⟨hwait, hold, hstate, hcalls⟩ hfair
  unfold State.waitWrite
  by_cases hwait : s.ul.wait ulLimitRate s.now ≠ 0
  · rw [if_pos hwait]
    obtain ⟨hbounded, -⟩ := h.ratelimit_if ulLimitRate
      (!s.ul.state && !s.dl.state) fun hc hold => hwithin hold (by simp_all) (by simp_all)
    exact { hbounded with }
  rw [if_neg hwait]
  obtain ⟨hbounded, -⟩ := h.ratelimit_if ulLimitRate
    (s.ul.state && !s.dl.state) fun hc hold => hwithin hold (by simp_all) (by simp_all)
  exact { hbounded with }

lemma Bounded.step (h : Bounded dlLimitRate s) (hlimit : 0 < dlLimitRate) {e : Event}
    (hfair : Fair dlLimitRate ulLimitRate s e)
    (hstep : step dlLimitRate ulLimitRate s e = some s') : Bounded dlLimitRate s' := by
  unfold RateLimit.step at hstep
  rcases e with ns | n | yield | _ | _ | _ | n | _
  · cases hstep
    have hlater : dlLimitRate * s.now ≤ dlLimitRate * (s.now + ns) :=
      Nat.mul_le_mul_left _ (Nat.le_add_right _ _)
    refine ⟨h.start_le.trans (Nat.le_add_right _ _), h.size_le, h.stamp, h.bytes.trans ?_,
      fun hphase => (h.waiting hphase).trans ?_⟩
    · exact Nat.add_le_add_right (Nat.add_le_add_right hlater _) _
    · exact Nat.add_le_add_right hlater _
  · dsimp only at hstep
    split_ifs at hstep with hphase
    cases hstep
    refine ⟨h.start_le, h.size_le.trans (Nat.le_add_right _ _), h.stamp, ?_, fun hwaiting => ?_⟩
    · have hbytes := h.bytes
      simp only [Nat.mul_add]
      omega
    · exact absurd (hphase.symm.trans hwaiting) (by simp)
  · dsimp only at hstep
    split_ifs at hstep
    cases hstep
    exact h.waitRead hlimit hfair.1 hfair.2 yield
  · dsimp only at hstep
    split at hstep
    · split_ifs at hstep
      cases hstep
      exact h.waitRead hlimit hfair.1 hfair.2 false
    · cases hstep
  · dsimp only at hstep
    split_ifs at hstep
    cases hstep
    exact h.waitRead hlimit hfair.1 hfair.2 false
  · dsimp only at hstep
    split_ifs at hstep with hphase
    cases hstep
    exact ⟨h.start_le, h.size_le, h.stamp, (h.waiting hphase).trans (Nat.le_add_right _ _),
      fun hwaiting => absurd hwaiting (by simp)⟩
  · cases hstep
    exact { h with }
  · cases hstep
    exact h.waitWrite hlimit hfair.1 hfair.2

/-- In every run in which the stamp of the download is renewed only while the download is within its
limit, the bytes that were read are at most the limit over the time since the connection was made,
those since the last callback, and a millisecond's worth for each stamp. -/
theorem rate_of_run (dlLimitRate ulLimitRate : ℕ) (hlimit : 0 < dlLimitRate) {es : List Event}
    {s : State} (halong : Run.Along (step dlLimitRate ulLimitRate)
      (Fair dlLimitRate ulLimitRate) start es)
    (hrun : Run.exec (step dlLimitRate ulLimitRate) start es = some s) :
    1000 * perMs * s.dl.transferred ≤
      dlLimitRate * s.now + 1000 * perMs * s.burst + perMs * dlLimitRate * s.stamps := by
  have hstart : Bounded dlLimitRate start :=
    ⟨le_rfl, le_rfl, by simp [start], by simp [start], fun h => absurd h (by simp [start])⟩
  have hbounded : Bounded dlLimitRate s :=
    Run.reached_invariant (fun _ _ _ h hfair hstep => Bounded.step h hlimit hfair hstep) hstart
      halong (List.prefix_refl es) hrun
  have hbytes := hbounded.bytes
  omega

theorem rate_of_run_sample :
    let es : List Event := [.read 1000, .waitRead false, .tick 2000000000, .dlTimer, .readable,
      .read 1000]
    ∃ s, Run.exec (step 500 0) start es = some s ∧ s.dl.transferred = 2000 ∧
      1000 * perMs * s.dl.transferred ≤
        500 * s.now + 1000 * perMs * s.burst + perMs * 500 * s.stamps := by
  intro es
  have hrun : Run.exec (step 500 0) start es = some ⟨2000000000, .reading, ⟨0, 0, false, 2000⟩,
      ⟨0, 0, false, 0⟩, 1000, 1⟩ := by decide +kernel
  have halong : Run.Along (step 500 0) (Fair 500 0) start es := by decide +kernel
  exact ⟨_, hrun, rfl, rate_of_run 500 0 (by decide) halong hrun⟩

/-- 1000 bytes a second, and the caller reads 4000 bytes at a time. The stamp is renewed at the
first wait, while the download is a second ahead; the second that is then waited for is counted
again. 12000 bytes are read in 7 seconds, with three stamps. -/
theorem ahead_of_limit :
    let es : List Event := [.tick 3000000000, .read 4000, .waitRead false, .tick 1000000000,
      .dlTimer, .readable, .read 4000, .waitRead false, .tick 3000000000, .dlTimer, .readable,
      .read 4000]
    ∃ s, Run.exec (step 1000 0) start es = some s ∧ s.now = 7000 * perMs ∧
      s.dl.transferred = 12000 ∧ s.burst = 4000 ∧ s.stamps = 3 ∧
      1000 * 7 + 4000 + 1 * 3 < s.dl.transferred := by
  intro es
  have hrun : Run.exec (step 1000 0) start es = some ⟨7000000000, .reading,
      ⟨7000000000, 8000, false, 12000⟩, ⟨0, 0, false, 0⟩, 4000, 3⟩ := by decide +kernel
  exact ⟨_, hrun, rfl, rfl, rfl, rfl, by decide⟩

end Yass.Net.RateLimit
