import Yass.Lib.Run
import Yass.Net.Pipe

/-!
# The upload of a client connection under a rate limit

`stream::wait_write` defers a write that is over the limit, and only then waits for the socket.
`Cli/Relay` has the loops without a limit; here they run over an upload limiter, with the sizes of
the buffers only.

* `State` — the members that decide when something is read or written. An empty buffer at the front
  of `upstream_`, while a SOCKS5 reply is outstanding, is a placeholder for the next request.
* `waitWrite`, `onUpstreamWriteFlush`, `writeUpstreamInPipe`, `readStream` — the methods. What the
  sockets answer and what is made of the bytes that are read is given as a script; `exceeded` is
  whether `pgrsLimitWaitTime` is not `0` when `wait_write` asks.
* `Event`, `step` — the callbacks; `none` is a callback that is not outstanding.
* `Held` — the callback of `wait_write` is never replaced and never run twice. `early` counts writes
  while one is deferred; `deferred_of_run` says when there is none.

Source: `cli/cli_connection.cpp`, `net/stream.hpp`.
-/

namespace Yass.Cli.Upload

open Yass.Net

structure State where
  closed : Bool
  /-- `socks5_method_select_handshake_` or `socks5_auth_handshake_`. -/
  handshaking : Bool
  /-- `upstream_`: the bytes left in each buffer. -/
  queue : List ℕ
  /-- `downstream_read_inprogress_`. -/
  reading : Bool
  writable : Bool
  /-- `channel_->connected()`. -/
  connected : Bool
  /-- `channel_->write_inprogress()`. -/
  writeInprogress : Bool
  /-- `wait_write_callback_`. Callbacks are numbered. -/
  callback : Option ℕ
  /-- A wait for `ul_delay_timer` is outstanding. -/
  delayed : Bool
  waiting : Bool
  /-- How many callbacks were passed to `wait_write`. -/
  next : ℕ
  ran : List ℕ
  overwritten : ℕ
  consumed : ℕ
  written : ℕ
  /-- How often `write_some` was called while a write was deferred. -/
  early : ℕ
  deriving DecidableEq, Repr

def start (handshaking : Bool) (queue : List ℕ) (reading : Bool) : State :=
  ⟨false, handshaking, queue, reading, true, true, false, none, false, false, 0, [], 0, 0, 0, 0⟩

/-! ## Scripts -/

/-- What `GetNextUpstreamBuf` finds when it reads. -/
inductive Read where
  | wouldBlock (frames : List ℕ)
  | blocked (frames : List ℕ)
  | data (n : ℕ) (queue : List ℕ)
  /-- Bytes are read and kept: the channel is not connected, or a request is incomplete. -/
  | kept (n : ℕ)
  | failed
  deriving DecidableEq, Repr

/-- One turn of the loop of `WriteUpstreamInPipe`. -/
structure Turn where
  read : Read
  write : Sent
  late : Bool
  deriving DecidableEq, Repr

def Turn.idle : Turn := ⟨.wouldBlock [], .wouldBlock, false⟩

inductive Exit where
  | goesOn
  | breaks (ec : Ec)
  | returns
  deriving DecidableEq, Repr

namespace State

/-! ## The code -/

def waitWrite (s : State) (callback : ℕ) (exceeded : Bool) : State :=
  if !s.connected then s
  else
    let s := { s with
      overwritten := if s.callback.isSome then s.overwritten + 1 else s.overwritten
      callback := some callback }
    if exceeded then { s with delayed := true }
    else { s with writeInprogress := true, waiting := true }

def onUpstreamWriteFlush (s : State) (exceeded : Bool) : State :=
  if !s.queue.isEmpty && s.writable then
    { s with writable := false, next := s.next + 1 }.waitWrite s.next exceeded
  else s

def readStream (s : State) : State :=
  if s.reading || s.closed then s else { s with reading := true }

/-- `disconnected`, with `channel_->close()`: the callbacks of the channel are dropped, and its
waits are cancelled. -/
def disconnected (s : State) : State :=
  { s with writable := false, connected := false, callback := none, delayed := false,
           waiting := false }

def onDisconnect (s : State) : State := { s.disconnected with closed := true }

/-- The end of `GetNextUpstreamBuf`. -/
def out (s : State) (ec : Ec) (blocked read : Bool) : State × Ec × Bool × Bool :=
  if s.queue.isEmpty then (s, if ec = .ok then .tryAgain else ec, blocked || read, false)
  else (s, ec, blocked, true)

def placeholder (s : State) : Bool := s.handshaking && s.queue.head? == some 0

/-- `GetNextUpstreamBuf`. Returns the error, whether reading is blocked, and whether there is a
buffer. -/
def getNextUpstreamBuf (s : State) (t : Turn) : State × Ec × Bool × Bool :=
  if !s.queue.isEmpty then
    if s.placeholder then (s, .tryAgain, false, false) else (s, .ok, false, true)
  else if s.closed then (s, .failed, false, false)
  else
    match t.read with
    | .wouldBlock frames => { s with queue := frames }.out .tryAgain false false
    | .blocked frames => { s with queue := frames }.out .tryAgain true false
    | .data n queue => { s with consumed := s.consumed + n, queue := queue }.out .ok false true
    | .kept n => ({ s with consumed := s.consumed + n }, .tryAgain, false, false)
    | .failed => (s.onDisconnect, .failed, false, false)

/-- `write_some` of the front of the queue. -/
def writeFront (s : State) (tryAgain : Bool) (t : Turn) : State × Bool × Exit :=
  let s := { s with early := if s.delayed then s.early + 1 else s.early }
  match t.write, s.queue with
  | .failed, _ => (s.onDisconnect, tryAgain, .returns)
  | .wouldBlock, _ => (s, tryAgain, .breaks .tryAgain)
  | .bytes _, [] => (s, tryAgain, .breaks .tryAgain)
  | .bytes n, front :: rest =>
    let s := { s with written := s.written + min n front }
    if n < front then
      ({ s with queue := (front - n) :: rest }, tryAgain, .breaks .tryAgain)
    else
      let s := { s with queue := rest }
      if t.late then
        if rest.isEmpty then (s, true, .breaks .ok) else (s, tryAgain, .breaks .tryAgain)
      else (s, tryAgain, .goesOn)

/-- One turn of the loop of `WriteUpstreamInPipe`. -/
def upTurn (s : State) (tryAgain : Bool) (t : Turn) : State × Bool × Exit :=
  let (s, ec, blocked, got) := s.getNextUpstreamBuf t
  if ec = .failed then (s, tryAgain, .returns)
  else
    let tryAgain := tryAgain || (ec == .tryAgain && !blocked)
    let ec := if ec = .tryAgain ∧ blocked = false then .ok else ec
    if !got || s.queue.head? == some 0 then (s, tryAgain, .breaks ec)
    else if !s.connected then (s, tryAgain, .breaks .tryAgain)
    else s.writeFront tryAgain t

/-- What `WriteUpstreamInPipe` does behind its loop. -/
def afterUp (s : State) (tryAgain : Bool) (ec : Ec) (exceeded : Bool) : State :=
  let s := if tryAgain then s.readStream else s
  if ec = .tryAgain then s.onUpstreamWriteFlush exceeded else s

/-- The loop of `WriteUpstreamInPipe`, and what is behind it. -/
def upLoop (exceeded : Bool) : List Turn → State → Bool → State
  | [], s, tryAgain =>
    match s.upTurn tryAgain .idle with
    | (s, tryAgain, .breaks ec) => s.afterUp tryAgain ec exceeded
    | (s, _, _) => s
  | t :: ts, s, tryAgain =>
    match s.upTurn tryAgain t with
    | (s, tryAgain, .goesOn) => upLoop exceeded ts s tryAgain
    | (s, tryAgain, .breaks ec) => s.afterUp tryAgain ec exceeded
    | (s, _, .returns) => s

/-- What `ReadUpstream` does to the queue: it fills the placeholder in front, and what the adapter
sends is queued. -/
def fill (s : State) (filled : ℕ) (pushed : List ℕ) (handshaking : Bool) : State :=
  let queue := match s.queue with
    | front :: rest => (if s.placeholder then filled else front) :: rest
    | [] => []
  { s with queue := queue ++ pushed, handshaking := handshaking }

def writeUpstreamInPipe (s : State) (turns : List Turn) (exceeded : Bool) : State :=
  if s.writeInprogress then s else upLoop exceeded turns s false

/-- `WriteUpstreamInPipe` and `OnUpstreamWriteFlush`. -/
def upFlush (s : State) (turns : List Turn) (exceeded : Bool) : State :=
  (s.writeUpstreamInPipe turns exceeded).onUpstreamWriteFlush exceeded

end State

/-! ## Events -/

inductive Event where
  /-- The client socket is readable, or the event loop has come round after a yield. -/
  | readable (turns : List Turn) (exceeded : Bool)
  | sent (turns : List Turn) (exceeded : Bool)
  | timer (exceeded : Bool)
  /-- Something came from the channel: the placeholder in front is filled, other buffers are
  queued, and the reply may end the handshake. -/
  | received (filled : ℕ) (pushed : List ℕ) (handshaking : Bool) (turns : List Turn)
      (exceeded : Bool)
  | lost
  deriving DecidableEq, Repr

/-- One event. At most one call of `wait_write` is made, because `upstream_writable_` is cleared
before it. -/
def step (s : State) : Event → Option State
  | .readable turns exceeded =>
    if s.closed then none
    else if s.reading then some ({ s with reading := false }.upFlush turns exceeded) else none
  | .sent turns exceeded =>
    if s.closed then none
    else if s.waiting then
      let s := { s with waiting := false, writeInprogress := false }
      match s.callback with
      | none => some s
      | some cb =>
        some ({ s with callback := none, ran := s.ran ++ [cb], writable := true }.upFlush turns
          exceeded)
    else none
  | .timer exceeded =>
    if s.delayed then
      match s.callback with
      | none => some { s with delayed := false }
      | some cb => some ({ s with delayed := false, callback := none }.waitWrite cb exceeded)
    else none
  | .received filled pushed handshaking turns exceeded =>
    if s.closed || !s.connected then none
    else some ((s.fill filled pushed handshaking).upFlush turns exceeded)
  | .lost => if s.closed then none else some s.disconnected

/-! ## The callback of `wait_write` -/

structure Held (s : State) : Prop where
  fresh : ∀ i ∈ s.callback, i < s.next ∧ i ∉ s.ran
  ran_lt : ∀ i ∈ s.ran, i < s.next
  nodup : s.ran.Nodup
  pending : s.callback ≠ none → s.writable = false
  armed : s.callback = none → s.delayed = false ∧ s.waiting = false
  single : s.delayed = true → s.waiting = false
  kept : s.overwritten = 0

structure Turned (s s' : State) : Prop where
  next : s'.next = s.next
  ran : s'.ran = s.ran
  overwritten : s'.overwritten = s.overwritten
  calls : s'.callback = s.callback ∧ s'.writable = s.writable ∧ s'.delayed = s.delayed ∧
      s'.waiting = s.waiting ∨
    s'.callback = none ∧ s'.writable = false ∧ s'.delayed = false ∧ s'.waiting = false
  early : s.delayed = false → s'.early = s.early

variable {s s' s'' : State}

lemma Turned.delayed (h : Turned s s') (hs : s.delayed = false) : s'.delayed = false := by
  rcases h.calls with ⟨-, -, hsame, -⟩ | ⟨-, -, hnone, -⟩
  · rw [hsame, hs]
  · exact hnone

lemma Turned.refl (s : State) : Turned s s :=
  ⟨rfl, rfl, rfl, Or.inl ⟨rfl, rfl, rfl, rfl⟩, fun _ => rfl⟩

lemma Turned.trans (h : Turned s s') (h' : Turned s' s'') : Turned s s'' := by
  refine ⟨h'.next.trans h.next, h'.ran.trans h.ran, h'.overwritten.trans h.overwritten, ?_,
    fun hs => (h'.early (h.delayed hs)).trans (h.early hs)⟩
  rcases h'.calls with ⟨h₁, h₂, h₃, h₄⟩ | hnone
  · rw [h₁, h₂, h₃, h₄]
    exact h.calls
  · exact .inr hnone

lemma turned_onDisconnect (s : State) : Turned s s.onDisconnect :=
  ⟨rfl, rfl, rfl, Or.inr ⟨rfl, rfl, rfl, rfl⟩, fun _ => rfl⟩

lemma out_fst (s : State) (ec : Ec) (blocked read : Bool) : (s.out ec blocked read).1 = s := by
  unfold State.out
  by_cases hempty : s.queue.isEmpty
  · rw [if_pos hempty]
  · rw [if_neg hempty]

lemma turned_queue (s : State) (queue : List ℕ) (consumed : ℕ) :
    Turned s { s with queue := queue, consumed := consumed } :=
  ⟨rfl, rfl, rfl, Or.inl ⟨rfl, rfl, rfl, rfl⟩, fun _ => rfl⟩

lemma turned_getNextUpstreamBuf (s : State) (t : Turn) : Turned s (s.getNextUpstreamBuf t).1 := by
  unfold State.getNextUpstreamBuf
  split_ifs
  · exact Turned.refl s
  · exact Turned.refl s
  · exact Turned.refl s
  split
  case _ frames _ | _ frames _ | _ n frames _ =>
    rw [out_fst]
    exact turned_queue s frames _
  · exact turned_queue s s.queue _
  · exact turned_onDisconnect s

lemma turned_writeFront (s : State) (tryAgain : Bool) (t : Turn) :
    Turned s (s.writeFront tryAgain t).1 := by
  have hearly : s.delayed = false → (if s.delayed = true then s.early + 1 else s.early) = s.early :=
    fun hs => if_neg (ne_true_of_eq_false hs)
  unfold State.writeFront
  dsimp only
  generalize (if s.delayed = true then s.early + 1 else s.early) = early at hearly ⊢
  have hcounted : ∀ queue written,
      Turned s { s with early := early, queue := queue, written := written } :=
    fun _ _ => ⟨rfl, rfl, rfl, Or.inl ⟨rfl, rfl, rfl, rfl⟩, hearly⟩
  split
  · exact (hcounted s.queue s.written).trans (turned_onDisconnect _)
  · exact hcounted s.queue s.written
  · exact hcounted s.queue s.written
  split_ifs
  · exact hcounted _ _
  · exact hcounted _ _
  · exact hcounted _ _
  · exact hcounted _ _

lemma turned_upTurn (s : State) (tryAgain : Bool) (t : Turn) :
    Turned s (s.upTurn tryAgain t).1 := by
  have hgot := turned_getNextUpstreamBuf s t
  unfold State.upTurn
  rcases hget : s.getNextUpstreamBuf t with ⟨s₁, ec, blocked, got⟩
  rw [hget] at hgot
  dsimp only at hgot ⊢
  generalize (if ec = .tryAgain ∧ blocked = false then Ec.ok else ec) = ec'
  split_ifs
  · exact hgot
  · exact hgot
  · exact hgot
  · exact hgot.trans (turned_writeFront s₁ _ t)

lemma Held.turned (h : Held s) (ht : Turned s s') : Held s' := by
  obtain ⟨hfresh, hlt, hnodup, hpending, harmed, hsingle, hkept⟩ := h
  obtain ⟨hnext, hran, hover, hcalls, -⟩ := ht
  rcases hcalls with ⟨h₁, h₂, h₃, h₄⟩ | ⟨h₁, h₂, h₃, h₄⟩
  · refine ⟨?_, ?_, ?_, ?_, ?_, ?_, ?_⟩
    · rwa [h₁, hnext, hran]
    · rwa [hran, hnext]
    · rwa [hran]
    · rwa [h₁, h₂]
    · rwa [h₁, h₃, h₄]
    · rwa [h₃, h₄]
    · rw [hover, hkept]
  refine ⟨?_, ?_, ?_, fun _ => h₂, fun _ => ⟨h₃, h₄⟩, fun _ => h₄, ?_⟩
  · rw [h₁]
    simp
  · rwa [hran, hnext]
  · rwa [hran]
  · rw [hover, hkept]

lemma Held.waitWrite (h : Held s) (hnone : s.callback = none) (hwritable : s.writable = false)
    {cb : ℕ} (hcb : cb < s.next ∧ cb ∉ s.ran) (exceeded : Bool) :
    Held (s.waitWrite cb exceeded) := by
  obtain ⟨hdelayed, hwaiting⟩ := h.armed hnone
  unfold State.waitWrite
  rw [hnone]
  by_cases hconnected : (!s.connected)
  · rw [if_pos hconnected]
    exact h
  rw [if_neg hconnected]
  have hstored : ∀ i ∈ some cb, i < s.next ∧ i ∉ s.ran := fun i hi => Option.some.inj hi ▸ hcb
  cases exceeded with
  | true =>
    exact ⟨hstored, h.ran_lt, h.nodup, fun _ => hwritable, fun hi => absurd hi (by simp),
      fun _ => hwaiting, h.kept⟩
  | false =>
    refine ⟨hstored, h.ran_lt, h.nodup, fun _ => hwritable, fun hi => absurd hi (by simp),
      fun hd => ?_, h.kept⟩
    exact absurd (hdelayed.symm.trans hd) Bool.false_ne_true

lemma Held.onUpstreamWriteFlush (h : Held s) (exceeded : Bool) :
    Held (s.onUpstreamWriteFlush exceeded) := by
  unfold State.onUpstreamWriteFlush
  by_cases hflush : (!s.queue.isEmpty && s.writable)
  · have hwritable : s.writable = true := (Bool.and_eq_true_iff.mp hflush).2
    have hnone : s.callback = none := by
      by_contra hsome
      exact absurd hwritable (ne_true_of_eq_false (h.pending hsome))
    rw [if_pos hflush]
    have hcleared : Held { s with writable := false, next := s.next + 1 } := by
      refine ⟨?_, fun i hi => (h.ran_lt i hi).trans (Nat.lt_succ_self _), h.nodup, fun _ => rfl,
        h.armed, h.single, h.kept⟩
      show ∀ i ∈ s.callback, _
      rw [hnone]
      simp
    refine hcleared.waitWrite hnone rfl ⟨Nat.lt_succ_self _, fun hmem => ?_⟩ exceeded
    exact absurd (h.ran_lt _ hmem) (Nat.lt_irrefl _)
  · rw [if_neg hflush]
    exact h

lemma Held.readStream (h : Held s) : Held s.readStream := by
  unfold State.readStream
  split_ifs
  · exact h
  · exact { h with }

lemma Held.afterUp (h : Held s) (tryAgain : Bool) (ec : Ec) (exceeded : Bool) :
    Held (s.afterUp tryAgain ec exceeded) := by
  have hread : Held (if tryAgain then s.readStream else s) := by
    cases tryAgain with
    | true => exact h.readStream
    | false => exact h
  unfold State.afterUp
  dsimp only
  by_cases hec : ec = .tryAgain
  · rw [if_pos hec]
    exact hread.onUpstreamWriteFlush exceeded
  · rw [if_neg hec]
    exact hread

lemma upLoop_eq (exceeded : Bool) (turns : List Turn) (s : State) (tryAgain : Bool) :
    ∃ s₁, Turned s s₁ ∧ (State.upLoop exceeded turns s tryAgain = s₁ ∨
      ∃ again ec, State.upLoop exceeded turns s tryAgain = s₁.afterUp again ec exceeded) := by
  induction turns generalizing s tryAgain with
  | nil =>
    have hturn := turned_upTurn s tryAgain .idle
    unfold State.upLoop
    rcases hup : s.upTurn tryAgain .idle with ⟨s₁, again, exit⟩
    rw [hup] at hturn
    cases exit with
    | breaks ec => exact ⟨s₁, hturn, Or.inr ⟨again, ec, rfl⟩⟩
    | goesOn | returns => exact ⟨s₁, hturn, Or.inl rfl⟩
  | cons t ts ih =>
    have hturn := turned_upTurn s tryAgain t
    unfold State.upLoop
    rcases hup : s.upTurn tryAgain t with ⟨s₁, again, exit⟩
    rw [hup] at hturn
    cases exit with
    | goesOn =>
      obtain ⟨s₂, hrest, hend⟩ := ih s₁ again
      exact ⟨s₂, hturn.trans hrest, hend⟩
    | breaks ec => exact ⟨s₁, hturn, Or.inr ⟨again, ec, rfl⟩⟩
    | returns => exact ⟨s₁, hturn, Or.inl rfl⟩

lemma Held.upLoop (h : Held s) (exceeded : Bool) (turns : List Turn) (tryAgain : Bool) :
    Held (State.upLoop exceeded turns s tryAgain) := by
  obtain ⟨s₁, hturned, heq | ⟨again, ec, heq⟩⟩ := upLoop_eq exceeded turns s tryAgain
  · rw [heq]
    exact h.turned hturned
  · rw [heq]
    exact (h.turned hturned).afterUp again ec exceeded

lemma Held.upFlush (h : Held s) (turns : List Turn) (exceeded : Bool) :
    Held (s.upFlush turns exceeded) := by
  unfold State.upFlush State.writeUpstreamInPipe
  split_ifs
  · exact h.onUpstreamWriteFlush exceeded
  · exact (h.upLoop exceeded turns false).onUpstreamWriteFlush exceeded

variable {e : Event}

lemma Held.stepped (h : Held s) (hstep : step s e = some s') : Held s' := by
  cases e with
  | readable turns exceeded =>
    unfold Upload.step at hstep
    dsimp only at hstep
    split_ifs at hstep
    cases hstep
    have hidle : Held { s with reading := false } :=
      { h with }
    exact hidle.upFlush turns exceeded
  | sent turns exceeded =>
    unfold Upload.step at hstep
    dsimp only at hstep
    split_ifs at hstep
    rename_i hwaiting
    rcases hcb : s.callback with _ | cb
    · exact absurd hwaiting (ne_true_of_eq_false (h.armed hcb).2)
    rw [hcb] at hstep
    cases hstep
    obtain ⟨hlt, hnot⟩ := h.fresh cb hcb
    have hdelayed : s.delayed = false := by
      by_contra hd
      exact absurd hwaiting
        (ne_true_of_eq_false (h.single (Bool.eq_true_of_not_eq_false hd)))
    have htaken : Held { s with waiting := false, writeInprogress := false, callback := none,
                                ran := s.ran ++ [cb], writable := true } := by
      refine ⟨by simp, ?_, ?_, fun hn => absurd rfl hn, fun _ => ⟨hdelayed, rfl⟩, fun _ => rfl,
        h.kept⟩
      · intro i hi
        rcases List.mem_append.mp hi with hold | hnew
        · exact h.ran_lt i hold
        · rw [List.mem_singleton.mp hnew]
          exact hlt
      refine List.nodup_append.mpr ⟨h.nodup, List.nodup_singleton _, ?_⟩
      rintro a ha b hb rfl
      exact hnot (List.mem_singleton.mp hb ▸ ha)
    exact htaken.upFlush turns exceeded
  | timer exceeded =>
    unfold Upload.step at hstep
    dsimp only at hstep
    split_ifs at hstep with hdelayed
    rcases hcb : s.callback with _ | cb
    · exact absurd hdelayed (ne_true_of_eq_false (h.armed hcb).1)
    rw [hcb] at hstep
    cases hstep
    have htaken : Held { s with delayed := false, callback := none } :=
      ⟨by simp, h.ran_lt, h.nodup, fun hn => absurd rfl hn, fun _ => ⟨rfl, h.single hdelayed⟩,
        fun hd => absurd hd Bool.false_ne_true, h.kept⟩
    exact htaken.waitWrite rfl (h.pending (by rw [hcb]; simp)) (h.fresh cb hcb) exceeded
  | received filled pushed handshaking turns exceeded =>
    unfold Upload.step at hstep
    dsimp only at hstep
    split_ifs at hstep
    cases hstep
    have hfilled : Held (s.fill filled pushed handshaking) :=
      { h with }
    exact hfilled.upFlush turns exceeded
  | lost =>
    unfold Upload.step at hstep
    dsimp only at hstep
    split_ifs at hstep
    cases hstep
    exact ⟨by simp [State.disconnected], h.ran_lt, h.nodup, fun _ => rfl, fun _ => ⟨rfl, rfl⟩,
      fun _ => rfl, h.kept⟩

lemma held_start (handshaking : Bool) (queue : List ℕ) (reading : Bool) :
    Held (start handshaking queue reading) :=
  ⟨by simp [start], by simp [start], List.nodup_nil, fun hn => absurd rfl hn,
    fun _ => ⟨rfl, rfl⟩, fun _ => rfl, rfl⟩

/-! ## Writes while one is deferred -/

/-- What waiting for the channel leaves as it is. -/
def State.still (s : State) : List ℕ × Bool × ℕ × ℕ × ℕ :=
  (s.queue, s.handshaking, s.consumed, s.written, s.early)

lemma waitWrite_still (s : State) (cb : ℕ) (exceeded : Bool) :
    (s.waitWrite cb exceeded).still = s.still := by
  unfold State.waitWrite
  split_ifs
  all_goals rfl

lemma onUpstreamWriteFlush_still (s : State) (exceeded : Bool) :
    (s.onUpstreamWriteFlush exceeded).still = s.still := by
  unfold State.onUpstreamWriteFlush
  split_ifs
  · exact waitWrite_still _ s.next exceeded
  · rfl

lemma readStream_still (s : State) : s.readStream.still = s.still := by
  unfold State.readStream
  split_ifs
  all_goals rfl

lemma afterUp_still (s : State) (tryAgain : Bool) (ec : Ec) (exceeded : Bool) :
    (s.afterUp tryAgain ec exceeded).still = s.still := by
  have hread : (if tryAgain then s.readStream else s).still = s.still := by
    split_ifs
    · exact readStream_still s
    · rfl
  unfold State.afterUp
  dsimp only
  by_cases hec : ec = .tryAgain
  · rw [if_pos hec, onUpstreamWriteFlush_still, hread]
  · rw [if_neg hec, hread]

lemma early_of_still (h : s'.still = s.still) : s'.early = s.early :=
  congrArg (·.2.2.2.2) h

lemma upLoop_early (exceeded : Bool) (turns : List Turn) (hs : s.delayed = false)
    (tryAgain : Bool) : (State.upLoop exceeded turns s tryAgain).early = s.early := by
  obtain ⟨s₁, hturned, heq | ⟨again, ec, heq⟩⟩ := upLoop_eq exceeded turns s tryAgain
  · rw [heq, hturned.early hs]
  · rw [heq, early_of_still (afterUp_still s₁ again ec exceeded), hturned.early hs]

lemma upTurn_of_placeholder (hs : s.placeholder) (t : Turn) :
    s.upTurn false t = (s, true, .breaks .ok) := by
  have hqueue : (!s.queue.isEmpty) = true := by
    have hhead := (Bool.and_eq_true_iff.mp hs).2
    rcases hq : s.queue with _ | ⟨front, rest⟩
    · rw [hq] at hhead
      exact absurd hhead (by decide)
    · rfl
  unfold State.upTurn State.getNextUpstreamBuf
  rw [if_pos hqueue, if_pos hs]
  rfl

lemma upLoop_of_placeholder (hs : s.placeholder) (exceeded : Bool) (turns : List Turn) :
    State.upLoop exceeded turns s false = s.readStream := by
  cases turns with
  | nil =>
    unfold State.upLoop
    rw [upTurn_of_placeholder hs]
    rfl
  | cons t ts =>
    unfold State.upLoop
    rw [upTurn_of_placeholder hs]
    rfl

lemma upFlush_early (turns : List Turn) (exceeded : Bool)
    (hs : s.delayed = true → s.writeInprogress = true ∨ s.placeholder = true) :
    (s.upFlush turns exceeded).early = s.early := by
  unfold State.upFlush
  rw [early_of_still (onUpstreamWriteFlush_still _ exceeded)]
  unfold State.writeUpstreamInPipe
  by_cases hwriting : s.writeInprogress
  · rw [if_pos hwriting]
  rw [if_neg hwriting]
  by_cases hdelayed : s.delayed
  · have hfront := (hs hdelayed).resolve_left hwriting
    rw [upLoop_of_placeholder hfront, early_of_still (readStream_still s)]
  · exact upLoop_early exceeded turns (Bool.eq_false_of_not_eq_true hdelayed) false

/-- While a write is deferred, an event that enters `WriteUpstreamInPipe` finds a placeholder in
front of the queue. -/
def Defers (s : State) (e : Event) : Prop :=
  s.delayed = true → s.writeInprogress = false →
    match e with
    | .readable _ _ => s.placeholder = true
    | .received filled pushed handshaking _ _ =>
      (s.fill filled pushed handshaking).placeholder = true
    | _ => True

lemma Held.stepped_early (h : Held s) (hdefers : Defers s e)
    (hstep : step s e = some s') : s'.early = s.early := by
  cases e with
  | readable turns exceeded =>
    unfold Upload.step at hstep
    dsimp only at hstep
    split_ifs at hstep
    cases hstep
    rw [upFlush_early]
    intro hdelayed
    rcases hwriting : s.writeInprogress with _ | _
    · exact .inr (hdefers hdelayed hwriting)
    · exact .inl rfl
  | sent turns exceeded =>
    unfold Upload.step at hstep
    dsimp only at hstep
    split_ifs at hstep with hclosed hwaiting
    rcases hcb : s.callback with _ | cb
    · rw [hcb] at hstep
      cases hstep
      rfl
    rw [hcb] at hstep
    cases hstep
    rw [upFlush_early]
    intro hdelayed
    exact absurd hwaiting (ne_true_of_eq_false (h.single hdelayed))
  | timer exceeded =>
    unfold Upload.step at hstep
    dsimp only at hstep
    split_ifs at hstep
    rcases hcb : s.callback with _ | cb
    · rw [hcb] at hstep
      cases hstep
      rfl
    rw [hcb] at hstep
    cases hstep
    exact early_of_still (waitWrite_still _ cb exceeded)
  | received filled pushed handshaking turns exceeded =>
    unfold Upload.step at hstep
    dsimp only at hstep
    split_ifs at hstep
    cases hstep
    rw [upFlush_early]
    · rfl
    intro hdelayed
    rcases hwriting : s.writeInprogress with _ | _
    · exact .inr (hdefers hdelayed hwriting)
    · exact .inl hwriting
  | lost =>
    unfold Upload.step at hstep
    dsimp only at hstep
    split_ifs at hstep
    cases hstep
    rfl

/-- In every run the callback of `wait_write` is not replaced and not run twice, and in every run
whose events find a placeholder in front while a write is deferred, `write_some` is not called
before the timer. -/
theorem deferred_of_run (handshaking : Bool) (queue : List ℕ) (reading : Bool) {es : List Event}
    (hrun : Run.exec step (start handshaking queue reading) es = some s) :
    s.overwritten = 0 ∧ s.ran.Nodup ∧ (∀ i ∈ s.callback, i ∉ s.ran) ∧
      (Run.Along step Defers (start handshaking queue reading) es → s.early = 0) := by
  have hheld := Run.exec_keeps (fun _ _ _ h hstep => Held.stepped h hstep)
    (held_start handshaking queue reading) hrun
  refine ⟨hheld.kept, hheld.nodup, fun i hi => (hheld.fresh i hi).2, fun halong => ?_⟩
  have hearly : Held s ∧ s.early = 0 :=
    Run.reached_invariant (I := fun s => Held s ∧ s.early = 0)
      (fun _ _ _ ⟨h, hzero⟩ hdefers hstep =>
        ⟨h.stepped hstep, (h.stepped_early hdefers hstep).trans hzero⟩)
      ⟨held_start handshaking queue reading, rfl⟩ halong (List.prefix_refl es) hrun
  exact hearly.2

theorem deferred_of_run_sample :
    let es : List Event := [.readable [⟨.wouldBlock [], .bytes 3, false⟩] true, .readable [] false,
      .timer false]
    ∃ s, Run.exec step (start true [3, 0] true) es = some s ∧ s.waiting = true ∧ s.written = 3 ∧
      s.overwritten = 0 ∧ s.ran.Nodup ∧ s.early = 0 := by
  have hrun : Run.exec step (start true [3, 0] true)
      [.readable [⟨.wouldBlock [], .bytes 3, false⟩] true, .readable [] false, .timer false] =
      some ⟨false, true, [0], true, false, true, true, some 0, false, true, 1, [], 0, 0, 3, 0⟩ :=
    rfl
  obtain ⟨hover, hran, -, hearly⟩ := deferred_of_run true [3, 0] true hrun
  refine ⟨_, hrun, rfl, rfl, hover, hran, hearly ?_⟩
  refine ⟨fun hd => absurd hd (by decide), fun _ hs => ?_⟩
  cases hs
  refine ⟨fun _ _ => rfl, fun _ hs => ?_⟩
  cases hs
  exact ⟨fun _ _ => trivial, fun _ _ => trivial⟩

/-- A request is in the queue when something comes from the channel. What can be sent is sent, the
rest is deferred. The client is readable next, and the rest is sent before the timer fires. -/
theorem early_of_readable :
    let deferred := Run.exec step (start false [5] true)
      [.received 0 [] false [⟨.wouldBlock [], .bytes 2, false⟩] true]
    let written := Run.exec step (start false [5] true)
      [.received 0 [] false [⟨.wouldBlock [], .bytes 2, false⟩] true,
        .readable [⟨.wouldBlock [], .bytes 3, false⟩] true]
    deferred.map (fun s => (s.delayed, s.early, s.written)) = some (true, 0, 2) ∧
      written.map (fun s => (s.delayed, s.early, s.written)) = some (true, 1, 5) := by
  decide

/-! ## Reading in vain -/

/-- How often the client can still be read in vain: once the channel is waited for,
`WriteUpstreamInPipe` returns at once, and does not read again. -/
def effort (s : State) : ℕ :=
  if s.reading then (if s.writeInprogress then 1 else 2) else 0

def Event.isReadable : Event → Bool
  | .readable _ _ => true
  | _ => false

def Event.isUpstream : Event → Bool
  | .readable _ _ => false
  | .timer _ => false
  | _ => true

/-- Where a placeholder is in front when the client is read, the channel is waited for or can be
waited for: no write is deferred. -/
def Waits (s : State) (e : Event) : Prop :=
  match e with
  | .readable _ exceeded =>
    s.writeInprogress = true ∨ s.connected = true ∧ s.writable = true ∧ exceeded = false
  | _ => True

def Waited (s s' : State) : Prop := s'.still = s.still

lemma Waited.consumed (h : Waited s s') : s'.consumed = s.consumed := congrArg (·.2.2.1) h

lemma Waited.written (h : Waited s s') : s'.written = s.written := congrArg (·.2.2.2.1) h

lemma Waited.placeholder (h : Waited s s') (hs : s.placeholder) : s'.placeholder = true := by
  unfold State.placeholder
  rw [show s'.queue = s.queue from congrArg Prod.fst h,
    show s'.handshaking = s.handshaking from congrArg (·.2.1) h]
  exact hs

lemma upFlush_still (hs : s.placeholder) (turns : List Turn) (exceeded : Bool) :
    (s.upFlush turns exceeded).still = s.still := by
  unfold State.upFlush State.writeUpstreamInPipe
  rw [onUpstreamWriteFlush_still]
  split_ifs
  · rfl
  · rw [upLoop_of_placeholder hs, readStream_still]

lemma waitWrite_reading (s : State) (cb : ℕ) (exceeded : Bool) :
    (s.waitWrite cb exceeded).reading = s.reading := by
  unfold State.waitWrite
  split_ifs
  all_goals rfl

lemma effort_waitWrite_le (s : State) (cb : ℕ) (exceeded : Bool) :
    effort (s.waitWrite cb exceeded) ≤ effort s := by
  unfold effort
  rw [waitWrite_reading]
  by_cases hreading : s.reading
  · rw [if_pos hreading, if_pos hreading]
    unfold State.waitWrite
    split_ifs
    all_goals simp_all
  · rw [if_neg hreading, if_neg hreading]

lemma onUpstreamWriteFlush_reading (s : State) (exceeded : Bool) :
    (s.onUpstreamWriteFlush exceeded).reading = s.reading := by
  unfold State.onUpstreamWriteFlush
  by_cases hflush : (!s.queue.isEmpty && s.writable)
  · rw [if_pos hflush, waitWrite_reading]
  · rw [if_neg hflush]

lemma onUpstreamWriteFlush_waits (hqueue : s.queue ≠ []) (hconnected : s.connected)
    (hwritable : s.writable) :
    (s.onUpstreamWriteFlush false).writeInprogress = true := by
  have hflush : (!s.queue.isEmpty && s.writable) = true := by
    rw [hwritable, Bool.and_true, Bool.not_eq_true', List.isEmpty_eq_false_iff]
    exact hqueue
  unfold State.onUpstreamWriteFlush
  rw [if_pos hflush]
  unfold State.waitWrite
  rw [if_neg (by show ¬(!s.connected) = true; rw [hconnected]; exact Bool.false_ne_true)]
  rfl

lemma queue_ne_nil_of_placeholder (hs : s.placeholder) : s.queue ≠ [] := by
  rintro hnil
  unfold State.placeholder at hs
  rw [hnil] at hs
  exact absurd hs (by simp)

lemma effort_readable_lt (hplace : s.placeholder) {turns : List Turn} {exceeded : Bool}
    (hwaits : Waits s (.readable turns exceeded))
    (hstep : step s (.readable turns exceeded) = some s') : effort s' < effort s := by
  unfold step at hstep
  dsimp only at hstep
  split_ifs at hstep with hclosed hreading
  cases hstep
  unfold State.upFlush State.writeUpstreamInPipe
  by_cases hwriting : s.writeInprogress
  · -- the channel is waited for already, and the client is not read again
    rw [if_pos hwriting]
    unfold effort
    rw [onUpstreamWriteFlush_reading, if_neg Bool.false_ne_true, if_pos hreading, if_pos hwriting]
    exact Nat.one_pos
  obtain ⟨hconnected, hwritable, rfl⟩ := hwaits.resolve_left hwriting
  have hfront : State.placeholder { s with reading := false } = true := hplace
  rw [if_neg hwriting, upLoop_of_placeholder hfront]
  have hread : State.readStream { s with reading := false } = s := by
    unfold State.readStream
    rw [if_neg (by simpa using hclosed), ← hreading]
  rw [hread]
  unfold effort
  rw [onUpstreamWriteFlush_reading,
    onUpstreamWriteFlush_waits (queue_ne_nil_of_placeholder hplace) hconnected hwritable,
    if_pos hreading, if_pos hreading, if_pos rfl, if_neg hwriting]
  exact Nat.one_lt_two

lemma waited_step (hplace : s.placeholder) (he : e.isUpstream = false)
    (hwaits : Waits s e) (hstep : step s e = some s') :
    Waited s s' ∧ effort s' + (if e.isReadable then 1 else 0) ≤ effort s := by
  cases e with
  | readable turns exceeded =>
    refine ⟨?_, effort_readable_lt hplace hwaits hstep⟩
    unfold step at hstep
    dsimp only at hstep
    split_ifs at hstep
    cases hstep
    have hfront : State.placeholder { s with reading := false } = true := hplace
    exact upFlush_still hfront turns exceeded
  | timer exceeded =>
    unfold step at hstep
    dsimp only at hstep
    split_ifs at hstep
    rcases hcb : s.callback with _ | cb
    · rw [hcb] at hstep
      cases hstep
      exact ⟨rfl, le_refl _⟩
    rw [hcb] at hstep
    cases hstep
    exact ⟨waitWrite_still _ cb exceeded, effort_waitWrite_le _ _ _⟩
  | sent => exact absurd he.symm Bool.false_ne_true
  | received => exact absurd he.symm Bool.false_ne_true
  | lost => exact absurd he.symm Bool.false_ne_true

lemma waited_of_exec {es : List Event} (hplace : s.placeholder)
    (hes : ∀ e ∈ es, e.isUpstream = false) (halong : Run.Along step Waits s es)
    (hrun : Run.exec step s es = some s') :
    Waited s s' ∧ effort s' + es.countP Event.isReadable ≤ effort s := by
  induction es generalizing s with
  | nil =>
    cases hrun
    exact ⟨rfl, le_refl _⟩
  | cons e es ih =>
    rw [Run.exec_cons] at hrun
    obtain ⟨s₁, hstep, hrun⟩ := Option.bind_eq_some_iff.mp hrun
    obtain ⟨hwaited, heffort⟩ := waited_step hplace (hes e List.mem_cons_self) halong.1 hstep
    obtain ⟨hrest, hcount⟩ := ih (hwaited.placeholder hplace)
      (fun e' he' => hes e' (List.mem_cons_of_mem _ he')) (halong.2 s₁ hstep) hrun
    refine ⟨hrest.trans hwaited, ?_⟩
    rw [List.countP_cons]
    omega

lemma effort_le (s : State) : effort s ≤ 2 := by
  unfold effort
  split_ifs
  all_goals omega

/-- In every run, while a reply is outstanding and its placeholder is in front, the client is read
at most twice before the next event of the channel, if no write is deferred when it is read; nothing
is consumed or written meanwhile. -/
theorem waiting_of_run (handshaking : Bool) (queue : List ℕ) (reading : Bool)
    {es es' : List Event} {s s' : State}
    (_hreached : Run.exec step (start handshaking queue reading) es = some s)
    (hplace : s.placeholder = true) (hes : ∀ e ∈ es', e.isUpstream = false)
    (halong : Run.Along step Waits s es') (hrun : Run.exec step s es' = some s') :
    es'.countP Event.isReadable ≤ 2 ∧ s'.placeholder = true ∧ s'.consumed = s.consumed ∧
      s'.written = s.written := by
  obtain ⟨hwaited, hcount⟩ := waited_of_exec hplace hes halong hrun
  refine ⟨?_, hwaited.placeholder hplace, hwaited.consumed, hwaited.written⟩
  have hle := effort_le s
  omega

theorem waiting_of_run_sample :
    let es : List Event := [.readable [] false, .readable [] false]
    es.countP Event.isReadable ≤ 2 ∧
      ∃ s', Run.exec step (start true [0] true) es = some s' ∧ s'.reading = false ∧
        s'.placeholder = true := by
  have hrun : Run.exec step (start true [0] true) [.readable [] false, .readable [] false] =
      some ⟨false, true, [0], false, false, true, true, some 0, false, true, 1, [], 0, 0, 0, 0⟩ :=
    rfl
  have halong : Run.Along step Waits (start true [0] true)
      [.readable [] false, .readable [] false] := by
    refine ⟨Or.inr ⟨rfl, rfl, rfl⟩, fun s hs => ?_⟩
    cases hs
    exact ⟨Or.inl rfl, fun _ _ => trivial⟩
  obtain ⟨hcount, hplace, -, -⟩ :=
    waiting_of_run true [0] true (Run.exec_nil step _) rfl (by decide) halong hrun
  exact ⟨hcount, _, hrun, rfl, hplace⟩

/-- The greeting is sent over the limit, and the wait for the channel is deferred. Until the timer
fires, each time the client is found readable it is read in vain, and the state is the same. -/
theorem busy_while_deferred :
    ∃ s, Run.exec step (start true [3, 0] true)
        [.readable [⟨.wouldBlock [], .bytes 3, false⟩] true] = some s ∧
      s.placeholder = true ∧ s.delayed = true ∧
      ∀ n, Run.exec step s (List.replicate n (.readable [] true)) = some s := by
  refine ⟨_, rfl, rfl, rfl, fun n => ?_⟩
  induction n with
  | zero => rfl
  | succ n ih =>
    rw [List.replicate_succ, Run.exec_cons]
    exact ih

end Yass.Cli.Upload
