import Yass.Lib.Run

/-!
# Shutting a TLS socket down

`SSLSocket` and `SSLServerSocket` keep three callbacks, for reading, for writing and for the
shutdown, over the same two kinds of waits of the socket.

* `Socket` — the callbacks, the waits that are outstanding, and the callbacks that are running: what
  is left to do behind each of them is a `Frame`. Callbacks are numbered as they are passed in.
* `shutdown`, `waitRead`, `waitWrite`, `onWaitRead`, `onWaitWrite`, `disconnect` — the methods.

The two classes differ in one thing: a client that has a read error pending does not wait. What
`SSL_shutdown` answers is part of the event; with `force` it answers `1` at once. The callbacks of
the handshake are left out.

Source: `net/ssl_socket.cpp`, `net/ssl_server_socket.cpp`.
-/

namespace Yass.Net.Tls

open Option (toList_none toList_some)

/-! ## What the library answers -/

/-- The result of `SSL_shutdown`. -/
inductive Result where
  | one
  | zero
  | negative
  deriving DecidableEq, Repr

/-- What `SSL_get_error` makes of a result. -/
inductive SslError where
  | wantRead
  | wantWrite
  | zeroReturn
  /-- Any other error, and whether `ERR_peek_error()` is `0`. -/
  | other (noError : Bool)
  deriving DecidableEq, Repr

/-- One answer of `SSL_shutdown`. -/
structure Answer where
  result : Result
  error : SslError
  deriving DecidableEq, Repr

/-- What the library answers during one call of `Shutdown`. -/
structure Answers where
  inInit : Bool
  first : Answer
  /-- Asked for only where the first result was `0`. -/
  second : Answer
  deriving DecidableEq, Repr

/-- How the loop of `Shutdown` ends. -/
inductive Verdict where
  | finished
  | wantRead
  | wantWrite
  | reset
  deriving DecidableEq, Repr

def SslError.verdict : SslError → Verdict
  | .wantRead => .wantRead
  | .wantWrite => .wantWrite
  | .zeroReturn => .finished
  | .other noError => if noError then .finished else .reset

/-- The loop of `Shutdown`, with its two tries. -/
def Answers.verdict (a : Answers) : Verdict :=
  if a.inInit then .finished
  else
    match a.first.result with
    | .one => .finished
    | .zero =>
      match a.second.result with
      | .one => .finished
      | _ => a.second.error.verdict
    | .negative => a.first.error.verdict

/-! ## The socket -/

/-- `asio::error_code`, as the handlers tell it apart. -/
inductive Ec where
  | ok
  /-- `bad_descriptor` or `operation_aborted`. -/
  | aborted
  | failed
  deriving DecidableEq, Repr

inductive Frame where
  | back
  | thenRead
  | thenWrite
  deriving DecidableEq, Repr

inductive Kind where
  | client
  | server
  deriving DecidableEq, Repr

structure Socket where
  kind : Kind
  disconnected : Bool
  waitReadCallback : Option ℕ
  waitWriteCallback : Option ℕ
  waitShutdownCallback : Option ℕ
  reads : ℕ
  writes : ℕ
  stack : List Frame
  next : ℕ
  ran : List ℕ
  deriving DecidableEq, Repr

namespace Socket

def new (kind : Kind) : Socket := ⟨kind, false, none, none, none, 0, 0, [], 0, []⟩

/-- A callback runs; `frame` is what comes behind it. -/
def run (s : Socket) (callback : ℕ) (frame : Frame) : Socket :=
  { s with ran := s.ran ++ [callback], stack := frame :: s.stack }

def resume (s : Socket) : Frame → Socket
  | .back => s
  | .thenRead =>
    match s.waitReadCallback with
    | none => s
    | some cb => { s with waitReadCallback := none }.run cb .back
  | .thenWrite =>
    match s.waitWriteCallback with
    | none => s
    | some cb => { s with waitWriteCallback := none }.run cb .back

/-- `Shutdown`, and what comes behind it. -/
def shutdown (s : Socket) (callback : ℕ) (answers : Answers) (frame : Frame) : Socket :=
  match answers.verdict with
  | .finished => s.run callback frame
  | .reset => s.run callback frame
  | .wantRead =>
    { s with
      waitShutdownCallback := some callback
      reads := if s.waitReadCallback.isNone then s.reads + 1 else s.reads }.resume frame
  | .wantWrite =>
    { s with
      waitShutdownCallback := some callback
      writes := if s.waitWriteCallback.isNone then s.writes + 1 else s.writes }.resume frame

def dropCallbacks (s : Socket) : Socket :=
  { s with waitReadCallback := none, waitWriteCallback := none, waitShutdownCallback := none }

/-- `OnDoWaitShutdown`, with the callback it has taken out. -/
def onDoWaitShutdown (s : Socket) (callback : ℕ) (ec : Ec) (answers : Answers) (frame : Frame) :
    Socket :=
  if ec = .failed then s.run callback frame else s.shutdown callback answers frame

/-- `OnWaitRead` and `OnWaitWrite`; `frame` is the end of them, in which they differ. -/
def onWait (s : Socket) (ec : Ec) (answers : Answers) (frame : Frame) : Socket :=
  if s.disconnected then s
  else if ec = .aborted then s.dropCallbacks
  else
    match s.waitShutdownCallback with
    | none => s.resume frame
    | some cb => { s with waitShutdownCallback := none }.onDoWaitShutdown cb ec answers frame

def onWaitRead (s : Socket) (ec : Ec) (answers : Answers) : Socket := s.onWait ec answers .thenRead

def onWaitWrite (s : Socket) (ec : Ec) (answers : Answers) : Socket :=
  s.onWait ec answers .thenWrite

def passed (s : Socket) : ℕ × Socket := (s.next, { s with next := s.next + 1 })

/-- `WaitRead`. With `pending`, `pending_read_error_` is set, which only a client has; the answers
are for a shutdown that is tried again at once. -/
def waitRead (s : Socket) (pending : Option Answers) : Socket :=
  let (cb, s) := s.passed
  if s.disconnected then s.run cb .back
  else
    let s := { s with waitReadCallback := some cb }
    match s.kind, pending with
    | .client, some answers => s.onWaitRead .ok answers
    | _, _ => { s with reads := s.reads + 1 }

def waitWrite (s : Socket) : Socket :=
  let (cb, s) := s.passed
  if s.disconnected then s.run cb .back
  else { s with waitWriteCallback := some cb, writes := s.writes + 1 }

/-- `Disconnect`. The waits that are outstanding complete later. -/
def disconnect (s : Socket) : Socket := { s with disconnected := true }.dropCallbacks

end Socket

/-! ## Events -/

inductive Event where
  | waitRead (pending : Option Answers)
  | waitWrite
  | shutdown (answers : Answers)
  | disconnect
  | readReady (ec : Ec) (answers : Answers)
  | writeReady (ec : Ec) (answers : Answers)
  | return
  deriving DecidableEq, Repr

/-- One event. A completion that no wait is outstanding for, or that would come while a callback
runs, is not one; nor is the return of a callback that does not run. -/
def step (s : Socket) : Event → Option Socket
  | .waitRead pending => some (s.waitRead pending)
  | .waitWrite => some s.waitWrite
  | .shutdown answers =>
    let (cb, s) := s.passed
    some (s.shutdown cb answers .back)
  | .disconnect => some s.disconnect
  | .readReady ec answers =>
    if s.stack = [] ∧ 0 < s.reads then
      some ({ s with reads := s.reads - 1 }.onWaitRead ec answers)
    else none
  | .writeReady ec answers =>
    if s.stack = [] ∧ 0 < s.writes then
      some ({ s with writes := s.writes - 1 }.onWaitWrite ec answers)
    else none
  | .return =>
    match s.stack with
    | [] => none
    | frame :: stack => some ({ s with stack := stack }.resume frame)

/-! ## No callback runs twice -/

def Socket.uses (s : Socket) (i : ℕ) : ℕ :=
  s.ran.count i + s.waitReadCallback.toList.count i + s.waitWriteCallback.toList.count i +
    s.waitShutdownCallback.toList.count i

section Uses

variable (s : Socket) (i cb : ℕ) (frame : Frame) (answers : Answers)

lemma uses_run : (s.run cb frame).uses i = s.uses i + [cb].count i := by
  simp only [Socket.uses, Socket.run, List.count_append]
  omega

lemma uses_resume : (s.resume frame).uses i = s.uses i := by
  cases frame with
  | back => rfl
  | thenRead =>
    unfold Socket.resume
    rcases hcb : s.waitReadCallback with _ | cb
    · rfl
    show ({ s with waitReadCallback := none }.run cb .back).uses i = s.uses i
    rw [uses_run]
    simp only [Socket.uses, hcb, toList_some, toList_none, List.count_nil]
    omega
  | thenWrite =>
    unfold Socket.resume
    rcases hcb : s.waitWriteCallback with _ | cb
    · rfl
    show ({ s with waitWriteCallback := none }.run cb .back).uses i = s.uses i
    rw [uses_run]
    simp only [Socket.uses, hcb, toList_some, toList_none, List.count_nil]
    omega

lemma uses_shutdown_le :
    (s.shutdown cb answers frame).uses i ≤ s.uses i + [cb].count i := by
  unfold Socket.shutdown
  cases answers.verdict with
  | finished => exact (uses_run s i cb frame).le
  | reset => exact (uses_run s i cb frame).le
  | wantRead =>
    dsimp only
    rw [uses_resume]
    simp only [Socket.uses, toList_some]
    omega
  | wantWrite =>
    dsimp only
    rw [uses_resume]
    simp only [Socket.uses, toList_some]
    omega

lemma uses_dropCallbacks_le : s.dropCallbacks.uses i ≤ s.uses i := by
  simp only [Socket.uses, Socket.dropCallbacks, toList_none, List.count_nil]
  omega

lemma uses_onWait_le (ec : Ec) : (s.onWait ec answers frame).uses i ≤ s.uses i := by
  unfold Socket.onWait
  split_ifs
  · exact le_rfl
  · exact uses_dropCallbacks_le s i
  rcases hcb : s.waitShutdownCallback with _ | cb
  · exact (uses_resume s i frame).le
  have htaken : ({ s with waitShutdownCallback := none } : Socket).uses i + [cb].count i =
      s.uses i := by
    simp only [Socket.uses, hcb, toList_some, toList_none, List.count_nil]
    omega
  rw [← htaken]
  unfold Socket.onDoWaitShutdown
  split_ifs
  · exact (uses_run _ i cb frame).le
  · exact uses_shutdown_le _ i cb frame answers

end Uses

/-- Callbacks are used once, and only those that were passed in. -/
def Once (s : Socket) : Prop := ∀ i, s.uses i ≤ if i < s.next then 1 else 0

section Next

variable (s : Socket) (cb : ℕ) (frame : Frame) (answers : Answers)

@[simp] lemma next_resume : (s.resume frame).next = s.next := by
  unfold Socket.resume
  split
  · rfl
  all_goals
    split
    · rfl
    · rfl

@[simp] lemma next_shutdown : (s.shutdown cb answers frame).next = s.next := by
  unfold Socket.shutdown
  split
  · rfl
  · rfl
  · exact next_resume _ frame
  · exact next_resume _ frame

@[simp] lemma next_onWait (ec : Ec) : (s.onWait ec answers frame).next = s.next := by
  unfold Socket.onWait
  split_ifs
  · rfl
  · rfl
  split
  · exact next_resume s frame
  unfold Socket.onDoWaitShutdown
  split_ifs
  · rfl
  · exact next_shutdown _ _ frame answers

end Next

variable {s s' : Socket}

lemma Once.of_le (h : Once s) (hnext : s.next ≤ s'.next)
    (huses : ∀ i, s'.uses i ≤ s.uses i) : Once s' := by
  intro i
  have hi := h i
  have hle := huses i
  split_ifs at hi ⊢ <;> omega

lemma Once.of_passed (h : Once s) (hnext : s'.next = s.next + 1)
    (huses : ∀ i, s'.uses i ≤ s.uses i + [s.next].count i) : Once s' := by
  intro i
  have hi := h i
  have hle := huses i
  rw [List.count_singleton] at hle
  rw [hnext]
  simp only [beq_iff_eq] at hle
  split_ifs at hi hle ⊢ <;> omega

lemma once_waitRead {s : Socket} (h : Once s) (pending : Option Answers) :
    Once (s.waitRead pending) := by
  have hstore : ∀ i,
      ({ s with next := s.next + 1, waitReadCallback := some s.next } : Socket).uses i ≤
      s.uses i + [s.next].count i := by
    intro i
    simp only [Socket.uses, toList_some]
    omega
  unfold Socket.waitRead Socket.passed
  dsimp only
  split_ifs
  · exact h.of_passed rfl fun i => (uses_run _ i s.next .back).le
  split
  · exact h.of_passed (next_onWait _ _ _ _) fun i => (uses_onWait_le _ i _ _ _).trans (hstore i)
  · exact h.of_passed rfl hstore

lemma Once.step {e : Event} (h : Once s) (hstep : step s e = some s') :
    Once s' := by
  cases e with
  | waitRead pending =>
    cases hstep
    exact once_waitRead h pending
  | waitWrite =>
    cases hstep
    unfold Socket.waitWrite Socket.passed
    dsimp only
    split_ifs
    · exact h.of_passed rfl fun i => (uses_run _ i s.next .back).le
    refine h.of_passed rfl fun i => ?_
    simp only [Socket.uses, toList_some]
    omega
  | shutdown answers =>
    cases hstep
    exact h.of_passed (next_shutdown _ _ _ _) fun i => uses_shutdown_le _ i s.next .back answers
  | disconnect =>
    cases hstep
    exact h.of_le le_rfl fun i => uses_dropCallbacks_le { s with disconnected := true } i
  | readReady ec answers =>
    unfold Tls.step at hstep
    dsimp only at hstep
    split_ifs at hstep
    cases hstep
    refine h.of_le ?_ fun i => uses_onWait_le _ i _ _ ec
    rw [Socket.onWaitRead, next_onWait]
  | writeReady ec answers =>
    unfold Tls.step at hstep
    dsimp only at hstep
    split_ifs at hstep
    cases hstep
    refine h.of_le ?_ fun i => uses_onWait_le _ i _ _ ec
    rw [Socket.onWaitWrite, next_onWait]
  | «return» =>
    unfold Tls.step at hstep
    dsimp only at hstep
    split at hstep
    · cases hstep
    · cases hstep
      refine h.of_le ?_ fun i => (uses_resume _ i _).le
      rw [next_resume]

lemma Once.ran_nodup {s : Socket} (h : Once s) : s.ran.Nodup := by
  rw [List.nodup_iff_count_le_one]
  intro i
  have hi := h i
  unfold Socket.uses at hi
  split_ifs at hi <;> omega

/-! ## The shutdown is tried again -/

/-- While the socket is open, a wait is outstanding for a shutdown that is stored. Whichever wait it
is, its handler tries the shutdown again. -/
def Awake (s : Socket) : Prop :=
  s.disconnected = false → s.waitShutdownCallback ≠ none → 0 < s.reads + s.writes

/-- Where `SSL_shutdown` asks for what a callback is stored for, a wait is outstanding. -/
def Covered (s : Socket) (answers : Answers) : Prop :=
  (answers.verdict = .wantRead → s.waitReadCallback ≠ none → 0 < s.reads + s.writes) ∧
    (answers.verdict = .wantWrite → s.waitWriteCallback ≠ none → 0 < s.reads + s.writes)

instance (s : Socket) (answers : Answers) : Decidable (Covered s answers) :=
  inferInstanceAs (Decidable (_ ∧ _))

/-- The condition on an event: another wait is outstanding than the one whose completion is
handled, when the shutdown is tried and asks for what a callback is stored for. -/
def Meets (s : Socket) : Event → Prop
  | .shutdown answers => s.disconnected = false → Covered s answers
  | .readReady ec answers =>
    s.disconnected = false → s.waitShutdownCallback ≠ none → ec = .ok →
      Covered { s with reads := s.reads - 1 } answers
  | .writeReady ec answers =>
    s.disconnected = false → s.waitShutdownCallback ≠ none → ec = .ok →
      Covered { s with writes := s.writes - 1 } answers
  | _ => True

instance (s : Socket) (e : Event) : Decidable (Meets s e) := by
  cases e <;> unfold Meets <;> infer_instance

section Waits

variable (s : Socket) (frame : Frame)

lemma resume_waits :
    (s.resume frame).disconnected = s.disconnected ∧
      (s.resume frame).waitShutdownCallback = s.waitShutdownCallback ∧
      (s.resume frame).reads = s.reads ∧ (s.resume frame).writes = s.writes := by
  unfold Socket.resume
  split
  · exact ⟨rfl, rfl, rfl, rfl⟩
  all_goals
    split
    · exact ⟨rfl, rfl, rfl, rfl⟩
    · exact ⟨rfl, rfl, rfl, rfl⟩

lemma awake_resume_iff : Awake (s.resume frame) ↔ Awake s := by
  obtain ⟨hdisconnected, hshutdown, hreads, hwrites⟩ := resume_waits s frame
  rw [Awake, Awake, hdisconnected, hshutdown, hreads, hwrites]

variable {s}

lemma awake_shutdown (cb : ℕ) {answers : Answers} (hs : Awake s)
    (hcovered : s.disconnected = false → Covered s answers) :
    Awake (s.shutdown cb answers frame) := by
  unfold Socket.shutdown
  rcases hverdict : answers.verdict with _ | _ | _ | _
  · exact hs
  · dsimp only
    rw [awake_resume_iff]
    intro hopen _
    show 0 < (if s.waitReadCallback.isNone then s.reads + 1 else s.reads) + s.writes
    rcases hcb : s.waitReadCallback with _ | read
    · rw [Option.isNone_none, if_pos rfl]
      omega
    · rw [Option.isNone_some, if_neg Bool.false_ne_true]
      exact (hcovered hopen).1 hverdict (by rw [hcb]; simp)
  · dsimp only
    rw [awake_resume_iff]
    intro hopen _
    show 0 < s.reads + if s.waitWriteCallback.isNone then s.writes + 1 else s.writes
    rcases hcb : s.waitWriteCallback with _ | write
    · rw [Option.isNone_none, if_pos rfl]
      omega
    · rw [Option.isNone_some, if_neg Bool.false_ne_true]
      exact (hcovered hopen).2 hverdict (by rw [hcb]; simp)
  · exact hs

lemma awake_onWait (ec : Ec) {answers : Answers}
    (hcovered : s.disconnected = false → s.waitShutdownCallback ≠ none → ec = .ok →
      Covered s answers) : Awake (s.onWait ec answers frame) := by
  unfold Socket.onWait
  by_cases hclosed : s.disconnected
  · rw [if_pos hclosed]
    exact fun hopen => absurd hclosed (ne_true_of_eq_false hopen)
  have hopen : s.disconnected = false := Bool.eq_false_iff.mpr hclosed
  rw [if_neg hclosed]
  by_cases haborted : ec = .aborted
  · rw [if_pos haborted]
    exact fun _ hstored => absurd rfl hstored
  rw [if_neg haborted]
  rcases hcb : s.waitShutdownCallback with _ | cb
  · dsimp only
    rw [awake_resume_iff]
    exact fun _ hstored => absurd hcb hstored
  have htaken : Awake { s with waitShutdownCallback := none } :=
    fun _ hstored => absurd rfl hstored
  dsimp only
  unfold Socket.onDoWaitShutdown
  by_cases hfailed : ec = .failed
  · rw [if_pos hfailed]
    exact htaken
  have hok : ec = .ok := by
    cases ec with
    | ok => rfl
    | aborted => exact absurd rfl haborted
    | failed => exact absurd rfl hfailed
  rw [if_neg hfailed]
  exact awake_shutdown frame cb htaken
    fun _ => hcovered hopen (by rw [hcb]; simp) hok

end Waits

lemma awake_step {e : Event} (hs : Awake s) (he : Meets s e)
    (hstep : step s e = some s') : Awake s' := by
  cases e with
  | waitRead pending =>
    cases hstep
    unfold Socket.waitRead Socket.passed
    dsimp only
    split_ifs with hclosed
    · exact hs
    split
    · -- no wait has completed: the one for the stored shutdown is still there
      refine awake_onWait .thenRead .ok fun hopen hstored _ => ?_
      exact ⟨fun _ _ => hs hopen hstored, fun _ _ => hs hopen hstored⟩
    intro _ _
    show 0 < s.reads + 1 + s.writes
    omega
  | waitWrite =>
    cases hstep
    unfold Socket.waitWrite Socket.passed
    dsimp only
    split_ifs
    · exact hs
    intro _ _
    show 0 < s.reads + (s.writes + 1)
    omega
  | shutdown answers =>
    cases hstep
    exact awake_shutdown .back s.next hs he
  | disconnect =>
    cases hstep
    exact fun hopen => absurd hopen Bool.true_eq_false_eq_False
  | readReady ec answers =>
    unfold step at hstep
    dsimp only at hstep
    split_ifs at hstep
    cases hstep
    exact awake_onWait .thenRead ec he
  | writeReady ec answers =>
    unfold step at hstep
    dsimp only at hstep
    split_ifs at hstep
    cases hstep
    exact awake_onWait .thenWrite ec he
  | «return» =>
    unfold step at hstep
    dsimp only at hstep
    split at hstep
    · cases hstep
    · cases hstep
      rw [awake_resume_iff]
      exact hs

/-- No callback runs twice, whatever happens. In a run in which `SSL_shutdown` asks for what a
callback is stored for only while a further wait is outstanding, a shutdown that is stored is tried
again, in every state the run reaches. -/
theorem awake_of_run (kind : Kind) (es : List Event) :
    (∀ s, Run.exec step (.new kind) es = some s → s.ran.Nodup) ∧
      (Run.Along step Meets (.new kind) es →
        ∀ es₁, es₁ <+: es → ∀ s, Run.exec step (.new kind) es₁ = some s →
          s.disconnected = false → s.stack = [] → s.waitShutdownCallback ≠ none →
            0 < s.reads + s.writes) := by
  constructor
  · intro s hrun
    have hnew : Once (.new kind) := fun i => Nat.zero_le _
    exact (Run.exec_keeps (fun _ _ _ h hstep => h.step hstep) hnew hrun).ran_nodup
  intro hes es₁ hes₁ s hrun hopen _ hstored
  have hnew : Awake (.new kind) := fun _ hstored => absurd rfl hstored
  exact Run.reached_invariant (fun _ _ _ h he hstep => awake_step h he hstep) hnew hes hes₁ hrun
    hopen hstored

/-- The peer has not sent its alert: `SSL_shutdown` gives `0` and then asks for more to read. -/
def sampleAnswers : Answers := ⟨false, ⟨.zero, .wantRead⟩, ⟨.negative, .wantRead⟩⟩

theorem awake_of_run_sample :
    let es : List Event := [.waitWrite, .shutdown sampleAnswers, .readReady .ok sampleAnswers]
    ∃ s, Run.exec step (.new .server) es = some s ∧ s.waitShutdownCallback = some 1 ∧
      s.ran.Nodup ∧ 0 < s.reads + s.writes := by
  intro es
  obtain ⟨hnodup, hawake⟩ := awake_of_run .server es
  refine ⟨_, rfl, rfl, hnodup _ rfl, ?_⟩
  exact hawake (by decide) es (List.prefix_refl es) _ rfl rfl rfl (by decide)

/-- Both sockets, with a read that is waited for. More arrives, but not the alert of the peer: the
shutdown finds the read callback still stored and starts no wait of its own. The read callback then
runs and does not wait again, and nothing is outstanding. -/
theorem shutdown_lost :
    let lost := fun kind => ∃ s, Run.exec step (.new kind)
        [.waitRead none, .shutdown sampleAnswers, .readReady .ok sampleAnswers, .return] = some s ∧
      s.disconnected = false ∧ s.stack = [] ∧ s.waitShutdownCallback = some 1 ∧
      s.reads + s.writes = 0
    lost .client ∧ lost .server := by
  constructor
  · exact ⟨_, rfl, rfl, rfl, rfl, rfl⟩
  · exact ⟨_, rfl, rfl, rfl, rfl, rfl⟩

end Yass.Net.Tls
