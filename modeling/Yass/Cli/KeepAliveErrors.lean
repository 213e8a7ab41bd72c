import Yass.Cli.KeepAliveCount

/-!
# Errors of a request on a keep-alive connection

`OnReadHttpRequestAfterReuse` takes its buffer by reference and moves it away before it asks for a
new channel; `GetNextUpstreamBuf` looks at the buffer again when it gets `invalid_argument`.

Source: `cli/cli_connection.cpp`.
-/

namespace Yass.Cli

open Yass.Net
open Connection

/-! ## The error code and the buffer -/

/-- The error codes of `OnReadHttpRequestAfterReuse`. -/
inductive ReuseCode where
  | success
  | invalidArgument
  | tryAgain
  deriving DecidableEq, Repr

/-- `OnReadHttpRequestAfterReuse`: the state, what is left of the buffer (`none` if it was moved
away), and the error code. -/
def Connection.reuse (env : Environment) (s : Connection) (buf : GrowableIOBuffer) :
    Option (Connection × Option GrowableIOBuffer × ReuseCode) := do
  match ← s.onReadHttpRequest env buf with
  | (s, buf, false) => some (s, some buf, .invalidArgument)
  | (s, buf, true) =>
    if s.isConnect then some (s, some buf, .invalidArgument)
    else if s.channel.map Channel.request ≠ some s.target then
      -- `recv_buf` has the buffer from here on
      let s := { s with channel := none }.onStreamRead buf
      match s.performCmdOpsHttp env with
      | none => some (s, none, .invalidArgument)
      | some s => some (s, none, .tryAgain)
    else some (s, some buf, .success)

/-- What the caller makes of it. `buf->size()` is asked for after `invalid_argument`. -/
def Connection.afterReuse :
    Connection × Option GrowableIOBuffer × ReuseCode → Option Connection.Reuse
  | (s, some buf, .success) => some (.same s buf)
  | (s, some buf, .invalidArgument) => some (.invalid s buf)
  | (s, _, .tryAgain) => some (.reopened s)
  | (_, none, .invalidArgument) | (_, none, .success) => none

lemma onReadHttpRequestAfterReuse_eq (env : Environment) (s : Connection) (buf : GrowableIOBuffer) :
    s.onReadHttpRequestAfterReuse env buf = (s.reuse env buf).bind Connection.afterReuse := by
  unfold onReadHttpRequestAfterReuse reuse
  cases s.onReadHttpRequest env buf with
  | none => rfl
  | some p =>
    obtain ⟨s₁, buf₁, accepted⟩ := p
    cases accepted with
    | false => rfl
    | true =>
      simp only [Option.bind_eq_bind, Option.bind_some]
      split_ifs
      · rfl
      · cases ({ s₁ with channel := none }.onStreamRead buf₁).performCmdOpsHttp env <;> rfl
      · rfl

/-- A target that `PerformCmdOpsHttp` refuses. -/
def Refused (t : Target) : Prop := t.host.length > tlsextMaxlenHostName ∨ t.host = [] ∨ t.port = 0

instance (t : Target) : Decidable (Refused t) := inferInstanceAs (Decidable (_ ∨ _ ∨ _))

/-! ## One event -/

/-- The state and the buffer with which an event calls `OnReadHttpRequestAfterReuse`. -/
def Connection.reused (env : Environment) (s : Connection) :
    Event → Option (Connection × GrowableIOBuffer)
  | .pull outcome =>
    if s.closed || !s.streaming || !s.upstream.isEmpty || !s.isConnected || !s.isKeepAlive ||
        s.remainingBytes != 0 then none
    else
      match s.pendingBuf, outcome with
      | some buf, _ => some ({ s with pendingBuf := none }, buf)
      | none, .data bytes => (s.readBuffer env bytes).map fun buf =>
        ({ s with previousBuf := none }.receive bytes, buf)
      | none, _ => none
  | _ => none

def Connection.KeepsForNextRead (env : Environment) (s : Connection) (b : List UInt8) : Prop :=
  ∀ bytes buf, s.readBuffer env bytes = some buf → buf.readable = b ++ bytes

/-- The buffer that was moved away is not looked at, and any other error closes the connection or
keeps the bytes for the next read. -/
structure ErrorsHandled (env : Environment) (s : Connection) (e : Event) : Prop where
  not_null : ∀ s₁ buf s₂, s.reused env e = some (s₁, buf) →
    s₁.reuse env buf ≠ some (s₂, none, .invalidArgument)
  kept : ∀ s₁ buf s₂ buf₂, s.reused env e = some (s₁, buf) →
    s₁.reuse env buf = some (s₂, some buf₂, .invalidArgument) →
      ∀ s', step env s e = some s' →
        s'.closed = true ∨ s'.KeepsForNextRead env buf.readable

/-- The bytes are a request that is not a `CONNECT`, for the target of the channel there is or for
one that is not refused. -/
structure Acceptable (env : Environment) (s : Connection) (b : List UInt8) : Prop where
  ok : (env.parse b).ok = true
  isConnect : (env.parse b).isConnect = false
  target : s.channel.map Channel.request = some ⟨(env.parse b).host, (env.parse b).port⟩ ∨
    ¬ Refused ⟨(env.parse b).host, (env.parse b).port⟩

instance (env : Environment) (s : Connection) (b : List UInt8) : Decidable (Acceptable env s b) :=
  decidable_of_iff (_ ∧ _ ∧ _) ⟨fun ⟨h₁, h₂, h₃⟩ => ⟨h₁, h₂, h₃⟩, fun ⟨h₁, h₂, h₃⟩ => ⟨h₁, h₂, h₃⟩⟩

/-- A request on a connection that is kept alive makes no error. -/
def NoError (env : Environment) (s : Connection) (e : Event) : Prop :=
  ∀ p ∈ s.reused env e, Acceptable env p.1 p.2.readable

instance (env : Environment) (s : Connection) (e : Event) : Decidable (NoError env s e) :=
  inferInstanceAs (Decidable (∀ p ∈ s.reused env e, _))

/-- There are bytes, and `OnReadHttpRequest` returns. -/
def Returns (env : Environment) (s : Connection) (e : Event) : Prop :=
  ∀ p ∈ s.reused env e, p.2.readable ≠ [] ∧ (p.1.onReadHttpRequest env p.2).isSome

section Errors

variable {env : Environment} {s s₁ s₂ : Connection} {buf : GrowableIOBuffer} {e : Event}

lemma performCmdOpsHttp_eq_none_iff (env : Environment) (s : Connection) :
    s.performCmdOpsHttp env = none ↔ Refused s.target := by
  unfold performCmdOpsHttp Refused
  split_ifs with h
  · simp [h]
  · simp [h]

lemma onStreamRead_target (s : Connection) (buf : GrowableIOBuffer) :
    (s.onStreamRead buf).target = s.target := by
  unfold onStreamRead
  split_ifs <;> rfl

lemma reuse_of_acceptable (hacceptable : Acceptable env s buf.readable)
    {rest : Option GrowableIOBuffer} :
    s.reuse env buf ≠ some (s₂, rest, .invalidArgument) := by
  intro h
  unfold reuse at h
  obtain ⟨⟨s₃, buf₃, accepted⟩, h₃, h⟩ := Option.bind_eq_some_iff.mp h
  obtain ⟨haccepted, hparsed, -⟩ := onReadHttpRequest_parsed h₃
  rw [hacceptable.ok] at haccepted
  subst haccepted
  obtain ⟨hconnect, htarget⟩ := hparsed rfl
  have hc : ¬ s₃.isConnect = true := by simp [hconnect, hacceptable.isConnect]
  dsimp only at h
  rw [if_neg hc] at h
  split_ifs at h with hother
  · rw [(onReadHttpRequest_same h₃).channel, htarget] at hother
    have hnew := hacceptable.target.resolve_left hother
    have hsome : ({ s₃ with channel := none }.onStreamRead buf₃).performCmdOpsHttp env ≠ none := by
      rw [Ne, performCmdOpsHttp_eq_none_iff, onStreamRead_target]
      show ¬ Refused s₃.target
      rwa [htarget]
    obtain ⟨s₄, hs₄⟩ := Option.ne_none_iff_exists'.mp hsome
    simp [hs₄] at h
  · cases h

/-- **Any other request** makes one: with the buffer moved away if only the target is refused. -/
lemma reuse_of_not_acceptable (hacceptable : ¬ Acceptable env s buf.readable)
    (hreturns : (s.onReadHttpRequest env buf).isSome) :
    ∃ s₂ rest, s.reuse env buf = some (s₂, rest, .invalidArgument) ∧
      (rest.isSome → s₂.closed = s.closed ∧ s₂.isKeepAlive = false) := by
  obtain ⟨⟨s₃, buf₃, accepted⟩, h₃⟩ := Option.isSome_iff_exists.mp hreturns
  obtain ⟨haccepted, hparsed, hoff⟩ := onReadHttpRequest_parsed h₃
  have hsame := onReadHttpRequest_same h₃
  unfold reuse
  rw [h₃]
  cases accepted with
  | false => exact ⟨s₃, some buf₃, rfl, fun _ => ⟨hsame.closed, hoff (Or.inl rfl)⟩⟩
  | true =>
    obtain ⟨hconnect, htarget⟩ := hparsed rfl
    simp only [Option.bind_eq_bind, Option.bind_some]
    by_cases hc : s₃.isConnect
    · rw [if_pos hc]
      exact ⟨s₃, some buf₃, rfl, fun _ => ⟨hsame.closed, hoff (Or.inr hc)⟩⟩
    have hrefused :
        ¬ (s.channel.map Channel.request = some s₃.target ∨ ¬ Refused s₃.target) := by
      intro h
      rw [htarget] at h
      exact hacceptable ⟨haccepted.symm, by rw [← hconnect]; simpa using hc, h⟩
    rw [not_or, not_not] at hrefused
    have hnone : ({ s₃ with channel := none }.onStreamRead buf₃).performCmdOpsHttp env =
        none := by
      rw [performCmdOpsHttp_eq_none_iff, onStreamRead_target]
      exact hrefused.2
    rw [if_neg hc, hsame.channel, if_pos hrefused.1, hnone]
    refine ⟨_, none, rfl, ?_⟩
    intro h
    cases h

lemma step_of_reused (h : s.reused env e = some (s₁, buf)) :
    s₁.closed = false ∧ ∃ n, step env s e = s₁.afterRead env buf n ∧ s₁.isConnected = true ∧
      s₁.isKeepAlive = true ∧ s₁.remainingBytes = 0 := by
  cases e with
  | pull outcome =>
    simp only [reused] at h
    split_ifs at h with hguard
    simp only [Bool.or_eq_true, Bool.not_eq_true', bne_iff_ne, not_or, Bool.not_eq_true,
      Bool.not_eq_false, not_not, List.isEmpty_iff] at hguard
    obtain ⟨⟨⟨⟨⟨hclosed, hstreaming⟩, hupstream⟩, hconnected⟩, hkeep⟩, hzero⟩ := hguard
    have hstep : step env s (.pull outcome) = s.getNextUpstreamBuf env outcome := by
      simp [step, hclosed, hstreaming]
    rw [hstep]
    unfold getNextUpstreamBuf
    rw [if_neg (not_not.mpr hupstream)]
    split at h
    · rename_i buf₁ hbuf
      cases h
      refine ⟨hclosed, buf.size, ?_, hconnected, hkeep, hzero⟩
      simp [resumed, hkeep, hbuf]
    · rename_i bytes hbuf
      obtain ⟨buf₁, hread, h⟩ := Option.map_eq_some_iff.mp h
      cases h
      refine ⟨hclosed, bytes.length, ?_, hconnected, hkeep, hzero⟩
      simp [resumed, hkeep, hbuf, hread]
    · cases h
  | connected | write _ | writeFailed | lost => cases h

lemma not_kept (hreused : s.reused env e = some (s₁, buf)) {buf₂ : GrowableIOBuffer}
    (hreuse : s₁.reuse env buf = some (s₂, some buf₂, .invalidArgument))
    (hclosed : s₂.closed = s₁.closed) (hkeep : s₂.isKeepAlive = false) (hne : buf.readable ≠ []) :
    ∃ s', step env s e = some s' ∧
      ¬ (s'.closed = true ∨ s'.KeepsForNextRead env buf.readable) := by
  obtain ⟨hopen, n, hstep, hconnected, hkeep₁, hzero⟩ := step_of_reused hreused
  have hread : ∀ s' : Connection, s'.isKeepAlive = false →
      ¬ s'.KeepsForNextRead env buf.readable := by
    intro s' hoff hkeeps
    have hfits : ([] : List UInt8).length ≤ socketBufSize := Nat.zero_le _
    obtain ⟨b, hb, hnil, -⟩ := GrowableIOBuffer.readSome_spec env.junk hfits
    have hbuffer : s'.readBuffer env [] = some b := by simpa [Connection.readBuffer, hoff] using hb
    have hsame := hkeeps [] b hbuffer
    rw [hnil, List.append_nil] at hsame
    exact hne hsame.symm
  rw [hstep]
  simp only [afterRead, hconnected, hkeep₁, hzero, Bool.not_true, Bool.false_eq_true,
    if_false, if_true, onReadHttpRequestAfterReuse_eq, hreuse, Option.bind_some,
    Connection.afterReuse, Option.bind_eq_bind]
  split_ifs
  · refine ⟨_, rfl, not_or.mpr ⟨?_, hread _ hkeep⟩⟩
    show ¬ s₂.closed = true
    rw [hclosed, hopen]
    exact Bool.false_ne_true
  refine ⟨_, rfl, not_or.mpr ⟨?_, hread _ hkeep⟩⟩
  rw [hclosed, hopen]
  exact Bool.false_ne_true

lemma errorsHandled_of_noError (h : NoError env s e) : ErrorsHandled env s e where
  not_null s₁ buf _ hreused := reuse_of_acceptable (h (s₁, buf) hreused)
  kept s₁ buf _ _ hreused hreuse :=
    absurd hreuse (reuse_of_acceptable (h (s₁, buf) hreused))

lemma noError_of_errorsHandled (hreturns : Returns env s e) (h : ErrorsHandled env s e) :
    NoError env s e := by
  rintro ⟨s₁, buf⟩ hreused
  by_contra hbad
  obtain ⟨hne, hsome⟩ := hreturns (s₁, buf) hreused
  obtain ⟨s₂, rest, hreuse, hrest⟩ := reuse_of_not_acceptable hbad hsome
  cases rest with
  | none => exact h.not_null s₁ buf s₂ hreused hreuse
  | some buf₂ =>
    obtain ⟨hclosed, hkeep⟩ := hrest rfl
    obtain ⟨s', hstep, hnot⟩ := not_kept hreused hreuse hclosed hkeep hne
    exact hnot (h.kept s₁ buf s₂ buf₂ hreused hreuse s' hstep)

end Errors

def longHost : List UInt8 := List.replicate 256 98

/-- A connection on which two requests come one after the other, the first one for `a`. -/
def secondRequest (second : List UInt8) (parsed : HttpRequestParser) : Option Connection :=
  Run.exec (step (knownEnvironment [(postHeader [97] [48] true, postParsed [97] [48] true),
    (second, parsed)])) start
    [.pull (.data (postHeader [97] [48] true)), .connected, .write 47, .pull (.data second)]

end Yass.Cli
