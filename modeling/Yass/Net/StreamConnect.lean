import Yass.Lib.Run

/-!
# Connecting a stream

`stream::async_connect` finds the endpoints of a host and tries them one after the other, with a
timer over each attempt; `ssl_stream` adds a TLS handshake behind each connection.

* `Stream` — the members that the connection uses, the operations that are outstanding, and a log.
  An operation that was cancelled may still deliver the result it had before.
* `asyncConnect`, `onTryNextEndpoint`, `onAsyncConnected`, `onAsyncConnectExpired`, `close` — the
  methods. `none` is the front of an empty deque, or an operation that is started while the same
  one is outstanding.
* `Event`, `Possible`, `step` — a completion, or a call of `close()`.
* `Logged`, `Sound` — what every event keeps. `connect_completes` puts it together: the callback
  runs once, endpoints are tried in order, and no run goes on for ever.

Addresses are of any type. A handshake counts as successful where `SSLSocket::Connect` says so; with
early data the confirmation comes later, and a failure of it is reported to the channel. What the
rate limiter starts is in `Net/RateLimit`.

Source: `net/stream.hpp`, `net/ssl_stream.hpp`.
-/

namespace Yass.Net.Connecting

open List (append_nil length_nil mem_append_left)

inductive Err where
  | networkUnreachable
  | hostNotFound
  | connectionRefused
  | timedOut
  | other (code : ℕ)
  deriving DecidableEq, Repr

/-- `asio::error_code`. -/
inductive Ec where
  | ok
  /-- `operation_aborted`, or `bad_descriptor`. -/
  | aborted
  | failed (e : Err)
  deriving DecidableEq, Repr

structure Endpoint (A : Type) where
  address : A
  port : ℕ
  deriving DecidableEq, Repr

/-- `stream`, or `ssl_stream`. -/
inductive Kind where
  | plain
  | ssl
  deriving DecidableEq, Repr

structure Env (A : Type) where
  kind : Kind
  connectTimeout : ℕ
  makeAddress : List UInt8 → Option A
  isUnspecified : A → Bool
  isMulticast : A → Bool
  hostIps : List UInt8
  hostSni : List UInt8
  port : ℕ

inductive Entry (A : Type) where
  /-- `on_try_next_endpoint` has taken the endpoint. -/
  | tried (endpoint : Endpoint A)
  | reached (endpoint : Endpoint A)
  | secured (endpoint : Endpoint A)
  | reported (ec : Ec)
  | shut
  deriving DecidableEq, Repr

structure Stream (A : Type) where
  closed : Bool
  connected : Bool
  eof : Bool
  /-- Whether `user_connect_callback_` is set. -/
  callback : Bool
  endpoints : List (Endpoint A)
  /-- `socket_.is_open()`. -/
  isOpen : Bool
  /-- Whether `ssl_socket_` is set. -/
  sslSocket : Bool
  /-- A resolution that is outstanding, and whether it was cancelled. -/
  resolving : Option Bool
  /-- A connection that is outstanding, and whether it was cancelled. -/
  connecting : Option (Endpoint A × Bool)
  shaking : Option (Endpoint A)
  /-- The waits for `connect_timer_`, and whether they were cancelled. -/
  timers : List Bool
  log : List (Entry A)
  found : List (Endpoint A)
  deriving DecidableEq, Repr

variable {A : Type}

/-! ## The code -/

namespace Stream

/-- A new stream, with the callback of `async_connect`. -/
def new : Stream A :=
  ⟨false, false, false, true, [], false, false, none, none, none, [], [], []⟩

/-- `on_async_connect_callback`. -/
def report (s : Stream A) (ec : Ec) : Stream A :=
  if s.callback then { s with callback := false, log := s.log ++ [.reported ec] } else s

/-- `closed_ = true`, and the callback with an error. -/
def fail (s : Stream A) (e : Err) : Stream A := report { s with closed := true } (.failed e)

/-- `s_close`. For a `ssl_stream` it is `Disconnect`, which also drops the callback of the
handshake. -/
def sClose (s : Stream A) (env : Env A) : Stream A :=
  { s with
    isOpen := false
    connecting := s.connecting.map fun p => (p.1, true)
    shaking := if env.kind = .ssl ∧ s.sslSocket = true then none else s.shaking }

/-- `connect_timer_.cancel()`. -/
def cancelTimer (s : Stream A) : Stream A := { s with timers := s.timers.map fun _ => true }

/-- `connect_timer_.expires_after`, which cancels the waits there are, and `async_wait`. -/
def startTimer (s : Stream A) : Stream A :=
  { s with timers := (s.timers.map fun _ => true) ++ [false] }

/-- The end of `on_resolve`: the timer, and the connection. -/
def startConnect (s : Stream A) (env : Env A) (endpoint : Endpoint A) : Option (Stream A) :=
  match s.connecting with
  | some _ => none
  | none =>
    let s := if env.connectTimeout ≠ 0 then s.startTimer else s
    some { s with isOpen := true, connecting := some (endpoint, false) }

/-- `on_try_next_endpoint` and `on_resolve`, over what is in `endpoints_`. `opens` is what
`socket_.open` answers, one after the other. -/
def tryEndpoints (env : Env A) :
    List (Endpoint A) → List (Option Err) → Stream A → Option (Stream A)
  | [], _, _ => none
  | endpoint :: rest, opens, s =>
    let s := { s with endpoints := rest, log := s.log ++ [.tried endpoint] }
    if env.isUnspecified endpoint.address || env.isMulticast endpoint.address then
      if rest ≠ [] then tryEndpoints env rest opens s
      else some (s.fail .networkUnreachable)
    else
      let s := if s.isOpen then s.sClose env else s
      match opens.headD none with
      | some e =>
        if rest ≠ [] then tryEndpoints env rest opens.tail s
        else some (s.fail e)
      | none => s.startConnect env endpoint

def onTryNextEndpoint (s : Stream A) (env : Env A) (opens : List (Option Err)) :
    Option (Stream A) := tryEndpoints env s.endpoints opens s

/-- `stream::on_async_connected`. -/
def onConnected (s : Stream A) (env : Env A) (ec : Ec) (opens : List (Option Err)) :
    Option (Stream A) :=
  let s := s.cancelTimer
  if ec ≠ .ok then
    if s.endpoints ≠ [] then s.onTryNextEndpoint env opens else some (s.report ec)
  else some (report { s with connected := true } .ok)

/-- `on_async_connected`, of the connection to `endpoint`. -/
def onAsyncConnected (s : Stream A) (env : Env A) (endpoint : Endpoint A) (ec : Ec)
    (opens : List (Option Err)) : Option (Stream A) :=
  let s := if ec = .ok then { s with log := s.log ++ [.reached endpoint] } else s
  if env.kind = .ssl ∧ ec = .ok then
    match s.shaking with
    | some _ => none
    | none => some { s with sslSocket := true, shaking := some endpoint }
  else s.onConnected env ec opens

def onAsyncConnectExpired (s : Stream A) (ec : Ec) : Stream A :=
  if s.connected then s
  else report { s with eof := true } (if ec = .ok then .failed .timedOut else ec)

def close (s : Stream A) (env : Env A) : Stream A :=
  let s := { s with log := s.log ++ [.shut] }
  if s.closed then s
  else
    let s := { s with closed := true, connected := false, eof := true, callback := false }
    let s := (s.sClose env).cancelTimer
    { s with resolving := s.resolving.map fun _ => true }

def parsed (env : Env A) : List (Endpoint A) :=
  (env.hostIps.splitOn ';'.toUInt8).filterMap fun ip => (env.makeAddress ip).map (⟨·, env.port⟩)

def push (s : Stream A) (endpoints : List (Endpoint A)) : Stream A :=
  { s with endpoints := s.endpoints ++ endpoints, found := s.found ++ endpoints }

/-- `async_connect`. `init` is what `resolver_.Init()` answers. -/
def asyncConnect (env : Env A) (init : Option Err) (opens : List (Option Err)) :
    Option (Stream A) :=
  let s := new
  if env.port = 0 then some (s.fail .networkUnreachable)
  else if env.hostIps ≠ [] then
    let s := s.push (parsed env)
    if s.endpoints = [] then some (s.fail .hostNotFound)
    else s.onTryNextEndpoint env opens
  else
    match env.makeAddress env.hostSni with
    | some addr => (s.push [⟨addr, env.port⟩]).onTryNextEndpoint env opens
    | none =>
      match init with
      | some e => some (s.fail e)
      | none => some { s with resolving := some false }

end Stream

/-! ## Events -/

inductive Event (A : Type) where
  | resolved (ec : Ec) (results : List (Endpoint A)) (opens : List (Option Err))
  | connected (ec : Ec) (opens : List (Option Err))
  /-- The handler of the TLS handshake. `ConfirmHandshake` can fail at once, and the channel may
  then close the stream. -/
  | handshake (ok : Bool) (confirmFails closes : Bool) (opens : List (Option Err))
  | timer (i : ℕ) (ec : Ec)
  | close
  deriving DecidableEq, Repr

/-- Every operation completes once, and as aborted only if it was cancelled. A resolution that
succeeds has a result. -/
def Possible (s : Stream A) : Event A → Prop
  | .resolved ec results _ =>
    ∃ cancelled ∈ s.resolving, (ec = .aborted → cancelled = true) ∧ (ec = .ok → results ≠ [])
  | .connected ec _ => ∃ p ∈ s.connecting, ec = .aborted → p.2 = true
  | .handshake .. => s.shaking ≠ none
  | .timer i ec => ∃ cancelled ∈ s.timers[i]?, ec = .aborted → cancelled = true
  | .close => True

instance [DecidableEq A] (s : Stream A) (e : Event A) : Decidable (Possible s e) := by
  cases e <;> unfold Possible <;> infer_instance

def step (env : Env A) (s : Stream A) : Event A → Option (Stream A)
  | .resolved ec results opens =>
    let s := { s with resolving := none }
    if ec = .aborted then some s
    else if s.closed then some s
    else if ec ≠ .ok then s.onConnected env ec opens
    else (s.push results).onTryNextEndpoint env opens
  | .connected ec opens => do
    let (endpoint, _) ← s.connecting
    let s := { s with connecting := none }
    if ec = .aborted then some s
    else if s.closed then some s
    else s.onAsyncConnected env endpoint ec opens
  | .handshake ok confirmFails closes opens => do
    let endpoint ← s.shaking
    let s := { s with shaking := none }
    if s.closed then some s
    else if !ok then s.onConnected env (.failed .connectionRefused) opens
    else
      let s := { s with log := s.log ++ [.secured endpoint] }
      let s := if confirmFails && closes then s.close env else s
      if s.closed then some s else s.onConnected env .ok opens
  | .timer i ec =>
    let s := { s with timers := s.timers.eraseIdx i }
    if ec = .aborted then some s else some (s.onAsyncConnectExpired ec)
  | .close => some (s.close env)

/-! ## The log -/

def tried (log : List (Entry A)) : List (Endpoint A) :=
  log.filterMap fun
    | .tried endpoint => some endpoint
    | _ => none

def reports (log : List (Entry A)) : List Ec :=
  log.filterMap fun
    | .reported ec => some ec
    | _ => none

/-- The endpoint was tried and reached, and the handshake of a `ssl_stream` with it succeeded. -/
structure Established (env : Env A) (log : List (Entry A)) (endpoint : Endpoint A) : Prop where
  tried : endpoint ∈ tried log
  reached : .reached endpoint ∈ log
  secured : env.kind = .ssl → .secured endpoint ∈ log

structure Logged (env : Env A) (s : Stream A) : Prop where
  once : (reports s.log).length + s.callback.toNat ≤ 1
  kept : .shut ∉ s.log → (reports s.log).length + s.callback.toNat = 1
  ordered : tried s.log ++ s.endpoints = s.found
  success : .ok ∈ reports s.log → ∃ endpoint, Established env s.log endpoint

variable {env : Env A} {s s' : Stream A} {log : List (Entry A)} {endpoint : Endpoint A}

lemma tried_append (log log' : List (Entry A)) : tried (log ++ log') = tried log ++ tried log' :=
  List.filterMap_append

lemma reports_append (log log' : List (Entry A)) :
    reports (log ++ log') = reports log ++ reports log' := List.filterMap_append

lemma mem_tried_append (h : endpoint ∈ tried log) (log' : List (Entry A)) :
    endpoint ∈ tried (log ++ log') := by
  rw [tried_append]
  exact mem_append_left _ h

lemma eq_none_of_length {α : Type} {o : Option α} (h : o.toList.length = 0) : o = none :=
  Option.toList_eq_nil_iff.mp (List.length_eq_zero_iff.mp h)

lemma Established.append (h : Established env log endpoint) (log' : List (Entry A)) :
    Established env (log ++ log') endpoint :=
  ⟨mem_tried_append h.tried log', mem_append_left _ h.reached,
    fun hssl => mem_append_left _ (h.secured hssl)⟩

lemma Logged.note (h : Logged env s) {entry : Entry A} (htried : tried [entry] = [])
    (hreports : reports [entry] = []) (hlog : s'.log = s.log ++ [entry])
    (hcallback : s'.callback = s.callback) (hendpoints : s'.endpoints = s.endpoints)
    (hfound : s'.found = s.found) : Logged env s' := by
  have hr : reports s'.log = reports s.log := by
    rw [hlog, reports_append, hreports, append_nil]
  have ht : tried s'.log = tried s.log := by rw [hlog, tried_append, htried, append_nil]
  refine ⟨?_, fun hshut => ?_, ?_, fun hok => ?_⟩
  · rw [hr, hcallback]
    exact h.once
  · rw [hr, hcallback]
    refine h.kept fun hold => hshut ?_
    rw [hlog]
    exact mem_append_left _ hold
  · rw [ht, hendpoints, hfound]
    exact h.ordered
  obtain ⟨endpoint, hendpoint⟩ := h.success (hr ▸ hok)
  rw [hlog]
  exact ⟨endpoint, hendpoint.append _⟩

lemma Logged.of_eq (h : Logged env s) (hlog : s'.log = s.log) (hcallback : s'.callback = s.callback)
    (hendpoints : s'.endpoints = s.endpoints) (hfound : s'.found = s.found) : Logged env s' := by
  obtain ⟨honce, hkept, hordered, hsuccess⟩ := h
  rw [← hlog, ← hcallback] at honce hkept
  rw [← hlog, ← hendpoints, ← hfound] at hordered
  rw [← hlog] at hsuccess
  exact ⟨honce, hkept, hordered, hsuccess⟩

lemma Logged.take (h : Logged env s) {rest : List (Endpoint A)}
    (hendpoints : s.endpoints = endpoint :: rest) :
    Logged env { s with endpoints := rest, log := s.log ++ [.tried endpoint] } := by
  have hr : reports (s.log ++ [.tried endpoint]) = reports s.log := by
    rw [reports_append]
    exact append_nil _
  refine ⟨?_, fun hshut => ?_, ?_, fun hok => ?_⟩
  · show (reports (s.log ++ [.tried endpoint])).length + _ ≤ 1
    rw [hr]
    exact h.once
  · show (reports (s.log ++ [.tried endpoint])).length + _ = 1
    rw [hr]
    exact h.kept fun hold => hshut (mem_append_left _ hold)
  · show tried (s.log ++ [.tried endpoint]) ++ rest = s.found
    rw [← h.ordered, hendpoints, tried_append, List.append_assoc]
    rfl
  · obtain ⟨endpoint', hendpoint'⟩ := h.success (hr ▸ hok)
    exact ⟨endpoint', hendpoint'.append _⟩

lemma Logged.report (h : Logged env s) (ec : Ec)
    (hec : ec = .ok → ∃ endpoint, Established env s.log endpoint) :
    Logged env (s.report ec) ∧ (s.report ec).callback = false := by
  unfold Stream.report
  by_cases hset : s.callback
  · rw [if_pos hset]
    have hnone : reports s.log = [] := by
      have honce := h.once
      rw [hset, Bool.toNat_true] at honce
      exact List.length_eq_zero_iff.mp (by omega)
    have hr : reports (s.log ++ [.reported ec]) = [ec] := by
      rw [reports_append, hnone]
      rfl
    refine ⟨⟨?_, fun _ => ?_, ?_, fun hok => ?_⟩, rfl⟩
    · show (reports (s.log ++ [.reported ec])).length + 0 ≤ 1
      rw [hr]
      exact le_rfl
    · show (reports (s.log ++ [.reported ec])).length + 0 = 1
      rw [hr]
      rfl
    · show tried (s.log ++ [.reported ec]) ++ s.endpoints = s.found
      rw [← h.ordered, tried_append]
      exact congrArg (· ++ s.endpoints) (append_nil _)
    have hok : .ok ∈ reports (s.log ++ [.reported ec]) := hok
    rw [hr, List.mem_singleton] at hok
    obtain ⟨endpoint, hendpoint⟩ := hec hok.symm
    exact ⟨endpoint, hendpoint.append _⟩
  · rw [if_neg hset]
    exact ⟨h, Bool.eq_false_iff.mpr hset⟩

/-! ## The operations that are outstanding -/

def Busy (s : Stream A) : Prop := s.resolving ≠ none ∨ s.connecting ≠ none ∨ s.shaking ≠ none

structure Idle (s : Stream A) : Prop where
  resolving : s.resolving = none
  connecting : s.connecting = none
  shaking : s.shaking = none

/-- The same with nothing outstanding. -/
structure Resting (env : Env A) (s : Stream A) : Prop extends Logged env s, Idle s

/-- How many completions can still come without a resolution: an endpoint stands for a connection
and a wait, and a connection for a handshake. -/
def load (s : Stream A) : ℕ :=
  4 * s.endpoints.length + 2 * s.connecting.toList.length + s.shaking.toList.length +
    s.timers.length

structure Apart (env : Env A) (s : Stream A) : Prop extends Logged env s where
  dropped : s.closed = true → s.callback = false
  single : s.resolving.toList.length + s.connecting.toList.length + s.shaking.toList.length ≤ 1
  uncancelled : s.closed = false → s.resolving ≠ some true ∧ ∀ p ∈ s.connecting, p.2 = false
  connectingTried : ∀ p ∈ s.connecting, p.1 ∈ tried s.log
  shakingReached : ∀ endpoint ∈ s.shaking, endpoint ∈ tried s.log ∧ .reached endpoint ∈ s.log

/-- What holds between events: while the callback is set, something is outstanding. -/
structure Sound (env : Env A) (s : Stream A) : Prop extends Apart env s where
  busy : s.callback = true → Busy s

lemma Resting.apart (h : Resting env s) (hdropped : s.closed = true → s.callback = false) :
    Apart env s where
  toLogged := h.toLogged
  dropped := hdropped
  single := by
    rw [h.resolving, h.connecting, h.shaking]
    exact Nat.zero_le 1
  uncancelled _ := by
    rw [h.resolving, h.connecting]
    exact ⟨by simp, by simp⟩
  connectingTried := by
    rw [h.connecting]
    simp
  shakingReached := by
    rw [h.shaking]
    simp

lemma Apart.sound (h : Apart env s) (hcallback : s.callback = false) : Sound env s :=
  ⟨h, fun hset => absurd hset (ne_true_of_eq_false hcallback)⟩

section Report

variable (s) (ec : Ec)

lemma load_report : load (s.report ec) = load s := by
  unfold Stream.report
  split_ifs
  · rfl
  · rfl

lemma resolving_report : (s.report ec).resolving = s.resolving := by
  unfold Stream.report
  split_ifs
  · rfl
  · rfl

variable {s}

lemma Idle.report (h : Idle s) : Idle (s.report ec) := by
  unfold Stream.report
  split_ifs
  · exact ⟨h.resolving, h.connecting, h.shaking⟩
  · exact h

end Report

/-! ## What a call leaves -/

/-- The call returns, nothing is left to resolve, and at most `n` completions can come. -/
def Lands (env : Env A) (r : Option (Stream A)) (n : ℕ) : Prop :=
  ∃ s', r = some s' ∧ Sound env s' ∧ load s' ≤ n ∧ s'.resolving = none

section Lands

variable {n : ℕ}

lemma Lands.mono {r : Option (Stream A)} {n' : ℕ} (h : Lands env r n) (hle : n ≤ n') :
    Lands env r n' := by
  obtain ⟨s', hs', hsound, hload, hresolving⟩ := h
  exact ⟨s', hs', hsound, hload.trans hle, hresolving⟩

lemma Resting.lands (h : Resting env s) (hcallback : s.callback = false) (hn : load s ≤ n) :
    Lands env (some s) n :=
  ⟨s, rfl, (h.apart fun _ => hcallback).sound hcallback, hn, h.resolving⟩

lemma Resting.lands_report (h : Resting env s) {ec : Ec}
    (hec : ec = .ok → ∃ endpoint, Established env s.log endpoint) (hn : load s ≤ n) :
    Lands env (some (s.report ec)) n := by
  obtain ⟨hlogged, hcallback⟩ := h.toLogged.report ec hec
  have hrest : Resting env (s.report ec) := ⟨hlogged, h.toIdle.report ec⟩
  exact hrest.lands hcallback (by rwa [load_report])

lemma Resting.lands_fail (h : Resting env s) (e : Err) (hn : load s ≤ n) :
    Lands env (some (s.fail e)) n := by
  have hclosed : Resting env { s with closed := true } := { h with }
  exact hclosed.lands_report (by simp) hn

lemma Idle.sClose (h : Idle s) : Idle (s.sClose env) := by
  refine ⟨h.resolving, ?_, ?_⟩
  · show s.connecting.map _ = none
    rw [h.connecting]
    rfl
  show (if _ then none else s.shaking) = none
  rw [h.shaking]
  split_ifs
  · rfl
  · rfl

lemma Resting.lands_startConnect (h : Resting env s) (hopen : s.closed = false)
    (htried : endpoint ∈ tried s.log) : Lands env (s.startConnect env endpoint) (load s + 3) := by
  unfold Stream.startConnect
  rw [h.connecting]
  dsimp only
  have hstarted : ∀ t : Stream A, Resting env t → t.closed = false → endpoint ∈ tried t.log →
      load t ≤ load s + 1 →
      Lands env (some { t with isOpen := true, connecting := some (endpoint, false) })
        (load s + 3) := by
    intro t ht htopen htried hload
    refine ⟨_, rfl, ⟨⟨{ ht.toLogged with }, ?_, ?_, ?_, ?_, ?_⟩,
      fun _ => Or.inr (Or.inl (by simp))⟩, ?_, ht.resolving⟩
    · intro hshut
      exact absurd hshut (ne_true_of_eq_false htopen)
    · show t.resolving.toList.length + 1 + t.shaking.toList.length ≤ 1
      rw [ht.resolving, ht.shaking]
      exact le_rfl
    · intro _
      refine ⟨?_, ?_⟩
      · show t.resolving ≠ some true
        rw [ht.resolving]
        simp
      intro p hp
      obtain rfl := Option.some.inj hp
      rfl
    · intro p hp
      obtain rfl := Option.some.inj hp
      exact htried
    · show ∀ endpoint ∈ t.shaking, _
      rw [ht.shaking]
      simp
    rw [load, ht.connecting] at hload
    show 4 * t.endpoints.length + 2 * 1 + t.shaking.toList.length + t.timers.length ≤ _
    simp only [Option.toList_none, length_nil] at hload
    omega
  by_cases htimeout : env.connectTimeout ≠ 0
  · rw [if_pos htimeout]
    exact hstarted s.startTimer { h with } hopen htried (by simp [load, Stream.startTimer]; omega)
  · rw [if_neg htimeout]
    exact hstarted s h hopen htried (Nat.le_succ _)

lemma Resting.lands_tryEndpoints (endpoints : List (Endpoint A)) (opens : List (Option Err))
    (h : Resting env s) (hopen : s.closed = false) (hendpoints : s.endpoints = endpoints)
    (hne : endpoints ≠ []) (hn : load s ≤ n + 1) :
    Lands env (Stream.tryEndpoints env endpoints opens s) n := by
  induction endpoints generalizing s opens with
  | nil => exact absurd rfl hne
  | cons endpoint rest ih =>
    obtain ⟨t, ht⟩ : ∃ t : Stream A,
        t = { s with endpoints := rest, log := s.log ++ [.tried endpoint] } := ⟨_, rfl⟩
    have htaken : Resting env t := by
      rw [ht]
      exact ⟨h.take hendpoints, h.resolving, h.connecting, h.shaking⟩
    have hload : load t + 4 = load s := by
      rw [ht, load, load, hendpoints, List.length_cons]
      dsimp only
      omega
    have htried : endpoint ∈ tried t.log := by
      rw [ht]
      show _ ∈ tried (s.log ++ [.tried endpoint])
      rw [tried_append]
      exact List.mem_append_right _ List.mem_cons_self
    have hshape : t.endpoints = rest ∧ t.closed = false := by
      rw [ht]
      exact ⟨rfl, hopen⟩
    -- the next endpoints, or the callback, after an attempt that has left nothing outstanding
    have hgo : ∀ u : Stream A, ∀ e opens, Resting env u → u.endpoints = rest →
        u.closed = false → load u = load t →
        Lands env (if rest ≠ [] then Stream.tryEndpoints env rest opens u else some (u.fail e))
          n := by
      intro u e opens hu hurest huopen huload
      by_cases hrest : rest ≠ []
      · rw [if_pos hrest]
        exact ih opens hu huopen hurest hrest (by omega)
      · rw [if_neg hrest]
        exact hu.lands_fail e (by omega)
    unfold Stream.tryEndpoints
    rw [← ht]
    by_cases hskip : (env.isUnspecified endpoint.address || env.isMulticast endpoint.address)
    · rw [if_pos hskip]
      exact hgo t _ opens htaken hshape.1 hshape.2 rfl
    rw [if_neg hskip]
    obtain ⟨u, hu⟩ : ∃ u, u = if t.isOpen then t.sClose env else t := ⟨_, rfl⟩
    have hfresh : Resting env u ∧ u.endpoints = rest ∧ u.closed = false ∧ load u = load t ∧
        u.log = t.log := by
      rw [hu]
      split_ifs
      · have hidle : Idle (t.sClose env) := htaken.toIdle.sClose
        refine ⟨⟨{ htaken.toLogged with }, hidle⟩, hshape.1, hshape.2, ?_, rfl⟩
        rw [load, load, hidle.connecting, hidle.shaking, htaken.connecting, htaken.shaking]
        rfl
      · exact ⟨htaken, hshape.1, hshape.2, rfl, rfl⟩
    obtain ⟨hures, hurest, huopen, huload, hulog⟩ := hfresh
    dsimp only
    rw [← hu]
    rcases opens.headD none with _ | e
    · exact (hures.lands_startConnect huopen (hulog ▸ htried)).mono (by omega)
    · exact hgo u e opens.tail hures hurest huopen huload

lemma Resting.lands_onConnected (h : Resting env s) (hopen : s.closed = false) {ec : Ec}
    (hec : ec = .ok → ∃ endpoint, Established env s.log endpoint) (opens : List (Option Err)) :
    Lands env (s.onConnected env ec opens) (load s) := by
  have hcancelled : Resting env s.cancelTimer := { h with }
  have hload : load s.cancelTimer = load s := by simp [load, Stream.cancelTimer]
  unfold Stream.onConnected
  dsimp only
  by_cases hok : ec ≠ .ok
  · rw [if_pos hok]
    by_cases hmore : s.cancelTimer.endpoints ≠ []
    · rw [if_pos hmore]
      exact hcancelled.lands_tryEndpoints _ opens hopen rfl hmore (by omega)
    · rw [if_neg hmore]
      exact hcancelled.lands_report (fun h => absurd h hok) hload.le
  rw [if_neg hok]
  have hconnected : Resting env { s.cancelTimer with connected := true } := { hcancelled with }
  exact hconnected.lands_report (fun _ => hec (not_not.mp hok)) hload.le

end Lands

/-! ## One event -/

variable {ec : Ec}

lemma Apart.sound_report (h : Apart env s) (hec : ec ≠ .ok) :
    Sound env (s.report ec) := by
  obtain ⟨hlogged, hcallback⟩ := h.toLogged.report ec fun hok => absurd hok hec
  refine Apart.sound ⟨hlogged, fun _ => hcallback, ?_, ?_, ?_, ?_⟩ hcallback
  all_goals
    unfold Stream.report
    split_ifs
  · exact h.single
  · exact h.single
  · exact h.uncancelled
  · exact h.uncancelled
  · exact fun p hp => mem_tried_append (h.connectingTried p hp) _
  · exact h.connectingTried
  · intro endpoint hendpoint
    obtain ⟨htried, hreached⟩ := h.shakingReached endpoint hendpoint
    exact ⟨mem_tried_append htried _, mem_append_left _ hreached⟩
  · exact h.shakingReached

lemma Apart.sound_close (h : Apart env s) : Sound env (s.close env) := by
  have hnoted : Logged env { s with log := s.log ++ [.shut] } :=
    h.toLogged.note rfl rfl rfl rfl rfl rfl
  have hreached : ∀ endpoint ∈ s.shaking,
      endpoint ∈ tried (s.log ++ [.shut]) ∧ .reached endpoint ∈ s.log ++ [.shut] := by
    intro endpoint hendpoint
    obtain ⟨ht, hr⟩ := h.shakingReached endpoint hendpoint
    exact ⟨mem_tried_append ht _, mem_append_left _ hr⟩
  unfold Stream.close
  dsimp only
  by_cases hclosed : s.closed
  · rw [if_pos hclosed]
    refine Apart.sound ⟨hnoted, h.dropped, h.single, h.uncancelled, ?_, hreached⟩
      (h.dropped hclosed)
    exact fun p hp => mem_tried_append (h.connectingTried p hp) _
  rw [if_neg hclosed]
  refine Apart.sound ⟨⟨?_, ?_, hnoted.ordered, hnoted.success⟩, fun _ => rfl, ?_, ?_, ?_, ?_⟩ rfl
  · exact le_trans (Nat.add_le_add_left (Nat.zero_le _) _) hnoted.once
  · intro hshut
    exact absurd (List.mem_append_right _ List.mem_cons_self) hshut
  · have hsingle := h.single
    show (s.resolving.map _).toList.length + (s.connecting.map _).toList.length +
      (if _ then none else s.shaking).toList.length ≤ 1
    rw [Option.toList_map, Option.toList_map, List.length_map, List.length_map]
    split_ifs
    · exact le_trans (Nat.add_le_add_left (Nat.zero_le _) _) hsingle
    · exact hsingle
  · exact fun hopen => absurd hopen Bool.noConfusion
  · intro p hp
    obtain ⟨q, hq, rfl⟩ := Option.map_eq_some_iff.mp hp
    exact mem_tried_append (h.connectingTried q hq) _
  intro endpoint hendpoint
  have hendpoint : endpoint ∈
      if env.kind = .ssl ∧ s.sslSocket = true then none else s.shaking :=
    hendpoint
  split_ifs at hendpoint
  · exact absurd hendpoint (by simp)
  · exact hreached endpoint hendpoint

/-- A completion takes one of the outstanding operations away: the resolution, or some of the
load. -/
def Advances (s' s : Stream A) : Prop :=
  s'.resolving.isSome = false ∧ s.resolving.isSome = true ∨
    s'.resolving = s.resolving ∧ load s' < load s

lemma Lands.completes {r : Option (Stream A)} {n : ℕ} (h : Lands env r n)
    (hs : s.resolving.isSome = true ∨ s.resolving = none ∧ n < load s) :
    ∃ s', r = some s' ∧ Sound env s' ∧ Advances s' s := by
  obtain ⟨s', hs', hsound, hle, hresolving⟩ := h
  refine ⟨s', hs', hsound, ?_⟩
  rcases hs with hsome | ⟨hnone, hlt⟩
  · exact .inl ⟨by simp [hresolving], hsome⟩
  · exact .inr ⟨hresolving.trans hnone.symm, by omega⟩

lemma Sound.step_resolved (h : Sound env s) {results : List (Endpoint A)}
    (opens : List (Option Err)) (he : Possible s (.resolved ec results opens)) :
    ∃ s', step env s (.resolved ec results opens) = some s' ∧ Sound env s' ∧ Advances s' s := by
  obtain ⟨cancelled, hcancelled, haborted, hresults⟩ := he
  have hsome : s.resolving.isSome = true := by rw [hcancelled]; rfl
  have hrest : s.connecting = none ∧ s.shaking = none := by
    have hsingle := h.single
    rw [hcancelled, Option.toList_some, List.length_singleton] at hsingle
    exact ⟨eq_none_of_length (by omega), eq_none_of_length (by omega)⟩
  have hidle : Resting env { s with resolving := none } :=
    ⟨{ h.toLogged with }, rfl, hrest.1, hrest.2⟩
  -- a stream that was closed has no callback
  have hstopped : s.closed = true → ∃ s', some { s with resolving := none } = some s' ∧
      Sound env s' ∧ Advances s' s :=
    fun hclosed => (hidle.lands (h.dropped hclosed) le_rfl).completes (Or.inl hsome)
  unfold step
  dsimp only
  by_cases hab : ec = .aborted
  · rw [if_pos hab]
    refine hstopped ?_
    by_contra hopen
    exact (h.uncancelled (Bool.eq_false_iff.mpr hopen)).1 (haborted hab ▸ hcancelled)
  rw [if_neg hab]
  by_cases hclosed : s.closed
  · rw [if_pos hclosed]
    exact hstopped hclosed
  have hopen : s.closed = false := Bool.eq_false_iff.mpr hclosed
  rw [if_neg hclosed]
  by_cases hok : ec ≠ .ok
  · rw [if_pos hok]
    exact (hidle.lands_onConnected hopen (fun h => absurd h hok) opens).completes (Or.inl hsome)
  rw [if_neg hok]
  have hpushed : Resting env (Stream.push { s with resolving := none } results) := by
    refine ⟨⟨h.once, h.kept, ?_, h.success⟩, rfl, hrest.1, hrest.2⟩
    show tried s.log ++ (s.endpoints ++ results) = s.found ++ results
    rw [← h.ordered, List.append_assoc]
  have hne : s.endpoints ++ results ≠ [] := by
    simp [hresults (not_not.mp hok)]
  exact (hpushed.lands_tryEndpoints _ opens hopen rfl hne (Nat.le_succ _)).completes
    (Or.inl hsome)

lemma step_connected_eq {cancelled : Bool} (h : s.connecting = some (endpoint, cancelled)) (ec : Ec)
    (opens : List (Option Err)) :
    step env s (.connected ec opens) =
      if ec = .aborted then some { s with connecting := none }
      else if s.closed then some { s with connecting := none }
      else Stream.onAsyncConnected { s with connecting := none } env endpoint ec opens := by
  simp only [step, h, Option.bind_eq_bind, Option.bind_some]

lemma step_handshake_eq (h : s.shaking = some endpoint) (ok confirmFails closes : Bool)
    (opens : List (Option Err)) :
    step env s (.handshake ok confirmFails closes opens) =
      if s.closed then some { s with shaking := none }
      else if !ok then
        Stream.onConnected { s with shaking := none } env (.failed .connectionRefused) opens
      else
        let s : Stream A := { s with shaking := none, log := s.log ++ [.secured endpoint] }
        let s := if confirmFails && closes then s.close env else s
        if s.closed then some s else s.onConnected env .ok opens := by
  simp only [step, h, Option.bind_eq_bind, Option.bind_some]

lemma Sound.step_connected (h : Sound env s) (opens : List (Option Err))
    (he : Possible s (.connected ec opens)) :
    ∃ s', step env s (.connected ec opens) = some s' ∧ Sound env s' ∧ Advances s' s := by
  obtain ⟨⟨endpoint, cancelled⟩, hconnecting, haborted⟩ := he
  have hrest : s.resolving = none ∧ s.shaking = none := by
    have hsingle := h.single
    rw [hconnecting, Option.toList_some, List.length_singleton] at hsingle
    exact ⟨eq_none_of_length (by omega), eq_none_of_length (by omega)⟩
  have hidle : Resting env { s with connecting := none } :=
    ⟨{ h.toLogged with }, hrest.1, rfl, hrest.2⟩
  have hload : load { s with connecting := none } + 2 = load s := by
    rw [load, load, hconnecting]
    simp only [Option.toList_none, Option.toList_some, length_nil, List.length_singleton]
    omega
  have hdone : s.resolving.isSome = true ∨
      s.resolving = none ∧ load { s with connecting := none } + 1 < load s :=
    Or.inr ⟨hrest.1, by omega⟩
  have hstopped : s.closed = true → ∃ s', some { s with connecting := none } = some s' ∧
      Sound env s' ∧ Advances s' s :=
    fun hclosed => (hidle.lands (h.dropped hclosed) (Nat.le_succ _)).completes hdone
  rw [step_connected_eq hconnecting]
  by_cases hab : ec = .aborted
  · rw [if_pos hab]
    refine hstopped ?_
    by_contra hopen
    have hlive := (h.uncancelled (Bool.eq_false_iff.mpr hopen)).2 _ hconnecting
    exact absurd (haborted hab) (ne_true_of_eq_false hlive)
  rw [if_neg hab]
  by_cases hclosed : s.closed
  · rw [if_pos hclosed]
    exact hstopped hclosed
  have hopen : s.closed = false := Bool.eq_false_iff.mpr hclosed
  have htried : endpoint ∈ tried s.log := h.connectingTried _ hconnecting
  rw [if_neg hclosed]
  unfold Stream.onAsyncConnected
  dsimp only
  by_cases hok : ec = .ok
  · rw [if_pos hok]
    have hreached : Resting env
        { s with connecting := none, log := s.log ++ [.reached endpoint] } :=
      ⟨hidle.toLogged.note rfl rfl rfl rfl rfl rfl, hrest.1, rfl, hrest.2⟩
    have htried' : endpoint ∈ tried (s.log ++ [.reached endpoint]) := mem_tried_append htried _
    have hentry : .reached endpoint ∈ s.log ++ [.reached endpoint] :=
      List.mem_append_right _ List.mem_cons_self
    by_cases hssl : env.kind = .ssl
    · rw [if_pos ⟨hssl, hok⟩, hrest.2]
      refine Lands.completes ⟨_, rfl, ⟨⟨{ hreached.toLogged with }, h.dropped, ?_, ?_, by simp, ?_⟩,
        fun _ => Or.inr (Or.inr (by simp))⟩, ?_, hrest.1⟩ hdone
      · show s.resolving.toList.length + 0 + 1 ≤ 1
        rw [hrest.1]
        exact le_rfl
      · intro _
        refine ⟨?_, by simp⟩
        show s.resolving ≠ some true
        rw [hrest.1]
        simp
      · intro endpoint' hendpoint'
        obtain rfl := Option.some.inj hendpoint'
        exact ⟨htried', hentry⟩
      show 4 * s.endpoints.length + 0 + 1 + s.timers.length ≤ load _ + 1
      rw [load]
      dsimp only
      rw [hrest.2]
      simp only [Option.toList_none, length_nil]
      omega
    rw [if_neg (fun hboth => hssl hboth.1)]
    have hlands := hreached.lands_onConnected hopen
      (fun _ : ec = .ok => ⟨endpoint, htried', hentry, fun hs => absurd hs hssl⟩) opens
    exact (hlands.mono (Nat.le_succ _)).completes hdone
  rw [if_neg hok, if_neg (fun hboth => hok hboth.2)]
  have hlands := hidle.lands_onConnected hopen (fun h => absurd h hok) opens
  exact (hlands.mono (Nat.le_succ _)).completes hdone

lemma Sound.step_handshake (h : Sound env s) (ok confirmFails closes : Bool)
    (opens : List (Option Err)) (he : s.shaking ≠ none) :
    ∃ s', step env s (.handshake ok confirmFails closes opens) = some s' ∧ Sound env s' ∧
      Advances s' s := by
  obtain ⟨endpoint, hshaking⟩ := Option.ne_none_iff_exists'.mp he
  have hrest : s.resolving = none ∧ s.connecting = none := by
    have hsingle := h.single
    rw [hshaking, Option.toList_some, List.length_singleton] at hsingle
    exact ⟨eq_none_of_length (by omega), eq_none_of_length (by omega)⟩
  have hidle : Resting env { s with shaking := none } :=
    ⟨{ h.toLogged with }, hrest.1, hrest.2, rfl⟩
  have hload : load { s with shaking := none } + 1 = load s := by
    rw [load, load, hshaking]
    simp only [Option.toList_none, Option.toList_some, length_nil, List.length_singleton]
    omega
  have hdone : s.resolving.isSome = true ∨
      s.resolving = none ∧ load { s with shaking := none } < load s :=
    Or.inr ⟨hrest.1, by omega⟩
  rw [step_handshake_eq hshaking]
  by_cases hclosed : s.closed
  · rw [if_pos hclosed]
    exact (hidle.lands (h.dropped hclosed) le_rfl).completes hdone
  have hopen : s.closed = false := Bool.eq_false_iff.mpr hclosed
  rw [if_neg hclosed]
  cases ok with
  | false =>
    have hlands := hidle.lands_onConnected hopen
      (fun hok : Ec.failed .connectionRefused = .ok => absurd hok (by simp)) opens
    exact hlands.completes hdone
  | true =>
    obtain ⟨htried, hreached⟩ := h.shakingReached endpoint hshaking
    obtain ⟨t, ht⟩ : ∃ t : Stream A,
        t = { s with shaking := none, log := s.log ++ [.secured endpoint] } := ⟨_, rfl⟩
    have hsecured : Resting env t := by
      rw [ht]
      exact ⟨hidle.toLogged.note rfl rfl rfl rfl rfl rfl, hrest.1, hrest.2, rfl⟩
    have htopen : t.closed = false := by rw [ht]; exact hopen
    have htload : load t = load { s with shaking := none } := by
      rw [ht]
      rfl
    have hestablished : Established env t.log endpoint := by
      rw [ht]
      exact ⟨mem_tried_append htried _, mem_append_left _ hreached,
        fun _ => List.mem_append_right _ List.mem_cons_self⟩
    rw [if_neg (by decide)]
    dsimp only
    rw [← ht]
    by_cases hcloses : (confirmFails && closes)
    · have happart : Apart env t := hsecured.apart fun hc =>
        absurd hc (ne_true_of_eq_false htopen)
      have hshut : (t.close env).closed = true := by
        unfold Stream.close
        dsimp only
        rw [if_neg (ne_true_of_eq_false htopen)]
        rfl
      have hcload : (t.close env).resolving = none ∧ load (t.close env) = load t := by
        unfold Stream.close
        dsimp only
        rw [if_neg (ne_true_of_eq_false htopen)]
        simp [Stream.sClose, Stream.cancelTimer, load, hsecured.resolving, hsecured.connecting,
          hsecured.shaking]
      rw [if_pos hcloses, if_pos hshut]
      exact Lands.completes ⟨_, rfl, happart.sound_close, by omega, hcload.1⟩ hdone
    rw [if_neg hcloses, if_neg (ne_true_of_eq_false htopen)]
    have hlands := hsecured.lands_onConnected htopen
      (fun _ : Ec.ok = .ok => ⟨endpoint, hestablished⟩) opens
    exact (hlands.mono htload.le).completes hdone

lemma Sound.step_timer (h : Sound env s) {i : ℕ} (he : Possible s (.timer i ec)) :
    ∃ s', step env s (.timer i ec) = some s' ∧ Sound env s' ∧ Advances s' s := by
  obtain ⟨cancelled, hcancelled, -⟩ := he
  have hi : i < s.timers.length := (List.getElem?_eq_some_iff.mp hcancelled).1
  have happart : ∀ eof, Apart env { s with timers := s.timers.eraseIdx i, eof := eof } :=
    fun _ => { h.toApart with }
  have hload : ∀ eof, load { s with timers := s.timers.eraseIdx i, eof := eof } < load s := by
    intro eof
    rw [load, load]
    dsimp only
    rw [List.length_eraseIdx_of_lt hi]
    omega
  unfold step
  dsimp only
  by_cases hab : ec = .aborted
  · rw [if_pos hab]
    exact ⟨_, rfl, ⟨happart s.eof, h.busy⟩, Or.inr ⟨rfl, hload s.eof⟩⟩
  rw [if_neg hab]
  unfold Stream.onAsyncConnectExpired
  dsimp only
  by_cases hconnected : s.connected
  · rw [if_pos hconnected]
    exact ⟨_, rfl, ⟨happart s.eof, h.busy⟩, Or.inr ⟨rfl, hload s.eof⟩⟩
  rw [if_neg hconnected]
  have hec : (if ec = .ok then Ec.failed .timedOut else ec) ≠ .ok := by
    split_ifs with hok
    · simp
    · exact hok
  refine ⟨_, rfl, (happart true).sound_report hec, Or.inr ⟨?_, ?_⟩⟩
  · rw [resolving_report]
  · rw [load_report]
    exact hload true

/-- The call of `close()`. -/
def Event.isClose : Event A → Bool
  | .close => true
  | _ => false

theorem Sound.step (h : Sound env s) {e : Event A} (he : Possible s e) :
    ∃ s', step env s e = some s' ∧ Sound env s' ∧ (e.isClose = false → Advances s' s) := by
  rcases e with ⟨ec, results, opens⟩ | ⟨ec, opens⟩ | ⟨ok, confirmFails, closes, opens⟩ | ⟨i, ec⟩ | _
  · obtain ⟨s', hs', hsound, hless⟩ := h.step_resolved opens he
    exact ⟨s', hs', hsound, fun _ => hless⟩
  · obtain ⟨s', hs', hsound, hless⟩ := h.step_connected opens he
    exact ⟨s', hs', hsound, fun _ => hless⟩
  · obtain ⟨s', hs', hsound, hless⟩ := h.step_handshake ok confirmFails closes opens he
    exact ⟨s', hs', hsound, fun _ => hless⟩
  · obtain ⟨s', hs', hsound, hless⟩ := h.step_timer he
    exact ⟨s', hs', hsound, fun _ => hless⟩
  · exact ⟨_, rfl, h.toApart.sound_close, fun hclose => absurd hclose (by simp [Event.isClose])⟩

/-! ## Runs -/

lemma resting_new : Resting env (Stream.new : Stream A) :=
  ⟨⟨le_rfl, fun _ => rfl, rfl, fun h => absurd h (by simp [Stream.new, reports])⟩, rfl, rfl, rfl⟩

lemma resting_pushed (endpoints : List (Endpoint A)) :
    Resting env (Stream.new.push endpoints) :=
  { resting_new with ordered := rfl }

lemma sound_asyncConnect (env : Env A) (init : Option Err) (opens : List (Option Err)) :
    ∃ s, Stream.asyncConnect env init opens = some s ∧ Sound env s := by
  have hlands : ∀ {r : Option (Stream A)} {n : ℕ}, Lands env r n → ∃ s, r = some s ∧ Sound env s :=
    fun ⟨s, hs, hsound, _⟩ => ⟨s, hs, hsound⟩
  have hpushed : ∀ endpoints, endpoints ≠ [] →
      ∃ s, (Stream.new.push endpoints).onTryNextEndpoint env opens = some s ∧ Sound env s :=
    fun endpoints hne => hlands
      ((resting_pushed endpoints).lands_tryEndpoints endpoints opens rfl rfl hne (Nat.le_succ _))
  unfold Stream.asyncConnect
  dsimp only
  by_cases hport : env.port = 0
  · rw [if_pos hport]
    exact hlands (resting_new.lands_fail _ le_rfl)
  rw [if_neg hport]
  by_cases hips : env.hostIps ≠ []
  · rw [if_pos hips]
    by_cases hparsed : (Stream.new.push (Stream.parsed env)).endpoints = []
    · rw [if_pos hparsed]
      exact hlands ((resting_pushed _).lands_fail _ le_rfl)
    · rw [if_neg hparsed]
      exact hpushed _ hparsed
  rw [if_neg hips]
  rcases env.makeAddress env.hostSni with _ | addr
  · rcases init with _ | e
    · refine ⟨_, rfl, ⟨{ resting_new.toLogged with }, by simp [Stream.new], le_rfl, ?_, by
        simp [Stream.new], by simp [Stream.new]⟩, fun _ => Or.inl (by simp)⟩
      exact fun _ => ⟨by simp, by simp [Stream.new]⟩
    · exact hlands (resting_new.lands_fail e le_rfl)
  · exact hpushed _ (by simp)

lemma Sound.no_infinite_run (h : Sound env s) :
    ¬∃ f : ℕ → Stream A, f 0 = s ∧ ∀ n, ∃ e : Event A, e.isClose = false ∧ Possible (f n) e ∧
      Connecting.step env (f n) e = some (f (n + 1)) := by
  rintro ⟨f, rfl, hf⟩
  have hsound : ∀ n, Sound env (f n) := by
    intro n
    induction n with
    | zero => exact h
    | succ n ih =>
      obtain ⟨e, -, hpossible, hstep⟩ := hf n
      obtain ⟨s', hs', hsound, -⟩ := ih.step hpossible
      exact Option.some.inj (hstep.symm.trans hs') ▸ hsound
  have hadvances : ∀ n, Advances (f (n + 1)) (f n) := by
    intro n
    obtain ⟨e, hclose, hpossible, hstep⟩ := hf n
    obtain ⟨s', hs', -, hless⟩ := (hsound n).step hpossible
    exact Option.some.inj (hstep.symm.trans hs') ▸ hless hclose
  have hdescends : ∀ n, toLex ((f (n + 1)).resolving.isSome.toNat, load (f (n + 1))) <
      toLex ((f n).resolving.isSome.toNat, load (f n)) := by
    intro n
    rw [Prod.Lex.toLex_lt_toLex]
    rcases hadvances n with ⟨hnone, hsome⟩ | ⟨hsame, hless⟩
    · exact .inl (by rw [hnone, hsome]; exact Nat.zero_lt_one)
    · exact .inr ⟨by rw [hsame], hless⟩
  obtain ⟨n, hn⟩ := WellFounded.not_rel_apply_succ (r := (· < ·))
    fun n => toLex ((f n).resolving.isSome.toNat, load (f n))
  exact hn (hdescends n)

/-- `async_connect` and every order of completions, expiries and calls of `close()`: no step
faults, and the callback runs at most once. While `close()` was not called, it has run exactly once,
or something is outstanding that is not the timer, and completions come to an end. It runs with
success only if some endpoint was reached, and secured for a `ssl_stream`. Endpoints are tried in
the order in which they were found, each once. -/
theorem connect_completes (env : Env A) (init : Option Err) (opens : List (Option Err)) :
    ∃ s₀, Stream.asyncConnect env init opens = some s₀ ∧
      ∀ es, Run.Along (step env) Possible s₀ es →
        ∃ s, Run.exec (step env) s₀ es = some s ∧ (reports s.log).length ≤ 1 ∧
          (.shut ∉ s.log → (reports s.log).length = 1 ∨ reports s.log = [] ∧ Busy s) ∧
          (.ok ∈ reports s.log → ∃ endpoint, Established env s.log endpoint) ∧
          tried s.log <+: s.found ∧
          ¬∃ f : ℕ → Stream A, f 0 = s ∧ ∀ n, ∃ e : Event A, e.isClose = false ∧
            Possible (f n) e ∧ step env (f n) e = some (f (n + 1)) := by
  obtain ⟨s₀, hs₀, hsound₀⟩ := sound_asyncConnect env init opens
  refine ⟨s₀, hs₀, fun es hes => ?_⟩
  have hstep : ∀ s e, Sound env s → Possible s e → ∃ s', step env s e = some s' ∧ Sound env s' := by
    intro s e hs he
    obtain ⟨s', hs', hsound, -⟩ := hs.step he
    exact ⟨s', hs', hsound⟩
  obtain ⟨s, hs, hsound⟩ := Run.exec_invariant hstep hsound₀ hes
  refine ⟨s, hs, ?_, fun hshut => ?_, hsound.success, ⟨s.endpoints, hsound.ordered⟩,
    hsound.no_infinite_run⟩
  · have honce := hsound.once
    omega
  have hkept := hsound.kept hshut
  by_cases hset : s.callback = true
  · rw [hset, Bool.toNat_true] at hkept
    exact Or.inr ⟨List.length_eq_zero_iff.mp (by omega), hsound.busy hset⟩
  · rw [Bool.eq_false_iff.mpr hset] at hkept
    exact Or.inl hkept

/-- A host with two addresses, of one digit each: `1;xx;2`. -/
def sampleEnv : Env ℕ where
  kind := .ssl
  connectTimeout := 10
  makeAddress text := match text with
    | [digit] => some (digit.toNat - 48)
    | _ => none
  isUnspecified _ := false
  isMulticast _ := false
  hostIps := [49, 59, 120, 120, 59, 50]
  hostSni := []
  port := 443

/-- The first endpoint refuses, although its timer has expired before; the expiry is handled while
the second one is tried, and that one succeeds later. -/
theorem connect_completes_sample :
    ∃ s, (Stream.asyncConnect sampleEnv none []).bind (fun s₀ => Run.exec (step sampleEnv) s₀
        [.connected (.failed .connectionRefused) [], .timer 0 .ok, .connected .ok [],
          .handshake true false false []]) = some s ∧
      reports s.log = [.failed .timedOut] ∧ tried s.log = [⟨1, 443⟩, ⟨2, 443⟩] ∧
      (reports s.log).length ≤ 1 := by
  obtain ⟨s₀, hs₀, hrun⟩ := connect_completes sampleEnv none []
  have hstart : Stream.asyncConnect sampleEnv none [] = some _ := rfl
  obtain rfl := Option.some.inj (hs₀.symm.trans hstart)
  obtain ⟨s, hs, honce, -⟩ := hrun [.connected (.failed .connectionRefused) [], .timer 0 .ok,
    .connected .ok [], .handshake true false false []] (by decide)
  refine ⟨s, hs, ?_, ?_, honce⟩
  all_goals
    obtain rfl := Option.some.inj hs
    rfl

end Yass.Net.Connecting
