import Yass.Lib.Run
import Yass.Net.HttpRequest
import Yass.Net.Socks4Request
import Yass.Net.Socks5Request

/-!
# The SOCKS handshakes of the client

What `CliConnection` does for an application that speaks SOCKS: the first read is tried as a SOCKS5
method selection, then as a SOCKS4 request, and is an HTTP request otherwise.

* `performCmdOpsV5`, `performCmdOpsV4` — the tests on a request; a request that is refused is
  answered, and nothing is connected.

What comes behind a message is left out here, and so is `redir_mode`.

Source: `cli/cli_connection.cpp`.
-/

namespace Yass.Cli.Socks

open Yass.Net

structure Environment where
  makeAddress : List UInt8 → Option Ss.IpAddress
  /-- `CIPHER_METHOD_IS_SOCKS_NON_DOMAIN_NAME(method())`. -/
  nonDomainName : Bool
  junk : ℕ → UInt8
  beyond : ℕ → UInt8

inductive Stage where
  | methodSelect
  | writeMethodSelect
  | socks5Handshake
  | http
  | stream
  deriving DecidableEq, Repr

/-- A `CliConnection` during the handshake. -/
structure Connection where
  stage : Stage
  closed : Bool
  /-- `resolver_.AsyncResolve` is under way. -/
  resolving : Bool
  /-- What `OnConnect` was executed for. -/
  connects : List Ss.Asked
  deriving DecidableEq, Repr

def start : Connection := ⟨.methodSelect, false, false, []⟩

inductive Event where
  | readable (outcome : ReadOutcome)
  | written (ok : Bool)
  | resolved (result : Option Ss.Endpoint)

namespace Connection

variable (env : Environment)

def onDisconnect (s : Connection) : Connection := { s with closed := true }

/-- `OnConnect`, with `request_` for `asked`. -/
def onConnect (s : Connection) (asked : Ss.Asked) : Connection :=
  { s with connects := s.connects ++ [asked] }

/-- `OnCmdConnect` for a name. -/
def onCmdConnect (s : Connection) (domainName : List UInt8) (port : ℕ) : Connection :=
  match env.makeAddress domainName with
  | some a => s.onConnect ⟨a.atyp, a.bytes, port⟩
  | none =>
    if env.nonDomainName then { s with resolving := true }
    else s.onConnect ⟨.domain, domainName, port⟩

/-- The callback of `AsyncResolve`. -/
def onResolved (s : Connection) (result : Option Ss.Endpoint) : Connection :=
  let s := { s with resolving := false }
  match result with
  | none => s.onDisconnect
  | some endpoint =>
    if endpoint.address.unspecified || endpoint.port == 0 then s.onDisconnect
    else s.onConnect ⟨endpoint.address.atyp, endpoint.address.bytes, endpoint.port⟩

def performCmdOpsV5 (s : Connection) (request : Socks5.Request) : Connection :=
  if request.command ≠ Socks5.cmdConnect then s
  else if request.invalid then s
  else
    match request.addressType with
    | .domain => s.onCmdConnect env request.address request.port
    | .ipv4 | .ipv6 => s.onConnect request.asked

def performCmdOpsV4 (s : Connection) (request : Socks4.Request) : Connection :=
  if request.command ≠ Socks4.cmdConnect then s
  else if request.invalid then s
  else if request.isSocks4a then
    if request.domainName.length > tlsextMaxlenHostName then s
    else s.onCmdConnect env request.domainName request.port
  else s.onConnect request.asked

/-- `ReadMethodSelect` with `ProcessReceivedData`, for the bytes of the first read. -/
def onReadMethodSelect (s : Connection) (buf : GrowableIOBuffer) : Connection :=
  match Socks5.methodSelectParse buf.readable with
  | (.good, methods) =>
    if Socks5.noAuthRequired ∈ methods then { s with stage := .writeMethodSelect }
    else s.onDisconnect
  | _ =>
    match Socks4.requestParse buf.readable with
    | (.good, some request) => { s with stage := .stream }.performCmdOpsV4 env request
    | _ => { s with stage := .http }

/-- `ReadSocks5Handshake` with `ProcessReceivedData`, for the bytes of a read. -/
def onReadSocks5Handshake (s : Connection) (buf : GrowableIOBuffer) : Connection :=
  match Socks5.requestParse (fun i => (buf.readable[i]?).getD (env.beyond i)) buf.size with
  | (.good, some request) => { s with stage := .stream }.performCmdOpsV5 env request
  | _ => s.onDisconnect

/-- A read of the application's socket, for the handler `onRead`. -/
def read (s : Connection) (onRead : GrowableIOBuffer → Connection) :
    ReadOutcome → Option Connection
  | .wouldBlock => some s
  | .error => some s.onDisconnect
  | .data bytes => do
    let buf ← GrowableIOBuffer.readSome env.junk socketBufSize bytes
    some (onRead buf)

end Connection

/-- One event. What a stage does not wait for does not happen to it. -/
def step (env : Environment) (s : Connection) (e : Event) : Option Connection :=
  if s.closed then some s
  else
    match s.stage, e with
    | .methodSelect, .readable r => s.read env (s.onReadMethodSelect env) r
    | .writeMethodSelect, .written ok =>
      some (if ok then { s with stage := .socks5Handshake } else s.onDisconnect)
    | .socks5Handshake, .readable r => s.read env (s.onReadSocks5Handshake env) r
    | _, .resolved result => some (if s.resolving then s.onResolved result else s)
    | _, _ => some s

section Step

variable {env : Environment} {s s' : Connection}

/-- **Rule for one step.** What the handlers of the stages keep is kept. -/
lemma step_keeps {P : Connection → Prop} (h : P s) (hclose : P s.onDisconnect)
    (hwritten : s.stage = .writeMethodSelect → P { s with stage := .socks5Handshake })
    (hselect : s.stage = .methodSelect → ∀ buf, P (s.onReadMethodSelect env buf))
    (hrequest : s.stage = .socks5Handshake → ∀ buf, P (s.onReadSocks5Handshake env buf))
    (hresolved : s.resolving → ∀ result, P (s.onResolved result)) {e : Event}
    (hstep : step env s e = some s') : P s' := by
  have hread : ∀ {onRead : GrowableIOBuffer → Connection} {outcome : ReadOutcome},
      (∀ buf, P (onRead buf)) → s.read env onRead outcome = some s' → P s' := by
    intro onRead outcome honRead hread
    cases outcome with
    | wouldBlock =>
      cases hread
      exact h
    | error =>
      cases hread
      exact hclose
    | data bytes =>
      obtain ⟨buf, -, hbuf⟩ := Option.bind_eq_some_iff.mp hread
      cases hbuf
      exact honRead buf
  unfold Socks.step at hstep
  by_cases hclosed : s.closed
  · rw [if_pos hclosed] at hstep
    cases hstep
    exact h
  rw [if_neg hclosed] at hstep
  split at hstep
  · next hstage => exact hread (hselect hstage) hstep
  · next hstage =>
    cases hstep
    split_ifs
    · exact hwritten hstage
    · exact hclose
  · next hstage => exact hread (hrequest hstage) hstep
  · cases hstep
    split_ifs with hresolving
    · exact hresolved hresolving _
    · exact h
  · cases hstep
    exact h

end Step

/-! ## What is connected to -/

/-- Everything that `OnConnect` was executed for is a destination. -/
def Checked (s : Connection) : Prop := ∀ asked ∈ s.connects, asked.Proper

section Checked

variable {env : Environment} {s s' : Connection}

lemma Checked.onConnect (h : Checked s) {asked : Ss.Asked} (hasked : asked.Proper) :
    Checked (s.onConnect asked) := by
  intro other hother
  rcases List.mem_append.mp hother with hother | hother
  · exact h other hother
  · rw [List.mem_singleton.mp hother]
    exact hasked

lemma Checked.onCmdConnect (h : Checked s) {name : List UInt8} {port : ℕ} (hpos : name ≠ [])
    (hle : name.length ≤ 255) (hlt : port < 65536) (hne : port ≠ 0) :
    Checked (s.onCmdConnect env name port) := by
  unfold Connection.onCmdConnect
  cases env.makeAddress name with
  | some a => exact h.onConnect (a.proper hlt hne)
  | none =>
    dsimp only
    split_ifs
    · exact h
    · exact h.onConnect (Ss.proper_domain hpos hle hlt hne)

lemma Checked.onResolved (h : Checked s) (result : Option Ss.Endpoint) :
    Checked (s.onResolved result) := by
  cases result with
  | none => exact h
  | some endpoint =>
    simp only [Connection.onResolved]
    split_ifs with hbad
    · exact h
    · simp only [Bool.or_eq_true, not_or, beq_iff_eq] at hbad
      exact Checked.onConnect h (endpoint.address.proper endpoint.port_lt hbad.2)

lemma Checked.performCmdOpsV5 (h : Checked s) {mem : ℕ → UInt8} {n : ℕ} {r : Socks5.Request}
    (hparse : Socks5.requestParse mem n = (.good, some r)) :
    Checked (s.performCmdOpsV5 env r) := by
  unfold Connection.performCmdOpsV5
  split_ifs with hcommand hinvalid
  · exact h
  · exact h
  have hproper := Socks5.Request.proper_asked hparse (by simpa using hinvalid)
  cases htype : r.addressType with
  | ipv4 => exact h.onConnect hproper
  | ipv6 => exact h.onConnect hproper
  | domain =>
    obtain ⟨dest, hdest, hport⟩ := hproper
    have hok := dest.address_ok
    simp only [Ss.Destination.asked, Socks5.Request.asked, Ss.Asked.mk.injEq] at hdest
    obtain ⟨hatyp, haddress, hport'⟩ := hdest
    rw [hatyp, htype, haddress] at hok
    rw [hport'] at hport
    exact h.onCmdConnect (List.length_pos_iff.mp hok.1) hok.2
      (hport' ▸ dest.port_lt) hport

lemma Checked.performCmdOpsV4 (h : Checked s) {bytes : List UInt8} {r : Socks4.Request}
    (hparse : Socks4.requestParse bytes = (.good, some r)) :
    Checked (s.performCmdOpsV4 env r) := by
  unfold Connection.performCmdOpsV4
  split_ifs with hcommand hinvalid hsocks4a hlong
  · exact h
  · exact h
  · exact h
  · have hvalid : r.invalid = false := by simpa using hinvalid
    obtain ⟨-, hlt, -⟩ := Socks4.requestParse_good hparse
    simp only [Socks4.Request.invalid, Bool.or_eq_false_iff, beq_eq_false_iff_ne] at hvalid
    have hname : r.domainName ≠ [] := by simpa [hsocks4a] using hvalid.1.2
    exact h.onCmdConnect hname (Nat.le_of_not_lt hlong) hlt hvalid.1.1
  · have hvalid : r.invalid = false := by simpa using hinvalid
    exact h.onConnect (Socks4.Request.proper_asked hparse hvalid fun hyes => absurd hyes hsocks4a)

lemma Checked.onReadMethodSelect (h : Checked s) (buf : GrowableIOBuffer) :
    Checked (s.onReadMethodSelect env buf) := by
  have hstream : Checked { s with stage := .stream } := h
  unfold Connection.onReadMethodSelect
  split
  · split_ifs
    · exact h
    · exact h
  split
  · rename_i hparse
    exact hstream.performCmdOpsV4 hparse
  · exact h

lemma Checked.onReadSocks5Handshake (h : Checked s) (buf : GrowableIOBuffer) :
    Checked (s.onReadSocks5Handshake env buf) := by
  have hstream : Checked { s with stage := .stream } := h
  unfold Connection.onReadSocks5Handshake
  split
  · rename_i hparse
    exact hstream.performCmdOpsV5 hparse
  · exact h

lemma Checked.step (h : Checked s) {e : Event} (hstep : step env s e = some s') : Checked s' :=
  step_keeps h h (fun _ => h) (fun _ => h.onReadMethodSelect) (fun _ => h.onReadSocks5Handshake)
    (fun _ => h.onResolved) hstep

/-- **Every run.** What `OnConnect` is executed for is a destination. -/
theorem proper_of_connects {es : List Event} (hrun : Run.exec (Socks.step env) start es = some s) :
    Checked s := by
  have hstart : Checked start := fun _ hnone => by cases hnone
  exact Run.exec_keeps (fun _ _ _ h hstep => h.step hstep) hstart hrun

/-- `OnConnect` was executed, or a name is being resolved for it, once at most, and not before
there was a request. -/
def Once (s : Connection) : Prop :=
  s.connects.length + s.resolving.toNat ≤ if s.stage = .stream then 1 else 0

lemma Once.performCmdOpsV5 (h : Once s) (hstage : s.stage ≠ .stream) (request : Socks5.Request) :
    Once ({ s with stage := .stream }.performCmdOpsV5 env request) := by
  rw [Once, if_neg hstage] at h
  unfold Connection.performCmdOpsV5 Connection.onCmdConnect
  repeat' split
  all_goals simp_all [Once, Connection.onConnect]

lemma Once.performCmdOpsV4 (h : Once s) (hstage : s.stage ≠ .stream) (request : Socks4.Request) :
    Once ({ s with stage := .stream }.performCmdOpsV4 env request) := by
  rw [Once, if_neg hstage] at h
  unfold Connection.performCmdOpsV4 Connection.onCmdConnect
  repeat' split
  all_goals simp_all [Once, Connection.onConnect]

lemma Once.onResolved (h : Once s) (hresolving : s.resolving) (result : Option Ss.Endpoint) :
    Once (s.onResolved result) := by
  rw [Once, hresolving, Bool.toNat_true] at h
  cases result with
  | none => exact (Nat.le_succ _).trans h
  | some endpoint =>
    simp only [Connection.onResolved]
    split_ifs
    · exact (Nat.le_succ _).trans h
    · rw [Once, Connection.onConnect, List.length_append]
      exact h

lemma Once.step (h : Once s) {e : Event} (hstep : step env s e = some s') : Once s' := by
  refine step_keeps h h (fun hstage => ?_) (fun hstage buf => ?_) (fun hstage buf => ?_)
    (fun hresolving => h.onResolved hresolving) hstep
  · simpa [Once, hstage] using h
  · unfold Connection.onReadMethodSelect
    repeat' split
    · simpa [Once, hstage] using h
    · exact h
    · exact h.performCmdOpsV4 (by simp [hstage]) _
    · simpa [Once, hstage] using h
  · unfold Connection.onReadSocks5Handshake
    split
    · exact h.performCmdOpsV5 (by simp [hstage]) _
    · exact h

/-- What `OnCmdConnect` for a name leads to, at once or when the name is resolved. -/
def CmdConnects (env : Environment) (name : List UInt8) (port : ℕ) (asked : Ss.Asked) : Prop :=
  asked ∈ (start.onCmdConnect env name port).connects ∨
    (start.onCmdConnect env name port).resolving = true ∧
      ∃ result, asked ∈ ((start.onCmdConnect env name port).onResolved result).connects

lemma proper_of_cmdConnects {name : List UInt8} {port : ℕ} {asked : Ss.Asked} (hpos : name ≠ [])
    (hle : name.length ≤ 255) (hlt : port < 65536) (hne : port ≠ 0)
    (h : CmdConnects env name port asked) : asked.Proper := by
  have hstart : Checked start := fun _ hnone => by cases hnone
  have hcmd : Checked (start.onCmdConnect env name port) := hstart.onCmdConnect hpos hle hlt hne
  rcases h with hnow | ⟨-, result, hlater⟩
  · exact hcmd asked hnow
  · exact hcmd.onResolved result asked hlater

end Checked

end Yass.Cli.Socks
