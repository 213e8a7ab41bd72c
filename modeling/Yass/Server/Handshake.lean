import Yass.Lib.Run
import Yass.Net.HttpRequest
import Yass.Net.Socks4Request
import Yass.Net.Socks5Request

/-!
# The SOCKS and HTTPS handshakes of the server

* `Credentials`, `verifyProxyAuthorizationIdentity` — the configured user name and password, and the
  check of a `Proxy-Authorization` value.

`DoPeek` only makes a read happen at once, so it is a read like any other here.

Source: `server/server_connection.cpp`.
-/

namespace Yass.Server

open Yass.Net
open Option (bind_eq_bind bind_eq_some_iff bind_some)

/-! ## Credentials -/

/-- `username` and `password` of the local configuration. -/
structure Credentials where
  username : List UInt8
  password : List UInt8
  deriving DecidableEq, Repr

def Credentials.authRequired (cfg : Credentials) : Bool :=
  !cfg.username.isEmpty && !cfg.password.isEmpty

/-- `kBasicAuthPrefix`, `"basic "`. -/
def kBasicAuthPrefix : List UInt8 := [98, 97, 115, 105, 99, 32]

def verifyProxyAuthorizationIdentity (base64Decode : List UInt8 → Option (List UInt8))
    (auth : List UInt8) (cfg : Credentials) : Bool :=
  if auth.length ≤ kBasicAuthPrefix.length then false
  else if (auth.take kBasicAuthPrefix.length).map toLowerAscii ≠ kBasicAuthPrefix then false
  else
    match base64Decode (auth.drop kBasicAuthPrefix.length) with
    | none => false
    | some pass => pass == cfg.username ++ [58] ++ cfg.password

/-- An authorization value that carries the credentials: the scheme `basic`, in any case, and a text
that decodes to `username:password`. -/
def Credentials.CarriedBy (cfg : Credentials) (base64Decode : List UInt8 → Option (List UInt8))
    (auth : List UInt8) : Prop :=
  ∃ scheme text, auth = scheme ++ text ∧ scheme.map toLowerAscii = kBasicAuthPrefix ∧
    base64Decode text = some (cfg.username ++ [58] ++ cfg.password)

lemma carriedBy_of_verify {base64Decode : List UInt8 → Option (List UInt8)} {auth : List UInt8}
    {cfg : Credentials} (h : verifyProxyAuthorizationIdentity base64Decode auth cfg) :
    cfg.CarriedBy base64Decode auth := by
  unfold verifyProxyAuthorizationIdentity at h
  split_ifs at h with hshort hscheme
  rw [not_not] at hscheme
  refine ⟨_, _, (List.take_append_drop kBasicAuthPrefix.length auth).symm, hscheme, ?_⟩
  cases hdec : base64Decode (auth.drop kBasicAuthPrefix.length) with
  | none => simp [hdec] at h
  | some pass =>
    rw [hdec] at h
    rw [eq_of_beq h]

namespace Socks5

open Yass.Net.Socks5

/-! ## SOCKS5: the stages -/

inductive Stage where
  | readMethodSelect
  | writeMethodSelect
  | readAuth
  | writeAuth
  | readRequest
  | writeResponse
  | stream
  deriving DecidableEq, Repr

/-- A `ServerConnection` with method `socks5` or `socks5h`. -/
structure Connection where
  stage : Stage
  closed : Bool
  /-- `handshake_pending_buf_`. -/
  pending : Option GrowableIOBuffer
  /-- `request_`, as it was asked for. -/
  request : Option Net.Socks5.Request
  upstream : List GrowableIOBuffer
  /-- The requests with which `OnConnect` was executed. -/
  connects : List (Option Net.Socks5.Request)
  received : List UInt8

inductive Event where
  | readable (outcome : ReadOutcome)
  | writable (outcome : WriteOutcome)
  deriving DecidableEq, Repr

def start : Connection := ⟨.readMethodSelect, false, none, none, [], [], []⟩

namespace Connection

variable (junk beyond : ℕ → UInt8) (cfg : Credentials)

def onDisconnect (s : Connection) : Connection := { s with closed := true }

def readSome (s : Connection) (bytes : List UInt8) : Option (Connection × GrowableIOBuffer) := do
  let buf ← GrowableIOBuffer.readSome junk socketDebufSize bytes
  some ({ s with received := s.received ++ bytes }, buf)

def readHandshakeViaSocks (s : Connection) : Connection := { s with stage := .readMethodSelect }

/-- The part of `OnReadHandshakeViaSocks` behind the read. -/
def methodSelect (s : Connection) (buf : GrowableIOBuffer) : Option Connection :=
  match methodSelectParse buf.readable with
  | (.good, methods) => do
    let buf ← buf.setOffset (buf.offset + methodSelectLength methods)
    let wanted := if cfg.authRequired then usernameOrPassword else noAuthRequired
    if wanted ∈ methods then
      some { s with pending := some buf, stage := .writeMethodSelect }
    else some s.onDisconnect
  | _ => some s.onDisconnect

/-- The part of `OnReadSocks5UsernamePasswordAuth` behind the read. -/
def authenticate (s : Connection) (buf : GrowableIOBuffer) : Option Connection :=
  match authParse buf.readable with
  | (.good, authRequest) => do
    let buf ← buf.setOffset (buf.offset + authRequest.length)
    if authRequest.username ≠ cfg.username ∨ authRequest.password ≠ cfg.password then
      some s.onDisconnect
    else some { s with pending := some buf, stage := .writeAuth }
  | _ => some s.onDisconnect

def invalid (r : Net.Socks5.Request) : Bool :=
  r.port == 0 || (r.addressType == .domain && r.address.isEmpty) ||
    (r.addressType != .domain && r.address.all (· == 0))

/-- The part of `OnReadHandshakeViaSocks5` behind the read. -/
def handshake (s : Connection) (buf : GrowableIOBuffer) : Option Connection :=
  match requestParse (fun i => (buf.readable[i]?).getD (beyond i)) buf.size with
  | (.good, some request) => do
    let buf ← buf.setOffset (buf.offset + request.length)
    if invalid request then some s.onDisconnect
    else some { s with request := some request, pending := some buf, stage := .writeResponse }
  | _ => some s.onDisconnect

/-- `ReadSocks5UsernamePasswordAuth`. With bytes pending the message is parsed at once. -/
def readSocks5UsernamePasswordAuth (s : Connection) : Option Connection :=
  match s.pending with
  | none => none
  | some buf =>
    if buf.isEmpty then some { s with stage := .readAuth }
    else authenticate cfg { s with pending := none } buf

def readHandshakeViaSocks5 (s : Connection) : Option Connection :=
  match s.pending with
  | none => none
  | some buf =>
    if buf.isEmpty then some { s with stage := .readRequest }
    else handshake beyond { s with pending := none } buf

def onReadHandshakeViaSocks (s : Connection) : ReadOutcome → Option Connection
  | .wouldBlock => some s.readHandshakeViaSocks
  | .error => some s.onDisconnect
  | .data bytes => do
    let (s, buf) ← s.readSome junk bytes
    s.methodSelect cfg buf

/-- `OnReadSocks5UsernamePasswordAuth` with nothing pending. -/
def onReadSocks5UsernamePasswordAuth (s : Connection) : ReadOutcome → Option Connection
  | .wouldBlock => readSocks5UsernamePasswordAuth cfg { s with pending := none }
  | .error => some { s with pending := none }.onDisconnect
  | .data bytes => do
    let (s, buf) ← { s with pending := none }.readSome junk bytes
    s.authenticate cfg buf

/-- `OnReadHandshakeViaSocks5` with nothing pending. A read that would block goes back to the first
stage. -/
def onReadHandshakeViaSocks5 (s : Connection) : ReadOutcome → Option Connection
  | .wouldBlock => some { s with pending := none }.readHandshakeViaSocks
  | .error => some { s with pending := none }.onDisconnect
  | .data bytes => do
    let (s, buf) ← { s with pending := none }.readSome junk bytes
    s.handshake beyond buf

/-- The callback of `WriteMethodSelectResponse`: two bytes. -/
def onWriteMethodSelect (s : Connection) (outcome : WriteOutcome) : Option Connection :=
  if outcome ≠ .written 2 then some s.onDisconnect
  else if cfg.authRequired then s.readSocks5UsernamePasswordAuth cfg
  else s.readHandshakeViaSocks5 beyond

/-- The callback of `WriteUsernamePasswordAuthResponse`: two bytes. -/
def onWriteAuth (s : Connection) (outcome : WriteOutcome) : Option Connection :=
  if outcome ≠ .written 2 then some s.onDisconnect else s.readHandshakeViaSocks5 beyond

def replyLength (s : Connection) : ℕ :=
  match s.request with
  | some ⟨_, .ipv6, _, _⟩ => 22
  | _ => 10

/-- The callback of `WriteHandshakeResponse`: the reply, then `ProcessReceivedData` with what is
pending, which executes `OnConnect`. -/
def onWriteResponse (s : Connection) (outcome : WriteOutcome) : Option Connection :=
  if outcome ≠ .written s.replyLength then some s.onDisconnect
  else
    match s.pending with
    | none => none
    | some buf => some { s with
        pending := none
        stage := .stream
        connects := s.connects ++ [s.request]
        upstream := if buf.isEmpty then s.upstream else s.upstream ++ [buf] }

end Connection

def step (junk beyond : ℕ → UInt8) (cfg : Credentials) (s : Connection) (e : Event) :
    Option Connection :=
  if s.closed then some s
  else
    match s.stage, e with
    | .readMethodSelect, .readable r => s.onReadHandshakeViaSocks junk cfg r
    | .writeMethodSelect, .writable w => s.onWriteMethodSelect beyond cfg w
    | .readAuth, .readable r => s.onReadSocks5UsernamePasswordAuth junk cfg r
    | .writeAuth, .writable w => s.onWriteAuth beyond w
    | .readRequest, .readable r => s.onReadHandshakeViaSocks5 junk beyond r
    | .writeResponse, .writable w => s.onWriteResponse w
    | _, _ => some s

/-! ## SOCKS5: the gate -/

/-- The last method selection that was accepted offered user name and password, and `rest` is what
came behind it. -/
def Offered (received rest : List UInt8) : Prop :=
  ∃ before methods, usernameOrPassword ∈ methods ∧
    received = before ++ methodSelectMessage methods ++ rest

/-- The client has offered to authenticate, and then sent the configured user name and password. -/
def Presented (cfg : Credentials) (received : List UInt8) : Prop :=
  ∃ rest, Offered received (authMessage cfg.username cfg.password ++ rest)

lemma Presented.append {cfg : Credentials} {received : List UInt8} (h : Presented cfg received)
    (bytes : List UInt8) : Presented cfg (received ++ bytes) := by
  obtain ⟨rest, before, methods, hmem, rfl⟩ := h
  exact ⟨rest ++ bytes, before, methods, hmem, by simp⟩

def Reached (cfg : Credentials) (s : Connection) : Prop :=
  match s.stage with
  | .readMethodSelect => True
  | .writeMethodSelect => ∃ buf, s.pending = some buf ∧ Offered s.received buf.readable
  | .readAuth => Offered s.received []
  | .writeAuth | .readRequest | .writeResponse | .stream => Presented cfg s.received

structure Gated (cfg : Credentials) (s : Connection) : Prop where
  connects : s.connects ≠ [] → Presented cfg s.received
  reached : s.closed = false → Reached cfg s

section Gate

variable {junk beyond : ℕ → UInt8} {cfg : Credentials} {s s' : Connection} {buf : GrowableIOBuffer}
  {bytes : List UInt8}

lemma readSome_eq_some (h : s.readSome junk bytes = some (s', buf)) :
    s' = { s with received := s.received ++ bytes } ∧ buf.readable = bytes := by
  unfold Connection.readSome at h
  cases hbuf : GrowableIOBuffer.readSome junk socketDebufSize bytes with
  | none => simp [hbuf] at h
  | some b =>
    simp only [hbuf, bind_eq_bind, bind_some, Option.some.injEq] at h
    cases h
    exact ⟨rfl, (GrowableIOBuffer.readSome_eq_some hbuf).1⟩

lemma readable_of_consumed {b : GrowableIOBuffer} {message : List UInt8}
    (hmsg : message <+: buf.readable) (h : buf.setOffset (buf.offset + message.length) = some b) :
    buf.readable = message ++ b.readable := by
  obtain ⟨rest, hrest⟩ := hmsg
  have hle : message.length ≤ buf.size := by
    rw [← buf.length_readable, ← hrest, List.length_append]
    exact Nat.le_add_right _ _
  obtain ⟨b', hb', hread, -⟩ := GrowableIOBuffer.setOffset_add hle
  rw [hb'] at h
  cases h
  rw [hread, ← hrest, List.drop_left]

/-- The text of the next message, and the bytes that are read for it: those of a read, or none where
the message came with the one before it. -/
inductive Next (s : Connection) (stage : Stage) (answered : Prop) : List UInt8 → List UInt8 → Prop
  | read (bytes : List UInt8) (hstage : s.stage = stage) : Next s stage answered bytes bytes
  | pending {buf : GrowableIOBuffer} (hanswered : answered) (hpending : s.pending = some buf) :
    Next s stage answered [] buf.readable

/-- `ReadHandshakeViaSocks5` was called. -/
def Answered (cfg : Credentials) (s : Connection) : Prop :=
  s.stage = .writeAuth ∨ s.stage = .writeMethodSelect ∧ ¬cfg.authRequired

/-- What one event does to a connection that is not closed. -/
inductive Effect (cfg : Credentials) (s : Connection) : Connection → Prop
  | closes (pending : Option GrowableIOBuffer) (bytes : List UInt8) :
    Effect cfg s { s with pending, received := s.received ++ bytes, closed := true }
  | restarts (pending : Option GrowableIOBuffer) :
    Effect cfg s { s with pending, stage := .readMethodSelect }
  | selects {methods : List UInt8} {b : GrowableIOBuffer}
    (hoffer : (if cfg.authRequired then usernameOrPassword else noAuthRequired) ∈ methods) :
    Effect cfg s { s with
      received := s.received ++ (methodSelectMessage methods ++ b.readable)
      pending := some b
      stage := .writeMethodSelect }
  | awaitsAuth {b : GrowableIOBuffer} (hstage : s.stage = .writeMethodSelect)
    (hpending : s.pending = some b) (hempty : b.readable = []) :
    Effect cfg s { s with stage := .readAuth }
  | authenticates {bytes : List UInt8} {b : GrowableIOBuffer}
    (hnext : Next s .readAuth (s.stage = .writeMethodSelect) bytes
      (authMessage cfg.username cfg.password ++ b.readable)) :
    Effect cfg s { s with
      received := s.received ++ bytes, pending := some b, stage := .writeAuth }
  | awaitsRequest (hanswered : Answered cfg s) (hpending : s.pending.isSome) :
    Effect cfg s { s with stage := .readRequest }
  | requests {bytes text : List UInt8} {b : GrowableIOBuffer} {r : Net.Socks5.Request}
    {memory : ℕ → UInt8} {n : ℕ} (hnext : Next s .readRequest (Answered cfg s) bytes text)
    (hparse : requestParse memory n = (.good, some r)) (hvalid : Connection.invalid r = false) :
    Effect cfg s { s with
      received := s.received ++ bytes
      request := some r
      pending := some b
      stage := .writeResponse }
  | connects {upstream : List GrowableIOBuffer} (hstage : s.stage = .writeResponse) :
    Effect cfg s { s with
      pending := none, stage := .stream, connects := s.connects ++ [s.request], upstream }

lemma Effect.disconnects (pending : Option GrowableIOBuffer) :
    Effect cfg s { s with pending }.onDisconnect := by
  have h : Effect cfg s _ := .closes pending []
  rwa [List.append_nil] at h

lemma effect_methodSelect (h : { s with received := s.received ++ buf.readable }.methodSelect cfg
    buf = some s') : Effect cfg s s' := by
  unfold Connection.methodSelect at h
  split at h
  · rename_i methods hparse
    obtain ⟨hmsg, hlen⟩ := methodSelectParse_good hparse
    rw [hlen] at h
    obtain ⟨b, hset, h⟩ := bind_eq_some_iff.mp h
    rw [readable_of_consumed hmsg hset] at h
    dsimp only at h
    by_cases hoffer : (if cfg.authRequired then usernameOrPassword else noAuthRequired) ∈ methods
    · rw [if_pos hoffer] at h
      cases h
      exact .selects hoffer
    · rw [if_neg hoffer] at h
      cases h
      exact .closes _ _
  · cases h
    exact .closes _ _

lemma effect_authenticate
    (hnext : Next s .readAuth (s.stage = .writeMethodSelect) bytes buf.readable)
    (h : { s with pending := none, received := s.received ++ bytes }.authenticate cfg buf =
      some s') : Effect cfg s s' := by
  unfold Connection.authenticate at h
  split at h
  · rename_i request hparse
    obtain ⟨hmsg, hlen⟩ := authParse_good hparse
    rw [hlen] at h
    obtain ⟨b, hset, h⟩ := bind_eq_some_iff.mp h
    split_ifs at h with hbad
    · cases h
      exact .closes _ _
    · cases h
      push Not at hbad
      rw [readable_of_consumed hmsg hset, hbad.1, hbad.2] at hnext
      exact .authenticates hnext
  · cases h
    exact .closes _ _

lemma effect_handshake (hnext : Next s .readRequest (Answered cfg s) bytes buf.readable)
    (h : { s with pending := none, received := s.received ++ bytes }.handshake beyond buf =
      some s') : Effect cfg s s' := by
  unfold Connection.handshake at h
  split at h
  · rename_i request hparse
    obtain ⟨b, -, h⟩ := bind_eq_some_iff.mp h
    split_ifs at h with hinvalid
    · cases h
      exact .closes _ _
    · cases h
      exact .requests hnext hparse (by simpa using hinvalid)
  · cases h
    exact .closes _ _

lemma effect_readHandshakeViaSocks5 (hanswered : Answered cfg s)
    (h : s.readHandshakeViaSocks5 beyond = some s') : Effect cfg s s' := by
  unfold Connection.readHandshakeViaSocks5 at h
  split at h
  · cases h
  rename_i buf hpending
  split_ifs at h with hempty
  · cases h
    exact .awaitsRequest hanswered (by simp [hpending])
  · exact effect_handshake (.pending hanswered hpending) (by simpa using h)

lemma effect_onWriteMethodSelect (hstage : s.stage = .writeMethodSelect) {outcome : WriteOutcome}
    (h : s.onWriteMethodSelect beyond cfg outcome = some s') : Effect cfg s s' := by
  unfold Connection.onWriteMethodSelect Connection.readSocks5UsernamePasswordAuth at h
  split_ifs at h with hshort hauth
  · cases h
    exact .disconnects s.pending
  · split at h
    · cases h
    rename_i buf hpending
    split_ifs at h with hempty
    · cases h
      exact .awaitsAuth hstage hpending ((buf.isEmpty_iff).mp hempty)
    · exact effect_authenticate (.pending hstage hpending) (by simpa using h)
  · exact effect_readHandshakeViaSocks5 (.inr ⟨hstage, hauth⟩) h

lemma effect_onWriteResponse (hstage : s.stage = .writeResponse) {outcome : WriteOutcome}
    (h : s.onWriteResponse outcome = some s') : Effect cfg s s' := by
  unfold Connection.onWriteResponse at h
  split_ifs at h
  · cases h
    exact .disconnects s.pending
  · split at h
    · cases h
    · cases h
      exact .connects hstage

/-- **What a step can do.** -/
lemma effect_of_step {e : Event} (h : step junk beyond cfg s e = some s') :
    s' = s ∨ s.closed = false ∧ Effect cfg s s' := by
  unfold step at h
  split_ifs at h with hclosed
  · cases h
    exact .inl rfl
  rw [Bool.not_eq_true] at hclosed
  split at h
  · rename_i outcome hstage
    refine .inr ⟨hclosed, ?_⟩
    cases outcome with
    | wouldBlock =>
      cases h
      exact .restarts s.pending
    | error =>
      cases h
      exact .disconnects s.pending
    | data bytes =>
      obtain ⟨⟨s₁, buf⟩, hread, h⟩ := bind_eq_some_iff.mp h
      obtain ⟨rfl, rfl⟩ := readSome_eq_some hread
      exact effect_methodSelect h
  · exact .inr ⟨hclosed, effect_onWriteMethodSelect ‹_› h⟩
  · rename_i outcome hstage
    refine .inr ⟨hclosed, ?_⟩
    cases outcome with
    | wouldBlock =>
      -- `handshake_pending_buf_` was moved out
      cases h
    | error =>
      cases h
      exact .disconnects none
    | data bytes =>
      obtain ⟨⟨s₁, buf⟩, hread, h⟩ := bind_eq_some_iff.mp h
      obtain ⟨rfl, rfl⟩ := readSome_eq_some hread
      exact effect_authenticate (.read _ hstage) h
  · rename_i outcome hstage
    refine .inr ⟨hclosed, ?_⟩
    unfold Connection.onWriteAuth at h
    split_ifs at h
    · cases h
      exact .disconnects s.pending
    · exact effect_readHandshakeViaSocks5 (.inl hstage) h
  · rename_i outcome hstage
    refine .inr ⟨hclosed, ?_⟩
    cases outcome with
    | wouldBlock =>
      cases h
      exact .restarts none
    | error =>
      cases h
      exact .disconnects none
    | data bytes =>
      obtain ⟨⟨s₁, buf⟩, hread, h⟩ := bind_eq_some_iff.mp h
      obtain ⟨rfl, rfl⟩ := readSome_eq_some hread
      exact effect_handshake (.read _ hstage) h
  · exact .inr ⟨hclosed, effect_onWriteResponse ‹_› h⟩
  · cases h
    exact .inl rfl

/-- **Step lemma.** No stage can be passed without what it asks for. -/
lemma step_gated (hauth : cfg.authRequired) (hs : Gated cfg s) {e : Event}
    (h : step junk beyond cfg s e = some s') : Gated cfg s' := by
  obtain rfl | ⟨hopen, heffect⟩ := effect_of_step h
  · exact hs
  have hold : ∀ bytes, s.connects ≠ [] → Presented cfg (s.received ++ bytes) :=
    fun bytes hne => (hs.connects hne).append bytes
  have hreached := hs.reached hopen
  unfold Reached at hreached
  have hanswered : Answered cfg s → Presented cfg s.received := by
    rintro (hstage | ⟨-, hno⟩)
    · simpa only [hstage] using hreached
    · exact absurd hauth hno
  cases heffect with
  | closes pending bytes => exact ⟨hold bytes, fun hno => by cases hno⟩
  | restarts pending => exact ⟨hs.connects, fun _ => trivial⟩
  | selects hoffer =>
    rw [if_pos hauth] at hoffer
    exact ⟨hold _, fun _ => ⟨_, rfl, s.received, _, hoffer, (List.append_assoc _ _ _).symm⟩⟩
  | awaitsAuth hstage hpending hempty =>
    simp only [hstage, hpending, Option.some.injEq, exists_eq_left', hempty] at hreached
    exact ⟨hs.connects, fun _ => hreached⟩
  | @authenticates bytes b hnext =>
    have hpresented : Presented cfg (s.received ++ bytes) := by
      refine ⟨b.readable, ?_⟩
      generalize htext : authMessage cfg.username cfg.password ++ b.readable = text at hnext ⊢
      cases hnext with
      | read bytes hstage =>
        rw [hstage] at hreached
        obtain ⟨before, methods, hmem, hreceived⟩ := hreached
        exact ⟨before, methods, hmem, by simp [hreceived]⟩
      | pending hstage hpending =>
        simp only [hstage, hpending, Option.some.injEq, exists_eq_left'] at hreached
        simpa using hreached
    exact ⟨fun _ => hpresented, fun _ => hpresented⟩
  | awaitsRequest hwritten => exact ⟨hs.connects, fun _ => hanswered hwritten⟩
  | requests hnext =>
    have hpresented : Presented cfg s.received := by
      cases hnext with
      | read bytes hstage => simpa only [hstage] using hreached
      | pending hwritten => exact hanswered hwritten
    exact ⟨fun _ => hpresented.append _, fun _ => hpresented.append _⟩
  | connects hstage =>
    rw [hstage] at hreached
    exact ⟨fun _ => hreached, fun _ => hreached⟩

/-- **Every run.** `OnConnect` runs only on a connection on which the client has presented the
configured user name and password. -/
theorem presented_of_connects (hauth : cfg.authRequired) {es : List Event} {s : Connection}
    (hrun : Run.exec (step junk beyond cfg) start es = some s) (hne : s.connects ≠ []) :
    Presented cfg s.received := by
  have hstart : Gated cfg start := ⟨fun h => absurd rfl h, fun _ => trivial⟩
  exact (Run.exec_keeps (fun _ _ _ hs h => step_gated hauth hs h) hstart hrun).connects hne

end Gate

/-! ## SOCKS5: reads that would block -/

section WouldBlock

variable (junk beyond : ℕ → UInt8) (cfg : Credentials)

def Event.blocks : Event → Bool
  | .readable .wouldBlock => true
  | .readable (.data _) | .readable .error | .writable _ => false

def Unchanged (s : Connection) (e : Event) : Prop :=
  e.blocks = true → ∃ s', step junk beyond cfg s e = some s' ∧ s' = s

/-- No read of the user name and the password, and none of the request, would block. -/
def Meets (s : Connection) (e : Event) : Prop :=
  e.blocks = true → s.closed = true ∨ (s.stage ≠ .readAuth ∧ s.stage ≠ .readRequest)

def Held (s : Connection) : Prop :=
  s.closed = false →
    s.stage = .writeMethodSelect ∨ s.stage = .writeAuth ∨ s.stage = .writeResponse →
      s.pending.isSome

/-- A schedule is survived if no read that would block changes anything, no buffer is missing where
the next stage uses it, and the run ends as it does without the reads that would block. -/
structure Survives (es : List Event) : Prop where
  unchanged : Run.Along (step junk beyond cfg) (Unchanged junk beyond cfg) start es
  held : ∀ s, Run.exec (step junk beyond cfg) start es = some s → Held s
  same : Run.exec (step junk beyond cfg) start es =
    Run.exec (step junk beyond cfg) start (es.filter fun e => !e.blocks)

lemma unchanged_iff (s : Connection) (e : Event) : Unchanged junk beyond cfg s e ↔ Meets s e := by
  unfold Unchanged Meets
  refine imp_congr_right fun hblocks => ?_
  obtain rfl : e = .readable .wouldBlock := by
    match e, hblocks with
    | .readable .wouldBlock, _ => rfl
  simp only [exists_eq_right]
  by_cases hclosed : s.closed
  · simp [step, hclosed]
  rw [Bool.not_eq_true] at hclosed
  obtain ⟨stage, closed, pending, request, upstream, connects, received⟩ := s
  simp only at hclosed
  subst hclosed
  cases stage with
  | readAuth =>
    -- the buffer was moved away, and the next call uses it
    simp [step, Connection.onReadSocks5UsernamePasswordAuth,
      Connection.readSocks5UsernamePasswordAuth]
  | readRequest =>
    -- the handshake begins again with its first message
    simp [step, Connection.onReadHandshakeViaSocks5, Connection.readHandshakeViaSocks]
  | readMethodSelect =>
    simp [step, Connection.onReadHandshakeViaSocks, Connection.readHandshakeViaSocks]
  | writeMethodSelect | writeAuth | writeResponse | stream => simp [step]

/-- **Step lemma.** A stage that writes a reply is entered with the rest of the read. -/
lemma step_held {junk beyond : ℕ → UInt8} {cfg : Credentials} {s s' : Connection} (hs : Held s)
    {e : Event} (h : step junk beyond cfg s e = some s') : Held s' := by
  obtain rfl | ⟨hopen, heffect⟩ := effect_of_step h
  · exact hs
  cases heffect with
  | closes => exact fun hno => by cases hno
  | selects | authenticates | requests => exact fun _ _ => rfl
  | awaitsAuth _ hpending => exact fun _ _ => by simp [hpending]
  | awaitsRequest _ hpending => exact fun _ _ => hpending
  | restarts | connects => rintro - (hwrite | hwrite | hwrite) <;> cases hwrite

/-- **Reads that would block.** A schedule of reads and writes is survived exactly when no read that
would block meets the second or the third stage. -/
theorem survives_iff (es : List Event) :
    Survives junk beyond cfg es ↔ Run.Along (step junk beyond cfg) Meets start es := by
  constructor
  · intro h
    exact h.unchanged.imp fun s e => (unchanged_iff junk beyond cfg s e).mp
  intro h
  have hunchanged := h.imp fun s e => (unchanged_iff junk beyond cfg s e).mpr
  have hstart : Held start := by
    rintro - (hwrite | hwrite | hwrite) <;> cases hwrite
  refine ⟨hunchanged, fun s => Run.exec_keeps (fun _ _ _ hs h => step_held hs h) hstart,
    (Run.exec_filter (hunchanged.imp fun s e hsame hblocks => ?_)).symm⟩
  obtain ⟨s', hstep, rfl⟩ := hsame (by simpa using hblocks)
  exact hstep

/-- The messages of a client without a user name: a method selection, and a request for
`10.0.0.1:80` with one byte of payload. -/
def sampleSelection : List UInt8 := [5, 1, 0]

def sampleRequest : List UInt8 := [5, 1, 0, 1, 10, 0, 0, 1, 0, 80, 7]

/-- A client whose request comes late: behind a read that would block, the request is taken for a
method selection, and what is behind these three bytes closes the connection. With a user name and a
password configured, a read that would block before the authentication uses a null buffer. -/
theorem blocked_read_loses_handshake :
    ((Run.exec (step (fun _ => 0) (fun _ => 0) ⟨[], []⟩) start
      [.readable (.data sampleSelection), .writable (.written 2), .readable (.data sampleRequest),
        .writable (.written 10)]).map fun s => (s.stage, s.closed, s.connects.length)) =
      some (.stream, false, 1) ∧
    ((Run.exec (step (fun _ => 0) (fun _ => 0) ⟨[], []⟩) start
      [.readable (.data sampleSelection), .writable (.written 2), .readable .wouldBlock,
        .readable (.data sampleRequest), .writable (.written 2)]).map
      fun s => (s.closed, s.connects.length)) = some (true, 0) ∧
    (Run.exec (step (fun _ => 0) (fun _ => 0) ⟨[117], [112]⟩) start
      [.readable (.data [5, 1, 2]), .writable (.written 2), .readable .wouldBlock]).isNone := by
  decide +kernel

end WouldBlock

end Socks5

namespace Socks4

/-! ## SOCKS4 -/

inductive Stage where
  | readRequest
  | writeResponse
  | stream
  deriving DecidableEq, Repr

/-- A `ServerConnection` with method `socks4` or `socks4a`. -/
structure Connection where
  stage : Stage
  closed : Bool
  /-- `handshake_pending_buf_`. -/
  pending : Option GrowableIOBuffer
  /-- `request_`, as it was asked for. -/
  request : Option Ss.Asked
  upstream : List GrowableIOBuffer
  /-- The requests with which `OnConnect` was executed. -/
  connects : List (Option Ss.Asked)

def start : Connection := ⟨.readRequest, false, none, none, [], []⟩

inductive Event where
  | readable (outcome : ReadOutcome)
  | writable (outcome : WriteOutcome)
  deriving DecidableEq, Repr

namespace Connection

def onDisconnect (s : Connection) : Connection := { s with closed := true }

/-- The part of `OnReadHandshakeViaSocks` behind the read. The length of a domain name is not
looked at. -/
def handshake (s : Connection) (buf : GrowableIOBuffer) : Option Connection :=
  match Net.Socks4.requestParse buf.readable with
  | (.good, some request) => do
    let buf ← buf.setOffset (buf.offset + request.length)
    if request.invalid then some s.onDisconnect
    else
      some { s with
        request := some request.asked
        pending := some buf
        stage := .writeResponse }
  | _ => some s.onDisconnect

def onReadHandshakeViaSocks (junk : ℕ → UInt8) (s : Connection) : ReadOutcome → Option Connection
  | .wouldBlock => some s
  | .error => some s.onDisconnect
  | .data bytes => do
    let buf ← GrowableIOBuffer.readSome junk socketDebufSize bytes
    s.handshake buf

/-- The callback of `WriteHandshakeResponse`: a reply of eight bytes, then `ProcessReceivedData`
with what is pending, which executes `OnConnect`. -/
def onWriteResponse (s : Connection) (outcome : WriteOutcome) : Option Connection :=
  if outcome ≠ .written 8 then some s.onDisconnect
  else
    match s.pending with
    | none => none
    | some buf => some { s with
        pending := none
        stage := .stream
        connects := s.connects ++ [s.request]
        upstream := if buf.isEmpty then s.upstream else s.upstream ++ [buf] }

end Connection

def step (junk : ℕ → UInt8) (s : Connection) (e : Event) : Option Connection :=
  if s.closed then some s
  else
    match s.stage, e with
    | .readRequest, .readable r => s.onReadHandshakeViaSocks junk r
    | .writeResponse, .writable w => s.onWriteResponse w
    | _, _ => some s

def reads (es : List Event) : List (List UInt8) :=
  es.filterMap fun
    | .readable (.data bytes) => some bytes
    | _ => none

end Socks4

namespace Https

/-! ## HTTPS -/

structure Environment where
  /-- `HttpRequestParser::Parse` of a new parser. -/
  parse : List UInt8 → HttpRequestParser
  base64Decode : List UInt8 → Option (List UInt8)
  canonUri : List UInt8 → List UInt8
  hideIp : Bool
  hideVia : Bool
  peerEndpoint : List UInt8
  version : List UInt8

/-- A `ServerConnection` with method `https`. -/
structure Connection where
  closed : Bool
  streaming : Bool
  httpIsConnect : Bool
  request : Option Target
  upstream : List GrowableIOBuffer
  /-- The requests with which `OnConnect` was executed. -/
  connects : List Target
  reads : List (List UInt8)

def start : Connection := ⟨false, false, false, none, [], [], []⟩

variable (env : Environment) (junk : ℕ → UInt8) (cfg : Credentials)

/-- The part of `OnReadHandshakeViaHttps` behind the read. -/
def handshake (s : Connection) (buf : GrowableIOBuffer) : Option Connection := do
  let parser := env.parse buf.readable
  if !parser.ok then return { s with closed := true }
  let rest ← buf.setOffset (buf.offset + parser.nparsed)
  let s := { s with httpIsConnect := parser.isConnect }
  if parser.port = 0 ∨ parser.host = [] then return { s with closed := true }
  if parser.host.length > tlsextMaxlenHostName then return { s with closed := true }
  if cfg.authRequired &&
      !verifyProxyAuthorizationIdentity env.base64Decode parser.proxyAuthorization cfg then
    return { s with closed := true }
  let target : Target := ⟨parser.host, parser.port⟩
  let buf ←
    if parser.isConnect then some rest
    else
      serverRewriteRequest junk env.canonUri env.hideIp env.hideVia env.peerEndpoint env.version
        parser buf
  some { s with
    request := some target
    streaming := true
    connects := s.connects ++ [target]
    upstream := if buf.isEmpty then s.upstream else s.upstream ++ [buf] }

def step (s : Connection) (outcome : ReadOutcome) : Option Connection :=
  if s.closed || s.streaming then some s
  else
    match outcome with
    | .wouldBlock => some s
    | .error => some { s with closed := true }
    | .data bytes => do
      let buf ← GrowableIOBuffer.readSome junk socketDebufSize bytes
      handshake env junk cfg { s with reads := bytes :: s.reads } buf

/-- What the last read gave is a request whose `Proxy-Authorization` carries the credentials. -/
def Presented (s : Connection) : Prop :=
  ∃ bytes, s.reads.head? = some bytes ∧ (env.parse bytes).ok = true ∧
    cfg.CarriedBy env.base64Decode (env.parse bytes).proxyAuthorization

section Gate

variable {env : Environment} {junk : ℕ → UInt8} {cfg : Credentials} {s s' : Connection}
  {buf : GrowableIOBuffer}

lemma handshake_connects (hauth : cfg.authRequired) (h : handshake env junk cfg s buf = some s') :
    s'.reads = s.reads ∧ (s'.connects = s.connects ∨
      s'.streaming = true ∧ (env.parse buf.readable).ok = true ∧
        cfg.CarriedBy env.base64Decode (env.parse buf.readable).proxyAuthorization) := by
  simp only [handshake, hauth, Bool.true_and] at h
  by_cases hok : (env.parse buf.readable).ok
  swap
  · simp only [hok, Bool.not_false, if_true] at h
    cases h
    exact ⟨rfl, Or.inl rfl⟩
  simp only [hok, Bool.not_true, Bool.false_eq_true, if_false, bind_eq_bind,
    bind_eq_some_iff] at h
  obtain ⟨rest, -, h⟩ := h
  split_ifs at h with hhost hlong hverify hconnect
  · cases h
    exact ⟨rfl, Or.inl rfl⟩
  · cases h
    exact ⟨rfl, Or.inl rfl⟩
  · cases h
    exact ⟨rfl, Or.inl rfl⟩
  · cases h
    refine ⟨rfl, Or.inr ⟨rfl, hok, carriedBy_of_verify ?_⟩⟩
    simpa using hverify
  obtain ⟨b, -, h⟩ := bind_eq_some_iff.mp h
  cases h
  refine ⟨rfl, Or.inr ⟨rfl, hok, carriedBy_of_verify ?_⟩⟩
  simpa using hverify

def Gated (env : Environment) (cfg : Credentials) (s : Connection) : Prop :=
  s.connects ≠ [] → s.streaming = true ∧ Presented env cfg s

lemma step_gated (hauth : cfg.authRequired) (hs : Gated env cfg s) {outcome : ReadOutcome}
    (h : step env junk cfg s outcome = some s') : Gated env cfg s' := by
  unfold step at h
  split_ifs at h with hdone
  · cases h
    exact hs
  cases outcome with
  | wouldBlock =>
    cases h
    exact hs
  | error =>
    cases h
    exact hs
  | data bytes =>
    obtain ⟨buf, hread, h⟩ := bind_eq_some_iff.mp h
    have hbytes := (GrowableIOBuffer.readSome_eq_some hread).1
    obtain ⟨hreads, hsame | ⟨hstream, hok, hcarried⟩⟩ := handshake_connects hauth h
    · -- before the handshake there was no `OnConnect`
      intro hne
      rw [hsame] at hne
      simp [(hs hne).1] at hdone
    rw [hbytes] at hok hcarried
    intro _
    exact ⟨hstream, bytes, by rw [hreads]; rfl, hok, hcarried⟩

/-- **Every run.** `OnConnect` runs only for a request that carries the configured user name and
password. -/
theorem presented_of_connects (hauth : cfg.authRequired) {es : List ReadOutcome}
    {s : Connection} (hrun : Run.exec (step env junk cfg) start es = some s)
    (hne : s.connects ≠ []) : Presented env cfg s := by
  have hstart : Gated env cfg start := fun h => absurd rfl h
  exact (Run.exec_keeps (fun _ _ _ hs h => step_gated hauth hs h) hstart hrun hne).2

end Gate

end Https

end Yass.Server
