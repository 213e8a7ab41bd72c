import Yass.Cli.Handshake
import Yass.RequestCodecs

/-!
# What an application sends behind its SOCKS5 messages

An application may send the method selection, the request and its data without waiting for replies,
and the three come in reads that know nothing of their boundaries. Each stage of the handshake reads
into a buffer of its own.

* `Session`, `Session.step` — the handshake with `s5_request_` and with the bytes that are handed
  on: what is left in the buffer behind the request, and what is read in `state_stream`.
  `step_conn` says that the stages are those of the handshake.

Source: `cli/cli_connection.cpp`.
-/

namespace Yass.Cli.Socks

open Yass.Net
open Yass.Net.Ss (Destination Starts)
open Option (map_eq_some_iff some_inj toList_some)
open List (append_assoc flatten_append length_append)

/-! ## The bytes behind the messages -/

/-- `PerformCmdOpsV5` returns an error. -/
def refusesV5 (request : Socks5.Request) : Bool :=
  request.command != Socks5.cmdConnect || request.invalid

/-- `PerformCmdOpsV4` returns an error. -/
def refusesV4 (request : Socks4.Request) : Bool :=
  request.command != Socks4.cmdConnect || request.invalid ||
    request.isSocks4a && decide (request.domainName.length > tlsextMaxlenHostName)

structure Session where
  conn : Connection
  /-- `s5_request_`, when it has been parsed. -/
  request : Option Socks5.Request
  /-- What `OnStreamRead` was given, and what was read in `state_stream`. -/
  given : List UInt8
  deriving DecidableEq, Repr

namespace Session

variable (env : Environment)

def new : Session := ⟨start, none, []⟩

/-- `handle_stream`, for the buffer `rest` behind a request. A refused request ends with
`ReadStream(true)`, and the buffer with it. -/
def handleStream (s : Session) (refused : Bool) (rest : GrowableIOBuffer) : Session :=
  if refused then s else { s with given := s.given ++ rest.readable }

/-- `ReadMethodSelect` with `ProcessReceivedData`. -/
def onReadMethodSelect (s : Session) (buf : GrowableIOBuffer) : Option Session :=
  let s' : Session := { s with conn := s.conn.onReadMethodSelect env buf }
  match Socks5.methodSelectParse buf.readable with
  | (.good, methods) =>
    -- `state_method_select` only writes the reply: nothing looks at `buf` again
    (buf.setOffset (buf.offset + Socks5.methodSelectLength methods)).map fun _ => s'
  | _ =>
    match Socks4.requestParse buf.readable with
    | (.good, some request) =>
      (buf.setOffset (buf.offset + request.length)).map (s'.handleStream (refusesV4 request))
    | _ => some s'

/-- `ReadSocks5Handshake` with `ProcessReceivedData`. The parser may take a request for longer than
the buffer, and `set_offset` then aborts. -/
def onReadSocks5Handshake (s : Session) (buf : GrowableIOBuffer) : Option Session :=
  let s' : Session := { s with conn := s.conn.onReadSocks5Handshake env buf }
  match Socks5.requestParse (fun i => (buf.readable[i]?).getD (env.beyond i)) buf.size with
  | (.good, some request) =>
    (buf.setOffset (buf.offset + request.length)).map
      ({ s' with request := some request }.handleStream (refusesV5 request))
  | _ => some s'

/-- A read in `state_stream`. -/
def onReadStream (s : Session) (buf : GrowableIOBuffer) : Option Session :=
  some { s with given := s.given ++ buf.readable }

def onRead (s : Session) (buf : GrowableIOBuffer) : Option Session :=
  match s.conn.stage with
  | .methodSelect => s.onReadMethodSelect env buf
  | .socks5Handshake => s.onReadSocks5Handshake env buf
  | .stream => s.onReadStream buf
  | .writeMethodSelect | .http => some s

def step (s : Session) (e : Event) : Option Session :=
  if s.conn.closed then some s
  else
    match e with
    | .readable (.data bytes) =>
      (GrowableIOBuffer.readSome env.junk socketBufSize bytes).bind (s.onRead env)
    | e => (Socks.step env s.conn e).map fun conn => { s with conn }

end Session

/-! ### The stages are those of the handshake -/

section Stages

variable {env : Environment} {s s' : Session} {buf : GrowableIOBuffer}

@[simp] lemma conn_handleStream (refused : Bool) (rest : GrowableIOBuffer) :
    (s.handleStream refused rest).conn = s.conn := by
  unfold Session.handleStream
  split_ifs <;> rfl

lemma conn_onReadMethodSelect (h : s.onReadMethodSelect env buf = some s') :
    s'.conn = s.conn.onReadMethodSelect env buf := by
  unfold Session.onReadMethodSelect at h
  split at h
  · obtain ⟨_, -, rfl⟩ := map_eq_some_iff.mp h
    rfl
  split at h
  · obtain ⟨rest, -, rfl⟩ := map_eq_some_iff.mp h
    exact conn_handleStream _ rest
  · cases h
    rfl

lemma conn_onReadSocks5Handshake (h : s.onReadSocks5Handshake env buf = some s') :
    s'.conn = s.conn.onReadSocks5Handshake env buf := by
  unfold Session.onReadSocks5Handshake at h
  split at h
  · obtain ⟨rest, -, rfl⟩ := map_eq_some_iff.mp h
    exact conn_handleStream _ rest
  · cases h
    rfl

/-- **Refinement.** A step of the session is one of its connection. -/
theorem step_conn {e : Event} (h : s.step env e = some s') :
    Socks.step env s.conn e = some s'.conn := by
  unfold Session.step at h
  by_cases hclosed : s.conn.closed
  · rw [if_pos hclosed] at h
    cases h
    unfold Socks.step
    rw [if_pos hclosed]
  rw [if_neg hclosed] at h
  split at h
  · rename_i bytes
    obtain ⟨buf, hbuf, hread⟩ := Option.bind_eq_some_iff.mp h
    unfold Session.onRead at hread
    unfold Socks.step
    rw [if_neg hclosed]
    cases hstage : s.conn.stage with
    | methodSelect =>
      rw [hstage] at hread
      simp [Connection.read, hbuf, conn_onReadMethodSelect hread]
    | socks5Handshake =>
      rw [hstage] at hread
      simp [Connection.read, hbuf, conn_onReadSocks5Handshake hread]
    | stream =>
      rw [hstage] at hread
      cases hread
      rfl
    | writeMethodSelect =>
      rw [hstage] at hread
      cases hread
      rfl
    | http =>
      rw [hstage] at hread
      cases hread
      rfl
  · obtain ⟨conn, hconn, rfl⟩ := map_eq_some_iff.mp h
    exact hconn

end Stages

/-! ## Streams and reads -/

/-- What an application sends: a method selection, a request to connect, and data. -/
structure ClientStream where
  methods : List UInt8
  methods_le : methods.length ≤ 255
  offered : Socks5.noAuthRequired ∈ methods
  dest : Destination
  data : List UInt8
  accepted : (Socks5.Request.ofDestination Socks5.cmdConnect dest).invalid = false

namespace ClientStream

variable (c : ClientStream)

def selection : List UInt8 := Socks5.methodSelectMessage c.methods

def message : List UInt8 := Socks5.requestMessage Socks5.cmdConnect c.dest

def request : Socks5.Request := Socks5.Request.ofDestination Socks5.cmdConnect c.dest

def bytes : List UInt8 := c.selection ++ (c.message ++ c.data)

/-- The first read is the method selection, and the whole request is in the second one. -/
def WellCut (reads : List (List UInt8)) : Prop :=
  ∃ second rest, reads = c.selection :: second :: rest ∧ c.message <+: second

lemma length_request : c.request.length = c.message.length :=
  Socks5.length_ofDestination Socks5.cmdConnect c.dest

lemma not_refused : refusesV5 c.request = false := by
  have haccepted : c.request.invalid = false := c.accepted
  have hcommand : c.request.command = Socks5.cmdConnect := rfl
  simp [refusesV5, haccepted, hcommand]

end ClientStream

def Event.data : Event → Option (List UInt8)
  | .readable (.data bytes) => some bytes
  | _ => none

def reads (es : List Event) : List (List UInt8) := es.filterMap Event.data

/-- Nothing fails, and what is read is read when it is waited for. -/
def Undisturbed (s : Session) : Event → Prop
  | .readable (.data bytes) =>
    bytes ≠ [] ∧ bytes.length ≤ socketBufSize ∧ s.conn.stage ≠ .writeMethodSelect
  | .readable .wouldBlock => True
  | .readable .error => False
  | .written ok => ok = true
  | .resolved none => False
  | .resolved (some endpoint) => (endpoint.address.unspecified || endpoint.port == 0) = false

instance (s : Session) : (e : Event) → Decidable (Undisturbed s e)
  | .readable (.data bytes) => inferInstanceAs (Decidable
      (bytes ≠ [] ∧ bytes.length ≤ socketBufSize ∧ s.conn.stage ≠ .writeMethodSelect))
  | .readable .wouldBlock => isTrue trivial
  | .readable .error => isFalse id
  | .written ok => inferInstanceAs (Decidable (ok = true))
  | .resolved none => isFalse id
  | .resolved (some endpoint) => inferInstanceAs (Decidable
      ((endpoint.address.unspecified || endpoint.port == 0) = false))

def Carried (env : Environment) (c : ClientStream) (es : List Event) : Prop :=
  ∃ s, Run.exec (Session.step env) .new es = some s ∧ s.request = some c.request ∧
    s.given = c.data

/-! ## What the stages make of parts of the stream -/

section Parsers

variable (c : ClientStream)

lemma methodSelectParse_selection (rest : List UInt8) :
    Socks5.methodSelectParse (c.selection ++ rest) = (.good, c.methods) := by
  have hlen : (UInt8.ofNat c.methods.length).toNat = c.methods.length := by
    have := c.methods_le
    rw [UInt8.toNat_ofNat', Nat.mod_eq_of_lt (by omega)]
  simp [ClientStream.selection, Socks5.methodSelectMessage, Socks5.methodSelectParse, hlen]

lemma parse_of_part {part : List UInt8} (h : part <+: c.selection) (hne : part ≠ c.selection) :
    Socks5.methodSelectParse part = (.indeterminate, []) ∧
      ∀ request, Socks4.requestParse part ≠ (.good, some request) := by
  have hlt : part.length < c.methods.length + 2 := by
    have hle := h.length_le
    have hlen : part.length ≠ c.selection.length := fun heq => hne (h.eq_of_length heq)
    simp only [ClientStream.selection, Socks5.methodSelectMessage, length_append,
      List.length_cons, List.length_nil] at hle hlen
    omega
  have hcount : (UInt8.ofNat c.methods.length).toNat = c.methods.length := by
    have := c.methods_le
    rw [UInt8.toNat_ofNat', Nat.mod_eq_of_lt (by omega)]
  rw [ClientStream.selection, Socks5.methodSelectMessage] at h
  rcases part with _ | ⟨ver, _ | ⟨count, rest⟩⟩
  · exact ⟨rfl, fun _ hgood => by cases hgood⟩
  · exact ⟨rfl, fun _ hgood => by cases hgood⟩
  simp only [List.cons_append, List.nil_append, List.cons_prefix_cons] at h
  obtain ⟨rfl, rfl, -⟩ := h
  constructor
  · simp only [List.length_cons] at hlt
    simp only [Socks5.methodSelectParse, hcount]
    rw [if_neg (by simp), if_pos (by omega)]
  intro request hgood
  unfold Socks4.requestParse at hgood
  split at hgood
  · rename_i heq
    cases heq
    cases hgood
  · cases hgood

lemma starts_of_part {part bytes : List UInt8} (beyond : ℕ → UInt8) (h : part <+: bytes) :
    Starts (fun i => (bytes[i]?).getD (beyond i)) part := by
  obtain ⟨rest, rfl⟩ := h
  intro i b hb
  have hlt : i < part.length := (List.getElem?_eq_some_iff.mp hb).1
  show ((part ++ rest)[i]?).getD (beyond i) = b
  rw [List.getElem?_append_left hlt, hb, Option.getD_some]

lemma requestParse_message (beyond : ℕ → UInt8) {bytes : List UInt8} (h : c.message <+: bytes) :
    Socks5.requestParse (fun i => (bytes[i]?).getD (beyond i)) bytes.length =
      (.good, some c.request) := by
  rw [← Socks5.requestTrace_parse,
    Socks5.requestTrace_message (starts_of_part beyond h) h.length_le]
  rfl

lemma length_lt_of_part (beyond : ℕ → UInt8) {part : List UInt8} (h : part <+: c.message)
    (hne : part ≠ c.message) {request : Socks5.Request}
    (hparse : Socks5.requestParse (fun i => (part[i]?).getD (beyond i)) part.length =
      (.good, some request)) : part.length < request.length := by
  have hlt : part.length < c.message.length :=
    lt_of_le_of_ne h.length_le fun heq => hne (h.eq_of_length heq)
  have hstarts : Starts (fun i => (part[i]?).getD (beyond i)) (c.message.take part.length) := by
    rw [← List.prefix_iff_eq_take.mp h]
    exact starts_of_part beyond (List.prefix_refl part)
  exact Socks5.requestParse_part hlt hstarts hparse

end Parsers

section Reads

variable {env : Environment} {s s' : Session} {buf : GrowableIOBuffer} (c : ClientStream)

lemma onReadMethodSelect_selection {rest : List UInt8} (hbuf : buf.readable = c.selection ++ rest) :
    s.onReadMethodSelect env buf =
      some { s with conn := { s.conn with stage := .writeMethodSelect } } := by
  have hlen : Socks5.methodSelectLength c.methods = c.selection.length := by
    simp only [Socks5.methodSelectLength, ClientStream.selection, Socks5.methodSelectMessage,
      length_append, List.length_cons, List.length_nil]
  have hle : Socks5.methodSelectLength c.methods ≤ buf.size := by
    rw [← GrowableIOBuffer.length_readable, hbuf, hlen, length_append]
    exact Nat.le_add_right _ _
  obtain ⟨rest', hrest, -⟩ := GrowableIOBuffer.setOffset_add hle
  have hparse : Socks5.methodSelectParse buf.readable = (.good, c.methods) := by
    rw [hbuf, methodSelectParse_selection]
  simp [Session.onReadMethodSelect, Connection.onReadMethodSelect, hparse, hrest, c.offered]

lemma onReadMethodSelect_part (h : buf.readable <+: c.selection)
    (hne : buf.readable ≠ c.selection) :
    s.onReadMethodSelect env buf = some { s with conn := { s.conn with stage := .http } } := by
  obtain ⟨hparse, hsocks4⟩ := parse_of_part c h hne
  have hconn : s.conn.onReadMethodSelect env buf = { s.conn with stage := .http } := by
    unfold Connection.onReadMethodSelect
    rw [hparse]
    dsimp only
    split
    · rename_i request hgood
      exact absurd hgood (hsocks4 request)
    · rfl
  unfold Session.onReadMethodSelect
  rw [hparse, hconn]
  dsimp only
  split
  · rename_i request hgood
    exact absurd hgood (hsocks4 request)
  · rfl

lemma onCmdConnect_keeps (env : Environment) (conn : Connection) (name : List UInt8) (port : ℕ) :
    (conn.onCmdConnect env name port).stage = conn.stage ∧
      (conn.onCmdConnect env name port).closed = conn.closed := by
  unfold Connection.onCmdConnect
  split
  · exact ⟨rfl, rfl⟩
  · split_ifs <;> exact ⟨rfl, rfl⟩

lemma performCmdOpsV5_keeps (env : Environment) (conn : Connection) (request : Socks5.Request) :
    (conn.performCmdOpsV5 env request).stage = conn.stage ∧
      (conn.performCmdOpsV5 env request).closed = conn.closed := by
  unfold Connection.performCmdOpsV5
  split_ifs
  · exact ⟨rfl, rfl⟩
  · exact ⟨rfl, rfl⟩
  split
  · exact onCmdConnect_keeps env conn _ _
  · exact ⟨rfl, rfl⟩
  · exact ⟨rfl, rfl⟩

lemma onReadSocks5Handshake_message {rest : List UInt8} (hbuf : buf.readable = c.message ++ rest) :
    ∃ s', s.onReadSocks5Handshake env buf = some s' ∧ s'.conn.stage = .stream ∧
      s'.conn.closed = s.conn.closed ∧ s'.request = some c.request ∧
      s'.given = s.given ++ rest := by
  have hsize : buf.size = buf.readable.length := buf.length_readable.symm
  have hwhole : c.message <+: buf.readable := ⟨rest, hbuf.symm⟩
  have hparse := requestParse_message c env.beyond hwhole
  rw [← hsize] at hparse
  have hle : c.request.length ≤ buf.size := by
    rw [hsize, hbuf, c.length_request, length_append]
    exact Nat.le_add_right _ _
  obtain ⟨buf', hset, hread, -⟩ := GrowableIOBuffer.setOffset_add hle
  have hrest : buf'.readable = rest := by
    rw [hread, hbuf, c.length_request, List.drop_left]
  obtain ⟨hstage, hclosed⟩ :=
    performCmdOpsV5_keeps env { s.conn with stage := .stream } c.request
  refine ⟨_, by simp only [Session.onReadSocks5Handshake, hparse, hset, Option.map_some]; rfl, ?_⟩
  rw [conn_handleStream]
  simp only [Session.handleStream, c.not_refused, Connection.onReadSocks5Handshake, hparse, hrest]
  exact ⟨hstage, hclosed, rfl, rfl⟩

lemma onReadSocks5Handshake_part (h : buf.readable <+: c.message) (hne : buf.readable ≠ c.message)
    (hread : s.onReadSocks5Handshake env buf = some s') :
    s' = { s with conn := s.conn.onDisconnect } := by
  have hsize : buf.size = buf.readable.length := buf.length_readable.symm
  unfold Session.onReadSocks5Handshake at hread
  split at hread
  · rename_i request hparse
    rw [hsize] at hparse
    have hlong := length_lt_of_part c env.beyond h hne hparse
    obtain ⟨buf', hset, -⟩ := map_eq_some_iff.mp hread
    have hle := (GrowableIOBuffer.setOffset_eq_some hset).1
    rw [← hsize, GrowableIOBuffer.size] at hlong
    omega
  rename_i hnot
  cases hread
  unfold Connection.onReadSocks5Handshake
  split
  · rename_i request hparse
    exact absurd hparse (hnot request)
  · rfl

end Reads

/-! ## How much is taken -/

/-- How many bytes of the application are in the request and in what is handed on. -/
def Session.taken (s : Session) : ℕ := s.request.elim 0 Socks5.Request.length + s.given.length

section Taken

variable {env : Environment} {s s' : Session} {buf : GrowableIOBuffer}

lemma length_given_handleStream (refused : Bool) (rest : GrowableIOBuffer) :
    (s.handleStream refused rest).given.length ≤ s.given.length + rest.size := by
  unfold Session.handleStream
  split_ifs
  · exact Nat.le_add_right _ _
  · simp

lemma request_handleStream (refused : Bool) (rest : GrowableIOBuffer) :
    (s.handleStream refused rest).request = s.request := by
  unfold Session.handleStream
  split_ifs <;> rfl

lemma taken_onReadSocks5Handshake (h : s.onReadSocks5Handshake env buf = some s') :
    s'.taken ≤ s.taken + buf.size := by
  unfold Session.onReadSocks5Handshake at h
  split at h
  · rename_i request hparse
    obtain ⟨rest, hset, rfl⟩ := map_eq_some_iff.mp h
    obtain ⟨hle, -, hcap, hoff⟩ := GrowableIOBuffer.setOffset_eq_some hset
    have hsize : request.length + rest.size = buf.size := by
      rw [GrowableIOBuffer.size, GrowableIOBuffer.size, hcap, hoff]
      omega
    have hgiven := length_given_handleStream
      (s := { s with conn := s.conn.onReadSocks5Handshake env buf, request := some request })
      (refusesV5 request) rest
    simp only [Session.taken, request_handleStream, Option.elim_some]
    simp only at hgiven
    omega
  · cases h
    exact Nat.le_add_right _ _

lemma stage_onReadSocks5Handshake (conn : Connection) (hstage : conn.stage = .socks5Handshake) :
    (conn.onReadSocks5Handshake env buf).stage ≠ .methodSelect := by
  unfold Connection.onReadSocks5Handshake
  split
  · rw [(performCmdOpsV5_keeps env _ _).1]
    exact nofun
  · rw [Connection.onDisconnect, hstage]
    exact nofun

lemma taken_onRead (hstage : s.conn.stage ≠ .methodSelect) (h : s.onRead env buf = some s') :
    s'.taken ≤ s.taken + buf.size ∧ s'.conn.stage ≠ .methodSelect := by
  unfold Session.onRead at h
  split at h
  · rename_i hfirst
    exact absurd hfirst hstage
  · rename_i hsecond
    refine ⟨taken_onReadSocks5Handshake h, ?_⟩
    rw [conn_onReadSocks5Handshake h]
    exact stage_onReadSocks5Handshake s.conn hsecond
  · cases h
    refine ⟨?_, hstage⟩
    simp only [Session.taken, length_append, GrowableIOBuffer.length_readable]
    omega
  · cases h
    exact ⟨Nat.le_add_right _ _, hstage⟩
  · cases h
    exact ⟨Nat.le_add_right _ _, hstage⟩

end Taken

/-! ## Where the handshake stands -/

/-- The handshake after `reads`, which are the first part of the stream. -/
inductive Trail (c : ClientStream) : List (List UInt8) → Session → Prop where
  | opened {s : Session} (hstage : s.conn.stage = .methodSelect) (hopen : s.conn.closed = false)
      (hnone : s.request = none) (hnil : s.given = []) : Trail c [] s
  | selected {s : Session}
      (hstage : s.conn.stage = .writeMethodSelect ∨ s.conn.stage = .socks5Handshake)
      (hopen : s.conn.closed = false) (hnone : s.request = none) (hnil : s.given = []) :
      Trail c [c.selection] s
  | asked {s : Session} {second : List UInt8} {rest : List (List UInt8)}
      (hwhole : c.message <+: second) (hstage : s.conn.stage = .stream)
      (hopen : s.conn.closed = false) (hrequest : s.request = some c.request)
      (hgiven : s.given = (second ++ rest.flatten).drop c.message.length) :
      Trail c (c.selection :: second :: rest) s
  | ended {s : Session} {reads : List (List UInt8)} (hcut : ∀ more, ¬ c.WellCut (reads ++ more))
      (hend : s.conn.closed = true ∨ s.conn.stage = .http) (hnone : s.request = none) :
      Trail c reads s
  | lost {s : Session} {reads : List (List UInt8)} (hcut : ∀ more, ¬ c.WellCut (reads ++ more))
      (hstage : s.conn.stage ≠ .methodSelect)
      (hshort : c.selection.length + s.taken < reads.flatten.length) : Trail c reads s

section Trail

variable {env : Environment} {c : ClientStream} {s s' : Session} {rs : List (List UInt8)}
  {bytes : List UInt8} {e : Event}

lemma step_quiet (hquiet : e.data = none) (hok : Undisturbed s e) (h : s.step env e = some s') :
    s'.request = s.request ∧ s'.given = s.given ∧ s'.conn.closed = s.conn.closed ∧
      (s'.conn.stage = s.conn.stage ∨
        s.conn.stage = .writeMethodSelect ∧ s'.conn.stage = .socks5Handshake) := by
  unfold Session.step at h
  by_cases hclosed : s.conn.closed
  · rw [if_pos hclosed] at h
    cases h
    exact ⟨rfl, rfl, rfl, Or.inl rfl⟩
  rw [if_neg hclosed] at h
  split at h
  · cases hquiet
  obtain ⟨conn, hconn, rfl⟩ := map_eq_some_iff.mp h
  refine ⟨rfl, rfl, ?_⟩
  unfold Socks.step at hconn
  rw [if_neg hclosed] at hconn
  rcases e with ⟨bytes | _ | _⟩ | ok | _ | endpoint
  · cases hquiet
  · cases hstage : s.conn.stage <;> rw [hstage] at hconn <;> cases hconn <;>
      exact ⟨rfl, Or.inl hstage⟩
  · exact hok.elim
  · have hyes : ok = true := hok
    subst hyes
    cases hstage : s.conn.stage with
    | writeMethodSelect =>
      rw [hstage] at hconn
      cases hconn
      exact ⟨rfl, Or.inr ⟨rfl, rfl⟩⟩
    | _ =>
      rw [hstage] at hconn
      cases hconn
      exact ⟨rfl, Or.inl hstage⟩
  · exact hok.elim
  have hgood : (endpoint.address.unspecified || endpoint.port == 0) = false := hok
  have hconn : (if s.conn.resolving then s.conn.onResolved (some endpoint) else s.conn) =
      conn := by
    cases hstage : s.conn.stage <;> rw [hstage] at hconn <;> exact some_inj.mp hconn
  rw [← hconn]
  split_ifs
  · simp [Connection.onResolved, hgood, Connection.onConnect]
  · exact ⟨rfl, Or.inl rfl⟩

lemma Trail.quiet (h : Trail c rs s) (hquiet : e.data = none) (hok : Undisturbed s e)
    (hstep : s.step env e = some s') : Trail c rs s' := by
  obtain ⟨hrequest, hgiven, hclosed, hstage⟩ := step_quiet hquiet hok hstep
  -- only the second stage ends by such an event
  have hsame : s.conn.stage ≠ .writeMethodSelect → s'.conn.stage = s.conn.stage :=
    fun hne => hstage.resolve_right fun hnext => hne hnext.1
  cases h with
  | opened hfirst hopen hnone hnil =>
    have hnext := hsame (by rw [hfirst]; exact nofun)
    exact .opened (hnext.trans hfirst) (hclosed.trans hopen) (hrequest.trans hnone)
      (hgiven.trans hnil)
  | selected hsecond hopen hnone hnil =>
    refine .selected ?_ (hclosed.trans hopen) (hrequest.trans hnone) (hgiven.trans hnil)
    rcases hstage with hstay | ⟨-, hnext⟩
    · rw [hstay]
      exact hsecond
    · exact .inr hnext
  | asked hwhole hstream hopen hsome hdata =>
    have hnext := hsame (by rw [hstream]; exact nofun)
    exact .asked hwhole (hnext.trans hstream) (hclosed.trans hopen) (hrequest.trans hsome)
      (hgiven.trans hdata)
  | ended hcut hend hnone =>
    refine .ended hcut ?_ (hrequest.trans hnone)
    rcases hend with hend | hend
    · exact .inl (hclosed.trans hend)
    · exact .inr ((hsame (by rw [hend]; exact nofun)).trans hend)
  | lost hcut hne hshort =>
    refine .lost hcut ?_ ?_
    · rcases hstage with hstay | ⟨-, hnext⟩
      · rw [hstay]
        exact hne
      · rw [hnext]
        exact nofun
    · rw [Session.taken, hrequest, hgiven]
      exact hshort

lemma not_wellCut_append (h : ∀ more, ¬ c.WellCut (rs ++ more)) (bytes : List UInt8) :
    ∀ more, ¬ c.WellCut (rs ++ [bytes] ++ more) := by
  intro more
  rw [append_assoc]
  exact h ([bytes] ++ more)

lemma step_read (hopen : s.conn.closed = false)
    (h : s.step env (.readable (.data bytes)) = some s') :
    ∃ buf : GrowableIOBuffer, buf.readable = bytes ∧ s.onRead env buf = some s' := by
  unfold Session.step at h
  rw [if_neg (by simp [hopen])] at h
  obtain ⟨buf, hbuf, hread⟩ := Option.bind_eq_some_iff.mp h
  exact ⟨buf, (GrowableIOBuffer.readSome_eq_some hbuf).1, hread⟩

variable {buf : GrowableIOBuffer}

lemma Trail.read_first (hstage : s.conn.stage = .methodSelect) (hopen : s.conn.closed = false)
    (hnone : s.request = none) (hnil : s.given = []) (hpre : bytes <+: c.bytes)
    (hbuf : buf.readable = bytes) (hread : s.onRead env buf = some s') :
    Trail c [bytes] s' := by
  subst hbuf
  rw [Session.onRead, hstage] at hread
  have hcut : buf.readable ≠ c.selection → ∀ more, ¬ c.WellCut ([buf.readable] ++ more) := by
    rintro hne more ⟨second, rest, heq, -⟩
    exact hne (List.cons.inj heq).1
  by_cases hwhole : c.selection <+: buf.readable
  · obtain ⟨rest, hrest⟩ := hwhole
    rw [onReadMethodSelect_selection c hrest.symm] at hread
    cases hread
    by_cases hend : rest = []
    · rw [hend, List.append_nil] at hrest
      rw [← hrest]
      exact .selected (Or.inl rfl) hopen hnone hnil
    -- `rest` is gone
    have hpos : 0 < rest.length := List.length_pos_iff.mpr hend
    have hlen := congrArg List.length hrest
    rw [length_append] at hlen
    refine .lost (hcut fun heq => ?_) nofun ?_
    · rw [heq] at hlen
      omega
    simp only [Session.taken, hnone, hnil, Option.elim_none, List.length_nil,
      List.flatten_singleton]
    omega
  have hpart : buf.readable <+: c.selection :=
    (List.prefix_or_prefix_of_prefix hpre (List.prefix_append _ _)).resolve_right hwhole
  have hne : buf.readable ≠ c.selection := fun heq => hwhole (heq ▸ List.prefix_refl _)
  rw [onReadMethodSelect_part c hpart hne] at hread
  cases hread
  exact .ended (hcut hne) (Or.inr rfl) hnone

lemma Trail.read_second (hstage : s.conn.stage = .socks5Handshake) (hopen : s.conn.closed = false)
    (hnone : s.request = none) (hnil : s.given = []) (hpre : bytes <+: c.message ++ c.data)
    (hbuf : buf.readable = bytes) (hread : s.onRead env buf = some s') :
    Trail c [c.selection, bytes] s' := by
  subst hbuf
  rw [Session.onRead, hstage] at hread
  by_cases hwhole : c.message <+: buf.readable
  · obtain ⟨rest, hrest⟩ := hwhole
    obtain ⟨s₁, hs₁, hstream, hclosed, hrequest, hgiven⟩ :=
      onReadSocks5Handshake_message (s := s) c hrest.symm
    rw [hs₁] at hread
    cases hread
    refine .asked ⟨rest, hrest⟩ hstream (hclosed.trans hopen) hrequest ?_
    rw [hgiven, hnil, ← hrest]
    simp
  have hpart : buf.readable <+: c.message :=
    (List.prefix_or_prefix_of_prefix hpre (List.prefix_append _ _)).resolve_right hwhole
  have hne : buf.readable ≠ c.message := fun heq => hwhole (heq ▸ List.prefix_refl _)
  have hclosed := onReadSocks5Handshake_part c hpart hne hread
  refine .ended ?_ (Or.inl ?_) ?_
  · rintro more ⟨second, rest, heq, hmessage⟩
    obtain ⟨-, heq⟩ := List.cons.inj heq
    rw [(List.cons.inj heq).1] at hwhole
    exact hwhole hmessage
  · rw [hclosed]
    rfl
  · rw [hclosed]
    exact hnone

lemma Trail.read (h : Trail c rs s) (hok : Undisturbed s (.readable (.data bytes)))
    (hpre : (rs ++ [bytes]).flatten <+: c.bytes)
    (hstep : s.step env (.readable (.data bytes)) = some s') : Trail c (rs ++ [bytes]) s' := by
  have hwaited : s.conn.stage ≠ .writeMethodSelect := hok.2.2
  rw [flatten_append, List.flatten_singleton] at hpre
  cases h with
  | opened hstage hopen hnone hnil =>
    obtain ⟨buf, hbuf, hread⟩ := step_read hopen hstep
    exact read_first hstage hopen hnone hnil hpre hbuf hread
  | selected hstage hopen hnone hnil =>
    obtain ⟨buf, hbuf, hread⟩ := step_read hopen hstep
    rw [List.flatten_singleton] at hpre
    exact read_second (hstage.resolve_left hwaited) hopen hnone hnil
      ((List.prefix_append_right_inj _).mp hpre) hbuf hread
  | asked hwhole hstage hopen hrequest hgiven =>
    obtain ⟨buf, hbuf, hread⟩ := step_read hopen hstep
    rw [Session.onRead, hstage] at hread
    cases hread
    rename_i second rest
    show Trail c (c.selection :: second :: (rest ++ [bytes])) _
    refine .asked hwhole hstage hopen hrequest ?_
    have hle : c.message.length ≤ (second ++ rest.flatten).length :=
      hwhole.length_le.trans (by simp)
    show s.given ++ buf.readable = _
    rw [hgiven, hbuf, flatten_append, List.flatten_singleton, ← append_assoc,
      List.drop_append_of_le_length hle]
  | ended hcut hend hnone =>
    have hsame : s' = s := by
      by_cases hclosed : s.conn.closed
      · rw [Session.step, if_pos hclosed] at hstep
        exact (some_inj.mp hstep).symm
      obtain ⟨buf, -, hread⟩ := step_read (by simpa using hclosed) hstep
      rw [Session.onRead, hend.resolve_left hclosed] at hread
      exact (some_inj.mp hread).symm
    rw [hsame]
    exact .ended (not_wellCut_append hcut bytes) hend hnone
  | lost hcut hstage hshort =>
    have htaken : s'.taken ≤ s.taken + bytes.length ∧ s'.conn.stage ≠ .methodSelect := by
      by_cases hclosed : s.conn.closed
      · rw [Session.step, if_pos hclosed] at hstep
        cases hstep
        exact ⟨Nat.le_add_right _ _, hstage⟩
      obtain ⟨buf, hbuf, hread⟩ := step_read (by simpa using hclosed) hstep
      rw [← hbuf, buf.length_readable]
      exact taken_onRead hstage hread
    refine .lost (not_wellCut_append hcut bytes) htaken.2 ?_
    rw [flatten_append, List.flatten_singleton, length_append]
    omega

lemma reads_append (es : List Event) (e : Event) :
    reads (es ++ [e]) = reads es ++ e.data.toList := by
  cases hdata : e.data <;> simp [reads, hdata]

lemma Trail.run {es : List Event} (hes : Run.Along (Session.step env) Undisturbed .new es)
    (hpre : (reads es).flatten <+: c.bytes) (hrun : Run.exec (Session.step env) .new es = some s) :
    Trail c (reads es) s := by
  refine Run.along_keeps_history (I := fun es s => (reads es).flatten <+: c.bytes →
    Trail c (reads es) s) ?_ (fun _ => .opened rfl rfl rfl rfl) hes hrun hpre
  intro es s e s' ih hok hstep hpre
  rw [reads_append] at hpre ⊢
  have hbefore : (reads es).flatten <+: c.bytes := by
    rw [flatten_append] at hpre
    exact (List.prefix_append _ _).trans hpre
  have htrail := ih hbefore
  cases hdata : e.data with
  | none =>
    rw [Option.toList_none, List.append_nil]
    exact htrail.quiet hdata hok hstep
  | some bytes =>
    rw [hdata, toList_some] at hpre
    rw [toList_some]
    rcases e with ⟨_ | _ | _⟩ | _ | _ <;> cases hdata
    exact htrail.read hok hpre hstep

lemma Trail.carries_iff (h : Trail c rs s) (hall : rs.flatten = c.bytes) :
    s.request = some c.request ∧ s.given = c.data ↔ c.WellCut rs := by
  have hlength := congrArg List.length hall
  simp only [ClientStream.bytes, length_append] at hlength
  cases h with
  | opened _ _ hnone _ =>
    refine iff_of_false (fun hcarried => ?_) ?_
    · rw [hnone] at hcarried
      exact nomatch hcarried.1
    · rintro ⟨second, rest, heq, -⟩
      cases heq
  | selected _ _ hnone _ =>
    refine iff_of_false (fun hcarried => ?_) ?_
    · rw [hnone] at hcarried
      exact nomatch hcarried.1
    · rintro ⟨second, rest, heq, -⟩
      cases heq
  | asked hwhole hstage hopen hrequest hgiven =>
    rename_i second rest
    refine iff_of_true ⟨hrequest, ?_⟩ ⟨second, rest, rfl, hwhole⟩
    have hbehind : second ++ rest.flatten = c.message ++ c.data := by
      simpa [ClientStream.bytes] using hall
    rw [hgiven, hbehind, List.drop_left]
  | ended hcut _ hnone =>
    refine iff_of_false (fun hcarried => ?_) (by simpa using hcut [])
    rw [hnone] at hcarried
    exact nomatch hcarried.1
  | lost hcut _ hshort =>
    refine iff_of_false (fun hcarried => ?_) (by simpa using hcut [])
    -- the data would be longer than what was handed on
    rw [Session.taken, hcarried.1, hcarried.2, Option.elim_some, c.length_request] at hshort
    omega

lemma step_quiet_isSome (hquiet : e.data = none) : ∃ s', s.step env e = some s' := by
  have hconn : ∃ conn, Socks.step env s.conn e = some conn := by
    unfold Socks.step
    by_cases hclosed : s.conn.closed
    · exact ⟨_, if_pos hclosed⟩
    rw [if_neg hclosed]
    rcases e with ⟨_ | _ | _⟩ | _ | _
    · cases hquiet
    all_goals cases s.conn.stage <;> exact ⟨_, rfl⟩
  obtain ⟨conn, hconn⟩ := hconn
  unfold Session.step
  by_cases hclosed : s.conn.closed
  · exact ⟨_, if_pos hclosed⟩
  rw [if_neg hclosed]
  split
  · cases hquiet
  · exact ⟨_, by rw [hconn]; rfl⟩

lemma Trail.onRead_isSome (h : Trail c rs s) (hwaited : s.conn.stage ≠ .writeMethodSelect)
    {more : List (List UInt8)} (hcut : c.WellCut (rs ++ [bytes] ++ more))
    (hbuf : buf.readable = bytes) : ∃ s', s.onRead env buf = some s' := by
  obtain ⟨second, rest, heq, hwhole⟩ := hcut
  cases h with
  | opened hstage _ _ _ =>
    have hfirst : buf.readable = c.selection ++ [] := by
      rw [hbuf, List.append_nil]
      exact (List.cons.inj heq).1
    rw [Session.onRead, hstage]
    exact ⟨_, onReadMethodSelect_selection c hfirst⟩
  | selected hstage _ _ _ =>
    obtain ⟨rest', hrest⟩ := hwhole
    have hsecond : buf.readable = c.message ++ rest' := by
      rw [hbuf, hrest]
      exact (List.cons.inj (List.cons.inj heq).2).1
    rw [Session.onRead, hstage.resolve_left hwaited]
    obtain ⟨s', hs', -⟩ := onReadSocks5Handshake_message c hsecond
    exact ⟨s', hs'⟩
  | asked _ hstage _ _ _ =>
    rw [Session.onRead, hstage]
    exact ⟨_, rfl⟩
  | ended hnot _ _ =>
    rw [append_assoc] at heq
    exact absurd ⟨second, rest, heq, hwhole⟩ (hnot _)
  | lost hnot _ _ =>
    rw [append_assoc] at heq
    exact absurd ⟨second, rest, heq, hwhole⟩ (hnot _)

lemma Trail.step_isSome (h : Trail c rs s) (hok : Undisturbed s e) {more : List (List UInt8)}
    (hcut : c.WellCut (rs ++ e.data.toList ++ more)) : ∃ s', s.step env e = some s' := by
  cases hdata : e.data with
  | none => exact step_quiet_isSome hdata
  | some bytes =>
    rw [hdata, toList_some] at hcut
    rcases e with ⟨_ | _ | _⟩ | _ | _ <;> cases hdata
    unfold Session.step
    by_cases hclosed : s.conn.closed
    · exact ⟨s, if_pos hclosed⟩
    obtain ⟨buf, hbuf, hread, -⟩ := GrowableIOBuffer.readSome_spec env.junk hok.2.1
    rw [if_neg hclosed]
    simp only [hbuf, Option.bind_some]
    exact h.onRead_isSome hok.2.2 hcut hread

end Trail

/-- **SOCKS5 pipelining.** Whatever an application sends and however it is cut into reads, its
request is taken and its data are handed on exactly if the first read is the method selection and
the second one has the whole request. -/
theorem pipelining_iff (env : Environment) (c : ClientStream) (es : List Event)
    (hes : Run.Along (Session.step env) Undisturbed .new es)
    (hall : (reads es).flatten = c.bytes) : Carried env c es ↔ c.WellCut (reads es) := by
  have hpre : (reads es).flatten <+: c.bytes := hall ▸ List.prefix_refl _
  constructor
  · rintro ⟨s, hrun, hcarried⟩
    exact ((Trail.run hes hpre hrun).carries_iff hall).mp hcarried
  intro hcut
  have hsome : ∃ s, Run.exec (Session.step env) .new es = some s := by
    by_contra hnone
    rw [not_exists, ← Option.eq_none_iff_forall_ne_some] at hnone
    obtain ⟨es₁, e, es₂, s₁, rfl, hrun, hstop⟩ := Run.exec_eq_none hnone
    have hsplit : reads (es₁ ++ e :: es₂) = reads es₁ ++ e.data.toList ++ reads es₂ := by
      rw [← reads_append, reads, reads, reads, ← List.filterMap_append]
      simp
    have hbefore : (reads es₁).flatten <+: c.bytes := by
      rw [hsplit, append_assoc, flatten_append] at hpre
      exact (List.prefix_append _ _).trans hpre
    have htrail := Trail.run hes.of_append hbefore hrun
    rw [hsplit] at hcut
    obtain ⟨s', hs'⟩ := htrail.step_isSome (hes.at hrun) hcut
    rw [hs'] at hstop
    cases hstop
  obtain ⟨s, hrun⟩ := hsome
  exact ⟨s, hrun, ((Trail.run hes hpre hrun).carries_iff hall).mpr hcut⟩

def sampleEnvironment : Environment := ⟨fun _ => none, false, fun _ => 0, fun _ => 0⟩

/-- An application that connects to `1.2.3.4`, port 80. -/
def sampleStream : ClientStream :=
  ⟨[0], by decide, by decide, ⟨.ipv4, [1, 2, 3, 4], 80, rfl, by decide⟩, [71, 69], by decide⟩

/-- An application that connects to the name `a`, port 80. -/
def sampleNameStream : ClientStream :=
  ⟨[0], by decide, by decide, ⟨.domain, [97], 80, ⟨by decide, by decide⟩, by decide⟩, [],
    by decide⟩

def sampleReads : List Event :=
  [.readable (.data sampleStream.selection), .written true, .readable .wouldBlock,
    .readable (.data (sampleStream.message ++ [71])), .readable (.data [69])]

theorem pipelining_sample : Carried sampleEnvironment sampleStream sampleReads :=
  (pipelining_iff sampleEnvironment sampleStream sampleReads (by decide +kernel) (by decide)).mpr
    ⟨sampleStream.message ++ [71], [[69]], rfl, [71], rfl⟩

/-- An application that sends all at once is never connected: the client waits for the request that
it has dropped. If the request for a name comes without its last byte, the client aborts. -/
theorem pipelining_drops :
    let whole : List Event := [.readable (.data sampleStream.bytes), .written true]
    let short : List Event :=
      [.readable (.data sampleNameStream.selection), .written true,
        .readable (.data sampleNameStream.message.dropLast), .readable (.data [80])]
    (Run.Along (Session.step sampleEnvironment) Undisturbed .new whole ∧
      (reads whole).flatten = sampleStream.bytes ∧
      Run.exec (Session.step sampleEnvironment) .new whole =
        some ⟨⟨.socks5Handshake, false, false, []⟩, none, []⟩) ∧
    Run.Along (Session.step sampleEnvironment) Undisturbed .new short ∧
      (reads short).flatten = sampleNameStream.bytes ∧
      Run.exec (Session.step sampleEnvironment) .new short = none := by
  decide +kernel

/-- **Every run of a session**, with whatever is read: it is one of the handshake, and `OnConnect`
is executed at most once, for a destination, and not before there was a request. -/
theorem session_connects_once {env : Environment} {s : Session} {es : List Event}
    (hrun : Run.exec (Session.step env) .new es = some s) :
    Run.exec (Socks.step env) start es = some s.conn ∧ (∀ asked ∈ s.conn.connects, asked.Proper) ∧
      s.conn.connects.length ≤ if s.conn.stage = .stream then 1 else 0 := by
  obtain ⟨conn, hconn, rfl⟩ := Run.exec_simulates (R := fun conn (s : Session) => conn = s.conn)
    (fun conn a e a' hR hstep => ⟨a'.conn, hR ▸ step_conn hstep, rfl⟩) rfl hrun
  have honce : Once s.conn :=
    Run.exec_keeps (fun _ _ _ h hstep => h.step hstep) (Nat.le_refl _) hconn
  exact ⟨hconn, proper_of_connects hconn, (Nat.le_add_right _ _).trans honce⟩

theorem session_connects_sample :
    ∃ s, Run.exec (Session.step sampleEnvironment) .new sampleReads = some s ∧
      s.conn.connects = [⟨.ipv4, [1, 2, 3, 4], 80⟩] ∧ ∀ asked ∈ s.conn.connects, asked.Proper := by
  have hrun : (Run.exec (Session.step sampleEnvironment) .new sampleReads).map (·.conn.connects) =
      some [⟨.ipv4, [1, 2, 3, 4], 80⟩] := by decide +kernel
  obtain ⟨s, hs, hconnects⟩ := map_eq_some_iff.mp hrun
  exact ⟨s, hs, hconnects, (session_connects_once hs).2.1⟩

end Yass.Cli.Socks
