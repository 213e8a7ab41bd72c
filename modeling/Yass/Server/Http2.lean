import Yass.Lib.Lists
import Yass.Lib.Run
import Yass.Net.Padding
import Yass.Server.Handshake

/-!
# The HTTP/2 server connection

`ServerConnection` as the visitor of the HTTP/2 adapter. One connection serves one stream after
another: each accepted `CONNECT` replaces `channel_`, while the upstream queue, the padding state
and `request_map_` are those of the connection.

* `Event`, `step` — the callbacks of the adapter, and what happens to the channels. `none` is an
  abort, or the use of a null `channel_`.
* `Reported` — what the adapter guarantees: fields are reported inside an open header block of their
  stream, payload inside a frame whose `OnFrameHeader` returned `true`.

A callback that returns `false` makes the adapter report a connection error, and nothing after that.
A header block may also end without `OnEndHeadersForStream`: the adapter answers a malformed block
with a reset of the stream, `OnInvalidFrame` returns `true`, and the connection goes on.

Source: `server/server_connection.cpp`, `core/utils.cpp`.
-/

namespace Yass.Server.Http2

open Yass.Net

/-! ## Names of header fields -/

/-- `":method"`. -/
def methodField : List UInt8 := [58, 109, 101, 116, 104, 111, 100]

/-- `"CONNECT"`. -/
def connectMethod : List UInt8 := [67, 79, 78, 78, 69, 67, 84]

/-- `":scheme"`. -/
def schemeField : List UInt8 := [58, 115, 99, 104, 101, 109, 101]

/-- `":path"`. -/
def pathField : List UInt8 := [58, 112, 97, 116, 104]

/-- `":authority"`. -/
def authorityField : List UInt8 := [58, 97, 117, 116, 104, 111, 114, 105, 116, 121]

/-- `"host"`. -/
def hostField : List UInt8 := [104, 111, 115, 116]

/-- `"padding"`. -/
def paddingField : List UInt8 := [112, 97, 100, 100, 105, 110, 103]

/-- `"proxy-authorization"`. -/
def proxyAuthorizationField : List UInt8 :=
  [112, 114, 111, 120, 121, 45, 97, 117, 116, 104, 111, 114, 105, 122, 97, 116, 105, 111, 110]

/-! ## State -/

/-- What `url::ParseAuthority` finds. A component that is not valid is `none`, or empty where that
makes no difference. -/
structure Authority where
  username : Option (List UInt8)
  password : Option (List UInt8)
  host : List UInt8
  port : List UInt8

structure Environment where
  base64Decode : List UInt8 → Option (List UInt8)
  parseAuthority : List UInt8 → Authority
  parsePort : List UInt8 → ℤ
  paddingSupport : Bool
  junk : ℕ → UInt8

abbrev Field : Type := List UInt8 × List UInt8

structure Channel where
  /-- The stream whose `CONNECT` opened it. -/
  stream : ℕ
  /-- The header block of that `CONNECT`, as it was reported. -/
  block : List Field
  target : Target
  padding : Bool
  connected : Bool
  eof : Bool
  written : List UInt8
  deriving DecidableEq

/-- A `ServerConnection` with method `http2`. -/
structure Connection where
  /-- `closed_` and `closing_`, which are set together. -/
  closed : Bool
  failed : Bool
  streamId : ℕ
  /-- `request_map_`, the last assignment first. -/
  requestMap : List Field
  /-- `data_frame_` is not null. -/
  dataFrame : Bool
  paddingSupportInFact : Bool
  numPaddingRecv : ℕ
  paddingInMiddleBuf : Option GrowableIOBuffer
  upstream : List GrowableIOBuffer
  /-- `channel_`, and the channels it has replaced. -/
  channels : List Channel
  shutdown : Bool
  frame : Option ℕ
  /-- The header block that is being read: its stream and the fields reported so far. -/
  block : Option (ℕ × List Field)
  /-- The payload reported, piece by piece, with its stream. -/
  data : List (ℕ × List UInt8)

/-- `Start` for HTTP/2. -/
def start (env : Environment) : Connection where
  closed := false
  failed := false
  streamId := 0
  requestMap := []
  dataFrame := false
  paddingSupportInFact := env.paddingSupport
  numPaddingRecv := 0
  paddingInMiddleBuf := none
  upstream := []
  channels := []
  shutdown := false
  frame := none
  block := none
  data := []

def splitHostPortWithDefaultPort (env : Environment) (defaultPort : ℕ) (hostPort : List UInt8) :
    Option Target :=
  let a := env.parseAuthority hostPort
  if a.username.isSome || a.password.isSome || a.host.isEmpty then none
  else
    let port : ℤ := if a.port.isEmpty then defaultPort else env.parsePort a.port
    if port ≤ 0 ∨ port > 65535 then none else some ⟨a.host, port.toNat⟩

def stripBrackets (host : List UInt8) : List UInt8 :=
  if 2 ≤ host.length ∧ host.head? = some 91 ∧ host.getLast? = some 93 then
    (host.drop 1).dropLast
  else host

namespace Connection

/-- `request_map_[key]`, where a missing key gives an empty text. The empty entries this creates are
not recorded: either the map is cleared at the end, or the connection is over. -/
def lookup (s : Connection) (key : List UInt8) : List UInt8 :=
  ((s.requestMap.find? fun field => field.1 == key).map Prod.snd).getD []

/-- `request_map_.find(key) != request_map_.end()`. -/
def contains (s : Connection) (key : List UInt8) : Bool :=
  s.requestMap.any fun field => field.1 == key

/-! ## Closing -/

/-- `channel_->close()`. -/
def closeChannel (s : Connection) : Connection :=
  { s with channels := s.channels.modifyHead fun ch => { ch with connected := false, eof := true } }

/-- `OnDisconnect`, which calls `close`. -/
def onDisconnect (s : Connection) : Connection :=
  if s.closed then s else { s.closeChannel with closed := true }

def onConnectionError (s : Connection) : Connection :=
  { s with failed := true, dataFrame := false, streamId := 0 }.onDisconnect

def onCloseStream (s : Connection) (id : ℕ) : Connection :=
  if id = 0 ∨ id = s.streamId then { s with dataFrame := false, streamId := 0 } else s

/-- What `disconnected` and `OnStreamWrite` do once the channel is at its end; `drained` says that
nothing is left to be sent to the client. -/
def finish (s : Connection) (drained : Bool) : Connection :=
  if drained && !s.shutdown then
    if s.dataFrame then { s with shutdown := true, dataFrame := false, streamId := 0 }
    else { s with shutdown := true }
  else s

/-! ## Frames and header blocks -/

def onFrameHeader (s : Connection) (id : ℕ) : Connection :=
  let s := if s.streamId = 0 then { s with streamId := id } else s
  if id ≠ 0 ∧ id ≠ s.streamId then s.onConnectionError else { s with frame := some id }

def onBeginHeadersForStream (s : Connection) (id : ℕ) : Connection :=
  { s with block := some (id, []) }

def onHeaderForStream (s : Connection) (key value : List UInt8) : Connection :=
  { s with
    requestMap := (key, value) :: s.requestMap
    block := s.block.map fun b => (b.1, b.2 ++ [(key, value)]) }

/-- The authority of a request: `:authority`, or `host` where it is missing. Both have to agree. -/
def authority (s : Connection) : Option (List UInt8) :=
  let authority := s.lookup authorityField
  let host := s.lookup hostField
  if authority.isEmpty then if host.isEmpty then none else some host
  else if !host.isEmpty && !equalsCaseInsensitiveAscii authority host then none
  else some authority

/-- The checks of `OnEndHeadersForStream`: the target of an acceptable `CONNECT`. -/
def request (env : Environment) (cfg : Credentials) (s : Connection) : Option Target := do
  guard (s.lookup methodField = connectMethod)
  guard ((s.lookup schemeField).isEmpty && (s.lookup pathField).isEmpty)
  guard (!cfg.authRequired ||
    verifyProxyAuthorizationIdentity env.base64Decode (s.lookup proxyAuthorizationField) cfg)
  let target ← splitHostPortWithDefaultPort env 443 (← s.authority)
  let host := stripBrackets target.host
  guard (!host.isEmpty && target.port != 0 && host.length ≤ tlsextMaxlenHostName)
  some ⟨host, target.port⟩

/-- `OnConnect`, for the stream `id`. -/
def onConnect (s : Connection) (id : ℕ) (fields : List Field) (target : Target) : Connection :=
  { s with
    channels := ⟨id, fields, target, s.paddingSupportInFact, false, false, []⟩ :: s.channels
    dataFrame := true }

def onEndHeadersForStream (env : Environment) (cfg : Credentials) (s : Connection) (id : ℕ) :
    Connection :=
  let fields := (s.block.map Prod.snd).getD []
  match s.request env cfg with
  | none => { s with block := none }.onConnectionError
  | some target =>
    { s with
      paddingSupportInFact := s.paddingSupportInFact && s.contains paddingField
      requestMap := []
      block := none }.onConnect id fields target

/-! ## Payload -/

/-- Append `bytes` to `padding_in_middle_buf_`. -/
def inMiddle (env : Environment) (s : Connection) (bytes : List UInt8) : Option GrowableIOBuffer :=
  match s.paddingInMiddleBuf with
  | some previousChunk => GrowableIOBuffer.concat env.junk previousChunk (.copyBuffer bytes)
  | none => some (.copyBuffer bytes)

def onDataForStream (env : Environment) (s : Connection) (id : ℕ) (bytes : List UInt8) :
    Option Connection :=
  let s := { s with data := s.data ++ [(id, bytes)] }
  if s.paddingSupportInFact && decide (s.numPaddingRecv < kFirstPaddings) then do
    let buf ← s.inMiddle env bytes
    let (payloads, buf, left) ← removePaddings env.junk (kFirstPaddings - s.numPaddingRecv) buf
    let s := { s with
      upstream := s.upstream ++ payloads
      numPaddingRecv := kFirstPaddings - left
      paddingInMiddleBuf := some buf }
    -- what is behind the last padded chunk
    if left = 0 ∧ ¬ buf.isEmpty then
      some { s with upstream := s.upstream ++ [buf], paddingInMiddleBuf := none }
    else some s
  else some { s with upstream := s.upstream ++ [.copyBuffer bytes] }

/-! ## The channel -/

/-- The callback of `async_connect` of the `i`-th channel: only a channel that was not closed
connects. -/
def connected (s : Connection) (i : ℕ) : Connection :=
  { s with channels := s.channels.modify i fun ch => { ch with connected := !ch.eof } }

/-- `write_some` of the front of the queue, in `WriteUpstreamInPipe`: the channel takes `n`
bytes. -/
def writeUpstream (s : Connection) (n : ℕ) : Option Connection :=
  match s.upstream, s.channels with
  | buf :: rest, ch :: chs =>
    if ch.connected && !ch.eof && !buf.isEmpty then do
      let ch := { ch with written := ch.written ++ buf.readable.take n }
      let buf ← buf.setOffset (buf.offset + n)
      some { s with
        channels := ch :: chs
        upstream := if buf.isEmpty then rest else buf :: rest }
    else some s
  | _, _ => some s

/-- `disconnected`: a channel is lost, or its connect failed. Whichever it was, `channel_` is
closed. -/
def disconnected (s : Connection) (drained : Bool) : Option Connection :=
  if s.channels = [] then none else some (s.closeChannel.finish drained)

def onStreamWrite (s : Connection) (drained : Bool) : Connection :=
  if s.channels.head?.any Channel.eof then s.finish drained else s

end Connection

/-! ## Runs -/

inductive Event where
  | frameHeader (id : ℕ)
  | beginHeaders (id : ℕ)
  | header (id : ℕ) (key value : List UInt8)
  | endHeaders (id : ℕ)
  | data (id : ℕ) (bytes : List UInt8)
  | endStream (id : ℕ)
  | closeStream (id : ℕ)
  | invalidFrame (id : ℕ)
  | rstStream (id : ℕ)
  | goAway
  | connectionError
  /-- The connect of the `i`-th channel has completed. -/
  | connected (i : ℕ)
  | write (n : ℕ)
  | writeFailed
  | lost (drained : Bool)
  | streamWrite (drained : Bool)
  deriving DecidableEq, Repr

variable (env : Environment) (cfg : Credentials)

/-- A callback of the adapter. It runs also when the connection was closed by an earlier callback of
the same read. -/
def report (s : Connection) : Event → Option Connection
  | .frameHeader id => some (s.onFrameHeader id)
  | .beginHeaders id => some (s.onBeginHeadersForStream id)
  | .header _ key value => some (s.onHeaderForStream key value)
  | .endHeaders id => some (s.onEndHeadersForStream env cfg id)
  | .data id bytes => s.onDataForStream env id bytes
  | .closeStream id => some (s.onCloseStream id)
  | .rstStream _ | .goAway => some s.onDisconnect
  | .connectionError => some s.onConnectionError
  | _ => some s

def callback (s : Connection) : Event → Option Connection
  | .connected i => some (s.connected i)
  | .write n => s.writeUpstream n
  | .writeFailed => some s.onDisconnect
  | .lost drained => s.disconnected drained
  | .streamWrite drained => some (s.onStreamWrite drained)
  | _ => some s

def Event.isReport : Event → Bool
  | .connected _ | .write _ | .writeFailed | .lost _ | .streamWrite _ => false
  | _ => true

def step (s : Connection) (e : Event) : Option Connection :=
  if e.isReport then if s.failed then some s else report env cfg s e
  else if s.closed then some s
  else callback s e

def Reported (s : Connection) : Event → Prop
  | .beginHeaders id => id ≠ 0 ∧ s.frame = some id
  | .header id _ _ | .endHeaders id => s.block.map Prod.fst = some id
  | .data id _ => id ≠ 0 ∧ s.frame = some id
  | .connected i => i < s.channels.length
  | .write n => ∀ buf ∈ s.upstream.head?, n ≤ buf.size
  | .lost _ => s.channels ≠ []
  | _ => True

instance (s : Connection) : (e : Event) → Decidable (Reported s e)
  | .beginHeaders id => inferInstanceAs (Decidable (id ≠ 0 ∧ s.frame = some id))
  | .header id _ _ => inferInstanceAs (Decidable (s.block.map Prod.fst = some id))
  | .endHeaders id => inferInstanceAs (Decidable (s.block.map Prod.fst = some id))
  | .data id _ => inferInstanceAs (Decidable (id ≠ 0 ∧ s.frame = some id))
  | .connected i => inferInstanceAs (Decidable (i < s.channels.length))
  | .write n => inferInstanceAs (Decidable (∀ buf ∈ s.upstream.head?, n ≤ buf.size))
  | .lost _ => inferInstanceAs (Decidable (s.channels ≠ []))
  | .frameHeader _ | .endStream _ | .closeStream _ | .invalidFrame _ | .rstStream _ | .goAway
  | .connectionError | .writeFailed | .streamWrite _ => isTrue trivial

/-! ## What a step can do -/

def Connection.queued (s : Connection) : List UInt8 :=
  (s.upstream.map GrowableIOBuffer.readable).flatten

def Channel.record (ch : Channel) : Channel := { ch with connected := false, eof := false }

/-- `s'` differs from `s` at most in what has ended: the connection, the current stream, a socket, a
header block. -/
structure Quiet (s s' : Connection) : Prop where
  records_eq : s'.channels.map Channel.record = s.channels.map Channel.record
  requestMap_eq : s'.requestMap = s.requestMap
  paddingSupportInFact_eq : s'.paddingSupportInFact = s.paddingSupportInFact
  numPaddingRecv_eq : s'.numPaddingRecv = s.numPaddingRecv
  paddingInMiddleBuf_eq : s'.paddingInMiddleBuf = s.paddingInMiddleBuf
  upstream_eq : s'.upstream = s.upstream
  block_eq : s'.block = s.block ∨ s'.block = none
  data_eq : s'.data = s.data

inductive Effect (s : Connection) : Event → Connection → Prop where
  | quiet {e : Event} {s' : Connection} (h : Quiet s s') : Effect s e s'
  | beginHeaders (id : ℕ) : Effect s (.beginHeaders id) (s.onBeginHeadersForStream id)
  | header (id : ℕ) (key value : List UInt8) :
      Effect s (.header id key value) (s.onHeaderForStream key value)
  | accepted (id : ℕ) {target : Target} (h : s.request env cfg = some target) :
      Effect s (.endHeaders id) (s.onEndHeadersForStream env cfg id)
  | data (id : ℕ) (bytes : List UInt8) {s' : Connection}
      (h : s.onDataForStream env id bytes = some s') : Effect s (.data id bytes) s'
  | write (n : ℕ) {s' : Connection} (h : s.writeUpstream n = some s') : Effect s (.write n) s'

section Effects

variable {env cfg} {s s' s'' : Connection}

lemma Quiet.refl (s : Connection) : Quiet s s :=
  ⟨rfl, rfl, rfl, rfl, rfl, rfl, Or.inl rfl, rfl⟩

lemma quiet_closeChannel (s : Connection) : Quiet s s.closeChannel := by
  refine ⟨?_, rfl, rfl, rfl, rfl, rfl, Or.inl rfl, rfl⟩
  unfold Connection.closeChannel
  cases s.channels <;> rfl

lemma quiet_onDisconnect (s : Connection) : Quiet s s.onDisconnect := by
  unfold Connection.onDisconnect
  split_ifs
  · exact Quiet.refl s
  · exact { quiet_closeChannel s with }

lemma quiet_onConnectionError (s : Connection) : Quiet s s.onConnectionError :=
  { quiet_onDisconnect { s with failed := true, dataFrame := false, streamId := 0 } with }

lemma quiet_onCloseStream (s : Connection) (id : ℕ) : Quiet s (s.onCloseStream id) := by
  unfold Connection.onCloseStream
  split_ifs <;> exact { Quiet.refl s with }

lemma quiet_onFrameHeader (s : Connection) (id : ℕ) : Quiet s (s.onFrameHeader id) := by
  unfold Connection.onFrameHeader
  by_cases hnew : s.streamId = 0
  · simp only [hnew, if_true]
    split_ifs
    · exact { quiet_onConnectionError { s with streamId := id } with }
    · exact { Quiet.refl s with }
  simp only [hnew, if_false]
  split_ifs
  · exact quiet_onConnectionError s
  · exact { Quiet.refl s with }

lemma quiet_finish (s : Connection) (drained : Bool) : Quiet s (s.finish drained) := by
  unfold Connection.finish
  split_ifs <;> exact { Quiet.refl s with }

lemma quiet_connected (s : Connection) (i : ℕ) : Quiet s (s.connected i) := by
  refine ⟨?_, rfl, rfl, rfl, rfl, rfl, Or.inl rfl, rfl⟩
  apply Lists.map_modify_of_eq
  intro ch
  rfl

lemma quiet_disconnected {drained : Bool} (h : s.disconnected drained = some s') : Quiet s s' := by
  unfold Connection.disconnected at h
  split_ifs at h
  cases h
  have hclose := quiet_closeChannel s
  have hfinish := quiet_finish s.closeChannel drained
  exact ⟨hfinish.records_eq.trans hclose.records_eq, hfinish.requestMap_eq,
    hfinish.paddingSupportInFact_eq, hfinish.numPaddingRecv_eq, hfinish.paddingInMiddleBuf_eq,
    hfinish.upstream_eq, hfinish.block_eq, hfinish.data_eq⟩

lemma quiet_onStreamWrite (s : Connection) (drained : Bool) :
    Quiet s (s.onStreamWrite drained) := by
  unfold Connection.onStreamWrite
  split_ifs
  · exact quiet_finish s drained
  · exact Quiet.refl s

lemma quiet_refused (s : Connection) : Quiet s { s with block := none }.onConnectionError := by
  have h := quiet_onConnectionError { s with block := none }
  refine { h with block_eq := Or.inr ?_ }
  rcases h.block_eq with hblock | hblock <;> exact hblock

variable {e : Event}

lemma effect_of_report (h : report env cfg s e = some s') : Effect env cfg s e s' := by
  cases e with
  | frameHeader id =>
    cases h
    exact .quiet (quiet_onFrameHeader s id)
  | beginHeaders id =>
    cases h
    exact .beginHeaders id
  | header id key value =>
    cases h
    exact .header id key value
  | endHeaders id =>
    cases h
    cases hrequest : s.request env cfg with
    | none =>
      have hrefused : s.onEndHeadersForStream env cfg id =
          { s with block := none }.onConnectionError := by
        simp only [Connection.onEndHeadersForStream, hrequest]
      rw [hrefused]
      exact .quiet (quiet_refused s)
    | some target => exact .accepted id hrequest
  | data id bytes => exact .data id bytes h
  | closeStream id =>
    cases h
    exact .quiet (quiet_onCloseStream s id)
  | rstStream | goAway =>
    cases h
    exact .quiet (quiet_onDisconnect s)
  | connectionError =>
    cases h
    exact .quiet (quiet_onConnectionError s)
  | _ =>
    cases h
    exact .quiet (Quiet.refl s)

lemma effect_of_callback (h : callback s e = some s') : Effect env cfg s e s' := by
  cases e with
  | connected i =>
    cases h
    exact .quiet (quiet_connected s i)
  | write n => exact .write n h
  | writeFailed =>
    cases h
    exact .quiet (quiet_onDisconnect s)
  | lost drained => exact .quiet (quiet_disconnected h)
  | streamWrite drained =>
    cases h
    exact .quiet (quiet_onStreamWrite s drained)
  | _ =>
    cases h
    exact .quiet (Quiet.refl s)

/-- **Inversion.** Every step has one of these effects. -/
theorem effect_of_step (h : step env cfg s e = some s') : Effect env cfg s e s' := by
  unfold step at h
  split_ifs at h with hreport hfailed hclosed
  · cases h
    exact .quiet (Quiet.refl s)
  · exact effect_of_report h
  · cases h
    exact .quiet (Quiet.refl s)
  · exact effect_of_callback h

lemma onEndHeadersForStream_of_some {target : Target} (h : s.request env cfg = some target)
    (id : ℕ) :
    s.onEndHeadersForStream env cfg id =
      { s with
        paddingSupportInFact := s.paddingSupportInFact && s.contains paddingField
        requestMap := []
        block := none
        channels := ⟨id, (s.block.map Prod.snd).getD [], target,
          s.paddingSupportInFact && s.contains paddingField, false, false, []⟩ :: s.channels
        dataFrame := true } := by
  simp only [Connection.onEndHeadersForStream, h, Connection.onConnect]

lemma onDataForStream_frame {id : ℕ} {bytes : List UInt8}
    (h : s.onDataForStream env id bytes = some s') :
    s'.channels = s.channels ∧ s'.requestMap = s.requestMap ∧ s'.block = s.block ∧
      s'.paddingSupportInFact = s.paddingSupportInFact ∧ s'.data = s.data ++ [(id, bytes)] := by
  unfold Connection.onDataForStream at h
  dsimp only at h
  split_ifs at h
  · obtain ⟨buf, -, h⟩ := Option.bind_eq_some_iff.mp h
    obtain ⟨⟨payloads, rest, left⟩, -, h⟩ := Option.bind_eq_some_iff.mp h
    dsimp only at h
    split_ifs at h <;> cases h <;> exact ⟨rfl, rfl, rfl, rfl, rfl⟩
  · cases h
    exact ⟨rfl, rfl, rfl, rfl, rfl⟩

lemma exists_writeUpstream {n : ℕ} (hn : ∀ buf ∈ s.upstream.head?, n ≤ buf.size) :
    ∃ s', s.writeUpstream n = some s' := by
  unfold Connection.writeUpstream
  split
  · rename_i buf rest ch chs hup _
    split_ifs
    · obtain ⟨b, hb, -⟩ := GrowableIOBuffer.setOffset_add (hn buf (by rw [hup]; rfl))
      simp [hb]
    · exact ⟨s, rfl⟩
  · exact ⟨s, rfl⟩

lemma writeUpstream_eq_some {n : ℕ} (h : s.writeUpstream n = some s') :
    s' = s ∨ ∃ ch chs sent upstream, s.channels = ch :: chs ∧
      s.queued = sent ++ (upstream.map GrowableIOBuffer.readable).flatten ∧
      s' = { s with
        channels := { ch with written := ch.written ++ sent } :: chs
        upstream := upstream } := by
  unfold Connection.writeUpstream at h
  split at h
  · rename_i buf rest ch chs hup hchs
    split_ifs at h with hready
    · obtain ⟨b, hb, h⟩ := Option.bind_eq_some_iff.mp h
      have hn : n ≤ buf.size := by
        have hle := (GrowableIOBuffer.setOffset_eq_some hb).1
        unfold GrowableIOBuffer.size
        omega
      obtain ⟨b', hb', hread, -⟩ := GrowableIOBuffer.setOffset_add hn
      rw [hb'] at hb
      cases hb
      cases h
      refine .inr ⟨ch, chs, buf.readable.take n, _, hchs, ?_, rfl⟩
      rw [GrowableIOBuffer.flatten_pop, hread, ← List.append_assoc, List.take_append_drop,
        Connection.queued, hup]
      rfl
    · cases h
      exact .inl rfl
  · cases h
    exact .inl rfl

end Effects

end Yass.Server.Http2

/-! ## Sample streams -/

namespace Yass.Server

/-- `dTpw` is the encoding of `u:p`. -/
def sampleBase64Decode (text : List UInt8) : Option (List UInt8) :=
  if text = [100, 84, 112, 119] then some [117, 58, 112] else none

def sampleHttp2 : Http2.Environment where
  base64Decode := sampleBase64Decode
  parseAuthority text := ⟨none, none, text, []⟩
  parsePort _ := 0
  paddingSupport := true
  junk _ := 0

/-- A stream that sends its header block: a `CONNECT h` with these further fields. -/
def sampleConnect (id : ℕ) (fields : List Http2.Field) : List Http2.Event :=
  [.frameHeader id, .beginHeaders id, .header id Http2.methodField Http2.connectMethod,
    .header id Http2.authorityField [104]] ++ fields.map (fun f => .header id f.1 f.2) ++
    [.endHeaders id]

end Yass.Server
