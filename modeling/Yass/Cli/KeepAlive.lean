import Yass.Lib.Run
import Yass.Net.HttpRequest

/-!
# The client as an HTTP proxy with keep-alive

`CliConnection` for a client that speaks HTTP: the first request opens a channel; with keep-alive
the following ones are parsed again, one by one, and a request for another host closes the channel
and opens a new one.

* `onReadHttpRequest`, `onReadHttpRequestAfterReuse`, `getNextUpstreamBuf`, `onStreamRead` — under
  the source's names.
* `Event`, `step` — a run of `ReadMethodSelect` or `GetNextUpstreamBuf`, the completion of a
  connect, a write, a lost channel. `none` is an abort, an access outside an allocation, or the use
  of a null buffer.
* `Enabled` — what can happen: the client is read only while the upstream queue is empty, and before
  the channel is connected only if a read has been scheduled.

What the upstream protocol does to the bytes of a channel, and its own header, are left out: the
queue holds the bytes of the client. A client whose first byte is 4 or 5 speaks SOCKS and is left
out too.

Source: `cli/cli_connection.cpp`.
-/

namespace Yass.Cli

open Yass.Net

/-! ## State -/

structure Environment where
  /-- `HttpRequestParser::Parse` of a new parser. -/
  parse : List UInt8 → HttpRequestParser
  canonUri : List UInt8 → List UInt8
  /-- `request_.domain_name()` after `OnCmdConnect` for a host: an address literal, or a name that
  is resolved locally, comes back as the text of the address. -/
  domainName : List UInt8 → List UInt8
  domainName_domainName : ∀ host, domainName (domainName host) = domainName host
  junk : ℕ → UInt8

/-- `request_` for a target. -/
def Environment.request (env : Environment) (t : Target) : Target := ⟨env.domainName t.host, t.port⟩

structure Channel where
  /-- `request_`, for which it was opened. -/
  request : Target
  connected : Bool
  eof : Bool
  deriving DecidableEq, Repr

/-- A `CliConnection` of an HTTP client. -/
structure Connection where
  closed : Bool
  streaming : Bool
  isKeepAlive : Bool
  remainingBytes : ℤ
  pendingBuf : Option GrowableIOBuffer
  previousBuf : Option GrowableIOBuffer
  /-- `http_host_` and `http_port_`. -/
  target : Target
  isConnect : Bool
  pendingData : List GrowableIOBuffer
  upstream : List GrowableIOBuffer
  channel : Option Channel
  readScheduled : Bool
  written : List (Target × UInt8)
  received : List UInt8

def start : Connection where
  closed := false
  streaming := false
  isKeepAlive := false
  remainingBytes := 0
  pendingBuf := none
  previousBuf := none
  target := ⟨[], 0⟩
  isConnect := false
  pendingData := []
  upstream := []
  channel := none
  readScheduled := false
  written := []
  received := []

/-- `"Keep-Alive"`. -/
def keepAliveText : List UInt8 := [75, 101, 101, 112, 45, 65, 108, 105, 118, 101]

/-- `kMaxHeaderSize` of `OnStreamRead`. -/
def kMaxHeaderSize : ℕ := 1024 * 1024 + 1024

namespace Connection

/-- `channel_ && channel_->connected()`. -/
def isConnected (s : Connection) : Bool := s.channel.any Channel.connected

def onDisconnect (s : Connection) : Connection := { s with closed := true }

def receive (s : Connection) (bytes : List UInt8) : Connection :=
  { s with received := s.received ++ bytes }

def onStreamRead (s : Connection) (buf : GrowableIOBuffer) : Connection :=
  if !s.isConnected then
    if (s.pendingData.map GrowableIOBuffer.size).sum + buf.size > kMaxHeaderSize then s.onDisconnect
    else { s with pendingData := s.pendingData ++ [buf] }
  else { s with upstream := s.upstream ++ [buf] }

/-! ## Parsing a request -/

/-- The end of `OnReadHttpRequest` for a request that is not a `CONNECT`, with the rewritten buffer.
`http_keep_alive_remaining_bytes_` is computed in 64 bits without a sign and read with one; what
`copyBuffer` would take with a size below zero is not defined. -/
def keepAliveSplit (s : Connection) (parser : HttpRequestParser) (header : List UInt8)
    (junk : ℕ → UInt8) (buf : GrowableIOBuffer) : Option (Connection × GrowableIOBuffer) :=
  let isKeepAlive := equalsCaseInsensitiveAscii parser.connection keepAliveText
  let requestSize : ℕ := (parser.contentLength.toNat + header.length) % 2 ^ 64
  let remaining := Int.bmod (requestSize - buf.size) (2 ^ 64)
  if isKeepAlive = true ∧ remaining < 0 then
    if buf.size < requestSize then none
    else do
      let rest := buf.readable.drop requestSize
      let buf ← buf.setCapacity junk requestSize
      some ({ s with
        isKeepAlive := !parser.transferEncodingIsChunked
        remainingBytes := 0
        pendingBuf := some (.copyBuffer rest) }, buf)
  else
    some ({ s with
      isKeepAlive := isKeepAlive && !parser.transferEncodingIsChunked
      remainingBytes := remaining }, buf)

/-- `OnReadHttpRequest`: the state, the buffer, and whether a request was accepted. -/
def onReadHttpRequest (env : Environment) (s : Connection) (buf : GrowableIOBuffer) :
    Option (Connection × GrowableIOBuffer × Bool) :=
  let parser := env.parse buf.readable
  let s := { s with isKeepAlive := false, remainingBytes := 0 }
  if parser.ok then
    let s := { s with
      target := ⟨parser.host, parser.port⟩
      isConnect := parser.isConnect }
    if parser.isConnect then do
      let buf ← buf.setOffset (buf.offset + parser.nparsed)
      some (s, buf, true)
    else do
      let buf ← cliRewriteRequest env.junk env.canonUri parser buf
      let (s, buf) ←
        s.keepAliveSplit parser (parser.reforgeHttpRequest env.canonUri []) env.junk buf
      some (s, buf, true)
  else some (s, buf, false)

/-- `PerformCmdOpsHttp`: `none` for a target that is refused, else the new channel. -/
def performCmdOpsHttp (env : Environment) (s : Connection) : Option Connection :=
  if s.target.host.length > tlsextMaxlenHostName ∨ s.target.host = [] ∨ s.target.port = 0 then none
  else some { s with channel := some ⟨env.request s.target, false, false⟩ }

/-! ## The first request -/

/-- `ReadMethodSelect` and `ProcessReceivedData` for the first request. -/
def readMethodSelect (env : Environment) (s : Connection) : ReadOutcome → Option Connection
  | .wouldBlock => some s
  | .error => some s.onDisconnect
  | .data bytes => do
    let buf ← GrowableIOBuffer.readSome env.junk socketBufSize bytes
    match ← (s.receive bytes).onReadHttpRequest env buf with
    | (s, _, false) => some s.onDisconnect
    | (s, buf, true) =>
      match s.performCmdOpsHttp env with
      | none => some s.onDisconnect
      | some s =>
        let s := { s with streaming := true }
        some (if buf.isEmpty then { s with readScheduled := true } else s.onStreamRead buf)

/-! ## Later requests -/

/-- What `OnReadHttpRequestAfterReuse` returns. -/
inductive Reuse where
  | same (s : Connection) (buf : GrowableIOBuffer)
  /-- `invalid_argument`, with the buffer still there. -/
  | invalid (s : Connection) (buf : GrowableIOBuffer)
  /-- `try_again`: a new channel is being opened, and the request waits for it. -/
  | reopened (s : Connection)

/-- `OnReadHttpRequestAfterReuse`. A target that is refused here is refused with the buffer gone,
and the caller uses it. -/
def onReadHttpRequestAfterReuse (env : Environment) (s : Connection) (buf : GrowableIOBuffer) :
    Option Reuse := do
  match ← s.onReadHttpRequest env buf with
  | (s, buf, false) => some (.invalid s buf)
  | (s, buf, true) =>
    if s.isConnect then some (.invalid s buf)
    else if s.channel.map Channel.request ≠ some s.target then do
      let s := { s with channel := none }.onStreamRead buf
      let s ← s.performCmdOpsHttp env
      some (.reopened s)
    else some (.same s buf)

/-- `GetNextUpstreamBuf` from `after_read` on; `read` is the number of bytes just read. -/
def afterRead (env : Environment) (s : Connection) (buf : GrowableIOBuffer) (read : ℕ) :
    Option Connection :=
  if !s.isConnected then some { s.onStreamRead buf with readScheduled := true }
  else if s.isKeepAlive then
    if s.remainingBytes = 0 then do
      match ← s.onReadHttpRequestAfterReuse env buf with
      | .same s buf => some { s with upstream := s.upstream ++ [buf] }
      | .invalid s buf =>
        if buf.size < 64 * 1024 then
          some { s with previousBuf := some buf, readScheduled := true }
        else some s
      | .reopened s => some { s with readScheduled := true }
    else if s.remainingBytes < read then
      -- `remainingBytes` is positive here, or the pointer below is in front of the buffer
      if s.remainingBytes < 0 then none
      else do
        let n := s.remainingBytes.toNat
        let rest := buf.readable.drop n
        let buf ← buf.setCapacity env.junk n
        some { s with
          remainingBytes := 0
          pendingBuf := some (.copyBuffer rest)
          upstream := s.upstream ++ [buf] }
    else
      some { s with
        remainingBytes := s.remainingBytes - read
        upstream := s.upstream ++ [buf] }
  else some { s with upstream := s.upstream ++ [buf] }

/-- The buffer of a read: a new one, or `http_keep_alive_previous_buf_`, whose bytes the read then
overwrites. -/
def readBuffer (env : Environment) (s : Connection) (bytes : List UInt8) :
    Option GrowableIOBuffer :=
  match s.isKeepAlive, s.previousBuf with
  | true, some previous => do
    let buf ← previous.store previous.offset bytes
    buf.setCapacity env.junk (previous.capacity + bytes.length)
  | _, _ => GrowableIOBuffer.readSome env.junk socketBufSize bytes

/-- `http_is_keep_alive_ && http_keep_alive_pending_buf_`: what is taken instead of a read. -/
def resumed (s : Connection) : Option GrowableIOBuffer :=
  if s.isKeepAlive then s.pendingBuf else none

/-- `GetNextUpstreamBuf`. `outcome` is what the client socket gives, if it is read. -/
def getNextUpstreamBuf (env : Environment) (s : Connection) (outcome : ReadOutcome) :
    Option Connection :=
  if s.upstream ≠ [] then some s
  else
    match s.resumed with
    | some buf => { s with pendingBuf := none }.afterRead env buf buf.size
    | none =>
      let dropped := if s.isKeepAlive then { s with previousBuf := none } else s
      match outcome with
      | .wouldBlock => some { dropped with readScheduled := true }
      | .error => some dropped.onDisconnect
      | .data bytes => do
        let buf ← s.readBuffer env bytes
        (dropped.receive bytes).afterRead env buf bytes.length

/-! ## The channel -/

/-- `connected`: what was waiting goes to the new channel. -/
def onConnected (s : Connection) : Connection :=
  { s with
    channel := s.channel.map fun ch => { ch with connected := true }
    upstream := s.upstream ++ s.pendingData
    pendingData := [] }

/-- `write_some` of the front of the queue: the channel takes `n` bytes. -/
def writeUpstream (s : Connection) (n : ℕ) : Option Connection :=
  match s.upstream, s.channel with
  | buf :: rest, some ch =>
    if ch.connected && !ch.eof && !buf.isEmpty then do
      let sent := buf.readable.take n
      let buf ← buf.setOffset (buf.offset + n)
      some { s with
        written := s.written ++ sent.map (ch.request, ·)
        upstream := if buf.isEmpty then rest else buf :: rest }
    else some s
  | _, _ => some s

def disconnected (s : Connection) : Connection :=
  { s with channel := s.channel.map fun ch => { ch with connected := false, eof := true } }

end Connection

/-! ## Runs -/

inductive Event where
  /-- The next bytes are wanted; `outcome` is what the client socket gives if it is read. -/
  | pull (outcome : ReadOutcome)
  | connected
  | write (n : ℕ)
  | writeFailed
  | lost
  deriving DecidableEq, Repr

variable (env : Environment)

def step (s : Connection) (e : Event) : Option Connection :=
  if s.closed then some s
  else
    match e with
    | .pull outcome =>
      if s.streaming then s.getNextUpstreamBuf env outcome else s.readMethodSelect env outcome
    | .connected => some s.onConnected
    | .write n => s.writeUpstream n
    | .writeFailed => some s.onDisconnect
    | .lost => some s.disconnected

/-- The client is read before the first request, and then while the queue is empty, if the channel
is connected or a read has been scheduled. -/
def Wanted (s : Connection) : Prop :=
  s.streaming = true → s.upstream = [] ∧ (s.isConnected = true ∨ s.readScheduled = true)

def Enabled (s : Connection) : Event → Prop
  | .pull (.data bytes) => (bytes ≠ [] ∧ bytes.length ≤ socketBufSize) ∧ Wanted s
  | .pull _ => Wanted s
  | .connected => (s.channel.any fun ch => !ch.connected && !ch.eof) = true
  | .write n => s.isConnected = true ∧ ∀ buf ∈ s.upstream.head?, n ≤ buf.size
  | .writeFailed | .lost => s.channel.isSome = true

instance (s : Connection) : Decidable (Wanted s) := inferInstanceAs (Decidable (_ → _))

instance (s : Connection) : (e : Event) → Decidable (Enabled s e)
  | .pull (.data _) => inferInstanceAs (Decidable ((_ ∧ _) ∧ _))
  | .pull .wouldBlock | .pull .error => inferInstanceAs (Decidable (Wanted s))
  | .connected | .writeFailed | .lost => inferInstanceAs (Decidable (_ = true))
  | .write _ => inferInstanceAs (Decidable (_ ∧ _))

end Yass.Cli
