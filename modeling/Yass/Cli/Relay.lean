import Yass.Cli.KeepAlive
import Yass.Cli.Upstream
import Yass.Net.PaddedStream
import Yass.Net.Pipe

/-!
# The relay of a client connection

`CliConnection` after its local handshake, for every kind of upstream: the loops that move bytes
between the local application and the upstream server, the handshake with that server, and every
call by which they resume each other.

* `writeStream`, `writeUpstreamInPipe`, `readUpstream` — the loops with their getters. What the
  sockets, the clock and the HTTP/2 adapter answer is given to each call as a script. A loop whose
  script is used up finds that nothing can be read or written.
* `Event`, `step` — the callbacks of the event loop. A callback that is not outstanding does
  nothing.

What is made of the requests of a local HTTP client (`Cli/KeepAlive`) is part of the script. The
replies of a local SOCKS handshake do not go through `downstream_`; of them there is only the
completion. `WriteStream` can call itself again in `OnStreamWrite`; the inner call finds nothing
left to do.

`try_again` and `would_block` are one outcome, as everywhere in the loops. A `std::move` of an
`error_code` copies it, so a pending read error stays. `blocked_stream_` and
`upstream_https_chunked_` are never set. Rate limits are off. `none` is an abort or the use of a
null pointer.

Source: `cli/cli_connection.cpp`, `cli/cli_connection.hpp`, `net/stream.hpp`.
-/

namespace Yass.Cli.Relay

open Yass.Net

/-- `method()`, as far as the relay tells the methods apart. -/
inductive Method where
  | https
  | socks4
  | socks4a
  /-- `CRYPTO_SOCKS5` and `CRYPTO_SOCKS5H`. -/
  | socks5
  | cipher
  | http2
  deriving DecidableEq, Repr

structure Environment where
  cipher : CipherEnv
  h2ConnWindowSize : ℕ
  paddingSupport : Bool
  /-- `remote_config_.username` and `remote_config_.password`. -/
  username : List UInt8
  password : List UInt8
  /-- The ciphers that `connected` creates. -/
  encoder : Cipher
  decoder : Cipher
  /-- `HttpResponseParser::Parse` of a new parser. -/
  parseResponse : List UInt8 → Upstream.Response
  /-- `to_string` of an address. -/
  toText : List UInt8 → List UInt8
  isV6 : List UInt8 → Bool
  identity : List UInt8 → List UInt8 → List UInt8

def Environment.authRequired (env : Environment) : Bool :=
  !env.username.isEmpty && !env.password.isEmpty

/-- A response header, for the concrete environment: `"200"` and a blank line. -/
def sampleHeader : List UInt8 := [50, 48, 48, 13, 10, 13, 10]

def Environment.sample (paddingSupport : Bool) (username password : List UInt8) : Environment where
  cipher := .sample fun _ => false
  h2ConnWindowSize := 65536
  paddingSupport := paddingSupport
  username := username
  password := password
  encoder := Cipher.create (.sample fun _ => false) .aes256Ctr password
  decoder := Cipher.create (.sample fun _ => false) .aes256Ctr password
  parseResponse bytes :=
    if sampleHeader.isPrefixOf bytes then ⟨true, 200, sampleHeader.length⟩ else ⟨false, 0, 0⟩
  toText := id
  isV6 _ := false
  identity username password := username ++ [58] ++ password

/-! ## Scripts -/

/-- What one turn of the loop of `WriteStream` meets. -/
structure DownTurn where
  /-- The answer of `downlink_->write_some`. -/
  write : Sent
  /-- `GetMonotonicTime() > yield_after_time`. -/
  late : Bool
  deriving DecidableEq, Repr

structure Chunk where
  /-- The random padding size of `AddPadding`. -/
  padding : ℕ
  frames : List Frame
  /-- The calls of `WriteStream` in `disconnected`. -/
  lost : List DownTurn
  deriving DecidableEq, Repr

inductive Http where
  | asIs
  /-- A request is passed on rewritten, or the part of a read that belongs to a body. -/
  | rewritten (bytes : List UInt8) (h : bytes ≠ [])
  | held
  | refused
  /-- A request for another host: the channel is closed and a new one opened, at once or when the
  name is resolved. -/
  | reopened (request : Option Ss.Request) (bytes : List UInt8) (h : bytes ≠ [])

/-- What one turn of the loop of `WriteUpstreamInPipe` meets. -/
structure UpTurn where
  read : ReadOutcome
  http : Http
  chunk : Chunk
  /-- The answer of `channel_->write_some`, if the turn writes. -/
  write : Sent
  late : Bool

def UpTurn.idle : UpTurn := ⟨.wouldBlock, .asIs, ⟨0, [], []⟩, .wouldBlock, false⟩

/-- What `ProcessBytes` reports to the connection. -/
inductive Visit where
  /-- The end of the header block of the response, with or without a `padding` field. -/
  | endHeaders (padding : Bool)
  | data (bytes : List UInt8)
  | endStream
  | closeStream
  | connectionError
  /-- `OnRstStream`, `OnGoAway`. -/
  | disconnect
  deriving DecidableEq, Repr

inductive Processed where
  | consumed
  | error
  | refused
  deriving DecidableEq, Repr

structure DownRead where
  read : ReadOutcome
  visits : List Visit
  processed : Processed
  /-- The calls of `WriteStream` in `disconnected`. -/
  lost : List DownTurn
  /-- The calls of `WriteUpstreamInPipe` behind a method selection and behind an authentication. -/
  selected : List UpTurn
  authenticated : List UpTurn

/-- What one call of `ReadUpstream` meets. -/
structure DownScript where
  reads : List DownRead
  /-- What the adapter sends behind that, if it wants to, and the call of `WriteUpstreamInPipe`. -/
  control : Option (List Frame × List UpTurn)
  write : List DownTurn

/-! ## State -/

structure Flags where
  /-- `upstream_https_handshake_`. -/
  https : Bool
  /-- `socks5_method_select_handshake_`. -/
  methodSelect : Bool
  /-- `socks5_auth_handshake_`. -/
  auth : Bool
  /-- `socks_handshake_`. -/
  socks : Bool
  deriving DecidableEq, Repr

/-- A `CliConnection` in `state_stream`. -/
structure Connection where
  method : Method
  started : Bool
  closed : Bool
  shutdown : Bool
  /-- The reply of a local SOCKS handshake is being written. -/
  replying : Bool
  down : Pipe
  up : Pipe
  /-- `pending_data_`: what was read before the channel is connected. -/
  pendingData : List GrowableIOBuffer
  encoder : Cipher
  decoder : Cipher
  channel : Option Net.Channel
  request : Ss.Request
  flags : Flags
  /-- `remote_cipher_` has become `CRYPTO_HTTPS`. -/
  fallback : Bool
  /-- `adapter_`, as the number of the channel for which it was created. -/
  adapter : Option ℕ
  dataFrame : Option DataFrameSource
  streamRecvEof : Bool
  padding : PaddingState
  pendingDownstreamReadError : Bool
  pendingUpstreamReadError : Bool
  /-- `write_inprogress_`: the client socket is waited for to become writable. -/
  writeInprogress : Bool
  /-- `downstream_read_inprogress_`: the client socket is waited for to become readable. -/
  downstreamReadInprogress : Bool
  upstreamWritable : Bool
  channels : ℕ
  reads : List (ℕ × List UInt8)
  app : List UInt8
  refused : Bool

def start (env : Environment) (method : Method) : Connection where
  method := method
  started := false
  closed := false
  shutdown := false
  replying := false
  down := .new
  up := .new
  pendingData := []
  encoder := env.encoder
  decoder := env.decoder
  channel := none
  request := .empty
  flags := ⟨true, false, false, false⟩
  fallback := false
  adapter := none
  dataFrame := none
  streamRecvEof := false
  padding := .new false
  pendingDownstreamReadError := false
  pendingUpstreamReadError := false
  writeInprogress := false
  downstreamReadInprogress := false
  upstreamWritable := false
  channels := 0
  reads := []
  app := []
  refused := false

/-- How a turn of the loop of `WriteStream` ends. -/
inductive DownExit where
  | goesOn
  /-- With the local variables `try_again` and `ec`. -/
  | breaks (tryAgain : Bool) (ec : Ec)
  deriving DecidableEq, Repr

/-- How a turn of the loop of `WriteUpstreamInPipe` ends. -/
inductive UpExit where
  | goesOn
  | breaks (ec : Ec)
  | returns
  deriving DecidableEq, Repr

inductive Put where
  | queued
  | gone
  | failed
  deriving DecidableEq, Repr

/-- How a stage of the handshake with the upstream server leaves the buffer of a read. -/
inductive Stage where
  /-- `GetNextDownstreamBuf` returns without a buffer. -/
  | stops (ec : Ec)
  | passes (buf : GrowableIOBuffer)

namespace Connection

/-- `channel_ && channel_->connected()`. -/
def connectedNow (s : Connection) : Bool := s.channel.any Net.Channel.connected

/-- A change of `*channel_`. -/
def modifyChannel (s : Connection) (f : Net.Channel → Net.Channel) : Connection :=
  { s with channel := s.channel.map f }

/-- `channel_->close()`. -/
def closeChannel (s : Connection) : Connection := s.modifyChannel Net.Channel.close

/-- `OnDisconnect`, which calls `close`. -/
def onDisconnect (s : Connection) : Connection :=
  if s.closed then s else { s.closeChannel with closed := true }

/-! ## Waiting -/

/-- `ReadUpstreamAsync`, where the loops call it. -/
def waitRead (s : Connection) : Connection := s.modifyChannel Net.Channel.waitRead

/-- `ReadStream`: wait until the client socket is readable, or, to yield, until the event loop comes
round. -/
def readStream (s : Connection) : Connection :=
  if s.downstreamReadInprogress || s.closed then s else { s with downstreamReadInprogress := true }

/-- `OnUpstreamWriteFlush`: wait until the channel is writable. -/
def onUpstreamWriteFlush (s : Connection) : Connection :=
  if !s.up.queue.isEmpty && s.upstreamWritable then
    { s with upstreamWritable := false }.modifyChannel Net.Channel.waitWrite
  else s

/-! ## Towards the application -/

/-- `OnDownstreamWriteFlush`, where `again` is `WriteStream`. -/
def onDownstreamWriteFlush (again : Connection → Option Connection) (s : Connection) :
    Option Connection :=
  if !s.down.queue.isEmpty && !s.writeInprogress then again s else some s

/-- The end of `OnStreamWrite`: the downlink is shut down when the server is at its end and
everything is sent. -/
def shutdownWhenSent (s : Connection) : Connection :=
  if (s.channel.any fun ch => ch.eof || s.streamRecvEof) && s.down.queue.isEmpty && !s.shutdown then
    { s with shutdown := true }
  else s

def onStreamWrite (again : Connection → Option Connection) (s : Connection) : Option Connection :=
  (s.onDownstreamWriteFlush again).map shutdownWhenSent

def processSentData (again : Connection → Option Connection) (s : Connection) (ec : Ec)
    (bytesTransferred : ℕ) : Option Connection :=
  if ec = .ok then
    if bytesTransferred = 0 then some s else s.onStreamWrite again
  else some s.onDisconnect

/-- One turn of the loop of `WriteStream`; `w` is the number of bytes written before. -/
def downTurn (s : Connection) (w : ℕ) (t : DownTurn) : Option (Connection × ℕ × DownExit) :=
  if s.down.queue.isEmpty then some (s, w, .breaks true .ok)
  else do
    let (down, written, empty) ← s.down.writeFront t.write.room
    let s := { s with down }
    let w := w + written
    match t.write with
    | .wouldBlock => some (s, w, .breaks false .tryAgain)
    | .failed => some (s, w, .breaks false .failed)
    | .bytes _ =>
      if !empty then some (s, w, .breaks false .tryAgain)
      else if decide (kYieldAfterBytesRead < w) || t.late then
        if s.down.queue.isEmpty then some (s, w, .breaks true .ok)
        else some (s, w, .breaks false .tryAgain)
      else some (s, w, .goesOn)

/-- The loop of `WriteStream`. -/
def downLoop : List DownTurn → Connection → ℕ → Option (Connection × ℕ × DownExit)
  | [], s, w => s.downTurn w ⟨.wouldBlock, false⟩
  | t :: ts, s, w => do
    match ← s.downTurn w t with
    | (s, w, .goesOn) => downLoop ts s w
    | (s, w, .breaks tryAgain ec) => some (s, w, .breaks tryAgain ec)

/-- The end of `WriteStream`: it waits for the socket, or reports what it has sent. -/
def sentDown (again : Connection → Option Connection) (s : Connection) (w : ℕ) (ec : Ec) :
    Option Connection :=
  if ec = .tryAgain then
    let s := { s with writeInprogress := true }
    if w = 0 then some s else s.processSentData again .ok w
  else s.processSentData again ec w

/-- What `WriteStream` does behind its loop. -/
def afterDown (again : Connection → Option Connection) (s : Connection) (w : ℕ) :
    DownExit → Option Connection
  | .goesOn => some s
  | .breaks tryAgain ec => (if tryAgain then s.waitRead else s).sentDown again w ec

/-- `WriteStream`, where `again` is the same function called from inside. -/
def writeStreamWith (again : Connection → Option Connection) (turns : List DownTurn)
    (s : Connection) : Option Connection :=
  if s.writeInprogress then some s
  else do
    let (s, w, exit) ← downLoop turns s 0
    s.afterDown again w exit

def writeStream (turns : List DownTurn) : Connection → Option Connection :=
  writeStreamWith (writeStreamWith some []) turns

def disconnected (turns : List DownTurn) (s : Connection) : Option Connection :=
  if s.channel.isNone then none
  else
    let s := { s with upstreamWritable := false }.closeChannel
    if s.down.queue.isEmpty && !s.shutdown then some { s with shutdown := true }
    else s.writeStream turns

/-! ## Sending frames -/

/-- `OnReadyToSend`, called by the adapter itself or by `DataFrameSource::Send`. -/
def sendFrame (s : Connection) : Frame → Option Connection
  | .control bytes => some { s with up := s.up.push (.copyBuffer bytes) }
  | .data header max =>
    match s.dataFrame with
    | none => some s
    | some src => do
      match ← src.send max with
      | none => some s
      | some (payload, src) =>
        some { s with
          up := s.up.push (.copyBuffer (header ++ payload))
          dataFrame := some src }

def sendIfNotProcessing (s : Connection) (frames : List Frame) : Option Connection :=
  if s.method = .http2 then frames.foldlM sendFrame s else some s

/-- `ResumeStream` and `SendIfNotProcessing`, where there is a stream. -/
def resumeStream (s : Connection) (frames : List Frame) : Option Connection :=
  if s.dataFrame.isSome then s.sendIfNotProcessing frames else some s

/-! ## Chunks of the application -/

def put (env : Environment) (s : Connection) (paddingSize : ℕ) (buf : GrowableIOBuffer) :
    Option (Connection × Put) :=
  match s.method with
  | .http2 =>
    match s.dataFrame with
    | none => some (s, .gone)
    | some src => do
      let (padding, chunk) ← s.padding.send env.cipher.junk buf paddingSize
      some ({ s with
        padding
        dataFrame := some { src with chunks := src.chunks ++ [chunk] }
        app := s.app ++ buf.readable }, .queued)
  | .cipher => do
    let (encoder, ok, up) ← s.up.encryptData env.cipher s.encoder buf
    some ({ s with encoder, up, app := s.app ++ buf.readable }, if ok then .queued else .failed)
  | .https | .socks4 | .socks4a | .socks5 =>
    some ({ s with up := s.up.push buf, app := s.app ++ buf.readable }, .queued)

/-- `put`, and `on_protocol_error` where the cipher reports one. The `Bool` is `false` where the
stream is gone. -/
def passOn (env : Environment) (s : Connection) (c : Chunk) (buf : GrowableIOBuffer) :
    Option (Connection × Bool) := do
  match ← s.put env c.padding buf with
  | (s, .queued) => some (s, true)
  | (s, .gone) => some (s, false)
  | (s, .failed) => (s.disconnected c.lost).map fun s => (s, true)

/-- `OnStreamRead` while there is no channel that is connected. -/
def pend (s : Connection) (buf : GrowableIOBuffer) : Connection :=
  if (s.pendingData.map GrowableIOBuffer.size).sum + buf.size > kMaxHeaderSize then s.onDisconnect
  else { s with pendingData := s.pendingData ++ [buf] }

def onStreamRead (env : Environment) (c : Chunk) (s : Connection) (buf : GrowableIOBuffer) :
    Option Connection :=
  if !s.connectedNow then some (s.pend buf)
  else do
    let (s, alive) ← s.passOn env c buf
    if alive then (s.resumeStream c.frames).map onUpstreamWriteFlush else some s

/-- `OnReadHttpRequestAfterReuse` for another host, or for one that is to be resolved first. -/
def reopen (s : Connection) (request : Option Ss.Request) (buf : GrowableIOBuffer) : Connection :=
  let s := { s with upstreamWritable := false, channel := none }.pend buf
  { s with
    request := request.getD .empty
    channel := request.map fun _ => .new }

/-! ## Towards the server -/

/-- The end of `GetNextUpstreamBuf`. Returns the error, whether reading is blocked, and whether
there is a buffer. -/
def outUp (s : Connection) (c : Chunk) (ec : Ec) (blocked read : Bool) :
    Option (Connection × Ec × Bool × Bool) := do
  let s ← s.resumeStream c.frames
  if s.up.queue.isEmpty then
    some (s, if ec = .ok then .tryAgain else ec, blocked || read, false)
  else
    some ({ s with pendingUpstreamReadError := s.pendingUpstreamReadError || ec == .failed },
      ec, blocked, true)

def passUp (env : Environment) (s : Connection) (c : Chunk) (buf : GrowableIOBuffer) :
    Option (Connection × Ec × Bool × Bool) := do
  let (s, alive) ← s.passOn env c buf
  if alive then s.outUp c .ok false true else some (s, .failed, false, false)

/-- `GetNextUpstreamBuf` from `after_read` on. -/
def afterRead (env : Environment) (s : Connection) (t : UpTurn) (buf : GrowableIOBuffer) :
    Option (Connection × Ec × Bool × Bool) :=
  if !s.connectedNow then some (s.pend buf, .tryAgain, false, false)
  else
    match t.http with
    | .asIs => s.passUp env t.chunk buf
    | .rewritten bytes _ => s.passUp env t.chunk (.copyBuffer bytes)
    | .held => some (s, .tryAgain, false, false)
    | .refused => some (s, .failed, false, false)
    | .reopened request bytes _ =>
      some (s.reopen request (.copyBuffer bytes), .tryAgain, false, false)

/-- `GetNextUpstreamBuf`. Returns the error, whether reading is blocked, and whether there is a
buffer. -/
def getNextUpstreamBuf (env : Environment) (s : Connection) (t : UpTurn) :
    Option (Connection × Ec × Bool × Bool) :=
  if !s.up.queue.isEmpty then
    -- pending on the upstream handshake
    if (s.flags.methodSelect || s.flags.auth) && s.up.queue.front.all GrowableIOBuffer.isEmpty then
      some (s, .tryAgain, false, false)
    else some (s, .ok, false, true)
  else if s.pendingUpstreamReadError then some (s, .failed, false, false)
  else if s.closed then some (s, .failed, false, false)
  -- data waits to be sent, reading is deferred
  else if s.dataFrame.any fun src => !src.chunks.isEmpty then s.outUp t.chunk .tryAgain true false
  else
    match t.read with
    -- `ProcessReceivedData` closes the connection
    | .error => s.onDisconnect.outUp t.chunk .failed false false
    | .wouldBlock | .data [] => s.outUp t.chunk .tryAgain false false
    | .data (b :: bs) => do
      let buf ← GrowableIOBuffer.readSome env.cipher.junk socketBufSize (b :: bs)
      s.afterRead env t buf

/-- The second half of a turn: the front of the queue is handed to the channel. `w` is the number of
bytes written before, and `tryAgain` the local variable of that name. -/
def upWrite (s : Connection) (w : ℕ) (tryAgain : Bool) (t : UpTurn) :
    Option (Connection × ℕ × Bool × UpExit) :=
  match t.write with
  | .wouldBlock => some (s, w, tryAgain, .breaks .tryAgain)
  | .failed => do
    -- `write_some` calls `disconnected`
    let s ← s.disconnected t.chunk.lost
    some (s.onDisconnect, w, tryAgain, .returns)
  | .bytes n => do
    let (up, written, empty) ← s.up.writeFront n
    let s := { s with up }
    let w := w + written
    if !empty then some (s, w, tryAgain, .breaks .tryAgain)
    else if decide (kYieldAfterBytesRead < w) || t.late then
      if s.up.queue.isEmpty then some (s, w, true, .breaks .ok)
      else some (s, w, tryAgain, .breaks .tryAgain)
    else some (s, w, tryAgain, .goesOn)

/-- One turn of the loop of `WriteUpstreamInPipe`. -/
def upTurn (env : Environment) (s : Connection) (w : ℕ) (tryAgain : Bool) (t : UpTurn) :
    Option (Connection × ℕ × Bool × UpExit) := do
  let (s, ec, blocked, got) ← s.getNextUpstreamBuf env t
  if ec = .failed then some (s, w, tryAgain, .returns)
  else
    let tryAgain := tryAgain || (ec == .tryAgain && !blocked)
    let ec := if ec = .tryAgain ∧ blocked = false then .ok else ec
    if !got || s.up.queue.front.all GrowableIOBuffer.isEmpty then some (s, w, tryAgain, .breaks ec)
    else if !s.connectedNow || s.channel.any Net.Channel.eof then
      some (s, w, tryAgain, .breaks .tryAgain)
    else s.upWrite w tryAgain t

/-- What `WriteUpstreamInPipe` does behind its loop. -/
def afterUp (s : Connection) (tryAgain : Bool) (ec : Ec) : Connection :=
  let s := if tryAgain then s.readStream else s
  if ec = .tryAgain then s.onUpstreamWriteFlush else s

/-- The loop of `WriteUpstreamInPipe`, and what is behind it. -/
def upLoop (env : Environment) : List UpTurn → Connection → ℕ → Bool → Option Connection
  | [], s, w, tryAgain => do
    match ← s.upTurn env w tryAgain .idle with
    | (s, _, tryAgain, .breaks ec) => some (s.afterUp tryAgain ec)
    | (s, _, _, _) => some s
  | t :: ts, s, w, tryAgain => do
    match ← s.upTurn env w tryAgain t with
    | (s, w, tryAgain, .goesOn) => upLoop env ts s w tryAgain
    | (s, _, tryAgain, .breaks ec) => some (s.afterUp tryAgain ec)
    | (s, _, _, .returns) => some s

def writeUpstreamInPipe (env : Environment) (turns : List UpTurn) (s : Connection) :
    Option Connection :=
  if s.channel.any Net.Channel.writeInprogress then some s else upLoop env turns s 0 false

/-! ## The handshake with the server -/

/-- The front of `upstream_` gets the bytes of a message, and is written. -/
def patchFront (env : Environment) (up : List UpTurn) (bytes : List UInt8) (s : Connection) :
    Option Connection := do
  let pipe ← s.up.appendFront env.cipher.junk bytes
  { s with up := pipe }.writeUpstreamInPipe env up

def writeUpstreamAuthRequest (env : Environment) (up : List UpTurn) (s : Connection) :
    Option Connection :=
  s.patchFront env up (Upstream.authRequest env.username env.password)

def writeUpstreamSocks5Request (env : Environment) (up : List UpTurn) (s : Connection) :
    Option Connection :=
  { s with flags := { s.flags with socks := true } }.patchFront env up
    (Upstream.socks5Request s.request)

def refuse (lost : List DownTurn) (s : Connection) : Option (Connection × Stage) :=
  ({ s with refused := true }.disconnected lost).map fun s => (s, .stops .failed)

def leave (s : Connection) (buf : GrowableIOBuffer) : Connection × Stage :=
  (s, if buf.isEmpty then .stops .tryAgain else .passes buf)

def readUpstreamMethodSelectResponse (env : Environment) (r : DownRead) (s : Connection)
    (buf : GrowableIOBuffer) : Option (Connection × Stage) :=
  let s := { s with flags := { s.flags with methodSelect := false } }
  match Upstream.methodSelectResponse s.flags.auth buf.readable with
  | none => s.refuse r.lost
  | some n => do
    let buf ← buf.setOffset (buf.offset + n)
    if s.flags.auth then (s.writeUpstreamAuthRequest env r.selected).map fun s => s.leave buf
    else (s.writeUpstreamSocks5Request env r.selected).map fun s => s.leave buf

def readUpstreamAuthResponse (env : Environment) (r : DownRead) (s : Connection)
    (buf : GrowableIOBuffer) : Option (Connection × Stage) :=
  let s := { s with flags := { s.flags with auth := false } }
  match Upstream.authResponse buf.readable with
  | none => s.refuse r.lost
  | some n => do
    let buf ← buf.setOffset (buf.offset + n)
    (s.writeUpstreamSocks5Request env r.authenticated).map fun s => s.leave buf

/-- The reply that `ReadUpstreamSocksResponse` expects. -/
def socksReply (method : Method) (bytes : List UInt8) : Option (Option ℕ) :=
  match method with
  | .socks4 | .socks4a => some (Upstream.socks4Reply bytes)
  | .socks5 => some (Upstream.socks5Reply bytes)
  | .https | .cipher | .http2 => none

def readUpstreamSocksResponse (r : DownRead) (s : Connection) (buf : GrowableIOBuffer) :
    Option (Connection × Stage) := do
  let s := { s with flags := { s.flags with socks := false } }
  match ← socksReply s.method buf.readable with
  | none => s.refuse r.lost
  | some n => do
    let buf ← buf.setOffset (buf.offset + n)
    some (s.leave buf)

/-- `stage`, if `flag` is set and the stages before have left a buffer. -/
def runStage (stage : Connection → GrowableIOBuffer → Option (Connection × Stage))
    (flag : Connection → Bool) : Connection × Stage → Option (Connection × Stage)
  | (s, .passes buf) => if flag s then stage s buf else some (s, .passes buf)
  | (s, .stops ec) => some (s, .stops ec)

def readReplies (env : Environment) (r : DownRead) (s : Connection) (buf : GrowableIOBuffer) :
    Option (Connection × Stage) := do
  let x ← runStage (readUpstreamMethodSelectResponse env r) (·.flags.methodSelect) (s, .passes buf)
  let x ← runStage (readUpstreamAuthResponse env r) (·.flags.auth) x
  runStage (readUpstreamSocksResponse r) (·.flags.socks) x

def readUpstreamHttpsHandshake (env : Environment) (r : DownRead) (s : Connection)
    (buf : GrowableIOBuffer) : Option (Connection × Stage) :=
  let s := { s with flags := { s.flags with https := false } }
  match Upstream.httpsReply (env.parseResponse buf.readable) with
  | none => s.refuse r.lost
  | some n => do
    let buf ← buf.setOffset (buf.offset + n)
    some (s.leave buf)

/-! ## Reading the server -/

def onDataForStream (env : Environment) (s : Connection) (bytes : List UInt8) :
    Option Connection := do
  let (padding, bufs) ← s.padding.receive env.cipher.junk bytes
  some { s with padding, down := bufs.foldl Pipe.push s.down }

def visit (env : Environment) (lost : List DownTurn) (s : Connection) : Visit → Option Connection
  | .endHeaders padding => some { s with padding := s.padding.agree padding }
  | .data bytes => s.onDataForStream env bytes
  | .endStream => some { s with streamRecvEof := true }
  | .closeStream => some { s with dataFrame := none }
  | .connectionError => { s with dataFrame := none }.disconnected lost
  | .disconnect => s.disconnected lost

/-- What the decoder calls: `on_received_data` and `on_protocol_error`. -/
def decoderCall (lost : List DownTurn) (s : Connection) : Cipher.VisitorEvent → Option Connection
  | .receivedData [] => some s
  | .receivedData data => some { s with down := s.down.push (.copyBuffer data) }
  | .protocolError => s.disconnected lost

/-- `on_received_data` refuses an empty buffer. -/
def takes (delivered : List (List UInt8)) : Bool := delivered.getLast? != some []

def deliver (env : Environment) (lost : List DownTurn) (s : Connection) (buf : GrowableIOBuffer) :
    Option Connection :=
  if s.method = .cipher then do
    let (decoder, calls) ← s.decoder.processBytes env.cipher takes [] buf
    calls.foldlM (decoderCall lost) { s with decoder }
  else some { s with down := s.down.push buf }

/-- The end of a read of a server that is not an HTTP/2 server. Returns the error, and whether
`GetNextDownstreamBuf` goes on to its end. -/
def afterStages (env : Environment) (lost : List DownTurn) :
    Connection × Stage → Option (Connection × Ec × Bool)
  | (s, .stops ec) => some (s, ec, false)
  | (s, .passes buf) => (s.deliver env lost buf).map fun s => (s, .ok, true)

def recordRead (s : Connection) (bytes : List UInt8) : Connection :=
  { s with reads := s.reads ++ [(s.up.accepted.length, bytes)] }

/-- The reads of `GetNextDownstreamBuf`. An HTTP/2 connection goes on until a read gives nothing or
its queue is as long as its window, an HTTP connection reads again behind the header of the reply.
The `Bool` is `false` where the function returns at once. -/
def readDown (env : Environment) : List DownRead → Connection → Option (Connection × Ec × Bool)
  | [], s =>
    if s.channel.any Net.Channel.eof then some (s, .failed, false) else some (s, .tryAgain, true)
  | r :: reads, s =>
    if s.channel.any Net.Channel.eof then some (s, .failed, false)
    else
      match r.read with
      -- `read_some` calls `disconnected`
      | .error => (s.disconnected r.lost).map fun s => (s, .failed, true)
      | .wouldBlock | .data [] => some (s, .tryAgain, true)
      | .data (b :: bs) => do
        let s := s.recordRead (b :: bs)
        let buf ← GrowableIOBuffer.readSome env.cipher.junk socketDebufSize (b :: bs)
        match s.method with
        | .http2 => do
          let s ← r.visits.foldlM (visit env r.lost) s
          match r.processed with
          | .error => some (s, .ok, true)
          | .refused => (s.disconnected r.lost).map fun s => (s, .failed, false)
          | .consumed =>
            if s.down.byteLength < env.h2ConnWindowSize then readDown env reads s
            else some (s, .ok, true)
        | .https => do
          let x ← runStage (readUpstreamHttpsHandshake env r) (·.flags.https) (s, .passes buf)
          match x with
          | (s, .stops .tryAgain) => readDown env reads s
          | x => afterStages env r.lost x
        | .socks4 | .socks4a | .socks5 | .cipher => do
          let x ← s.readReplies env r buf
          afterStages env r.lost x

/-- The adapter of an HTTP/2 connection sends what it wants to, and `WriteUpstreamInPipe`
follows. -/
def sendControl (env : Environment) (s : Connection) (send : Option (List Frame × List UpTurn)) :
    Option Connection :=
  match s.method, send with
  | .http2, some (frames, up) => do
    let s ← s.sendIfNotProcessing frames
    s.writeUpstreamInPipe env up
  | _, _ => some s

/-- The shutdown at the end of `GetNextDownstreamBuf`. -/
def shutdownAtStreamEnd (s : Connection) : Connection :=
  if s.streamRecvEof && s.down.queue.isEmpty && !s.shutdown then { s with shutdown := true } else s

/-- The end of `GetNextDownstreamBuf`. Returns the error and whether there is a buffer. -/
def outDown (env : Environment) (s : Connection) (sc : DownScript) (ec : Ec) :
    Option (Connection × Ec × Bool) := do
  let s ← s.sendControl env sc.control
  let s := s.shutdownAtStreamEnd
  if s.down.queue.isEmpty then some (s, if ec = .ok then .tryAgain else ec, false)
  else
    some ({ s with pendingDownstreamReadError := s.pendingDownstreamReadError || ec == .failed },
      ec, true)

/-- `GetNextDownstreamBuf`. Returns the error and whether there is a buffer. -/
def getNextDownstreamBuf (env : Environment) (s : Connection) (sc : DownScript) :
    Option (Connection × Ec × Bool) :=
  if !s.down.queue.isEmpty then some (s, .ok, true)
  else if s.pendingDownstreamReadError then some (s, .failed, false)
  else if !s.connectedNow then some (s, .tryAgain, false)
  else do
    let (s, ec, out) ← readDown env sc.reads s
    if out then s.outDown env sc ec else some (s, ec, false)

/-- What `ReadUpstream` does with what the getter returns. -/
def afterGet (s : Connection) (sc : DownScript) (ec : Ec) (got : Bool) : Option Connection :=
  if ec = .failed then some s
  else if !got || s.down.queue.front.all GrowableIOBuffer.isEmpty then
    some (if ec = .tryAgain then s.waitRead else s)
  else (s.writeStream sc.write).map fun s => if ec = .tryAgain then s.waitRead else s

def readUpstream (env : Environment) (sc : DownScript) (s : Connection) : Option Connection :=
  if s.channel.isNone then none
  else if s.channel.any Net.Channel.readInprogress || s.writeInprogress then some s
  else do
    let (s, ec, got) ← s.getNextDownstreamBuf env sc
    s.afterGet sc ec got

/-! ## A new channel -/

/-- `OnConnect`, or the start of the resolution that precedes it. -/
def onConnect (s : Connection) (request : Option Ss.Request) : Connection :=
  { s with
    request := request.getD s.request
    channel := request.map fun _ => .new }

def requestBytes (request : Ss.Request) : List UInt8 :=
  (List.range request.length).map request.raw

/-- `WriteUpstreamMethodSelectRequest`. Buffers with nothing in them hold the places of the messages
that follow. -/
def writeUpstreamMethodSelectRequest (env : Environment) (s : Connection) : Connection :=
  let up := s.up.push (.copyBuffer (Upstream.methodSelectRequest env.authRequired))
  let up := if env.authRequired then up.push .fresh else up
  { s with
    up := up.push .fresh
    flags := { s.flags with methodSelect := true, auth := env.authRequired } }

/-- `WriteUpstreamSocks4Request`, which aborts for a domain and gives up for IPv6. -/
def writeUpstreamSocks4Request (s : Connection) : Option Connection :=
  match s.request.addressType with
  | some .domain => none
  | some .ipv6 => some s.onDisconnect
  | _ =>
    some { s with
      up := s.up.push (.copyBuffer (Upstream.socks4Request s.request))
      flags := { s.flags with socks := true } }

def writeUpstreamSocks4ARequest (env : Environment) (s : Connection) : Connection :=
  { s with
    up := s.up.push (.copyBuffer (Upstream.socks4aRequest env.toText s.request))
    flags := { s.flags with socks := true } }

/-- The ghosts begin again with a channel. What is in the queue is queued for the new one. Where
HTTP/1.1 was negotiated the method becomes `CRYPTO_HTTPS`; but an adapter that is there stays, and
it is asked for before the method, which is `http2` here as long as there is one. -/
def openChannel (s : Connection) (http11 : Bool) : Connection :=
  { s with
    method := if http11 && s.adapter.isNone then .https else s.method
    fallback := s.fallback || http11
    adapter := if s.method == .http2 && !http11 then some (s.channels + 1) else s.adapter
    channel := s.channel.map fun ch => { ch with connected := true }
    up := { s.up with queued := s.up.pending, accepted := [] }
    channels := s.channels + 1
    reads := []
    app := []
    refused := false }

/-- The adapter or the ciphers are created, and the upstream header is sent. `settings` and `frames`
are what the adapter sends for its settings and for the request; `lost` is for an error of the
cipher. -/
def greet (env : Environment) (s : Connection) (settings frames : List Frame)
    (lost : List DownTurn) : Option Connection :=
  match s.method with
  | .http2 => do
    let s ← { s with
      padding := { s.padding with supportInFact := env.paddingSupport }
      dataFrame := none }.sendIfNotProcessing settings
    { s with dataFrame := some ⟨[], false⟩ }.sendIfNotProcessing frames
  | .https =>
    let identity :=
      if env.authRequired then some (env.identity env.username env.password) else none
    some { s with
      up := s.up.push (.copyBuffer
        (Upstream.connectHeader env.toText env.isV6 identity s.request)) }
  | .socks4 => s.writeUpstreamSocks4Request
  | .socks4a => some (s.writeUpstreamSocks4ARequest env)
  | .socks5 => some (s.writeUpstreamMethodSelectRequest env)
  | .cipher => do
    let (encoder, ok, up) ← s.up.encryptData env.cipher env.encoder
      (.copyBuffer (requestBytes s.request))
    let s := { s with encoder, decoder := env.decoder, up }
    if ok then some s else s.disconnected lost

/-- The same where HTTP/1.1 was negotiated and there is an adapter from an earlier channel. Nothing
is created, and the request becomes another stream of that adapter. -/
def greetAgain (s : Connection) (settings frames : List Frame) : Option Connection := do
  let s ← s.sendIfNotProcessing settings
  { s with dataFrame := some ⟨[], false⟩ }.sendIfNotProcessing frames

def replay (env : Environment) :
    List GrowableIOBuffer → List Chunk → Connection → Option Connection
  | [], _, s => some s
  | buf :: bufs, chunks, s => do
    let s ← s.onStreamRead env (chunks.headD ⟨0, [], []⟩) buf
    replay env bufs chunks.tail s

def replayPending (env : Environment) (chunks : List Chunk) (up : List UpTurn) (s : Connection) :
    Option Connection :=
  if s.pendingData = [] then some s
  else do
    let s ← replay env s.pendingData chunks { s with pendingData := [] }
    s.writeUpstreamInPipe env up

end Connection

/-! ## Runs -/

inductive Reply where
  | nothing
  /-- The reply to a `CONNECT` of an HTTP client. -/
  | connect (bytes : List UInt8)
  | socks
  deriving DecidableEq, Repr

structure Connect where
  http11 : Bool
  settings : List Frame
  frames : List Frame
  lost : List DownTurn
  chunks : List Chunk
  replayed : List UpTurn
  read : DownScript
  up : List UpTurn

inductive Event where
  /-- The local handshake has ended; `left` came behind it. -/
  | handshake (request : Option Ss.Request) (reply : Reply) (left : List UInt8)
      (down : List DownTurn) (up : List UpTurn)
  | resolved (request : Ss.Request)
  | replied (n : ℕ) (down : List DownTurn)
  | connected (c : Connect)
  | received (read : DownScript)
  | sent (up : List UpTurn)
  | lost (down : List DownTurn)
  | writable (down : List DownTurn)
  | readable (up : List UpTurn)
  | failed

namespace Connection

variable (env : Environment)

/-- `WriteUpstreamInPipe` and `OnUpstreamWriteFlush`. -/
def upFlush (up : List UpTurn) (s : Connection) : Option Connection :=
  (s.writeUpstreamInPipe env up).map onUpstreamWriteFlush

def answer (s : Connection) (down : List DownTurn) : Reply → Option Connection
  | .nothing => some s
  | .connect bytes =>
    { s with down := s.down.push (.copyBuffer bytes) }.onDownstreamWriteFlush (writeStream down)
  | .socks => some { s with replying := true }

/-- `ProcessReceivedData`, when the local handshake has ended. -/
def onHandshake (s : Connection) (request : Option Ss.Request) (reply : Reply) (left : List UInt8)
    (down : List DownTurn) (up : List UpTurn) : Option Connection := do
  let s ← ({ s with started := true }.onConnect request).answer down reply
  if left = [] then s.upFlush env up else s.onStreamRead env ⟨0, [], []⟩ (.copyBuffer left)

/-- HTTP/1.1 is spoken on a new channel: it was negotiated for it, or for an earlier one. -/
def speaksHttp11 (s : Connection) (c : Connect) : Bool :=
  c.http11 || (s.method == .http2 && s.fallback)

/-- The first half of `connected`. -/
def greetChannel (s : Connection) (c : Connect) : Option Connection :=
  if s.speaksHttp11 c && s.adapter.isSome then (s.openChannel true).greetAgain c.settings c.frames
  else (s.openChannel (s.speaksHttp11 c)).greet env c.settings c.frames c.lost

/-- `connected`. -/
def onConnected (s : Connection) (c : Connect) : Option Connection := do
  let s ← s.greetChannel env c
  -- an IPv6 address for a SOCKS4 server
  if s.closed then some s
  else
    let s ← s.replayPending env c.chunks c.replayed
    let s ← { s with upstreamWritable := true }.readUpstream env c.read
    s.upFlush env c.up

/-- `received`. -/
def onReceived (s : Connection) (read : DownScript) : Option Connection :=
  (s.modifyChannel fun ch => { ch with readInprogress := false }).readUpstream env read

/-- `sent`. -/
def onSent (s : Connection) (up : List UpTurn) : Option Connection :=
  let s := s.modifyChannel fun ch => { ch with writeInprogress := false }
  { s with upstreamWritable := true }.upFlush env up

end Connection

def due (s : Connection) : Event → Bool
  | .handshake _ _ _ _ _ => !s.started && s.channel.isNone
  | .resolved _ => s.started && s.channel.isNone
  | .replied _ _ => s.replying
  | .connected c =>
    (s.channel.any fun ch => !ch.connected && !ch.eof) &&
      (!c.http11 || s.method == .https || s.method == .http2)
  | .received _ => s.channel.any fun ch => ch.connected && ch.readInprogress
  | .sent _ => s.channel.any fun ch => ch.connected && ch.writeInprogress
  | .lost _ => s.channel.any fun ch =>
    !ch.eof && (!ch.connected || ch.readInprogress || ch.writeInprogress)
  | .writable _ => s.writeInprogress
  | .readable _ => s.downstreamReadInprogress
  | .failed => true

variable (env : Environment)

def callback (s : Connection) : Event → Option Connection
  | .handshake request reply left down up => s.onHandshake env request reply left down up
  | .resolved request => some (s.onConnect (some request))
  | .replied n down =>
    { s with replying := false }.processSentData (Connection.writeStream down) .ok n
  | .connected c => s.onConnected env c
  | .received read => s.onReceived env read
  | .sent up => s.onSent env up
  | .lost down => s.disconnected down
  | .writable down => { s with writeInprogress := false }.writeStream down
  | .readable up => { s with downstreamReadInprogress := false }.upFlush env up
  | .failed => some s.onDisconnect

def step (s : Connection) (e : Event) : Option Connection :=
  if s.closed || !due s e then some s else callback env s e

end Yass.Cli.Relay
