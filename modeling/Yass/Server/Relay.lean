import Yass.Lib.Run
import Yass.Net.PaddedStream
import Yass.Net.Pipe

/-!
# The relay of a server connection

`ServerConnection` after its handshake, in all four ways in which it talks to its client: the loops
that move bytes between the client and the target, with every place at which they stop and every
call by which they resume each other.

* `writeStreamInPipe`, `writeUpstreamInPipe` — the two loops, with their getters. What the sockets,
  the clock and the HTTP/2 adapter answer is given to each call as a script. A loop whose script is
  used up finds that nothing can be read or written.
* `Event`, `step` — the callbacks of the event loop. A callback that is not outstanding does
  nothing.

`WriteStreamInPipe` can call itself again at two places: in `disconnected`, which `read_some` calls
when the target is at its end, and in `OnStreamWrite`. In either case `shutdown_` is set and the
channel is closed when the inner call runs, so that the inner call meets neither of the two.

`try_again` and `would_block` are one outcome, as everywhere in the loops. A `std::move` of an
`error_code` copies it, so a pending read error stays. `blocked_stream_` is never set. Rate limits
are off. `none` is an abort or the use of a null `channel_`.

Source: `server/server_connection.cpp`, `server/server_connection.hpp`, `net/stream.hpp`.
-/

namespace Yass.Server.Relay

open Yass.Net

inductive Method where
  | https
  | socks
  | cipher
  | http2
  deriving DecidableEq, Repr

/-- What `ProcessBytes` reports to the connection. -/
inductive Visit where
  | frameHeader (id : ℕ)
  /-- The end of the header block of an acceptable `CONNECT`, with or without a `padding` field. -/
  | endHeaders (id : ℕ) (padding : Bool)
  | data (id : ℕ) (bytes : List UInt8)
  | closeStream (id : ℕ)
  | connectionError
  /-- `OnRstStream`, `OnGoAway`. -/
  | disconnect
  deriving DecidableEq, Repr

structure Environment where
  cipher : CipherEnv
  h2ConnWindowSize : ℕ
  paddingSupport : Bool

def Environment.sample (paddingSupport : Bool) : Environment :=
  ⟨.sample fun _ => false, 65536, paddingSupport⟩

/-! ## Scripts -/

/-- What one turn of the loop of `WriteStreamInPipe` meets. -/
structure Turn where
  /-- The answer of `channel_->read_some`, if the turn reads. -/
  read : ReadOutcome
  /-- The random padding size of `AddPadding`. -/
  padding : ℕ
  frames : List Frame
  /-- The answer of `downlink_->write_some`, if the turn writes. -/
  write : Sent
  /-- `GetMonotonicTime() > yield_after_time`. -/
  late : Bool
  deriving DecidableEq, Repr

def Turn.idle : Turn := ⟨.wouldBlock, 0, [], .wouldBlock, false⟩

/-- What one call of `WriteStreamInPipe` meets. -/
structure Script where
  turns : List Turn
  ending : List Frame
  inner : List Turn
  deriving DecidableEq, Repr

inductive Processed where
  | consumed
  | error
  | refused
  deriving DecidableEq, Repr

structure UpRead where
  read : ReadOutcome
  visits : List Visit
  processed : Processed
  deriving DecidableEq, Repr

/-- What one turn of the loop of `WriteUpstreamInPipe` meets. -/
structure UpTurn where
  reads : List UpRead
  /-- What the adapter sends behind that, if it wants to, and the call of `WriteStreamInPipe`. -/
  send : Option (List Frame × Script)
  /-- The answer of `channel_->write_some`. -/
  write : Sent
  /-- What `disconnected` meets when that fails. -/
  lost : List Frame × Script
  late : Bool
  deriving DecidableEq, Repr

def UpTurn.idle : UpTurn := ⟨[], none, .wouldBlock, ([], ⟨[], [], []⟩), false⟩

/-! ## State -/

/-- What a client or a target can observe of the direction towards the client. -/
inductive Act where
  | opened
  /-- `raw` was read from the target; `chunk` is passed on for it. -/
  | read (raw chunk : List UInt8)
  /-- `wire` was queued for the client; it carries these bytes of what was passed on. -/
  | queued (carried wire : List UInt8)
  | wrote (bytes : List UInt8)
  | ended
  deriving DecidableEq, Repr

/-- A `ServerConnection` in `state_stream`. -/
structure Connection where
  method : Method
  /-- The handshake is over: `Start` for HTTP/2, the first `ProcessReceivedData` otherwise. -/
  started : Bool
  /-- `closed_` and `closing_`, which are set together. -/
  closed : Bool
  shutdown : Bool
  down : Pipe
  up : Pipe
  encoder : Cipher
  decoder : Cipher
  channels : List Channel
  streamId : ℕ
  dataFrame : Option DataFrameSource
  padding : PaddingState
  pendingDownstreamReadError : Bool
  pendingUpstreamReadError : Bool
  /-- `write_inprogress_`: the client socket is waited for to become writable. -/
  writeInprogress : Bool
  /-- `downstream_read_inprogress_`: the client socket is waited for to become readable. -/
  downstreamReadInprogress : Bool
  upstreamWritable : Bool
  log : List Act

def start (env : Environment) (method : Method) (encoder decoder : Cipher) : Connection where
  method := method
  started := false
  closed := false
  shutdown := false
  down := .new
  up := .new
  encoder := encoder
  decoder := decoder
  channels := []
  streamId := 0
  dataFrame := none
  padding := .new env.paddingSupport
  pendingDownstreamReadError := false
  pendingUpstreamReadError := false
  writeInprogress := false
  downstreamReadInprogress := false
  upstreamWritable := false
  log := []

structure Locals where
  ec : Ec
  bytesTransferred : ℕ
  wbytesTransferred : ℕ
  tryAgain : Bool

/-- What the error of `GetNextDownstreamBuf` does to them. An error of the target is not one of the
client; `try_again` without a blocked stream means that the target is to be waited for. -/
def Locals.afterGet (v : Locals) (ec : Ec) (blocked : Bool) (read : ℕ) : Locals where
  ec :=
    match ec with
    | .failed => .ok
    | .tryAgain => if blocked then .tryAgain else .ok
    | .ok => .ok
  bytesTransferred := v.bytesTransferred + read
  wbytesTransferred := v.wbytesTransferred
  tryAgain := v.tryAgain || (ec == .tryAgain && !blocked)

/-- How a turn of the loop of `WriteUpstreamInPipe` ends. -/
inductive UpExit where
  | goesOn
  | breaks (ec : Ec)
  | returns
  deriving DecidableEq, Repr

namespace Connection

def channel (s : Connection) : Option Channel := s.channels.head?

/-- `channel_ && channel_->connected()`. -/
def connectedNow (s : Connection) : Bool := s.channel.any Channel.connected

/-- `!data_frame_ || !data_frame_->SelectPayloadLength(1).first`: nothing waits to be framed. -/
def nodata (s : Connection) : Bool := s.dataFrame.all fun src => src.chunks.isEmpty

/-- `channel_->close()`. -/
def closeChannel (s : Connection) : Connection :=
  { s with channels := s.channels.modifyHead Channel.close }

/-- `OnDisconnect`, which calls `close`. -/
def onDisconnect (s : Connection) : Connection :=
  if s.closed then s else { s.closeChannel with closed := true }

def record (s : Connection) (acts : List Act) : Connection := { s with log := s.log ++ acts }

/-! ## Waiting -/

/-- `channel_->wait_read`, where the loop calls it. -/
def waitRead (s : Connection) : Connection :=
  { s with channels := s.channels.modifyHead Channel.waitRead }

/-- `OnDownstreamWriteFlush`: wait until the client socket is writable. -/
def onDownstreamWriteFlush (s : Connection) : Connection :=
  if !s.down.queue.isEmpty && !s.writeInprogress then { s with writeInprogress := true } else s

/-- `ReadStream`: wait until the client socket is readable, or, to yield, until the event loop comes
round. -/
def readStream (s : Connection) : Connection :=
  if s.downstreamReadInprogress || s.closed then s else { s with downstreamReadInprogress := true }

/-- `OnUpstreamWriteFlush`: wait until the channel is writable. -/
def onUpstreamWriteFlush (s : Connection) : Connection :=
  if !s.up.queue.isEmpty && s.upstreamWritable then
    { s with
      upstreamWritable := false
      channels := s.channels.modifyHead Channel.waitWrite }
  else s

/-! ## Sending frames -/

/-- A buffer queued for the client; `carried` is what it carries of the bytes passed on. -/
def pushDown (s : Connection) (carried : List UInt8) (buf : GrowableIOBuffer) : Connection :=
  { s with down := s.down.push buf }.record [.queued carried buf.readable]

/-- `OnReadyToSend`, called by the adapter itself or by `DataFrameSource::Send`. -/
def sendFrame (s : Connection) : Frame → Option Connection
  | .control bytes => some (s.pushDown [] (.copyBuffer bytes))
  | .data header max =>
    match s.dataFrame with
    | none => some s
    | some src => do
      match ← src.send max with
      | none => some s
      | some (payload, src) =>
        some { s.pushDown payload (.copyBuffer (header ++ payload)) with
          dataFrame := some src }

def sendIfNotProcessing (s : Connection) (frames : List Frame) : Option Connection :=
  if s.method = .http2 then frames.foldlM sendFrame s else some s

/-! ## Towards the client -/

/-- The end is signalled to the client, from `OnStreamWrite` or from `disconnected`: END_STREAM for
an HTTP/2 stream, a shutdown of the downlink otherwise. -/
def finish (again : Connection → Option Connection) (ending : List Frame) (s : Connection) :
    Option Connection :=
  let s := { s with shutdown := true }.record [.ended]
  match s.dataFrame with
  | some src => do
    let s ← { s with dataFrame := some { src with lastFrame := true } }.sendIfNotProcessing ending
    again { s with dataFrame := none, streamId := 0 }
  | none => some s

/-- `disconnected`, where `again` is `WriteStreamInPipe`. -/
def disconnected (again : Connection → Option Connection) (ending : List Frame) (s : Connection) :
    Option Connection :=
  if s.channels = [] then none
  else
    let s := { s with upstreamWritable := false }.closeChannel
    if s.nodata && s.down.queue.isEmpty && !s.shutdown then s.finish again ending else again s

def onStreamWrite (again : Connection → Option Connection) (ending : List Frame) (s : Connection) :
    Option Connection :=
  if s.channel.any Channel.eof && s.nodata && s.down.queue.isEmpty && !s.shutdown then
    s.finish again ending
  else some s.onDownstreamWriteFlush

def processSentData (again : Connection → Option Connection) (ending : List Frame) (s : Connection)
    (ec : Ec) (bytesTransferred : ℕ) : Option Connection :=
  if ec = .ok then
    if bytesTransferred = 0 then some s else s.onStreamWrite again ending
  else some s.onDisconnect

/-- What `GetNextDownstreamBuf` does with a buffer it has read: it is framed, queued as it is, or
encrypted onto the queue. The `Bool` is `false` where the stream is gone. -/
def passOn (env : Environment) (s : Connection) (t : Turn) (raw : List UInt8) :
    Option (Connection × Bool) := do
  let buf ← GrowableIOBuffer.readSome env.cipher.junk socketBufSize raw
  match s.method with
  | .http2 =>
    match s.dataFrame with
    | none => some (s.record [.read raw []], false)
    | some src => do
      let (padding, chunk) ← s.padding.send env.cipher.junk buf t.padding
      some ({ s with
        padding
        dataFrame := some { src with chunks := src.chunks ++ [chunk] }
        }.record [.read raw chunk.readable], true)
  | .https | .socks =>
    some ((s.record [.read raw raw]).pushDown raw buf, true)
  | .cipher => do
    let (encoder, ok, down) ← s.down.encryptData env.cipher s.encoder buf
    let wire := down.queued.drop s.down.queued.length
    let s := { s with encoder, down }.record [.read raw raw, .queued raw wire]
    -- `on_protocol_error`
    some (if ok then s else s.onDisconnect, true)

/-- `ResumeStream` and `SendIfNotProcessing`, where there is a stream. -/
def resumeStream (s : Connection) (frames : List Frame) : Option Connection :=
  if s.dataFrame.isSome then s.sendIfNotProcessing frames else some s

/-- The end of `GetNextDownstreamBuf`: what is there is framed and sent. Returns the error, whether
reading is blocked, and whether there is a buffer. -/
def outDown (s : Connection) (t : Turn) (ec : Ec) (read : ℕ) :
    Option (Connection × Ec × Bool × Bool) := do
  let s ← s.resumeStream t.frames
  if s.down.queue.isEmpty then
    some (s, if ec = .ok then .tryAgain else ec, decide (read ≠ 0), false)
  else
    some ({ s with pendingDownstreamReadError := s.pendingDownstreamReadError || ec == .failed },
      ec, false, true)

/-- `GetNextDownstreamBuf`. Returns the error, whether reading is blocked, whether there is a
buffer, and the number of bytes read. -/
def getNextDownstreamBuf (env : Environment) (again : Connection → Option Connection)
    (ending : List Frame) (s : Connection) (t : Turn) :
    Option (Connection × Ec × Bool × Bool × ℕ) :=
  if !s.down.queue.isEmpty then some (s, .ok, false, true, 0)
  else if s.pendingDownstreamReadError then some (s, .failed, false, false, 0)
  else if !s.connectedNow then some (s, .tryAgain, false, false, 0)
  else if s.channel.any Channel.eof then some (s, .failed, false, false, 0)
  -- data waits to be sent, reading is deferred
  else if !s.nodata then do
    let (s, ec, _, got) ← s.outDown t .tryAgain 0
    some (s, ec, true, got, 0)
  else
    match t.read with
    | .error => do
      -- `read_some` calls `disconnected`
      let s ← s.disconnected again ending
      let (s, ec, blocked, got) ← s.outDown t .failed 0
      some (s, ec, blocked, got, 0)
    | .wouldBlock | .data [] => do
      let (s, ec, blocked, got) ← s.outDown t .tryAgain 0
      some (s, ec, blocked, got, 0)
    | .data (b :: bs) => do
      let (s, alive) ← s.passOn env t (b :: bs)
      if alive then do
        let (s, ec, blocked, got) ← s.outDown t .ok (b :: bs).length
        some (s, ec, blocked, got, (b :: bs).length)
      else some (s, .failed, false, false, (b :: bs).length)

/-- `write_some` of the front of the queue towards the client. -/
def writeDown (s : Connection) (n : ℕ) : Option (Connection × ℕ × Bool) := do
  let (down, written, empty) ← s.down.writeFront n
  let bytes := down.accepted.drop s.down.accepted.length
  some ({ s with down }.record [.wrote bytes], written, empty)

/-- The second half of a turn: the front of the queue is handed to the client socket. The `Bool`
tells whether the loop goes on. -/
def downWrite (s : Connection) (v : Locals) (t : Turn) : Option (Connection × Locals × Bool) :=
  match t.write with
  | .wouldBlock => some (s, { v with ec := .tryAgain }, false)
  | .failed => some (s, { v with ec := .failed }, false)
  | .bytes n => do
    let (s, written, empty) ← s.writeDown n
    let v := { v with ec := .ok, wbytesTransferred := v.wbytesTransferred + written }
    if !empty then some (s, { v with ec := .tryAgain }, false)
    else if decide (kYieldAfterBytesRead < v.wbytesTransferred) || t.late then
      if s.down.queue.isEmpty then some (s, { v with tryAgain := true }, false)
      else some (s, { v with ec := .tryAgain }, false)
    else some (s, v, true)

def downTurn (env : Environment) (again : Connection → Option Connection) (ending : List Frame)
    (s : Connection) (v : Locals) (t : Turn) : Option (Connection × Locals × Bool) := do
  let (s, ec, blocked, got, read) ← s.getNextDownstreamBuf env again ending t
  let v := v.afterGet ec blocked read
  if ec = .failed then some (s, v, false)
  else if !got || s.down.queue.front.all GrowableIOBuffer.isEmpty || s.closed then
    some (s, v, false)
  else s.downWrite v t

/-- The loop of `WriteStreamInPipe`. -/
def downLoop (env : Environment) (again : Connection → Option Connection) (ending : List Frame) :
    List Turn → Connection → Locals → Option (Connection × Locals)
  | [], s, v => do
    let (s, v, _) ← s.downTurn env again ending v .idle
    some (s, v)
  | t :: ts, s, v => do
    let (s, v, goesOn) ← s.downTurn env again ending v t
    if goesOn then downLoop env again ending ts s v else some (s, v)

/-- What `WriteStreamInPipe` does behind its loop. -/
def afterDown (again : Connection → Option Connection) (ending : List Frame) (s : Connection)
    (v : Locals) : Option Connection :=
  let s := if v.tryAgain then s.waitRead else s
  if v.ec = .tryAgain then
    let s := s.onDownstreamWriteFlush
    if v.wbytesTransferred = 0 then some s
    else if v.bytesTransferred = 0 && !v.tryAgain then s.onStreamWrite again ending
    else s.processSentData again ending .ok v.wbytesTransferred
  else if v.bytesTransferred = 0 && v.ec == .ok && !v.tryAgain then s.onStreamWrite again ending
  else s.processSentData again ending v.ec v.wbytesTransferred

/-- `WriteStreamInPipe`, where `again` is the same function called from inside. -/
def writeStreamInPipeWith (env : Environment) (again : Connection → Option Connection)
    (turns : List Turn) (ending : List Frame) (s : Connection) : Option Connection := do
  let (s, v) ← downLoop env again ending turns s ⟨.ok, 0, 0, false⟩
  s.afterDown again ending v

def writeStreamInPipe (env : Environment) (script : Script) : Connection → Option Connection :=
  writeStreamInPipeWith env (writeStreamInPipeWith env some script.inner []) script.turns
    script.ending

/-! ## Towards the target -/

/-- `OnConnect`; `reply` says that a client of the HTTP proxy is told that the tunnel is open. -/
def onConnect (s : Connection) (reply : Option (List UInt8)) : Connection :=
  let s := { s with channels := .new :: s.channels }.record [.opened]
  if s.method = .http2 then { s with dataFrame := some ⟨[], false⟩ }
  else
    match reply with
    | some bytes => (s.pushDown [] (.copyBuffer bytes)).onDownstreamWriteFlush
    | none => s

def onConnectionError (s : Connection) : Connection :=
  { s with dataFrame := none, streamId := 0 }.onDisconnect

def onDataForStream (env : Environment) (s : Connection) (bytes : List UInt8) :
    Option Connection := do
  let (padding, bufs) ← s.padding.receive env.cipher.junk bytes
  some { s with padding, up := bufs.foldl Pipe.push s.up }

def visit (env : Environment) (s : Connection) : Visit → Option Connection
  | .frameHeader id =>
    let s := if s.streamId = 0 then { s with streamId := id } else s
    some (if id ≠ 0 ∧ id ≠ s.streamId then s.onConnectionError else s)
  | .endHeaders _ padding =>
    some ({ s with padding := s.padding.agree padding }.onConnect none)
  | .data _ bytes => s.onDataForStream env bytes
  | .closeStream id =>
    some (if id = 0 ∨ id = s.streamId then { s with dataFrame := none, streamId := 0 } else s)
  | .connectionError => some s.onConnectionError
  | .disconnect => some s.onDisconnect

/-- What the decoder calls: `on_received_data` and `on_protocol_error`. -/
def decoderCall (s : Connection) : Cipher.VisitorEvent → Connection
  | .receivedData [] => s
  | .receivedData data => { s with up := s.up.push (.copyBuffer data) }
  | .protocolError => s.onDisconnect

/-- `on_received_data` refuses an empty buffer. -/
def takes (delivered : List (List UInt8)) : Bool := delivered.getLast? != some []

/-- What `GetNextUpstreamBuf` does with bytes it has read, in the modes without an adapter. -/
def receive (env : Environment) (s : Connection) (bytes : List UInt8) : Option Connection := do
  let buf ← GrowableIOBuffer.readSome env.cipher.junk socketDebufSize bytes
  match s.method with
  | .https | .socks => some { s with up := s.up.push buf }
  | _ => do
    let (decoder, calls) ← s.decoder.processBytes env.cipher takes [] buf
    some (calls.foldl decoderCall { s with decoder })

/-- The reads of `GetNextUpstreamBuf`. An HTTP/2 connection goes on until a read gives nothing or
its queue is as long as its window. The `Bool` is `false` where the function returns at once. -/
def readUp (env : Environment) : List UpRead → Connection → Option (Connection × Ec × Bool)
  | [], s => some (s, if s.closed then .failed else .tryAgain, !s.closed)
  | r :: reads, s =>
    if s.closed then some (s, .failed, false)
    else
      match r.read with
      -- `ProcessReceivedData` closes the connection
      | .error => some (s.onDisconnect, .failed, true)
      | .wouldBlock | .data [] => some (s, .tryAgain, true)
      | .data (b :: bs) =>
        if s.method = .http2 then do
          let s ← r.visits.foldlM (visit env) s
          match r.processed with
          | .error => some (s, .ok, true)
          | .refused => some (s.onDisconnect, .failed, false)
          | .consumed =>
            if s.up.byteLength < env.h2ConnWindowSize then readUp env reads s
            else some (s, .ok, true)
        else do
          let s ← s.receive env (b :: bs)
          some (s, .ok, true)

/-- The adapter of an HTTP/2 connection sends what it wants to, and `WriteStreamInPipe` follows. -/
def sendControl (env : Environment) (s : Connection) (send : Option (List Frame × Script)) :
    Option Connection :=
  match s.method, send with
  | .http2, some (frames, script) => do
    let s ← s.sendIfNotProcessing frames
    s.writeStreamInPipe env script
  | _, _ => some s

/-- `GetNextUpstreamBuf`. Returns the error and whether there is a buffer. -/
def getNextUpstreamBuf (env : Environment) (s : Connection) (t : UpTurn) :
    Option (Connection × Ec × Bool) :=
  if !s.up.queue.isEmpty then some (s, .ok, true)
  else if s.pendingUpstreamReadError then some (s, .failed, false)
  else do
    let (s, ec, out) ← readUp env t.reads s
    if !out then some (s, ec, false)
    else
      let s ← s.sendControl env t.send
      if s.up.queue.isEmpty then some (s, if ec = .ok then .tryAgain else ec, false)
      else
        some ({ s with
          pendingUpstreamReadError := s.pendingUpstreamReadError || ec == .failed }, ec, true)

/-- The second half of a turn: the front of the queue is handed to the channel. `tryAgain` is the
local variable of that name. -/
def upWrite (env : Environment) (s : Connection) (tryAgain : Bool) (t : UpTurn) :
    Option (Connection × Bool × UpExit) :=
  match t.write with
  | .wouldBlock => some (s, tryAgain, .breaks .tryAgain)
  | .failed => do
    -- `write_some` calls `disconnected`
    let s ← s.disconnected (writeStreamInPipe env t.lost.2) t.lost.1
    some (s.onDisconnect, tryAgain, .returns)
  | .bytes n => do
    let (up, _, empty) ← s.up.writeFront n
    let s := { s with up }
    if !empty then some (s, tryAgain, .breaks .tryAgain)
    -- `bytes_read_without_yielding` is never increased
    else if t.late then
      if s.up.queue.isEmpty then some (s, true, .breaks .ok)
      else some (s, tryAgain, .breaks .tryAgain)
    else some (s, tryAgain, .goesOn)

def upTurn (env : Environment) (s : Connection) (tryAgain : Bool) (t : UpTurn) :
    Option (Connection × Bool × UpExit) := do
  let (s, ec, got) ← s.getNextUpstreamBuf env t
  if ec = .failed then some (s, tryAgain, .returns)
  else
    let tryAgain := tryAgain || ec == .tryAgain
    if !got || s.up.queue.front.all GrowableIOBuffer.isEmpty then some (s, tryAgain, .breaks .ok)
    else if !s.connectedNow || s.channel.any Channel.eof then some (s, tryAgain, .breaks .tryAgain)
    else s.upWrite env tryAgain t

/-- What `WriteUpstreamInPipe` does behind its loop. -/
def afterUp (s : Connection) (tryAgain : Bool) (ec : Ec) : Connection :=
  let s := if tryAgain then s.readStream else s
  if ec = .tryAgain then s.onUpstreamWriteFlush else s

/-- The loop of `WriteUpstreamInPipe`, and what is behind it. -/
def upLoop (env : Environment) : List UpTurn → Connection → Bool → Option Connection
  | [], s, tryAgain => do
    match ← s.upTurn env tryAgain .idle with
    | (s, tryAgain, .breaks ec) => some (s.afterUp tryAgain ec)
    | (s, _, _) => some s
  | t :: ts, s, tryAgain => do
    match ← s.upTurn env tryAgain t with
    | (s, tryAgain, .goesOn) => upLoop env ts s tryAgain
    | (s, tryAgain, .breaks ec) => some (s.afterUp tryAgain ec)
    | (s, _, .returns) => some s

def writeUpstreamInPipe (env : Environment) (turns : List UpTurn) (s : Connection) :
    Option Connection :=
  if s.channel.any Channel.writeInprogress then some s else upLoop env turns s false

end Connection

/-! ## Runs -/

inductive Event where
  | start (frames : List Frame) (down : Script) (up : List UpTurn)
  /-- The handshake of any other connection has ended; `left` came behind it. -/
  | handshake (reply : Option (List UInt8)) (left : List UInt8) (up : List UpTurn)
  /-- The connect of the `i`-th channel has completed. -/
  | connected (i : ℕ) (down : Script) (up : List UpTurn)
  | received (i : ℕ) (down : Script)
  | sent (i : ℕ) (up : List UpTurn)
  /-- The connect of the `i`-th channel, or a wait for it, has failed. -/
  | lost (i : ℕ) (ending : List Frame) (down : Script)
  | writable (down : Script)
  | readable (up : List UpTurn)
  | failed
  deriving DecidableEq, Repr

namespace Connection

variable (env : Environment)

/-- `ProcessReceivedData`, when the handshake has ended. -/
def onHandshake (s : Connection) (reply : Option (List UInt8)) (left : List UInt8)
    (up : List UpTurn) : Option Connection :=
  let s := { s with started := true }.onConnect reply
  if left = [] then (s.writeUpstreamInPipe env up).map onUpstreamWriteFlush
  else some ({ s with up := s.up.push (.copyBuffer left) }.onUpstreamWriteFlush)

/-- `connected`. -/
def onConnected (s : Connection) (i : ℕ) (down : Script) (up : List UpTurn) :
    Option Connection := do
  let s := { s with
    channels := s.channels.modify i fun ch => { ch with connected := true }
    upstreamWritable := true }
  let s ← s.writeStreamInPipe env down
  (s.writeUpstreamInPipe env up).map onUpstreamWriteFlush

/-- `received`. -/
def onReceived (s : Connection) (i : ℕ) (down : Script) : Option Connection :=
  let s := { s with
    channels := s.channels.modify i fun ch => { ch with readInprogress := false } }
  (s.writeStreamInPipe env down).map onDownstreamWriteFlush

/-- `sent`. -/
def onSent (s : Connection) (i : ℕ) (up : List UpTurn) : Option Connection :=
  let s := { s with
    channels := s.channels.modify i fun ch => { ch with writeInprogress := false }
    upstreamWritable := true }
  (s.writeUpstreamInPipe env up).map onUpstreamWriteFlush

end Connection

def due (s : Connection) : Event → Bool
  | .start _ _ _ => decide (s.method = .http2) && !s.started
  | .handshake _ _ _ => decide (s.method ≠ .http2) && !s.started
  | .connected i _ _ => s.channels[i]?.any fun ch => !ch.connected && !ch.eof
  | .received i _ => s.channels[i]?.any fun ch => ch.connected && ch.readInprogress
  | .sent i _ => s.channels[i]?.any fun ch => ch.connected && ch.writeInprogress
  | .lost i _ _ => s.channels[i]?.any fun ch =>
    !ch.eof && (!ch.connected || ch.readInprogress || ch.writeInprogress)
  | .writable _ => s.writeInprogress
  | .readable _ => s.downstreamReadInprogress
  | .failed => s.writeInprogress || s.downstreamReadInprogress

variable (env : Environment)

def callback (s : Connection) : Event → Option Connection
  | .start frames down up => do
    let s ← { s with started := true }.sendIfNotProcessing frames
    let s ← s.writeStreamInPipe env down
    (s.writeUpstreamInPipe env up).map Connection.onUpstreamWriteFlush
  | .handshake reply left up =>
    s.onHandshake env (if s.method = .https then reply else none) left up
  | .connected i down up => s.onConnected env i down up
  | .received i down => s.onReceived env i down
  | .sent i up => s.onSent env i up
  | .lost _ ending down => s.disconnected (Connection.writeStreamInPipe env down) ending
  | .writable down => { s with writeInprogress := false }.writeStreamInPipe env down
  | .readable up =>
    ({ s with downstreamReadInprogress := false }.writeUpstreamInPipe env up).map
      Connection.onUpstreamWriteFlush
  | .failed => some s.onDisconnect

def step (s : Connection) (e : Event) : Option Connection :=
  if s.closed || !due s e then some s else callback env s e

end Yass.Server.Relay
