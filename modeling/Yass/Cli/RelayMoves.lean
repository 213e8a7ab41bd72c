import Yass.Cli.Relay

/-!
# What a callback of the client's relay can do

As for the server, every function of the relay is a sequence of a few kinds of change, each under
the condition under which the source makes it.

* `core` — the part of a connection that the waits, the channel and the state of an HTTP/2 stream
  are not part of; `waiting` tells that there is no channel yet, or that its connect is outstanding.
* `Move` — these, and the changes that reading the server and connecting to it make.
-/

namespace Yass.Cli.Relay

open Yass.Net
open Option (bind_eq_some_iff map_eq_some_iff)
open Relation (ReflTransGen)
open Relay.Connection

structure StreamState where
  padding : PaddingState
  streamRecvEof : Bool
  adapter : Option ℕ
  dataFrame : Option DataFrameSource

/-- A connection up to waits, the channel and the state of an HTTP/2 stream. -/
structure Core where
  method : Method
  started : Bool
  down : Pipe
  up : Pipe
  pendingData : List GrowableIOBuffer
  encoder : Cipher
  request : Ss.Request
  flags : Flags
  adapter : Option ℕ
  channels : ℕ
  reads : List (ℕ × List UInt8)
  app : List UInt8
  refused : Bool
  /-- The state of a stream, where there is none in HTTP/2. -/
  unused : Option StreamState

namespace Connection

def streamState (s : Connection) : StreamState where
  padding := s.padding
  streamRecvEof := s.streamRecvEof
  adapter := s.adapter
  dataFrame := s.dataFrame

def core (s : Connection) : Core where
  method := s.method
  started := s.started
  down := s.down
  up := s.up
  pendingData := s.pendingData
  encoder := s.encoder
  request := s.request
  flags := s.flags
  adapter := s.adapter
  channels := s.channels
  reads := s.reads
  app := s.app
  refused := s.refused
  unused := if s.method = .http2 then none else some s.streamState

def waiting (s : Connection) : Bool := s.channel.all fun ch => !ch.connected && !ch.eof

end Connection

/-- A change that the write loops and `disconnected` make. -/
inductive Flow (env : Environment) (s : Connection) : Connection → Prop where
  | quiet {s' : Connection} (h : s'.core = s.core)
      (hw : s'.waiting = true → s.waiting = true)
      (hc : s'.connectedNow = true → s.connectedNow = true) : Flow env s s'
  | wroteDown {n written : ℕ} {empty : Bool} {down : Pipe}
      (h : s.down.writeFront n = some (down, written, empty)) : Flow env s { s with down }
  | frame (hmethod : s.method = .http2) {buf : GrowableIOBuffer} {s' : Connection}
      (h : s'.core = { s.core with up := s.up.push buf }) (hw : s'.channel = s.channel) :
      Flow env s s'
  | pend {buf : GrowableIOBuffer} (hbuf : buf.readable ≠ []) :
      Flow env s { s with pendingData := s.pendingData ++ [buf] }
  | put (hconn : s.connectedNow = true) {n : ℕ} {buf : GrowableIOBuffer} {s' : Connection} {r : Put}
      (hbuf : buf.readable ≠ []) (h : s.put env n buf = some (s', r)) : Flow env s s'
  | wroteUp (hfront : s.up.queue.front.all GrowableIOBuffer.isEmpty = false) {n written : ℕ}
      {empty : Bool} {up : Pipe} (h : s.up.writeFront n = some (up, written, empty)) :
      Flow env s { s with up }
  | reopened (hup : s.up.queue.isEmpty = true) {s' : Connection}
      (h : s'.core = { s.core with request := s'.request }) (hc : s'.connectedNow = false) :
      Flow env s s'

inductive Answered (s : Connection) : Flags → Prop where
  | https (h : s.method = .https) : Answered s { s.flags with https := false }
  | methodSelect (h : s.flags.methodSelect = true) :
      Answered s { s.flags with methodSelect := false }
  | auth (h : s.flags.auth = true) : Answered s { s.flags with auth := false }
  | socks (h : s.flags.socks = true) : Answered s { s.flags with socks := false }

inductive Move (env : Environment) (s : Connection) : Connection → Prop where
  | flow {s' : Connection} (h : Flow env s s') : Move env s s'
  | begun : Move env s { s with started := true }
  | asked {s' : Connection} (h : s'.core = { s.core with request := s'.request })
      (hw : s'.waiting = true → s.waiting = true) : Move env s s'
  | pushDown (buf : GrowableIOBuffer) : Move env s { s with down := s.down.push buf }
  | read (bytes : List UInt8) : Move env s (s.recordRead bytes)
  /-- The reply to a `CONNECT`, or the last one of a SOCKS server, is accepted. -/
  | granted (f : Flags) (hf : (s.method = .https ∧ f = { s.flags with https := false }) ∨
      (s.flags.socks = true ∧ f = { s.flags with socks := false })) :
      Move env s { s with flags := f }
  | refused (f : Flags) (hf : Answered s f) :
      Move env s { s with flags := f, refused := true }
  /-- A method selection is accepted, and the user name and the password are queued. -/
  | selectedAuth (hflag : s.flags.methodSelect = true) (hauth : s.flags.auth = true) {up : Pipe}
      (h : s.up.appendFront env.cipher.junk
        (Upstream.authRequest env.username env.password) = some up) :
      Move env s { s with flags := { s.flags with methodSelect := false }, up }
  | selected (hflag : s.flags.methodSelect = true) (hauth : s.flags.auth = false)
      (hread : ∃ bytes, s.reads.getLast? = some (s.up.accepted.length, bytes)) {up : Pipe}
      (h : s.up.appendFront env.cipher.junk (Upstream.socks5Request s.request) = some up) :
      Move env s { s with flags := { s.flags with methodSelect := false, socks := true }, up }
  | authenticated (hflag : s.flags.auth = true) {up : Pipe}
      (h : s.up.appendFront env.cipher.junk (Upstream.socks5Request s.request) = some up) :
      Move env s { s with flags := { s.flags with auth := false, socks := true }, up }
  | greeted (hch : (s.channel.any fun ch => !ch.connected && !ch.eof) = true) {http11 : Bool}
      (hmethod : http11 = true → s.method = .https ∨ s.method = .http2)
      {settings frames : List Frame} {lost : List DownTurn} {s' : Connection}
      (h : (s.openChannel http11).greet env settings frames lost = some s') : Move env s s'
  | greetedAgain (hch : (s.channel.any fun ch => !ch.connected && !ch.eof) = true)
      (hadapter : s.adapter.isSome = true)
      (hmethod : s.method = .https ∨ s.method = .http2) {settings frames : List Frame}
      {s' : Connection} (h : (s.openChannel true).greetAgain settings frames = some s') :
      Move env s s'
  | unpend : Move env s { s with pendingData := [] }

def Flows (env : Environment) : Connection → Connection → Prop := ReflTransGen (Flow env)

def Moves (env : Environment) : Connection → Connection → Prop := ReflTransGen (Move env)

variable {env : Environment} {s s' s'' : Connection}

lemma Flows.refl (s : Connection) : Flows env s s := ReflTransGen.refl

lemma Flows.trans (h : Flows env s s') (h' : Flows env s' s'') : Flows env s s'' :=
  ReflTransGen.trans h h'

lemma Flow.flows (h : Flow env s s') : Flows env s s' := ReflTransGen.single h

lemma Moves.refl (s : Connection) : Moves env s s := ReflTransGen.refl

lemma Moves.trans (h : Moves env s s') (h' : Moves env s' s'') : Moves env s s'' :=
  ReflTransGen.trans h h'

lemma Move.moves (h : Move env s s') : Moves env s s' := ReflTransGen.single h

variable {I : Connection → Prop}

lemma Flows.keeps (hflow : ∀ s s', I s → Flow env s s' → I s')
    (h : Flows env s s') (hs : I s) : I s' := Run.reflTransGen_keeps hflow h hs

lemma Moves.keeps (hmove : ∀ s s', I s → Move env s s' → I s')
    (h : Moves env s s') (hs : I s) : I s' := Run.reflTransGen_keeps hmove h hs

lemma Flows.moves (h : Flows env s s') : Moves env s s' :=
  h.keeps (I := Moves env s) (fun _ _ hmoves hflow => hmoves.trans (Move.flow hflow).moves)
    (Moves.refl s)

lemma flows_same (h : s'.core = s.core) (hch : s'.channel = s.channel) : Flows env s s' := by
  refine (Flow.quiet h (fun hw => ?_) fun hc => ?_).flows
  · rwa [Connection.waiting, ← hch]
  · rwa [Connection.connectedNow, ← hch]

lemma moves_same (h : s'.core = s.core) (hch : s'.channel = s.channel) : Moves env s s' :=
  (flows_same h hch).moves

/-- The bytes of `pending_data_`. -/
def Connection.pendingLength (s : Connection) : ℕ := (s.pendingData.map GrowableIOBuffer.size).sum

/-- A change of the first kind, with what it means for the receiver of padded chunks and for the
data that waits for a channel. -/
structure Drift (env : Environment) (s s' : Connection) : Prop where
  flow : Flow env s s'
  receiver : s.padding.SameReceiver s'.padding
  pending : s.pendingLength ≤ kMaxHeaderSize → s'.pendingLength ≤ kMaxHeaderSize

def Drifts (env : Environment) : Connection → Connection → Prop := ReflTransGen (Drift env)

lemma Drifts.refl (s : Connection) : Drifts env s s := ReflTransGen.refl

lemma Drifts.trans (h : Drifts env s s') (h' : Drifts env s' s'') : Drifts env s s'' :=
  ReflTransGen.trans h h'

lemma Drift.drifts (h : Drift env s s') : Drifts env s s' := ReflTransGen.single h

lemma Drifts.flows (h : Drifts env s s') : Flows env s s' :=
  Run.reflTransGen_keeps (I := Flows env s)
    (fun _ _ hflows hdrift => hflows.trans hdrift.flow.flows) h (Flows.refl s)

lemma Drifts.moves (h : Drifts env s s') : Moves env s s' := h.flows.moves

lemma Flow.drifts (h : Flow env s s') (hpadding : s.padding.SameReceiver s'.padding)
    (hpending : s'.pendingData = s.pendingData) : Drifts env s s' := by
  refine Drift.drifts ⟨h, hpadding, ?_⟩
  rw [pendingLength, pendingLength, hpending]
  exact id

lemma drifts_same (h : s'.core = s.core) (hch : s'.channel = s.channel)
    (hpadding : s'.padding = s.padding) : Drifts env s s' := by
  have hflow : Flow env s s' := by
    refine .quiet h (fun hw => ?_) fun hc => ?_
    · rwa [Connection.waiting, ← hch]
    · rwa [Connection.connectedNow, ← hch]
  refine hflow.drifts ?_ (congrArg Core.pendingData h)
  rw [hpadding]
  exact ⟨rfl, rfl, rfl⟩

/-! ## Flags and the channel -/

variable {f : Net.Channel → Net.Channel}

lemma waiting_modifyChannel
    (hf : ∀ ch, !(f ch).connected && !(f ch).eof → !ch.connected && !ch.eof) :
    (s.modifyChannel f).waiting = true → s.waiting = true := by
  unfold waiting modifyChannel
  cases s.channel with
  | none => exact id
  | some ch => exact hf ch

lemma connectedNow_modifyChannel (hf : ∀ ch, (f ch).connected = true → ch.connected = true) :
    (s.modifyChannel f).connectedNow = true → s.connectedNow = true := by
  unfold connectedNow modifyChannel
  cases s.channel with
  | none => exact id
  | some ch => exact hf ch

lemma drifts_modifyChannel (s : Connection)
    (hf : ∀ ch, !(f ch).connected && !(f ch).eof → !ch.connected && !ch.eof)
    (hc : ∀ ch, (f ch).connected = true → ch.connected = true) :
    Drifts env s (s.modifyChannel f) := by
  have hcore : (s.modifyChannel f).core = s.core := rfl
  exact (Flow.quiet hcore (waiting_modifyChannel hf) (connectedNow_modifyChannel hc)).drifts
    ⟨rfl, rfl, rfl⟩ rfl

lemma drifts_closeChannel (s : Connection) : Drifts env s s.closeChannel :=
  drifts_modifyChannel s (by simp [Net.Channel.close]) (by simp [Net.Channel.close])

lemma drifts_waitRead (s : Connection) : Drifts env s s.waitRead := by
  refine drifts_modifyChannel s (fun ch => ?_) fun ch => ?_ <;>
    unfold Net.Channel.waitRead <;> split_ifs <;> exact id

lemma drifts_onDisconnect (s : Connection) : Drifts env s s.onDisconnect := by
  unfold onDisconnect
  split_ifs
  · exact .refl s
  · exact (drifts_closeChannel s).trans (drifts_same rfl rfl rfl)

lemma drifts_readStream (s : Connection) : Drifts env s s.readStream := by
  unfold readStream
  split_ifs
  · exact .refl s
  · exact drifts_same rfl rfl rfl

lemma drifts_onUpstreamWriteFlush (s : Connection) : Drifts env s s.onUpstreamWriteFlush := by
  unfold onUpstreamWriteFlush
  split_ifs
  · have hflag : Drifts env s { s with upstreamWritable := false } := drifts_same rfl rfl rfl
    refine hflag.trans (drifts_modifyChannel _ (fun ch => ?_) fun ch => ?_) <;>
      unfold Net.Channel.waitWrite <;> split_ifs <;> exact id
  · exact .refl s

/-! ## Towards the application -/

/-- `f` makes only such changes. -/
def MakesDrifts (env : Environment) (f : Connection → Option Connection) : Prop :=
  ∀ s s', f s = some s' → Drifts env s s'

lemma makesDrifts_some : MakesDrifts env some := by
  rintro s s' ⟨⟩
  exact .refl s

section Down

variable {again : Connection → Option Connection}

lemma drifts_shutdownWhenSent (s : Connection) : Drifts env s s.shutdownWhenSent := by
  unfold shutdownWhenSent
  split_ifs
  · exact drifts_same rfl rfl rfl
  · exact .refl s

lemma drifts_onDownstreamWriteFlush (hagain : MakesDrifts env again)
    (h : s.onDownstreamWriteFlush again = some s') : Drifts env s s' := by
  unfold onDownstreamWriteFlush at h
  split_ifs at h
  · exact hagain _ _ h
  · cases h
    exact .refl _

lemma drifts_processSentData (hagain : MakesDrifts env again) {ec : Ec} {n : ℕ}
    (h : s.processSentData again ec n = some s') : Drifts env s s' := by
  unfold processSentData at h
  split_ifs at h
  · cases h
    exact .refl _
  · obtain ⟨s₁, hflush, rfl⟩ := map_eq_some_iff.mp h
    exact (drifts_onDownstreamWriteFlush hagain hflush).trans (drifts_shutdownWhenSent s₁)
  · cases h
    exact drifts_onDisconnect s

variable {exit : DownExit} {w w' : ℕ}

lemma drifts_downTurn {t : DownTurn}
    (h : s.downTurn w t = some (s', w', exit)) : Drifts env s s' := by
  unfold downTurn at h
  by_cases hempty : s.down.queue.isEmpty
  · rw [if_pos hempty] at h
    cases h
    exact .refl _
  rw [if_neg hempty] at h
  obtain ⟨⟨down, written, empty⟩, hwrite, h⟩ := bind_eq_some_iff.mp h
  have hwrote : Drifts env s { s with down } :=
    (Flow.wroteDown hwrite).drifts ⟨rfl, rfl, rfl⟩ rfl
  dsimp only at h
  split at h
  · cases h
    exact hwrote
  · cases h
    exact hwrote
  · split_ifs at h <;> cases h <;> exact hwrote

variable {turns : List DownTurn}

lemma drifts_downLoop
    (h : Connection.downLoop turns s w = some (s', w', exit)) : Drifts env s s' := by
  induction turns generalizing s w with
  | nil => exact drifts_downTurn h
  | cons t ts ih =>
    obtain ⟨⟨s₁, w₁, exit₁⟩, hturn, h⟩ := bind_eq_some_iff.mp h
    have hdrifts : Drifts env s s₁ := drifts_downTurn hturn
    cases exit₁ with
    | goesOn => exact hdrifts.trans (ih h)
    | breaks tryAgain ec =>
      cases h
      exact hdrifts

lemma drifts_sentDown (hagain : MakesDrifts env again) {w : ℕ} {ec : Ec}
    (h : s.sentDown again w ec = some s') : Drifts env s s' := by
  have hflag : Drifts env s { s with writeInprogress := true } := drifts_same rfl rfl rfl
  unfold sentDown at h
  dsimp only at h
  split_ifs at h
  · cases h
    exact hflag
  · exact hflag.trans (drifts_processSentData hagain h)
  · exact drifts_processSentData hagain h

lemma drifts_afterDown (hagain : MakesDrifts env again) {w : ℕ}
    (h : s.afterDown again w exit = some s') : Drifts env s s' := by
  cases exit with
  | goesOn =>
    cases h
    exact .refl _
  | breaks tryAgain ec =>
    refine Drifts.trans ?_ (drifts_sentDown hagain h)
    split_ifs
    · exact drifts_waitRead s
    · exact .refl s

lemma makesDrifts_writeStreamWith (hagain : MakesDrifts env again) (turns : List DownTurn) :
    MakesDrifts env (Connection.writeStreamWith again turns) := by
  intro s s' h
  unfold writeStreamWith at h
  split_ifs at h
  · cases h
    exact .refl _
  · obtain ⟨⟨s₁, w, exit⟩, hloop, h⟩ := bind_eq_some_iff.mp h
    exact (drifts_downLoop hloop).trans (drifts_afterDown hagain h)

lemma makesDrifts_writeStream (turns : List DownTurn) :
    MakesDrifts env (Connection.writeStream turns) :=
  makesDrifts_writeStreamWith (makesDrifts_writeStreamWith makesDrifts_some _) _

lemma drifts_disconnected (h : s.disconnected turns = some s') :
    Drifts env s s' := by
  unfold disconnected at h
  split_ifs at h
  have hflag : Drifts env s { s with upstreamWritable := false } := drifts_same rfl rfl rfl
  refine hflag.trans ((drifts_closeChannel _).trans ?_)
  dsimp only at h
  split_ifs at h
  · cases h
    exact drifts_same rfl rfl rfl
  · exact makesDrifts_writeStream turns _ _ h

end Down

/-! ## Towards the server -/

lemma put_eq_some {n : ℕ} {buf : GrowableIOBuffer} {r : Put} (h : s.put env n buf = some (s', r)) :
    ∃ padding dataFrame encoder up app, s' = { s with padding, dataFrame, encoder, up, app } ∧
      s.padding.SameReceiver padding ∧
      (s.method ≠ .http2 → padding = s.padding ∧ dataFrame = s.dataFrame) := by
  unfold put at h
  split at h
  · next hmethod =>
    have hno : s.method ≠ .http2 → False := fun hne => hne hmethod
    split at h
    · cases h
      exact ⟨_, _, _, _, _, rfl, ⟨rfl, rfl, rfl⟩, fun _ => ⟨rfl, rfl⟩⟩
    obtain ⟨⟨padding, chunk⟩, hsend, h⟩ := bind_eq_some_iff.mp h
    cases h
    exact ⟨_, _, _, _, _, rfl, PaddingState.sameReceiver_send hsend, fun hne => (hno hne).elim⟩
  · obtain ⟨⟨encoder, ok, up⟩, -, h⟩ := bind_eq_some_iff.mp h
    cases h
    exact ⟨_, _, _, _, _, rfl, ⟨rfl, rfl, rfl⟩, fun _ => ⟨rfl, rfl⟩⟩
  all_goals
    cases h
    exact ⟨_, _, _, _, _, rfl, ⟨rfl, rfl, rfl⟩, fun _ => ⟨rfl, rfl⟩⟩

def Core.side (c : Core) : Method × ℕ × Bool × List (ℕ × List UInt8) × List UInt8 × Flags × Bool :=
  (c.method, c.channels, c.started, c.reads, c.down.queued, c.flags, c.refused)

lemma Flow.side (h : Flow env s s') : s'.core.side = s.core.side := by
  cases h with
  | quiet h _ _ => exact congrArg Core.side h
  | frame _ h _ | reopened _ h _ =>
    rw [h]
    rfl
  | wroteDown h =>
    obtain ⟨_, _, -, -, hqueued, -⟩ := Pipe.writeFront_eq_some h
    simp [Core.side, core, hqueued]
  | put _ _ h =>
    obtain ⟨_, _, _, _, _, rfl, -⟩ := put_eq_some h
    rfl
  | pend _ | wroteUp _ _ => rfl

lemma Flow.method (h : Flow env s s') : s'.method = s.method := congrArg Prod.fst h.side

lemma Flows.method (h : Flows env s s') : s'.method = s.method :=
  h.keeps (I := fun a => a.method = s.method) (fun _ _ hm hflow => hflow.method.trans hm) rfl

lemma Flow.connectedNow (h : Flow env s s') (hs' : s'.connectedNow) :
    s.connectedNow = true := by
  cases h with
  | quiet _ _ hc => exact hc hs'
  | frame _ _ hch => rwa [Connection.connectedNow, ← hch]
  | put _ _ h =>
    obtain ⟨_, _, _, _, _, rfl, -⟩ := put_eq_some h
    exact hs'
  | reopened _ _ hc => simp [hc] at hs'
  | wroteDown _ | pend _ | wroteUp _ _ => exact hs'

lemma Flows.connectedNow (h : Flows env s s') (hs' : s'.connectedNow) :
    s.connectedNow = true :=
  h.keeps (I := fun s' => s'.connectedNow = true → s.connectedNow = true)
    (fun _ _ hs hflow hs' => hs (hflow.connectedNow hs')) id hs'

lemma connectedNow_disconnected (env : Environment) {turns : List DownTurn}
    (h : s.disconnected turns = some s') : s'.connectedNow = false := by
  unfold disconnected at h
  split_ifs at h
  dsimp only at h
  have hclosed : ({ s with upstreamWritable := false }.closeChannel).connectedNow = false := by
    unfold connectedNow closeChannel modifyChannel
    cases s.channel <;> rfl
  split_ifs at h
  · cases h
    exact hclosed
  have hflows : Flows env _ s' := (makesDrifts_writeStream turns _ _ h).flows
  by_contra hopen
  rw [hflows.connectedNow (by simpa using hopen)] at hclosed
  cases hclosed

variable {frame : Frame}

lemma sendFrame_eq_some (h : s.sendFrame frame = some s') :
    s' = s ∨ ∃ bytes dataFrame,
      s' = { s with up := s.up.push (.copyBuffer bytes), dataFrame } := by
  cases frame with
  | control bytes =>
    cases h
    exact .inr ⟨bytes, s.dataFrame, rfl⟩
  | data header max =>
    unfold sendFrame at h
    cases hsrc : s.dataFrame with
    | none =>
      rw [hsrc] at h
      cases h
      exact .inl rfl
    | some src =>
      rw [hsrc] at h
      obtain ⟨sent, hsent, h⟩ := bind_eq_some_iff.mp h
      cases sent with
      | none =>
        cases h
        exact .inl rfl
      | some x =>
        cases h
        exact .inr ⟨header ++ x.1, some x.2, rfl⟩

lemma method_sendFrame (h : s.sendFrame frame = some s') :
    s'.method = s.method := by
  rcases sendFrame_eq_some h with rfl | ⟨_, _, rfl⟩ <;> rfl

lemma drifts_sendFrame (hmethod : s.method = .http2)
    (h : s.sendFrame frame = some s') : Drifts env s s' := by
  rcases sendFrame_eq_some h with rfl | ⟨bytes, dataFrame, rfl⟩
  · exact .refl _
  have hcore : { s with up := s.up.push (.copyBuffer bytes), dataFrame }.core =
      { s.core with up := s.up.push (.copyBuffer bytes) } := by
    simp [core, hmethod]
  exact (Flow.frame hmethod hcore rfl).drifts ⟨rfl, rfl, rfl⟩ rfl

variable {frames : List Frame}

lemma drifts_sendIfNotProcessing
    (h : s.sendIfNotProcessing frames = some s') : Drifts env s s' := by
  unfold sendIfNotProcessing at h
  split_ifs at h with hmethod
  · have hkeeps : ∀ a f a', (Drifts env s a ∧ a.method = .http2) →
        Connection.sendFrame a f = some a' → Drifts env s a' ∧ a'.method = .http2 := by
      rintro a f a' ⟨hdrifts, hm⟩ hsend
      exact ⟨hdrifts.trans (drifts_sendFrame hm hsend), (method_sendFrame hsend).trans hm⟩
    exact (Run.exec_keeps hkeeps ⟨Drifts.refl s, hmethod⟩ h).1
  · cases h
    exact .refl _

lemma drifts_resumeStream (h : s.resumeStream frames = some s') :
    Drifts env s s' := by
  unfold resumeStream at h
  split_ifs at h
  · exact drifts_sendIfNotProcessing h
  · cases h
    exact .refl _

section Chunks

variable {buf : GrowableIOBuffer} {c : Chunk}

lemma drifts_put (hconn : s.connectedNow) (hbuf : buf.readable ≠ []) {n : ℕ} {r : Put}
    (h : s.put env n buf = some (s', r)) : Drifts env s s' := by
  have hflow := Flow.put hconn hbuf h
  obtain ⟨_, _, _, _, _, rfl, hreceiver, -⟩ := put_eq_some h
  exact hflow.drifts hreceiver rfl

lemma drifts_passOn (hconn : s.connectedNow) (hbuf : buf.readable ≠ []) {alive : Bool}
    (h : s.passOn env c buf = some (s', alive)) : Drifts env s s' := by
  obtain ⟨⟨s₁, r⟩, hput, h⟩ := bind_eq_some_iff.mp h
  have hdrifts : Drifts env s s₁ := drifts_put hconn hbuf hput
  cases r with
  | queued =>
    cases h
    exact hdrifts
  | gone =>
    cases h
    exact hdrifts
  | failed =>
    obtain ⟨s₂, hlost, h⟩ := map_eq_some_iff.mp h
    cases h
    exact hdrifts.trans (drifts_disconnected hlost)

lemma drifts_pend (s : Connection) (hbuf : buf.readable ≠ []) : Drifts env s (s.pend buf) := by
  unfold pend
  split_ifs with hfull
  · exact drifts_onDisconnect s
  refine Drift.drifts ⟨.pend hbuf, ⟨rfl, rfl, rfl⟩, fun _ => ?_⟩
  simp only [pendingLength, List.map_append, List.sum_append, List.map_cons,
    List.map_nil, List.sum_cons, List.sum_nil]
  omega

lemma drifts_onStreamRead (hbuf : buf.readable ≠ []) (h : s.onStreamRead env c buf = some s') :
    Drifts env s s' := by
  unfold onStreamRead at h
  by_cases hconn : s.connectedNow
  · rw [if_neg (by simp [hconn])] at h
    obtain ⟨⟨s₁, alive⟩, hpass, h⟩ := bind_eq_some_iff.mp h
    have hdrifts := drifts_passOn hconn hbuf hpass
    cases alive with
    | false =>
      cases h
      exact hdrifts
    | true =>
      obtain ⟨s₂, hresume, rfl⟩ := map_eq_some_iff.mp h
      exact hdrifts.trans ((drifts_resumeStream hresume).trans (drifts_onUpstreamWriteFlush s₂))
  rw [if_pos (by simpa using hconn)] at h
  cases h
  exact drifts_pend s hbuf

lemma queue_pend (s : Connection) (buf : GrowableIOBuffer) : (s.pend buf).up = s.up := by
  unfold pend onDisconnect
  split_ifs <;> rfl

lemma drifts_reopen (hup : s.up.queue.isEmpty) (hbuf : buf.readable ≠ [])
    (request : Option Ss.Request) : Drifts env s (s.reopen request buf) := by
  -- the channel is gone first, which is the same kind of change as the new one
  have hgone : Flow env s { s with upstreamWritable := false, channel := none } :=
    .reopened hup rfl rfl
  refine (hgone.drifts ⟨rfl, rfl, rfl⟩ rfl).trans ((drifts_pend _ hbuf).trans ?_)
  have hnew : Flow env ({ s with upstreamWritable := false, channel := none }.pend buf)
      (s.reopen request buf) := by
    refine .reopened ?_ rfl ?_
    · rw [queue_pend]
      exact hup
    · cases request <;> rfl
  exact hnew.drifts ⟨rfl, rfl, rfl⟩ rfl

lemma drifts_outUp {ec ec' : Ec} {blocked read blocked' got : Bool}
    (h : s.outUp c ec blocked read = some (s', ec', blocked', got)) : Drifts env s s' := by
  obtain ⟨s₁, hresume, h⟩ := bind_eq_some_iff.mp h
  refine (drifts_resumeStream hresume).trans ?_
  by_cases hempty : s₁.up.queue.isEmpty
  · rw [if_pos hempty] at h
    cases h
    exact .refl _
  rw [if_neg hempty] at h
  cases h
  exact drifts_same rfl rfl rfl

variable {blocked got : Bool}

lemma drifts_passUp (hconn : s.connectedNow) (hbuf : buf.readable ≠ []) {ec : Ec}
    (h : s.passUp env c buf = some (s', ec, blocked, got)) :
    Drifts env s s' := by
  obtain ⟨⟨s₁, alive⟩, hpass, h⟩ := bind_eq_some_iff.mp h
  have hdrifts := drifts_passOn hconn hbuf hpass
  cases alive with
  | false =>
    cases h
    exact hdrifts
  | true => exact hdrifts.trans (drifts_outUp h)

lemma drifts_afterRead (hup : s.up.queue.isEmpty) {t : UpTurn} (hbuf : buf.readable ≠ [])
    {ec : Ec} (h : s.afterRead env t buf = some (s', ec, blocked, got)) :
    Drifts env s s' := by
  unfold afterRead at h
  by_cases hconn : s.connectedNow
  · rw [if_neg (by simp [hconn])] at h
    split at h
    · exact drifts_passUp hconn hbuf h
    · next bytes hbytes _ => exact drifts_passUp hconn (by simpa using hbytes) h
    · cases h
      exact .refl _
    · cases h
      exact .refl _
    · next request bytes hbytes _ =>
      cases h
      exact drifts_reopen hup (by simpa using hbytes) request
  rw [if_pos (by simpa using hconn)] at h
  cases h
  exact drifts_pend s hbuf

end Chunks

variable {ec : Ec} {t : UpTurn}

lemma drifts_getNextUpstreamBuf {blocked got : Bool}
    (h : s.getNextUpstreamBuf env t = some (s', ec, blocked, got)) : Drifts env s s' := by
  unfold getNextUpstreamBuf at h
  split_ifs at h with hup
  · cases h
    exact .refl _
  · cases h
    exact .refl _
  · cases h
    exact .refl _
  · cases h
    exact .refl _
  · exact drifts_outUp h
  split at h
  · exact (drifts_onDisconnect s).trans (drifts_outUp h)
  · exact drifts_outUp h
  · exact drifts_outUp h
  · next b bs _ =>
    obtain ⟨buf, hbuf, h⟩ := bind_eq_some_iff.mp h
    refine drifts_afterRead (by simpa using hup) ?_ h
    rw [(GrowableIOBuffer.readSome_eq_some hbuf).1]
    exact List.cons_ne_nil b bs

variable {tryAgain : Bool}

lemma drifts_upWrite (hfront : s.up.queue.front.all GrowableIOBuffer.isEmpty = false)
    {w w' : ℕ} {tryAgain' : Bool} {exit : UpExit}
    (h : s.upWrite w tryAgain t = some (s', w', tryAgain', exit)) : Drifts env s s' := by
  unfold upWrite at h
  split at h
  · cases h
    exact .refl _
  · obtain ⟨s₁, hlost, h⟩ := bind_eq_some_iff.mp h
    cases h
    exact (drifts_disconnected hlost).trans (drifts_onDisconnect s₁)
  obtain ⟨⟨up, written, empty⟩, hwrite, h⟩ := bind_eq_some_iff.mp h
  have hwrote : Drifts env s { s with up } :=
    (Flow.wroteUp hfront hwrite).drifts ⟨rfl, rfl, rfl⟩ rfl
  dsimp only at h
  split_ifs at h <;> cases h <;> exact hwrote

lemma drifts_upTurn {w w' : ℕ} {tryAgain' : Bool} {exit : UpExit}
    (h : s.upTurn env w tryAgain t = some (s', w', tryAgain', exit)) : Drifts env s s' := by
  obtain ⟨⟨s₁, ec, blocked, got⟩, hget, h⟩ := bind_eq_some_iff.mp h
  refine (drifts_getNextUpstreamBuf hget).trans ?_
  dsimp only at h
  by_cases hec : ec = .failed
  · rw [if_pos hec] at h
    cases h
    exact .refl _
  rw [if_neg hec] at h
  by_cases hread : (!got || s₁.up.queue.front.all GrowableIOBuffer.isEmpty)
  · rw [if_pos hread] at h
    cases h
    exact .refl _
  rw [if_neg hread] at h
  split_ifs at h
  · cases h
    exact .refl _
  · simp only [Bool.or_eq_true, not_or, Bool.not_eq_true] at hread
    exact drifts_upWrite hread.2 h

lemma drifts_afterUp (s : Connection) (tryAgain : Bool) (ec : Ec) :
    Drifts env s (s.afterUp tryAgain ec) := by
  have hread : Drifts env s (if tryAgain then s.readStream else s) := by
    split_ifs
    · exact drifts_readStream s
    · exact .refl s
  refine hread.trans ?_
  unfold afterUp
  generalize (if tryAgain then s.readStream else s) = s₁
  dsimp only
  split_ifs
  · exact drifts_onUpstreamWriteFlush s₁
  · exact Drifts.refl s₁

lemma drifts_upLoop {turns : List UpTurn} {w : ℕ}
    (h : Connection.upLoop env turns s w tryAgain = some s') : Drifts env s s' := by
  induction turns generalizing s w tryAgain with
  | nil =>
    obtain ⟨⟨s₁, w₁, tryAgain₁, exit⟩, hturn, h⟩ := bind_eq_some_iff.mp h
    refine (drifts_upTurn hturn).trans ?_
    cases exit <;> cases h
    · exact .refl _
    · exact drifts_afterUp _ _ _
    · exact .refl _
  | cons t ts ih =>
    obtain ⟨⟨s₁, w₁, tryAgain₁, exit⟩, hturn, h⟩ := bind_eq_some_iff.mp h
    refine (drifts_upTurn hturn).trans ?_
    cases exit with
    | goesOn => exact ih h
    | breaks ec =>
      cases h
      exact drifts_afterUp _ _ _
    | returns =>
      cases h
      exact .refl _

lemma makesDrifts_writeUpstreamInPipe (turns : List UpTurn) :
    MakesDrifts env (Connection.writeUpstreamInPipe env turns) := by
  intro s s' h
  unfold writeUpstreamInPipe at h
  split_ifs at h
  · cases h
    exact .refl _
  · exact drifts_upLoop h

lemma drifts_upFlush {turns : List UpTurn} (h : s.upFlush env turns = some s') :
    Drifts env s s' := by
  obtain ⟨s₁, hup, rfl⟩ := map_eq_some_iff.mp h
  exact (makesDrifts_writeUpstreamInPipe turns _ _ hup).trans (drifts_onUpstreamWriteFlush s₁)

/-! ## Reading the server -/

section Replies

variable {buf : GrowableIOBuffer} {r : DownRead} {x : Stage}

lemma moves_refuse {f : Flags} (hf : Answered s f) {lost : List DownTurn}
    (h : { s with flags := f }.refuse lost = some (s', x)) : Moves env s s' := by
  obtain ⟨s₁, hlost, h⟩ := map_eq_some_iff.mp h
  cases h
  exact (Move.refused f hf).moves.trans (drifts_disconnected hlost).moves

lemma moves_selected (hflag : s.flags.methodSelect)
    (hread : ∃ bytes, s.reads.getLast? = some (s.up.accepted.length, bytes))
    (h : s.readUpstreamMethodSelectResponse env r buf = some (s', x)) : Moves env s s' := by
  unfold readUpstreamMethodSelectResponse at h
  dsimp only at h
  split at h
  · exact moves_refuse (.methodSelect hflag) h
  obtain ⟨buf', -, h⟩ := bind_eq_some_iff.mp h
  cases hauth : s.flags.auth with
  | true =>
    rw [if_pos hauth] at h
    obtain ⟨s₁, hwrite, h⟩ := map_eq_some_iff.mp h
    cases h
    obtain ⟨pipe, hpipe, hwrite⟩ := bind_eq_some_iff.mp hwrite
    exact (Move.selectedAuth hflag hauth hpipe).moves.trans
      (makesDrifts_writeUpstreamInPipe _ _ _ hwrite).moves
  | false =>
    rw [if_neg (by simp [hauth])] at h
    obtain ⟨s₁, hwrite, h⟩ := map_eq_some_iff.mp h
    cases h
    obtain ⟨pipe, hpipe, hwrite⟩ := bind_eq_some_iff.mp hwrite
    exact (Move.selected hflag hauth hread hpipe).moves.trans
      (makesDrifts_writeUpstreamInPipe _ _ _ hwrite).moves

lemma moves_authenticated (hflag : s.flags.auth)
    (h : s.readUpstreamAuthResponse env r buf = some (s', x)) : Moves env s s' := by
  unfold readUpstreamAuthResponse at h
  dsimp only at h
  split at h
  · exact moves_refuse (.auth hflag) h
  obtain ⟨buf', -, h⟩ := bind_eq_some_iff.mp h
  obtain ⟨s₁, hwrite, h⟩ := map_eq_some_iff.mp h
  cases h
  obtain ⟨pipe, hpipe, hwrite⟩ := bind_eq_some_iff.mp hwrite
  exact (Move.authenticated hflag hpipe).moves.trans
    (makesDrifts_writeUpstreamInPipe _ _ _ hwrite).moves

lemma moves_granted (hflag : s.flags.socks)
    (h : s.readUpstreamSocksResponse r buf = some (s', x)) : Moves env s s' := by
  obtain ⟨reply, -, h⟩ := bind_eq_some_iff.mp h
  cases reply with
  | none => exact moves_refuse (.socks hflag) h
  | some n =>
    obtain ⟨buf', -, h⟩ := bind_eq_some_iff.mp h
    cases h
    exact (Move.granted _ (Or.inr ⟨hflag, rfl⟩)).moves

lemma moves_readUpstreamHttpsHandshake (hmethod : s.method = .https)
    (h : s.readUpstreamHttpsHandshake env r buf = some (s', x)) : Moves env s s' := by
  unfold readUpstreamHttpsHandshake at h
  dsimp only at h
  split at h
  · exact moves_refuse (.https hmethod) h
  obtain ⟨buf', -, h⟩ := bind_eq_some_iff.mp h
  cases h
  exact (Move.granted _ (Or.inl ⟨hmethod, rfl⟩)).moves

lemma moves_runStage {stage : Connection → GrowableIOBuffer → Option (Connection × Stage)}
    {flag : Connection → Bool} {x₀ x₁ : Connection × Stage}
    (hstage : ∀ buf, flag x₀.1 = true → stage x₀.1 buf = some x₁ → Moves env x₀.1 x₁.1)
    (h : Connection.runStage stage flag x₀ = some x₁) : Moves env x₀.1 x₁.1 := by
  obtain ⟨s₀, stops | passes⟩ := x₀
  · cases h
    exact .refl _
  unfold runStage at h
  dsimp only at h
  split_ifs at h with hflag
  · exact hstage _ hflag h
  · cases h
    exact .refl _

lemma moves_readReplies (hread : ∃ bytes, s.reads.getLast? = some (s.up.accepted.length, bytes))
    (h : s.readReplies env r buf = some (s', x)) : Moves env s s' := by
  obtain ⟨x₁, h₁, h⟩ := bind_eq_some_iff.mp h
  obtain ⟨x₂, h₂, h⟩ := bind_eq_some_iff.mp h
  have hselect : Moves env s x₁.1 :=
    moves_runStage (fun _ hflag hstage => moves_selected hflag hread hstage) h₁
  have hauth : Moves env x₁.1 x₂.1 :=
    moves_runStage (fun _ hflag hstage => moves_authenticated hflag hstage) h₂
  have hgranted : Moves env x₂.1 s' :=
    moves_runStage (fun _ hflag hstage => moves_granted hflag hstage) h
  exact hselect.trans (hauth.trans hgranted)

end Replies

lemma moves_pushDown (s : Connection) (bufs : List GrowableIOBuffer) :
    Moves env s { s with down := bufs.foldl Pipe.push s.down } := by
  induction bufs generalizing s with
  | nil => exact .refl s
  | cons buf bufs ih =>
    exact (Move.pushDown buf).moves.trans (ih { s with down := s.down.push buf })

lemma flows_stream (hmethod : s.method = .http2) (padding : PaddingState) (eof : Bool)
    (dataFrame : Option DataFrameSource) :
    Flows env s { s with padding, streamRecvEof := eof, dataFrame } :=
  flows_same (by simp [Connection.core, hmethod]) rfl

variable {lost : List DownTurn}

lemma moves_visit (hmethod : s.method = .http2) {v : Visit}
    (h : s.visit env lost v = some s') : Moves env s s' ∧ s'.method = .http2 := by
  cases v with
  | endHeaders padding =>
    cases h
    exact ⟨(flows_stream hmethod _ _ _).moves, hmethod⟩
  | data bytes =>
    obtain ⟨⟨padding, bufs⟩, -, h⟩ := bind_eq_some_iff.mp h
    cases h
    have hpadding : Flows env s { s with padding } := flows_stream hmethod _ _ _
    exact ⟨hpadding.moves.trans (moves_pushDown _ bufs), hmethod⟩
  | endStream =>
    cases h
    exact ⟨(flows_stream hmethod _ _ _).moves, hmethod⟩
  | closeStream =>
    cases h
    exact ⟨(flows_stream hmethod _ _ _).moves, hmethod⟩
  | connectionError =>
    have hframe : Flows env s { s with dataFrame := none } := flows_stream hmethod _ _ _
    have hlost : Flows env s s' := hframe.trans (drifts_disconnected h).flows
    exact ⟨hlost.moves, hlost.method.trans hmethod⟩
  | disconnect =>
    have hlost : Flows env s s' := (drifts_disconnected h).flows
    exact ⟨hlost.moves, hlost.method.trans hmethod⟩

lemma moves_visits (hmethod : s.method = .http2) {visits : List Visit}
    (h : visits.foldlM (Connection.visit env lost) s = some s') : Moves env s s' := by
  have hkeeps : ∀ a v a', (Moves env s a ∧ a.method = .http2) →
      Connection.visit env lost a v = some a' → Moves env s a' ∧ a'.method = .http2 := by
    rintro a v a' ⟨hmoves, hm⟩ hvisit
    obtain ⟨hmoves', hm'⟩ := moves_visit hm hvisit
    exact ⟨hmoves.trans hmoves', hm'⟩
  exact (Run.exec_keeps hkeeps ⟨Moves.refl s, hmethod⟩ h).1

lemma moves_decoderCall {call : Cipher.VisitorEvent}
    (h : s.decoderCall lost call = some s') : Moves env s s' := by
  cases call with
  | protocolError => exact (drifts_disconnected h).moves
  | receivedData data =>
    cases data with
    | nil =>
      cases h
      exact .refl _
    | cons b bs =>
      cases h
      exact (Move.pushDown _).moves

lemma moves_deliver {buf : GrowableIOBuffer}
    (h : s.deliver env lost buf = some s') : Moves env s s' := by
  unfold deliver at h
  split_ifs at h
  · obtain ⟨⟨decoder, calls⟩, -, h⟩ := bind_eq_some_iff.mp h
    have hdecoder : Flows env s { s with decoder } := flows_same rfl rfl
    exact Run.exec_keeps (I := Moves env s)
      (fun _ _ _ hmoves hcall => hmoves.trans (moves_decoderCall hcall)) hdecoder.moves h
  · cases h
    exact (Move.pushDown buf).moves

lemma moves_afterStages {x : Connection × Stage} {out : Bool}
    (h : Connection.afterStages env lost x = some (s', ec, out)) : Moves env x.1 s' := by
  obtain ⟨s₀, stops | passes⟩ := x
  · cases h
    exact .refl _
  obtain ⟨s₁, hdeliver, h⟩ := map_eq_some_iff.mp h
  cases h
  exact moves_deliver hdeliver

lemma getLast_recordRead (s : Connection) (bytes : List UInt8) :
    ∃ bytes', (s.recordRead bytes).reads.getLast? =
      some ((s.recordRead bytes).up.accepted.length, bytes') :=
  ⟨bytes, by simp [Connection.recordRead]⟩

lemma moves_readDown {reads : List DownRead} {out : Bool}
    (h : Connection.readDown env reads s = some (s', ec, out)) : Moves env s s' := by
  induction reads generalizing s with
  | nil =>
    unfold readDown at h
    split_ifs at h <;> cases h <;> exact .refl _
  | cons r reads ih =>
    unfold readDown at h
    split_ifs at h
    · cases h
      exact .refl _
    split at h
    · obtain ⟨s₁, hlost, h⟩ := map_eq_some_iff.mp h
      cases h
      exact (drifts_disconnected hlost).moves
    · cases h
      exact .refl _
    · cases h
      exact .refl _
    · next b bs _ =>
      refine Moves.trans (Move.read (b :: bs)).moves ?_
      obtain ⟨buf, -, h⟩ := bind_eq_some_iff.mp h
      have hread := getLast_recordRead s (b :: bs)
      generalize s.recordRead (b :: bs) = s₀ at h hread
      split at h
      · -- HTTP/2
        rename_i hmethod
        obtain ⟨s₁, hvisits, h⟩ := bind_eq_some_iff.mp h
        refine (moves_visits hmethod hvisits).trans ?_
        split at h
        · cases h
          exact .refl _
        · obtain ⟨s₂, hlost, h⟩ := map_eq_some_iff.mp h
          cases h
          exact (drifts_disconnected hlost).moves
        split_ifs at h
        · exact ih h
        · cases h
          exact .refl _
      · -- an HTTP proxy
        rename_i hmethod
        obtain ⟨x, hstage, h⟩ := bind_eq_some_iff.mp h
        have hmoves : Moves env s₀ x.1 :=
          moves_runStage
            (fun _ _ hstage => moves_readUpstreamHttpsHandshake hmethod hstage) hstage
        refine hmoves.trans ?_
        split at h
        · exact ih h
        · exact moves_afterStages h
      all_goals
        obtain ⟨x, hreplies, h⟩ := bind_eq_some_iff.mp h
        exact (moves_readReplies hread hreplies).trans (moves_afterStages h)

lemma drifts_sendControl {send : Option (List Frame × List UpTurn)}
    (h : s.sendControl env send = some s') : Drifts env s s' := by
  unfold sendControl at h
  split at h
  · obtain ⟨s₁, hsend, h⟩ := bind_eq_some_iff.mp h
    exact (drifts_sendIfNotProcessing hsend).trans (makesDrifts_writeUpstreamInPipe _ _ _ h)
  · cases h
    exact .refl _

variable {sc : DownScript}

lemma drifts_outDown {ec ec' : Ec} {got : Bool}
    (h : s.outDown env sc ec = some (s', ec', got)) : Drifts env s s' := by
  obtain ⟨s₁, hsend, h⟩ := bind_eq_some_iff.mp h
  have hshutdown : Drifts env s₁ s₁.shutdownAtStreamEnd := by
    unfold shutdownAtStreamEnd
    split_ifs
    · exact drifts_same rfl rfl rfl
    · exact Drifts.refl s₁
  refine (drifts_sendControl hsend).trans (hshutdown.trans ?_)
  dsimp only at h
  by_cases hempty : s₁.shutdownAtStreamEnd.down.queue.isEmpty
  · rw [if_pos hempty] at h
    cases h
    exact .refl _
  rw [if_neg hempty] at h
  cases h
  exact drifts_same rfl rfl rfl

lemma drifts_afterGet {got : Bool} (h : s.afterGet sc ec got = some s') : Drifts env s s' := by
  have hwait : ∀ s : Connection, Drifts env s (if ec = .tryAgain then s.waitRead else s) := by
    intro s
    split_ifs
    · exact drifts_waitRead s
    · exact .refl s
  unfold afterGet at h
  by_cases hec : ec = .failed
  · rw [if_pos hec] at h
    cases h
    exact .refl _
  rw [if_neg hec] at h
  by_cases hgot : (!got || s.down.queue.front.all GrowableIOBuffer.isEmpty)
  · rw [if_pos hgot] at h
    cases h
    exact hwait s
  rw [if_neg hgot] at h
  obtain ⟨s₁, hwrite, rfl⟩ := map_eq_some_iff.mp h
  exact (makesDrifts_writeStream _ _ _ hwrite).trans (hwait s₁)

/-- The server is read only while nothing waits for the application and the channel is connected. -/
lemma readUpstream_eq_some (h : s.readUpstream env sc = some s') :
    Drifts env s s' ∨ ∃ s₁ ec out, s.down.queue.isEmpty = true ∧ s.connectedNow = true ∧
      Connection.readDown env sc.reads s = some (s₁, ec, out) ∧ Drifts env s₁ s' := by
  unfold readUpstream at h
  split_ifs at h
  · cases h
    exact .inl (Drifts.refl _)
  obtain ⟨⟨s₁, ec, got⟩, hget, h⟩ := bind_eq_some_iff.mp h
  have hafter : Drifts env s₁ s' := drifts_afterGet h
  unfold getNextDownstreamBuf at hget
  split_ifs at hget with hempty _ hconnected
  · cases hget
    exact .inl hafter
  · cases hget
    exact .inl hafter
  · cases hget
    exact .inl hafter
  obtain ⟨⟨s₂, ec₂, out⟩, hread, hget⟩ := bind_eq_some_iff.mp hget
  refine .inr ⟨s₂, ec₂, out, by simpa using hempty, by simpa using hconnected, hread, ?_⟩
  cases out with
  | false =>
    cases hget
    exact hafter
  | true => exact (drifts_outDown hget).trans hafter

lemma moves_readUpstream (h : s.readUpstream env sc = some s') : Moves env s s' := by
  rcases readUpstream_eq_some h with hdrifts | ⟨s₁, ec, out, -, -, hread, hdrifts⟩
  · exact hdrifts.moves
  · exact (moves_readDown hread).trans hdrifts.moves

/-! ## Callbacks -/

lemma moves_onConnect (hch : s.channel = none) (request : Option Ss.Request) :
    Moves env s (s.onConnect request) := by
  have hcore : (s.onConnect request).core =
      { s.core with request := (s.onConnect request).request } := rfl
  refine (Move.asked hcore fun _ => ?_).moves
  simp [waiting, hch]

variable {chunks : List Chunk}

lemma drifts_replay {bufs : List GrowableIOBuffer} (hbufs : ∀ buf ∈ bufs, buf.readable ≠ [])
    (h : Connection.replay env bufs chunks s = some s') : Drifts env s s' := by
  induction bufs generalizing s chunks with
  | nil =>
    cases h
    exact .refl _
  | cons buf bufs ih =>
    obtain ⟨s₁, hread, h⟩ := bind_eq_some_iff.mp h
    have hbuf := hbufs buf List.mem_cons_self
    exact (drifts_onStreamRead hbuf hread).trans
      (ih (fun b hb => hbufs b (List.mem_cons_of_mem buf hb)) h)

def Held (s : Connection) : Prop := ∀ buf ∈ s.pendingData, buf.readable ≠ []

variable {up : List UpTurn}

lemma replayPending_eq_some (hheld : Held s) (h : s.replayPending env chunks up = some s') :
    s' = s ∨ Drifts env { s with pendingData := [] } s' := by
  unfold replayPending at h
  split_ifs at h
  · cases h
    exact .inl rfl
  obtain ⟨s₁, hreplay, h⟩ := bind_eq_some_iff.mp h
  exact .inr ((drifts_replay hheld hreplay).trans (makesDrifts_writeUpstreamInPipe _ _ _ h))

lemma moves_replayPending (hheld : Held s)
    (h : s.replayPending env chunks up = some s') : Moves env s s' := by
  rcases replayPending_eq_some hheld h with rfl | hdrifts
  · exact .refl _
  · exact Move.unpend.moves.trans hdrifts.moves

lemma moves_answer {down : List DownTurn} {reply : Reply}
    (h : s.answer down reply = some s') : Moves env s s' := by
  cases reply with
  | nothing =>
    cases h
    exact .refl _
  | connect bytes =>
    exact (Move.pushDown _).moves.trans
      (drifts_onDownstreamWriteFlush (makesDrifts_writeStream down) h).moves
  | socks =>
    cases h
    exact moves_same rfl rfl

lemma moves_onHandshake (hch : s.channel = none) {request : Option Ss.Request} {reply : Reply}
    {left : List UInt8} {down : List DownTurn}
    (h : s.onHandshake env request reply left down up = some s') : Moves env s s' := by
  obtain ⟨s₁, hanswer, h⟩ := bind_eq_some_iff.mp h
  have hstarted : Moves env s { s with started := true } := Move.begun.moves
  have hasked : Moves env _ ({ s with started := true }.onConnect request) :=
    moves_onConnect (s := { s with started := true }) hch request
  refine hstarted.trans (hasked.trans ((moves_answer hanswer).trans ?_))
  split_ifs at h with hleft
  · exact (drifts_upFlush h).moves
  · exact (drifts_onStreamRead (by simpa using hleft) h).moves

/-! ## Changes to one field -/

lemma Held.flow (hs : Held s) (h : Flow env s s') : Held s' := by
  cases h with
  | quiet h _ _ =>
    have hpending : s'.pendingData = s.pendingData := congrArg Core.pendingData h
    rwa [Held, hpending]
  | wroteDown _ => exact hs
  | frame _ h _ =>
    have hpending : s'.pendingData = s.pendingData := congrArg Core.pendingData h
    rwa [Held, hpending]
  | pend hbuf =>
    intro buf hmem
    rcases List.mem_append.mp hmem with hmem | hmem
    · exact hs buf hmem
    · rw [List.mem_singleton.mp hmem]
      exact hbuf
  | put _ _ h =>
    obtain ⟨_, _, _, _, _, rfl, -⟩ := put_eq_some h
    exact hs
  | wroteUp _ _ => exact hs
  | reopened _ h _ =>
    have hpending : s'.pendingData = s.pendingData := congrArg Core.pendingData h
    rwa [Held, hpending]

lemma Held.flows (hs : Held s) (h : Flows env s s') : Held s' :=
  h.keeps (fun _ _ hheld hflow => hheld.flow hflow) hs

variable {settings : List Frame}

lemma greetAgain_eq_some (env : Environment) (h : s.greetAgain settings frames = some s') :
    ∃ s₁, Flows env s s₁ ∧ Flows env { s₁ with dataFrame := some ⟨[], false⟩ } s' := by
  obtain ⟨s₁, hsettings, h⟩ := bind_eq_some_iff.mp h
  exact ⟨s₁, (drifts_sendIfNotProcessing hsettings).flows, (drifts_sendIfNotProcessing h).flows⟩

lemma greet_eq_some (h : s.greet env settings frames lost = some s') :
    ∃ padding dataFrame up encoder decoder flags,
      Flows env { s with padding, dataFrame, up, encoder, decoder, flags } s' := by
  unfold greet at h
  split at h
  · next hmethod =>
    obtain ⟨s₁, hsettled, hsent⟩ := greetAgain_eq_some env h
    refine ⟨{ s.padding with supportInFact := env.paddingSupport }, none, s.up, s.encoder,
      s.decoder, s.flags, ?_⟩
    have hhttp2 : s₁.method = .http2 := hsettled.method.trans hmethod
    exact hsettled.trans ((flows_stream hhttp2 s₁.padding s₁.streamRecvEof _).trans hsent)
  · cases h
    exact ⟨s.padding, s.dataFrame, _, s.encoder, s.decoder, s.flags, .refl _⟩
  · unfold writeUpstreamSocks4Request at h
    split at h
    · cases h
    · cases h
      exact ⟨s.padding, s.dataFrame, s.up, s.encoder, s.decoder, s.flags,
        (drifts_onDisconnect s).flows⟩
    · cases h
      exact ⟨s.padding, s.dataFrame, _, s.encoder, s.decoder, _, .refl _⟩
  · cases h
    exact ⟨s.padding, s.dataFrame, _, s.encoder, s.decoder, _, .refl _⟩
  · cases h
    exact ⟨s.padding, s.dataFrame, _, s.encoder, s.decoder, _, .refl _⟩
  obtain ⟨⟨encoder, ok, up⟩, -, h⟩ := bind_eq_some_iff.mp h
  refine ⟨s.padding, s.dataFrame, up, encoder, env.decoder, s.flags, ?_⟩
  dsimp only at h
  split_ifs at h
  · cases h
    exact .refl _
  · exact (drifts_disconnected h).flows

lemma Held.greet (hs : Held s) (h : s.greet env settings frames lost = some s') : Held s' := by
  obtain ⟨padding, dataFrame, up, encoder, decoder, flags, hflows⟩ := greet_eq_some h
  exact Held.flows (s := { s with padding, dataFrame, up, encoder, decoder, flags }) hs hflows

lemma Held.greetAgain (env : Environment) (hs : Held s)
    (h : s.greetAgain settings frames = some s') : Held s' := by
  obtain ⟨s₁, hsettled, hsent⟩ := greetAgain_eq_some env h
  have hheld : Held s₁ := hs.flows hsettled
  exact Held.flows (s := { s₁ with dataFrame := some ⟨[], false⟩ }) hheld hsent

lemma Held.move (hs : Held s) (h : Move env s s') : Held s' := by
  cases h with
  | flow h => exact hs.flow h
  | asked h _ =>
    have hpending : s'.pendingData = s.pendingData := congrArg Core.pendingData h
    rwa [Held, hpending]
  | greeted _ _ h => exact Held.greet (s := s.openChannel _) hs h
  | greetedAgain _ _ _ h => exact Held.greetAgain env (s := s.openChannel _) hs h
  | unpend => exact fun buf hmem => absurd hmem List.not_mem_nil
  | begun | pushDown _ | read _ | granted _ _ | refused _ _ => exact hs
  | selectedAuth _ _ _ | selected _ _ _ _ | authenticated _ _ => exact hs

/-! ## A callback is a sequence of changes -/

variable {c : Connect}

lemma onConnected_eq_some (h : s.onConnected env c = some s') :
    ∃ s₁, s.greetChannel env c = some s₁ ∧
      ((s₁.closed = true ∧ s' = s₁) ∨
        s₁.closed = false ∧ ∃ s₂ s₃, s₁.replayPending env c.chunks c.replayed = some s₂ ∧
          { s₂ with upstreamWritable := true }.readUpstream env c.read = some s₃ ∧
          s₃.upFlush env c.up = some s') := by
  obtain ⟨s₁, hgreet, h⟩ := bind_eq_some_iff.mp h
  refine ⟨s₁, hgreet, ?_⟩
  split_ifs at h with hclosed
  · cases h
    exact .inl ⟨hclosed, rfl⟩
  obtain ⟨s₂, hreplay, h⟩ := bind_eq_some_iff.mp h
  obtain ⟨s₃, hread, h⟩ := bind_eq_some_iff.mp h
  exact .inr ⟨by simpa using hclosed, s₂, s₃, hreplay, hread, h⟩

lemma move_greetChannel (hch : (s.channel.any fun ch => !ch.connected && !ch.eof) = true)
    (hmethod : c.http11 = true → s.method = .https ∨ s.method = .http2)
    (h : s.greetChannel env c = some s') : Move env s s' := by
  have hspeaks : s.speaksHttp11 c = true → s.method = .https ∨ s.method = .http2 := by
    intro hspeaks
    rw [speaksHttp11, Bool.or_eq_true, Bool.and_eq_true, beq_iff_eq] at hspeaks
    rcases hspeaks with hnegotiated | ⟨hhttp2, -⟩
    · exact hmethod hnegotiated
    · exact .inr hhttp2
  unfold greetChannel at h
  split_ifs at h with hagain
  · rw [Bool.and_eq_true] at hagain
    exact Move.greetedAgain hch hagain.2 (hspeaks hagain.1) h
  · exact Move.greeted hch hspeaks h

lemma due_connected (hdue : due s (.connected c) = true) :
    (s.channel.any fun ch => !ch.connected && !ch.eof) = true ∧
      (c.http11 = true → s.method = .https ∨ s.method = .http2) := by
  simp only [due, Bool.and_eq_true, Bool.or_eq_true, Bool.not_eq_true', beq_iff_eq] at hdue
  refine ⟨by simpa using hdue.1, fun h11 => ?_⟩
  rcases hdue.2 with (h11' | hm) | hm
  · rw [h11] at h11'
    cases h11'
  · exact .inl hm
  · exact .inr hm

lemma moves_onConnected (hheld : Held s) (hdue : due s (.connected c) = true)
    (h : s.onConnected env c = some s') :
    ∃ s₁, s.greetChannel env c = some s₁ ∧ Move env s s₁ ∧ Moves env s₁ s' := by
  obtain ⟨hch, hmethod⟩ := due_connected hdue
  obtain ⟨s₁, hgreet, h⟩ := onConnected_eq_some h
  have hgreeted : Move env s s₁ := move_greetChannel hch hmethod hgreet
  refine ⟨s₁, hgreet, hgreeted, ?_⟩
  rcases h with ⟨-, rfl⟩ | ⟨-, s₂, s₃, hreplay, hread, h⟩
  · exact .refl _
  have hflag : Moves env s₂ { s₂ with upstreamWritable := true } := moves_same rfl rfl
  exact (moves_replayPending (hheld.move hgreeted) hreplay).trans
    (hflag.trans ((moves_readUpstream hread).trans (drifts_upFlush h).moves))

def Event.writes : Event → Bool
  | .handshake _ _ _ _ _ | .resolved _ | .connected _ | .received _ => false
  | .replied _ _ | .sent _ | .lost _ | .writable _ | .readable _ | .failed => true

lemma drifts_callback {e : Event} (hwrites : e.writes = true) (h : callback env s e = some s') :
    Drifts env s s' := by
  cases e with
  | handshake | resolved | connected | received => cases hwrites
  | replied n down =>
    have hflag : Drifts env s { s with replying := false } := drifts_same rfl rfl rfl
    exact hflag.trans (drifts_processSentData (makesDrifts_writeStream down) h)
  | sent up =>
    have hflag : Drifts env s (s.modifyChannel fun ch => { ch with writeInprogress := false }) :=
      drifts_modifyChannel s (fun _ => id) fun _ => id
    refine hflag.trans (Drifts.trans ?_ (drifts_upFlush h))
    exact drifts_same rfl rfl rfl
  | lost down => exact drifts_disconnected h
  | writable down =>
    have hflag : Drifts env s { s with writeInprogress := false } := drifts_same rfl rfl rfl
    exact hflag.trans (makesDrifts_writeStream down _ _ h)
  | readable up =>
    have hflag : Drifts env s { s with downstreamReadInprogress := false } :=
      drifts_same rfl rfl rfl
    exact hflag.trans (drifts_upFlush h)
  | failed =>
    cases h
    exact drifts_onDisconnect s

lemma drifts_readable (s : Connection) :
    Drifts env s (s.modifyChannel fun ch => { ch with readInprogress := false }) :=
  drifts_modifyChannel s (fun _ => id) fun _ => id

lemma moves_callback (hheld : Held s) {e : Event} (hdue : due s e)
    (h : callback env s e = some s') : Moves env s s' := by
  cases e with
  | handshake request reply left down up =>
    simp only [due, Bool.and_eq_true, Option.isNone_iff_eq_none] at hdue
    exact moves_onHandshake hdue.2 h
  | resolved request =>
    simp only [due, Bool.and_eq_true, Option.isNone_iff_eq_none] at hdue
    cases h
    exact moves_onConnect hdue.2 _
  | connected c =>
    obtain ⟨s₁, -, hgreeted, hmoves⟩ := moves_onConnected hheld hdue h
    exact hgreeted.moves.trans hmoves
  | received read => exact (drifts_readable s).moves.trans (moves_readUpstream h)
  | _ => exact (drifts_callback rfl h).moves

/-- **A callback is a sequence of changes.** -/
theorem moves_step (hheld : Held s) {e : Event} (h : step env s e = some s') :
    Moves env s s' := by
  unfold step at h
  split_ifs at h with hskip
  · cases h
    exact .refl _
  · simp only [Bool.or_eq_true, not_or, Bool.not_eq_true, Bool.not_eq_false'] at hskip
    exact moves_callback hheld hskip.2 h

/-- **Invariant rule.** What every change keeps holds in every state that a run reaches. -/
theorem run_keeps (hmove : ∀ s s', I s → Move env s s' → I s')
    {method : Method} {es : List Event} (hstart : I (start env method))
    (hrun : Run.exec (step env) (start env method) es = some s) : I s := by
  have hheld : Held (start env method) := fun buf hmem => absurd hmem List.not_mem_nil
  refine (Run.exec_keeps (I := fun s => Held s ∧ I s) ?_ ⟨hheld, hstart⟩ hrun).2
  rintro s e s' ⟨hs, hI⟩ hstep
  have hmoves := moves_step hs hstep
  exact ⟨hmoves.keeps (fun _ _ hheld hmove => hheld.move hmove) hs, hmoves.keeps hmove hI⟩

end Yass.Cli.Relay
