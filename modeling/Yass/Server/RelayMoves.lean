import Yass.Server.Relay

/-!
# What a callback of the relay can do

Every function of the relay is a sequence of a few kinds of change, each under the condition under
which the source makes it. What holds after every such change holds after every callback, so that an
invariant is checked against the changes and not against the loops.

* `core` — the part of a connection that the flags of the waits, the channels and the state of the
  receiver are not part of.
* `Move` — one change; `Moves` is a sequence of them.
-/

namespace Yass.Server.Relay

open Yass.Net
open Option (bind_eq_some_iff)
open Relation (ReflTransGen)
open Connection

/-- A connection up to flags, channels and the state of the receiver. -/
structure Core where
  method : Method
  shutdown : Bool
  down : Pipe
  up : Pipe
  encoder : Cipher
  /-- The chunks of the current stream that wait to be framed. -/
  chunks : Option (List GrowableIOBuffer)
  log : List Act

def Connection.core (s : Connection) : Core where
  method := s.method
  shutdown := s.shutdown
  down := s.down
  up := s.up
  encoder := s.encoder
  chunks := s.dataFrame.map DataFrameSource.chunks
  log := s.log

inductive Move (env : Environment) (s : Connection) : Connection → Prop where
  | quiet {s' : Connection} (h : s'.core = s.core) : Move env s s'
  | dropFrame {s' : Connection} (h : s'.core = { s.core with chunks := none }) : Move env s s'
  | opened {s' : Connection}
      (h : s'.core = { s.core with
        chunks := if s.method = .http2 then some [] else s.core.chunks
        log := s.log ++ [.opened] }) : Move env s s'
  | reply (hmethod : s.method = .https) (bytes : List UInt8) :
      Move env s (s.pushDown [] (.copyBuffer bytes))
  | frame (hmethod : s.method = .http2) {frame : Frame} {s' : Connection}
      (h : s.sendFrame frame = some s') : Move env s s'
  /-- Bytes of the target are passed on; nothing was queued or waited to be framed. -/
  | read (hdown : s.down.queue.isEmpty = true) (hnodata : s.nodata = true) {t : Turn}
      {raw : List UInt8} {s' : Connection} {alive : Bool}
      (h : s.passOn env t raw = some (s', alive)) : Move env s s'
  | wrote {n written : ℕ} {empty : Bool} {s' : Connection}
      (h : s.writeDown n = some (s', written, empty)) : Move env s s'
  | ended (hdown : s.down.queue.isEmpty = true) (hnodata : s.nodata = true)
      (hshutdown : s.shutdown = false) (heof : s.channel.any Channel.eof = true) :
      Move env s ({ s with shutdown := true }.record [.ended])
  | pushUp (buf : GrowableIOBuffer) : Move env s { s with up := s.up.push buf }
  | wroteUp {n written : ℕ} {empty : Bool} {up : Pipe}
      (h : s.up.writeFront n = some (up, written, empty)) : Move env s { s with up }

def Moves (env : Environment) : Connection → Connection → Prop := ReflTransGen (Move env)

variable {env : Environment} {s s' s'' : Connection}

lemma Moves.refl (s : Connection) : Moves env s s := ReflTransGen.refl

lemma Moves.trans (h : Moves env s s') (h' : Moves env s' s'') : Moves env s s'' :=
  ReflTransGen.trans h h'

lemma Move.moves (h : Move env s s') : Moves env s s' := ReflTransGen.single h

lemma moves_quiet (h : s'.core = s.core) : Moves env s s' := (Move.quiet h).moves

lemma Moves.keeps {I : Connection → Prop} (hmove : ∀ s s', I s → Move env s s' → I s')
    (h : Moves env s s') (hs : I s) : I s' := Run.reflTransGen_keeps hmove h hs

/-- A change of the direction towards the client: the queue for the target and the receiver of
padded chunks stay as they are. -/
structure Outward (env : Environment) (s s' : Connection) : Prop where
  move : Move env s s'
  method : s'.method = s.method
  up : s'.up = s.up
  receiver : s.padding.SameReceiver s'.padding

def Outwards (env : Environment) : Connection → Connection → Prop := ReflTransGen (Outward env)

lemma Outwards.refl (s : Connection) : Outwards env s s := ReflTransGen.refl

lemma Outwards.trans (h : Outwards env s s') (h' : Outwards env s' s'') : Outwards env s s'' :=
  ReflTransGen.trans h h'

lemma Outward.outwards (h : Outward env s s') : Outwards env s s' := ReflTransGen.single h

lemma Outwards.moves (h : Outwards env s s') : Moves env s s' :=
  Run.reflTransGen_keeps (I := Moves env s)
    (fun _ _ hmoves houtward => hmoves.trans houtward.move.moves) h (Moves.refl s)

lemma outwards_quiet (h : s'.core = s.core) (hpadding : s'.padding = s.padding) :
    Outwards env s s' := by
  refine Outward.outwards ⟨.quiet h, congrArg Core.method h, congrArg Core.up h, ?_⟩
  rw [hpadding]
  exact ⟨rfl, rfl, rfl⟩

/-! ## Flags and channels -/

lemma core_onDisconnect (s : Connection) : s.onDisconnect.core = s.core := by
  unfold onDisconnect
  split_ifs <;> rfl

lemma outwards_onDisconnect (s : Connection) : Outwards env s s.onDisconnect := by
  unfold onDisconnect
  split_ifs <;> exact outwards_quiet rfl rfl

lemma outwards_onDownstreamWriteFlush (s : Connection) :
    Outwards env s s.onDownstreamWriteFlush := by
  unfold onDownstreamWriteFlush
  split_ifs <;> exact outwards_quiet rfl rfl

lemma outwards_onUpstreamWriteFlush (s : Connection) : Outwards env s s.onUpstreamWriteFlush := by
  unfold onUpstreamWriteFlush
  split_ifs <;> exact outwards_quiet rfl rfl

lemma outwards_afterUp (s : Connection) (tryAgain : Bool) (ec : Ec) :
    Outwards env s (s.afterUp tryAgain ec) := by
  have hread : Outwards env s s.readStream := by
    unfold readStream
    split_ifs <;> exact outwards_quiet rfl rfl
  unfold afterUp
  dsimp only
  split_ifs
  · exact hread.trans (outwards_onUpstreamWriteFlush _)
  · exact outwards_onUpstreamWriteFlush s
  · exact hread
  · exact .refl s

/-! ## Towards the client -/

/-- `f` makes only such changes. -/
def MakesOutwards (env : Environment) (f : Connection → Option Connection) : Prop :=
  ∀ s s', f s = some s' → Outwards env s s'

lemma makesOutwards_some : MakesOutwards env some := by
  rintro s s' ⟨⟩
  exact .refl s

variable {frame : Frame}

lemma sendFrame_eq_some (h : s.sendFrame frame = some s') :
    s' = s ∨ (∃ bytes, s' = s.pushDown [] (.copyBuffer bytes)) ∨
      ∃ header max src payload src', s.dataFrame = some src ∧
        src.send max = some (some (payload, src')) ∧
        s' = { s.pushDown payload (.copyBuffer (header ++ payload)) with
          dataFrame := some src' } := by
  cases frame with
  | control bytes =>
    cases h
    exact .inr (Or.inl ⟨bytes, rfl⟩)
  | data header max =>
    unfold sendFrame at h
    cases hsrc : s.dataFrame with
    | none =>
      rw [hsrc] at h
      cases h
      exact .inl rfl
    | some src =>
      rw [hsrc] at h
      obtain ⟨sent, hsent, h⟩ := bind_eq_some_iff.mp h
      cases sent with
      | none =>
        cases h
        exact .inl rfl
      | some x =>
        cases h
        exact .inr (Or.inr ⟨header, max, src, x.1, x.2, rfl, hsent, rfl⟩)

lemma method_sendFrame (h : s.sendFrame frame = some s') :
    s'.method = s.method := by
  rcases sendFrame_eq_some h with rfl | ⟨_, rfl⟩ | ⟨_, _, _, _, _, _, _, rfl⟩ <;> rfl

lemma outwards_sendFrame (hmethod : s.method = .http2)
    (h : s.sendFrame frame = some s') : Outwards env s s' := by
  refine Outward.outwards ⟨.frame hmethod h, method_sendFrame h, ?_, ?_⟩
  · rcases sendFrame_eq_some h with rfl | ⟨_, rfl⟩ | ⟨_, _, _, _, _, _, _, rfl⟩ <;> rfl
  · rcases sendFrame_eq_some h with rfl | ⟨_, rfl⟩ | ⟨_, _, _, _, _, _, _, rfl⟩ <;>
      exact ⟨rfl, rfl, rfl⟩

lemma outwards_sendIfNotProcessing {frames : List Frame}
    (h : s.sendIfNotProcessing frames = some s') : Outwards env s s' := by
  unfold sendIfNotProcessing at h
  split_ifs at h with hmethod
  · have hkeeps : ∀ a f a', (Outwards env s a ∧ a.method = .http2) →
        Connection.sendFrame a f = some a' → Outwards env s a' ∧ a'.method = .http2 := by
      rintro a f a' ⟨houtwards, hm⟩ hsend
      exact ⟨houtwards.trans (outwards_sendFrame hm hsend), (method_sendFrame hsend).trans hm⟩
    exact (Run.exec_keeps hkeeps ⟨Outwards.refl s, hmethod⟩ h).1
  · cases h
    exact .refl s

section Down

variable {again : Connection → Option Connection} {ending : List Frame}

lemma outwards_finish (hagain : MakesOutwards env again) (hdown : s.down.queue.isEmpty)
    (hnodata : s.nodata) (hshutdown : s.shutdown = false)
    (heof : s.channel.any Channel.eof) (h : s.finish again ending = some s') :
    Outwards env s s' := by
  have hended : Outwards env s _ :=
    Outward.outwards ⟨.ended hdown hnodata hshutdown heof, rfl, rfl, rfl, rfl, rfl⟩
  unfold finish at h
  dsimp only at h
  split at h
  · next src hsrc =>
    obtain ⟨s₁, hsend, h⟩ := bind_eq_some_iff.mp h
    have hdropped : Outwards env s₁ { s₁ with dataFrame := none, streamId := 0 } :=
      Outward.outwards ⟨.dropFrame rfl, rfl, rfl, rfl, rfl, rfl⟩
    refine hended.trans (Outwards.trans (outwards_quiet ?_ ?_)
      ((outwards_sendIfNotProcessing hsend).trans (hdropped.trans (hagain _ _ h))))
    · simp only [core, hsrc]
      rfl
    · rfl
  · cases h
    exact hended

lemma channel_closeChannel (h : s.channels ≠ []) :
    s.closeChannel.channel.any Channel.eof = true := by
  obtain ⟨ch, chs, hchs⟩ := List.exists_cons_of_ne_nil h
  simp [closeChannel, channel, hchs, Channel.close]

lemma outwards_disconnected (hagain : MakesOutwards env again)
    (h : s.disconnected again ending = some s') : Outwards env s s' := by
  unfold disconnected at h
  split_ifs at h with hne
  have hclose : Outwards env s { s with upstreamWritable := false }.closeChannel :=
    outwards_quiet rfl rfl
  refine hclose.trans ?_
  dsimp only at h
  split_ifs at h with hready
  · simp only [Bool.and_eq_true, Bool.not_eq_true'] at hready
    refine outwards_finish hagain hready.1.2 hready.1.1 hready.2 ?_ h
    exact channel_closeChannel (s := { s with upstreamWritable := false }) hne
  · exact hagain _ _ h

lemma outwards_onStreamWrite (hagain : MakesOutwards env again)
    (h : s.onStreamWrite again ending = some s') : Outwards env s s' := by
  unfold onStreamWrite at h
  split_ifs at h with hready
  · simp only [Bool.and_eq_true, Bool.not_eq_true'] at hready
    exact outwards_finish hagain hready.1.2 hready.1.1.2 hready.2 hready.1.1.1 h
  · cases h
    exact outwards_onDownstreamWriteFlush s

variable {ec : Ec}

lemma outwards_processSentData (hagain : MakesOutwards env again) {n : ℕ}
    (h : s.processSentData again ending ec n = some s') : Outwards env s s' := by
  unfold processSentData at h
  split_ifs at h
  · cases h
    exact .refl s
  · exact outwards_onStreamWrite hagain h
  · cases h
    exact outwards_onDisconnect s

lemma outwards_resumeStream {frames : List Frame} (h : s.resumeStream frames = some s') :
    Outwards env s s' := by
  unfold resumeStream at h
  split_ifs at h
  · exact outwards_sendIfNotProcessing h
  · cases h
    exact .refl s

variable {t : Turn}

lemma outwards_outDown {ec ec' : Ec} {read : ℕ} {blocked got : Bool}
    (h : s.outDown t ec read = some (s', ec', blocked, got)) : Outwards env s s' := by
  obtain ⟨s₁, hresume, h⟩ := bind_eq_some_iff.mp h
  refine (outwards_resumeStream hresume).trans ?_
  by_cases hempty : s₁.down.queue.isEmpty
  · rw [if_pos hempty] at h
    cases h
    exact .refl _
  rw [if_neg hempty] at h
  cases h
  exact outwards_quiet rfl rfl

lemma passOn_eq_some {raw : List UInt8} {alive : Bool} (h : s.passOn env t raw = some (s', alive)) :
    s'.method = s.method ∧ s'.up = s.up ∧ s.padding.SameReceiver s'.padding := by
  obtain ⟨buf, -, h⟩ := bind_eq_some_iff.mp h
  split at h
  · split at h
    · cases h
      exact ⟨rfl, rfl, rfl, rfl, rfl⟩
    obtain ⟨⟨padding, chunk⟩, hsend, h⟩ := bind_eq_some_iff.mp h
    cases h
    exact ⟨rfl, rfl, PaddingState.sameReceiver_send hsend⟩
  · cases h
    exact ⟨rfl, rfl, rfl, rfl, rfl⟩
  · cases h
    exact ⟨rfl, rfl, rfl, rfl, rfl⟩
  obtain ⟨⟨encoder, ok, down⟩, -, h⟩ := bind_eq_some_iff.mp h
  cases h
  unfold onDisconnect
  split_ifs <;> exact ⟨rfl, rfl, rfl, rfl, rfl⟩

lemma outwards_passOn (hdown : s.down.queue.isEmpty) (hnodata : s.nodata)
    {raw : List UInt8} {alive : Bool} (h : s.passOn env t raw = some (s', alive)) :
    Outwards env s s' := by
  obtain ⟨hmethod, hup, hreceiver⟩ := passOn_eq_some h
  exact Outward.outwards ⟨.read hdown hnodata h, hmethod, hup, hreceiver⟩

lemma outwards_writeDown {n written : ℕ} {empty : Bool}
    (h : s.writeDown n = some (s', written, empty)) : Outwards env s s' := by
  have hwrote : Move env s s' := .wrote h
  obtain ⟨⟨down, written', empty'⟩, -, h⟩ := bind_eq_some_iff.mp h
  cases h
  exact Outward.outwards ⟨hwrote, rfl, rfl, rfl, rfl, rfl⟩

lemma outwards_getNextDownstreamBuf (hagain : MakesOutwards env again) {read : ℕ}
    {blocked got : Bool}
    (h : s.getNextDownstreamBuf env again ending t = some (s', ec, blocked, got, read)) :
    Outwards env s s' := by
  unfold getNextDownstreamBuf at h
  split_ifs at h with hdown hpending hconnected heof hnodata
  · cases h
    exact .refl s
  · cases h
    exact .refl s
  · cases h
    exact .refl s
  · cases h
    exact .refl s
  · obtain ⟨⟨s₁, ec₁, b₁, g₁⟩, hout, h⟩ := bind_eq_some_iff.mp h
    cases h
    exact outwards_outDown hout
  simp only [Bool.not_eq_true, Bool.not_eq_false'] at hdown hnodata
  split at h
  · -- the target is at its end
    obtain ⟨s₁, hlost, h⟩ := bind_eq_some_iff.mp h
    obtain ⟨⟨s₂, ec₂, b₂, g₂⟩, hout, h⟩ := bind_eq_some_iff.mp h
    cases h
    exact (outwards_disconnected hagain hlost).trans (outwards_outDown hout)
  · obtain ⟨⟨s₂, ec₂, b₂, g₂⟩, hout, h⟩ := bind_eq_some_iff.mp h
    cases h
    exact outwards_outDown hout
  · obtain ⟨⟨s₂, ec₂, b₂, g₂⟩, hout, h⟩ := bind_eq_some_iff.mp h
    cases h
    exact outwards_outDown hout
  obtain ⟨⟨s₁, alive⟩, hpass, h⟩ := bind_eq_some_iff.mp h
  have hread : Outwards env s s₁ := outwards_passOn hdown hnodata hpass
  dsimp only at h
  split_ifs at h
  · obtain ⟨⟨s₂, ec₂, b₂, g₂⟩, hout, h⟩ := bind_eq_some_iff.mp h
    cases h
    exact hread.trans (outwards_outDown hout)
  · cases h
    exact hread

variable {v v' : Locals}

lemma outwards_downWrite {goesOn : Bool}
    (h : s.downWrite v t = some (s', v', goesOn)) : Outwards env s s' := by
  unfold downWrite at h
  split at h
  · cases h
    exact .refl s
  · cases h
    exact .refl s
  obtain ⟨⟨s₁, written, empty⟩, hwrite, h⟩ := bind_eq_some_iff.mp h
  have hwrote : Outwards env s _ := outwards_writeDown hwrite
  dsimp only at h
  split_ifs at h <;> cases h <;> exact hwrote

lemma outwards_downTurn (hagain : MakesOutwards env again) {goesOn : Bool}
    (h : s.downTurn env again ending v t = some (s', v', goesOn)) : Outwards env s s' := by
  obtain ⟨⟨s₁, ec, blocked, got, read⟩, hget, h⟩ := bind_eq_some_iff.mp h
  refine (outwards_getNextDownstreamBuf hagain hget).trans ?_
  dsimp only at h
  split_ifs at h
  · cases h
    exact .refl _
  · cases h
    exact .refl _
  · exact outwards_downWrite h

lemma outwards_downLoop (hagain : MakesOutwards env again) {turns : List Turn}
    (h : Connection.downLoop env again ending turns s v = some (s', v')) : Outwards env s s' := by
  induction turns generalizing s v with
  | nil =>
    obtain ⟨⟨s₁, v₁, goesOn⟩, hturn, h⟩ := bind_eq_some_iff.mp h
    cases h
    exact outwards_downTurn hagain hturn
  | cons t ts ih =>
    obtain ⟨⟨s₁, v₁, goesOn⟩, hturn, h⟩ := bind_eq_some_iff.mp h
    have houtwards := outwards_downTurn hagain hturn
    dsimp only at h
    split_ifs at h
    · exact houtwards.trans (ih h)
    · cases h
      exact houtwards

lemma outwards_afterDown (hagain : MakesOutwards env again)
    (h : s.afterDown again ending v = some s') : Outwards env s s' := by
  unfold afterDown at h
  have hwait : Outwards env s (if v.tryAgain then s.waitRead else s) := by
    split_ifs
    · exact outwards_quiet rfl rfl
    · exact .refl s
  refine hwait.trans ?_
  generalize (if v.tryAgain then s.waitRead else s) = s₁ at h
  dsimp only at h
  have hflush : Outwards env s₁ s₁.onDownstreamWriteFlush := outwards_onDownstreamWriteFlush s₁
  split_ifs at h
  · cases h
    exact hflush
  · exact hflush.trans (outwards_onStreamWrite hagain h)
  · exact hflush.trans (outwards_processSentData hagain h)
  · exact outwards_onStreamWrite hagain h
  · exact outwards_processSentData hagain h

lemma makesOutwards_writeStreamInPipeWith (hagain : MakesOutwards env again) (turns : List Turn)
    (ending : List Frame) :
    MakesOutwards env (Connection.writeStreamInPipeWith env again turns ending) := by
  intro s s' h
  obtain ⟨⟨s₁, v⟩, hloop, h⟩ := bind_eq_some_iff.mp h
  exact (outwards_downLoop hagain hloop).trans (outwards_afterDown hagain h)

lemma makesOutwards_writeStreamInPipe (script : Script) :
    MakesOutwards env (Connection.writeStreamInPipe env script) :=
  makesOutwards_writeStreamInPipeWith (makesOutwards_writeStreamInPipeWith makesOutwards_some _ _)
    _ _

end Down

/-! ## Towards the target -/

lemma moves_pushUp (s : Connection) (bufs : List GrowableIOBuffer) :
    Moves env s { s with up := bufs.foldl Pipe.push s.up } := by
  induction bufs generalizing s with
  | nil => exact .refl s
  | cons buf bufs ih => exact (Move.pushUp buf).moves.trans (ih { s with up := s.up.push buf })

lemma moves_onConnectionError (s : Connection) : Moves env s s.onConnectionError := by
  refine Moves.trans (Move.dropFrame ?_).moves (outwards_onDisconnect _).moves
  rfl

lemma moves_reply (s : Connection) (hmethod : s.method = .https) (bytes : List UInt8) :
    Moves env s (s.pushDown [] (.copyBuffer bytes)) := (Move.reply hmethod bytes).moves

lemma moves_onConnect {reply : Option (List UInt8)}
    (hreply : ∀ bytes, reply = some bytes → s.method = .https) :
    Moves env s (s.onConnect reply) := by
  have hopened : Moves env s
      (({ s with channels := .new :: s.channels }.record [.opened]) |> fun s₁ =>
        if s.method = .http2 then { s₁ with dataFrame := some ⟨[], false⟩ } else s₁) := by
    refine (Move.opened ?_).moves
    split_ifs <;> rfl
  unfold onConnect
  by_cases hmethod : s.method = .http2
  · simpa [record, hmethod] using hopened
  · cases reply with
    | none => simpa [Connection.record, hmethod] using hopened
    | some bytes =>
      have hopened' :
          Moves env s ({ s with channels := .new :: s.channels }.record [.opened]) := by
        simpa [hmethod] using hopened
      have hmethod' :
          ({ s with channels := .new :: s.channels }.record [.opened]).method = .https :=
        hreply bytes rfl
      refine (hopened'.trans (moves_reply _ hmethod' bytes)).trans ?_
      simp only [record, hmethod]
      exact (outwards_onDownstreamWriteFlush _).moves

lemma moves_visit {v : Visit} (h : s.visit env v = some s') : Moves env s s' := by
  cases v with
  | frameHeader id =>
    cases h
    have hid : Moves env s (if s.streamId = 0 then { s with streamId := id } else s) := by
      split_ifs
      · exact moves_quiet rfl
      · exact .refl s
    generalize (if s.streamId = 0 then { s with streamId := id } else s) = s₁ at hid ⊢
    split_ifs
    · exact hid.trans (moves_onConnectionError s₁)
    · exact hid
  | endHeaders id padding =>
    cases h
    refine Moves.trans (moves_quiet ?_) (moves_onConnect (fun _ h => absurd h (by simp)))
    rfl
  | data id bytes =>
    obtain ⟨⟨padding, bufs⟩, hreceive, h⟩ := bind_eq_some_iff.mp h
    cases h
    have hpadding : Moves env s { s with padding } := moves_quiet rfl
    exact hpadding.trans (moves_pushUp _ bufs)
  | closeStream id =>
    cases h
    split_ifs
    · exact (Move.dropFrame rfl).moves
    · exact .refl s
  | connectionError =>
    cases h
    exact moves_onConnectionError s
  | disconnect =>
    cases h
    exact (outwards_onDisconnect s).moves

lemma moves_decoderCalls (s : Connection) (calls : List Cipher.VisitorEvent) :
    Moves env s (calls.foldl Connection.decoderCall s) := by
  induction calls generalizing s with
  | nil => exact .refl s
  | cons call calls ih =>
    refine Moves.trans ?_ (ih (s.decoderCall call))
    cases call with
    | protocolError => exact moves_quiet (core_onDisconnect s)
    | receivedData data =>
      cases data with
      | nil => exact .refl s
      | cons b bs => exact (Move.pushUp _).moves

lemma moves_receive {bytes : List UInt8} (h : s.receive env bytes = some s') :
    Moves env s s' := by
  obtain ⟨buf, -, h⟩ := bind_eq_some_iff.mp h
  split at h
  · cases h
    exact (Move.pushUp buf).moves
  · cases h
    exact (Move.pushUp buf).moves
  obtain ⟨⟨decoder, calls⟩, -, h⟩ := bind_eq_some_iff.mp h
  cases h
  have hdecoder : Moves env s { s with decoder } := moves_quiet rfl
  exact hdecoder.trans (moves_decoderCalls _ calls)

lemma moves_visits {visits : List Visit}
    (h : visits.foldlM (Connection.visit env) s = some s') : Moves env s s' :=
  Run.exec_keeps (I := Moves env s) (fun _ _ _ hmoves hvisit => hmoves.trans (moves_visit hvisit))
    (Moves.refl s) h

/-- A change that the functions of the direction towards the target make, where `P` holds of every
read that an adapter is given. -/
inductive Inward (env : Environment) (P : UpRead → Prop) (s : Connection) : Connection → Prop where
  | outward {s' : Connection} (h : Outward env s s') : Inward env P s s'
  | wrote {n written : ℕ} {empty : Bool} {up : Pipe}
      (h : s.up.writeFront n = some (up, written, empty)) : Inward env P s { s with up }
  | visited {r : UpRead} (hr : P r) {bytes : List UInt8} (hread : r.read = .data bytes)
      (hroom : s.up.queue.isEmpty = true ∨ s.up.byteLength < env.h2ConnWindowSize)
      {s' : Connection} (h : r.visits.foldlM (Connection.visit env) s = some s') : Inward env P s s'
  | received (hmethod : s.method ≠ .http2) {bytes : List UInt8} {s' : Connection}
      (h : s.receive env bytes = some s') : Inward env P s s'

def Inwards (env : Environment) (P : UpRead → Prop) : Connection → Connection → Prop :=
  ReflTransGen (Inward env P)

variable {P : UpRead → Prop}

lemma Inwards.refl (s : Connection) : Inwards env P s s := ReflTransGen.refl

lemma Inwards.trans (h : Inwards env P s s') (h' : Inwards env P s' s'') : Inwards env P s s'' :=
  ReflTransGen.trans h h'

lemma Inward.inwards (h : Inward env P s s') : Inwards env P s s' := ReflTransGen.single h

lemma Outwards.inwards (h : Outwards env s s') : Inwards env P s s' :=
  Run.reflTransGen_keeps (I := Inwards env P s)
    (fun _ _ hinwards ho => hinwards.trans (Inward.outward ho).inwards) h (Inwards.refl s)

lemma inwards_quiet (h : s'.core = s.core) (hpadding : s'.padding = s.padding) :
    Inwards env P s s' := (outwards_quiet h hpadding).inwards

lemma Inwards.moves (h : Inwards env P s s') : Moves env s s' := by
  refine Run.reflTransGen_keeps (I := Moves env s) (fun a b hmoves hinward => ?_) h (Moves.refl s)
  refine hmoves.trans ?_
  cases hinward with
  | outward h => exact h.move.moves
  | wrote h => exact (Move.wroteUp h).moves
  | visited _ _ _ h => exact moves_visits h
  | received _ h => exact moves_receive h

lemma inwards_readUp {reads : List UpRead} (hreads : ∀ r ∈ reads, P r)
    (hroom : s.up.queue.isEmpty = true ∨ s.up.byteLength < env.h2ConnWindowSize) {ec : Ec}
    {out : Bool} (h : Connection.readUp env reads s = some (s', ec, out)) :
    Inwards env P s s' := by
  induction reads generalizing s with
  | nil =>
    cases h
    exact .refl _
  | cons r reads ih =>
    unfold readUp at h
    by_cases hclosed : s.closed
    · rw [if_pos hclosed] at h
      cases h
      exact .refl _
    rw [if_neg hclosed] at h
    split at h
    · cases h
      exact (outwards_onDisconnect s).inwards
    · cases h
      exact .refl _
    · cases h
      exact .refl _
    · next b bs hread =>
      split_ifs at h with hmethod
      · obtain ⟨s₁, hvisits, h⟩ := bind_eq_some_iff.mp h
        have hinward : Inward env P s s₁ :=
          .visited (hreads r List.mem_cons_self) hread hroom hvisits
        refine hinward.inwards.trans ?_
        split at h
        · cases h
          exact .refl _
        · cases h
          exact (outwards_onDisconnect s₁).inwards
        split_ifs at h with hlow
        · exact ih (fun r' hr' => hreads r' (List.mem_cons_of_mem r hr')) (Or.inr hlow) h
        · cases h
          exact .refl _
      · obtain ⟨s₁, hreceive, h⟩ := bind_eq_some_iff.mp h
        cases h
        exact (Inward.received hmethod hreceive).inwards

lemma outwards_sendControl {send : Option (List Frame × Script)}
    (h : s.sendControl env send = some s') : Outwards env s s' := by
  unfold sendControl at h
  split at h
  · obtain ⟨s₁, hsend, h⟩ := bind_eq_some_iff.mp h
    exact (outwards_sendIfNotProcessing hsend).trans (makesOutwards_writeStreamInPipe _ _ _ h)
  · cases h
    exact .refl _

variable {t : UpTurn}

lemma inwards_getNextUpstreamBuf (hreads : ∀ r ∈ t.reads, P r) {ec : Ec} {got : Bool}
    (h : s.getNextUpstreamBuf env t = some (s', ec, got)) : Inwards env P s s' := by
  unfold getNextUpstreamBuf at h
  split_ifs at h with hempty
  · cases h
    exact .refl _
  · cases h
    exact .refl _
  obtain ⟨⟨s₁, ec₁, out⟩, hread, h⟩ := bind_eq_some_iff.mp h
  refine (inwards_readUp hreads (Or.inl (by simpa using hempty)) hread).trans ?_
  cases out with
  | false =>
    cases h
    exact .refl _
  | true =>
    obtain ⟨s₂, hsend, h⟩ := bind_eq_some_iff.mp h
    refine (outwards_sendControl hsend).inwards.trans ?_
    by_cases hempty : s₂.up.queue.isEmpty
    · rw [if_pos hempty] at h
      cases h
      exact .refl _
    rw [if_neg hempty] at h
    cases h
    exact inwards_quiet rfl rfl

variable {tryAgain : Bool}

lemma inwards_upWrite {tryAgain' : Bool} {exit : UpExit}
    (h : s.upWrite env tryAgain t = some (s', tryAgain', exit)) : Inwards env P s s' := by
  unfold upWrite at h
  split at h
  · cases h
    exact .refl _
  · obtain ⟨s₁, hlost, h⟩ := bind_eq_some_iff.mp h
    cases h
    exact ((outwards_disconnected (makesOutwards_writeStreamInPipe _) hlost).trans
      (outwards_onDisconnect s₁)).inwards
  obtain ⟨⟨up, written, empty⟩, hwrite, h⟩ := bind_eq_some_iff.mp h
  have hwrote : Inwards env P s _ := (Inward.wrote hwrite).inwards
  dsimp only at h
  split_ifs at h <;> cases h <;> exact hwrote

lemma inwards_upTurn (hreads : ∀ r ∈ t.reads, P r) {tryAgain' : Bool} {exit : UpExit}
    (h : s.upTurn env tryAgain t = some (s', tryAgain', exit)) : Inwards env P s s' := by
  obtain ⟨⟨s₁, ec, got⟩, hget, h⟩ := bind_eq_some_iff.mp h
  refine (inwards_getNextUpstreamBuf hreads hget).trans ?_
  dsimp only at h
  split_ifs at h
  · cases h
    exact .refl _
  · cases h
    exact .refl _
  · cases h
    exact .refl _
  · exact inwards_upWrite h

variable {turns : List UpTurn}

lemma inwards_upLoop (hreads : ∀ t ∈ turns, ∀ r ∈ t.reads, P r)
    (h : Connection.upLoop env turns s tryAgain = some s') : Inwards env P s s' := by
  induction turns generalizing s tryAgain with
  | nil =>
    obtain ⟨⟨s₁, tryAgain₁, exit⟩, hturn, h⟩ := bind_eq_some_iff.mp h
    have hidle : ∀ r ∈ UpTurn.idle.reads, P r := fun r hr => absurd hr List.not_mem_nil
    refine (inwards_upTurn hidle hturn).trans ?_
    cases exit <;> cases h
    · exact .refl _
    · exact (outwards_afterUp _ _ _).inwards
    · exact .refl _
  | cons t ts ih =>
    obtain ⟨⟨s₁, tryAgain₁, exit⟩, hturn, h⟩ := bind_eq_some_iff.mp h
    refine (inwards_upTurn (hreads t List.mem_cons_self) hturn).trans ?_
    cases exit with
    | goesOn => exact ih (fun t' ht' => hreads t' (List.mem_cons_of_mem t ht')) h
    | breaks ec =>
      cases h
      exact (outwards_afterUp _ _ _).inwards
    | returns =>
      cases h
      exact .refl _

lemma inwards_upFlush (hreads : ∀ t ∈ turns, ∀ r ∈ t.reads, P r)
    (h : (s.writeUpstreamInPipe env turns).map Connection.onUpstreamWriteFlush = some s') :
    Inwards env P s s' := by
  obtain ⟨s₁, hup, rfl⟩ := Option.map_eq_some_iff.mp h
  refine Inwards.trans ?_ (outwards_onUpstreamWriteFlush s₁).inwards
  unfold writeUpstreamInPipe at hup
  split_ifs at hup
  · cases hup
    exact .refl _
  · exact inwards_upLoop hreads hup

/-! ## Callbacks -/

lemma moves_onHandshake {reply : Option (List UInt8)} {left : List UInt8} {up : List UpTurn}
    (hreply : ∀ bytes, reply = some bytes → s.method = .https)
    (h : s.onHandshake env reply left up = some s') : Moves env s s' := by
  have hstarted : Moves env s { s with started := true } := moves_quiet rfl
  have hopened : Moves env s ({ s with started := true }.onConnect reply) :=
    hstarted.trans (moves_onConnect hreply)
  unfold onHandshake at h
  dsimp only at h
  split_ifs at h
  · exact hopened.trans (inwards_upFlush (P := fun _ => True) (fun _ _ _ _ => trivial) h).moves
  · cases h
    exact hopened.trans ((Move.pushUp _).moves.trans (outwards_onUpstreamWriteFlush _).moves)

/-- The turns of `WriteUpstreamInPipe` in a callback. -/
def Event.upTurns : Event → List UpTurn
  | .start _ _ up | .handshake _ _ up | .connected _ _ up | .sent _ up | .readable up => up
  | .received _ _ | .lost _ _ _ | .writable _ | .failed => []

lemma inwards_callback {e : Event} (hreads : ∀ t ∈ e.upTurns, ∀ r ∈ t.reads, P r)
    (hno : ∀ reply left up, e ≠ .handshake reply left up) (h : callback env s e = some s') :
    Inwards env P s s' := by
  cases e with
  | start frames down up =>
    obtain ⟨s₁, hsend, h⟩ := bind_eq_some_iff.mp h
    obtain ⟨s₂, hdown, h⟩ := bind_eq_some_iff.mp h
    have hstarted : Outwards env s { s with started := true } := outwards_quiet rfl rfl
    exact (hstarted.trans ((outwards_sendIfNotProcessing hsend).trans
      (makesOutwards_writeStreamInPipe _ _ _ hdown))).inwards.trans (inwards_upFlush hreads h)
  | handshake reply left up => exact absurd rfl (hno reply left up)
  | connected i down up =>
    obtain ⟨s₁, hdown, h⟩ := bind_eq_some_iff.mp h
    refine (Outwards.trans (outwards_quiet ?_ ?_)
      (makesOutwards_writeStreamInPipe _ _ _ hdown)).inwards.trans (inwards_upFlush hreads h)
    all_goals rfl
  | received i down =>
    obtain ⟨s₁, hdown, rfl⟩ := Option.map_eq_some_iff.mp h
    refine (Outwards.trans (outwards_quiet ?_ ?_) ((makesOutwards_writeStreamInPipe _ _ _
      hdown).trans (outwards_onDownstreamWriteFlush s₁))).inwards
    all_goals rfl
  | sent i up =>
    refine Inwards.trans (inwards_quiet ?_ ?_) (inwards_upFlush hreads h)
    all_goals rfl
  | lost i ending down =>
    exact (outwards_disconnected (makesOutwards_writeStreamInPipe down) h).inwards
  | writable down =>
    refine (Outwards.trans (outwards_quiet ?_ ?_)
      (makesOutwards_writeStreamInPipe _ _ _ h)).inwards
    all_goals rfl
  | readable up =>
    refine Inwards.trans (inwards_quiet ?_ ?_) (inwards_upFlush hreads h)
    all_goals rfl
  | failed =>
    cases h
    exact (outwards_onDisconnect s).inwards

/-- **A callback is a sequence of changes.** -/
theorem moves_step {e : Event} (h : step env s e = some s') : Moves env s s' := by
  unfold step at h
  split_ifs at h
  · cases h
    exact .refl _
  by_cases hshake : ∃ reply left up, e = .handshake reply left up
  · obtain ⟨reply, left, up, rfl⟩ := hshake
    refine moves_onHandshake (fun bytes hbytes => ?_) h
    by_contra hmethod
    rw [if_neg hmethod] at hbytes
    cases hbytes
  · exact (inwards_callback (P := fun _ => True) (fun _ _ _ _ => trivial)
      (fun reply left up he => hshake ⟨reply, left, up, he⟩) h).moves

end Yass.Server.Relay
