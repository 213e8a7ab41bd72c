import Yass.Cli.ChannelState

/-!
# The part of a run that belongs to one channel

* `Sound` — what holds in every state of a run.

Source: `cli/cli_connection.cpp`.
-/

namespace Yass.Cli.Relay

open Yass.Net
open Option (bind_eq_some_iff some_inj)

structure Beside (s s' : Connection) : Prop where
  method : s'.method = s.method
  channels : s'.channels = s.channels
  started : s'.started = s.started
  reads : s'.reads = s.reads
  queued : s'.down.queued = s.down.queued

structure Still (s s' : Connection) : Prop extends Beside s s' where
  flags : s'.flags = s.flags
  refused : s'.refused = s.refused
  connected : s'.connectedNow = true → s.connectedNow = true

variable {env : Environment} {s s' s'' : Connection} {m : Method}

lemma Beside.refl (s : Connection) : Beside s s := ⟨rfl, rfl, rfl, rfl, rfl⟩

lemma Beside.trans (h : Beside s s') (h' : Beside s' s'') : Beside s s'' :=
  ⟨h'.method.trans h.method, h'.channels.trans h.channels, h'.started.trans h.started,
    h'.reads.trans h.reads, h'.queued.trans h.queued⟩

lemma Still.refl (s : Connection) : Still s s := ⟨Beside.refl s, rfl, rfl, id⟩

lemma Still.trans (h : Still s s') (h' : Still s' s'') : Still s s'' :=
  ⟨h.toBeside.trans h'.toBeside, h'.flags.trans h.flags, h'.refused.trans h.refused,
    h.connected ∘ h'.connected⟩

lemma Flow.still (h : Flow env s s') : Still s s' := by
  have hside := h.side
  simp only [Core.side, Connection.core, Prod.mk.injEq] at hside
  obtain ⟨hmethod, hchannels, hstarted, hreads, hqueued, hflags, hrefused⟩ := hside
  exact ⟨⟨hmethod, hchannels, hstarted, hreads, hqueued⟩, hflags, hrefused, h.connectedNow⟩

lemma Flows.still (h : Flows env s s') : Still s s' :=
  h.keeps (I := Still s) (fun _ _ hstill hflow => hstill.trans hflow.still) (Still.refl s)

/-! ## A new channel -/

structure Greeted (s s' : Connection) : Prop where
  channels : s'.channels = s.channels + 1
  started : s'.started = s.started
  reads : s'.reads = []
  queued : s'.down.queued = s.down.queued
  refused : s'.refused = false

lemma Greeted.of_beside {http11 : Bool} (h : Beside (s.openChannel http11) s')
    (hrefused : s'.refused = false) : Greeted s s' :=
  ⟨h.channels, h.started, h.reads, h.queued, hrefused⟩

lemma greeted_greetChannel {c : Connect} (h : s.greetChannel env c = some s') : Greeted s s' := by
  unfold Connection.greetChannel at h
  split_ifs at h
  · obtain ⟨s₁, hsettled, hsent⟩ := greetAgain_eq_some env h
    have hstill := hsettled.still
    have hframe : Still s₁ { s₁ with dataFrame := some ⟨[], false⟩ } := ⟨⟨rfl, rfl, rfl, rfl, rfl⟩,
      rfl, rfl, id⟩
    have hall := hstill.trans (hframe.trans hsent.still)
    exact .of_beside hall.toBeside hall.refused
  obtain ⟨padding, dataFrame, up, encoder, decoder, flags, hflows⟩ := greet_eq_some h
  have hstill := hflows.still
  exact ⟨hstill.channels, hstill.started, hstill.reads, hstill.queued, hstill.refused⟩

/-! ## Runs -/

lemma Moves.grows (h : Moves env s s') :
    (s.started = true → s'.started = true) ∧ s.channels ≤ s'.channels := by
  refine h.keeps (I := fun s' => (s.started = true → s'.started = true) ∧ s.channels ≤ s'.channels)
    ?_ ⟨id, le_rfl⟩
  rintro a b ⟨hstarted, hle⟩ hmove
  cases hmove with
  | flow h => exact ⟨fun hs => h.still.started.trans (hstarted hs), h.still.channels ▸ hle⟩
  | asked h _ =>
    have hsame : b.started = a.started := congrArg Core.started h
    have hcount : b.channels = a.channels := congrArg Core.channels h
    exact ⟨fun hs => hsame.trans (hstarted hs), hcount ▸ hle⟩
  | begun => exact ⟨fun _ => rfl, hle⟩
  | greeted _ _ h =>
    obtain ⟨_, _, _, _, _, _, hflows⟩ := greet_eq_some h
    have hcount : b.channels = a.channels + 1 := hflows.still.channels
    exact ⟨fun hs => hflows.still.started.trans (hstarted hs), by omega⟩
  | greetedAgain _ _ _ h =>
    obtain ⟨s₁, hsettled, hsent⟩ := greetAgain_eq_some env h
    have hs₁ : s₁.started = a.started := hsettled.still.started
    have hcount : b.channels = a.channels + 1 :=
      hsent.still.channels.trans hsettled.still.channels
    exact ⟨fun hs => hsent.still.started.trans (hs₁.trans (hstarted hs)), by omega⟩
  | pushDown _ | read _ | granted _ _ | refused _ _ | unpend => exact ⟨hstarted, hle⟩
  | selectedAuth _ _ _ | selected _ _ _ _ | authenticated _ _ => exact ⟨hstarted, hle⟩

def Begun (s : Connection) : Prop :=
  s.started = true ∨ s.channel = none ∧ s.replying = false ∧ s.writeInprogress = false ∧
    s.downstreamReadInprogress = false

variable {e : Event}

lemma begun_step (hheld : Held s) (hs : Begun s) (h : step env s e = some s') :
    Begun s' := by
  rcases hs with hstarted | ⟨hch, hreplying, hwrite, hread⟩
  · exact .inl ((moves_step hheld h).grows.1 hstarted)
  unfold step at h
  split_ifs at h with hskip
  · cases h
    exact .inr ⟨hch, hreplying, hwrite, hread⟩
  simp only [Bool.or_eq_true, not_or, Bool.not_eq_true, Bool.not_eq_false'] at hskip
  obtain ⟨-, hdue⟩ := hskip
  cases e with
  | handshake request reply left down up =>
    obtain ⟨s₁, hanswer, h⟩ := bind_eq_some_iff.mp h
    have hs₁ : s₁.started = true := by
      have hmoves : Moves env _ s₁ := moves_answer hanswer
      exact hmoves.grows.1 rfl
    split_ifs at h with hleft
    · exact .inl ((drifts_upFlush h).flows.still.started.trans hs₁)
    · have hflows : Flows env s₁ s' := (drifts_onStreamRead (by simpa using hleft) h).flows
      exact .inl (hflows.still.started.trans hs₁)
  | failed =>
    cases h
    right
    unfold Connection.onDisconnect
    split_ifs
    · exact ⟨hch, hreplying, hwrite, hread⟩
    · exact ⟨by simp [Connection.closeChannel, Connection.modifyChannel, hch], hreplying, hwrite,
        hread⟩
  | resolved request =>
    cases h
    simp only [due, Bool.and_eq_true] at hdue
    exact .inl hdue.1
  | _ => simp [due, hch, hreplying, hwrite, hread] at hdue

structure Sound (m : Method) (s : Connection) : Prop where
  held : Held s
  kept : Kept m s
  begun : Begun s

lemma Sound.step (hs : Sound m s) (h : step env s e = some s') :
    Sound m s' where
  held := (moves_step hs.held h).keeps (fun _ _ hheld hmove => hheld.move hmove) hs.held
  kept := (moves_step hs.held h).keeps (fun _ _ hkept hmove => hkept.move hmove) hs.kept
  begun := begun_step hs.held hs.begun h

lemma sound_run {es : List Event}
    (hrun : Run.exec (step env) (start env m) es = some s) : Sound m s := by
  refine Run.exec_keeps (I := Sound m) (fun _ _ _ hs hstep => hs.step hstep) ?_ hrun
  exact ⟨fun buf hmem => absurd hmem List.not_mem_nil, kept_start env m,
    Or.inr ⟨rfl, rfl, rfl, rfl⟩⟩

lemma exec_closed (hclosed : s.closed) {es : List Event}
    (h : Run.exec (step env) s es = some s') : s' = s := by
  refine Run.exec_keeps (I := fun s' => s' = s) ?_ rfl h
  rintro a e b rfl hstep
  simp only [Relay.step, hclosed, Bool.true_or, if_true, some_inj] at hstep
  exact hstep.symm

/-! ## The invariant rule for one channel -/

/-- A run that reaches `s₀`, in which a channel is connected and greeted with `s₁`, and that goes on
to `s` while that channel is the last one. -/
structure OnChannel (env : Environment) (m : Method) (s₀ s₁ s : Connection) : Prop where
  exists_run : ∃ es c es', Run.exec (step env) (start env m) es = some s₀ ∧ s₀.closed = false ∧
    due s₀ (.connected c) = true ∧ s₀.greetChannel env c = some s₁ ∧
    Run.exec (step env) s₀ (.connected c :: es') = some s
  channels : s.channels = s₁.channels

structure Carried (env : Environment) (m : Method) (I : Connection → Prop) : Prop where
  flow : ∀ s s', I s → Flow env s s' → I s'
  /-- A new destination, for which there is no channel yet. -/
  asked : ∀ s request, I s → I (s.onConnect (some request))
  unpend : ∀ s, I s → I { s with pendingData := [] }
  readDown : ∀ s reads s' ec out, I s → Kept m s → s.connectedNow = true →
    Connection.readDown env reads s = some (s', ec, out) → I s'

section Carried

variable {I : Connection → Prop}

lemma Carried.flows (hI : Carried env m I) (hs : I s) (h : Flows env s s') : I s' :=
  h.keeps hI.flow hs

lemma Carried.readUpstream (hI : Carried env m I) (hs : I s) (hkept : Kept m s) {sc : DownScript}
    (h : s.readUpstream env sc = some s') : I s' := by
  rcases readUpstream_eq_some h with hdrifts | ⟨s₁, ec, out, -, hconnected, hread, hdrifts⟩
  · exact hI.flows hs hdrifts.flows
  · exact hI.flows (hI.readDown s sc.reads s₁ ec out hs hkept hconnected hread) hdrifts.flows

lemma Carried.replayPending (hI : Carried env m I) (hs : I s) (hheld : Held s)
    {chunks : List Chunk} {up : List UpTurn} (h : s.replayPending env chunks up = some s') :
    I s' := by
  rcases replayPending_eq_some hheld h with rfl | hdrifts
  · exact hs
  · exact hI.flows (hI.unpend s hs) hdrifts.flows

lemma Carried.callback (hI : Carried env m I) (hs : I s) (hsound : Sound m s)
    (hstarted : s.started) (hdue : due s e)
    (h : callback env s e = some s') : s.channels < s'.channels ∨ I s' := by
  cases e with
  | handshake request reply left down up => simp [due, hstarted] at hdue
  | resolved request =>
    cases h
    exact .inr (hI.asked s request hs)
  | connected c =>
    left
    obtain ⟨s₁, hgreet, -, hmoves⟩ := moves_onConnected hsound.held hdue h
    have hcount := (greeted_greetChannel hgreet).channels
    have hle := hmoves.grows.2
    omega
  | received read =>
    right
    have hflag : Drifts env s _ := drifts_readable s
    exact hI.readUpstream (hI.flows hs hflag.flows) (hsound.kept.flows hflag.flows) h
  | _ => exact .inr (hI.flows hs (drifts_callback rfl h).flows)

lemma Carried.step (hI : Carried env m I) (hs : I s) (hsound : Sound m s)
    (hstarted : s.started) (h : step env s e = some s') :
    s.channels < s'.channels ∨ I s' := by
  unfold Relay.step at h
  split_ifs at h with hskip
  · cases h
    exact .inr hs
  · simp only [Bool.or_eq_true, not_or, Bool.not_eq_true, Bool.not_eq_false'] at hskip
    exact hI.callback hs hsound hstarted hskip.2 h

variable {s₀ s₁ : Connection}

lemma Sound.started (hs : Sound m s)
    (hch : (s.channel.any fun ch => !ch.connected && !ch.eof) = true) : s.started = true := by
  rcases hs.begun with hstarted | ⟨hnone, -⟩
  · exact hstarted
  · simp [hnone] at hch

/-- **Invariant rule for one channel.** What holds when it is greeted, and is carried, holds as long
as it is the last one. -/
theorem OnChannel.carried (h : OnChannel env m s₀ s₁ s) (hI : Carried env m I) (hs₁ : I s₁) :
    I s := by
  obtain ⟨⟨es, c, es', hreach, hopen, hdue, hgreet, hrun⟩, hchannels⟩ := h
  have hs₀ : Sound m s₀ := sound_run hreach
  have hgreeted := greeted_greetChannel hgreet
  obtain ⟨hch, hmethod⟩ := due_connected hdue
  have hmove := move_greetChannel hch hmethod hgreet
  rw [Run.exec_cons] at hrun
  obtain ⟨a, hstep, hrun⟩ := bind_eq_some_iff.mp hrun
  have ha := hs₀.step hstep
  simp only [Relay.step, hopen, hdue, Bool.not_true, Bool.or_self, Bool.false_eq_true,
    if_false] at hstep
  obtain ⟨s₁', hgreet', hafter⟩ := onConnected_eq_some hstep
  obtain rfl : s₁ = s₁' := some_inj.mp (hgreet.symm.trans hgreet')
  rcases hafter with ⟨hclosed, rfl⟩ | ⟨-, s₂, s₃, hreplay, hread, hflush⟩
  · rwa [exec_closed hclosed hrun]
  have hmoves := moves_replayPending (hs₀.held.move hmove) hreplay
  have hkept : Kept m s₂ :=
    hmoves.keeps (fun _ _ hkept hmove => hkept.move hmove) (hs₀.kept.move hmove)
  have hwritable : Flows env s₂ { s₂ with upstreamWritable := true } := flows_same rfl rfl
  have hs₂ : I s₂ := hI.replayPending hs₁ (hs₀.held.move hmove) hreplay
  have hs₃ : I s₃ := hI.readUpstream (hI.flows hs₂ hwritable) (hkept.flows hwritable) hread
  have hIa : I a := hI.flows hs₃ (drifts_upFlush hflush).flows
  -- the number of channels tells whether the property is still about this one
  have hafter : Moves env s₁ a :=
    hmoves.trans (hwritable.moves.trans
      ((moves_readUpstream hread).trans (drifts_upFlush hflush).moves))
  have hstarted : a.started = true :=
    hafter.grows.1 (hgreeted.started.trans (hs₀.started hch))
  refine ((Run.exec_keeps (I := fun b => Sound m b ∧ b.started = true ∧
      (s₁.channels < b.channels ∨ s₁.channels ≤ b.channels ∧ I b)) ?_
    ⟨ha, hstarted, Or.inr ⟨hafter.grows.2, hIa⟩⟩ hrun).2.2.resolve_left (by omega)).2
  rintro b e b' ⟨hb, hstarted, hnext⟩ hstep
  have hgrows := (moves_step hb.held hstep).grows
  refine ⟨hb.step hstep, hgrows.1 hstarted, ?_⟩
  rcases hnext with hlt | ⟨hle, hIb⟩
  · exact .inl (hlt.trans_le hgrows.2)
  rcases hI.step hIb hb hstarted hstep with hlt | hIb'
  · exact .inl (hle.trans_lt hlt)
  · exact .inr ⟨hle.trans hgrows.2, hIb'⟩

lemma OnChannel.eq_of_closed (h : OnChannel env m s₀ s₁ s) (hclosed : s₁.closed) :
    s = s₁ := by
  obtain ⟨⟨es, c, es', -, hopen, hdue, hgreet, hrun⟩, -⟩ := h
  rw [Run.exec_cons] at hrun
  obtain ⟨a, hstep, hrun⟩ := bind_eq_some_iff.mp hrun
  simp only [Relay.step, hopen, hdue, Bool.not_true, Bool.or_self, Bool.false_eq_true,
    if_false] at hstep
  obtain ⟨s₁', hgreet', hafter⟩ := onConnected_eq_some hstep
  obtain rfl : s₁ = s₁' := some_inj.mp (hgreet.symm.trans hgreet')
  rcases hafter with ⟨-, rfl⟩ | ⟨hopen', -⟩
  · exact exec_closed hclosed hrun
  · simp [hclosed] at hopen'

def channelStates (env : Environment) (m : Method) (es : List Event) (c : Connect)
    (es' : List Event) : Option (Connection × Connection × Connection) := do
  let s₀ ← Run.exec (step env) (start env m) es
  let s₁ ← s₀.greetChannel env c
  let s ← Run.exec (step env) s₀ (.connected c :: es')
  if due s₀ (.connected c) && !s₀.closed && s.channels == s₁.channels then some (s₀, s₁, s)
  else none

lemma onChannel_channelStates {es es' : List Event} {c : Connect}
    (h : channelStates env m es c es' = some (s₀, s₁, s)) : OnChannel env m s₀ s₁ s := by
  obtain ⟨a, hreach, h⟩ := bind_eq_some_iff.mp h
  obtain ⟨b, hgreet, h⟩ := bind_eq_some_iff.mp h
  obtain ⟨d, hrun, h⟩ := bind_eq_some_iff.mp h
  split_ifs at h with hchecks
  cases h
  simp only [Bool.and_eq_true, Bool.not_eq_true', beq_iff_eq] at hchecks
  exact ⟨⟨_, _, _, hreach, hchecks.1.2, hchecks.1.1, hgreet, hrun⟩, hchecks.2⟩

end Carried

end Yass.Cli.Relay
