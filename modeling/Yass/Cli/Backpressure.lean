import Yass.Cli.RelayMoves
import Yass.Net.Reassembly

/-!
# How much a client queues for its application

As on the server, an HTTP/2 connection reads its channel only while the queue for the application is
empty, and goes on to read only while the queue is shorter than its window. The reply to a `CONNECT`
is put into the same queue. What the application sends before there is a channel is kept up to a
limit.

Source: `cli/cli_connection.cpp`.
-/

namespace Yass.Cli.Relay

open Yass.Net
open Relation (ReflTransGen)
open Relay.Connection
open Option (bind_eq_some_iff)

/-! ## Reads -/

def Visit.dataLength : Visit → ℕ
  | .data bytes => bytes.length
  | _ => 0

/-- A read brings no more than its buffer holds, and the adapter delivers no more data than it was
fed. -/
def DownRead.Fed (r : DownRead) : Prop :=
  ∀ bytes, r.read = .data bytes →
    bytes.length ≤ socketDebufSize ∧ (r.visits.map Visit.dataLength).sum ≤ bytes.length

def Event.downReads : Event → List DownRead
  | .connected c => c.read.reads
  | .received read => read.reads
  | .handshake _ _ _ _ _ | .resolved _ | .replied _ _ | .sent _ | .lost _ | .writable _
  | .readable _ | .failed => []

def Event.Fed (e : Event) : Prop := ∀ r ∈ e.downReads, r.Fed

/-- The reply that the local handshake puts into the queue, if it does, is `reply`. -/
def Event.Answers (reply : List UInt8) : Event → Prop
  | .handshake _ (.connect bytes) _ _ _ => bytes = reply
  | _ => True

/-- What happens to the queue for the application, to the receiver of padded chunks and to the
waiting data. -/
inductive Fill (env : Environment) (reply : List UInt8) (s : Connection) : Connection → Prop where
  | still {s' : Connection} (hmethod : s'.method = s.method) (hstarted : s'.started = s.started)
      (hdown : s'.down = s.down) (hbuffer : s.padding.SameBuffer s'.padding)
      (hpending : s.pendingLength ≤ kMaxHeaderSize → s'.pendingLength ≤ kMaxHeaderSize) :
      Fill env reply s s'
  | begun {s' : Connection} (hnew : s.started = false) (hmethod : s'.method = s.method)
      (hstarted : s'.started = true)
      (hdown : s'.down = s.down ∨ s'.down = s.down.push (.copyBuffer reply))
      (hpadding : s'.padding = s.padding) (hpending : s'.pendingData = s.pendingData) :
      Fill env reply s s'
  | wrote {n written : ℕ} {empty : Bool} {down : Pipe}
      (h : s.down.writeFront n = some (down, written, empty)) : Fill env reply s { s with down }
  | read {r : DownRead} {bytes : List UInt8} (hread : r.read = .data bytes) (hfed : r.Fed)
      (hroom : s.down.queue.isEmpty = true ∨ s.down.byteLength < env.h2ConnWindowSize)
      {s' : Connection} (h : r.visits.foldlM (Connection.visit env r.lost) s = some s') :
      Fill env reply s s'

def Fills (env : Environment) (reply : List UInt8) : Connection → Connection → Prop :=
  ReflTransGen (Fill env reply)

variable {env : Environment} {reply : List UInt8} {s s' s'' : Connection}

lemma Fills.refl (s : Connection) : Fills env reply s s := ReflTransGen.refl

lemma Fills.trans (h : Fills env reply s s') (h' : Fills env reply s' s'') :
    Fills env reply s s'' := ReflTransGen.trans h h'

lemma Fill.fills (h : Fill env reply s s') : Fills env reply s s' := ReflTransGen.single h

/-! ## The write loops -/

lemma Drift.down_eq (h : Drift env s s') :
    (s'.started = s.started ∧ s'.down = s.down) ∨
      ∃ n down written empty, s.down.writeFront n = some (down, written, empty) ∧
        s' = { s with down } := by
  obtain ⟨hflow, -, -⟩ := h
  cases hflow with
  | quiet h _ _ => exact .inl ⟨congrArg Core.started h, congrArg Core.down h⟩
  | frame _ h _ => exact .inl ⟨congrArg Core.started h, congrArg Core.down h⟩
  | reopened _ h _ => exact .inl ⟨congrArg Core.started h, congrArg Core.down h⟩
  | wroteDown h => exact .inr ⟨_, _, _, _, h, rfl⟩
  | pend _ | wroteUp _ _ => exact .inl ⟨rfl, rfl⟩
  | put _ _ h =>
    obtain ⟨_, _, _, _, _, rfl, -⟩ := put_eq_some h
    exact .inl ⟨rfl, rfl⟩

lemma Drifts.fills (h : Drifts env s s') : Fills env reply s s' := by
  refine Run.reflTransGen_keeps (I := Fills env reply s) (fun a b hfills hdrift => ?_) h
    (Fills.refl s)
  apply hfills.trans
  rcases hdrift.down_eq with ⟨hstarted, hdown⟩ | ⟨n, down, written, empty, hwrite, rfl⟩
  · exact (Fill.still hdrift.flow.method hstarted hdown hdrift.receiver.sameBuffer
      hdrift.pending).fills
  · exact (Fill.wrote hwrite).fills

/-- Data arrives, and the rest stays: the method and the waiting data are kept, and the queue for
the application takes `n` bytes of data. -/
structure Takes (n : ℕ) (s s' : Connection) : Prop where
  method : s'.method = s.method
  started : s'.started = s.started
  pending : s.pendingLength ≤ kMaxHeaderSize → s'.pendingLength ≤ kMaxHeaderSize
  intake : Intake n s.down.byteLength s.padding s'.down.byteLength s'.padding

lemma Takes.trans {n n' : ℕ} (h : Takes n s s') (h' : Takes n' s' s'') :
    Takes (n + n') s s'' where
  method := h'.method.trans h.method
  started := h'.started.trans h.started
  pending := h'.pending ∘ h.pending
  intake := h.intake.trans h'.intake

lemma takes_refl (s : Connection) : Takes 0 s s :=
  ⟨rfl, rfl, id, intake_of_sameBuffer le_rfl ⟨rfl, rfl⟩⟩

lemma Drifts.takes (h : Drifts env s s') : Takes 0 s s' := by
  refine Run.reflTransGen_keeps (I := Takes 0 s) (fun a b htakes hdrift => ?_) h (takes_refl s)
  have hle : b.down.byteLength ≤ a.down.byteLength ∧ b.started = a.started := by
    rcases hdrift.down_eq with ⟨hstarted, hdown⟩ | ⟨n, down, written, empty, hwrite, rfl⟩
    · exact ⟨by rw [hdown], hstarted⟩
    · exact ⟨Pipe.byteLength_writeFront hwrite, rfl⟩
  have hnext : Takes 0 a b := ⟨hdrift.flow.method, hle.2, hdrift.pending,
    intake_of_sameBuffer hle.1 hdrift.receiver.sameBuffer⟩
  exact htakes.trans hnext

/-! ## The callbacks of the adapter -/

lemma takes_visit {lost : List DownTurn} {v : Visit} (h : s.visit env lost v = some s') :
    Takes v.dataLength s s' := by
  cases v with
  | endHeaders field =>
    cases h
    exact ⟨rfl, rfl, id, intake_of_sameBuffer le_rfl ⟨rfl, rfl⟩⟩
  | data bytes =>
    obtain ⟨⟨padding, bufs⟩, hreceive, h⟩ := bind_eq_some_iff.mp h
    cases h
    exact ⟨rfl, rfl, id, intake_receive hreceive s.down⟩
  | endStream =>
    cases h
    exact ⟨rfl, rfl, id, intake_of_sameBuffer le_rfl ⟨rfl, rfl⟩⟩
  | closeStream =>
    cases h
    exact ⟨rfl, rfl, id, intake_of_sameBuffer le_rfl ⟨rfl, rfl⟩⟩
  | connectionError =>
    have hdrop : Takes 0 s { s with dataFrame := none } :=
      ⟨rfl, rfl, id, intake_of_sameBuffer le_rfl ⟨rfl, rfl⟩⟩
    have hlost : Drifts env { s with dataFrame := none } s' := drifts_disconnected h
    exact hdrop.trans hlost.takes
  | disconnect =>
    have hlost : Drifts env s s' := drifts_disconnected h
    exact hlost.takes

lemma takes_visits {lost : List DownTurn} {visits : List Visit}
    (h : visits.foldlM (Connection.visit env lost) s = some s') :
    Takes (visits.map Visit.dataLength).sum s s' := by
  induction visits generalizing s with
  | nil =>
    cases h
    exact takes_refl _
  | cons v visits ih =>
    rw [List.foldlM_cons] at h
    obtain ⟨s₁, hvisit, h⟩ := bind_eq_some_iff.mp h
    exact (takes_visit hvisit).trans (ih h)

lemma Fill.method (h : Fill env reply s s') : s'.method = s.method := by
  cases h with
  | still hmethod _ _ _ _ => exact hmethod
  | begun _ hmethod _ _ _ _ => exact hmethod
  | wrote _ => rfl
  | read _ _ _ h => exact (takes_visits h).method

lemma Fills.method (h : Fills env reply s s') : s'.method = s.method :=
  Run.reflTransGen_keeps (I := fun a => a.method = s.method)
    (fun _ _ hm hfill => hfill.method.trans hm) h rfl

/-! ## The bounds -/

/-- The bytes in the queue for the application, without those that the reply to the handshake may
have. -/
def level (reply : List UInt8) (s : Connection) : ℕ :=
  s.down.byteLength - if s.started then reply.length else 0

lemma level_le (reply : List UInt8) (s : Connection) : level reply s ≤ s.down.byteLength :=
  Nat.sub_le _ _

lemma Fill.level (h : Fill env reply s s') (hs : s.padding.Drained) :
    s'.padding.Drained ∧ (level reply s' ≤ level reply s ∨
      level reply s' ≤ env.h2ConnWindowSize + socketDebufSize ∨
      s.padding.kept.length < maxPaddedChunk ∧
        level reply s' ≤ env.h2ConnWindowSize + socketDebufSize + s.padding.kept.length) := by
  cases h with
  | still _ hstarted hdown hbuffer _ =>
    have hintake : Intake 0 s.down.byteLength s.padding s'.down.byteLength s'.padding :=
      intake_of_sameBuffer (by rw [hdown]) hbuffer
    refine ⟨hintake.drained hs, Or.inl ?_⟩
    rw [Relay.level, Relay.level, hdown, hstarted]
  | begun hnew _ hstarted hdown hpadding _ =>
    refine ⟨by rwa [hpadding], Or.inl ?_⟩
    rw [Relay.level, Relay.level, hnew, hstarted]
    rcases hdown with hdown | hdown
    · rw [hdown]
      exact Nat.sub_le_sub_left (Nat.zero_le _) _
    · rw [hdown, Pipe.byteLength_eq, Pipe.byteLength_eq, Pipe.pending_push, List.length_append]
      simp
  | wrote hwrite =>
    refine ⟨hs, Or.inl ?_⟩
    exact Nat.sub_le_sub_right (Pipe.byteLength_writeFront hwrite) _
  | read hread hfed hroom h =>
    have hintake := (takes_visits h).intake
    obtain ⟨hsize, hdata⟩ := hfed _ hread
    have hlow : s.down.byteLength ≤ env.h2ConnWindowSize := by
      rcases hroom with hempty | hlt
      · rw [Pipe.byteLength_of_isEmpty hempty]
        exact Nat.zero_le _
      · exact hlt.le
    refine ⟨hintake.drained hs, Or.inr ?_⟩
    rcases hintake.bounded hs hlow (hdata.trans hsize) with hle | ⟨hkept, hle⟩
    · exact .inl ((level_le reply s').trans hle)
    · exact .inr ⟨hkept, (level_le reply s').trans hle⟩

lemma Fill.pending (h : Fill env reply s s') (hs : s.pendingLength ≤ kMaxHeaderSize) :
    s'.pendingLength ≤ kMaxHeaderSize := by
  cases h with
  | still _ _ _ _ hpending => exact hpending hs
  | begun _ _ _ _ _ hpending => rwa [Connection.pendingLength, hpending]
  | wrote _ => exact hs
  | read _ _ _ h => exact (takes_visits h).pending hs

/-- **The bounds.** At every moment the queue for the application holds at most the window, one
read, the reply to the handshake, and as much as the receiver had kept of an incomplete chunk at
some moment before; and the data that waits for a channel is within its limit. -/
theorem fills_bounded (h : Fills env reply (start env .http2) s) :
    (∃ t, Fills env reply (start env .http2) t ∧ Fills env reply t s ∧
      t.padding.kept.length < maxPaddedChunk ∧
      s.down.byteLength ≤ env.h2ConnWindowSize + socketDebufSize + t.padding.kept.length +
        reply.length) ∧ s.pendingLength ≤ kMaxHeaderSize := by
  constructor
  · have hlevel : level reply (start env .http2) = 0 := by
      have hempty : (start env .http2).down.byteLength = 0 := Pipe.byteLength_of_isEmpty rfl
      exact Nat.le_zero.mp ((level_le reply _).trans_eq hempty)
    obtain ⟨t, hbefore, hafter, hkept, hle⟩ :=
      Run.reflTransGen_level (I := fun s => s.padding.Drained) (level reply)
        (fun s => s.padding.kept.length) (fun _ _ hs hfill => hfill.level hs)
        (fun payload n num hitem => by cases hitem) (hlevel.trans_le (Nat.zero_le _))
        (Nat.zero_lt_succ _) h
    refine ⟨t, hbefore, hafter, hkept, ?_⟩
    rw [level] at hle
    split_ifs at hle <;> omega
  · exact Run.reflTransGen_keeps (I := fun s => s.pendingLength ≤ kMaxHeaderSize)
      (fun _ _ hs hfill => hfill.pending hs) h (Nat.zero_le _)

/-! ## A callback is a sequence of changes -/

lemma fills_still (hmethod : s'.method = s.method) (hstarted : s'.started = s.started)
    (hdown : s'.down = s.down) (hbuffer : s.padding.SameBuffer s'.padding)
    (hpending : s'.pendingData = s.pendingData) : Fills env reply s s' := by
  refine (Fill.still hmethod hstarted hdown hbuffer ?_).fills
  rw [pendingLength, pendingLength, hpending]
  exact id

lemma fills_readDown (hmethod : s.method = .http2) {reads : List DownRead}
    (hfed : ∀ r ∈ reads, r.Fed)
    (hroom : s.down.queue.isEmpty = true ∨ s.down.byteLength < env.h2ConnWindowSize) {ec : Ec}
    {out : Bool} (h : Connection.readDown env reads s = some (s', ec, out)) :
    Fills env reply s s' := by
  induction reads generalizing s with
  | nil =>
    unfold readDown at h
    split_ifs at h <;> cases h <;> exact .refl _
  | cons r reads ih =>
    unfold readDown at h
    split_ifs at h
    · cases h
      exact .refl _
    split at h
    · obtain ⟨s₁, hlost, h⟩ := Option.map_eq_some_iff.mp h
      cases h
      exact (drifts_disconnected hlost).fills
    · cases h
      exact .refl _
    · cases h
      exact .refl _
    · next b bs hread =>
      obtain ⟨buf, -, h⟩ := bind_eq_some_iff.mp h
      have hrecord : Fills env reply s (s.recordRead (b :: bs)) :=
        fills_still rfl rfl rfl ⟨rfl, rfl⟩ rfl
      refine hrecord.trans ?_
      have hmethod₀ : (s.recordRead (b :: bs)).method = .http2 := hmethod
      have hroom₀ : (s.recordRead (b :: bs)).down.queue.isEmpty = true ∨
          (s.recordRead (b :: bs)).down.byteLength < env.h2ConnWindowSize := hroom
      generalize s.recordRead (b :: bs) = s₀ at h hmethod₀ hroom₀ ⊢
      rw [hmethod₀] at h
      obtain ⟨s₁, hvisits, h⟩ := bind_eq_some_iff.mp h
      have hfill : Fill env reply s₀ s₁ :=
        .read hread (hfed r List.mem_cons_self) hroom₀ hvisits
      refine hfill.fills.trans ?_
      split at h
      · cases h
        exact .refl _
      · obtain ⟨s₂, hlost, h⟩ := Option.map_eq_some_iff.mp h
        cases h
        exact (drifts_disconnected hlost).fills
      split_ifs at h with hlow
      · exact ih (hfill.method.trans hmethod₀)
          (fun r' hr' => hfed r' (List.mem_cons_of_mem r hr')) (Or.inr hlow) h
      · cases h
        exact .refl _

lemma fills_readUpstream (hmethod : s.method = .http2) {sc : DownScript}
    (hfed : ∀ r ∈ sc.reads, r.Fed) (h : s.readUpstream env sc = some s') :
    Fills env reply s s' := by
  rcases readUpstream_eq_some h with hdrifts | ⟨s₁, ec, out, hempty, -, hread, hdrifts⟩
  · exact hdrifts.fills
  · exact (fills_readDown hmethod hfed (Or.inl hempty) hread).trans hdrifts.fills

lemma fills_greetChannel {c : Connect} (h : s.greetChannel env c = some s')
    (hmethod : s'.method = .http2) : Fills env reply s s' := by
  have hgreet : ∀ {s₁ : Connection} {settings frames : List Frame},
      s₁.greetAgain settings frames = some s' → Fills env reply s₁ s' := by
    intro s₁ settings frames h
    obtain ⟨s₂, hsettings, h⟩ := bind_eq_some_iff.mp h
    have hframe : Fills env reply s₂ { s₂ with dataFrame := some ⟨[], false⟩ } :=
      fills_still rfl rfl rfl ⟨rfl, rfl⟩ rfl
    exact (drifts_sendIfNotProcessing hsettings).fills.trans
      (hframe.trans (drifts_sendIfNotProcessing h).fills)
  have hopen : ∀ http11 : Bool, (s.openChannel http11).method = .http2 →
      Fills env reply s (s.openChannel http11) := by
    intro http11 hopened
    refine fills_still ?_ rfl rfl ⟨rfl, rfl⟩ rfl
    unfold openChannel at hopened ⊢
    dsimp only at hopened ⊢
    split_ifs at hopened ⊢
    rfl
  unfold greetChannel at h
  split_ifs at h
  · have hagain : Fills env reply (s.openChannel true) s' := hgreet h
    exact (hopen true (hagain.method.symm.trans hmethod)).trans hagain
  generalize s.speaksHttp11 c = http11 at h
  obtain ⟨padding, dataFrame, up, encoder, decoder, flags, hflows⟩ := greet_eq_some h
  have hopened : (s.openChannel http11).method = .http2 := hflows.method.symm.trans hmethod
  refine (hopen http11 hopened).trans ?_
  have hsupport : Fills env reply (s.openChannel http11) { s.openChannel http11 with
      padding := { (s.openChannel http11).padding with supportInFact := env.paddingSupport }
      dataFrame := none } := fills_still rfl rfl rfl ⟨rfl, rfl⟩ rfl
  unfold greet at h
  split at h
  · exact hsupport.trans (hgreet h)
  all_goals
    next hother =>
    rw [hopened] at hother
    cases hother

lemma fills_replayPending (hheld : Held s) {chunks : List Chunk} {up : List UpTurn}
    (h : s.replayPending env chunks up = some s') : Fills env reply s s' := by
  rcases replayPending_eq_some hheld h with rfl | hdrifts
  · exact .refl _
  have hunpend : Fill env reply s { s with pendingData := [] } :=
    .still rfl rfl rfl ⟨rfl, rfl⟩ fun _ => Nat.zero_le _
  exact hunpend.fills.trans hdrifts.fills

lemma fills_onHandshake (hstarted : s.started = false) {request : Option Ss.Request}
    {answer : Reply} {left : List UInt8} {down : List DownTurn} {up : List UpTurn}
    (hreply : ∀ bytes, answer = .connect bytes → bytes = reply)
    (h : s.onHandshake env request answer left down up = some s') : Fills env reply s s' := by
  obtain ⟨s₁, hanswer, h⟩ := bind_eq_some_iff.mp h
  have hrest : Fills env reply s₁ s' := by
    split_ifs at h with hleft
    · exact (drifts_upFlush h).fills
    · exact (drifts_onStreamRead (by simpa using hleft) h).fills
  refine Fills.trans ?_ hrest
  have hbegun : Fill env reply s ({ s with started := true }.onConnect request) :=
    .begun hstarted rfl rfl (Or.inl rfl) rfl rfl
  cases answer with
  | nothing =>
    cases hanswer
    exact hbegun.fills
  | connect bytes =>
    obtain rfl := hreply bytes rfl
    have hpushed : Fill env bytes s
        { { s with started := true }.onConnect request with
          down := s.down.push (.copyBuffer bytes) } :=
      .begun hstarted rfl rfl (Or.inr rfl) rfl rfl
    exact hpushed.fills.trans
      (drifts_onDownstreamWriteFlush (makesDrifts_writeStream down) hanswer).fills
  | socks =>
    cases hanswer
    exact hbegun.fills.trans (fills_still rfl rfl rfl ⟨rfl, rfl⟩ rfl)

lemma Move.method_ne (h : Move env s s') (hs : s.method ≠ .http2) : s'.method ≠ .http2 := by
  have hopened : ∀ http11 : Bool, (s.openChannel http11).method ≠ .http2 := by
    intro http11
    unfold openChannel
    dsimp only
    split_ifs
    · exact fun h => nomatch h
    · exact hs
  cases h with
  | flow h => rwa [h.method]
  | asked h _ => rwa [show s'.method = s.method from congrArg Core.method h]
  | greeted _ _ h =>
    obtain ⟨padding, dataFrame, up, encoder, decoder, flags, hflows⟩ := greet_eq_some h
    rw [hflows.method]
    exact hopened _
  | greetedAgain _ _ _ h =>
    obtain ⟨s₁, hsettled, hsent⟩ := greetAgain_eq_some env h
    rw [hsent.method]
    show s₁.method ≠ .http2
    rw [hsettled.method]
    exact hopened _
  | unpend | begun | pushDown _ | read _ | granted _ _ | refused _ _ => exact hs
  | selectedAuth _ _ _ | selected _ _ _ _ | authenticated _ _ => exact hs

lemma Moves.method_http2 (h : Moves env s s') (hs' : s'.method = .http2) : s.method = .http2 := by
  by_contra hs
  exact h.keeps (fun _ _ hne hmove => hmove.method_ne hne) hs hs'

lemma fills_onConnected (hheld : Held s) {c : Connect} (hdue : due s (.connected c) = true)
    (hfed : ∀ r ∈ c.read.reads, r.Fed) (h : s.onConnected env c = some s')
    (hmethod : s'.method = .http2) : Fills env reply s s' := by
  obtain ⟨s₁, hgreet, hgreeted, hmoves⟩ := moves_onConnected hheld hdue h
  have hmethod₁ := hmoves.method_http2 hmethod
  refine (fills_greetChannel hgreet hmethod₁).trans ?_
  obtain ⟨s₁', hgreet', h⟩ := onConnected_eq_some h
  rw [hgreet] at hgreet'
  cases hgreet'
  rcases h with ⟨-, rfl⟩ | ⟨-, s₂, s₃, hreplay, hread, h⟩
  · exact .refl _
  have hreplayed : Fills env reply s₁ s₂ := fills_replayPending (hheld.move hgreeted) hreplay
  have hflag : Fills env reply s₂ { s₂ with upstreamWritable := true } :=
    fills_still rfl rfl rfl ⟨rfl, rfl⟩ rfl
  have hmethod₂ : s₂.method = .http2 := hreplayed.method.trans hmethod₁
  exact hreplayed.trans (hflag.trans
    ((fills_readUpstream (s := { s₂ with upstreamWritable := true }) hmethod₂ hfed hread).trans
      (drifts_upFlush h).fills))

lemma fills_callback (hheld : Held s) {e : Event} (hdue : due s e) (hfed : e.Fed)
    (hanswers : e.Answers reply) (h : callback env s e = some s') (hs : s.method = .http2)
    (hs' : s'.method = .http2) : Fills env reply s s' := by
  cases e with
  | handshake request answer left down up =>
    simp only [due, Bool.and_eq_true, Bool.not_eq_true'] at hdue
    refine fills_onHandshake hdue.1 ?_ h
    rintro bytes rfl
    exact hanswers
  | resolved request =>
    cases h
    exact fills_still rfl rfl rfl ⟨rfl, rfl⟩ rfl
  | connected c => exact fills_onConnected hheld hdue hfed h hs'
  | received read =>
    have hflag : Drifts env s _ := drifts_readable s
    exact hflag.fills.trans (fills_readUpstream (hflag.takes.method.trans hs) hfed h)
  | _ => exact (drifts_callback rfl h).fills

/-- **A callback is a sequence of changes**, as long as HTTP/2 is spoken. -/
theorem fills_step (hheld : Held s) {e : Event} (hfed : e.Fed) (hanswers : e.Answers reply)
    (h : step env s e = some s') (hs' : s'.method = .http2) :
    s.method = .http2 ∧ Fills env reply s s' := by
  have hs := (moves_step hheld h).method_http2 hs'
  refine ⟨hs, ?_⟩
  unfold step at h
  split_ifs at h with hskip
  · cases h
    exact .refl _
  · simp only [Bool.or_eq_true, not_or, Bool.not_eq_true, Bool.not_eq_false'] at hskip
    exact fills_callback hheld hskip.2 hfed hanswers h hs hs'

/-- **A run is a sequence of changes**, as long as HTTP/2 is spoken. -/
theorem fills_run {es : List Event} (hfed : ∀ e ∈ es, e.Fed) (hanswers : ∀ e ∈ es, e.Answers reply)
    (hrun : Run.exec (step env) (start env .http2) es = some s) (hs : s.method = .http2) :
    Fills env reply (start env .http2) s := by
  have hstep : ∀ s e s', (s.method = .http2 → Fills env reply (start env .http2) s) ∧ Held s →
      e.Fed ∧ e.Answers reply → step env s e = some s' →
      (s'.method = .http2 → Fills env reply (start env .http2) s') ∧ Held s' := by
    rintro s e s' ⟨hfills, hheld⟩ ⟨hfed, hanswers⟩ hstep
    refine ⟨fun hs' => ?_, (moves_step hheld hstep).keeps (fun _ _ h hmove => h.move hmove) hheld⟩
    obtain ⟨hs, hmore⟩ := fills_step hheld hfed hanswers hstep hs'
    exact (hfills hs).trans hmore
  have hnew : Held (start env .http2) := fun buf hmem => absurd hmem List.not_mem_nil
  have hends := Run.reached_invariant hstep ⟨fun _ => Fills.refl _, hnew⟩
    (Run.along_of_forall fun e he => ⟨hfed e he, hanswers e he⟩) (List.prefix_refl es) hrun
  exact hends.1 hs

end Yass.Cli.Relay
