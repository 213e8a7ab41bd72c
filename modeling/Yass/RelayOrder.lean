import Yass.Cli.ChannelState
import Yass.Server.RelayMoves

/-!
# Nothing is lost, sent twice or reordered by a relay

Client and server, in both directions: what a socket has accepted is the start of what was queued
for it, and all of it once the queue is empty (`Delivers`).

* `Server.Relay.Ordered`, `Cli.Relay.Ordered` — the invariants. The pipes are sound
  (`Pipe.Sound`), and a cipher that has not written its nonce has nothing in front of it in the
  queue. The nonce of a stream cipher goes to the read position of its buffer, so this is what
  encrypting onto a buffer that was sent in part rests on.
* The client creates its encoder anew for each channel. Except for HTTP/2, nothing is in the queue
  while there is no channel, or while its connect is outstanding (`Cli.Relay.Ordered.fresh`).

Source: `cli/cli_connection.cpp`, `server/server_connection.cpp`, as modelled in `Cli/Relay` and
`Server/Relay`.
-/

namespace Yass

open Yass.Net
open Option (bind_eq_some_iff)

/-- What a socket has accepted is the start of what was queued for it, and all of it once the queue
is empty. -/
structure Delivers (p : Pipe) : Prop where
  accepted : p.accepted <+: p.queued
  drained : p.queue.isEmpty = true → p.accepted = p.queued

lemma delivers_of_sound {p : Pipe} (h : p.Sound) : Delivers p := ⟨h.isPrefix, h.accepted_eq⟩

lemma pending_writeFront {p p' : Pipe} {n written : ℕ} {empty : Bool}
    (h : p.writeFront n = some (p', written, empty)) (hnil : p.pending = []) : p'.pending = [] := by
  obtain ⟨buf, rest, -, -, -, -, hpending, -, -⟩ := Pipe.writeFront_eq_some h
  rw [hnil] at hpending
  exact (List.append_eq_nil_iff.mp hpending.symm).2

/-! ## The server -/

namespace Server.Relay

variable {env : Environment} {s s' : Connection}

structure Ordered (s : Connection) : Prop where
  down : s.down.Sound
  up : s.up.Sound
  encoder : s.method = .cipher → s.encoder.init = true ∨ s.down.pending = []

lemma ordered_start (method : Method) (encoder decoder : Cipher) :
    Ordered (start env method encoder decoder) :=
  ⟨Pipe.sound_new, Pipe.sound_new, fun _ => Or.inr (by simp [start, Pipe.new, Pipe.pending])⟩

lemma Ordered.of_core {c : Core} (hs : Ordered s) (h : s'.core = c)
    (hc : (c.method, c.down, c.up, c.encoder) = (s.method, s.down, s.up, s.encoder)) :
    Ordered s' := by
  simp only [← h, Connection.core, Prod.mk.injEq] at hc
  obtain ⟨hmethod, hdown, hup, hencoder⟩ := hc
  obtain ⟨hd, hu, he⟩ := hs
  exact ⟨hdown ▸ hd, hup ▸ hu, by rwa [hmethod, hdown, hencoder]⟩

lemma Ordered.pushDown (hs : Ordered s) (hmethod : s.method ≠ .cipher) (carried : List UInt8)
    (buf : GrowableIOBuffer) : Ordered (s.pushDown carried buf) :=
  ⟨hs.down.push buf, hs.up, fun h => absurd h hmethod⟩

lemma Ordered.sendFrame (hs : Ordered s) (hmethod : s.method = .http2) {frame : Frame}
    (h : s.sendFrame frame = some s') : Ordered s' := by
  have hcipher : s.method ≠ .cipher := by simp [hmethod]
  rcases sendFrame_eq_some h with rfl | ⟨bytes, rfl⟩ | ⟨_, _, _, payload, _, _, _, rfl⟩
  · exact hs
  · exact hs.pushDown hcipher _ _
  · exact { hs.pushDown hcipher payload _ with }

lemma Ordered.passOn (hs : Ordered s) (hdown : s.down.queue.isEmpty) {t : Turn}
    {raw : List UInt8} {alive : Bool} (h : s.passOn env t raw = some (s', alive)) :
    Ordered s' := by
  have hrecord : Ordered (s.record [.read raw raw]) := { hs with }
  obtain ⟨buf, hbuf, h⟩ := bind_eq_some_iff.mp h
  split at h
  · split at h
    · cases h
      exact { hs with }
    obtain ⟨⟨padding, chunk⟩, -, h⟩ := bind_eq_some_iff.mp h
    cases h
    exact { hs with }
  · next hmethod =>
    cases h
    exact hrecord.pushDown (by simp [Connection.record, hmethod]) _ _
  · next hmethod =>
    cases h
    exact hrecord.pushDown (by simp [Connection.record, hmethod]) _ _
  obtain ⟨⟨encoder, ok, down⟩, henc, h⟩ := bind_eq_some_iff.mp h
  have hinit : s.encoder.init = true ∨ s.down.pending = [] :=
    Or.inr (Pipe.pending_of_isEmpty hdown)
  obtain ⟨_, -, -, -, hinit'⟩ := Pipe.encryptData_eq_some hinit henc
  cases h
  have hafter : Ordered ({ s with encoder, down }.record
      [.read raw raw, .queued raw (down.queued.drop s.down.queued.length)]) :=
    ⟨hs.down.encryptData hinit henc, hs.up, fun _ => hinit'⟩
  cases ok with
  | true => exact hafter
  | false =>
    have hcore := core_onDisconnect ({ s with encoder, down }.record
      [.read raw raw, .queued raw (down.queued.drop s.down.queued.length)])
    exact hafter.of_core hcore rfl

lemma Ordered.writeDown (hs : Ordered s) {n written : ℕ} {empty : Bool}
    (h : s.writeDown n = some (s', written, empty)) : Ordered s' := by
  obtain ⟨⟨down, w, e⟩, hwrite, h⟩ := bind_eq_some_iff.mp h
  cases h
  exact ⟨hs.down.writeFront hwrite, hs.up,
    fun hm => (hs.encoder hm).imp_right (pending_writeFront hwrite)⟩

lemma Ordered.move (hs : Ordered s) (h : Move env s s') : Ordered s' := by
  cases h with
  | quiet h | dropFrame h | opened h => exact hs.of_core h rfl
  | reply hmethod bytes => exact hs.pushDown (by simp [hmethod]) _ _
  | frame hmethod h => exact hs.sendFrame hmethod h
  | read hdown _ h => exact hs.passOn hdown h
  | wrote h => exact hs.writeDown h
  | ended _ _ _ _ => exact { hs with }
  | pushUp buf => exact ⟨hs.down, hs.up.push buf, hs.encoder⟩
  | wroteUp h => exact ⟨hs.down, hs.up.writeFront h, hs.encoder⟩

lemma ordered_run {method : Method} {encoder decoder : Cipher} {es : List Event}
    (hrun : Run.exec (step env) (start env method encoder decoder) es = some s) : Ordered s :=
  Run.exec_keeps
    (fun _ _ _ hs hstep => (moves_step hstep).keeps (fun _ _ hs hmove => hs.move hmove) hs)
    (ordered_start method encoder decoder) hrun

end Server.Relay

/-! ## The client -/

namespace Cli.Relay

variable {env : Environment} {s s' : Connection}

structure Ordered (s : Connection) : Prop where
  down : s.down.Sound
  up : s.up.Sound
  encoder : s.method = .cipher → s.encoder.init = true ∨ s.up.pending = []
  fresh : s.method ≠ .http2 → s.waiting = true → s.up.queue.toList = []

lemma ordered_start (method : Method) : Ordered (start env method) where
  down := Pipe.sound_new
  up := Pipe.sound_new
  encoder _ := Or.inr (by simp [start, Pipe.new, Pipe.pending])
  fresh _ _ := by simp [start, Pipe.new]

lemma Ordered.of_core {c : Core} (hs : Ordered s) (h : s'.core = c)
    (hc : (c.method, c.down, c.up, c.encoder) = (s.method, s.down, s.up, s.encoder))
    (hw : s'.waiting = true → s.up.queue.toList ≠ [] → s.waiting = true) : Ordered s' := by
  simp only [← h, Connection.core, Prod.mk.injEq] at hc
  obtain ⟨hmethod, hdown, hup, hencoder⟩ := hc
  obtain ⟨hd, hu, he, hf⟩ := hs
  refine ⟨hdown ▸ hd, hup ▸ hu, by rwa [hmethod, hup, hencoder], fun hm hw' => ?_⟩
  rw [hup]
  by_contra hne
  exact hne (hf (hmethod ▸ hm) (hw hw' hne))

lemma not_waiting_of_connectedNow (h : s.connectedNow) : s.waiting = false := by
  unfold Connection.connectedNow at h
  unfold Connection.waiting
  cases hch : s.channel with
  | none => simp [hch] at h
  | some ch =>
    rw [hch, Option.any_some] at h
    simp [h]

lemma Ordered.put (hs : Ordered s) (hconn : s.connectedNow) {n : ℕ} {buf : GrowableIOBuffer}
    {r : Put} (h : s.put env n buf = some (s', r)) : Ordered s' := by
  have hwaiting : ¬ s.waiting = true := by simp [not_waiting_of_connectedNow hconn]
  unfold Connection.put at h
  split at h
  · split at h
    · cases h
      exact hs
    obtain ⟨⟨padding, chunk⟩, -, h⟩ := bind_eq_some_iff.mp h
    cases h
    exact { hs with }
  · next hmethod =>
    obtain ⟨⟨encoder, ok, up⟩, henc, h⟩ := bind_eq_some_iff.mp h
    cases h
    obtain ⟨_, -, -, -, hinit⟩ := Pipe.encryptData_eq_some (hs.encoder hmethod) henc
    exact ⟨hs.down, hs.up.encryptData (hs.encoder hmethod) henc, fun _ => hinit,
      fun _ hw => absurd hw hwaiting⟩
  all_goals
    next hmethod =>
    cases h
    exact ⟨hs.down, hs.up.push buf, fun hm => by simp [hmethod] at hm,
      fun _ hw => absurd hw hwaiting⟩

lemma Ordered.flow (hs : Ordered s) (h : Flow env s s') : Ordered s' := by
  cases h with
  | quiet h hw _ => exact hs.of_core h rfl fun hw' _ => hw hw'
  | wroteDown h => exact ⟨hs.down.writeFront h, hs.up, hs.encoder, hs.fresh⟩
  | frame hmethod h hch =>
    have hm : s'.method = .http2 := (congrArg Core.method h).trans hmethod
    have hdown : s'.down = s.down := congrArg Core.down h
    have hup : s'.up = _ := congrArg Core.up h
    refine ⟨hdown ▸ hs.down, ?_, fun hc => by simp [hm] at hc, fun hc => absurd hm hc⟩
    rw [hup]
    exact hs.up.push _
  | pend hbuf => exact { hs with }
  | put hconn _ h => exact hs.put hconn h
  | wroteUp _ h =>
    refine ⟨hs.down, hs.up.writeFront h,
      fun hm => (hs.encoder hm).imp_right (pending_writeFront h), fun hm hw => ?_⟩
    obtain ⟨_, _, hlist, -⟩ := Pipe.writeFront_eq_some h
    rw [hs.fresh hm hw] at hlist
    cases hlist
  | reopened hup h _ =>
    exact hs.of_core h rfl fun _ hne => absurd (s.up.queue.isEmpty_iff.mp hup) hne

lemma Ordered.flows (hs : Ordered s) (h : Flows env s s') : Ordered s' :=
  h.keeps (fun _ _ hs hflow => hs.flow hflow) hs

lemma Ordered.pushUp (hs : Ordered s) (hw : s.waiting = false) (hmethod : s.method ≠ .cipher)
    (bufs : List GrowableIOBuffer) (flags : Flags) :
    Ordered { s with up := bufs.foldl Pipe.push s.up, flags } where
  down := hs.down
  up := by
    show (bufs.foldl Pipe.push s.up).Sound
    have hup := hs.up
    generalize s.up = p at hup
    induction bufs generalizing p with
    | nil => exact hup
    | cons buf bufs ih => exact ih (p.push buf) (hup.push buf)
  encoder h := absurd h hmethod
  fresh _ hw' := absurd (show s.waiting = true from hw') (by simp [hw])

variable {settings frames : List Frame}

lemma Ordered.greet (hs : Ordered s) (hw : s.waiting = false)
    (hpending : s.method = .cipher → s.up.pending = [])
    {lost : List DownTurn} (h : s.greet env settings frames lost = some s') : Ordered s' := by
  unfold Connection.greet at h
  split at h
  · obtain ⟨s₁, hsettings, h⟩ := bind_eq_some_iff.mp h
    have hsettled : Flows env _ s₁ := (drifts_sendIfNotProcessing hsettings).flows
    have hsent : Flows env _ s' := (drifts_sendIfNotProcessing h).flows
    have hs₀ : Ordered { s with
        padding := { s.padding with supportInFact := env.paddingSupport }
        dataFrame := none } := { hs with }
    have hs₁ : Ordered { s₁ with dataFrame := some ⟨[], false⟩ } :=
      { hs₀.flows hsettled with }
    exact hs₁.flows hsent
  · next hmethod =>
    cases h
    exact hs.pushUp hw (by simp [hmethod]) [_] _
  · next hmethod =>
    unfold Connection.writeUpstreamSocks4Request at h
    split at h
    · cases h
    · cases h
      have hgone : Flows env s s.onDisconnect := (drifts_onDisconnect s).flows
      exact hs.flows hgone
    · cases h
      exact hs.pushUp hw (by simp [hmethod]) [_] _
  · next hmethod =>
    cases h
    exact hs.pushUp hw (by simp [hmethod]) [_] _
  · next hmethod =>
    cases h
    have hcipher : s.method ≠ .cipher := by simp [hmethod]
    unfold Connection.writeUpstreamMethodSelectRequest
    dsimp only
    split_ifs
    · exact hs.pushUp hw hcipher [_, _, _] _
    · exact hs.pushUp hw hcipher [_, _] _
  · next hmethod =>
    obtain ⟨⟨encoder, ok, up⟩, henc, h⟩ := bind_eq_some_iff.mp h
    have hinit : env.encoder.init = true ∨ s.up.pending = [] := Or.inr (hpending hmethod)
    obtain ⟨_, -, -, -, hinit'⟩ := Pipe.encryptData_eq_some hinit henc
    have hafter : Ordered { s with encoder, decoder := env.decoder, up } :=
      ⟨hs.down, hs.up.encryptData hinit henc, fun _ => hinit',
        fun _ hw' => absurd (show s.waiting = true from hw') (by simp [hw])⟩
    dsimp only at h
    split_ifs at h
    · cases h
      exact hafter
    · have hlost : Flows env _ s' := (drifts_disconnected h).flows
      exact hafter.flows hlost

lemma waiting_of_any (hch : (s.channel.any fun ch => !ch.connected && !ch.eof) = true)
    (http11 : Bool) : s.waiting = true ∧ (s.openChannel http11).waiting = false := by
  unfold Connection.waiting
  cases hsome : s.channel with
  | none => simp [hsome] at hch
  | some ch => exact ⟨by simpa [hsome] using hch, by simp [Connection.openChannel, hsome]⟩

lemma Ordered.pending_of_waiting (hs : Ordered s) (hw : s.waiting = true)
    (hm : s.method = .cipher) : s.up.pending = [] :=
  Pipe.pending_of_isEmpty (s.up.queue.isEmpty_iff.mpr (hs.fresh (by simp [hm]) hw))

lemma cipher_of_openChannel {http11 : Bool} (h : (s.openChannel http11).method = .cipher) :
    s.method = .cipher := by
  unfold Connection.openChannel at h
  dsimp only at h
  split_ifs at h
  exact h

lemma Ordered.openChannel (hs : Ordered s)
    (hch : (s.channel.any fun ch => !ch.connected && !ch.eof) = true) (http11 : Bool) :
    Ordered (s.openChannel http11) := by
  obtain ⟨hw, hw'⟩ := waiting_of_any hch http11
  refine ⟨hs.down, ?_, fun hm => Or.inr (hs.pending_of_waiting hw (cipher_of_openChannel hm)),
    fun _ h => absurd h (by simp [hw'])⟩
  simp [Connection.openChannel, Pipe.Sound, Pipe.pending]

lemma Ordered.greeted (hs : Ordered s)
    (hch : (s.channel.any fun ch => !ch.connected && !ch.eof) = true) {http11 : Bool}
    {lost : List DownTurn}
    (h : (s.openChannel http11).greet env settings frames lost = some s') : Ordered s' := by
  obtain ⟨hw, hw'⟩ := waiting_of_any hch http11
  exact (hs.openChannel hch http11).greet hw'
    (fun hm => hs.pending_of_waiting hw (cipher_of_openChannel hm)) h

lemma Ordered.greetedAgain (env : Environment) (hs : Ordered s)
    (hch : (s.channel.any fun ch => !ch.connected && !ch.eof) = true)
    (h : (s.openChannel true).greetAgain settings frames = some s') : Ordered s' := by
  obtain ⟨s₁, hsettings, h⟩ := bind_eq_some_iff.mp h
  have hsettled : Flows env _ s₁ := (drifts_sendIfNotProcessing hsettings).flows
  have hsent : Flows env _ s' := (drifts_sendIfNotProcessing h).flows
  have hs₁ : Ordered { s₁ with dataFrame := some ⟨[], false⟩ } :=
    { (hs.openChannel hch true).flows hsettled with }
  exact hs₁.flows hsent

lemma Ordered.patched (hs : Ordered s) (hsocks : s.method = .socks5) {bytes : List UInt8}
    {up : Pipe} (h : s.up.appendFront env.cipher.junk bytes = some up) (flags : Flags) :
    Ordered { s with flags, up } := by
  refine ⟨hs.down, hs.up.appendFront h, fun hm => by simp [hsocks] at hm, fun hm hw => ?_⟩
  obtain ⟨_, _, _, hlist, -⟩ := Pipe.appendFront_eq_some h
  rw [hs.fresh hm hw] at hlist
  cases hlist

lemma Ordered.move (hs : Ordered s) {m : Method} (hkept : Kept m s) (h : Move env s s') :
    Ordered s' := by
  cases h with
  | flow h => exact hs.flow h
  | asked h hw =>
    exact hs.of_core h rfl fun hw' _ => hw hw'
  | pushDown buf => exact ⟨hs.down.push buf, hs.up, hs.encoder, hs.fresh⟩
  | selectedAuth hflag _ h => exact hs.patched (hkept.socks5_of_select (Or.inl hflag)) h _
  | selected hflag _ _ h => exact hs.patched (hkept.socks5_of_select (Or.inl hflag)) h _
  | authenticated hflag h => exact hs.patched (hkept.socks5_of_select (Or.inr hflag)) h _
  | greeted hch _ h => exact hs.greeted hch h
  | greetedAgain hch _ _ h => exact Ordered.greetedAgain env hs hch h
  | begun | read _ | granted _ _ | refused _ _ | unpend => exact { hs with }

lemma ordered_run {m : Method} {es : List Event}
    (hrun : Run.exec (step env) (start env m) es = some s) : Ordered s :=
  (run_keeps (I := fun s => Kept m s ∧ Ordered s)
    (fun _ _ hs hmove => ⟨hs.1.move hmove, hs.2.move hs.1 hmove⟩)
    ⟨kept_start env m, ordered_start m⟩ hrun).2

end Cli.Relay

/-! ## Both relays -/

/-- A cipher has written its nonce, or nothing is in front of it. -/
def Ready (encoder : Cipher) (p : Pipe) : Prop := encoder.init = true ∨ p.pending = []

/-- **Relay order.** In every state that a run of the server or of the client reaches, for every
answer of the sockets, the clock and the adapter, both directions deliver what was queued in order,
and the cipher is ready for its queue. Encrypting onto a queue a cipher is ready for, the last
buffer of which may have been sent in part, appends the ciphertext to what is queued and changes
nothing else. -/
theorem relays_deliver :
    (∀ (env : Server.Relay.Environment) (method : Server.Relay.Method) (encoder decoder : Cipher)
      (es : List Server.Relay.Event) (s : Server.Relay.Connection),
      Run.exec (Server.Relay.step env) (Server.Relay.start env method encoder decoder) es = some s →
        Delivers s.down ∧ Delivers s.up ∧ (s.method = .cipher → Ready s.encoder s.down)) ∧
    (∀ (env : Cli.Relay.Environment) (method : Cli.Relay.Method) (es : List Cli.Relay.Event)
      (s : Cli.Relay.Connection),
      Run.exec (Cli.Relay.step env) (Cli.Relay.start env method) es = some s →
        Delivers s.down ∧ Delivers s.up ∧ (s.method = .cipher → Ready s.encoder s.up)) ∧
    ∀ (E : CipherEnv) (encoder encoder' : Cipher) (p p' : Pipe) (plaintext : GrowableIOBuffer)
      (ok : Bool), p.Sound → Ready encoder p →
      p.encryptData E encoder plaintext = some (encoder', ok, p') →
        ∃ ciphertext, p'.queued = p.queued ++ ciphertext ∧ p'.pending = p.pending ++ ciphertext ∧
          p'.accepted = p.accepted ∧ Delivers p' ∧ Ready encoder' p' := by
  refine ⟨fun env method encoder decoder es s hrun => ?_, fun env method es s hrun => ?_,
    fun E encoder encoder' p p' plaintext ok hsound hready henc => ?_⟩
  · have hordered := Server.Relay.ordered_run hrun
    exact ⟨delivers_of_sound hordered.down, delivers_of_sound hordered.up, hordered.encoder⟩
  · have hordered := Cli.Relay.ordered_run hrun
    exact ⟨delivers_of_sound hordered.down, delivers_of_sound hordered.up, hordered.encoder⟩
  obtain ⟨ciphertext, hqueued, hpending, haccepted, hready'⟩ :=
    Pipe.encryptData_eq_some hready henc
  exact ⟨ciphertext, hqueued, hpending, haccepted,
    delivers_of_sound (hsound.encryptData hready henc), hready'⟩

/-- A run of the server as an HTTP proxy: a reply, what came behind the request, and bytes of the
target are sent in parts. -/
def sampleServerRun : Option Server.Relay.Connection :=
  let send (n : ℕ) (read : ReadOutcome) : Server.Relay.Script :=
    ⟨[⟨read, 0, [], .bytes n, false⟩], [], []⟩
  let cipher := Cipher.create (.sample fun _ => false) .aes256Ctr [112]
  Run.exec (Server.Relay.step (.sample false))
    (Server.Relay.start (.sample false) .https cipher cipher)
    [.handshake (some [72, 73]) [1, 2, 3] [], .writable (send 1 .wouldBlock),
      .connected 0 (send 1 .wouldBlock) [⟨[], none, .bytes 2, ([], ⟨[], [], []⟩), false⟩],
      .received 0 (send 1 (.data [8, 9]))]

/-- A run of the client with a SOCKS5 server: the method selection, and four bytes of the
request. -/
def sampleClientRun : Option Cli.Relay.Connection :=
  let write (n : ℕ) : Cli.Relay.UpTurn := ⟨.wouldBlock, .asIs, ⟨0, [], []⟩, .bytes n, false⟩
  let request : Ss.Request := ⟨fun i => [1, 10, 0, 0, 1, 0, 80].getD i 0⟩
  Run.exec (Cli.Relay.step (.sample false [] [])) (Cli.Relay.start (.sample false [] []) .socks5)
    [.handshake (some request) .nothing [7] [] [],
      .connected ⟨false, [], [], [], [], [], ⟨[], none, []⟩, [write 3]⟩,
      .received ⟨[⟨.data [5, 0], [], .consumed, [], [], []⟩], none, []⟩, .sent [write 4]]

def samplePipe : Option (Pipe × Cipher × Bool × Pipe) := do
  let (p, _, _) ← (Pipe.new.push (.copyBuffer [1, 2, 3])).writeFront 1
  let r ← p.encryptData (.sample fun _ => false)
    { Cipher.create (.sample fun _ => false) .aes256Ctr [112] with init := true } (.copyBuffer [7])
  some (p, r)

theorem relays_deliver_sample :
    (∃ s, sampleServerRun = some s ∧ s.down.accepted = [72, 73, 8] ∧
      s.down.queued = [72, 73, 8, 9] ∧ Delivers s.down ∧ Delivers s.up) ∧
    (∃ s, sampleClientRun = some s ∧ s.up.accepted = [5, 1, 0, 5, 1, 0, 1] ∧
      s.up.queued = [5, 1, 0, 5, 1, 0, 1, 10, 0, 0, 1, 0, 80, 7] ∧
      Delivers s.down ∧ Delivers s.up) ∧
    ∃ p encoder ok p', samplePipe = some (p, encoder, ok, p') ∧ p.accepted = [1] ∧
      p'.accepted = [1] ∧ p'.queued = [1, 2, 3, 7] ∧ Delivers p' := by
  obtain ⟨hserver, hclient, hpipe⟩ := relays_deliver
  refine ⟨?_, ?_, ?_⟩
  · have hrun : sampleServerRun.map (fun s => (s.down.accepted, s.down.queued)) =
        some ([72, 73, 8], [72, 73, 8, 9]) := by decide +kernel
    obtain ⟨s, hs, hsent⟩ := Option.map_eq_some_iff.mp hrun
    obtain ⟨hdown, hup, -⟩ := hserver _ _ _ _ _ s hs
    exact ⟨s, hs, congrArg Prod.fst hsent, congrArg Prod.snd hsent, hdown, hup⟩
  · have hrun : sampleClientRun.map (fun s => (s.up.accepted, s.up.queued)) =
        some ([5, 1, 0, 5, 1, 0, 1], [5, 1, 0, 5, 1, 0, 1, 10, 0, 0, 1, 0, 80, 7]) := by
      decide +kernel
    obtain ⟨s, hs, hsent⟩ := Option.map_eq_some_iff.mp hrun
    obtain ⟨hdown, hup, -⟩ := hclient _ _ _ s hs
    exact ⟨s, hs, congrArg Prod.fst hsent, congrArg Prod.snd hsent, hdown, hup⟩
  have hrun : samplePipe.map (fun r => (r.1.accepted, r.2.2.2.accepted, r.2.2.2.queued)) =
      some ([1], [1], [1, 2, 3, 7]) := by decide +kernel
  obtain ⟨⟨p, encoder, ok, p'⟩, hs, hsent⟩ := Option.map_eq_some_iff.mp hrun
  obtain ⟨hp, hp', hq⟩ : p.accepted = [1] ∧ p'.accepted = [1] ∧ p'.queued = [1, 2, 3, 7] := by
    simpa using hsent
  refine ⟨p, encoder, ok, p', hs, hp, hp', hq, ?_⟩
  unfold samplePipe at hs
  obtain ⟨⟨p₀, w, e⟩, hwrite, hs⟩ := bind_eq_some_iff.mp hs
  obtain ⟨r, henc, hs⟩ := bind_eq_some_iff.mp hs
  cases hs
  obtain ⟨_, -, -, -, hdelivers, -⟩ := hpipe _ _ _ _ _ _ _
    ((Pipe.sound_new.push _).writeFront hwrite) (Or.inl rfl) henc
  exact hdelivers

end Yass
