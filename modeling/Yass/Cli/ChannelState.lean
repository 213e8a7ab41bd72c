import Yass.Cli.RelayMoves

/-!
# What a new channel finds

A client connection can have many channels, one after the other: a local HTTP client with keep-alive
that asks for another host gets a new one. `connected` creates the HTTP/2 adapter or the ciphers
anew; the other members that describe how far the protocol is on a channel are members of the
connection.

Source: `cli/cli_connection.cpp`.
-/

namespace Yass.Cli.Relay

open Yass.Net

/-- The flags of a new connection: the reply to a `CONNECT` is to come. -/
def Flags.initial : Flags := ⟨true, false, false, false⟩

def StreamState.initial : StreamState := ⟨.new false, false, none, none⟩

namespace Connection

/-- `connected` creates an adapter. -/
def createsAdapter (s : Connection) (c : Connect) : Bool := s.method == .http2 && !s.speaksHttp11 c

/-- A connection whose channel is connected, with the adapter or the ciphers that `connected`
creates. -/
def created (env : Environment) (s : Connection) (c : Connect) : Connection :=
  let s' := s.openChannel (s.speaksHttp11 c)
  { s' with
    padding := if s.createsAdapter c then { s.padding with supportInFact := env.paddingSupport }
      else s.padding
    dataFrame := if s.createsAdapter c then none else s.dataFrame
    encoder := if s'.method = .cipher then env.encoder else s.encoder
    decoder := if s'.method = .cipher then env.decoder else s.decoder }

end Connection

/-- Everything about the protocol on the channel has its initial value. The adapter of an HTTP/2
channel is its own, so that the stream is the first one of that adapter. -/
structure Fresh (env : Environment) (s : Connection) : Prop where
  flags : s.flags = .initial
  padding : s.padding = .new s.padding.supportInFact
  streamRecvEof : s.streamRecvEof = false
  adapter : s.adapter = if s.method = .http2 then some s.channels else none
  dataFrame : s.dataFrame = none
  ciphers : s.method = .cipher → s.encoder = env.encoder ∧ s.decoder = env.decoder

/-- What must hold when `connected` is called, for the method the connection was configured with.
* HTTPS: no reply to a `CONNECT` was read on an earlier channel.
* SOCKS: no reply is left to come on an earlier channel.
* A cipher: nothing.
* HTTP/2: no frame was padded in either direction and no stream has ended on an earlier channel, no
  reply to a `CONNECT` was read on one, and where no adapter is created there is none. -/
def Clean (method : Method) (s : Connection) (c : Connect) : Prop :=
  match method with
  | .https => s.flags.https = true
  | .socks4 | .socks4a => s.flags.socks = false
  | .socks5 => s.flags.methodSelect = false ∧ s.flags.auth = false ∧ s.flags.socks = false
  | .cipher => True
  | .http2 =>
    s.padding.numPaddingSend = 0 ∧ s.padding.numPaddingRecv = 0 ∧ s.padding.inMiddleBuf = none ∧
      s.streamRecvEof = false ∧ s.flags.https = true ∧
      (s.createsAdapter c = false → s.adapter = none ∧ s.dataFrame = none)

variable {env : Environment} {s s' : Connection} {m : Method}

/-! ## What every state of a connection has -/

/-- What holds in every state of a connection that was configured with the method `m`. -/
structure Kept (m : Method) (s : Connection) : Prop where
  method : s.method = m ∨ m = .http2 ∧ s.method = .https
  stream : m ≠ .http2 → s.streamState = .initial
  adapter : ∀ k, s.adapter = some k → s.method = .http2 ∧ k ≤ s.channels
  https : m ≠ .https → m ≠ .http2 → s.flags.https = true
  select : m ≠ .socks5 → s.flags.methodSelect = false ∧ s.flags.auth = false
  socks : m = .https ∨ m = .cipher ∨ m = .http2 → s.flags.socks = false

lemma kept_start (env : Environment) (m : Method) : Kept m (start env m) where
  method := Or.inl rfl
  stream _ := rfl
  adapter _ h := by cases h
  https _ _ := rfl
  select _ := ⟨rfl, rfl⟩
  socks _ := rfl

lemma Kept.method_eq (hs : Kept m s) (hm : m ≠ .http2) : s.method = m :=
  hs.method.resolve_right fun h => hm h.1

lemma Kept.of_same (hs : Kept m s) (hmethod : s'.method = s.method) (hflags : s'.flags = s.flags)
    (hadapter : s'.adapter = s.adapter) (hchannels : s'.channels = s.channels)
    (hstream : s.method ≠ .http2 → s'.streamState = s.streamState) : Kept m s' where
  method := hmethod ▸ hs.method
  stream hm := (hstream (hs.method_eq hm ▸ hm)).trans (hs.stream hm)
  adapter := by
    rw [hadapter, hmethod, hchannels]
    exact hs.adapter
  https := hflags ▸ hs.https
  select := hflags ▸ hs.select
  socks := hflags ▸ hs.socks

lemma streamState_eq (hmethod : s'.method = s.method) (h : s'.core.unused = s.core.unused)
    (hm : s.method ≠ .http2) : s'.streamState = s.streamState := by
  simp only [Connection.core, hmethod, if_neg hm, Option.some_inj] at h
  exact h

variable {f : Flags}

lemma Kept.setFlags (hs : Kept m s) (hhttps : m ≠ .https → m ≠ .http2 → f.https = true)
    (hselect : m ≠ .socks5 → f.methodSelect = false ∧ f.auth = false)
    (hsocks : m = .https ∨ m = .cipher ∨ m = .http2 → f.socks = false) :
    Kept m { s with flags := f } :=
  ⟨hs.method, hs.stream, hs.adapter, hhttps, hselect, hsocks⟩

lemma Kept.asked (hs : Kept m s) (h : s'.core = { s.core with request := s'.request }) :
    Kept m s' := by
  have hmethod : s'.method = s.method := congrArg Core.method h
  have hunused : s'.core.unused = s.core.unused := by rw [h]
  exact hs.of_same hmethod (congrArg Core.flags h) (congrArg Core.adapter h)
    (congrArg Core.channels h) (streamState_eq hmethod hunused)

lemma Kept.flow (hs : Kept m s) (h : Flow env s s') : Kept m s' := by
  cases h with
  | quiet h _ _ =>
    have hmethod : s'.method = s.method := congrArg Core.method h
    exact hs.of_same hmethod (congrArg Core.flags h) (congrArg Core.adapter h)
      (congrArg Core.channels h) (streamState_eq hmethod (congrArg Core.unused h))
  | frame hhttp2 h _ =>
    exact hs.of_same (congrArg Core.method h) (congrArg Core.flags h) (congrArg Core.adapter h)
      (congrArg Core.channels h) fun hm => absurd hhttp2 hm
  | reopened _ h _ => exact hs.asked h
  | put _ _ h =>
    obtain ⟨padding, dataFrame, encoder, up, app, rfl, -, hsame⟩ := put_eq_some h
    refine hs.of_same rfl rfl rfl rfl fun hm => ?_
    obtain ⟨rfl, rfl⟩ := hsame hm
    rfl
  | wroteDown _ | pend _ | wroteUp _ _ => exact { hs with }

lemma Kept.flows (hs : Kept m s) (h : Flows env s s') : Kept m s' :=
  h.keeps (fun _ _ hs hflow => hs.flow hflow) hs

lemma Kept.openChannel (hs : Kept m s) {http11 : Bool}
    (hmethod : http11 = true → s.method = .https ∨ s.method = .http2) :
    Kept m (s.openChannel http11) where
  method := by
    unfold Connection.openChannel
    dsimp only
    split_ifs with hfalls
    · rw [Bool.and_eq_true] at hfalls
      rcases hs.method with hm | ⟨hm, -⟩
      · rcases hmethod hfalls.1 with hhttps | hhttp2
        · exact .inl (hhttps.symm.trans hm)
        · exact .inr ⟨hm.symm.trans hhttp2, rfl⟩
      · exact .inr ⟨hm, rfl⟩
    · exact hs.method
  stream hm := by
    have hne : s.method ≠ .http2 := hs.method_eq hm ▸ hm
    rw [← hs.stream hm]
    simp [Connection.openChannel, Connection.streamState, hne]
  adapter k hk := by
    unfold Connection.openChannel at hk ⊢
    dsimp only at hk ⊢
    split_ifs at hk with hnew
    · simp only [Bool.and_eq_true, beq_iff_eq, Bool.not_eq_true'] at hnew
      cases hk
      simp [hnew.1, hnew.2]
    · obtain ⟨hhttp2, hle⟩ := hs.adapter k hk
      simp [hk, hhttp2, Nat.le_succ_of_le hle]
  https := hs.https
  select := hs.select
  socks := hs.socks

lemma Kept.setSocks (hs : Kept m s)
    (hm : s.method = .socks4 ∨ s.method = .socks4a ∨ s.method = .socks5) (up : Pipe) :
    Kept m { s with up, flags := { s.flags with socks := true } } := by
  have hsame : Kept m { s with up } := { hs with }
  refine hsame.setFlags hs.https hs.select fun hno => ?_
  rcases hs.method with h | ⟨-, h⟩
  · rw [h] at hm
    rcases hno with rfl | rfl | rfl <;> simp at hm
  · simp [h] at hm

lemma Kept.socks5 (hs : Kept m s) (hm : s.method = .socks5) {methodSelect auth socks : Bool}
    {up : Pipe} :
    Kept m { s with up, flags := { s.flags with methodSelect, auth, socks } } := by
  have hconfigured : m = .socks5 := by
    rcases hs.method with h | ⟨-, h⟩
    · exact h.symm.trans hm
    · exact absurd (h.symm.trans hm) (by decide)
  subst hconfigured
  have hsame : Kept .socks5 { s with up } := { hs with }
  exact hsame.setFlags hs.https (fun hne => absurd rfl hne) (by simp)

lemma Kept.greetAgain (env : Environment) (hs : Kept m s) (hmethod : s.method = .http2)
    {settings frames : List Frame} (h : s.greetAgain settings frames = some s') : Kept m s' := by
  obtain ⟨s₁, hsettings, h⟩ := Option.bind_eq_some_iff.mp h
  have hflows : Flows env s s₁ := (drifts_sendIfNotProcessing hsettings).flows
  have hhttp2 : s₁.method = .http2 := hflows.method.trans hmethod
  have hframe : Kept m { s₁ with dataFrame := some ⟨[], false⟩ } :=
    (hs.flows hflows).of_same rfl rfl rfl rfl fun hm => absurd hhttp2 hm
  have hsent : Flows env _ s' := (drifts_sendIfNotProcessing h).flows
  exact hframe.flows hsent

lemma Kept.greet (hs : Kept m s) {settings frames : List Frame} {lost : List DownTurn}
    (h : s.greet env settings frames lost = some s') : Kept m s' := by
  unfold Connection.greet at h
  split at h
  · next hmethod =>
    have hnew : Kept m { s with
        padding := { s.padding with supportInFact := env.paddingSupport }, dataFrame := none } :=
      hs.of_same rfl rfl rfl rfl fun hm => absurd hmethod hm
    exact hnew.greetAgain env hmethod h
  · cases h
    exact { hs with }
  · next hmethod =>
    unfold Connection.writeUpstreamSocks4Request at h
    split at h
    · cases h
    · cases h
      have hflows : Flows env s s.onDisconnect := (drifts_onDisconnect s).flows
      exact hs.flows hflows
    · cases h
      exact hs.setSocks (Or.inl hmethod) _
  · next hmethod =>
    cases h
    exact hs.setSocks (Or.inr (Or.inl hmethod)) _
  · next hmethod =>
    cases h
    exact hs.socks5 hmethod
  obtain ⟨⟨encoder, ok, up⟩, -, h⟩ := Option.bind_eq_some_iff.mp h
  have hnew : Kept m { s with encoder, decoder := env.decoder, up } :=
    { hs with }
  dsimp only at h
  split_ifs at h
  · cases h
    exact hnew
  · have hflows : Flows env _ s' := (drifts_disconnected h).flows
    exact hnew.flows hflows

lemma Kept.answered (hs : Kept m s) (hf : Answered s f) :
    Kept m { s with flags := f } := by
  cases hf with
  | https hmethod =>
    refine hs.setFlags (fun hhttps hhttp2 => ?_) hs.select hs.socks
    exact absurd ((hs.method_eq hhttp2).symm.trans hmethod) hhttps
  | methodSelect _ => exact hs.setFlags hs.https (fun hm => ⟨rfl, (hs.select hm).2⟩) hs.socks
  | auth _ => exact hs.setFlags hs.https (fun hm => ⟨(hs.select hm).1, rfl⟩) hs.socks
  | socks _ => exact hs.setFlags hs.https hs.select fun _ => rfl

lemma Kept.socks5_of_select (hs : Kept m s)
    (h : s.flags.methodSelect = true ∨ s.flags.auth = true) : s.method = .socks5 := by
  by_cases hm : m = .socks5
  · exact (hs.method_eq (by simp [hm])).trans hm
  · obtain ⟨hselect, hauth⟩ := hs.select hm
    simp [hselect, hauth] at h

lemma Kept.move (hs : Kept m s) (h : Move env s s') : Kept m s' := by
  cases h with
  | flow h => exact hs.flow h
  | asked h _ => exact hs.asked h
  | begun | pushDown _ | read _ | unpend => exact { hs with }
  | granted f hf =>
    rcases hf with ⟨hmethod, rfl⟩ | ⟨hflag, rfl⟩
    · exact hs.answered (.https hmethod)
    · exact hs.answered (.socks hflag)
  | refused f hf => exact { hs.answered hf with }
  | selectedAuth hflag _ _ => exact hs.socks5 (hs.socks5_of_select (Or.inl hflag))
  | selected hflag _ _ _ => exact hs.socks5 (hs.socks5_of_select (Or.inl hflag))
  | authenticated hflag _ => exact hs.socks5 (hs.socks5_of_select (Or.inr hflag))
  | greeted _ hmethod h => exact (hs.openChannel hmethod).greet h
  | greetedAgain _ hadapter hmethod h =>
    obtain ⟨k, hk⟩ := Option.isSome_iff_exists.mp hadapter
    refine (hs.openChannel fun _ => hmethod).greetAgain env ?_ h
    simp [Connection.openChannel, hk, (hs.adapter k hk).1]

lemma kept_run {es : List Event} (hrun : Run.exec (step env) (start env m) es = some s) :
    Kept m s :=
  run_keeps (fun _ _ hs hmove => hs.move hmove) (kept_start env m) hrun

/-! ## The state that is found -/

lemma createsAdapter_iff {c : Connect} :
    s.createsAdapter c = true ↔ s.method = .http2 ∧ s.speaksHttp11 c = false := by
  simp [Connection.createsAdapter]

lemma flags_eq_initial_iff :
    f = .initial ↔ f.https = true ∧ f.methodSelect = false ∧ f.auth = false ∧ f.socks = false := by
  obtain ⟨https, methodSelect, auth, socks⟩ := f
  simp [Flags.initial]

lemma padding_eq_new_iff {p : PaddingState} {supported : Bool} :
    p = .new supported ↔ p.supportInFact = supported ∧ p.numPaddingSend = 0 ∧
      p.numPaddingRecv = 0 ∧ p.inMiddleBuf = none := by
  obtain ⟨inFact, send, recv, buf⟩ := p
  simp [PaddingState.new]

lemma Kept.fresh_iff_flags (hs : Kept m s) (hm : m ≠ .http2) (c : Connect) :
    Fresh env (s.created env c) ↔ s.flags = .initial := by
  refine ⟨fun h => h.flags, fun hflags => ?_⟩
  have hmethod : s.method ≠ .http2 := hs.method_eq hm ▸ hm
  have hcreates : s.createsAdapter c = false := by simp [Connection.createsAdapter, hmethod]
  have hstream := hs.stream hm
  have hpadding : s.padding = .new false := congrArg StreamState.padding hstream
  have hadapter : s.adapter = none := congrArg StreamState.adapter hstream
  have hopened : (s.openChannel (s.speaksHttp11 c)).method ≠ .http2 := by
    unfold Connection.openChannel
    dsimp only
    split_ifs
    · decide
    · exact hmethod
  constructor
  · exact hflags
  · simp [Connection.created, hcreates, hpadding, PaddingState.new]
  · exact congrArg StreamState.streamRecvEof hstream
  · refine Eq.trans ?_ (if_neg hopened).symm
    simp [Connection.created, Connection.openChannel, hmethod, hadapter]
  · simp only [Connection.created, hcreates]
    exact congrArg StreamState.dataFrame hstream
  · intro hcipher
    exact ⟨if_pos hcipher, if_pos hcipher⟩

lemma Kept.adapter_iff (hs : Kept .http2 s) (env : Environment) (c : Connect) :
    (s.created env c).adapter =
        (if (s.created env c).method = .http2 then some (s.created env c).channels else none) ↔
      (s.createsAdapter c = false → s.adapter = none) := by
  by_cases hcreates : s.createsAdapter c
  · obtain ⟨hmethod, hspeaks⟩ := createsAdapter_iff.mp hcreates
    simp [Connection.created, Connection.openChannel, hmethod, hspeaks, hcreates]
  have hsame : (s.created env c).adapter = s.adapter := by
    simp only [Connection.created, Connection.openChannel]
    exact if_neg (by simpa [Connection.createsAdapter] using hcreates)
  rw [hsame]
  rcases hadapter : s.adapter with _ | k
  · have hhttps : (s.created env c).method = .https := by
      simp only [Connection.created, Connection.openChannel, hadapter]
      split_ifs with hspeaks
      · rfl
      · refine (hs.method.resolve_left fun hmethod => hcreates ?_).2
        simpa [createsAdapter_iff, hmethod] using hspeaks
    simp [hhttps]
  obtain ⟨hmethod, hle⟩ := hs.adapter k hadapter
  have hhttp2 : (s.created env c).method = .http2 := by
    simp [Connection.created, Connection.openChannel, hadapter, hmethod]
  have hne : k ≠ s.channels + 1 := by omega
  rw [if_pos hhttp2]
  simp [Connection.created, Connection.openChannel, hcreates, hne]

lemma Kept.fresh_iff_http2 (hs : Kept .http2 s) (c : Connect) :
    Fresh env (s.created env c) ↔ Clean .http2 s c := by
  obtain ⟨hselect, hauth⟩ := hs.select (by decide)
  have hsocks := hs.socks (Or.inr (Or.inr rfl))
  have hflags : s.flags = .initial ↔ s.flags.https = true := by
    simp [flags_eq_initial_iff, hselect, hauth, hsocks]
  have hpadding : (s.created env c).padding = .new (s.created env c).padding.supportInFact ↔
      s.padding.numPaddingSend = 0 ∧ s.padding.numPaddingRecv = 0 ∧
        s.padding.inMiddleBuf = none := by
    rw [padding_eq_new_iff]
    unfold Connection.created
    dsimp only
    split_ifs <;> simp
  have hframe : (s.created env c).dataFrame = none ↔
      (s.createsAdapter c = false → s.dataFrame = none) := by
    cases hcreates : s.createsAdapter c <;> simp [Connection.created, hcreates]
  constructor
  · intro h
    obtain ⟨hsend, hrecv, hbuf⟩ := hpadding.mp h.padding
    exact ⟨hsend, hrecv, hbuf, h.streamRecvEof, hflags.mp h.flags, fun hcreates =>
      ⟨(hs.adapter_iff env c).mp h.adapter hcreates, hframe.mp h.dataFrame hcreates⟩⟩
  · rintro ⟨hsend, hrecv, hbuf, heof, hhttps, hclean⟩
    refine ⟨hflags.mpr hhttps, hpadding.mpr ⟨hsend, hrecv, hbuf⟩, heof,
      (hs.adapter_iff env c).mpr fun hcreates => (hclean hcreates).1,
      hframe.mpr fun hcreates => (hclean hcreates).2, fun hcipher => ?_⟩
    exact ⟨if_pos hcipher, if_pos hcipher⟩

def sampleConnect (http11 : Bool) : Connect :=
  let write : UpTurn := ⟨.wouldBlock, .asIs, ⟨0, [], []⟩, .bytes 100, false⟩
  ⟨http11, [], [.control [1]], [], [⟨0, [.data [2] 1000], []⟩], [], ⟨[], none, []⟩, [write, write]⟩

/-- A run of a client with keep-alive: one channel, `events` on it, and a request for another
host. -/
def sampleSwitch (m : Method) (events : List Event) : Option Connection :=
  let env : Environment := .sample true [] []
  let request : Ss.Request := ⟨fun i => [1, 10, 0, 0, 1, 0, 80].getD i 0⟩
  let other : Http := .reopened (some request) [71] (by decide)
  Run.exec (step env) (start env m) ([.handshake (some request) .nothing [7] [] [],
    .connected (sampleConnect false)] ++ events ++
    [.readable [⟨.data [71], other, ⟨0, [], []⟩, .wouldBlock, false⟩]])

end Yass.Cli.Relay
