import Yass.Cli.RelayMoves
import Yass.Net.PaddedStream
import Yass.Server.RelayMoves

/-!
# Padding between a client and a server

* `Tunnel` — a client and a server, and the two directions of a stream between them. The client
  says in its request whether it pads, and the server answers in its response; until then the
  client pads as if the server did.

Source: `cli/cli_connection.cpp`, `server/server_connection.cpp`.
-/

namespace Yass

open Yass.Net
open Option (bind_eq_bind bind_eq_some_iff bind_some)

/-! ## One direction -/

lemma Server.Relay.onDataForStream_pieces (env : Environment) (s : Connection)
    (pieces : List (List UInt8)) :
    pieces.foldlM (Connection.onDataForStream env) s =
      (s.padding.receiveAll env.cipher.junk pieces).map fun (padding, bufs) =>
        { s with padding, up := bufs.foldl Pipe.push s.up } := by
  induction pieces generalizing s with
  | nil => rfl
  | cons piece pieces ih =>
    rw [List.foldlM_cons, PaddingState.receiveAll, Connection.onDataForStream]
    cases s.padding.receive env.cipher.junk piece with
    | none => rfl
    | some r =>
      obtain ⟨p, bufs⟩ := r
      simp only [bind_eq_bind, bind_some, ih]
      cases p.receiveAll env.cipher.junk pieces <;> simp

lemma Cli.Relay.onDataForStream_pieces (env : Environment) (s : Connection)
    (pieces : List (List UInt8)) :
    pieces.foldlM (Connection.onDataForStream env) s =
      (s.padding.receiveAll env.cipher.junk pieces).map fun (padding, bufs) =>
        { s with padding, down := bufs.foldl Pipe.push s.down } := by
  induction pieces generalizing s with
  | nil => rfl
  | cons piece pieces ih =>
    rw [List.foldlM_cons, PaddingState.receiveAll, Connection.onDataForStream]
    cases s.padding.receive env.cipher.junk piece with
    | none => rfl
    | some r =>
      obtain ⟨p, bufs⟩ := r
      simp only [bind_eq_bind, bind_some, ih]
      cases p.receiveAll env.cipher.junk pieces <;> simp

structure Padded (p : PaddingState) : Prop where
  supportInFact : p.supportInFact = true
  numPaddingSend : p.numPaddingSend = 0
  numPaddingRecv : p.numPaddingRecv = 0
  inMiddleBuf : p.inMiddleBuf = none

/-- **Padding round trip.** A sender that pads its first chunks, with any padding sizes, and either
copy of the receiver, which gets any beginning of the stream in any pieces: the receiver queues the
chunks, all of them in the end, and its count is full exactly when the last padded chunk is
complete. -/
theorem padded_stream_round_trip (junk : ℕ → UInt8) {sender : PaddingState}
    (hsender : Padded sender) {chunks : List (GrowableIOBuffer × ℕ)}
    (hsize : ∀ c ∈ chunks, 1 ≤ c.1.size ∧ c.1.size ≤ 65535 ∧ c.2 ≤ kMaxPaddingSize) :
    ∃ sender' bufs, sender.sendAll junk chunks = some (sender', bufs) ∧
      ∀ pieces : List (List UInt8),
        let sent := bufs.map GrowableIOBuffer.readable
        let payload := (chunks.map fun c => c.1.readable).flatten
        pieces.flatten <+: sent.flatten →
          (∀ (env : Server.Relay.Environment) (s : Server.Relay.Connection), Padded s.padding →
            ∃ s' out, pieces.foldlM (Server.Relay.Connection.onDataForStream env) s = some s' ∧
              s'.up.pending = s.up.pending ++ out ∧
              Unpads sent payload pieces.flatten s'.padding.numPaddingRecv out) ∧
          (∀ (env : Cli.Relay.Environment) (s : Cli.Relay.Connection), Padded s.padding →
            ∃ s' out, pieces.foldlM (Cli.Relay.Connection.onDataForStream env) s = some s' ∧
              s'.down.pending = s.down.pending ++ out ∧
              Unpads sent payload pieces.flatten s'.padding.numPaddingRecv out) := by
  have hfit : ∀ c ∈ chunks, c.1.size < 65536 := by
    intro c hc
    have := (hsize c hc).2.1
    omega
  obtain ⟨sender', bufs, hsend, hsame, hsending⟩ :=
    (PaddingState.sending_new hsender.numPaddingSend).sendAll junk hfit
  have hsent : bufs.map GrowableIOBuffer.readable = wires 0 (sentChunks chunks) := by
    have := hsending.sent_eq
    rw [hsame.supportInFact, hsender.supportInFact] at this
    simpa using this
  have hok : ∀ c ∈ sentChunks chunks, c.Ok := by
    intro c hc
    obtain ⟨c, hmem, rfl⟩ := List.mem_map.mp hc
    have := hsize c hmem
    rwa [← GrowableIOBuffer.length_readable] at this
  refine ⟨sender', bufs, hsend, ?_⟩
  intro pieces sent payload hpre
  rw [show sent = _ from hsent] at hpre ⊢
  rw [show payload = _ from (sentPayload_sentChunks chunks).symm]
  -- what either receiver's state has become
  have hreceiver : ∀ (junk : ℕ → UInt8) (p : PaddingState), Padded p →
      ∃ p' bufs, p.receiveAll junk pieces = some (p', bufs) ∧
        Unpads (wires 0 (sentChunks chunks)) (sentPayload (sentChunks chunks)) pieces.flatten
          p'.numPaddingRecv (bufs.map GrowableIOBuffer.readable).flatten := by
    intro junk p hp
    obtain ⟨p', bufs, hrecv, hsame, hreceiving⟩ :=
      (PaddingState.receiving_new hp.numPaddingRecv hp.inMiddleBuf).receiveAll junk pieces
    have hsupport := hsame.supportInFact.trans hp.supportInFact
    exact ⟨p', bufs, hrecv, hreceiving.unpads hok hsupport hpre⟩
  constructor
  · intro env s hs
    obtain ⟨p', bufs, hrecv, hunpads⟩ := hreceiver env.cipher.junk s.padding hs
    refine ⟨{ s with padding := p', up := bufs.foldl Pipe.push s.up }, _, ?_,
      Pipe.pending_pushAll s.up bufs, hunpads⟩
    rw [Server.Relay.onDataForStream_pieces, hrecv]
    rfl
  intro env s hs
  obtain ⟨p', bufs, hrecv, hunpads⟩ := hreceiver env.cipher.junk s.padding hs
  refine ⟨{ s with padding := p', down := bufs.foldl Pipe.push s.down }, _, ?_,
    Pipe.pending_pushAll s.down bufs, hunpads⟩
  rw [Cli.Relay.onDataForStream_pieces, hrecv]
  rfl

def sampleChunks : List (GrowableIOBuffer × ℕ) :=
  [(.copyBuffer [65, 66], 1), (.copyBuffer [67], 0)]

theorem padded_stream_round_trip_sample :
    Padded (.new true) ∧
      (∀ c ∈ sampleChunks, 1 ≤ c.1.size ∧ c.1.size ≤ 65535 ∧ c.2 ≤ kMaxPaddingSize) ∧
      ∃ sender' bufs, (PaddingState.new true).sendAll (fun _ => 0) sampleChunks =
        some (sender', bufs) := by
  have hsender : Padded (.new true) := ⟨rfl, rfl, rfl, rfl⟩
  have hsize : ∀ c ∈ sampleChunks, 1 ≤ c.1.size ∧ c.1.size ≤ 65535 ∧ c.2 ≤ kMaxPaddingSize := by
    decide
  obtain ⟨sender', bufs, hsend, -⟩ := padded_stream_round_trip (fun _ => 0) hsender hsize
  exact ⟨hsender, hsize, sender', bufs, hsend⟩

/-! ## The tunnel -/

/-- One direction of the stream between the two ends: the header block, if it is on its way, and
the payload behind it. -/
structure Transit where
  headers : Option Bool
  data : List UInt8
  deriving DecidableEq

structure Tunnel where
  client : Cli.Relay.Connection
  server : Server.Relay.Connection
  toServer : Transit
  toClient : Transit
  responded : Bool
  answered : Bool
  app : List UInt8
  target : List UInt8
  /-- What the application has been given on earlier channels. -/
  before : List UInt8

/-- What can happen. A connection's scripts are those of `Cli/Relay` and `Server/Relay`. -/
inductive TunnelEvent where
  /-- `CliConnection::connected`: a channel to a new connection of the server, and the request. -/
  | connect (settings frames : List Frame) (lost : List Cli.Relay.DownTurn)
  | app (buf : GrowableIOBuffer) (paddingSize : ℕ)
  | upload (n : ℕ)
  /-- `ServerConnection::connected`: the server submits its response. -/
  | respond
  | target (t : Server.Relay.Turn) (raw : List UInt8)
  | download (n : ℕ)

namespace Tunnel

def lastChunk (src : Option DataFrameSource) : List UInt8 :=
  (src.bind fun src => src.chunks.getLast?).elim [] GrowableIOBuffer.readable

/-- `connected`. The request has a `padding` field if the client pads. -/
def connect (cenv : Cli.Relay.Environment) (senv : Server.Relay.Environment) (t : Tunnel)
    (settings frames : List Frame) (lost : List Cli.Relay.DownTurn) : Option Tunnel := do
  let client ← t.client.greet cenv settings frames lost
  some {
    client
    server := Server.Relay.start senv .http2 t.server.encoder t.server.decoder
    toServer := ⟨some client.padding.supportInFact, []⟩
    toClient := ⟨none, []⟩
    responded := false
    answered := false
    app := []
    target := []
    before := client.down.queued }

def upload (senv : Server.Relay.Environment) (t : Tunnel) (n : ℕ) : Option Tunnel :=
  match t.toServer.headers with
  | some padding => do
    let server ← t.server.visit senv (.endHeaders 1 padding)
    some { t with server, toServer := { t.toServer with headers := none } }
  | none => do
    let server ← t.server.visit senv (.data 1 (t.toServer.data.take n))
    some { t with server, toServer := { t.toServer with data := t.toServer.data.drop n } }

def download (cenv : Cli.Relay.Environment) (t : Tunnel) (n : ℕ) : Option Tunnel :=
  match t.toClient.headers with
  | some padding => do
    let client ← t.client.visit cenv [] (.endHeaders padding)
    some { t with client, answered := true, toClient := { t.toClient with headers := none } }
  | none => do
    let client ← t.client.visit cenv [] (.data (t.toClient.data.take n))
    some { t with client, toClient := { t.toClient with data := t.toClient.data.drop n } }

def send (cenv : Cli.Relay.Environment) (t : Tunnel) (buf : GrowableIOBuffer) (paddingSize : ℕ) :
    Option Tunnel := do
  match ← t.client.put cenv paddingSize buf with
  | (client, .queued) =>
    some { t with
      client
      app := t.app ++ buf.readable
      toServer := { t.toServer with data := t.toServer.data ++ lastChunk client.dataFrame } }
  | _ => some t

def reply (senv : Server.Relay.Environment) (t : Tunnel) (turn : Server.Relay.Turn)
    (raw : List UInt8) : Option Tunnel := do
  match ← t.server.passOn senv turn raw with
  | (server, true) =>
    some { t with
      server
      target := t.target ++ raw
      toClient := { t.toClient with data := t.toClient.data ++ lastChunk server.dataFrame } }
  | _ => some t

/-- A step. What is not on its way does not arrive, and the target is read behind the response. -/
def step (cenv : Cli.Relay.Environment) (senv : Server.Relay.Environment) (t : Tunnel) :
    TunnelEvent → Option Tunnel
  | .connect settings frames lost => t.connect cenv senv settings frames lost
  | .app buf paddingSize => t.send cenv buf paddingSize
  | .upload n => if t.toServer = ⟨none, []⟩ then some t else t.upload senv n
  | .respond =>
    some (if t.server.dataFrame.isSome && !t.responded then
      { t with responded := true, toClient := ⟨some t.server.padding.supportInFact, []⟩ }
    else t)
  | .target turn raw => if t.responded then t.reply senv turn raw else some t
  | .download n => if t.toClient = ⟨none, []⟩ then some t else t.download cenv n

def start (cenv : Cli.Relay.Environment) (senv : Server.Relay.Environment)
    (encoder decoder : Cipher) : Tunnel where
  client := Cli.Relay.start cenv .http2
  server := Server.Relay.start senv .http2 encoder decoder
  toServer := ⟨none, []⟩
  toClient := ⟨none, []⟩
  responded := false
  answered := false
  app := []
  target := []
  before := []

/-- The two ends agree: what is forwarded and what is returned is what was sent, all of it once
nothing is on its way, and as many chunks are unpadded as were padded. -/
structure Agreed (t : Tunnel) : Prop where
  forwarded : t.server.up.queued <+: t.app
  returned : t.client.down.queued <+: t.before ++ t.target
  uploaded : t.toServer = ⟨none, []⟩ → t.server.up.queued = t.app ∧
    t.server.padding.numPaddingRecv = t.client.padding.numPaddingSend
  downloaded : t.toClient = ⟨none, []⟩ → t.client.down.queued = t.before ++ t.target ∧
    t.client.padding.numPaddingRecv = t.server.padding.numPaddingSend

/-- What keeps the two ends together: a channel is opened before anything was padded, and a client
that pads waits for the response of a server that does not. -/
def Meets (cenv : Cli.Relay.Environment) (senv : Server.Relay.Environment) (t : Tunnel) :
    TunnelEvent → Prop
  | .connect _ _ _ => t.client.padding.numPaddingSend = 0 ∧ t.client.padding.numPaddingRecv = 0 ∧
      t.client.padding.inMiddleBuf = none
  | .app buf paddingSize => (1 ≤ buf.size ∧ buf.size ≤ 65535 ∧ paddingSize ≤ kMaxPaddingSize) ∧
      (t.answered = true ∨ cenv.paddingSupport = false ∨ senv.paddingSupport = true)
  | .target turn raw => raw ≠ [] ∧ turn.padding ≤ kMaxPaddingSize
  | .upload _ | .respond | .download _ => True

instance (cenv : Cli.Relay.Environment) (senv : Server.Relay.Environment) (t : Tunnel) :
    (e : TunnelEvent) → Decidable (Meets cenv senv t e)
  | .connect _ _ _ => inferInstanceAs (Decidable (_ ∧ _ ∧ _))
  | .app _ _ => inferInstanceAs (Decidable ((_ ∧ _ ∧ _) ∧ (_ ∨ _ ∨ _)))
  | .target _ _ => inferInstanceAs (Decidable (_ ∧ _))
  | .upload _ | .respond | .download _ => isTrue trivial

/-! ### The invariant -/

section Invariant

variable {cenv : Cli.Relay.Environment} {senv : Server.Relay.Environment} {t t' : Tunnel}

/-- A tunnel with a channel. The padding field of the request is `cenv.paddingSupport`; both ends
use padding in the end if it is supported by both. -/
structure Linked (cenv : Cli.Relay.Environment) (senv : Server.Relay.Environment) (t : Tunnel) :
    Prop where
  clientMethod : t.client.method = .http2
  serverMethod : t.server.method = .http2
  /-- What the client goes by before and after the response. -/
  clientSupport : t.client.padding.supportInFact =
    if t.answered then senv.paddingSupport && cenv.paddingSupport else cenv.paddingSupport
  /-- What the server goes by before and after the request. -/
  serverSupport : t.server.padding.supportInFact =
    if t.toServer.headers.isSome then senv.paddingSupport
    else senv.paddingSupport && cenv.paddingSupport
  request : ∀ field ∈ t.toServer.headers, field = cenv.paddingSupport ∧ t.server.dataFrame = none
  response : ∀ field ∈ t.toClient.headers,
    field = (senv.paddingSupport && cenv.paddingSupport) ∧ t.answered = false
  responded : t.responded = true → t.toServer.headers = none
  unanswered : t.answered = false → t.responded = true → t.toClient.headers.isSome = true
  silent : t.responded = false → t.answered = false ∧ t.toClient = ⟨none, []⟩
  up : ∃ chunks received,
    t.client.padding.Carries t.server.padding chunks received t.toServer.data t.server.up.queued ∧
    t.app = sentPayload chunks ∧ (t.toServer.headers.isSome = true → received = []) ∧
    (chunks ≠ [] → t.answered = true ∨ cenv.paddingSupport = false ∨ senv.paddingSupport = true)
  down : ∃ chunks received out,
    t.server.padding.Carries t.client.padding chunks received t.toClient.data out ∧
    t.target = sentPayload chunks ∧ t.client.down.queued = t.before ++ out ∧
    (t.answered = false → received = []) ∧ (t.responded = false → chunks = [])

lemma Linked.same_up (h : Linked cenv senv t) (hheaders : t.toServer.headers = none)
    (hwait : t.answered = true ∨ cenv.paddingSupport = false ∨ senv.paddingSupport = true) :
    t.server.padding.supportInFact = t.client.padding.supportInFact := by
  rw [h.serverSupport, h.clientSupport, hheaders]
  rcases hwait with hwait | hwait | hwait <;> simp [hwait]

lemma Linked.agreed (h : Linked cenv senv t) : Agreed t := by
  obtain ⟨chunks, received, hup, happ, hearly, hwait⟩ := h.up
  obtain ⟨chunks', received', out, hdown, htarget, hout, hearly', hsilent⟩ := h.down
  have hsameUp : received ≠ [] →
      t.server.padding.supportInFact = t.client.padding.supportInFact := by
    intro hne
    have hheaders : t.toServer.headers = none := by
      by_contra hsome
      exact hne (hearly (Option.isSome_iff_ne_none.mpr hsome))
    apply h.same_up hheaders
    apply hwait
    rintro rfl
    exact hne hup.received_eq_nil.1
  have hsameDown : received' ≠ [] →
      t.client.padding.supportInFact = t.server.padding.supportInFact := by
    intro hne
    have hanswered : t.answered = true := by
      by_contra hno
      exact hne (hearly' (Bool.eq_false_iff.mpr hno))
    have hresponded : t.responded = true := by
      by_contra hno
      have := (h.silent (Bool.eq_false_iff.mpr hno)).1
      rw [hanswered] at this
      cases this
    exact (h.same_up (h.responded hresponded) (Or.inl hanswered)).symm
  constructor
  · rw [happ]
    exact hup.isPrefix hsameUp
  · rw [hout, htarget]
    exact (List.prefix_append_right_inj _).mpr (hdown.isPrefix hsameDown)
  · intro hnone
    rw [hnone] at hup
    rw [happ]
    apply hup.drained
    intro hne
    apply h.same_up _ (hwait hne)
    rw [hnone]
  intro hnone
  rw [hnone] at hdown
  rw [hout, htarget, List.append_cancel_left_eq]
  apply hdown.drained
  intro hne
  have hresponded : t.responded = true := by
    by_contra hno
    exact hne (hsilent (Bool.eq_false_iff.mpr hno))
  have hanswered : t.answered = true := by
    by_contra hno
    have := h.unanswered (Bool.eq_false_iff.mpr hno) hresponded
    rw [hnone] at this
    cases this
  exact (h.same_up (h.responded hresponded) (Or.inl hanswered)).symm

/-! ### Steps -/

variable {s s' : Cli.Relay.Connection} {frames : List Frame}

lemma sendIfNotProcessing_keeps (h : s.sendIfNotProcessing frames = some s') :
    s'.padding = s.padding ∧ s'.down = s.down ∧ s'.method = s.method := by
  unfold Cli.Relay.Connection.sendIfNotProcessing at h
  split_ifs at h
  · have hframe : ∀ s₁ frame s₂,
        (s₁.padding = s.padding ∧ s₁.down = s.down ∧ s₁.method = s.method) →
        Cli.Relay.Connection.sendFrame s₁ frame = some s₂ →
        s₂.padding = s.padding ∧ s₂.down = s.down ∧ s₂.method = s.method := by
      intro s₁ frame s₂ hs₁ hsend
      rcases Cli.Relay.sendFrame_eq_some hsend with rfl | ⟨bytes, dataFrame, rfl⟩
      · exact hs₁
      · exact hs₁
    exact Run.exec_keeps hframe ⟨rfl, rfl, rfl⟩ h
  · cases h
    exact ⟨rfl, rfl, rfl⟩

lemma greet_http2 {settings : List Frame}
    {lost : List Cli.Relay.DownTurn} (hmethod : s.method = .http2)
    (h : s.greet cenv settings frames lost = some s') :
    s'.padding = { s.padding with supportInFact := cenv.paddingSupport } ∧ s'.down = s.down ∧
      s'.method = .http2 := by
  simp only [Cli.Relay.Connection.greet, hmethod] at h
  obtain ⟨s₁, hsettings, hframes⟩ := bind_eq_some_iff.mp h
  obtain ⟨hpadding, hdown, hmethod₁⟩ := sendIfNotProcessing_keeps hsettings
  obtain ⟨hpadding', hdown', hmethod'⟩ := sendIfNotProcessing_keeps hframes
  exact ⟨hpadding'.trans hpadding, hdown'.trans hdown, hmethod'.trans hmethod₁⟩

lemma linked_connect {settings : List Frame} {lost : List Cli.Relay.DownTurn}
    (hmethod : t.client.method = .http2)
    (hclean : t.client.padding.numPaddingSend = 0 ∧ t.client.padding.numPaddingRecv = 0 ∧
      t.client.padding.inMiddleBuf = none)
    (h : t.connect cenv senv settings frames lost = some t') : Linked cenv senv t' := by
  obtain ⟨client, hgreet, h⟩ := bind_eq_some_iff.mp h
  cases h
  obtain ⟨hpadding, -, hmethod'⟩ := greet_http2 hmethod hgreet
  obtain ⟨hsend, hrecv, hbuf⟩ := hclean
  have hsend' : client.padding.numPaddingSend = 0 := by rw [hpadding, ← hsend]
  have hrecv' : client.padding.numPaddingRecv = 0 := by rw [hpadding, ← hrecv]
  have hbuf' : client.padding.inMiddleBuf = none := by rw [hpadding, ← hbuf]
  have hsupport : client.padding.supportInFact = cenv.paddingSupport := by rw [hpadding]
  constructor
  · exact hmethod'
  · rfl
  · exact hsupport
  · rfl
  · rintro field ⟨⟩
    exact ⟨hsupport, rfl⟩
  · rintro field ⟨⟩
  · rintro ⟨⟩
  · rintro - ⟨⟩
  · exact fun _ => ⟨rfl, rfl⟩
  · exact ⟨[], [], PaddingState.carries_new hsend' rfl rfl, rfl, fun _ => rfl,
      fun h => absurd rfl h⟩
  · exact ⟨[], [], [], PaddingState.carries_new rfl hrecv' hbuf', rfl, (List.append_nil _).symm,
      fun _ => rfl, fun _ => rfl⟩

variable {n : ℕ}

lemma put_http2 {buf : GrowableIOBuffer}
    {r : Cli.Relay.Put} (hmethod : s.method = .http2) (h : s.put cenv n buf = some (s', r)) :
    (r = .gone ∧ s' = s) ∨ ∃ (src : DataFrameSource) (chunk : GrowableIOBuffer)
      (padding : PaddingState), r = .queued ∧
      s.padding.send cenv.cipher.junk buf n = some (padding, chunk) ∧
      s' = { s with
        padding
        dataFrame := some { src with chunks := src.chunks ++ [chunk] }
        app := s.app ++ buf.readable } := by
  simp only [Cli.Relay.Connection.put, hmethod] at h
  cases hsrc : s.dataFrame with
  | none =>
    rw [hsrc] at h
    cases h
    exact .inl ⟨rfl, rfl⟩
  | some src =>
    rw [hsrc] at h
    obtain ⟨⟨padding, chunk⟩, hsend, h⟩ := bind_eq_some_iff.mp h
    cases h
    refine .inr ⟨src, chunk, padding, rfl, hsend, ?_⟩
    rw [hmethod]

lemma lastChunk_append (src : DataFrameSource) (chunk : GrowableIOBuffer) :
    lastChunk (some { src with chunks := src.chunks ++ [chunk] }) = chunk.readable := by
  simp [lastChunk]

lemma Linked.send (hs : Linked cenv senv t) {buf : GrowableIOBuffer}
    (hsize : 1 ≤ buf.size ∧ buf.size ≤ 65535 ∧ n ≤ kMaxPaddingSize)
    (hwait : t.answered = true ∨ cenv.paddingSupport = false ∨ senv.paddingSupport = true)
    (h : t.send cenv buf n = some t') : Linked cenv senv t' := by
  obtain ⟨⟨client, r⟩, hput, h⟩ := bind_eq_some_iff.mp h
  obtain ⟨chunks, received, hup, happ, hearly, -⟩ := hs.up
  obtain ⟨chunks', received', out, hdown, htarget, hout, hearly', hsilent⟩ := hs.down
  have hok : SentChunk.Ok (buf.readable, n) := by
    rwa [← GrowableIOBuffer.length_readable] at hsize
  rcases put_http2 hs.clientMethod hput with ⟨rfl, rfl⟩ | ⟨src, chunk, padding, rfl, hsend, rfl⟩
  · cases h
    exact hs
  · cases h
    obtain ⟨padding', chunk', hsend', hsame, hup'⟩ := hup.send cenv.cipher.junk hok
    rw [hsend] at hsend'
    cases hsend'
    rw [← lastChunk_append src chunk] at hup'
    refine { hs with
      clientSupport := hsame.supportInFact.trans hs.clientSupport
      up := ⟨_, received, hup', ?_, hearly, fun _ => hwait⟩
      down := ⟨chunks', received', out, hdown.same_receiver hsame,
        htarget, hout, hearly', hsilent⟩ }
    rw [happ]
    simp [sentPayload]

lemma Linked.upload_headers (hs : Linked cenv senv t) {field : Bool}
    (hheaders : t.toServer.headers = some field) {server : Server.Relay.Connection}
    (h : t.server.visit senv (.endHeaders 1 field) = some server) :
    Linked cenv senv { t with server, toServer := { t.toServer with headers := none } } := by
  obtain ⟨chunks, received, hup, happ, hearly, hwait⟩ := hs.up
  obtain ⟨chunks', received', out, hdown, htarget, hout, hearly', hsilent⟩ := hs.down
  have hresponded : t.responded = false := by
    by_contra hyes
    have := hs.responded (Bool.eq_true_of_not_eq_false hyes)
    rw [hheaders] at this
    cases this
  obtain rfl : received = [] := hearly (by rw [hheaders]; rfl)
  obtain rfl : chunks' = [] := hsilent hresponded
  obtain ⟨hfield, -⟩ := hs.request field hheaders
  have hsupport := hs.serverSupport
  rw [hheaders] at hsupport
  have hmethod := hs.serverMethod
  simp only [Server.Relay.Connection.visit, Server.Relay.Connection.onConnect,
    Server.Relay.Connection.record, hmethod, if_true] at h
  cases h
  have hagree : (t.server.padding.supportInFact && field) =
      (senv.paddingSupport && cenv.paddingSupport) := by
    rw [hsupport, hfield]
    rfl
  exact { hs with
    serverMethod := rfl
    serverSupport := hagree
    request := fun _ hnone => by cases hnone
    responded := fun _ => rfl
    up := ⟨chunks, [], hup.agree_receiver field, happ, fun _ => rfl, hwait⟩
    down := ⟨[], received', out, hdown.agree_sender fun hne => absurd rfl hne, htarget, hout,
      hearly', fun _ => rfl⟩ }

lemma Linked.upload_data (hs : Linked cenv senv t) (hheaders : t.toServer.headers = none)
    {server : Server.Relay.Connection}
    (h : t.server.visit senv (.data 1 (t.toServer.data.take n)) = some server) :
    Linked cenv senv
      { t with server, toServer := { t.toServer with data := t.toServer.data.drop n } } := by
  obtain ⟨chunks, received, hup, happ, hearly, hwait⟩ := hs.up
  obtain ⟨chunks', received', out, hdown, htarget, hout, hearly', hsilent⟩ := hs.down
  obtain ⟨padding, bufs, hrecv, hsame, hup'⟩ := hup.receive senv.cipher.junk n
  simp only [Server.Relay.Connection.visit, Server.Relay.Connection.onDataForStream, hrecv,
    bind_eq_bind, bind_some] at h
  cases h
  rw [← Pipe.queued_pushAll] at hup'
  refine { hs with
    serverSupport := hsame.supportInFact.trans hs.serverSupport
    up := ⟨chunks, _, hup', happ, fun hsome => ?_, hwait⟩
    down := ⟨chunks', received', out, hdown.same_sender hsame, htarget, hout, hearly', hsilent⟩ }
  rw [show t.toServer.headers = none from hheaders] at hsome
  cases hsome

lemma Linked.upload (hs : Linked cenv senv t) (h : t.upload senv n = some t') :
    Linked cenv senv t' := by
  unfold Tunnel.upload at h
  split at h
  · next field hheaders =>
    obtain ⟨server, hvisit, h⟩ := bind_eq_some_iff.mp h
    cases h
    exact hs.upload_headers hheaders hvisit
  · next hheaders =>
    obtain ⟨server, hvisit, h⟩ := bind_eq_some_iff.mp h
    cases h
    exact hs.upload_data hheaders hvisit

lemma Linked.download_headers (hs : Linked cenv senv t) {field : Bool}
    (hheaders : t.toClient.headers = some field) {client : Cli.Relay.Connection}
    (h : t.client.visit cenv [] (.endHeaders field) = some client) :
    Linked cenv senv
      { t with client, answered := true, toClient := { t.toClient with headers := none } } := by
  obtain ⟨chunks, received, hup, happ, hearly, hwait⟩ := hs.up
  obtain ⟨chunks', received', out, hdown, htarget, hout, hearly', hsilent⟩ := hs.down
  obtain ⟨hfield, hunanswered⟩ := hs.response field hheaders
  obtain rfl : received' = [] := hearly' hunanswered
  have hresponded : t.responded = true := by
    by_contra hno
    have := (hs.silent (Bool.eq_false_iff.mpr hno)).2
    rw [this] at hheaders
    cases hheaders
  have hsupport := hs.clientSupport
  rw [hunanswered] at hsupport
  have hagree : (t.client.padding.agree field).supportInFact =
      (senv.paddingSupport && cenv.paddingSupport) := by
    show (t.client.padding.supportInFact && field) = _
    rw [hsupport, hfield]
    cases senv.paddingSupport <;> cases cenv.paddingSupport <;> rfl
  cases h
  refine { hs with
    clientSupport := hagree
    response := fun _ hnone => by cases hnone
    unanswered := fun hno => by cases hno
    silent := fun hno => absurd (hresponded.symm.trans hno) Bool.noConfusion
    up := ⟨chunks, received, hup.agree_sender fun hne => ?_, happ, hearly, fun _ => Or.inl rfl⟩
    down := ⟨chunks', [], out, hdown.agree_receiver field, htarget, hout, fun _ => rfl, hsilent⟩ }
  rw [hagree, hsupport]
  rcases hwait hne with hanswered | hoff | hon
  · rw [hunanswered] at hanswered
    cases hanswered
  · simp [hoff]
  · simp [hon]

lemma Linked.download_data (hs : Linked cenv senv t) (hheaders : t.toClient.headers = none)
    (hsome : t.toClient ≠ ⟨none, []⟩) {client : Cli.Relay.Connection}
    (h : t.client.visit cenv [] (.data (t.toClient.data.take n)) = some client) :
    Linked cenv senv
      { t with client, toClient := { t.toClient with data := t.toClient.data.drop n } } := by
  obtain ⟨chunks, received, hup, happ, hearly, hwait⟩ := hs.up
  obtain ⟨chunks', received', out, hdown, htarget, hout, hearly', hsilent⟩ := hs.down
  obtain ⟨padding, bufs, hrecv, hsame, hdown'⟩ := hdown.receive cenv.cipher.junk n
  have hresponded : t.responded = true := by
    by_contra hno
    exact hsome (hs.silent (Bool.eq_false_iff.mpr hno)).2
  have hanswered : t.answered = true := by
    by_contra hno
    have := hs.unanswered (Bool.eq_false_iff.mpr hno) hresponded
    rw [hheaders] at this
    cases this
  simp only [Cli.Relay.Connection.visit, Cli.Relay.Connection.onDataForStream, hrecv,
    bind_eq_bind, bind_some] at h
  cases h
  refine { hs with
    clientSupport := hsame.supportInFact.trans hs.clientSupport
    silent := fun hno => absurd (hresponded.symm.trans hno) Bool.noConfusion
    up := ⟨chunks, received, hup.same_sender hsame, happ, hearly, hwait⟩
    down := ⟨chunks', _, _, hdown', htarget, ?_, fun hno => ?_, hsilent⟩ }
  · show (bufs.foldl Pipe.push t.client.down).queued = _
    rw [Pipe.queued_pushAll, hout, List.append_assoc]
  · exact absurd (hanswered.symm.trans hno) Bool.noConfusion

lemma Linked.download (hs : Linked cenv senv t) (hsome : t.toClient ≠ ⟨none, []⟩)
    (h : t.download cenv n = some t') : Linked cenv senv t' := by
  unfold Tunnel.download at h
  split at h
  · next field hheaders =>
    obtain ⟨client, hvisit, h⟩ := bind_eq_some_iff.mp h
    cases h
    exact hs.download_headers hheaders hvisit
  · next hheaders =>
    obtain ⟨client, hvisit, h⟩ := bind_eq_some_iff.mp h
    cases h
    exact hs.download_data hheaders hsome hvisit

lemma passOn_http2 {s s' : Server.Relay.Connection} {turn : Server.Relay.Turn} {raw : List UInt8}
    {more : Bool} (hmethod : s.method = .http2) (h : s.passOn senv turn raw = some (s', more)) :
    more = false ∨ ∃ (buf chunk : GrowableIOBuffer) (padding : PaddingState)
      (src : DataFrameSource), more = true ∧ buf.readable = raw ∧ raw.length ≤ socketBufSize ∧
      s.padding.send senv.cipher.junk buf turn.padding = some (padding, chunk) ∧
      s'.padding = padding ∧ s'.method = .http2 ∧ s'.up = s.up ∧
      s'.dataFrame = some { src with chunks := src.chunks ++ [chunk] } := by
  obtain ⟨buf, hbuf, h⟩ := bind_eq_some_iff.mp h
  have hread := (GrowableIOBuffer.readSome_eq_some hbuf).1
  have hsize := GrowableIOBuffer.length_le_of_readSome hbuf
  simp only [hmethod] at h
  cases hsrc : s.dataFrame with
  | none =>
    rw [hsrc] at h
    cases h
    exact .inl rfl
  | some src =>
    rw [hsrc] at h
    obtain ⟨⟨padding, chunk⟩, hsend, h⟩ := bind_eq_some_iff.mp h
    cases h
    exact .inr ⟨buf, chunk, padding, src, rfl, hread, hsize, hsend, rfl, rfl, rfl, rfl⟩

lemma Linked.reply (hs : Linked cenv senv t) (hresponded : t.responded)
    {turn : Server.Relay.Turn} {raw : List UInt8} (hraw : raw ≠ [])
    (hpadding : turn.padding ≤ kMaxPaddingSize) (h : t.reply senv turn raw = some t') :
    Linked cenv senv t' := by
  obtain ⟨⟨server, more⟩, hpass, h⟩ := bind_eq_some_iff.mp h
  obtain ⟨chunks, received, hup, happ, hearly, hwait⟩ := hs.up
  obtain ⟨chunks', received', out, hdown, htarget, hout, hearly', -⟩ := hs.down
  rcases passOn_http2 hs.serverMethod hpass with
    rfl | ⟨buf, chunk, padding, src, rfl, rfl, hsize, hsend, rfl, hmethod, hup_eq, hframe⟩
  · cases h
    exact hs
  · cases h
    have hok : SentChunk.Ok (buf.readable, turn.padding) := by
      exact ⟨List.length_pos_iff.mpr hraw, hsize.trans (by decide), hpadding⟩
    obtain ⟨padding', chunk', hsend', hsame, hdown'⟩ := hdown.send senv.cipher.junk hok
    rw [hsend] at hsend'
    cases hsend'
    rw [← lastChunk_append src chunk, ← hframe] at hdown'
    refine { hs with
      serverMethod := hmethod
      serverSupport := hsame.supportInFact.trans hs.serverSupport
      request := fun field hfield => ?_
      silent := fun hno => absurd (hresponded.symm.trans hno) Bool.noConfusion
      up := ⟨chunks, received, ?_, happ, hearly, hwait⟩
      down := ⟨_, received', out, hdown', ?_, hout, hearly',
        fun hno => absurd (hresponded.symm.trans hno) Bool.noConfusion⟩ }
    · rw [show t.toServer.headers = none from hs.responded hresponded] at hfield
      cases hfield
    · rw [show server.up = t.server.up from hup_eq]
      exact hup.same_receiver hsame
    · rw [htarget]
      simp [sentPayload]

lemma Linked.respond (hs : Linked cenv senv t) (hheaders : t.toServer.headers = none)
    (hresponded : t.responded = false) :
    Linked cenv senv
      { t with responded := true, toClient := ⟨some t.server.padding.supportInFact, []⟩ } := by
  obtain ⟨hunanswered, hnone⟩ := hs.silent hresponded
  obtain ⟨chunks', received', out, hdown, htarget, hout, hearly', -⟩ := hs.down
  rw [hnone] at hdown
  have hsupport := hs.serverSupport
  rw [hheaders] at hsupport
  refine { hs with
    response := ?_
    responded := fun _ => hheaders
    unanswered := fun _ _ => rfl
    silent := fun hno => by cases hno
    down := ⟨chunks', received', out, hdown, htarget, hout, hearly', fun hno => by cases hno⟩ }
  rintro field ⟨⟩
  exact ⟨hsupport, hunanswered⟩

lemma Linked.step (hs : Linked cenv senv t) {e : TunnelEvent} (hmeets : Meets cenv senv t e)
    (h : t.step cenv senv e = some t') : Linked cenv senv t' := by
  cases e with
  | connect settings frames lost => exact linked_connect hs.clientMethod hmeets h
  | app buf paddingSize => exact hs.send hmeets.1 hmeets.2 h
  | upload n =>
    simp only [Tunnel.step] at h
    split_ifs at h with hnone
    · cases h
      exact hs
    · exact hs.upload h
  | respond =>
    simp only [Tunnel.step, Option.some.injEq] at h
    split_ifs at h with hopen
    · obtain ⟨hframe, hfirst⟩ := Bool.and_eq_true_iff.mp hopen
      rw [← h]
      apply hs.respond
      · cases hheaders : t.toServer.headers with
        | none => rfl
        | some field =>
          rw [(hs.request field hheaders).2] at hframe
          cases hframe
      · simpa using hfirst
    · rw [← h]
      exact hs
  | target turn raw =>
    simp only [Tunnel.step] at h
    split_ifs at h with hresponded
    · exact hs.reply hresponded hmeets.1 hmeets.2 h
    · cases h
      exact hs
  | download n =>
    simp only [Tunnel.step] at h
    split_ifs at h with hnone
    · cases h
      exact hs
    · exact hs.download hnone h

lemma step_start {encoder decoder : Cipher} {e : TunnelEvent}
    (h : (start cenv senv encoder decoder).step cenv senv e = some t') :
    t' = start cenv senv encoder decoder ∨ Linked cenv senv t' := by
  cases e with
  | connect settings frames lost => exact .inr (linked_connect rfl ⟨rfl, rfl, rfl⟩ h)
  | app buf paddingSize =>
    cases h
    exact .inl rfl
  | upload n =>
    cases h
    exact .inl rfl
  | respond =>
    cases h
    exact .inl rfl
  | target turn raw =>
    cases h
    exact .inl rfl
  | download n =>
    cases h
    exact .inl rfl

lemma agreed_start (encoder decoder : Cipher) : Agreed (start cenv senv encoder decoder) where
  forwarded := List.prefix_rfl
  returned := List.prefix_rfl
  uploaded _ := ⟨rfl, rfl⟩
  downloaded _ := ⟨rfl, rfl⟩

end Invariant

end Tunnel

/-- **Padding agreement.** In a run whose steps meet the condition, with padding supported by either
end or not, and with any order of payload, request and response, the two ends agree in every state
that is reached. -/
theorem tunnel_agrees (cenv : Cli.Relay.Environment) (senv : Server.Relay.Environment)
    (encoder decoder : Cipher) (events : List TunnelEvent)
    (hmeets : Run.Along (Tunnel.step cenv senv) (Tunnel.Meets cenv senv)
      (Tunnel.start cenv senv encoder decoder) events)
    (reached : List TunnelEvent) (hpre : reached <+: events) (t : Tunnel)
    (hrun : Run.exec (Tunnel.step cenv senv) (Tunnel.start cenv senv encoder decoder) reached =
      some t) : t.Agreed := by
  have hlinked : t = Tunnel.start cenv senv encoder decoder ∨ t.Linked cenv senv := by
    apply Run.reached_invariant (I := fun t => t = Tunnel.start cenv senv encoder decoder ∨
      t.Linked cenv senv) _ (Or.inl rfl) hmeets hpre hrun
    intro t e t' ht hmeets hstep
    rcases ht with rfl | ht
    · exact Tunnel.step_start hstep
    · exact Or.inr (ht.step hmeets hstep)
  rcases hlinked with rfl | hlinked
  · exact Tunnel.agreed_start encoder decoder
  · exact hlinked.agreed

def sampleTunnel (paddingSupport : Bool) : Tunnel :=
  let cipher := Cipher.create (.sample fun _ => false) .aes256Ctr [112]
  Tunnel.start (.sample true [] []) (.sample paddingSupport) cipher cipher

/-- A run of `sampleTunnel`. -/
def runTunnel (paddingSupport : Bool) (events : List TunnelEvent) : Option Tunnel :=
  Run.exec (Tunnel.step (.sample true [] []) (.sample paddingSupport)) (sampleTunnel paddingSupport)
    events

def sampleTunnelRun : List TunnelEvent :=
  [.connect [] [] [], .upload 0, .app (.copyBuffer [65, 66]) 1, .upload 2, .respond, .upload 100,
    .target .idle [67], .download 0, .download 100]

theorem tunnel_agrees_sample :
    Run.Along (Tunnel.step (.sample true [] []) (.sample true))
        (Tunnel.Meets (.sample true [] []) (.sample true)) (sampleTunnel true) sampleTunnelRun ∧
      ∃ t, runTunnel true sampleTunnelRun = some t ∧ t.server.up.queued = [65, 66] ∧
        t.client.down.queued = [67] ∧ t.Agreed := by
  have hmeets : Run.Along (Tunnel.step (.sample true [] []) (.sample true))
      (Tunnel.Meets (.sample true [] []) (.sample true)) (sampleTunnel true) sampleTunnelRun := by
    decide +kernel
  have hrun : (runTunnel true sampleTunnelRun).map (fun t =>
      (t.server.up.queued, t.client.down.queued)) = some ([65, 66], [67]) := by decide +kernel
  obtain ⟨t, ht, hbytes⟩ := Option.map_eq_some_iff.mp hrun
  exact ⟨hmeets, t, ht, congrArg Prod.fst hbytes, congrArg Prod.snd hbytes,
    tunnel_agrees _ _ _ _ _ hmeets _ List.prefix_rfl t ht⟩

lemma Tunnel.not_agreed {t : Tunnel} {app forwarded : List UInt8} (hne : forwarded ≠ app)
    (h : (t.toServer, t.app, t.server.up.queued) = (⟨none, []⟩, app, forwarded)) :
    t.toServer = ⟨none, []⟩ ∧ t.app = app ∧ t.server.up.queued = forwarded ∧ ¬ t.Agreed := by
  obtain ⟨hdrained, happ, hforwarded⟩ : _ ∧ _ ∧ _ := by simpa only [Prod.mk.injEq] using h
  refine ⟨hdrained, happ, hforwarded, fun hagreed => hne ?_⟩
  rw [← hforwarded, ← happ]
  exact (hagreed.uploaded hdrained).1

/-- **Disagreement.** A chunk is sent to a server that does not pad before its response is there:
the padding is forwarded with it. And with two servers that pad, one after the other: the first
eight chunks go to the first, so that the second gets a chunk without padding, and waits for
more. -/
theorem tunnel_disagrees :
    (∃ t, runTunnel false [.connect [] [] [], .app (.copyBuffer [65, 66]) 1, .upload 0,
        .upload 100] = some t ∧ t.toServer = ⟨none, []⟩ ∧ t.app = [65, 66] ∧
        t.server.up.queued = [0, 2, 1, 65, 66, 0] ∧ ¬ t.Agreed) ∧
      ∃ t, runTunnel true ([.connect [] [] [], .upload 0] ++
          List.replicate 8 (.app (.copyBuffer [65]) 0) ++
          [.connect [] [] [], .upload 0, .app (.copyBuffer [0, 66]) 0, .upload 100]) = some t ∧
        t.toServer = ⟨none, []⟩ ∧ t.app = [0, 66] ∧ t.server.up.queued = [] ∧ ¬ t.Agreed := by
  constructor
  · have hrun : (runTunnel false [.connect [] [] [], .app (.copyBuffer [65, 66]) 1, .upload 0,
        .upload 100]).map (fun t => (t.toServer, t.app, t.server.up.queued)) =
        some (⟨none, []⟩, [65, 66], [0, 2, 1, 65, 66, 0]) := by decide +kernel
    obtain ⟨t, ht, hbytes⟩ := Option.map_eq_some_iff.mp hrun
    exact ⟨t, ht, Tunnel.not_agreed (by decide) hbytes⟩
  have hrun : (runTunnel true ([.connect [] [] [], .upload 0] ++
      List.replicate 8 (.app (.copyBuffer [65]) 0) ++
      [.connect [] [] [], .upload 0, .app (.copyBuffer [0, 66]) 0, .upload 100])).map
      (fun t => (t.toServer, t.app, t.server.up.queued)) = some (⟨none, []⟩, [0, 66], []) := by
    decide +kernel
  obtain ⟨t, ht, hbytes⟩ := Option.map_eq_some_iff.mp hrun
  exact ⟨t, ht, Tunnel.not_agreed (by decide) hbytes⟩

end Yass
