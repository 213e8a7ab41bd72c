import Yass.Cli.Requests
import Yass.Lib.Lists

/-!
# What keep-alive does to a sequence of requests

A client sends requests one behind the other, cut into reads anywhere.
-/

namespace Yass.Cli

open Yass.Net Lists
open List (append_assoc append_nil)

/-! ## The invariant -/

structure Fresh (s : Connection) : Prop where
  streaming : s.streaming = false
  isKeepAlive : s.isKeepAlive = false
  pendingBuf : s.pendingBuf = none
  previousBuf : s.previousBuf = none
  pendingData : s.pendingData = []
  upstream : s.upstream = []
  channel : s.channel = none
  written : s.written = []
  received : s.received = []

/-- The requests `served` have been accepted. What has been read is what they are, less the end
`missing` of the last body, or with the `pending` bytes of the next requests, which are kept back.
What has been written, what is queued, and `missing`, is what is to be sent on. -/
structure Serving (env : Environment) (served rest : List Request) (missing pending : List UInt8)
    (tag : Target) (s : Connection) : Prop where
  streaming : s.streaming = true
  isKeepAlive : s.isKeepAlive = true
  remainingBytes : s.remainingBytes = missing.length
  pendingBuf : s.pendingBuf = held pending
  previousBuf : s.previousBuf = none
  channel : s.channel.map Channel.request = some tag
  tag_eq : env.request tag = tag
  pendingData : s.isConnected = true → s.pendingData = []
  one : missing = [] ∨ pending = []
  pending_le : pending.length ≤ socketBufSize
  pending_prefix : pending <+: wire rest
  received : s.received ++ missing = wire served ++ pending
  written : s.written ++ (s.queued ++ missing).map (tag, ·) = outputs env served

def Tracks (env : Environment) (reqs : List Request) (s : Connection) : Prop :=
  Fresh s ∨ ∃ served rest missing pending tag,
    reqs = served ++ rest ∧ Serving env served rest missing pending tag s

/-- Between a read and what is done with the bytes `b` that it gave. -/
structure Holding (env : Environment) (served rest : List Request) (missing b : List UInt8)
    (tag : Target) (s : Connection) : Prop where
  streaming : s.streaming = true
  isConnected : s.isConnected = true
  isKeepAlive : s.isKeepAlive = true
  remainingBytes : s.remainingBytes = missing.length
  pendingBuf : s.pendingBuf = none
  previousBuf : s.previousBuf = none
  channel : s.channel.map Channel.request = some tag
  tag_eq : env.request tag = tag
  pendingData : s.pendingData = []
  upstream : s.upstream = []
  bytes_ne : b ≠ []
  bytes_le : b.length ≤ socketBufSize
  bytes_prefix : b <+: missing ++ wire rest
  received : s.received ++ missing.drop b.length = wire served ++ b.drop missing.length
  written : s.written ++ missing.map (tag, ·) = outputs env served

section Invariant

variable {env : Environment} {served rest : List Request} {missing pending b : List UInt8}
  {tag : Target} {s s' : Connection} {buf : GrowableIOBuffer}

lemma request_request (env : Environment) (t : Target) :
    env.request (env.request t) = env.request t := by
  simp [Environment.request, env.domainName_domainName]

lemma Accepted.serving {r : Request} {tail : List UInt8} (h : Accepted env r tail s s')
    (htail : tail <+: r.body ++ wire rest) (hle : tail.length ≤ socketBufSize)
    (hprevious : s.previousBuf = none) (hreceived : s.received = wire served ++ (r.header ++ tail))
    (hwritten : s.written = outputs env served) :
    Serving env (served ++ [r]) rest (r.body.drop tail.length) (tail.drop r.body.length)
      (env.request r.target) s' where
  streaming := h.streaming
  isKeepAlive := h.isKeepAlive
  remainingBytes := h.remainingBytes
  pendingBuf := h.pendingBuf
  previousBuf := h.previousBuf.trans hprevious
  channel := h.request
  tag_eq := request_request env r.target
  pendingData := h.pendingData
  one := drop_eq_nil_or tail r.body
  pending_le := by
    rw [List.length_drop]
    omega
  pending_prefix := by
    have hdrop := htail.drop r.body.length
    rwa [List.drop_left] at hdrop
  received := by
    rw [h.received, hreceived, wire_append, wire_cons]
    simp [wire, append_drop_of_prefix htail]
  written := by
    rw [h.written, hwritten, h.queued, outputs_append, append_assoc,
      take_append_drop_of_prefix htail]
    simp [outputs]

lemma Holding.afterRead (h : Holding env served rest missing b tag s)
    (hreqs : ∀ r ∈ rest, Spoken env r) (hfits : missing = [] → Fits env b)
    (hread : buf.readable = b) (hoffset : buf.offset = 0) :
    ∃ s', s.afterRead env buf b.length = some s' ∧
      ∃ served' rest' missing' pending' tag', served ++ rest = served' ++ rest' ∧
        Serving env served' rest' missing' pending' tag' s' := by
  have hsize : buf.size = b.length := by rw [← buf.length_readable, hread]
  by_cases hmissing : missing = []
  · subst hmissing
    have hpre := h.bytes_prefix
    have hreceived := h.received
    have hwritten := h.written
    simp only [List.nil_append, List.drop_nil, append_nil, List.length_nil, List.drop_zero,
      List.map_nil] at hpre hreceived hwritten
    obtain ⟨r, rest', tail, rfl, rfl, htail⟩ :=
      exists_request hreqs h.bytes_ne hpre (hfits rfl).ok
    obtain ⟨s', hs', hacc⟩ := afterRead_of_start h.streaming h.isConnected h.isKeepAlive
      h.remainingBytes h.pendingBuf h.pendingData h.upstream h.channel h.tag_eq
      (hreqs r List.mem_cons_self) hread (hread ▸ hfits rfl) (hsize ▸ h.bytes_le)
      (r.header ++ tail).length
    have hle : tail.length ≤ socketBufSize := by
      have := h.bytes_le
      rw [List.length_append] at this
      omega
    exact ⟨s', hs', served ++ [r], rest', _, _, _, by simp,
      hacc.serving htail hle h.previousBuf hreceived hwritten⟩
  obtain ⟨buf', hs', hread'⟩ := afterRead_of_missing env h.isConnected h.isKeepAlive hmissing
    h.remainingBytes h.pendingBuf hoffset
  rw [hsize, hread] at hs'
  refine ⟨_, hs', served, rest, missing.drop b.length, b.drop missing.length, tag, rfl, ?_⟩
  exact {
    streaming := h.streaming
    isKeepAlive := h.isKeepAlive
    remainingBytes := rfl
    pendingBuf := rfl
    previousBuf := h.previousBuf
    channel := h.channel
    tag_eq := h.tag_eq
    pendingData := fun _ => h.pendingData
    one := drop_eq_nil_or b missing
    pending_le := by
      have := h.bytes_le
      rw [List.length_drop]
      omega
    pending_prefix := by
      have hdrop := h.bytes_prefix.drop missing.length
      rwa [List.drop_left] at hdrop
    received := h.received
    written := by
      have hqueue : b.take missing.length ++ missing.drop b.length = missing :=
        take_append_drop_of_prefix h.bytes_prefix
      rw [← h.written]
      simp [Connection.queued, h.upstream, h.pendingData, hread', hread, hqueue] }

lemma Serving.holding_pending (h : Serving env served rest missing pending tag s)
    (hpending : pending ≠ []) (hconnected : s.isConnected) (hupstream : s.upstream = []) :
    missing = [] ∧ Holding env served rest [] pending tag { s with pendingBuf := none } := by
  obtain rfl : missing = [] := h.one.resolve_right hpending
  have hdata := h.pendingData hconnected
  have hreceived := h.received
  have hwritten := h.written
  rw [append_nil] at hreceived
  simp only [Connection.queued, hupstream, hdata, append_nil, List.map_nil] at hwritten
  exact ⟨rfl, {
    streaming := h.streaming
    isConnected := hconnected
    isKeepAlive := h.isKeepAlive
    remainingBytes := h.remainingBytes
    pendingBuf := rfl
    previousBuf := h.previousBuf
    channel := h.channel
    tag_eq := h.tag_eq
    pendingData := hdata
    upstream := hupstream
    bytes_ne := hpending
    bytes_le := h.pending_le
    bytes_prefix := h.pending_prefix
    received := by simpa using hreceived
    written := by simpa using hwritten }⟩

lemma Serving.holding_read (h : Serving env served rest missing [] tag s)
    (hconnected : s.isConnected) (hupstream : s.upstream = []) (hb : b ≠ [])
    (hle : b.length ≤ socketBufSize) (hsends : s.received ++ b <+: wire (served ++ rest)) :
    Holding env served rest missing b tag ({ s with previousBuf := none }.receive b) := by
  have hdata := h.pendingData hconnected
  have hreceived := h.received
  have hwritten := h.written
  rw [append_nil] at hreceived
  simp only [Connection.queued, hupstream, hdata, append_nil] at hwritten
  rw [wire_append, ← hreceived, append_assoc, List.prefix_append_right_inj] at hsends
  exact {
    streaming := h.streaming
    isConnected := hconnected
    isKeepAlive := h.isKeepAlive
    remainingBytes := h.remainingBytes
    pendingBuf := h.pendingBuf
    previousBuf := rfl
    channel := h.channel
    tag_eq := h.tag_eq
    pendingData := hdata
    upstream := hupstream
    bytes_ne := hb
    bytes_le := hle
    bytes_prefix := hsends
    received := by
      rw [Connection.receive, append_assoc, append_drop_of_prefix hsends, ← append_assoc,
        hreceived]
    written := hwritten }

lemma Serving.pull (h : Serving env served rest missing pending tag s)
    (hreqs : ∀ r ∈ rest, Spoken env r) {outcome : ReadOutcome}
    (henabled : Enabled s (.pull outcome)) (hsends : Sends (served ++ rest) s (.pull outcome))
    (hundisturbed : Undisturbed env s (.pull outcome)) :
    ∃ s', s.getNextUpstreamBuf env outcome = some s' ∧ Tracks env (served ++ rest) s' := by
  have hwanted : Wanted s := by
    cases outcome with
    | data b => exact henabled.2
    | wouldBlock | error => exact henabled
  obtain ⟨hupstream, -⟩ := hwanted h.streaming
  obtain ⟨hconnected, hfits⟩ := hundisturbed
  have hstart : missing = [] → s.atStart := fun hnil =>
    Or.inr ⟨h.isKeepAlive, by rw [h.remainingBytes, hnil]; rfl⟩
  by_cases hpending : pending = []
  · subst hpending
    have hresumed : s.resumed = none := by simp [Connection.resumed, h.pendingBuf, held]
    cases outcome with
    | wouldBlock =>
      refine ⟨{ s with previousBuf := none, readScheduled := true }, ?_, ?_⟩
      · simp [Connection.getNextUpstreamBuf, hupstream, hresumed, h.isKeepAlive]
      · exact .inr ⟨served, rest, missing, [], tag, rfl, { h with previousBuf := rfl }⟩
    | error =>
      refine ⟨{ s with previousBuf := none }.onDisconnect, ?_, ?_⟩
      · simp [Connection.getNextUpstreamBuf, hupstream, hresumed, h.isKeepAlive]
      · exact .inr ⟨served, rest, missing, [], tag, rfl, { h with previousBuf := rfl }⟩
    | data b =>
      obtain ⟨hb, hle⟩ := henabled.1
      have hreads : b ∈ s.reads (.pull (.data b)) := by simp [Connection.reads, hresumed]
      have hhands : b ∈ s.hands (.pull (.data b)) := by simpa [Connection.hands, hresumed]
      have hholding := h.holding_read (hconnected b hhands h.streaming) hupstream hb hle
        (hsends b hreads)
      obtain ⟨buf, hbuf, hread, hoffset⟩ := GrowableIOBuffer.readSome_spec env.junk hle
      have hbuffer : s.readBuffer env b = some buf := by
        simp [Connection.readBuffer, h.previousBuf, hbuf]
      obtain ⟨s', hs', hserving⟩ :=
        hholding.afterRead hreqs (fun hnil => hfits b hhands (hstart hnil)) hread hoffset
      refine ⟨s', ?_, Or.inr hserving⟩
      simpa [Connection.getNextUpstreamBuf, hupstream, hresumed, h.isKeepAlive, hbuffer] using hs'
  have hresumed : s.resumed = some (.copyBuffer pending) := by
    simp [Connection.resumed, h.isKeepAlive, h.pendingBuf, held, hpending]
  have hhands : pending ∈ s.hands (.pull outcome) := by simp [Connection.hands, hresumed]
  obtain ⟨rfl, hholding⟩ :=
    h.holding_pending hpending (hconnected pending hhands h.streaming) hupstream
  obtain ⟨s', hs', hserving⟩ := hholding.afterRead hreqs
    (fun hnil => hfits _ hhands (hstart hnil)) (GrowableIOBuffer.readable_copyBuffer pending) rfl
  refine ⟨s', ?_, Or.inr hserving⟩
  simpa [Connection.getNextUpstreamBuf, hupstream, hresumed] using hs'

variable {reqs : List Request}

lemma Fresh.pull (h : Fresh s) (hreqs : ∀ r ∈ reqs, Spoken env r)
    {outcome : ReadOutcome} (henabled : Enabled s (.pull outcome))
    (hsends : Sends reqs s (.pull outcome)) (hundisturbed : Undisturbed env s (.pull outcome)) :
    ∃ s', s.readMethodSelect env outcome = some s' ∧ Tracks env reqs s' := by
  have hresumed : s.resumed = none := by simp [Connection.resumed, h.isKeepAlive]
  cases outcome with
  | wouldBlock => exact ⟨s, rfl, Or.inl h⟩
  | error => exact ⟨s.onDisconnect, rfl, Or.inl { h with }⟩
  | data b =>
    obtain ⟨hb, hle⟩ := henabled.1
    have hreads : b ∈ s.reads (.pull (.data b)) := by simp [Connection.reads, hresumed]
    have hhands : b ∈ s.hands (.pull (.data b)) := by simpa [Connection.hands, hresumed]
    have hpre := hsends b hreads
    rw [h.received, List.nil_append] at hpre
    have hfits := hundisturbed.fits b hhands (Or.inl h.streaming)
    obtain ⟨r, rest, tail, rfl, rfl, htail⟩ := exists_request hreqs hb hpre hfits.ok
    obtain ⟨s', hs', hacc⟩ := readMethodSelect_spec h.pendingBuf h.pendingData h.upstream
      (hreqs r List.mem_cons_self) hfits hle
    have htail_le : tail.length ≤ socketBufSize := by
      rw [List.length_append] at hle
      omega
    have hreceived : (s.receive (r.header ++ tail)).received = wire [] ++ (r.header ++ tail) := by
      rw [Connection.receive, h.received]
      rfl
    exact ⟨s', hs', Or.inr ⟨[r], rest, _, _, _, rfl,
      hacc.serving htail htail_le h.previousBuf hreceived h.written⟩⟩

lemma queued_onConnected (s : Connection) : s.onConnected.queued = s.queued := by
  simp [Connection.queued, Connection.onConnected]

lemma Serving.onConnected (h : Serving env served rest missing pending tag s) :
    Serving env served rest missing pending tag s.onConnected :=
  { h with
    channel := by simpa [Connection.onConnected, Function.comp_def] using h.channel
    pendingData := fun _ => rfl
    written := by rw [queued_onConnected]; exact h.written }

lemma Serving.disconnected (h : Serving env served rest missing pending tag s) :
    Serving env served rest missing pending tag s.disconnected :=
  { h with
    channel := by simpa [Connection.disconnected, Function.comp_def] using h.channel
    pendingData := fun hconnected => by
      cases hchannel : s.channel <;>
        simp [Connection.isConnected, Connection.disconnected, hchannel] at hconnected }

lemma Serving.writeUpstream (h : Serving env served rest missing pending tag s) {n : ℕ}
    (hn : ∀ buf ∈ s.upstream.head?, n ≤ buf.size) :
    ∃ s', s.writeUpstream n = some s' ∧ Serving env served rest missing pending tag s' := by
  unfold Connection.writeUpstream
  split
  case h_2 => exact ⟨s, rfl, h⟩
  case h_1 buf bufs ch hupstream hchannel =>
    split_ifs with hready
    · have hle : n ≤ buf.size := hn buf (by simp [hupstream])
      obtain ⟨buf', hbuf', hread', -⟩ := GrowableIOBuffer.setOffset_add hle
      have hrequest : ch.request = tag := by simpa [hchannel] using h.channel
      refine ⟨{ s with
        written := s.written ++ (buf.readable.take n).map (ch.request, ·)
        upstream := if buf'.isEmpty then bufs else buf' :: bufs }, by rw [hbuf']; rfl,
        { h with written := ?_ }⟩
      have hqueue : buf.readable.take n ++ (((if buf'.isEmpty then bufs else buf' :: bufs) ++
          s.pendingData).map GrowableIOBuffer.readable).flatten = s.queued := by
        rw [List.map_append, List.flatten_append, GrowableIOBuffer.flatten_pop, hread',
          Connection.queued, hupstream]
        simp [← append_assoc]
      rw [← h.written, ← hqueue, hrequest]
      simp [Connection.queued]
    · exact ⟨s, rfl, h⟩

lemma Tracks.step (hreqs : ∀ r ∈ reqs, Spoken env r) (h : Tracks env reqs s)
    {e : Event} (henabled : Enabled s e) (hsends : Sends reqs s e)
    (hundisturbed : Undisturbed env s e) : ∃ s', step env s e = some s' ∧ Tracks env reqs s' := by
  by_cases hclosed : s.closed
  · exact ⟨s, by simp [Yass.Cli.step, hclosed], h⟩
  unfold Yass.Cli.step
  rw [if_neg hclosed]
  rcases h with hfresh | ⟨served, rest, missing, pending, tag, rfl, hserving⟩
  · cases e with
    | pull outcome =>
      dsimp only
      rw [hfresh.streaming, if_neg Bool.false_ne_true]
      exact hfresh.pull hreqs henabled hsends hundisturbed
    | connected =>
      simp [Enabled, hfresh.channel] at henabled
    | write n => exact ⟨s, by simp [Connection.writeUpstream, hfresh.upstream], Or.inl hfresh⟩
    | writeFailed => exact ⟨_, rfl, Or.inl { hfresh with }⟩
    | lost =>
      refine ⟨_, rfl, Or.inl { hfresh with channel := ?_ }⟩
      rw [Connection.disconnected, hfresh.channel]
      rfl
  have htracks : ∀ {s'}, Serving env served rest missing pending tag s' →
      Tracks env (served ++ rest) s' :=
    fun h' => Or.inr ⟨served, rest, missing, pending, tag, rfl, h'⟩
  cases e with
  | pull outcome =>
    dsimp only
    rw [hserving.streaming, if_pos rfl]
    exact hserving.pull (fun r hr => hreqs r (List.mem_append_right _ hr)) henabled hsends
      hundisturbed
  | connected => exact ⟨_, rfl, htracks hserving.onConnected⟩
  | write n =>
    obtain ⟨s', hs', hserving'⟩ := hserving.writeUpstream henabled.2
    exact ⟨s', hs', htracks hserving'⟩
  | writeFailed => exact ⟨_, rfl, htracks { hserving with }⟩
  | lost => exact ⟨_, rfl, htracks hserving.disconnected⟩

lemma tracks_of_run (hreqs : ∀ r ∈ reqs, Spoken env r) {es : List Event}
    (hes : Run.Along (step env) (fun s e => Enabled s e ∧ Sends reqs s e ∧ Undisturbed env s e)
      start es) : ∃ s, Run.exec (step env) start es = some s ∧ Tracks env reqs s := by
  have hstart : Tracks env reqs start := Or.inl ⟨rfl, rfl, rfl, rfl, rfl, rfl, rfl, rfl, rfl⟩
  apply Run.exec_invariant _ hstart hes
  intro s e hs he
  obtain ⟨henabled, hsends, hundisturbed⟩ := he
  exact hs.step hreqs henabled hsends hundisturbed

end Invariant

/-! ## The two properties -/

/-- What has been sent on, or is queued, is the start of what is to be sent on; it is all of it once
everything has been read and nothing is kept back. -/
structure Preserved (reqs : List Request) (s : Connection) : Prop where
  in_order : s.written.map Prod.snd ++ s.queued <+: forwarded reqs
  complete : s.received = wire reqs → s.pendingBuf = none →
    s.written.map Prod.snd ++ s.queued = forwarded reqs

section Properties

variable {env : Environment} {served rest : List Request} {missing pending : List UInt8}
  {tag : Target} {s : Connection}

lemma Serving.map_snd (h : Serving env served rest missing pending tag s) :
    s.written.map Prod.snd ++ s.queued ++ missing = forwarded served := by
  rw [← map_snd_outputs env, ← h.written]
  simp [Function.comp_def]

lemma Serving.eq_nil_of_received (h : Serving env served rest missing pending tag s)
    (hrest : ∀ r ∈ rest, Spoken env r) (hreceived : s.received = wire (served ++ rest))
    (hpending : s.pendingBuf = none) : rest = [] ∧ missing = [] := by
  have hnil : pending = [] := by
    by_contra hne
    simp [h.pendingBuf, held, hne] at hpending
  have hlen := congrArg List.length h.received
  rw [hreceived, hnil, wire_append] at hlen
  simp only [List.length_append, List.length_nil] at hlen
  refine ⟨?_, List.length_eq_zero_iff.mp (by omega)⟩
  cases rest with
  | nil => rfl
  | cons r rest =>
    have hpos := List.length_pos_iff.mpr (hrest r List.mem_cons_self).header_ne
    rw [wire_cons, List.length_append] at hlen
    omega

lemma Tracks.preserved {reqs : List Request} (h : Tracks env reqs s)
    (hreqs : ∀ r ∈ reqs, Spoken env r) : Preserved reqs s := by
  rcases h with hfresh | ⟨served, rest, missing, pending, tag, rfl, hserving⟩
  · have hnothing : s.written.map Prod.snd ++ s.queued = [] := by
      simp [Connection.queued, hfresh.written, hfresh.upstream, hfresh.pendingData]
    constructor
    · rw [hnothing]
      exact List.nil_prefix
    intro hreceived _
    cases reqs with
    | nil => exact hnothing
    | cons r reqs =>
      rw [hfresh.received, wire_cons, eq_comm, List.append_eq_nil_iff] at hreceived
      exact absurd hreceived.1 (hreqs r List.mem_cons_self).header_ne
  have hall : forwarded (served ++ rest) = forwarded served ++ forwarded rest :=
    List.flatMap_append
  constructor
  · rw [hall, ← hserving.map_snd, append_assoc]
    exact List.prefix_append _ _
  intro hreceived hpending
  obtain ⟨rfl, rfl⟩ := hserving.eq_nil_of_received
    (fun r hr => hreqs r (List.mem_append_right _ hr)) hreceived hpending
  rw [append_nil, ← hserving.map_snd, append_nil]

lemma Tracks.isolated {reqs : List Request} (h : Tracks env reqs s) :
    s.written <+: outputs env reqs := by
  rcases h with hfresh | ⟨served, rest, missing, pending, tag, rfl, hserving⟩
  · rw [hfresh.written]
    exact List.nil_prefix
  · rw [outputs_append, ← hserving.written, append_assoc]
    exact List.prefix_append _ _

end Properties

/-! ### Sample requests -/

/-- `GET http://?/ HTTP/1.1` with `Content-Length:?` and `Connection:Keep-Alive`, for a host of one
letter and a length of one digit. -/
def sampleHeader (host digit : UInt8) : List UInt8 :=
  [71, 69, 84, 32, 104, 116, 116, 112, 58, 47, 47, host, 47, 32, 72, 84, 84, 80, 47, 49, 46, 49, 13,
    10, 67, 111, 110, 116, 101, 110, 116, 45, 76, 101, 110, 103, 116, 104, 58, digit, 13, 10, 67,
    111, 110, 110, 101, 99, 116, 105, 111, 110, 58, 75, 101, 101, 112, 45, 65, 108, 105, 118, 101,
    13, 10, 13, 10]

def sampleParsed (host digit : UInt8) : HttpRequestParser where
  nparsed := 67
  ok := true
  method := [71, 69, 84]
  httpUrl := [104, 116, 116, 112, 58, 47, 47, host, 47]
  versionInput := [72, 84, 84, 80, 47, 49, 46, 49]
  httpHeaders :=
    [([67, 111, 110, 116, 101, 110, 116, 45, 76, 101, 110, 103, 116, 104], [digit]),
      ([67, 111, 110, 110, 101, 99, 116, 105, 111, 110], keepAliveText)]
  host := [host]
  port := 80
  isConnect := false
  contentLength := (digit - 48).toUInt64
  connection := keepAliveText
  proxyAuthorization := []
  transferEncodingIsChunked := false

def sampleParse (b : List UInt8) : HttpRequestParser :=
  let parsed := sampleParsed (b.getD 11 0) (b.getD 39 0)
  if sampleHeader (b.getD 11 0) (b.getD 39 0) <+: b then parsed else { parsed with ok := false }

def sampleEnvironment : Environment where
  parse := sampleParse
  canonUri url := url.drop 8
  domainName := id
  domainName_domainName _ := rfl
  junk _ := 0

def samplePage (host digit : UInt8) (body : List UInt8) : Request where
  header := sampleHeader host digit
  body := body
  target := ⟨[host], 80⟩
  reforged := (sampleParsed host digit).reforgeHttpRequest (List.drop 8) []

lemma spoken_samplePage {host digit : UInt8} {body : List UInt8}
    (hlength : (digit - 48).toUInt64.toNat = body.length) :
    Spoken sampleEnvironment (samplePage host digit body) where
  header_ne := List.cons_ne_nil _ _
  host_ne := List.cons_ne_nil _ _
  host_le := by
    show 1 ≤ tlsextMaxlenHostName
    decide
  port_ne := by
    show 80 ≠ 0
    decide
  incomplete n hn := by
    show (sampleParse ((sampleHeader host digit).take n)).ok = false
    unfold sampleParse
    rw [if_neg]
    intro hpre
    have hle := hpre.length_le
    rw [List.length_take] at hle
    exact absurd hle (Nat.not_le_of_lt (lt_of_le_of_lt (min_le_left _ _) hn))
  complete rest := by
    have hparse : sampleParse (sampleHeader host digit ++ rest) = sampleParsed host digit :=
      if_pos (List.prefix_append _ _)
    show Parsed sampleEnvironment _ (sampleParse (sampleHeader host digit ++ rest))
    rw [hparse]
    exact ⟨rfl, rfl, rfl, rfl, rfl, hlength, rfl, rfl, rfl⟩

def samplePages (hosts : List UInt8) : List Request := hosts.map (samplePage · 48 [])

lemma spoken_samplePages (hosts : List UInt8) :
    ∀ r ∈ samplePages hosts, Spoken sampleEnvironment r := by
  intro r hr
  obtain ⟨host, -, rfl⟩ := List.mem_map.mp hr
  exact spoken_samplePage (by decide)

def sampleSplitReads : List Event :=
  [.pull (.data (sampleHeader 97 48)), .connected, .write 61,
    .pull (.data ((sampleHeader 97 48).take 10)), .pull (.data ((sampleHeader 97 48).drop 10)),
    .write 57]

/-- Three requests for three hosts; the third comes while the channel for the second connects. -/
def sampleMixedReads : List Event :=
  [.pull (.data (sampleHeader 97 48)), .connected, .write 61, .pull (.data (sampleHeader 98 48)),
    .pull (.data (sampleHeader 99 48)), .connected, .write 61, .write 67]

end Yass.Cli
