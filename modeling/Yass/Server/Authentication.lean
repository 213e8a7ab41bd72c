import Yass.Server.Handshake
import Yass.Server.Http2

/-!
# The authentication gate of the server

With a user name and a password configured, a channel is opened only for a client that has presented
them.

* SOCKS5 and HTTPS — `Socks5.presented_of_connects`, `Https.presented_of_connects`: on every
  connection.
* HTTP/2 — the credentials have to be in the header block of the very stream that is connected.
  `request_map_` is one map for the whole connection and is cleared only when a block was accepted,
  so this holds as long as the map is empty whenever a block begins (`Http2.Fresh`), and fails when
  a block that was abandoned has left its fields behind.

Source: `server/server_connection.cpp`.
-/

namespace Yass.Server

open Yass.Net

namespace Http2

/-! ## HTTP/2 -/

def Presented (env : Environment) (cfg : Credentials) (fields : List Field) : Prop :=
  ∃ value, (proxyAuthorizationField, value) ∈ fields ∧ cfg.CarriedBy env.base64Decode value

/-- No header block begins while fields of an earlier one are still in `request_map_`. -/
def Fresh (s : Connection) : Event → Prop
  | .beginHeaders _ => s.requestMap = []
  | _ => True

instance (s : Connection) (e : Event) : Decidable (Fresh s e) :=
  match e with
  | .beginHeaders _ => inferInstanceAs (Decidable (s.requestMap = []))
  | .frameHeader _ | .header _ _ _ | .endHeaders _ | .data _ _ | .endStream _ | .closeStream _
  | .invalidFrame _ | .rstStream _ | .goAway | .connectionError | .connected _ | .write _
  | .writeFailed | .lost _ | .streamWrite _ => isTrue trivial

/-- The invariant: every channel was opened by a block that carries the credentials, and what
`request_map_` has comes from the block that is being read. -/
structure Gated (env : Environment) (cfg : Credentials) (s : Connection) : Prop where
  opened : ∀ fields ∈ s.channels.map Channel.block, Presented env cfg fields
  fields : ∀ id fields, s.block = some (id, fields) → ∀ field ∈ s.requestMap, field ∈ fields

section Gate

variable {env : Environment} {cfg : Credentials} {s s' : Connection}

lemma mem_of_lookup {key : List UInt8} (h : s.lookup key ≠ []) :
    (key, s.lookup key) ∈ s.requestMap := by
  unfold Connection.lookup at h ⊢
  cases hfind : s.requestMap.find? fun field => field.1 == key with
  | none => simp [hfind] at h
  | some field =>
    have hkey : field.1 = key :=
      eq_of_beq (List.find?_some (p := fun f : Field => f.1 == key) hfind)
    rw [Option.map_some, Option.getD_some, ← hkey]
    exact List.mem_of_find?_eq_some hfind

lemma verify_of_request (hauth : cfg.authRequired) {target : Target}
    (h : s.request env cfg = some target) :
    verifyProxyAuthorizationIdentity env.base64Decode (s.lookup proxyAuthorizationField) cfg =
      true := by
  by_contra hno
  rw [Bool.not_eq_true] at hno
  simp [Connection.request, hauth, hno] at h

lemma presented_of_request (hauth : cfg.authRequired) {target : Target}
    (h : s.request env cfg = some target) : Presented env cfg s.requestMap := by
  have hverify := verify_of_request hauth h
  have hne : s.lookup proxyAuthorizationField ≠ [] := by
    intro hnil
    rw [hnil] at hverify
    cases hverify
  exact ⟨_, mem_of_lookup hne, carriedBy_of_verify hverify⟩

lemma Quiet.blocks_eq (h : Quiet s s') :
    s'.channels.map Channel.block = s.channels.map Channel.block := by
  have hrecord : ∀ chs : List Channel,
      chs.map Channel.block = (chs.map Channel.record).map Channel.block := by
    intro chs
    rw [List.map_map]
    rfl
  rw [hrecord, hrecord s.channels, h.records_eq]

lemma step_gated (hauth : cfg.authRequired) (hs : Gated env cfg s) {e : Event}
    (hreported : Reported s e) (hfresh : Fresh s e) (h : step env cfg s e = some s') :
    Gated env cfg s' := by
  cases effect_of_step h with
  | quiet hquiet =>
    refine ⟨hquiet.blocks_eq ▸ hs.opened, ?_⟩
    intro id fields hblock
    rcases hquiet.block_eq with hsame | hnone
    · rw [hquiet.requestMap_eq]
      exact hs.fields id fields (hsame ▸ hblock)
    · rw [hnone] at hblock
      cases hblock
  | beginHeaders id =>
    refine ⟨hs.opened, ?_⟩
    intro _ _ _ field hfield
    rw [show (s.onBeginHeadersForStream id).requestMap = [] from hfresh] at hfield
    cases hfield
  | header id key value =>
    refine ⟨hs.opened, ?_⟩
    intro id' fields hblock field hfield
    obtain ⟨⟨id₀, fields₀⟩, hold, heq⟩ := Option.map_eq_some_iff.mp hblock
    cases heq
    rcases List.mem_cons.mp hfield with rfl | hfield
    · simp
    · exact List.mem_append_left _ (hs.fields id₀ fields₀ hold field hfield)
  | accepted id hrequest =>
    rw [onEndHeadersForStream_of_some hrequest]
    refine ⟨?_, fun _ _ hblock => by cases hblock⟩
    obtain ⟨⟨id', fields⟩, hblock, -⟩ := Option.map_eq_some_iff.mp hreported
    intro fields' hmem
    rcases List.mem_cons.mp hmem with rfl | hmem
    · obtain ⟨value, hvalue, hcarried⟩ := presented_of_request hauth hrequest
      refine ⟨value, ?_, hcarried⟩
      rw [hblock]
      exact hs.fields id' fields hblock _ hvalue
    · exact hs.opened fields' hmem
  | data id bytes hdata =>
    obtain ⟨hchannels, hmap, hblock, -⟩ := onDataForStream_frame hdata
    refine ⟨hchannels ▸ hs.opened, ?_⟩
    rw [hmap, hblock]
    exact hs.fields
  | write n hwrite =>
    obtain rfl | ⟨ch, chs, sent, upstream, hchannels, -, rfl⟩ := writeUpstream_eq_some hwrite
    · exact hs
    refine ⟨?_, hs.fields⟩
    have hopened := hs.opened
    rw [hchannels] at hopened
    exact hopened

/-- **Every run.** As long as `request_map_` is empty whenever a header block begins, every channel
was opened by a header block that carries the credentials. -/
theorem presented_of_channel (hauth : cfg.authRequired) {es es₁ : List Event}
    (hes : Run.Along (step env cfg) (fun s e => Reported s e ∧ Fresh s e) (start env) es)
    (hpre : es₁ <+: es) (hrun : Run.exec (step env cfg) (start env) es₁ = some s) :
    ∀ ch ∈ s.channels, Presented env cfg ch.block := by
  have hstart : Gated env cfg (start env) := ⟨by simp [start], by simp [start]⟩
  have hgated := Run.reached_invariant
    (fun _ _ _ hs hc h => step_gated hauth hs hc.1 hc.2 h) hstart hes hpre hrun
  intro ch hch
  exact hgated.opened ch.block (List.mem_map_of_mem hch)

end Gate

end Http2

/-! ## The gate -/

section Samples

/-- User name `u`, password `p`. -/
def sampleCredentials : Credentials := ⟨[117], [112]⟩

/-- `basic dTpw`. -/
def sampleAuthorization : List UInt8 := kBasicAuthPrefix ++ [100, 84, 112, 119]

/-- A SOCKS5 client that authenticates and asks for `1.2.3.4:80`, message by message. -/
def sampleSocks5 : List Socks5.Event :=
  [.readable (.data [5, 1, 2]), .writable (.written 2), .readable (.data [5, 1, 117, 1, 112]),
    .writable (.written 2), .readable (.data [5, 1, 0, 1, 1, 2, 3, 4, 0, 80]),
    .writable (.written 10)]

/-- A proxy that takes every read for a `CONNECT h:80` with the authorization above. -/
def sampleHttps : Https.Environment where
  parse bytes :=
    { nparsed := bytes.length, ok := true, method := Http2.connectMethod, httpUrl := [],
      versionInput := [], httpHeaders := [], host := [104], port := 80, isConnect := true,
      contentLength := 0, connection := [], proxyAuthorization := sampleAuthorization,
      transferEncodingIsChunked := false }
  base64Decode := sampleBase64Decode
  canonUri := id
  hideIp := true
  hideVia := true
  peerEndpoint := []
  version := []

end Samples

/-- **The gate.** For SOCKS5 and HTTPS in every run, and for HTTP/2 in every run in which
`request_map_` is empty whenever a header block begins, `OnConnect` is executed only after the
configured user name and password were presented on that connection, for HTTP/2 in the header block
of the stream that is connected. -/
theorem connect_only_after_credentials (cfg : Credentials) (husername : cfg.username ≠ [])
    (hpassword : cfg.password ≠ []) :
    (∀ junk beyond es s, Run.exec (Socks5.step junk beyond cfg) Socks5.start es = some s →
      s.connects ≠ [] → Socks5.Presented cfg s.received) ∧
    (∀ env junk es s, Run.exec (Https.step env junk cfg) Https.start es = some s →
      s.connects ≠ [] → Https.Presented env cfg s) ∧
    (∀ env es, Run.Along (Http2.step env cfg) (fun s e => Http2.Reported s e ∧ Http2.Fresh s e)
        (Http2.start env) es →
      ∀ es₁, es₁ <+: es → ∀ s, Run.exec (Http2.step env cfg) (Http2.start env) es₁ = some s →
        ∀ ch ∈ s.channels, Http2.Presented env cfg ch.block) := by
  have hauth : cfg.authRequired = true := by simp [Credentials.authRequired, husername, hpassword]
  refine ⟨?_, ?_, ?_⟩
  · intro junk beyond es s hrun hne
    exact Socks5.presented_of_connects hauth hrun hne
  · intro env junk es s hrun hne
    exact Https.presented_of_connects hauth hrun hne
  · intro env es hes es₁ hpre s hrun
    exact Http2.presented_of_channel hauth hes hpre hrun

theorem connect_only_after_credentials_sample :
    (∃ s, Run.exec (Socks5.step (fun _ => 0) (fun _ => 0) sampleCredentials) Socks5.start
        sampleSocks5 = some s ∧ s.connects ≠ [] ∧
      Socks5.Presented sampleCredentials s.received) ∧
    (∃ s, Run.exec (Https.step sampleHttps (fun _ => 0) sampleCredentials) Https.start
        [.data [67]] = some s ∧ s.connects ≠ [] ∧
      Https.Presented sampleHttps sampleCredentials s) ∧
    (∃ s, Run.exec (Http2.step sampleHttp2 sampleCredentials) (Http2.start sampleHttp2)
        (sampleConnect 1 [(Http2.proxyAuthorizationField, sampleAuthorization)]) = some s ∧
      s.channels ≠ [] ∧
      ∀ ch ∈ s.channels, Http2.Presented sampleHttp2 sampleCredentials ch.block) := by
  obtain ⟨hsocks, hhttps, hhttp2⟩ :=
    connect_only_after_credentials sampleCredentials (by decide) (by decide)
  refine ⟨?_, ?_, ?_⟩
  · have hrun : ((Run.exec (Socks5.step (fun _ => 0) (fun _ => 0) sampleCredentials) Socks5.start
        sampleSocks5).map fun s => s.connects.length) = some 1 := by decide +kernel
    obtain ⟨s, hs, hlen⟩ := Option.map_eq_some_iff.mp hrun
    have hne : s.connects ≠ [] := by
      intro hnil
      simp [hnil] at hlen
    exact ⟨s, hs, hne, hsocks _ _ _ s hs hne⟩
  · have hrun : ((Run.exec (Https.step sampleHttps (fun _ => 0) sampleCredentials) Https.start
        [.data [67]]).map fun s => s.connects.length) = some 1 := by decide +kernel
    obtain ⟨s, hs, hlen⟩ := Option.map_eq_some_iff.mp hrun
    have hne : s.connects ≠ [] := by
      intro hnil
      simp [hnil] at hlen
    exact ⟨s, hs, hne, hhttps _ _ _ s hs hne⟩
  have hrun : ((Run.exec (Http2.step sampleHttp2 sampleCredentials) (Http2.start sampleHttp2)
      (sampleConnect 1 [(Http2.proxyAuthorizationField, sampleAuthorization)])).map
      fun s => s.channels.length) = some 1 := by decide +kernel
  obtain ⟨s, hs, hlen⟩ := Option.map_eq_some_iff.mp hrun
  have hne : s.channels ≠ [] := by
    intro hnil
    simp [hnil] at hlen
  exact ⟨s, hs, hne, hhttp2 _ _ (by decide +kernel) _ (List.prefix_refl _) s hs⟩

/-- A client that never authenticates on the stream it connects: stream 1 reports its authorization
and is reset for a malformed field, and stream 3 connects with what it has left behind. -/
def sampleBypass : List Http2.Event :=
  [.frameHeader 1, .beginHeaders 1,
    .header 1 Http2.proxyAuthorizationField sampleAuthorization, .invalidFrame 1,
    .closeStream 1] ++ sampleConnect 3 []

/-- **Failure.** The channel of stream 3 is opened by a header block without any
`proxy-authorization`. -/
theorem connect_with_credentials_of_abandoned_block :
    sampleCredentials.username ≠ [] ∧ sampleCredentials.password ≠ [] ∧
    Run.Along (Http2.step sampleHttp2 sampleCredentials) Http2.Reported
      (Http2.start sampleHttp2) sampleBypass ∧
    ∃ s ch, Run.exec (Http2.step sampleHttp2 sampleCredentials) (Http2.start sampleHttp2)
        sampleBypass = some s ∧ ch ∈ s.channels ∧ ch.stream = 3 ∧
      ¬ Http2.Presented sampleHttp2 sampleCredentials ch.block := by
  refine ⟨by decide, by decide, by decide +kernel, ?_⟩
  have hrun : ((Run.exec (Http2.step sampleHttp2 sampleCredentials) (Http2.start sampleHttp2)
      sampleBypass).map fun s => s.channels) =
      some [⟨3, [(Http2.methodField, Http2.connectMethod), (Http2.authorityField, [104])],
        ⟨[104], 443⟩, false, false, false, []⟩] := by decide +kernel
  obtain ⟨s, hs, hchannels⟩ := Option.map_eq_some_iff.mp hrun
  refine ⟨s, _, hs, by rw [hchannels]; exact List.mem_singleton.mpr rfl, rfl, ?_⟩
  rintro ⟨value, hmem, -⟩
  simp [Http2.methodField, Http2.authorityField, Http2.proxyAuthorizationField] at hmem

end Yass.Server
