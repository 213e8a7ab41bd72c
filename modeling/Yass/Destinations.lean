import Yass.Cli.Handshake
import Yass.Cli.KeepAlive
import Yass.Server.Destinations

/-!
# The destination of a tunnel

Every handshake that ends in a connect fills one `ss::request`, by its parser or by one of its two
constructors, and each checks in its own way what it has parsed.

Source: `server/server_connection.cpp`, `cli/cli_connection.cpp`, `net/ss_request.hpp`.
-/

namespace Yass

open Yass.Net Yass.Crypto
open Option (bind_eq_some_iff)

/-! ## The client: HTTP -/

namespace Cli

variable {env : Environment} {s s' : Connection}

/-- The invariant: while a channel is being connected, `http_host_` and `http_port_` are what it was
opened for, and were checked. -/
structure Opening (s : Connection) : Prop where
  unopened : s.streaming = false → s.channel = none
  valid : ∀ ch, s.channel = some ch → ch.connected = false → ch.eof = false → s.target.Valid

lemma Opening.of_eq (h : Opening s) (hstreaming : s'.streaming = s.streaming)
    (hchannel : s'.channel = s.channel) (htarget : s'.target = s.target) : Opening s' := by
  refine ⟨?_, ?_⟩
  · rw [hstreaming, hchannel]
    exact h.unopened
  · rw [hchannel, htarget]
    exact h.valid

lemma opening_of_connected {ch : Channel} (hch : s.channel = some ch)
    (hstreaming : s.streaming) (hconnected : ch.connected) : Opening s := by
  refine ⟨?_, ?_⟩
  · intro hno
    rw [hstreaming] at hno
    cases hno
  intro other hother hno
  rw [hch] at hother
  cases hother
  rw [hconnected] at hno
  cases hno

lemma onStreamRead_frame (s : Connection) (buf : GrowableIOBuffer) :
    (s.onStreamRead buf).streaming = s.streaming ∧ (s.onStreamRead buf).channel = s.channel ∧
      (s.onStreamRead buf).target = s.target := by
  unfold Connection.onStreamRead Connection.onDisconnect
  split_ifs <;> exact ⟨rfl, rfl, rfl⟩

lemma keepAliveSplit_frame {parser : HttpRequestParser} {header : List UInt8} {junk : ℕ → UInt8}
    {buf buf' : GrowableIOBuffer} (h : s.keepAliveSplit parser header junk buf = some (s', buf')) :
    s'.streaming = s.streaming ∧ s'.channel = s.channel ∧ s'.target = s.target := by
  unfold Connection.keepAliveSplit at h
  dsimp only at h
  split_ifs at h
  · obtain ⟨b, -, h⟩ := bind_eq_some_iff.mp h
    cases h
    exact ⟨rfl, rfl, rfl⟩
  · cases h
    exact ⟨rfl, rfl, rfl⟩

lemma onReadHttpRequest_frame (hport : ∀ bytes, (env.parse bytes).port < 65536)
    {buf buf' : GrowableIOBuffer} {ok : Bool}
    (h : s.onReadHttpRequest env buf = some (s', buf', ok)) :
    s'.streaming = s.streaming ∧ s'.channel = s.channel ∧ (ok = true → s'.target.port < 65536) := by
  unfold Connection.onReadHttpRequest at h
  dsimp only at h
  by_cases hok : (env.parse buf.readable).ok
  swap
  · rw [if_neg hok] at h
    cases h
    exact ⟨rfl, rfl, fun hno => by cases hno⟩
  rw [if_pos hok] at h
  by_cases hconnect : (env.parse buf.readable).isConnect
  · rw [if_pos hconnect] at h
    obtain ⟨b, -, h⟩ := bind_eq_some_iff.mp h
    cases h
    exact ⟨rfl, rfl, fun _ => hport _⟩
  rw [if_neg hconnect] at h
  obtain ⟨b, -, h⟩ := bind_eq_some_iff.mp h
  obtain ⟨⟨s₁, b₁⟩, hsplit, h⟩ := bind_eq_some_iff.mp h
  cases h
  obtain ⟨hstreaming, hchannel, htarget⟩ := keepAliveSplit_frame hsplit
  refine ⟨hstreaming, hchannel, fun _ => ?_⟩
  rw [htarget]
  exact hport _

lemma performCmdOpsHttp_valid (hlt : s.target.port < 65536)
    (h : s.performCmdOpsHttp env = some s') :
    s.target.Valid ∧ s' = { s with channel := some ⟨env.request s.target, false, false⟩ } := by
  unfold Connection.performCmdOpsHttp at h
  split_ifs at h with hbad
  cases h
  push Not at hbad
  exact ⟨⟨hbad.2.1, hbad.1, hbad.2.2, hlt⟩, rfl⟩

lemma Opening.readMethodSelect (hport : ∀ bytes, (env.parse bytes).port < 65536) (h : Opening s)
    (hstreaming : s.streaming = false) {outcome : ReadOutcome}
    (hs' : s.readMethodSelect env outcome = some s') : Opening s' := by
  cases outcome with
  | wouldBlock =>
    cases hs'
    exact h
  | error =>
    cases hs'
    exact { h with }
  | data bytes =>
    obtain ⟨buf, -, hs'⟩ := bind_eq_some_iff.mp hs'
    obtain ⟨⟨s₁, b₁, ok⟩, hread, hs'⟩ := bind_eq_some_iff.mp hs'
    obtain ⟨hstreaming₁, hchannel₁, hport₁⟩ := onReadHttpRequest_frame hport hread
    have hnone : s₁.channel = none := hchannel₁.trans (h.unopened hstreaming)
    have hclosed : Opening s₁.onDisconnect := by
      refine ⟨fun _ => hnone, fun ch hch => ?_⟩
      rw [show s₁.onDisconnect.channel = none from hnone] at hch
      cases hch
    cases ok with
    | false =>
      cases hs'
      exact hclosed
    | true =>
      dsimp only at hs'
      cases hperform : s₁.performCmdOpsHttp env with
      | none =>
        simp only [hperform] at hs'
        cases hs'
        exact hclosed
      | some s₂ =>
        simp only [hperform, Option.some.injEq] at hs'
        obtain ⟨hvalid, rfl⟩ := performCmdOpsHttp_valid (hport₁ rfl) hperform
        have hopened : ∀ s₃ : Connection, s₃.streaming = true → s₃.target = s₁.target →
            Opening s₃ := by
          intro s₃ hs₃ htarget
          refine ⟨fun hno => ?_, fun _ _ _ _ => htarget ▸ hvalid⟩
          rw [hs₃] at hno
          cases hno
        subst hs'
        split_ifs
        · exact hopened _ rfl rfl
        apply hopened
        · rw [(onStreamRead_frame _ _).1]
        · rw [(onStreamRead_frame _ _).2.2]

lemma opening_of_reuse (hport : ∀ bytes, (env.parse bytes).port < 65536)
    (hstreaming : s.streaming) {ch : Channel} (hch : s.channel = some ch)
    {buf : GrowableIOBuffer} {reuse : Connection.Reuse}
    (hs' : s.onReadHttpRequestAfterReuse env buf = some reuse) :
    match reuse with
    | .same s' _ | .invalid s' _ => s'.streaming = true ∧ s'.channel = some ch
    | .reopened s' => Opening s' := by
  obtain ⟨⟨s₁, b₁, ok⟩, hread, hs'⟩ := bind_eq_some_iff.mp hs'
  obtain ⟨hstreaming₁, hchannel₁, hport₁⟩ := onReadHttpRequest_frame hport hread
  have hkept : s₁.streaming = true ∧ s₁.channel = some ch :=
    ⟨hstreaming₁.trans hstreaming, hchannel₁.trans hch⟩
  cases ok with
  | false =>
    cases hs'
    exact hkept
  | true =>
    dsimp only at hs'
    split_ifs at hs' with hconnect hother
    · cases hs'
      exact hkept
    · obtain ⟨s₂, hperform, hs'⟩ := bind_eq_some_iff.mp hs'
      cases hs'
      obtain ⟨hframe₁, -, hframe₃⟩ := onStreamRead_frame { s₁ with channel := none } b₁
      have hlt : ({ s₁ with channel := none }.onStreamRead b₁).target.port < 65536 := by
        rw [hframe₃]
        exact hport₁ rfl
      obtain ⟨hvalid, rfl⟩ := performCmdOpsHttp_valid hlt hperform
      refine ⟨fun hno => ?_, fun _ _ _ _ => hvalid⟩
      rw [show Connection.streaming _ = s₁.streaming from hframe₁, hkept.1] at hno
      cases hno
    · cases hs'
      exact hkept

lemma Opening.afterRead (hport : ∀ bytes, (env.parse bytes).port < 65536) (h : Opening s)
    (hstreaming : s.streaming) {buf : GrowableIOBuffer} {read : ℕ}
    (hs' : s.afterRead env buf read = some s') : Opening s' := by
  unfold Connection.afterRead at hs'
  by_cases hconnected : s.isConnected
  swap
  · rw [if_pos (by simpa using hconnected)] at hs'
    cases hs'
    obtain ⟨h₁, h₂, h₃⟩ := onStreamRead_frame s buf
    exact h.of_eq h₁ h₂ h₃
  obtain ⟨ch, hch, hch'⟩ : ∃ ch, s.channel = some ch ∧ ch.connected = true := by
    simpa [Connection.isConnected, Option.any_eq_true] using hconnected
  rw [if_neg (by simp [hconnected])] at hs'
  by_cases hkeep : s.isKeepAlive
  swap
  · rw [if_neg hkeep] at hs'
    cases hs'
    exact { h with }
  rw [if_pos hkeep] at hs'
  by_cases hzero : s.remainingBytes = 0
  · rw [if_pos hzero] at hs'
    obtain ⟨reuse, hreuse, hs'⟩ := bind_eq_some_iff.mp hs'
    have hspec := opening_of_reuse hport hstreaming hch hreuse
    cases reuse with
    | same s₁ b₁ =>
      cases hs'
      exact opening_of_connected hspec.2 hspec.1 hch'
    | invalid s₁ b₁ =>
      dsimp only at hs'
      split_ifs at hs' <;> cases hs' <;> exact opening_of_connected hspec.2 hspec.1 hch'
    | reopened s₁ =>
      cases hs'
      exact { hspec with }
  rw [if_neg hzero] at hs'
  split_ifs at hs' with hless hnegative
  · obtain ⟨b, -, hs'⟩ := bind_eq_some_iff.mp hs'
    cases hs'
    exact { h with }
  · cases hs'
    exact { h with }

lemma Opening.getNextUpstreamBuf (hport : ∀ bytes, (env.parse bytes).port < 65536) (h : Opening s)
    (hstreaming : s.streaming) {outcome : ReadOutcome}
    (hs' : s.getNextUpstreamBuf env outcome = some s') : Opening s' := by
  unfold Connection.getNextUpstreamBuf at hs'
  by_cases hqueue : s.upstream ≠ []
  · rw [if_pos hqueue] at hs'
    cases hs'
    exact h
  rw [if_neg hqueue] at hs'
  cases hresumed : s.resumed with
  | some buf =>
    simp only [hresumed] at hs'
    have htaken : Opening { s with pendingBuf := none } := { h with }
    exact htaken.afterRead hport hstreaming hs'
  | none =>
    simp only [hresumed] at hs'
    generalize hdrop : (if s.isKeepAlive = true then { s with previousBuf := none } else s) =
      dropped at hs'
    have hdropped : Opening dropped ∧ dropped.streaming = true := by
      rw [← hdrop]
      split_ifs
      · exact ⟨{ h with }, hstreaming⟩
      · exact ⟨h, hstreaming⟩
    cases outcome with
    | wouldBlock =>
      cases hs'
      exact { hdropped.1 with }
    | error =>
      cases hs'
      exact { hdropped.1 with }
    | data bytes =>
      obtain ⟨buf, -, hs'⟩ := bind_eq_some_iff.mp hs'
      have hread : Opening (dropped.receive bytes) := { hdropped.1 with }
      exact hread.afterRead hport hdropped.2 hs'

lemma Opening.writeUpstream (h : Opening s) {n : ℕ} (hs' : s.writeUpstream n = some s') :
    Opening s' := by
  unfold Connection.writeUpstream at hs'
  split at hs'
  · split_ifs at hs'
    · obtain ⟨b, -, hs'⟩ := bind_eq_some_iff.mp hs'
      cases hs'
      exact { h with }
    · cases hs'
      exact h
  · cases hs'
    exact h

lemma Opening.ended (h : Opening s) {f : Channel → Channel}
    (hf : ∀ ch, (f ch).connected = true ∨ (f ch).eof = true) :
    Opening { s with channel := s.channel.map f } where
  unopened hno := by
    show s.channel.map f = none
    rw [h.unopened hno]
    rfl
  valid ch hch hno heof := by
    obtain ⟨ch', -, rfl⟩ := Option.map_eq_some_iff.mp hch
    rcases hf ch' with hyes | hyes
    · rw [hyes] at hno
      cases hno
    · rw [hyes] at heof
      cases heof

lemma Opening.step (hport : ∀ bytes, (env.parse bytes).port < 65536) (h : Opening s) {e : Event}
    (hstep : step env s e = some s') : Opening s' := by
  unfold Cli.step at hstep
  by_cases hclosed : s.closed
  · rw [if_pos hclosed] at hstep
    cases hstep
    exact h
  rw [if_neg hclosed] at hstep
  cases e with
  | pull outcome =>
    dsimp only at hstep
    split_ifs at hstep with hstreaming
    · exact h.getNextUpstreamBuf hport hstreaming hstep
    · exact h.readMethodSelect hport (by simpa using hstreaming) hstep
  | connected =>
    cases hstep
    exact { h.ended fun _ => Or.inl rfl with }
  | write n => exact h.writeUpstream hstep
  | writeFailed =>
    cases hstep
    exact { h with }
  | lost =>
    cases hstep
    exact h.ended fun _ => Or.inr rfl

/-- **Every run.** -/
theorem opening_of_run (hport : ∀ bytes, (env.parse bytes).port < 65536) {es : List Event}
    (hrun : Run.exec (Cli.step env) start es = some s) : Opening s := by
  have hstart : Opening start := by
    refine ⟨fun _ => rfl, fun ch hch => ?_⟩
    cases hch
  exact Run.exec_keeps (fun _ _ _ h hstep => h.step hport hstep) hstart hrun

end Cli

/-! ## All handshakes -/

/-- A handshake: the events of one of the state machines. A parsed port has 16 bits. -/
inductive Handshake where
  | serverSocks4 (junk : ℕ → UInt8) (events : List Server.Socks4.Event)
  | serverSocks5 (junk beyond : ℕ → UInt8) (cfg : Server.Credentials)
      (events : List Server.Socks5.Event)
  | serverHttps (env : Server.Https.Environment) (junk : ℕ → UInt8) (cfg : Server.Credentials)
      (makeAddress : List UInt8 → Option Ss.IpAddress)
      (hport : ∀ bytes, (env.parse bytes).port < 65536) (events : List ReadOutcome)
  | serverHttp2 (env : Server.Http2.Environment) (cfg : Server.Credentials)
      (makeAddress : List UInt8 → Option Ss.IpAddress) (events : List Server.Http2.Event)
  | serverShadowsocks (E : CipherEnv) (beyond : ℕ → UInt8) (m : CipherMethod)
      (password : List UInt8) (events : List Server.Shadowsocks.Event)
  | cliSocks (env : Cli.Socks.Environment) (events : List Cli.Socks.Event)
  | cliHttp (env : Cli.Environment) (socks : Cli.Socks.Environment)
      (hport : ∀ bytes, (env.parse bytes).port < 65536) (events : List Cli.Event)

/-- `request_` when `OnConnect` is executed: built for what was asked for, or as it was at the
start. -/
def connected (c : Option Ss.Asked) : Ss.Asked × Option Ss.Request :=
  match c with
  | some asked => (asked, asked.build)
  | none => (Ss.Request.empty.asked, some .empty)

namespace Handshake

/-- The run of the handshake executes `OnConnect` for `asked`, with the request `built`. -/
def Connects (asked : Ss.Asked) (built : Option Ss.Request) : Handshake → Prop
  | .serverSocks4 junk events =>
    ∃ s c, Run.exec (Server.Socks4.step junk) Server.Socks4.start events = some s ∧
      c ∈ s.connects ∧ (asked, built) = connected c
  | .serverSocks5 junk beyond cfg events =>
    ∃ s c, Run.exec (Server.Socks5.step junk beyond cfg) Server.Socks5.start events = some s ∧
      c ∈ s.connects ∧ (asked, built) = connected (c.map Socks5.Request.asked)
  | .serverHttps env junk cfg makeAddress _ events =>
    ∃ s t, Run.exec (Server.Https.step env junk cfg) Server.Https.start events = some s ∧
      t ∈ s.connects ∧ (asked, built) = connected (some (Ss.askHost makeAddress t.host t.port))
  | .serverHttp2 env cfg makeAddress events =>
    ∃ s t, Run.exec (Server.Http2.step env cfg) (Server.Http2.start env) events = some s ∧
      t ∈ s.channels.map Server.Http2.Channel.target ∧
      (asked, built) = connected (some (Ss.askHost makeAddress t.host t.port))
  | .serverShadowsocks E beyond m password events =>
    ∃ s ch, Run.exec (Server.Shadowsocks.step E beyond) (.start E m password) events = some s ∧
      s.channel = some ch ∧ asked = ch.request.asked ∧ built = some ch.request
  | .cliSocks env events =>
    ∃ s c, Run.exec (Cli.Socks.step env) Cli.Socks.start events = some s ∧
      c ∈ s.connects ∧ (asked, built) = connected (some c)
  | .cliHttp env socks _ events =>
    ∃ s ch c, Run.exec (Cli.step env) Cli.start events = some s ∧ s.channel = some ch ∧
      ch.connected = false ∧ ch.eof = false ∧
      Cli.Socks.CmdConnects socks s.target.host s.target.port c ∧
      (asked, built) = connected (some c)

/-- The first read of a SOCKS4 handshake with the server has a name of more than 255 bytes. -/
def LongName : Handshake → Prop
  | .serverSocks4 _ events =>
    ∃ bytes, (Server.Socks4.reads events).head? = some bytes ∧ Socks4.LongName bytes
  | _ => False

end Handshake

lemma served_connected {asked : Ss.Asked} {built : Option Ss.Request} {c : Ss.Asked}
    (hc : c.Proper) (h : (asked, built) = connected (some c)) :
    ∃ r, built = some r ∧ r.Serves asked := by
  obtain ⟨rfl, rfl⟩ := Prod.mk.inj h
  exact hc.build_serves

/-- **Destinations.** In every run of every handshake, the request with which `OnConnect` is
executed is built inside its object, and has a port other than `0` and either an address or a domain
of `1` to `255` bytes with its length in front, if and only if it was not asked for by a SOCKS4A
message to the server with a longer name. -/
theorem destination_served_iff (h : Handshake) {asked : Ss.Asked} {built : Option Ss.Request}
    (hconnects : h.Connects asked built) :
    (∃ r, built = some r ∧ r.Serves asked) ↔ ¬ h.LongName := by
  cases h with
  | serverSocks4 junk events =>
    obtain ⟨s, c, hrun, hc, heq⟩ := hconnects
    obtain ⟨asked', rfl, bytes, r, hhead, hparse, hvalid, rfl⟩ :=
      (Server.Socks4.traced_of_run hrun).connects c hc
    have hlong : Handshake.LongName (.serverSocks4 junk events) ↔
        r.isSocks4a = true ∧ 255 < r.domainName.length := by
      rw [← Socks4.longName_iff hparse]
      constructor
      · rintro ⟨bytes', hhead', hname⟩
        rw [hhead] at hhead'
        cases hhead'
        exact hname
      · intro hname
        exact ⟨bytes, hhead, hname⟩
    rw [hlong]
    constructor
    · -- the copy of a long name does not fit
      rintro ⟨req, hreq, -⟩ ⟨hsocks4a, hlen⟩
      obtain ⟨rfl, rfl⟩ := Prod.mk.inj heq
      have hasked : r.asked = ⟨.domain, r.domainName, r.port⟩ := if_pos hsocks4a
      rw [hasked, Ss.Asked.build_eq_none rfl hlen] at hreq
      cases hreq
    intro hshort
    apply served_connected _ heq
    apply Socks4.Request.proper_asked hparse hvalid
    intro hsocks4a
    by_contra hlen
    exact hshort ⟨hsocks4a, Nat.lt_of_not_le hlen⟩
  | serverSocks5 junk beyond cfg events =>
    obtain ⟨s, c, hrun, hc, heq⟩ := hconnects
    obtain ⟨r, rfl, hproper⟩ := (Server.Socks5.checked_of_run hrun).connects c hc
    exact iff_of_true (served_connected hproper heq) not_false
  | serverHttps env junk cfg makeAddress hport events =>
    obtain ⟨s, t, hrun, ht, heq⟩ := hconnects
    have hvalid := Server.Https.valid_of_run hport hrun t ht
    exact iff_of_true (served_connected (hvalid.proper makeAddress) heq) not_false
  | serverHttp2 env cfg makeAddress events =>
    obtain ⟨s, t, hrun, ht, heq⟩ := hconnects
    have hvalid := Server.Http2.checked_of_run hrun t ht
    exact iff_of_true (served_connected (hvalid.proper makeAddress) heq) not_false
  | serverShadowsocks E beyond m password events =>
    obtain ⟨s, ch, hrun, hch, rfl, rfl⟩ := hconnects
    have hserves := (Server.Shadowsocks.checked_of_run hrun).served ch hch
    exact iff_of_true ⟨ch.request, rfl, hserves⟩ not_false
  | cliSocks env events =>
    obtain ⟨s, c, hrun, hc, heq⟩ := hconnects
    have hproper := Cli.Socks.proper_of_connects hrun c hc
    exact iff_of_true (served_connected hproper heq) not_false
  | cliHttp env socks hport events =>
    obtain ⟨s, ch, c, hrun, hch, hconnected, heof, hcmd, heq⟩ := hconnects
    have hvalid := (Cli.opening_of_run hport hrun).valid ch hch hconnected heof
    have hproper := Cli.Socks.proper_of_cmdConnects hvalid.host_ne hvalid.host_le hvalid.port_lt
      hvalid.port_ne hcmd
    exact iff_of_true (served_connected hproper heq) not_false

def socks4aRun (name : List UInt8) : List Server.Socks4.Event :=
  [.readable (.data ([4, 1, 0, 80, 0, 0, 0, 1, 0] ++ name ++ [0])), .writable (.written 8)]

theorem destination_served_iff_sample :
    (Handshake.serverSocks4 (fun _ => 0) (socks4aRun [97, 98])).Connects ⟨.domain, [97, 98], 80⟩
        (Ss.Asked.build ⟨.domain, [97, 98], 80⟩) ∧
      ((∃ r, Ss.Asked.build ⟨.domain, [97, 98], 80⟩ = some r ∧
          r.Serves ⟨.domain, [97, 98], 80⟩) ↔
        ¬ (Handshake.serverSocks4 (fun _ => 0) (socks4aRun [97, 98])).LongName) := by
  have hrun : (Run.exec (Server.Socks4.step fun _ => 0) Server.Socks4.start
      (socks4aRun [97, 98])).map (fun s => s.connects) =
        some [some ⟨.domain, [97, 98], 80⟩] := by decide +kernel
  obtain ⟨s, hs, hconnects⟩ := Option.map_eq_some_iff.mp hrun
  have hyes : (Handshake.serverSocks4 (fun _ => 0) (socks4aRun [97, 98])).Connects
      ⟨.domain, [97, 98], 80⟩ (Ss.Asked.build ⟨.domain, [97, 98], 80⟩) :=
    ⟨s, _, hs, by rw [hconnects]; exact List.mem_singleton_self _, rfl⟩
  exact ⟨hyes, destination_served_iff _ hyes⟩

/-- A name of 256 bytes: the server connects, and the request was written behind its object. -/
theorem long_name_written_behind :
    (Handshake.serverSocks4 (fun _ => 0) (socks4aRun (List.replicate 256 97))).Connects
      ⟨.domain, List.replicate 256 97, 80⟩ none := by
  have hrun : (Run.exec (Server.Socks4.step fun _ => 0) Server.Socks4.start
      (socks4aRun (List.replicate 256 97))).map (fun s => s.connects) =
        some [some ⟨.domain, List.replicate 256 97, 80⟩] := by decide +kernel
  obtain ⟨s, hs, hconnects⟩ := Option.map_eq_some_iff.mp hrun
  have hlong : 255 < (List.replicate 256 (97 : UInt8)).length := by
    rw [List.length_replicate]
    omega
  refine ⟨s, _, hs, by rw [hconnects]; exact List.mem_singleton_self _, ?_⟩
  rw [connected, Ss.Asked.build_eq_none rfl hlong]

end Yass
