import Yass.Server.Http2
import Yass.Server.Shadowsocks

/-!
# What the server connects to

For each handshake of the server, over all its runs: what `OnConnect` is executed for has passed the
checks of that handshake.

Source: `server/server_connection.cpp`.
-/

namespace Yass

open Yass.Net Yass.Crypto
open Option (bind_eq_some_iff)

/-! ## The server: SOCKS4 -/

namespace Server.Socks4

def Parsed (es : List Event) (asked : Ss.Asked) : Prop :=
  ∃ bytes r, (reads es).head? = some bytes ∧ Net.Socks4.requestParse bytes = (.good, some r) ∧
    r.invalid = false ∧ asked = r.asked

def Traces (es : List Event) (c : Option Ss.Asked) : Prop :=
  ∃ asked, c = some asked ∧ Parsed es asked

structure Traced (es : List Event) (s : Connection) : Prop where
  unread : s.closed = false → s.stage = .readRequest → reads es = []
  request : s.stage = .writeResponse → Traces es s.request
  connects : ∀ c ∈ s.connects, Traces es c

section Traced

variable {junk : ℕ → UInt8} {es : List Event} {s s' : Connection} {e : Event}

lemma reads_append (es : List Event) (e : Event) : reads (es ++ [e]) = reads es ++ reads [e] := by
  unfold reads
  rw [List.filterMap_append]

lemma Traces.append {c : Option Ss.Asked} (h : Traces es c) (e : Event) :
    Traces (es ++ [e]) c := by
  obtain ⟨asked, hc, bytes, r, hhead, hparse⟩ := h
  refine ⟨asked, hc, bytes, r, ?_, hparse⟩
  rw [reads_append, List.head?_append, hhead]
  rfl

lemma Traced.idle (h : Traced es s)
    (hread : s.closed = false → s.stage = .readRequest → reads [e] = []) :
    Traced (es ++ [e]) s where
  unread hopen hstage := by rw [reads_append, h.unread hopen hstage, hread hopen hstage]; rfl
  request hstage := (h.request hstage).append e
  connects c hc := (h.connects c hc).append e

lemma Traced.onDisconnect (h : Traced es s) (e : Event) : Traced (es ++ [e]) s.onDisconnect := by
  have hclosed : Traced es s.onDisconnect := { h with unread := fun hopen => by cases hopen }
  apply hclosed.idle
  intro hopen
  cases hopen

lemma Traced.handshake (h : Traced es s) (hopen : s.closed = false)
    (hstage : s.stage = .readRequest) {bytes : List UInt8} {buf : GrowableIOBuffer}
    (hbuf : buf.readable = bytes) (hs' : s.handshake buf = some s') :
    Traced (es ++ [.readable (.data bytes)]) s' := by
  unfold Connection.handshake at hs'
  split at hs'
  · rename_i r hparse
    obtain ⟨b, -, hs'⟩ := bind_eq_some_iff.mp hs'
    split_ifs at hs' with hinvalid
    · cases hs'
      exact h.onDisconnect _
    · cases hs'
      have hfirst : (reads (es ++ [.readable (.data bytes)])).head? = some bytes := by
        rw [reads_append, h.unread hopen hstage]
        rfl
      rw [hbuf] at hparse
      constructor
      · intro _ hno
        cases hno
      · intro _
        exact ⟨r.asked, rfl, bytes, r, hfirst, hparse, by simpa using hinvalid, rfl⟩
      · intro c hc
        exact (h.connects c hc).append _
  · cases hs'
    exact h.onDisconnect _

lemma Traced.onWriteResponse (h : Traced es s) (hstage : s.stage = .writeResponse)
    {outcome : WriteOutcome} (hs' : s.onWriteResponse outcome = some s') :
    Traced (es ++ [.writable outcome]) s' := by
  unfold Connection.onWriteResponse at hs'
  split_ifs at hs' with hshort
  · cases hs'
    exact h.onDisconnect _
  · cases hpending : s.pending with
    | none => simp [hpending] at hs'
    | some buf =>
      simp only [hpending, Option.some.injEq] at hs'
      subst hs'
      constructor
      · intro _ hno
        cases hno
      · intro hno
        cases hno
      intro c hc
      rcases List.mem_append.mp hc with hc | hc
      · exact (h.connects c hc).append _
      · rw [List.mem_singleton.mp hc]
        exact (h.request hstage).append _

lemma Traced.step (h : Traced es s) (hstep : step junk s e = some s') : Traced (es ++ [e]) s' := by
  unfold Socks4.step at hstep
  by_cases hclosed : s.closed
  · rw [if_pos hclosed] at hstep
    cases hstep
    apply h.idle
    intro hopen
    rw [hclosed] at hopen
    cases hopen
  rw [if_neg hclosed] at hstep
  have hopen : s.closed = false := by simpa using hclosed
  split at hstep
  · rename_i outcome hstage
    cases outcome with
    | wouldBlock =>
      cases hstep
      exact h.idle fun _ _ => rfl
    | error =>
      cases hstep
      exact h.onDisconnect _
    | data bytes =>
      obtain ⟨buf, hbuf, hstep⟩ := bind_eq_some_iff.mp hstep
      exact h.handshake hopen hstage (GrowableIOBuffer.readSome_eq_some hbuf).1 hstep
  · rename_i outcome hstage
    exact h.onWriteResponse hstage hstep
  rename_i e _ _ hread _
  cases hstep
  apply h.idle
  intro _ hstage
  cases e with
  | readable outcome => exact (hread outcome hstage rfl).elim
  | writable outcome => rfl

/-- **Every run.** What `OnConnect` is executed for is what the first read says. -/
theorem traced_of_run (hrun : Run.exec (Socks4.step junk) start es = some s) : Traced es s := by
  have hstart : Traced [] start := by
    refine ⟨fun _ _ => rfl, fun hno => ?_, fun c hc => ?_⟩
    · cases hno
    · cases hc
  exact Run.exec_keeps_history (fun _ _ _ _ h hstep => h.step hstep) hstart hrun

end Traced

end Server.Socks4

/-! ## The server: SOCKS5 -/

namespace Server.Socks5

def Asks (c : Option Net.Socks5.Request) : Prop := ∃ r, c = some r ∧ r.asked.Proper

structure Checked (s : Connection) : Prop where
  request : s.stage = .writeResponse → Asks s.request
  connects : ∀ c ∈ s.connects, Asks c

section Checked

variable {junk beyond : ℕ → UInt8} {cfg : Credentials} {s s' : Connection}

lemma Checked.step (h : Checked s) {e : Event} (hstep : step junk beyond cfg s e = some s') :
    Checked s' := by
  obtain rfl | ⟨-, heffect⟩ := effect_of_step hstep
  · exact h
  cases heffect with
  | closes => exact { h with }
  | restarts | selects | awaitsAuth | authenticates | awaitsRequest =>
    exact { h with request := fun hno => by cases hno }
  | @requests _ _ _ r _ _ _ hparse hvalid =>
    have hproper := Net.Socks5.Request.proper_asked hparse hvalid
    exact { h with request := fun _ => ⟨r, rfl, hproper⟩ }
  | connects hstage =>
    refine ⟨fun hno => (by cases hno), fun c hc => ?_⟩
    rcases List.mem_append.mp hc with hc | hc
    · exact h.connects c hc
    · rw [List.mem_singleton.mp hc]
      exact h.request hstage

/-- **Every run.** -/
theorem checked_of_run {es : List Event} (hrun : Run.exec (Socks5.step junk beyond cfg) start es =
    some s) : Checked s := by
  have hstart : Checked start := by
    refine ⟨fun hno => ?_, fun c hc => ?_⟩
    · cases hno
    · cases hc
  exact Run.exec_keeps (fun _ _ _ h hstep => h.step hstep) hstart hrun

end Checked

end Server.Socks5

/-! ## The server: HTTPS -/

/-- A host of `1` to `255` bytes, and a port that is not `0`. -/
structure Net.Target.Valid (t : Target) : Prop where
  host_ne : t.host ≠ []
  host_le : t.host.length ≤ 255
  port_ne : t.port ≠ 0
  port_lt : t.port < 65536

lemma Net.Target.Valid.proper {t : Target} (h : t.Valid)
    (makeAddress : List UInt8 → Option Ss.IpAddress) :
    (Ss.askHost makeAddress t.host t.port).Proper :=
  Ss.proper_askHost makeAddress h.host_ne h.host_le h.port_lt h.port_ne

namespace Server.Https

variable {env : Environment} {junk : ℕ → UInt8} {cfg : Credentials} {s s' : Connection}

lemma valid_handshake (hport : ∀ bytes, (env.parse bytes).port < 65536) {buf : GrowableIOBuffer}
    (h : ∀ t ∈ s.connects, t.Valid) (hs' : handshake env junk cfg s buf = some s') :
    ∀ t ∈ s'.connects, t.Valid := by
  simp only [handshake] at hs'
  by_cases hok : (env.parse buf.readable).ok
  swap
  · simp only [hok, Bool.not_false, if_true] at hs'
    cases hs'
    exact h
  simp only [hok, Bool.not_true, Bool.false_eq_true, if_false, Option.bind_eq_bind,
    bind_eq_some_iff] at hs'
  obtain ⟨rest, -, hs'⟩ := hs'
  split_ifs at hs' with hhost hlong hverify hconnect
  · cases hs'
    exact h
  · cases hs'
    exact h
  · cases hs'
    exact h
  all_goals
    push Not at hhost
    have hvalid : Target.Valid ⟨(env.parse buf.readable).host, (env.parse buf.readable).port⟩ :=
      ⟨hhost.2, Nat.le_of_not_lt hlong, hhost.1, hport _⟩
    obtain ⟨b, -, hs'⟩ := bind_eq_some_iff.mp hs'
    cases hs'
    intro t ht
    rcases List.mem_append.mp ht with ht | ht
    · exact h t ht
    · rw [List.mem_singleton.mp ht]
      exact hvalid

/-- **Every run.** -/
theorem valid_of_run (hport : ∀ bytes, (env.parse bytes).port < 65536) {es : List ReadOutcome}
    (hrun : Run.exec (step env junk cfg) start es = some s) : ∀ t ∈ s.connects, t.Valid := by
  refine Run.exec_keeps (I := fun s => ∀ t ∈ s.connects, t.Valid) ?_ (fun t ht => ?_) hrun
  · intro s outcome s' h hstep
    unfold step at hstep
    by_cases hdone : (s.closed || s.streaming)
    · rw [if_pos hdone] at hstep
      cases hstep
      exact h
    rw [if_neg hdone] at hstep
    cases outcome with
    | wouldBlock =>
      cases hstep
      exact h
    | error =>
      cases hstep
      exact h
    | data bytes =>
      obtain ⟨buf, -, hstep⟩ := bind_eq_some_iff.mp hstep
      have hread : ∀ t ∈ { s with reads := bytes :: s.reads }.connects, t.Valid := h
      exact valid_handshake hport hread hstep
  · cases ht

end Server.Https

/-! ## The server: HTTP/2 -/

namespace Server.Http2

variable {env : Environment} {cfg : Credentials} {s s' : Connection}

lemma port_of_splitHostPort {defaultPort : ℕ} {hostPort : List UInt8} {t : Target}
    (h : splitHostPortWithDefaultPort env defaultPort hostPort = some t) : t.port < 65536 := by
  unfold splitHostPortWithDefaultPort at h
  dsimp only at h
  generalize (if (env.parseAuthority hostPort).port.isEmpty = true then (defaultPort : ℤ)
    else env.parsePort (env.parseAuthority hostPort).port) = port at h
  split_ifs at h with hbad hrange
  cases h
  push Not at hrange
  show port.toNat < 65536
  omega

lemma valid_request {target : Target} (h : s.request env cfg = some target) : target.Valid := by
  simp only [Connection.request, Option.bind_eq_bind, bind_eq_some_iff,
    Option.guard_eq_some', Bool.and_eq_true, Bool.not_eq_true', bne_iff_ne, ne_eq,
    List.isEmpty_eq_false_iff, decide_eq_true_eq] at h
  obtain ⟨-, -, -, -, -, -, authority, -, split, hsplit, -, hguard, htarget⟩ := h
  cases htarget
  have hlt := port_of_splitHostPort hsplit
  exact ⟨hguard.1.1, hguard.2, hguard.1.2, hlt⟩

def Checked (s : Connection) : Prop := ∀ t ∈ s.channels.map Channel.target, t.Valid

lemma Checked.of_eq (h : Checked s) (hsame : s'.channels.map Channel.target =
    s.channels.map Channel.target) : Checked s' := by
  unfold Checked
  rw [hsame]
  exact h

lemma targets_of_records {l l' : List Channel} (h : l'.map Channel.record = l.map Channel.record) :
    l'.map Channel.target = l.map Channel.target := by
  have hmap : ∀ l : List Channel,
      (l.map Channel.record).map Channel.target = l.map Channel.target := by
    intro l
    rw [List.map_map]
    rfl
  rw [← hmap, h, hmap]

lemma Checked.step (h : Checked s) {e : Event} (hstep : step env cfg s e = some s') :
    Checked s' := by
  cases effect_of_step hstep with
  | quiet hquiet => exact h.of_eq (targets_of_records hquiet.records_eq)
  | beginHeaders id => exact h
  | header id key value => exact h
  | accepted id hrequest =>
    rw [onEndHeadersForStream_of_some hrequest]
    intro t ht
    rcases List.mem_cons.mp ht with rfl | ht
    · exact valid_request hrequest
    · exact h t ht
  | data id bytes hdata =>
    apply h.of_eq
    rw [(onDataForStream_frame hdata).1]
  | write n hwrite =>
    obtain rfl | ⟨ch, chs, sent, upstream, hchannels, -, rfl⟩ := writeUpstream_eq_some hwrite
    · exact h
    apply h.of_eq
    rw [hchannels]
    rfl

/-- **Every run.** -/
theorem checked_of_run {es : List Event} (hrun : Run.exec (step env cfg) (start env) es = some s) :
    Checked s := by
  have hstart : Checked (start env) := fun _ hno => by cases hno
  exact Run.exec_keeps (fun _ _ _ h hstep => h.step hstep) hstart hrun

end Server.Http2

/-! ## The server: Shadowsocks -/

namespace Server.Shadowsocks

variable {E : CipherEnv} {beyond : ℕ → UInt8} {s s' : Connection}

/-- `s'` differs from `s` neither in its request nor in its channel, and the handshake is where it
was. -/
structure Same (s s' : Connection) : Prop where
  request_eq : s'.request = s.request
  state_eq : s'.state = s.state
  channel_eq : s'.channel = s.channel

lemma Same.trans {s'' : Connection} (h : Same s s') (h' : Same s' s'') : Same s s'' :=
  ⟨h'.request_eq.trans h.request_eq, h'.state_eq.trans h.state_eq,
    h'.channel_eq.trans h.channel_eq⟩

lemma same_visit {event : Cipher.VisitorEvent} (h : s.visit E event = some s') : Same s s' := by
  cases event with
  | protocolError =>
    cases h
    exact ⟨rfl, rfl, rfl⟩
  | receivedData data =>
    unfold Connection.visit Connection.onReceivedData at h
    dsimp only at h
    split at h
    · cases h
      split_ifs <;> exact ⟨rfl, rfl, rfl⟩
    split at h
    · obtain ⟨chunk, -, h⟩ := bind_eq_some_iff.mp h
      cases h
      exact ⟨rfl, rfl, rfl⟩
    · cases h
      exact ⟨rfl, rfl, rfl⟩

variable {buf : GrowableIOBuffer}

lemma same_processBytes (h : s.processBytes E buf = some s') :
    Same s s' := by
  obtain ⟨⟨decoder, events⟩, -, h⟩ := bind_eq_some_iff.mp h
  have hstart : Same s { s with decoder := decoder } := ⟨rfl, rfl, rfl⟩
  exact Run.exec_keeps (I := Same s) (fun _ _ _ hsame hvisit => hsame.trans (same_visit hvisit))
    hstart h

/-- The invariant: the request is filled once, and the channel is opened for it when it has passed
the checks. -/
structure Checked (s : Connection) : Prop where
  empty : s.closed = false → s.state = .handshake → s.request = .empty
  unopened : s.state = .handshake → s.channel = none
  served : ∀ ch, s.channel = some ch → ch.request.Serves ch.request.asked

lemma Checked.processBytes (h : Checked s)
    (hs' : s.processBytes E buf = some s') (hopen : s.closed = false) : Checked s' := by
  have hsame := same_processBytes hs'
  refine ⟨?_, ?_, ?_⟩
  · intro _ hstate
    rw [hsame.state_eq] at hstate
    rw [hsame.request_eq]
    exact h.empty hopen hstate
  · rw [hsame.state_eq, hsame.channel_eq]
    exact h.unopened
  · rw [hsame.channel_eq]
    exact h.served

lemma checked_of_closed (hclosed : s.closed) (hnone : s.channel = none) : Checked s := by
  refine ⟨?_, fun _ => hnone, ?_⟩
  · intro hopen
    rw [hclosed] at hopen
    cases hopen
  intro ch hch
  rw [hnone] at hch
  cases hch

lemma checked_of_channel {ch : Channel} (hstate : s.state = .stream) (hch : s.channel = some ch)
    (hserves : ch.request.Serves ch.request.asked) : Checked s := by
  refine ⟨?_, ?_, ?_⟩
  · intro _ hno
    rw [hstate] at hno
    cases hno
  · intro hno
    rw [hstate] at hno
    cases hno
  intro other hother
  rw [hch] at hother
  cases hother
  exact hserves

lemma Checked.parseHandshake (h : Checked s) (hstate : s.state = .handshake)
    (hrequest : s.request = .empty) {n : ℕ}
    (hs' : s.parseHandshake beyond buf n = some s') : Checked s' := by
  have hnone := h.unopened hstate
  simp only [Connection.parseHandshake, hrequest] at hs'
  by_cases hgood : (Ss.parse .empty (Connection.memory beyond buf) n).result = .good
  · rw [if_pos hgood] at hs'
    obtain ⟨b, -, hs'⟩ := bind_eq_some_iff.mp hs'
    split_ifs at hs' with hinvalid
    · cases hs'
      exact checked_of_closed rfl hnone
    · cases hs'
      simp only [Connection.invalid, Bool.or_eq_true, not_or, Bool.and_eq_true, not_and,
        beq_iff_eq] at hinvalid
      have hserves := Ss.serves_parse hgood hinvalid.1.1 fun hdomain => by
        simpa using hinvalid.1.2 hdomain
      simp only [Connection.processReceivedData, hstate, Connection.onConnect,
        Connection.onUpstreamWrite]
      split_ifs
      · exact checked_of_channel rfl rfl hserves
      · exact checked_of_channel rfl rfl hserves
  rw [if_neg hgood] at hs'
  cases hs'
  exact checked_of_closed rfl hnone

lemma Checked.readHandshake (h : Checked s) (hopen : s.closed = false)
    (hstate : s.state = .handshake) {bytes : List UInt8}
    (hs' : s.readHandshake E beyond bytes = some s') : Checked s' := by
  obtain ⟨cipherbuf, -, hs'⟩ := bind_eq_some_iff.mp hs'
  obtain ⟨s₁, hs₁, hs'⟩ := bind_eq_some_iff.mp hs'
  have hsame := same_processBytes hs₁
  have h₁ := h.processBytes hs₁ hopen
  cases hbuf : s₁.handshake with
  | none =>
    simp only [hbuf] at hs'
    cases hs'
    exact h₁
  | some buf =>
    simp only [hbuf] at hs'
    apply h₁.parseHandshake _ _ hs'
    · rw [hsame.state_eq, hstate]
    · rw [hsame.request_eq, h.empty hopen hstate]

lemma Checked.of_request (h : Checked s) (hrequest : s'.request = s.request)
    (hstate : s'.state = s.state) (hclosed : s'.closed = s.closed)
    (hchannel : s'.channel.map Channel.request = s.channel.map Channel.request) : Checked s' := by
  refine ⟨?_, ?_, ?_⟩
  · rw [hclosed, hstate, hrequest]
    exact h.empty
  · intro hs
    rw [hstate] at hs
    rw [h.unopened hs] at hchannel
    simpa using hchannel
  intro ch hch
  rw [hch] at hchannel
  obtain ⟨ch', hch', heq⟩ := Option.map_eq_some_iff.mp hchannel.symm
  rw [← heq]
  exact h.served ch' hch'

lemma Checked.writeUpstream (h : Checked s) {n : ℕ} (hs' : s.writeUpstream n = some s') :
    Checked s' := by
  unfold Connection.writeUpstream at hs'
  split at hs'
  · rename_i buf rest ch _ hch
    obtain ⟨b, -, hs'⟩ := bind_eq_some_iff.mp hs'
    cases hs'
    refine h.of_request rfl rfl rfl ?_
    rw [hch]
    rfl
  · cases hs'
    exact h

lemma Checked.step (h : Checked s) {e : Event} (hstep : step E beyond s e = some s') :
    Checked s' := by
  unfold Shadowsocks.step at hstep
  by_cases hclosed : s.closed
  · simp only [hclosed, if_true] at hstep
    split at hstep <;> cases hstep <;> exact h
  have hopen : s.closed = false := by simpa using hclosed
  simp only [hopen, Bool.false_eq_true, if_false] at hstep
  split at hstep
  · split at hstep
    · rename_i hstate
      exact h.readHandshake hopen hstate hstep
    · obtain ⟨buf, -, hstep⟩ := bind_eq_some_iff.mp hstep
      exact h.processBytes hstep hopen
  · cases hstep
    exact h
  · cases hstep
    refine h.of_request rfl rfl rfl ?_
    unfold Connection.connected
    cases s.channel <;> rfl
  · exact h.writeUpstream hstep

/-- **Every run.** -/
theorem checked_of_run {m : CipherMethod} {password : List UInt8} {es : List Event}
    (hrun : Run.exec (Shadowsocks.step E beyond) (.start E m password) es = some s) :
    Checked s := by
  have hstart : Checked (.start E m password) := by
    refine ⟨fun _ _ => rfl, fun _ => rfl, fun ch hch => ?_⟩
    cases hch
  exact Run.exec_keeps (fun _ _ _ h hstep => h.step hstep) hstart hrun

end Server.Shadowsocks

end Yass
