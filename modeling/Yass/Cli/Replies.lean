import Yass.Cli.ChannelRuns
import Yass.Lib.Staged

/-!
# The replies of an upstream proxy, read by read

What a channel to an HTTP or SOCKS proxy is read for is a receiver of messages that must each
arrive in one piece (`Staged`).

* `stages` — the recognisers of the replies that are still expected, as the flags tell.
* `Handled` — a read does to the connection what it does to the receiver.
* `Tracks`, `OnChannel.tracks` — so in every state of a run on a channel the connection is where a
  receiver is that was given the same reads, or both have refused the last one.

Source: `cli/cli_connection.cpp`.
-/

namespace Yass.Cli.Relay

open Yass.Net
open Relay.Connection
open Staged (feed Receiver)
open Option (bind_eq_some_iff map_eq_some_iff)

def Method.proxies : Method → Bool
  | .https | .socks4 | .socks4a | .socks5 => true
  | .cipher | .http2 => false

def Connection.stages (env : Environment) (s : Connection) : List (List UInt8 → Option ℕ) :=
  match s.method with
  | .https =>
    if s.flags.https then [fun bytes => Upstream.httpsReply (env.parseResponse bytes)] else []
  | .socks4 | .socks4a => if s.flags.socks then [Upstream.socks4Reply] else []
  | .socks5 =>
    if s.flags.methodSelect then
      Upstream.methodSelectResponse s.flags.auth ::
        if s.flags.auth then [Upstream.authResponse, Upstream.socks5Reply]
        else [Upstream.socks5Reply]
    else if s.flags.auth then [Upstream.authResponse, Upstream.socks5Reply]
    else if s.flags.socks then [Upstream.socks5Reply]
    else []
  | .cipher | .http2 => []

def GaveUp (s : Connection) : Prop := s.refused = true ∧ s.connectedNow = false

variable {env : Environment} {s s' s'' : Connection}

lemma Still.stages (h : Still s s') : s'.stages env = s.stages env := by
  rw [Connection.stages, Connection.stages, h.method, h.flags]

/-! ## One reply -/

/-- How a stage leaves a read that begins with what `p` recognises, with `flags` behind it. -/
inductive Outcome (p : List UInt8 → Option ℕ) (flags : Flags) (s : Connection)
    (buf : GrowableIOBuffer) : Connection × Stage → Prop where
  | refused {s' : Connection} (hp : p buf.readable = none) (hs : Beside s s')
      (hrefused : GaveUp s') : Outcome p flags s buf (s', .stops .failed)
  | taken {n : ℕ} {s' : Connection} {buf' : GrowableIOBuffer} (hp : p buf.readable = some n)
      (hbuf : buf'.readable = buf.readable.drop n) (hs : Beside s s')
      (hflags : s'.flags = flags) (hrefused : s'.refused = s.refused) :
      Outcome p flags s buf (s'.leave buf')

section Replies

variable {buf : GrowableIOBuffer} {r : DownRead} {x : Connection × Stage}

variable {buf' : GrowableIOBuffer}

lemma readable_setOffset {n : ℕ}
    (h : buf.setOffset (buf.offset + n) = some buf') : buf'.readable = buf.readable.drop n := by
  obtain ⟨-, hev, -, hoff⟩ := GrowableIOBuffer.setOffset_eq_some h
  rw [GrowableIOBuffer.readable, hev, hoff, GrowableIOBuffer.readable, List.drop_drop]

variable {p : List UInt8 → Option ℕ}

lemma outcome_refuse (env : Environment) {f flags : Flags}
    (hp : p buf.readable = none) {lost : List DownTurn}
    (h : { s with flags := f }.refuse lost = some x) : Outcome p flags s buf x := by
  obtain ⟨s₁, hlost, rfl⟩ := map_eq_some_iff.mp h
  have hflows : Flows env _ s₁ := (drifts_disconnected hlost).flows
  have hstill := hflows.still
  exact .refused hp ⟨hstill.method, hstill.channels, hstill.started, hstill.reads, hstill.queued⟩
    ⟨hstill.refused, connectedNow_disconnected env hlost⟩

variable {bytes : List UInt8}

lemma outcome_patchFront {f : Flags} {n : ℕ} {up : List UpTurn}
    (hp : p buf.readable = some n) (hbuf : buf.setOffset (buf.offset + n) = some buf')
    (h : ({ s with flags := f }.patchFront env up bytes).map (leave · buf') = some x) :
    Outcome p f s buf x := by
  obtain ⟨s₁, hpatch, rfl⟩ := map_eq_some_iff.mp h
  obtain ⟨pipe, -, hwrite⟩ := bind_eq_some_iff.mp hpatch
  have hflows : Flows env _ s₁ := (makesDrifts_writeUpstreamInPipe _ _ _ hwrite).flows
  have hstill := hflows.still
  exact .taken hp (readable_setOffset hbuf)
    ⟨hstill.method, hstill.channels, hstill.started, hstill.reads, hstill.queued⟩ hstill.flags
    hstill.refused

lemma outcome_select (h : s.readUpstreamMethodSelectResponse env r buf = some x) :
    Outcome (Upstream.methodSelectResponse s.flags.auth)
      { s.flags with methodSelect := false, socks := s.flags.socks || !s.flags.auth } s buf x := by
  unfold readUpstreamMethodSelectResponse at h
  dsimp only at h
  split at h
  · next hp => exact outcome_refuse env hp h
  · next n hp =>
    obtain ⟨buf', hbuf, h⟩ := bind_eq_some_iff.mp h
    cases hauth : s.flags.auth with
    | true =>
      rw [if_pos hauth] at h
      rw [Bool.not_true, Bool.or_false]
      rw [hauth] at hp
      exact outcome_patchFront hp hbuf h
    | false =>
      rw [if_neg (by simp [hauth])] at h
      rw [Bool.not_false, Bool.or_true]
      rw [hauth] at hp
      exact outcome_patchFront hp hbuf h

lemma outcome_auth (h : s.readUpstreamAuthResponse env r buf = some x) :
    Outcome Upstream.authResponse { s.flags with auth := false, socks := true } s buf x := by
  unfold readUpstreamAuthResponse at h
  dsimp only at h
  split at h
  · next hp => exact outcome_refuse env hp h
  · next n hp =>
    obtain ⟨buf', hbuf, h⟩ := bind_eq_some_iff.mp h
    exact outcome_patchFront hp hbuf h

lemma outcome_socks (env : Environment) (hp : ∀ bytes, socksReply s.method bytes = some (p bytes))
    (h : s.readUpstreamSocksResponse r buf = some x) :
    Outcome p { s.flags with socks := false } s buf x := by
  obtain ⟨reply, hreply, h⟩ := bind_eq_some_iff.mp h
  have heq : p buf.readable = reply := Option.some_inj.mp ((hp buf.readable).symm.trans hreply)
  cases reply with
  | none => exact outcome_refuse env heq h
  | some n =>
    obtain ⟨buf', hbuf, h⟩ := bind_eq_some_iff.mp h
    cases h
    exact .taken heq (readable_setOffset hbuf) ⟨rfl, rfl, rfl, rfl, rfl⟩ rfl rfl

lemma outcome_https (h : s.readUpstreamHttpsHandshake env r buf = some x) :
    Outcome (fun bytes => Upstream.httpsReply (env.parseResponse bytes))
      { s.flags with https := false } s buf x := by
  unfold readUpstreamHttpsHandshake at h
  dsimp only at h
  split at h
  · next hp => exact outcome_refuse env hp h
  · next n hp =>
    obtain ⟨buf', hbuf, h⟩ := bind_eq_some_iff.mp h
    cases h
    exact .taken hp (readable_setOffset hbuf) ⟨rfl, rfl, rfl, rfl, rfl⟩ rfl rfl

/-! ## One read -/

inductive Reading (env : Environment) (s₀ : Connection) (bytes : List UInt8) :
    Connection × Stage → Prop where
  | refused {s : Connection} (hfeed : feed (s₀.stages env) bytes = none) (hs : Beside s₀ s)
      (hrefused : GaveUp s) : Reading env s₀ bytes (s, .stops .failed)
  | used {s : Connection} (hfeed : feed (s₀.stages env) bytes = some (s.stages env, []))
      (hs : Beside s₀ s) (hrefused : s.refused = s₀.refused) :
      Reading env s₀ bytes (s, .stops .tryAgain)
  | left {s : Connection} {buf : GrowableIOBuffer}
      (hfeed : feed (s₀.stages env) bytes = feed (s.stages env) buf.readable) (hs : Beside s₀ s)
      (hrefused : s.refused = s₀.refused) : Reading env s₀ bytes (s, .passes buf)

variable {s₀ : Connection}

lemma Reading.method (h : Reading env s₀ bytes x) :
    x.1.method = s₀.method := by
  cases h with
  | refused _ hs _ | used _ hs _ | left _ hs _ => exact hs.method

lemma feed_cons {ps : List (List UInt8 → Option ℕ)} (bytes : List UInt8) :
    feed (p :: ps) bytes = (p bytes).bind fun n =>
      if (bytes.drop n).isEmpty then some (ps, []) else feed ps (bytes.drop n) := rfl

lemma Reading.stage {ps : List (List UInt8 → Option ℕ)} {flags : Flags}
    (h : Reading env s₀ bytes (s, .passes buf)) (hstages : s.stages env = p :: ps)
    (hleft : ∀ s' : Connection, s'.method = s.method → s'.flags = flags → s'.stages env = ps)
    (houtcome : Outcome p flags s buf x) : Reading env s₀ bytes x := by
  cases h with
  | left hfeed hs hrefused =>
    rw [hstages, feed_cons] at hfeed
    cases houtcome with
    | refused hp hs' hrefused' =>
      rw [hp] at hfeed
      exact .refused hfeed (hs.trans hs') hrefused'
    | @taken n s' buf' hp hbuf hs' hflags hrefused' =>
      rw [hp, Option.bind_some, ← hbuf] at hfeed
      unfold leave
      by_cases hempty : buf'.isEmpty
      · rw [if_pos hempty]
        rw [if_pos (by rw [List.isEmpty_iff]; exact buf'.isEmpty_iff.mp hempty)] at hfeed
        rw [← hleft s' hs'.method hflags] at hfeed
        exact .used hfeed (hs.trans hs') (hrefused'.trans hrefused)
      rw [if_neg hempty]
      rw [if_neg (by rw [List.isEmpty_iff, ← buf'.isEmpty_iff]; exact hempty)] at hfeed
      rw [← hleft s' hs'.method hflags] at hfeed
      exact .left hfeed (hs.trans hs') (hrefused'.trans hrefused)

lemma Outcome.of_passes {flags : Flags}
    (h : Outcome p flags s buf (s', .passes buf')) : s'.method = s.method ∧ s'.flags = flags := by
  generalize hx : (s', Stage.passes buf') = x at h
  cases h with
  | refused => cases hx
  | taken _ _ hs hflags _ =>
    obtain ⟨rfl, -⟩ := Prod.mk.inj hx
    exact ⟨hs.method, hflags⟩

/-- A stage accepts the reply that is the next one, and `Q` holds behind it. -/
def Accepts (env : Environment) (Q : Connection → Prop)
    (stage : Connection → GrowableIOBuffer → Option (Connection × Stage)) (s : Connection) : Prop :=
  ∃ p ps flags, s.stages env = p :: ps ∧
    (∀ s' : Connection, s'.method = s.method → s'.flags = flags → s'.stages env = ps ∧ Q s') ∧
    ∀ buf x, stage s buf = some x → Outcome p flags s buf x

lemma Reading.runStage {P Q : Connection → Prop}
    {stage : Connection → GrowableIOBuffer → Option (Connection × Stage)}
    {flag : Connection → Bool} {x' : Connection × Stage} (h : Reading env s₀ bytes x)
    (hP : ∀ s buf, x = (s, .passes buf) → P s)
    (hstage : ∀ s, P s → flag s = true → Accepts env Q stage s)
    (hskip : ∀ s, P s → flag s = false → Q s) (hrun : runStage stage flag x = some x') :
    Reading env s₀ bytes x' ∧ ∀ s buf, x' = (s, .passes buf) → Q s := by
  obtain ⟨s, ec | buf⟩ := x
  · cases hrun
    refine ⟨h, fun s' buf hx => ?_⟩
    cases hx
  have hPs := hP s buf rfl
  unfold runStage at hrun
  dsimp only at hrun
  split_ifs at hrun with hflag
  · obtain ⟨p, ps, flags, hstages, hbehind, houtcome⟩ := hstage s hPs hflag
    have hout := houtcome buf x' hrun
    refine ⟨h.stage hstages (fun s' hm hf => (hbehind s' hm hf).1) hout, ?_⟩
    rintro s' buf' rfl
    obtain ⟨hmethod, hflags⟩ := hout.of_passes
    exact (hbehind s' hmethod hflags).2
  · cases hrun
    refine ⟨h, ?_⟩
    rintro s' buf' ⟨⟩
    exact hskip s hPs (by simpa using hflag)

def SocksFlags (s : Connection) : Prop :=
  s.method = .socks5 ∨
    (s.method = .socks4 ∨ s.method = .socks4a) ∧ s.flags.methodSelect = false ∧
      s.flags.auth = false

/-- `SocksFlags`, and the flags of the first stages are cleared. -/
def SelectDone (s : Connection) : Prop := SocksFlags s ∧ s.flags.methodSelect = false

def AuthDone (s : Connection) : Prop := SelectDone s ∧ s.flags.auth = false

lemma accepts_select (hs : SocksFlags s) (hflag : s.flags.methodSelect) (r : DownRead) :
    Accepts env SelectDone (readUpstreamMethodSelectResponse env r) s := by
  have hmethod : s.method = .socks5 := by
    rcases hs with hmethod | ⟨-, hfalse, -⟩
    · exact hmethod
    · rw [hflag] at hfalse
      cases hfalse
  refine ⟨_, if s.flags.auth then [Upstream.authResponse, Upstream.socks5Reply]
    else [Upstream.socks5Reply], _, by simp [stages, hmethod, hflag], ?_,
    fun _ _ => outcome_select⟩
  intro s' hm hf
  refine ⟨?_, Or.inl (hm.trans hmethod), by simp [hf]⟩
  cases hauth : s.flags.auth <;> simp [stages, hm, hmethod, hf, hauth]

lemma accepts_auth (hs : SelectDone s) (hflag : s.flags.auth) (r : DownRead) :
    Accepts env AuthDone (readUpstreamAuthResponse env r) s := by
  obtain ⟨hsocks, hselect⟩ := hs
  have hmethod : s.method = .socks5 := by
    rcases hsocks with hmethod | ⟨-, -, hfalse⟩
    · exact hmethod
    · rw [hflag] at hfalse
      cases hfalse
  refine ⟨_, [Upstream.socks5Reply], _, by simp [stages, hmethod, hselect, hflag], ?_,
    fun _ _ => outcome_auth⟩
  intro s' hm hf
  refine ⟨?_, ⟨Or.inl (hm.trans hmethod), by simp [hf, hselect]⟩, by simp [hf]⟩
  simp [stages, hm, hmethod, hf, hselect]

lemma accepts_socks (hs : AuthDone s) (hflag : s.flags.socks) (r : DownRead) :
    Accepts env (fun s' => s'.stages env = []) (readUpstreamSocksResponse r) s := by
  obtain ⟨⟨hsocks, hselect⟩, hauth⟩ := hs
  rcases hsocks with hmethod | ⟨hmethod | hmethod, -⟩
  · refine ⟨Upstream.socks5Reply, [], _,
      by simp [stages, hmethod, hselect, hauth, hflag], fun s' hm hf => ?_,
      fun _ _ => outcome_socks env fun bytes => by rw [hmethod]; rfl⟩
    simp [stages, hm, hmethod, hf, hselect, hauth]
  all_goals
    refine ⟨Upstream.socks4Reply, [], _, by simp [stages, hmethod, hflag],
      fun s' hm hf => ?_, fun _ _ => outcome_socks env fun bytes => by rw [hmethod]; rfl⟩
    simp [stages, hm, hmethod, hf]

lemma reading_readReplies (hs : SocksFlags s) (h : s.readReplies env r buf = some x) :
    Reading env s buf.readable x ∧ ∀ s' buf', x = (s', .passes buf') → s'.stages env = [] := by
  obtain ⟨x₁, h₁, h⟩ := bind_eq_some_iff.mp h
  obtain ⟨x₂, h₂, h⟩ := bind_eq_some_iff.mp h
  have h₀ : Reading env s buf.readable (s, .passes buf) := .left rfl (Beside.refl s) rfl
  have hstart : ∀ a b, (s, Stage.passes buf) = (a, .passes b) → SocksFlags a := by
    rintro a b ⟨⟩
    exact hs
  obtain ⟨hread₁, hx₁⟩ := h₀.runStage hstart (fun a ha hflag => accepts_select ha hflag r)
    (fun a ha hflag => ⟨ha, hflag⟩) h₁
  obtain ⟨hread₂, hx₂⟩ := hread₁.runStage hx₁ (fun a ha hflag => accepts_auth ha hflag r)
    (fun a ha hflag => ⟨ha, hflag⟩) h₂
  refine hread₂.runStage hx₂ (fun a ha hflag => accepts_socks ha hflag r) ?_ h
  rintro a ⟨⟨hsocks, hselect⟩, hauth⟩ hflag
  rcases hsocks with hmethod | ⟨hmethod | hmethod, -⟩
  · simp [stages, hmethod, hselect, hauth, hflag]
  · simp [stages, hmethod, hflag]
  · simp [stages, hmethod, hflag]

lemma reading_https (hmethod : s.method = .https)
    (h : runStage (readUpstreamHttpsHandshake env r) (·.flags.https)
      (s, .passes buf) = some x) :
    Reading env s buf.readable x ∧ ∀ s' buf', x = (s', .passes buf') → s'.stages env = [] := by
  have h₀ : Reading env s buf.readable (s, .passes buf) := .left rfl (Beside.refl s) rfl
  have hstart : ∀ a b, (s, Stage.passes buf) = (a, .passes b) → a.method = .https := by
    rintro a b ⟨⟩
    exact hmethod
  refine h₀.runStage hstart (fun a ha hflag => ?_) (fun a ha hflag => ?_) h
  · refine ⟨_, [], _, by simp [stages, ha, hflag], fun s' hm hf => ?_, fun _ _ => outcome_https⟩
    simp [stages, hm, ha, hf]
  · simp [stages, ha, hflag]

end Replies

structure Handled (env : Environment) (s₀ : Connection) (bytes : List UInt8) (s : Connection) :
    Prop where
  method : s.method = s₀.method
  reads : s.reads = s₀.reads
  fed : (feed (s₀.stages env) bytes = none ∧ GaveUp s ∧ s.down.queued = s₀.down.queued) ∨
    ∃ data, feed (s₀.stages env) bytes = some (s.stages env, data) ∧ s.refused = s₀.refused ∧
      s.down.queued = s₀.down.queued ++ data

section Reads

variable {buf : GrowableIOBuffer} {s₀ : Connection} {bytes : List UInt8}

lemma Reading.handled_stops {ec : Ec} (h : Reading env s₀ bytes (s, .stops ec)) :
    Handled env s₀ bytes s := by
  cases h with
  | refused hfeed hs hrefused =>
    exact ⟨hs.method, hs.reads, Or.inl ⟨hfeed, hrefused, hs.queued⟩⟩
  | used hfeed hs hrefused =>
    refine ⟨hs.method, hs.reads, Or.inr ⟨[], hfeed, hrefused, ?_⟩⟩
    rw [List.append_nil, hs.queued]

lemma Reading.handled_passes (h : Reading env s₀ bytes (s, .passes buf))
    (hstages : s.stages env = []) :
    Handled env s₀ bytes { s with down := s.down.push buf } := by
  cases h with
  | left hfeed hs hrefused =>
    rw [hstages] at hfeed
    have hnone : stages env { s with down := s.down.push buf } = [] := hstages
    refine ⟨hs.method, hs.reads,
      Or.inr ⟨buf.readable, ?_, hrefused, ?_⟩⟩
    · rw [hfeed, hnone]
      rfl
    · rw [← hs.queued]
      rfl

lemma handled_afterStages {lost : List DownTurn} {x : Connection × Stage} {ec : Ec} {out : Bool}
    (hread : Reading env s₀ bytes x) (hstages : ∀ s buf, x = (s, .passes buf) → s.stages env = [])
    (hmethod : s₀.method ≠ .cipher)
    (h : afterStages env lost x = some (s', ec, out)) : Handled env s₀ bytes s' := by
  obtain ⟨s, ec' | buf⟩ := x
  · cases h
    exact hread.handled_stops
  obtain ⟨s₁, hdeliver, h⟩ := map_eq_some_iff.mp h
  cases h
  have hnot : s.method ≠ .cipher := hread.method ▸ hmethod
  rw [deliver, if_neg hnot] at hdeliver
  cases hdeliver
  exact hread.handled_passes (hstages s buf rfl)

end Reads

/-! ## All reads of a channel -/

def Proxy (s : Connection) : Prop := s.method = .https ∨ SocksFlags s

/-- `s` is on the channel that was greeted with `s₀`, and is where a receiver is that was given the
same reads, or both have refused the last one. -/
structure Tracks (env : Environment) (s₀ s : Connection) : Prop where
  method : s.method = s₀.method
  nonempty : ∀ read ∈ s.reads, read.2 ≠ []
  receiver :
    (s.refused = false ∧ ∃ data,
      Run.exec Receiver.read ⟨s₀.stages env, []⟩ (s.reads.map Prod.snd) =
        some ⟨s.stages env, data⟩ ∧ s.down.queued = s₀.down.queued ++ data) ∨
    GaveUp s ∧ ∃ reads bytes r, s.reads.map Prod.snd = reads ++ [bytes] ∧
      Run.exec Receiver.read ⟨s₀.stages env, []⟩ reads = some r ∧ r.read bytes = none ∧
        s.down.queued = s₀.down.queued ++ r.delivered

section Tracks

variable {s₀ : Connection}

lemma Still.gaveUp (h : Still s s') (hs : GaveUp s) : GaveUp s' := by
  refine ⟨h.refused.trans hs.1, ?_⟩
  by_contra hopen
  have hstill := h.connected (by simpa using hopen)
  rw [hs.2] at hstill
  cases hstill

lemma Tracks.still (h : Tracks env s₀ s) (hs : Still s s') : Tracks env s₀ s' where
  method := hs.method.trans h.method
  nonempty := by
    rw [hs.reads]
    exact h.nonempty
  receiver := by
    rw [hs.reads, hs.queued, hs.stages, hs.refused]
    exact h.receiver.imp_right fun hgone => ⟨hs.gaveUp hgone.1, hgone.2⟩

lemma Tracks.flows (h : Tracks env s₀ s) (hs : Flows env s s') : Tracks env s₀ s' :=
  h.still hs.still

lemma Tracks.not_refused (h : Tracks env s₀ s) (hconnected : s.connectedNow) :
    s.refused = false := by
  rcases h.receiver with ⟨hgoes, -⟩ | ⟨⟨-, hgone⟩, -⟩
  · exact hgoes
  · simp [hgone] at hconnected

lemma Tracks.handled (h : Tracks env s₀ s) (hgoes : s.refused = false) {bytes : List UInt8}
    (hne : bytes ≠ []) (hs : Handled env (s.recordRead bytes) bytes s') : Tracks env s₀ s' := by
  have hreads : s'.reads.map Prod.snd = s.reads.map Prod.snd ++ [bytes] := by
    rw [hs.reads]
    simp [recordRead]
  have hfed : (feed (s.stages env) bytes = none ∧ GaveUp s' ∧ s'.down.queued = s.down.queued) ∨
      ∃ data, feed (s.stages env) bytes = some (s'.stages env, data) ∧ s'.refused = s.refused ∧
        s'.down.queued = s.down.queued ++ data := hs.fed
  obtain ⟨data, hrun, hqueued⟩ : ∃ data,
      Run.exec Receiver.read ⟨s₀.stages env, []⟩ (s.reads.map Prod.snd) =
        some ⟨s.stages env, data⟩ ∧ s.down.queued = s₀.down.queued ++ data := by
    rcases h.receiver with ⟨-, hreceiver⟩ | ⟨⟨hrefused, -⟩, -⟩
    · exact hreceiver
    · simp [hgoes] at hrefused
  refine ⟨hs.method.trans h.method, ?_, ?_⟩
  · intro read hread
    rw [hs.reads] at hread
    rcases List.mem_append.mp hread with hread | hread
    · exact h.nonempty read hread
    · rw [List.mem_singleton.mp hread]
      exact hne
  rcases hfed with ⟨hfeed, hgone, hsame⟩ | ⟨more, hfeed, hrefused, hmore⟩
  · right
    refine ⟨hgone, _, bytes, _, hreads, hrun, ?_, hsame.trans hqueued⟩
    rw [Receiver.read, hfeed]
    rfl
  left
  refine ⟨hrefused.trans hgoes, data ++ more, ?_, ?_⟩
  · rw [hreads, Run.exec_append, hrun, Option.bind_some, Run.exec_cons, Receiver.read, hfeed]
    rfl
  · rw [hmore, hqueued, List.append_assoc]

lemma Tracks.readDown (h : Tracks env s₀ s) (hgoes : s.refused = false) (hproxy : Proxy s)
    {reads : List DownRead} {ec : Ec} {out : Bool}
    (hread : readDown env reads s = some (s', ec, out)) : Tracks env s₀ s' := by
  induction reads generalizing s with
  | nil =>
    unfold readDown at hread
    split_ifs at hread <;> cases hread <;> exact h
  | cons r reads ih =>
    unfold readDown at hread
    split_ifs at hread
    · cases hread
      exact h
    split at hread
    · obtain ⟨s₁, hlost, hread⟩ := map_eq_some_iff.mp hread
      cases hread
      have hflows : Flows env s s' := (drifts_disconnected hlost).flows
      exact h.flows hflows
    · cases hread
      exact h
    · cases hread
      exact h
    · next b bs _ =>
      obtain ⟨buf, hbuf, hread⟩ := bind_eq_some_iff.mp hread
      have hbytes : buf.readable = b :: bs := (GrowableIOBuffer.readSome_eq_some hbuf).1
      have hstep : ∀ {s'}, Handled env (s.recordRead (b :: bs)) (b :: bs) s' →
          Tracks env s₀ s' := fun hs => h.handled hgoes (List.cons_ne_nil b bs) hs
      have hproxy : Proxy (s.recordRead (b :: bs)) := hproxy
      have hgoes : (s.recordRead (b :: bs)).refused = false := hgoes
      generalize s.recordRead (b :: bs) = a at hread hstep hproxy hgoes
      split at hread
      · next hmethod =>
        rcases hproxy with hm | hm | ⟨hm | hm, -⟩ <;>
          exact absurd (hmethod.symm.trans hm) (by simp)
      · -- an HTTP proxy reads again behind its reply
        next hmethod =>
        obtain ⟨x, hstage, hread⟩ := bind_eq_some_iff.mp hread
        obtain ⟨hx, hleft⟩ := reading_https hmethod hstage
        rw [hbytes] at hx
        split at hread
        · have hs := hx.handled_stops
          refine ih (hstep hs) ?_ (Or.inl (hs.method.trans hmethod)) hread
          cases hx with
          | used _ _ hrefused => exact hrefused.trans hgoes
        · exact hstep (handled_afterStages hx hleft (by simp [hmethod]) hread)
      all_goals
        next hmethod =>
        obtain ⟨x, hreplies, hread⟩ := bind_eq_some_iff.mp hread
        have hsocks : SocksFlags a := hproxy.resolve_left (by simp [hmethod])
        obtain ⟨hx, hleft⟩ := reading_readReplies hsocks hreplies
        rw [hbytes] at hx
        refine hstep (handled_afterStages hx hleft ?_ hread)
        rcases hsocks with hm | ⟨hm | hm, -⟩ <;> simp [hm]

end Tracks

/-! ## A new channel -/

/-- The recognisers of the replies that the greeting of a channel asks for. `header` tells that no
reply to a `CONNECT` was read on an earlier channel. -/
def firstStages (env : Environment) (header : Bool) : Method → List (List UInt8 → Option ℕ)
  | .https => if header then [fun bytes => Upstream.httpsReply (env.parseResponse bytes)] else []
  | .socks4 | .socks4a => [Upstream.socks4Reply]
  | .socks5 =>
    Upstream.methodSelectResponse env.authRequired ::
      if env.authRequired then [Upstream.authResponse, Upstream.socks5Reply]
      else [Upstream.socks5Reply]
  | .cipher | .http2 => []

lemma stages_greetChannel {m : Method} (hs : Kept m s) {c : Connect}
    (h : s.greetChannel env c = some s') (hproxies : s'.method.proxies) :
    s'.closed = true ∨ s'.stages env = firstStages env s.flags.https s'.method := by
  unfold greetChannel at h
  split_ifs at h with hagain
  · -- an adapter that is there is that of an HTTP/2 server
    rw [Bool.and_eq_true] at hagain
    obtain ⟨k, hk⟩ := Option.isSome_iff_exists.mp hagain.2
    obtain ⟨s₁, hsettled, hsent⟩ := greetAgain_eq_some env h
    have hmethod : s'.method = .http2 := by
      rw [hsent.method]
      refine hsettled.method.trans ?_
      simp [openChannel, hk, (hs.adapter k hk).1]
    simp [hmethod, Method.proxies] at hproxies
  have hflags : (s.openChannel (s.speaksHttp11 c)).flags = s.flags := rfl
  have hmethod : s'.method = (s.openChannel (s.speaksHttp11 c)).method := by
    obtain ⟨_, _, _, _, _, _, hflows⟩ := greet_eq_some h
    exact hflows.method
  generalize s.openChannel (s.speaksHttp11 c) = o at h hflags hmethod
  rw [hmethod] at hproxies ⊢
  unfold greet at h
  split at h
  · next hm => simp [hm, Method.proxies] at hproxies
  · next hm =>
    cases h
    right
    simp [stages, firstStages, hm, hflags]
  · next hm =>
    unfold writeUpstreamSocks4Request at h
    split at h
    · cases h
    · cases h
      left
      unfold onDisconnect
      split_ifs with hclosed
      · exact hclosed
      · rfl
    · cases h
      right
      simp [stages, firstStages, hm]
  · next hm =>
    cases h
    right
    simp [stages, firstStages, hm, writeUpstreamSocks4ARequest]
  · next hm =>
    cases h
    right
    simp [stages, firstStages, hm, writeUpstreamMethodSelectRequest]
  · next hm => simp [hm, Method.proxies] at hproxies

lemma Kept.proxy {m : Method} (hs : Kept m s) (hproxies : s.method.proxies) : Proxy s := by
  unfold Proxy SocksFlags
  cases hmethod : s.method with
  | https => simp
  | socks5 => simp
  | cipher | http2 => simp [hmethod, Method.proxies] at hproxies
  | socks4 | socks4a =>
    have hm : m ≠ .socks5 := by
      rintro rfl
      rw [hs.method_eq (by decide)] at hmethod
      cases hmethod
    simpa using hs.select hm

section Channel

variable {m : Method} {s₀ s₁ : Connection}

lemma Greeted.tracks (h : Greeted s₁ s) : Tracks env s s where
  method := rfl
  nonempty := by simp [h.reads]
  receiver := Or.inl ⟨h.refused, [], by simp [h.reads, Run.exec], by simp⟩

lemma carried_tracks (hproxies : s₁.method.proxies) : Carried env m (Tracks env s₁) where
  flow _ _ hs hflow := hs.still hflow.still
  asked _ _ hs := hs.still ⟨⟨rfl, rfl, rfl, rfl, rfl⟩, rfl, rfl, fun hopen => by cases hopen⟩
  unpend _ hs := hs.still ⟨⟨rfl, rfl, rfl, rfl, rfl⟩, rfl, rfl, id⟩
  readDown _ _ _ _ _ hs hkept hconnected hread :=
    hs.readDown (hs.not_refused hconnected) (hkept.proxy (hs.method ▸ hproxies)) hread

/-- **The reads of a channel to a proxy.** -/
theorem OnChannel.tracks (h : OnChannel env m s₀ s₁ s) (hproxies : s₁.method.proxies) :
    Tracks env s₁ s := by
  obtain ⟨es, c, es', -, -, -, hgreet, -⟩ := h.exists_run
  exact h.carried (carried_tracks hproxies) (greeted_greetChannel hgreet).tracks

lemma OnChannel.stages (h : OnChannel env m s₀ s₁ s) (hproxies : s₁.method.proxies) :
    s.reads = [] ∨ s₁.stages env = firstStages env s₀.flags.https s₁.method := by
  obtain ⟨es, c, es', hreach, -, -, hgreet, -⟩ := h.exists_run
  rcases stages_greetChannel (kept_run hreach) hgreet hproxies with hgone | hstages
  · rw [h.eq_of_closed hgone]
    exact .inl (greeted_greetChannel hgreet).reads
  · exact .inr hstages

end Channel

end Yass.Cli.Relay
