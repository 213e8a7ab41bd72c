import Yass.Net.EncryptAppends
import Yass.Server.Shadowsocks
import Yass.UpstreamOrder

/-!
# Shadowsocks tunnels

A client encrypts the header of its request and then what the application sends, a server what it
has read from the target. `EncryptData` cuts the plaintext into pieces, and appends them to a buffer
that may have been sent in part.

* `Net.Cipher.Encoded` — what an encoder has encrypted and written since it was created;
  `Encoded.wire` says that the bytes are a ciphertext.
* `Net.Cipher.Sent` — the same for a queue that `EncryptData` appends to and the socket takes from.
* `Cli.Relay.Tunnelled`, `Server.Relay.Core.Sends` — what a connection keeps in its queue.

Source: `cli/cli_connection.cpp`, `server/server_connection.cpp`, `net/cipher.cpp`.
-/

namespace Yass

open Yass.Net Yass.Crypto
open Yass.Net.Ss (Destination Starts)
open Option (bind_eq_some_iff some_inj)

/-! ## What an encoder has written -/

namespace Net.Cipher

open Framing

variable {E : CipherEnv} {m : CipherMethod} {master password : List UInt8} {c c' c'' : Cipher}
  {calls : List (List UInt8 × GrowableIOBuffer)} {oks : List Bool} {bufs : List GrowableIOBuffer}
  {plain pt bytes : List UInt8} {b b' : GrowableIOBuffer} {ok : Bool}

lemma encryptAll_concat (h : c.encryptAll E calls = some (c', oks, bufs))
    (henc : c'.encrypt E pt b = some (c'', ok, b')) :
    c.encryptAll E (calls ++ [(pt, b)]) = some (c'', oks ++ [ok], bufs ++ [b']) ∧
      appended (calls ++ [(pt, b)]) (bufs ++ [b']) =
        appended calls bufs ++ b'.everything.drop b.capacity := by
  induction calls generalizing c oks bufs with
  | nil =>
    cases h
    simp [encryptAll, henc, appended]
  | cons call calls ih =>
    obtain ⟨⟨c₁, ok₁, b₁⟩, hfirst, h⟩ := bind_eq_some_iff.mp h
    obtain ⟨⟨c₂, oks₁, bufs₁⟩, hrest, h⟩ := bind_eq_some_iff.mp h
    cases h
    obtain ⟨hrun, happ⟩ := ih hrest
    simp only [appended] at happ ⊢
    exact ⟨by simp [encryptAll, hfirst, hrun], by simp [happ]⟩

lemma IsStream.oks_eq (h : IsStream m master c) (hseal : ∀ i, E.sealFails i = false)
    (hrun : c.encryptAll E calls = some (c', oks, bufs)) :
    oks = (calls.map Prod.fst).map fun _ => true := by
  induction calls generalizing c oks bufs with
  | nil =>
    cases hrun
    rfl
  | cons call calls ih =>
    obtain ⟨pt, b⟩ := call
    obtain ⟨b', henc⟩ : ∃ b', c.encrypt E pt b =
        some ((streamFrame E (nonced E m master c) pt).1, true, b') := by
      have hok : (streamFrame E (nonced E m master c) pt).2.1 = true := by simp [streamFrame, hseal]
      rw [← hok]
      by_cases hinit : c.init
      · rw [nonced, if_pos hinit]
        exact (h.encrypt_spec hinit pt b).imp fun _ hb => hb.1
      · exact (h.encrypt_first (by simpa using hinit) pt b).imp fun _ hb => hb.1
    obtain ⟨x, hfirst, hrun⟩ := bind_eq_some_iff.mp hrun
    obtain rfl := some_inj.mp (henc.symm.trans hfirst)
    obtain ⟨⟨_, _, _⟩, hrest, hrun⟩ := bind_eq_some_iff.mp hrun
    cases hrun
    rw [ih (h.afterNonce.behindFrame pt).1 hrest]
    rfl

variable (E m password) in
/-- Since it was created, the encoder `c` has encrypted `plain`, and has written `bytes`. The first
call found an empty buffer. -/
def Encoded (c : Cipher) (plain bytes : List UInt8) : Prop :=
  ∃ calls oks bufs, (create E m password).encryptAll E calls = some (c, oks, bufs) ∧
    (∀ call ∈ calls.head?, call.2.readable = []) ∧
    (∀ p ∈ calls.map Prod.fst, 1 ≤ p.length ∧ p.length ≤ chunkSizeMask) ∧
    (calls.map Prod.fst).flatten = plain ∧ appended calls bufs = bytes

lemma Encoded.encrypt (h : Encoded E m password c plain bytes)
    (hpt : 1 ≤ pt.length ∧ pt.length ≤ chunkSizeMask) (hready : c.init = true ∨ b.readable = [])
    (henc : c.encrypt E pt b = some (c', ok, b')) :
    Encoded E m password c' (plain ++ pt) (bytes ++ b'.everything.drop b.capacity) := by
  obtain ⟨calls, oks, bufs, hrun, hfirst, hsizes, rfl, rfl⟩ := h
  obtain ⟨hrun', happ⟩ := encryptAll_concat hrun henc
  refine ⟨calls ++ [(pt, b)], _, _, hrun', ?_, ?_, by simp, happ⟩
  · cases calls with
    | nil =>
      cases hrun
      simpa [create] using hready
    | cons call calls => exact hfirst
  · rw [List.map_append, List.forall_mem_append]
    exact ⟨hsizes, List.forall_mem_singleton.mpr hpt⟩

/-- **The loop of `EncryptData`.** -/
lemma Encoded.encryptPieces {turns : ℕ} (h : Encoded E m password c plain bytes)
    (hturns : pt.length ≤ turns) (hready : c.init = true ∨ b.readable = [])
    (henc : Cipher.encryptPieces E turns c pt b = some (c', ok, b')) :
    Encoded E m password c' (plain ++ pt) (bytes ++ b'.everything.drop b.capacity) := by
  induction turns generalizing c plain bytes pt b ok with
  | zero =>
    obtain rfl : pt = [] := List.length_eq_zero_iff.mp (Nat.le_zero.mp hturns)
    cases henc
    rwa [List.append_nil, List.drop_of_length_le b'.length_everything.le, List.append_nil]
  | succ turns ih =>
    unfold Cipher.encryptPieces at henc
    split_ifs at henc with hnil
    · cases henc
      rwa [hnil, List.append_nil, List.drop_of_length_le b'.length_everything.le, List.append_nil]
    obtain ⟨⟨c₁, ok₁, b₁⟩, hfirst, henc⟩ := bind_eq_some_iff.mp henc
    obtain ⟨⟨c₂, ok₂, b₂⟩, hrest, henc⟩ := bind_eq_some_iff.mp henc
    cases henc
    have hpos : 0 < pt.length := List.length_pos_iff.mpr hnil
    have hsize : 1 ≤ (pt.take ssFrameSize).length ∧
        (pt.take ssFrameSize).length ≤ chunkSizeMask := by
      rw [List.length_take]
      unfold ssFrameSize chunkSizeMask
      omega
    have hshort : (pt.drop ssFrameSize).length ≤ turns := by
      rw [List.length_drop]
      unfold ssFrameSize
      omega
    obtain ⟨hext₁, hinit₁⟩ := encrypt_extends hready hfirst
    obtain ⟨hext₂, -⟩ := encryptPieces_extends (Or.inl hinit₁) hrest
    have h₂ := ih (h.encrypt hsize hready hfirst) hshort (Or.inl hinit₁) hrest
    have hle : b.capacity ≤ b₁.everything.length := by
      rw [b₁.length_everything]
      exact hext₁.capacity_le
    rw [List.append_assoc, List.take_append_drop, List.append_assoc] at h₂
    rwa [hext₂.everything_eq, List.drop_append_of_le_length hle]

/-- **A ciphertext**, also for a peer whose random and undefined bytes are its own. -/
lemma Encoded.wire (h : Encoded E m password c plain bytes) (hne : plain ≠ [])
    (hseal : ∀ i, E.sealFails i = false) (rand junk : ℕ → UInt8) :
    Wire { E with rand := rand, junk := junk } m (deriveKey E.hashes password m.keySize)
      plain bytes := by
  obtain ⟨calls, oks, bufs, hrun, hfirst, hsizes, rfl, rfl⟩ := h
  cases calls with
  | nil => exact absurd rfl hne
  | cons call calls =>
    by_cases hm : m.isStream
    · have hs := isStream_create (E := E) hm password
      obtain ⟨_, _, _, hrun', -, -, happ⟩ := hs.encryptAll_first (E := E) rfl call calls
      cases hrun.symm.trans hrun'
      refine .stream hm (freshNonce E m) length_freshNonce ?_
      rw [happ (by rw [← call.2.length_readable, hfirst call rfl, List.length_nil]),
        hs.oks_eq hseal hrun, framed_all]
    · have hm' : m.isStream = false := by simpa using hm
      obtain ⟨_, hrun', happ⟩ :=
        (tracks_create (E := E) hm' password).isAead.encryptAll_spec (E := E) (call :: calls)
      cases hrun.symm.trans hrun'
      refine .aead hm' (freshSalt E m) _ (by simp [freshSalt]) hsizes rfl ?_
      rw [happ, List.map_cons, (emitAll_create m _ rfl _).1, emitAll_oks hseal, streamItems,
        framed_all]
      rfl

variable {p p' : Pipe}

variable (E m password) in
/-- What was queued is the ciphertext of `plain`, and `EncryptData` can append to the queue. -/
structure Sent (c : Cipher) (plain : List UInt8) (p : Pipe) : Prop where
  ready : Ready c p
  encoded : Encoded E m password c plain p.queued

lemma sent_create (hqueued : p.queued = []) (hpending : p.pending = []) :
    Sent E m password (create E m password) [] p :=
  ⟨Or.inr hpending, [], [], [], rfl, by simp, by simp, rfl, hqueued.symm⟩

lemma Sent.encryptData {buf : GrowableIOBuffer} (h : Sent E m password c plain p)
    (henc : p.encryptData E c buf = some (c', ok, p')) :
    Sent E m password c' (plain ++ buf.readable) p' := by
  obtain ⟨b, b', hpieces, hread, hqueued, -⟩ := Pipe.encryptData_pieces henc
  obtain ⟨_, -, -, -, hready⟩ := Pipe.encryptData_eq_some h.ready henc
  refine ⟨hready, ?_⟩
  rw [hqueued]
  exact h.encoded.encryptPieces buf.length_readable.le (h.ready.imp_right hread) hpieces

lemma Sent.writeFront {n written : ℕ} {empty : Bool} (h : Sent E m password c plain p)
    (hwrite : p.writeFront n = some (p', written, empty)) : Sent E m password c plain p' := by
  obtain ⟨_, _, -, -, hqueued, -⟩ := Pipe.writeFront_eq_some hwrite
  exact ⟨h.ready.imp_right (pending_writeFront hwrite), hqueued ▸ h.encoded⟩

/-- A peer with the same password decrypts of what the socket has accepted a start of `plain`, and
once nothing is queued it has a ciphertext of all of it. -/
structure Reaches (E : CipherEnv) (m : CipherMethod) (password plain : List UInt8) (p : Pipe) :
    Prop where
  start : ∀ rand junk, decoded { E with rand := rand, junk := junk } m
    (deriveKey E.hashes password m.keySize) p.accepted <+: plain
  whole : ∀ rand junk, p.queue.isEmpty = true → plain ≠ [] →
    Wire { E with rand := rand, junk := junk } m (deriveKey E.hashes password m.keySize) plain
      p.accepted

/-- The encoder has the key of the password, and its ciphers work. -/
structure Keyed (E : CipherEnv) (m : CipherMethod) (password : List UInt8) (c : Cipher) : Prop where
  encoder_eq : c = create E m password
  seals : ∀ i, E.sealFails i = false
  inverse : (E.aead m).Inverse

def sampleCoder : Cipher := create (.sample fun _ => false) .aes256Ctr []

lemma keyed_sample : Keyed (.sample fun _ => false) .aes256Ctr [] sampleCoder :=
  ⟨rfl, fun _ => rfl, Aead.zeroTag_inverse _⟩

lemma Sent.reaches (h : Sent E m password c plain p) (hkeyed : Keyed E m password c')
    (hp : Yass.Delivers p) : Reaches E m password plain p := by
  refine ⟨fun rand junk => ?_, fun rand junk hempty hne => ?_⟩
  · by_cases hne : plain = []
    · obtain ⟨calls, oks, bufs, -, -, hsizes, hplain, hbytes⟩ := h.encoded
      have hnil := hp.accepted
      cases calls with
      | nil =>
        rw [← hbytes, show appended [] bufs = [] from rfl, List.prefix_nil] at hnil
        rw [hnil, decoded_nil]
        exact List.nil_prefix
      | cons call calls =>
        have hlong := (hsizes call.1 List.mem_cons_self).1
        simp [(List.append_eq_nil_iff.mp (hplain.trans hne)).1] at hlong
    · have hwire := h.encoded.wire hne hkeyed.seals rand junk
      exact Wire.decoded_prefix hwire hkeyed.inverse hp.accepted
  · rw [hp.drained hempty]
    exact h.encoded.wire hne hkeyed.seals rand junk

end Net.Cipher

/-! ## The client -/

namespace Cli.Relay

open Net.Cipher (Keyed Reaches Sent keyed_sample sent_create)
open Server.Shadowsocks (Relays firstDelivery reads waiting_start)

variable {env : Environment} {m : CipherMethod} {password header : List UInt8} {n : ℕ}
  {s s' : Connection}

variable (env m password header) in
def Core.Sends (c : Core) : Prop :=
  Sent env.cipher m password c.encoder (header ++ c.app) c.up

variable (env m password header n) in
/-- On the `n`-th channel, as long as it is the last one, the header and what the application has
sent were queued, encrypted. -/
structure Tunnelled (s : Connection) : Prop where
  kept : Kept .cipher s
  sends : n < s.channels ∨ s.channels = n ∧ s.core.Sends env m password header

lemma Core.Sends.flow (h : s.core.Sends env m password header) (hmethod : s.method = .cipher)
    (hflow : Flow env s s') : s'.core.Sends env m password header := by
  cases hflow with
  | quiet hcore _ _ => rwa [hcore]
  | frame hhttp2 _ _ =>
    rw [hmethod] at hhttp2
    cases hhttp2
  | put _ _ hput =>
    simp only [Connection.put, hmethod] at hput
    obtain ⟨⟨encoder, ok, up⟩, hcall, hput⟩ := bind_eq_some_iff.mp hput
    cases hput
    have hsent := Sent.encryptData h hcall
    rwa [List.append_assoc] at hsent
  | wroteUp _ hwrite => exact Sent.writeFront h hwrite
  | reopened _ hcore _ =>
    rw [hcore]
    exact h
  | wroteDown _ | pend _ => exact h

lemma Tunnelled.move (h : Tunnelled env m password header n s) (hmove : Move env s s') :
    Tunnelled env m password header n s' := by
  refine ⟨h.kept.move hmove, ?_⟩
  have hmethod : s.method = .cipher := h.kept.method_eq (by decide)
  obtain ⟨hselect, hauth⟩ := h.kept.select (by decide)
  rcases h.sends with hlt | ⟨hn, hsends⟩
  · exact Or.inl (hlt.trans_le hmove.moves.grows.2)
  cases hmove with
  | flow hflow => exact Or.inr ⟨hflow.still.channels.trans hn, hsends.flow hmethod hflow⟩
  | asked hcore _ =>
    refine Or.inr ⟨(congrArg Core.channels hcore).trans hn, ?_⟩
    rw [hcore]
    exact hsends
  | greeted _ _ hgreet =>
    obtain ⟨_, _, _, _, _, _, hflows⟩ := greet_eq_some hgreet
    have hcount : s'.channels = s.channels + 1 := hflows.still.channels
    exact Or.inl (by omega)
  | greetedAgain _ _ hno _ => rcases hno with hno | hno <;> simp [hmethod] at hno
  | selectedAuth hflag _ _ | selected hflag _ _ _ => simp [hselect] at hflag
  | authenticated hflag _ => simp [hauth] at hflag
  | begun | pushDown _ | read _ | granted _ _ | refused _ _ | unpend => exact Or.inr ⟨hn, hsends⟩

lemma carried_tunnelled : Carried env .cipher (Tunnelled env m password header n) where
  flow _ _ hs hflow := hs.move (.flow hflow)
  asked _ _ hs := ⟨{ hs.kept with }, hs.sends⟩
  unpend _ hs := hs.move .unpend
  readDown _ _ _ _ _ hs _ _ hread := (moves_readDown hread).keeps (fun _ _ hs => hs.move) hs

variable {dest : Destination} {s₀ s₁ : Connection}

lemma requestBytes_of_starts {r : Ss.Request} (h : Starts r.raw dest.header) :
    Connection.requestBytes r = dest.header := by
  have hstart : Starts r.raw ([] ++ dest.header ++ []) := by simpa using h
  rw [Connection.requestBytes, Destination.length_of_starts h]
  simpa using hstart.map_range

/-- **The first frames of a channel are the header.** -/
lemma OnChannel.tunnelled (h : OnChannel env .cipher s₀ s₁ s)
    (hencoder : env.encoder = Cipher.create env.cipher m password)
    (hdest : Starts s₀.request.raw dest.header) :
    Tunnelled env m password dest.header s₁.channels s₁ := by
  obtain ⟨hs₀, hkept, hch, settings, frames, lost, hgreet⟩ := h.greeted (by decide) (by decide)
  have hopened : Kept .cipher (s₀.openChannel false) := hkept.openChannel (by simp)
  have hempty : (s₀.openChannel false).up.pending = [] :=
    hs₀.pending_of_waiting (waiting_of_any hch false).1 (hkept.method_eq (by decide))
  have hmethod : (s₀.openChannel false).method = .cipher := hopened.method_eq (by decide)
  simp only [Connection.greet, hmethod] at hgreet
  obtain ⟨⟨encoder, ok, up⟩, hcall, hgreet⟩ := bind_eq_some_iff.mp hgreet
  have hstart : Sent env.cipher m password env.encoder [] (s₀.openChannel false).up :=
    hencoder ▸ sent_create hempty hempty
  have hheader : (GrowableIOBuffer.copyBuffer
      (Connection.requestBytes (s₀.openChannel false).request)).readable = dest.header ++ [] := by
    rw [List.append_nil]
    exact (GrowableIOBuffer.readable_copyBuffer _).trans (requestBytes_of_starts hdest)
  have hsent : Tunnelled env m password dest.header (s₀.openChannel false).channels
      { s₀.openChannel false with encoder, decoder := env.decoder, up } := by
    refine ⟨{ hopened with }, Or.inr ⟨rfl, ?_⟩⟩
    have hcalled := hstart.encryptData hcall
    rwa [List.nil_append, hheader] at hcalled
  simp only [hmethod] at hsent
  split_ifs at hgreet
  · cases hgreet
    exact hsent
  · have hlost : Flows env _ s₁ := (drifts_disconnected hgreet).flows
    rw [show s₁.channels = (s₀.openChannel false).channels from hlost.still.channels]
    exact hlost.keeps (fun _ _ hs hflow => hs.move (.flow hflow)) hsent

lemma OnChannel.delivers {m : Method} (h : OnChannel env m s₀ s₁ s) : Delivers s.up := by
  obtain ⟨es, c, es', hreach, -, -, -, hrun⟩ := h.exists_run
  have hall : Run.exec (step env) (start env m) (es ++ .connected c :: es') = some s := by
    rw [Run.exec_append, hreach]
    exact hrun
  exact delivers_of_sound (ordered_run hall).up

lemma OnChannel.sent (h : OnChannel env .cipher s₀ s₁ s)
    (hkeyed : Keyed env.cipher m password env.encoder)
    (hdest : Starts s₀.request.raw dest.header) :
    Sent env.cipher m password s.encoder (dest.header ++ s.app) s.up := by
  obtain ⟨-, hlt | ⟨-, hsent⟩⟩ :=
    h.carried carried_tunnelled (h.tunnelled hkeyed.encoder_eq hdest)
  · exact absurd h.channels hlt.ne'
  · exact hsent

/-- A run on a channel to a Shadowsocks server, when the application has sent something. -/
lemma exists_sampleTunnel : ∃ s₀ s₁ s, OnChannel (.sample false [] []) .cipher s₀ s₁ s ∧
    Starts s₀.request.raw sampleDestination.header ∧ s.up.queue.isEmpty = true ∧
    s.app = List.replicate 9 7 ∧ s.up.accepted =
      (List.range 16).map UInt8.ofNat ++ sampleDestination.header ++ List.replicate 9 7 := by
  have hrun : (channelStates (.sample false [] []) .cipher
      [.handshake (some ⟨fun i => sampleDestination.header.getD i 0⟩) .nothing
        (List.replicate 9 7) [] []] (sampleConnect false) [.sent [sampleWrite]]).map
      (fun x => ((List.range 7).map x.1.request.raw, x.2.2.up.queue.isEmpty, x.2.2.app,
        x.2.2.up.accepted)) = some (sampleDestination.header, true, List.replicate 9 7,
      (List.range 16).map UInt8.ofNat ++ sampleDestination.header ++ List.replicate 9 7) := by
    decide +kernel
  obtain ⟨⟨s₀, s₁, s⟩, hs, hstates⟩ := Option.map_eq_some_iff.mp hrun
  simp only [Prod.mk.injEq] at hstates
  exact ⟨s₀, s₁, s, onChannel_channelStates hs, starts_of_map_range hstates.1, hstates.2⟩

/-- **What a Shadowsocks server gets.** On every channel that a client connection is connected to,
in every state of every run: the header of the request and then the data of the application. -/
theorem upstream_reaches (h : OnChannel env .cipher s₀ s₁ s)
    (hkeyed : Keyed env.cipher m password env.encoder)
    (hdest : Starts s₀.request.raw dest.header) :
    Reaches env.cipher m password (dest.header ++ s.app) s.up :=
  (h.sent hkeyed hdest).reaches hkeyed h.delivers

theorem upstream_reaches_sample :
    ∃ s₀ s₁ s, OnChannel (.sample false [] []) .cipher s₀ s₁ s ∧ s.app = List.replicate 9 7 ∧
      Reaches (.sample fun _ => false) .aes256Ctr [] (sampleDestination.header ++ s.app) s.up := by
  obtain ⟨s₀, s₁, s, h, hdest, -, happ, -⟩ := exists_sampleTunnel
  exact ⟨s₀, s₁, s, h, happ, upstream_reaches h keyed_sample hdest⟩

/-- **From the client to the target.** When a client connection has written all it had for its
Shadowsocks server, and the server, whose random and undefined bytes are its own, reads those bytes,
cut in any way: the server connects to the destination of the request and forwards exactly the data
of the application if and only if the destination is one to connect to, and the first read that
gives plaintext completes the header and is itself long enough for the parser. -/
theorem tunnel_relays_iff (h : OnChannel env .cipher s₀ s₁ s)
    (hkeyed : Keyed env.cipher m password env.encoder) (hdest : Starts s₀.request.raw dest.header)
    (hempty : s.up.queue.isEmpty = true) (E : CipherEnv) (rand junk beyond : ℕ → UInt8)
    (hE : E = { env.cipher with rand, junk }) (es : List Server.Shadowsocks.Event)
    (hes : Run.Along (Server.Shadowsocks.step E beyond) Server.Shadowsocks.Enabled
      (.start E m password) es) (hbytes : (reads es).flatten = s.up.accepted) :
    Relays E beyond (.start E m password) es dest s.app ↔ dest.Connectable ∧
      ∃ d n, firstDelivery E m (deriveKey E.hashes password m.keySize) [] (reads es) = some (d, n) ∧
        dest.header.length ≤ d ∧ dest.need ≤ n := by
  have hne : dest.header ++ s.app ≠ [] := by simp [Destination.header, Destination.portBytes]
  have hwire := ((h.sent hkeyed hdest).reaches hkeyed h.delivers).whole rand junk hempty hne
  subst hE
  exact (waiting_start password).relays_iff_firstDelivery hkeyed.inverse hwire hes hbytes

theorem tunnel_relays_sample :
    ∃ s₀ s₁ s, OnChannel (.sample false [] []) .cipher s₀ s₁ s ∧ s.app = List.replicate 9 7 ∧
      Relays (.sample fun _ => false) (fun _ => 0) (.start (.sample fun _ => false) .aes256Ctr [])
        [.read s.up.accepted] sampleDestination s.app := by
  obtain ⟨s₀, s₁, s, h, hdest, hempty, happ, haccepted⟩ := exists_sampleTunnel
  refine ⟨s₀, s₁, s, h, happ, (tunnel_relays_iff h keyed_sample hdest hempty _ _ _ _ rfl _ ?_
    (List.append_nil _)).mpr ⟨by decide, 16, 32, ?_, by decide, by decide⟩⟩
  · rw [haccepted]
    exact ⟨⟨by decide, by decide, fun _ hstream => by cases hstream⟩, fun _ _ => trivial⟩
  · rw [haccepted]
    decide +kernel

end Cli.Relay

/-! ## The server -/

namespace Server.Relay

open Net.Cipher (Keyed Reaches Sent keyed_sample sampleCoder sent_create)

variable {env : Environment} {m : CipherMethod} {password : List UInt8} {s s' : Connection}

/-- The bytes read from the target. -/
def fetched (log : List Act) : List UInt8 :=
  (log.map fun
    | .read raw _ => raw
    | _ => []).flatten

variable (env m password) in
/-- What is queued is what was read from the target, encrypted. -/
structure Core.Sends (c : Core) : Prop where
  method : c.method = .cipher
  sent : Sent env.cipher m password c.encoder (fetched c.log) c.down

lemma Core.Sends.move (h : s.core.Sends env m password) (hmove : Move env s s') :
    s'.core.Sends env m password := by
  have hmethod : s.method = .cipher := h.method
  cases hmove with
  | quiet hcore => rwa [hcore]
  | dropFrame hcore =>
    rw [hcore]
    exact { h with }
  | opened hcore =>
    rw [hcore]
    exact ⟨h.method, by simpa [fetched, Connection.core] using h.sent⟩
  | reply hno | frame hno _ => simp [hmethod] at hno
  | read _ _ hread =>
    simp only [Connection.passOn, hmethod] at hread
    obtain ⟨buf, hbuf, hread⟩ := bind_eq_some_iff.mp hread
    obtain ⟨⟨encoder, ok, down⟩, hcall, hread⟩ := bind_eq_some_iff.mp hread
    have hsent := h.sent.encryptData hcall
    rw [(GrowableIOBuffer.readSome_eq_some hbuf).1] at hsent
    have hlost : ∀ a : Connection, (if ok then a else a.onDisconnect).core = a.core := by
      intro a
      split_ifs
      · rfl
      · exact core_onDisconnect a
    cases hread
    rw [hlost]
    exact ⟨rfl, by simpa [fetched, Connection.core, Connection.record] using hsent⟩
  | wrote hwrite =>
    obtain ⟨⟨down, _, _⟩, hwrite, hs'⟩ := bind_eq_some_iff.mp hwrite
    cases hs'
    have hsent := h.sent.writeFront hwrite
    exact ⟨h.method, by simpa [fetched, Connection.core, Connection.record] using hsent⟩
  | ended _ _ _ _ =>
    exact ⟨h.method, by simpa [fetched, Connection.core, Connection.record] using h.sent⟩
  | pushUp _ | wroteUp _ => exact { h with }

/-- **What a Shadowsocks client gets.** In every state of every run: what was read from the
target. -/
theorem downstream_reaches {encoder decoder : Cipher} (hkeyed : Keyed env.cipher m password encoder)
    {es : List Event} (hrun : Run.exec (step env) (start env .cipher encoder decoder) es = some s) :
    Reaches env.cipher m password (fetched s.log) s.down := by
  have hstart : (start env .cipher encoder decoder).core.Sends env m password :=
    ⟨rfl, hkeyed.encoder_eq ▸
      sent_create rfl (by simp [Connection.core, start, Pipe.new, Pipe.pending])⟩
  have hstep : ∀ a e a', a.core.Sends env m password → step env a e = some a' →
      a'.core.Sends env m password := fun a _ _ ha hstep =>
    (moves_step hstep).keeps (I := fun a => a.core.Sends env m password) (fun _ _ => .move) ha
  exact (Run.exec_keeps hstep hstart hrun).sent.reaches hkeyed
    (delivers_of_sound (ordered_run hrun).down)

theorem downstream_reaches_sample :
    ∃ es s, Run.exec (step (.sample false)) (start (.sample false) .cipher sampleCoder sampleCoder)
      es = some s ∧ s.down.queue.isEmpty = true ∧
        Reaches (.sample fun _ => false) .aes256Ctr [] [1, 2, 3] s.down := by
  have hrun : (Run.exec (step (.sample false))
      (start (.sample false) .cipher sampleCoder sampleCoder)
      [.handshake none [] [], .connected 0 ⟨[⟨.data [1, 2, 3], 0, [], .bytes 19, false⟩], [], []⟩
        []]).map (fun s => (s.down.queue.isEmpty, fetched s.log)) = some (true, [1, 2, 3]) := by
    decide +kernel
  obtain ⟨s, hs, hlog⟩ := Option.map_eq_some_iff.mp hrun
  simp only [Prod.mk.injEq] at hlog
  exact ⟨_, s, hs, hlog.1, hlog.2 ▸ downstream_reaches keyed_sample hs⟩

end Server.Relay

end Yass
