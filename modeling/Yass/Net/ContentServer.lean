import Yass.Lib.Lists
import Yass.Lib.Run

/-!
# The TLS listeners of a server: who answers a ClientHello

Every listener with TLS has one `SSL_CTX`. Each accept allocates a `tlsext_ctx_t` for the new
connection, which owns it, and stores its address in that `SSL_CTX` as the argument of the ALPN and
the server-name callback.

* `Event`, `step` — accept, ClientHello, disconnect and destruction. `none` is the use of a freed
  object or of a null pointer.

Connections are numbered from zero in the order of their accepts.

Source: `net/content_server.hpp`, `net/connection.hpp`, `net/protocol.cpp`.
-/

namespace Yass.Net.ContentServer

open Lists
open Option (bind_eq_some_iff bind_some)

/-! ## State -/

inductive LocalCipher where
  | https
  | http2
  | http2Plaintext
  | other
  deriving DecidableEq, Repr

/-- `CIPHER_METHOD_IS_HTTP2`. -/
def LocalCipher.isHttp2 : LocalCipher → Bool
  | .http2 | .http2Plaintext => true
  | .https | .other => false

/-- `CIPHER_METHOD_IS_HTTPS`. -/
def LocalCipher.isHttps (c : LocalCipher) : Bool := c == .https

inductive NextProto where
  | unknown
  | http11
  | http2
  | quic
  deriving DecidableEq, Repr

/-- `NextProtoFromString`: `http/1.1`, `h2`, and `quic` or `hq`. -/
def nextProtoFromString (text : List UInt8) : NextProto :=
  if text = [104, 116, 116, 112, 47, 49, 46, 49] then .http11
  else if text = [104, 50] then .http2
  else if text = [113, 117, 105, 99] ∨ text = [104, 113] then .quic
  else .unknown

structure ListenCtx where
  serverName : List UInt8
  cipher : LocalCipher
  enableTls : Bool
  renegoAllowedForHttp11Proto : Bool
  deriving DecidableEq, Repr

/-- `tlsext_ctx_t`. -/
structure TlsextCtx where
  connectionId : ℕ
  listenCtxNum : ℕ
  deriving DecidableEq, Repr

/-- A connection and its `SSLDownlink`. -/
structure Connection where
  listenCtxNum : ℕ
  localCipher : LocalCipher
  renegoAllowedForHttp11Proto : Bool
  selectedProto : NextProto
  /-- It is in `connection_map_`. -/
  opened : Bool
  destroyed : Bool
  deriving DecidableEq, Repr

inductive AccessKind where
  /-- The `tlsext_ctx_t` that was passed to it, and with it the connection's number. -/
  | tlsextCtx
  | localCipher
  /-- `selected_proto_` and `local_cipher_` are written. -/
  | negotiated
  deriving DecidableEq, Repr

/-- An access: the connection whose ClientHello is processed, and the connection whose state is
accessed. -/
structure Access where
  caller : ℕ
  owner : ℕ
  kind : AccessKind
  deriving DecidableEq, Repr

/-- A `ContentServer`. -/
structure Server where
  connections : List Connection
  /-- The `tlsext_ctx_t` objects that are alive, by address. -/
  tlsext : ℕ → Option TlsextCtx
  /-- The argument stored in the `SSL_CTX` of a listener. -/
  sslCtxArg : ℕ → Option ℕ
  accesses : List Access

def start : Server := ⟨[], fun _ => none, fun _ => none, []⟩

structure ClientHello where
  serverName : List UInt8
  /-- The protocol list, each entry with its length in front. -/
  alpn : Option (List UInt8)
  deriving DecidableEq, Repr

/-! ## Callbacks -/

namespace Server

def access (s : Server) (a : Access) : Server := { s with accesses := s.accesses ++ [a] }

/-- The decision of `SSLDownlink::on_alpn_select`. -/
def selects (conn : Connection) : NextProto → Bool
  | .http2 => conn.localCipher.isHttp2
  | .http11 => (conn.localCipher.isHttp2 && conn.renegoAllowedForHttp11Proto) ||
      conn.localCipher.isHttps
  | .quic | .unknown => false

def negotiate (conn : Connection) (proto : NextProto) : Connection :=
  { conn with
    selectedProto := proto
    localCipher := if proto = .http11 then .https else conn.localCipher }

/-- `ContentServer::on_alpn_select(connection_id, proto)`: only a connection that is still in
`connection_map_` is asked. -/
def onAlpnSelect (s : Server) (caller connectionId : ℕ) (proto : NextProto) : Server × Bool :=
  match s.connections[connectionId]? with
  | some conn =>
    if conn.opened then
      let s := s.access ⟨caller, connectionId, .localCipher⟩
      if selects conn proto then
        ({ s with connections := s.connections.set connectionId (negotiate conn proto) }.access
          ⟨caller, connectionId, .negotiated⟩, true)
      else (s, false)
    else (s, false)
  | none => (s, false)

/-- The loop over the offered protocols. Each round takes at least one byte, so that as many rounds
as there are bytes suffice. -/
def selectLoop (caller connectionId : ℕ) : ℕ → List UInt8 → Server → Server × Bool
  | rounds + 1, len :: rest, s =>
    if rest.length < len.toNat then (s, false)
    else
      match s.onAlpnSelect caller connectionId (nextProtoFromString (rest.take len.toNat)) with
      | (s, true) => (s, true)
      | (s, false) => selectLoop caller connectionId rounds (rest.drop len.toNat) s
  | _, _, s => (s, false)

/-- The ALPN callback, with the argument `arg`. -/
def alpnCallback (s : Server) (caller arg : ℕ) (protos : List UInt8) : Option (Server × Bool) := do
  let ctx ← s.tlsext arg
  let s := s.access ⟨caller, ctx.connectionId, .tlsextCtx⟩
  some (selectLoop caller ctx.connectionId protos.length protos s)

/-- `on_tlsext`, the server-name callback, with the argument `arg`. -/
def onTlsext (ctxs : ℕ → ListenCtx) (s : Server) (caller arg : ℕ) (serverName : List UInt8) :
    Option (Server × Bool) := do
  let ctx ← s.tlsext arg
  some (s.access ⟨caller, ctx.connectionId, .tlsextCtx⟩,
    serverName == (ctxs ctx.listenCtxNum).serverName)

/-- A ClientHello on connection `c`: both callbacks get what the `SSL_CTX` holds now. A fatal alert
of the first one ends the handshake. -/
def clientHello (ctxs : ℕ → ListenCtx) (s : Server) (c : ℕ) (hello : ClientHello) :
    Option Server := do
  let conn ← s.connections[c]?
  let arg ← s.sslCtxArg conn.listenCtxNum
  let (s, ok) ← s.onTlsext ctxs c arg hello.serverName
  match ok, hello.alpn with
  | true, some protos =>
    let (s, _) ← s.alpnCallback c arg protos
    some s
  | _, _ => some s

/-- `on_async_accept`. -/
def accept (ctxs : ℕ → ListenCtx) (s : Server) (listenCtxNum : ℕ) : Server :=
  let connectionId := s.connections.length
  let ctx := ctxs listenCtxNum
  let conn : Connection :=
    ⟨listenCtxNum, ctx.cipher, ctx.renegoAllowedForHttp11Proto, .unknown, true, false⟩
  let s := { s with connections := s.connections ++ [conn] }
  if ctx.enableTls then
    { s with
      tlsext := Function.update s.tlsext connectionId (some ⟨connectionId, listenCtxNum⟩)
      sslCtxArg := Function.update s.sslCtxArg listenCtxNum (some connectionId) }
  else s

/-- `on_disconnect`. -/
def disconnect (s : Server) (c : ℕ) : Server :=
  { s with connections := s.connections.modify c fun conn => { conn with opened := false } }

/-- The destructor of a connection frees its `tlsext_ctx_t`. -/
def destroy (s : Server) (c : ℕ) : Server :=
  { s with
    connections := s.connections.modify c fun conn => { conn with destroyed := true }
    tlsext := Function.update s.tlsext c none }

end Server

/-! ## Runs -/

inductive Event where
  | accept (listenCtxNum : ℕ)
  | clientHello (c : ℕ) (hello : ClientHello)
  | disconnect (c : ℕ)
  | destroy (c : ℕ)
  deriving DecidableEq, Repr

variable (ctxs : ℕ → ListenCtx)

def step (s : Server) : Event → Option Server
  | .accept listenCtxNum => some (s.accept ctxs listenCtxNum)
  | .clientHello c hello => s.clientHello ctxs c hello
  | .disconnect c => some (s.disconnect c)
  | .destroy c => some (s.destroy c)

/-- The events that can happen: a ClientHello comes on a TLS connection that is open, and what is
destroyed was disconnected before. -/
def Enabled (s : Server) : Event → Prop
  | .accept _ => True
  | .clientHello c _ => ∃ conn ∈ s.connections[c]?,
      conn.opened = true ∧ (ctxs conn.listenCtxNum).enableTls = true
  | .disconnect c => ∃ conn ∈ s.connections[c]?, conn.opened = true
  | .destroy c => ∃ conn ∈ s.connections[c]?, conn.opened = false ∧ conn.destroyed = false

instance (s : Server) : (e : Event) → Decidable (Enabled ctxs s e)
  | .accept _ => isTrue trivial
  | .clientHello c _ => inferInstanceAs (Decidable (∃ conn ∈ s.connections[c]?,
      conn.opened = true ∧ (ctxs conn.listenCtxNum).enableTls = true))
  | .disconnect c => inferInstanceAs (Decidable (∃ conn ∈ s.connections[c]?, conn.opened = true))
  | .destroy c => inferInstanceAs (Decidable (∃ conn ∈ s.connections[c]?,
      conn.opened = false ∧ conn.destroyed = false))

/-- No freed object is used in the run, and what a callback accesses belongs to the connection it
runs for. -/
def Isolated (es : List Event) : Prop :=
  ∃ s, Run.exec (step ctxs) start es = some s ∧ ∀ a ∈ s.accesses, a.owner = a.caller

def accepted (es : List Event) : List ℕ :=
  es.filterMap fun
    | .accept listenCtxNum => some listenCtxNum
    | _ => none

/-- No connection was accepted on the listener of `c` after `c`. -/
def Latest (es : List Event) (c : ℕ) : Prop :=
  ∀ j, c < j → (accepted es)[j]? ≠ (accepted es)[c]?

/-! ## What the callbacks touch -/

def Connection.life (conn : Connection) : ℕ × Bool × Bool :=
  (conn.listenCtxNum, conn.opened, conn.destroyed)

/-- From `s` to `s'` only the state of `owner` was accessed, for the ClientHello of `caller`. -/
structure Touches (caller owner : ℕ) (s s' : Server) : Prop where
  accesses : ∃ new, s'.accesses = s.accesses ++ new ∧
    ∀ a ∈ new, a.caller = caller ∧ a.owner = owner
  others : ∀ i, i ≠ owner → s'.connections[i]? = s.connections[i]?
  life : s'.connections.map Connection.life = s.connections.map Connection.life
  tlsext_eq : s'.tlsext = s.tlsext
  sslCtxArg_eq : s'.sslCtxArg = s.sslCtxArg

section Callbacks

variable {caller owner : ℕ} {s s' s'' : Server}

lemma Touches.refl (caller owner : ℕ) (s : Server) : Touches caller owner s s :=
  ⟨⟨[], by simp, by simp⟩, fun _ _ => rfl, rfl, rfl, rfl⟩

lemma Touches.trans (h : Touches caller owner s s') (h' : Touches caller owner s' s'') :
    Touches caller owner s s'' := by
  obtain ⟨new, hnew, hall⟩ := h.accesses
  obtain ⟨new', hnew', hall'⟩ := h'.accesses
  refine ⟨⟨new ++ new', by rw [hnew', hnew, List.append_assoc], ?_⟩,
    fun i hi => (h'.others i hi).trans (h.others i hi), h'.life.trans h.life,
    h'.tlsext_eq.trans h.tlsext_eq, h'.sslCtxArg_eq.trans h.sslCtxArg_eq⟩
  intro a ha
  exact (List.mem_append.mp ha).elim (hall a) (hall' a)

lemma touches_access (s : Server) (caller owner : ℕ) (kind : AccessKind) :
    Touches caller owner s (s.access ⟨caller, owner, kind⟩) :=
  ⟨⟨[⟨caller, owner, kind⟩], rfl, by simp⟩, fun _ _ => rfl, rfl, rfl, rfl⟩

lemma touches_set (caller : ℕ) {conn : Connection} (hconn : s.connections[owner]? = some conn)
    (proto : NextProto) :
    Touches caller owner s
      { s with connections := s.connections.set owner (Server.negotiate conn proto) } := by
  refine ⟨⟨[], by simp, by simp⟩, fun i hi => List.getElem?_set_ne hi.symm, ?_, rfl, rfl⟩
  have hlt : owner < (s.connections.map Connection.life).length := by
    rw [List.length_map]
    exact (List.getElem?_eq_some_iff.mp hconn).1
  rw [List.map_set]
  apply List.ext_getElem?
  intro i
  by_cases hi : i = owner
  · rw [hi, List.getElem?_set_self hlt, List.getElem?_map, hconn]
    rfl
  · rw [List.getElem?_set_ne (Ne.symm hi)]

lemma touches_onAlpnSelect (s : Server) (caller owner : ℕ) (proto : NextProto) :
    Touches caller owner s (s.onAlpnSelect caller owner proto).1 := by
  unfold Server.onAlpnSelect
  split
  · rename_i conn hconn
    dsimp only
    split_ifs
    · have hread := touches_access s caller owner .localCipher
      have hwrite := touches_set caller (s := s.access ⟨caller, owner, .localCipher⟩) hconn proto
      exact (hread.trans hwrite).trans (touches_access _ caller owner .negotiated)
    · exact touches_access s caller owner .localCipher
    · exact Touches.refl caller owner s
  · exact Touches.refl caller owner s

lemma touches_selectLoop (caller owner rounds : ℕ) (protos : List UInt8) (s : Server) :
    Touches caller owner s (Server.selectLoop caller owner rounds protos s).1 := by
  induction rounds generalizing protos s with
  | zero => exact Touches.refl caller owner s
  | succ rounds ih =>
    cases protos with
    | nil => exact Touches.refl caller owner s
    | cons len rest =>
      rw [Server.selectLoop]
      split_ifs
      · exact Touches.refl caller owner s
      have hone := touches_onAlpnSelect s caller owner
        (nextProtoFromString (rest.take len.toNat))
      split
      · rename_i s₁ heq
        rw [heq] at hone
        exact hone
      rename_i s₁ heq
      rw [heq] at hone
      exact hone.trans (ih (rest.drop len.toNat) s₁)

/-- **A ClientHello.** It accesses the state of the connection whose object the `SSL_CTX` names, if
that object is alive. -/
lemma clientHello_spec (ctxs : ℕ → ListenCtx) {c arg : ℕ} {conn : Connection}
    (hconn : s.connections[c]? = some conn) (harg : s.sslCtxArg conn.listenCtxNum = some arg)
    (hello : ClientHello) :
    match s.tlsext arg with
    | none => s.clientHello ctxs c hello = none
    | some ctx => ∃ s', s.clientHello ctxs c hello = some s' ∧ Touches c ctx.connectionId s s' ∧
        ⟨c, ctx.connectionId, .tlsextCtx⟩ ∈ s'.accesses := by
  have hcall : s.clientHello ctxs c hello = (s.onTlsext ctxs c arg hello.serverName).bind fun r =>
      match r.2, hello.alpn with
      | true, some protos => (r.1.alpnCallback c arg protos).bind fun r => some r.1
      | _, _ => some r.1 := by
    unfold Server.clientHello
    rw [hconn, Option.bind_eq_bind, bind_some, harg, Option.bind_eq_bind, bind_some]
    rfl
  rw [hcall]
  unfold Server.onTlsext Server.alpnCallback
  cases hctx : s.tlsext arg with
  | none => rfl
  | some ctx =>
    have hfirst := touches_access s c ctx.connectionId .tlsextCtx
    have hmem : (⟨c, ctx.connectionId, .tlsextCtx⟩ : Access) ∈
        (s.access ⟨c, ctx.connectionId, .tlsextCtx⟩).accesses := by simp [Server.access]
    simp only [Option.bind_eq_bind, bind_some]
    split
    · rename_i protos _ _
      have hctx' : (s.access ⟨c, ctx.connectionId, .tlsextCtx⟩).tlsext arg = some ctx := hctx
      rw [hctx', bind_some, bind_some]
      have hsecond := touches_access (s.access ⟨c, ctx.connectionId, .tlsextCtx⟩) c
        ctx.connectionId .tlsextCtx
      have hloop := touches_selectLoop c ctx.connectionId protos.length protos
        ((s.access ⟨c, ctx.connectionId, .tlsextCtx⟩).access ⟨c, ctx.connectionId, .tlsextCtx⟩)
      have hall := hsecond.trans hloop
      refine ⟨_, rfl, hfirst.trans hall, ?_⟩
      obtain ⟨new, hnew, -⟩ := hall.accesses
      rw [hnew]
      exact List.mem_append_left _ hmem
    · exact ⟨_, rfl, hfirst, hmem⟩

end Callbacks

/-! ## Runs and their past -/

structure Tracks (ctxs : ℕ → ListenCtx) (past : List Event) (s : Server) : Prop where
  listeners : s.connections.map Connection.listenCtxNum = accepted past
  /-- The argument of a listener is the last connection accepted there. -/
  arg : ∀ (c l : ℕ), (ctxs l).enableTls = true → (accepted past)[c]? = some l →
    ∃ d, s.sslCtxArg l = some d ∧ c ≤ d ∧ (accepted past)[d]? = some l
  /-- An object that is alive is the one that was allocated at its address. -/
  named : ∀ d ctx, s.tlsext d = some ctx → ctx.connectionId = d
  owned : ∀ (c : ℕ) (conn : Connection), s.connections[c]? = some conn →
    (ctxs conn.listenCtxNum).enableTls = true → conn.destroyed = false → (s.tlsext c).isSome
  /-- What is in `connection_map_` is alive. -/
  alive : ∀ (c : ℕ) (conn : Connection), s.connections[c]? = some conn →
    conn.opened = true → conn.destroyed = false

section Runs

variable {ctxs} {past : List Event} {s s' : Server}

lemma tracks_start : Tracks ctxs [] start :=
  ⟨rfl, by simp [accepted], by simp [start], by simp [start], by simp [start]⟩

lemma accepted_append_accept (past : List Event) (l : ℕ) :
    accepted (past ++ [.accept l]) = accepted past ++ [l] := by
  simp [accepted]

variable {e : Event}

lemma accepted_append_other (past : List Event) (he : ∀ l, e ≠ .accept l) :
    accepted (past ++ [e]) = accepted past := by
  cases e with
  | accept l => exact absurd rfl (he l)
  | _ => simp [accepted]

lemma Tracks.of_life (h : Tracks ctxs past s) {past' : List Event}
    (hpast : accepted past' = accepted past)
    (hlife : s'.connections.map Connection.life = s.connections.map Connection.life)
    (htlsext : s'.tlsext = s.tlsext) (harg : s'.sslCtxArg = s.sslCtxArg) :
    Tracks ctxs past' s' := by
  have hback : ∀ (c : ℕ) (conn' : Connection), s'.connections[c]? = some conn' →
      ∃ conn, s.connections[c]? = some conn ∧ conn.life = conn'.life := by
    intro c conn' hconn'
    have hget : (s.connections.map Connection.life)[c]? = some conn'.life := by
      rw [← hlife, List.getElem?_map, hconn']
      rfl
    rw [List.getElem?_map] at hget
    exact Option.map_eq_some_iff.mp hget
  have hlisteners : ∀ conns : List Connection,
      conns.map Connection.listenCtxNum = (conns.map Connection.life).map Prod.fst := by
    intro conns
    rw [List.map_map]
    rfl
  refine ⟨?_, ?_, ?_, ?_, ?_⟩
  · rw [hpast, ← h.listeners, hlisteners, hlisteners s.connections, hlife]
  · rw [hpast, harg]
    exact h.arg
  · rw [htlsext]
    exact h.named
  · intro c conn' hconn' htls hlive
    obtain ⟨conn, hconn, heq⟩ := hback c conn' hconn'
    simp only [Connection.life, Prod.mk.injEq] at heq
    rw [htlsext]
    exact h.owned c conn hconn (heq.1 ▸ htls) (heq.2.2 ▸ hlive)
  intro c conn' hconn' hopen
  obtain ⟨conn, hconn, heq⟩ := hback c conn' hconn'
  simp only [Connection.life, Prod.mk.injEq] at heq
  rw [← heq.2.2]
  exact h.alive c conn hconn (heq.2.1 ▸ hopen)

lemma accept_connections (ctxs : ℕ → ListenCtx) (s : Server) (l : ℕ) :
    (s.accept ctxs l).connections = s.connections ++ [⟨l, (ctxs l).cipher,
      (ctxs l).renegoAllowedForHttp11Proto, .unknown, true, false⟩] := by
  unfold Server.accept
  dsimp only
  split_ifs <;> rfl

lemma accept_tlsext (ctxs : ℕ → ListenCtx) (s : Server) (l d : ℕ) :
    (s.accept ctxs l).tlsext d =
      if (ctxs l).enableTls = true ∧ d = s.connections.length then some ⟨s.connections.length, l⟩
      else s.tlsext d := by
  unfold Server.accept
  by_cases htls : (ctxs l).enableTls = true <;> simp [htls, Function.update_apply]

lemma accept_sslCtxArg (ctxs : ℕ → ListenCtx) (s : Server) (l l' : ℕ) :
    (s.accept ctxs l).sslCtxArg l' =
      if (ctxs l).enableTls = true ∧ l' = l then some s.connections.length
      else s.sslCtxArg l' := by
  unfold Server.accept
  by_cases htls : (ctxs l).enableTls = true <;> simp [htls, Function.update_apply]

lemma Tracks.accept (h : Tracks ctxs past s) (l : ℕ) :
    Tracks ctxs (past ++ [.accept l]) (s.accept ctxs l) := by
  have hlen : s.connections.length = (accepted past).length := by
    rw [← h.listeners, List.length_map]
  refine ⟨?_, ?_, ?_, ?_, ?_⟩
  · rw [accept_connections, accepted_append_accept, List.map_append, h.listeners]
    rfl
  · intro c l' htls hc
    rw [accepted_append_accept] at hc ⊢
    by_cases hsame : l' = l
    · -- the new connection is the last one of its listener
      subst hsame
      refine ⟨s.connections.length, ?_, ?_, ?_⟩
      · rw [accept_sslCtxArg, if_pos ⟨htls, rfl⟩]
      · have hlt := (List.getElem?_eq_some_iff.mp hc).1
        rw [List.length_append, List.length_singleton] at hlt
        omega
      · rw [hlen, List.getElem?_append_right le_rfl, Nat.sub_self]
        rfl
    obtain hold | ⟨-, hnew⟩ := getElem?_snoc hc
    · obtain ⟨d, hd, hle, hget⟩ := h.arg c l' htls hold
      refine ⟨d, ?_, hle, getElem?_append_of_some hget _⟩
      rw [accept_sslCtxArg, if_neg fun hboth => hsame hboth.2, hd]
    · exact absurd hnew hsame
  · intro d ctx hctx
    rw [accept_tlsext] at hctx
    split_ifs at hctx with hnew
    · cases hctx
      exact hnew.2.symm
    · exact h.named d ctx hctx
  · intro c conn hconn htls hlive
    rw [accept_connections] at hconn
    obtain hold | ⟨hc, hnew⟩ := getElem?_snoc hconn
    · have hlt := (List.getElem?_eq_some_iff.mp hold).1
      rw [accept_tlsext, if_neg fun hboth => hlt.ne hboth.2]
      exact h.owned c conn hold htls hlive
    rw [hnew] at htls
    rw [accept_tlsext, if_pos ⟨htls, hc⟩]
    rfl
  intro c conn hconn hopen
  rw [accept_connections] at hconn
  obtain hold | ⟨-, hnew⟩ := getElem?_snoc hconn
  · exact h.alive c conn hold hopen
  · rw [hnew]

lemma Tracks.disconnect (h : Tracks ctxs past s) (c : ℕ) :
    Tracks ctxs (past ++ [.disconnect c]) (s.disconnect c) := by
  have hpast : accepted (past ++ [.disconnect c]) = accepted past :=
    accepted_append_other past (by simp)
  refine ⟨?_, by rw [hpast]; exact h.arg, h.named, ?_, ?_⟩
  · rw [hpast, ← h.listeners]
    apply map_modify_of_eq
    intro _
    rfl
  · intro i conn hconn htls hlive
    obtain ⟨old, hold, hnew⟩ := getElem?_modify_eq_some hconn
    have hsame : conn.listenCtxNum = old.listenCtxNum ∧ conn.destroyed = old.destroyed := by
      rw [hnew]
      split_ifs <;> exact ⟨rfl, rfl⟩
    exact h.owned i old hold (hsame.1 ▸ htls) (hsame.2 ▸ hlive)
  intro i conn hconn hopen
  obtain ⟨old, hold, hnew⟩ := getElem?_modify_eq_some hconn
  by_cases hc : c = i
  · rw [hnew, if_pos hc] at hopen
    cases hopen
  · rw [hnew, if_neg hc] at hopen ⊢
    exact h.alive i old hold hopen

lemma Tracks.destroy (h : Tracks ctxs past s) {c : ℕ} (hen : Enabled ctxs s (.destroy c)) :
    Tracks ctxs (past ++ [.destroy c]) (s.destroy c) := by
  have hpast : accepted (past ++ [.destroy c]) = accepted past :=
    accepted_append_other past (by simp)
  refine ⟨?_, by rw [hpast]; exact h.arg, ?_, ?_, ?_⟩
  · rw [hpast, ← h.listeners]
    apply map_modify_of_eq
    intro _
    rfl
  · intro d ctx hctx
    unfold Server.destroy at hctx
    by_cases hd : d = c
    · simp [hd] at hctx
    · exact h.named d ctx (by simpa [Function.update_of_ne hd] using hctx)
  · intro i conn hconn htls hlive
    obtain ⟨old, hold, hnew⟩ := getElem?_modify_eq_some hconn
    by_cases hc : c = i
    · rw [hnew, if_pos hc] at hlive
      cases hlive
    rw [hnew, if_neg hc] at htls hlive
    have hsome := h.owned i old hold htls hlive
    simpa [Server.destroy, Function.update_of_ne (Ne.symm hc)] using hsome
  intro i conn hconn hopen
  obtain ⟨old, hold, hnew⟩ := getElem?_modify_eq_some hconn
  by_cases hc : c = i
  · obtain ⟨conn', hconn', hclosed, -⟩ := hen
    have hsame : conn' = old := by
      rw [hc, Option.mem_def, hold] at hconn'
      exact (Option.some.inj hconn').symm
    rw [hnew, if_pos hc] at hopen
    rw [hsame] at hclosed
    exact absurd hopen (by simp [hclosed])
  · rw [hnew, if_neg hc] at hopen ⊢
    exact h.alive i old hold hopen

/-- **A ClientHello in its run.** If its connection is the last one of the listener, only the
connection's own state is accessed; otherwise a freed object is used, or the state of another
connection is accessed. -/
lemma Tracks.clientHello (h : Tracks ctxs past s) {c : ℕ} {hello : ClientHello}
    (hen : Enabled ctxs s (.clientHello c hello)) :
    (Latest past c ∧ ∃ s', step ctxs s (.clientHello c hello) = some s' ∧ Touches c c s s') ∨
    (¬ Latest past c ∧ ∀ s', step ctxs s (.clientHello c hello) = some s' →
      ∃ a ∈ s'.accesses, a.owner ≠ a.caller) := by
  obtain ⟨conn, hconn, hopen, htls⟩ := hen
  rw [Option.mem_def] at hconn
  have hc : (accepted past)[c]? = some conn.listenCtxNum := by
    rw [← h.listeners, List.getElem?_map, hconn]
    rfl
  obtain ⟨d, harg, hle, hd⟩ := h.arg c conn.listenCtxNum htls hc
  have hspec := clientHello_spec ctxs hconn harg hello
  by_cases hlast : d = c
  · refine .inl ⟨?_, ?_⟩
    · intro j hj hsame
      obtain ⟨d', harg', hle', -⟩ := h.arg j conn.listenCtxNum htls (hsame.trans hc)
      rw [harg] at harg'
      cases harg'
      omega
    have hsome := h.owned c conn hconn htls (h.alive c conn hconn hopen)
    obtain ⟨ctx, hctx⟩ := Option.isSome_iff_exists.mp hsome
    rw [hlast, hctx] at hspec
    obtain ⟨s', hs', htouch, -⟩ := hspec
    rw [h.named c ctx hctx] at htouch
    exact ⟨s', hs', htouch⟩
  refine .inr ⟨fun hlatest => hlatest d (by omega) (hd.trans hc.symm), ?_⟩
  intro s' hs'
  change s.clientHello ctxs c hello = some s' at hs'
  cases hctx : s.tlsext d with
  | none =>
    rw [hctx] at hspec
    rw [hspec] at hs'
    cases hs'
  | some ctx =>
    rw [hctx] at hspec
    obtain ⟨s₁, hs₁, -, hmem⟩ := hspec
    rw [hs₁] at hs'
    cases hs'
    refine ⟨_, hmem, ?_⟩
    rw [h.named d ctx hctx]
    exact hlast

lemma accesses_of_step (hstep : step ctxs s e = some s') :
    s.accesses <+: s'.accesses := by
  cases e with
  | accept l =>
    cases hstep
    unfold Server.accept
    dsimp only
    split_ifs <;> exact List.prefix_refl _
  | clientHello c hello =>
    change s.clientHello ctxs c hello = some s' at hstep
    have hparts := hstep
    unfold Server.clientHello at hparts
    obtain ⟨conn, hconn, hparts⟩ := bind_eq_some_iff.mp hparts
    obtain ⟨arg, harg, -⟩ := bind_eq_some_iff.mp hparts
    have hspec := clientHello_spec ctxs hconn harg hello
    cases hctx : s.tlsext arg with
    | none =>
      rw [hctx, hstep] at hspec
      cases hspec
    | some ctx =>
      rw [hctx] at hspec
      obtain ⟨s₁, hs₁, htouch, -⟩ := hspec
      rw [hstep] at hs₁
      cases hs₁
      obtain ⟨new, hnew, -⟩ := htouch.accesses
      exact ⟨new, hnew.symm⟩
  | disconnect c =>
    cases hstep
    exact List.prefix_refl _
  | destroy c =>
    cases hstep
    exact List.prefix_refl _

variable {es : List Event}

lemma accesses_of_exec (hrun : Run.exec (step ctxs) s es = some s') :
    s.accesses <+: s'.accesses :=
  Run.exec_keeps (I := fun a => s.accesses <+: a.accesses)
    (fun _ _ _ h hstep => h.trans (accesses_of_step hstep)) (List.prefix_refl _) hrun

lemma Tracks.other (h : Tracks ctxs past s) (hen : Enabled ctxs s e)
    (he : ∀ c hello, e ≠ .clientHello c hello) :
    ∃ s', step ctxs s e = some s' ∧ Tracks ctxs (past ++ [e]) s' ∧ s'.accesses = s.accesses := by
  cases e with
  | accept l =>
    refine ⟨_, rfl, h.accept l, ?_⟩
    unfold Server.accept
    dsimp only
    split_ifs <;> rfl
  | clientHello c hello => exact absurd rfl (he c hello)
  | disconnect c => exact ⟨_, rfl, h.disconnect c, rfl⟩
  | destroy c => exact ⟨_, rfl, h.destroy hen, rfl⟩

/-- Every ClientHello of `es` comes while its connection is the last one of its listener. -/
def AllLatest (past es : List Event) : Prop :=
  ∀ es₁ c hello es₂, es = es₁ ++ .clientHello c hello :: es₂ → Latest (past ++ es₁) c

lemma allLatest_cons_other (he : ∀ c hello, e ≠ .clientHello c hello) :
    AllLatest past (e :: es) ↔ AllLatest (past ++ [e]) es := by
  constructor
  · intro h es₁ c hello es₂ hes
    have := h (e :: es₁) c hello es₂ (by rw [hes]; rfl)
    rwa [List.append_assoc]
  intro h es₁ c hello es₂ hes
  cases es₁ with
  | nil =>
    cases hes
    exact absurd rfl (he c hello)
  | cons e' es₁ =>
    cases hes
    have := h es₁ c hello es₂ rfl
    rwa [List.append_assoc] at this

lemma allLatest_cons_clientHello {c : ℕ} {hello : ClientHello} :
    AllLatest past (.clientHello c hello :: es) ↔
      Latest past c ∧ AllLatest (past ++ [.clientHello c hello]) es := by
  constructor
  · intro h
    refine ⟨by simpa using h [] c hello es rfl, ?_⟩
    intro es₁ c' hello' es₂ hes
    have := h (.clientHello c hello :: es₁) c' hello' es₂ (by rw [hes]; rfl)
    rwa [List.append_assoc]
  · rintro ⟨hfirst, hrest⟩ es₁ c' hello' es₂ hes
    cases es₁ with
    | nil =>
      cases hes
      simpa using hfirst
    | cons e' es₁ =>
      cases hes
      have := hrest es₁ c' hello' es₂ rfl
      rwa [List.append_assoc] at this

/-- **Runs.** From a state in which nothing foreign was accessed, the same holds at the end exactly
when every ClientHello is in time. -/
lemma Tracks.isolated_iff (h : Tracks ctxs past s) (hes : Run.Along (step ctxs) (Enabled ctxs) s es)
    (hclean : ∀ a ∈ s.accesses, a.owner = a.caller) :
    (∃ s', Run.exec (step ctxs) s es = some s' ∧ ∀ a ∈ s'.accesses, a.owner = a.caller) ↔
      AllLatest past es := by
  induction es generalizing past s with
  | nil =>
    refine ⟨fun _ es₁ c hello es₂ hes => by simp at hes, fun _ => ⟨s, rfl, hclean⟩⟩
  | cons e es ih =>
    by_cases he : ∃ c hello, e = .clientHello c hello
    · obtain ⟨c, hello, rfl⟩ := he
      rw [allLatest_cons_clientHello]
      obtain ⟨hlatest, s₁, hs₁, htouch⟩ | ⟨hnot, hforeign⟩ := h.clientHello hes.1
      · have htracks : Tracks ctxs (past ++ [.clientHello c hello]) s₁ :=
          h.of_life (accepted_append_other past (by simp)) htouch.life htouch.tlsext_eq
            htouch.sslCtxArg_eq
        have hclean₁ : ∀ a ∈ s₁.accesses, a.owner = a.caller := by
          obtain ⟨new, hnew, hall⟩ := htouch.accesses
          intro a ha
          rw [hnew] at ha
          rcases List.mem_append.mp ha with ha | ha
          · exact hclean a ha
          · rw [(hall a ha).1, (hall a ha).2]
        rw [Run.exec_cons, hs₁, bind_some, ih htracks (hes.2 s₁ hs₁) hclean₁]
        exact ⟨fun hall => ⟨hlatest, hall⟩, fun hall => hall.2⟩
      refine ⟨fun hrun => ?_, fun hall => absurd hall.1 hnot⟩
      obtain ⟨s', hrun, hall⟩ := hrun
      rw [Run.exec_cons] at hrun
      obtain ⟨s₁, hs₁, hrun⟩ := bind_eq_some_iff.mp hrun
      obtain ⟨a, ha, hne⟩ := hforeign s₁ hs₁
      exact absurd (hall a ((accesses_of_exec hrun).subset ha)) hne
    push Not at he
    rw [allLatest_cons_other he]
    obtain ⟨s₁, hs₁, htracks, hsame⟩ := h.other hes.1 he
    rw [Run.exec_cons, hs₁, bind_some]
    exact ih htracks (hes.2 s₁ hs₁) (hsame ▸ hclean)

end Runs

/-! ## Isolation -/

/-- **Isolation of the ALPN and server-name callbacks.** In a run the callbacks access only the
state of the connection they run for, and no freed object, exactly when every ClientHello is
processed before the next connection is accepted on the same listener. -/
theorem isolated_iff_latest (es : List Event)
    (hes : Run.Along (step ctxs) (Enabled ctxs) start es) :
    Isolated ctxs es ↔
      ∀ es₁ c hello es₂, es = es₁ ++ .clientHello c hello :: es₂ → Latest es₁ c := by
  rw [Isolated, tracks_start.isolated_iff hes (by simp [start])]
  simp only [AllLatest, List.nil_append]

def sampleListenCtx (_ : ℕ) : ListenCtx := ⟨[], .http2, true, true⟩

/-- A ClientHello that offers `http/1.1`. -/
def sampleHello : ClientHello := ⟨[], some [8, 104, 116, 116, 112, 47, 49, 46, 49]⟩

theorem isolated_iff_latest_sample :
    Isolated sampleListenCtx
      [.accept 0, .clientHello 0 sampleHello, .accept 0, .clientHello 1 sampleHello] := by
  apply (isolated_iff_latest sampleListenCtx _ (by decide +kernel)).mpr
  intro es₁ c hello es₂ hes
  rcases es₁ with _ | ⟨e₁, _ | ⟨e₂, _ | ⟨e₃, _ | ⟨e₄, es₁⟩⟩⟩⟩
  · cases hes
  · cases hes
    intro j hj
    have hnone : (accepted [.accept 0])[j]? = none :=
      List.getElem?_eq_none (by simp [accepted]; omega)
    rw [hnone]
    simp [accepted]
  · cases hes
  · cases hes
    intro j hj
    have hnone : (accepted [.accept 0, .clientHello 0 sampleHello, .accept 0])[j]? = none :=
      List.getElem?_eq_none (by simp [accepted]; omega)
    rw [hnone]
    simp [accepted]
  · simp at hes

def sampleForeign : List Event := [.accept 0, .accept 0, .clientHello 0 sampleHello]

def sampleFreed : List Event :=
  [.accept 0, .accept 0, .disconnect 1, .destroy 1, .clientHello 0 sampleHello]

/-- **Failure.** In the first run the callbacks for connection 0 negotiate the protocol of
connection 1, which then is an HTTPS connection although it has said nothing; in the second one they
use a freed object. -/
theorem callbacks_not_isolated :
    Run.Along (step sampleListenCtx) (Enabled sampleListenCtx) start sampleForeign ∧
    (∃ s, Run.exec (step sampleListenCtx) start sampleForeign = some s ∧
      ⟨0, 1, .negotiated⟩ ∈ s.accesses ∧
      s.connections.map Connection.localCipher = [.http2, .https]) ∧
    ¬ Isolated sampleListenCtx sampleForeign ∧
    Run.Along (step sampleListenCtx) (Enabled sampleListenCtx) start sampleFreed ∧
    Run.exec (step sampleListenCtx) start sampleFreed = none ∧
    ¬ Isolated sampleListenCtx sampleFreed := by
  have hforeign : (Run.exec (step sampleListenCtx) start sampleForeign).map
      (fun s => (s.accesses, s.connections.map Connection.localCipher)) =
      some ([⟨0, 1, .tlsextCtx⟩, ⟨0, 1, .tlsextCtx⟩, ⟨0, 1, .localCipher⟩, ⟨0, 1, .negotiated⟩],
        [.http2, .https]) := by decide +kernel
  obtain ⟨s, hs, heq⟩ := Option.map_eq_some_iff.mp hforeign
  simp only [Prod.mk.injEq] at heq
  have hfreed : (Run.exec (step sampleListenCtx) start sampleFreed).isNone = true := by
    decide +kernel
  rw [Option.isNone_iff_eq_none] at hfreed
  refine ⟨by decide +kernel, ⟨s, hs, by simp [heq.1], heq.2⟩, ?_, by decide +kernel, hfreed, ?_⟩
  · rintro ⟨s', hs', hall⟩
    rw [hs] at hs'
    cases hs'
    rw [heq.1] at hall
    exact absurd (hall ⟨0, 1, .tlsextCtx⟩ (by simp)) (by decide)
  · rintro ⟨s', hs', -⟩
    rw [hfreed] at hs'
    cases hs'

end Yass.Net.ContentServer
