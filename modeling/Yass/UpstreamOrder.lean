import Yass.Cli.Replies
import Yass.RelayOrder
import Yass.RequestCodecs

/-!
# The messages to an upstream SOCKS5 server

The client offers a method, and puts empty buffers into its queue for the messages that follow. When
a reply comes, the next message is appended to whatever buffer is at the front.

* `InOrder` — what is written is the method selection, the authentication if there is one, the
  request, and then the data of the application; and once the replies that are waited for have come,
  the front of the queue has bytes.

Source: `cli/cli_connection.cpp`.
-/

namespace Yass

open Yass.Net
open Yass.Net.Ss (Destination Starts)
open Option (bind_eq_some_iff map_eq_some_iff some_inj)
open List (append_assoc nil_append)

/-! ## Queues with placeholders -/

namespace Net.Pipe

def flat (bufs : List GrowableIOBuffer) : List UInt8 := (bufs.map GrowableIOBuffer.readable).flatten

/-- Every buffer of the queue has bytes, and with what was accepted they are `bytes`. -/
structure Full (p : Pipe) (bytes : List UInt8) : Prop where
  nonempty : ∀ buf ∈ p.queue.toList, buf.readable ≠ []
  bytes_eq : p.accepted ++ p.pending = bytes

/-- The queue is the rest of `first`, then `n` buffers with nothing in them, then `rest`. -/
structure Holding (p : Pipe) (first : List UInt8) (n : ℕ) (rest : List UInt8) : Prop where
  layout : ∃ head holders tail, p.queue.toList = head ++ holders ++ tail ∧ holders.length = n ∧
    (∀ buf ∈ head, buf.readable ≠ []) ∧ (∀ buf ∈ holders, buf.readable = []) ∧
    (∀ buf ∈ tail, buf.readable ≠ []) ∧ p.accepted ++ flat head = first ∧ flat tail = rest

variable {p p' : Pipe} {bytes first rest : List UInt8} {n : ℕ} {buf : GrowableIOBuffer}

@[simp] lemma flat_append (bufs bufs' : List GrowableIOBuffer) :
    flat (bufs ++ bufs') = flat bufs ++ flat bufs' := by
  simp [flat]

@[simp] lemma flat_cons (buf : GrowableIOBuffer) (bufs : List GrowableIOBuffer) :
    flat (buf :: bufs) = buf.readable ++ flat bufs := rfl

lemma flat_eq_nil {bufs : List GrowableIOBuffer} (h : ∀ buf ∈ bufs, buf.readable = []) :
    flat bufs = [] := by
  simpa [flat] using h

lemma front_of_all (hfront : p.queue.front.all GrowableIOBuffer.isEmpty = false)
    {bufs : List GrowableIOBuffer} (hlist : p.queue.toList = buf :: bufs) : buf.readable ≠ [] := by
  rw [p.queue.front_eq (by simp [hlist]), hlist, List.head?_cons, Option.all_some] at hfront
  intro hnil
  rw [buf.isEmpty_iff.mpr hnil] at hfront
  cases hfront

lemma Full.push (h : p.Full bytes) (hbuf : buf.readable ≠ []) :
    (p.push buf).Full (bytes ++ buf.readable) where
  nonempty b hb := by
    rcases List.mem_append.mp (p.queue.toList_pushBack buf ▸ hb) with hb | hb
    · exact h.nonempty b hb
    · rw [List.mem_singleton.mp hb]
      exact hbuf
  bytes_eq := by
    rw [accepted_push, pending_push, ← append_assoc, h.bytes_eq]

lemma Full.writeFront {k written : ℕ} {empty : Bool} (h : p.Full bytes)
    (hwrite : p.writeFront k = some (p', written, empty)) : p'.Full bytes := by
  obtain ⟨buf, tail, hlist, -, -, haccepted, hpending, hdone, hmore⟩ := writeFront_eq_some hwrite
  have htail : ∀ b ∈ tail, b.readable ≠ [] := fun b hb => h.nonempty b (by simp [hlist, hb])
  constructor
  · cases empty with
    | true =>
      rw [hdone rfl]
      exact htail
    | false =>
      obtain ⟨buf', hlist', hbuf'⟩ := hmore rfl
      rw [hlist', List.forall_mem_cons]
      exact ⟨hbuf', htail⟩
  · rw [haccepted, append_assoc, ← hpending, h.bytes_eq]

lemma Holding.push (h : p.Holding first n rest) (hbuf : buf.readable ≠ []) :
    (p.push buf).Holding first n (rest ++ buf.readable) := by
  obtain ⟨head, holders, tail, hlist, hn, hhead, hholders, htail, hfirst, hrest⟩ := h.layout
  refine ⟨head, holders, tail ++ [buf], ?_, hn, hhead, hholders, ?_, hfirst, ?_⟩
  · rw [Pipe.push, IoQueue.toList_pushBack, hlist, append_assoc _ tail]
  · intro b hb
    rcases List.mem_append.mp hb with hb | hb
    · exact htail b hb
    · rw [List.mem_singleton.mp hb]
      exact hbuf
  · rw [flat_append, hrest]
    simp [flat]

lemma Holding.writeFront {k written : ℕ} {empty : Bool} (h : p.Holding first n rest) (hn : 0 < n)
    (hfront : p.queue.front.all GrowableIOBuffer.isEmpty = false)
    (hwrite : p.writeFront k = some (p', written, empty)) : p'.Holding first n rest := by
  obtain ⟨head, holders, tail, hlist, hlen, hhead, hholders, htail, hfirst, hrest⟩ := h.layout
  obtain ⟨buf, more, hcons, -, -, haccepted, hpending, hdone, hleft⟩ := writeFront_eq_some hwrite
  have hbuf := front_of_all hfront hcons
  match head, hlist with
  | [], hlist =>
    -- the front would be one of the empty buffers
    obtain ⟨holder, holders', rfl⟩ := List.exists_cons_of_length_pos (hlen ▸ hn)
    rw [hcons, nil_append, List.cons_append] at hlist
    obtain ⟨rfl, -⟩ := List.cons.inj hlist
    exact absurd (hholders buf List.mem_cons_self) hbuf
  | front :: head, hlist =>
    rw [hcons, append_assoc, List.cons_append] at hlist
    obtain ⟨rfl, rfl⟩ := List.cons.inj hlist
    have hhead' : ∀ b ∈ head, b.readable ≠ [] := fun b hb => hhead b (List.mem_cons_of_mem _ hb)
    obtain ⟨head', hlist', hnonempty⟩ : ∃ head', p'.queue.toList = head' ++ holders ++ tail ∧
        ∀ b ∈ head', b.readable ≠ [] := by
      cases empty with
      | true => exact ⟨head, by rw [hdone rfl, append_assoc], hhead'⟩
      | false =>
        obtain ⟨buf', hlist', hbuf'⟩ := hleft rfl
        exact ⟨buf' :: head, by simp [hlist'], List.forall_mem_cons.mpr ⟨hbuf', hhead'⟩⟩
    refine ⟨head', holders, tail, hlist', hlen, hnonempty, hholders, htail, ?_, hrest⟩
    -- what the channel takes is taken from the first message
    have hsplit : flat (buf :: head) = buf.readable.take written ++ flat head' := by
      have hall : flat (p.queue.toList) = buf.readable.take written ++ flat p'.queue.toList :=
        hpending
      rw [hcons, hlist', flat_cons, flat_append, flat_append, flat_append, flat_append,
        flat_eq_nil hholders, List.append_nil, nil_append, ← append_assoc,
        ← append_assoc] at hall
      rw [flat_cons]
      exact List.append_cancel_right hall
    rw [haccepted, append_assoc, ← hsplit, hfirst]

lemma Holding.appendFront {junk : ℕ → UInt8} (h : p.Holding first 1 rest)
    (hall : first.length ≤ p.accepted.length) (hbytes : bytes ≠ [])
    (happ : p.appendFront junk bytes = some p') : p'.Full (first ++ bytes ++ rest) := by
  obtain ⟨head, holders, tail, hlist, hlen, hhead, hholders, htail, hfirst, hrest⟩ := h.layout
  obtain ⟨buf, more, buf', hcons, hcons', hread, haccepted, -⟩ := appendFront_eq_some happ
  have hnil : flat head = [] := by
    have hlength := congrArg List.length hfirst
    rw [List.length_append] at hlength
    exact List.length_eq_zero_iff.mp (by omega)
  have hnone : head = [] := by
    cases head with
    | nil => rfl
    | cons b head =>
      rw [flat_cons, List.append_eq_nil_iff] at hnil
      exact absurd hnil.1 (hhead b List.mem_cons_self)
  obtain ⟨holder, rfl⟩ := List.length_eq_one_iff.mp hlen
  rw [hcons, hnone, nil_append, List.singleton_append] at hlist
  obtain ⟨rfl, rfl⟩ := List.cons.inj hlist
  have hempty : buf.readable = [] := hholders buf List.mem_cons_self
  rw [hempty, nil_append] at hread
  constructor
  · rw [hcons', List.forall_mem_cons, hread]
    exact ⟨hbytes, htail⟩
  have hpending : p'.pending = bytes ++ rest := by
    rw [← hrest, ← hread, pending, hcons']
    rfl
  rw [haccepted, hpending, ← hfirst, hnil, List.append_nil, append_assoc]

lemma Holding.toList_ne_nil (h : p.Holding first n rest) (hn : 0 < n) : p.queue.toList ≠ [] := by
  obtain ⟨head, holders, tail, hlist, hlen, -⟩ := h.layout
  obtain ⟨holder, holders', rfl⟩ := List.exists_cons_of_length_pos (hlen ▸ hn)
  simp [hlist]

lemma Holding.accepted_isPrefix (h : p.Holding first n rest) : p.accepted <+: first := by
  obtain ⟨head, holders, tail, -, -, -, -, -, hfirst, -⟩ := h.layout
  exact ⟨_, hfirst⟩

end Net.Pipe

/-! ## The messages -/

namespace Cli.Relay

def offered (env : Environment) : List UInt8 :=
  Socks5.methodSelectMessage
    [if env.authRequired then Socks5.usernameOrPassword else Socks5.noAuthRequired]

/-- The authentication by RFC 1929, where there is a user name and a password: the lengths are those
of the fields. -/
def IsAuth (env : Environment) (auth : List UInt8) : Prop :=
  if env.authRequired then
    ∃ ulen plen : UInt8, ulen.toNat = env.username.length ∧ plen.toNat = env.password.length ∧
      auth = [1, ulen] ++ env.username ++ [plen] ++ env.password
  else auth = []

structure InOrder (env : Environment) (dest : Destination) (s : Connection) : Prop where
  order : s.up.accepted <+: offered env ∨ ∃ auth, IsAuth env auth ∧
    s.up.accepted <+: offered env ++ auth ++ Socks5.requestMessage Socks5.cmdConnect dest ++ s.app
  front : s.flags.methodSelect = false → s.flags.auth = false →
    ∀ buf, s.up.queue.toList.head? = some buf → buf.readable ≠ []

/-- The first read of the channel is made when the method selection is written, and begins with the
reply that the client wants; and there is no authentication. -/
def Timely (env : Environment) (s : Connection) : Prop :=
  ∀ read, s.reads.head? = some read → env.authRequired = false ∧
    (offered env).length ≤ read.1 ∧ [Socks5.version, Socks5.noAuthRequired] <+: read.2

def places (env : Environment) : ℕ := if env.authRequired then 2 else 1

structure Asking (env : Environment) (dest : Destination) (s : Connection) : Prop where
  queue : s.up.Holding (offered env) (places env) s.app
  select : s.flags.methodSelect = true
  auth : s.flags.auth = env.authRequired
  reads : s.reads = []
  request : s.connectedNow = true → Starts s.request.raw dest.header

structure Asked (env : Environment) (dest : Destination) (s : Connection) : Prop where
  noAuth : env.authRequired = false
  queue : s.up.Full (offered env ++ Socks5.requestMessage Socks5.cmdConnect dest ++ s.app)
  select : s.flags.methodSelect = false
  auth : s.flags.auth = false

inductive Stand (env : Environment) (dest : Destination) (s : Connection) : Prop where
  | asking (h : Asking env dest s)
  | asked (h : Asked env dest s)
  | late (h : ¬ Timely env s)

variable {env : Environment} {dest : Destination} {s s' : Connection}

lemma places_pos (env : Environment) : 0 < places env := by
  unfold places
  split_ifs <;> decide

lemma Asking.of_same (h : Asking env dest s) (hup : s'.up = s.up) (happ : s'.app = s.app)
    (hflags : s'.flags = s.flags) (hreads : s'.reads = s.reads)
    (hrequest : s'.connectedNow = true → s.connectedNow = true ∧ s'.request = s.request) :
    Asking env dest s' where
  queue := by
    rw [hup, happ]
    exact h.queue
  select := hflags ▸ h.select
  auth := hflags ▸ h.auth
  reads := hreads.trans h.reads
  request hconnected := by
    obtain ⟨hwas, hsame⟩ := hrequest hconnected
    rw [hsame]
    exact h.request hwas

lemma Asked.of_same (h : Asked env dest s) (hup : s'.up = s.up) (happ : s'.app = s.app)
    (hflags : s'.flags = s.flags) : Asked env dest s' := by
  refine ⟨h.noAuth, ?_, hflags ▸ h.select, hflags ▸ h.auth⟩
  rw [hup, happ]
  exact h.queue

lemma put_socks5 (hmethod : s.method = .socks5) {n : ℕ} {buf : GrowableIOBuffer} {r : Put}
    (h : s.put env n buf = some (s', r)) :
    s' = { s with up := s.up.push buf, app := s.app ++ buf.readable } := by
  simp only [Connection.put, hmethod, some_inj, Prod.mk.injEq] at h
  rw [← h.1, hmethod]

lemma Asking.flow (h : Asking env dest s) (hmethod : s.method = .socks5) (hflow : Flow env s s') :
    Asking env dest s' := by
  have hconnected := hflow.connectedNow
  cases hflow with
  | quiet hcore _ _ =>
    exact h.of_same (congrArg Core.up hcore) (congrArg Core.app hcore)
      (congrArg Core.flags hcore) (congrArg Core.reads hcore)
      fun hopen => ⟨hconnected hopen, congrArg Core.request hcore⟩
  | frame hhttp2 _ _ =>
    rw [hmethod] at hhttp2
    cases hhttp2
  | put _ hbuf hput =>
    obtain rfl := put_socks5 hmethod hput
    exact ⟨h.queue.push hbuf, h.select, h.auth, h.reads, h.request⟩
  | wroteUp hfront hwrite =>
    exact ⟨h.queue.writeFront (places_pos env) hfront hwrite, h.select, h.auth, h.reads,
      h.request⟩
  | reopened hempty _ _ =>
    exact absurd (s.up.queue.isEmpty_iff.mp hempty) (h.queue.toList_ne_nil (places_pos env))
  | wroteDown _ | pend _ => exact { h with }

lemma Asked.flow (h : Asked env dest s) (hmethod : s.method = .socks5) (hflow : Flow env s s') :
    Asked env dest s' := by
  cases hflow with
  | quiet hcore _ _ | reopened _ hcore _ =>
    exact h.of_same (congrArg Core.up hcore) (congrArg Core.app hcore)
      (congrArg Core.flags hcore)
  | frame hhttp2 _ _ =>
    rw [hmethod] at hhttp2
    cases hhttp2
  | put _ hbuf hput =>
    obtain rfl := put_socks5 hmethod hput
    refine ⟨h.noAuth, ?_, h.select, h.auth⟩
    have hqueue := h.queue.push hbuf
    rwa [append_assoc _ s.app] at hqueue
  | wroteUp _ hwrite => exact ⟨h.noAuth, h.queue.writeFront hwrite, h.select, h.auth⟩
  | wroteDown _ | pend _ => exact { h with }

lemma Asked.flows (h : Asked env dest s) (hmethod : s.method = .socks5) (hflows : Flows env s s') :
    Asked env dest s' := by
  refine (hflows.keeps (I := fun s => s.method = .socks5 ∧ Asked env dest s) ?_ ⟨hmethod, h⟩).2
  rintro a b ⟨hm, ha⟩ hflow
  exact ⟨hflow.method.trans hm, ha.flow hm hflow⟩

lemma Stand.flow (h : Stand env dest s) (hmethod : s.method = .socks5) (hflow : Flow env s s') :
    Stand env dest s' := by
  cases h with
  | asking h => exact .asking (h.flow hmethod hflow)
  | asked h => exact .asked (h.flow hmethod hflow)
  | late h =>
    refine .late ?_
    rwa [Timely, hflow.still.reads]

lemma Stand.flows (h : Stand env dest s) (hmethod : s.method = .socks5) (hflows : Flows env s s') :
    Stand env dest s' ∧ s'.method = .socks5 := by
  refine hflows.keeps (I := fun s => Stand env dest s ∧ s.method = .socks5) ?_ ⟨h, hmethod⟩
  rintro a b ⟨ha, hm⟩ hflow
  exact ⟨ha.flow hm hflow, hflow.method.trans hm⟩

/-! ## Reads -/

section Reads

variable {r : DownRead} {buf : GrowableIOBuffer} {x x' : Connection × Stage}

lemma Asked.readSocks (h : Asked env dest s) (hmethod : s.method = .socks5)
    (hread : s.readUpstreamSocksResponse r buf = some x) : Asked env dest x.1 := by
  unfold Connection.readUpstreamSocksResponse at hread
  obtain ⟨reply, -, hread⟩ := bind_eq_some_iff.mp hread
  split at hread
  · obtain ⟨s₁, hlost, rfl⟩ := map_eq_some_iff.mp hread
    have hflows : Flows env _ s₁ := (drifts_disconnected hlost).flows
    exact Asked.flows (s := { s with flags := { s.flags with socks := false }, refused := true })
      ⟨h.noAuth, h.queue, h.select, h.auth⟩ hmethod hflows
  obtain ⟨buf', -, hread⟩ := bind_eq_some_iff.mp hread
  cases hread
  exact ⟨h.noAuth, h.queue, h.select, h.auth⟩

lemma Asked.runStages (h : Asked env dest x.1) (hmethod : x.1.method = .socks5)
    (hread : (Connection.runStage (Connection.readUpstreamAuthResponse env r) (·.flags.auth) x).bind
      (Connection.runStage (Connection.readUpstreamSocksResponse r) (·.flags.socks)) = some x') :
    Asked env dest x'.1 := by
  obtain ⟨s, ec | buf⟩ := x
  · cases hread
    exact h
  have hauth : s.flags.auth = false := h.auth
  simp only [Connection.runStage, hauth, Bool.false_eq_true, if_false, Option.bind_some] at hread
  split_ifs at hread
  · exact h.readSocks hmethod hread
  · cases hread
    exact h

lemma Asked.readReplies (h : Asked env dest s) (hmethod : s.method = .socks5)
    (hread : s.readReplies env r buf = some x) : Asked env dest x.1 := by
  obtain ⟨x₁, hselect, hread⟩ := bind_eq_some_iff.mp hread
  simp only [Connection.runStage, h.select, Bool.false_eq_true, if_false,
    some_inj] at hselect
  subst hselect
  exact Asked.runStages (x := (s, .passes buf)) h hmethod hread

lemma asked_of_reply (hqueue : s.up.Holding (offered env) 1 s.app) (hauth : s.flags.auth = false)
    (hnoAuth : env.authRequired = false) (hrequest : Starts s.request.raw dest.header)
    (hmethod : s.method = .socks5) (hwritten : (offered env).length ≤ s.up.accepted.length)
    (hreply : [Socks5.version, Socks5.noAuthRequired] <+: buf.readable)
    (hread : s.readUpstreamMethodSelectResponse env r buf = some x) :
    Asked env dest x.1 ∧ x.1.method = .socks5 := by
  have hgood : Upstream.methodSelectResponse false buf.readable = some 2 := by
    obtain ⟨rest, hrest⟩ := hreply
    rw [← hrest]
    rfl
  simp only [Connection.readUpstreamMethodSelectResponse, hauth, hgood] at hread
  obtain ⟨buf', -, hread⟩ := bind_eq_some_iff.mp hread
  rw [if_neg Bool.false_ne_true] at hread
  obtain ⟨s₁, hpatch, rfl⟩ := map_eq_some_iff.mp hread
  obtain ⟨up, happ, hwrite⟩ := bind_eq_some_iff.mp hpatch
  have hflows : Flows env _ s₁ := (makesDrifts_writeUpstreamInPipe _ _ _ hwrite).flows
  have hmessage : Upstream.socks5Request s.request =
      Socks5.requestMessage Socks5.cmdConnect dest := Upstream.socks5Request_of_starts hrequest
  have hfull : up.Full (offered env ++ Socks5.requestMessage Socks5.cmdConnect dest ++ s.app) := by
    refine hqueue.appendFront hwritten ?_ (hmessage ▸ happ)
    simp [Socks5.requestMessage]
  refine ⟨Asked.flows (s := { s with
    flags := { s.flags with methodSelect := false, auth := false, socks := true }, up }) ?_ hmethod
      hflows, hflows.method.trans hmethod⟩
  exact ⟨hnoAuth, hfull, rfl, rfl⟩

lemma Asked.afterStages (h : Asked env dest x.1) (hmethod : x.1.method = .socks5)
    {lost : List DownTurn} {ec : Ec} {out : Bool}
    (hread : Connection.afterStages env lost x = some (s', ec, out)) : Asked env dest s' := by
  obtain ⟨s, ec' | buf⟩ := x
  · cases hread
    exact h
  obtain ⟨s₁, hdeliver, hread⟩ := map_eq_some_iff.mp hread
  cases hread
  have hnot : s.method ≠ .cipher := by
    rw [show s.method = .socks5 from hmethod]
    decide
  rw [Connection.deliver, if_neg hnot] at hdeliver
  cases hdeliver
  exact { h with }

lemma Stand.readReplies (h : Stand env dest s) (hmethod : s.method = .socks5)
    (hconnected : s.connectedNow) {bytes : List UInt8} (hbuf : buf.readable = bytes)
    (htimely : Timely env (s.recordRead bytes))
    (hread : (s.recordRead bytes).readReplies env r buf = some x) : Asked env dest x.1 := by
  cases h with
  | asking h =>
    obtain ⟨hnoAuth, hwritten, hreply⟩ := htimely (s.up.accepted.length, bytes)
      (by simp [Connection.recordRead, h.reads])
    have hplaces : places env = 1 := by simp [places, hnoAuth]
    have hqueue := h.queue
    rw [hplaces] at hqueue
    obtain ⟨x₁, hselect, hread⟩ := bind_eq_some_iff.mp hread
    have hflag : (s.recordRead bytes).flags.methodSelect = true := h.select
    simp only [Connection.runStage, hflag, if_true] at hselect
    obtain ⟨hasked, hmethod₁⟩ := asked_of_reply (s := s.recordRead bytes) hqueue
      (h.auth.trans hnoAuth) hnoAuth (h.request hconnected) hmethod hwritten (hbuf ▸ hreply)
      hselect
    exact hasked.runStages hmethod₁ hread
  | asked h =>
    exact Asked.readReplies (s := s.recordRead bytes) { h with } hmethod hread
  | late h =>
    refine absurd (fun read hhead => htimely read ?_) h
    simp [Connection.recordRead, hhead]

lemma Stand.readDown (h : Stand env dest s) (hmethod : s.method = .socks5)
    (hconnected : s.connectedNow) {reads : List DownRead} {ec : Ec} {out : Bool}
    (hread : Connection.readDown env reads s = some (s', ec, out)) :
    Stand env dest s' ∧ s'.method = .socks5 := by
  cases reads with
  | nil =>
    unfold Connection.readDown at hread
    split_ifs at hread <;> cases hread <;> exact ⟨h, hmethod⟩
  | cons r reads =>
    unfold Connection.readDown at hread
    split_ifs at hread
    · cases hread
      exact ⟨h, hmethod⟩
    split at hread
    · obtain ⟨s₁, hlost, hread⟩ := map_eq_some_iff.mp hread
      cases hread
      exact h.flows hmethod (drifts_disconnected hlost).flows
    · cases hread
      exact ⟨h, hmethod⟩
    · cases hread
      exact ⟨h, hmethod⟩
    · next b bs _ =>
      obtain ⟨buf, hbuf, hread⟩ := bind_eq_some_iff.mp hread
      have hbytes : buf.readable = b :: bs := (GrowableIOBuffer.readSome_eq_some hbuf).1
      have hsocks : (s.recordRead (b :: bs)).method = .socks5 := hmethod
      simp only [hsocks] at hread
      obtain ⟨x, hreplies, hread⟩ := bind_eq_some_iff.mp hread
      obtain ⟨hx, hleft⟩ := reading_readReplies (Or.inl hsocks) hreplies
      have hs' := handled_afterStages hx hleft (by simp [hsocks]) hread
      refine ⟨?_, hs'.method.trans hsocks⟩
      by_cases htimely : Timely env (s.recordRead (b :: bs))
      · have hasked := h.readReplies hmethod hconnected hbytes htimely hreplies
        exact .asked (hasked.afterStages (hx.method.trans hsocks) hread)
      · exact .late (by rwa [Timely, hs'.reads])

end Reads

/-! ## Runs -/

lemma carried_stand : Carried env .socks5 fun s => Stand env dest s ∧ s.method = .socks5 where
  flow _ _ hs hflow := ⟨hs.1.flow hs.2 hflow, hflow.method.trans hs.2⟩
  asked s request hs := by
    refine ⟨?_, hs.2⟩
    cases hs.1 with
    | asking h => exact .asking ({ h with request := fun hopen => by cases hopen })
    | asked h => exact .asked { h with }
    | late h => exact .late h
  unpend s hs := by
    refine ⟨?_, hs.2⟩
    cases hs.1 with
    | asking h => exact .asking { h with }
    | asked h => exact .asked { h with }
    | late h => exact .late h
  readDown _ _ _ _ _ hs _ hconnected hread := hs.1.readDown hs.2 hconnected hread

section Channel

variable {s₀ s₁ : Connection}

lemma holding_greeted (hempty : s.up.queue.toList = []) (haccepted : s.up.accepted = []) :
    (s.writeUpstreamMethodSelectRequest env).up.Holding (offered env) (places env) [] := by
  have hoffered : (GrowableIOBuffer.copyBuffer
      (Upstream.methodSelectRequest env.authRequired)).readable = offered env := by simp; rfl
  refine ⟨[.copyBuffer (Upstream.methodSelectRequest env.authRequired)],
    List.replicate (places env) .fresh, [], ?_, List.length_replicate, ?_, ?_, ?_, ?_, rfl⟩
  · unfold Connection.writeUpstreamMethodSelectRequest places
    dsimp only
    split_ifs <;> simp [Pipe.push, hempty, List.replicate]
  · intro buf hbuf
    rw [List.mem_singleton.mp hbuf, hoffered]
    exact List.cons_ne_nil _ _
  · intro buf hbuf
    rw [List.eq_of_mem_replicate hbuf]
    simp
  · exact fun buf hbuf => absurd hbuf List.not_mem_nil
  have hsame : (s.writeUpstreamMethodSelectRequest env).up.accepted = [] := by
    unfold Connection.writeUpstreamMethodSelectRequest
    dsimp only
    split_ifs <;> simpa using haccepted
  rw [hsame, Pipe.flat_cons, hoffered]
  rfl

lemma OnChannel.greeted {m : Method} (h : OnChannel env m s₀ s₁ s) (hhttps : m ≠ .https)
    (hhttp2 : m ≠ .http2) :
    Ordered s₀ ∧ Kept m s₀ ∧ (s₀.channel.any fun ch => !ch.connected && !ch.eof) = true ∧
      ∃ settings frames lost,
        (s₀.openChannel false).greet env settings frames lost = some s₁ := by
  obtain ⟨es, c, es', hreach, -, hdue, hgreet, -⟩ := h.exists_run
  have hkept := kept_run hreach
  have hmethod : s₀.method = m := hkept.method_eq hhttp2
  obtain ⟨hch, hhttp11⟩ := due_connected hdue
  have hspeaks : s₀.speaksHttp11 c = false := by
    rw [Connection.speaksHttp11, hmethod]
    by_contra hnegotiated
    rcases hhttp11 (by simpa [hhttp2] using hnegotiated) with hm | hm
    · exact hhttps (hmethod.symm.trans hm)
    · exact hhttp2 (hmethod.symm.trans hm)
  rw [Connection.greetChannel, hspeaks, Bool.false_and, if_neg Bool.false_ne_true] at hgreet
  exact ⟨ordered_run hreach, hkept, hch, _, _, _, hgreet⟩

lemma OnChannel.asking (h : OnChannel env .socks5 s₀ s₁ s)
    (hdest : Starts s₁.request.raw dest.header) :
    Asking env dest s₁ ∧ s₁.method = .socks5 := by
  obtain ⟨hs₀, hkept, hch, _, _, _, hgreet⟩ := h.greeted (by decide) (by decide)
  have hmethod : s₀.method = .socks5 := hkept.method_eq (by decide)
  have hopened : (s₀.openChannel false).method = .socks5 := by
    simpa [Connection.openChannel] using hmethod
  simp only [Connection.greet, hopened, some_inj] at hgreet
  have hempty := hs₀.fresh (by simp [hmethod]) (waiting_of_any hch false).1
  subst hgreet
  exact ⟨⟨holding_greeted hempty rfl, rfl, rfl, rfl, fun _ => hdest⟩, hopened⟩

/-- **The messages to a SOCKS5 server are in order.** On every channel to an upstream SOCKS5 server
that a client connection is connected to, in every state of every run, for every destination and
every arrival of the replies, provided that the first read of the channel is timely. -/
theorem messages_in_order (h : OnChannel env .socks5 s₀ s₁ s)
    (hdest : Starts s₁.request.raw dest.header) (htimely : Timely env s) : InOrder env dest s := by
  obtain ⟨hasking, hmethod⟩ := h.asking hdest
  have hstand : Stand env dest s ∧ s.method = .socks5 :=
    h.carried carried_stand ⟨.asking hasking, hmethod⟩
  cases hstand.1 with
  | asking h =>
    refine ⟨Or.inl h.queue.accepted_isPrefix, fun hselect => ?_⟩
    simp [h.select] at hselect
  | asked h =>
    refine ⟨Or.inr ⟨[], by simp [IsAuth, h.noAuth], ?_⟩, fun _ _ buf hbuf => ?_⟩
    · rw [List.append_nil, ← h.queue.bytes_eq]
      exact List.prefix_append _ _
    · exact h.queue.nonempty buf (List.mem_of_head? hbuf)
  | late h => exact absurd htimely h

end Channel

/-- `10.0.0.1:80`. -/
def sampleDestination : Destination := ⟨.ipv4, [10, 0, 0, 1], 80, rfl, Ss.http_port_lt⟩

def sampleWrite : UpTurn := ⟨.wouldBlock, .asIs, ⟨0, [], []⟩, .bytes 100, false⟩

/-- A run on a channel to a SOCKS5 server. The server has sent `early` when it is connected, and
sends `reply` when the method selection is written; then the channel can be written again. -/
def sampleSocks5 (env : Environment) (early reply : List UInt8) :
    Option (Connection × Connection × Connection) :=
  let request : Ss.Request := ⟨fun i => [1, 10, 0, 0, 1, 0, 80].getD i 0⟩
  let read (bytes : List UInt8) : DownScript :=
    ⟨[⟨.data bytes, [], .consumed, [], [sampleWrite, sampleWrite], []⟩], none, []⟩
  channelStates env .socks5 [.handshake (some request) .nothing [] [] []]
    { sampleConnect false with read := read early }
    [.received (read reply), .sent [sampleWrite, sampleWrite]]

lemma starts_of_map_range {mem : ℕ → UInt8} {l : List UInt8}
    (h : (List.range l.length).map mem = l) : Starts mem l := by
  intro i b hb
  obtain ⟨hi, -⟩ := List.getElem?_eq_some_iff.mp hb
  rw [← h, List.getElem?_map, List.getElem?_range hi] at hb
  exact some_inj.mp hb

theorem messages_in_order_sample :
    ∃ s₀ s₁ s, OnChannel (.sample false [] []) .socks5 s₀ s₁ s ∧
      Starts s₁.request.raw sampleDestination.header ∧ Timely (.sample false [] []) s ∧
      s.up.accepted = [5, 1, 0, 5, 1, 0, 1, 10, 0, 0, 1, 0, 80] ∧
      InOrder (.sample false [] []) sampleDestination s := by
  have hrun : (sampleSocks5 (.sample false [] []) [] [5, 0]).map
      (fun x => ((List.range 7).map x.2.1.request.raw, x.2.2.reads, x.2.2.up.accepted)) =
      some ([1, 10, 0, 0, 1, 0, 80], [(3, [5, 0])],
        [5, 1, 0, 5, 1, 0, 1, 10, 0, 0, 1, 0, 80]) := by decide +kernel
  obtain ⟨⟨s₀, s₁, s⟩, hs, hstates⟩ := map_eq_some_iff.mp hrun
  simp only [Prod.mk.injEq] at hstates
  obtain ⟨hraw, hreads, haccepted⟩ := hstates
  have hchannel := onChannel_channelStates hs
  have hdest : Starts s₁.request.raw sampleDestination.header := starts_of_map_range hraw
  have htimely : Timely (.sample false [] []) s := by
    rintro read hread
    rw [hreads] at hread
    cases hread
    exact ⟨rfl, le_rfl, List.prefix_refl _⟩
  exact ⟨s₀, s₁, s, hchannel, hdest, htimely, haccepted,
    messages_in_order hchannel hdest htimely⟩

/-- A reply that comes before the method selection is written: an empty buffer is at the front, and
nothing of the application is ever written. And a user name and a password are sent with the
version of SOCKS, not with that of RFC 1929. -/
theorem early_reply_leaves_placeholder :
    (∃ s₀ s₁ s, OnChannel (.sample false [] []) .socks5 s₀ s₁ s ∧
      Starts s₁.request.raw sampleDestination.header ∧ s.flags.methodSelect = false ∧
      s.flags.auth = false ∧ s.up.queue.toList.map GrowableIOBuffer.readable = [[]] ∧
      ¬ InOrder (.sample false [] []) sampleDestination s) ∧
    ∃ s₀ s₁ s, OnChannel (.sample false [1] [1]) .socks5 s₀ s₁ s ∧
      Starts s₁.request.raw sampleDestination.header ∧
      s.up.accepted = [5, 1, 2, 5, 1, 1, 1, 1] ∧
      ¬ InOrder (.sample false [1] [1]) sampleDestination s := by
  constructor
  · have hrun : (sampleSocks5 (.sample false [] []) [5, 0] []).map
        (fun x => ((List.range 7).map x.2.1.request.raw, x.2.2.flags.methodSelect,
          x.2.2.flags.auth, x.2.2.up.queue.toList.map GrowableIOBuffer.readable)) =
        some ([1, 10, 0, 0, 1, 0, 80], false, false, [[]]) := by decide +kernel
    obtain ⟨⟨s₀, s₁, s⟩, hs, hstates⟩ := map_eq_some_iff.mp hrun
    simp only [Prod.mk.injEq] at hstates
    obtain ⟨hraw, hselect, hauth, hqueue⟩ := hstates
    refine ⟨s₀, s₁, s, onChannel_channelStates hs, starts_of_map_range hraw, hselect, hauth, hqueue,
      fun h => ?_⟩
    obtain ⟨buf, hlist, hbuf⟩ := List.map_eq_singleton_iff.mp hqueue
    exact h.front hselect hauth buf (by rw [hlist]; rfl) hbuf
  have hrun : (sampleSocks5 (.sample false [1] [1]) [] [5, 2]).map
      (fun x => ((List.range 7).map x.2.1.request.raw, x.2.2.up.accepted)) =
      some ([1, 10, 0, 0, 1, 0, 80], [5, 1, 2, 5, 1, 1, 1, 1]) := by decide +kernel
  obtain ⟨⟨s₀, s₁, s⟩, hs, hstates⟩ := map_eq_some_iff.mp hrun
  simp only [Prod.mk.injEq] at hstates
  obtain ⟨hraw, haccepted⟩ := hstates
  refine ⟨s₀, s₁, s, onChannel_channelStates hs, starts_of_map_range hraw, haccepted,
    fun h => ?_⟩
  have horder := h.order
  rw [haccepted] at horder
  rcases horder with hshort | ⟨auth, hauth, hpre⟩
  · exact absurd hshort.length_le (by decide)
  obtain ⟨ulen, plen, -, -, rfl⟩ : ∃ ulen plen : UInt8, ulen.toNat = 1 ∧ plen.toNat = 1 ∧
      auth = [1, ulen] ++ [1] ++ [plen] ++ [1] := hauth
  have hoffered : offered (.sample false [1] [1]) = [5, 1, 2] := rfl
  rw [hoffered] at hpre
  simp at hpre

end Cli.Relay

end Yass
