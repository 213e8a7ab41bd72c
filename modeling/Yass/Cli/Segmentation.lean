import Yass.Cli.Replies

/-!
# The handshake with an upstream proxy, for every cut of its replies into reads

What an upstream proxy replies is a stream of bytes. The client sees it in reads, and each stage of
its handshake looks at one read alone.

* `Expects` — the replies that a method asks for, in order.

Source: `cli/cli_connection.cpp`, `net/socks4.hpp`, `net/socks5.hpp`.
-/

namespace Yass.Cli.Relay

open Yass.Net
open Yass.Net.Ss (AddressType)
open Staged (Message)

/-! ## Replies -/

def crlf : List UInt8 := [13, 10]

def headerText (lines : List (List UInt8)) : List UInt8 :=
  (lines.map (· ++ crlf)).flatten ++ crlf

/-- The lines of a response header: a status line, then the fields. -/
structure HeaderLines (lines : List (List UInt8)) : Prop where
  ne_nil : lines ≠ []
  line : ∀ line ∈ lines, line ≠ [] ∧ 13 ∉ line ∧ 10 ∉ line

/-- The parser reports a complete header exactly when the blank line has been received, and does
not take what comes behind it. -/
structure ReportsHeaders (parse : List UInt8 → Upstream.Response) : Prop where
  incomplete : ∀ lines, HeaderLines lines → ∀ part, part <+: headerText lines →
    part ≠ headerText lines → (parse part).ok = false
  complete : ∀ lines, HeaderLines lines → (parse (headerText lines)).ok = true → ∀ rest,
    parse (headerText lines ++ rest) =
      ⟨true, (parse (headerText lines)).statusCode, (headerText lines).length⟩

inductive BoundAddress : AddressType → List UInt8 → Prop where
  | ipv4 (bytes : List UInt8) (h : bytes.length = 4 + 2) : BoundAddress .ipv4 bytes
  | ipv6 (bytes : List UInt8) (h : bytes.length = 16 + 2) : BoundAddress .ipv6 bytes
  | domain (len : UInt8) (bytes : List UInt8) (h : bytes.length = len.toNat + 2) :
      BoundAddress .domain (len :: bytes)

/-- A well-formed reply of a proxy whose headers `parse` reads. The version of an authentication
reply is 1, by RFC 1929; `auth_response_stock_reply` makes it 5. -/
inductive Answer (parse : List UInt8 → Upstream.Response) where
  | socks4 (status : UInt8) (rest : List UInt8) (h : rest.length = 6)
  | methodSelect (method : UInt8)
  | auth (version status : UInt8) (h : version = 1 ∨ version = Socks5.version)
  | request (status : UInt8) (atyp : AddressType) (bound : List UInt8) (h : BoundAddress atyp bound)
  | header (lines : List (List UInt8)) (h : HeaderLines lines)
      (hok : (parse (headerText lines)).ok = true)

section Answers

variable {parse : List UInt8 → Upstream.Response}

def Answer.bytes : Answer parse → List UInt8
  | .socks4 status rest _ => [0, status] ++ rest
  | .methodSelect method => [Socks5.version, method]
  | .auth version status _ => [version, status]
  | .request status atyp bound _ => [Socks5.version, status, 0, atyp.code] ++ bound
  | .header lines _ _ => headerText lines

/-- The reply grants what was asked for. `auth` tells that a user name and a password were
offered. -/
def Answer.Grants (auth : Bool) : Answer parse → Prop
  | .socks4 status _ _ => status = Upstream.socks4Granted
  | .methodSelect method =>
    method = if auth then Socks5.usernameOrPassword else Socks5.noAuthRequired
  | .auth _ status _ => status = 0
  | .request status _ _ _ => status = 0
  | .header lines _ _ => (parse (headerText lines)).statusCode = 200

def Answer.Versioned : Answer parse → Prop
  | .auth version _ _ => version = Socks5.version
  | _ => True

def Answer.recogniser (auth : Bool) : Answer parse → List UInt8 → Option ℕ
  | .socks4 _ _ _ => Upstream.socks4Reply
  | .methodSelect _ => Upstream.methodSelectResponse auth
  | .auth _ _ _ => Upstream.authResponse
  | .request _ _ _ _ => Upstream.socks5Reply
  | .header _ _ _ => fun bytes => Upstream.httpsReply (parse bytes)

def wire (answers : List (Answer parse)) : List UInt8 := (answers.map Answer.bytes).flatten

/-! ## Each stage recognises its reply as a whole -/

variable {bytes : List UInt8}

lemma length_lt_of_part {part : List UInt8} (h : part <+: bytes) (hne : part ≠ bytes) :
    part.length < bytes.length :=
  lt_of_le_of_ne h.length_le fun heq => hne (h.eq_of_length heq)

lemma socks4Reply_short (h : bytes.length < 8) :
    Upstream.socks4Reply bytes = none := if_pos h

variable {status : UInt8}

lemma socks4Reply_append {body : List UInt8} (h : body.length = 6) (rest : List UInt8) :
    Upstream.socks4Reply ([0, status] ++ body ++ rest) =
      if status = Upstream.socks4Granted then some ([0, status] ++ body).length else none := by
  have hlen : ¬ ([0, status] ++ body ++ rest).length < 8 := by simp [h]
  unfold Upstream.socks4Reply
  rw [if_neg hlen]
  by_cases hstatus : status = Upstream.socks4Granted <;> simp [hstatus, h]

lemma methodSelectResponse_short {auth : Bool} (h : bytes.length < 2) :
    Upstream.methodSelectResponse auth bytes = none := by
  match bytes, h with
  | [], _ | [_], _ => rfl

lemma methodSelectResponse_append (auth : Bool) (method : UInt8) (rest : List UInt8) :
    Upstream.methodSelectResponse auth ([Socks5.version, method] ++ rest) =
      if method = if auth then Socks5.usernameOrPassword else Socks5.noAuthRequired then some 2
      else none := by
  cases auth <;> simp [Upstream.methodSelectResponse]

lemma authResponse_short (h : bytes.length < 2) :
    Upstream.authResponse bytes = none := by
  match bytes, h with
  | [], _ | [_], _ => rfl

lemma authResponse_append (version status : UInt8) (rest : List UInt8) :
    Upstream.authResponse ([version, status] ++ rest) =
      if status = 0 ∧ version = Socks5.version then some 2 else none := by
  by_cases hversion : version = Socks5.version <;>
    by_cases hstatus : status = 0 <;> simp [Upstream.authResponse, hversion, hstatus]

lemma socks5Reply_cons (status : UInt8) (atyp : AddressType) (body : List UInt8) :
    Upstream.socks5Reply ([Socks5.version, status, 0, atyp.code] ++ body) =
      if status = 0 then Upstream.socks5Reply ([Socks5.version, 0, 0, atyp.code] ++ body)
      else none := by
  by_cases hstatus : status = 0 <;> simp [Upstream.socks5Reply, hstatus]

lemma socks5Reply_append {atyp : AddressType} {bound : List UInt8}
    (h : BoundAddress atyp bound) (rest : List UInt8) :
    Upstream.socks5Reply ([Socks5.version, status, 0, atyp.code] ++ bound ++ rest) =
      if status = 0 then some ([Socks5.version, status, 0, atyp.code] ++ bound).length
      else none := by
  rw [List.append_assoc, socks5Reply_cons]
  congr 1
  cases h with
  | ipv4 _ h | ipv6 _ h =>
    simp [Upstream.socks5Reply, h]
    omega
  | domain len bytes h =>
    simp [Upstream.socks5Reply, h]
    omega

lemma socks5Reply_short {atyp : AddressType} {bound : List UInt8}
    (h : BoundAddress atyp bound) {part : List UInt8}
    (hpart : part <+: [Socks5.version, status, 0, atyp.code] ++ bound)
    (hne : part ≠ [Socks5.version, status, 0, atyp.code] ++ bound) :
    Upstream.socks5Reply part = none := by
  have hlt := length_lt_of_part hpart hne
  match part, hpart with
  | [], _ | [_], _ | [_, _], _ | [_, _, _], _ => rfl
  | a :: b :: c :: d :: more, hpart =>
    simp only [List.cons_append, List.nil_append, List.cons_prefix_cons] at hpart
    obtain ⟨rfl, rfl, rfl, rfl, hmore⟩ := hpart
    have hmatch := socks5Reply_cons b atyp more
    simp only [List.cons_append, List.nil_append, List.length_cons] at hmatch hlt
    rw [hmatch]
    split_ifs
    · cases h with
      | ipv4 _ h | ipv6 _ h =>
        simp [Upstream.socks5Reply]
        omega
      | domain len bytes h =>
        match more, hmore with
        | [], _ => simp [Upstream.socks5Reply]
        | _ :: more, hmore =>
          obtain ⟨rfl, -⟩ := List.cons_prefix_cons.mp hmore
          simp [Upstream.socks5Reply] at hlt ⊢
          omega
    · rfl

def Answer.message (hparse : ReportsHeaders parse) (auth : Bool) (a : Answer parse) :
    Message UInt8 where
  recogniser := a.recogniser auth
  bytes := a.bytes
  good := a.Grants auth ∧ a.Versioned
  ne_nil := by
    cases a with
    | header lines _ _ => simp [Answer.bytes, headerText, crlf]
    | _ => simp [Answer.bytes]
  taken := by
    rintro ⟨hgrants, hversion⟩ rest
    cases a with
    | socks4 status body h => exact (socks4Reply_append h rest).trans (if_pos hgrants)
    | methodSelect method =>
      exact (methodSelectResponse_append auth method rest).trans (if_pos hgrants)
    | auth version status _ =>
      exact (authResponse_append version status rest).trans (if_pos ⟨hgrants, hversion⟩)
    | request status atyp bound h => exact (socks5Reply_append h rest).trans (if_pos hgrants)
    | header lines h hok =>
      simp only [Answer.recogniser, Answer.bytes]
      rw [hparse.complete lines h hok rest, (show _ = 200 from hgrants)]
      rfl
  short part hpart hne := by
    cases a with
    | socks4 status body h =>
      have hlt := length_lt_of_part hpart hne
      exact socks4Reply_short (by simpa [Answer.bytes, h] using hlt)
    | methodSelect method => exact methodSelectResponse_short (length_lt_of_part hpart hne)
    | auth version status _ => exact authResponse_short (length_lt_of_part hpart hne)
    | request status atyp bound h => exact socks5Reply_short h hpart hne
    | header lines h hok =>
      simp [Answer.recogniser, Upstream.httpsReply, hparse.incomplete lines h part hpart hne]
  refused := by
    intro hbad rest
    cases a with
    | socks4 status body h =>
      exact (socks4Reply_append h rest).trans (if_neg fun hgrants => hbad ⟨hgrants, trivial⟩)
    | methodSelect method =>
      exact (methodSelectResponse_append auth method rest).trans
        (if_neg fun hgrants => hbad ⟨hgrants, trivial⟩)
    | auth version status _ => exact (authResponse_append version status rest).trans (if_neg hbad)
    | request status atyp bound h =>
      exact (socks5Reply_append h rest).trans (if_neg fun hgrants => hbad ⟨hgrants, trivial⟩)
    | header lines h hok =>
      have hstatus : (parse (headerText lines)).statusCode ≠ 200 :=
        fun hgrants => hbad ⟨hgrants, trivial⟩
      simp only [Answer.recogniser, Answer.bytes]
      rw [hparse.complete lines h hok rest]
      simp [Upstream.httpsReply, hstatus]

/-- A read that ends behind `n` bytes breaks the handshake: it ends inside a reply, or goes beyond
the start of one that the client does not accept. -/
def Breaks (auth : Bool) (answers : List (Answer parse)) (n : ℕ) : Prop :=
  ∃ k a, answers[k]? = some a ∧ (wire (answers.take k)).length < n ∧
    (a.Grants auth ∧ a.Versioned → n < (wire (answers.take (k + 1))).length)

variable {answers : List (Answer parse)}

lemma wire_take_append_drop (answers : List (Answer parse)) (k : ℕ) :
    wire (answers.take k) ++ wire (answers.drop k) = wire answers := by
  rw [wire, wire, ← List.flatten_append, ← List.map_append, List.take_append_drop, wire]

lemma stream_message (hparse : ReportsHeaders parse) (auth : Bool) (answers : List (Answer parse)) :
    Staged.stream (answers.map (Answer.message hparse auth)) = wire answers := by
  rw [Staged.stream, wire, List.map_map]
  rfl

lemma cut_message_iff (hparse : ReportsHeaders parse) (auth : Bool) (n : ℕ) :
    Staged.Cut (answers.map (Answer.message hparse auth)) n ↔ Breaks auth answers n := by
  simp only [Staged.Cut, Breaks, ← List.map_take, stream_message, List.getElem?_map,
    Option.map_eq_some_iff]
  constructor
  · rintro ⟨k, _, ⟨a, ha, rfl⟩, hstart, hend⟩
    exact ⟨k, a, ha, hstart, hend⟩
  · rintro ⟨k, a, ha, hstart, hend⟩
    exact ⟨k, _, ⟨a, ha, rfl⟩, hstart, hend⟩

end Answers

/-! ## The outcome -/

def Expects (env : Environment) (method : Method) (answers : List (Answer env.parseResponse)) :
    Prop :=
  match method with
  | .https => ∃ lines h hok, answers = [.header lines h hok]
  | .socks4 | .socks4a => ∃ status rest h, answers = [.socks4 status rest h]
  | .socks5 =>
    ∃ method status atyp bound h,
      if env.authRequired then
        ∃ version authStatus hversion, answers =
          [.methodSelect method, .auth version authStatus hversion, .request status atyp bound h]
      else answers = [.methodSelect method, .request status atyp bound h]
  | .cipher | .http2 => False

def Connection.received (s : Connection) : List UInt8 := (s.reads.map Prod.snd).flatten

/-- The outcome of a handshake on a channel that was greeted with `s₁`, by the bytes that were read
from it: the reads themselves do not matter. -/
structure Independent (env : Environment) (answers : List (Answer env.parseResponse))
    (s₁ s : Connection) : Prop where
  /-- If every reply grants the request, none is refused, and what comes behind them is
  delivered. -/
  granted : (∀ a ∈ answers, a.Grants env.authRequired) →
    s.refused = false ∧
      s.down.queued = s₁.down.queued ++ s.received.drop (wire answers).length ∧
      ((wire answers).length ≤ s.received.length → s.stages env = [])
  /-- If one does not, nothing is delivered, and it is refused when it has come. -/
  denied : ∀ k a, answers[k]? = some a → ¬ a.Grants env.authRequired →
    s.down.queued = s₁.down.queued ∧
      ((wire (answers.take (k + 1))).length ≤ s.received.length → s.refused = true)

section Outcome

variable {env : Environment} {m : Method} {s₀ s₁ s : Connection} {data : List UInt8}
  {answers : List (Answer env.parseResponse)}

variable {method : Method}

lemma Expects.proxies (h : Expects env method answers) :
    method.proxies = true := by
  cases method with
  | https | socks4 | socks4a | socks5 => rfl
  | cipher | http2 => exact absurd h id

lemma Expects.wire_pos (h : Expects env method answers) :
    0 < (wire answers).length := by
  cases method with
  | https =>
    obtain ⟨lines, _, _, rfl⟩ := h
    simp [wire, Answer.bytes, headerText, crlf]
  | socks4 | socks4a =>
    obtain ⟨status, rest, _, rfl⟩ := h
    simp [wire, Answer.bytes]
  | socks5 =>
    obtain ⟨method, status, atyp, bound, _, h⟩ := h
    split_ifs at h
    · obtain ⟨version, authStatus, _, rfl⟩ := h
      simp [wire, Answer.bytes]
    · simp [h, wire, Answer.bytes]
  | cipher | http2 => exact absurd h id

lemma Expects.stages (hparse : ReportsHeaders env.parseResponse)
    (h : Expects env method answers) {header : Bool} (hheader : method = .https → header = true) :
    firstStages env header method =
      Staged.recognisers (answers.map (Answer.message hparse env.authRequired)) := by
  cases method with
  | https =>
    obtain ⟨lines, _, _, rfl⟩ := h
    rw [hheader rfl]
    rfl
  | socks4 | socks4a =>
    obtain ⟨status, rest, _, rfl⟩ := h
    rfl
  | socks5 =>
    obtain ⟨method, status, atyp, bound, _, h⟩ := h
    unfold firstStages
    dsimp only
    split_ifs at h ⊢
    · obtain ⟨version, authStatus, _, rfl⟩ := h
      rfl
    · subst h
      rfl
  | cipher | http2 => exact absurd h id

lemma took_denied (hparse : ReportsHeaders env.parseResponse) {auth : Bool} {bytes : List UInt8}
    {r : Staged.Receiver UInt8} {j k : ℕ} {a : Answer env.parseResponse}
    (h : Staged.Took (answers.map (Answer.message hparse auth)) bytes r j)
    (ha : answers[k]? = some a) (hdenies : ¬ a.Grants auth) :
    bytes.length ≤ (wire (answers.take k)).length ∧ r.delivered = [] := by
  have hstart : bytes.length ≤ (wire (answers.take k)).length := by
    by_contra hlt
    refine h.not_cut ((cut_message_iff hparse auth _).mpr ⟨k, a, ha, by omega, fun hgood => ?_⟩)
    exact absurd hgood.1 hdenies
  refine ⟨hstart, ?_⟩
  rw [h.delivered_eq, List.drop_eq_nil_iff, stream_message]
  rw [← wire_take_append_drop answers k, List.length_append]
  omega

lemma wire_take_lt {k : ℕ} {a : Answer env.parseResponse}
    (hparse : ReportsHeaders env.parseResponse) (ha : answers[k]? = some a) :
    (wire (answers.take k)).length < (wire (answers.take (k + 1))).length := by
  have hpos : 0 < a.bytes.length :=
    List.length_pos_iff.mpr (a.message hparse env.authRequired).ne_nil
  rw [List.take_add_one, ha]
  simpa [wire] using hpos

/-- The number of bytes that came in the first `j` reads. -/
def Connection.readsEnd (s : Connection) (j : ℕ) : ℕ :=
  ((s.reads.map Prod.snd).take j).flatten.length

lemma Tracks.outcome_iff (ht : Tracks env s₁ s) (hparse : ReportsHeaders env.parseResponse)
    (hstages : s₁.stages env =
      Staged.recognisers (answers.map (Answer.message hparse env.authRequired)))
    (hwire : s.received <+: wire answers ++ data) :
    Independent env answers s₁ s ↔
      ((∀ a ∈ answers, a.Grants env.authRequired) →
        ∀ j ≤ s.reads.length, ¬ Breaks env.authRequired answers (s.readsEnd j)) := by
  have hne : ∀ bytes ∈ s.reads.map Prod.snd, bytes ≠ [] := by
    intro bytes hmem
    obtain ⟨read, hread, rfl⟩ := List.mem_map.mp hmem
    exact ht.nonempty read hread
  have hpre : (s.reads.map Prod.snd).flatten <+:
      Staged.stream (answers.map (Answer.message hparse env.authRequired)) ++ data := by
    rwa [stream_message]
  have hgoes := Staged.run_isSome_iff hne hpre
  rw [List.length_map] at hgoes
  have hreceiver := ht.receiver
  rw [hstages] at hreceiver
  constructor
  · intro h hgrant j hj hbreaks
    obtain ⟨hrefused, -⟩ := h.granted hgrant
    rcases hreceiver with ⟨-, rest, hrun, -⟩ | ⟨⟨hgone, -⟩, -⟩
    · exact hgoes.mp ⟨_, hrun⟩ j hj ((cut_message_iff hparse _ _).mpr hbreaks)
    · simp [hrefused] at hgone
  intro h
  constructor
  · intro hgrant
    obtain ⟨r, hr⟩ := hgoes.mpr fun j hj hcut =>
      h hgrant j hj ((cut_message_iff hparse _ _).mp hcut)
    obtain ⟨k, htook⟩ := Staged.run_spec hne hpre hr
    rcases hreceiver with ⟨hrefused, rest, hrun, hqueued⟩ |
      ⟨-, reads, bytes, r', hsplit, hrun, hnone, -⟩
    · rw [hrun] at hr
      cases hr
      have hdelivered := htook.delivered_eq
      rw [stream_message] at hdelivered
      refine ⟨hrefused, hqueued.trans (congrArg _ hdelivered), fun hall => ?_⟩
      exact htook.left_nil (by rwa [stream_message])
    · rw [hsplit, Run.exec_append, hrun, Option.bind_some, Run.exec_cons, hnone] at hr
      cases hr
  intro k a ha hdenies
  rcases hreceiver with ⟨-, rest, hrun, hqueued⟩ |
    ⟨hgone, reads, bytes, r, hsplit, hrun, -, hqueued⟩
  · obtain ⟨j, htook⟩ := Staged.run_spec hne hpre hrun
    obtain ⟨hstart, hnil⟩ := took_denied hparse htook ha hdenies
    dsimp only at hnil
    refine ⟨by rw [hqueued, hnil, List.append_nil], fun hall => ?_⟩
    have hlt := wire_take_lt hparse ha
    unfold Connection.received at hall
    omega
  rw [hsplit] at hne hpre
  obtain ⟨j, htook⟩ := Staged.run_spec (fun b hb => hne b (List.mem_append_left _ hb))
    ((by simp : reads.flatten <+: (reads ++ [bytes]).flatten).trans hpre) hrun
  obtain ⟨-, hnil⟩ := took_denied hparse htook ha hdenies
  exact ⟨by rw [hqueued, hnil, List.append_nil], fun _ => hgone.1⟩

lemma Tracks.independent_of_nil (ht : Tracks env s₁ s) (hparse : ReportsHeaders env.parseResponse)
    (hexpects : Expects env method answers) (hnil : s.reads = []) :
    Independent env answers s₁ s := by
  have hreceived : s.received = [] := by simp [Connection.received, hnil]
  obtain ⟨hrefused, hqueued⟩ : s.refused = false ∧ s.down.queued = s₁.down.queued := by
    rcases ht.receiver with ⟨hrefused, rest, hrun, hqueued⟩ | ⟨-, reads, bytes, r, hsplit, -⟩
    · rw [hnil] at hrun
      have hrest : [] = rest := congrArg Staged.Receiver.delivered (Option.some_inj.mp hrun)
      exact ⟨hrefused, by rwa [← hrest, List.append_nil] at hqueued⟩
    · simp [hnil] at hsplit
  constructor
  · intro _
    refine ⟨hrefused, by rw [hqueued, hreceived, List.drop_nil, List.append_nil], fun hall => ?_⟩
    have hpos := hexpects.wire_pos
    rw [hreceived, List.length_nil] at hall
    omega
  intro k a ha _
  refine ⟨hqueued, fun hall => ?_⟩
  have hlt := wire_take_lt hparse ha
  rw [hreceived, List.length_nil] at hall
  omega

lemma Tracks.received_pos (ht : Tracks env s₁ s) (hreads : s.reads ≠ []) :
    0 < s.received.length := by
  obtain ⟨read, reads, hcons⟩ := List.exists_cons_of_ne_nil hreads
  have hne := ht.nonempty read (by simp [hcons])
  have hpos := List.length_pos_iff.mpr hne
  simp only [Connection.received, hcons, List.map_cons, List.flatten_cons, List.length_append]
  omega

lemma Tracks.queued_of_stages_nil (ht : Tracks env s₁ s) (hstages : s₁.stages env = []) :
    s.down.queued = s₁.down.queued ++ s.received := by
  have hexec : ∀ (reads : List (List UInt8)) (delivered : List UInt8),
      Run.exec Staged.Receiver.read ⟨[], delivered⟩ reads =
        some ⟨[], delivered ++ reads.flatten⟩ := by
    intro reads
    induction reads with
    | nil => simp [Run.exec]
    | cons bytes reads ih =>
      intro delivered
      rw [Run.exec_cons]
      refine (ih (delivered ++ bytes)).trans ?_
      simp
  rcases ht.receiver with ⟨-, rest, hrun, hqueued⟩ | ⟨-, reads, bytes, r, -, hrun, hnone, -⟩
  · rw [hstages, hexec] at hrun
    have hrest : _ = rest := congrArg Staged.Receiver.delivered (Option.some_inj.mp hrun)
    rw [hqueued, ← hrest]
    rfl
  rw [hstages, hexec] at hrun
  cases hrun
  cases hnone

/-- **Exact condition for an upstream handshake that does not depend on the reads.** On every
channel to an HTTP or SOCKS proxy that a client connection is connected to, in every state of every
run, for every sequence of well-formed replies and every data behind them, the outcome is that of
the bytes that have come exactly if

* an HTTP proxy was not asked on an earlier channel, or nothing has come;
* where every reply grants the request, no read has ended inside a reply, nor beyond the start of an
  authentication reply of version 1. -/
theorem independent_iff (hchannel : OnChannel env m s₀ s₁ s)
    (hparse : ReportsHeaders env.parseResponse) (hexpects : Expects env s₁.method answers)
    (hwire : s.received <+: wire answers ++ data) :
    Independent env answers s₁ s ↔
      (s₁.method = .https → s₀.flags.https = true ∨ s.reads = []) ∧
        ((∀ a ∈ answers, a.Grants env.authRequired) →
          ∀ j ≤ s.reads.length, ¬ Breaks env.authRequired answers (s.readsEnd j)) := by
  have ht := hchannel.tracks hexpects.proxies
  by_cases hnil : s.reads = []
  · refine iff_of_true (ht.independent_of_nil hparse hexpects hnil) ⟨fun _ => Or.inr hnil, ?_⟩
    rintro - j - ⟨k, a, -, hstart, -⟩
    simp [Connection.readsEnd, hnil] at hstart
  have hstages := (hchannel.stages hexpects.proxies).resolve_left hnil
  by_cases hheader : s₁.method = .https ∧ s₀.flags.https = false
  · -- the reply goes to the application
    obtain ⟨hmethod, hflag⟩ := hheader
    refine iff_of_false (fun h => ?_) fun h => ?_
    · have hqueued := ht.queued_of_stages_nil (by simp [hstages, hmethod, hflag, firstStages])
      have hpos : 0 < s.received.length := ht.received_pos hnil
      by_cases hgrant : ∀ a ∈ answers, a.Grants env.authRequired
      · obtain ⟨-, hbehind, -⟩ := h.granted hgrant
        have hlength := congrArg List.length (hqueued.symm.trans hbehind)
        have hwirePos := hexpects.wire_pos
        simp only [List.length_append, List.length_drop] at hlength
        omega
      push Not at hgrant
      obtain ⟨a, ha, hdenies⟩ := hgrant
      obtain ⟨k, hk⟩ := List.mem_iff_getElem?.mp ha
      have hlength := congrArg List.length (hqueued.symm.trans (h.denied k a hk hdenies).1)
      rw [List.length_append] at hlength
      omega
    rcases h.1 hmethod with hset | hnone
    · simp [hflag] at hset
    · exact hnil hnone
  have hset : s₁.method = .https → s₀.flags.https = true := by
    intro hmethod
    simpa [hmethod] using hheader
  rw [hexpects.stages hparse hset] at hstages
  rw [ht.outcome_iff hparse hstages hwire]
  exact ⟨fun h => ⟨fun hmethod => Or.inl (hset hmethod), h⟩, fun h => h.2⟩

def sampleChannel (env : Environment) (m : Method) (reads : List (List UInt8)) :
    Option (Connection × Connection × Connection) :=
  let request : Ss.Request := ⟨fun i => [1, 10, 0, 0, 1, 0, 80].getD i 0⟩
  channelStates env m [.handshake (some request) .nothing [] [] []] (sampleConnect false)
    (reads.map fun bytes => .received ⟨[⟨.data bytes, [], .consumed, [], [], []⟩], none, []⟩)

end Outcome

lemma headerText_eq_sample {lines : List (List UInt8)} (h : HeaderLines lines)
    (hpre : sampleHeader <+: headerText lines) : headerText lines = sampleHeader := by
  match lines, h with
  | [], h => exact absurd rfl h.ne_nil
  | line :: lines, h =>
    obtain ⟨hne, hcr, -⟩ := h.line line List.mem_cons_self
    match line, hne, hcr with
    | [_], _, _ | [_, _], _, _ => simp [sampleHeader, headerText, crlf] at hpre
    | _ :: _ :: _ :: d :: _, _, hcr =>
      simp [sampleHeader, headerText, crlf] at hpre
      simp [← hpre.2.2.2.1] at hcr
    | [_, _, _], _, _ =>
      simp [sampleHeader, headerText, crlf] at hpre ⊢
      match lines, h with
      | [], _ => simp [← hpre.1, ← hpre.2.1, ← hpre.2.2.1]
      | next :: _, h =>
        obtain ⟨hne, hcr, -⟩ := h.line next (by simp)
        match next, hne, hcr with
        | x :: _, _, hcr =>
          simp at hpre
          simp [← hpre.2.2.2.1] at hcr

lemma reportsHeaders_sample (paddingSupport : Bool) (username password : List UInt8) :
    ReportsHeaders (Environment.sample paddingSupport username password).parseResponse where
  incomplete lines h part hpart hne := by
    have hno : ¬ sampleHeader.isPrefixOf part = true := by
      intro hsample
      have hpre := List.isPrefixOf_iff_prefix.mp hsample
      have hwhole := headerText_eq_sample h (hpre.trans hpart)
      rw [hwhole] at hpart hne
      exact hne (hpart.eq_of_length_le hpre.length_le)
    simp only [Environment.sample, if_neg hno]
  complete lines h hok rest := by
    have hsample : sampleHeader.isPrefixOf (headerText lines) = true := by
      by_contra hno
      simp only [Environment.sample, if_neg hno] at hok
      cases hok
    have hwhole := headerText_eq_sample h (List.isPrefixOf_iff_prefix.mp hsample)
    rw [hwhole]
    have hpre : sampleHeader.isPrefixOf (sampleHeader ++ rest) = true :=
      List.isPrefixOf_iff_prefix.mpr (List.prefix_append _ _)
    simp only [Environment.sample, if_pos hpre]
    rfl

def sampleAnswers : List (Answer (Environment.sample false [] []).parseResponse) :=
  [.methodSelect 0, .request 0 .ipv4 [10, 0, 0, 1, 0, 80] (.ipv4 _ rfl)]

theorem independent_sample :
    ∃ s₀ s₁ s, OnChannel (.sample false [] []) .socks5 s₀ s₁ s ∧ s.reads.length = 2 ∧
      Independent (.sample false [] []) sampleAnswers s₁ s ∧ s.down.queued = [7, 8] := by
  have hrun : (sampleChannel (.sample false [] []) .socks5
      [[5, 0], [5, 0, 0, 1, 10, 0, 0, 1, 0, 80, 7, 8]]).map
        (fun x => (x.2.1.method, x.2.2.reads.map Prod.snd, x.2.2.down.queued)) =
      some (.socks5, [[5, 0], [5, 0, 0, 1, 10, 0, 0, 1, 0, 80, 7, 8]], [7, 8]) := by
    decide +kernel
  obtain ⟨⟨s₀, s₁, s⟩, hs, hstates⟩ := Option.map_eq_some_iff.mp hrun
  simp only [Prod.mk.injEq] at hstates
  obtain ⟨hmethod, hreads, hqueued⟩ := hstates
  have hlength : s.reads.length = 2 := by
    rw [← List.length_map Prod.snd, hreads]
    rfl
  have hchannel := onChannel_channelStates hs
  have hwire : s.received <+: wire sampleAnswers ++ [7, 8] := by
    rw [Connection.received, hreads]
    exact List.prefix_refl _
  refine ⟨s₀, s₁, s, hchannel, hlength, ?_, hqueued⟩
  refine (independent_iff hchannel (reportsHeaders_sample _ _ _) ?_ hwire).mpr ⟨?_, ?_⟩
  · rw [hmethod]
    exact ⟨0, 0, .ipv4, _, .ipv4 _ rfl, rfl⟩
  · simp [hmethod]
  rw [hlength]
  rintro - j hj ⟨k, a, hk, hstart, hend⟩
  have hends : s.readsEnd j = 0 ∨ s.readsEnd j = 2 ∨ s.readsEnd j = 14 := by
    unfold Connection.readsEnd
    rw [hreads]
    interval_cases j <;> decide
  match k, hk, hstart, hend with
  | 0, hk, hstart, hend =>
    cases hk
    have hlt : s.readsEnd j < 2 := hend ⟨rfl, trivial⟩
    have hpos : 0 < s.readsEnd j := hstart
    omega
  | 1, hk, hstart, hend =>
    cases hk
    have hlt : s.readsEnd j < 12 := hend ⟨rfl, trivial⟩
    have hpos : 2 < s.readsEnd j := hstart
    omega

/-- The same replies, with the method selection in two reads: the client gives up. So it does where
an authentication is granted in the words of RFC 1929. -/
theorem method_selection_cut :
    (∃ s₀ s₁ s, OnChannel (.sample false [] []) .socks5 s₀ s₁ s ∧ s.received = [5] ∧
      Expects (.sample false [] []) s₁.method sampleAnswers ∧ s.received <+: wire sampleAnswers ∧
      s.refused = true ∧ ¬ Independent (.sample false [] []) sampleAnswers s₁ s) ∧
    ∃ s₀ s₁ s answers, OnChannel (.sample false [1] [1]) .socks5 s₀ s₁ s ∧
      s.reads.map Prod.snd = [[5, 2], [1, 0]] ∧
      Expects (.sample false [1] [1]) s₁.method answers ∧ s.received <+: wire answers ∧
      s.refused = true ∧ ¬ Independent (.sample false [1] [1]) answers s₁ s := by
  constructor
  · have hrun : (sampleChannel (.sample false [] []) .socks5 [[5], [0]]).map
        (fun x => (x.2.1.method, x.2.2.received, x.2.2.refused)) = some (.socks5, [5], true) := by
      decide +kernel
    obtain ⟨⟨s₀, s₁, s⟩, hs, hstates⟩ := Option.map_eq_some_iff.mp hrun
    simp only [Prod.mk.injEq] at hstates
    obtain ⟨hmethod, hreceived, hrefused⟩ := hstates
    refine ⟨s₀, s₁, s, onChannel_channelStates hs, hreceived, ?_, ?_, hrefused, fun h => ?_⟩
    · rw [hmethod]
      exact ⟨0, 0, .ipv4, _, .ipv4 _ rfl, rfl⟩
    · rw [hreceived]
      decide
    · obtain ⟨hgoes, -⟩ := h.granted (by simp [sampleAnswers, Answer.Grants]; rfl)
      simp [hrefused] at hgoes
  have hrun : (sampleChannel (.sample false [1] [1]) .socks5 [[5, 2], [1, 0]]).map
      (fun x => (x.2.1.method, x.2.2.reads.map Prod.snd, x.2.2.refused)) =
        some (.socks5, [[5, 2], [1, 0]], true) := by decide +kernel
  obtain ⟨⟨s₀, s₁, s⟩, hs, hstates⟩ := Option.map_eq_some_iff.mp hrun
  simp only [Prod.mk.injEq] at hstates
  obtain ⟨hmethod, hreads, hrefused⟩ := hstates
  refine ⟨s₀, s₁, s, [.methodSelect 2, .auth 1 0 (Or.inl rfl),
    .request 0 .ipv4 [10, 0, 0, 1, 0, 80] (.ipv4 _ rfl)], onChannel_channelStates hs, hreads,
    ?_, ?_, hrefused, fun h => ?_⟩
  · rw [hmethod]
    exact ⟨2, 0, .ipv4, _, .ipv4 _ rfl, 1, 0, Or.inl rfl, rfl⟩
  · rw [Connection.received, hreads]
    decide
  · obtain ⟨hgoes, -⟩ := h.granted (by simp [Answer.Grants]; rfl)
    simp [hrefused] at hgoes

end Yass.Cli.Relay
