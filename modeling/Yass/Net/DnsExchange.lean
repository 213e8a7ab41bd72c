import Yass.Lib.Run
import Yass.Net.DnsAnswers

/-!
# The exchange with a DNS server over TLS

A request is sent, and the reply is read into one buffer: first a header, which gives the length of
the body, then the body. DoT and DoH differ in the header, in the size of a read, and in what they
hand to the parser: DoT hands over all that has been received, DoH only the body.

* `step` — a wait that is over: what `OnSSLWritable` and `OnSSLReadable` do. `none` is a fault of
  the parser of DNS responses.
* `Reply` — a complete reply of a server; `Possible` — what the waits can report while it arrives.

Connecting, the TLS handshake, and closing are left out.

Source: `net/dot_request.cpp`, `net/doh_request.cpp`.
-/

namespace Yass.Net.DnsExchange

open Yass.Net.DnsMessage
open List (append_assoc append_nil length_append length_nil)

/-! ## The code -/

inductive Error where
  | operationNotSupported
  | wouldBlock
  | other
  deriving DecidableEq, Repr

inductive Outcome (α : Type) where
  | done (result : α)
  | wouldBlock
  | failed (error : Error)
  deriving DecidableEq, Repr

inductive Event where
  | readable (outcome : Outcome (List UInt8))
  | writable (outcome : Outcome ℕ)
  deriving DecidableEq, Repr

structure HttpResponse where
  ok : Bool
  nparsed : ℕ
  statusCode : ℕ
  contentType : String
  contentLength : ℕ
  deriving DecidableEq, Repr

/-- `DoTRequest` or `DoHRequest`. -/
inductive Transport where
  | dot
  | doh (parse : List UInt8 → HttpResponse)

/-- `DoTRequest::OnReadHeader`: how much of the buffer is the header, and the length of the body. -/
def dotReadHeader (recv : List UInt8) : Option (ℕ × ℕ) :=
  if recv.length < 2 then none else some (2, u16 recv 0)

/-- `DoHRequest::OnReadHeader`. -/
def dohReadHeader (parse : List UInt8 → HttpResponse) (recv : List UInt8) : Option (ℕ × ℕ) :=
  let parser := parse recv
  if !parser.ok then none
  else if parser.statusCode ≠ 200 then none
  else if parser.contentType ≠ "application/dns-message" then none
  else if parser.contentLength = 0 then none
  else if 65535 ≤ parser.contentLength then none
  else some (parser.nparsed, parser.contentLength)

namespace Transport

/-- `OnReadHeader`. -/
def readHeader : Transport → List UInt8 → Option (ℕ × ℕ)
  | dot => dotReadHeader
  | doh parse => dohReadHeader parse

def capacity : Transport → ℕ
  | dot => 2 + 65535
  | doh _ => 65535

def range : Transport → ℕ → List UInt8 → List UInt8
  | dot, _, recv => recv
  | doh _, bodyLength, recv => recv.take bodyLength

def leftover : Transport → ℕ → List UInt8 → List UInt8
  | dot, _, recv => recv
  | doh _, bodyLength, recv => recv.drop bodyLength

end Transport

inductive ReadState where
  | header
  | body
  deriving DecidableEq, Repr

inductive Report where
  | failed (error : Error)
  | done (addresses : List AddrInfo)
  deriving DecidableEq, Repr

structure Config where
  transport : Transport
  /-- `dns_type_ == DNS_TYPE_AAAA`. -/
  isIpv6 : Bool
  port : ℤ
  /-- Plain `char` has a sign. -/
  signed : Bool

structure Exchange where
  readState : ReadState
  bodyLength : ℕ
  /-- `recv_buf_`, from its offset. -/
  recv : List UInt8
  /-- `send_buf_`, from its offset. -/
  send : List UInt8
  cb : Bool
  waitRead : Bool
  waitWrite : Bool
  reports : List Report
  deriving DecidableEq, Repr

/-- A request to which `OnSSLConnect` has come. -/
def start (send : List UInt8) : Exchange := ⟨.header, 0, [], send, true, true, true, []⟩

namespace Exchange

variable (config : Config) (s : Exchange)

def onDoneRequest (report : Report) : Exchange :=
  if s.cb then { s with cb := false, reports := s.reports ++ [report] } else s

def onParseDnsResponse : Option Exchange :=
  let range := config.transport.range s.bodyLength s.recv
  match parse range config.signed range.length with
  | .error _ => none
  | .ok (.good, c) =>
    some ({ s with recv := config.transport.leftover s.bodyLength s.recv }.onDoneRequest
      (.done (addrinfoDup config.isIpv6 c.resp config.port)))
  | .ok _ => some (s.onDoneRequest (.failed .operationNotSupported))

def onReadBody : Option Exchange :=
  if s.recv.length < s.bodyLength then some { s with waitRead := true }
  else s.onParseDnsResponse config

def onReadHeader : Option Exchange :=
  match config.transport.readHeader s.recv with
  | none => some (s.onDoneRequest (.failed .operationNotSupported))
  | some (nparsed, bodyLength) =>
    { s with recv := s.recv.drop nparsed, readState := .body, bodyLength }.onReadBody config

def onSSLReadable : Outcome (List UInt8) → Option Exchange
  | .failed error => some (s.onDoneRequest (.failed error))
  | .wouldBlock => some { s with waitRead := true }
  | .done data =>
    let s := { s with recv := s.recv ++ data }
    match s.readState with
    | .header => s.onReadHeader config
    | .body => s.onReadBody config

/-- `OnSSLWritable`. A write that would block is an error like any other. -/
def onSSLWritable : Outcome ℕ → Exchange
  | .failed error => s.onDoneRequest (.failed error)
  | .wouldBlock => s.onDoneRequest (.failed .wouldBlock)
  | .done written =>
    let s := { s with send := s.send.drop written }
    if s.send ≠ [] then { s with waitWrite := true } else s

end Exchange

def step (config : Config) (s : Exchange) : Event → Option Exchange
  | .readable outcome =>
    if s.waitRead then { s with waitRead := false }.onSSLReadable config outcome else some s
  | .writable outcome =>
    if s.waitWrite then some ({ s with waitWrite := false }.onSSLWritable outcome) else some s

/-! ## Replies and schedules -/

/-- A complete header: the parser accepts it, and it alone, whatever is behind it. -/
structure CompleteHeader (parse : List UInt8 → HttpResponse) (header : List UInt8) : Prop where
  ok : (parse header).ok = true
  nparsed : (parse header).nparsed = header.length
  short : ∀ part, part <+: header → part ≠ header → (parse part).ok = false
  rest : ∀ rest, parse (header ++ rest) = parse header

structure Reply (transport : Transport) where
  header : List UInt8
  body : List UInt8
  announced : match transport with
    | .dot => header.length = 2 ∧ u16 header 0 = body.length
    | .doh parse => CompleteHeader parse header ∧ (parse header).statusCode = 200 ∧
        (parse header).contentLength = body.length

def Reply.Wanted : {transport : Transport} → Reply transport → Prop
  | .dot, _ => True
  | .doh parse, reply => (parse reply.header).contentType = "application/dns-message" ∧
      reply.body.length < 65535

def Reply.wire {transport : Transport} (reply : Reply transport) : List UInt8 :=
  reply.header ++ reply.body

def Event.data : Event → List UInt8
  | .readable (.done data) => data
  | _ => []

def received (events : List Event) : List UInt8 := (events.map Event.data).flatten

/-- What the waits can report while `unsent` bytes are not sent, if the connection does not fail. -/
def Possible (transport : Transport) : ℕ → List Event → Prop
  | _, [] => True
  | unsent, .readable (.done data) :: events =>
    (data ≠ [] ∧ data.length ≤ transport.capacity) ∧ Possible transport unsent events
  | unsent, .readable .wouldBlock :: events => Possible transport unsent events
  | unsent, .writable (.done written) :: events =>
    (0 < written ∧ written ≤ unsent) ∧ Possible transport (unsent - written) events
  | unsent, .writable .wouldBlock :: events => 0 < unsent ∧ Possible transport unsent events
  | _, .readable (.failed _) :: _ => False
  | _, .writable (.failed _) :: _ => False

/-- The events up to the read with which `n` bytes have been received. -/
def upTo (n : ℕ) : List Event → List Event
  | [] => []
  | e :: events => if n ≤ e.data.length then [e] else e :: upTo (n - e.data.length) events

def firstRead (events : List Event) : Option (List UInt8) :=
  (events.map Event.data).find? (· ≠ [])

/-- From here on, where `got` has been received, the request is not held up before the reply is
complete, the first read covers the header, the reply is of the kind that is wanted, and there is
room for the names of the message in what is handed to the parser. -/
structure Smooth (config : Config) (reply : Reply config.transport) (m : Message)
    (got : List UInt8) (events : List Event) : Prop where
  writes : ∀ e ∈ upTo (reply.wire.length - got.length) events, e ≠ .writable .wouldBlock
  first : got = [] → ∀ data ∈ firstRead events, reply.header.length ≤ data.length
  wanted : reply.Wanted
  room : m.Room (config.transport.range reply.body.length
    ((got ++ received (upTo (reply.wire.length - got.length) events)).drop reply.header.length))
  plain : m.Plain config.signed

/-! ## A callback that has been called -/

section Spent

variable {config : Config} {s s' : Exchange} {e : Event} {events : List Event}

lemma onDoneRequest_of_spent (h : s.cb = false) (report : Report) :
    s.onDoneRequest report = s := by
  rw [Exchange.onDoneRequest, h]
  rfl

variable {reports : List Report}

lemma onParse_spent (h : s.cb = false ∧ s.reports = reports)
    (hparse : s.onParseDnsResponse config = some s') : s'.cb = false ∧ s'.reports = reports := by
  rw [Exchange.onParseDnsResponse] at hparse
  split at hparse
  · cases hparse
  · obtain rfl := Option.some.inj hparse
    rw [onDoneRequest_of_spent (by exact h.1)]
    exact h
  obtain rfl := Option.some.inj hparse
  rw [onDoneRequest_of_spent h.1]
  exact h

lemma onReadBody_spent (h : s.cb = false ∧ s.reports = reports)
    (hbody : s.onReadBody config = some s') : s'.cb = false ∧ s'.reports = reports := by
  rw [Exchange.onReadBody] at hbody
  split_ifs at hbody
  · cases hbody
    exact h
  · exact onParse_spent h hbody

lemma onReadHeader_spent (h : s.cb = false ∧ s.reports = reports)
    (hheader : s.onReadHeader config = some s') : s'.cb = false ∧ s'.reports = reports := by
  rw [Exchange.onReadHeader] at hheader
  split at hheader
  · rw [onDoneRequest_of_spent h.1] at hheader
    cases hheader
    exact h
  · refine onReadBody_spent ?_ hheader
    exact h

lemma onSSLReadable_spent {outcome : Outcome (List UInt8)}
    (h : s.cb = false ∧ s.reports = reports) (hread : s.onSSLReadable config outcome = some s') :
    s'.cb = false ∧ s'.reports = reports := by
  cases outcome with
  | failed error =>
    rw [Exchange.onSSLReadable, onDoneRequest_of_spent h.1] at hread
    cases hread
    exact h
  | wouldBlock =>
    cases hread
    exact h
  | done data =>
    rw [Exchange.onSSLReadable] at hread
    dsimp only at hread
    split at hread
    · refine onReadHeader_spent ?_ hread
      exact h
    · refine onReadBody_spent ?_ hread
      exact h

lemma onSSLWritable_spent (h : s.cb = false) (outcome : Outcome ℕ) :
    (s.onSSLWritable outcome).cb = false ∧ (s.onSSLWritable outcome).reports = s.reports ∧
      (s.onSSLWritable outcome).waitRead = s.waitRead := by
  cases outcome with
  | failed error =>
    rw [Exchange.onSSLWritable, onDoneRequest_of_spent h]
    exact ⟨h, rfl, rfl⟩
  | wouldBlock =>
    rw [Exchange.onSSLWritable, onDoneRequest_of_spent h]
    exact ⟨h, rfl, rfl⟩
  | done written =>
    rw [Exchange.onSSLWritable]
    dsimp only
    split_ifs <;> exact ⟨h, rfl, rfl⟩

lemma step_spent (h : s.cb = false) (hstep : step config s e = some s') :
    s'.cb = false ∧ s'.reports = s.reports := by
  cases e with
  | readable outcome =>
    rw [step] at hstep
    split_ifs at hstep
    · refine onSSLReadable_spent ?_ hstep
      exact ⟨h, rfl⟩
    · cases hstep
      exact ⟨h, rfl⟩
  | writable outcome =>
    rw [step] at hstep
    split_ifs at hstep
    · cases hstep
      obtain ⟨hcb, hreports, -⟩ :=
        onSSLWritable_spent (s := { s with waitWrite := false }) h outcome
      exact ⟨hcb, hreports⟩
    · cases hstep
      exact ⟨h, rfl⟩

lemma exec_spent (h : s.cb = false) (hrun : Run.exec (step config) s events = some s') :
    s'.reports = s.reports := by
  refine (Run.exec_keeps (I := fun a => a.cb = false ∧ a.reports = s.reports)
    (fun a e a' ⟨hcb, hsame⟩ hstep => ?_) ⟨h, rfl⟩ hrun).2
  obtain ⟨hcb', hreports⟩ := step_spent hcb hstep
  exact ⟨hcb', hreports.trans hsame⟩

lemma exec_over (h : s.cb = false) (hread : s.waitRead = false) (events : List Event) :
    ∃ s', Run.exec (step config) s events = some s' ∧ s'.reports = s.reports := by
  have hkeep : ∀ s e, (s.cb = false ∧ s.waitRead = false) → True →
      ∃ s', step config s e = some s' ∧ s'.cb = false ∧ s'.waitRead = false := by
    rintro s e ⟨hcb, hread⟩ -
    cases e with
    | readable outcome =>
      rw [step, hread]
      exact ⟨s, rfl, hcb, hread⟩
    | writable outcome =>
      rw [step]
      split_ifs
      · obtain ⟨hcb', -, hread'⟩ :=
          onSSLWritable_spent (s := { s with waitWrite := false }) hcb outcome
        exact ⟨_, rfl, hcb', hread'.trans hread⟩
      · exact ⟨s, rfl, hcb, hread⟩
  obtain ⟨s', hrun, -⟩ := Run.exec_invariant hkeep ⟨h, hread⟩ (Run.along_true _ s events)
  exact ⟨s', hrun, exec_spent h hrun⟩

end Spent

/-! ## A reply that arrives -/

section Reply

variable {transport : Transport} (reply : Reply transport)

lemma Reply.readHeader_short {part : List UInt8} (hpart : part <+: reply.header)
    (hne : part ≠ reply.header) : transport.readHeader part = none := by
  obtain ⟨header, body, announced⟩ := reply
  dsimp only at hpart hne
  cases transport with
  | dot =>
    have hlt : part.length < 2 := by
      obtain ⟨hlength, -⟩ := announced
      by_contra hle
      exact hne (hpart.eq_of_length_le (by omega))
    exact if_pos hlt
  | doh parse =>
    change dohReadHeader parse part = none
    rw [dohReadHeader, announced.1.short part hpart hne]
    rfl

lemma Reply.readHeader_wanted (hbody : reply.body ≠ []) (rest : List UInt8) (h : reply.Wanted) :
    transport.readHeader (reply.header ++ rest) =
      some (reply.header.length, reply.body.length) := by
  obtain ⟨header, body, announced⟩ := reply
  cases transport with
  | dot =>
    obtain ⟨hlength, hu16⟩ := announced
    change dotReadHeader (header ++ rest) = some (header.length, body.length)
    rw [dotReadHeader, if_neg (by rw [length_append]; omega), u16_append _ (by omega), hu16,
      hlength]
  | doh parse =>
    obtain ⟨hheader, hstatus, hlength⟩ := announced
    obtain ⟨htype, hshort⟩ := h
    change dohReadHeader parse (header ++ rest) = some (header.length, body.length)
    have hpos := List.length_pos_iff.mpr hbody
    dsimp only at htype hshort hpos
    rw [dohReadHeader, hheader.rest, if_neg (by simp [hheader.ok]), if_neg (by simp [hstatus]),
      if_neg (by simp [htype]), if_neg (by omega), if_neg (by omega), hheader.nparsed, hlength]

lemma Reply.readHeader_unwanted (rest : List UInt8) (h : ¬ reply.Wanted) :
    transport.readHeader (reply.header ++ rest) = none := by
  obtain ⟨header, body, announced⟩ := reply
  cases transport with
  | dot => exact absurd trivial h
  | doh parse =>
    obtain ⟨hheader, hstatus, hlength⟩ := announced
    change dohReadHeader parse (header ++ rest) = none
    rw [dohReadHeader, hheader.rest]
    by_cases htype : (parse header).contentType = "application/dns-message"
    · have hlong : 65535 ≤ body.length := by
        by_contra hlt
        exact h ⟨htype, by simpa using hlt⟩
      simp [hlength, hlong]
    · simp [htype]

lemma Reply.range_at {m : Message} (h : m.At reply.body reply.body.length) (rest : List UInt8) :
    m.At (transport.range reply.body.length (reply.body ++ rest)) reply.body.length := by
  cases transport with
  | dot => exact h.append rest
  | doh parse =>
    rw [Transport.range, List.take_left]
    exact h

end Reply

section Arriving

variable (config : Config) (reply : Reply config.transport)

/-- Where the request stands with the body, when `got` has been received. -/
def atBody (got send : List UInt8) (waitWrite : Bool) : Exchange :=
  ⟨.body, reply.body.length, got.drop reply.header.length, send, true, false, waitWrite, []⟩

/-- Where the request stands when `got` has been received and the reply is not complete. -/
def standing (got send : List UInt8) (waitWrite : Bool) : Exchange :=
  if got = [] then { start send with waitWrite }
  else { atBody config reply got send waitWrite with waitRead := true }

variable {config reply} {got send data : List UInt8} {w : Bool}

lemma standing_of_ne (h : got ≠ []) : standing config reply got send w =
    { atBody config reply got send w with waitRead := true } := if_neg h

variable {s : Exchange}

lemma onReadHeader_none (h : config.transport.readHeader s.recv = none) :
    s.onReadHeader config = some (s.onDoneRequest (.failed .operationNotSupported)) := by
  rw [Exchange.onReadHeader, h]

lemma onReadHeader_some {nparsed bodyLength : ℕ}
    (h : config.transport.readHeader s.recv = some (nparsed, bodyLength)) :
    s.onReadHeader config = { s with
      recv := s.recv.drop nparsed, readState := .body, bodyLength }.onReadBody config := by
  rw [Exchange.onReadHeader, h]

lemma step_refused (h : config.transport.readHeader data = none) :
    ∃ s, step config (standing config reply [] send w) (.readable (.done data)) = some s ∧
      s.cb = false ∧ s.reports = [.failed .operationNotSupported] := by
  refine ⟨{ start send with
    recv := data, waitRead := false, waitWrite := w, cb := false,
    reports := [.failed .operationNotSupported] }, ?_, rfl, rfl⟩
  change Exchange.onReadHeader config { start send with
    recv := data, waitRead := false, waitWrite := w } = _
  rw [onReadHeader_none h]
  rfl

lemma step_data (hbody : reply.body ≠ []) (hwanted : reply.Wanted)
    (hgot : got ≠ [] → reply.header.length ≤ got.length) (hstarts : reply.header <+: got ++ data) :
    step config (standing config reply got send w) (.readable (.done data)) =
      (atBody config reply (got ++ data) send w).onReadBody config := by
  by_cases hnil : got = []
  · subst hnil
    obtain ⟨rest, hrest⟩ := hstarts
    rw [List.nil_append] at hrest ⊢
    subst hrest
    change Exchange.onReadHeader config { start send with
      recv := reply.header ++ rest, waitRead := false, waitWrite := w } = _
    rw [onReadHeader_some (reply.readHeader_wanted hbody rest hwanted)]
    rfl
  rw [standing_of_ne hnil]
  change Exchange.onReadBody config _ = _
  congr 1
  rw [atBody, atBody, List.drop_append_of_le_length (hgot hnil)]

lemma step_written (written : ℕ) : step config (standing config reply got send true)
    (.writable (.done written)) =
      some (standing config reply got (send.drop written) (decide (send.drop written ≠ []))) := by
  by_cases hnil : got = [] <;> by_cases hrest : send.drop written = [] <;>
    simp [step, standing, start, atBody, Exchange.onSSLWritable, hnil, hrest]

lemma step_blocked :
    ∃ s, step config (standing config reply got send true) (.writable .wouldBlock) =
    some s ∧ s.cb = false ∧ s.reports = [.failed .wouldBlock] := by
  rw [standing]
  split_ifs <;> exact ⟨_, rfl, rfl, rfl⟩

lemma length_wire : reply.wire.length = reply.header.length + reply.body.length := by
  rw [Reply.wire, length_append]

lemma onReadBody_short (hne : got ≠ []) (hle : reply.header.length ≤ got.length)
    (hlt : got.length < reply.wire.length) : (atBody config reply got send w).onReadBody config =
      some (standing config reply got send w) := by
  rw [length_wire] at hlt
  have hshort : (got.drop reply.header.length).length < reply.body.length := by
    rw [List.length_drop]
    omega
  rw [standing_of_ne hne]
  exact if_pos hshort

lemma onReadBody_complete (hle : reply.wire.length ≤ got.length) :
    (atBody config reply got send w).onReadBody config =
      (atBody config reply got send w).onParseDnsResponse config := by
  rw [length_wire] at hle
  have hlong : ¬ (got.drop reply.header.length).length < reply.body.length := by
    rw [List.length_drop]
    omega
  exact if_neg hlong

section Parsing

variable {m : Message} (hwell : m.At reply.body reply.body.length) (extra : List UInt8)

include hwell

lemma onParse_good (hroom : m.Room (config.transport.range reply.body.length (reply.body ++ extra)))
    (hplain : m.Plain config.signed) :
    ∃ s, (atBody config reply (reply.wire ++ extra) send w).onParseDnsResponse config = some s ∧
      s.cb = false ∧ s.waitRead = false ∧
      s.reports = [.done (m.addrinfo config.isIpv6 config.port)] := by
  have hat := reply.range_at hwell extra
  obtain ⟨j, hparse⟩ := parse_of_room hat.1 hat.2.1 hroom hplain
  have hrecv : (reply.wire ++ extra).drop reply.header.length = reply.body ++ extra := by
    rw [Reply.wire, append_assoc, List.drop_left]
  rw [Exchange.onParseDnsResponse]
  simp only [atBody, hrecv, hparse]
  refine ⟨_, rfl, rfl, rfl, ?_⟩
  rw [addrinfoDup_response]
  rfl

lemma onParse_reports (h : (atBody config reply (reply.wire ++ extra) send
    w).onParseDnsResponse config = some s) :
    s.cb = false ∧ (∀ addresses, s.reports = [.done addresses] →
      m.Room (config.transport.range reply.body.length (reply.body ++ extra)) ∧
        m.Plain config.signed) := by
  have hrecv : (reply.wire ++ extra).drop reply.header.length = reply.body ++ extra := by
    rw [Reply.wire, append_assoc, List.drop_left]
  rw [Exchange.onParseDnsResponse] at h
  simp only [atBody, hrecv] at h
  split at h
  · cases h
  · next c hparse =>
      cases h
      exact ⟨rfl, fun _ _ => room_of_parse (reply.range_at hwell extra) hparse⟩
  · cases h
    exact ⟨rfl, fun _ hreports => by cases hreports⟩

end Parsing

end Arriving

/-! ## What is asked of a schedule -/

section Schedules

variable {config : Config} {reply : Reply config.transport} {m : Message} {got : List UInt8}
  {e : Event} {events : List Event}

lemma received_cons : received (e :: events) = e.data ++ received events := by
  rw [received, List.map_cons, List.flatten_cons, ← received]

lemma firstRead_cons (h : e.data ≠ []) : firstRead (e :: events) = some e.data := by
  rw [firstRead, List.map_cons, List.find?_cons_of_pos (by simpa using h)]

lemma smooth_cons_iff (hlt : e.data.length < reply.wire.length - got.length) :
    Smooth config reply m got (e :: events) ↔ e ≠ .writable .wouldBlock ∧
      (got = [] → e.data ≠ [] → reply.header.length ≤ e.data.length) ∧
      Smooth config reply m (got ++ e.data) events := by
  have hupTo : upTo (reply.wire.length - got.length) (e :: events) =
      e :: upTo (reply.wire.length - (got ++ e.data).length) events := by
    rw [upTo, if_neg (by omega), length_append, Nat.sub_add_eq]
  have hfirst : e.data = [] → firstRead (e :: events) = firstRead events := by
    intro hnil
    rw [firstRead, List.map_cons, List.find?_cons_of_neg (by simp [hnil]), ← firstRead]
  constructor
  · rintro ⟨hwrites, hread, hwanted, hroom, hplain⟩
    rw [hupTo, List.forall_mem_cons] at hwrites
    rw [hupTo, received_cons, ← append_assoc] at hroom
    refine ⟨hwrites.1, fun hgot hne => hread hgot _ (firstRead_cons hne), hwrites.2, fun hnil => ?_,
      hwanted, hroom, hplain⟩
    obtain ⟨hgot, hdata⟩ := List.append_eq_nil_iff.mp hnil
    rw [← hfirst hdata]
    exact hread hgot
  · rintro ⟨hthis, hcovers, hwrites, hread, hwanted, hroom, hplain⟩
    refine ⟨?_, fun hgot => ?_, hwanted, ?_, hplain⟩
    · rw [hupTo, List.forall_mem_cons]
      exact ⟨hthis, hwrites⟩
    · by_cases hdata : e.data = []
      · rw [hfirst hdata]
        exact hread (by rw [hgot, hdata, append_nil])
      rw [firstRead_cons hdata]
      rintro data hmem
      cases hmem
      exact hcovers hgot hdata
    · rw [hupTo, received_cons, ← append_assoc]
      exact hroom

lemma smooth_last_iff (hlt : got.length < reply.wire.length)
    (hle : reply.wire.length - got.length ≤ e.data.length) :
    Smooth config reply m got (e :: events) ↔ reply.Wanted ∧
      m.Room (config.transport.range reply.body.length
        ((got ++ e.data).drop reply.header.length)) ∧ m.Plain config.signed := by
  have hdata : e.data ≠ [] := by
    intro hnil
    rw [hnil, length_nil] at hle
    omega
  have hupTo : upTo (reply.wire.length - got.length) (e :: events) = [e] := by
    rw [upTo, if_pos hle]
  have hroom : got ++ received [e] = got ++ e.data := by
    rw [received_cons, received, List.map_nil, List.flatten_nil, append_nil]
  constructor
  · rintro ⟨-, -, hwanted, hroom', hplain⟩
    rw [hupTo, hroom] at hroom'
    exact ⟨hwanted, hroom', hplain⟩
  · rintro ⟨hwanted, hroom', hplain⟩
    refine ⟨?_, ?_, hwanted, ?_, hplain⟩
    · rw [hupTo, List.forall_mem_singleton]
      rintro rfl
      exact hdata rfl
    · rintro rfl data hmem
      rw [firstRead_cons hdata] at hmem
      cases hmem
      rw [length_wire, length_nil] at hle
      omega
    · rw [hupTo, hroom]
      exact hroom'

end Schedules

/-! ## The exchange -/

section Exact

variable {config : Config} {reply : Reply config.transport} {m : Message}

def Reports (config : Config) (addresses : List AddrInfo) (s : Exchange) (events : List Event) :
    Prop :=
  ∃ s', Run.exec (step config) s events = some s' ∧ s'.reports = [.done addresses]

variable {s s' : Exchange} {e : Event} {events : List Event} {addresses : List AddrInfo}

lemma reports_cons (h : step config s e = some s') :
    Reports config addresses s (e :: events) ↔ Reports config addresses s' events := by
  rw [Reports, Run.exec_cons, h, Option.bind_some, Reports]

lemma not_reports_of_failed {error : Error} (hcb : s.cb = false)
    (hreports : s.reports = [.failed error]) : ¬ Reports config addresses s events := by
  rintro ⟨s', hrun, hdone⟩
  rw [exec_spent hcb hrun, hreports] at hdone
  cases hdone

lemma reports_iff_of_spent (hcb : s.cb = false) (hread : s.waitRead = false) :
    Reports config addresses s events ↔ s.reports = [.done addresses] := by
  obtain ⟨s', hrun, hreports⟩ := exec_over hcb hread events
  rw [Reports, hrun]
  simp [hreports]

variable {w : Bool}

lemma complete_reports_iff (hwell : m.At reply.body reply.body.length) {send extra : List UInt8}
    (hstep : step config s e =
      (atBody config reply (reply.wire ++ extra) send w).onReadBody config) :
    Reports config (m.addrinfo config.isIpv6 config.port) s (e :: events) ↔
      m.Room (config.transport.range reply.body.length (reply.body ++ extra)) ∧
        m.Plain config.signed := by
  rw [onReadBody_complete (by rw [length_append]; omega)] at hstep
  constructor
  · rintro ⟨s', hrun, hdone⟩
    rw [Run.exec_cons, hstep, Option.bind_eq_some_iff] at hrun
    obtain ⟨s₁, hparse, hrest⟩ := hrun
    obtain ⟨hcb, hreports⟩ := onParse_reports hwell extra hparse
    exact hreports _ ((exec_spent hcb hrest).symm.trans hdone)
  · rintro ⟨hroom, hplain⟩
    obtain ⟨s₁, hparse, hcb, hread, hreports⟩ := onParse_good hwell extra hroom hplain
    rw [reports_cons (hstep.trans hparse), reports_iff_of_spent hcb hread]
    exact hreports

lemma not_reports_of_refused {send data : List UInt8}
    (h : config.transport.readHeader data = none) :
    ¬ Reports config addresses (standing config reply [] send w)
      (.readable (.done data) :: events) := by
  obtain ⟨s, hstep, hcb, hreports⟩ : ∃ s, step config (standing config reply [] send w)
      (.readable (.done data)) = some s ∧ s.cb = false ∧
        s.reports = [.failed .operationNotSupported] := step_refused h
  rw [reports_cons hstep]
  exact not_reports_of_failed hcb hreports

lemma standing_reports_iff (hwell : m.At reply.body reply.body.length)
    {got send trailing : List UInt8}
    (hwrite : send ≠ [] → w = true) (hlt : got.length < reply.wire.length)
    (hdata : got ++ received events = reply.wire ++ trailing)
    (hgot : got ≠ [] → reply.header.length ≤ got.length ∧ reply.Wanted)
    (hpossible : Possible config.transport send.length events) :
    Reports config (m.addrinfo config.isIpv6 config.port) (standing config reply got send w)
      events ↔
      Smooth config reply m got events := by
  have hbody : reply.body ≠ [] := by
    intro hnil
    have := hwell.1.1
    simp [hnil] at this
  induction events generalizing got send w with
  | nil =>
    have hlength := congrArg List.length hdata
    rw [received, List.map_nil, List.flatten_nil, append_nil, length_append] at hlength
    omega
  | cons e events ih =>
    rw [received_cons, ← append_assoc] at hdata
    -- an event that brings nothing, and after which the request stands where it was
    have hquiet : ∀ {send' : List UInt8} {w' : Bool}, e.data = [] → e ≠ .writable .wouldBlock →
        step config (standing config reply got send w) e =
          some (standing config reply got send' w') → (send' ≠ [] → w' = true) →
        Possible config.transport send'.length events →
        (Reports config (m.addrinfo config.isIpv6 config.port)
          (standing config reply got send w) (e :: events) ↔
          Smooth config reply m got (e :: events)) := by
      intro send' w' hnil hne hstep hwrite' hpossible'
      rw [hnil, append_nil] at hdata
      refine (reports_cons hstep).trans ((ih hwrite' hlt hdata hgot hpossible').trans ?_)
      rw [smooth_cons_iff (by rw [hnil, length_nil]; omega), hnil, append_nil]
      simp [hne]
    match e with
    | .readable (.failed _) => exact absurd hpossible id
    | .writable (.failed _) => exact absurd hpossible id
    | .readable .wouldBlock =>
      refine hquiet rfl (by simp) ?_ hwrite hpossible
      rw [standing]
      split_ifs <;> rfl
    | .writable (.done written) =>
      obtain ⟨⟨hpos, hle⟩, hpossible⟩ := hpossible
      have hw : w = true := hwrite (List.ne_nil_of_length_pos (by omega))
      subst hw
      exact hquiet rfl (by simp) (step_written written) (by simp) (by rwa [List.length_drop])
    | .writable .wouldBlock =>
      have hw : w = true := hwrite (List.ne_nil_of_length_pos hpossible.1)
      subst hw
      obtain ⟨s, hstep, hcb, hreports⟩ : ∃ s, step config (standing config reply got send true)
          (.writable .wouldBlock) = some s ∧ s.cb = false ∧ s.reports = [.failed .wouldBlock] :=
        step_blocked
      rw [reports_cons hstep, smooth_cons_iff (by simp [Event.data]; omega)]
      exact ⟨fun h => absurd h (not_reports_of_failed hcb hreports), fun h => absurd rfl h.1⟩
    | .readable (.done data) =>
      obtain ⟨⟨hne, -⟩, hpossible⟩ := hpossible
      change (got ++ data) ++ received events = reply.wire ++ trailing at hdata
      have hreply : got ++ data <+: reply.wire ++ trailing := ⟨_, hdata⟩
      have hheader : reply.header <+: reply.wire ++ trailing := by
        rw [Reply.wire, append_assoc]
        exact List.prefix_append _ _
      by_cases hcovers : reply.header.length ≤ (got ++ data).length
      · have hstarts := List.prefix_of_prefix_length_le hheader hreply hcovers
        by_cases hwanted : reply.Wanted
        · have hstep : step config (standing config reply got send w) (.readable (.done data)) =
              _ :=
            step_data hbody hwanted (fun h => (hgot h).1) hstarts
          by_cases hmore : (got ++ data).length < reply.wire.length
          · have hgot' : got ++ data ≠ [] := by simp [hne]
            rw [onReadBody_short hgot' hcovers hmore] at hstep
            refine (reports_cons hstep).trans ((ih hwrite hmore hdata
              (fun _ => ⟨hcovers, hwanted⟩) hpossible).trans ?_)
            rw [length_append] at hcovers hmore
            rw [smooth_cons_iff (by simp only [Event.data]; omega)]
            simp only [Event.data, ne_eq, reduceCtorEq, not_false_eq_true, true_and]
            refine (and_iff_right fun hnil _ => ?_).symm
            rwa [hnil, length_nil, Nat.zero_add] at hcovers
          obtain ⟨extra, hextra⟩ := List.prefix_of_prefix_length_le
            (List.prefix_append reply.wire trailing) hreply (by omega)
          rw [← hextra] at hstep
          rw [complete_reports_iff hwell hstep]
          rw [length_append] at hmore
          rw [smooth_last_iff hlt (by simp only [Event.data]; omega), and_iff_right hwanted]
          simp only [Event.data]
          rw [← hextra, Reply.wire, append_assoc, List.drop_left]
        -- only a first read can bring a reply that is not wanted
        obtain rfl : got = [] := by
          by_contra hnil
          exact hwanted (hgot hnil).2
        obtain ⟨rest, rfl⟩ := hstarts
        have hunwanted := reply.readHeader_unwanted rest hwanted
        exact ⟨fun h => absurd h (not_reports_of_refused hunwanted),
          fun h => absurd h.wanted hwanted⟩
      obtain rfl : got = [] := by
        by_contra hnil
        have := (hgot hnil).1
        rw [length_append] at hcovers
        omega
      rw [List.nil_append] at hreply hcovers
      have hpart : data <+: reply.header :=
        List.prefix_of_prefix_length_le hreply hheader (by omega)
      have hnone := reply.readHeader_short hpart (by rintro rfl; exact hcovers le_rfl)
      refine ⟨fun h => absurd h (not_reports_of_refused hnone), fun h => absurd ?_ hcovers⟩
      have hfirst : firstRead (.readable (.done data) :: events) = some data :=
        firstRead_cons hne
      exact h.first rfl data (by rw [hfirst]; rfl)

end Exact

/-- **Exchange.** For every complete reply with a well-formed body, every schedule on which it
arrives, and whatever is behind it, the callback is called once, with the addresses of the body, if
and only if the schedule is smooth. -/
theorem exchange_exact_iff (config : Config) (reply : Reply config.transport) (m : Message)
    (hwell : m.At reply.body reply.body.length) (send trailing : List UInt8) (events : List Event)
    (hpossible : Possible config.transport send.length events)
    (hdata : received events = reply.wire ++ trailing) :
    Reports config (m.addrinfo config.isIpv6 config.port) (start send) events ↔
      Smooth config reply m [] events := by
  have hlong : 0 < reply.wire.length := by
    have := hwell.1.1
    rw [length_wire]
    omega
  have hstart : Reports config (m.addrinfo config.isIpv6 config.port)
      (standing config reply [] send true) events ↔ Smooth config reply m [] events :=
    standing_reports_iff hwell (fun _ => rfl) hlong hdata (fun h => absurd rfl h) hpossible
  exact hstart

def sampleConfig : Config := ⟨.dot, false, 443, true⟩

def sampleReply : Reply sampleConfig.transport := ⟨[0, 49], sampleResponse, rfl, rfl⟩

/-- The reply in two reads, with reads that would block, while the request is sent in two writes. -/
def sampleEvents : List Event :=
  [.writable (.done 1), .readable .wouldBlock, .readable (.done (sampleReply.wire.take 20)),
    .readable .wouldBlock, .writable (.done 1), .readable (.done (sampleReply.wire.drop 20))]

theorem exchange_exact_sample :
    Reports sampleConfig (sampleMessage.addrinfo false 443) (start [1, 2]) sampleEvents := by
  refine (exchange_exact_iff sampleConfig sampleReply sampleMessage sampleMessage_at [1, 2] []
    sampleEvents ?_ rfl).mpr ⟨?_, ?_, trivial, ?_, ?_⟩
  · exact ⟨⟨by decide, by decide⟩, ⟨by decide, by decide⟩, ⟨by decide, by decide⟩,
      ⟨by decide, by decide⟩, trivial⟩
  · decide
  · intro _ data hdata
    have hfirst : firstRead sampleEvents = some (sampleReply.wire.take 20) := by decide
    rw [hfirst] at hdata
    cases hdata
    decide
  · exact sampleMessage_at.room (by decide)
  intro target htarget _
  revert target
  decide

lemma sampleReply_crowded {extra : List UInt8} (h : extra.length = 65499) :
    ¬ Reports sampleConfig (sampleMessage.addrinfo false 443) (start [1])
      [.readable (.done (sampleReply.wire.take 22)),
        .readable (.done (sampleReply.wire.drop 22 ++ extra))] := by
  have hfirst : step sampleConfig (start [1]) (.readable (.done (sampleReply.wire.take 22))) =
      some (standing sampleConfig sampleReply (sampleReply.wire.take 22) [1] true) := rfl
  have hall : sampleReply.wire.take 22 ++ (sampleReply.wire.drop 22 ++ extra) =
      sampleReply.wire ++ extra := by
    rw [← append_assoc, List.take_append_drop]
  have hsecond : step sampleConfig
      (standing sampleConfig sampleReply (sampleReply.wire.take 22) [1] true)
      (.readable (.done (sampleReply.wire.drop 22 ++ extra))) = Exchange.onReadBody sampleConfig
        (atBody sampleConfig sampleReply (sampleReply.wire ++ extra) [1] true) := by
    have hwanted : sampleReply.Wanted := trivial
    rw [← hall]
    apply step_data (by decide) hwanted (fun _ => by decide)
    rw [hall, Reply.wire, append_assoc]
    exact List.prefix_append _ _
  rw [reports_cons hfirst]
  intro hreports
  obtain ⟨⟨-, -, -, -, ⟨-, ⟨-, hfits⟩, -⟩, -⟩, -⟩ :=
    (complete_reports_iff sampleMessage_at hsecond).mp hreports
  rw [Fits, dohlen] at hfits
  have hlength : (Transport.range sampleConfig.transport sampleReply.body.length
      (sampleReply.body ++ extra)).length = 49 + 65499 := by
    change (sampleResponse ++ extra).length = _
    rw [length_append, h]
    rfl
  rw [hlength] at hfits
  exact absurd hfits (by decide)

/-- **Disturbed.** The reply fails if its length comes in two reads, if a write would block before
it, and if there is too much behind it. -/
theorem exchange_disturbed :
    (Run.exec (step sampleConfig) (start [1])
      [.readable (.done [0]), .readable (.done (49 :: sampleResponse))]).map Exchange.reports =
        some [.failed .operationNotSupported] ∧
    (Run.exec (step sampleConfig) (start [1])
      [.writable .wouldBlock, .readable (.done sampleReply.wire)]).map Exchange.reports =
        some [.failed .wouldBlock] ∧
    ¬ Reports sampleConfig (sampleMessage.addrinfo false 443) (start [1])
      [.readable (.done (sampleReply.wire.take 22)),
        .readable (.done (sampleReply.wire.drop 22 ++ List.replicate 65499 0))] :=
  ⟨rfl, rfl, sampleReply_crowded List.length_replicate⟩

end Yass.Net.DnsExchange
