import Yass.Lib.Run

/-!
# The DoH and the DoT resolver

A resolver first finds the address of its server, once (the bootstrap), and then sends two requests
for each call, for A and for AAAA records, with a timer over the whole call. The two classes are
the same up to the port of the server and the protocol of their requests.

* `Resolver` — the members of a resolver, and what is under way outside: bootstraps, requests whose
  callback is set, and the timer. A wait that has expired runs its handler later, whatever is done
  to the timer before.
* `asyncResolve`, `doRequest`, `onDoRequestDoneA`, `onDoRequestDoneAAAA`, `onDoRequestDone` — the
  methods. `none` is a `pop_front`, `pop_back` or `front` of an empty deque.

Addresses are of any type. `Cancel` and `Destroy` are left out.

Source: `net/doh_resolver.cpp`, `net/dot_resolver.cpp`, `net/doh_request.cpp`,
`net/dot_request.cpp`.
-/

namespace Yass.Net.Dns

def kDoTPort : ℕ := 853

inductive Kind where
  /-- `DoHResolver`, with `doh_port_`. -/
  | doh (port : ℕ)
  /-- `DoTResolver`. -/
  | dot
  deriving DecidableEq, Repr

def Kind.port : Kind → ℕ
  | .doh port => port
  | .dot => kDoTPort

abbrev Endpoint := List UInt8 × ℕ

/-- `host_` and `port_`. -/
structure Query where
  host : List UInt8
  port : ℕ
  deriving DecidableEq, Repr

/-- `DNS_TYPE_A` and `DNS_TYPE_AAAA`. -/
inductive DnsType where
  | a
  | aaaa
  deriving DecidableEq, Repr

inductive DnsError where
  | timedOut
  | hostNotFound
  | other (code : ℕ)
  deriving DecidableEq, Repr

structure Request where
  id : ℕ
  type : DnsType
  query : Query
  endpoint : Endpoint
  call : ℕ
  deriving DecidableEq, Repr

structure Report (α : Type) where
  call : ℕ
  error : Option DnsError
  addresses : List α
  deriving DecidableEq, Repr

structure Resolver (α : Type) where
  endpoints : List Endpoint
  query : Query
  done : Bool
  /-- `cb_`: the call whose callback it is. -/
  cb : Option ℕ
  reqs : List Request
  addrinfo : List α
  /-- The calls whose `async_resolve` is outstanding. -/
  bootstraps : List ℕ
  /-- The requests whose `cb_` is set. -/
  active : List Request
  /-- The call whose wait for `resolve_timer_` is outstanding. -/
  armed : Option ℕ
  /-- The calls whose wait has expired, and whose handler has not run. -/
  expired : List ℕ
  nextRequest : ℕ
  calls : List Query
  answers : List (Request × List α)
  reports : List (Report α)
  deriving DecidableEq, Repr

def start (α : Type) : Resolver α where
  endpoints := []
  query := ⟨[], 0⟩
  done := true
  cb := none
  reqs := []
  addrinfo := []
  bootstraps := []
  active := []
  armed := none
  expired := []
  nextRequest := 0
  calls := []
  answers := []
  reports := []

/-- What a resolver meets when it starts requests: whether IPv6 works, and which requests fail
before they are started (`msg.init`, `socket_.open`). -/
structure Starting where
  ipv6 : Bool
  fails : DnsType → Option DnsError

inductive Bootstrap where
  | resolved (endpoints : List Endpoint)
  | failed (error : DnsError)
  | aborted
  deriving DecidableEq, Repr

inductive Event (α : Type) where
  | asyncResolve (query : Query) (starting : Starting)
  /-- The `async_resolve` of a call completes. -/
  | bootstrap (call : ℕ) (result : Bootstrap) (starting : Starting)
  | completed (request : Request) (result : Except DnsError (List α))
  | expire
  | timeout (call : ℕ)

namespace Resolver

variable {α : Type}

/-- `close` of all requests in `reqs_`. -/
def closeAll (s : Resolver α) : Resolver α :=
  { s with active := s.active.filter (· ∉ s.reqs), reqs := [] }

/-- The call is over: the second half of `OnDoRequestDone`. -/
def finish (s : Resolver α) (error : Option DnsError) : Resolver α :=
  let error := if s.addrinfo.isEmpty && error.isNone then some .hostNotFound else error
  { s with
    done := true
    armed := none
    addrinfo := []
    cb := none
    reports := s.reports ++ s.cb.toList.map fun call => ⟨call, error, s.addrinfo⟩ }

def onDoRequestDone (s : Resolver α) (error : Option DnsError) : Resolver α :=
  let s := if error.isSome then s.closeAll else s
  if !s.reqs.isEmpty then s
  else if s.done then s
  else s.finish error

/-- `OnDoRequestDoneA`: the addresses go to the front of the list, and the first request is
dropped. -/
def onDoRequestDoneA (s : Resolver α) (error : Option DnsError) (addresses : List α) :
    Option (Resolver α) :=
  match s.reqs with
  | [] => none
  | _ :: reqs =>
    some ({ s with addrinfo := addresses ++ s.addrinfo, reqs }.onDoRequestDone error)

/-- `OnDoRequestDoneAAAA`: the addresses go to the end of the list, and the last request is
dropped. -/
def onDoRequestDoneAAAA (s : Resolver α) (error : Option DnsError) (addresses : List α) :
    Option (Resolver α) :=
  if s.reqs.isEmpty then none
  else
    some ({ s with
      addrinfo := s.addrinfo ++ addresses
      reqs := s.reqs.dropLast }.onDoRequestDone error)

def onRequestDone (s : Resolver α) : DnsType → Option DnsError → List α → Option (Resolver α)
  | .a => s.onDoRequestDoneA
  | .aaaa => s.onDoRequestDoneAAAA

/-- `OnDoneRequest` of a request, which calls back once. -/
def complete (s : Resolver α) (req : Request) (result : Except DnsError (List α)) :
    Option (Resolver α) :=
  if req ∈ s.active then
    let s := { s with active := s.active.erase req }
    match result with
    | .ok addresses =>
      { s with answers := s.answers ++ [(req, addresses)] }.onRequestDone req.type none addresses
    | .error error => s.onRequestDone req.type (some error) []
  else some s

/-- One request of `DoRequest`. -/
def request (s : Resolver α) (type : DnsType) (endpoint : Endpoint) (fails : Option DnsError) :
    Option (Resolver α) :=
  let req : Request := ⟨s.nextRequest, type, s.query, endpoint, s.calls.length - 1⟩
  let s := { s with
    reqs := s.reqs ++ [req]
    active := s.active ++ [req]
    nextRequest := s.nextRequest + 1 }
  match fails with
  | some error => s.complete req (.error error)
  | none => some s

/-- `DoRequest`, with the first endpoint. -/
def doRequest (s : Resolver α) (starting : Starting) : Option (Resolver α) := do
  let endpoint ← s.endpoints.head?
  let s ← s.request .a endpoint (starting.fails .a)
  if starting.ipv6 then s.request .aaaa endpoint (starting.fails .aaaa) else some s

/-- `AsyncResolve`; `address` is the server's host, if it is an address. -/
def asyncResolve (kind : Kind) (address : Option (List UInt8)) (s : Resolver α) (query : Query)
    (starting : Starting) : Option (Resolver α) :=
  let call := s.calls.length
  let s := { s with
    query
    cb := some call
    done := false
    armed := some call
    calls := s.calls ++ [query] }
  if !s.endpoints.isEmpty then s.doRequest starting
  else
    match address with
    | some address =>
      { s with endpoints := s.endpoints ++ [(address, kind.port)] }.doRequest starting
    | none => some { s with bootstraps := s.bootstraps ++ [call] }

def onBootstrap (s : Resolver α) (result : Bootstrap) (starting : Starting) :
    Option (Resolver α) :=
  match result with
  | .aborted => some s
  | .failed error => some (s.onDoRequestDone (some error))
  | .resolved endpoints => { s with endpoints := s.endpoints ++ endpoints }.doRequest starting

def onTimeout (s : Resolver α) : Resolver α :=
  if s.done then s else s.onDoRequestDone (some .timedOut)

def step (kind : Kind) (address : Option (List UInt8)) (s : Resolver α) :
    Event α → Option (Resolver α)
  | .asyncResolve query starting => s.asyncResolve kind address query starting
  | .bootstrap call result starting =>
    if call ∈ s.bootstraps then
      { s with bootstraps := s.bootstraps.erase call }.onBootstrap result starting
    else some s
  | .completed req result => s.complete req result
  | .expire => some { s with armed := none, expired := s.expired ++ s.armed.toList }
  | .timeout call =>
    some (if call ∈ s.expired then { s with expired := s.expired.erase call }.onTimeout else s)

def answersOf (s : Resolver α) (call : ℕ) (type : DnsType) : List α :=
  (s.answers.filter fun answer => answer.1.call == call && answer.1.type == type).flatMap Prod.snd

end Resolver

/-- Each call is reported once, in order, all but the last while it is under way; what is reported
are the answers to the call's own requests, A before AAAA. A call that is under way has a timer,
whose handler reports it at the latest, and nothing of an earlier call can complete. -/
structure Proper {α : Type} (kind : Kind) (address : Option (List UInt8)) (s : Resolver α) :
    Prop where
  once : s.reports.map Report.call =
    List.range (if s.done then s.calls.length else s.calls.length - 1)
  own : ∀ report ∈ s.reports,
    report.addresses = s.answersOf report.call .a ++ s.answersOf report.call .aaaa
  asked : ∀ answer ∈ s.answers, s.calls[answer.1.call]? = some answer.1.query
  ends : s.done = false → ∃ s',
    Run.exec (Resolver.step kind address) s [.expire, .timeout (s.calls.length - 1)] = some s' ∧
      s'.done = true ∧ s'.reports.map Report.call = List.range s.calls.length
  requests : ∀ req ∈ s.active, s.done = false ∧ req.call + 1 = s.calls.length
  bootstrap : ∀ call ∈ s.bootstraps, s.done = false ∧ call + 1 = s.calls.length
  timers : s.done = false → ∀ call ∈ s.expired, call + 1 = s.calls.length

def Starting.Even (starting : Starting) : Prop :=
  starting.ipv6 = true → (starting.fails .a).isSome = true → (starting.fails .aaaa).isSome = true

instance (starting : Starting) : Decidable starting.Even := inferInstanceAs (Decidable (_ → _ → _))

/-- A call comes after the one before is over, and finds no handler of an earlier timer; no call
times out during the bootstrap, and a bootstrap that succeeds finds an address. -/
def Meets {α : Type} (s : Resolver α) : Event α → Prop
  | .asyncResolve _ starting => s.done = true ∧ s.expired = [] ∧ starting.Even
  | .bootstrap _ result starting => result ≠ .resolved [] ∧ starting.Even
  | .timeout _ => s.bootstraps = []
  | .completed _ _ | .expire => True

instance {α : Type} (s : Resolver α) : (e : Event α) → Decidable (Meets s e)
  | .asyncResolve _ _ => inferInstanceAs (Decidable (_ ∧ _ ∧ _))
  | .bootstrap _ _ _ => inferInstanceAs (Decidable (_ ∧ _))
  | .timeout _ => inferInstanceAs (Decidable (_ = _))
  | .completed _ _ | .expire => isTrue trivial

/-! ## The invariant -/

section Invariant

variable {α : Type} {s s' : Resolver α}

structure Answered (s : Resolver α) : Prop where
  own : ∀ report ∈ s.reports,
    report.addresses = s.answersOf report.call .a ++ s.answersOf report.call .aaaa
  known : ∀ answer ∈ s.answers, s.calls[answer.1.call]? = some answer.1.query

structure Idle (s : Resolver α) : Prop extends Answered s where
  done : s.done = true
  cb : s.cb = none
  reqs : s.reqs = []
  active : s.active = []
  addrinfo : s.addrinfo = []
  bootstraps : s.bootstraps = []
  armed : s.armed = none
  once : s.reports.map Report.call = List.range s.calls.length

structure Asking (s : Resolver α) (call : ℕ) (type : DnsType) (reqs : List Request) : Prop where
  length_le : reqs.length ≤ 1
  own : ∀ req ∈ reqs, req.type = type ∧ req.call = call ∧ req.query = s.query
  fresh : reqs ≠ [] → s.answersOf call type = []

lemma asking_nil (s : Resolver α) (call : ℕ) (type : DnsType) : Asking s call type [] :=
  ⟨Nat.zero_le _, by simp, fun hne => absurd rfl hne⟩

/-- A call is under way; `asked` are its requests. -/
structure Busy (s : Resolver α) (call : ℕ) (asked : DnsType → List Request) : Prop
    extends Answered s where
  done : s.done = false
  length_eq : s.calls.length = call + 1
  cb : s.cb = some call
  query : s.calls[call]? = some s.query
  timer : s.armed = some call ∨ (s.armed = none ∧ call ∈ s.expired)
  expired : ∀ k ∈ s.expired, k = call
  reqs : s.reqs = asked .a ++ asked .aaaa
  active : s.active = asked .a ++ asked .aaaa
  asking : ∀ type, Asking s call type (asked type)
  addrinfo : s.addrinfo = s.answersOf call .a ++ s.answersOf call .aaaa
  once : s.reports.map Report.call = List.range call

structure Bootstrapping (s : Resolver α) (call : ℕ) : Prop where
  busy : Busy s call fun _ => []
  bootstraps : s.bootstraps = [call]
  fresh : ∀ type, s.answersOf call type = []

inductive Sound (s : Resolver α) : Prop
  | idle (h : Idle s)
  | bootstrapping (call : ℕ) (h : Bootstrapping s call)
  | asking (call : ℕ) (asked : DnsType → List Request) (h : Busy s call asked)
      (hboot : s.bootstraps = [])

/-! ### The end of a call -/

variable {call : ℕ} {asked : DnsType → List Request}

lemma Busy.finish (h : Busy s call asked)
    (hboot : s.bootstraps = []) (hreqs : s.reqs = []) (hactive : s.active = [])
    (error : Option DnsError) : Idle (s.finish error) := by
  refine { done := rfl, cb := rfl, reqs := hreqs, active := hactive, addrinfo := rfl,
           bootstraps := hboot, armed := rfl, once := ?_, own := ?_, known := h.known }
  · intro report hreport
    simp only [Resolver.finish, h.cb, Option.toList_some, List.map_cons, List.map_nil] at hreport
    rcases List.mem_append.mp hreport with hreport | hreport
    · exact h.own report hreport
    · rw [List.mem_singleton.mp hreport]
      exact h.addrinfo
  · simp only [Resolver.finish, h.cb, Option.toList_some, List.map_cons, List.map_nil,
      List.map_append, h.once, h.length_eq, List.range_succ]

lemma Busy.onDoRequestDone_some (h : Busy s call asked) (error : DnsError) :
    s.onDoRequestDone (some error) = s.closeAll.finish (some error) := by
  have hdone : s.closeAll.done = false := h.done
  have hreqs : s.closeAll.reqs = [] := rfl
  simp [Resolver.onDoRequestDone, hdone, hreqs]

lemma Busy.fail (h : Busy s call asked)
    (hboot : s.bootstraps = []) (error : DnsError) : Idle (s.onDoRequestDone (some error)) := by
  have hclosed : s.active.filter (· ∉ s.reqs) = [] := by
    rw [List.filter_eq_nil_iff, h.active, h.reqs]
    intro req hreq
    simpa [or_iff_not_imp_left] using hreq
  have hbusy : Busy s.closeAll call fun _ => [] :=
    { h with reqs := rfl, active := hclosed, asking := fun type => asking_nil _ call type }
  rw [h.onDoRequestDone_some]
  exact hbusy.finish hboot rfl hclosed (some error)

lemma Busy.goOn (h : Busy s call asked)
    (hboot : s.bootstraps = []) : Sound (s.onDoRequestDone none) := by
  by_cases hreqs : s.reqs = []
  · have heq : s.onDoRequestDone none = s.finish none := by
      simp [Resolver.onDoRequestDone, hreqs, h.done]
    have hactive : s.active = [] := by rw [h.active, ← h.reqs, hreqs]
    rw [heq]
    exact .idle (h.finish hboot hreqs hactive none)
  have heq : s.onDoRequestDone none = s := by
    simp [Resolver.onDoRequestDone, hreqs]
  rw [heq]
  exact .asking call asked h hboot

lemma onDoRequestDone_expired (s : Resolver α) (expired : List ℕ) (error : DnsError) :
    { s with expired }.onDoRequestDone (some error) =
      { s.onDoRequestDone (some error) with expired } := by
  by_cases hdone : s.done
  · simp [Resolver.onDoRequestDone, Resolver.closeAll, hdone]
  · simp [Resolver.onDoRequestDone, Resolver.closeAll, hdone, Resolver.finish]

/-! ### The timer -/

lemma Busy.expire (h : Busy s call asked) :
    Busy { s with armed := none, expired := s.expired ++ s.armed.toList } call asked := by
  refine { h with timer := ?_, expired := ?_, asking := fun type => ?_ }
  · refine .inr ⟨rfl, ?_⟩
    rcases h.timer with harmed | ⟨_, hmem⟩
    · simp [harmed]
    · exact List.mem_append_left _ hmem
  · intro k hk
    rcases List.mem_append.mp hk with hk | hk
    · exact h.expired k hk
    rcases h.timer with harmed | ⟨harmed, _⟩
    · simpa [harmed] using hk
    · simp [harmed] at hk
  · exact { h.asking type with }

lemma Busy.ends (h : Busy s call asked) (kind : Kind) (address : Option (List UInt8)) :
    ∃ s', Run.exec (Resolver.step kind address) s [.expire, .timeout call] = some s' ∧
      s'.done = true ∧ s'.reports.map Report.call = List.range (call + 1) := by
  have hmem : call ∈ s.expired ++ s.armed.toList := by
    rcases h.timer with harmed | ⟨_, hmem⟩
    · simp [harmed]
    · exact List.mem_append_left _ hmem
  have hdone : s.done ≠ true := by simp [h.done]
  have hrun : Run.exec (Resolver.step kind address) s [.expire, .timeout call] =
      some { s with
        armed := none
        expired := (s.expired ++ s.armed.toList).erase call }.onTimeout := by
    simp only [Run.exec_cons, Resolver.step, Option.bind_some, if_pos hmem]
    rfl
  refine ⟨_, hrun, ?_⟩
  have hfail := onDoRequestDone_expired
    { s with armed := none, expired := s.expired ++ s.armed.toList }
    ((s.expired ++ s.armed.toList).erase call) .timedOut
  rw [Resolver.onTimeout, if_neg hdone, hfail, h.expire.onDoRequestDone_some]
  refine ⟨rfl, ?_⟩
  simp [Resolver.finish, Resolver.closeAll, h.cb, h.once, List.range_succ]

/-! ### What the invariant says -/

lemma Idle.proper (h : Idle s) (kind : Kind) (address : Option (List UInt8)) :
    Proper kind address s where
  once := by rw [h.done, h.once]; rfl
  own := h.own
  asked := h.known
  ends hno := by rw [h.done] at hno; cases hno
  requests req hreq := by rw [h.active] at hreq; cases hreq
  bootstrap call hcall := by rw [h.bootstraps] at hcall; cases hcall
  timers hno := by rw [h.done] at hno; cases hno

lemma Busy.proper (h : Busy s call asked)
    (hboot : ∀ k ∈ s.bootstraps, k = call) (kind : Kind) (address : Option (List UInt8)) :
    Proper kind address s where
  once := by rw [h.done, h.once, h.length_eq]; rfl
  own := h.own
  asked := h.known
  ends _ := by rw [h.length_eq]; exact h.ends kind address
  requests req hreq := by
    rw [h.active] at hreq
    refine ⟨h.done, ?_⟩
    rw [h.length_eq]
    rcases List.mem_append.mp hreq with hreq | hreq
    · rw [((h.asking .a).own req hreq).2.1]
    · rw [((h.asking .aaaa).own req hreq).2.1]
  bootstrap k hk := ⟨h.done, by rw [h.length_eq, hboot k hk]⟩
  timers _ k hk := by rw [h.length_eq, h.expired k hk]

lemma Sound.proper (h : Sound s) (kind : Kind) (address : Option (List UInt8)) :
    Proper kind address s := by
  cases h with
  | idle h => exact h.proper kind address
  | bootstrapping call h =>
    apply h.busy.proper
    rw [h.bootstraps]
    intro k hk
    exact List.mem_singleton.mp hk
  | asking call asked h hboot =>
    apply h.proper
    rw [hboot]
    intro k hk
    cases hk

/-! ### Requests -/

def without (asked : DnsType → List Request) (type : DnsType) : DnsType → List Request :=
  fun other => if other = type then [] else asked other

@[simp] lemma without_self (asked : DnsType → List Request) (type : DnsType) :
    without asked type type = [] := if_pos rfl

lemma without_of_ne (asked : DnsType → List Request) {type other : DnsType} (hne : other ≠ type) :
    without asked type other = asked other := if_neg hne

lemma Busy.drop (h : Busy s call asked) (type : DnsType) :
    Busy { s with
      active := without asked type .a ++ without asked type .aaaa
      reqs := without asked type .a ++ without asked type .aaaa } call (without asked type) := by
  refine { h with reqs := rfl, active := rfl, asking := fun other => ?_ }
  by_cases hother : other = type
  · rw [hother, without_self]
    exact asking_nil _ call type
  · rw [without_of_ne asked hother]
    exact { h.asking other with }

def merged (type : DnsType) (addrinfo addresses : List α) : List α :=
  match type with
  | .a => addresses ++ addrinfo
  | .aaaa => addrinfo ++ addresses

def answered (s : Resolver α) (req : Request) (addresses : List α) : Resolver α :=
  { s with
    answers := s.answers ++ [(req, addresses)]
    addrinfo := merged req.type s.addrinfo addresses }

lemma answersOf_answered (s : Resolver α) (req : Request) (addresses : List α) (call : ℕ)
    (type : DnsType) :
    (answered s req addresses).answersOf call type =
      s.answersOf call type ++ if req.call = call ∧ req.type = type then addresses else [] := by
  unfold Resolver.answersOf answered
  rw [List.filter_append, List.flatMap_append]
  by_cases hsame : req.call = call ∧ req.type = type <;> simp [hsame]

variable {req : Request}

lemma Busy.answer (h : Busy s call asked) (hreq : req.call = call ∧ req.query = s.query)
    (hnone : asked req.type = []) (hfresh : s.answersOf call req.type = []) (addresses : List α) :
    Busy (answered s req addresses) call asked := by
  have hother : ∀ k type, (k ≠ call ∨ type ≠ req.type) →
      (answered s req addresses).answersOf k type = s.answersOf k type := by
    intro k type hne
    rw [answersOf_answered, if_neg, List.append_nil]
    rintro ⟨hcall, htype⟩
    rcases hne with hne | hne
    · exact hne (hcall.symm.trans hreq.1)
    · exact hne htype.symm
  have hself : (answered s req addresses).answersOf call req.type = addresses := by
    rw [answersOf_answered, if_pos ⟨hreq.1, rfl⟩, hfresh, List.nil_append]
  refine { h with own := ?_, known := ?_, asking := fun type => ?_, addrinfo := ?_ }
  · -- the calls that were reported are earlier ones
    intro report hreport
    have hlt : report.call < call := by
      rw [← List.mem_range, ← h.once]
      exact List.mem_map_of_mem hreport
    rw [hother _ .a (Or.inl hlt.ne), hother _ .aaaa (Or.inl hlt.ne)]
    exact h.own report hreport
  · intro answer hanswer
    rcases List.mem_append.mp hanswer with hanswer | hanswer
    · exact h.known answer hanswer
    · rw [List.mem_singleton.mp hanswer, hreq.1, hreq.2]
      exact h.query
  · by_cases htype : type = req.type
    · rw [htype, hnone]
      exact asking_nil _ call req.type
    refine ⟨(h.asking type).length_le, (h.asking type).own, fun hne => ?_⟩
    rw [hother call type (Or.inr htype)]
    exact (h.asking type).fresh hne
  · have haddrinfo : (answered s req addresses).addrinfo =
        merged req.type (s.answersOf call .a ++ s.answersOf call .aaaa) addresses := by
      rw [← h.addrinfo]
      rfl
    rw [haddrinfo]
    cases htype : req.type with
    | a =>
      rw [htype] at hself hfresh hother
      rw [hself, hother call .aaaa (Or.inr (by simp)), hfresh]
      rfl
    | aaaa =>
      rw [htype] at hself hfresh hother
      rw [hself, hother call .a (Or.inr (by simp)), hfresh, List.append_nil]
      rfl

lemma Busy.asked_eq (h : Busy s call asked) (hreq : req ∈ s.active) : asked req.type = [req] := by
  have hmem : ∃ type, req ∈ asked type := by
    rw [h.active] at hreq
    rcases List.mem_append.mp hreq with hreq | hreq
    · exact ⟨.a, hreq⟩
    · exact ⟨.aaaa, hreq⟩
  obtain ⟨type, hmem⟩ := hmem
  have htype : req.type = type := ((h.asking type).own req hmem).1
  rw [htype]
  obtain ⟨only, honly⟩ : ∃ only, asked type = [only] := by
    rw [← List.length_eq_one_iff]
    have hpos := List.length_pos_of_mem hmem
    have hle := (h.asking type).length_le
    omega
  rw [honly] at hmem ⊢
  rw [List.mem_singleton.mp hmem]

lemma Busy.not_mem_of_ne (h : Busy s call asked) {type : DnsType} (hne : type ≠ req.type) : req ∉
    asked type :=
  fun hmem => hne ((h.asking type).own req hmem).1.symm

lemma Busy.erase_eq (h : Busy s call asked) (hreq : req ∈ s.active) :
    s.active.erase req = without asked req.type .a ++ without asked req.type .aaaa := by
  have honly := h.asked_eq hreq
  rw [h.active]
  cases htype : req.type with
  | a =>
    rw [htype] at honly
    rw [without_self, without_of_ne asked (by simp), honly]
    simp
  | aaaa =>
    have hnot : req ∉ asked .a := h.not_mem_of_ne (by simp [htype])
    rw [htype] at honly
    rw [without_self, without_of_ne asked (by simp), honly, List.erase_append_right _ hnot]
    simp

lemma Busy.onRequestDone (h : Busy s call asked) (hreq : req ∈ s.active)
    (answers : List (Request × List α)) (error : Option DnsError) (addresses : List α) :
    { s with active := s.active.erase req, answers }.onRequestDone req.type error addresses =
      some ({ s with
        active := without asked req.type .a ++ without asked req.type .aaaa
        reqs := without asked req.type .a ++ without asked req.type .aaaa
        answers
        addrinfo := merged req.type s.addrinfo addresses }.onDoRequestDone error) := by
  have honly := h.asked_eq hreq
  have hreqs := h.reqs
  rw [h.erase_eq hreq]
  cases htype : req.type with
  | a =>
    rw [htype] at honly
    rw [honly] at hreqs
    rw [without_self, without_of_ne asked (by simp)]
    simp [Resolver.onRequestDone, Resolver.onDoRequestDoneA, hreqs, merged]
  | aaaa =>
    rw [htype] at honly
    rw [honly] at hreqs
    rw [without_self, without_of_ne asked (by simp)]
    simp [Resolver.onRequestDone, Resolver.onDoRequestDoneAAAA, hreqs, merged]

lemma Busy.complete_error (h : Busy s call asked)
    (hboot : s.bootstraps = []) (hreq : req ∈ s.active) (error : DnsError) :
    ∃ s', s.complete req (.error error) = some s' ∧ Idle s' := by
  unfold Resolver.complete
  rw [if_pos hreq]
  refine ⟨_, h.onRequestDone hreq s.answers (some error) [], ?_⟩
  have hmerged : merged req.type s.addrinfo [] = s.addrinfo := by
    cases req.type <;> simp [merged]
  rw [hmerged]
  exact (h.drop req.type).fail hboot error

lemma Busy.complete_ok (h : Busy s call asked)
    (hboot : s.bootstraps = []) (hreq : req ∈ s.active) (addresses : List α) :
    ∃ s', s.complete req (.ok addresses) = some s' ∧ Sound s' := by
  unfold Resolver.complete
  rw [if_pos hreq]
  refine ⟨_, h.onRequestDone hreq _ none addresses, ?_⟩
  have honly := h.asked_eq hreq
  have hown := (h.asking req.type).own req (by rw [honly]; exact List.mem_singleton_self req)
  have hfresh := (h.asking req.type).fresh (by rw [honly]; simp)
  have hdrop := h.drop req.type
  exact (hdrop.answer hown.2 (without_self asked req.type) hfresh addresses).goOn hboot

/-! ### The start of a call -/

def adding (asked : DnsType → List Request) (req : Request) : DnsType → List Request :=
  fun other => if other = req.type then [req] else asked other

@[simp] lemma adding_self (asked : DnsType → List Request) (req : Request) :
    adding asked req req.type = [req] := if_pos rfl

lemma adding_of_ne (asked : DnsType → List Request) {other : DnsType}
    (hne : other ≠ req.type) : adding asked req other = asked other := if_neg hne

def added (s : Resolver α) (req : Request) : Resolver α :=
  { s with
    reqs := s.reqs ++ [req]
    active := s.active ++ [req]
    nextRequest := s.nextRequest + 1 }

lemma Busy.add (h : Busy s call asked) (hreq : req.call = call ∧ req.query = s.query)
    (hlast : asked .aaaa = [])
    (hnone : asked req.type = []) (hfresh : s.answersOf call req.type = []) :
    Busy (added s req) call (adding asked req) := by
  have hreqs : asked .a ++ asked .aaaa ++ [req] =
      adding asked req .a ++ adding asked req .aaaa := by
    cases htype : req.type with
    | a =>
      rw [htype] at hnone
      simp [adding, htype, hnone, hlast]
    | aaaa => simp [adding, htype, hlast]
  refine { h with reqs := ?_, active := ?_, asking := fun other => ?_ }
  · rw [← hreqs, ← h.reqs]
    rfl
  · rw [← hreqs, ← h.active]
    rfl
  by_cases hother : other = req.type
  · rw [hother, adding_self]
    refine ⟨le_rfl, ?_, fun _ => hfresh⟩
    intro only honly
    rw [List.mem_singleton.mp honly]
    exact ⟨rfl, hreq⟩
  · rw [adding_of_ne asked hother]
    exact { h.asking other with }

/-- A request of the current call, as `DoRequest` makes it. -/
def newRequest (s : Resolver α) (type : DnsType) (endpoint : Endpoint) : Request :=
  ⟨s.nextRequest, type, s.query, endpoint, s.calls.length - 1⟩

lemma request_none (s : Resolver α) (type : DnsType) (endpoint : Endpoint) :
    s.request type endpoint none = some (added s (newRequest s type endpoint)) := rfl

lemma request_some (s : Resolver α) (type : DnsType) (endpoint : Endpoint) (error : DnsError) :
    s.request type endpoint (some error) =
      (added s (newRequest s type endpoint)).complete (newRequest s type endpoint)
        (.error error) := rfl

lemma Busy.new (h : Busy s call asked) (type : DnsType) (endpoint : Endpoint) :
    (newRequest s type endpoint).call = call ∧ (newRequest s type endpoint).query = s.query := by
  refine ⟨?_, rfl⟩
  show s.calls.length - 1 = call
  rw [h.length_eq, Nat.add_sub_cancel]

lemma Idle.request_fails (h : Idle s) (type : DnsType) (endpoint : Endpoint) (error : DnsError) :
    ∃ s', s.request type endpoint (some error) = some s' ∧ Idle s' := by
  refine ⟨{ s with nextRequest := s.nextRequest + 1 }, ?_, { h with }⟩
  cases type <;>
    simp [Resolver.request, Resolver.complete, Resolver.onRequestDone, Resolver.onDoRequestDoneA,
      Resolver.onDoRequestDoneAAAA, Resolver.onDoRequestDone, Resolver.closeAll, h.reqs, h.active,
      h.done]

variable {starting : Starting}

lemma Busy.doRequest (h : Busy s call fun _ => []) (hboot : s.bootstraps = [])
    (hfresh : ∀ type, s.answersOf call type = []) (hendpoints : s.endpoints ≠ [])
    (heven : starting.Even) :
    ∃ s', s.doRequest starting = some s' ∧ Sound s' := by
  obtain ⟨endpoint, rest, hcons⟩ := List.exists_cons_of_ne_nil hendpoints
  unfold Resolver.doRequest
  rw [hcons]
  simp only [List.head?_cons, Option.bind_eq_bind, Option.bind_some]
  have ha := h.add (h.new .a endpoint) rfl rfl (hfresh .a)
  cases hfails : starting.fails .a with
  | some error =>
    obtain ⟨s₁, hs₁, hidle⟩ := ha.complete_error hboot
      (List.mem_append_right _ (List.mem_singleton_self _)) error
    rw [request_some, hs₁, Option.bind_some]
    split_ifs with hipv6
    · obtain ⟨error', herror'⟩ := Option.isSome_iff_exists.mp
        (heven hipv6 (by rw [hfails]; rfl))
      obtain ⟨s₂, hs₂, hidle₂⟩ := hidle.request_fails .aaaa endpoint error'
      exact ⟨s₂, by rw [herror', hs₂], .idle hidle₂⟩
    · exact ⟨s₁, rfl, .idle hidle⟩
  | none =>
    rw [request_none, Option.bind_some]
    split_ifs with hipv6
    · have haaaa := ha.add (ha.new .aaaa endpoint) rfl rfl (hfresh .aaaa)
      cases hfails' : starting.fails .aaaa with
      | some error =>
        obtain ⟨s₂, hs₂, hidle⟩ := haaaa.complete_error hboot
          (List.mem_append_right _ (List.mem_singleton_self _)) error
        exact ⟨s₂, by rw [request_some, hs₂], .idle hidle⟩
      | none => exact ⟨_, request_none _ _ _, .asking call _ haaaa hboot⟩
    · exact ⟨_, rfl, .asking call _ ha hboot⟩

def called (s : Resolver α) (query : Query) (endpoints : List Endpoint) (bootstraps : List ℕ) :
    Resolver α :=
  { s with
    endpoints
    bootstraps
    query
    cb := some s.calls.length
    done := false
    armed := some s.calls.length
    calls := s.calls ++ [query] }

lemma Idle.call_lt (h : Idle s) (answer : Request × List α) (hanswer : answer ∈ s.answers) :
    answer.1.call < s.calls.length :=
  (List.getElem?_eq_some_iff.mp (h.known answer hanswer)).1

lemma Idle.fresh (h : Idle s) (query : Query) (endpoints : List Endpoint) (bootstraps : List ℕ)
    (type : DnsType) :
    (called s query endpoints bootstraps).answersOf s.calls.length type = [] := by
  have hnone : (s.answers.filter fun answer =>
      answer.1.call == s.calls.length && answer.1.type == type) = [] := by
    rw [List.filter_eq_nil_iff]
    intro answer hanswer
    simp [(h.call_lt answer hanswer).ne]
  show (s.answers.filter _).flatMap Prod.snd = []
  rw [hnone, List.flatMap_nil]

lemma Idle.called (h : Idle s) (hexpired : s.expired = []) (query : Query)
    (endpoints : List Endpoint) (bootstraps : List ℕ) :
    Busy (called s query endpoints bootstraps) s.calls.length fun _ => [] := by
  refine { h with done := rfl, cb := rfl, timer := Or.inl rfl, own := h.own,
                  asking := fun type => asking_nil _ _ type, known := fun answer hanswer => ?_,
                  length_eq := ?_, query := ?_, expired := ?_, addrinfo := ?_ }
  · exact (List.getElem?_append_left (h.call_lt answer hanswer)).trans (h.known answer hanswer)
  · simp [Dns.called]
  · simp [Dns.called]
  · simp [Dns.called, hexpired]
  · rw [h.fresh, h.fresh]
    exact h.addrinfo

lemma Idle.asyncResolve (h : Idle s) (hexpired : s.expired = []) (kind : Kind)
    (address : Option (List UInt8)) (query : Query) (heven : starting.Even) :
    ∃ s', s.asyncResolve kind address query starting = some s' ∧ Sound s' := by
  have hbusy := h.called hexpired query
  have hfresh := h.fresh query
  unfold Resolver.asyncResolve
  dsimp only
  split_ifs with hendpoints
  · have hne : s.endpoints ≠ [] := by simpa using hendpoints
    exact (hbusy s.endpoints s.bootstraps).doRequest h.bootstraps (hfresh _ _) hne heven
  · cases address with
    | some address =>
      apply (hbusy _ s.bootstraps).doRequest h.bootstraps (hfresh _ _) _ heven
      simp [Dns.called]
    | none =>
      refine ⟨_, rfl, .bootstrapping s.calls.length ⟨hbusy _ _, ?_, hfresh _ _⟩⟩
      show s.bootstraps ++ [s.calls.length] = _
      rw [h.bootstraps]
      rfl

lemma Bootstrapping.onBootstrap (h : Bootstrapping s call) {result : Bootstrap}
    (hresult : result ≠ .resolved []) (heven : starting.Even) :
    ∃ s', { s with bootstraps := s.bootstraps.erase call }.onBootstrap result starting = some s' ∧
      Sound s' := by
  have hboot : s.bootstraps.erase call = [] := by rw [h.bootstraps]; simp
  have hbusy : ∀ endpoints, Busy { s with
      endpoints, bootstraps := s.bootstraps.erase call } call fun _ => [] :=
    fun endpoints => { h.busy with
      asking := fun type => asking_nil _ call type }
  cases result with
  | resolved endpoints =>
    apply (hbusy _).doRequest hboot h.fresh _ heven
    intro hnil
    exact hresult (by rw [(List.append_eq_nil_iff.mp hnil).2])
  | failed error => exact ⟨_, rfl, .idle ((hbusy _).fail hboot error)⟩
  | aborted => exact ⟨_, rfl, .asking call _ (hbusy _) hboot⟩

/-! ### Runs -/

lemma Sound.expire (h : Sound s) :
    Sound { s with armed := none, expired := s.expired ++ s.armed.toList } := by
  cases h with
  | idle h => exact .idle { h with armed := rfl }
  | bootstrapping call h => exact .bootstrapping call ⟨h.busy.expire, h.bootstraps, h.fresh⟩
  | asking call asked h hboot => exact .asking call asked h.expire hboot

lemma Sound.timeout (h : Sound s) (hboot : s.bootstraps = []) (call : ℕ) :
    Sound { s with expired := s.expired.erase call }.onTimeout := by
  unfold Resolver.onTimeout
  cases h with
  | idle h =>
    rw [if_pos h.done]
    exact .idle { h with }
  | bootstrapping k h =>
    rw [h.bootstraps] at hboot
    cases hboot
  | asking k asked h _ =>
    rw [if_neg (by simp [h.done]), onDoRequestDone_expired]
    exact .idle { h.fail hboot .timedOut with }

lemma Sound.complete (h : Sound s) (req : Request) (result : Except DnsError (List α)) :
    ∃ s', s.complete req result = some s' ∧ Sound s' := by
  by_cases hreq : req ∈ s.active
  · cases h with
    | idle h =>
      rw [h.active] at hreq
      cases hreq
    | bootstrapping call h =>
      rw [h.busy.active] at hreq
      cases hreq
    | asking call asked h hboot =>
      cases result with
      | ok addresses => exact h.complete_ok hboot hreq addresses
      | error error =>
        obtain ⟨s', hs', hidle⟩ := h.complete_error hboot hreq error
        exact ⟨s', hs', .idle hidle⟩
  · exact ⟨s, by rw [Resolver.complete, if_neg hreq], h⟩

lemma Sound.step (h : Sound s) (kind : Kind) (address : Option (List UInt8)) (e : Event α)
    (hmeets : Meets s e) : ∃ s', s.step kind address e = some s' ∧ Sound s' := by
  cases e with
  | asyncResolve query starting =>
    obtain ⟨hdone, hexpired, heven⟩ := hmeets
    cases h with
    | idle h => exact h.asyncResolve hexpired kind address query heven
    | bootstrapping call h =>
      rw [h.busy.done] at hdone
      cases hdone
    | asking call asked h _ =>
      rw [h.done] at hdone
      cases hdone
  | bootstrap call result starting =>
    unfold Resolver.step
    dsimp only
    by_cases hcall : call ∈ s.bootstraps
    · rw [if_pos hcall]
      cases h with
      | idle h =>
        rw [h.bootstraps] at hcall
        cases hcall
      | bootstrapping k h =>
        rw [h.bootstraps] at hcall
        rw [List.mem_singleton.mp hcall]
        exact h.onBootstrap hmeets.1 hmeets.2
      | asking k asked h hboot =>
        rw [hboot] at hcall
        cases hcall
    · exact ⟨s, if_neg hcall, h⟩
  | completed req result => exact h.complete req result
  | expire => exact ⟨_, rfl, h.expire⟩
  | timeout call =>
    refine ⟨_, rfl, ?_⟩
    split_ifs with hcall
    · exact h.timeout hmeets call
    · exact h

lemma idle_start : Idle (start α) where
  done := rfl
  cb := rfl
  reqs := rfl
  active := rfl
  addrinfo := rfl
  bootstraps := rfl
  armed := rfl
  once := rfl
  own := by simp [start]
  known := by simp [start]

end Invariant

/-- In every run of a resolver in which no call times out during the bootstrap, no handler of an
earlier timer is left when a call is made, and the two requests of a call that fail at once fail
together: each call is reported once, with the addresses that its own requests were answered, A
before AAAA, and nothing that is under way belongs to an earlier call. -/
theorem proper_of_meets {α : Type} (kind : Kind) (address : Option (List UInt8))
    (events : List (Event α))
    (hmeets : Run.Along (Resolver.step kind address) Meets (start α) events)
    (reached : List (Event α)) (hpre : reached <+: events) :
    ∃ s, Run.exec (Resolver.step kind address) (start α) reached = some s ∧
      Proper kind address s := by
  have hreached : Run.Along (Resolver.step kind address) Meets (start α) reached := by
    obtain ⟨rest, rfl⟩ := hpre
    exact hmeets.of_append
  obtain ⟨s, hs, hsound⟩ := Run.exec_invariant (I := Sound)
    (fun s e h hm => h.step kind address e hm) (.idle idle_start) hreached
  exact ⟨s, hs, hsound.proper kind address⟩

def starting (ipv6 : Bool) : Starting := ⟨ipv6, fun _ => none⟩

/-- A call that is answered A and AAAA in either order, and one whose A request is not answered in
time, for a server whose address has to be found first. -/
def properRun : List (Event ℕ) :=
  let server : Endpoint := ([9, 9, 9, 9], 443)
  [.asyncResolve ⟨[97], 80⟩ (starting true), .bootstrap 0 (.resolved [server]) (starting true),
    .completed ⟨1, .aaaa, ⟨[97], 80⟩, server, 0⟩ (.ok [6]),
    .completed ⟨0, .a, ⟨[97], 80⟩, server, 0⟩ (.ok [4, 5]),
    .asyncResolve ⟨[98], 80⟩ (starting true),
    .completed ⟨3, .aaaa, ⟨[98], 80⟩, server, 1⟩ (.ok [7]), .expire, .timeout 1]

theorem proper_of_meets_sample :
    Run.Along (Resolver.step (.doh 443) none) Meets (start ℕ) properRun ∧
      ∃ s, Run.exec (Resolver.step (.doh 443) none) (start ℕ) properRun = some s ∧
        Proper (.doh 443) none s := by
  have hmeets : Run.Along (Resolver.step (.doh 443) none) Meets (start ℕ) properRun := by
    decide +kernel
  exact ⟨hmeets, proper_of_meets (.doh 443) none properRun hmeets properRun List.prefix_rfl⟩

/-- The first call times out during the bootstrap, which goes on: its request is made when the call
is over, and what it is answered stays in the list. -/
def lateBootstrap : List (Event ℕ) :=
  let server : Endpoint := ([9, 9, 9, 9], 853)
  [.asyncResolve ⟨[97], 80⟩ (starting false), .expire, .timeout 0,
    .bootstrap 0 (.resolved [server]) (starting false),
    .completed ⟨0, .a, ⟨[97], 80⟩, server, 0⟩ (.ok [1])]

def secondCall : List (Event ℕ) :=
  [.asyncResolve ⟨[98], 80⟩ (starting false),
    .completed ⟨1, .a, ⟨[98], 80⟩, ([9, 9, 9, 9], 853), 1⟩ (.ok [2])]

/-- A call, made after the one before was reported, is given the address of the host of that one. -/
theorem stale_address :
    ∃ s₁ s₂, Run.exec (Resolver.step .dot none) (start ℕ) lateBootstrap = some s₁ ∧
      s₁.done = true ∧ s₁.reports = [⟨0, some .timedOut, []⟩] ∧
      Run.exec (Resolver.step .dot none) s₁ secondCall = some s₂ ∧
      s₂.reports = [⟨0, some .timedOut, []⟩, ⟨1, none, [2, 1]⟩] ∧
      s₂.answersOf 0 .a = [1] ∧ s₂.answersOf 1 .a = [2] ∧ s₂.answersOf 1 .aaaa = [] ∧
      ¬ Proper .dot none s₂ := by
  have hfirst : (Run.exec (Resolver.step .dot none) (start ℕ) lateBootstrap).map
      (fun s => (s.done, s.reports)) = some (true, [⟨0, some .timedOut, []⟩]) := by decide +kernel
  have hsecond : ((Run.exec (Resolver.step .dot none) (start ℕ) lateBootstrap).bind fun s =>
      Run.exec (Resolver.step .dot none) s secondCall).map
      (fun s => (s.reports, s.answersOf 0 .a, s.answersOf 1 .a, s.answersOf 1 .aaaa)) =
        some ([⟨0, some .timedOut, []⟩, ⟨1, none, [2, 1]⟩], [1], [2], []) := by decide +kernel
  obtain ⟨s₁, hs₁, heq₁⟩ := Option.map_eq_some_iff.mp hfirst
  obtain ⟨hdone, hreports₁⟩ := Prod.mk.inj heq₁
  rw [hs₁, Option.bind_some] at hsecond
  obtain ⟨s₂, hs₂, heq₂⟩ := Option.map_eq_some_iff.mp hsecond
  obtain ⟨hreports, heq₂⟩ := Prod.mk.inj heq₂
  obtain ⟨hzero, heq₂⟩ := Prod.mk.inj heq₂
  obtain ⟨ha, haaaa⟩ := Prod.mk.inj heq₂
  refine ⟨s₁, s₂, hs₁, hdone, hreports₁, hs₂, hreports, hzero, ha, haaaa, ?_⟩
  intro hproper
  have hown := hproper.own ⟨1, none, [2, 1]⟩ (by rw [hreports]; simp)
  rw [ha, haaaa] at hown
  simp at hown

end Yass.Net.Dns
