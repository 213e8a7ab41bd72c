import Yass.Cli.KeepAlive

/-!
# Requests on a keep-alive connection

* `wire`, `forwarded`, `outputs` — what the client sends, and what is to reach the channels: every
  reforged header and its body, in `outputs` each byte with what its channel was opened for.
* `Undisturbed` — the condition on a step: bytes are taken while the channel is connected (or are
  the first), and those at the start of a request hold its whole header, which does not grow and
  announces less than `2^63` bytes.

Source: `cli/cli_connection.cpp`, as for the model.
-/

namespace Yass.Cli

open Yass.Net
open Connection

/-! ## Requests -/

/-- A request, as a client sends it, and the header that is sent on instead of its own. -/
structure Request where
  header : List UInt8
  body : List UInt8
  target : Target
  reforged : List UInt8
  deriving DecidableEq, Repr

def wire (reqs : List Request) : List UInt8 := reqs.flatMap fun r => r.header ++ r.body

def forwarded (reqs : List Request) : List UInt8 := reqs.flatMap fun r => r.reforged ++ r.body

def outputs (env : Environment) (reqs : List Request) : List (Target × UInt8) :=
  reqs.flatMap fun r => (r.reforged ++ r.body).map (env.request r.target, ·)

/-- What the parser says once it has the whole header: a keep-alive request with the length of its
body, that is neither a `CONNECT` nor chunked. -/
structure Parsed (env : Environment) (r : Request) (p : HttpRequestParser) : Prop where
  ok : p.ok = true
  nparsed : p.nparsed = r.header.length
  host : p.host = r.target.host
  port : p.port = r.target.port
  isConnect : p.isConnect = false
  contentLength : p.contentLength.toNat = r.body.length
  connection : equalsCaseInsensitiveAscii p.connection keepAliveText = true
  chunked : p.transferEncodingIsChunked = false
  reforged : p.reforgeHttpRequest env.canonUri [] = r.reforged

/-- A request that the parser understands, for a target that is not refused. -/
structure Spoken (env : Environment) (r : Request) : Prop where
  header_ne : r.header ≠ []
  host_ne : r.target.host ≠ []
  host_le : r.target.host.length ≤ tlsextMaxlenHostName
  port_ne : r.target.port ≠ 0
  incomplete : ∀ n < r.header.length, (env.parse (r.header.take n)).ok = false
  complete : ∀ rest, Parsed env r (env.parse (r.header ++ rest))

/-! ## Conditions on a step -/

namespace Connection

def reads (s : Connection) : Event → Option (List UInt8)
  | .pull (.data bytes) => if s.resumed.isNone then some bytes else none
  | _ => none

def hands (s : Connection) : Event → Option (List UInt8)
  | .pull outcome =>
    match s.resumed with
    | some buf => some buf.readable
    | none => s.reads (.pull outcome)
  | _ => none

def atStart (s : Connection) : Prop :=
  s.streaming = false ∨ s.isKeepAlive = true ∧ s.remainingBytes = 0

instance (s : Connection) : Decidable s.atStart := inferInstanceAs (Decidable (_ ∨ _))

def queued (s : Connection) : List UInt8 :=
  ((s.upstream ++ s.pendingData).map GrowableIOBuffer.readable).flatten

end Connection

def Sends (reqs : List Request) (s : Connection) (e : Event) : Prop :=
  ∀ b ∈ s.reads e, s.received ++ b <+: wire reqs

/-- The bytes start with a whole header, which does not grow, and announce less than `2^63`. -/
structure Fits (env : Environment) (b : List UInt8) : Prop where
  ok : (env.parse b).ok = true
  reforged_le : ((env.parse b).reforgeHttpRequest env.canonUri []).length ≤ (env.parse b).nparsed
  size_lt : (env.parse b).contentLength.toNat +
    ((env.parse b).reforgeHttpRequest env.canonUri []).length < 2 ^ 63

structure Undisturbed (env : Environment) (s : Connection) (e : Event) : Prop where
  connected : ∀ b ∈ s.hands e, s.streaming = true → s.isConnected = true
  fits : ∀ b ∈ s.hands e, s.atStart → Fits env b

instance (reqs : List Request) (s : Connection) (e : Event) : Decidable (Sends reqs s e) :=
  inferInstanceAs (Decidable (∀ b ∈ s.reads e, _))

instance (env : Environment) (b : List UInt8) : Decidable (Fits env b) :=
  decidable_of_iff (_ ∧ _ ∧ _) ⟨fun ⟨h₁, h₂, h₃⟩ => ⟨h₁, h₂, h₃⟩, fun ⟨h₁, h₂, h₃⟩ => ⟨h₁, h₂, h₃⟩⟩

instance (env : Environment) (s : Connection) (e : Event) : Decidable (Undisturbed env s e) :=
  decidable_of_iff ((∀ b ∈ s.hands e, s.streaming = true → s.isConnected = true) ∧
    ∀ b ∈ s.hands e, s.atStart → Fits env b) ⟨fun ⟨h₁, h₂⟩ => ⟨h₁, h₂⟩, fun ⟨h₁, h₂⟩ => ⟨h₁, h₂⟩⟩

/-! ## What is on the wire -/

lemma wire_cons (r : Request) (reqs : List Request) :
    wire (r :: reqs) = r.header ++ (r.body ++ wire reqs) := by
  simp [wire]

lemma wire_append (reqs₁ reqs₂ : List Request) : wire (reqs₁ ++ reqs₂) = wire reqs₁ ++ wire reqs₂ :=
  List.flatMap_append

lemma outputs_append (env : Environment) (reqs₁ reqs₂ : List Request) :
    outputs env (reqs₁ ++ reqs₂) = outputs env reqs₁ ++ outputs env reqs₂ :=
  List.flatMap_append

lemma map_snd_outputs (env : Environment) (reqs : List Request) :
    (outputs env reqs).map Prod.snd = forwarded reqs := by
  simp [outputs, forwarded, List.map_flatMap, Function.comp_def]

lemma exists_request {env : Environment} {reqs : List Request} (hreqs : ∀ r ∈ reqs, Spoken env r)
    {b : List UInt8} (hb : b ≠ []) (hpre : b <+: wire reqs) (hok : (env.parse b).ok = true) :
    ∃ r rest tail, reqs = r :: rest ∧ b = r.header ++ tail ∧ tail <+: r.body ++ wire rest := by
  cases reqs with
  | nil => exact absurd (List.prefix_nil.mp hpre) hb
  | cons r rest =>
    have hr := hreqs r List.mem_cons_self
    rw [wire_cons] at hpre
    obtain ⟨u, hu⟩ := hpre
    rcases List.append_eq_append_iff.mp hu with ⟨x, hheader, -⟩ | ⟨tail, rfl, htail⟩
    · -- the bytes end inside the header, or with it
      by_cases hx : x = []
      · refine ⟨r, rest, [], rfl, ?_, List.nil_prefix⟩
        rw [hheader, hx, List.append_nil, List.append_nil]
      have hlt : b.length < r.header.length := by
        have := List.length_pos_iff.mpr hx
        rw [hheader, List.length_append]
        omega
      have hbad := hr.incomplete b.length hlt
      rw [hheader, List.take_left, hok] at hbad
      cases hbad
    · exact ⟨r, rest, tail, rfl, rfl, u, htail.symm⟩

/-! ## Accepting a request -/

/-- `http_keep_alive_pending_buf_` for the bytes that were kept back. -/
def held (bytes : List UInt8) : Option GrowableIOBuffer :=
  if bytes = [] then none else some (.copyBuffer bytes)

/-- The state after a request has been parsed, with `tail` behind its header. -/
def Connection.accept (s : Connection) (r : Request) (tail : List UInt8) : Connection :=
  { s with
    isKeepAlive := true
    remainingBytes := (r.body.drop tail.length).length
    pendingBuf := held (tail.drop r.body.length)
    target := r.target
    isConnect := false }

section Accept

variable {env : Environment} {s : Connection} {buf : GrowableIOBuffer}

variable {tail : List UInt8}

/-- **The split.** Of what is behind the header, the body goes on and the rest is kept back. -/
lemma keepAliveSplit_spec (junk : ℕ → UInt8) {parser : HttpRequestParser} {header : List UInt8}
    (hconnection : equalsCaseInsensitiveAscii parser.connection keepAliveText)
    (hchunked : parser.transferEncodingIsChunked = false) (hoffset : buf.offset = 0)
    (hread : buf.readable = header ++ tail)
    (hsize : parser.contentLength.toNat + header.length < 2 ^ 63) (htail : tail.length < 2 ^ 63)
    (hpending : s.pendingBuf = none) :
    ∃ buf', s.keepAliveSplit parser header junk buf = some ({ s with
        isKeepAlive := true
        remainingBytes := (parser.contentLength.toNat - tail.length : ℕ)
        pendingBuf := held (tail.drop parser.contentLength.toNat) }, buf') ∧
      buf'.readable = header ++ tail.take parser.contentLength.toNat := by
  set n := parser.contentLength.toNat with hn
  have hlen : buf.size = header.length + tail.length := by
    rw [← buf.length_readable, hread, List.length_append]
  have hmod : (n + header.length) % 2 ^ 64 = n + header.length := Nat.mod_eq_of_lt (by omega)
  have hremaining : Int.bmod ((n + header.length : ℕ) - (buf.size : ℤ)) (2 ^ 64) =
      (n : ℤ) - tail.length := by
    rw [hlen, Int.bmod_def]
    push_cast
    omega
  unfold keepAliveSplit
  simp only [← hn, hmod, hremaining, hconnection, hchunked]
  by_cases hlt : n < tail.length
  · have hle : n + header.length ≤ buf.size := by omega
    obtain ⟨buf', hbuf', hread', -⟩ := GrowableIOBuffer.setCapacity_take junk hoffset hle
    have hne : tail.drop n ≠ [] := by
      rw [Ne, List.drop_eq_nil_iff]
      omega
    refine ⟨buf', ?_, ?_⟩
    · rw [if_pos ⟨trivial, by omega⟩, if_neg (by omega), hbuf', hread, Nat.add_comm n,
        List.drop_length_add_append, held, if_neg hne, Nat.sub_eq_zero_of_le hlt.le]
      rfl
    · rw [hread', hread, Nat.add_comm n, List.take_length_add_append]
  have hnil : tail.drop n = [] := List.drop_eq_nil_of_le (by omega)
  refine ⟨buf, ?_, ?_⟩
  · rw [if_neg (by omega), hnil, held, if_pos rfl, ← hpending, Nat.cast_sub (by omega)]
    rfl
  · rw [hread, List.take_of_length_le (by omega)]

variable {r : Request}

lemma onReadHttpRequest_spec (hr : Spoken env r)
    (hread : buf.readable = r.header ++ tail) (hfits : Fits env buf.readable)
    (hle : buf.size ≤ socketBufSize) (hpending : s.pendingBuf = none) :
    ∃ buf', s.onReadHttpRequest env buf = some (s.accept r tail, buf', true) ∧
      buf'.readable = r.reforged ++ tail.take r.body.length := by
  obtain ⟨-, hgrow, hsize⟩ := hfits
  have hp := hr.complete tail
  rw [← hread] at hp
  rw [hp.reforged] at hgrow hsize
  have hlen : buf.size = r.header.length + tail.length := by
    rw [← buf.length_readable, hread, List.length_append]
  have hn : (env.parse buf.readable).nparsed ≤ buf.size := by
    rw [hp.nparsed, hlen]
    exact Nat.le_add_right _ _
  have hexact : RewritesExactly buf _ r.reforged (rewriteHeader env.junk buf _ r.reforged) :=
    rewriteHeader_of_le hn hgrow
  obtain ⟨buf₁, hbuf₁, hread₁⟩ := hexact
  have hoffset₁ : buf₁.offset = 0 := rewriteHeader_offset hbuf₁
  rw [hp.nparsed, hread, List.drop_left] at hread₁
  have htail : tail.length < 2 ^ 63 := by
    have : socketBufSize < 2 ^ 63 := by decide
    omega
  obtain ⟨buf', hsplit, hread'⟩ := keepAliveSplit_spec env.junk
    (s := { s with
      isKeepAlive := false
      remainingBytes := 0
      target := r.target
      isConnect := false }) hp.connection hp.chunked hoffset₁ hread₁ hsize htail hpending
  rw [hp.contentLength] at hsplit hread'
  refine ⟨buf', ?_, hread'⟩
  unfold onReadHttpRequest cliRewriteRequest
  simp only [hp.ok, hp.isConnect, hp.reforged, hp.host, hp.port, if_true, hbuf₁, hsplit,
    Option.bind_eq_bind, Option.bind_some, Bool.false_eq_true, if_false, Connection.accept,
    List.length_drop]

/-- What a state is after a request has been accepted, with `tail` behind its header. -/
structure Accepted (env : Environment) (r : Request) (tail : List UInt8) (s s' : Connection) :
    Prop where
  streaming : s'.streaming = true
  isKeepAlive : s'.isKeepAlive = true
  remainingBytes : s'.remainingBytes = (r.body.drop tail.length).length
  pendingBuf : s'.pendingBuf = held (tail.drop r.body.length)
  previousBuf : s'.previousBuf = s.previousBuf
  request : s'.channel.map Channel.request = some (env.request r.target)
  queued : s'.queued = r.reforged ++ tail.take r.body.length
  pendingData : s'.isConnected = true → s'.pendingData = []
  written : s'.written = s.written
  received : s'.received = s.received

lemma onStreamRead_of_le (hconnected : s.isConnected = false) (hempty : s.pendingData = [])
    (hle : buf.size ≤ socketBufSize) : s.onStreamRead buf = { s with pendingData := [buf] } := by
  have hmax : buf.size ≤ kMaxHeaderSize := hle.trans (by decide)
  simp [onStreamRead, hconnected, hempty, hmax]

lemma performCmdOpsHttp_spec (hr : Spoken env r) (htarget : s.target = r.target) :
    s.performCmdOpsHttp env =
      some { s with channel := some ⟨env.request r.target, false, false⟩ } := by
  have hok : ¬ (s.target.host.length > tlsextMaxlenHostName ∨ s.target.host = [] ∨
      s.target.port = 0) := by
    rw [htarget]
    rintro (hlong | hempty | hzero)
    · exact absurd hr.host_le (Nat.not_le_of_lt hlong)
    · exact hr.host_ne hempty
    · exact hr.port_ne hzero
  rw [performCmdOpsHttp, if_neg hok, htarget]

lemma size_forwarded_le {buf' : GrowableIOBuffer}
    (hr : Spoken env r) (hread : buf.readable = r.header ++ tail) (hfits : Fits env buf.readable)
    (hread' : buf'.readable = r.reforged ++ tail.take r.body.length) : buf'.size ≤ buf.size := by
  have hp := hr.complete tail
  have hgrow := hfits.reforged_le
  rw [hread, hp.reforged, hp.nparsed] at hgrow
  rw [← buf'.length_readable, ← buf.length_readable, hread, hread', List.length_append,
    List.length_append, List.length_take]
  omega

lemma isEmpty_forwarded (hr : Spoken env r)
    (hread : buf.readable = r.reforged ++ tail) : buf.isEmpty = false := by
  have hne : buf.readable ≠ [] := by
    rw [hread, ← (hr.complete []).reforged]
    simp [HttpRequestParser.reforgeHttpRequest]
  rwa [← Bool.not_eq_true, GrowableIOBuffer.isEmpty_iff]

lemma accepted_of_reopened (hupstream : s.upstream = [])
    (hread : buf.readable = r.reforged ++ tail.take r.body.length) {streaming : Bool}
    (hstreaming : streaming) (scheduled : Bool) :
    Accepted env r tail s { s.accept r tail with
      streaming := streaming
      pendingData := [buf]
      channel := some ⟨env.request r.target, false, false⟩
      readScheduled := scheduled } where
  streaming := hstreaming
  isKeepAlive := rfl
  remainingBytes := rfl
  pendingBuf := rfl
  previousBuf := rfl
  request := rfl
  queued := by simp [Connection.queued, Connection.accept, hupstream, hread]
  pendingData h := by cases h
  written := rfl
  received := rfl

lemma readMethodSelect_spec (hpending : s.pendingBuf = none) (hdata : s.pendingData = [])
    (hupstream : s.upstream = []) (hr : Spoken env r) (hfits : Fits env (r.header ++ tail))
    (hle : (r.header ++ tail).length ≤ socketBufSize) :
    ∃ s', s.readMethodSelect env (.data (r.header ++ tail)) = some s' ∧
      Accepted env r tail (s.receive (r.header ++ tail)) s' := by
  obtain ⟨buf, hbuf, hread, -⟩ := GrowableIOBuffer.readSome_spec env.junk hle
  have hsize : buf.size ≤ socketBufSize := by rwa [← buf.length_readable, hread]
  rw [← hread] at hfits
  obtain ⟨buf', hrequest, hread'⟩ :=
    onReadHttpRequest_spec (s := s.receive (r.header ++ tail)) hr hread hfits hsize hpending
  have hsize' := (size_forwarded_le hr hread hfits hread').trans hsize
  refine ⟨_, ?_, accepted_of_reopened (s := s.receive _) hupstream hread' rfl s.readScheduled⟩
  simp only [readMethodSelect, hbuf, hrequest, Option.bind_eq_bind, Option.bind_some]
  rw [performCmdOpsHttp_spec hr rfl]
  dsimp only
  rw [isEmpty_forwarded hr hread', if_neg Bool.false_ne_true]
  exact congrArg some (onStreamRead_of_le rfl hdata hsize')

/-- **A later request.** It goes to the channel there is, or to a new one. -/
lemma afterRead_of_start (hstreaming : s.streaming) (hconnected : s.isConnected)
    (hkeep : s.isKeepAlive) (hzero : s.remainingBytes = 0) (hpending : s.pendingBuf = none)
    (hdata : s.pendingData = []) (hupstream : s.upstream = []) {tag : Target}
    (hchannel : s.channel.map Channel.request = some tag) (htag : env.request tag = tag)
    (hr : Spoken env r) (hread : buf.readable = r.header ++ tail)
    (hfits : Fits env buf.readable) (hsize : buf.size ≤ socketBufSize) (n : ℕ) :
    ∃ s', s.afterRead env buf n = some s' ∧ Accepted env r tail s s' := by
  obtain ⟨buf', hrequest, hread'⟩ := onReadHttpRequest_spec hr hread hfits hsize hpending
  have hsize' := (size_forwarded_le hr hread hfits hread').trans hsize
  by_cases hsame : tag = r.target
  · have hreuse : s.onReadHttpRequestAfterReuse env buf = some (.same (s.accept r tail) buf') := by
      simp only [onReadHttpRequestAfterReuse, hrequest, Option.bind_eq_bind,
        Option.bind_some]
      rw [if_neg (by simp [accept]), if_neg]
      simpa [accept, hsame] using hchannel
    refine ⟨{ s.accept r tail with upstream := s.upstream ++ [buf'] }, ?_, ?_⟩
    · simp [afterRead, hconnected, hkeep, hzero, hreuse, accept]
    refine ⟨hstreaming, rfl, rfl, rfl, rfl, ?_, ?_, fun _ => hdata, rfl, rfl⟩
    · rw [← hsame, htag]
      exact hchannel
    · simp [queued, accept, hupstream, hdata, hread']
  have hreuse : s.onReadHttpRequestAfterReuse env buf = some (.reopened { s.accept r tail with
      pendingData := [buf']
      channel := some ⟨env.request r.target, false, false⟩ }) := by
    simp only [onReadHttpRequestAfterReuse, hrequest, Option.bind_eq_bind,
      Option.bind_some]
    rw [if_neg (by simp [accept]), if_pos]
    · rw [onStreamRead_of_le (s := { s.accept r tail with channel := none }) rfl hdata hsize',
        performCmdOpsHttp_spec hr rfl]
      rfl
    · simpa [accept, hchannel] using hsame
  refine ⟨_, ?_, accepted_of_reopened hupstream hread' hstreaming true⟩
  simp [afterRead, hconnected, hkeep, hzero, hreuse, accept]

/-- **A piece of a body.** What belongs to it goes on, and the rest is kept back. -/
lemma afterRead_of_missing (env : Environment) (hconnected : s.isConnected)
    (hkeep : s.isKeepAlive) {missing : List UInt8} (hmissing : missing ≠ [])
    (hremaining : s.remainingBytes = missing.length) (hpending : s.pendingBuf = none)
    (hoffset : buf.offset = 0) :
    ∃ buf', s.afterRead env buf buf.size = some { s with
        remainingBytes := (missing.drop buf.size).length
        pendingBuf := held (buf.readable.drop missing.length)
        upstream := s.upstream ++ [buf'] } ∧
      buf'.readable = buf.readable.take missing.length := by
  by_cases hlt : missing.length < buf.size
  · obtain ⟨buf', hbuf', hread', -⟩ := GrowableIOBuffer.setCapacity_take env.junk hoffset hlt.le
    have hrest : buf.readable.drop missing.length ≠ [] := by
      rw [Ne, List.drop_eq_nil_iff, buf.length_readable]
      omega
    have hdone : missing.length - buf.size = 0 := Nat.sub_eq_zero_of_le hlt.le
    refine ⟨buf', ?_, hread'⟩
    simp [afterRead, hconnected, hkeep, hremaining, hmissing, hlt, hbuf', held, hrest,
      hdone]
  have hrest : buf.readable.drop missing.length = [] := by
    rw [List.drop_eq_nil_iff, buf.length_readable]
    omega
  have hleft : ((missing.length - buf.size : ℕ) : ℤ) = missing.length - buf.size :=
    Nat.cast_sub (Nat.le_of_not_lt hlt)
  refine ⟨buf, ?_, ?_⟩
  · simp [afterRead, hconnected, hkeep, hremaining, hmissing, hlt, held, hrest, hleft,
      ← hpending]
  · rw [List.take_of_length_le (by rw [buf.length_readable]; omega)]

end Accept

end Yass.Cli
