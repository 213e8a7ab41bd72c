import Yass.Cli.KeepAliveRuns

/-!
# How many bytes of a body are still to come

`http_keep_alive_remaining_bytes_` is computed in 64 bits without a sign, read with one, and counted
down by later reads. Here it is compared with the number it stands for.

* `Countable` — the header is not longer than the one it replaces, the length and what is buffered
  stay apart by less than `2^63`, and only a keep-alive request has bytes behind its body.
* `TakesExactly`, `takesExactly_of_pos` — one read of a piece of a body.
* `counted`, `Meets`, `Counted` — a connection beside the exact count, the condition on a step, and
  the invariant: the two agree.

Source: `cli/cli_connection.cpp`.
-/

namespace Yass.Cli

open Yass.Net
open Option (bind_eq_some_iff)
open Connection

/-! ## One request -/

/-- The body bytes still to come behind a buffer that starts with a request: what its
`Content-Length` announces, less what is behind the header. Bytes that are no request, and a
`CONNECT`, announce nothing. -/
def announced (env : Environment) (b : List UInt8) : ℕ :=
  if (env.parse b).ok = true ∧ (env.parse b).isConnect = false then
    (env.parse b).contentLength.toNat - (b.length - (env.parse b).nparsed)
  else 0

structure Countable (env : Environment) (b : List UInt8) : Prop where
  reforged_le : ((env.parse b).reforgeHttpRequest env.canonUri []).length ≤ (env.parse b).nparsed
  length_lt : (env.parse b).contentLength.toNat < 2 ^ 63 + (b.length - (env.parse b).nparsed)
  behind_le : equalsCaseInsensitiveAscii (env.parse b).connection keepAliveText = true ∨
    b.length - (env.parse b).nparsed ≤ (env.parse b).contentLength.toNat

instance (env : Environment) (b : List UInt8) : Decidable (Countable env b) :=
  decidable_of_iff (_ ∧ _ ∧ _) ⟨fun ⟨h₁, h₂, h₃⟩ => ⟨h₁, h₂, h₃⟩, fun ⟨h₁, h₂, h₃⟩ => ⟨h₁, h₂, h₃⟩⟩

def Connection.kept (s : Connection) : List UInt8 :=
  (s.pendingBuf.map GrowableIOBuffer.readable).getD []

def bodyOf (parser : HttpRequestParser) (tail : List UInt8) : List UInt8 :=
  if equalsCaseInsensitiveAscii parser.connection keepAliveText then
    tail.take parser.contentLength.toNat
  else tail

/-- The outcome of the split of a buffer that reads `header ++ tail`. -/
structure SplitAt (parser : HttpRequestParser) (header tail : List UInt8) (s : Connection)
    (buf : GrowableIOBuffer) : Prop where
  remaining : s.remainingBytes = (parser.contentLength.toNat - tail.length : ℕ)
  forwarded : buf.readable = header ++ bodyOf parser tail
  kept : s.kept = tail.drop (bodyOf parser tail).length

/-- `OnReadHttpRequest` accepts the request, forwards its new header and its body, keeps back what
is behind the body, and knows how much of the body is still to come. -/
def SplitsExactly (env : Environment) (buf : GrowableIOBuffer)
    (out : Option (Connection × GrowableIOBuffer × Bool)) : Prop :=
  ∃ s' buf', out = some (s', buf', true) ∧ s'.remainingBytes = announced env buf.readable ∧
    SplitAt (env.parse buf.readable)
      ((env.parse buf.readable).reforgeHttpRequest env.canonUri [])
      (buf.readable.drop (env.parse buf.readable).nparsed) s' buf'

section Split

variable {env : Environment} {s s' : Connection} {buf buf' : GrowableIOBuffer} {junk : ℕ → UInt8}
  {parser : HttpRequestParser} {header tail : List UInt8}

lemma bmod_remaining (parser : HttpRequestParser)
    (hlen : buf.size = header.length + tail.length) (htail : tail.length ≤ 2 ^ 63) :
    Int.bmod (((parser.contentLength.toNat + header.length) % 2 ^ 64 : ℕ) - (buf.size : ℤ))
        (2 ^ 64) =
      if parser.contentLength.toNat < 2 ^ 63 + tail.length then
        (parser.contentLength.toNat : ℤ) - tail.length
      else (parser.contentLength.toNat : ℤ) - tail.length - 2 ^ 64 := by
  have hlt := parser.contentLength.toNat_lt
  rw [hlen, Int.bmod_def]
  push_cast
  split_ifs <;> omega

lemma keepAliveSplit_total (hpending : s.pendingBuf = none) (hoffset : buf.offset = 0)
    (h : s.keepAliveSplit parser header junk buf = some (s', buf')) :
    buf'.size + s'.kept.length = buf.size := by
  unfold keepAliveSplit at h
  dsimp only at h
  split_ifs at h with hsplit hshort
  · obtain ⟨b, hb, h⟩ := bind_eq_some_iff.mp h
    cases h
    rw [Nat.not_lt] at hshort
    obtain ⟨b', hb', hread, -⟩ := GrowableIOBuffer.setCapacity_take junk hoffset hshort
    rw [hb'] at hb
    cases hb
    rw [← buf'.length_readable, hread, kept, Option.map_some, Option.getD_some,
      GrowableIOBuffer.readable_copyBuffer, ← List.length_append, List.take_append_drop,
      buf.length_readable]
  · cases h
    simp [kept, hpending]

/-- **The split.** It is exact if the length and what is buffered are less than `2^63` apart, and
nothing is behind the body of a request that is not kept alive. -/
lemma keepAliveSplit_exact_iff (junk : ℕ → UInt8) (parser : HttpRequestParser)
    (hpending : s.pendingBuf = none) (hoffset : buf.offset = 0)
    (hread : buf.readable = header ++ tail) (hheader : header.length < 2 ^ 31)
    (htail : tail.length < 2 ^ 31) :
    (∃ s' buf', s.keepAliveSplit parser header junk buf = some (s', buf') ∧
        SplitAt parser header tail s' buf') ↔
      parser.contentLength.toNat < 2 ^ 63 + tail.length ∧
        (equalsCaseInsensitiveAscii parser.connection keepAliveText = true ∨
          tail.length ≤ parser.contentLength.toNat) := by
  have hlen : buf.size = header.length + tail.length := by
    rw [← buf.length_readable, hread, List.length_append]
  have hlt := parser.contentLength.toNat_lt
  have hremaining := bmod_remaining parser hlen (by omega)
  unfold keepAliveSplit
  simp only [hremaining]
  by_cases hfar : parser.contentLength.toNat < 2 ^ 63 + tail.length
  swap
  · -- the count is below zero, so it is wrong, or the buffer is split although a body is missing
    rw [if_neg hfar]
    refine iff_of_false ?_ (fun h => hfar h.1)
    rintro ⟨s', buf', h, hexact⟩
    have hcount := hexact.remaining
    split_ifs at h
    · obtain ⟨b, -, h⟩ := bind_eq_some_iff.mp h
      cases h
      simp only at hcount
      omega
    · cases h
      simp only at hcount
      omega
  rw [if_pos hfar]
  by_cases hkeep : equalsCaseInsensitiveAscii parser.connection keepAliveText
  · refine iff_of_true ?_ ⟨hfar, Or.inl hkeep⟩
    by_cases hmore : parser.contentLength.toNat < tail.length
    · have hmod : (parser.contentLength.toNat + header.length) % 2 ^ 64 =
          header.length + parser.contentLength.toNat := by omega
      have hle : header.length + parser.contentLength.toNat ≤ buf.size := by omega
      obtain ⟨buf', hbuf', hread', -⟩ := GrowableIOBuffer.setCapacity_take junk hoffset hle
      rw [hmod, if_pos ⟨hkeep, by omega⟩, if_neg (by omega), hbuf']
      refine ⟨_, buf', rfl, ?_, ?_, ?_⟩
      · simp only
        omega
      · rw [hread', hread, bodyOf, if_pos hkeep, List.take_length_add_append]
      simp only [kept, Option.map_some, Option.getD_some,
        GrowableIOBuffer.readable_copyBuffer, hread, bodyOf, if_pos hkeep,
        List.drop_length_add_append, List.length_take, min_eq_left hmore.le]
    rw [Nat.not_lt] at hmore
    rw [if_neg (by omega)]
    have hbody : bodyOf parser tail = tail := by
      rw [bodyOf, if_pos hkeep, List.take_of_length_le hmore]
    refine ⟨_, buf, rfl, ?_, ?_, ?_⟩
    · simp only
      omega
    · rw [hbody, hread]
    · simp [kept, hpending, hbody]
  rw [if_neg (by tauto)]
  have hbody : bodyOf parser tail = tail := by rw [bodyOf, if_neg hkeep]
  constructor
  · rintro ⟨s', buf', h, hexact⟩
    cases h
    have hcount := hexact.remaining
    simp only at hcount
    exact ⟨hfar, Or.inr (by omega)⟩
  · rintro ⟨-, hle⟩
    have hle := hle.resolve_left hkeep
    refine ⟨_, buf, rfl, ?_, ?_, ?_⟩
    · simp only
      omega
    · rw [hbody, hread]
    · simp [kept, hpending, hbody]

def Connection.parsed (s : Connection) (parser : HttpRequestParser) : Connection :=
  { s with
    isKeepAlive := false
    remainingBytes := 0
    target := ⟨parser.host, parser.port⟩
    isConnect := parser.isConnect }

lemma onReadHttpRequest_of_ok (hok : (env.parse buf.readable).ok = true)
    (hconnect : (env.parse buf.readable).isConnect = false) :
    s.onReadHttpRequest env buf =
      (cliRewriteRequest env.junk env.canonUri (env.parse buf.readable) buf).bind fun b =>
        ((s.parsed (env.parse buf.readable)).keepAliveSplit (env.parse buf.readable)
          ((env.parse buf.readable).reforgeHttpRequest env.canonUri []) env.junk b).bind fun p =>
            some (p.1, p.2, true) := by
  simp only [onReadHttpRequest, hok, hconnect, if_true, Bool.false_eq_true, if_false,
    Connection.parsed, Option.bind_eq_bind]

/-- **One request.** The count and the split are exact exactly for a request that can be counted. -/
lemma splitsExactly_iff (hok : (env.parse buf.readable).ok = true)
    (hconnect : (env.parse buf.readable).isConnect = false)
    (hn : (env.parse buf.readable).nparsed ≤ buf.size) (hsize : buf.size < 2 ^ 31)
    (hpending : s.pendingBuf = none) :
    SplitsExactly env buf (s.onReadHttpRequest env buf) ↔ Countable env buf.readable := by
  have htail : (buf.readable.drop (env.parse buf.readable).nparsed).length =
      buf.readable.length - (env.parse buf.readable).nparsed := List.length_drop
  have hsame : announced env buf.readable = (env.parse buf.readable).contentLength.toNat -
      (buf.readable.drop (env.parse buf.readable).nparsed).length := by
    rw [announced, if_pos ⟨hok, hconnect⟩, htail]
  unfold SplitsExactly
  rw [onReadHttpRequest_of_ok hok hconnect, hsame]
  by_cases hgrow : ((env.parse buf.readable).reforgeHttpRequest env.canonUri []).length ≤
      (env.parse buf.readable).nparsed
  · obtain ⟨b, hb, hread⟩ := (rewritesExactly_iff env.junk hn _).mpr hgrow
    have hrewrite : cliRewriteRequest env.junk env.canonUri (env.parse buf.readable) buf = some b :=
      hb
    have hbound : buf.readable.length < 2 ^ 31 := by rwa [buf.length_readable]
    have hsplit := keepAliveSplit_exact_iff (s := s.parsed (env.parse buf.readable)) env.junk
      (env.parse buf.readable) hpending (rewriteHeader_offset hb) hread (by omega) (by omega)
    rw [htail] at hsplit
    rw [hrewrite, Option.bind_some]
    constructor
    · rintro ⟨s', buf', h, -, hexact⟩
      obtain ⟨p, hp, h⟩ := bind_eq_some_iff.mp h
      cases h
      obtain ⟨hlt, hbehind⟩ := hsplit.mp ⟨p.1, p.2, hp, hexact⟩
      exact ⟨hgrow, hlt, hbehind⟩
    intro h
    obtain ⟨s', buf', hp, hexact⟩ := hsplit.mpr ⟨h.length_lt, h.behind_le⟩
    exact ⟨s', buf', by rw [hp]; rfl, hexact.remaining, hexact⟩
  -- the buffer is longer than what it should hold
  refine iff_of_false ?_ fun h => hgrow h.reforged_le
  rintro ⟨s', buf', h, -, hexact⟩
  obtain ⟨b, hb, h⟩ := bind_eq_some_iff.mp h
  obtain ⟨p, hp, h⟩ := bind_eq_some_iff.mp h
  cases h
  have htotal := keepAliveSplit_total (s := s.parsed _) hpending (rewriteHeader_offset hb) hp
  have hlong := rewriteHeader_size hn hb
  have hforwarded := congrArg List.length hexact.forwarded
  have hkept := congrArg List.length hexact.kept
  have hbody : (bodyOf (env.parse buf.readable)
      (buf.readable.drop (env.parse buf.readable).nparsed)).length ≤
        (buf.readable.drop (env.parse buf.readable).nparsed).length := by
    unfold bodyOf
    split_ifs
    · exact List.length_take_le' _ _
    · exact le_rfl
  rw [List.length_append, GrowableIOBuffer.length_readable] at hforwarded
  rw [List.length_drop] at hkept
  rw [buf.length_readable] at htail
  omega

end Split

/-! ## One read of a body -/

/-- A read of a piece of a body: the body's part is sent on, the rest is kept back, and the count
goes down by what was sent on. -/
def TakesExactly (s : Connection) (buf : GrowableIOBuffer) (out : Option Connection) : Prop :=
  ∃ s' buf', out = some s' ∧ s'.remainingBytes = (s.remainingBytes.toNat - buf.size : ℕ) ∧
    s'.upstream = s.upstream ++ [buf'] ∧
    buf'.readable = buf.readable.take s.remainingBytes.toNat ∧
    s'.kept = buf.readable.drop s.remainingBytes.toNat

section Body

variable {env : Environment} {s s' : Connection} {buf : GrowableIOBuffer}

lemma readable_getD_held (bytes : List UInt8) :
    ((held bytes).map GrowableIOBuffer.readable).getD [] = bytes := by
  unfold held
  split_ifs with hnil
  · rw [hnil]
    rfl
  · exact GrowableIOBuffer.readable_copyBuffer bytes

lemma takesExactly_of_pos (hconnected : s.isConnected) (hkeep : s.isKeepAlive)
    (hpos : 0 < s.remainingBytes) (hpending : s.pendingBuf = none) (hoffset : buf.offset = 0) :
    TakesExactly s buf (s.afterRead env buf buf.size) := by
  -- only the number of the missing bytes matters
  set missing := List.replicate s.remainingBytes.toNat (0 : UInt8) with hmissing
  have hlength : missing.length = s.remainingBytes.toNat := List.length_replicate
  have hne : missing ≠ [] := by
    rw [← List.length_pos_iff, hlength]
    omega
  obtain ⟨buf', h, hread⟩ := afterRead_of_missing env hconnected hkeep hne
    (by rw [hlength]; omega) hpending hoffset
  rw [hlength] at h hread
  refine ⟨_, buf', h, ?_, rfl, hread, ?_⟩
  · show ((missing.drop buf.size).length : ℤ) = _
    rw [List.length_drop, hlength]
  · exact readable_getD_held _

end Body

/-! ## Runs -/

/-- The body bytes still to come after an event, if there were `n` before it: the bytes it hands on
start a request, or belong to the body of the last one. -/
def Connection.toCome (env : Environment) (s : Connection) (n : ℕ) (e : Event) : ℕ :=
  if s.closed then n
  else
    match s.hands e with
    | none => n
    | some b =>
      if s.streaming = false ∨ s.isKeepAlive = true ∧ n = 0 then announced env b
      else n - b.length

def counted (env : Environment) (p : Connection × ℕ) (e : Event) : Option (Connection × ℕ) :=
  (step env p.1 e).map fun s => (s, p.1.toCome env p.2 e)

/-- The bytes of the event are counted: at the start of a request the channel is connected, and the
request can be counted; behind it the connection is kept alive and connected, or nothing is to
come. -/
structure CountedBytes (env : Environment) (s : Connection) (b : List UInt8) : Prop where
  start : s.atStart → (s.streaming = true → s.isConnected = true) ∧
    ((env.parse b).ok = true → (env.parse b).isConnect = false → Countable env b)
  body : ¬ s.atStart → s.remainingBytes = 0 ∨ s.isConnected = true ∧ s.isKeepAlive = true

instance (env : Environment) (s : Connection) (b : List UInt8) : Decidable (CountedBytes env s b) :=
  decidable_of_iff (_ ∧ _) ⟨fun ⟨h₁, h₂⟩ => ⟨h₁, h₂⟩, fun ⟨h₁, h₂⟩ => ⟨h₁, h₂⟩⟩

structure Counted (s : Connection) (n : ℕ) : Prop where
  remaining : s.remainingBytes = n
  fresh : s.closed = false → s.streaming = false →
    s.isKeepAlive = false ∧ s.pendingBuf = none ∧ s.previousBuf = none
  pending_le : ∀ buf ∈ s.pendingBuf, buf.size ≤ socketBufSize
  previous : s.isKeepAlive = true → s.previousBuf = none

section Count

variable {env : Environment} {s s' : Connection} {buf buf' : GrowableIOBuffer} {n : ℕ}

lemma le_size_of_rewriteHeader {junk : ℕ → UInt8} {header : List UInt8}
    (h : rewriteHeader junk buf n header = some buf') : n ≤ buf.size := by
  simp only [rewriteHeader, Option.bind_eq_bind, bind_eq_some_iff] at h
  obtain ⟨b, hb, -⟩ := h
  have hle := (GrowableIOBuffer.setOffset_eq_some hb).1
  have hoffset := buf.offset_le
  unfold GrowableIOBuffer.size
  omega

/-- What `OnReadHttpRequest` leaves as it was. -/
structure SameChannel (s s' : Connection) : Prop where
  closed : s'.closed = s.closed
  streaming : s'.streaming = s.streaming
  previousBuf : s'.previousBuf = s.previousBuf
  channel : s'.channel = s.channel
  upstream : s'.upstream = s.upstream
  pendingData : s'.pendingData = s.pendingData

lemma keepAliveSplit_same {parser : HttpRequestParser} {header : List UInt8} {junk : ℕ → UInt8}
    (h : s.keepAliveSplit parser header junk buf = some (s', buf')) :
    SameChannel s s' ∧ s'.isConnect = s.isConnect ∧ s'.target = s.target := by
  unfold keepAliveSplit at h
  dsimp only at h
  split_ifs at h
  · obtain ⟨b, -, h⟩ := bind_eq_some_iff.mp h
    cases h
    exact ⟨⟨rfl, rfl, rfl, rfl, rfl, rfl⟩, rfl, rfl⟩
  · cases h
    exact ⟨⟨rfl, rfl, rfl, rfl, rfl, rfl⟩, rfl, rfl⟩

variable {accepted : Bool}

lemma onReadHttpRequest_same
    (h : s.onReadHttpRequest env buf = some (s', buf', accepted)) : SameChannel s s' := by
  unfold onReadHttpRequest at h
  dsimp only at h
  split_ifs at h
  · obtain ⟨b, -, h⟩ := bind_eq_some_iff.mp h
    cases h
    exact ⟨rfl, rfl, rfl, rfl, rfl, rfl⟩
  · obtain ⟨b, -, h⟩ := bind_eq_some_iff.mp h
    obtain ⟨p, hp, h⟩ := bind_eq_some_iff.mp h
    cases h
    obtain ⟨⟨hclosed, hstreaming, hprevious, hchannel, hupstream, hdata⟩, -⟩ :=
      keepAliveSplit_same hp
    exact ⟨hclosed, hstreaming, hprevious, hchannel, hupstream, hdata⟩
  · cases h
    exact ⟨rfl, rfl, rfl, rfl, rfl, rfl⟩

lemma onReadHttpRequest_parsed (h : s.onReadHttpRequest env buf = some (s', buf', accepted)) :
    accepted = (env.parse buf.readable).ok ∧
      (accepted = true → s'.isConnect = (env.parse buf.readable).isConnect ∧
        s'.target = ⟨(env.parse buf.readable).host, (env.parse buf.readable).port⟩) ∧
      (accepted = false ∨ s'.isConnect = true → s'.isKeepAlive = false) := by
  unfold onReadHttpRequest at h
  dsimp only at h
  split_ifs at h with hok hconnect
  · obtain ⟨b, -, h⟩ := bind_eq_some_iff.mp h
    cases h
    exact ⟨hok.symm, fun _ => ⟨rfl, rfl⟩, fun _ => rfl⟩
  · obtain ⟨b, -, h⟩ := bind_eq_some_iff.mp h
    obtain ⟨p, hp, h⟩ := bind_eq_some_iff.mp h
    cases h
    obtain ⟨-, hc, ht⟩ := keepAliveSplit_same hp
    refine ⟨hok.symm, fun _ => ⟨hc, ht⟩, ?_⟩
    rintro (hfalse | htrue)
    · cases hfalse
    · exact absurd (hc.symm.trans htrue) hconnect
  · cases h
    refine ⟨((Bool.not_eq_true _).mp hok).symm, ?_, fun _ => rfl⟩
    intro hfalse
    cases hfalse

lemma onReadHttpRequest_counted (h : s.onReadHttpRequest env buf = some (s', buf', accepted))
    (hcountable : (env.parse buf.readable).ok = true → (env.parse buf.readable).isConnect = false →
      Countable env buf.readable)
    (hsize : buf.size ≤ socketBufSize) (hpending : s.pendingBuf = none) :
    s'.remainingBytes = announced env buf.readable ∧
      ∀ b ∈ s'.pendingBuf, b.size ≤ socketBufSize := by
  by_cases hok : (env.parse buf.readable).ok
  swap
  · have hnone : announced env buf.readable = 0 := if_neg fun h => hok h.1
    simp only [onReadHttpRequest, hok, if_false, Bool.false_eq_true] at h
    cases h
    exact ⟨hnone.symm ▸ rfl, by simp [hpending]⟩
  by_cases hconnect : (env.parse buf.readable).isConnect
  · have hnone : announced env buf.readable = 0 := if_neg fun h => by simp [hconnect] at h
    simp only [onReadHttpRequest, hok, hconnect, if_true] at h
    obtain ⟨b, -, h⟩ := bind_eq_some_iff.mp h
    cases h
    exact ⟨hnone.symm ▸ rfl, by simp [hpending]⟩
  rw [Bool.not_eq_true] at hconnect
  have hn : (env.parse buf.readable).nparsed ≤ buf.size := by
    rw [onReadHttpRequest_of_ok hok hconnect] at h
    obtain ⟨b, hb, -⟩ := bind_eq_some_iff.mp h
    exact le_size_of_rewriteHeader hb
  have hlt : buf.size < 2 ^ 31 := lt_of_le_of_lt hsize (by decide)
  obtain ⟨s₁, buf₁, h₁, hremaining, hexact⟩ :=
    (splitsExactly_iff hok hconnect hn hlt hpending).mpr (hcountable hok hconnect)
  rw [h] at h₁
  cases h₁
  refine ⟨hremaining, ?_⟩
  intro b hb
  have hkept := hexact.kept
  rw [kept, Option.mem_def.mp hb] at hkept
  have hlen := congrArg List.length hkept
  simp only [Option.map_some, Option.getD_some, List.length_drop,
    GrowableIOBuffer.length_readable] at hlen
  omega

lemma counted_of_streaming (hstreaming : s.streaming) (hremaining : s.remainingBytes = n)
    (hpending : ∀ b ∈ s.pendingBuf, b.size ≤ socketBufSize)
    (hprevious : s.isKeepAlive = true → s.previousBuf = none) : Counted s n where
  remaining := hremaining
  fresh _ h := by
    rw [hstreaming] at h
    cases h
  pending_le := hpending
  previous := hprevious

lemma onStreamRead_same (s : Connection) (buf : GrowableIOBuffer) :
    (s.onStreamRead buf).streaming = s.streaming ∧
      (s.onStreamRead buf).remainingBytes = s.remainingBytes ∧
      (s.onStreamRead buf).pendingBuf = s.pendingBuf ∧
      (s.onStreamRead buf).isKeepAlive = s.isKeepAlive ∧
      (s.onStreamRead buf).previousBuf = s.previousBuf := by
  unfold onStreamRead
  split_ifs <;> exact ⟨rfl, rfl, rfl, rfl, rfl⟩

lemma performCmdOpsHttp_same (h : s.performCmdOpsHttp env = some s') :
    s' = { s with channel := some ⟨env.request s.target, false, false⟩ } := by
  unfold performCmdOpsHttp at h
  split_ifs at h
  cases h
  rfl

lemma afterReuse_counted (hstreaming : s.streaming)
    (hcountable : (env.parse buf.readable).ok = true → (env.parse buf.readable).isConnect = false →
      Countable env buf.readable)
    (hsize : buf.size ≤ socketBufSize) (hpending : s.pendingBuf = none)
    (hprevious : s.previousBuf = none) {r : Connection.Reuse}
    (h : s.onReadHttpRequestAfterReuse env buf = some r) :
    match r with
    | .same s' _ | .reopened s' => Counted s' (announced env buf.readable)
    | .invalid s' _ => s'.streaming = true ∧ s'.isKeepAlive = false ∧
        Counted s' (announced env buf.readable) := by
  unfold onReadHttpRequestAfterReuse at h
  obtain ⟨⟨s₁, buf₁, accepted⟩, h₁, h⟩ := bind_eq_some_iff.mp h
  obtain ⟨hremaining, hkept⟩ := onReadHttpRequest_counted h₁ hcountable hsize hpending
  obtain ⟨-, -, hoff⟩ := onReadHttpRequest_parsed h₁
  have hsame := onReadHttpRequest_same h₁
  have hstreaming₁ : s₁.streaming = true := hsame.streaming.trans hstreaming
  have hprevious₁ : s₁.previousBuf = none := hsame.previousBuf.trans hprevious
  have hcounted := counted_of_streaming hstreaming₁ hremaining hkept fun _ => hprevious₁
  cases accepted with
  | false =>
    cases h
    exact ⟨hstreaming₁, hoff (Or.inl rfl), hcounted⟩
  | true =>
    dsimp only at h
    split_ifs at h with hconnect hother
    · cases h
      exact ⟨hstreaming₁, hoff (Or.inr hconnect), hcounted⟩
    · obtain ⟨s₂, hs₂, h⟩ := bind_eq_some_iff.mp h
      cases h
      obtain ⟨hst, hrem, hpend, hkeep, hprev⟩ :=
        onStreamRead_same { s₁ with channel := none } buf₁
      have hs₂ := performCmdOpsHttp_same hs₂
      subst hs₂
      refine counted_of_streaming (hst.trans hstreaming₁) (hrem.trans hremaining) ?_
        fun _ => hprev.trans hprevious₁
      rw [hpend]
      exact hkept
    · cases h
      exact hcounted

lemma afterRead_counted (hstreaming : s.streaming) (hremaining : s.remainingBytes = n)
    (hnone : s.isKeepAlive = true → s.pendingBuf = none)
    (hpending : ∀ b ∈ s.pendingBuf, b.size ≤ socketBufSize)
    (hprevious : s.isKeepAlive = true → s.previousBuf = none) (hsize : buf.size ≤ socketBufSize)
    (hbytes : CountedBytes env s buf.readable) (h : s.afterRead env buf buf.size = some s') :
    Counted s' (if s.isKeepAlive = true ∧ n = 0 then announced env buf.readable
      else n - buf.size) := by
  have hstart : s.atStart ↔ s.isKeepAlive = true ∧ n = 0 := by
    simp [atStart, hstreaming, hremaining]
  unfold afterRead at h
  by_cases hconnected : s.isConnected
  swap
  · -- nothing is to come, or the bytes would not be counted
    have hnot : ¬ s.atStart := fun h => hconnected ((hbytes.start h).1 hstreaming)
    have hzero := (hbytes.body hnot).resolve_right fun h => hconnected h.1
    rw [if_pos (by simpa using hconnected)] at h
    cases h
    rw [if_neg (by rwa [← hstart])]
    obtain ⟨hst, hrem, hpend, hkeep, hprev⟩ := onStreamRead_same s buf
    refine counted_of_streaming (hst.trans hstreaming) ?_ ?_ ?_
    · show (s.onStreamRead buf).remainingBytes = _
      rw [hrem, hremaining]
      omega
    · show ∀ b ∈ (s.onStreamRead buf).pendingBuf, _
      rw [hpend]
      exact hpending
    show (s.onStreamRead buf).isKeepAlive = true → (s.onStreamRead buf).previousBuf = none
    rw [hkeep, hprev]
    exact hprevious
  rw [if_neg (by simp [hconnected])] at h
  by_cases hkeep : s.isKeepAlive
  swap
  · have hnot : ¬ s.atStart := fun h => hkeep (hstart.mp h).1
    have hzero := (hbytes.body hnot).resolve_right fun h => hkeep h.2
    rw [if_neg hkeep] at h
    cases h
    rw [if_neg (by rwa [← hstart])]
    refine counted_of_streaming hstreaming ?_ hpending hprevious
    show s.remainingBytes = _
    omega
  rw [if_pos hkeep] at h
  by_cases hzero : s.remainingBytes = 0
  · have hatStart : s.isKeepAlive = true ∧ n = 0 := ⟨hkeep, by omega⟩
    rw [if_pos hzero] at h
    rw [if_pos hatStart]
    obtain ⟨r, hr, h⟩ := bind_eq_some_iff.mp h
    have hcounted := afterReuse_counted hstreaming (hbytes.start (hstart.mpr hatStart)).2 hsize
      (hnone hkeep) (hprevious hkeep) hr
    cases r with
    | same s₁ buf₁ =>
      cases h
      exact { hcounted with }
    | invalid s₁ buf₁ =>
      obtain ⟨hst, hoff, hcounted⟩ := hcounted
      dsimp only at h
      split_ifs at h
      · cases h
        refine counted_of_streaming hst hcounted.remaining hcounted.pending_le ?_
        intro hkept
        rw [hoff] at hkept
        cases hkept
      · cases h
        exact hcounted
    | reopened s₁ =>
      cases h
      exact { hcounted with }
  have hnot : ¬ (s.isKeepAlive = true ∧ n = 0) := by omega
  rw [if_neg hzero] at h
  rw [if_neg hnot]
  split_ifs at h with hless hneg
  · obtain ⟨b, -, h⟩ := bind_eq_some_iff.mp h
    cases h
    refine counted_of_streaming hstreaming ?_ ?_ hprevious
    · simp only
      omega
    · rintro b ⟨⟩
      rw [← GrowableIOBuffer.length_readable, GrowableIOBuffer.readable_copyBuffer,
        List.length_drop, buf.length_readable]
      omega
  · cases h
    refine counted_of_streaming hstreaming ?_ hpending hprevious
    simp only
    omega

lemma getNextUpstreamBuf_counted (hs : Counted s n) (hopen : s.closed = false)
    (hstreaming : s.streaming) {outcome : ReadOutcome} (henabled : Enabled s (.pull outcome))
    (hbytes : ∀ b ∈ s.hands (.pull outcome), CountedBytes env s b)
    (h : s.getNextUpstreamBuf env outcome = some s') :
    Counted s' (s.toCome env n (.pull outcome)) := by
  have hupstream : s.upstream = [] := by
    cases outcome with
    | data b => exact (henabled.2 hstreaming).1
    | wouldBlock | error => exact (henabled hstreaming).1
  have hfree : ¬ s.upstream ≠ [] := not_not.mpr hupstream
  rw [getNextUpstreamBuf, if_neg hfree] at h
  simp only [toCome, hopen, hstreaming, Bool.false_eq_true, Bool.true_eq_false,
    if_false, false_or]
  cases hresumed : s.resumed with
  | some buf =>
    simp only [hresumed] at h
    have hhands : s.hands (.pull outcome) = some buf.readable := by
      simp [hands, hresumed]
    have hbuf : s.pendingBuf = some buf := by
      unfold resumed at hresumed
      split_ifs at hresumed
      exact hresumed
    have hcounted := afterRead_counted (s := { s with pendingBuf := none }) hstreaming
      hs.remaining (fun _ => rfl) (fun b hb => by cases hb) hs.previous (hs.pending_le buf hbuf)
      { hbytes buf.readable hhands with } h
    simp only [hhands, buf.length_readable]
    exact hcounted
  | none =>
    simp only [hresumed] at h
    have hnone : s.isKeepAlive = true → s.pendingBuf = none := by
      intro hkeep
      simpa [resumed, hkeep] using hresumed
    -- the buffer of an earlier read is not there while the connection is kept alive
    have hdropped : (if s.isKeepAlive then { s with previousBuf := none } else s) = s := by
      split_ifs with hkeep
      · have hprevious := hs.previous hkeep
        cases s
        simp only at hprevious
        rw [hprevious]
      · rfl
    rw [hdropped] at h
    cases outcome with
    | wouldBlock =>
      cases h
      simp only [hands, hresumed, reads]
      exact { hs with }
    | error =>
      cases h
      simp only [hands, hresumed, reads]
      exact { hs with fresh := fun hopen => by cases hopen }
    | data bytes =>
      obtain ⟨buf, hbuf, h⟩ := bind_eq_some_iff.mp h
      have hhands : s.hands (.pull (.data bytes)) = some bytes := by
        simp [hands, reads, hresumed]
      have hnew : GrowableIOBuffer.readSome env.junk socketBufSize bytes = some buf := by
        cases hkeep : s.isKeepAlive with
        | false => simpa [Connection.readBuffer, hkeep] using hbuf
        | true => simpa [Connection.readBuffer, hkeep, hs.previous hkeep] using hbuf
      obtain ⟨hread, -⟩ := GrowableIOBuffer.readSome_eq_some hnew
      have hlength : buf.size = bytes.length := by rw [← buf.length_readable, hread]
      have hbytes' : CountedBytes env (s.receive bytes) buf.readable := by
        rw [hread]
        exact { hbytes bytes hhands with }
      have hle : buf.size ≤ socketBufSize := by
        rw [hlength]
        exact henabled.1.2
      rw [← hlength] at h
      have hcounted := afterRead_counted (s := s.receive bytes) hstreaming hs.remaining hnone
        hs.pending_le hs.previous hle hbytes' h
      rw [hread, hlength] at hcounted
      simp only [hhands]
      exact hcounted

lemma readMethodSelect_counted (hs : Counted s n) (hopen : s.closed = false)
    (hstreaming : s.streaming = false) {outcome : ReadOutcome}
    (henabled : Enabled s (.pull outcome))
    (hbytes : ∀ b ∈ s.hands (.pull outcome), CountedBytes env s b)
    (h : s.readMethodSelect env outcome = some s') :
    Counted s' (s.toCome env n (.pull outcome)) := by
  obtain ⟨hkeep, hpending, hprevious⟩ := hs.fresh hopen hstreaming
  have hresumed : s.resumed = none := by simp [Connection.resumed, hkeep]
  simp only [toCome, hopen, hstreaming, Bool.false_eq_true, if_false, true_or, if_true]
  cases outcome with
  | wouldBlock =>
    cases h
    simp only [hands, hresumed, reads]
    exact hs
  | error =>
    cases h
    simp only [hands, hresumed, reads]
    exact { hs with fresh := fun hopen => by cases hopen }
  | data bytes =>
    have hhands : s.hands (.pull (.data bytes)) = some bytes := by
      simp [hands, reads, hresumed]
    simp only [hhands]
    obtain ⟨buf, hbuf, h⟩ := bind_eq_some_iff.mp h
    obtain ⟨⟨s₁, buf₁, accepted⟩, h₁, h⟩ := bind_eq_some_iff.mp h
    obtain ⟨hread, -⟩ := GrowableIOBuffer.readSome_eq_some hbuf
    have hlength : buf.size = bytes.length := by rw [← buf.length_readable, hread]
    have hcountable := ((hbytes bytes hhands).start (Or.inl hstreaming)).2
    have hle : buf.size ≤ socketBufSize := by
      rw [hlength]
      exact henabled.1.2
    rw [← hread] at hcountable
    obtain ⟨hremaining, hkept⟩ := onReadHttpRequest_counted h₁ hcountable hle hpending
    have hsame := onReadHttpRequest_same h₁
    rw [hread] at hremaining
    have hprevious₁ : s₁.previousBuf = none := hsame.previousBuf.trans hprevious
    have hclosed : Counted s₁.onDisconnect (announced env bytes) := {
      remaining := hremaining
      fresh := fun hopen => by cases hopen
      pending_le := hkept
      previous := fun _ => hprevious₁ }
    cases accepted with
    | false =>
      cases h
      exact hclosed
    | true =>
      dsimp only at h
      split at h
      · cases h
        exact hclosed
      rename_i s₂ hs₂
      cases h
      have hs₂ := performCmdOpsHttp_same hs₂
      subst hs₂
      split_ifs
      · exact counted_of_streaming rfl hremaining hkept fun _ => hprevious₁
      obtain ⟨hst, hrem, hpend, -, hprev⟩ := onStreamRead_same { s₁ with
        channel := some ⟨env.request s₁.target, false, false⟩
        streaming := true } buf₁
      refine counted_of_streaming hst (hrem.trans hremaining) ?_
        fun _ => hprev.trans hprevious₁
      rw [hpend]
      exact hkept

lemma writeUpstream_counted (hs : Counted s n) {k : ℕ} (h : s.writeUpstream k = some s') :
    Counted s' n := by
  unfold writeUpstream at h
  split at h
  · split_ifs at h
    · obtain ⟨b, -, h⟩ := bind_eq_some_iff.mp h
      cases h
      exact { hs with }
    · cases h
      exact hs
  · cases h
    exact hs

lemma Counted.step (hs : Counted s n) {e : Event} (henabled : Enabled s e)
    (hbytes : ∀ b ∈ s.hands e, CountedBytes env s b) (h : step env s e = some s') :
    Counted s' (s.toCome env n e) := by
  unfold Yass.Cli.step at h
  by_cases hclosed : s.closed
  · rw [if_pos hclosed] at h
    cases h
    rwa [Connection.toCome, if_pos hclosed]
  rw [if_neg hclosed] at h
  rw [Bool.not_eq_true] at hclosed
  have hother : s.hands e = none → s.toCome env n e = n := by
    intro hnone
    simp [toCome, hclosed, hnone]
  cases e with
  | pull outcome =>
    dsimp only at h
    split_ifs at h with hstreaming
    · exact getNextUpstreamBuf_counted hs hclosed hstreaming henabled hbytes h
    · rw [Bool.not_eq_true] at hstreaming
      exact readMethodSelect_counted hs hclosed hstreaming henabled hbytes h
  | connected =>
    cases h
    rw [hother rfl]
    exact { hs with }
  | write k =>
    rw [hother rfl]
    exact writeUpstream_counted hs h
  | writeFailed =>
    cases h
    rw [hother rfl]
    exact { hs with fresh := fun hopen => by cases hopen }
  | lost =>
    cases h
    rw [hother rfl]
    exact { hs with }

lemma counted_of_run {es es₁ : List Event} {p : Connection × ℕ}
    (hes : Run.Along (counted env)
      (fun p e => Enabled p.1 e ∧ ∀ b ∈ p.1.hands e, CountedBytes env p.1 b) (start, 0) es)
    (hpre : es₁ <+: es) (hrun : Run.exec (counted env) (start, 0) es₁ = some p) :
    Counted p.1 p.2 := by
  have hstart : Counted start 0 := {
    remaining := rfl
    fresh := fun _ _ => ⟨rfl, rfl, rfl⟩
    pending_le := fun _ h => by cases h
    previous := fun _ => rfl }
  refine Run.reached_invariant (I := fun p => Counted p.1 p.2) ?_ hstart hes hpre hrun
  rintro ⟨s, n⟩ e ⟨s', n'⟩ hs ⟨henabled, hbytes⟩ h
  obtain ⟨s₁, hs₁, h⟩ := Option.map_eq_some_iff.mp h
  cases h
  exact hs.step henabled hbytes hs₁

end Count

def sampleBodyReads : List Event :=
  [.pull (.data (sampleHeader 97 53 ++ [33])), .connected, .write 62, .pull (.data [33, 33])]

/-- The fields `Host` and `Content-Length`, and `Connection: Close` for a request that is not to be
kept alive. -/
def postFields (host digits : List UInt8) (keepAlive : Bool) : List (List UInt8 × List UInt8) :=
  [([72, 111, 115, 116], host),
    ([67, 111, 110, 116, 101, 110, 116, 45, 76, 101, 110, 103, 116, 104], digits)] ++
      (if keepAlive then []
        else [([67, 111, 110, 110, 101, 99, 116, 105, 111, 110], [67, 108, 111, 115, 101])])

/-- `POST / HTTP/1.1` with these fields. -/
def postHeader (host digits : List UInt8) (keepAlive : Bool) : List UInt8 :=
  [80, 79, 83, 84, 32, 47, 32, 72, 84, 84, 80, 47, 49, 46, 49] ++ crlf ++
    ((postFields host digits keepAlive).map headerLine).flatten ++ crlf

/-- What the parser says about it: a request of HTTP/1.1 is kept alive unless it says otherwise. -/
def postParsed (host digits : List UInt8) (keepAlive : Bool) : HttpRequestParser where
  nparsed := (postHeader host digits keepAlive).length
  ok := true
  method := [80, 79, 83, 84]
  httpUrl := [47]
  versionInput := [72, 84, 84, 80, 47, 49, 46, 49]
  httpHeaders := postFields host digits keepAlive
  host := host
  port := 80
  isConnect := false
  contentLength := .ofNat (digits.foldl (fun n d => 10 * n + (d.toNat - 48)) 0)
  connection := if keepAlive then keepAliveText else [67, 108, 111, 115, 101]
  proxyAuthorization := []
  transferEncodingIsChunked := false

def parseKnown (known : List (List UInt8 × HttpRequestParser)) (b : List UInt8) :
    HttpRequestParser :=
  ((known.find? fun k => k.1.isPrefixOf b).map Prod.snd).getD
    { postParsed [] [] true with ok := false }

lemma domainName_id (host : List UInt8) : id (id host) = id host := rfl

def knownEnvironment (known : List (List UInt8 × HttpRequestParser)) : Environment where
  parse := parseKnown known
  canonUri := id
  domainName := id
  domainName_domainName := domainName_id
  junk _ := 0

/-- `9223372036854775808`, which is `2^63`. -/
def digitsHalf : List UInt8 :=
  [57, 50, 50, 51, 51, 55, 50, 48, 51, 54, 56, 53, 52, 55, 55, 53, 56, 48, 56]

/-- `18446744073709551550`, which is `2^64` less the length of the header that carries it. -/
def digitsWrap : List UInt8 :=
  [49, 56, 52, 52, 54, 55, 52, 52, 48, 55, 51, 55, 48, 57, 53, 53, 49, 53, 53, 48]

/-- What becomes of a buffer with one such request for `a`, and `tail` behind its header. -/
def readPost (digits : List UInt8) (keepAlive : Bool) (tail : List UInt8) :
    Option (Connection × GrowableIOBuffer × Bool) :=
  start.onReadHttpRequest
    (knownEnvironment [(postHeader [97] digits keepAlive, postParsed [97] digits keepAlive)])
    (.copyBuffer (postHeader [97] digits keepAlive ++ tail))

end Yass.Cli
