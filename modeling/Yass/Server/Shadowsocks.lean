import Yass.Lib.Run
import Yass.Net.CipherWire
import Yass.Net.SsRequest

/-!
# The Shadowsocks server: handshake and relay towards the target

The part of `ServerConnection` that runs for a Shadowsocks method: `ReadHandshake` until the request
has been parsed, then `GetNextUpstreamBuf`/`WriteUpstreamInPipe`.

* `Event`, `step` — a read of the client socket, a read that would block, the completion of the
  connect, and a write of some bytes to the target. `none` is an abort.
* `Enabled` — the events that can happen in a state: a socket read gives at least one byte and at
  most what fits the buffer, and in the relay it happens only while the upstream queue is empty.

Errors of either socket are left out. The bytes behind the decrypted ones are an arbitrary function
`beyond`: the parser is given the length of the ciphertext read, and may look at them.

Source: `server/server_connection.cpp`.
-/

namespace Yass.Server.Shadowsocks

open Yass.Net Yass.Crypto
open Option (bind_eq_bind bind_some)
open GrowableIOBuffer (length_readable setOffset_add)

inductive State where
  | handshake
  | stream
  deriving DecidableEq, Repr

/-- `channel_`: the connection to the target. -/
structure Channel where
  request : Ss.Request
  connected : Bool
  written : List UInt8

/-- The state of a `ServerConnection` with a Shadowsocks method. -/
structure Connection where
  decoder : Cipher
  state : State
  /-- `closed_` and `closing_`, which are set together. -/
  closed : Bool
  handshake : Option GrowableIOBuffer
  request : Ss.Request
  upstream : List GrowableIOBuffer
  channel : Option Channel
  /-- For each parse, the extent it looked at and the number of decrypted bytes. -/
  interpreted : List (ℕ × ℕ)

namespace Connection

/-- `Start` for a Shadowsocks method. -/
def start (E : CipherEnv) (m : CipherMethod) (password : List UInt8) : Connection where
  decoder := Cipher.create E m password
  state := .handshake
  closed := false
  handshake := none
  request := .empty
  upstream := []
  channel := none
  interpreted := []

def onDisconnect (s : Connection) : Connection := { s with closed := true }

/-- The value `on_received_data` returns for the last of these deliveries. `state_` does not change
during a call of `process_bytes`. -/
def accepts (s : Connection) (deliveries : List (List UInt8)) : Bool :=
  match s.state with
  | .stream => deliveries.getLast?.any fun data => !data.isEmpty
  | .handshake => true

/-- The effect of `on_received_data`. -/
def onReceivedData (E : CipherEnv) (s : Connection) (buf : GrowableIOBuffer) :
    Option Connection :=
  match s.state with
  | .stream => some (if buf.isEmpty then s else { s with upstream := s.upstream ++ [buf] })
  | .handshake =>
    match s.handshake with
    | some previousChunk => do
      let handshake ← GrowableIOBuffer.concat E.junk previousChunk buf
      some { s with handshake := some handshake }
    | none => some { s with handshake := some buf }

def visit (E : CipherEnv) (s : Connection) : Cipher.VisitorEvent → Option Connection
  | .receivedData data => s.onReceivedData E (.copyBuffer data)
  | .protocolError => some s.onDisconnect

/-- `decoder_->process_bytes(buf)`, with the connection as the visitor. -/
def processBytes (E : CipherEnv) (s : Connection) (buf : GrowableIOBuffer) : Option Connection := do
  let (decoder, events) ← s.decoder.processBytes E s.accepts [] buf
  events.foldlM (visit E) { s with decoder := decoder }

/-- `OnConnect`: the channel is opened for `request_`. -/
def onConnect (s : Connection) : Connection :=
  { s with channel := some ⟨s.request, false, []⟩ }

def onUpstreamWrite (s : Connection) (buf : GrowableIOBuffer) : Connection :=
  if buf.isEmpty then s else { s with upstream := s.upstream ++ [buf] }

/-- `ProcessReceivedData` without an error. -/
def processReceivedData (s : Connection) (buf : GrowableIOBuffer) : Connection :=
  match s.state with
  | .handshake => ({ s with state := .stream }.onConnect).onUpstreamWrite buf
  | .stream => s.onUpstreamWrite buf

/-- The memory at `buf->data()`: the bytes of the buffer, and what happens to follow them. -/
def memory (beyond : ℕ → UInt8) (buf : GrowableIOBuffer) (i : ℕ) : UInt8 :=
  (buf.readable[i]?).getD (beyond i)

def invalid (r : Ss.Request) : Bool :=
  r.port == 0 || (r.addressType == some .domain && r.address.isEmpty) ||
    (r.addressType != some .domain && r.address.all (· == 0))

/-- The second half of the callback of `ReadHandshake`: `handshake_` is `buf`, and the socket read
gave `bytesTransferred` bytes. The parser is told that as many bytes are there as the socket gave,
not as many as were decrypted. -/
def parseHandshake (beyond : ℕ → UInt8) (s : Connection) (buf : GrowableIOBuffer)
    (bytesTransferred : ℕ) : Option Connection :=
  let p := Ss.parse s.request (memory beyond buf) bytesTransferred
  let s := { s with request := p.req, interpreted := s.interpreted ++ [(p.extent, buf.size)] }
  if p.result = .good then do
    let buf ← buf.setOffset (buf.offset + p.req.length)
    let s := { s with handshake := some buf }
    if invalid p.req then some s.onDisconnect else some (s.processReceivedData buf)
  else some s.onDisconnect

/-- The callback of `ReadHandshake`, after a read of `bytes`. -/
def readHandshake (E : CipherEnv) (beyond : ℕ → UInt8) (s : Connection) (bytes : List UInt8) :
    Option Connection := do
  let cipherbuf ← GrowableIOBuffer.readSome E.junk socketDebufSize bytes
  let s ← s.processBytes E cipherbuf
  match s.handshake with
  | none => some s
  | some buf => s.parseHandshake beyond buf bytes.length

/-- The read of `GetNextUpstreamBuf`. -/
def getNextUpstreamBuf (E : CipherEnv) (s : Connection) (bytes : List UInt8) :
    Option Connection := do
  let buf ← GrowableIOBuffer.readSome E.junk socketDebufSize bytes
  s.processBytes E buf

/-- `write_some` of the front of the queue, which took `n` bytes. -/
def writeUpstream (s : Connection) (n : ℕ) : Option Connection :=
  match s.upstream, s.channel with
  | buf :: rest, some channel => do
    let channel := { channel with written := channel.written ++ buf.readable.take n }
    let buf ← buf.setOffset (buf.offset + n)
    some { s with
      channel := some channel
      upstream := if buf.isEmpty then rest else buf :: rest }
  | _, _ => some s

def connected (s : Connection) : Connection :=
  { s with channel := s.channel.map fun channel => { channel with connected := true } }

end Connection

/-! ## Runs -/

inductive Event where
  | read (bytes : List UInt8)
  | wouldBlock
  | connected
  | write (n : ℕ)
  deriving DecidableEq, Repr

def step (E : CipherEnv) (beyond : ℕ → UInt8) (s : Connection) : Event → Option Connection
  | .read bytes =>
    if s.closed then some s
    else
      match s.state with
      | .handshake => s.readHandshake E beyond bytes
      | .stream => s.getNextUpstreamBuf E bytes
  | .wouldBlock => some s
  | .connected => if s.closed then some s else some s.connected
  | .write n => if s.closed then some s else s.writeUpstream n

def Enabled (s : Connection) : Event → Prop
  | .read bytes => bytes ≠ [] ∧ bytes.length ≤ socketDebufSize ∧
      (s.closed = false → s.state = .stream → s.upstream = [])
  | .wouldBlock => True
  | .connected => s.channel.isSome
  | .write n => ∃ channel buf rest, s.channel = some channel ∧ channel.connected = true ∧
      s.upstream = buf :: rest ∧ n ≤ buf.size

def reads (es : List Event) : List (List UInt8) :=
  es.filterMap fun
    | .read bytes => some bytes
    | _ => none

/-! ## The visitor -/

section Visitor

variable {E : CipherEnv} {s : Connection}

/-- The bytes in `handshake_`. -/
def Connection.gathered (s : Connection) : List UInt8 :=
  (s.handshake.map GrowableIOBuffer.readable).getD []

lemma visit_handshake (hstate : s.state = .handshake) (pieces : List (List UInt8)) :
    ∃ handshake, (pieces.map Cipher.VisitorEvent.receivedData).foldlM (Connection.visit E) s =
        some { s with handshake := handshake } ∧
      { s with handshake := handshake }.gathered = s.gathered ++ pieces.flatten ∧
      (handshake = none ↔ s.handshake = none ∧ pieces = []) := by
  induction pieces generalizing s with
  | nil => exact ⟨s.handshake, rfl, by simp, by simp⟩
  | cons p pieces ih =>
    obtain ⟨first, hfirst, hread⟩ : ∃ first : GrowableIOBuffer,
        s.visit E (.receivedData p) = some { s with handshake := some first } ∧
        first.readable = s.gathered ++ p := by
      unfold Connection.visit Connection.onReceivedData Connection.gathered
      rw [hstate]
      cases hbuf : s.handshake with
      | none => exact ⟨.copyBuffer p, by simp, by simp⟩
      | some previous =>
        obtain ⟨chunk, hchunk, hread, -⟩ :=
          GrowableIOBuffer.concat_spec E.junk previous (.copyBuffer p)
        exact ⟨chunk, by simp [hchunk], by simpa using hread⟩
    obtain ⟨handshake, hrest, hgot, hnone⟩ :=
      ih (s := { s with handshake := some first }) hstate
    refine ⟨handshake, ?_, ?_, ?_⟩
    · rw [List.map_cons, List.foldlM_cons, hfirst]
      exact hrest
    · have hstart : { s with handshake := some first }.gathered = first.readable := rfl
      rw [hstart, hread] at hgot
      rw [List.flatten_cons, ← List.append_assoc]
      exact hgot
    · simpa using hnone

lemma visit_stream (hstate : s.state = .stream) {pieces : List (List UInt8)}
    (hne : ∀ p ∈ pieces, p ≠ []) :
    (pieces.map Cipher.VisitorEvent.receivedData).foldlM (Connection.visit E) s =
      some { s with upstream := s.upstream ++ pieces.map GrowableIOBuffer.copyBuffer } := by
  induction pieces generalizing s with
  | nil => simp
  | cons p pieces ih =>
    have hp : ¬ (GrowableIOBuffer.copyBuffer p).isEmpty = true := by
      rw [GrowableIOBuffer.isEmpty_iff, GrowableIOBuffer.readable_copyBuffer]
      exact hne p (List.mem_cons_self ..)
    have hfirst : s.visit E (.receivedData p) =
        some { s with upstream := s.upstream ++ [.copyBuffer p] } := by
      simp [Connection.visit, Connection.onReceivedData, hstate, hp]
    have hrest := ih (s := { s with upstream := s.upstream ++ [.copyBuffer p] }) hstate
      fun q hq => hne q (List.mem_cons_of_mem _ hq)
    rw [List.map_cons, List.foldlM_cons, hfirst, bind_eq_bind, bind_some, hrest]
    simp

lemma accepts_append (s : Connection) (l : List (List UInt8)) (p : List UInt8) (hp : p ≠ []) :
    s.accepts (l ++ [p]) = true := by
  unfold Connection.accepts
  cases s.state <;> simp [hp]

end Visitor

/-! ## The phases of a connection -/

section Phases

variable (E : CipherEnv) (m : CipherMethod) (master : List UInt8)

structure Waiting (s : Connection) (got : List UInt8) : Prop where
  closed_eq : s.closed = false
  state_eq : s.state = .handshake
  handshake_eq : s.handshake = none
  request_eq : s.request = .empty
  upstream_eq : s.upstream = []
  channel_eq : s.channel = none
  interpreted_eq : s.interpreted = []
  decodedAll : Cipher.DecodedAll E m master s.decoder got
  nothing : Cipher.decoded E m master got = []

def Connection.forwarded (s : Connection) : List UInt8 :=
  ((s.channel.map Channel.written).getD []) ++ (s.upstream.map GrowableIOBuffer.readable).flatten

/-- The connection relays: its channel was opened for the destination, and what has been decrypted
behind the header has been forwarded. -/
structure Relaying (dest : Ss.Destination) (s : Connection) (got : List UInt8) : Prop where
  closed_eq : s.closed = false
  state_eq : s.state = .stream
  channel_eq : ∃ channel, s.channel = some channel ∧ channel.request.Denotes dest
  forwarded_eq : s.forwarded = (Cipher.decoded E m master got).drop dest.header.length
  long : dest.header.length ≤ (Cipher.decoded E m master got).length
  interpreted_le : ∀ p ∈ s.interpreted, p.1 ≤ p.2
  decodedAll : Cipher.DecodedAll E m master s.decoder got

variable {E m master} {s : Connection} {got bytes : List UInt8}

lemma waiting_start (password : List UInt8) :
    Waiting E m (deriveKey E.hashes password m.keySize) (Connection.start E m password) [] :=
  ⟨rfl, rfl, rfl, rfl, rfl, rfl, rfl, Cipher.decodedAll_create password, Cipher.decoded_nil⟩

lemma Waiting.readHandshake (h : Waiting E m master s got) (beyond : ℕ → UInt8)
    (hfit : bytes.length ≤ socketDebufSize) (hclean : Cipher.Clean E m master (got ++ bytes)) :
    ∃ decoder, Cipher.DecodedAll E m master decoder (got ++ bytes) ∧
      if Cipher.decoded E m master (got ++ bytes) = [] then
        s.readHandshake E beyond bytes = some { s with decoder := decoder }
      else
        ∃ buf : GrowableIOBuffer, buf.readable = Cipher.decoded E m master (got ++ bytes) ∧
          s.readHandshake E beyond bytes =
            { s with decoder := decoder, handshake := some buf }.parseHandshake beyond buf
              bytes.length := by
  obtain ⟨cipherbuf, hread, hbytes, -⟩ := GrowableIOBuffer.readSome_spec E.junk hfit
  rw [← hbytes] at hclean
  obtain ⟨decoder, pieces, hrun, hdec, hne, hplain⟩ :=
    h.decodedAll.processBytes (accepts_append s) cipherbuf hclean
  rw [hbytes] at hdec hplain
  rw [h.nothing, List.nil_append] at hplain
  obtain ⟨handshake, hvisit, hgathered, hnone⟩ :=
    visit_handshake (E := E) (s := { s with decoder := decoder }) h.state_eq pieces
  refine ⟨decoder, hdec, ?_⟩
  have hcall : s.processBytes E cipherbuf =
      some { s with decoder := decoder, handshake := handshake } := by
    rw [Connection.processBytes, hrun]
    exact hvisit
  have hempty : Cipher.decoded E m master (got ++ bytes) = [] ↔ pieces = [] := by
    rw [hplain, List.flatten_eq_nil_iff]
    constructor
    · intro hall
      exact List.eq_nil_iff_forall_not_mem.mpr fun p hp => hne p hp (hall p hp)
    · rintro rfl
      simp
  split_ifs with hd
  · have hnil : handshake = none := hnone.mpr ⟨h.handshake_eq, hempty.mp hd⟩
    simp only [Connection.readHandshake, hread, hcall, bind_eq_bind, bind_some, hnil]
    rw [← h.handshake_eq]
  · cases hbuf : handshake with
    | none => exact absurd (hempty.mpr (hnone.mp hbuf).2) hd
    | some buf =>
      refine ⟨buf, ?_, ?_⟩
      · have hstart : { s with decoder := decoder }.gathered = [] := by
          simp [Connection.gathered, h.handshake_eq]
        rw [hstart, List.nil_append, hbuf] at hgathered
        rw [hplain, ← hgathered]
        rfl
      · simp only [Connection.readHandshake, hread, hcall, bind_eq_bind, bind_some,
          hbuf]

/-! ## The parse -/

section Parse

variable {dest : Ss.Destination} {s : Connection} {beyond : ℕ → UInt8} {buf : GrowableIOBuffer}
  {n : ℕ}

lemma starts_memory (beyond : ℕ → UInt8) {buf : GrowableIOBuffer} {l : List UInt8}
    (h : l <+: buf.readable) : Ss.Starts (Connection.memory beyond buf) l := by
  intro i b hb
  obtain ⟨rest, hrest⟩ := h
  have hi : i < l.length := (List.getElem?_eq_some_iff.mp hb).1
  rw [Connection.memory, ← hrest, List.getElem?_append_left hi, hb, Option.getD_some]

lemma invalid_eq_false_iff {r : Ss.Request} (h : r.Denotes dest) :
    Connection.invalid r = false ↔ dest.Connectable := by
  have hne : dest.atyp = .domain → dest.address ≠ [] := by
    intro hd hnil
    have hpos := (dest.length_domain hd).1
    rw [hnil] at hpos
    exact absurd hpos (by simp)
  unfold Connection.invalid Ss.Destination.Connectable
  rw [h.port_eq, h.addressType_eq, h.address_eq]
  cases hatyp : dest.atyp with
  | domain => simp [hne hatyp]
  | ipv4 => simp
  | ipv6 => simp

lemma parse_of_header {mem : ℕ → UInt8} (h : Ss.Starts mem dest.header) (hn : dest.need ≤ n) :
    (Ss.parse .empty mem n).result = .good ∧
      (Ss.parse .empty mem n).req.Denotes dest ∧
      (Ss.parse .empty mem n).req.length = dest.header.length ∧
      (Ss.parse .empty mem n).extent = dest.header.length := by
  have hc := Ss.parse_complete (n := n) (Ss.Destination.addressType_of_starts h)
    ((Ss.Destination.need_of_starts h).le.trans hn)
  obtain ⟨hlen, htype, haddr, hport⟩ := hc.holds.eq_of_length hc.long
  have hden := Ss.Destination.denotes_of_starts h
  have hlen' := hlen.trans (Ss.Destination.length_of_starts h)
  exact ⟨hc.good, ⟨htype.trans hden.addressType_eq, haddr.trans hden.address_eq,
    hport.trans hden.port_eq⟩, hlen', hc.extent_eq.trans hlen'⟩

/-- **Accepted.** The whole header has been decrypted and the read was long enough. -/
lemma parseHandshake_of_header (beyond : ℕ → UInt8) {rest : List UInt8}
    (hstate : s.state = .handshake) (hrequest : s.request = .empty) (hupstream : s.upstream = [])
    (hbuf : buf.readable = dest.header ++ rest) (hn : dest.need ≤ n) (hdest : dest.Connectable) :
    ∃ s', s.parseHandshake beyond buf n = some s' ∧ s'.closed = s.closed ∧ s'.state = .stream ∧
      (∃ channel, s'.channel = some channel ∧ channel.request.Denotes dest) ∧
      s'.forwarded = rest ∧ s'.interpreted = s.interpreted ++ [(dest.header.length, buf.size)] ∧
      s'.decoder = s.decoder := by
  have hstarts := starts_memory beyond (hbuf ▸ List.prefix_append dest.header rest)
  obtain ⟨hgood, hden, hlen, hext⟩ := parse_of_header (n := n) hstarts hn
  have hvalid := (invalid_eq_false_iff hden).mpr hdest
  have hfit : dest.header.length ≤ buf.size := by
    rw [← length_readable, hbuf, List.length_append]
    omega
  obtain ⟨buf', hset, hread, -⟩ := setOffset_add hfit
  rw [hbuf, List.drop_left] at hread
  simp only [Connection.parseHandshake, hrequest, hgood, if_true, hlen, hset, bind_eq_bind,
    bind_some, hvalid, Bool.false_eq_true, if_false, Connection.processReceivedData, hstate,
    Connection.onConnect, Connection.onUpstreamWrite, hext]
  by_cases hempty : buf'.isEmpty
  · rw [if_pos hempty]
    refine ⟨_, rfl, rfl, rfl, ⟨_, rfl, hden⟩, ?_, rfl, rfl⟩
    rw [buf'.isEmpty_iff, hread] at hempty
    simp [Connection.forwarded, hupstream, hempty]
  rw [if_neg hempty]
  refine ⟨_, rfl, rfl, rfl, ⟨_, rfl, hden⟩, ?_, rfl, rfl⟩
  simp [Connection.forwarded, hupstream, hread]

def Failed (out : Option Connection) : Prop := ∀ s, out = some s → s.closed = true

/-- **Refused.** The read was too short for the parser, or the header is not all there, or it names
nothing one can connect to. -/
lemma parseHandshake_failed {payload : List UInt8} (hrequest : s.request = .empty)
    (hne : buf.readable ≠ []) (hbuf : buf.readable <+: dest.header ++ payload)
    (hnot : ¬ (dest.Connectable ∧ dest.header.length ≤ buf.size ∧ dest.need ≤ n)) :
    Failed (s.parseHandshake beyond buf n) := by
  intro s' hs'
  rw [Connection.parseHandshake, hrequest] at hs'
  simp only at hs'
  by_cases hgood : (Ss.parse .empty (Connection.memory beyond buf) n).result = .good
  swap
  · rw [if_neg hgood] at hs'
    cases hs'
    rfl
  rw [if_pos hgood] at hs'
  by_cases hlong : dest.header.length ≤ buf.size
  · -- the header is there
    have hpre : dest.header <+: buf.readable :=
      List.prefix_of_prefix_length_le (List.prefix_append _ payload) hbuf (by simpa using hlong)
    have hstarts := starts_memory beyond hpre
    by_cases hn : dest.need ≤ n
    · obtain ⟨-, hden, hlen, -⟩ := parse_of_header (n := n) hstarts hn
      obtain ⟨buf', hset, -⟩ := setOffset_add hlong
      have hinvalid : Connection.invalid
          (Ss.parse .empty (Connection.memory beyond buf) n).req = true := by
        by_contra hvalid
        rw [Bool.not_eq_true, invalid_eq_false_iff hden] at hvalid
        exact hnot ⟨hvalid, hlong, hn⟩
      rw [hlen, hset] at hs'
      simp only [bind_eq_bind, bind_some, hinvalid, if_true] at hs'
      cases hs'
      rfl
    have hind := Ss.parse_indeterminate (n := n) (Ss.Destination.addressType_of_starts hstarts)
      (by rw [Ss.Destination.need_of_starts hstarts]; omega)
    rw [hind] at hgood
    cases hgood
  -- the parser has looked behind the decrypted bytes, and the offset cannot be set
  have hpos : 1 ≤ buf.size := by
    rw [← length_readable]
    exact List.length_pos_iff.mpr hne
  have hpre : dest.header.take buf.size <+: buf.readable := by
    have htake := List.prefix_iff_eq_take.mp hbuf
    rw [length_readable, List.take_append_of_le_length (by omega)] at htake
    rw [← htake]
  obtain ⟨htype, hlt⟩ := Ss.Destination.lt_length_of_starts_take hpos (by omega)
    (starts_memory beyond hpre)
  by_cases hn : (Ss.Request.mk (Connection.memory beyond buf)).need ≤ n
  · have hc := Ss.parse_complete (n := n) htype hn
    have hlen := (hc.holds.eq_of_length hc.long).1
    have hover : ¬ buf.offset + (Ss.parse .empty (Connection.memory beyond buf) n).req.length ≤
        buf.capacity := by
      have := buf.offset_le
      rw [GrowableIOBuffer.size] at hlt
      omega
    rw [GrowableIOBuffer.setOffset, dif_neg hover] at hs'
    cases hs'
  · rw [Ss.parse_indeterminate (n := n) htype (by omega)] at hgood
    cases hgood

end Parse

/-! ## The relay -/

def Event.received : Event → List UInt8
  | .read bytes => bytes
  | _ => []

variable {dest : Ss.Destination}

lemma Relaying.write (h : Relaying E m master dest s got) {n : ℕ}
    {channel : Channel} {buf : GrowableIOBuffer} {rest : List GrowableIOBuffer}
    (hch : s.channel = some channel) (hup : s.upstream = buf :: rest) (hn : n ≤ buf.size) :
    ∃ s', s.writeUpstream n = some s' ∧ Relaying E m master dest s' got := by
  obtain ⟨buf', hset, hread, -⟩ := setOffset_add hn
  obtain ⟨_, hch', hden⟩ := h.channel_eq
  rw [hch, Option.some.injEq] at hch'
  subst hch'
  have hcall : s.writeUpstream n = some { s with
      channel := some { channel with written := channel.written ++ buf.readable.take n }
      upstream := if buf'.isEmpty then rest else buf' :: rest } := by
    simp only [Connection.writeUpstream, hup, hch, hset, bind_eq_bind, bind_some]
  refine ⟨_, hcall, h.closed_eq, h.state_eq, ⟨_, rfl, hden⟩, ?_, h.long, h.interpreted_le,
    h.decodedAll⟩
  rw [← h.forwarded_eq]
  simp only [Connection.forwarded, GrowableIOBuffer.flatten_pop, hread, hup, hch, Option.map_some,
    Option.getD_some, List.map_cons, List.flatten_cons, List.append_assoc]
  rw [← List.append_assoc (buf.readable.take n), List.take_append_drop]

lemma Relaying.read (h : Relaying E m master dest s got)
    (hup : s.upstream = []) (hfit : bytes.length ≤ socketDebufSize)
    (hclean : Cipher.Clean E m master (got ++ bytes)) :
    ∃ s', s.getNextUpstreamBuf E bytes = some s' ∧ Relaying E m master dest s' (got ++ bytes) := by
  obtain ⟨buf, hread, hbytes, -⟩ := GrowableIOBuffer.readSome_spec E.junk hfit
  rw [← hbytes] at hclean
  obtain ⟨decoder, pieces, hrun, hdec, hne, hplain⟩ :=
    h.decodedAll.processBytes (accepts_append s) buf hclean
  rw [hbytes] at hdec hplain
  have hvisit := visit_stream (E := E) (s := { s with decoder := decoder }) h.state_eq hne
  have hcall : s.getNextUpstreamBuf E bytes = some { s with
      decoder := decoder, upstream := s.upstream ++ pieces.map GrowableIOBuffer.copyBuffer } := by
    rw [Connection.getNextUpstreamBuf, hread, bind_eq_bind, bind_some,
      Connection.processBytes, hrun]
    exact hvisit
  refine ⟨_, hcall, h.closed_eq, h.state_eq, h.channel_eq, ?_, ?_, h.interpreted_le, hdec⟩
  · have hcopy :
        (pieces.map GrowableIOBuffer.copyBuffer).map GrowableIOBuffer.readable = pieces := by
      simp [Function.comp_def]
    have hold := h.forwarded_eq
    simp only [Connection.forwarded, hup, List.map_nil, List.flatten_nil, List.append_nil] at hold
    simp only [Connection.forwarded, hup, List.nil_append, hcopy, hold]
    rw [hplain, List.drop_append_of_le_length h.long]
  · rw [hplain, List.length_append]
    exact h.long.trans (Nat.le_add_right _ _)

lemma Relaying.step (h : Relaying E m master dest s got)
    (beyond : ℕ → UInt8) {e : Event} (hen : Enabled s e)
    (hclean : Cipher.Clean E m master (got ++ e.received)) :
    ∃ s', step E beyond s e = some s' ∧ Relaying E m master dest s' (got ++ e.received) := by
  unfold Shadowsocks.step
  cases e with
  | read bytes =>
    obtain ⟨-, hfit, hup⟩ := hen
    simp only [h.closed_eq, Bool.false_eq_true, if_false, h.state_eq]
    exact h.read (hup h.closed_eq h.state_eq) hfit hclean
  | wouldBlock => exact ⟨s, rfl, by simpa [Event.received] using h⟩
  | connected =>
    obtain ⟨channel, hch, hden⟩ := h.channel_eq
    simp only [h.closed_eq, Bool.false_eq_true, if_false, Event.received, List.append_nil]
    refine ⟨_, rfl, h.closed_eq, h.state_eq, ?_, ?_, h.long, h.interpreted_le, h.decodedAll⟩
    · exact ⟨{ channel with connected := true }, by simp [Connection.connected, hch], hden⟩
    · rw [← h.forwarded_eq]
      simp [Connection.forwarded, Connection.connected, hch]
  | write n =>
    obtain ⟨channel, buf, rest, hch, -, hup, hn⟩ := hen
    simp only [h.closed_eq, Bool.false_eq_true, if_false, Event.received, List.append_nil]
    exact h.write hch hup hn

lemma reads_cons (e : Event) (es : List Event) :
    (reads (e :: es)).flatten = e.received ++ (reads es).flatten := by
  cases e <;> rfl

lemma Relaying.exec (beyond : ℕ → UInt8) {es : List Event}
    (hes : Run.Along (Shadowsocks.step E beyond) Enabled s es)
    (hclean : Cipher.Clean E m master (got ++ (reads es).flatten))
    (h : Relaying E m master dest s got) :
    ∃ s', Run.exec (Shadowsocks.step E beyond) s es = some s' ∧
      Relaying E m master dest s' (got ++ (reads es).flatten) := by
  induction es generalizing s got with
  | nil => exact ⟨s, rfl, by simpa [reads] using h⟩
  | cons e es ih =>
    rw [reads_cons, ← List.append_assoc] at hclean ⊢
    obtain ⟨s₁, hs₁, h₁⟩ := h.step beyond hes.1 (hclean.of_append _)
    obtain ⟨s₂, hs₂, h₂⟩ := ih (hes.2 s₁ hs₁) hclean h₁
    refine ⟨s₂, ?_, h₂⟩
    rw [Run.exec_cons, hs₁, bind_some, hs₂]

end Phases

/-! ## When a stream is relayed -/

/-- The first read after which any plaintext exists, for a decoder that has been given `got`: how
much plaintext there is then, and how many bytes that read gave. -/
def firstDelivery (E : CipherEnv) (m : CipherMethod) (master : List UInt8) :
    List UInt8 → List (List UInt8) → Option (ℕ × ℕ)
  | _, [] => none
  | got, r :: rs =>
    if Cipher.decoded E m master (got ++ r) = [] then firstDelivery E m master (got ++ r) rs
    else some ((Cipher.decoded E m master (got ++ r)).length, r.length)

/-- The run from `s` ends, with the connection open, its channel opened for the destination, exactly
the payload forwarded, and no parse that looked behind the decrypted bytes. -/
def Relays (E : CipherEnv) (beyond : ℕ → UInt8) (s : Connection) (es : List Event)
    (dest : Ss.Destination) (payload : List UInt8) : Prop :=
  ∃ s', Run.exec (step E beyond) s es = some s' ∧ s'.closed = false ∧
    (∃ channel, s'.channel = some channel ∧ channel.request.Denotes dest) ∧
    s'.forwarded = payload ∧ ∀ p ∈ s'.interpreted, p.1 ≤ p.2

section Main

variable {E : CipherEnv} {m : CipherMethod} {master : List UInt8} {s : Connection}
  {got bytes payload : List UInt8} {dest : Ss.Destination} {beyond : ℕ → UInt8} {es : List Event}

lemma closed_of_exec {s' : Connection} (hclosed : s.closed)
    (hrun : Run.exec (step E beyond) s es = some s') : s'.closed = true := by
  refine Run.exec_keeps (I := fun a => a.closed) (fun a e a' hclosed hstep => ?_) hclosed hrun
  have hsame : step E beyond a e = some a := by cases e <;> simp [step, hclosed]
  rwa [← Option.some_inj.mp (hsame.symm.trans hstep)]

lemma not_relays_of_failed {e : Event} (h : Failed (step E beyond s e)) :
    ¬ Relays E beyond s (e :: es) dest payload := by
  rintro ⟨s', hrun, hopen, -⟩
  rw [Run.exec_cons] at hrun
  cases hstep : step E beyond s e with
  | none =>
    rw [hstep] at hrun
    cases hrun
  | some s₁ =>
    rw [hstep, bind_some] at hrun
    rw [closed_of_exec (h s₁ hstep) hrun] at hopen
    cases hopen

lemma relays_cons {e : Event} {s₁ : Connection} (h : step E beyond s e = some s₁) :
    Relays E beyond s (e :: es) dest payload ↔ Relays E beyond s₁ es dest payload := by
  simp only [Relays, Run.exec_cons, h, bind_some]

lemma Relaying.relays (h : Relaying E m master dest s got) (hinv : (E.aead m).Inverse)
    (hwire : Cipher.Wire E m master (dest.header ++ payload) bytes)
    (hes : Run.Along (Shadowsocks.step E beyond) Enabled s es)
    (hbytes : got ++ (reads es).flatten = bytes) : Relays E beyond s es dest payload := by
  have hgot : got <+: bytes := ⟨_, hbytes⟩
  have hne : Cipher.decoded E m master got ≠ [] := by
    intro hnil
    have hlong := h.long
    rw [hnil, Ss.Destination.length_header] at hlong
    simp at hlong
  have hclean := hwire.clean hinv (List.prefix_refl bytes)
  rw [← hbytes] at hclean
  obtain ⟨s', hrun, h'⟩ := h.exec beyond hes hclean
  rw [hbytes] at h'
  refine ⟨s', hrun, h'.closed_eq, h'.channel_eq, ?_, h'.interpreted_le⟩
  rw [h'.forwarded_eq, hwire.decoded_eq hinv hgot hne, List.drop_left]

lemma Waiting.step_of_decoded (beyond : ℕ → UInt8) {r : List UInt8}
    (h : Waiting E m master s got) (hinv : (E.aead m).Inverse)
    (hwire : Cipher.Wire E m master (dest.header ++ payload) bytes)
    (hfit : r.length ≤ socketDebufSize) (hgot : got ++ r <+: bytes)
    (hne : Cipher.decoded E m master (got ++ r) ≠ []) :
    if dest.Connectable ∧ dest.header.length ≤ (Cipher.decoded E m master (got ++ r)).length ∧
        dest.need ≤ r.length then
      ∃ s', step E beyond s (.read r) = some s' ∧ Relaying E m master dest s' (got ++ r)
    else Failed (step E beyond s (.read r)) := by
  obtain ⟨decoder, hdec, hcase⟩ := h.readHandshake beyond hfit (hwire.clean hinv hgot)
  rw [if_neg hne] at hcase
  obtain ⟨buf, hbuf, hcall⟩ := hcase
  have hstep : step E beyond s (.read r) =
      { s with decoder := decoder, handshake := some buf }.parseHandshake beyond buf r.length := by
    simp only [step, h.closed_eq, Bool.false_eq_true, if_false, h.state_eq, hcall]
  have hpre : buf.readable <+: dest.header ++ payload := hbuf ▸ hwire.decoded_prefix hinv hgot
  rw [hstep, ← hbuf, length_readable]
  split_ifs with hok
  · obtain ⟨hdest, hlong, hn⟩ := hok
    have hheader : dest.header <+: buf.readable := by
      apply List.prefix_of_prefix_length_le (List.prefix_append _ payload) hpre
      rwa [length_readable]
    obtain ⟨rest, hrest⟩ := hheader
    obtain ⟨s', hs', hclosed, hstate, hch, hfwd, hint, hdecoder⟩ :=
      parseHandshake_of_header (s := { s with decoder := decoder, handshake := some buf })
        beyond h.state_eq h.request_eq h.upstream_eq hrest.symm hn hdest
    refine ⟨s', hs', hclosed.trans h.closed_eq, hstate, hch, ?_, ?_, ?_, hdecoder ▸ hdec⟩
    · rw [hfwd, ← hbuf, ← hrest, List.drop_left]
    · rw [← hbuf, length_readable]
      exact hlong
    intro p hp
    rw [hint, h.interpreted_eq, List.nil_append, List.mem_singleton] at hp
    rw [hp]
    exact hlong
  · exact parseHandshake_failed h.request_eq (hbuf ▸ hne) hpre hok

/-- **The handshake, a whole run.** By induction on the events, for every number of bytes received
before. -/
lemma Waiting.relays_iff_firstDelivery (h : Waiting E m master s got) (hinv : (E.aead m).Inverse)
    (hwire : Cipher.Wire E m master (dest.header ++ payload) bytes)
    (hes : Run.Along (step E beyond) Enabled s es) (hbytes : got ++ (reads es).flatten = bytes) :
    Relays E beyond s es dest payload ↔ dest.Connectable ∧
      ∃ d n, firstDelivery E m master got (reads es) = some (d, n) ∧
        dest.header.length ≤ d ∧ dest.need ≤ n := by
  induction es generalizing s got with
  | nil =>
    constructor
    · rintro ⟨s', hrun, -, ⟨channel, hch, -⟩, -⟩
      cases hrun
      rw [h.channel_eq] at hch
      cases hch
    · rintro ⟨-, d, n, hfirst, -⟩
      cases hfirst
  | cons e es ih =>
    obtain ⟨hen, hrest⟩ := hes
    rw [reads_cons, ← List.append_assoc] at hbytes
    cases e with
    | wouldBlock =>
      rw [relays_cons (e := .wouldBlock) rfl]
      exact ih h (hrest s rfl) (by simpa [Event.received] using hbytes)
    | connected =>
      -- there is no channel yet
      have hsome : s.channel.isSome := hen
      rw [h.channel_eq] at hsome
      cases hsome
    | write n =>
      obtain ⟨channel, buf, rest, hch, -⟩ := hen
      rw [h.channel_eq] at hch
      cases hch
    | read r =>
      have hreads : reads (.read r :: es) = r :: reads es := rfl
      have hgot : got ++ r <+: bytes := ⟨_, hbytes⟩
      rw [hreads, firstDelivery]
      by_cases hnil : Cipher.decoded E m master (got ++ r) = []
      · obtain ⟨decoder, hdec, hcase⟩ :=
          h.readHandshake beyond hen.2.1 (hwire.clean hinv hgot)
        rw [if_pos hnil] at hcase
        have hstep : step E beyond s (.read r) = some { s with decoder := decoder } := by
          simp only [step, h.closed_eq, Bool.false_eq_true, if_false, h.state_eq, hcase]
        have h₁ : Waiting E m master { s with decoder := decoder } (got ++ r) :=
          ⟨h.closed_eq, h.state_eq, h.handshake_eq, h.request_eq, h.upstream_eq, h.channel_eq,
            h.interpreted_eq, hdec, hnil⟩
        rw [if_pos hnil, relays_cons hstep]
        exact ih h₁ (hrest _ hstep) hbytes
      rw [if_neg hnil]
      have hdecide := h.step_of_decoded beyond hinv hwire hen.2.1 hgot hnil
      split_ifs at hdecide with hok
      · obtain ⟨s₁, hs₁, h₁⟩ := hdecide
        refine iff_of_true ?_ ⟨hok.1, _, _, rfl, hok.2.1, hok.2.2⟩
        rw [relays_cons hs₁]
        exact h₁.relays hinv hwire (hrest s₁ hs₁) hbytes
      apply iff_of_false (not_relays_of_failed hdecide)
      rintro ⟨hdest, d, n, hfirst, hd, hn⟩
      cases hfirst
      exact hok ⟨hdest, hd, hn⟩

/-- **When a valid stream is relayed.** Take any method and password, any ciphertext of a header and
a payload, in frames of any sizes, and any run whose socket reads give exactly that ciphertext.
The connection relays it correctly if and only if the destination is one to connect to and the first
read after which there is plaintext has completed the header and was itself long enough for the
parser. -/
theorem relays_iff (E : CipherEnv) (m : CipherMethod) (hinv : (E.aead m).Inverse)
    (password : List UInt8) (dest : Ss.Destination) (payload bytes : List UInt8)
    (hwire : Cipher.Wire E m (deriveKey E.hashes password m.keySize) (dest.header ++ payload) bytes)
    (beyond : ℕ → UInt8) (es : List Event)
    (hes : Run.Along (step E beyond) Enabled (Connection.start E m password) es)
    (hbytes : (reads es).flatten = bytes) :
    Relays E beyond (Connection.start E m password) es dest payload ↔ dest.Connectable ∧
      ∃ d n, firstDelivery E m (deriveKey E.hashes password m.keySize) [] (reads es) = some (d, n) ∧
        dest.header.length ≤ d ∧ dest.need ≤ n :=
  (waiting_start password).relays_iff_firstDelivery hinv hwire hes hbytes

lemma sampleAddress_ok : Ss.AddressOk .ipv4 [1, 2, 3, 4] := rfl

/-- A destination, `1.2.3.4:80`. -/
def sampleDest : Ss.Destination := ⟨.ipv4, [1, 2, 3, 4], 80, sampleAddress_ok, Ss.http_port_lt⟩

def sampleKey : List UInt8 :=
  deriveKey (CipherEnv.sample fun _ => false).hashes [112, 119]
    CipherMethod.chacha20Poly1305Ietf.keySize

/-- The ciphertext of one frame per element of `frames`, with a zero salt. -/
def sampleWire (frames : List (List UInt8)) : List UInt8 :=
  Framing.Framer.encodeAll (streamEncode (.sample fun _ => false) .chacha20Poly1305Ietf)
    (streamNext (.sample fun _ => false) .chacha20Poly1305Ietf sampleKey) .salt
    (.salt (List.replicate 32 0) :: frames.map .payload)

lemma wire_sampleWire (frames : List (List UInt8))
    (h : ∀ p ∈ frames, 1 ≤ p.length ∧ p.length ≤ chunkSizeMask) :
    Cipher.Wire (.sample fun _ => false) .chacha20Poly1305Ietf sampleKey frames.flatten
      (sampleWire frames) :=
  .aead rfl _ frames rfl h rfl rfl

lemma decoded_sampleWire (frames : List (List UInt8))
    (h : ∀ p ∈ frames, 1 ≤ p.length ∧ p.length ≤ chunkSizeMask) :
    Cipher.decoded (.sample fun _ => false) .chacha20Poly1305Ietf sampleKey (sampleWire frames) =
      frames.flatten :=
  (wire_sampleWire frames h).decoded_of_aead (Aead.zeroTag_inverse _) rfl

theorem relays_iff_one_read :
    Relays (.sample fun _ => false) (fun _ => 0)
      (Connection.start (.sample fun _ => false) .chacha20Poly1305Ietf [112, 119])
      [.read (sampleWire [sampleDest.header ++ [7]])] sampleDest [7] := by
  have hframe : ∀ p ∈ [sampleDest.header ++ [7]], 1 ≤ p.length ∧ p.length ≤ chunkSizeMask := by
    decide
  have hdecoded := decoded_sampleWire _ hframe
  refine (relays_iff (.sample fun _ => false) .chacha20Poly1305Ietf (Aead.zeroTag_inverse _)
    [112, 119] sampleDest [7] (sampleWire [sampleDest.header ++ [7]]) (wire_sampleWire _ hframe)
    (fun _ => 0) [.read (sampleWire [sampleDest.header ++ [7]])]
    ⟨⟨by decide, by decide, fun _ h => by cases h⟩, fun _ _ => trivial⟩ (by simp [reads])).mpr ?_
  refine ⟨by decide, 8, (sampleWire [sampleDest.header ++ [7]]).length, ?_, by decide, by decide⟩
  show firstDelivery _ _ sampleKey [] [sampleWire _] = _
  rw [firstDelivery, List.nil_append, hdecoded]
  rfl

/-- A header in two frames that come in two reads: when the first read has been decrypted the header
is incomplete, and the connection fails. -/
theorem header_in_two_frames :
    ∃ (bytes : List UInt8) (es : List Event),
      Cipher.Wire (.sample fun _ => false) .chacha20Poly1305Ietf sampleKey
        (sampleDest.header ++ [7]) bytes ∧
      Run.Along (step (.sample fun _ => false) fun _ => 0) Enabled
        (Connection.start (.sample fun _ => false) .chacha20Poly1305Ietf [112, 119]) es ∧
      (reads es).flatten = bytes ∧
      Run.exec (step (.sample fun _ => false) fun _ => 0)
        (Connection.start (.sample fun _ => false) .chacha20Poly1305Ietf [112, 119]) es = none := by
  have hframes : ∀ p ∈ [[1], sampleDest.header.drop 1 ++ [7]],
      1 ≤ p.length ∧ p.length ≤ chunkSizeMask := by decide
  -- one byte is decrypted; the parser accepts the zeros behind it, and the offset is set to `7`
  have habort : step (.sample fun _ => false) (fun _ => 0)
      (Connection.start (.sample fun _ => false) .chacha20Poly1305Ietf [112, 119])
      (.read (sampleWire [[1]])) = none := by decide +kernel
  refine ⟨_, [.read (sampleWire [[1]]),
    .read ((sampleWire [[1], sampleDest.header.drop 1 ++ [7]]).drop (sampleWire [[1]]).length)],
    wire_sampleWire _ hframes, ⟨⟨by decide, by decide, fun _ h => by cases h⟩, ?_⟩, ?_, ?_⟩
  · intro s' hs'
    rw [habort] at hs'
    cases hs'
  · decide +kernel
  · rw [Run.exec_cons, habort, Option.bind_none]

end Main

end Yass.Server.Shadowsocks
