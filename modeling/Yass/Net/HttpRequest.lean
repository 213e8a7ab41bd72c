import Yass.Net.IoBuffer

/-!
# A parsed HTTP request, and how its header is replaced in the buffer

Texts are lists of bytes.

Source: `net/http_parser.hpp`, `net/http_parser.cpp`, `cli/cli_connection.cpp`,
`server/server_connection.cpp`.
-/

namespace Yass.Net

/-! ## The parser's view of a request -/

/-- `ToLowerASCII` of a byte. -/
def toLowerAscii (b : UInt8) : UInt8 := if 65 ≤ b ∧ b ≤ 90 then b + 32 else b

/-- `CompareCaseInsensitiveASCII(a, b) == 0`. -/
def equalsCaseInsensitiveAscii (a b : List UInt8) : Bool :=
  a.map toLowerAscii == b.map toLowerAscii

def proxyConnection : List UInt8 :=
  [80, 114, 111, 120, 121, 45, 67, 111, 110, 110, 101, 99, 116, 105, 111, 110]

def proxyAuthorization : List UInt8 :=
  [80, 114, 111, 120, 121, 45, 65, 117, 116, 104, 111, 114, 105, 122, 97, 116, 105, 111, 110]

/-- `"\r\n"`. -/
def crlf : List UInt8 := [13, 10]

structure Target where
  host : List UInt8
  port : ℕ
  deriving DecidableEq, Repr

def tlsextMaxlenHostName : ℕ := 255

/-- A `HttpRequestParser` after `Parse`. -/
structure HttpRequestParser where
  nparsed : ℕ
  ok : Bool
  method : List UInt8
  httpUrl : List UInt8
  versionInput : List UInt8
  /-- `http_headers_`, in the order in which the map is walked. -/
  httpHeaders : List (List UInt8 × List UInt8)
  host : List UInt8
  port : ℕ
  isConnect : Bool
  contentLength : UInt64
  connection : List UInt8
  proxyAuthorization : List UInt8
  transferEncodingIsChunked : Bool

def headerLine (field : List UInt8 × List UInt8) : List UInt8 :=
  field.1 ++ [58, 32] ++ field.2 ++ crlf

namespace HttpRequestParser

/-- Whether a received field goes into the reforged header: not a field for the proxy itself, and
not one whose name, letter by letter, is that of an additional header. -/
def keepsField (additional : List (List UInt8 × List UInt8)) (field : List UInt8 × List UInt8) :
    Bool :=
  !equalsCaseInsensitiveAscii field.1 Yass.Net.proxyConnection &&
    !equalsCaseInsensitiveAscii field.1 Yass.Net.proxyAuthorization &&
    !additional.any fun rhs => rhs.1 == field.1

/-- `ReforgeHttpRequest`. `canonUri` makes the request target relative, as `GURL` does it. -/
def reforgeHttpRequest (canonUri : List UInt8 → List UInt8) (p : HttpRequestParser)
    (additional : List (List UInt8 × List UInt8)) : List UInt8 :=
  p.method ++ [32] ++ canonUri p.httpUrl ++ [32] ++ p.versionInput ++ crlf ++
    ((p.httpHeaders.filter (keepsField additional)).map headerLine).flatten ++
    (additional.map headerLine).flatten ++ crlf

end HttpRequestParser

/-- `via_headers` of the server: `Connection: Close` always, `Forwarded: for="peer"` unless
`--hide_ip`, and `Via: YASS/version` unless `--hide_via`. -/
def viaHeaders (hideIp hideVia : Bool) (peerEndpoint version : List UInt8) :
    List (List UInt8 × List UInt8) :=
  [([67, 111, 110, 110, 101, 99, 116, 105, 111, 110], [67, 108, 111, 115, 101])] ++
    (if hideIp then []
      else [([70, 111, 114, 119, 97, 114, 100, 101, 100],
        [102, 111, 114, 61, 34] ++ peerEndpoint ++ [34])]) ++
    (if hideVia then [] else [([86, 105, 97], [89, 65, 83, 83, 47] ++ version)])

/-! ## The replacement -/

/-- Replace the first `nparsed` readable bytes by `header`, and start the buffer there. -/
def rewriteHeader (junk : ℕ → UInt8) (buf : GrowableIOBuffer) (nparsed : ℕ) (header : List UInt8) :
    Option GrowableIOBuffer := do
  let previousOffset := buf.offset
  let buf ← buf.setOffset (previousOffset + nparsed)
  let buf ← buf.setCapacity junk (previousOffset + max nparsed header.length + buf.size)
  -- `size()` is read again here, after the capacity has changed
  let buf ← buf.memmove header.length buf.offset buf.size
  let payloadSize := buf.size
  let buf ← buf.setOffset 0
  let buf ← buf.setCapacity junk (header.length + payloadSize)
  buf.store buf.offset header

/-- The replacement in the client's `OnReadHttpRequest`. -/
def cliRewriteRequest (junk : ℕ → UInt8) (canonUri : List UInt8 → List UInt8)
    (p : HttpRequestParser) (buf : GrowableIOBuffer) : Option GrowableIOBuffer :=
  rewriteHeader junk buf p.nparsed (p.reforgeHttpRequest canonUri [])

/-- The replacement in the server's `OnReadHandshakeViaHttps`. -/
def serverRewriteRequest (junk : ℕ → UInt8) (canonUri : List UInt8 → List UInt8)
    (hideIp hideVia : Bool) (peerEndpoint version : List UInt8) (p : HttpRequestParser)
    (buf : GrowableIOBuffer) : Option GrowableIOBuffer :=
  rewriteHeader junk buf p.nparsed
    (p.reforgeHttpRequest canonUri (viaHeaders hideIp hideVia peerEndpoint version))

/-- The replacement stayed inside the allocation, and the buffer now reads as `header` followed by
what was behind the parsed bytes. -/
def RewritesExactly (buf : GrowableIOBuffer) (nparsed : ℕ) (header : List UInt8)
    (out : Option GrowableIOBuffer) : Prop :=
  ∃ buf', out = some buf' ∧ buf'.readable = header ++ buf.readable.drop nparsed

section Rewrite

variable {junk : ℕ → UInt8} {buf : GrowableIOBuffer} {n : ℕ} {header : List UInt8}

/-- **A header that fits.** Nothing is reallocated, and the payload moves down. -/
lemma rewriteHeader_of_le (hn : n ≤ buf.size) (h : header.length ≤ n) :
    RewritesExactly buf n header (rewriteHeader junk buf n header) := by
  have hsize : buf.size = buf.capacity - buf.offset := rfl
  have hoffset := buf.offset_le
  obtain ⟨b₁, hb₁, hread₁, hev₁, hcap₁, hoff₁⟩ := GrowableIOBuffer.setOffset_add hn
  have hsize₁ : b₁.size = buf.size - n := by
    rw [GrowableIOBuffer.size, hcap₁, hoff₁]
    omega
  have hsame : buf.offset + max n header.length + b₁.size = b₁.capacity := by
    rw [Nat.max_eq_left h]
    omega
  obtain ⟨b₂, hb₂, hev₂, -, hcap₂, hoff₂⟩ :=
    GrowableIOBuffer.setCapacity_of_le junk (le_refl b₁.capacity) b₁.offset_le
  have hsize₂ : b₂.size = b₁.size := by
    rw [GrowableIOBuffer.size, GrowableIOBuffer.size, hcap₂, hoff₂]
  -- the payload goes behind where the header will be
  have hsrc : b₂.offset + b₂.size ≤ b₂.capacity := by omega
  have hdst : header.length + b₂.size ≤ b₂.capacity := by omega
  obtain ⟨b₃, hb₃, hev₃, hcap₃, hoff₃⟩ := GrowableIOBuffer.memmove_of_le hsrc hdst
  have hsize₃ : b₃.size = b₂.size := by
    rw [GrowableIOBuffer.size, GrowableIOBuffer.size, hcap₃, hoff₃]
  obtain ⟨b₄, hb₄, hev₄, -, hcap₄, hoff₄⟩ :=
    GrowableIOBuffer.setOffset_of_le (Nat.zero_le b₃.capacity)
  have hshrink : header.length + b₃.size ≤ b₄.capacity := by omega
  obtain ⟨b₅, hb₅, hev₅, -, hcap₅, hoff₅⟩ :=
    GrowableIOBuffer.setCapacity_of_le junk hshrink (hoff₄ ▸ Nat.zero_le _)
  have hfit : b₅.offset + header.length ≤ b₅.capacity := by omega
  obtain ⟨b₆, hb₆, hev₆, -, hoff₆⟩ := GrowableIOBuffer.store_of_le hfit
  refine ⟨b₆, ?_, ?_⟩
  · simp only [rewriteHeader, hb₁, Option.bind_eq_bind, Option.bind_some, hsame, hb₂, hb₃, hb₄, hb₅,
      hb₆]
  have hsame₂ : b₂.everything = b₁.everything := by
    rw [hev₂, List.take_of_length_le b₁.length_everything.le]
  have hpayload : (b₂.everything.drop b₂.offset).take b₂.size = buf.readable.drop n := by
    rw [hsame₂, hoff₂, hsize₂, ← b₁.length_readable, ← hread₁]
    exact List.take_length
  have hlead : (b₂.everything.take header.length).length = header.length := by
    rw [List.length_take, GrowableIOBuffer.length_everything]
    omega
  have hmoved : (b₂.everything.take header.length ++ buf.readable.drop n).length =
      header.length + b₃.size := by
    rw [List.length_append, hlead, List.length_drop, GrowableIOBuffer.length_readable]
    omega
  have hstart : b₅.offset = 0 := hoff₅.trans hoff₄
  rw [GrowableIOBuffer.readable, hev₆, hoff₆, hstart, hev₅, hev₄, hev₃, hpayload, ← hmoved,
    List.take_left, Nat.zero_add, List.take_zero, List.nil_append, List.drop_zero]
  exact congrArg (header ++ ·) (List.drop_left' hlead)

lemma rewriteHeader_size {out : GrowableIOBuffer} (hn : n ≤ buf.size)
    (hrun : rewriteHeader junk buf n header = some out) :
    out.size = header.length + (buf.size - n) + (header.length - n) := by
  have hsize : buf.size = buf.capacity - buf.offset := rfl
  have hoffset := buf.offset_le
  obtain ⟨b₁, hb₁, -, -, hcap₁, hoff₁⟩ := GrowableIOBuffer.setOffset_add hn
  simp only [rewriteHeader, hb₁, Option.bind_eq_bind, Option.bind_some, Option.bind_eq_some_iff]
    at hrun
  obtain ⟨b₂, hb₂, b₃, hb₃, b₄, hb₄, b₅, hb₅, hb₆⟩ := hrun
  obtain ⟨hcap₂, hoff₂⟩ := GrowableIOBuffer.setCapacity_eq_some hb₂
  obtain ⟨hcap₃, hoff₃⟩ := GrowableIOBuffer.memmove_eq_some hb₃
  obtain ⟨-, -, hcap₄, hoff₄⟩ := GrowableIOBuffer.setOffset_eq_some hb₄
  obtain ⟨hcap₅, hoff₅⟩ := GrowableIOBuffer.setCapacity_eq_some hb₅
  obtain ⟨hcap₆, hoff₆⟩ := GrowableIOBuffer.store_eq_some hb₆
  simp only [GrowableIOBuffer.size] at hcap₂ hcap₅ ⊢
  rcases Nat.le_total header.length n with hle | hle
  · rw [Nat.max_eq_left hle] at hcap₂
    omega
  · rw [Nat.max_eq_right hle] at hcap₂
    omega

/-- **A header that is longer than the parsed one.** If nothing was written outside the allocation,
the buffer has become too long by the difference. -/
lemma rewriteHeader_of_lt (hn : n ≤ buf.size) (h : n < header.length) :
    ¬ RewritesExactly buf n header (rewriteHeader junk buf n header) := by
  rintro ⟨out, hrun, hread⟩
  have hsize := rewriteHeader_size hn hrun
  rw [← out.length_readable, hread, List.length_append, List.length_drop, buf.length_readable]
    at hsize
  omega

lemma rewriteHeader_offset {out : GrowableIOBuffer}
    (h : rewriteHeader junk buf n header = some out) : out.offset = 0 := by
  simp only [rewriteHeader, Option.bind_eq_bind, Option.bind_eq_some_iff] at h
  obtain ⟨_, -, _, -, _, -, b₄, hb₄, b₅, hb₅, hb₆⟩ := h
  obtain ⟨-, -, -, hoff₄⟩ := GrowableIOBuffer.setOffset_eq_some hb₄
  obtain ⟨-, hoff₅⟩ := GrowableIOBuffer.setCapacity_eq_some hb₅
  obtain ⟨-, hoff₆⟩ := GrowableIOBuffer.store_eq_some hb₆
  rw [hoff₆, hoff₅, hoff₄]

lemma rewritesExactly_iff (junk : ℕ → UInt8) (hn : n ≤ buf.size) (header : List UInt8) :
    RewritesExactly buf n header (rewriteHeader junk buf n header) ↔ header.length ≤ n := by
  constructor
  · intro hexact
    by_contra hlong
    exact rewriteHeader_of_lt hn (Nat.lt_of_not_le hlong) hexact
  · exact rewriteHeader_of_le hn

end Rewrite

/-- **When the replacement is exact.** For every buffer, at every offset, and every parsed request,
on the client and on the server: the bytes that will be forwarded are the reforged header followed
by the payload, with no access outside the allocation, if and only if the reforged header is not
longer than the one it replaces. -/
theorem rewrite_request_exact_iff (junk : ℕ → UInt8) (canonUri : List UInt8 → List UInt8)
    (hideIp hideVia : Bool) (peerEndpoint version : List UInt8) (p : HttpRequestParser)
    (buf : GrowableIOBuffer) (hn : p.nparsed ≤ buf.size) :
    (RewritesExactly buf p.nparsed (p.reforgeHttpRequest canonUri [])
        (cliRewriteRequest junk canonUri p buf) ↔
      (p.reforgeHttpRequest canonUri []).length ≤ p.nparsed) ∧
    (RewritesExactly buf p.nparsed
        (p.reforgeHttpRequest canonUri (viaHeaders hideIp hideVia peerEndpoint version))
        (serverRewriteRequest junk canonUri hideIp hideVia peerEndpoint version p buf) ↔
      (p.reforgeHttpRequest canonUri
        (viaHeaders hideIp hideVia peerEndpoint version)).length ≤ p.nparsed) :=
  ⟨rewritesExactly_iff junk hn _, rewritesExactly_iff junk hn _⟩

/-- `GET / HTTP/1.1` with `Host:a`, and one byte behind it. -/
def sampleRequest : List UInt8 :=
  [71, 69, 84, 32, 47, 32, 72, 84, 84, 80, 47, 49, 46, 49, 13, 10,
    72, 111, 115, 116, 58, 97, 13, 10, 13, 10, 33]

def sampleParser : HttpRequestParser where
  nparsed := 26
  ok := true
  method := [71, 69, 84]
  httpUrl := [47]
  versionInput := [72, 84, 84, 80, 47, 49, 46, 49]
  httpHeaders := [([72, 111, 115, 116], [97])]
  host := [97]
  port := 80
  isConnect := false
  contentLength := 0
  connection := [75, 101, 101, 112, 45, 65, 108, 105, 118, 101]
  proxyAuthorization := []
  transferEncodingIsChunked := false

theorem rewrite_request_exact_iff_sample :
    ¬ RewritesExactly (.copyBuffer sampleRequest) 26 (sampleParser.reforgeHttpRequest id [])
        (cliRewriteRequest (fun _ => 0) id sampleParser (.copyBuffer sampleRequest)) ∧
      ¬ RewritesExactly (.copyBuffer sampleRequest) 26
        (sampleParser.reforgeHttpRequest id (viaHeaders true true [] []))
        (serverRewriteRequest (fun _ => 0) id true true [] [] sampleParser
          (.copyBuffer sampleRequest)) := by
  obtain ⟨hcli, hserver⟩ := rewrite_request_exact_iff (fun _ => 0) id true true [] [] sampleParser
    (.copyBuffer sampleRequest) (by decide)
  exact ⟨fun h => absurd (hcli.mp h) (by decide), fun h => absurd (hserver.mp h) (by decide)⟩

/-- With the default flags the server adds `Connection: Close` to a request for `/`: the move writes
behind the block. On the client the space behind the colon is enough. -/
theorem rewrite_request_out_of_bounds :
    cliRewriteRequest (fun _ => 0) id sampleParser (.copyBuffer sampleRequest) = none ∧
      serverRewriteRequest (fun _ => 0) id true true [] [] sampleParser
        (.copyBuffer sampleRequest) = none := by
  decide

end Yass.Net
