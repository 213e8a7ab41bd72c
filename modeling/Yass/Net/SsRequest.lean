import Mathlib.Data.List.Basic
import Mathlib.Tactic

/-!
# The Shadowsocks request header and its parser

The parser compares the bytes it has left after the type byte with the length of the whole header,
type byte included, so it asks for one byte more than an IPv4 or IPv6 header has
(`Destination.need`). For a domain it asks for one byte less than it then reads.

Source: `net/ss.hpp`, `net/ss_request.hpp`, `net/ss_request_parser.hpp`.
-/

namespace Yass.Net.Ss

inductive AddressType where
  | ipv4
  | domain
  | ipv6
  deriving DecidableEq, Repr

def AddressType.code : AddressType → UInt8
  | .ipv4 => 0x01
  | .domain => 0x03
  | .ipv6 => 0x04

def AddressType.ofCode (b : UInt8) : Option AddressType :=
  if b = 0x01 then some .ipv4
  else if b = 0x03 then some .domain
  else if b = 0x04 then some .ipv6
  else none

@[simp] lemma AddressType.ofCode_code (t : AddressType) : ofCode t.code = some t := by
  cases t <;> decide

variable {t : AddressType}

lemma AddressType.ofCode_eq_some {b : UInt8} (h : ofCode b = some t) :
    b = t.code := by
  unfold ofCode at h
  split_ifs at h with h₁ h₂ h₃ <;> cases h <;> assumption

/-! ## `ss::request` -/

/-- A `ss::request`: its `address_type_header`, byte by byte from `&address_type` on. -/
structure Request where
  raw : ℕ → UInt8

namespace Request

/-- The default constructor: `atyp_req_()` is zeroed. -/
def empty : Request := ⟨fun _ => 0⟩

/-- `memcpy(data() + pos, src, n)`. -/
def memcpy (r : Request) (pos n : ℕ) (src : ℕ → UInt8) : Request :=
  ⟨fun i => if pos ≤ i ∧ i < pos + n then src (i - pos) else r.raw i⟩

def addressType (r : Request) : Option AddressType := AddressType.ofCode (r.raw 0)

/-- `atyp_req_.domain.domain_name_len`. -/
def domainNameLen (r : Request) : ℕ := (r.raw 1).toNat

/-- `address_type_size()`: the length of the whole header. -/
def addressTypeSize (r : Request) : ℕ :=
  match r.addressType with
  | some .ipv4 => 1 + 4 + 2
  | some .domain => 1 + 1 + r.domainNameLen + 2
  | some .ipv6 => 1 + 16 + 2
  | none => 0

def length (r : Request) : ℕ := r.addressTypeSize

/-- `port()`, from the last two bytes of the header. -/
def port (r : Request) : ℕ :=
  (r.raw (r.addressTypeSize - 2)).toNat * 256 + (r.raw (r.addressTypeSize - 2 + 1)).toNat

/-- The assignments through `port_high_byte()` and `port_low_byte()`. -/
def setPort (r : Request) (high low : UInt8) : Request :=
  let r := r.memcpy (r.addressTypeSize - 2) 1 fun _ => high
  r.memcpy (r.addressTypeSize - 2 + 1) 1 fun _ => low

/-- The bytes of `endpoint().address()`, or `domain_name()`. -/
def address (r : Request) : List UInt8 :=
  match r.addressType with
  | some .ipv4 => (List.range 4).map fun i => r.raw (1 + i)
  | some .domain => (List.range r.domainNameLen).map fun i => r.raw (2 + i)
  | some .ipv6 => (List.range 16).map fun i => r.raw (1 + i)
  | none => []

end Request

/-! ## `ss::request_parser` -/

inductive ResultType where
  | good
  | bad
  | indeterminate
  deriving DecidableEq, Repr

/-- What `parse` returns and leaves behind. -/
structure Parsed where
  result : ResultType
  req : Request
  /-- The returned iterator, as a distance from `begin`. -/
  consumed : ℕ
  extent : ℕ

/-- What a parser of a request of type `ρ` returns, and how far it has looked. -/
structure Trace (ρ : Type) where
  result : ResultType
  request : Option ρ
  /-- The returned iterator, as a distance from `begin`. -/
  consumed : ℕ
  extent : ℕ
  deriving DecidableEq, Repr

/-- `request_parser::parse(req, begin, end)`, for the memory `mem` at `begin` and
`n = end - begin`. -/
def parse (req : Request) (mem : ℕ → UInt8) (n : ℕ) : Parsed :=
  if n < 1 then ⟨.indeterminate, req, 0, 0⟩
  else
    let req := req.memcpy 0 1 mem
    match req.addressType with
    | none => ⟨.bad, req, 1, 1⟩
    | some atyp =>
      if n - 1 < req.addressTypeSize then ⟨.indeterminate, req, 1, 1⟩
      else
        match atyp with
        | .ipv4 =>
          let req := req.memcpy 1 4 fun k => mem (1 + k)
          ⟨.good, req.setPort (mem 5) (mem 6), 7, 7⟩
        | .domain =>
          let req := req.memcpy 1 1 fun k => mem (1 + k)
          let len := req.domainNameLen
          if n - 1 < len + 2 then ⟨.indeterminate, req, 1, 2⟩
          else
            let req := req.memcpy 2 len fun k => mem (2 + k)
            ⟨.good, req.setPort (mem (2 + len)) (mem (2 + len + 1)), 2 + len + 2, 2 + len + 2⟩
        | .ipv6 =>
          let req := req.memcpy 1 16 fun k => mem (1 + k)
          ⟨.good, req.setPort (mem 17) (mem 18), 19, 19⟩

/-! ## What the parser has done -/

/-- The first `k` bytes of the request are those of the input. -/
def Request.Holds (r : Request) (mem : ℕ → UInt8) (k : ℕ) : Prop := ∀ i < k, r.raw i = mem i

namespace Request

variable {r : Request} {mem : ℕ → UInt8} {k : ℕ}

lemma Holds.memcpy (h : r.Holds mem k) (l : ℕ) :
    (r.memcpy k l fun j => mem (k + j)).Holds mem (k + l) := by
  intro i hi
  simp only [Request.memcpy]
  split_ifs with hin
  · rw [Nat.add_sub_of_le hin.1]
  · exact h i (by omega)

lemma Holds.addressType_eq (h : r.Holds mem k) (hk : 1 ≤ k) :
    r.addressType = (Request.mk mem).addressType := by
  rw [addressType, addressType, h 0 hk]

lemma Holds.domainNameLen_eq (h : r.Holds mem k) (hk : 2 ≤ k) :
    r.domainNameLen = (Request.mk mem).domainNameLen := by
  rw [domainNameLen, domainNameLen, h 1 hk]

lemma Holds.addressTypeSize_eq (h : r.Holds mem k) (hk : 2 ≤ k) :
    r.addressTypeSize = (Request.mk mem).addressTypeSize := by
  rw [addressTypeSize, addressTypeSize, h.addressType_eq (by omega), h.domainNameLen_eq hk]

lemma Holds.setPort (h : r.Holds mem k) (hk : 2 ≤ k)
    (hsize : (Request.mk mem).addressTypeSize = k + 2) :
    (r.setPort (mem k) (mem (k + 1))).Holds mem (k + 2) := by
  have h₁ : (r.memcpy k 1 fun _ => mem k).Holds mem (k + 1) := by
    intro i hi
    simp only [Request.memcpy]
    split_ifs with hin
    · rw [show i = k by omega]
    · exact h i (by omega)
  have hpos : r.addressTypeSize - 2 = k := by rw [h.addressTypeSize_eq hk, hsize]; omega
  have hpos₁ : (r.memcpy k 1 fun _ => mem k).addressTypeSize - 2 + 1 = k + 1 := by
    rw [h₁.addressTypeSize_eq (by omega), hsize]
    omega
  intro i hi
  simp only [Request.setPort, hpos, hpos₁]
  rw [Request.memcpy]
  simp only
  split_ifs with hin
  · rw [show i = k + 1 by omega]
  · exact h₁ i (by omega)

lemma Holds.eq_of_length (h : r.Holds mem r.length) (hlen : 2 < r.length) :
    r.length = (Request.mk mem).length ∧ r.addressType = (Request.mk mem).addressType ∧
      r.address = (Request.mk mem).address ∧ r.port = (Request.mk mem).port := by
  have hsize := h.addressTypeSize_eq (by omega)
  have htype := h.addressType_eq (by omega)
  refine ⟨hsize, htype, ?_, ?_⟩
  · have hname := h.domainNameLen_eq (by omega)
    rw [Request.length, hsize, addressTypeSize] at h
    rw [address, address, htype, hname]
    cases ht : (Request.mk mem).addressType with
    | none => rfl
    | some t =>
      rw [ht] at h
      cases t <;>
      · refine List.map_congr_left fun i hi => h _ ?_
        rw [List.mem_range] at hi
        simp only
        omega
  · unfold Request.length at h hlen
    rw [port, port, h _ (by omega), h _ (by omega), hsize]

def need (r : Request) : ℕ :=
  match r.addressType with
  | some .ipv4 => 8
  | some .domain => max 5 (r.domainNameLen + 3)
  | some .ipv6 => 20
  | none => 0

end Request

variable {mem : ℕ → UInt8} {n : ℕ}

private lemma holds_type (r : Request) (mem : ℕ → UInt8) : (r.memcpy 0 1 mem).Holds mem 1 := by
  have h : r.Holds mem 0 := fun i hi => absurd hi (Nat.not_lt_zero i)
  simpa using h.memcpy 1

private lemma addressTypeSize_empty {t : AddressType} (ht : (Request.mk mem).addressType = some t) :
    (Request.empty.memcpy 0 1 mem).addressTypeSize =
      match t with
      | .ipv4 => 7
      | .domain => 4
      | .ipv6 => 19 := by
  have htype := (holds_type Request.empty mem).addressType_eq le_rfl
  rw [ht] at htype
  have hlen : (Request.empty.memcpy 0 1 mem).domainNameLen = 0 := rfl
  rw [Request.addressTypeSize, htype]
  cases t <;> simp [hlen]

/-- A parse that accepted: the request holds its whole header, and nothing behind it was read. -/
structure Parsed.Complete (p : Parsed) (mem : ℕ → UInt8) : Prop where
  good : p.result = .good
  holds : p.req.Holds mem p.req.length
  long : 2 < p.req.length
  extent_eq : p.extent = p.req.length
  consumed_eq : p.consumed = p.req.length

private lemma complete_of_holds {r : Request} {k : ℕ} (h : r.Holds mem k) (hk : 2 ≤ k)
    (hsize : (Request.mk mem).addressTypeSize = k + 2) :
    Parsed.Complete ⟨.good, r.setPort (mem k) (mem (k + 1)), k + 2, k + 2⟩ mem := by
  have hport := h.setPort hk hsize
  have hlen : (r.setPort (mem k) (mem (k + 1))).length = k + 2 := by
    rw [Request.length, hport.addressTypeSize_eq (by omega), hsize]
  exact ⟨rfl, by rwa [hlen], by rw [hlen]; omega, hlen.symm, hlen.symm⟩

/-- **When the parser accepts.** A new request is filled as soon as the type is known and `need`
bytes are said to be there. -/
theorem parse_complete (ht : (Request.mk mem).addressType = some t)
    (hn : (Request.mk mem).need ≤ n) : (parse .empty mem n).Complete mem := by
  have h₁ := holds_type Request.empty mem
  have htype := h₁.addressType_eq le_rfl
  rw [ht] at htype
  have hfirst := addressTypeSize_empty ht
  rw [Request.need, ht] at hn
  unfold parse
  rw [if_neg (by cases t <;> simp at hn <;> omega)]
  simp only [htype]
  cases t with
  | ipv4 =>
    simp only at hn hfirst
    rw [if_neg (by omega)]
    exact complete_of_holds (h₁.memcpy 4) (by omega) (by rw [Request.addressTypeSize, ht])
  | ipv6 =>
    simp only at hn hfirst
    rw [if_neg (by omega)]
    exact complete_of_holds (h₁.memcpy 16) (by omega) (by rw [Request.addressTypeSize, ht])
  | domain =>
    simp only at hn hfirst
    have h₂ := h₁.memcpy 1
    have hlen := h₂.domainNameLen_eq le_rfl
    rw [if_neg (by omega), hlen, if_neg (by omega)]
    exact complete_of_holds (h₂.memcpy _) (by omega) (by rw [Request.addressTypeSize, ht])

theorem parse_indeterminate (ht : (Request.mk mem).addressType = some t)
    (hn : n < (Request.mk mem).need) : (parse .empty mem n).result = .indeterminate := by
  have h₁ := holds_type Request.empty mem
  have htype := h₁.addressType_eq le_rfl
  rw [ht] at htype
  have hfirst := addressTypeSize_empty ht
  rw [Request.need, ht] at hn
  unfold parse
  by_cases hzero : n < 1
  · rw [if_pos hzero]
  rw [if_neg hzero]
  simp only [htype]
  by_cases hshort : n - 1 < (Request.empty.memcpy 0 1 mem).addressTypeSize
  · rw [if_pos hshort]
  rw [if_neg hshort]
  cases t with
  | ipv4 =>
    simp only at hn hfirst
    omega
  | ipv6 =>
    simp only at hn hfirst
    omega
  | domain =>
    simp only at hn hfirst
    have hlen := (h₁.memcpy 1).domainNameLen_eq le_rfl
    rw [if_pos (by omega)]

theorem parse_good (h : (parse .empty mem n).result = .good) :
    ∃ t, (Request.mk mem).addressType = some t ∧ (parse .empty mem n).Complete mem := by
  cases htype : (Request.mk mem).addressType with
  | none =>
    exfalso
    have hnone := (holds_type Request.empty mem).addressType_eq le_rfl
    rw [htype] at hnone
    unfold parse at h
    by_cases hzero : n < 1
    · rw [if_pos hzero] at h
      cases h
    rw [if_neg hzero] at h
    simp only [hnone] at h
    cases h
  | some t =>
    refine ⟨t, rfl, parse_complete htype ?_⟩
    by_contra hlt
    rw [parse_indeterminate htype (Nat.lt_of_not_le hlt)] at h
    cases h

/-! ## Headers -/

def AddressOk : AddressType → List UInt8 → Prop
  | .ipv4, a => a.length = 4
  | .domain, a => 1 ≤ a.length ∧ a.length ≤ 255
  | .ipv6, a => a.length = 16

/-- A destination: an IPv4 or IPv6 address, or a domain of `1` to `255` bytes, and a port. -/
structure Destination where
  atyp : AddressType
  address : List UInt8
  port : ℕ
  address_ok : AddressOk atyp address
  port_lt : port < 65536

lemma http_port_lt : 80 < 65536 := by decide

namespace Destination

variable (dest : Destination)

lemma length_ipv4 (h : dest.atyp = .ipv4) : dest.address.length = 4 := by
  have hok := dest.address_ok
  rwa [h] at hok

lemma length_ipv6 (h : dest.atyp = .ipv6) : dest.address.length = 16 := by
  have hok := dest.address_ok
  rwa [h] at hok

lemma length_domain (h : dest.atyp = .domain) :
    1 ≤ dest.address.length ∧ dest.address.length ≤ 255 := by
  have hok := dest.address_ok
  rwa [h] at hok

def lead : List UInt8 :=
  match dest.atyp with
  | .ipv4 | .ipv6 => [dest.atyp.code]
  | .domain => [dest.atyp.code, UInt8.ofNat dest.address.length]

def portBytes : List UInt8 := [UInt8.ofNat (dest.port / 256), UInt8.ofNat (dest.port % 256)]

def header : List UInt8 := dest.lead ++ dest.address ++ dest.portBytes

/-- How many bytes the parser wants to see before it accepts the header. -/
def need : ℕ :=
  match dest.atyp with
  | .ipv4 => 8
  | .domain => max 5 (dest.address.length + 3)
  | .ipv6 => 20

/-- What the server connects to: not to port `0`, and not to an unspecified address. -/
def Connectable : Prop :=
  dest.port ≠ 0 ∧ (dest.atyp ≠ .domain → dest.address.any (· != 0) = true)

instance : Decidable dest.Connectable := by
  unfold Connectable
  infer_instance

end Destination

structure Request.Denotes (r : Request) (dest : Destination) : Prop where
  addressType_eq : r.addressType = some dest.atyp
  address_eq : r.address = dest.address
  port_eq : r.port = dest.port

def Starts (mem : ℕ → UInt8) (l : List UInt8) : Prop := ∀ i b, l[i]? = some b → mem i = b

lemma Starts.map_range {pre a post : List UInt8} (h : Starts mem (pre ++ a ++ post)) :
    ((List.range a.length).map fun i => mem (pre.length + i)) = a := by
  apply List.ext_getElem (by simp)
  intro i _ hi
  rw [List.getElem_map, List.getElem_range]
  apply h
  rw [List.append_assoc, List.getElem?_append_right (Nat.le_add_right _ _), Nat.add_sub_cancel_left,
    List.getElem?_append_left hi, List.getElem?_eq_getElem hi]

namespace Destination

variable {dest : Destination}

lemma toNat_port (dest : Destination) :
    (UInt8.ofNat (dest.port / 256)).toNat * 256 + (UInt8.ofNat (dest.port % 256)).toNat =
      dest.port := by
  have hlt := dest.port_lt
  rw [UInt8.toNat_ofNat', UInt8.toNat_ofNat']
  omega

lemma length_header (dest : Destination) :
    dest.header.length = dest.lead.length + dest.address.length + 2 := by
  simp [header, portBytes, Nat.add_assoc]

lemma header_zero (dest : Destination) : dest.header[0]? = some dest.atyp.code := by
  unfold header lead
  cases dest.atyp <;> rfl

lemma header_one (hd : dest.atyp = .domain) :
    dest.header[1]? = some (UInt8.ofNat dest.address.length) := by
  simp [header, lead, hd]

lemma addressType_of_zero (h : mem 0 = dest.atyp.code) :
    (Request.mk mem).addressType = some dest.atyp := by
  simp only [Request.addressType, h, AddressType.ofCode_code]

lemma domainNameLen_of_one (hd : dest.atyp = .domain)
    (h : mem 1 = UInt8.ofNat dest.address.length) :
    (Request.mk mem).domainNameLen = dest.address.length := by
  have hlt : dest.address.length < 256 := Nat.lt_succ_of_le (dest.length_domain hd).2
  simp only [Request.domainNameLen, h, UInt8.toNat_ofNat', Nat.reducePow, Nat.mod_eq_of_lt hlt]

lemma addressType_of_starts (h : Starts mem dest.header) :
    (Request.mk mem).addressType = some dest.atyp :=
  addressType_of_zero (h 0 _ dest.header_zero)

lemma domainNameLen_of_starts (h : Starts mem dest.header) (hd : dest.atyp = .domain) :
    (Request.mk mem).domainNameLen = dest.address.length :=
  domainNameLen_of_one hd (h 1 _ (header_one hd))

lemma length_of_starts (h : Starts mem dest.header) :
    (Request.mk mem).length = dest.header.length := by
  rw [length_header, Request.length, Request.addressTypeSize, addressType_of_starts h, lead]
  cases hatyp : dest.atyp with
  | ipv4 => simp [dest.length_ipv4 hatyp]
  | ipv6 => simp [dest.length_ipv6 hatyp]
  | domain => simp [domainNameLen_of_starts h hatyp]

lemma address_of_starts (h : Starts mem dest.header) :
    (Request.mk mem).address = dest.address := by
  have hmap := h.map_range
  rw [Request.address, addressType_of_starts h]
  unfold lead at hmap
  cases hatyp : dest.atyp with
  | ipv4 =>
    rw [hatyp] at hmap
    rwa [dest.length_ipv4 hatyp] at hmap
  | ipv6 =>
    rw [hatyp] at hmap
    rwa [dest.length_ipv6 hatyp] at hmap
  | domain =>
    rw [hatyp] at hmap
    simp only [domainNameLen_of_starts h hatyp]
    exact hmap

lemma port_of_starts (h : Starts mem dest.header) : (Request.mk mem).port = dest.port := by
  have hstart : Starts mem ((dest.lead ++ dest.address) ++ dest.portBytes ++ []) := by
    rw [List.append_nil]
    exact h
  have hmap := hstart.map_range
  have hpos : (Request.mk mem).addressTypeSize - 2 = (dest.lead ++ dest.address).length := by
    have := length_of_starts h
    rw [Request.length, length_header] at this
    rw [this, List.length_append]
    omega
  simp only [portBytes, List.length_cons, List.length_nil, List.range_succ, List.range_zero,
    List.nil_append, List.map_cons, List.map_nil, List.cons_append,
    List.cons.injEq, Nat.add_zero, Nat.zero_add, and_true] at hmap
  rw [Request.port, hpos]
  simp only [hmap.1, hmap.2]
  exact dest.toNat_port

lemma lt_length_of_starts_take {d : ℕ} (hd : 1 ≤ d) (hlt : d < dest.header.length)
    (h : Starts mem (dest.header.take d)) :
    (Request.mk mem).addressType = some dest.atyp ∧ d < (Request.mk mem).length := by
  have hok := dest.address_ok
  have hget (i : ℕ) (hi : i < d) (b : UInt8) (hb : dest.header[i]? = some b) : mem i = b :=
    h i b (by rw [List.getElem?_take_of_lt hi, hb])
  have htype := addressType_of_zero (hget 0 hd _ dest.header_zero)
  refine ⟨htype, ?_⟩
  rw [length_header, lead] at hlt
  rw [Request.length, Request.addressTypeSize, htype]
  cases hatyp : dest.atyp with
  | ipv4 =>
    rw [hatyp] at hlt
    simpa [dest.length_ipv4 hatyp] using hlt
  | ipv6 =>
    rw [hatyp] at hlt
    simpa [dest.length_ipv6 hatyp] using hlt
  | domain =>
    rw [hatyp] at hok hlt
    simp only
    -- one byte does not even hold the length of the name, but no name makes the header short
    by_cases hone : d = 1
    · omega
    rw [domainNameLen_of_one hatyp (hget 1 (by omega) _ (header_one hatyp))]
    simp at hlt
    omega

/-- **The header says what it is for.** -/
theorem denotes_of_starts (h : Starts mem dest.header) : (Request.mk mem).Denotes dest :=
  ⟨addressType_of_starts h, address_of_starts h, port_of_starts h⟩

lemma need_of_starts (h : Starts mem dest.header) : (Request.mk mem).need = dest.need := by
  rw [Request.need, need, addressType_of_starts h]
  cases hatyp : dest.atyp with
  | ipv4 => rfl
  | ipv6 => rfl
  | domain => simp [domainNameLen_of_starts h hatyp]

end Destination

/-! ## Constructors -/

/-- `sizeof(address_type_header)`: the type, the largest address and the port. -/
def sizeofRequest : ℕ := 1 + (1 + 255) + 2

/-- A copy of `bytes` into the request at `pos`. -/
def Request.store (r : Request) (pos : ℕ) (bytes : List UInt8) : Option Request :=
  if pos + bytes.length ≤ sizeofRequest then
    some (r.memcpy pos bytes.length fun i => bytes.getD i 0)
  else none

/-- The bytes of `htons(port)`. -/
def htons (port : ℕ) : List UInt8 := [UInt8.ofNat (port / 256), UInt8.ofNat (port % 256)]

/-- `request(domain_name, port)`. The length is cut to a byte, the copy is not. -/
def Request.ofDomainName (domainName : List UInt8) (port : ℕ) : Option Request := do
  let r ← Request.empty.store 0 [AddressType.domain.code]
  let r ← r.store 1 [UInt8.ofNat domainName.length]
  let r ← r.store 2 domainName
  r.store (2 + domainName.length) (htons port)

/-- `request(endpoint)`, for an address of type `atyp`. -/
def Request.ofEndpoint (atyp : AddressType) (address : List UInt8) (port : ℕ) : Option Request := do
  let r ← Request.empty.store 0 [atyp.code]
  let r ← r.store 1 address
  r.store (1 + address.length) (htons port)

/-- What a request is asked for: an endpoint, or a domain name and a port. -/
structure Asked where
  atyp : AddressType
  address : List UInt8
  port : ℕ
  deriving DecidableEq, Repr

/-- `request_ = {…}`. -/
def Asked.build (asked : Asked) : Option Request :=
  match asked.atyp with
  | .domain => Request.ofDomainName asked.address asked.port
  | .ipv4 | .ipv6 => Request.ofEndpoint asked.atyp asked.address asked.port

/-- `asio::ip::address`. -/
structure IpAddress where
  v6 : Bool
  bytes : List UInt8
  length_eq : bytes.length = if v6 then 16 else 4
  deriving DecidableEq

structure Endpoint where
  address : IpAddress
  port : ℕ
  port_lt : port < 65536
  deriving DecidableEq

def IpAddress.atyp (a : IpAddress) : AddressType := if a.v6 then .ipv6 else .ipv4

/-- `is_unspecified()`. -/
def IpAddress.unspecified (a : IpAddress) : Bool := a.bytes.all (· == 0)

/-- A host and a port: the host may be the text of an address, as `make_address` reads it. -/
def askHost (makeAddress : List UInt8 → Option IpAddress) (host : List UInt8) (port : ℕ) : Asked :=
  match makeAddress host with
  | some a => ⟨a.atyp, a.bytes, port⟩
  | none => ⟨.domain, host, port⟩

/-- The request is for what was asked for: a port other than `0`, and an address, or a domain of `1`
to `255` bytes whose length byte is its length. Nothing is written behind the object. -/
structure Request.Serves (r : Request) (asked : Asked) : Prop where
  type_eq : r.addressType = some asked.atyp
  address_eq : r.address = asked.address
  port_eq : r.port = asked.port
  port_ne : r.port ≠ 0
  domain : asked.atyp = .domain → 1 ≤ asked.address.length ∧ asked.address.length ≤ 255 ∧
    r.domainNameLen = asked.address.length
  within : ∀ i, sizeofRequest ≤ i → r.raw i = 0

def Destination.asked (dest : Destination) : Asked := ⟨dest.atyp, dest.address, dest.port⟩

/-- What is asked for is a destination with a port other than `0`. -/
def Asked.Proper (asked : Asked) : Prop := ∃ dest : Destination, dest.asked = asked ∧ dest.port ≠ 0

section Constructors

variable {r : Request} {written : List UInt8}

structure Request.Filled (r : Request) (written : List UInt8) : Prop where
  starts : Starts r.raw written
  within : ∀ i, sizeofRequest ≤ i → r.raw i = 0

lemma filled_empty : Request.empty.Filled [] where
  starts i b h := by cases h
  within _ _ := rfl

lemma Request.Filled.store (h : r.Filled written) (pos : ℕ) (bytes : List UInt8)
    (hpos : pos = written.length) (hfits : written.length + bytes.length ≤ sizeofRequest) :
    ∃ r', r.store pos bytes = some r' ∧ r'.Filled (written ++ bytes) := by
  subst hpos
  refine ⟨_, if_pos hfits, ?_, ?_⟩
  · intro i b hb
    simp only [Request.memcpy]
    rcases Nat.lt_or_ge i written.length with hlt | hge
    · rw [List.getElem?_append_left hlt] at hb
      rw [if_neg (by omega)]
      exact h.starts i b hb
    rw [List.getElem?_append_right hge] at hb
    have hlt := (List.getElem?_eq_some_iff.mp hb).1
    rw [if_pos (by omega), List.getD_eq_getElem?_getD, hb, Option.getD_some]
  intro i hi
  simp only [Request.memcpy]
  rw [if_neg (by omega)]
  exact h.within i hi

lemma Request.ofDomainName_filled {domainName : List UInt8} (hlen : domainName.length ≤ 255)
    (port : ℕ) : ∃ r, Request.ofDomainName domainName port = some r ∧
      r.Filled ([AddressType.domain.code, UInt8.ofNat domainName.length] ++ domainName ++
        htons port) := by
  obtain ⟨r₀, h₀, hf₀⟩ := filled_empty.store 0 [AddressType.domain.code] rfl
    (by simp [sizeofRequest])
  obtain ⟨r₁, h₁, hf₁⟩ := hf₀.store 1 [UInt8.ofNat domainName.length] rfl (by simp [sizeofRequest])
  obtain ⟨r₂, h₂, hf₂⟩ := hf₁.store 2 domainName rfl (by simp [sizeofRequest]; omega)
  have hpos : 2 + domainName.length = ([] ++ [AddressType.domain.code] ++
      [UInt8.ofNat domainName.length] ++ domainName).length := by simp; omega
  obtain ⟨r₃, h₃, hf₃⟩ := hf₂.store _ (htons port) hpos (by simp [sizeofRequest, htons]; omega)
  refine ⟨r₃, ?_, hf₃⟩
  simp only [Request.ofDomainName, h₀, Option.bind_eq_bind, Option.bind_some, h₁, h₂, h₃]

lemma Request.ofEndpoint_filled (atyp : AddressType) {address : List UInt8}
    (hlen : address.length ≤ 255) (port : ℕ) :
    ∃ r, Request.ofEndpoint atyp address port = some r ∧
      r.Filled ([atyp.code] ++ address ++ htons port) := by
  obtain ⟨r₀, h₀, hf₀⟩ := filled_empty.store 0 [atyp.code] rfl (by simp [sizeofRequest])
  obtain ⟨r₁, h₁, hf₁⟩ := hf₀.store 1 address rfl (by simp [sizeofRequest]; omega)
  have hpos : 1 + address.length = ([] ++ [atyp.code] ++ address).length := by simp; omega
  obtain ⟨r₂, h₂, hf₂⟩ := hf₁.store _ (htons port) hpos (by simp [sizeofRequest, htons]; omega)
  refine ⟨r₂, ?_, hf₂⟩
  simp only [Request.ofEndpoint, h₀, Option.bind_eq_bind, Option.bind_some, h₁, h₂]

lemma Destination.build_filled (dest : Destination) :
    ∃ r, dest.asked.build = some r ∧ r.Filled dest.header := by
  unfold Asked.build Destination.asked Destination.header Destination.lead
  cases hatyp : dest.atyp with
  | domain => exact Request.ofDomainName_filled (dest.length_domain hatyp).2 dest.port
  | ipv4 =>
    exact Request.ofEndpoint_filled .ipv4 (by rw [dest.length_ipv4 hatyp]; simp) dest.port
  | ipv6 =>
    exact Request.ofEndpoint_filled .ipv6 (by rw [dest.length_ipv6 hatyp]; simp) dest.port

/-- **The constructors.** For a destination with a port other than `0` the request serves what was
asked for. -/
lemma Destination.build_serves (dest : Destination) (hport : dest.port ≠ 0) :
    ∃ r, dest.asked.build = some r ∧ r.Serves dest.asked := by
  obtain ⟨r, hr, hfilled⟩ := dest.build_filled
  have hdenotes := Destination.denotes_of_starts hfilled.starts
  refine ⟨r, hr, hdenotes.addressType_eq, hdenotes.address_eq, hdenotes.port_eq, ?_, ?_,
    hfilled.within⟩
  · rw [hdenotes.port_eq]
    exact hport
  intro hdomain
  obtain ⟨hpos, hle⟩ := dest.length_domain hdomain
  exact ⟨hpos, hle, Destination.domainNameLen_of_starts hfilled.starts hdomain⟩

lemma Asked.Proper.build_serves {asked : Asked} (h : asked.Proper) :
    ∃ r, asked.build = some r ∧ r.Serves asked := by
  obtain ⟨dest, rfl, hport⟩ := h
  exact dest.build_serves hport

variable {port : ℕ}

lemma IpAddress.proper (a : IpAddress) (hlt : port < 65536) (hne : port ≠ 0) :
    Asked.Proper ⟨a.atyp, a.bytes, port⟩ := by
  have hlen := a.length_eq
  refine ⟨⟨a.atyp, a.bytes, port, ?_, hlt⟩, rfl, hne⟩
  unfold IpAddress.atyp
  split_ifs with hv6
  · show a.bytes.length = 16
    simpa [hv6] using hlen
  · show a.bytes.length = 4
    simpa [hv6] using hlen

lemma proper_domain {name : List UInt8} (hpos : name ≠ []) (hle : name.length ≤ 255)
    (hlt : port < 65536) (hne : port ≠ 0) : Asked.Proper ⟨.domain, name, port⟩ :=
  ⟨⟨.domain, name, port, ⟨List.length_pos_iff.mpr hpos, hle⟩, hlt⟩, rfl, hne⟩

lemma proper_askHost (makeAddress : List UInt8 → Option IpAddress) {host : List UInt8}
    (hpos : host ≠ []) (hle : host.length ≤ 255) (hlt : port < 65536) (hne : port ≠ 0) :
    (askHost makeAddress host port).Proper := by
  unfold askHost
  cases makeAddress host with
  | some a => exact a.proper hlt hne
  | none => exact proper_domain hpos hle hlt hne

lemma Asked.build_eq_none {asked : Asked} (hatyp : asked.atyp = .domain)
    (hlong : 255 < asked.address.length) : asked.build = none := by
  have hend : ∀ r : Request, r.store (2 + asked.address.length) (htons asked.port) = none := by
    intro r
    apply if_neg
    simp [sizeofRequest, htons]
    omega
  simp [Asked.build, hatyp, Request.ofDomainName, hend]

end Constructors

/-! ### The parser stays inside the object -/

lemma Request.raw_memcpy_of_ge {r : Request} {pos n i : ℕ} {src : ℕ → UInt8} (h : pos + n ≤ i) :
    (r.memcpy pos n src).raw i = r.raw i := by
  simp only [Request.memcpy]
  rw [if_neg (by omega)]

lemma Request.addressTypeSize_le (r : Request) : r.addressTypeSize ≤ sizeofRequest := by
  have hlen : r.domainNameLen < 256 := (r.raw 1).toNat_lt
  unfold Request.addressTypeSize sizeofRequest
  split <;> omega

lemma Request.raw_setPort_of_ge {r : Request} {high low : UInt8} {i : ℕ} (h : sizeofRequest ≤ i) :
    (r.setPort high low).raw i = r.raw i := by
  have hle := r.addressTypeSize_le
  have hle' := (r.memcpy (r.addressTypeSize - 2) 1 fun _ => high).addressTypeSize_le
  have hsize : 2 < sizeofRequest := by decide
  unfold Request.setPort
  dsimp only
  rw [Request.raw_memcpy_of_ge (by omega), Request.raw_memcpy_of_ge (by omega)]

lemma raw_parse_of_ge (req : Request) (mem : ℕ → UInt8) (n : ℕ) {i : ℕ} (h : sizeofRequest ≤ i) :
    (parse req mem n).req.raw i = req.raw i := by
  have hsize : sizeofRequest = 259 := rfl
  have htype : (req.memcpy 0 1 mem).raw i = req.raw i := Request.raw_memcpy_of_ge (by omega)
  unfold parse
  dsimp only
  by_cases hzero : n < 1
  · rw [if_pos hzero]
  rw [if_neg hzero]
  cases hatyp : (req.memcpy 0 1 mem).addressType with
  | none => exact htype
  | some atyp =>
    dsimp only
    by_cases hshort : n - 1 < (req.memcpy 0 1 mem).addressTypeSize
    · rw [if_pos hshort]
      exact htype
    rw [if_neg hshort]
    cases atyp with
    | ipv4 =>
      dsimp only
      rw [Request.raw_setPort_of_ge h, Request.raw_memcpy_of_ge (by omega), htype]
    | ipv6 =>
      dsimp only
      rw [Request.raw_setPort_of_ge h, Request.raw_memcpy_of_ge (by omega), htype]
    | domain =>
      dsimp only
      have hlen : ((req.memcpy 0 1 mem).memcpy 1 1 fun k => mem (1 + k)).raw i = req.raw i := by
        rw [Request.raw_memcpy_of_ge (by omega), htype]
      have hlt : ((req.memcpy 0 1 mem).memcpy 1 1 fun k => mem (1 + k)).domainNameLen < 256 :=
        UInt8.toNat_lt _
      split_ifs with hmissing
      · exact hlen
      · dsimp only
        rw [Request.raw_setPort_of_ge h, Request.raw_memcpy_of_ge (by omega), hlen]

def Request.asked (r : Request) : Asked := ⟨r.addressType.getD .domain, r.address, r.port⟩

lemma serves_parse (hgood : (parse .empty mem n).result = .good)
    (hport : (parse .empty mem n).req.port ≠ 0)
    (hname : (parse .empty mem n).req.addressType = some .domain →
      (parse .empty mem n).req.address ≠ []) :
    (parse .empty mem n).req.Serves (parse .empty mem n).req.asked := by
  obtain ⟨t, htype, hc⟩ := parse_good hgood
  have htype' := (hc.holds.eq_of_length hc.long).2.1.trans htype
  refine ⟨by rw [Request.asked, htype', Option.getD_some], rfl, rfl, hport, ?_, fun i hi => ?_⟩
  · intro hdomain
    rw [Request.asked, htype', Option.getD_some] at hdomain
    have hdomain' : t = .domain := hdomain
    rw [hdomain'] at htype'
    have hlen : (parse .empty mem n).req.address.length =
        (parse .empty mem n).req.domainNameLen := by
      rw [Request.address, htype']
      simp
    have hlt : (parse .empty mem n).req.domainNameLen < 256 := UInt8.toNat_lt _
    refine ⟨List.length_pos_iff.mpr (hname htype'), ?_, hlen.symm⟩
    show (parse .empty mem n).req.address.length ≤ 255
    omega
  · rw [raw_parse_of_ge _ _ _ hi]
    rfl

end Yass.Net.Ss
