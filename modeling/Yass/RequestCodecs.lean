import Yass.Cli.Upstream
import Yass.Net.Socks4Request

/-!
# Requests and their parsers

The encoder and the parser of each kind of request, for every destination and for every input.

Source: `net/ss_request.hpp`, `net/ss_request_parser.hpp`, `net/socks5_request.hpp`,
`net/socks5_request_parser.hpp`, `net/socks4_request.hpp`, `net/socks4_request_parser.hpp`, and the
messages of `cli/cli_connection.cpp` as modelled in `Cli/Upstream`.
-/

namespace Yass

open Yass.Net
open Yass.Net.Ss (Destination Starts)

variable {mem : ℕ → UInt8} {n : ℕ}

/-! ## Shadowsocks -/

namespace Net.Ss

def Truncated (mem : ℕ → UInt8) (n : ℕ) : Prop :=
  (Request.mk mem).addressType = some .domain ∧ 2 ≤ (Request.mk mem).domainNameLen ∧
    n = (Request.mk mem).domainNameLen + 3

structure ParsesBack (dest : Destination) (p : Parsed) (n : ℕ) : Prop where
  good : p.result = .good
  denotes : p.req.Denotes dest
  consumed : p.consumed = n

lemma extent_of_not_good (h : (parse .empty mem n).result ≠ .good) :
    (parse .empty mem n).extent ≤ n := by
  have htype : (Request.empty.memcpy 0 1 mem).addressType = (Request.mk mem).addressType := rfl
  unfold parse at h ⊢
  by_cases hzero : n < 1
  · rw [if_pos hzero]
    exact Nat.zero_le n
  rw [if_neg hzero] at h ⊢
  simp only [htype] at h ⊢
  cases hatyp : (Request.mk mem).addressType with
  | none => exact Nat.le_of_not_lt hzero
  | some t =>
    simp only [hatyp] at h
    dsimp only
    by_cases hshort : n - 1 < (Request.empty.memcpy 0 1 mem).addressTypeSize
    · rw [if_pos hshort]
      exact Nat.le_of_not_lt hzero
    rw [if_neg hshort] at h ⊢
    cases t with
    | ipv4 => exact absurd rfl h
    | ipv6 => exact absurd rfl h
    | domain =>
      have hsize : (Request.empty.memcpy 0 1 mem).addressTypeSize = 4 := by
        have hlen : (Request.empty.memcpy 0 1 mem).domainNameLen = 0 := rfl
        rw [Request.addressTypeSize, htype, hatyp, hlen]
      dsimp only at h ⊢
      split_ifs at h ⊢
      · show 2 ≤ n
        omega
      · exact absurd rfl h

lemma extent_le_iff (mem : ℕ → UInt8) (n : ℕ) :
    (parse .empty mem n).extent ≤ n ↔ ¬ Truncated mem n := by
  cases htype : (Request.mk mem).addressType with
  | none =>
    have hbad : (parse .empty mem n).result ≠ .good := by
      intro hgood
      obtain ⟨t, ht, -⟩ := parse_good hgood
      rw [htype] at ht
      cases ht
    simp [extent_of_not_good hbad, Truncated, htype]
  | some t =>
    rcases Nat.lt_or_ge n (Request.mk mem).need with hlt | hge
    · have hresult := parse_indeterminate htype hlt
      have hle := extent_of_not_good (by rw [hresult]; simp)
      simp only [hle, true_iff]
      rintro ⟨hdomain, hlen, rfl⟩
      rw [Request.need, hdomain] at hlt
      simp only at hlt
      omega
    have hc := parse_complete htype hge
    have hlength := (hc.holds.eq_of_length hc.long).1
    rw [hc.extent_eq, hlength, Request.length, Request.addressTypeSize]
    rw [Request.need, htype] at hge
    unfold Truncated
    rw [htype]
    cases t with
    | ipv4 => simp at hge ⊢; omega
    | ipv6 => simp at hge ⊢; omega
    | domain =>
      simp only [true_and, not_and] at hge ⊢
      constructor
      · intro hle hlen heq
        omega
      intro hne
      by_contra hlt
      exact hne (by omega) (by omega)

section Headers

variable {dest : Destination} {r : Request}

lemma starts_of_holds {k : ℕ} {l : List UInt8} (hr : Starts r.raw l) (h : r.Holds mem k) :
    Starts mem (l.take k) := by
  intro i b hb
  have hi : i < k := by
    have := (List.getElem?_eq_some_iff.mp hb).1
    rw [List.length_take] at this
    omega
  rw [List.getElem?_take_of_lt hi] at hb
  rw [← h i hi]
  exact hr i b hb

lemma parsesBack_iff (h : Starts mem dest.header) :
    ParsesBack dest (parse .empty mem dest.header.length) dest.header.length ↔
      dest.atyp = .domain := by
  have htype := Destination.addressType_of_starts h
  have hneed := Destination.need_of_starts h
  have hok := dest.address_ok
  have hlen := dest.length_header
  constructor
  · intro hback
    by_contra hne
    have hlt : dest.header.length < (Request.mk mem).need := by
      rw [hneed, hlen, Destination.need, Destination.lead]
      cases hatyp : dest.atyp with
      | ipv4 => simp [dest.length_ipv4 hatyp]
      | ipv6 => simp [dest.length_ipv6 hatyp]
      | domain => exact absurd hatyp hne
    have hgood := hback.good
    rw [parse_indeterminate htype hlt] at hgood
    cases hgood
  intro hdomain
  rw [hdomain] at hok
  have hge : (Request.mk mem).need ≤ dest.header.length := by
    rw [hneed, hlen, Destination.need, Destination.lead, hdomain]
    have := hok.1
    simp
    omega
  have hc := parse_complete htype hge
  obtain ⟨hlength, htype', haddress, hport⟩ := hc.holds.eq_of_length hc.long
  refine ⟨hc.good, ⟨htype'.trans htype, ?_, ?_⟩, ?_⟩
  · rw [haddress, Destination.address_of_starts h]
  · rw [hport, Destination.port_of_starts h]
  · rw [hc.consumed_eq, hlength, Destination.length_of_starts h]

lemma indeterminate_iff {k : ℕ} (hk : k < dest.header.length)
    (h : Starts mem (dest.header.take k)) :
    (parse .empty mem k).result = .indeterminate ↔
      ¬ (dest.atyp = .domain ∧ 2 ≤ dest.address.length ∧ k = dest.address.length + 3) := by
  have hok := dest.address_ok
  have hlen := dest.length_header
  rw [Destination.lead] at hlen
  by_cases hzero : k < 1
  · have hresult : (parse .empty mem k).result = .indeterminate := by
      unfold parse
      rw [if_pos hzero]
    simp only [hresult, true_iff]
    omega
  have hget (i : ℕ) (hi : i < k) (b : UInt8) (hb : dest.header[i]? = some b) : mem i = b :=
    h i b (by rw [List.getElem?_take_of_lt hi, hb])
  have htype := Destination.addressType_of_zero (hget 0 (by omega) _ dest.header_zero)
  -- how much the parser wants is known from the first two bytes
  have hneed : k < (Request.mk mem).need ↔
      ¬ (dest.atyp = .domain ∧ 2 ≤ dest.address.length ∧ k = dest.address.length + 3) := by
    rw [Request.need, htype]
    cases hatyp : dest.atyp with
    | ipv4 =>
      rw [hatyp] at hlen
      simp [dest.length_ipv4 hatyp] at hlen ⊢
      omega
    | ipv6 =>
      rw [hatyp] at hlen
      simp [dest.length_ipv6 hatyp] at hlen ⊢
      omega
    | domain =>
      rw [hatyp] at hok hlen
      simp only [List.length_cons, List.length_nil] at hlen
      simp only [true_and]
      by_cases hone : k = 1
      · omega
      have hname : (Request.mk mem).domainNameLen = dest.address.length :=
        Destination.domainNameLen_of_one hatyp
          (hget 1 (by omega) _ (Destination.header_one hatyp))
      rw [hname]
      omega
  rw [← hneed]
  constructor
  · intro hresult
    by_contra hge
    have hgood := (parse_complete htype (Nat.le_of_not_lt hge)).good
    rw [hresult] at hgood
    cases hgood
  · exact parse_indeterminate htype

end Headers

end Net.Ss

/-- **The Shadowsocks request codec.** For every destination, the header that the request holds is
taken back as a whole exactly for a domain, and every part of it asks for more, except for a domain
of at least two bytes of which the last byte is missing. Such headers are the only inputs behind
which the parser looks. -/
theorem ss_request_codec_iff (dest : Destination) (input : ℕ → UInt8) (n : ℕ) :
    (∃ r, dest.asked.build = some r ∧
      (∀ mem, r.Holds mem r.length →
        (Ss.ParsesBack dest (Ss.parse .empty mem r.length) r.length ↔ dest.atyp = .domain)) ∧
      ∀ mem k, k < r.length → r.Holds mem k →
        ((Ss.parse .empty mem k).result = .indeterminate ↔
          ¬ (dest.atyp = .domain ∧ 2 ≤ dest.address.length ∧ k = dest.address.length + 3))) ∧
    ((Ss.parse .empty input n).extent ≤ n ↔ ¬ Ss.Truncated input n) := by
  refine ⟨?_, Ss.extent_le_iff input n⟩
  obtain ⟨r, hr, hfilled⟩ := dest.build_filled
  have hlength : r.length = dest.header.length := Destination.length_of_starts hfilled.starts
  refine ⟨r, hr, fun mem hmem => ?_, fun mem k hk hmem => ?_⟩
  · have hstarts := Ss.starts_of_holds hfilled.starts hmem
    rw [hlength, List.take_length] at hstarts
    rw [hlength]
    exact Ss.parsesBack_iff hstarts
  · rw [hlength] at hk
    exact Ss.indeterminate_iff hk (Ss.starts_of_holds hfilled.starts hmem)

theorem ss_request_codec_sample :
    let dest : Destination := ⟨.domain, [97, 98], 80, ⟨by decide, by decide⟩, by decide⟩
    ∃ r, dest.asked.build = some r ∧
      Ss.ParsesBack dest (Ss.parse .empty r.raw r.length) r.length := by
  intro dest
  obtain ⟨⟨r, hr, hback, -⟩, -⟩ := ss_request_codec_iff dest (fun _ => 0) 0
  exact ⟨r, hr, (hback r.raw fun _ _ => rfl).mpr rfl⟩

/-- The header of `10.0.0.1:80` is not accepted as it stands. That of `ab:80` is accepted without
its last byte, with one byte read behind the input. -/
theorem ss_header_misread :
    (∃ r, (Ss.Asked.mk .ipv4 [10, 0, 0, 1] 80).build = some r ∧ r.length = 7 ∧
      (Ss.parse .empty r.raw 7).result = .indeterminate) ∧
    ∃ r, (Ss.Asked.mk .domain [97, 98] 80).build = some r ∧ r.length = 6 ∧
      (Ss.parse .empty r.raw 5).result = .good ∧ (Ss.parse .empty r.raw 5).extent = 6 :=
  ⟨⟨_, rfl, by decide +kernel, by decide +kernel⟩,
    ⟨_, rfl, by decide +kernel, by decide +kernel, by decide +kernel⟩⟩

/-! ## What the client writes -/

namespace Cli.Upstream

variable {dest : Destination} {r : Ss.Request}

lemma portBytes_of_starts (h : Starts r.raw dest.header) : portBytes r = dest.portBytes := by
  have hstart : Starts r.raw ((dest.lead ++ dest.address) ++ dest.portBytes ++ []) := by
    rw [List.append_nil]
    exact h
  have hmap := hstart.map_range
  have hpos : r.addressTypeSize - 2 = (dest.lead ++ dest.address).length := by
    have hlength : r.length = dest.header.length := Destination.length_of_starts h
    rw [Ss.Request.length, Destination.length_header] at hlength
    rw [hlength, List.length_append]
    omega
  rw [portBytes, hpos]
  exact hmap

lemma socks5Request_of_starts (h : Starts r.raw dest.header) :
    socks5Request r = [Socks5.version, cmdConnect, 0] ++ dest.header := by
  have htype : r.addressType = some dest.atyp := Destination.addressType_of_starts h
  have haddress : r.address = dest.address := Destination.address_of_starts h
  rw [socks5Request, portBytes_of_starts h, htype, Destination.header, Destination.lead]
  cases hatyp : dest.atyp with
  | ipv4 =>
    rw [← haddress, Ss.Request.address, htype, hatyp]
    rfl
  | ipv6 =>
    rw [haddress]
    rfl
  | domain =>
    rw [haddress]
    rfl

end Cli.Upstream

/-! ## SOCKS5 -/

namespace Net.Socks5

def requestMessage (command : UInt8) (dest : Destination) : List UInt8 :=
  [version, command, 0] ++ dest.header

def Request.ofDestination (command : UInt8) (dest : Destination) : Request :=
  ⟨command, dest.atyp, dest.address, dest.port⟩

def Truncated (mem : ℕ → UInt8) (n : ℕ) : Prop :=
  mem 0 = version ∧ (behind mem).addressType = some .domain ∧ 1 ≤ (behind mem).domainNameLen ∧
    n = (behind mem).domainNameLen + 6

variable {command : UInt8} {dest : Destination}

lemma length_requestMessage (command : UInt8) (dest : Destination) :
    (requestMessage command dest).length = 3 + dest.header.length := by
  rw [requestMessage, List.length_append]
  rfl

variable {k : ℕ}

lemma starts_behind (h : Starts mem ((requestMessage command dest).take (3 + k))) :
    mem 0 = version ∧ mem 1 = command ∧ Starts (behind mem).raw (dest.header.take k) := by
  have hsplit : (requestMessage command dest).take (3 + k) =
      [version, command, 0] ++ dest.header.take k := by
    rw [requestMessage, List.take_append, List.take_of_length_le (by simp)]
    simp
  rw [hsplit] at h
  refine ⟨h 0 _ rfl, h 1 _ rfl, fun i b hb => h (3 + i) b ?_⟩
  rw [List.getElem?_append_right (by simp)]
  simpa using hb

lemma length_ofDestination (command : UInt8) (dest : Destination) :
    (Request.ofDestination command dest).length = (requestMessage command dest).length := by
  have hok := dest.address_ok
  rw [length_requestMessage, Destination.length_header, Request.ofDestination, Request.length,
    Destination.lead]
  cases hatyp : dest.atyp with
  | ipv4 => simp [dest.length_ipv4 hatyp]
  | ipv6 => simp [dest.length_ipv6 hatyp]
  | domain =>
    simp
    omega

lemma need_of_starts (h : Starts (behind mem).raw dest.header) :
    need mem =
      if dest.atyp = .domain then dest.header.length + 2 else dest.header.length + 3 := by
  have htype : (behind mem).addressType = some dest.atyp := Destination.addressType_of_starts h
  have hok := dest.address_ok
  rw [need, htype, Destination.length_header, Destination.lead]
  cases hatyp : dest.atyp with
  | ipv4 => simp [dest.length_ipv4 hatyp]
  | ipv6 => simp [dest.length_ipv6 hatyp]
  | domain =>
    rw [hatyp] at hok
    have hlen : (behind mem).domainNameLen = dest.address.length :=
      Destination.domainNameLen_of_starts h hatyp
    have := hok.1
    simp [hlen]
    omega

lemma requestTrace_message (h : Starts mem (requestMessage command dest))
    (hn : (requestMessage command dest).length ≤ n) :
    requestTrace mem n =
      ⟨.good, some (Request.ofDestination command dest), (requestMessage command dest).length,
        (requestMessage command dest).length⟩ := by
  rw [← List.take_length (l := requestMessage command dest), length_requestMessage] at h
  obtain ⟨hver, hcommand, hstarts⟩ := starts_behind h
  rw [List.take_length] at hstarts
  have htype : (behind mem).addressType = some dest.atyp :=
    Destination.addressType_of_starts hstarts
  have haddress : (behind mem).address = dest.address := Destination.address_of_starts hstarts
  have hport : (behind mem).port = dest.port := Destination.port_of_starts hstarts
  have hlength : (behind mem).length = dest.header.length := Destination.length_of_starts hstarts
  have hneed : need mem ≤ n := by
    rw [length_requestMessage] at hn
    rw [need_of_starts hstarts]
    split_ifs <;> omega
  rw [requestTrace_of_ge hver htype hneed, haddress, hport, hlength, hcommand,
    length_requestMessage]
  rfl

lemma requestTrace_part (hk : k < (requestMessage command dest).length)
    (h : Starts mem ((requestMessage command dest).take k)) :
    (requestTrace mem k).result = .indeterminate ↔
      ¬ (dest.atyp = .domain ∧ k = dest.address.length + 6) := by
  have hok := dest.address_ok
  have hlen := dest.length_header
  rw [length_requestMessage] at hk
  rw [Destination.lead] at hlen
  have hget (i : ℕ) (hi : i < k) (b : UInt8)
      (hb : (requestMessage command dest)[i]? = some b) : mem i = b :=
    h i b (by rw [List.getElem?_take_of_lt hi, hb])
  have hver : 3 ≤ k → mem 0 = version := fun hle => hget 0 (by omega) _ rfl
  have hbehind (i : ℕ) (hi : 3 + i < k) (b : UInt8) (hb : dest.header[i]? = some b) :
      (behind mem).raw i = b := by
    refine hget (3 + i) hi b ?_
    rw [requestMessage, List.getElem?_append_right (by simp)]
    simpa using hb
  have htype : 4 ≤ k → (behind mem).addressType = some dest.atyp := fun hle =>
    Destination.addressType_of_zero (hbehind 0 (by omega) _ dest.header_zero)
  have hneed : 4 ≤ k → (k < need mem ↔ ¬ (dest.atyp = .domain ∧ k = dest.address.length + 6)) := by
    intro hle
    rw [need, htype hle]
    cases hatyp : dest.atyp with
    | ipv4 =>
      rw [hatyp] at hlen
      simp [dest.length_ipv4 hatyp] at hlen ⊢
      omega
    | ipv6 =>
      rw [hatyp] at hlen
      simp [dest.length_ipv6 hatyp] at hlen ⊢
      omega
    | domain =>
      rw [hatyp] at hok hlen
      have := hok.1
      simp only [List.length_cons, List.length_nil] at hlen
      simp only [true_and]
      by_cases hone : k = 4
      · omega
      have hname : (behind mem).domainNameLen = dest.address.length :=
        Destination.domainNameLen_of_one hatyp
          (hbehind 1 (by omega) _ (Destination.header_one hatyp))
      rw [hname]
      omega
  constructor
  · rintro hresult ⟨hdomain, rfl⟩
    have hle : 4 ≤ dest.address.length + 6 := by omega
    have hge : need mem ≤ dest.address.length + 6 := by
      by_contra hlt
      exact (hneed hle).mp (Nat.lt_of_not_le hlt) ⟨hdomain, rfl⟩
    rw [requestTrace_of_ge (hver (by omega)) (htype hle) hge] at hresult
    cases hresult
  · intro hne
    exact (requestTrace_of_lt hver (fun hle => ⟨_, htype hle⟩) fun hle => (hneed hle).mpr hne).1

lemma length_behind {t : Ss.AddressType} (htype : (behind mem).addressType = some t) :
    Request.length ⟨mem 1, t, (behind mem).address, (behind mem).port⟩ =
      3 + (behind mem).length := by
  rw [Request.length, Ss.Request.length, Ss.Request.addressTypeSize, htype]
  cases t with
  | ipv4 => rfl
  | ipv6 => rfl
  | domain =>
    have hname : (behind mem).address.length = (behind mem).domainNameLen := by
      rw [Ss.Request.address, htype]
      simp
    simp only [hname]
    omega

lemma requestParse_part (hk : k < (requestMessage command dest).length)
    (h : Starts mem ((requestMessage command dest).take k)) {r : Request}
    (hparse : requestParse mem k = (.good, some r)) : k < r.length := by
  have htrace := requestTrace_parse mem k
  rw [hparse] at htrace
  obtain ⟨hgood, hsome⟩ := Prod.ext_iff.mp htrace
  obtain ⟨hdomain, rfl⟩ : dest.atyp = .domain ∧ k = dest.address.length + 6 := by
    by_contra hne
    rw [(requestTrace_part hk h).mpr hne] at hgood
    cases hgood
  rw [show dest.address.length + 6 = 3 + (dest.address.length + 3) by omega] at h
  obtain ⟨hver, -, hstarts⟩ := starts_behind h
  have htype : (behind mem).addressType = some .domain := by
    rw [← hdomain]
    apply Destination.addressType_of_zero
    exact hstarts 0 _ (by rw [List.getElem?_take_of_lt (by omega), dest.header_zero])
  have hlen : (behind mem).domainNameLen = dest.address.length := by
    apply Destination.domainNameLen_of_one hdomain
    exact hstarts 1 _ (by rw [List.getElem?_take_of_lt (by omega), Destination.header_one hdomain])
  have hneed : need mem ≤ dest.address.length + 6 := by
    have := (dest.length_domain hdomain).1
    rw [need, htype]
    simp only [hlen]
    omega
  rw [requestTrace_of_ge hver htype hneed, Option.some_inj] at hsome
  rw [← hsome, length_behind htype, Ss.Request.length, Ss.Request.addressTypeSize, htype]
  simp only [hlen]
  omega

lemma requestTrace_inside_iff (mem : ℕ → UInt8) (n : ℕ) :
    ((requestTrace mem n).extent ≤ n ∧
      ∀ r, (requestTrace mem n).request = some r → r.length ≤ n) ↔ ¬ Truncated mem n := by
  have hnot (h : (requestTrace mem n).request = none ∧ (requestTrace mem n).extent ≤ n)
      (ht : ¬ Truncated mem n) : ((requestTrace mem n).extent ≤ n ∧
        ∀ r, (requestTrace mem n).request = some r → r.length ≤ n) ↔ ¬ Truncated mem n := by
    refine iff_of_true ⟨h.2, fun r hr => ?_⟩ ht
    rw [h.1] at hr
    cases hr
  by_cases hver : mem 0 = version
  · cases htype : (behind mem).addressType with
    | none =>
      have htrunc : ¬ Truncated mem n := by
        rintro ⟨-, hdomain, -⟩
        rw [htype] at hdomain
        cases hdomain
      rcases Nat.lt_or_ge n 4 with hlt | hge
      · exact hnot (requestTrace_of_lt (fun _ => hver) (fun hle => absurd hle (by omega))
          fun hle => absurd hle (by omega)).2 htrunc
      · exact hnot (requestTrace_of_bad (Or.inr ⟨hge, hver, htype⟩)).2 htrunc
    | some t =>
      rcases Nat.lt_or_ge n (need mem) with hlt | hge
      · refine hnot (requestTrace_of_lt (fun _ => hver) (fun _ => ⟨t, htype⟩) fun _ => hlt).2 ?_
        rintro ⟨-, hdomain, hlen, rfl⟩
        rw [need, hdomain] at hlt
        simp only at hlt
        omega
      have hrequest := length_behind htype
      rw [requestTrace_of_ge hver htype hge]
      simp only [Option.some.injEq, forall_eq', hrequest, and_self]
      rw [Ss.Request.length, Ss.Request.addressTypeSize, htype]
      rw [need, htype] at hge
      unfold Truncated
      rw [htype]
      cases t with
      | ipv4 => simp at hge ⊢; omega
      | ipv6 => simp at hge ⊢; omega
      | domain =>
        simp only [hver, true_and, not_and] at hge ⊢
        constructor
        · intro hle hlen heq
          omega
        intro hne
        by_contra hlt
        exact hne (by omega) (by omega)
  have htrunc : ¬ Truncated mem n := fun h => hver h.1
  rcases Nat.lt_or_ge n 3 with hlt | hge
  · exact hnot (requestTrace_of_lt (fun hle => absurd hle (by omega))
      (fun hle => absurd hle (by omega)) fun hle => absurd hle (by omega)).2 htrunc
  · exact hnot (requestTrace_of_bad (Or.inl ⟨hge, hver⟩)).2 htrunc

end Net.Socks5

/-- **The SOCKS5 request codec.** The message that the client writes to an upstream server is the
encoding of its destination. For every destination and command the parser takes the encoding back as
a whole, and asks for more on every part of it, except for a domain of which the last byte is
missing. Such messages are the only inputs behind which the parser looks, and the only ones that it
takes for longer than they are. -/
theorem socks5_request_codec_iff (command : UInt8) (dest : Destination) (input : ℕ → UInt8)
    (n : ℕ) :
    (∃ r, dest.asked.build = some r ∧
      Cli.Upstream.socks5Request r = Socks5.requestMessage Socks5.cmdConnect dest) ∧
    ((∀ mem, Starts mem (Socks5.requestMessage command dest) →
        Socks5.requestTrace mem (Socks5.requestMessage command dest).length =
          ⟨.good, some (.ofDestination command dest),
            (Socks5.Request.ofDestination command dest).length,
            (Socks5.Request.ofDestination command dest).length⟩) ∧
      ∀ mem k, k < (Socks5.requestMessage command dest).length →
        Starts mem ((Socks5.requestMessage command dest).take k) →
        ((Socks5.requestTrace mem k).result = .indeterminate ↔
          ¬ (dest.atyp = .domain ∧ k = dest.address.length + 6))) ∧
    ((Socks5.requestTrace input n).extent ≤ n ∧
      (∀ r, (Socks5.requestTrace input n).request = some r → r.length ≤ n) ↔
        ¬ Socks5.Truncated input n) := by
  refine ⟨?_, ⟨fun mem hmem => ?_, fun mem k hk hmem => ?_⟩,
    Socks5.requestTrace_inside_iff input n⟩
  · obtain ⟨r, hr, hfilled⟩ := dest.build_filled
    exact ⟨r, hr, Cli.Upstream.socks5Request_of_starts hfilled.starts⟩
  · rw [Socks5.length_ofDestination]
    exact Socks5.requestTrace_message hmem le_rfl
  · exact Socks5.requestTrace_part hk hmem

theorem socks5_request_codec_sample :
    let mem : ℕ → UInt8 := fun i => [5, 1, 0, 3, 1, 97, 0, 80].getD i 0
    Socks5.requestTrace mem 8 = ⟨.good, some ⟨1, .domain, [97], 80⟩, 8, 8⟩ := by
  intro mem
  refine (socks5_request_codec_iff 1
    ⟨.domain, [97], 80, ⟨by decide, by decide⟩, by decide⟩ mem 8).2.1.1 mem ?_
  intro i b hb
  simp only [mem, List.getD_eq_getElem?_getD]
  have hmessage : Socks5.requestMessage 1
      ⟨.domain, [97], 80, ⟨by decide, by decide⟩, by decide⟩ = [5, 1, 0, 3, 1, 97, 0, 80] := by
    decide +kernel
  rw [← hmessage, hb, Option.getD_some]

/-- The request for `a:80` is accepted without its last byte, which is read behind the input. -/
theorem socks5_request_overread :
    let mem : ℕ → UInt8 := fun i => [5, 1, 0, 3, 1, 97, 0, 80].getD i 0
    (Socks5.requestTrace mem 7).result = .good ∧ (Socks5.requestTrace mem 7).extent = 8 ∧
      ∃ r, (Socks5.requestTrace mem 7).request = some r ∧ r.length = 8 := by
  refine ⟨by decide +kernel, by decide +kernel, ⟨0x01, .domain, [97], 80⟩, by decide +kernel, rfl⟩

/-! ## SOCKS4 -/

namespace Net.Socks4

/-- The parser takes these bytes back as this request, and asks for more on every part of them. -/
structure Codes (bytes : List UInt8) (r : Request) : Prop where
  whole : ∀ mem, Starts mem bytes →
    requestTrace mem bytes.length = ⟨.good, some r, bytes.length, bytes.length⟩
  part : ∀ mem k, k < bytes.length → Starts mem (bytes.take k) →
    (requestTrace mem k).result = .indeterminate

variable {bytes : List UInt8}

lemma span_of_starts (h : Starts mem bytes) :
    Socks5.span mem 0 bytes.length = bytes := by
  have hstart : Starts mem ([] ++ bytes ++ []) := by simpa using h
  exact hstart.map_range

variable {r : Request}

lemma extent_eq_consumed (h : (requestTrace mem n).request = some r) :
    (requestTrace mem n).extent = (requestTrace mem n).consumed := by
  unfold requestTrace at h ⊢
  dsimp only at h ⊢
  split_ifs at h ⊢ <;> rfl

lemma codes_of_parse (hgood : requestParse bytes = (.good, some r)) (hlen : r.length = bytes.length)
    (hpart : ∀ k < bytes.length, requestParse (bytes.take k) = (.indeterminate, none)) :
    Codes bytes r := by
  constructor
  · intro mem hmem
    have hparse := requestTrace_parse mem bytes.length
    rw [span_of_starts hmem, hgood] at hparse
    obtain ⟨hresult, hrequest⟩ := Prod.mk.inj hparse
    have hconsumed := (requestTrace_inside mem bytes.length).2 r hrequest
    have hextent := extent_eq_consumed hrequest
    rw [hlen] at hconsumed
    rw [← hconsumed] at hextent
    generalize requestTrace mem bytes.length = t at hresult hrequest hconsumed hextent
    obtain ⟨result, request, consumed, extent⟩ := t
    simp only at hresult hrequest hconsumed hextent
    rw [hresult, hrequest, ← hconsumed, hextent]
  intro mem k hk hmem
  have hparse := requestTrace_parse mem k
  have hspan := span_of_starts hmem
  rw [List.length_take, Nat.min_eq_left hk.le] at hspan
  rw [hspan, hpart k hk] at hparse
  exact (Prod.mk.inj hparse).1

lemma requestParse_of_short (h : bytes.length < 8) :
    requestParse bytes = (.indeterminate, none) := by
  rw [requestParse]
  rintro ver command high low a b c d rest rfl
  simp at h
  omega

lemma codes_socks4 (command high low a b c d : UInt8)
    (hmark : Request.isSocks4a
      ⟨command, high.toNat * 256 + low.toNat, [a, b, c, d], [], []⟩ = false) :
    Codes [version, command, high, low, a, b, c, d, 0]
      ⟨command, high.toNat * 256 + low.toNat, [a, b, c, d], [], []⟩ := by
  have hnil : (0 : UInt8) ∉ ([] : List UInt8) := by simp
  have htext : textParse [0] = some ([], []) := textParse_text hnil []
  refine codes_of_parse ?_ ?_ fun k hk => ?_
  · simp [requestParse, htext, hmark]
  · simp [Request.length, hmark]
  rcases Nat.lt_or_ge k 8 with hlt | hge
  · apply requestParse_of_short
    rw [List.length_take]
    omega
  obtain rfl : k = 8 := by
    simp at hk
    omega
  simp [requestParse, textParse_eq_none hnil]

lemma codes_socks4a (command high low x : UInt8) (hx : x ≠ 0) {name : List UInt8}
    (hname : 0 ∉ name) :
    Codes ([version, command, high, low, 0, 0, 0, x, 0] ++ name ++ [0])
      ⟨command, high.toNat * 256 + low.toNat, [0, 0, 0, x], [], name⟩ := by
  have hmark (domainName : List UInt8) : Request.isSocks4a
      ⟨command, high.toNat * 256 + low.toNat, [0, 0, 0, x], [], domainName⟩ = true := by
    simp [Request.isSocks4a, hx]
  have hnil : (0 : UInt8) ∉ ([] : List UInt8) := by simp
  have huser (rest : List UInt8) : textParse (0 :: rest) = some ([], rest) :=
    textParse_text hnil rest
  refine codes_of_parse ?_ ?_ fun k hk => ?_
  · simp [requestParse, huser, hmark, textParse_text hname]
  · simp [Request.length, hmark]
    omega
  rcases Nat.lt_or_ge k 8 with hlt | hge
  · apply requestParse_of_short
    rw [List.length_take]
    omega
  obtain ⟨m, rfl⟩ : ∃ m, k = 8 + m := ⟨k - 8, by omega⟩
  simp only [List.length_append, List.length_cons, List.length_nil] at hk
  have htake : ([version, command, high, low, 0, 0, 0, x, 0] ++ name ++ [0]).take (8 + m) =
      [version, command, high, low, 0, 0, 0, x] ++ (0 :: (name ++ [0])).take m := by
    rw [show [version, command, high, low, 0, 0, 0, x, 0] ++ name ++ [0] =
        [version, command, high, low, 0, 0, 0, x] ++ 0 :: (name ++ [0]) by simp,
      List.take_append, List.take_of_length_le (by simp)]
    simp
  rw [htake]
  cases m with
  | zero => simp [requestParse, textParse_eq_none hnil]
  | succ m =>
    -- the name is there in part, or without its zero byte
    have hpart : (name ++ [0]).take m = name.take m := by
      rw [List.take_append_of_le_length (by omega)]
    have hzero : (0 : UInt8) ∉ name.take m := fun hmem => hname (List.mem_of_mem_take hmem)
    simp [requestParse, huser, hmark, hpart, textParse_eq_none hzero]

end Net.Socks4

section Socks4Messages

open Cli.Upstream

variable {dest : Destination} {r : Ss.Request}

lemma codes_socks4Request (h : Starts r.raw dest.header) (hatyp : dest.atyp = .ipv4)
    (hnet : dest.address.take 3 ≠ [0, 0, 0]) :
    Socks4.Codes (socks4Request r)
      ⟨Socks4.cmdConnect, dest.port, dest.address, [], []⟩ := by
  have htype : r.addressType = some dest.atyp := Destination.addressType_of_starts h
  have haddress : r.address = dest.address := Destination.address_of_starts h
  have haddress4 : address4 r = dest.address := by
    rw [← haddress, Ss.Request.address, htype, hatyp]
    rfl
  obtain ⟨a, b, c, d, hquad⟩ := List.length_eq_four.mp (dest.length_ipv4 hatyp)
  rw [socks4Request, portBytes_of_starts h, haddress4, ← dest.toNat_port, hquad]
  apply Socks4.codes_socks4
  rw [hquad] at hnet
  simp only [Socks4.Request.isSocks4a]
  simp at hnet ⊢
  tauto

lemma codes_socks4aRequest (toText : List UInt8 → List UInt8) (h : Starts r.raw dest.header)
    (hatyp : dest.atyp = .domain) (hname : 0 ∉ dest.address) :
    Socks4.Codes (socks4aRequest toText r)
      ⟨Socks4.cmdConnect, dest.port, [0, 0, 0, 0x0f], [], dest.address⟩ := by
  have htype : r.addressType = some dest.atyp := Destination.addressType_of_starts h
  have haddress : r.address = dest.address := Destination.address_of_starts h
  rw [hatyp] at htype
  rw [socks4aRequest, portBytes_of_starts h, hostText, htype, haddress, ← dest.toNat_port]
  exact Socks4.codes_socks4a _ _ _ _ (by decide) hname

end Socks4Messages

/-- **The SOCKS4 request codec.** For every IPv4 destination outside of `0.0.0.0/24`, and for every
domain without a zero byte, what the client writes to an upstream server is taken back with the same
command, port and address or domain, and every part of it asks for more. On every input the length
of an accepted request is what the parser has taken, and nothing behind the input is looked at. -/
theorem socks4_request_codec :
    (∀ dest : Destination, ∃ r, dest.asked.build = some r ∧
      (dest.atyp = .ipv4 → dest.address.take 3 ≠ [0, 0, 0] →
        Socks4.Codes (Cli.Upstream.socks4Request r)
          ⟨Socks4.cmdConnect, dest.port, dest.address, [], []⟩) ∧
      ∀ toText, dest.atyp = .domain → 0 ∉ dest.address →
        Socks4.Codes (Cli.Upstream.socks4aRequest toText r)
          ⟨Socks4.cmdConnect, dest.port, [0, 0, 0, 0x0f], [], dest.address⟩) ∧
    ∀ mem n, (Socks4.requestTrace mem n).extent ≤ n ∧
      ∀ r, (Socks4.requestTrace mem n).request = some r →
        r.length = (Socks4.requestTrace mem n).consumed := by
  refine ⟨fun dest => ?_, Socks4.requestTrace_inside⟩
  obtain ⟨r, hr, hfilled⟩ := dest.build_filled
  exact ⟨r, hr, codes_socks4Request hfilled.starts,
    fun toText => codes_socks4aRequest toText hfilled.starts⟩

theorem socks4_request_codec_sample :
    (∃ r, (Ss.Asked.mk .ipv4 [10, 0, 0, 1] 80).build = some r ∧
      Socks4.Codes (Cli.Upstream.socks4Request r) ⟨1, 80, [10, 0, 0, 1], [], []⟩) ∧
    ∃ r, (Ss.Asked.mk .domain [97] 80).build = some r ∧
      Socks4.Codes (Cli.Upstream.socks4aRequest id r) ⟨1, 80, [0, 0, 0, 0x0f], [], [97]⟩ := by
  obtain ⟨r, hr, hsocks4, -⟩ :=
    socks4_request_codec.1 ⟨.ipv4, [10, 0, 0, 1], 80, rfl, by decide⟩
  obtain ⟨r', hr', -, hsocks4a⟩ :=
    socks4_request_codec.1 ⟨.domain, [97], 80, ⟨by decide, by decide⟩, by decide⟩
  exact ⟨⟨r, hr, hsocks4 rfl (by decide)⟩, ⟨r', hr', hsocks4a id rfl (by decide)⟩⟩

end Yass
