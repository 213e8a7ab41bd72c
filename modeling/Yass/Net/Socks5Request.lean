import Yass.Net.SsRequest

/-!
# The three messages of a SOCKS5 client and their parsers

* `methodSelectMessage`, `authMessage` — the encodings of a list of methods and of a user name and a
  password; `methodSelectParse_good` and `authParse_good` say that what the parsers accept starts
  with exactly these.
* `Request.invalid`, `Request.proper_asked` — the test on a request, and that what passes it can be
  asked for.

The sub-negotiation carries the version of SOCKS5 itself, `5`.

Source: `net/socks5.hpp`, `net/socks5_request.hpp`, `net/socks5_request_parser.hpp`.
-/

namespace Yass.Net.Socks5

open Yass.Net.Ss (AddressType ResultType Asked Trace Destination Starts)

def version : UInt8 := 0x05

def noAuthRequired : UInt8 := 0x00

def usernameOrPassword : UInt8 := 0x02

/-! ## Method selection -/

/-- `method_select_request_parser::parse` of a new parser: the result and the methods. -/
def methodSelectParse : List UInt8 → ResultType × List UInt8
  | ver :: nmethods :: rest =>
    if ver ≠ version then (.bad, [])
    else if rest.length < nmethods.toNat then (.indeterminate, [])
    else (.good, rest.take nmethods.toNat)
  | _ => (.indeterminate, [])

/-- `method_select_request::length()`. -/
def methodSelectLength (methods : List UInt8) : ℕ := 2 + methods.length

/-- The message that offers `methods`. -/
def methodSelectMessage (methods : List UInt8) : List UInt8 :=
  [version, UInt8.ofNat methods.length] ++ methods

lemma methodSelectParse_good {bytes methods : List UInt8}
    (h : methodSelectParse bytes = (.good, methods)) :
    methodSelectMessage methods <+: bytes ∧
      methodSelectLength methods = (methodSelectMessage methods).length := by
  refine ⟨?_, by simp [methodSelectLength, methodSelectMessage]; omega⟩
  match bytes, h with
  | ver :: nmethods :: rest, h =>
    simp only [methodSelectParse] at h
    by_cases hver : ver ≠ version
    · simp [hver] at h
    by_cases hshort : rest.length < nmethods.toNat
    · simp [hver, hshort] at h
    rw [if_neg hver, if_neg hshort] at h
    cases h
    have hlen : (rest.take nmethods.toNat).length = nmethods.toNat := by
      rw [List.length_take]
      omega
    refine ⟨rest.drop nmethods.toNat, ?_⟩
    rw [methodSelectMessage, hlen, UInt8.ofNat_toNat, not_not.mp hver]
    simp

/-! ## User name and password -/

structure AuthRequest where
  username : List UInt8
  password : List UInt8
  deriving DecidableEq, Repr

def AuthRequest.length (r : AuthRequest) : ℕ := 1 + 1 + r.username.length + 1 + r.password.length

/-- A length byte and as many bytes: the states `request_username` and `request_password`. -/
def fieldParse : List UInt8 → ResultType × List UInt8 × List UInt8
  | [] => (.indeterminate, [], [])
  | len :: rest =>
    if len = 0 then (.bad, [], [])
    else if rest.length < len.toNat then (.indeterminate, [], [])
    else (.good, rest.take len.toNat, rest.drop len.toNat)

/-- `auth_request_parser::parse` of a new parser. -/
def authParse : List UInt8 → ResultType × AuthRequest
  | [] => (.indeterminate, ⟨[], []⟩)
  | ver :: rest =>
    if ver ≠ version then (.bad, ⟨[], []⟩)
    else
      match fieldParse rest with
      | (.good, username, rest) =>
        match fieldParse rest with
        | (.good, password, _) => (.good, ⟨username, password⟩)
        | (result, _, _) => (result, ⟨username, []⟩)
      | (result, _, _) => (result, ⟨[], []⟩)

def authMessage (username password : List UInt8) : List UInt8 :=
  [version, UInt8.ofNat username.length] ++ username ++ [UInt8.ofNat password.length] ++ password

lemma fieldParse_good {bytes field rest : List UInt8}
    (h : fieldParse bytes = (.good, field, rest)) :
    bytes = UInt8.ofNat field.length :: (field ++ rest) := by
  cases bytes with
  | nil => cases h
  | cons len tail =>
    simp only [fieldParse] at h
    by_cases hzero : len = 0
    · simp [hzero] at h
    by_cases hshort : tail.length < len.toNat
    · simp [hzero, hshort] at h
    rw [if_neg hzero, if_neg hshort] at h
    cases h
    have hlen : (tail.take len.toNat).length = len.toNat := by
      rw [List.length_take]
      omega
    rw [hlen, UInt8.ofNat_toNat, List.take_append_drop]

/-- **An accepted message.** It starts with the encoding of the two fields, and its `length()` is
that of the encoding. -/
theorem authParse_good {bytes : List UInt8} {r : AuthRequest} (h : authParse bytes = (.good, r)) :
    authMessage r.username r.password <+: bytes ∧
      r.length = (authMessage r.username r.password).length := by
  refine ⟨?_, by simp [AuthRequest.length, authMessage]; omega⟩
  cases bytes with
  | nil => cases h
  | cons ver tail =>
    simp only [authParse] at h
    by_cases hver : ver ≠ version
    · simp [hver] at h
    rw [if_neg hver] at h
    rw [not_not] at hver
    split at h
    · rename_i username rest huser
      split at h
      · rename_i password rest' hpass
        cases h
        rw [fieldParse_good huser, fieldParse_good hpass, hver]
        exact ⟨rest', by simp [authMessage]⟩
      rename_i hne _
      cases h
      exact (hne rfl).elim
    rename_i hne _
    cases h
    exact (hne rfl).elim

/-! ## The request -/

structure Request where
  command : UInt8
  addressType : AddressType
  address : List UInt8
  port : ℕ
  deriving DecidableEq, Repr

/-- `length()`: three bytes, the address type, the address and the port. -/
def Request.length (r : Request) : ℕ :=
  3 + 1 + match r.addressType with
    | .ipv4 => 4 + 2
    | .domain => 1 + r.address.length + 2
    | .ipv6 => 16 + 2

/-- The bytes `pos`, …, `pos + n - 1`. -/
def span (mem : ℕ → UInt8) (pos n : ℕ) : List UInt8 := (List.range n).map fun i => mem (pos + i)

def portAt (mem : ℕ → UInt8) (pos : ℕ) : ℕ := (mem pos).toNat * 256 + (mem (pos + 1)).toNat

/-- `request_parser::parse` of a new parser, for the memory `mem` at `begin` and `n = end - begin`.
The size that is compared first does not contain the length of a domain, which is read later. -/
def requestParse (mem : ℕ → UInt8) (n : ℕ) : ResultType × Option Request :=
  if n < 3 then (.indeterminate, none)
  else if mem 0 ≠ version then (.bad, none)
  else if n - 3 < 1 then (.indeterminate, none)
  else
    match AddressType.ofCode (mem 3) with
    | none => (.bad, none)
    | some .ipv4 =>
      if n - 4 < 4 + 2 then (.indeterminate, none)
      else (.good, some ⟨mem 1, .ipv4, span mem 4 4, portAt mem 8⟩)
    | some .domain =>
      if n - 4 < 1 + 2 then (.indeterminate, none)
      else
        let len := (mem 4).toNat
        if n - 4 < len + 2 then (.indeterminate, none)
        else (.good, some ⟨mem 1, .domain, span mem 5 len, portAt mem (5 + len)⟩)
    | some .ipv6 =>
      if n - 4 < 16 + 2 then (.indeterminate, none)
      else (.good, some ⟨mem 1, .ipv6, span mem 4 16, portAt mem 20⟩)

def requestTrace (mem : ℕ → UInt8) (n : ℕ) : Trace Request :=
  if n < 3 then ⟨.indeterminate, none, 0, 0⟩
  else if mem 0 ≠ version then ⟨.bad, none, 0, 3⟩
  -- the parser goes on behind the first three bytes
  else if n - 3 < 1 then ⟨.indeterminate, none, 3, 3⟩
  else
    match AddressType.ofCode (mem 3) with
    | none => ⟨.bad, none, 4, 4⟩
    | some .ipv4 =>
      if n - 4 < 4 + 2 then ⟨.indeterminate, none, 4, 4⟩
      else ⟨.good, some ⟨mem 1, .ipv4, span mem 4 4, portAt mem 8⟩, 10, 10⟩
    | some .domain =>
      if n - 4 < 1 + 2 then ⟨.indeterminate, none, 4, 4⟩
      else
        let len := (mem 4).toNat
        if n - 4 < len + 2 then ⟨.indeterminate, none, 4, 5⟩
        else
          ⟨.good, some ⟨mem 1, .domain, span mem 5 len, portAt mem (5 + len)⟩, 5 + len + 2,
            5 + len + 2⟩
    | some .ipv6 =>
      if n - 4 < 16 + 2 then ⟨.indeterminate, none, 4, 4⟩
      else ⟨.good, some ⟨mem 1, .ipv6, span mem 4 16, portAt mem 20⟩, 22, 22⟩

def cmdConnect : UInt8 := 0x01

def Request.invalid (r : Request) : Bool :=
  r.port == 0 || (r.addressType == .domain && r.address.isEmpty) ||
    (r.addressType != .domain && r.address.all (· == 0))

def Request.asked (r : Request) : Asked := ⟨r.addressType, r.address, r.port⟩

lemma length_span (mem : ℕ → UInt8) (pos n : ℕ) : (span mem pos n).length = n := by simp [span]

lemma portAt_lt (mem : ℕ → UInt8) (pos : ℕ) : portAt mem pos < 65536 := by
  have hhigh := (mem pos).toNat_lt
  have hlow := (mem (pos + 1)).toNat_lt
  unfold portAt
  omega

lemma requestParse_good {mem : ℕ → UInt8} {n : ℕ} {r : Request}
    (h : requestParse mem n = (.good, some r)) :
    r.port < 65536 ∧
      match r.addressType with
      | .ipv4 => r.address.length = 4
      | .domain => r.address.length ≤ 255
      | .ipv6 => r.address.length = 16 := by
  unfold requestParse at h
  by_cases hshort : n < 3
  · rw [if_pos hshort] at h
    cases h
  by_cases hver : mem 0 ≠ version
  · rw [if_neg hshort, if_pos hver] at h
    cases h
  by_cases hnone : n - 3 < 1
  · rw [if_neg hshort, if_neg hver, if_pos hnone] at h
    cases h
  rw [if_neg hshort, if_neg hver, if_neg hnone] at h
  cases htype : AddressType.ofCode (mem 3) with
  | none => simp [htype] at h
  | some t =>
    simp only [htype] at h
    cases t with
    | ipv4 =>
      simp only at h
      split_ifs at h
      · cases h
      · cases h
        exact ⟨portAt_lt mem 8, length_span mem 4 4⟩
    | domain =>
      simp only at h
      split_ifs at h
      · cases h
      · cases h
      · cases h
        refine ⟨portAt_lt mem _, ?_⟩
        have hlen := (mem 4).toNat_lt
        simp only [length_span]
        omega
    | ipv6 =>
      simp only at h
      split_ifs at h
      · cases h
      · cases h
        exact ⟨portAt_lt mem 20, length_span mem 4 16⟩

lemma Request.proper_asked {mem : ℕ → UInt8} {n : ℕ} {r : Request}
    (h : requestParse mem n = (.good, some r)) (hvalid : r.invalid = false) :
    r.asked.Proper := by
  obtain ⟨hlt, hlen⟩ := requestParse_good h
  simp only [Request.invalid, Bool.or_eq_false_iff, beq_eq_false_iff_ne] at hvalid
  obtain ⟨⟨hport, hname⟩, -⟩ := hvalid
  refine ⟨⟨r.addressType, r.address, r.port, ?_, hlt⟩, rfl, hport⟩
  cases htype : r.addressType with
  | ipv4 =>
    rw [htype] at hlen
    exact hlen
  | ipv6 =>
    rw [htype] at hlen
    exact hlen
  | domain =>
    rw [htype] at hlen
    rw [htype] at hname
    refine ⟨List.length_pos_iff.mpr ?_, hlen⟩
    simpa using hname

/-! ### How far the parser looks -/

section Trace

variable {mem : ℕ → UInt8} {n : ℕ}

lemma requestTrace_parse (mem : ℕ → UInt8) (n : ℕ) :
    ((requestTrace mem n).result, (requestTrace mem n).request) = requestParse mem n := by
  unfold requestTrace requestParse
  by_cases hshort : n < 3
  · rw [if_pos hshort, if_pos hshort]
  by_cases hver : mem 0 ≠ version
  · rw [if_neg hshort, if_neg hshort, if_pos hver, if_pos hver]
  by_cases hnone : n - 3 < 1
  · rw [if_neg hshort, if_neg hshort, if_neg hver, if_neg hver, if_pos hnone, if_pos hnone]
  rw [if_neg hshort, if_neg hshort, if_neg hver, if_neg hver, if_neg hnone, if_neg hnone]
  cases AddressType.ofCode (mem 3) with
  | none => rfl
  | some t =>
    cases t with
    | ipv4 =>
      dsimp only
      split_ifs <;> rfl
    | ipv6 =>
      dsimp only
      split_ifs <;> rfl
    | domain =>
      dsimp only
      split_ifs <;> rfl

def behind (mem : ℕ → UInt8) : Ss.Request := ⟨fun i => mem (3 + i)⟩

def need (mem : ℕ → UInt8) : ℕ :=
  match (behind mem).addressType with
  | some .ipv4 => 10
  | some .domain => max 7 ((behind mem).domainNameLen + 6)
  | some .ipv6 => 22
  | none => 0

lemma span_behind (mem : ℕ → UInt8) (pos len : ℕ) :
    ((List.range len).map fun i => (behind mem).raw (pos + i)) = span mem (3 + pos) len := by
  simp only [behind, span, Nat.add_assoc]

/-- **When the parser accepts**, and what it has then read. -/
lemma requestTrace_of_ge (hver : mem 0 = version) {t : AddressType}
    (htype : (behind mem).addressType = some t) (hn : need mem ≤ n) :
    requestTrace mem n =
      ⟨.good, some ⟨mem 1, t, (behind mem).address, (behind mem).port⟩, 3 + (behind mem).length,
        3 + (behind mem).length⟩ := by
  have hcode : AddressType.ofCode (mem 3) = some t := htype
  rw [need, htype] at hn
  have hlarge : 7 ≤ n := by cases t <;> simp at hn <;> omega
  unfold requestTrace
  rw [if_neg (by omega), if_neg (by simp [hver]), if_neg (by omega), hcode]
  rw [Ss.Request.address, Ss.Request.port, Ss.Request.length, Ss.Request.addressTypeSize, htype]
  cases t with
  | ipv4 =>
    simp only at hn ⊢
    rw [if_neg (by omega), span_behind]
    rfl
  | ipv6 =>
    simp only at hn ⊢
    rw [if_neg (by omega), span_behind]
    rfl
  | domain =>
    simp only at hn ⊢
    have hlen : (behind mem).domainNameLen = (mem 4).toNat := rfl
    rw [hlen] at hn ⊢
    rw [if_neg (by omega), if_neg (by omega), span_behind]
    have hpos : 1 + 1 + (mem 4).toNat + 2 - 2 = 2 + (mem 4).toNat := by omega
    simp only [Trace.mk.injEq, Option.some.injEq, Request.mk.injEq, true_and, hpos, behind,
      portAt]
    refine ⟨?_, by omega, by omega⟩
    rw [show 3 + (2 + (mem 4).toNat) = 5 + (mem 4).toNat by omega,
      show 3 + (2 + (mem 4).toNat + 1) = 5 + (mem 4).toNat + 1 by omega]

lemma requestTrace_of_lt (hver : 3 ≤ n → mem 0 = version)
    (htype : 4 ≤ n → ∃ t, (behind mem).addressType = some t) (hn : 4 ≤ n → n < need mem) :
    (requestTrace mem n).result = .indeterminate ∧ (requestTrace mem n).request = none ∧
      (requestTrace mem n).extent ≤ n := by
  unfold requestTrace
  by_cases hshort : n < 3
  · rw [if_pos hshort]
    exact ⟨rfl, rfl, Nat.zero_le n⟩
  rw [if_neg hshort, if_neg (by simp [hver (by omega)])]
  by_cases hnone : n - 3 < 1
  · rw [if_pos hnone]
    exact ⟨rfl, rfl, by simpa using hshort⟩
  rw [if_neg hnone]
  obtain ⟨t, ht⟩ := htype (by omega)
  have hcode : AddressType.ofCode (mem 3) = some t := ht
  have hlt := hn (by omega)
  rw [need, ht] at hlt
  rw [hcode]
  cases t with
  | ipv4 =>
    simp only at hlt ⊢
    rw [if_pos (by omega)]
    exact ⟨rfl, rfl, by simp; omega⟩
  | ipv6 =>
    simp only at hlt ⊢
    rw [if_pos (by omega)]
    exact ⟨rfl, rfl, by simp; omega⟩
  | domain =>
    have hlen : (behind mem).domainNameLen = (mem 4).toNat := rfl
    simp only [hlen] at hlt ⊢
    by_cases hfirst : n - 4 < 1 + 2
    · rw [if_pos hfirst]
      exact ⟨rfl, rfl, by simp; omega⟩
    · rw [if_neg hfirst, if_pos (by omega)]
      exact ⟨rfl, rfl, by simp; omega⟩

lemma requestTrace_of_bad (h : (3 ≤ n ∧ mem 0 ≠ version) ∨
    (4 ≤ n ∧ mem 0 = version ∧ (behind mem).addressType = none)) :
    (requestTrace mem n).result = .bad ∧ (requestTrace mem n).request = none ∧
      (requestTrace mem n).extent ≤ n := by
  unfold requestTrace
  rcases h with ⟨hlen, hver⟩ | ⟨hlen, hver, htype⟩
  · rw [if_neg (by omega), if_pos hver]
    exact ⟨rfl, rfl, hlen⟩
  have hcode : AddressType.ofCode (mem 3) = none := htype
  rw [if_neg (by omega), if_neg (by simp [hver]), if_neg (by omega), hcode]
  exact ⟨rfl, rfl, hlen⟩

end Trace

end Yass.Net.Socks5
