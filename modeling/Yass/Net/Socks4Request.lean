import Mathlib.Data.List.TakeWhile
import Yass.Net.Socks5Request

/-!
# The SOCKS4 and SOCKS4A request

* `Request` — `socks4::request`: a header of eight bytes and a user name, and for an address
  `0.0.0.x` with `x ≠ 0` (SOCKS4A) a domain name.
* `requestParse_good` — what is accepted, as bytes.

`is_socks4a` is read as on a little-endian machine.

Source: `net/socks4.hpp`, `net/socks4_request.hpp`, `net/socks4_request_parser.hpp`.
-/

namespace Yass.Net.Socks4

open Yass.Net.Ss (AddressType ResultType Asked Trace)
open Yass.Net.Socks5 (span portAt)

def version : UInt8 := 0x04

def cmdConnect : UInt8 := 0x01

structure Request where
  command : UInt8
  port : ℕ
  address : List UInt8
  userId : List UInt8
  domainName : List UInt8
  deriving DecidableEq, Repr

namespace Request

def isSocks4a (r : Request) : Bool :=
  r.address.getD 3 0 != 0 && (r.address.take 3).all (· == 0)

/-- `endpoint().address().is_unspecified()`. -/
def unspecified (r : Request) : Bool := r.address.all (· == 0)

def length (r : Request) : ℕ :=
  8 + r.userId.length + 1 + if r.isSocks4a then r.domainName.length + 1 else 0

def invalid (r : Request) : Bool :=
  r.port == 0 || (r.isSocks4a && r.domainName.isEmpty) || (!r.isSocks4a && r.unspecified)

def asked (r : Request) : Asked :=
  if r.isSocks4a then ⟨.domain, r.domainName, r.port⟩ else ⟨.ipv4, r.address, r.port⟩

end Request

/-- A text up to a zero byte, and what is behind it: the states `request_userid_start` and
`request_domain_start`. -/
def textParse (bytes : List UInt8) : Option (List UInt8 × List UInt8) :=
  match bytes.dropWhile (· != 0) with
  | [] => none
  | _ :: rest => some (bytes.takeWhile (· != 0), rest)

/-- `request_parser::parse` of a new parser. -/
def requestParse : List UInt8 → ResultType × Option Request
  | ver :: command :: high :: low :: a :: b :: c :: d :: rest =>
    if ver ≠ version then (.bad, none)
    else
      match textParse rest with
      | none => (.indeterminate, none)
      | some (userId, rest) =>
        let r : Request :=
          ⟨command, high.toNat * 256 + low.toNat, [a, b, c, d], userId, []⟩
        if r.isSocks4a then
          match textParse rest with
          | none => (.indeterminate, none)
          | some (domainName, _) => (.good, some { r with domainName })
        else (.good, some r)
  | _ => (.indeterminate, none)

/-- The loops of the parser: from `i` on, at most `left` bytes are looked at for a zero byte. -/
def scan (mem : ℕ → UInt8) : ℕ → ℕ → ℕ
  | 0, i => i
  | left + 1, i => if mem i = 0 then i else scan mem left (i + 1)

/-- The same parser on the memory at `begin`, with `n = end - begin`, the iterator it returns and
how far it has looked. -/
def requestTrace (mem : ℕ → UInt8) (n : ℕ) : Trace Request :=
  if n < 8 then ⟨.indeterminate, none, 0, 0⟩
  else if mem 0 ≠ version then ⟨.bad, none, 0, 8⟩
  else
    let i := scan mem (n - 8) 8
    if i = n then ⟨.indeterminate, none, n, n⟩
    else
      let r : Request := ⟨mem 1, portAt mem 2, span mem 4 4, span mem 8 (i - 8), []⟩
      if r.isSocks4a then
        let j := scan mem (n - (i + 1)) (i + 1)
        if j = n then ⟨.indeterminate, none, n, n⟩
        else
          ⟨.good, some { r with domainName := span mem (i + 1) (j - (i + 1)) }, j + 1, j + 1⟩
      else ⟨.good, some r, i + 1, i + 1⟩

variable {bytes text : List UInt8}

lemma textParse_eq_some {rest : List UInt8} (h : textParse bytes = some (text, rest)) :
    bytes = text ++ 0 :: rest ∧ 0 ∉ text := by
  unfold textParse at h
  cases hdrop : bytes.dropWhile (· != 0) with
  | nil => simp [hdrop] at h
  | cons b tail =>
    simp only [hdrop, Option.some.injEq, Prod.mk.injEq] at h
    obtain ⟨rfl, rfl⟩ := h
    have hzero : b = 0 := by
      have hhead := List.head?_dropWhile_not (· != 0) bytes
      rw [hdrop] at hhead
      simpa using hhead
    constructor
    · conv_lhs => rw [← List.takeWhile_append_dropWhile (p := (· != 0)) (l := bytes)]
      rw [hdrop, hzero]
    intro hmem
    have := List.mem_takeWhile_imp hmem
    simp at this

lemma textParse_text (htext : 0 ∉ text) (rest : List UInt8) :
    textParse (text ++ 0 :: rest) = some (text, rest) := by
  have hne : ∀ b ∈ text, (b != 0) = true := by
    intro b hb
    simpa using fun hzero : b = 0 => htext (hzero ▸ hb)
  unfold textParse
  rw [List.dropWhile_append_of_pos hne, List.takeWhile_append_of_pos hne]
  simp

lemma textParse_eq_none (htext : 0 ∉ text) : textParse text = none := by
  have hdrop : text.dropWhile (· != 0) = [] := by
    rw [List.dropWhile_eq_nil_iff]
    intro b hb
    simpa using fun hzero : b = 0 => htext (hzero ▸ hb)
  rw [textParse, hdrop]

variable {r : Request}

lemma requestParse_good (h : requestParse bytes = (.good, some r)) :
    r.address.length = 4 ∧ r.port < 65536 ∧
      ∃ high low tail,
        bytes = [version, r.command, high, low] ++ r.address ++ r.userId ++ 0 :: tail ∧
        0 ∉ r.userId ∧
        (r.isSocks4a = true → ∃ rest, tail = r.domainName ++ 0 :: rest ∧ 0 ∉ r.domainName) := by
  unfold requestParse at h
  split at h
  · rename_i ver command high low a b c d rest
    by_cases hver : ver ≠ version
    · simp [hver] at h
    rw [if_neg hver] at h
    rw [not_not] at hver
    cases huser : textParse rest with
    | none => simp [huser] at h
    | some parsed =>
      obtain ⟨userId, tail⟩ := parsed
      obtain ⟨hrest, hzero⟩ := textParse_eq_some huser
      simp only [huser] at h
      have hport : high.toNat * 256 + low.toNat < 65536 := by
        have := high.toNat_lt
        have := low.toNat_lt
        omega
      split_ifs at h with hsocks4a
      · cases hname : textParse tail with
        | none => simp [hname] at h
        | some parsed =>
          obtain ⟨domainName, tail'⟩ := parsed
          obtain ⟨htail, hzero'⟩ := textParse_eq_some hname
          simp only [hname, Prod.mk.injEq, Option.some.injEq, true_and] at h
          subst h
          refine ⟨rfl, hport, high, low, tail, ?_, hzero, fun _ => ⟨tail', htail, hzero'⟩⟩
          simp [hver, hrest]
      simp only [Prod.mk.injEq, Option.some.injEq, true_and] at h
      subst h
      refine ⟨rfl, hport, high, low, tail, ?_, hzero, fun hyes => absurd hyes hsocks4a⟩
      simp [hver, hrest]
  · cases h

lemma Request.proper_asked (h : requestParse bytes = (.good, some r)) (hvalid : r.invalid = false)
    (hname : r.isSocks4a = true → r.domainName.length ≤ 255) : r.asked.Proper := by
  obtain ⟨hlen, hlt, -⟩ := requestParse_good h
  simp only [Request.invalid, Bool.or_eq_false_iff, beq_eq_false_iff_ne] at hvalid
  obtain ⟨⟨hport, hempty⟩, -⟩ := hvalid
  unfold Request.asked
  split_ifs with hsocks4a
  · apply Ss.proper_domain _ (hname hsocks4a) hlt hport
    simpa [hsocks4a] using hempty
  · exact ⟨⟨.ipv4, r.address, r.port, hlen, hlt⟩, rfl, hport⟩

/-- A SOCKS4A message with a domain name of more than 255 bytes. -/
def LongName (bytes : List UInt8) : Prop :=
  ∃ (command high low x : UInt8) (userId domainName rest : List UInt8),
    bytes = [version, command, high, low, 0, 0, 0, x] ++ userId ++ 0 :: (domainName ++ 0 :: rest) ∧
      x ≠ 0 ∧ 0 ∉ userId ∧ 0 ∉ domainName ∧ 255 < domainName.length

lemma longName_iff (h : requestParse bytes = (.good, some r)) :
    LongName bytes ↔ r.isSocks4a = true ∧ 255 < r.domainName.length := by
  constructor
  · rintro ⟨command, high, low, x, userId, domainName, rest, rfl, hx, huser, hname, hlong⟩
    simp only [List.cons_append, List.nil_append, requestParse, ne_eq, not_true_eq_false, if_false,
      textParse_text huser, textParse_text hname] at h
    rw [if_pos (by simp [Request.isSocks4a, hx])] at h
    simp only [Prod.mk.injEq, Option.some.injEq, true_and] at h
    subst h
    exact ⟨by simp [Request.isSocks4a, hx], hlong⟩
  · rintro ⟨hsocks4a, hlong⟩
    obtain ⟨hlen, -, high, low, tail, hbytes, huser, hdomain⟩ := requestParse_good h
    obtain ⟨rest, htail, hname⟩ := hdomain hsocks4a
    obtain ⟨a, b, c, d, haddress⟩ : ∃ a b c d, r.address = [a, b, c, d] := by
      match r.address, hlen with
      | [a, b, c, d], _ => exact ⟨a, b, c, d, rfl⟩
    simp only [Request.isSocks4a, haddress, List.getD_cons_succ, List.getD_cons_zero,
      List.take_succ_cons, List.take_zero, List.all_cons, List.all_nil, Bool.and_true,
      Bool.and_eq_true, bne_iff_ne, beq_iff_eq] at hsocks4a
    obtain ⟨hd, rfl, rfl, rfl⟩ := hsocks4a
    refine ⟨r.command, high, low, d, r.userId, r.domainName, rest, ?_, hd, huser, hname, hlong⟩
    rw [hbytes, haddress, htail]
    simp

/-! ### How far the parser looks -/

section Trace

variable {mem : ℕ → UInt8} {n : ℕ}

lemma scan_ge (mem : ℕ → UInt8) (left i : ℕ) : i ≤ scan mem left i := by
  induction left generalizing i with
  | zero => exact le_rfl
  | succ left ih =>
    rw [scan]
    split_ifs
    · exact le_rfl
    · exact (Nat.le_succ i).trans (ih (i + 1))

lemma scan_le (mem : ℕ → UInt8) (left i : ℕ) : scan mem left i ≤ i + left := by
  induction left generalizing i with
  | zero => exact le_rfl
  | succ left ih =>
    rw [scan]
    split_ifs
    · exact Nat.le_add_right _ _
    · have := ih (i + 1)
      omega

lemma span_succ (mem : ℕ → UInt8) (pos len : ℕ) :
    span mem pos (len + 1) = mem pos :: span mem (pos + 1) len := by
  simp only [span, List.range_succ_eq_map, List.map_cons, List.map_map, Nat.add_zero]
  refine congrArg _ (List.map_congr_left fun i _ => ?_)
  simp only [Function.comp_apply]
  rw [Nat.succ_eq_add_one, Nat.add_assoc, Nat.add_comm 1 i]

lemma textParse_span (mem : ℕ → UInt8) (left i : ℕ) :
    textParse (span mem i left) =
      if scan mem left i = i + left then none
      else
        some (span mem i (scan mem left i - i),
          span mem (scan mem left i + 1) (i + left - (scan mem left i + 1))) := by
  induction left generalizing i with
  | zero =>
    rw [scan, if_pos (Nat.add_zero i).symm]
    rfl
  | succ left ih =>
    rw [span_succ, scan]
    by_cases hzero : mem i = 0
    · rw [if_pos hzero, if_neg (by omega), hzero, Nat.sub_self,
        show i + (left + 1) - (i + 1) = left by omega]
      have hnil : (0 : UInt8) ∉ ([] : List UInt8) := by simp
      exact textParse_text hnil _
    rw [if_neg hzero]
    have hge := scan_ge mem left (i + 1)
    have hstep : textParse (mem i :: span mem (i + 1) left) =
        (textParse (span mem (i + 1) left)).map fun x => (mem i :: x.1, x.2) := by
      have hne : (mem i != 0) = true := by simpa using hzero
      unfold textParse
      rw [List.dropWhile_cons_of_pos (p := (· != 0)) hne,
        List.takeWhile_cons_of_pos (p := (· != 0)) hne]
      cases (span mem (i + 1) left).dropWhile (· != 0) <;> rfl
    rw [hstep, ih]
    by_cases hend : scan mem left (i + 1) = i + 1 + left
    · rw [if_pos hend, if_pos (by omega)]
      rfl
    rw [if_neg hend, if_neg (by omega), Option.map_some]
    have hsub : scan mem left (i + 1) - i = scan mem left (i + 1) - (i + 1) + 1 := by omega
    rw [hsub, span_succ, show i + 1 + left = i + (left + 1) by omega]

lemma requestTrace_parse (mem : ℕ → UInt8) (n : ℕ) :
    ((requestTrace mem n).result, (requestTrace mem n).request) =
      requestParse (span mem 0 n) := by
  unfold requestTrace
  by_cases hshort : n < 8
  · rw [if_pos hshort, requestParse]
    rintro ver command high low a b c d rest hlist
    have hlen := congrArg List.length hlist
    rw [Socks5.length_span] at hlen
    simp at hlen
    omega
  obtain ⟨left, rfl⟩ : ∃ left, n = left + 8 := ⟨n - 8, by omega⟩
  have hhead : span mem 0 (left + 8) =
      mem 0 :: mem 1 :: mem 2 :: mem 3 :: mem 4 :: mem 5 :: mem 6 :: mem 7 :: span mem 8 left := by
    simp only [span_succ]
  rw [if_neg hshort, hhead, requestParse]
  by_cases hver : mem 0 ≠ version
  · rw [if_pos hver, if_pos hver]
  rw [if_neg hver, if_neg hver, Nat.add_sub_cancel, textParse_span]
  have hge := scan_ge mem left 8
  have hle := scan_le mem left 8
  dsimp only
  by_cases hend : scan mem left 8 = left + 8
  · have hend' : scan mem left 8 = 8 + left := by omega
    rw [if_pos hend, if_pos hend']
  have hend' : ¬ scan mem left 8 = 8 + left := by omega
  rw [if_neg hend, if_neg hend']
  have haddress : span mem 4 4 = [mem 4, mem 5, mem 6, mem 7] := rfl
  have hrest : 8 + left - (scan mem left 8 + 1) = left + 8 - (scan mem left 8 + 1) := by omega
  have hsum : scan mem left 8 + 1 + (left + 8 - (scan mem left 8 + 1)) = left + 8 := by omega
  have hport : (mem 2).toNat * 256 + (mem 3).toNat = portAt mem 2 := rfl
  rw [haddress, hport]
  simp only [hrest]
  by_cases hsocks4a : Request.isSocks4a ⟨mem 1, portAt mem 2, [mem 4, mem 5, mem 6, mem 7],
      span mem 8 (scan mem left 8 - 8), []⟩ = true
  · rw [if_pos hsocks4a, if_pos hsocks4a, textParse_span, hsum]
    split_ifs <;> rfl
  · rw [if_neg hsocks4a, if_neg hsocks4a]

lemma requestTrace_inside (mem : ℕ → UInt8) (n : ℕ) :
    (requestTrace mem n).extent ≤ n ∧
      ∀ r, (requestTrace mem n).request = some r → r.length = (requestTrace mem n).consumed := by
  unfold requestTrace
  by_cases hshort : n < 8
  · rw [if_pos hshort]
    exact ⟨Nat.zero_le n, fun r hr => by cases hr⟩
  rw [if_neg hshort]
  by_cases hver : mem 0 ≠ version
  · rw [if_pos hver]
    exact ⟨by simpa using hshort, fun r hr => by cases hr⟩
  rw [if_neg hver]
  have hge := scan_ge mem (n - 8) 8
  have hle := scan_le mem (n - 8) 8
  generalize scan mem (n - 8) 8 = i at hge hle
  dsimp only
  by_cases hend : i = n
  · rw [if_pos hend]
    exact ⟨le_rfl, fun r hr => by cases hr⟩
  rw [if_neg hend]
  have hge' := scan_ge mem (n - (i + 1)) (i + 1)
  have hle' := scan_le mem (n - (i + 1)) (i + 1)
  generalize scan mem (n - (i + 1)) (i + 1) = j at hge' hle'
  split_ifs with hsocks4a hname
  · exact ⟨le_rfl, fun r hr => by cases hr⟩
  · refine ⟨by simp; omega, fun r hr => ?_⟩
    cases hr
    have hmark : Request.isSocks4a ⟨mem 1, portAt mem 2, span mem 4 4, span mem 8 (i - 8),
        span mem (i + 1) (j - (i + 1))⟩ = true := hsocks4a
    simp only [Request.length, hmark, Socks5.length_span, if_true]
    omega
  refine ⟨by simp; omega, fun r hr => ?_⟩
  cases hr
  simp only [Request.length, hsocks4a, Socks5.length_span]
  simp
  omega

end Trace

end Yass.Net.Socks4
