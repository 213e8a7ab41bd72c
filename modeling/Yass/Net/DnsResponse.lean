import Yass.Net.DnsQuery
import Yass.Net.SsRequest

/-!
# The parser of DNS responses

* `Fault` — how a loop over a message can go wrong. Every read of the message goes through `fetch`.
* `answer`, `rdata`, `skipQuestion`, `skipRecord` — the entries of the sections.

A position is the distance from `init`. The parser is new, and `begin` is `init`, in both callers.
The log lines are left out.

Source: `net/dns_message.hpp`, `net/dns_message_response.hpp`,
`net/dns_message_response_parser.hpp`.
-/

namespace Yass.Net.DnsMessage

open Yass.Net.Ss (ResultType)

inductive Fault where
  | outside
  | endless
  deriving DecidableEq, Repr

/-- The types of records that the parser knows. -/
def typeA : ℕ := 1

@[inherit_doc typeA] def typeCname : ℕ := 5

@[inherit_doc typeA] def typeAaaa : ℕ := 28

@[inherit_doc typeA] def typeDname : ℕ := 39

/-- `DNS_CLASS_IN`. -/
def classIn : ℕ := 1

structure Response where
  header : List UInt8
  a : List (List UInt8)
  aaaa : List (List UInt8)
  cname : List (List UInt8)
  deriving DecidableEq, Repr

def Response.new : Response := ⟨List.replicate 12 0, [], [], []⟩

structure Cursor where
  i : ℕ
  resp : Response
  deriving DecidableEq, Repr

/-! ## Reading -/

def u16 (bytes : List UInt8) (i : ℕ) : ℕ :=
  256 * (bytes.getD i 0).toNat + (bytes.getD (i + 1) 0).toNat

section Parser

variable (bytes : List UInt8)

/-- `*it`. -/
def fetch (i : ℕ) : Except Fault UInt8 :=
  match bytes[i]? with
  | some b => .ok b
  | none => .error .outside

def get16bit (i : ℕ) : Except Fault ℕ := do
  let high ← fetch bytes i
  let low ← fetch bytes (i + 1)
  return 256 * high.toNat + low.toNat

def get32bit (i : ℕ) : Except Fault ℕ := do
  let high ← get16bit bytes i
  let low ← get16bit bytes (i + 2)
  return 65536 * high + low

/-! ## Names that are skipped -/

/-- The loop of `skipqname`, with the number of its turns bounded. -/
def skipLoop (dohlen : ℕ) : ℕ → ℕ → Except Fault (Bool × ℕ)
  | 0, _ => .error .endless
  | fuel + 1, i =>
    if dohlen < 1 then .ok (false, i)
    else do
      let length ← fetch bytes i
      if length &&& 0xc0 = 0xc0 then
        if dohlen < 2 then .ok (false, i) else .ok (true, i + 2)
      else if length &&& 0xc0 ≠ 0 then .ok (false, i)
      else if dohlen < 1 + length.toNat then .ok (false, i)
      else if length ≠ 0 then skipLoop dohlen fuel (i + (1 + length.toNat))
      else .ok (true, i + (1 + length.toNat))

/-- `end - *begin`, in 16 bits. -/
def dohlen (i : ℕ) : ℕ := (bytes.length - i) % 2 ^ 16

/-- `skipqname`: whether it succeeds, and the position it leaves. A turn that is followed by another
one has read a byte, so that there are not more turns than bytes, and one. -/
def skipqname (i : ℕ) : Except Fault (Bool × ℕ) :=
  skipLoop bytes (dohlen bytes i) (bytes.length + 1) i

/-! ## Names that are decoded -/

/-- `(length & 0x3f) << 8 | *(begin + 1)`. -/
def offset (signed : Bool) (length low : UInt8) : ℤ :=
  (((length &&& 0x3f).toBitVec.setWidth 32 <<< 8) |||
    (if signed then low.toBitVec.signExtend 32 else low.toBitVec.setWidth 32)).toInt

/-- The loop for a CNAME, with its turns bounded: whether it succeeds, and the name. -/
def cnameLoop (signed : Bool) : ℕ → ℕ → List UInt8 → Except Fault (Bool × List UInt8)
  | 0, _, _ => .error .endless
  | fuel + 1, begin, name => do
    let length ← fetch bytes begin
    if length &&& 0xc0 = 0xc0 then
      if bytes.length < begin + 1 then .ok (false, name)
      else do
        let low ← fetch bytes (begin + 1)
        match offset signed length low with
        | .ofNat begin => cnameLoop signed fuel begin name
        -- the byte that is read next is in front of the message
        | .negSucc _ => .error .outside
    else if length &&& 0xc0 ≠ 0 then .ok (false, name)
    else if length ≠ 0 then
      if bytes.length < begin + 1 + length.toNat then .ok (false, name)
      else
        cnameLoop signed fuel (begin + 1 + length.toNat)
          ((if name = [] then [] else name ++ [dot]) ++
            (bytes.drop (begin + 1)).take length.toNat)
    else .ok (true, name)

/-! ## Records -/

/-- `rdata`: whether it succeeds, and what has been found. -/
def rdata (signed : Bool) (fuel : ℕ) (resp : Response) (begin rdlength type : ℕ) :
    Except Fault (Bool × Response) :=
  if type = typeA then
    if rdlength ≠ 4 then .ok (false, resp)
    else do
      let address ← (List.range 4).mapM fun k => fetch bytes (begin + k)
      return (true, { resp with a := resp.a ++ [address] })
  else if type = typeAaaa then
    if rdlength ≠ 16 then .ok (false, resp)
    else do
      let address ← (List.range 16).mapM fun k => fetch bytes (begin + k)
      return (true, { resp with aaaa := resp.aaaa ++ [address] })
  else if type = typeCname then do
    let (found, name) ← cnameLoop bytes signed fuel begin []
    return (found, { resp with cname := resp.cname ++ [name] })
  -- a DNAME is skipped
  else .ok (true, resp)

def skipQuestion (c : Cursor) : Except Fault (Bool × Cursor) := do
  let (found, i) ← skipqname bytes c.i
  if !found then return (false, { c with i })
  else if bytes.length < i + 4 then return (false, { c with i })
  else return (true, { c with i := i + 4 })

def answer (signed : Bool) (fuel : ℕ) (c : Cursor) : Except Fault (Bool × Cursor) := do
  let (found, i) ← skipqname bytes c.i
  if !found then return (false, { c with i })
  else if bytes.length < i + 2 then return (false, { c with i })
  else
    let type ← get16bit bytes i
    if type ≠ typeA ∧ type ≠ typeAaaa ∧ type ≠ typeCname ∧ type ≠ typeDname then
      return (false, { c with i })
    else if bytes.length < i + 2 + 2 then return (false, { c with i := i + 2 })
    else
      let clazz ← get16bit bytes (i + 2)
      if classIn ≠ clazz then return (false, { c with i := i + 2 })
      else if bytes.length < i + 4 + 4 then return (false, { c with i := i + 4 })
      else
        let _ttl ← get32bit bytes (i + 4)
        if bytes.length < i + 8 + 2 then return (false, { c with i := i + 8 })
        else
          let rdlength ← get16bit bytes (i + 8)
          if bytes.length < i + 10 + rdlength then return (false, { c with i := i + 10 })
          else
            let (found, resp) ← rdata bytes signed fuel c.resp (i + 10) rdlength type
            if !found then return (false, ⟨i + 10, resp⟩)
            else return (true, ⟨i + 10 + rdlength, resp⟩)

def skipRecord (c : Cursor) : Except Fault (Bool × Cursor) := do
  let (found, i) ← skipqname bytes c.i
  if !found then return (false, { c with i })
  else if bytes.length < i + 8 then return (false, { c with i })
  else if bytes.length < i + 8 + 2 then return (false, { c with i := i + 8 })
  else
    let rdlength ← get16bit bytes (i + 8)
    if bytes.length < i + 10 + rdlength then return (false, { c with i := i + 10 })
    else return (true, { c with i := i + 10 + rdlength })

/-- The loop over the records of a section. The `Bool` is `false` where `parse` returns. -/
def records (body : Cursor → Except Fault (Bool × Cursor)) :
    ℕ → Cursor → Except Fault (Bool × Cursor)
  | 0, c => .ok (true, c)
  | count + 1, c => do
    let (found, c) ← body c
    if found then records body count c else return (false, c)

/-! ## Responses -/

/-- `parse` in the state `response_ar_start`. -/
def arStart (c : Cursor) : Except Fault (Bool × Cursor) :=
  records (skipRecord bytes) (u16 c.resp.header 10) c

/-- `parse` in the state `response_ns_start`. -/
def nsStart (c : Cursor) : Except Fault (Bool × Cursor) := do
  let (found, c) ← records (skipRecord bytes) (u16 c.resp.header 8) c
  if !found then return (false, c) else arStart bytes c

/-- `parse` in the state `response_an_start`. -/
def anStart (signed : Bool) (fuel : ℕ) (c : Cursor) : Except Fault (Bool × Cursor) := do
  let (found, c) ← records (answer bytes signed fuel) (u16 c.resp.header 6) c
  if !found then return (false, c) else nsStart bytes c

/-- `parse` in the state `response_qd_start`. The `Bool` is `false` where it is `indeterminate`. -/
def qdStart (signed : Bool) (fuel : ℕ) (c : Cursor) : Except Fault (Bool × Cursor) := do
  let (found, c) ← records (skipQuestion bytes) (u16 c.resp.header 4) c
  if !found then return (false, c) else anStart bytes signed fuel c

/-- `parse` in the state `response_start`: its result, the position and the response it leaves. -/
def parse (signed : Bool) (fuel : ℕ) : Except Fault (ResultType × Cursor) :=
  if bytes.length < 12 then .ok (.indeterminate, ⟨0, .new⟩)
  else do
    let resp := { Response.new with header := bytes.take 12 }
    -- `qr`
    if (resp.header.getD 2 0).toNat / 128 ≠ 1 then return (.bad, ⟨0, resp⟩)
    else
      let (found, c) ← qdStart bytes signed fuel ⟨12, resp⟩
      return (if found then .good else .indeterminate, c)

end Parser

end Yass.Net.DnsMessage
