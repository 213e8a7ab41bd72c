import Mathlib.Data.List.GetD
import Yass.Lib.Lists
import Yass.Net.DnsBounds

/-!
# What is found in a DNS response

* `Name`, `Rdata`, `Answer`, `Message` — a response as RFC 1035 lays it out. A name is labels, up to
  the root or up to a pointer, which leads to another name; as a name is finite, its pointers do not
  loop. `Name.At`, `Message.At` say where each part is in the bytes.
* `Message.a`, `Message.aaaa`, `Message.cname` — what there is to find.
* `Room` — the number that `skipqname` has for the bytes that are left is large enough. It is, in a
  message of at most 65535 bytes.
* `addrinfoDup` — the list of addresses that is made from a response.

The limit of 255 octets for a name is not used, nor are type and class of a question.

Source: `net/dns_message_response_parser.hpp`, `net/dns_addrinfo_helper.cpp`, `net/doh_request.cpp`,
`net/dot_request.cpp`.
-/

namespace Yass.Net.DnsMessage

/-! ## Messages -/

inductive Name where
  | root
  | label (bytes : List UInt8) (rest : Name)
  | pointer (offset : ℕ) (target : Name)
  deriving DecidableEq, Repr

def Name.labels : Name → List (List UInt8)
  | .root => []
  | .label l rest => l :: rest.labels
  | .pointer _ target => target.labels

def Name.pointers : Name → List ℕ
  | .root => []
  | .label _ rest => rest.pointers
  | .pointer offset target => offset :: target.pointers

def Name.need : Name → ℕ
  | .root => 1
  | .label l rest => max (1 + l.length) rest.need
  | .pointer _ _ => 2

/-- The name stands in the bytes from `i` to `e`. -/
def Name.At (bytes : List UInt8) : Name → ℕ → ℕ → Prop
  | .root, i, e => bytes[i]? = some 0 ∧ e = i + 1
  | .label l rest, i, e =>
    (0 < l.length ∧ l.length < 64) ∧ bytes[i]? = some (UInt8.ofNat l.length) ∧
      (i + 1 + l.length ≤ bytes.length ∧ (bytes.drop (i + 1)).take l.length = l) ∧
      rest.At bytes (i + 1 + l.length) e
  | .pointer offset target, i, e => (∃ b low, bytes[i]? = some b ∧ 192 ≤ b.toNat ∧
      bytes[i + 1]? = some low ∧ offset = DnsMessage.pointer b low) ∧
      e = i + 2 ∧ ∃ e', target.At bytes offset e'

inductive Rdata where
  | a (address : List UInt8)
  | aaaa (address : List UInt8)
  | cname (target : Name)
  | dname (target : Name)
  deriving DecidableEq, Repr

def Rdata.type : Rdata → ℕ
  | .a _ => typeA
  | .aaaa _ => typeAaaa
  | .cname _ => typeCname
  | .dname _ => typeDname

/-- The data stand in the bytes from `r` to `j`. -/
def Rdata.At (bytes : List UInt8) : Rdata → ℕ → ℕ → Prop
  | .a address, r, j => j = r + 4 ∧ (bytes.drop r).take 4 = address
  | .aaaa address, r, j => j = r + 16 ∧ (bytes.drop r).take 16 = address
  | .cname target, r, j => target.At bytes r j
  | .dname target, r, j => target.At bytes r j

structure Answer where
  owner : Name
  data : Rdata
  deriving DecidableEq, Repr

/-- A response. Of a question, and of a record that is not an answer, only the name is kept. -/
structure Message where
  questions : List Name
  answers : List Answer
  authority : List Name
  additional : List Name
  deriving DecidableEq, Repr

section Layout

variable (bytes : List UInt8)

/-- A question stands from `i` to `j`. -/
def Name.QuestionAt (name : Name) (i j : ℕ) : Prop :=
  ∃ e, name.At bytes i e ∧ j = e + 4 ∧ j ≤ bytes.length

/-- A record, of any type, stands from `i` to `j`. -/
def Name.RecordAt (name : Name) (i j : ℕ) : Prop :=
  ∃ e, name.At bytes i e ∧ j = e + 10 + u16 bytes (e + 8) ∧ j ≤ bytes.length

/-- An answer stands from `i` to `j`. -/
def Answer.At (answer : Answer) (i j : ℕ) : Prop :=
  ∃ e, answer.owner.At bytes i e ∧ u16 bytes e = answer.data.type ∧ u16 bytes (e + 2) = classIn ∧
    j = e + 10 + u16 bytes (e + 8) ∧ j ≤ bytes.length ∧ answer.data.At bytes (e + 10) j

/-- The entries of a section stand from `i` to `j`. -/
def Laid {α : Type} (r : α → ℕ → ℕ → Prop) : List α → ℕ → ℕ → Prop
  | [], i, j => i = j
  | a :: as, i, j => ∃ k, r a i k ∧ Laid r as k j

structure Message.Counts (m : Message) : Prop where
  questions : u16 bytes 4 = m.questions.length
  answers : u16 bytes 6 = m.answers.length
  authority : u16 bytes 8 = m.authority.length
  additional : u16 bytes 10 = m.additional.length

/-- The message stands in the bytes up to `j`. -/
def Message.At (m : Message) (j : ℕ) : Prop :=
  IsResponse bytes ∧ m.Counts bytes ∧ ∃ i₁ i₂ i₃,
    Laid (Name.QuestionAt bytes) m.questions 12 i₁ ∧ Laid (Answer.At bytes) m.answers i₁ i₂ ∧
    Laid (Name.RecordAt bytes) m.authority i₂ i₃ ∧ Laid (Name.RecordAt bytes) m.additional i₃ j

end Layout

/-! ## What there is to find -/

def Name.text (name : Name) : List UInt8 := [dot].intercalate name.labels

def Message.a (m : Message) : List (List UInt8) :=
  m.answers.filterMap fun answer => match answer.data with
    | .a address => some address
    | _ => none

def Message.aaaa (m : Message) : List (List UInt8) :=
  m.answers.filterMap fun answer => match answer.data with
    | .aaaa address => some address
    | _ => none

def Message.targets (m : Message) : List Name :=
  m.answers.filterMap fun answer => match answer.data with
    | .cname target => some target
    | _ => none

def Message.cname (m : Message) : List (List UInt8) := m.targets.map Name.text

/-- The parser has come to `m`, and has this response then. -/
def Message.response (m : Message) (bytes : List UInt8) : Response :=
  ⟨bytes.take 12, m.a, m.aaaa, m.cname⟩

section Names

variable {bytes : List UInt8} {n : Name} {i e j : ℕ}

/-! ## Names -/

lemma Name.need_pos (n : Name) : 0 < n.need := by
  induction n with
  | root => exact Nat.one_pos
  | label l rest ih => exact lt_of_lt_of_le ih (le_max_right _ _)
  | pointer offset target => exact Nat.two_pos

lemma toNat_length {l : List UInt8} (h : l.length < 64) :
    (UInt8.ofNat l.length).toNat = l.length := by
  rw [UInt8.toNat_ofNat', Nat.mod_eq_of_lt (by omega)]

lemma lt_of_getElem? {b : UInt8} (h : bytes[i]? = some b) : i < bytes.length :=
  (List.getElem?_eq_some_iff.mp h).1

lemma Name.At.skipLoop_eq (h : n.At bytes i e) {limit fuel : ℕ} (hlimit : 0 < limit)
    (hfuel : bytes.length < i + fuel) :
    (n.need ≤ limit → skipLoop bytes limit fuel i = .ok (true, e)) ∧
      (¬ n.need ≤ limit → ∃ q, skipLoop bytes limit fuel i = .ok (false, q)) := by
  induction n generalizing i fuel with
  | root =>
    obtain ⟨hb, rfl⟩ := h
    have hi := lt_of_getElem? hb
    obtain ⟨fuel, rfl⟩ := Nat.exists_eq_add_of_lt (show 0 < fuel by omega)
    rw [Nat.zero_add, skipLoop_of_some hlimit hb]
    refine ⟨fun _ => ?_, fun hneed => absurd hlimit hneed⟩
    have hroot : (0 : UInt8).toNat = 0 := rfl
    rw [hroot, if_neg (by omega), if_neg (by omega), if_neg (by omega), if_pos rfl]
  | label l rest ih =>
    obtain ⟨⟨hpos, hlong⟩, hb, ⟨hin, -⟩, hrest⟩ := h
    have hi := lt_of_getElem? hb
    obtain ⟨fuel, rfl⟩ := Nat.exists_eq_add_of_lt (show 0 < fuel by omega)
    rw [Nat.zero_add, skipLoop_of_some hlimit hb, toNat_length hlong, if_neg (by omega),
      if_neg (by omega), Name.need]
    by_cases hlen : limit < 1 + l.length
    · rw [if_pos hlen]
      refine ⟨fun hneed => ?_, fun _ => ⟨_, rfl⟩⟩
      have := le_max_left (1 + l.length) rest.need
      omega
    rw [if_neg hlen, if_neg (by omega), ← Nat.add_assoc, max_le_iff,
      and_iff_right (Nat.le_of_not_lt hlen)]
    exact ih hrest (by omega)
  | pointer offset target ih =>
    obtain ⟨⟨b, low, hb, hlarge, hlow, -⟩, rfl, -⟩ := h
    have hi := lt_of_getElem? hb
    obtain ⟨fuel, rfl⟩ := Nat.exists_eq_add_of_lt (show 0 < fuel by omega)
    rw [Nat.zero_add, skipLoop_of_some hlimit hb, if_pos hlarge, Name.need]
    by_cases hlen : limit < 2
    · rw [if_pos hlen]
      exact ⟨fun hneed => absurd hlen (by omega), fun _ => ⟨_, rfl⟩⟩
    · rw [if_neg hlen]
      exact ⟨fun _ => rfl, fun hneed => absurd hneed (by omega)⟩

lemma Name.At.skips_iff (h : n.At bytes i e) {e' : ℕ} :
    Skips bytes i e' ↔ e' = e ∧ n.need ≤ dohlen bytes i := by
  rw [← skipqname_true_iff]
  by_cases hlimit : 0 < dohlen bytes i
  · have hloop := h.skipLoop_eq hlimit (show bytes.length < i + (bytes.length + 1) by omega)
    rw [skipqname]
    by_cases hneed : n.need ≤ dohlen bytes i
    · rw [hloop.1 hneed]
      simp [hneed, eq_comm]
    obtain ⟨q, hq⟩ := hloop.2 hneed
    rw [hq]
    simp [hneed]
  rw [skipqname_of_zero hlimit]
  have hpos := n.need_pos
  constructor
  · intro hx
    cases hx
  · rintro ⟨-, hneed⟩
    omega

def join (name l : List UInt8) : List UInt8 := (if name = [] then [] else name ++ [dot]) ++ l

lemma foldl_join {name : List UInt8} (hname : name ≠ []) (ls : List (List UInt8)) :
    ls.foldl join name = [dot].intercalate (name :: ls) := by
  induction ls generalizing name with
  | nil => rw [List.foldl_nil, List.intercalate_singleton]
  | cons l ls ih =>
    have hjoin : join name l = name ++ [dot] ++ l := by
      rw [join, if_neg hname]
    rw [List.foldl_cons, hjoin, ih (by simp), List.intercalate_cons_cons]
    cases ls with
    | nil => rw [List.intercalate_singleton, List.intercalate_singleton]
    | cons l' ls => simp [List.intercalate_cons_cons]

lemma Name.At.foldl_labels (h : n.At bytes i e) : n.labels.foldl join [] = n.text := by
  have hlabels : ∀ l ∈ n.labels, l ≠ [] := by
    induction n generalizing i e with
    | root => simp [Name.labels]
    | label l rest ih =>
      obtain ⟨⟨hpos, -⟩, -, -, hrest⟩ := h
      intro l' hl'
      rcases List.mem_cons.mp hl' with rfl | hl'
      · exact List.ne_nil_of_length_pos hpos
      · exact ih hrest l' hl'
    | pointer offset target ih =>
      obtain ⟨-, -, e', htarget⟩ := h
      exact ih htarget
  rw [Name.text]
  cases hls : n.labels with
  | nil => rfl
  | cons l ls =>
    have hl : l ≠ [] := hlabels l (by simp [hls])
    have hfirst : join [] l = l := by
      rw [join, if_pos rfl, List.nil_append]
    rw [List.foldl_cons, hfirst, foldl_join hl]

lemma pointer_mod (b low : UInt8) : DnsMessage.pointer b low % 256 = low.toNat := by
  have := low.toNat_lt
  rw [DnsMessage.pointer]
  omega

variable {signed : Bool}

lemma nameNext_of_label {l : List UInt8} (hl : 0 < l.length ∧ l.length < 64)
    (hb : bytes[i]? = some (UInt8.ofNat l.length)) (hin : i + 1 + l.length ≤ bytes.length) :
    nameNext signed bytes i = some (i + 1 + l.length) := by
  rw [nameNext, hb]
  dsimp only
  rw [toNat_length hl.2, if_neg (by omega), if_pos (by omega)]

lemma nameNext_of_pointer {b low : UInt8} (hb : bytes[i]? = some b) (hlarge : 192 ≤ b.toNat)
    (hlow : bytes[i + 1]? = some low) (hsign : signed = true → low.toNat < 128) :
    nameNext signed bytes i = some (DnsMessage.pointer b low) := by
  rw [nameNext, hb]
  dsimp only
  rw [if_pos hlarge, hlow]
  dsimp only
  rw [offset_eq hsign]

lemma Name.At.cnameLoop_eq (h : n.At bytes i e)
    (hsign : signed = true → ∀ p ∈ n.pointers, p % 256 < 128) (name : List UInt8) :
    ∃ k, ∀ fuel, cnameLoop bytes signed (fuel + k) i name =
      .ok (true, n.labels.foldl join name) := by
  induction n generalizing i e name with
  | root =>
    obtain ⟨hb, -⟩ := h
    refine ⟨1, fun fuel => ?_⟩
    rw [cnameLoop, fetch_of_some hb]
    rfl
  | label l rest ih =>
    obtain ⟨⟨hpos, hlong⟩, hb, ⟨hin, hl⟩, hrest⟩ := h
    obtain ⟨k, hk⟩ := ih hrest hsign (join name l)
    refine ⟨k + 1, fun fuel => ?_⟩
    have hnext : nameNext signed bytes i = some (i + 1 + l.length) :=
      nameNext_of_label ⟨hpos, hlong⟩ hb hin
    have hgrow : grow bytes i name = join name l := by
      rw [grow, hb]
      dsimp only
      rw [toNat_length hlong, if_neg (by omega), hl, join]
    rw [← Nat.add_assoc, cnameLoop_next hnext, hgrow, hk]
    rfl
  | pointer offset target ih =>
    obtain ⟨⟨b, low, hb, hlarge, hlow, rfl⟩, -, e', htarget⟩ := h
    obtain ⟨k, hk⟩ := ih htarget (fun hs p hp => hsign hs p (List.mem_cons_of_mem _ hp)) name
    refine ⟨k + 1, fun fuel => ?_⟩
    have hnext : nameNext signed bytes i = some (DnsMessage.pointer b low) := by
      apply nameNext_of_pointer hb hlarge hlow
      intro hs
      rw [← pointer_mod b low]
      exact hsign hs _ List.mem_cons_self
    have hgrow : grow bytes i name = name := by
      rw [grow, hb]
      exact if_pos hlarge
    rw [← Nat.add_assoc, cnameLoop_next hnext, hgrow, hk]
    rfl

lemma Name.At.leaves (h : n.At bytes i e) (hsign : ¬ ∀ p ∈ n.pointers, p % 256 < 128) :
    Leaves true bytes i := by
  induction n generalizing i e with
  | root => exact absurd (fun p hp => absurd hp List.not_mem_nil) hsign
  | label l rest ih =>
    obtain ⟨⟨hpos, hlong⟩, hb, ⟨hin, hl⟩, hrest⟩ := h
    obtain ⟨q, hreach, hleaves⟩ := ih hrest hsign
    exact ⟨q, .head (nameNext_of_label ⟨hpos, hlong⟩ hb hin) hreach, hleaves⟩
  | pointer offset target ih =>
    obtain ⟨⟨b, low, hb, hlarge, hlow, rfl⟩, -, e', htarget⟩ := h
    by_cases hhigh : 128 ≤ low.toNat
    · exact ⟨i, .refl, .inr ⟨b, hb, hlarge, .inr ⟨low, hlow, offset_neg hhigh⟩⟩⟩
    have hrest : ¬ ∀ p ∈ target.pointers, p % 256 < 128 := by
      intro hall
      refine hsign fun p hp => ?_
      rcases List.mem_cons.mp hp with rfl | hp
      · rw [pointer_mod]
        omega
      · exact hall p hp
    obtain ⟨q, hreach, hleaves⟩ := ih htarget hrest
    exact ⟨q, .head (nameNext_of_pointer hb hlarge hlow fun _ => by omega) hreach, hleaves⟩

end Names

/-! ## Entries -/

section Entries

variable {bytes : List UInt8} {signed : Bool} {n : Name} {c : Cursor} {i j : ℕ}

/-- There is room for the name at `i`. -/
def Fits (bytes : List UInt8) (n : Name) (i : ℕ) : Prop := n.need ≤ dohlen bytes i

def Name.Plain (signed : Bool) (n : Name) : Prop :=
  signed = true → ∀ p ∈ n.pointers, p % 256 < 128

def Rdata.Plain (signed : Bool) : Rdata → Prop
  | .cname target => target.Plain signed
  | _ => True

def Response.add (resp : Response) (answer : Answer) : Response :=
  match answer.data with
  | .a address => { resp with a := resp.a ++ [address] }
  | .aaaa address => { resp with aaaa := resp.aaaa ++ [address] }
  | .cname target => { resp with cname := resp.cname ++ [target.text] }
  | .dname _ => resp

lemma Name.QuestionAt.skipQuestion_spec (h : n.QuestionAt bytes c.i j) :
    (Fits bytes n c.i → skipQuestion bytes c = .ok (true, ⟨j, c.resp⟩)) ∧
      ((∃ c', skipQuestion bytes c = .ok (true, c')) → Fits bytes n c.i) := by
  obtain ⟨e, hname, rfl, hle⟩ := h
  constructor
  · intro hfits
    exact skipQuestion_true_iff.mpr ⟨⟨e, hname.skips_iff.mpr ⟨rfl, hfits⟩, rfl, hle⟩, rfl⟩
  · rintro ⟨c', hc'⟩
    obtain ⟨⟨e', hskips, -⟩, -⟩ := skipQuestion_true_iff.mp hc'
    exact (hname.skips_iff.mp hskips).2

lemma Name.RecordAt.skipRecord_spec (h : n.RecordAt bytes c.i j) :
    (Fits bytes n c.i → skipRecord bytes c = .ok (true, ⟨j, c.resp⟩)) ∧
      ((∃ c', skipRecord bytes c = .ok (true, c')) → Fits bytes n c.i) := by
  obtain ⟨e, hname, rfl, hle⟩ := h
  constructor
  · intro hfits
    exact skipRecord_true_iff.mpr ⟨⟨e, hname.skips_iff.mpr ⟨rfl, hfits⟩, rfl, hle⟩, rfl⟩
  · rintro ⟨c', hc'⟩
    obtain ⟨⟨e', hskips, -⟩, -⟩ := skipRecord_true_iff.mp hc'
    exact (hname.skips_iff.mp hskips).2

lemma Name.At.decoded (signed : Bool) {e : ℕ} (h : n.At bytes i e) :
    (n.Plain signed → cnameLoop bytes signed bytes.length i [] = .ok (true, n.text)) ∧
      ((∃ x, cnameLoop bytes signed bytes.length i [] = .ok x) → n.Plain signed) := by
  constructor
  · intro hplain
    obtain ⟨k, hk⟩ := h.cnameLoop_eq hplain []
    rw [(cnameLoop_spec (hk 0)).2.2.2, h.foldl_labels]
  · rintro ⟨x, hx⟩ rfl
    by_contra hsign
    exact (cnameLoop_spec hx).1 (h.leaves hsign)

lemma Rdata.At.rdata_spec (signed : Bool) (owner : Name) (resp : Response) {data : Rdata} {r : ℕ}
    (h : data.At bytes r j) (hle : j ≤ bytes.length) :
    (data.Plain signed → rdata bytes signed bytes.length resp r (j - r) data.type =
      .ok (true, resp.add ⟨owner, data⟩)) ∧
    ((∃ x, rdata bytes signed bytes.length resp r (j - r) data.type = .ok x) →
      data.Plain signed) := by
  cases data with
  | a address =>
    obtain ⟨rfl, rfl⟩ := h
    rw [Nat.add_sub_cancel_left, Rdata.type, rdata_a hle]
    exact ⟨fun _ => rfl, fun _ => trivial⟩
  | aaaa address =>
    obtain ⟨rfl, rfl⟩ := h
    rw [Nat.add_sub_cancel_left, Rdata.type, rdata_aaaa hle]
    exact ⟨fun _ => rfl, fun _ => trivial⟩
  | cname target =>
    have hdecoded := Name.At.decoded signed h
    rw [Rdata.type, rdata_cname]
    constructor
    · intro hplain
      rw [hdecoded.1 hplain]
      rfl
    · rintro ⟨x, hx⟩
      obtain ⟨y, hy, -⟩ := bind_eq_ok.mp hx
      exact hdecoded.2 ⟨y, hy⟩
  | dname target => exact ⟨fun _ => rfl, fun _ => trivial⟩

lemma Answer.At.answer_spec {a : Answer} (h : a.At bytes c.i j) :
    (Fits bytes a.owner c.i ∧ a.data.Plain signed →
      answer bytes signed bytes.length c = .ok (true, ⟨j, c.resp.add a⟩)) ∧
    ((∃ c', answer bytes signed bytes.length c = .ok (true, c')) →
      Fits bytes a.owner c.i ∧ a.data.Plain signed) := by
  obtain ⟨e, hname, htype, hclass, rfl, hle, hdata⟩ := h
  have hknown : u16 bytes e = typeA ∨ u16 bytes e = typeAaaa ∨ u16 bytes e = typeCname ∨
      u16 bytes e = typeDname := by
    rw [htype]
    cases a.data <;> simp [Rdata.type]
  have hrdata := hdata.rdata_spec signed a.owner c.resp hle
  rw [Nat.add_sub_cancel_left, ← htype] at hrdata
  constructor
  · rintro ⟨hfits, hplain⟩
    rw [answer_of_head ⟨hname.skips_iff.mpr ⟨rfl, hfits⟩, hknown, hclass, hle⟩, hrdata.1 hplain]
    rfl
  · rintro ⟨c', hc'⟩
    obtain ⟨e', hhead, -, hok⟩ := head_of_answer hc'
    obtain ⟨rfl, hfits⟩ := hname.skips_iff.mp hhead.name
    exact ⟨hfits, hrdata.2 ⟨_, hok⟩⟩

end Entries

/-! ## Sections -/

section Sections

variable {α : Type} {body : Cursor → Except Fault (Bool × Cursor)} {r : α → ℕ → ℕ → Prop}
  {F : α → ℕ → Prop} (add : Response → α → Response) {as : List α} {c : Cursor} {j : ℕ}

lemma records_of_laid (hbody : ∀ a c j, r a c.i j → F a c.i →
    body c = .ok (true, ⟨j, add c.resp a⟩))
    (h : Laid (fun a i j => r a i j ∧ F a i) as c.i j) :
    records body as.length c = .ok (true, ⟨j, as.foldl add c.resp⟩) := by
  induction as generalizing c with
  | nil =>
    obtain rfl := h
    rfl
  | cons a as ih =>
    obtain ⟨k, ⟨hr, hfine⟩, hrest⟩ := h
    rw [List.length_cons, records, hbody a c k hr hfine, ok_bind, List.foldl_cons]
    exact ih hrest

lemma laid_of_records (hbody : ∀ a c j, r a c.i j → F a c.i →
    body c = .ok (true, ⟨j, add c.resp a⟩))
    (hfine : ∀ a c j, r a c.i j → (∃ c', body c = .ok (true, c')) → F a c.i)
    (h : Laid r as c.i j) {c' : Cursor} (hok : records body as.length c = .ok (true, c')) :
    Laid (fun a i j => r a i j ∧ F a i) as c.i j ∧ c' = ⟨j, as.foldl add c.resp⟩ := by
  induction as generalizing c with
  | nil =>
    obtain rfl := h
    cases hok
    exact ⟨rfl, rfl⟩
  | cons a as ih =>
    obtain ⟨k, hr, hrest⟩ := h
    obtain ⟨⟨found, c₁⟩, hc₁, hok⟩ := bind_eq_ok.mp hok
    cases found with
    | false => cases hok
    | true =>
      have hthis : F a c.i := hfine a c k hr ⟨c₁, hc₁⟩
      rw [hbody a c k hr hthis] at hc₁
      cases hc₁
      obtain ⟨hlaid, rfl⟩ := ih hrest hok
      exact ⟨⟨k, ⟨hr, hthis⟩, hlaid⟩, rfl⟩

lemma laid_of_state (hbody : ∀ a c j, r a c.i j → F a c.i →
    body c = .ok (true, ⟨j, add c.resp a⟩))
    (hfine : ∀ a c j, r a c.i j → (∃ c', body c = .ok (true, c')) → F a c.i)
    (h : Laid r as c.i j) {k : Cursor → Except Fault (Bool × Cursor)} {c' : Cursor}
    (hok : (records body as.length c >>= fun y => if !y.1 then .ok (false, y.2) else k y.2) =
      .ok (true, c')) :
    Laid (fun a i j => r a i j ∧ F a i) as c.i j ∧
      k ⟨j, as.foldl add c.resp⟩ = .ok (true, c') := by
  obtain ⟨⟨found, c₁⟩, hc₁, hok⟩ := bind_eq_ok.mp hok
  cases found with
  | false => cases hok
  | true =>
    obtain ⟨hlaid, rfl⟩ := laid_of_records add hbody hfine h hc₁
    exact ⟨hlaid, hok⟩

lemma laid_and_iff {P : α → Prop} {i : ℕ} :
    Laid (fun a i j => r a i j ∧ F a i ∧ P a) as i j ↔
      Laid (fun a i j => r a i j ∧ F a i) as i j ∧ ∀ a ∈ as, P a := by
  induction as generalizing i with
  | nil => simp [Laid]
  | cons a as ih =>
    simp only [Laid, ih, List.forall_mem_cons]
    constructor
    · rintro ⟨k, ⟨hr, hfine, hp⟩, hrest, hall⟩
      exact ⟨⟨k, ⟨hr, hfine⟩, hrest⟩, hp, hall⟩
    · rintro ⟨⟨k, ⟨hr, hfine⟩, hrest⟩, hp, hall⟩
      exact ⟨k, ⟨hr, hfine, hp⟩, hrest, hall⟩

end Sections

/-! ## Messages as a whole -/

section Messages

variable {bytes : List UInt8} {signed : Bool} {m : Message} {j : ℕ}

def Message.Room (bytes : List UInt8) (m : Message) : Prop :=
  ∃ i₁ i₂ i₃ i₄,
    Laid (fun n i j => n.QuestionAt bytes i j ∧ Fits bytes n i) m.questions 12 i₁ ∧
    Laid (fun a i j => a.At bytes i j ∧ Fits bytes a.owner i) m.answers i₁ i₂ ∧
    Laid (fun n i j => n.RecordAt bytes i j ∧ Fits bytes n i) m.authority i₂ i₃ ∧
    Laid (fun n i j => n.RecordAt bytes i j ∧ Fits bytes n i) m.additional i₃ i₄

def Message.Plain (signed : Bool) (m : Message) : Prop := ∀ target ∈ m.targets, target.Plain signed

lemma Message.plain_iff : m.Plain signed ↔ ∀ a ∈ m.answers, a.data.Plain signed := by
  constructor
  · intro h a ha
    cases hdata : a.data with
    | cname target => exact h target (List.mem_filterMap.mpr ⟨a, ha, by rw [hdata]⟩)
    | _ => trivial
  intro h target htarget
  obtain ⟨a, ha, heq⟩ := List.mem_filterMap.mp htarget
  have hplain := h a ha
  cases hdata : a.data with
  | cname target' =>
    rw [hdata] at heq hplain
    cases heq
    exact hplain
  | _ =>
    rw [hdata] at heq
    cases heq

lemma foldl_add (resp : Response) (answers : List Answer) :
    answers.foldl Response.add resp =
      ⟨resp.header, resp.a ++ Message.a ⟨[], answers, [], []⟩,
        resp.aaaa ++ Message.aaaa ⟨[], answers, [], []⟩,
        resp.cname ++ Message.cname ⟨[], answers, [], []⟩⟩ := by
  induction answers generalizing resp with
  | nil => simp [Message.a, Message.aaaa, Message.cname, Message.targets]
  | cons answer answers ih =>
    obtain ⟨owner, data⟩ := answer
    rw [List.foldl_cons, ih]
    cases data <;>
      simp [Response.add, Message.a, Message.aaaa, Message.cname, Message.targets]

lemma foldl_firstCursor :
    m.answers.foldl Response.add (firstCursor bytes).resp = m.response bytes :=
  foldl_add _ _

lemma parse_of_room (hresponse : IsResponse bytes) (hcounts : m.Counts bytes)
    (hroom : m.Room bytes) (hplain : m.Plain signed) :
    ∃ j, parse bytes signed bytes.length = .ok (.good, ⟨j, m.response bytes⟩) := by
  obtain ⟨i₁, i₂, i₃, i₄, hquestions, hanswers, hauthority, hadditional⟩ := hroom
  have hq : records (skipQuestion bytes) (u16 (bytes.take 12) 4) (firstCursor bytes) =
      .ok (true, ⟨i₁, (firstCursor bytes).resp⟩) := by
    rw [u16_take (by omega), hcounts.questions,
      records_of_laid (fun resp _ => resp) (fun n c j h hfits => h.skipQuestion_spec.1 hfits)
        hquestions, List.foldl_fixed]
  have ha : records (answer bytes signed bytes.length) (u16 (bytes.take 12) 6)
      ⟨i₁, (firstCursor bytes).resp⟩ = .ok (true, ⟨i₂, m.response bytes⟩) := by
    rw [u16_take (by omega), hcounts.answers,
      records_of_laid Response.add (fun a c j h hfine => h.answer_spec.1 hfine)
        (laid_and_iff.mpr ⟨hanswers, Message.plain_iff.mp hplain⟩), foldl_firstCursor]
  have hskipped : ∀ {names : List Name} {i j : ℕ} {resp : Response},
      Laid (fun n i j => n.RecordAt bytes i j ∧ Fits bytes n i) names i j →
      records (skipRecord bytes) names.length ⟨i, resp⟩ = .ok (true, ⟨j, resp⟩) := by
    intro names i j resp h
    rw [records_of_laid (c := ⟨i, resp⟩) (fun resp _ => resp)
      (fun n c j h hfits => h.skipRecord_spec.1 hfits) h, List.foldl_fixed]
  have hns : records (skipRecord bytes) (u16 (bytes.take 12) 8) ⟨i₂, m.response bytes⟩ =
      .ok (true, ⟨i₃, m.response bytes⟩) := by
    rw [u16_take (by omega), hcounts.authority, hskipped hauthority]
  have har : records (skipRecord bytes) (u16 (bytes.take 12) 10) ⟨i₃, m.response bytes⟩ =
      .ok (true, ⟨i₄, m.response bytes⟩) := by
    rw [u16_take (by omega), hcounts.additional, hskipped hadditional]
  refine ⟨i₄, ?_⟩
  rw [parse_of_isResponse hresponse]
  refine bind_eq_ok.mpr ⟨(true, ⟨i₄, m.response bytes⟩), ?_, rfl⟩
  exact bind_eq_ok.mpr ⟨_, hq, bind_eq_ok.mpr ⟨_, ha, bind_eq_ok.mpr ⟨_, hns, har⟩⟩⟩

lemma room_of_parse (h : m.At bytes j) {fuel : ℕ} {c : Cursor}
    (hok : parse bytes signed fuel = .ok (.good, c)) : m.Room bytes ∧ m.Plain signed := by
  obtain ⟨hresponse, hcounts, i₁, i₂, i₃, hquestions, hanswers, hauthority, hadditional⟩ := h
  have hheader : ∀ k, k + 1 < 12 → u16 (m.response bytes).header k = u16 bytes k := fun k hk =>
    u16_take hk
  have hparse := parse_of_ok hok
  rw [parse_of_isResponse hresponse] at hparse
  obtain ⟨⟨found, c'⟩, hq, hgood⟩ := bind_eq_ok.mp hparse
  obtain rfl : found = true := by
    cases found with
    | false => cases hgood
    | true => rfl
  -- section after section, what is behind it starts where the layout says
  change (records _ (u16 (bytes.take 12) 4) _ >>= fun y =>
    if !y.1 then .ok (false, y.2) else anStart bytes signed bytes.length y.2) = _ at hq
  rw [u16_take (by omega), hcounts.questions] at hq
  obtain ⟨hq', ha⟩ := laid_of_state (fun resp _ => resp)
    (fun n c j h hfits => h.skipQuestion_spec.1 hfits) (fun n c j h => h.skipQuestion_spec.2)
    hquestions hq
  rw [List.foldl_fixed] at ha
  change (records _ (u16 (bytes.take 12) 6) _ >>= fun y =>
    if !y.1 then .ok (false, y.2) else nsStart bytes y.2) = _ at ha
  rw [u16_take (by omega), hcounts.answers] at ha
  obtain ⟨ha', hns⟩ := laid_of_state Response.add
    (F := fun a i => Fits bytes a.owner i ∧ a.data.Plain signed)
    (fun a c j h hfine => h.answer_spec.1 hfine)
    (fun a c j h => h.answer_spec.2) hanswers ha
  dsimp only at hns
  rw [foldl_firstCursor] at hns
  change (records _ (u16 (m.response bytes).header 8) _ >>= fun y =>
    if !y.1 then .ok (false, y.2) else arStart bytes y.2) = _ at hns
  rw [hheader 8 (by omega), hcounts.authority] at hns
  obtain ⟨hns', har⟩ := laid_of_state (fun resp _ => resp)
    (fun n c j h hfits => h.skipRecord_spec.1 hfits) (fun n c j h => h.skipRecord_spec.2)
    hauthority hns
  rw [List.foldl_fixed, arStart, hheader 10 (by omega), hcounts.additional] at har
  obtain ⟨har', -⟩ := laid_of_records (fun resp _ => resp)
    (fun n c j h hfits => h.skipRecord_spec.1 hfits) (fun n c j h => h.skipRecord_spec.2)
    hadditional har
  obtain ⟨ha', hplain⟩ := laid_and_iff.mp ha'
  exact ⟨⟨i₁, i₂, i₃, j, hq', ha', hns', har'⟩, Message.plain_iff.mpr hplain⟩

/-! ## Room -/

lemma Name.At.need_le {n : Name} {i e : ℕ} (h : n.At bytes i e) : i + n.need ≤ bytes.length := by
  induction n generalizing i e with
  | root => exact lt_of_getElem? h.1
  | label l rest ih =>
    obtain ⟨-, -, ⟨hin, -⟩, hrest⟩ := h
    have := ih hrest
    rw [Name.need, ← max_add_add_left]
    exact max_le (by omega) (by omega)
  | pointer offset target ih =>
    obtain ⟨⟨b, low, -, -, hlow, -⟩, -, -⟩ := h
    have := lt_of_getElem? hlow
    rw [Name.need]
    omega

lemma Name.At.fits {n : Name} {i e : ℕ} (h : n.At bytes i e) (hlength : bytes.length ≤ 65535) :
    Fits bytes n i := by
  have := h.need_le
  rw [Fits, dohlen, Nat.mod_eq_of_lt (by omega)]
  omega

lemma Laid.imp {α : Type} {r r' : α → ℕ → ℕ → Prop} (hr : ∀ a i j, r a i j → r' a i j)
    {as : List α} {i j : ℕ} (h : Laid r as i j) : Laid r' as i j := by
  induction as generalizing i with
  | nil => exact h
  | cons a as ih =>
    obtain ⟨k, hk, hrest⟩ := h
    exact ⟨k, hr a i k hk, ih hrest⟩

lemma Message.At.room (h : m.At bytes j) (hlength : bytes.length ≤ 65535) : m.Room bytes := by
  obtain ⟨-, -, i₁, i₂, i₃, hquestions, hanswers, hauthority, hadditional⟩ := h
  refine ⟨i₁, i₂, i₃, j, hquestions.imp ?_, hanswers.imp ?_, hauthority.imp ?_, hadditional.imp ?_⟩
  · rintro n i j ⟨e, hname, hj⟩
    exact ⟨⟨e, hname, hj⟩, hname.fits hlength⟩
  · rintro a i j ⟨e, hname, hj⟩
    exact ⟨⟨e, hname, hj⟩, hname.fits hlength⟩
  · rintro n i j ⟨e, hname, hj⟩
    exact ⟨⟨e, hname, hj⟩, hname.fits hlength⟩
  · rintro n i j ⟨e, hname, hj⟩
    exact ⟨⟨e, hname, hj⟩, hname.fits hlength⟩

end Messages

/-! ## More bytes -/

section Append

variable {bytes : List UInt8} (rest : List UInt8) {n : Name} {i j e : ℕ}

lemma u16_append (h : i + 2 ≤ bytes.length) : u16 (bytes ++ rest) i = u16 bytes i := by
  rw [u16, u16, List.getD_append _ _ _ _ (by omega), List.getD_append _ _ _ _ (by omega)]

lemma slice_append {m : ℕ} (h : i + m ≤ bytes.length) :
    ((bytes ++ rest).drop i).take m = (bytes.drop i).take m := by
  rw [List.drop_append_of_le_length (by omega), List.take_append_of_le_length]
  rw [List.length_drop]
  omega

lemma Name.At.append (h : n.At bytes i e) : n.At (bytes ++ rest) i e := by
  induction n generalizing i e with
  | root => exact ⟨Lists.getElem?_append_of_some h.1 rest, h.2⟩
  | label l name ih =>
    obtain ⟨hl, hb, ⟨hin, htext⟩, hname⟩ := h
    refine ⟨hl, Lists.getElem?_append_of_some hb rest, ⟨?_, ?_⟩, ih hname⟩
    · rw [List.length_append]
      omega
    · rw [slice_append rest hin, htext]
  | pointer offset target ih =>
    obtain ⟨⟨b, low, hb, hlarge, hlow, hoffset⟩, he, e', htarget⟩ := h
    exact ⟨⟨b, low, Lists.getElem?_append_of_some hb rest, hlarge,
      Lists.getElem?_append_of_some hlow rest, hoffset⟩, he, e', ih htarget⟩

lemma Name.QuestionAt.append (h : n.QuestionAt bytes i j) : n.QuestionAt (bytes ++ rest) i j := by
  obtain ⟨e, hname, hj, hle⟩ := h
  exact ⟨e, hname.append rest, hj, hle.trans (List.length_append ▸ Nat.le_add_right _ _)⟩

lemma Name.RecordAt.append (h : n.RecordAt bytes i j) : n.RecordAt (bytes ++ rest) i j := by
  obtain ⟨e, hname, hj, hle⟩ := h
  refine ⟨e, hname.append rest, ?_, hle.trans (List.length_append ▸ Nat.le_add_right _ _)⟩
  rw [u16_append rest (by omega), hj]

lemma Rdata.At.append {data : Rdata} (h : data.At bytes i j) (hle : j ≤ bytes.length) :
    data.At (bytes ++ rest) i j := by
  cases data with
  | a address =>
    obtain ⟨rfl, haddress⟩ := h
    exact ⟨rfl, by rw [slice_append rest hle, haddress]⟩
  | aaaa address =>
    obtain ⟨rfl, haddress⟩ := h
    exact ⟨rfl, by rw [slice_append rest hle, haddress]⟩
  | cname target => exact Name.At.append rest h
  | dname target => exact Name.At.append rest h

lemma Answer.At.append {a : Answer} (h : a.At bytes i j) : a.At (bytes ++ rest) i j := by
  obtain ⟨e, hname, htype, hclass, hj, hle, hdata⟩ := h
  refine ⟨e, hname.append rest, ?_, ?_, ?_, hle.trans (List.length_append ▸ Nat.le_add_right _ _),
    hdata.append rest hle⟩
  · rw [u16_append rest (by omega), htype]
  · rw [u16_append rest (by omega), hclass]
  · rw [u16_append rest (by omega), hj]

lemma Message.At.append {m : Message} (h : m.At bytes j) : m.At (bytes ++ rest) j := by
  obtain ⟨⟨hlong, hqr⟩, hcounts, i₁, i₂, i₃, hquestions, hanswers, hauthority, hadditional⟩ := h
  refine ⟨⟨?_, ?_⟩, ⟨?_, ?_, ?_, ?_⟩, i₁, i₂, i₃, hquestions.imp fun _ _ _ h => h.append rest,
    hanswers.imp fun _ _ _ h => h.append rest, hauthority.imp fun _ _ _ h => h.append rest,
    hadditional.imp fun _ _ _ h => h.append rest⟩
  · rw [List.length_append]
    omega
  · rw [List.getD_append _ _ _ _ (by omega), hqr]
  · rw [u16_append rest (by omega), hcounts.questions]
  · rw [u16_append rest (by omega), hcounts.answers]
  · rw [u16_append rest (by omega), hcounts.authority]
  · rw [u16_append rest (by omega), hcounts.additional]

end Append

/-! ## The list of addresses -/

/-- `ai_family`. -/
inductive Family where
  | inet
  | inet6
  deriving DecidableEq, Repr

/-- The flags of `ai_flags` that are set. -/
inductive AddrFlag where
  | canonname
  | numericserv
  deriving DecidableEq, Repr

/-- `ai_socktype`. -/
inductive SockType where
  | stream
  deriving DecidableEq, Repr

/-- `struct addrinfo`, with the address it points to. -/
structure AddrInfo where
  flags : List AddrFlag
  family : Family
  socktype : SockType
  protocol : ℕ
  canonname : Option (List UInt8)
  port : List UInt8
  address : List UInt8
  deriving DecidableEq, Repr

/-- `htons(port)`, as it lies in memory. -/
def htons (port : ℤ) : List UInt8 :=
  [UInt8.ofNat ((port % 2 ^ 16).toNat / 256), UInt8.ofNat ((port % 2 ^ 16).toNat % 256)]

def AddrInfo.new (family : Family) (port : ℤ) (canonname : Option (List UInt8))
    (address : List UInt8) : AddrInfo :=
  ⟨[.canonname, .numericserv], family, .stream, 0, canonname, htons port, address⟩

/-- The loop of `addrinfo_dup`: `canon_name` is null behind the first entry. -/
def addrinfoLoop (family : Family) (port : ℤ) :
    Option (List UInt8) → List (List UInt8) → List AddrInfo
  | _, [] => []
  | canonName, address :: rest =>
    AddrInfo.new family port canonName address :: addrinfoLoop family port none rest

def addrinfoDup (isIpv6 : Bool) (response : Response) (port : ℤ) : List AddrInfo :=
  let canonName := response.cname.head?.map cString
  if isIpv6 then addrinfoLoop .inet6 port canonName response.aaaa
  else addrinfoLoop .inet port canonName response.a

def Message.addrinfo (m : Message) (isIpv6 : Bool) (port : ℤ) : List AddrInfo :=
  (if isIpv6 then m.aaaa else m.a).mapIdx fun k address =>
    AddrInfo.new (if isIpv6 then .inet6 else .inet) port
      (if k = 0 then m.cname.head?.map cString else none) address

lemma addrinfoLoop_eq (family : Family) (port : ℤ) (canonName : Option (List UInt8))
    (addresses : List (List UInt8)) :
    addrinfoLoop family port canonName addresses = addresses.mapIdx fun k address =>
      AddrInfo.new family port (if k = 0 then canonName else none) address := by
  have hnone : ∀ addresses : List (List UInt8), addrinfoLoop family port none addresses =
      addresses.mapIdx fun _ address => AddrInfo.new family port none address := by
    intro addresses
    induction addresses with
    | nil => rfl
    | cons address rest ih => rw [addrinfoLoop, ih, List.mapIdx_cons]
  cases addresses with
  | nil => rfl
  | cons address rest =>
    rw [addrinfoLoop, hnone, List.mapIdx_cons, if_pos rfl]
    simp

lemma addrinfoDup_response (m : Message) (bytes : List UInt8) (isIpv6 : Bool) (port : ℤ) :
    addrinfoDup isIpv6 (m.response bytes) port = m.addrinfo isIpv6 port := by
  cases isIpv6 with
  | false => exact addrinfoLoop_eq ..
  | true => exact addrinfoLoop_eq ..

/-! ## Answers -/

/-- **Answers.** In a well-formed response of at most 65535 bytes, all addresses and all targets are
found, in order, and the list of addresses is made of them, if and only if no pointer that is
followed for a target has a second byte with a sign. -/
theorem answers_exact_iff (signed : Bool) (bytes : List UInt8) (m : Message)
    (hwell : m.At bytes bytes.length) (hlength : bytes.length ≤ 65535) :
    (∃ fuel j resp, parse bytes signed fuel = .ok (.good, ⟨j, resp⟩) ∧
      resp.a = m.a ∧ resp.aaaa = m.aaaa ∧ resp.cname = m.cname ∧
      ∀ isIpv6 port, addrinfoDup isIpv6 resp port = m.addrinfo isIpv6 port) ↔
    (signed = true → ∀ target ∈ m.targets, ∀ p ∈ target.pointers, p % 256 < 128) := by
  have hplain : m.Plain signed ↔
      (signed = true → ∀ target ∈ m.targets, ∀ p ∈ target.pointers, p % 256 < 128) :=
    ⟨fun h hs target ht => h target ht hs, fun h target ht hs => h hs target ht⟩
  rw [← hplain]
  constructor
  · rintro ⟨fuel, j, resp, hok, -⟩
    exact (room_of_parse hwell hok).2
  intro h
  obtain ⟨j, hok⟩ := parse_of_room hwell.1 hwell.2.1 (hwell.room hlength) h
  exact ⟨_, j, _, hok, rfl, rfl, rfl, addrinfoDup_response m bytes⟩

/-- A response with a question, a CNAME that points to the name of the question, and an address. -/
def sampleResponse : List UInt8 :=
  [0, 0, 128, 0, 0, 1, 0, 2, 0, 0, 0, 0] ++ [1, 97, 0, 0, 1, 0, 1] ++
    [192, 12, 0, 5, 0, 1, 0, 0, 0, 0, 0, 2, 192, 12] ++
    [192, 12, 0, 1, 0, 1, 0, 0, 0, 0, 0, 4, 1, 2, 3, 4]

@[inherit_doc sampleResponse] def sampleMessage : Message :=
  let name := Name.label [97] .root
  ⟨[name], [⟨.pointer 12 name, .cname (.pointer 12 name)⟩, ⟨.pointer 12 name, .a [1, 2, 3, 4]⟩],
    [], []⟩

lemma sampleName_at {i : ℕ} (h : sampleResponse[i]? = some 192 ∧ sampleResponse[i + 1]? = some 12) :
    (Name.pointer 12 (.label [97] .root)).At sampleResponse i (i + 2) :=
  ⟨⟨192, 12, h.1, by decide, h.2, rfl⟩, rfl, 15, ⟨by decide, by decide⟩, rfl, ⟨by decide, rfl⟩, rfl,
    rfl⟩

lemma sampleMessage_at : sampleMessage.At sampleResponse sampleResponse.length := by
  refine ⟨⟨by decide, by decide⟩, ⟨rfl, rfl, rfl, rfl⟩, 19, 49, 49, ?_, ?_, rfl, rfl⟩
  · exact ⟨19, ⟨15, ⟨⟨by decide, by decide⟩, rfl, ⟨by decide, rfl⟩, rfl, rfl⟩, rfl, by decide⟩, rfl⟩
  refine ⟨33, ⟨21, sampleName_at ⟨rfl, rfl⟩, rfl, rfl, rfl, by decide, ?_⟩, 49, ?_, rfl⟩
  · exact sampleName_at ⟨rfl, rfl⟩
  · exact ⟨35, sampleName_at ⟨rfl, rfl⟩, rfl, rfl, rfl, by decide, rfl, rfl⟩

theorem answers_exact_sample :
    (∃ fuel j resp, parse sampleResponse true fuel = .ok (.good, ⟨j, resp⟩) ∧
      resp.a = [[1, 2, 3, 4]] ∧ resp.aaaa = [] ∧ resp.cname = [[97]] ∧
      ∀ isIpv6 port, addrinfoDup isIpv6 resp port = sampleMessage.addrinfo isIpv6 port) :=
  (answers_exact_iff true sampleResponse sampleMessage sampleMessage_at (by decide)).mpr
    (fun _ => by decide)

/-- A CNAME points to the last label of its question, at offset 128. -/
def highResponse : List UInt8 :=
  [0, 0, 128, 0, 0, 1, 0, 1, 0, 0, 0, 0] ++ [63] ++ List.replicate 63 97 ++ [51] ++
    List.replicate 51 97 ++ [1, 97, 0, 0, 1, 0, 1] ++ [0, 0, 5, 0, 1, 0, 0, 0, 0, 0, 2, 192, 128]

@[inherit_doc highResponse] def highMessage : Message :=
  let last := Name.label [97] .root
  ⟨[.label (List.replicate 63 97) (.label (List.replicate 51 97) last)],
    [⟨.root, .cname (.pointer 128 last)⟩], [], []⟩

/-- **In front.** The response is well formed, and is accepted if bytes have no sign. If they have,
a byte in front of the message is read for the target. -/
theorem high_pointer :
    highMessage.At highResponse highResponse.length ∧ highResponse.length ≤ 65535 ∧
    Leaves true highResponse 146 ∧ (∀ fuel c, parse highResponse true fuel ≠ .ok (.good, c)) ∧
    ∃ fuel j, parse highResponse false fuel =
      .ok (.good, ⟨j, highMessage.response highResponse⟩) := by
  have hlast : (Name.label [97] .root).At highResponse 128 131 :=
    ⟨⟨by decide, by decide⟩, rfl, ⟨by decide +kernel, rfl⟩, rfl, rfl⟩
  have htarget : (Name.pointer 128 (.label [97] .root)).At highResponse 146 148 :=
    ⟨⟨192, 128, rfl, by decide, rfl, rfl⟩, rfl, 131, hlast⟩
  have hwell : highMessage.At highResponse highResponse.length := by
    refine ⟨⟨by decide +kernel, by decide +kernel⟩, ⟨rfl, rfl, rfl, rfl⟩, 135, 148, 148,
      ?_, ?_, rfl, rfl⟩
    · refine ⟨135, ⟨131, ⟨⟨by decide, by decide⟩, rfl, ⟨by decide +kernel, rfl⟩, ?_⟩,
        rfl, by decide +kernel⟩, rfl⟩
      exact ⟨⟨by decide, by decide⟩, rfl, ⟨by decide +kernel, rfl⟩, hlast⟩
    · exact ⟨148, ⟨136, ⟨rfl, rfl⟩, rfl, rfl, rfl, by decide +kernel, htarget⟩, rfl⟩
  have hhigh : ¬ ∀ p ∈ (Name.pointer 128 (.label [97] .root)).pointers, p % 256 < 128 := by decide
  refine ⟨hwell, by decide +kernel, htarget.leaves hhigh, fun fuel c hok => ?_,
    highResponse.length, ?_⟩
  · exact hhigh ((room_of_parse hwell hok).2 _ List.mem_cons_self rfl)
  · exact parse_of_room hwell.1 hwell.2.1 (hwell.room (by decide +kernel)) fun _ _ hs => nomatch hs

end Yass.Net.DnsMessage
