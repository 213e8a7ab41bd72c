import Mathlib.Data.List.TakeWhile
import Mathlib.Tactic

/-!
# The DNS query

* `TooLong`, `CutShort` — what is not: a name with an encoding of 256 bytes is accepted, and of a
  name with a zero byte only what is before it is looked at.

The two bytes of `qdcount` are those of a little-endian machine.

Source: `net/dns_message.hpp`, `net/dns_message_request.hpp`.
-/

namespace Yass.Net.DnsMessage

def dot : UInt8 := 46

/-! ## The code -/

/-- `body_`, which is filled from its start. -/
structure Body where
  size : ℕ
  written : List UInt8
  deriving DecidableEq, Repr

namespace Body

/-- The bytes are written at `dnsp`. -/
def put (b : Body) (bytes : List UInt8) : Option Body :=
  if b.written.length + bytes.length ≤ b.size then some { b with written := b.written ++ bytes }
  else none

/-- All of `body_`; `resize` has filled it with zeros. -/
def contents (b : Body) : List UInt8 := b.written ++ List.replicate (b.size - b.written.length) 0

/-- The loop over the labels of the C string at `hostp`. Every turn takes a byte of it at least, so
that its length is enough for the first argument. The `Bool` is `false` where `init` returns. -/
def putLabels : ℕ → List UInt8 → Body → Option (Bool × Body)
  | _, [], b => some (true, b)
  | 0, _ :: _, b => some (false, b)
  | fuel + 1, hostp, b =>
    let label := hostp.takeWhile (· ≠ dot)
    if 63 < label.length ∨ label.length = 0 then some (false, b)
    else do
      let b ← b.put [UInt8.ofNat label.length]
      let b ← b.put label
      -- past the dot, if there is one
      putLabels fuel (hostp.drop label.length).tail b

end Body

/-- `dns_message::request`: the bytes of its header and of its body. -/
structure Request where
  header : List UInt8
  body : List UInt8
  deriving DecidableEq, Repr

namespace Request

def new : Request := ⟨List.replicate 12 0, []⟩

/-- `rd` is set, and `qdcount` is 1. -/
def queryHeader : List UInt8 := [0, 0, 1, 0, 0, 1, 0, 0, 0, 0, 0, 0]

/-- `init`, with what it returns. -/
def init (host : List UInt8) (dnstype : ℕ) : Option (Bool × Request) :=
  if host = [] then some (false, new)
  else
    let expectedLen := 12 + 1 + host.length + 4 + if host.getLast? ≠ some dot then 1 else 0
    if 256 + 16 < expectedLen then some (false, new)
    else do
      -- `c_str()`
      let hostp := host.takeWhile (· ≠ 0)
      let (ok, body) ← Body.putLabels hostp.length hostp ⟨expectedLen - 12, []⟩
      if ok then do
        let body ← body.put [0]
        let body ← body.put [UInt8.ofNat (dnstype / 256), UInt8.ofNat dnstype]
        let body ← body.put [0, 1]
        some (true, ⟨queryHeader, body.contents⟩)
      else some (false, ⟨queryHeader, body.contents⟩)

/-- What `buffers()` has. -/
def bytes (r : Request) : List UInt8 := r.header ++ r.body

end Request

/-! ## Names -/

def IsLabel (l : List UInt8) : Prop := 1 ≤ l.length ∧ l.length ≤ 63 ∧ dot ∉ l

/-- The host name with these labels, and with or without a dot at its end. -/
inductive Spells : List UInt8 → List (List UInt8) → Prop
  | root : Spells [] []
  | last {l : List UInt8} (hl : IsLabel l) : Spells l [l]
  | more {l rest : List UInt8} {ls : List (List UInt8)} (hl : IsLabel l) (h : Spells rest ls) :
      Spells (l ++ dot :: rest) (l :: ls)

def encodeLabel (l : List UInt8) : List UInt8 := UInt8.ofNat l.length :: l

def qname (ls : List (List UInt8)) : List UInt8 := ls.flatMap encodeLabel ++ [0]

def question (ls : List (List UInt8)) (dnstype : ℕ) : List UInt8 :=
  qname ls ++ [UInt8.ofNat (dnstype / 256), UInt8.ofNat dnstype, 0, 1]

def Encodable (host : List UInt8) : Prop :=
  ∃ ls, ls ≠ [] ∧ Spells host ls ∧ (qname ls).length ≤ 255

/-- What `init` is to do. -/
def Correct (host : List UInt8) (dnstype : ℕ) : Prop :=
  ∃ ok r, Request.init host dnstype = some (ok, r) ∧ (ok = true ↔ Encodable host) ∧
    ∀ ls, ls ≠ [] → Spells host ls → (qname ls).length ≤ 255 →
      r.bytes = Request.queryHeader ++ question ls dnstype

/-! ## Splitting a name -/

variable {host : List UInt8} {ls : List (List UInt8)}

def behind (host : List UInt8) : List UInt8 :=
  (host.drop (host.takeWhile (· ≠ dot)).length).tail

lemma drop_takeWhile (host : List UInt8) :
    host.drop (host.takeWhile (· ≠ dot)).length = host.dropWhile (· ≠ dot) := by
  have h := List.takeWhile_append_dropWhile (p := (· ≠ dot)) (l := host)
  have hdrop := congrArg (List.drop (host.takeWhile (· ≠ dot)).length) h
  rw [List.drop_left' rfl] at hdrop
  exact hdrop.symm

lemma split_label (host : List UInt8) :
    (host = host.takeWhile (· ≠ dot) ∧ behind host = []) ∨
      host = host.takeWhile (· ≠ dot) ++ dot :: behind host := by
  have happ := List.takeWhile_append_dropWhile (p := (· ≠ dot)) (l := host)
  have hbehind : behind host = (host.dropWhile (· ≠ dot)).tail := by
    rw [behind, drop_takeWhile]
  cases hdrop : host.dropWhile (· ≠ dot) with
  | nil =>
    left
    rw [hdrop, List.append_nil] at happ
    exact ⟨happ.symm, by rw [hbehind, hdrop]; rfl⟩
  | cons b rest =>
    right
    obtain rfl : b = dot := by
      have hhead := List.head?_dropWhile_not (· ≠ dot) host
      rw [hdrop] at hhead
      simpa using hhead
    rw [hbehind, hdrop, List.tail_cons, ← hdrop]
    exact happ.symm

variable {l : List UInt8}

lemma takeWhile_label (hl : dot ∉ l) (rest : List UInt8) :
    (l ++ dot :: rest).takeWhile (· ≠ dot) = l := by
  rw [List.takeWhile_append_of_pos]
  · simp
  intro b hb
  simp only [ne_eq, decide_not, Bool.not_eq_true', decide_eq_false_iff_not]
  intro heq
  exact hl (heq ▸ hb)

lemma behind_label (hl : dot ∉ l) (rest : List UInt8) :
    behind (l ++ dot :: rest) = rest := by
  rw [behind, takeWhile_label hl, List.drop_left' rfl, List.tail_cons]

lemma takeWhile_self (hl : dot ∉ l) : l.takeWhile (· ≠ dot) = l := by
  rw [List.takeWhile_eq_self_iff]
  intro b hb
  simp only [ne_eq, decide_not, Bool.not_eq_true', decide_eq_false_iff_not]
  intro heq
  exact hl (heq ▸ hb)

lemma dot_notMem_takeWhile (host : List UInt8) : dot ∉ host.takeWhile (· ≠ dot) := by
  intro hmem
  simpa using List.mem_takeWhile_imp hmem

lemma Spells.eq_nil (h : Spells [] ls) : ls = [] := by
  generalize hempty : ([] : List UInt8) = empty at h
  cases h with
  | root => rfl
  | last hl => simp [IsLabel, ← hempty] at hl
  | more => simp at hempty

lemma spells_iff (hne : host ≠ []) :
    Spells host ls ↔ IsLabel (host.takeWhile (· ≠ dot)) ∧
      ∃ ls', ls = host.takeWhile (· ≠ dot) :: ls' ∧ Spells (behind host) ls' := by
  constructor
  · intro h
    cases h with
    | root => exact absurd rfl hne
    | last hl =>
      rw [takeWhile_self hl.2.2]
      refine ⟨hl, [], rfl, ?_⟩
      rw [behind, takeWhile_self hl.2.2, List.drop_length]
      exact .root
    | more hl h =>
      rw [takeWhile_label hl.2.2, behind_label hl.2.2]
      exact ⟨hl, _, rfl, h⟩
  · rintro ⟨hl, ls', rfl, h⟩
    rcases split_label host with ⟨hhost, hbehind⟩ | hhost
    · rw [hbehind] at h
      obtain rfl := h.eq_nil
      have hlast := Spells.last hl
      rwa [← hhost] at hlast ⊢
    · have hmore := Spells.more hl h
      rwa [← hhost] at hmore

/-! ## How long an encoding is -/

def need (host : List UInt8) : ℕ :=
  if host = [] then 0 else host.length + if host.getLast? ≠ some dot then 1 else 0

lemma need_pos_le (host : List UInt8) : need host ≤ host.length + 1 := by
  unfold need
  split_ifs <;> omega

lemma need_of_label (hne : l ≠ []) (hl : dot ∉ l) : need l = 1 + l.length := by
  have hlast : l.getLast? ≠ some dot := fun h => hl (List.mem_of_getLast? h)
  rw [need, if_neg hne, if_pos hlast]
  omega

lemma need_label (l rest : List UInt8) : need (l ++ dot :: rest) = 1 + l.length + need rest := by
  unfold need
  rw [if_neg (by simp)]
  rcases List.eq_nil_or_concat' rest with rfl | ⟨rest, b, rfl⟩
  · simp
    omega
  have hlast : (l ++ dot :: (rest ++ [b])).getLast? = some b := by
    rw [show l ++ dot :: (rest ++ [b]) = (l ++ dot :: rest) ++ [b] by simp,
      List.getLast?_concat]
  have hne : rest ++ [b] ≠ [] := by simp
  rw [hlast, List.getLast?_concat, if_neg hne]
  simp only [List.length_append, List.length_cons]
  omega

lemma need_split (hne : host.takeWhile (· ≠ dot) ≠ []) :
    need host = 1 + (host.takeWhile (· ≠ dot)).length + need (behind host) := by
  rcases split_label host with ⟨hhost, hbehind⟩ | hhost
  · have hneed := need_of_label hne (dot_notMem_takeWhile host)
    rw [← hhost] at hneed ⊢
    rw [hneed, hbehind]
    rfl
  · have hneed := need_label (host.takeWhile (· ≠ dot)) (behind host)
    rwa [← hhost] at hneed

lemma length_encoded (h : Spells host ls) : (ls.flatMap encodeLabel).length = need host := by
  induction h with
  | root => rfl
  | last hl =>
    rw [need_of_label (List.ne_nil_of_length_pos hl.1) hl.2.2]
    simp [encodeLabel, Nat.add_comm]
  | more hl _ ih =>
    rw [need_label, ← ih]
    simp [encodeLabel]
    omega

lemma length_qname (h : Spells host ls) : (qname ls).length = need host + 1 := by
  rw [qname, List.length_append, length_encoded h]
  rfl

/-! ## What the loop writes -/

namespace Body

variable {b : Body}

lemma put_eq {bytes : List UInt8} (h : b.written.length + bytes.length ≤ b.size) :
    b.put bytes = some { b with written := b.written ++ bytes } := if_pos h

lemma putLabels_succ (hne : host ≠ []) (fuel : ℕ) (b : Body) :
    putLabels (fuel + 1) host b =
      if 63 < (host.takeWhile (· ≠ dot)).length ∨ (host.takeWhile (· ≠ dot)).length = 0 then
        some (false, b)
      else
        (b.put [UInt8.ofNat (host.takeWhile (· ≠ dot)).length]).bind fun b =>
          (b.put (host.takeWhile (· ≠ dot))).bind fun b => putLabels fuel (behind host) b := by
  cases host with
  | nil => exact absurd rfl hne
  | cons c cs => rfl

lemma put_encodeLabel (h : b.written.length + (1 + l.length) ≤ b.size) :
    ((b.put [UInt8.ofNat l.length]).bind fun b => b.put l) =
      some { b with written := b.written ++ encodeLabel l } := by
  have hlength : [UInt8.ofNat l.length].length = 1 := rfl
  rw [put_eq (by omega), Option.bind_some, put_eq (by simp; omega)]
  simp [encodeLabel]

/-- **The loop.** It stays inside `body_` if there is room for the whole name, and ends well exactly
if the name is made of labels. -/
lemma putLabels_spec (host : List UInt8) (fuel : ℕ) (hfuel : host.length ≤ fuel)
    (hroom : b.written.length + need host ≤ b.size) :
    ∃ ok b', putLabels fuel host b = some (ok, b') ∧ b'.size = b.size ∧
      (ok = true → ∃ ls, Spells host ls ∧ b'.written = b.written ++ ls.flatMap encodeLabel) ∧
      (ok = false → ∀ ls, ¬ Spells host ls) := by
  induction fuel generalizing host b with
  | zero =>
    obtain rfl := List.length_eq_zero_iff.mp (Nat.le_zero.mp hfuel)
    exact ⟨true, b, rfl, rfl, fun _ => ⟨[], .root, by simp⟩, fun h => absurd h (by simp)⟩
  | succ fuel ih =>
    by_cases hne : host = []
    · subst hne
      exact ⟨true, b, rfl, rfl, fun _ => ⟨[], .root, by simp⟩, fun h => absurd h (by simp)⟩
    rw [putLabels_succ hne]
    by_cases hbad : 63 < (host.takeWhile (· ≠ dot)).length ∨
        (host.takeWhile (· ≠ dot)).length = 0
    · refine ⟨false, b, if_pos hbad, rfl, fun h => absurd h (by simp), fun _ ls h => ?_⟩
      obtain ⟨⟨hone, hsixty, -⟩, -⟩ := (spells_iff hne).mp h
      omega
    rw [if_neg hbad]
    have hlabel : host.takeWhile (· ≠ dot) ≠ [] := by
      intro h
      exact hbad (Or.inr (List.length_eq_zero_iff.mpr h))
    have hneed := need_split hlabel
    have hput := put_encodeLabel (b := b) (l := host.takeWhile (· ≠ dot)) (by omega)
    have hlength : (behind host).length ≤ fuel := by
      rw [behind, List.length_tail, List.length_drop]
      omega
    rw [← Option.bind_assoc, hput, Option.bind_some]
    have hroom' : (b.written ++ encodeLabel (host.takeWhile (· ≠ dot))).length +
        need (behind host) ≤ b.size := by
      simp only [encodeLabel, List.length_append, List.length_cons]
      omega
    obtain ⟨ok, b', hrun, hsize, hgood, hfail⟩ :=
      ih (b := { b with written := b.written ++ encodeLabel (host.takeWhile (· ≠ dot)) })
        (behind host) hlength hroom'
    refine ⟨ok, b', hrun, hsize, ?_, ?_⟩
    · intro hok
      obtain ⟨ls, hls, hwritten⟩ := hgood hok
      refine ⟨_ :: ls, (spells_iff hne).mpr ⟨?_, ls, rfl, hls⟩, by simp [hwritten]⟩
      exact ⟨by omega, by omega, dot_notMem_takeWhile host⟩
    intro hok ls h
    obtain ⟨-, ls', rfl, hls'⟩ := (spells_iff hne).mp h
    exact hfail hok ls' hls'

end Body

/-! ## Reading a name back -/

variable {ls' : List (List UInt8)}

lemma Spells.unique (h : Spells host ls) (h' : Spells host ls') :
    ls' = ls := by
  induction h generalizing ls' with
  | root => exact h'.eq_nil
  | last hl =>
    obtain ⟨-, ls'', rfl, h''⟩ := (spells_iff (List.ne_nil_of_length_pos hl.1)).mp h'
    rw [behind, takeWhile_self hl.2.2, List.drop_length] at h''
    rw [takeWhile_self hl.2.2, h''.eq_nil]
  | more hl _ ih =>
    obtain ⟨-, ls'', rfl, h''⟩ := (spells_iff (by simp)).mp h'
    rw [behind_label hl.2.2] at h''
    rw [takeWhile_label hl.2.2, ih h'']

lemma Spells.isLabel (h : Spells host ls) : ∀ l ∈ ls, IsLabel l := by
  induction h with
  | root => simp
  | last hl => simpa using hl
  | more hl _ ih => simpa using ⟨hl, ih⟩

lemma Spells.ne_nil (h : Spells host ls) (hne : host ≠ []) : ls ≠ [] := by
  obtain ⟨-, ls', rfl, -⟩ := (spells_iff hne).mp h
  simp

lemma Spells.same_labels {host' : List UInt8} (h : Spells host ls) (h' : Spells host' ls) :
    host' = host ∨ host' = host ++ [dot] ∨ host = host' ++ [dot] := by
  induction h generalizing host' with
  | root =>
    cases h' with
    | root => exact .inl rfl
  | last hl =>
    cases h' with
    | last => exact .inl rfl
    | more _ h' =>
      cases h' with
      | root => exact .inr (Or.inl rfl)
  | more hl h ih =>
    cases h' with
    | last =>
      cases h with
      | root => exact .inr (Or.inr rfl)
    | more _ h' =>
      rcases ih h' with rfl | rfl | rfl
      · exact .inl rfl
      · exact .inr (Or.inl (by simp))
      · exact .inr (Or.inr (by simp))

lemma qname_cons (l : List UInt8) (ls : List (List UInt8)) :
    qname (l :: ls) = UInt8.ofNat l.length :: (l ++ qname ls) := by
  simp [qname, encodeLabel]

lemma IsLabel.toNat_length (hl : IsLabel l) :
    (UInt8.ofNat l.length).toNat = l.length := by
  have := hl.2.1
  rw [UInt8.toNat_ofNat']
  omega

lemma IsLabel.length_ne_zero (hl : IsLabel l) : UInt8.ofNat l.length ≠ 0 := by
  intro heq
  have hnat := congrArg UInt8.toNat heq
  rw [hl.toNat_length] at hnat
  have hpos := hl.1
  change l.length = 0 at hnat
  omega

lemma qname_append_inj {t t' : List UInt8} (hls : ∀ l ∈ ls, IsLabel l)
    (hls' : ∀ l ∈ ls', IsLabel l) (h : qname ls ++ t = qname ls' ++ t') : ls = ls' := by
  induction ls generalizing ls' with
  | nil =>
    cases ls' with
    | nil => rfl
    | cons l' ls' =>
      rw [qname_cons] at h
      exact absurd (List.head_eq_of_cons_eq h).symm (hls' l' (by simp)).length_ne_zero
  | cons l ls ih =>
    have hl := hls l (by simp)
    cases ls' with
    | nil =>
      rw [qname_cons] at h
      exact absurd (List.head_eq_of_cons_eq h) hl.length_ne_zero
    | cons l' ls' =>
      have hl' := hls' l' (by simp)
      rw [qname_cons, qname_cons, List.cons_append, List.cons_append] at h
      obtain ⟨hhead, htail⟩ := List.cons.inj h
      have hlength : l.length = l'.length := by
        rw [← hl.toNat_length, hhead, hl'.toNat_length]
      rw [List.append_assoc, List.append_assoc] at htail
      obtain ⟨rfl, hrest⟩ := List.append_inj htail hlength
      have hsame := ih (fun l hmem => hls l (List.mem_cons_of_mem _ hmem))
        (fun l hmem => hls' l (List.mem_cons_of_mem _ hmem)) hrest
      rw [hsame]

/-! ## Zero bytes -/

def cString (host : List UInt8) : List UInt8 := host.takeWhile (· ≠ 0)

lemma cString_of_notMem (h : 0 ∉ host) : cString host = host := by
  rw [cString, List.takeWhile_eq_self_iff]
  intro b hb
  simp only [ne_eq, decide_not, Bool.not_eq_true', decide_eq_false_iff_not]
  rintro rfl
  exact h hb

lemma cString_split (h : 0 ∈ host) : ∃ rest, host = cString host ++ 0 :: rest := by
  have happ := List.takeWhile_append_dropWhile (p := (· ≠ 0)) (l := host)
  cases hdrop : host.dropWhile (· ≠ 0) with
  | nil =>
    rw [hdrop, List.append_nil] at happ
    rw [← happ] at h
    simpa using List.mem_takeWhile_imp h
  | cons b rest =>
    obtain rfl : b = 0 := by
      have hhead := List.head?_dropWhile_not (· ≠ 0) host
      rw [hdrop] at hhead
      simpa using hhead
    rw [hdrop] at happ
    exact ⟨rest, happ.symm⟩

lemma need_cString_le (host : List UInt8) : need (cString host) ≤ need host := by
  by_cases h : 0 ∈ host
  · obtain ⟨rest, hhost⟩ := cString_split h
    have hlength := congrArg List.length hhost
    rw [List.length_append, List.length_cons] at hlength
    have hle := need_pos_le (cString host)
    have hne : host ≠ [] := List.ne_nil_of_mem h
    have hneed : host.length ≤ need host := by
      rw [need, if_neg hne]
      omega
    omega
  · rw [cString_of_notMem h]

lemma Spells.cString (h : Spells host ls) : ∃ ls', Spells (cString host) ls' := by
  have hlabel : ∀ {l : List UInt8}, IsLabel l → ∃ ls', Spells (DnsMessage.cString l) ls' := by
    intro l hl
    by_cases hne : DnsMessage.cString l = []
    · rw [hne]
      exact ⟨[], .root⟩
    have hsub : DnsMessage.cString l <+: l := List.takeWhile_prefix _
    exact ⟨_, .last ⟨List.length_pos_iff.mpr hne, hsub.length_le.trans hl.2.1,
      fun hmem => hl.2.2 (hsub.subset hmem)⟩⟩
  induction h with
  | root => exact ⟨[], .root⟩
  | last hl => exact hlabel hl
  | @more l rest ls hl _ ih =>
    by_cases hzero : 0 ∈ l
    · obtain ⟨t, ht⟩ := cString_split hzero
      have hcut : DnsMessage.cString (l ++ dot :: rest) = DnsMessage.cString l := by
        rw [DnsMessage.cString, List.takeWhile_append, if_neg]
        · rfl
        intro hlen
        have := congrArg List.length ht
        rw [List.length_append, List.length_cons] at this
        have : (DnsMessage.cString l).length = l.length := hlen
        omega
      rw [hcut]
      exact hlabel hl
    obtain ⟨ls', hls'⟩ := ih
    have hwhole : DnsMessage.cString (l ++ dot :: rest) =
        l ++ dot :: DnsMessage.cString rest := by
      rw [DnsMessage.cString, List.takeWhile_append_of_pos, List.takeWhile_cons_of_pos]
      · rfl
      · decide
      intro b hb
      simp only [ne_eq, decide_not, Bool.not_eq_true', decide_eq_false_iff_not]
      rintro rfl
      exact hzero hb
    rw [hwhole]
    exact ⟨_, .more hl hls'⟩

/-! ## Results -/

def TooLong (host : List UInt8) : Prop := ∃ ls, Spells host ls ∧ (qname ls).length = 256

/-- A name with a zero byte, which as a whole is short enough, and of which the part before the zero
byte is a name. -/
def CutShort (host : List UInt8) : Prop :=
  0 ∈ host ∧ need host < 256 ∧ ∃ ls, Spells (cString host) ls

lemma init_spec (hne : host ≠ []) (hfits : need host < 256) (dnstype : ℕ) :
    ∃ ok r, Request.init host dnstype = some (ok, r) ∧
      (ok = true → ∃ ls, Spells (cString host) ls ∧
        r.bytes = Request.queryHeader ++ (question ls dnstype ++
          List.replicate (need host - need (cString host)) 0)) ∧
      (ok = false → ∀ ls, ¬ Spells (cString host) ls) := by
  have hexpected : 12 + 1 + host.length + 4 + (if host.getLast? ≠ some dot then 1 else 0) =
      17 + need host := by
    rw [need, if_neg hne]
    omega
  have hle := need_cString_le host
  obtain ⟨ok, b, hrun, hsize, hgood, hfail⟩ :=
    Body.putLabels_spec (b := ⟨17 + need host - 12, []⟩) (cString host) (cString host).length
      le_rfl (by simp; omega)
  rw [Request.init, if_neg hne]
  simp only [hexpected]
  rw [if_neg (by omega)]
  change ∃ ok r, ((Body.putLabels (cString host).length (cString host) _).bind _) = _ ∧ _
  rw [hrun, Option.bind_some]
  cases ok with
  | false => exact ⟨false, _, rfl, fun h => absurd h (by simp), hfail⟩
  | true =>
    obtain ⟨ls, hls, hwritten⟩ := hgood rfl
    rw [List.nil_append] at hwritten
    have hlength := length_encoded hls
    have hroom : b.written.length + 5 ≤ b.size := by
      rw [hwritten, hlength, hsize]
      dsimp only
      omega
    refine ⟨true, ⟨Request.queryHeader, question ls dnstype ++
      List.replicate (need host - need (cString host)) 0⟩, ?_, ?_, fun h => absurd h (by simp)⟩
    · simp only [if_true, Option.bind_eq_bind]
      rw [Body.put_eq (by simp; omega), Option.bind_some, Body.put_eq (by simp; omega),
        Option.bind_some, Body.put_eq (by simp; omega), Option.bind_some]
      simp only [Body.contents, hwritten, hsize, List.length_append, hlength, question, qname,
        List.append_assoc, List.cons_append, List.nil_append, List.length_cons, List.length_nil]
      have hrest : 17 + need host - 12 - (need (cString host) + (0 + 1) + (0 + 1 + 1) +
          (0 + 1 + 1)) = need host - need (cString host) := by
        omega
      rw [hrest]
    · exact fun _ => ⟨ls, hls, rfl⟩

lemma init_of_need (hne : host ≠ []) (hneed : ¬ need host < 256) (dnstype : ℕ) :
    Request.init host dnstype = some (false, .new) := by
  rw [Request.init, if_neg hne]
  rw [need, if_neg hne] at hneed
  exact if_pos (by omega)

lemma init_isSome (host : List UInt8) (dnstype : ℕ) :
    (Request.init host dnstype).isSome = true := by
  by_cases hne : host = []
  · subst hne
    rfl
  by_cases hneed : need host < 256
  · obtain ⟨ok, r, hinit, -⟩ := init_spec hne hneed dnstype
    rw [hinit]
    rfl
  · rw [init_of_need hne hneed]
    rfl

lemma labels_ne_of_zero (hzero : 0 ∈ host)
    (h : Spells (cString host) ls) (h' : Spells host ls') : ls ≠ ls' := by
  rintro rfl
  obtain ⟨rest, hhost⟩ := cString_split hzero
  generalize cString host = before at h hhost
  rcases h.same_labels h' with rfl | rfl | rfl
  · simp at hhost
  · simp [dot] at hhost
  · have hlength := congrArg List.length hhost
    simp at hlength

/-- **Queries.** For every host and type nothing is written behind `body_`, and the query is correct
if and only if its name is not one of 256 bytes and is not cut short at a zero byte. -/
theorem query_correct_iff (host : List UInt8) (dnstype : ℕ) :
    (Request.init host dnstype).isSome = true ∧
      (Correct host dnstype ↔ ¬ TooLong host ∧ ¬ CutShort host) := by
  refine ⟨init_isSome host dnstype, ?_⟩
  constructor
  · rintro ⟨ok, r, hinit, hok, hbytes⟩
    refine ⟨?_, ?_⟩
    · rintro ⟨ls, hls, hlong⟩
      have hneed := length_qname hls
      have hne : host ≠ [] := by
        rintro rfl
        simp [need] at hneed
        omega
      obtain ⟨ok', r', hinit', -, hfail⟩ := init_spec hne (by omega) dnstype
      rw [hinit] at hinit'
      cases hinit'
      obtain ⟨ls', hls'⟩ := hls.cString
      have htrue : ok = true := by
        by_contra hfalse
        exact hfail (Bool.not_eq_true ok ▸ hfalse) ls' hls'
      obtain ⟨ls'', -, hls'', hshort⟩ := hok.mp htrue
      have := length_qname hls''
      omega
    · rintro ⟨hzero, hneed, ls, hls⟩
      obtain ⟨ok', r', hinit', hgood, hfail⟩ :=
        init_spec (List.ne_nil_of_mem hzero) hneed dnstype
      rw [hinit] at hinit'
      cases hinit'
      have htrue : ok = true := by
        by_contra hfalse
        exact hfail (Bool.not_eq_true ok ▸ hfalse) ls hls
      obtain ⟨ls', hls', hsent⟩ := hgood htrue
      obtain ⟨ls'', hne, hls'', hshort⟩ := hok.mp htrue
      rw [hbytes ls'' hne hls'' hshort] at hsent
      have hquestion := List.append_cancel_left hsent
      rw [question, question, List.append_assoc] at hquestion
      exact labels_ne_of_zero hzero hls' hls''
        (qname_append_inj hls'.isLabel hls''.isLabel hquestion.symm)
  · rintro ⟨hlong, hcut⟩
    by_cases hne : host = []
    · subst hne
      have hnot : ¬ Encodable [] := by
        rintro ⟨ls, hls, h, -⟩
        exact hls h.eq_nil
      refine ⟨false, .new, rfl, ⟨fun h => absurd h (by simp), fun h => absurd h hnot⟩, ?_⟩
      intro ls hls h
      exact absurd h.eq_nil hls
    by_cases hneed : need host < 256
    · obtain ⟨ok, r, hinit, hgood, hfail⟩ := init_spec hne hneed dnstype
      by_cases hzero : 0 ∈ host
      · -- the part before the zero byte is not a name, and so the whole is not
        have hnot : ∀ ls, ¬ Spells (cString host) ls := fun ls h => hcut ⟨hzero, hneed, ls, h⟩
        have hnone : ∀ ls, ¬ Spells host ls := by
          intro ls h
          obtain ⟨ls', h'⟩ := h.cString
          exact hnot ls' h'
        refine ⟨ok, r, hinit, ⟨fun h => ?_, fun h => ?_⟩, fun ls _ h => absurd h (hnone ls)⟩
        · obtain ⟨ls, hls, -⟩ := hgood h
          exact absurd hls (hnot ls)
        · obtain ⟨ls, -, hls, -⟩ := h
          exact absurd hls (hnone ls)
      rw [cString_of_notMem hzero] at hgood hfail
      have hshort : ∀ {ls}, Spells host ls → (qname ls).length ≤ 255 := by
        intro ls hls
        have hlength := length_qname hls
        have hmax : (qname ls).length ≠ 256 := fun h => hlong ⟨ls, hls, h⟩
        omega
      refine ⟨ok, r, hinit, ⟨fun h => ?_, fun h => ?_⟩, fun ls _ hls _ => ?_⟩
      · obtain ⟨ls, hls, -⟩ := hgood h
        exact ⟨ls, hls.ne_nil hne, hls, hshort hls⟩
      · obtain ⟨ls, -, hls, -⟩ := h
        by_contra hfalse
        exact hfail (Bool.not_eq_true ok ▸ hfalse) ls hls
      have htrue : ok = true := by
        by_contra hfalse
        exact hfail (Bool.not_eq_true ok ▸ hfalse) ls hls
      obtain ⟨ls', hls', hsent⟩ := hgood htrue
      rw [hsent, hls.unique hls', Nat.sub_self, List.replicate_zero, List.append_nil]
    have hnot : ∀ ls, Spells host ls → 255 < (qname ls).length := by
      intro ls hls
      have := length_qname hls
      omega
    refine ⟨false, .new, init_of_need hne hneed dnstype,
      ⟨fun h => absurd h (by simp), fun h => ?_⟩, fun ls _ hls hle => ?_⟩
    · obtain ⟨ls, -, hls, hle⟩ := h
      have := hnot ls hls
      omega
    · have := hnot ls hls
      omega

def longName : List UInt8 :=
  (List.replicate 3 (List.replicate 63 97 ++ [dot])).flatten ++ List.replicate 62 97

/-- **Misjudged.** The encoding of `longName` has 256 bytes, and it is accepted. Of `a\0b` a query
for `a` is made, with a byte behind it. -/
theorem query_misjudged :
    (Request.init longName 1).map Prod.fst = some true ∧ ¬ Encodable longName ∧
      (Request.init [97, 0, 98] 1).map (fun x => x.2.body) =
        some ([1, 97, 0, 0, 1, 0, 1] ++ [0, 0]) ∧
      question [[97, 0, 98]] 1 = [3, 97, 0, 98, 0, 0, 1, 0, 1] := by
  refine ⟨by decide +kernel, ?_, by decide +kernel, by decide +kernel⟩
  rintro ⟨ls, -, hls, hlength⟩
  have hneed : need longName = 255 := by decide +kernel
  have := length_qname hls
  omega

end Yass.Net.DnsMessage
