import Yass.Lib.Resume
import Yass.Net.Socks4Request

/-!
# The SOCKS parsers on input that comes in two parts

The parsers keep a state and return an iterator when they ask for more. They are modelled with their
state and with all they store, for the memory `mem`, a first position and the end of the input. A
caller that follows their documentation calls them again from the iterator.

* `Select` — method selection can be resumed at every point.
* `User` — the sub-negotiation cannot be resumed behind the length of a field: the iterator is
  behind it, and the state is the one that reads it.
* `Connect` — the request cannot be resumed behind the type of the address, for the same reason.
* `Text` — the SOCKS4 request cannot be resumed inside one of its texts: the part that has been seen
  is not stored.

Source: `net/socks4_request_parser.hpp`, `net/socks5_request_parser.hpp`, `net/socks5_request.hpp`.
-/

namespace Yass.Net.Resumption

open Resume (Agrees agrees_iff_of_more agrees_of_goes_on agrees_of_done)
open Yass.Net.Ss (AddressType ResultType)
open Yass.Net.Socks5 (span)
open Yass.Net.Socks4 (scan)

/-! ## Memory -/

section Memory

variable {mem : ℕ → UInt8} {i len k : ℕ}

lemma span_inj {a b : ℕ} (h : span mem a len = span mem b len) :
    ∀ k, k < len → mem (a + k) = mem (b + k) := by
  simpa [span] using h

end Memory

/-! ## Method selection -/

namespace Select

/-- `method_select_request_parser::state`. -/
inductive Stage where
  | requestStart
  | request
  deriving DecidableEq, Repr

/-- `method_select_request`. -/
structure Fields where
  ver : UInt8
  nmethods : UInt8
  methods : List UInt8
  deriving DecidableEq, Repr

def Fields.new : Fields := ⟨0, 0, []⟩

abbrev Outcome := Resume.Outcome ResultType Stage Fields

variable (mem : ℕ → UInt8)

/-- `parse` in the state `request`. -/
def parseMethods (f : Fields) (i n : ℕ) : Outcome :=
  if n - i < f.nmethods.toNat then ⟨.indeterminate, .request, f, i⟩
  else ⟨.good, .request, { f with methods := span mem i f.nmethods.toNat }, i + f.nmethods.toNat⟩

/-- `parse` in the state `request_start`. -/
def parseStart (f : Fields) (i n : ℕ) : Outcome :=
  if n - i < 2 then ⟨.indeterminate, .requestStart, f, i⟩
  else
    let f := { f with ver := mem i, nmethods := mem (i + 1) }
    if f.ver ≠ Socks5.version then ⟨.bad, .requestStart, f, i⟩ else parseMethods mem f (i + 2) n

def parse : Stage → Fields → ℕ → ℕ → Outcome
  | .requestStart => parseStart mem
  | .request => parseMethods mem

variable {n : ℕ}

lemma parse_short (h : n < 2) : parse mem .requestStart .new 0 n =
    ⟨.indeterminate, .requestStart, .new, 0⟩ := if_pos h

lemma parse_long (h : 2 ≤ n) : parse mem .requestStart .new 0 n =
    if mem 0 ≠ Socks5.version then ⟨.bad, .requestStart, ⟨mem 0, mem 1, []⟩, 0⟩
    else parseMethods mem ⟨mem 0, mem 1, []⟩ 2 n := if_neg (by omega)

lemma agrees {cut : ℕ} (hle : cut ≤ n) :
    Agrees .indeterminate (parse mem) .requestStart .new cut n := by
  by_cases hshort : cut < 2
  · exact agrees_of_goes_on (parse_short mem hshort) rfl
  have hcut := parse_long mem (show 2 ≤ cut by omega)
  have hwhole := parse_long mem (show 2 ≤ n by omega)
  by_cases hver : mem 0 ≠ Socks5.version
  · rw [if_pos hver] at hcut hwhole
    exact agrees_of_done hcut hwhole (by simp)
  rw [if_neg hver] at hcut hwhole
  by_cases hmore : cut - 2 < (mem 1).toNat
  · refine agrees_of_goes_on (hcut.trans (if_pos hmore)) hwhole
  have hdone : parseMethods mem ⟨mem 0, mem 1, []⟩ 2 cut = _ := if_neg hmore
  have hdone' : parseMethods mem ⟨mem 0, mem 1, []⟩ 2 n = _ := if_neg (by dsimp only; omega)
  exact agrees_of_done (hcut.trans hdone) (hwhole.trans hdone') (by simp)

end Select

/-! ## User name and password -/

namespace User

/-- `auth_request_parser::state`. -/
inductive Stage where
  | requestStart
  | requestUsername
  | requestPassword
  deriving DecidableEq, Repr

/-- `auth_request`. -/
structure Fields where
  ver : UInt8
  username : List UInt8
  password : List UInt8
  deriving DecidableEq, Repr

def Fields.new : Fields := ⟨0, [], []⟩

abbrev Outcome := Resume.Outcome ResultType Stage Fields

variable (mem : ℕ → UInt8)

/-- `parse` in the state `request_password`. -/
def parsePassword (f : Fields) (i n : ℕ) : Outcome :=
  if n - i < 1 then ⟨.indeterminate, .requestPassword, f, i⟩
  else
    let plen := mem i
    if plen = 0 then ⟨.bad, .requestPassword, f, i⟩
    else if n - (i + 1) < plen.toNat then ⟨.indeterminate, .requestPassword, f, i + 1⟩
    else
      ⟨.good, .requestPassword, { f with password := span mem (i + 1) plen.toNat },
        i + 1 + plen.toNat⟩

/-- `parse` in the state `request_username`. -/
def parseUsername (f : Fields) (i n : ℕ) : Outcome :=
  if n - i < 1 then ⟨.indeterminate, .requestUsername, f, i⟩
  else
    let ulen := mem i
    if ulen = 0 then ⟨.bad, .requestUsername, f, i⟩
    else if n - (i + 1) < ulen.toNat then ⟨.indeterminate, .requestUsername, f, i + 1⟩
    else
      parsePassword mem { f with username := span mem (i + 1) ulen.toNat } (i + 1 + ulen.toNat) n

/-- `parse` in the state `request_start`. -/
def parseStart (f : Fields) (i n : ℕ) : Outcome :=
  if n - i < 1 then ⟨.indeterminate, .requestStart, f, i⟩
  else
    let f := { f with ver := mem i }
    if f.ver ≠ Socks5.version then ⟨.bad, .requestStart, f, i⟩ else parseUsername mem f (i + 1) n

def parse : Stage → Fields → ℕ → ℕ → Outcome
  | .requestStart => parseStart mem
  | .requestUsername => parseUsername mem
  | .requestPassword => parsePassword mem

def ulen : ℕ := (mem 1).toNat

def plen : ℕ := (mem (2 + ulen mem)).toNat

/-- All bytes behind the version are the same, and the length of the password is the last of them:
the user name that starts one byte late is the same. -/
def Uniform (n : ℕ) : Prop := n = 3 + ulen mem ∧ ∀ k, k ≤ ulen mem → mem (2 + k) = mem 1

/-- The parts meet behind the length of a field, in front of the end of the field, and there is more
than the length. -/
def Misread (cut n : ℕ) : Prop :=
  mem 0 = Socks5.version ∧ mem 1 ≠ 0 ∧
    ((2 ≤ cut ∧ cut < 2 + ulen mem ∧ 3 ≤ n ∧ ¬ Uniform mem n) ∨
      (3 + ulen mem ≤ cut ∧ cut < 3 + ulen mem + plen mem ∧ 4 + ulen mem ≤ n))

variable {mem} {f : Fields} {i n : ℕ}

lemma toNat_pos_of_ne {b : UInt8} (h : b ≠ 0) : 0 < b.toNat := by
  rw [Nat.pos_iff_ne_zero]
  intro hzero
  exact h (UInt8.toNat_inj.mp hzero)

lemma parsePassword_nil (h : n - i < 1) :
    parsePassword mem f i n = ⟨.indeterminate, .requestPassword, f, i⟩ := if_pos h

lemma parsePassword_zero (h : i < n) (hzero : mem i = 0) :
    parsePassword mem f i n = ⟨.bad, .requestPassword, f, i⟩ := by
  rw [parsePassword, if_neg (by omega)]
  exact if_pos hzero

lemma parsePassword_short (h : i < n) (hne : mem i ≠ 0) (hlt : n - (i + 1) < (mem i).toNat) :
    parsePassword mem f i n = ⟨.indeterminate, .requestPassword, f, i + 1⟩ := by
  rw [parsePassword, if_neg (by omega)]
  dsimp only
  rw [if_neg hne, if_pos hlt]

lemma parsePassword_long (h : i < n) (hne : mem i ≠ 0) (hge : ¬ n - (i + 1) < (mem i).toNat) :
    parsePassword mem f i n = ⟨.good, .requestPassword,
      { f with password := span mem (i + 1) (mem i).toNat }, i + 1 + (mem i).toNat⟩ := by
  rw [parsePassword, if_neg (by omega)]
  dsimp only
  rw [if_neg hne, if_neg hge]

lemma parsePassword_cases (mem : ℕ → UInt8) (f : Fields) (h : i < n) :
    (mem i = 0 ∧ (parsePassword mem f i n).seen = (.bad, f, i)) ∨
    (mem i ≠ 0 ∧ n < i + 1 + (mem i).toNat ∧
      (parsePassword mem f i n).seen = (.indeterminate, f, i + 1)) ∨
    ∃ password, password.length = (mem i).toNat ∧ mem i ≠ 0 ∧ i + 1 + (mem i).toNat ≤ n ∧
      (parsePassword mem f i n).seen =
        (.good, { f with password }, i + 1 + (mem i).toNat) := by
  by_cases hzero : mem i = 0
  · exact .inl ⟨hzero, by rw [parsePassword_zero h hzero]; rfl⟩
  have hpos := toNat_pos_of_ne hzero
  by_cases hlt : n - (i + 1) < (mem i).toNat
  · exact .inr (.inl ⟨hzero, by omega, by rw [parsePassword_short h hzero hlt]; rfl⟩)
  refine .inr (.inr ⟨_, Socks5.length_span mem (i + 1) _, hzero, by omega, ?_⟩)
  rw [parsePassword_long h hzero hlt]
  rfl

lemma parsePassword_username : (parsePassword mem f i n).fields.username = f.username := by
  unfold parsePassword
  dsimp only
  split_ifs <;> rfl

lemma parsePassword_pos (mem : ℕ → UInt8) (f : Fields) (i n : ℕ) :
    i ≤ (parsePassword mem f i n).pos := by
  unfold parsePassword
  dsimp only
  split_ifs <;> dsimp only <;> omega

lemma parsePassword_late (h : i < n) :
    (parsePassword mem f (i + 1) n).seen = (parsePassword mem f i n).seen ↔
      n = i + 1 ∧ mem i ≠ 0 := by
  rcases parsePassword_cases mem f h with
    ⟨hzero, hseen⟩ | ⟨hne, hlt, hseen⟩ | ⟨password, hlength, hne, hle, hseen⟩
  · refine ⟨fun heq => ?_, fun hn => absurd hzero hn.2⟩
    have hplace : (parsePassword mem f (i + 1) n).pos = i :=
      congrArg (fun x => x.2.2) (heq.trans hseen)
    have hle := parsePassword_pos mem f (i + 1) n
    omega
  · by_cases hn : n = i + 1
    · rw [hseen, parsePassword_nil (by omega)]
      exact ⟨fun _ => ⟨hn, hne⟩, fun _ => rfl⟩
    refine ⟨fun heq => ?_, fun hn' => absurd hn'.1 hn⟩
    rcases parsePassword_cases mem f (show i + 1 < n by omega) with
      ⟨-, hlate⟩ | ⟨-, -, hlate⟩ | ⟨late, -, -, -, hlate⟩ <;>
      rw [hseen, hlate] at heq <;> simp at heq
  have hpos := toNat_pos_of_ne hne
  refine ⟨fun heq => ?_, fun hn => absurd hn.1 (by omega)⟩
  rcases parsePassword_cases mem f (show i + 1 < n by omega) with
    ⟨-, hlate⟩ | ⟨-, -, hlate⟩ | ⟨late, hlength', -, -, hlate⟩ <;>
    rw [hseen, hlate] at heq <;> simp at heq
  obtain ⟨hsame, hplace⟩ := heq
  rw [hsame] at hlength'
  omega

lemma parseUsername_cases (mem : ℕ → UInt8) (f : Fields) (h : i < n) :
    (mem i = 0 ∧ parseUsername mem f i n = ⟨.bad, .requestUsername, f, i⟩) ∨
    (mem i ≠ 0 ∧ n < i + 1 + (mem i).toNat ∧
      parseUsername mem f i n = ⟨.indeterminate, .requestUsername, f, i + 1⟩) ∨
    (mem i ≠ 0 ∧ i + 1 + (mem i).toNat ≤ n ∧ parseUsername mem f i n =
      parsePassword mem { f with username := span mem (i + 1) (mem i).toNat }
        (i + 1 + (mem i).toNat) n) := by
  rw [parseUsername, if_neg (by omega)]
  dsimp only
  by_cases hzero : mem i = 0
  · exact .inl ⟨hzero, if_pos hzero⟩
  have hpos := toNat_pos_of_ne hzero
  by_cases hlt : n - (i + 1) < (mem i).toNat
  · exact .inr (.inl ⟨hzero, by omega, by rw [if_neg hzero, if_pos hlt]⟩)
  · exact .inr (.inr ⟨hzero, by omega, by rw [if_neg hzero, if_neg hlt]⟩)

lemma parseUsername_late (v : UInt8) (hn : 3 ≤ n) (hne : mem 1 ≠ 0) :
    (parseUsername mem ⟨v, [], []⟩ 2 n).seen = (parseUsername mem ⟨v, [], []⟩ 1 n).seen ↔
      Uniform mem n := by
  have hpos : 0 < ulen mem := toNat_pos_of_ne hne
  constructor
  · intro heq
    have hname := congrArg (fun x => x.2.1.username.length) heq
    have hplace := congrArg (fun x => x.2.2) heq
    simp only [Resume.Outcome.seen] at hname hplace
    rcases parseUsername_cases mem ⟨v, [], []⟩ (show 1 < n by omega) with
      ⟨hzero, -⟩ | ⟨-, -, hwhole⟩ | ⟨-, hlong, hwhole⟩
    · exact absurd hzero hne
    · rw [hwhole] at hname hplace heq
      rcases parseUsername_cases mem ⟨v, [], []⟩ (show 2 < n by omega) with
        ⟨-, hlate⟩ | ⟨-, -, hlate⟩ | ⟨hne', -, hlate⟩
      · rw [hlate] at heq
        cases heq
      · rw [hlate] at hplace
        cases hplace
      · rw [hlate, parsePassword_username, Socks5.length_span] at hname
        exact absurd hname (toNat_pos_of_ne hne').ne'
    rw [hwhole, parsePassword_username, Socks5.length_span] at hname
    rcases parseUsername_cases mem ⟨v, [], []⟩ (show 2 < n by omega) with
      ⟨-, hlate⟩ | ⟨-, -, hlate⟩ | ⟨-, hlong', hlate⟩
    · rw [hlate] at hname
      exact absurd hname hpos.ne
    · rw [hlate] at hname
      exact absurd hname hpos.ne
    rw [hlate, parsePassword_username, Socks5.length_span] at hname
    have htwo : mem 2 = mem 1 := UInt8.toNat_inj.mp hname
    rw [hlate, hwhole, htwo] at heq
    have hspan := congrArg (fun x => x.2.1.username) heq
    simp only [Resume.Outcome.seen, parsePassword_username] at hspan
    rw [hspan] at heq
    rw [show 2 + 1 + (mem 1).toNat = 1 + 1 + (mem 1).toNat + 1 by omega] at heq
    obtain ⟨hn, -⟩ := (parsePassword_late (by omega)).mp heq
    refine ⟨by rw [hn, ulen]; omega, fun k => ?_⟩
    have hnext := span_inj hspan
    induction k with
    | zero => exact fun _ => htwo
    | succ k ih =>
      intro hk
      have hstep := hnext k hk
      rw [show 2 + 1 + k = 2 + (k + 1) by omega, show 1 + 1 + k = 2 + k by omega] at hstep
      rw [hstep, ih (by omega)]
  · rintro ⟨hlength, hsame⟩
    have htwo : mem 2 = mem 1 := hsame 0 (Nat.zero_le _)
    have hspan : span mem (2 + 1) (mem 1).toNat = span mem (1 + 1) (mem 1).toNat := by
      refine List.map_congr_left fun k hk => ?_
      rw [List.mem_range] at hk
      rw [show 2 + 1 + k = 2 + (k + 1) by omega, show 1 + 1 + k = 2 + k by omega,
        hsame (k + 1) hk, hsame k hk.le]
    rw [ulen] at hlength hpos
    rcases parseUsername_cases mem ⟨v, [], []⟩ (show 1 < n by omega) with
      ⟨hzero, -⟩ | ⟨-, hlt, -⟩ | ⟨-, -, hwhole⟩
    · exact absurd hzero hne
    · omega
    rcases parseUsername_cases mem ⟨v, [], []⟩ (show 2 < n by omega) with
      ⟨hzero, -⟩ | ⟨-, hlt, -⟩ | ⟨-, -, hlate⟩
    · exact absurd (htwo.symm.trans hzero) hne
    · rw [htwo] at hlt
      omega
    rw [hwhole, hlate, htwo, hspan, show 2 + 1 + (mem 1).toNat = 1 + 1 + (mem 1).toNat + 1 by omega,
      parsePassword_late (by omega)]
    refine ⟨by omega, ?_⟩
    rw [show 1 + 1 + (mem 1).toNat = 2 + ulen mem from rfl, hsame (ulen mem) le_rfl]
    exact hne

lemma parse_long (mem : ℕ → UInt8) (h : 1 ≤ n) : parse mem .requestStart .new 0 n =
    if mem 0 ≠ Socks5.version then ⟨.bad, .requestStart, ⟨mem 0, [], []⟩, 0⟩
    else parseUsername mem ⟨mem 0, [], []⟩ 1 n := if_neg (by omega)

lemma agrees_password_iff {cut : ℕ} (hle : cut ≤ n) (hcut : 2 + ulen mem ≤ cut)
    (hfirst : parse mem .requestStart .new 0 cut = parsePassword mem f (2 + ulen mem) cut)
    (hwhole : parse mem .requestStart .new 0 n = parsePassword mem f (2 + ulen mem) n) :
    Agrees .indeterminate (parse mem) .requestStart .new cut n ↔
      ¬ (3 + ulen mem ≤ cut ∧ cut < 3 + ulen mem + plen mem ∧ 4 + ulen mem ≤ n) := by
  by_cases hnone : cut - (2 + ulen mem) < 1
  · rw [parsePassword_nil hnone] at hfirst
    exact iff_of_true (agrees_of_goes_on hfirst hwhole) (by omega)
  by_cases hzero : mem (2 + ulen mem) = 0
  · rw [parsePassword_zero (by omega) hzero] at hfirst hwhole
    refine iff_of_true (agrees_of_done hfirst hwhole (by simp)) ?_
    rw [plen, hzero]
    simp
    omega
  by_cases hmore : cut - (2 + ulen mem + 1) < (mem (2 + ulen mem)).toNat
  · rw [parsePassword_short (by omega) hzero hmore] at hfirst
    rw [agrees_iff_of_more hfirst, hwhole]
    change (parsePassword mem f (2 + ulen mem + 1) n).seen = _ ↔ _
    rw [parsePassword_late (by omega), plen]
    constructor
    · rintro ⟨hn, -⟩
      omega
    · intro h
      exact ⟨by omega, hzero⟩
  rw [parsePassword_long (by omega) hzero hmore] at hfirst
  rw [parsePassword_long (by omega) hzero (by omega)] at hwhole
  refine iff_of_true (agrees_of_done hfirst hwhole (by simp)) ?_
  rw [plen]
  omega

lemma agrees_iff {cut : ℕ} (hle : cut ≤ n) :
    Agrees .indeterminate (parse mem) .requestStart .new cut n ↔ ¬ Misread mem cut n := by
  by_cases hnone : cut < 1
  · refine iff_of_true (agrees_of_goes_on (if_pos hnone) rfl) ?_
    rintro ⟨-, -, h | h⟩ <;> omega
  have hfirst := parse_long mem (show 1 ≤ cut by omega)
  have hwhole := parse_long mem (show 1 ≤ n by omega)
  by_cases hver : mem 0 ≠ Socks5.version
  · rw [if_pos hver] at hfirst hwhole
    exact iff_of_true (agrees_of_done hfirst hwhole (by simp)) fun h => hver h.1
  rw [if_neg hver] at hfirst hwhole
  rw [not_not] at hver
  by_cases hone : cut < 2
  · have hstop : parseUsername mem ⟨mem 0, [], []⟩ 1 cut = _ := if_pos (by omega)
    refine iff_of_true (agrees_of_goes_on (hfirst.trans hstop) hwhole) ?_
    rintro ⟨-, -, h | h⟩ <;> omega
  rcases parseUsername_cases mem ⟨mem 0, [], []⟩ (show 1 < cut by omega) with
    ⟨hzero, hstop⟩ | ⟨hne, hlt, hstop⟩ | ⟨hne, hlong, hgoes⟩
  · rcases parseUsername_cases mem ⟨mem 0, [], []⟩ (show 1 < n by omega) with
      ⟨-, hstop'⟩ | ⟨hne, -⟩ | ⟨hne, -⟩
    · rw [hstop] at hfirst
      rw [hstop'] at hwhole
      exact iff_of_true (agrees_of_done hfirst hwhole (by simp)) fun h => h.2.1 hzero
    · exact absurd hzero hne
    · exact absurd hzero hne
  · rw [hstop] at hfirst
    rw [agrees_iff_of_more hfirst, hwhole]
    change (parseUsername mem _ 2 n).seen = _ ↔ _
    have hulen : ulen mem = (mem 1).toNat := rfl
    by_cases hn : n < 3
    · obtain rfl : n = 2 := by omega
      have hnil : parseUsername mem ⟨mem 0, [], []⟩ 2 2 = _ := if_pos (by omega)
      obtain rfl : cut = 2 := by omega
      rw [hnil, hstop]
      refine iff_of_true rfl ?_
      rintro ⟨-, -, h | h⟩ <;> omega
    rw [parseUsername_late (mem 0) (by omega) hne]
    constructor
    · rintro huniform ⟨-, -, h | h⟩
      · exact h.2.2.2 huniform
      · omega
    intro h
    by_contra huniform
    exact h ⟨hver, hne, .inl ⟨by omega, by omega, by omega, huniform⟩⟩
  rcases parseUsername_cases mem ⟨mem 0, [], []⟩ (show 1 < n by omega) with
    ⟨hzero, -⟩ | ⟨-, hlt, -⟩ | ⟨-, -, hgoes'⟩
  · exact absurd hzero hne
  · omega
  have hulen : ulen mem = (mem 1).toNat := rfl
  rw [agrees_password_iff hle (by omega) (hfirst.trans hgoes) (hwhole.trans hgoes')]
  refine not_congr ⟨fun h => ⟨hver, hne, .inr h⟩, ?_⟩
  rintro ⟨-, -, h | h⟩
  · omega
  · exact h

end User

/-! ## The SOCKS5 request -/

namespace Connect

/-- `request_parser::state`. -/
inductive Stage where
  | requestStart
  | requestAddressStart
  deriving DecidableEq, Repr

/-- `request`. The address and the domain share their memory; the first byte of a domain is its
length. -/
structure Fields where
  header : List UInt8
  addressType : UInt8
  address : List UInt8
  portHighByte : UInt8
  portLowByte : UInt8
  deriving DecidableEq, Repr

def Fields.new : Fields := ⟨[0, 0, 0], 0, List.replicate 256 0, 0, 0⟩

/-- `memcpy` into the memory of the address. -/
def overwrite (address : List UInt8) (pos : ℕ) (bytes : List UInt8) : List UInt8 :=
  address.take pos ++ bytes ++ address.drop (pos + bytes.length)

def Fields.addressTypeSize (f : Fields) : AddressType → ℕ
  | .ipv4 => 4 + 2
  | .domain => 1 + (f.address.getD 0 0).toNat + 2
  | .ipv6 => 16 + 2

abbrev Outcome := Resume.Outcome ResultType Stage Fields

variable (mem : ℕ → UInt8)

/-- The address is at `i`, and the port behind it. -/
def Fields.store (f : Fields) (pos i len : ℕ) : Fields :=
  { f with
    address := overwrite f.address pos (span mem i len)
    portHighByte := mem (i + len)
    portLowByte := mem (i + len + 1) }

/-- What is behind the type of the address, at `i`. -/
def parseVariable (f : Fields) (i n : ℕ) (type : AddressType) : Outcome :=
  -- for a domain this is computed from what the memory of its length has held before
  if n - i < f.addressTypeSize type then ⟨.indeterminate, .requestAddressStart, f, i⟩
  else
    match type with
    | .ipv4 => ⟨.good, .requestAddressStart, f.store mem 0 i 4, i + 4 + 2⟩
    | .domain =>
      let f := { f with address := overwrite f.address 0 [mem i] }
      let len := (mem i).toNat
      if n - i < len + 2 then ⟨.indeterminate, .requestAddressStart, f, i⟩
      else ⟨.good, .requestAddressStart, f.store mem 1 (i + 1) len, i + 1 + len + 2⟩
    | .ipv6 => ⟨.good, .requestAddressStart, f.store mem 0 i 16, i + 16 + 2⟩

/-- `parse` in the state `request_address_start`. -/
def parseAddress (f : Fields) (i n : ℕ) : Outcome :=
  if n - i < 1 then ⟨.indeterminate, .requestAddressStart, f, i⟩
  else
    let f := { f with addressType := mem i }
    match AddressType.ofCode f.addressType with
    | none => ⟨.bad, .requestAddressStart, f, i + 1⟩
    | some type => parseVariable mem f (i + 1) n type

/-- `parse` in the state `request_start`. -/
def parseStart (f : Fields) (i n : ℕ) : Outcome :=
  if n - i < 3 then ⟨.indeterminate, .requestStart, f, i⟩
  else
    let f := { f with header := span mem i 3 }
    if mem i ≠ Socks5.version then ⟨.bad, .requestStart, f, i⟩ else parseAddress mem f (i + 3) n

def parse : Stage → Fields → ℕ → ℕ → Outcome
  | .requestStart => parseStart mem
  | .requestAddressStart => parseAddress mem

/-- The parts meet behind the type of the address, in front of the end of the request, and there is
more than the type. -/
def Misread (cut n : ℕ) : Prop :=
  mem 0 = Socks5.version ∧ (AddressType.ofCode (mem 3)).isSome = true ∧
    4 ≤ cut ∧ cut < Socks5.need mem ∧ 5 ≤ n

variable {mem} {f : Fields} {i n : ℕ}

lemma parseVariable_short {type : AddressType} (h : n - i < f.addressTypeSize type) :
    parseVariable mem f i n type = ⟨.indeterminate, .requestAddressStart, f, i⟩ := by
  cases type <;> exact if_pos h

lemma parseVariable_ipv4 (h : ¬ n - i < 4 + 2) : parseVariable mem f i n .ipv4 =
    ⟨.good, .requestAddressStart, f.store mem 0 i 4, i + 4 + 2⟩ := if_neg h

lemma parseVariable_ipv6 (h : ¬ n - i < 16 + 2) : parseVariable mem f i n .ipv6 =
    ⟨.good, .requestAddressStart, f.store mem 0 i 16, i + 16 + 2⟩ := if_neg h

lemma parseVariable_domain (h : ¬ n - i < f.addressTypeSize .domain) :
    parseVariable mem f i n .domain =
      if n - i < (mem i).toNat + 2 then
        ⟨.indeterminate, .requestAddressStart,
          { f with address := overwrite f.address 0 [mem i] }, i⟩
      else
        ⟨.good, .requestAddressStart,
          Fields.store mem { f with address := overwrite f.address 0 [mem i] } 1 (i + 1)
            (mem i).toNat, i + 1 + (mem i).toNat + 2⟩ := if_neg h

lemma parseAddress_bad (h : i < n) (hcode : AddressType.ofCode (mem i) = none) :
    parseAddress mem f i n =
      ⟨.bad, .requestAddressStart, { f with addressType := mem i }, i + 1⟩ := by
  rw [parseAddress, if_neg (by omega)]
  dsimp only
  rw [hcode]

lemma parseAddress_some {type : AddressType} (h : i < n)
    (hcode : AddressType.ofCode (mem i) = some type) :
    parseAddress mem f i n = parseVariable mem { f with addressType := mem i } (i + 1) n type := by
  rw [parseAddress, if_neg (by omega)]
  dsimp only
  rw [hcode]

lemma parseAddress_seen (mem : ℕ → UInt8) (f : Fields) (h : i < n) :
    (parseAddress mem f i n).fields.addressType = mem i ∧
    ((parseAddress mem f i n).pos = i + 1 ∨
      (mem i = 1 ∧ (parseAddress mem f i n).pos = i + 7) ∨
      (mem i = 4 ∧ (parseAddress mem f i n).pos = i + 19) ∨
      (mem i = 3 ∧ (parseAddress mem f i n).pos = i + 4 + (mem (i + 1)).toNat ∧
        (parseAddress mem f i n).fields.address.getD 0 0 = mem (i + 1))) := by
  cases hcode : AddressType.ofCode (mem i) with
  | none =>
    rw [parseAddress_bad h hcode]
    exact ⟨rfl, .inl rfl⟩
  | some type =>
    have htype := AddressType.ofCode_eq_some hcode
    rw [parseAddress_some h hcode]
    by_cases hshort : n - (i + 1) <
        Fields.addressTypeSize { f with addressType := mem i } type
    · rw [parseVariable_short hshort]
      exact ⟨rfl, .inl rfl⟩
    cases type with
    | ipv4 =>
      rw [parseVariable_ipv4 hshort]
      exact ⟨rfl, .inr (.inl ⟨htype, rfl⟩)⟩
    | ipv6 =>
      rw [parseVariable_ipv6 hshort]
      exact ⟨rfl, .inr (.inr (.inl ⟨htype, rfl⟩))⟩
    | domain =>
      rw [parseVariable_domain hshort]
      by_cases hlen : n - (i + 1) < (mem (i + 1)).toNat + 2
      · rw [if_pos hlen]
        exact ⟨rfl, .inl rfl⟩
      rw [if_neg hlen]
      refine ⟨rfl, .inr (.inr (.inr ⟨htype, by dsimp only; omega, ?_⟩))⟩
      simp [Fields.store, overwrite]

lemma parseAddress_late (mem : ℕ → UInt8) (f f' : Fields) (h : i + 1 < n) :
    (parseAddress mem f' (i + 1) n).seen ≠ (parseAddress mem f i n).seen := by
  intro heq
  have htype := congrArg (fun x => x.2.1.addressType) heq
  have hfirst := congrArg (fun x => x.2.1.address.getD 0 0) heq
  have hplace := congrArg (fun x => x.2.2) heq
  simp only [Resume.Outcome.seen] at htype hfirst hplace
  obtain ⟨htype₁, hseen⟩ := parseAddress_seen mem f (show i < n by omega)
  obtain ⟨htype₂, hlate⟩ := parseAddress_seen mem f' h
  rw [htype₁, htype₂] at htype
  rw [htype] at hlate
  -- the places where a call can stop differ by one, for the same type of address
  rcases hseen with hp | ⟨hm, hp⟩ | ⟨hm, hp⟩ | ⟨hm, hp, hl⟩ <;>
    rcases hlate with hp' | ⟨hm', hp'⟩ | ⟨hm', hp'⟩ | ⟨hm', hp', hl'⟩ <;>
    first
    | omega
    | (rw [hm] at hm'; exact absurd hm' (by decide))
    | skip
  -- two domains, whose lengths differ by one
  rw [hl, hl'] at hfirst
  rw [hfirst] at hp'
  omega

section Need

variable (hnew : f.address.getD 0 0 = 0)

include hnew

lemma parseAddress_of_lt (hcode : (AddressType.ofCode (mem 3)).isSome = true) (h : 3 < n)
    (hlt : n < Socks5.need mem) :
    ∃ f', parseAddress mem f 3 n = ⟨.indeterminate, .requestAddressStart, f', 4⟩ := by
  obtain ⟨type, htype⟩ := Option.isSome_iff_exists.mp hcode
  have hbehind : (Socks5.behind mem).addressType = some type := htype
  rw [Socks5.need, hbehind] at hlt
  rw [parseAddress_some h htype]
  cases type with
  | ipv4 => exact ⟨_, parseVariable_short (show n - 4 < 4 + 2 by dsimp only at hlt; omega)⟩
  | ipv6 => exact ⟨_, parseVariable_short (show n - 4 < 16 + 2 by dsimp only at hlt; omega)⟩
  | domain =>
    change n < max 7 ((mem 4).toNat + 6) at hlt
    by_cases hsize : n - 4 < Fields.addressTypeSize { f with addressType := mem 3 } .domain
    · exact ⟨_, parseVariable_short hsize⟩
    rw [parseVariable_domain hsize]
    rw [Fields.addressTypeSize, hnew] at hsize
    change ¬ n - 4 < 1 + 0 + 2 at hsize
    rcases lt_max_iff.mp hlt with hseven | hlen
    · omega
    · exact ⟨_, if_pos (show n - 4 < (mem 4).toNat + 2 by omega)⟩

lemma parseAddress_of_ge (hcode : (AddressType.ofCode (mem 3)).isSome = true) {m : ℕ} (hle : m ≤ n)
    (hm : 3 < m) (hge : Socks5.need mem ≤ m) :
    (parseAddress mem f 3 m).result = .good ∧ parseAddress mem f 3 n = parseAddress mem f 3 m := by
  obtain ⟨type, htype⟩ := Option.isSome_iff_exists.mp hcode
  have hbehind : (Socks5.behind mem).addressType = some type := htype
  rw [Socks5.need, hbehind] at hge
  rw [parseAddress_some hm htype, parseAddress_some (by omega) htype]
  cases type with
  | ipv4 =>
    dsimp only at hge
    rw [parseVariable_ipv4 (by omega), parseVariable_ipv4 (by omega)]
    exact ⟨rfl, rfl⟩
  | ipv6 =>
    dsimp only at hge
    rw [parseVariable_ipv6 (by omega), parseVariable_ipv6 (by omega)]
    exact ⟨rfl, rfl⟩
  | domain =>
    change max 7 ((mem 4).toNat + 6) ≤ m at hge
    obtain ⟨hseven, hlen⟩ := max_le_iff.mp hge
    have hsize : ∀ k, m ≤ k →
        ¬ k - (3 + 1) < Fields.addressTypeSize { f with addressType := mem 3 } .domain := by
      intro k hk
      rw [Fields.addressTypeSize, hnew]
      change ¬ k - 4 < 1 + 0 + 2
      omega
    have henough : ∀ k, m ≤ k → ¬ k - (3 + 1) < (mem (3 + 1)).toNat + 2 := by
      intro k hk
      change ¬ k - 4 < (mem 4).toNat + 2
      omega
    rw [parseVariable_domain (hsize m le_rfl), parseVariable_domain (hsize n hle),
      if_neg (henough m le_rfl), if_neg (henough n hle)]
    exact ⟨rfl, rfl⟩

end Need

lemma parse_long (mem : ℕ → UInt8) (h : 3 ≤ n) : parse mem .requestStart .new 0 n =
    if mem 0 ≠ Socks5.version then
      ⟨.bad, .requestStart, { Fields.new with header := span mem 0 3 }, 0⟩
    else parseAddress mem { Fields.new with header := span mem 0 3 } 3 n := if_neg (by omega)

lemma agrees_iff {cut : ℕ} (hle : cut ≤ n) :
    Agrees .indeterminate (parse mem) .requestStart .new cut n ↔ ¬ Misread mem cut n := by
  by_cases hshort : cut < 3
  · refine iff_of_true (agrees_of_goes_on (if_pos hshort) rfl) ?_
    rintro ⟨-, -, h, -⟩
    omega
  have hfirst := parse_long mem (show 3 ≤ cut by omega)
  have hwhole := parse_long mem (show 3 ≤ n by omega)
  by_cases hver : mem 0 ≠ Socks5.version
  · rw [if_pos hver] at hfirst hwhole
    exact iff_of_true (agrees_of_done hfirst hwhole (by simp)) fun h => hver h.1
  rw [if_neg hver] at hfirst hwhole
  rw [not_not] at hver
  by_cases hthree : cut < 4
  · have hstop : parseAddress mem { Fields.new with header := span mem 0 3 } 3 cut = _ :=
      if_pos (by omega)
    refine iff_of_true (agrees_of_goes_on (hfirst.trans hstop) hwhole) ?_
    rintro ⟨-, -, h, -⟩
    omega
  cases hcode : AddressType.ofCode (mem 3) with
  | none =>
    rw [parseAddress_bad (by omega) hcode] at hfirst hwhole
    refine iff_of_true (agrees_of_done hfirst hwhole (by simp)) ?_
    rintro ⟨-, hsome, -⟩
    rw [hcode] at hsome
    cases hsome
  | some type =>
    have hsome : (AddressType.ofCode (mem 3)).isSome = true := by rw [hcode]; rfl
    have hnew : ({ Fields.new with header := span mem 0 3 } : Fields).address.getD 0 0 = 0 := rfl
    by_cases hlt : cut < Socks5.need mem
    · obtain ⟨f', hstop⟩ := parseAddress_of_lt hnew hsome (by omega) hlt
      rw [hstop] at hfirst
      rw [agrees_iff_of_more hfirst]
      by_cases hn : 5 ≤ n
      · refine iff_of_false ?_ (not_not.mpr ⟨hver, hsome, by omega, hlt, hn⟩)
        rw [hwhole]
        exact parseAddress_late mem _ f' (by omega)
      obtain rfl : cut = n := by omega
      have hnil : parseAddress mem f' 4 cut = _ := if_pos (by omega)
      refine iff_of_true ?_ fun h => hn h.2.2.2.2
      rw [hfirst]
      exact congrArg Resume.Outcome.seen hnil
    obtain ⟨hgood, hsame⟩ := parseAddress_of_ge hnew hsome hle (by omega) (Nat.le_of_not_lt hlt)
    refine iff_of_true (agrees_of_done hfirst (hwhole.trans hsame) ?_) fun h => hlt h.2.2.2.1
    rw [hgood]
    decide

end Connect

/-! ## The SOCKS4 request -/

namespace Text

/-- `request_parser::state`. -/
inductive Stage where
  | requestStart
  | requestUseridStart
  | requestDomainStart
  deriving DecidableEq, Repr

/-- `request`. -/
structure Fields where
  header : List UInt8
  userId : List UInt8
  domainName : List UInt8
  deriving DecidableEq, Repr

def Fields.new : Fields := ⟨List.replicate 8 0, [], []⟩

def Fields.isSocks4a (f : Fields) : Bool :=
  f.header.getD 7 0 != 0 && ((f.header.drop 4).take 3).all (· == 0)

abbrev Outcome := Resume.Outcome ResultType Stage Fields

variable (mem : ℕ → UInt8)

/-- `parse` in the state `request_domain_start`. -/
def parseDomain (f : Fields) (start n : ℕ) : Outcome :=
  let i := scan mem (n - start) start
  if i = n then ⟨.indeterminate, .requestDomainStart, f, i⟩
  else
    ⟨.good, .requestDomainStart, { f with domainName := span mem start (i - start) }, i + 1⟩

/-- `parse` in the state `request_userid_start`. -/
def parseUserid (f : Fields) (start n : ℕ) : Outcome :=
  let i := scan mem (n - start) start
  if i = n then ⟨.indeterminate, .requestUseridStart, f, i⟩
  else
    let f := { f with userId := span mem start (i - start) }
    if f.isSocks4a then parseDomain mem f (i + 1) n
    else ⟨.good, .requestUseridStart, f, i + 1⟩

/-- `parse` in the state `request_start`. -/
def parseStart (f : Fields) (i n : ℕ) : Outcome :=
  if n - i < 8 then ⟨.indeterminate, .requestStart, f, i⟩
  else
    let f := { f with header := span mem i 8 }
    if mem i ≠ Socks4.version then ⟨.bad, .requestStart, f, i⟩ else parseUserid mem f (i + 8) n

def parse : Stage → Fields → ℕ → ℕ → Outcome
  | .requestStart => parseStart mem
  | .requestUseridStart => parseUserid mem
  | .requestDomainStart => parseDomain mem

/-- The text at `start` has its zero byte at `p`, in front of `n`. -/
def EndsAt (start p n : ℕ) : Prop :=
  start ≤ p ∧ p < n ∧ mem p = 0 ∧ ∀ k, start ≤ k → k < p → mem k ≠ 0

/-- The parts meet behind the first byte of a text that has its end in the input. -/
def Cuts (start cut n : ℕ) : Prop := start < cut ∧ ∃ p, EndsAt mem start p n ∧ cut ≤ p

/-- The parts meet inside the user name, or inside the domain name behind it. -/
def Lost (cut n : ℕ) : Prop :=
  mem 0 = Socks4.version ∧ (Cuts mem 8 cut n ∨
    ∃ p, EndsAt mem 8 p n ∧ (Fields.mk (span mem 0 8) [] []).isSocks4a = true ∧
      Cuts mem (p + 1) cut n)

variable {mem} {f : Fields} {start p n cut : ℕ}

lemma EndsAt.unique {q n' : ℕ} (h : EndsAt mem start p n) (h' : EndsAt mem start q n') : p = q := by
  obtain ⟨hp, -, hzero, hne⟩ := h
  obtain ⟨hq, -, hzero', hne'⟩ := h'
  rcases lt_trichotomy p q with hlt | heq | hlt
  · exact absurd hzero (hne' p hp hlt)
  · exact heq
  · exact absurd hzero' (hne q hq hlt)

lemma scan_eq (h : EndsAt mem start p n) : scan mem (n - start) start = p := by
  obtain ⟨hp, hn, hzero, hne⟩ := h
  obtain ⟨left, hleft⟩ : ∃ left, left = n - start := ⟨_, rfl⟩
  rw [← hleft]
  induction left generalizing start with
  | zero => omega
  | succ left ih =>
    rw [scan]
    by_cases heq : start = p
    · subst heq
      rw [if_pos hzero]
    · rw [if_neg (hne start le_rfl (by omega))]
      exact ih (by omega) (fun k hk => hne k (by omega)) (by omega)

lemma scan_of_none (hle : start ≤ n) (h : ∀ k, start ≤ k → k < n → mem k ≠ 0) :
    scan mem (n - start) start = n := by
  obtain ⟨left, hleft⟩ : ∃ left, left = n - start := ⟨_, rfl⟩
  rw [← hleft]
  induction left generalizing start with
  | zero => exact (show start = n by omega)
  | succ left ih =>
    rw [scan, if_neg (h start le_rfl (by omega))]
    exact ih (by omega) (fun k hk => h k (by omega)) (by omega)

lemma endsAt_or_none (mem : ℕ → UInt8) (start n : ℕ) :
    (∃ p, EndsAt mem start p n) ∨ ∀ k, start ≤ k → k < n → mem k ≠ 0 := by
  by_cases h : ∃ k, start ≤ k ∧ k < n ∧ mem k = 0
  · left
    classical
    obtain ⟨hstart, hlt, hzero⟩ := Nat.find_spec h
    refine ⟨Nat.find h, hstart, hlt, hzero, fun k hk hlt' hk0 => ?_⟩
    exact Nat.find_min h hlt' ⟨hk, hlt'.trans hlt, hk0⟩
  right
  intro k hk hkn hzero
  exact h ⟨k, hk, hkn, hzero⟩

lemma EndsAt.later (h : EndsAt mem start p cut) (hle : cut ≤ n) : EndsAt mem start p n :=
  ⟨h.1, h.2.1.trans_le hle, h.2.2⟩

lemma EndsAt.rest (h : EndsAt mem start p n) (hstart : start ≤ cut) (hle : cut ≤ p) :
    EndsAt mem cut p n :=
  ⟨hle, h.2.1, h.2.2.1, fun k hk => h.2.2.2 k (hstart.trans hk)⟩

lemma not_cuts_of_endsAt (h : EndsAt mem start p cut) : ¬ Cuts mem start cut n := by
  rintro ⟨-, q, hq, hle⟩
  have heq := h.unique hq
  have := h.2.1
  omega

lemma not_cuts_of_none (h : ∀ k, start ≤ k → k < n → mem k ≠ 0) : ¬ Cuts mem start cut n := by
  rintro ⟨-, q, hq, -⟩
  exact h q hq.1 hq.2.1 hq.2.2.1

/-- A name of which a part has come before is the same exactly if it does not end later. `name` is
the field in which a scan from `start` puts it. -/
lemma rest_iff (parse : ℕ → Outcome) {stopped : Outcome} (name : Fields → List UInt8)
    (hends : ∀ {start p}, EndsAt mem start p n →
      name (parse start).fields = span mem start (p - start))
    (hstops : ∀ {start}, start ≤ n → (∀ k, start ≤ k → k < n → mem k ≠ 0) →
      parse start = stopped)
    (hstart : start ≤ cut) (hle : cut ≤ n) (hnone : ∀ k, start ≤ k → k < cut → mem k ≠ 0) :
    (parse cut).seen = (parse start).seen ↔ ¬ Cuts mem start cut n := by
  rcases endsAt_or_none mem start n with ⟨p, hp⟩ | hall
  · have hcut : cut ≤ p := by
      by_contra hlt
      exact hnone p hp.1 (by omega) hp.2.2.1
    by_cases heq : start = cut
    · subst heq
      exact iff_of_true rfl fun h => absurd h.1 (lt_irrefl _)
    refine iff_of_false (fun hseen => ?_) (not_not.mpr ⟨by omega, p, hp, hcut⟩)
    have hlength := congrArg (fun x => (name x.2.1).length) hseen
    simp only [Resume.Outcome.seen, hends hp, hends (hp.rest hstart hcut),
      Socks5.length_span] at hlength
    omega
  · rw [hstops (by omega) hall, hstops hle fun k hk => hall k (by omega)]
    exact iff_of_true rfl (not_cuts_of_none hall)

/-! ### The domain name -/

lemma parseDomain_ends (h : EndsAt mem start p n) : parseDomain mem f start n =
    ⟨.good, .requestDomainStart, { f with domainName := span mem start (p - start) }, p + 1⟩ := by
  rw [parseDomain, scan_eq h]
  exact if_neg (by have := h.2.1; omega)

lemma parseDomain_none (hle : start ≤ n) (h : ∀ k, start ≤ k → k < n → mem k ≠ 0) :
    parseDomain mem f start n = ⟨.indeterminate, .requestDomainStart, f, n⟩ := by
  rw [parseDomain, scan_of_none hle h]
  exact if_pos rfl

lemma parseDomain_userId : (parseDomain mem f start n).fields.userId = f.userId := by
  rw [parseDomain]
  split_ifs <;> rfl

lemma parseDomain_rest (hstart : start ≤ cut) (hle : cut ≤ n)
    (hnone : ∀ k, start ≤ k → k < cut → mem k ≠ 0) :
    (parseDomain mem f cut n).seen = (parseDomain mem f start n).seen ↔ ¬ Cuts mem start cut n := by
  refine rest_iff (parseDomain mem f · n) (·.domainName) (fun hp => ?_) parseDomain_none
    hstart hle hnone
  rw [parseDomain_ends hp]

/-! ### The user name -/

lemma parseUserid_ends (h : EndsAt mem start p n) : parseUserid mem f start n =
    if f.isSocks4a then
      parseDomain mem { f with userId := span mem start (p - start) } (p + 1) n
    else ⟨.good, .requestUseridStart, { f with userId := span mem start (p - start) }, p + 1⟩ := by
  rw [parseUserid, scan_eq h]
  exact if_neg (by have := h.2.1; omega)

lemma parseUserid_none (hle : start ≤ n) (h : ∀ k, start ≤ k → k < n → mem k ≠ 0) :
    parseUserid mem f start n = ⟨.indeterminate, .requestUseridStart, f, n⟩ := by
  rw [parseUserid, scan_of_none hle h]
  exact if_pos rfl

lemma parseUserid_userId (h : EndsAt mem start p n) :
    (parseUserid mem f start n).fields.userId = span mem start (p - start) := by
  rw [parseUserid_ends h]
  split_ifs
  · rw [parseDomain_userId]
  · rfl

lemma parseUserid_rest (hstart : start ≤ cut) (hle : cut ≤ n)
    (hnone : ∀ k, start ≤ k → k < cut → mem k ≠ 0) :
    (parseUserid mem f cut n).seen = (parseUserid mem f start n).seen ↔ ¬ Cuts mem start cut n :=
  rest_iff (parseUserid mem f · n) (·.userId) parseUserid_userId parseUserid_none
    hstart hle hnone

/-! ### The request -/

lemma parse_long (mem : ℕ → UInt8) (h : 8 ≤ n) : parse mem .requestStart .new 0 n =
    if mem 0 ≠ Socks4.version then ⟨.bad, .requestStart, ⟨span mem 0 8, [], []⟩, 0⟩
    else parseUserid mem ⟨span mem 0 8, [], []⟩ 8 n := if_neg (by omega)

lemma agrees_iff (hle : cut ≤ n) :
    Agrees .indeterminate (parse mem) .requestStart .new cut n ↔ ¬ Lost mem cut n := by
  by_cases hshort : cut < 8
  · refine iff_of_true (agrees_of_goes_on (if_pos hshort) rfl) ?_
    rintro ⟨-, ⟨hlt, -⟩ | ⟨p, hp, -, hlt, -⟩⟩
    · omega
    · have := hp.1
      omega
  have hfirst := parse_long mem (show 8 ≤ cut by omega)
  have hwhole := parse_long mem (show 8 ≤ n by omega)
  by_cases hver : mem 0 ≠ Socks4.version
  · rw [if_pos hver] at hfirst hwhole
    exact iff_of_true (agrees_of_done hfirst hwhole (by simp)) fun h => hver h.1
  rw [if_neg hver] at hfirst hwhole
  rw [not_not] at hver
  rcases endsAt_or_none mem 8 cut with ⟨p, hp⟩ | hnone
  · have hp' := hp.later hle
    rw [parseUserid_ends hp] at hfirst
    rw [parseUserid_ends hp'] at hwhole
    have hlost : Lost mem cut n ↔ (Fields.mk (span mem 0 8) [] []).isSocks4a = true ∧
        Cuts mem (p + 1) cut n := by
      constructor
      · rintro ⟨-, h | ⟨q, hq, hrest⟩⟩
        · exact absurd h (not_cuts_of_endsAt hp)
        · rwa [hp'.unique hq]
      · intro h
        exact ⟨hver, .inr ⟨p, hp', h⟩⟩
    by_cases hsocks4a : (Fields.mk (span mem 0 8) [] []).isSocks4a
    · rw [if_pos hsocks4a] at hfirst hwhole
      rw [hlost, and_iff_right hsocks4a]
      rcases endsAt_or_none mem (p + 1) cut with ⟨q, hq⟩ | hnone
      · rw [parseDomain_ends hq] at hfirst
        rw [parseDomain_ends (hq.later hle)] at hwhole
        exact iff_of_true (agrees_of_done hfirst hwhole (by simp)) (not_cuts_of_endsAt hq)
      rw [parseDomain_none hp.2.1 hnone] at hfirst
      rw [agrees_iff_of_more hfirst, hwhole]
      exact parseDomain_rest hp.2.1 hle hnone
    rw [if_neg hsocks4a] at hfirst hwhole
    rw [hlost]
    exact iff_of_true (agrees_of_done hfirst hwhole (by simp)) fun h => hsocks4a h.1
  rw [parseUserid_none (by omega) hnone] at hfirst
  rw [agrees_iff_of_more hfirst, hwhole]
  refine (parseUserid_rest (by omega) hle hnone).trans (not_congr ?_)
  constructor
  · intro h
    exact ⟨hver, .inl h⟩
  · rintro ⟨-, h | ⟨p, hp, -, hlt, -⟩⟩
    · exact h
    · exact absurd hp.2.2.1 (hnone p hp.1 (by omega))

end Text

/-! ## Input in two parts -/

/-- **Resumption.** Two calls see what one call on the whole input sees, for method selection
always, and for each of the other parsers if and only if the parts do not meet where it cannot go
on. -/
theorem resumption_iff (mem : ℕ → UInt8) (cut more : ℕ) :
    (Agrees .indeterminate (Text.parse mem) .requestStart .new cut (cut + more) ↔
      ¬ Text.Lost mem cut (cut + more)) ∧
    Agrees .indeterminate (Select.parse mem) .requestStart .new cut (cut + more) ∧
    (Agrees .indeterminate (User.parse mem) .requestStart .new cut (cut + more) ↔
      ¬ User.Misread mem cut (cut + more)) ∧
    (Agrees .indeterminate (Connect.parse mem) .requestStart .new cut (cut + more) ↔
      ¬ Connect.Misread mem cut (cut + more)) := by
  have hle : cut ≤ cut + more := Nat.le_add_right cut more
  exact ⟨Text.agrees_iff hle, Select.agrees mem hle, User.agrees_iff hle, Connect.agrees_iff hle⟩

def memory (bytes : List UInt8) (i : ℕ) : UInt8 := bytes.getD i 0

/-- **Not resumed.** A SOCKS4 request that is cut inside its user name, a sub-negotiation that is
cut inside its user name and a SOCKS5 request that is cut inside its address. -/
theorem resumption_fails :
    ((Resume.again .indeterminate (Text.parse (memory [4, 1, 0, 80, 1, 2, 3, 4, 97, 98, 0]))
        .requestStart .new 9 11).seen = (.good, ⟨[4, 1, 0, 80, 1, 2, 3, 4], [98], []⟩, 11) ∧
      (Text.parse (memory [4, 1, 0, 80, 1, 2, 3, 4, 97, 98, 0]) .requestStart .new 0 11).seen =
        (.good, ⟨[4, 1, 0, 80, 1, 2, 3, 4], [97, 98], []⟩, 11)) ∧
    ((Resume.again .indeterminate (User.parse (memory [5, 2, 97, 98, 1, 99]))
        .requestStart .new 3 6).seen = (.indeterminate, ⟨5, [], []⟩, 3) ∧
      (User.parse (memory [5, 2, 97, 98, 1, 99]) .requestStart .new 0 6).seen =
        (.good, ⟨5, [97, 98], [99]⟩, 6)) ∧
    ((Resume.again .indeterminate (Connect.parse (memory [5, 1, 0, 1, 127, 0, 0, 1, 0, 80]))
        .requestStart .new 5 10).result = .bad ∧
      (Connect.parse (memory [5, 1, 0, 1, 127, 0, 0, 1, 0, 80]) .requestStart .new 0 10).result =
        .good) :=
  ⟨⟨rfl, rfl⟩, ⟨rfl, rfl⟩, rfl, rfl⟩

end Yass.Net.Resumption
