import Mathlib

/-!
# The rate flag: `limit_rate` as text

* `ngxAtosz`, `ngxParseSize`, `parseRateFlag` — a number with an optional unit. The parsers of the
  source return `-1` for what they refuse.
* `Denotes` — what a text means, without limits. `rateFlag_texts` says that the parser accepts a
  text exactly where it denotes a number of 63 bits, and reads back every rate it has written.

A `char` of the source is a byte; only digits and units are told apart, so a `Char` stands for it.

Source: `config/config_core.cpp`, `config/config_export.hpp` (`RateFlag`).
-/

namespace Yass.Config

open Option (bind_eq_bind bind_some)

/-! ## The code -/

def int64Max : ℤ := 2 ^ 63 - 1

/-- The result of an operation on `int64_t`. -/
def int64 (x : ℤ) : Option ℤ := if -2 ^ 63 ≤ x ∧ x ≤ int64Max then some x else none

/-- `*line - '0'`. -/
def digit (c : Char) : ℤ := (c.toNat : ℤ) - '0'.toNat

/-- The loop of `ngx_atosz`. -/
def ngxAtoszLoop : List Char → ℤ → Option ℤ
  | [], value => some value
  | c :: line, value =>
    if c < '0' ∨ c > '9' then some (-1)
    else if value ≥ int64Max / 10 ∧ (value > int64Max / 10 ∨ digit c > int64Max % 10) then
      some (-1)
    else do
      let tens ← int64 (value * 10)
      let value ← int64 (tens + digit c)
      ngxAtoszLoop line value

def ngxAtosz (line : List Char) : Option ℤ :=
  if line.length = 0 then some (-1) else ngxAtoszLoop line 0

def unitScale : Char → Option ℤ
  | 'K' | 'k' => some 1024
  | 'M' | 'm' => some (1024 * 1024)
  | _ => none

/-- The end of `ngx_parse_size`: the digits, the limit and the unit. -/
def scaled (line : List Char) (max scale : ℤ) : Option ℤ := do
  let size ← ngxAtosz line
  if size < 0 ∨ size > max then some (-1) else int64 (size * scale)

def ngxParseSize (line : List Char) : Option ℤ :=
  match line.getLast? with
  | none => some (-1)
  | some unit =>
    match unitScale unit with
    | some scale => scaled line.dropLast (int64Max / scale) scale
    | none => scaled line int64Max 1

/-- `AbslParseFlag`: the rate that is stored, or the error. The flag is left as it was with an
error. -/
def parseRateFlag (text : List Char) : Option (Except (List Char) ℕ) :=
  if text.isEmpty then some (.ok 0)
  else do
    let size ← ngxParseSize text
    if size < 0 then some (.error ("bad size: ".toList ++ text)) else some (.ok size.toNat)

/-- A number as `absl::StrCat` writes it. -/
def decimal (n : ℕ) : List Char :=
  if n = 0 then ['0'] else ((Nat.digits 10 n).map Nat.digitChar).reverse

/-- `AbslUnparseFlag`, the conversion of a `RateFlag` to a string. -/
def unparseRateFlag (rate : ℕ) : List Char :=
  if rate % 2 ^ 20 = 0 then decimal (rate / 2 ^ 20) ++ ['m']
  else if rate % 2 ^ 10 = 0 then decimal (rate / 2 ^ 10) ++ ['k']
  else decimal rate

/-! ## What a text means -/

def IsDigit (c : Char) : Prop := '0' ≤ c ∧ c ≤ '9'

instance : DecidablePred IsDigit := fun _ => inferInstanceAs (Decidable (_ ∧ _))

/-- The number behind `v` when more digits follow. -/
def horner (v : ℕ) (line : List Char) : ℕ := line.foldl (fun v c => 10 * v + (digit c).toNat) v

def Numeral (line : List Char) (n : ℕ) : Prop :=
  line ≠ [] ∧ (∀ c ∈ line, IsDigit c) ∧ horner 0 line = n

inductive Denotes : List Char → ℕ → Prop
  | plain {line n} (h : Numeral line n) : Denotes line n
  | kilo {line n} {unit : Char} (h : Numeral line n) (hunit : unit = 'k' ∨ unit = 'K') :
      Denotes (line ++ [unit]) (n * 1024)
  | mega {line n} {unit : Char} (h : Numeral line n) (hunit : unit = 'm' ∨ unit = 'M') :
      Denotes (line ++ [unit]) (n * 1048576)

/-! ## The digits -/

lemma isDigit_iff (c : Char) : IsDigit c ↔ ¬(c < '0' ∨ c > '9') := by
  simp only [not_or, gt_iff_lt, Char.not_lt, IsDigit]

lemma digit_mem {c : Char} (h : IsDigit c) : 0 ≤ digit c ∧ digit c ≤ 9 := by
  obtain ⟨hlow, hhigh⟩ := h
  have hlow : '0'.toNat ≤ c.toNat := hlow
  have hhigh : c.toNat ≤ '9'.toNat := hhigh
  have hzero : '0'.toNat = 48 := rfl
  have hnine : '9'.toNat = 57 := rfl
  rw [digit]
  omega

lemma le_horner (v : ℕ) (line : List Char) : v ≤ horner v line := by
  induction line generalizing v with
  | nil => exact le_rfl
  | cons c line ih =>
    have hv : v ≤ 10 * v + (digit c).toNat := by omega
    exact hv.trans (ih _)

lemma int64_of_le {x : ℤ} (hlow : 0 ≤ x) (hhigh : x ≤ int64Max) : int64 x = some x := by
  rw [int64, if_pos ⟨by omega, hhigh⟩]

lemma ngxAtoszLoop_eq (line : List Char) (v : ℕ) (hv : (v : ℤ) ≤ int64Max) :
    ngxAtoszLoop line v = some (if (∀ c ∈ line, IsDigit c) ∧ (horner v line : ℤ) ≤ int64Max then
      (horner v line : ℤ) else -1) := by
  induction line generalizing v with
  | nil =>
    rw [if_pos ⟨by simp, hv⟩]
    rfl
  | cons c line ih =>
    rw [ngxAtoszLoop]
    by_cases hc : c < '0' ∨ c > '9'
    · have hnot : ¬((∀ d ∈ c :: line, IsDigit d) ∧ (horner v (c :: line) : ℤ) ≤ int64Max) := by
        intro h
        exact (isDigit_iff c).mp (h.1 c List.mem_cons_self) hc
      rw [if_pos hc, if_neg hnot]
    have hdigit := (isDigit_iff c).mpr hc
    obtain ⟨hlow, hhigh⟩ := digit_mem hdigit
    have hnext : ((10 * v + (digit c).toNat : ℕ) : ℤ) = v * 10 + digit c := by
      push_cast
      omega
    rw [if_neg hc]
    by_cases hfull : (v : ℤ) ≥ int64Max / 10 ∧
        ((v : ℤ) > int64Max / 10 ∨ digit c > int64Max % 10)
    · have hnot : ¬((∀ d ∈ c :: line, IsDigit d) ∧
          (horner v (c :: line) : ℤ) ≤ int64Max) := by
        intro h
        have hle := le_horner (10 * v + (digit c).toNat) line
        have htotal : (horner (10 * v + (digit c).toNat) line : ℤ) ≤ int64Max := h.2
        rw [int64Max] at hfull htotal
        omega
      rw [if_pos hfull, if_neg hnot]
    have hfits : (v : ℤ) * 10 + digit c ≤ int64Max := by
      rw [int64Max] at hfull ⊢
      omega
    rw [if_neg hfull, int64_of_le (by omega) (by omega), bind_eq_bind,
      bind_some, int64_of_le (by omega) hfits, bind_some, ← hnext,
      ih _ (by omega)]
    have hall : (∀ d ∈ c :: line, IsDigit d) ↔ ∀ d ∈ line, IsDigit d := by
      rw [List.forall_mem_cons]
      exact ⟨fun h => h.2, fun h => ⟨hdigit, h⟩⟩
    simp only [hall]
    rfl

/-! ## The parser -/

section Scaled

variable {line : List Char} {n : ℕ} {scale : ℤ}

lemma ngxAtosz_of_numeral (h : Numeral line n) :
    ngxAtosz line = some (if (n : ℤ) ≤ int64Max then (n : ℤ) else -1) := by
  obtain ⟨hne, hall, rfl⟩ := h
  have hlength : line.length ≠ 0 := by simpa using hne
  have hloop := ngxAtoszLoop_eq line 0 (by decide)
  rw [Nat.cast_zero] at hloop
  rw [ngxAtosz, if_neg hlength, hloop]
  by_cases hmax : (horner 0 line : ℤ) ≤ int64Max
  · rw [if_pos ⟨hall, hmax⟩, if_pos hmax]
  · rw [if_neg (fun h => hmax h.2), if_neg hmax]

lemma ngxAtosz_of_not_numeral (h : ∀ n, ¬Numeral line n) : ngxAtosz line = some (-1) := by
  rw [ngxAtosz]
  by_cases hlength : line.length = 0
  · rw [if_pos hlength]
  have hnot : ¬((∀ c ∈ line, IsDigit c) ∧ (horner 0 line : ℤ) ≤ int64Max) := by
    intro hall
    exact h _ ⟨by simpa using hlength, hall.1, rfl⟩
  have hloop := ngxAtoszLoop_eq line 0 (by decide)
  rw [Nat.cast_zero, if_neg hnot] at hloop
  rw [if_neg hlength, hloop]

lemma scaled_of_numeral (h : Numeral line n) (hscale : 0 < scale) :
    scaled line (int64Max / scale) scale =
      some (if (n : ℤ) * scale ≤ int64Max then (n : ℤ) * scale else -1) := by
  have hfits : (n : ℤ) ≤ int64Max / scale ↔ (n : ℤ) * scale ≤ int64Max :=
    Int.le_ediv_iff_mul_le hscale
  have hnonneg : (0 : ℤ) ≤ n * scale := by positivity
  have hgrows : (n : ℤ) ≤ n * scale := le_mul_of_one_le_right (by positivity) hscale
  rw [scaled, ngxAtosz_of_numeral h, bind_eq_bind, bind_some]
  by_cases hle : (n : ℤ) * scale ≤ int64Max
  · have hmax : ¬((n : ℤ) < 0 ∨ (n : ℤ) > int64Max / scale) := by
      have := hfits.mpr hle
      omega
    rw [if_pos (hgrows.trans hle), if_neg hmax, if_pos hle, int64_of_le hnonneg hle]
  rw [if_neg hle]
  by_cases hmax : (n : ℤ) ≤ int64Max
  · rw [if_pos hmax, if_pos (Or.inr (not_le.mp (fun h => hle (hfits.mp h))))]
  · rw [if_neg hmax, if_pos (Or.inl (by decide))]

lemma scaled_of_not_numeral (h : ∀ n, ¬Numeral line n) (max : ℤ) :
    scaled line max scale = some (-1) := by
  rw [scaled, ngxAtosz_of_not_numeral h, bind_eq_bind, bind_some,
    if_pos (Or.inl (by decide))]

end Scaled

lemma unitScale_of_isDigit {c : Char} (h : IsDigit c) : unitScale c = none := by
  rw [unitScale.eq_def]
  split
  all_goals first | rfl | exact absurd h (by decide)

variable {unit : Char} {scale : ℤ}

lemma denotes_unit {line : List Char} (hunit : unitScale unit = some scale) {r : ℕ} :
    Denotes (line ++ [unit]) r ↔ ∃ n, Numeral line n ∧ (r : ℤ) = n * scale := by
  constructor
  · intro h
    generalize htext : line ++ [unit] = text at h
    cases h with
    | plain h =>
      -- the unit would have to be a digit
      have hdigit := h.2.1 unit (htext ▸ List.mem_append_right _ List.mem_cons_self)
      rw [unitScale_of_isDigit hdigit] at hunit
      exact absurd hunit (by simp)
    | @kilo _ n _ h hk =>
      obtain ⟨rfl, rfl⟩ := List.append_inj' htext rfl |>.imp_right List.singleton_inj.mp
      refine ⟨n, h, ?_⟩
      rcases hk with rfl | rfl <;> cases hunit <;> push_cast <;> rfl
    | @mega _ n _ h hm =>
      obtain ⟨rfl, rfl⟩ := List.append_inj' htext rfl |>.imp_right List.singleton_inj.mp
      refine ⟨n, h, ?_⟩
      rcases hm with rfl | rfl <;> cases hunit <;> push_cast <;> rfl
  · rintro ⟨n, h, hr⟩
    rw [unitScale.eq_def] at hunit
    split at hunit
    all_goals cases hunit
    · rw [show r = n * 1024 by exact_mod_cast hr]
      exact .kilo h (Or.inr rfl)
    · rw [show r = n * 1024 by exact_mod_cast hr]
      exact .kilo h (Or.inl rfl)
    · rw [show r = n * 1048576 by exact_mod_cast hr]
      exact .mega h (Or.inr rfl)
    · rw [show r = n * 1048576 by exact_mod_cast hr]
      exact .mega h (Or.inl rfl)

lemma denotes_plain {line : List Char} {last : Char} (hlast : unitScale last = none) {r : ℕ} :
    Denotes (line ++ [last]) r ↔ Numeral (line ++ [last]) r := by
  constructor
  · intro h
    generalize htext : line ++ [last] = text at h
    cases h with
    | plain h => exact h
    | kilo h hk =>
      obtain ⟨rfl, rfl⟩ := List.append_inj' htext rfl |>.imp_right List.singleton_inj.mp
      rcases hk with rfl | rfl <;> exact absurd hlast (by decide)
    | mega h hm =>
      obtain ⟨rfl, rfl⟩ := List.append_inj' htext rfl |>.imp_right List.singleton_inj.mp
      rcases hm with rfl | rfl <;> exact absurd hlast (by decide)
  · exact .plain

lemma unitScale_pos (h : unitScale unit = some scale) : 0 < scale := by
  rw [unitScale.eq_def] at h
  split at h
  all_goals cases h
  all_goals decide

lemma ngxParseSize_unit (hunit : unitScale unit = some scale) (line : List Char) :
    ngxParseSize (line ++ [unit]) = scaled line (int64Max / scale) scale := by
  simp [ngxParseSize, hunit]

lemma ngxParseSize_plain {last : Char} (hlast : unitScale last = none) (line : List Char) :
    ngxParseSize (line ++ [last]) = scaled (line ++ [last]) int64Max 1 := by
  simp [ngxParseSize, hlast]

variable {text : List Char} {n : ℕ}

lemma ngxParseSize_of_denotes (h : Denotes text n) :
    ngxParseSize text = some (if (n : ℤ) ≤ int64Max then (n : ℤ) else -1) := by
  rcases List.eq_nil_or_concat text with rfl | ⟨line, last, rfl⟩
  · generalize htext : ([] : List Char) = text at h
    cases h with
    | plain h => exact absurd htext.symm h.1
    | kilo h hk => exact absurd htext (by simp)
    | mega h hm => exact absurd htext (by simp)
  rw [List.concat_eq_append] at h ⊢
  rcases hunit : unitScale last with _ | scale
  · have hscaled := scaled_of_numeral ((denotes_plain hunit).mp h) one_pos
    rw [Int.ediv_one, mul_one] at hscaled
    rw [ngxParseSize_plain hunit, hscaled]
  · obtain ⟨m, hm, hn⟩ := (denotes_unit hunit).mp h
    rw [ngxParseSize_unit hunit, hn, scaled_of_numeral hm (unitScale_pos hunit)]

lemma ngxParseSize_of_not_denotes (h : ∀ n, ¬Denotes text n) :
    ngxParseSize text = some (-1) := by
  rcases List.eq_nil_or_concat text with rfl | ⟨line, last, rfl⟩
  · rfl
  rw [List.concat_eq_append] at h ⊢
  rcases hunit : unitScale last with _ | scale
  · rw [ngxParseSize_plain hunit]
    exact scaled_of_not_numeral (fun n hn => h n ((denotes_plain hunit).mpr hn)) _
  rw [ngxParseSize_unit hunit]
  refine scaled_of_not_numeral (fun n hn => ?_) _
  have hpos := unitScale_pos hunit
  refine h (n * scale.toNat) ((denotes_unit hunit).mpr ⟨n, hn, ?_⟩)
  rw [Nat.cast_mul, Int.toNat_of_nonneg hpos.le]

lemma parseRateFlag_of_denotes (h : Denotes text n) (hne : text ≠ []) :
    parseRateFlag text = some
      (if n < 2 ^ 63 then .ok n else .error ("bad size: ".toList ++ text)) := by
  have hempty : ¬text.isEmpty = true := by simpa using hne
  rw [parseRateFlag, if_neg hempty, ngxParseSize_of_denotes h, bind_eq_bind,
    bind_some]
  by_cases hn : n < 2 ^ 63
  · have hmax : (n : ℤ) ≤ int64Max := by
      rw [int64Max]
      omega
    rw [if_pos hmax, if_neg (by omega), if_pos hn, Int.toNat_natCast]
  have hmax : ¬(n : ℤ) ≤ int64Max := by
    rw [int64Max]
    omega
  rw [if_neg hmax, if_pos (by decide), if_neg hn]

lemma parseRateFlag_of_not_denotes (h : ∀ n, ¬Denotes text n) (hne : text ≠ []) :
    parseRateFlag text = some (.error ("bad size: ".toList ++ text)) := by
  have hempty : ¬text.isEmpty = true := by simpa using hne
  rw [parseRateFlag, if_neg hempty, ngxParseSize_of_not_denotes h, bind_eq_bind,
    bind_some, if_pos (by decide)]

/-! ## The text that is written -/

lemma digit_digitChar {d : ℕ} (h : d < 10) :
    IsDigit d.digitChar ∧ (digit d.digitChar).toNat = d := by
  interval_cases d <;> decide

lemma numeral_decimal (n : ℕ) : Numeral (decimal n) n := by
  by_cases hn : n = 0
  · subst hn
    exact ⟨by simp [decimal], by simp [decimal, IsDigit], rfl⟩
  have hlt : ∀ d ∈ Nat.digits 10 n, d < 10 := fun d hd => Nat.digits_lt_base (by decide) hd
  have hvalue : ∀ L : List ℕ, (∀ d ∈ L, d < 10) →
      horner 0 (L.map Nat.digitChar).reverse = Nat.ofDigits 10 L := by
    intro L hL
    rw [horner, List.foldl_reverse, List.foldr_map]
    induction L with
    | nil => rfl
    | cons d L ih =>
      rw [List.forall_mem_cons] at hL
      rw [List.foldr_cons, ih hL.2, (digit_digitChar hL.1).2, Nat.ofDigits_cons]
      exact Nat.add_comm _ _
  rw [decimal, if_neg hn]
  refine ⟨?_, ?_, ?_⟩
  · simpa [Nat.digits_eq_nil_iff_eq_zero] using hn
  · intro c hc
    rw [List.mem_reverse, List.mem_map] at hc
    obtain ⟨d, hd, rfl⟩ := hc
    exact (digit_digitChar (hlt d hd)).1
  · rw [hvalue _ hlt, Nat.ofDigits_digits]

lemma denotes_unparseRateFlag (rate : ℕ) : Denotes (unparseRateFlag rate) rate := by
  rw [unparseRateFlag]
  by_cases hm : rate % 2 ^ 20 = 0
  · have hrate : rate / 2 ^ 20 * 1048576 = rate := Nat.div_mul_cancel (Nat.dvd_of_mod_eq_zero hm)
    rw [if_pos hm]
    nth_rewrite 2 [← hrate]
    exact .mega (numeral_decimal _) (Or.inl rfl)
  rw [if_neg hm]
  by_cases hk : rate % 2 ^ 10 = 0
  · have hrate : rate / 2 ^ 10 * 1024 = rate := Nat.div_mul_cancel (Nat.dvd_of_mod_eq_zero hk)
    rw [if_pos hk]
    nth_rewrite 2 [← hrate]
    exact .kilo (numeral_decimal _) (Or.inl rfl)
  · rw [if_neg hk]
    exact .plain (numeral_decimal _)

lemma Denotes.ne_nil (h : Denotes text n) : text ≠ [] := by
  rcases h with h | h | h
  · exact h.1
  · simp
  · simp

/-- Every rate below `2 ^ 63` is read back as it was written. A text that is not empty is accepted
exactly where it denotes such a rate, which is then stored; any other text is refused by name. No
operation on the way overflows. -/
theorem rateFlag_texts :
    (∀ rate < 2 ^ 63, parseRateFlag (unparseRateFlag rate) = some (.ok rate)) ∧
      ∀ text ≠ [],
        (∀ rate, parseRateFlag text = some (.ok rate) ↔ Denotes text rate ∧ rate < 2 ^ 63) ∧
        ((∀ rate, ¬(Denotes text rate ∧ rate < 2 ^ 63)) →
          parseRateFlag text = some (.error ("bad size: ".toList ++ text))) := by
  constructor
  · intro rate hrate
    have h := denotes_unparseRateFlag rate
    rw [parseRateFlag_of_denotes h h.ne_nil, if_pos hrate]
  intro text hne
  by_cases hdenotes : ∃ n, Denotes text n
  · obtain ⟨n, hn⟩ := hdenotes
    rw [parseRateFlag_of_denotes hn hne]
    have hunique : ∀ rate, Denotes text rate → rate < 2 ^ 63 → n = rate := by
      intro rate h hrate
      have hread := parseRateFlag_of_denotes h hne
      rw [parseRateFlag_of_denotes hn hne, if_pos hrate] at hread
      split_ifs at hread with hlt
      · exact Except.ok.inj (Option.some.inj hread)
      · exact absurd hread (by simp)
    refine ⟨fun rate => ⟨fun h => ?_, fun h => ?_⟩, fun h => ?_⟩
    · split_ifs at h with hlt
      · rw [← Except.ok.inj (Option.some.inj h)]
        exact ⟨hn, hlt⟩
      · exact absurd h (by simp)
    · obtain rfl := hunique rate h.1 h.2
      rw [if_pos h.2]
    · rw [if_neg (fun hlt => h n ⟨hn, hlt⟩)]
  have hnone : ∀ n, ¬Denotes text n := fun n hn => hdenotes ⟨n, hn⟩
  rw [parseRateFlag_of_not_denotes hnone hne]
  refine ⟨fun rate => ⟨fun h => absurd h (by simp), fun h => absurd h.1 (hnone rate)⟩,
    fun _ => rfl⟩

theorem rateFlag_texts_sample :
    parseRateFlag (unparseRateFlag 1536) = some (.ok 1536) ∧
      parseRateFlag "12k".toList = some (.ok 12288) ∧
      parseRateFlag "k".toList = some (.error "bad size: k".toList) := by
  refine ⟨rateFlag_texts.1 1536 (by decide), ?_, ?_⟩
  · have htwelve : Numeral ['1', '2'] 12 := ⟨by simp, by simp [IsDigit], rfl⟩
    exact ((rateFlag_texts.2 "12k".toList (by decide)).1 12288).mpr
      ⟨.kilo htwelve (Or.inl rfl), by decide⟩
  refine (rateFlag_texts.2 "k".toList (by decide)).2 ?_
  intro rate hrate
  have hdenotes : Denotes ([] ++ ['k']) rate := hrate.1
  obtain ⟨n, hn, -⟩ := (denotes_unit rfl).mp hdenotes
  exact hn.1 rfl

end Yass.Config
