import Yass.Net.DnsNames

/-!
# Where the parser of DNS responses reads

* `QuestionAt`, `AnswerHead`, `AnswerAt`, `RecordAt` — the entries of the sections, as the bytes
  from one position to the next.
* `answer_of_head` and its like — what the parser does at an entry; every other module uses these.

Source: `net/dns_message_response_parser.hpp`.
-/

namespace Yass.Net.DnsMessage

open Relation (ReflTransGen)

lemma bind_eq_ok {ε α β : Type} {x : Except ε α} {f : α → Except ε β} {b : β} :
    (x >>= f) = .ok b ↔ ∃ a, x = .ok a ∧ f a = .ok b := by
  cases x <;> simp [bind, Except.bind]

lemma ok_bind {ε α β : Type} (a : α) (f : α → Except ε β) : (Except.ok a >>= f) = f a := rfl

section Entries

variable {bytes : List UInt8} {signed : Bool} {fuel : ℕ} {c : Cursor} {i e j : ℕ}

/-! ## Numbers -/

lemma getElem?_of_lt (h : i < bytes.length) : bytes[i]? = some (bytes.getD i 0) := by
  rw [List.getD_eq_getElem?_getD, List.getElem?_eq_getElem h, Option.getD_some]

lemma get16bit_eq (h : i + 2 ≤ bytes.length) : get16bit bytes i = .ok (u16 bytes i) := by
  rw [get16bit, fetch_of_some (getElem?_of_lt (by omega)),
    fetch_of_some (getElem?_of_lt (by omega))]
  rfl

lemma get32bit_eq (h : i + 4 ≤ bytes.length) :
    get32bit bytes i = .ok (65536 * u16 bytes i + u16 bytes (i + 2)) := by
  rw [get32bit, get16bit_eq (by omega), get16bit_eq (by omega)]
  rfl

/-! ## Entries -/

def QuestionAt (bytes : List UInt8) (i j : ℕ) : Prop :=
  ∃ e, Skips bytes i e ∧ j = e + 4 ∧ j ≤ bytes.length

def RecordAt (bytes : List UInt8) (i j : ℕ) : Prop :=
  ∃ e, Skips bytes i e ∧ j = e + 10 + u16 bytes (e + 8) ∧ j ≤ bytes.length

/-- What is in front of the data of an answer; `e` is where its name ends. -/
structure AnswerHead (bytes : List UInt8) (i e : ℕ) : Prop where
  name : Skips bytes i e
  type : u16 bytes e = typeA ∨ u16 bytes e = typeAaaa ∨ u16 bytes e = typeCname ∨
    u16 bytes e = typeDname
  clazz : u16 bytes (e + 2) = classIn
  inside : e + 10 + u16 bytes (e + 8) ≤ bytes.length

def AnswerAt (signed : Bool) (bytes : List UInt8) (i j : ℕ) : Prop :=
  ∃ e, AnswerHead bytes i e ∧ j = e + 10 + u16 bytes (e + 8) ∧
    (u16 bytes e = typeA → u16 bytes (e + 8) = 4) ∧
    (u16 bytes e = typeAaaa → u16 bytes (e + 8) = 16) ∧
    (u16 bytes e = typeCname → Ends signed bytes (e + 10))

lemma skipqname_cases (bytes : List UInt8) (i : ℕ) :
    (∃ e, Skips bytes i e ∧ skipqname bytes i = .ok (true, e)) ∨
      (∃ e, (∀ e', ¬ Skips bytes i e') ∧ ¬ RunsOff bytes i ∧ skipqname bytes i = .ok (false, e)) ∨
      (RunsOff bytes i ∧ skipqname bytes i = .error .outside) := by
  cases h : skipqname bytes i with
  | error f =>
    obtain ⟨rfl, hoff⟩ := skipqname_error_iff.mp h
    exact .inr (Or.inr ⟨hoff, rfl⟩)
  | ok x =>
    obtain ⟨found, e⟩ := x
    cases found with
    | true => exact .inl ⟨e, skipqname_true_iff.mp h, rfl⟩
    | false =>
      refine .inr (Or.inl ⟨e, fun e' hskip => ?_, fun hoff => ?_, rfl⟩)
      · rw [skipqname_true_iff.mpr hskip] at h
        cases h
      · rw [skipqname_error_iff.mpr ⟨rfl, hoff⟩] at h
        cases h

lemma not_runsOff (h : Skips bytes i e) : ¬ RunsOff bytes i := by
  intro hoff
  have hok := skipqname_true_iff.mpr h
  rw [skipqname_error_iff.mpr ⟨rfl, hoff⟩] at hok
  cases hok

lemma Skips.unique {e' : ℕ} (h : Skips bytes i e) (h' : Skips bytes i e') : e' = e := by
  have hok := skipqname_true_iff.mpr h
  rw [skipqname_true_iff.mpr h'] at hok
  cases hok
  rfl

/-- An entry starts with a name that is skipped; `k` is what is done behind it. -/
def named (bytes : List UInt8) (c : Cursor) (k : ℕ → Except Fault (Bool × Cursor)) :
    Except Fault (Bool × Cursor) := do
  let (found, i) ← skipqname bytes c.i
  if !found then return (false, { c with i }) else k i

section Named

variable {k : ℕ → Except Fault (Bool × Cursor)}

lemma named_of_skips (h : Skips bytes c.i e) : named bytes c k = k e := by
  rw [named, skipqname_true_iff.mpr h]
  rfl

lemma named_isOk_iff : (∃ x, named bytes c k = .ok x) ↔
    ¬ RunsOff bytes c.i ∧ ∀ e, Skips bytes c.i e → ∃ x, k e = .ok x := by
  rcases skipqname_cases bytes c.i with ⟨e, hskip, -⟩ | ⟨e, hskip, hoff, h⟩ | ⟨hoff, h⟩
  · rw [named_of_skips hskip]
    constructor
    · intro hk
      refine ⟨not_runsOff hskip, fun e' hskip' => ?_⟩
      rwa [hskip.unique hskip']
    · intro hk
      exact hk.2 e hskip
  · rw [named, h]
    constructor
    · intro _
      exact ⟨hoff, fun e' hskip' => absurd hskip' (hskip e')⟩
    · intro _
      exact ⟨_, rfl⟩
  rw [named, h]
  constructor
  · rintro ⟨x, hx⟩
    cases hx
  · rintro ⟨hnot, -⟩
    exact absurd hoff hnot

lemma named_true_iff {c' : Cursor} : named bytes c k = .ok (true, c') ↔
    ∃ e, Skips bytes c.i e ∧ k e = .ok (true, c') := by
  rcases skipqname_cases bytes c.i with ⟨e, hskip, -⟩ | ⟨e, hskip, -, h⟩ | ⟨hoff, h⟩
  · rw [named_of_skips hskip]
    constructor
    · intro hk
      exact ⟨e, hskip, hk⟩
    · rintro ⟨e', hskip', hk⟩
      rwa [hskip.unique hskip'] at hk
  · rw [named, h]
    constructor
    · intro hx
      cases hx
    · rintro ⟨e', hskip', -⟩
      exact absurd hskip' (hskip e')
  rw [named, h]
  constructor
  · intro hx
    cases hx
  · rintro ⟨e', hskip', -⟩
    exact absurd hoff (not_runsOff hskip')

end Named

/-! ## Questions and records -/

lemma skipQuestion_eq : skipQuestion bytes c = named bytes c fun i =>
    if bytes.length < i + 4 then .ok (false, { c with i }) else .ok (true, { c with i := i + 4 }) :=
  rfl

lemma skipQuestion_isOk_iff : (∃ x, skipQuestion bytes c = .ok x) ↔ ¬ RunsOff bytes c.i := by
  rw [skipQuestion_eq, named_isOk_iff, and_iff_left]
  intro e _
  split_ifs <;> exact ⟨_, rfl⟩

variable {c' : Cursor}

lemma skip_true_iff {short : ℕ → Cursor} {stop : ℕ → ℕ} :
    (named bytes c fun i => if bytes.length < stop i then .ok (false, short i)
      else .ok (true, { c with i := stop i })) = .ok (true, c') ↔
      (∃ e, Skips bytes c.i e ∧ c'.i = stop e ∧ c'.i ≤ bytes.length) ∧ c'.resp = c.resp := by
  obtain ⟨j, resp⟩ := c'
  rw [named_true_iff]
  constructor
  · rintro ⟨e, hskip, hk⟩
    split_ifs at hk with hlt
    · cases hk
    · cases hk
      exact ⟨⟨e, hskip, rfl, by dsimp only; omega⟩, rfl⟩
  · rintro ⟨⟨e, hskip, hj, hle⟩, hresp⟩
    dsimp only at hj hle hresp
    subst hj hresp
    exact ⟨e, hskip, if_neg (by omega)⟩

lemma skipQuestion_true_iff :
    skipQuestion bytes c = .ok (true, c') ↔ QuestionAt bytes c.i c'.i ∧ c'.resp = c.resp := by
  rw [skipQuestion_eq]
  exact skip_true_iff

lemma skipRecord_eq : skipRecord bytes c = named bytes c fun i =>
    if bytes.length < i + 10 + u16 bytes (i + 8) then
      .ok (false, { c with i := if bytes.length < i + 8 then i else
        if bytes.length < i + 10 then i + 8 else i + 10 })
    else .ok (true, { c with i := i + 10 + u16 bytes (i + 8) }) := by
  have hsame : skipRecord bytes c = named bytes c fun i =>
      if bytes.length < i + 8 then .ok (false, { c with i })
      else if bytes.length < i + 8 + 2 then .ok (false, { c with i := i + 8 })
      else get16bit bytes (i + 8) >>= fun rdlength =>
        if bytes.length < i + 10 + rdlength then .ok (false, { c with i := i + 10 })
        else .ok (true, { c with i := i + 10 + rdlength }) := rfl
  rw [hsame]
  congr 1
  funext i
  by_cases h8 : bytes.length < i + 8
  · rw [if_pos h8, if_pos (by omega), if_pos h8]
  by_cases h10 : bytes.length < i + 10
  · rw [if_neg h8, if_pos (by omega), if_pos (by omega), if_neg h8, if_pos h10]
  · rw [if_neg h8, if_neg (by omega), get16bit_eq (by omega), if_neg h8, if_neg h10]
    rfl

lemma skipRecord_isOk_iff : (∃ x, skipRecord bytes c = .ok x) ↔ ¬ RunsOff bytes c.i := by
  rw [skipRecord_eq, named_isOk_iff, and_iff_left]
  intro e _
  split_ifs <;> exact ⟨_, rfl⟩

lemma skipRecord_true_iff :
    skipRecord bytes c = .ok (true, c') ↔ RecordAt bytes c.i c'.i ∧ c'.resp = c.resp := by
  rw [skipRecord_eq]
  exact skip_true_iff

/-! ## Answers -/

lemma fetch_range {r m : ℕ} (h : r + m ≤ bytes.length) :
    ((List.range m).mapM fun k => fetch bytes (r + k)) = .ok ((bytes.drop r).take m) := by
  induction m with
  | zero => rfl
  | succ m ih =>
    have hfetch : fetch bytes (r + m) = .ok (bytes.getD (r + m) 0) :=
      fetch_of_some (getElem?_of_lt (by omega))
    have htake : (bytes.drop r).take (m + 1) = (bytes.drop r).take m ++ [bytes.getD (r + m) 0] := by
      rw [List.take_add_one, List.getElem?_drop, getElem?_of_lt (by omega)]
      rfl
    rw [List.range_succ, List.mapM_append, ih (by omega), htake]
    simp [hfetch, bind, Except.bind, pure, Except.pure]

section Rdata

variable {resp : Response} {r rdlength type : ℕ}

lemma rdata_a (h : r + 4 ≤ bytes.length) :
    rdata bytes signed fuel resp r 4 typeA =
      .ok (true, { resp with a := resp.a ++ [(bytes.drop r).take 4] }) := by
  rw [rdata, if_pos rfl, if_neg (by simp), fetch_range h]
  rfl

lemma rdata_aaaa (h : r + 16 ≤ bytes.length) :
    rdata bytes signed fuel resp r 16 typeAaaa =
      .ok (true, { resp with aaaa := resp.aaaa ++ [(bytes.drop r).take 16] }) := by
  rw [rdata, if_neg (by decide), if_pos rfl, if_neg (by simp), fetch_range h]
  rfl

lemma rdata_cname : rdata bytes signed fuel resp r rdlength typeCname =
    cnameLoop bytes signed fuel r [] >>= fun x =>
      .ok (x.1, { resp with cname := resp.cname ++ [x.2] }) := rfl

lemma rdata_dname : rdata bytes signed fuel resp r rdlength typeDname = .ok (true, resp) := rfl

lemma rdata_refused (h : (type = typeA ∧ rdlength ≠ 4) ∨ (type = typeAaaa ∧ rdlength ≠ 16)) :
    rdata bytes signed fuel resp r rdlength type = .ok (false, resp) := by
  rcases h with ⟨rfl, hlength⟩ | ⟨rfl, hlength⟩
  · rw [rdata, if_pos rfl, if_pos hlength]
  · rw [rdata, if_neg (by decide), if_pos rfl, if_pos hlength]

end Rdata

lemma answer_eq : answer bytes signed fuel c = named bytes c fun i =>
    if bytes.length < i + 2 then .ok (false, { c with i })
    else get16bit bytes i >>= fun type =>
      if type ≠ typeA ∧ type ≠ typeAaaa ∧ type ≠ typeCname ∧ type ≠ typeDname then
        .ok (false, { c with i })
      else if bytes.length < i + 2 + 2 then .ok (false, { c with i := i + 2 })
      else get16bit bytes (i + 2) >>= fun clazz =>
        if classIn ≠ clazz then .ok (false, { c with i := i + 2 })
        else if bytes.length < i + 4 + 4 then .ok (false, { c with i := i + 4 })
        else get32bit bytes (i + 4) >>= fun _ =>
          if bytes.length < i + 8 + 2 then .ok (false, { c with i := i + 8 })
          else get16bit bytes (i + 8) >>= fun rdlength =>
            if bytes.length < i + 10 + rdlength then .ok (false, { c with i := i + 10 })
            else rdata bytes signed fuel c.resp (i + 10) rdlength type >>= fun x =>
              if !x.1 then .ok (false, ⟨i + 10, x.2⟩)
              else .ok (true, ⟨i + 10 + rdlength, x.2⟩) :=
  rfl

lemma answer_of_head (h : AnswerHead bytes c.i e) : answer bytes signed fuel c =
    rdata bytes signed fuel c.resp (e + 10) (u16 bytes (e + 8)) (u16 bytes e) >>= fun x =>
      if !x.1 then .ok (false, ⟨e + 10, x.2⟩)
      else .ok (true, ⟨e + 10 + u16 bytes (e + 8), x.2⟩) := by
  have hinside := h.inside
  have htype : ¬ (u16 bytes e ≠ typeA ∧ u16 bytes e ≠ typeAaaa ∧ u16 bytes e ≠ typeCname ∧
      u16 bytes e ≠ typeDname) := by
    have := h.type
    tauto
  rw [answer_eq, named_of_skips h.name, if_neg (by omega), get16bit_eq (by omega), ok_bind,
    if_neg htype, if_neg (by omega), get16bit_eq (by omega), ok_bind, if_neg (by simp [h.clazz]),
    if_neg (by omega), get32bit_eq (by omega), ok_bind, if_neg (by omega), get16bit_eq (by omega),
    ok_bind, if_neg (by omega)]

lemma answer_of_not_head (hname : Skips bytes c.i e) (h : ¬ AnswerHead bytes c.i e) :
    ∃ c', ∀ signed fuel, answer bytes signed fuel c = .ok (false, c') := by
  simp only [answer_eq, named_of_skips hname]
  by_cases h2 : bytes.length < e + 2
  · exact ⟨_, fun _ _ => if_pos h2⟩
  simp only [if_neg h2, get16bit_eq (show e + 2 ≤ bytes.length by omega), ok_bind]
  by_cases htype : u16 bytes e ≠ typeA ∧ u16 bytes e ≠ typeAaaa ∧ u16 bytes e ≠ typeCname ∧
      u16 bytes e ≠ typeDname
  · exact ⟨_, fun _ _ => if_pos htype⟩
  simp only [if_neg htype]
  by_cases h4 : bytes.length < e + 2 + 2
  · exact ⟨_, fun _ _ => if_pos h4⟩
  simp only [if_neg h4, get16bit_eq (show e + 2 + 2 ≤ bytes.length by omega), ok_bind]
  by_cases hclass : classIn ≠ u16 bytes (e + 2)
  · exact ⟨_, fun _ _ => if_pos hclass⟩
  simp only [if_neg hclass]
  by_cases h8 : bytes.length < e + 4 + 4
  · exact ⟨_, fun _ _ => if_pos h8⟩
  simp only [if_neg h8, get32bit_eq (show e + 4 + 4 ≤ bytes.length by omega), ok_bind]
  by_cases h10 : bytes.length < e + 8 + 2
  · exact ⟨_, fun _ _ => if_pos h10⟩
  simp only [if_neg h10, get16bit_eq (show e + 8 + 2 ≤ bytes.length by omega), ok_bind]
  by_cases hdata : bytes.length < e + 10 + u16 bytes (e + 8)
  · exact ⟨_, fun _ _ => if_pos hdata⟩
  refine absurd ⟨hname, ?_, ?_, by omega⟩ h
  · tauto
  · simpa [eq_comm] using hclass

lemma answer_isOk_iff : (∃ x, answer bytes signed fuel c = .ok x) ↔ ¬ RunsOff bytes c.i ∧
    ∀ e, AnswerHead bytes c.i e → u16 bytes e = typeCname →
      ∃ x, cnameLoop bytes signed fuel (e + 10) [] = .ok x := by
  rcases skipqname_cases bytes c.i with ⟨e, hskip, -⟩ | ⟨e, hskip, hoff, h⟩ | ⟨hoff, h⟩
  · rw [and_iff_right (not_runsOff hskip)]
    by_cases hhead : AnswerHead bytes c.i e
    · rw [answer_of_head hhead]
      have hinside := hhead.inside
      constructor
      · rintro ⟨x, hx⟩ e' hhead' hcname
        obtain rfl := hskip.unique hhead'.name
        obtain ⟨y, hy, -⟩ := bind_eq_ok.mp hx
        rw [hcname, rdata_cname] at hy
        obtain ⟨z, hz, -⟩ := bind_eq_ok.mp hy
        exact ⟨z, hz⟩
      intro hdecode
      obtain ⟨y, hy⟩ : ∃ y, rdata bytes signed fuel c.resp (e + 10) (u16 bytes (e + 8))
          (u16 bytes e) = .ok y := by
        rcases hhead.type with htype | htype | htype | htype
        · by_cases hlength : u16 bytes (e + 8) = 4
          · rw [htype, hlength, rdata_a (by omega)]
            exact ⟨_, rfl⟩
          · exact ⟨_, rdata_refused (Or.inl ⟨htype, hlength⟩)⟩
        · by_cases hlength : u16 bytes (e + 8) = 16
          · rw [htype, hlength, rdata_aaaa (by omega)]
            exact ⟨_, rfl⟩
          · exact ⟨_, rdata_refused (Or.inr ⟨htype, hlength⟩)⟩
        · obtain ⟨x, hx⟩ := hdecode e hhead htype
          rw [htype, rdata_cname, hx]
          exact ⟨_, rfl⟩
        · rw [htype, rdata_dname]
          exact ⟨_, rfl⟩
      rw [hy, ok_bind]
      split_ifs <;> exact ⟨_, rfl⟩
    obtain ⟨c', hc'⟩ := answer_of_not_head hskip hhead
    refine ⟨fun _ e' hhead' => ?_, fun _ => ⟨_, hc' signed fuel⟩⟩
    rw [hskip.unique hhead'.name] at hhead'
    exact absurd hhead' hhead
  · rw [answer, h]
    exact ⟨fun _ => ⟨hoff, fun e' hhead => absurd hhead.name (hskip e')⟩, fun _ => ⟨_, rfl⟩⟩
  rw [answer, h]
  refine ⟨fun hx => ?_, fun hnot => absurd hoff hnot.1⟩
  obtain ⟨x, hx⟩ := hx
  cases hx

lemma head_of_answer (h : answer bytes signed fuel c = .ok (true, c')) :
    ∃ e, AnswerHead bytes c.i e ∧ c'.i = e + 10 + u16 bytes (e + 8) ∧
      rdata bytes signed fuel c.resp (e + 10) (u16 bytes (e + 8)) (u16 bytes e) =
        .ok (true, c'.resp) := by
  rcases skipqname_cases bytes c.i with ⟨e, hskip, -⟩ | ⟨e, -, -, hname⟩ | ⟨-, hname⟩
  · by_cases hhead : AnswerHead bytes c.i e
    · rw [answer_of_head hhead] at h
      obtain ⟨⟨found, resp⟩, hrdata, hend⟩ := bind_eq_ok.mp h
      cases found with
      | false => cases hend
      | true =>
        cases hend
        exact ⟨e, hhead, rfl, hrdata⟩
    obtain ⟨c'', hc''⟩ := answer_of_not_head hskip hhead
    rw [hc''] at h
    cases h
  · rw [answer, hname] at h
    cases h
  · rw [answer, hname] at h
    cases h

lemma answer_true_iff : (∃ resp, answer bytes signed bytes.length c = .ok (true, ⟨j, resp⟩)) ↔
    AnswerAt signed bytes c.i j := by
  constructor
  · rintro ⟨resp, hok⟩
    obtain ⟨e, hhead, rfl, hrdata⟩ := head_of_answer hok
    refine ⟨e, hhead, rfl, fun htype => ?_, fun htype => ?_, fun htype => ?_⟩
    · by_contra hlength
      rw [rdata_refused (Or.inl ⟨htype, hlength⟩)] at hrdata
      cases hrdata
    · by_contra hlength
      rw [rdata_refused (Or.inr ⟨htype, hlength⟩)] at hrdata
      cases hrdata
    rw [htype, rdata_cname] at hrdata
    obtain ⟨⟨found, name⟩, hloop, heq⟩ := bind_eq_ok.mp hrdata
    cases heq
    exact (cnameLoop_spec hloop).2.2.1.mp rfl
  · rintro ⟨e, hhead, rfl, ha, haaaa, hcname⟩
    have hinside := hhead.inside
    obtain ⟨resp, hresp⟩ : ∃ resp, rdata bytes signed bytes.length c.resp (e + 10)
        (u16 bytes (e + 8)) (u16 bytes e) = .ok (true, resp) := by
      rcases hhead.type with htype | htype | htype | htype
      · rw [htype, ha htype, rdata_a (by have := ha htype; omega)]
        exact ⟨_, rfl⟩
      · rw [htype, haaaa htype, rdata_aaaa (by have := haaaa htype; omega)]
        exact ⟨_, rfl⟩
      · obtain ⟨hleaves, hloops⟩ := (hcname htype).inside
        obtain ⟨found, name, hloop⟩ := cnameLoop_isOk hleaves hloops []
        obtain rfl : found = true := (cnameLoop_spec hloop).2.2.1.mpr (hcname htype)
        rw [htype, rdata_cname, hloop]
        exact ⟨_, rfl⟩
      · rw [htype, rdata_dname]
        exact ⟨_, rfl⟩
    refine ⟨resp, ?_⟩
    rw [answer_of_head hhead, hresp]
    rfl

lemma header_of_rdata {resp resp' : Response} {r rdlength type : ℕ} {found : Bool}
    (h : rdata bytes signed fuel resp r rdlength type = .ok (found, resp')) :
    resp'.header = resp.header := by
  unfold rdata at h
  split_ifs at h
  · cases h
    rfl
  · obtain ⟨address, -, heq⟩ := bind_eq_ok.mp h
    cases heq
    rfl
  · cases h
    rfl
  · obtain ⟨address, -, heq⟩ := bind_eq_ok.mp h
    cases heq
    rfl
  · obtain ⟨x, -, heq⟩ := bind_eq_ok.mp h
    cases heq
    rfl
  · cases h
    rfl

lemma header_of_answer (h : answer bytes signed fuel c = .ok (true, c')) :
    c'.resp.header = c.resp.header := by
  obtain ⟨e, -, -, hrdata⟩ := head_of_answer h
  exact header_of_rdata hrdata

/-! ## More turns -/

lemma rdata_of_ok {resp : Response} {r rdlength type : ℕ} {x : Bool × Response}
    (h : rdata bytes signed fuel resp r rdlength type = .ok x) :
    rdata bytes signed bytes.length resp r rdlength type = .ok x := by
  by_cases htype : type = typeCname
  · subst htype
    rw [rdata_cname] at h ⊢
    obtain ⟨⟨found, name⟩, hloop, heq⟩ := bind_eq_ok.mp h
    rw [(cnameLoop_spec hloop).2.2.2]
    exact heq
  · unfold rdata at h ⊢
    simpa only [if_neg htype] using h

variable {x : Bool × Cursor}

lemma answer_of_ok (h : answer bytes signed fuel c = .ok x) :
    answer bytes signed bytes.length c = .ok x := by
  rcases skipqname_cases bytes c.i with ⟨e, hskip, -⟩ | ⟨e, -, -, hname⟩ | ⟨-, hname⟩
  · by_cases hhead : AnswerHead bytes c.i e
    · rw [answer_of_head hhead] at h ⊢
      obtain ⟨y, hy, heq⟩ := bind_eq_ok.mp h
      rw [rdata_of_ok hy, ok_bind, heq]
    obtain ⟨c', hc'⟩ := answer_of_not_head hskip hhead
    rw [hc'] at h ⊢
    exact h
  · rw [answer, hname] at h ⊢
    exact h
  · rw [answer, hname] at h
    cases h

lemma records_of_ok {body body' : Cursor → Except Fault (Bool × Cursor)}
    (hbody : ∀ c x, body c = .ok x → body' c = .ok x) {n : ℕ}
    (h : records body n c = .ok x) : records body' n c = .ok x := by
  induction n generalizing c with
  | zero => exact h
  | succ n ih =>
    obtain ⟨⟨found, c'⟩, hc', hrest⟩ := bind_eq_ok.mp h
    refine bind_eq_ok.mpr ⟨(found, c'), hbody c _ hc', ?_⟩
    cases found with
    | false => exact hrest
    | true => exact ih hrest

lemma qdStart_of_ok (h : qdStart bytes signed fuel c = .ok x) :
    qdStart bytes signed bytes.length c = .ok x := by
  obtain ⟨⟨found, c₁⟩, hc₁, h⟩ := bind_eq_ok.mp h
  refine bind_eq_ok.mpr ⟨_, hc₁, ?_⟩
  cases found with
  | false => exact h
  | true =>
    obtain ⟨⟨found, c₂⟩, hc₂, h⟩ := bind_eq_ok.mp h
    refine bind_eq_ok.mpr ⟨_, records_of_ok (fun _ _ => answer_of_ok) hc₂, ?_⟩
    exact h

def IsResponse (bytes : List UInt8) : Prop :=
  12 ≤ bytes.length ∧ (bytes.getD 2 0).toNat / 128 = 1

def firstCursor (bytes : List UInt8) : Cursor := ⟨12, { Response.new with header := bytes.take 12 }⟩

lemma getD_take {k : ℕ} (hk : k < 12) : (bytes.take 12).getD k 0 = bytes.getD k 0 := by
  rw [List.getD_eq_getElem?_getD, List.getElem?_take_of_lt hk, ← List.getD_eq_getElem?_getD]

lemma u16_take {k : ℕ} (hk : k + 1 < 12) : u16 (bytes.take 12) k = u16 bytes k := by
  rw [u16, getD_take (by omega), getD_take hk, u16]

lemma parse_of_isResponse (h : IsResponse bytes) : parse bytes signed fuel =
    qdStart bytes signed fuel (firstCursor bytes) >>= fun y =>
      .ok (if y.1 then .good else .indeterminate, y.2) := by
  rw [parse, if_neg (by have := h.1; omega)]
  change (if _ then _ else _ : Except Fault (Ss.ResultType × Cursor)) = _
  rw [if_neg (by rw [getD_take (by omega), not_not]; exact h.2)]
  rfl

lemma parse_of_not_isResponse (h : ¬ IsResponse bytes) :
    ∃ x, x.1 ≠ .good ∧ ∀ signed fuel, parse bytes signed fuel = .ok x := by
  by_cases hshort : bytes.length < 12
  · refine ⟨(.indeterminate, ⟨0, .new⟩), by simp, fun _ _ => ?_⟩
    rw [parse, if_pos hshort]
  refine ⟨(.bad, ⟨0, { Response.new with header := bytes.take 12 }⟩), by simp, fun _ _ => ?_⟩
  have hqr : ((bytes.take 12).getD 2 0).toNat / 128 ≠ 1 := by
    rw [getD_take (by omega)]
    exact fun hqr => h ⟨by omega, hqr⟩
  rw [parse, if_neg hshort]
  exact if_pos hqr

lemma parse_of_ok {x : Ss.ResultType × Cursor} (h : parse bytes signed fuel = .ok x) :
    parse bytes signed bytes.length = .ok x := by
  by_cases hresponse : IsResponse bytes
  · rw [parse_of_isResponse hresponse] at h ⊢
    obtain ⟨y, hy, heq⟩ := bind_eq_ok.mp h
    rw [qdStart_of_ok hy]
    exact heq
  obtain ⟨y, -, hy⟩ := parse_of_not_isResponse hresponse
  rw [hy] at h ⊢
  exact h

/-! ## Sections -/

section Sections

variable {body : Cursor → Except Fault (Bool × Cursor)} {R : ℕ → ℕ → Prop} {Fine : ℕ → Prop}

def SectionFine (R : ℕ → ℕ → Prop) (Fine : ℕ → Prop) (n i : ℕ) (rest : ℕ → Prop) : Prop :=
  (∀ k < n, ∀ j, Orbit.Steps R k i j → Fine j) ∧ ∀ j, Orbit.Steps R n i j → rest j

lemma sectionFine_succ {n : ℕ} {rest : ℕ → Prop} : SectionFine R Fine (n + 1) i rest ↔
    Fine i ∧ ∀ j, R i j → SectionFine R Fine n j rest := by
  constructor
  · rintro ⟨hfine, hrest⟩
    refine ⟨hfine 0 (Nat.succ_pos n) i rfl, fun j hj => ⟨fun k hk j' hj' => ?_, fun j' hj' => ?_⟩⟩
    · exact hfine (k + 1) (Nat.succ_lt_succ hk) j' ⟨j, hj, hj'⟩
    · exact hrest j' ⟨j, hj, hj'⟩
  · rintro ⟨hfine, hrest⟩
    refine ⟨fun k hk j hj => ?_, fun j hj => ?_⟩
    · cases k with
      | zero =>
        obtain rfl := hj
        exact hfine
      | succ k =>
        obtain ⟨j', hj', hsteps⟩ := hj
        exact (hrest j' hj').1 k (Nat.lt_of_succ_lt_succ hk) j hsteps
    · obtain ⟨j', hj', hsteps⟩ := hj
      exact (hrest j' hj').2 j hsteps

/-- **Sections.** The parser reads a section, and what is behind it, inside the message exactly if
all entries are fine that it gets to. -/
lemma section_isOk_iff (hfine : ∀ c, (∃ x, body c = .ok x) ↔ Fine c.i)
    (hnext : ∀ c j, (∃ resp, body c = .ok (true, ⟨j, resp⟩)) ↔ R c.i j)
    (hheader : ∀ c c', body c = .ok (true, c') → c'.resp.header = c.resp.header)
    {k : Cursor → Except Fault (Bool × Cursor)} {rest : ℕ → Prop} {header : List UInt8}
    (hk : ∀ c, c.resp.header = header → ((∃ x, k c = .ok x) ↔ rest c.i)) (n : ℕ) (c : Cursor)
    (hc : c.resp.header = header) :
    (∃ x, (records body n c >>= fun y => if !y.1 then .ok (false, y.2) else k y.2) = .ok x) ↔
      SectionFine R Fine n c.i rest := by
  induction n generalizing c with
  | zero =>
    have hstart : (records body 0 c >>= fun y => if !y.1 then .ok (false, y.2) else k y.2) =
        k c := rfl
    rw [hstart, hk c hc]
    refine ⟨fun h => ⟨fun k hk => absurd hk (Nat.not_lt_zero k), fun j hj => ?_⟩,
      fun h => h.2 c.i rfl⟩
    obtain rfl := hj
    exact h
  | succ n ih =>
    rw [sectionFine_succ, ← hfine]
    cases hbody : body c with
    | error f =>
      have hstop : (records body (n + 1) c >>= fun y =>
          if !y.1 then .ok (false, y.2) else k y.2) = .error f := by
        rw [records, hbody]
        rfl
      rw [hstop]
      simp
    | ok y =>
      obtain ⟨found, c'⟩ := y
      cases found with
      | false =>
        have hstop : (records body (n + 1) c >>= fun y =>
            if !y.1 then .ok (false, y.2) else k y.2) = .ok (false, c') := by
          rw [records, hbody]
          rfl
        rw [hstop]
        refine ⟨fun _ => ⟨⟨_, rfl⟩, fun j hj => ?_⟩, fun _ => ⟨_, rfl⟩⟩
        obtain ⟨resp, hresp⟩ := (hnext c j).mpr hj
        rw [hbody] at hresp
        cases hresp
      | true =>
        have hgo : (records body (n + 1) c >>= fun y =>
            if !y.1 then .ok (false, y.2) else k y.2) =
            records body n c' >>= fun y => if !y.1 then .ok (false, y.2) else k y.2 := by
          rw [records, hbody]
          rfl
        rw [hgo, ih c' ((hheader c c' hbody).trans hc)]
        constructor
        · intro h
          refine ⟨⟨_, rfl⟩, fun j hj => ?_⟩
          obtain ⟨resp, hresp⟩ := (hnext c j).mpr hj
          rw [hbody] at hresp
          cases hresp
          exact h
        · rintro ⟨-, h⟩
          exact h c'.i ((hnext c c'.i).mp ⟨c'.resp, hbody⟩)

end Sections

/-- An answer whose name does not run off, and whose target, if it is a CNAME, can be decoded. -/
def AnswerFine (signed : Bool) (bytes : List UInt8) (i : ℕ) : Prop :=
  ¬ RunsOff bytes i ∧ ∀ e, AnswerHead bytes i e → u16 bytes e = typeCname →
    ¬ Leaves signed bytes (e + 10) ∧ ¬ Loops signed bytes (e + 10)

/-- Every name that is skipped ends in the message or has a label that is too long, and every target
that is decoded stays inside and comes to an end. -/
def Contained (signed : Bool) (bytes : List UInt8) : Prop :=
  IsResponse bytes →
    SectionFine (QuestionAt bytes) (¬ RunsOff bytes ·) (u16 bytes 4) 12 fun i =>
    SectionFine (AnswerAt signed bytes) (AnswerFine signed bytes) (u16 bytes 6) i fun i =>
    SectionFine (RecordAt bytes) (¬ RunsOff bytes ·) (u16 bytes 8) i fun i =>
    SectionFine (RecordAt bytes) (¬ RunsOff bytes ·) (u16 bytes 10) i fun _ => True

lemma answer_isOk_iff_fine :
    (∃ x, answer bytes signed bytes.length c = .ok x) ↔ AnswerFine signed bytes c.i := by
  rw [answer_isOk_iff, AnswerFine]
  refine and_congr_right fun _ => forall_congr' fun e => imp_congr_right fun _ =>
    imp_congr_right fun _ => ?_
  constructor
  · rintro ⟨⟨found, name⟩, hloop⟩
    exact ⟨(cnameLoop_spec hloop).1, (cnameLoop_spec hloop).2.1⟩
  · rintro ⟨hleaves, hloops⟩
    obtain ⟨found, name, hloop⟩ := cnameLoop_isOk hleaves hloops []
    exact ⟨_, hloop⟩

lemma qdStart_isOk_iff (hc : c.resp.header = bytes.take 12) :
    (∃ x, qdStart bytes signed bytes.length c = .ok x) ↔
      SectionFine (QuestionAt bytes) (¬ RunsOff bytes ·) (u16 bytes 4) c.i fun i =>
      SectionFine (AnswerAt signed bytes) (AnswerFine signed bytes) (u16 bytes 6) i fun i =>
      SectionFine (RecordAt bytes) (¬ RunsOff bytes ·) (u16 bytes 8) i fun i =>
      SectionFine (RecordAt bytes) (¬ RunsOff bytes ·) (u16 bytes 10) i fun _ => True := by
  have hquestion : ∀ c j, (∃ resp, skipQuestion bytes c = .ok (true, ⟨j, resp⟩)) ↔
      QuestionAt bytes c.i j := fun c j =>
    ⟨fun ⟨resp, h⟩ => (skipQuestion_true_iff.mp h).1,
      fun h => ⟨c.resp, skipQuestion_true_iff.mpr ⟨h, rfl⟩⟩⟩
  have hrecord : ∀ c j, (∃ resp, skipRecord bytes c = .ok (true, ⟨j, resp⟩)) ↔
      RecordAt bytes c.i j := fun c j =>
    ⟨fun ⟨resp, h⟩ => (skipRecord_true_iff.mp h).1,
      fun h => ⟨c.resp, skipRecord_true_iff.mpr ⟨h, rfl⟩⟩⟩
  have hskipped : ∀ c c', skipRecord bytes c = .ok (true, c') → c'.resp.header = c.resp.header :=
    fun c c' h => congrArg Response.header (skipRecord_true_iff.mp h).2
  -- from the last section to the first
  have hadditional : ∀ c : Cursor, c.resp.header = bytes.take 12 → ((∃ x, arStart bytes c = .ok x) ↔
      SectionFine (RecordAt bytes) (¬ RunsOff bytes ·) (u16 bytes 10) c.i fun _ => True) := by
    intro c hc
    rw [arStart, hc, u16_take (by omega), ← section_isOk_iff (fun c => skipRecord_isOk_iff) hrecord
      hskipped (k := fun c => .ok (true, c)) (fun c _ => ⟨fun _ => trivial, fun _ => ⟨_, rfl⟩⟩)
      _ c hc]
    constructor
    · rintro ⟨x, hx⟩
      rw [hx, ok_bind]
      split_ifs <;> exact ⟨_, rfl⟩
    · rintro ⟨x, hx⟩
      obtain ⟨y, hy, -⟩ := bind_eq_ok.mp hx
      exact ⟨y, hy⟩
  have hauthority : ∀ c : Cursor, c.resp.header = bytes.take 12 → ((∃ x, nsStart bytes c = .ok x) ↔
      SectionFine (RecordAt bytes) (¬ RunsOff bytes ·) (u16 bytes 8) c.i fun i =>
      SectionFine (RecordAt bytes) (¬ RunsOff bytes ·) (u16 bytes 10) i fun _ => True) := by
    intro c hc
    rw [← section_isOk_iff (fun c => skipRecord_isOk_iff) hrecord hskipped (k := arStart bytes)
      hadditional _ c hc, ← u16_take (show 8 + 1 < 12 by omega), ← hc]
    rfl
  have hanswer : ∀ c : Cursor, c.resp.header = bytes.take 12 →
      ((∃ x, anStart bytes signed bytes.length c = .ok x) ↔
      SectionFine (AnswerAt signed bytes) (AnswerFine signed bytes) (u16 bytes 6) c.i fun i =>
      SectionFine (RecordAt bytes) (¬ RunsOff bytes ·) (u16 bytes 8) i fun i =>
      SectionFine (RecordAt bytes) (¬ RunsOff bytes ·) (u16 bytes 10) i fun _ => True) := by
    intro c hc
    rw [← section_isOk_iff (fun c => answer_isOk_iff_fine) (fun c j => answer_true_iff)
      (fun c c' h => header_of_answer h) (k := nsStart bytes) hauthority _ c hc,
      ← u16_take (show 6 + 1 < 12 by omega), ← hc]
    rfl
  rw [← section_isOk_iff (fun c => skipQuestion_isOk_iff) hquestion
    (fun c c' h => congrArg Response.header (skipQuestion_true_iff.mp h).2)
    (k := anStart bytes signed bytes.length) hanswer _ c hc,
    ← u16_take (show 4 + 1 < 12 by omega), ← hc]
  rfl

/-- **Contained.** The parser returns, and has read only bytes of the message, if and only if every
name that it gets to stays inside the message and every target comes to an end. -/
theorem parse_returns_iff (signed : Bool) (bytes : List UInt8) :
    (∃ fuel result c, parse bytes signed fuel = .ok (result, c)) ↔ Contained signed bytes := by
  by_cases hresponse : IsResponse bytes
  · have hsections : (∃ x, qdStart bytes signed bytes.length (firstCursor bytes) = .ok x) ↔ _ :=
      qdStart_isOk_iff rfl
    have hcontained : Contained signed bytes ↔
        ∃ x, qdStart bytes signed bytes.length (firstCursor bytes) = .ok x := by
      rw [hsections]
      exact ⟨fun h => h hresponse, fun h _ => h⟩
    rw [hcontained]
    constructor
    · rintro ⟨fuel, result, c, h⟩
      have hok := parse_of_ok h
      rw [parse_of_isResponse hresponse] at hok
      obtain ⟨y, hy, -⟩ := bind_eq_ok.mp hok
      exact ⟨y, hy⟩
    · rintro ⟨y, hy⟩
      refine ⟨bytes.length, if y.1 then .good else .indeterminate, y.2, ?_⟩
      rw [parse_of_isResponse hresponse, hy, ok_bind]
  · obtain ⟨⟨result, c⟩, -, hparse⟩ := parse_of_not_isResponse hresponse
    exact ⟨fun _ h => absurd h hresponse, fun _ => ⟨0, result, c, hparse signed 0⟩⟩

end Entries

def cutQuestion : List UInt8 := [0, 0, 128, 0, 0, 1, 0, 0, 0, 0, 0, 0] ++ [1, 97]

/-- **Outside.** The byte behind the message is read for a question that is cut off, and for a CNAME
without a target; a byte in front of the message is read for a pointer to offset 128, if bytes have
a sign; and a pointer to itself is followed for ever. -/
theorem parse_escapes :
    (∀ (signed : Bool) (fuel : ℕ), parse cutQuestion signed fuel = .error .outside) ∧
    (∀ (signed : Bool) (fuel : ℕ),
      parse ((cnameResponse []).set 22 0) signed (fuel + 1) = .error .outside) ∧
    (∀ fuel, parse (cnameResponse [192, 128]) true (fuel + 1) = .error .outside) ∧
    ∀ (signed : Bool) (fuel : ℕ), parse (cnameResponse [192, 23]) signed fuel =
      .error .endless := by
  refine ⟨?_, ?_, ?_, ?_⟩
  · intro signed fuel
    rfl
  · intro signed fuel
    rfl
  · intro fuel
    rfl
  intro signed fuel
  set bytes := cnameResponse [192, 23] with hbytes
  have hhead : AnswerHead bytes (firstCursor bytes).i 13 :=
    ⟨skipqname_true_iff.mp rfl, .inr (.inr (.inl rfl)), rfl, by decide⟩
  have hanswer : answer bytes signed fuel (firstCursor bytes) = .error .endless := by
    rw [answer_of_head hhead]
    change rdata bytes signed fuel _ 23 _ typeCname >>= _ = _
    rw [rdata_cname, hbytes, selfPointer_loop]
    rfl
  rw [parse_of_isResponse ⟨by decide, by decide⟩]
  change (records (answer bytes signed fuel) 1 (firstCursor bytes) >>= _) >>= _ = _
  rw [records, hanswer]
  rfl

end Yass.Net.DnsMessage
