import Mathlib.Data.List.Infix
import Mathlib.Tactic

/-!
# Loading a bundle of CA certificates

The loader cuts the text behind each line `-----END CERTIFICATE-----`, together with its line feed,
and hands each part to `PEM_read_bio_X509`, which reads the first block in it.

Source: `net/asio_ssl.cpp`, `load_ca_to_ssl_ctx_from_mem`, `load_ca_to_x509_store_from_string`.
-/

namespace Yass.Net.CaBundle

def dashes : List Char := ['-', '-', '-', '-', '-']

def certificate : List Char := ['C', 'E', 'R', 'T', 'I', 'F', 'I', 'C', 'A', 'T', 'E'] ++ dashes

def beginMark : List Char := dashes ++ ['B', 'E', 'G', 'I', 'N', ' ']

def endLine : List Char := dashes ++ ['E', 'N', 'D', ' '] ++ certificate

def kEndCertificateMark : List Char := endLine ++ ['\n']

/-- The text up to the end of the first `mark`, and the text behind it. -/
def cut (mark : List Char) : List Char → Option (List Char × List Char)
  | [] => none
  | c :: text =>
    if mark <+: c :: text then some (mark, (c :: text).drop mark.length)
    else (cut mark text).map fun p => (c :: p.1, p.2)

lemma cut_eq_some {mark text u v : List Char} (h : cut mark text = some (u, v)) :
    text = u ++ v ∧ mark <:+ u := by
  induction text generalizing u v with
  | nil => cases h
  | cons c text ih =>
    rw [cut] at h
    split_ifs at h with hmark
    · cases h
      obtain ⟨rest, hrest⟩ := hmark
      exact ⟨by rw [← hrest, List.drop_left], List.suffix_refl _⟩
    obtain ⟨⟨u', v'⟩, h', heq⟩ := Option.map_eq_some_iff.mp h
    cases heq
    obtain ⟨rfl, hsuffix⟩ := ih h'
    exact ⟨rfl, hsuffix.trans (List.suffix_cons _ _)⟩

variable {X S : Type}

/-- What is done with a part: `add` is `load_ca_to_x509_store_from_cert`. -/
def offer (add : S → X → S × Bool) (acc : S × ℕ) : Option X → S × ℕ
  | none => acc
  | some cert =>
    let (store, ok) := add acc.1 cert
    (store, if ok then acc.2 + 1 else acc.2)

/-- The loop. `read` is `PEM_read_bio_X509`. -/
def loop (read : List Char → Option X) (add : S → X → S × Bool) (text : List Char)
    (acc : S × ℕ) : S × ℕ :=
  match _h : cut kEndCertificateMark text with
  | none => acc
  | some (cacert, rest) => loop read add rest (offer add acc (read cacert))
termination_by text.length
decreasing_by
  obtain ⟨rfl, hmark⟩ := cut_eq_some _h
  have := hmark.length_le
  simp only [List.length_append]
  simp [kEndCertificateMark] at this
  omega

/-- The number of certificates, and the store; without a store there is nothing to load into. -/
def loadCaToSslCtxFromMem (read : List Char → Option X) (add : S → X → S × Bool)
    (store : Option S) (cadata : List Char) : Option S × ℕ :=
  match store with
  | none => (none, 0)
  | some store =>
    let (store, count) := loop read add cadata (store, 0)
    (some store, count)

/-! ## Bundles -/

inductive LineEnd where
  | lf
  | crlf
  deriving DecidableEq, Repr

def LineEnd.text : LineEnd → List Char
  | .lf => ['\n']
  | .crlf => ['\r', '\n']

/-- A block, whose lines are base64. -/
structure Block where
  lineEnd : LineEnd
  lines : List (List Char)
  plain : ∀ line ∈ lines, '-' ∉ line

/-- A block up to its last line. -/
def Block.front (b : Block) : List Char :=
  beginMark ++ certificate ++ b.lineEnd.text ++ b.lines.flatMap (· ++ b.lineEnd.text)

/-- Lines that are complete. -/
def Whole (text : List Char) : Prop := text = [] ∨ ∃ front, text = front ++ ['\n']

/-- Text in which no block begins. -/
structure Gap where
  text : List Char
  plain : ¬ beginMark <:+: text
  whole : Whole text

/-- Each entry is a block with its line end and the text behind it. -/
structure Bundle where
  lead : Gap
  entries : List (Block × Gap)
  final : Option Block

def Bundle.text (b : Bundle) : List Char :=
  b.lead.text ++
    (b.entries.flatMap fun e => e.1.front ++ endLine ++ e.1.lineEnd.text ++ e.2.text) ++
    (b.final.elim [] fun last => last.front ++ endLine)

def Bundle.blocks (b : Bundle) : List Block := b.entries.map Prod.fst ++ b.final.toList

/-- `PEM_read_bio_X509` reads the first block of a text. -/
structure Reader (X : Type) where
  read : List Char → Option X
  parse : Block → Option X
  read_block : ∀ (gap : Gap) (b : Block) (rest : List Char),
    read (gap.text ++ b.front ++ endLine ++ b.lineEnd.text ++ rest) = parse b
  read_gap : ∀ gap : Gap, read gap.text = none

/-- A block is followed by the mark, before the next one begins. -/
def Marked (e : Block × Gap) : Prop := e.1.lineEnd = .lf ∨ kEndCertificateMark <:+: e.2.text

instance (e : Block × Gap) : Decidable (Marked e) := inferInstanceAs (Decidable (_ ∨ _))

/-- The blocks that are offered. `pending` is the first block behind the last mark. -/
def offered (pending : Option Block) : List (Block × Gap) → List Block
  | [] => []
  | e :: es =>
    let first := pending.getD e.1
    if Marked e then first :: offered none es else offered (some first) es

/-! ## Where the text is cut -/

variable {mark a : List Char}

lemma cut_isSome_iff {text : List Char} (hne : mark ≠ []) :
    (cut mark text).isSome = true ↔ mark <:+: text := by
  induction text with
  | nil => simp [cut, hne]
  | cons c text ih =>
    rw [cut, List.infix_cons_iff, ← ih]
    split_ifs with hmark
    · simp [hmark]
    · simp [hmark]

lemma cut_append_some {u v : List Char} (h : cut mark a = some (u, v)) (x : List Char) :
    cut mark (a ++ x) = some (u, v ++ x) := by
  induction a generalizing u v with
  | nil => cases h
  | cons c a ih =>
    have hlength : mark.length ≤ (c :: a).length := by
      obtain ⟨ha, hmark⟩ := cut_eq_some h
      rw [ha, List.length_append]
      exact hmark.length_le.trans (Nat.le_add_right _ _)
    have hprefix : mark <+: c :: (a ++ x) ↔ mark <+: c :: a :=
      ⟨fun hm => List.prefix_of_prefix_length_le hm (List.prefix_append (c :: a) x) hlength,
        fun hm => hm.trans (List.prefix_append (c :: a) x)⟩
    rw [cut] at h
    rw [List.cons_append, cut, if_congr hprefix rfl rfl]
    split_ifs at h ⊢ with hmark
    · cases h
      rw [← List.cons_append, List.drop_append_of_le_length hlength]
    obtain ⟨⟨u', v'⟩, h', heq⟩ := Option.map_eq_some_iff.mp h
    cases heq
    rw [ih h', Option.map_some]

lemma cut_append_none (hwhole : Whole a) (h : cut kEndCertificateMark a = none)
    (x : List Char) : cut kEndCertificateMark (a ++ x) =
      (cut kEndCertificateMark x).map fun p => (a ++ p.1, p.2) := by
  induction a with
  | nil => simp
  | cons c a ih =>
    rw [cut] at h
    split_ifs at h with hmark
    have hmark' : ¬ kEndCertificateMark <+: c :: (a ++ x) := fun hm => by
      rcases List.prefix_or_prefix_of_prefix hm (List.prefix_append (c :: a) x) with hin | hout
      · exact hmark hin
      rcases List.prefix_concat_iff.mp hout with heq | hline
      · exact hmark (heq ▸ List.prefix_refl _)
      obtain hnil | ⟨front, hfront⟩ := hwhole
      · cases hnil
      have hmem : '\n' ∈ endLine := hline.subset (by simp [hfront])
      revert hmem
      decide
    have hrest : Whole a := by
      obtain hnil | ⟨front, hfront⟩ := hwhole
      · cases hnil
      · cases front with
        | nil => exact .inl (List.cons.inj hfront).2
        | cons d front => exact .inr ⟨front, (List.cons.inj hfront).2⟩
    rw [List.cons_append, cut, if_neg hmark', ih hrest (Option.map_eq_none_iff.mp h),
      Option.map_map]
    rfl

variable {b : List Char}

lemma Whole.append (ha : Whole a) (hb : Whole b) : Whole (a ++ b) := by
  obtain rfl | ⟨front, rfl⟩ := hb
  · rwa [List.append_nil]
  · exact .inr ⟨a ++ front, (List.append_assoc _ _ _).symm⟩

lemma Whole.of_suffix (hb : Whole b) (h : a <:+ b) : Whole a := by
  obtain rfl | ⟨front, rfl⟩ := hb
  · exact .inl (List.suffix_nil.mp h)
  rcases List.suffix_concat_iff.mp h with rfl | ⟨front', rfl, -⟩
  · exact .inl rfl
  · exact .inr ⟨front', rfl⟩

def Gap.ofSuffix (gap : Gap) {v : List Char} (h : v <:+ gap.text) : Gap :=
  ⟨v, fun hin => gap.plain (hin.trans h.isInfix), gap.whole.of_suffix h⟩

lemma whole_lineEnd (a : List Char) (lineEnd : LineEnd) : Whole (a ++ lineEnd.text) := by
  cases lineEnd with
  | lf => exact .inr ⟨a, rfl⟩
  | crlf => exact .inr ⟨a ++ ['\r'], by simp [LineEnd.text]⟩

/-- A text without a mark that may be cut only behind it. -/
structure Uncut (a : List Char) : Prop where
  whole : Whole a
  none : cut kEndCertificateMark a = none

lemma Uncut.append (ha : Uncut a) (hb : Uncut b) : Uncut (a ++ b) :=
  ⟨ha.whole.append hb.whole, by rw [cut_append_none ha.whole ha.none, hb.none, Option.map_none]⟩

lemma uncut_lines (b : Block) : Uncut (b.lines.flatMap (· ++ b.lineEnd.text)) := by
  obtain ⟨lineEnd, lines, hplain⟩ := b
  constructor
  · dsimp only
    clear hplain
    induction lines with
    | nil => exact .inl rfl
    | cons line lines ih => exact (whole_lineEnd line lineEnd).append ih
  have hnot : '-' ∉ lines.flatMap (· ++ lineEnd.text) := by
    have hend : '-' ∉ lineEnd.text := by cases lineEnd <;> decide
    simp only [List.mem_flatMap, List.mem_append, not_exists, not_and, not_or]
    exact fun line hline => ⟨hplain line hline, hend⟩
  rw [← Option.not_isSome_iff_eq_none, cut_isSome_iff (by decide)]
  exact fun hmark => hnot (hmark.subset (by decide))

lemma uncut_front (b : Block) : Uncut b.front := by
  refine Uncut.append ⟨whole_lineEnd _ _, ?_⟩ (uncut_lines b)
  cases b.lineEnd <;> decide

lemma cut_end_of_marked {e : Block × Gap} (h : Marked e) :
    ∃ rest : List Char, ∃ gap : Gap, cut kEndCertificateMark
      (endLine ++ e.1.lineEnd.text ++ e.2.text) =
        some (endLine ++ e.1.lineEnd.text ++ rest, gap.text) := by
  obtain ⟨b, gap⟩ := e
  dsimp only
  cases hend : b.lineEnd with
  | lf =>
    have hcut : cut kEndCertificateMark (endLine ++ LineEnd.lf.text) =
        some (endLine ++ LineEnd.lf.text, []) := by decide
    exact ⟨[], gap, by rw [cut_append_some hcut, List.append_nil, List.nil_append]⟩
  | crlf =>
    have hcut : cut kEndCertificateMark (endLine ++ LineEnd.crlf.text) = none := by decide
    have hinfix : kEndCertificateMark <:+: gap.text := h.resolve_left (by simp [hend])
    obtain ⟨⟨u, v⟩, huv⟩ := Option.isSome_iff_exists.mp ((cut_isSome_iff (by decide)).mpr hinfix)
    have hgap := (cut_eq_some huv).1
    have hsuffix : v <:+ gap.text := hgap ▸ List.suffix_append u v
    refine ⟨u, gap.ofSuffix hsuffix, ?_⟩
    rw [cut_append_none (whole_lineEnd _ _) hcut, huv, Option.map_some]
    rfl

lemma uncut_end_of_not_marked {e : Block × Gap} (h : ¬ Marked e) :
    Uncut (endLine ++ e.1.lineEnd.text ++ e.2.text) := by
  obtain ⟨hlf, hgap⟩ := not_or.mp h
  refine Uncut.append ⟨whole_lineEnd _ _, ?_⟩ ⟨e.2.whole, ?_⟩
  · cases hend : e.1.lineEnd with
    | lf => exact absurd hend hlf
    | crlf => decide
  · rwa [← Option.not_isSome_iff_eq_none, cut_isSome_iff (by decide)]

/-! ## The loop -/

section Loop

variable (pem : Reader X) (add : S → X → S × Bool)

lemma loop_none {text : List Char} (h : cut kEndCertificateMark text = none) (acc : S × ℕ) :
    loop pem.read add text acc = acc := by
  rw [loop]
  split
  · rfl
  · next hcut => simp [h] at hcut

lemma loop_some {text cacert rest : List Char}
    (h : cut kEndCertificateMark text = some (cacert, rest)) (acc : S × ℕ) :
    loop pem.read add text acc = loop pem.read add rest (offer add acc (pem.read cacert)) := by
  rw [loop]
  split
  · next hcut => simp [h] at hcut
  · next hcut =>
    rw [h] at hcut
    cases hcut
    rfl

lemma loop_gap (gap : Gap) : ∃ gap' : Gap, Uncut gap'.text ∧ ∀ x acc,
    loop pem.read add (gap.text ++ x) acc = loop pem.read add (gap'.text ++ x) acc := by
  induction hn : gap.text.length using Nat.strong_induction_on generalizing gap with
  | _ n ih =>
    cases hcut : cut kEndCertificateMark gap.text with
    | none => exact ⟨gap, ⟨gap.whole, hcut⟩, fun _ _ => rfl⟩
    | some p =>
      obtain ⟨u, v⟩ := p
      obtain ⟨hgap, ⟨front, hu⟩⟩ := cut_eq_some hcut
      have hprefix : u <+: gap.text := hgap ▸ List.prefix_append u v
      have hsuffix : v <:+ gap.text := hgap ▸ List.suffix_append u v
      have hread : pem.read u = none := pem.read_gap ⟨u, fun hin =>
        gap.plain (hin.trans hprefix.isInfix), Or.inr ⟨front ++ endLine, by
          rw [← hu, kEndCertificateMark, List.append_assoc]⟩⟩
      have hlt : v.length < n := by
        rw [← hn, hgap, ← hu]
        simp [kEndCertificateMark]
        omega
      obtain ⟨gap', huncut, hloop⟩ := ih _ hlt (gap.ofSuffix hsuffix) rfl
      refine ⟨gap', huncut, fun x acc => ?_⟩
      rw [loop_some pem add (cut_append_some hcut x), hread]
      exact hloop x acc

/-- The text since the last mark, and its first block. -/
inductive Pending : List Char → Option Block → Prop where
  | gap (gap : Gap) : Pending gap.text none
  | block (gap : Gap) (b : Block) (rest : List Char) :
    Pending (gap.text ++ b.front ++ endLine ++ b.lineEnd.text ++ rest) (some b)

variable {pending : Option Block} {p : List Char}

lemma Pending.read (h : Pending p pending) (b : Block) (rest : List Char) :
    pem.read (p ++ (b.front ++ (endLine ++ b.lineEnd.text ++ rest))) =
      pem.parse (pending.getD b) := by
  cases h with
  | gap gap => simpa using pem.read_block gap b rest
  | block gap b' rest' =>
    simpa using pem.read_block gap b' (rest' ++ (b.front ++ (endLine ++ b.lineEnd.text ++ rest)))

lemma Pending.extend (h : Pending p pending) (b : Block) (rest : List Char) :
    Pending (p ++ (b.front ++ (endLine ++ b.lineEnd.text ++ rest))) (some (pending.getD b)) := by
  cases h with
  | gap gap => simpa using Pending.block gap b rest
  | block gap b' rest' =>
    simpa using Pending.block gap b'
      (rest' ++ (b.front ++ (endLine ++ b.lineEnd.text ++ rest)))

lemma loop_entries (es : List (Block × Gap)) {final : List Char}
    (hfinal : cut kEndCertificateMark final = none)
    (hp : Pending p pending) (huncut : Uncut p) (acc : S × ℕ) :
    loop pem.read add (p ++ ((es.flatMap fun e =>
        e.1.front ++ (endLine ++ e.1.lineEnd.text ++ e.2.text)) ++ final)) acc =
      (offered pending es).foldl (fun acc b => offer add acc (pem.parse b)) acc := by
  induction es generalizing p pending acc with
  | nil =>
    refine loop_none pem add ?_ acc
    rw [cut_append_none huncut.whole huncut.none, List.flatMap_nil, List.nil_append, hfinal,
      Option.map_none]
  | cons e es ih =>
    have hfront := huncut.append (uncut_front e.1)
    rw [List.flatMap_cons, offered]
    split_ifs with hmarked
    · obtain ⟨rest, gap, hcut⟩ := cut_end_of_marked hmarked
      obtain ⟨gap', hgap', hloop⟩ := loop_gap pem add gap
      have hwhole := cut_append_none hfront.whole hfront.none
        (endLine ++ e.1.lineEnd.text ++ e.2.text)
      rw [hcut, Option.map_some] at hwhole
      have hnext := loop_some pem add (cut_append_some hwhole ((es.flatMap fun e =>
        e.1.front ++ (endLine ++ e.1.lineEnd.text ++ e.2.text)) ++ final)) acc
      simp only [List.append_assoc] at hnext ih hloop ⊢
      have hread := hp.read pem e.1 rest
      simp only [List.append_assoc] at hread
      rw [hnext, hloop, hread]
      exact ih (Pending.gap gap') hgap' _
    have hall := hfront.append (uncut_end_of_not_marked hmarked)
    rw [List.append_assoc] at hall
    have hnext := ih (hp.extend e.1 e.2.text) hall acc
    simpa only [List.append_assoc] using hnext

end Loop

/-! ## All blocks -/

lemma offered_of_marked {es : List (Block × Gap)} (h : ∀ e ∈ es, Marked e) :
    offered none es = es.map Prod.fst := by
  induction es with
  | nil => rfl
  | cons e es ih =>
    rw [offered, if_pos (h e List.mem_cons_self), ih fun e he => h e (List.mem_cons_of_mem _ he)]
    rfl

lemma length_offered_le (pending : Option Block) (es : List (Block × Gap)) :
    (offered pending es).length ≤ es.length := by
  induction es generalizing pending with
  | nil => exact le_rfl
  | cons e es ih =>
    rw [offered]
    split_ifs
    · exact Nat.succ_le_succ (ih none)
    · exact (ih _).trans (Nat.le_succ _)

lemma marked_of_length_offered {pending : Option Block} {es : List (Block × Gap)}
    (h : (offered pending es).length = es.length) : ∀ e ∈ es, Marked e := by
  induction es generalizing pending with
  | nil => simp
  | cons e es ih =>
    rw [offered] at h
    split_ifs at h with hmarked
    · exact List.forall_mem_cons.mpr ⟨hmarked, ih (Nat.succ.inj h)⟩
    have hle := length_offered_le (some (pending.getD e.1)) es
    rw [List.length_cons] at h
    omega

lemma loadCaToSslCtxFromMem_eq (pem : Reader X) (add : S → X → S × Bool) (store : S) (b : Bundle) :
    loadCaToSslCtxFromMem pem.read add (some store) b.text =
      ((offered none b.entries).foldl (fun acc b => offer add acc (pem.parse b)) (store, 0)).map
        some id := by
  have hfinal : cut kEndCertificateMark
      (b.final.elim [] fun last => last.front ++ endLine) = none := by
    cases b.final with
    | none => rfl
    | some last =>
      have hend : cut kEndCertificateMark endLine = none := by decide
      rw [Option.elim, cut_append_none (uncut_front last).whole (uncut_front last).none, hend,
        Option.map_none]
  obtain ⟨gap, hgap, hloop⟩ := loop_gap pem add b.lead
  have hentries := loop_entries pem add b.entries hfinal (.gap gap) hgap (store, 0)
  rw [← hloop] at hentries
  rw [loadCaToSslCtxFromMem, Bundle.text, ← hentries]
  simp only [List.append_assoc]
  rfl

/-- A reader for which every block is a certificate. -/
def anyBlock : Reader Unit where
  read text := if beginMark <:+: text then some () else none
  parse _ := some ()
  read_block gap b rest := if_pos ⟨gap.text, _, by simp only [Block.front, List.append_assoc]; rfl⟩
  read_gap gap := if_neg gap.plain

lemma foldl_offer_anyBlock (bs : List Block) (n : ℕ) :
    bs.foldl (fun acc b => offer (fun s _ => (s, true)) acc (anyBlock.parse b)) ((), n) =
      ((), n + bs.length) := by
  induction bs generalizing n with
  | nil => rfl
  | cons b bs ih =>
    rw [List.foldl_cons, List.length_cons, Nat.add_comm bs.length, ← Nat.add_assoc]
    exact ih (n + 1)

/-- **Bundles.** Whatever reads a block and whatever the store accepts: each block of a bundle is
offered once, in order, and those that are accepted are counted, exactly if every block is followed
by the mark with a line feed. -/
theorem bundle_loaded_iff (b : Bundle) :
    (∀ (X S : Type) (pem : Reader X) (add : S → X → S × Bool) (store : S),
      loadCaToSslCtxFromMem pem.read add (some store) b.text =
        (b.blocks.foldl (fun acc b => offer add acc (pem.parse b)) (store, 0)).map some id) ↔
      b.final = none ∧ ∀ e ∈ b.entries, Marked e := by
  constructor
  · intro h
    have hcount := h Unit Unit anyBlock (fun s _ => (s, true)) ()
    rw [loadCaToSslCtxFromMem_eq, foldl_offer_anyBlock, foldl_offer_anyBlock] at hcount
    have hlength : (offered none b.entries).length = b.blocks.length := by
      simpa using congrArg Prod.snd hcount
    have hle := length_offered_le none b.entries
    rw [Bundle.blocks, List.length_append, List.length_map] at hlength
    refine ⟨?_, @marked_of_length_offered none _ (by omega)⟩
    rw [← Option.toList_eq_nil_iff, ← List.length_eq_zero_iff]
    omega
  · rintro ⟨hfinal, hmarked⟩ X S pem add store
    rw [loadCaToSslCtxFromMem_eq, offered_of_marked hmarked, Bundle.blocks, hfinal,
      Option.toList_none, List.append_nil]

def sampleBlock (lineEnd : LineEnd) : Block := ⟨lineEnd, [['M', 'I', 'I']], by decide⟩

def emptyGap : Gap := ⟨[], by decide, Or.inl rfl⟩

/-- A block with CRLF, and a block at the end of the text: none of them is offered. -/
theorem blocks_not_loaded :
    let load := loadCaToSslCtxFromMem anyBlock.read (fun (s : Unit) _ => (s, true)) (some ())
    load (Bundle.text ⟨emptyGap, [(sampleBlock .crlf, emptyGap)], none⟩) = (some (), 0) ∧
    load (Bundle.text ⟨emptyGap, [], some (sampleBlock .lf)⟩) = (some (), 0) := by
  refine ⟨(loadCaToSslCtxFromMem_eq _ _ _ _).trans ?_, loadCaToSslCtxFromMem_eq _ _ _ _⟩
  decide

end Yass.Net.CaBundle
