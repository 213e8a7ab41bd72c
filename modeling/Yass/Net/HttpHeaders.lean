import Yass.Lib.LastWins
import Yass.Net.HttpRequest

/-!
# Which header fields are forwarded

* `expectedFields`, `OriginForm`, `Forwards` — what is to be forwarded: the received fields but
  those for the proxy itself and those an additional header overrides, and the additional headers;
  names are compared without case.
* `Forwardable` — the condition: none of these fields is repeated under the same spelling, an
  overridden field is spelled as the header that overrides it, and the target has a path.

Source: `net/http_parser.cpp`.
-/

namespace Yass.Net

open LastWins

abbrev Field : Type := List UInt8 × List UInt8

/-- `http_headers_` after `ProcessHeaders`. -/
def processHeaders (received : List Field) : List Field := build received

/-- What a `GURL` says about a request target. -/
structure Gurl where
  isValid : Bool
  hasHost : Bool
  hasQuery : Bool
  path : List UInt8
  query : List UInt8
  deriving DecidableEq, Repr

/-- `canon_uri` of `ReforgeHttpRequestImpl`. -/
def canonUri (gurl : List UInt8 → Gurl) (uri : List UInt8) : List UInt8 :=
  let url := gurl uri
  if url.isValid && url.hasHost then
    if url.hasQuery then url.path ++ [63] ++ url.query else url.path
  else uri

/-! ## What is emitted -/

def printHeader (method target version : List UInt8) (fields : List Field) : List UInt8 :=
  method ++ [32] ++ target ++ [32] ++ version ++ crlf ++ (fields.map headerLine).flatten ++ crlf

/-- The fields that `ReforgeHttpRequest` prints. -/
def HttpRequestParser.emittedFields (p : HttpRequestParser) (additional : List Field) :
    List Field :=
  p.httpHeaders.filter (HttpRequestParser.keepsField additional) ++ additional

lemma reforgeHttpRequest_eq (gurl : List UInt8 → Gurl) (p : HttpRequestParser)
    (additional : List Field) :
    p.reforgeHttpRequest (canonUri gurl) additional =
      printHeader p.method (canonUri gurl p.httpUrl) p.versionInput
        (p.emittedFields additional) := by
  simp [HttpRequestParser.reforgeHttpRequest, printHeader, HttpRequestParser.emittedFields]

/-! ## What is to be forwarded -/

def lowerName (f : Field) : Field := (f.1.map toLowerAscii, f.2)

def forProxy (name : List UInt8) : Bool :=
  equalsCaseInsensitiveAscii name proxyConnection ||
    equalsCaseInsensitiveAscii name proxyAuthorization

def overridden (additional : List Field) (name : List UInt8) : Bool :=
  additional.any fun a => equalsCaseInsensitiveAscii a.1 name

def forwards (additional : List Field) (name : List UInt8) : Bool :=
  !forProxy name && !overridden additional name

def expectedFields (received additional : List Field) : List Field :=
  (received.filter fun f => forwards additional f.1) ++ additional

/-- The origin-form of a target: an absolute path and a query. It is the target's own if the target
is a URL with a host, and else the target itself. -/
structure OriginForm (gurl : List UInt8 → Gurl) (uri target : List UInt8) : Prop where
  absolute : target.head? = some 47
  of_url : (gurl uri).isValid = true → (gurl uri).hasHost = true →
    target = (gurl uri).path ++ (if (gurl uri).hasQuery then [63] ++ (gurl uri).query else [])
  of_path : ¬ ((gurl uri).isValid = true ∧ (gurl uri).hasHost = true) → target = uri

/-- The right fields, each as often as it is to be there, and the right target. -/
structure Forwards (gurl : List UInt8 → Gurl) (received additional : List Field)
    (p : HttpRequestParser) : Prop where
  fields : ((p.emittedFields additional).map lowerName).Perm
    ((expectedFields received additional).map lowerName)
  target : OriginForm gurl p.httpUrl (canonUri gurl p.httpUrl)

structure Forwardable (gurl : List UInt8 → Gurl) (received additional : List Field)
    (uri : List UInt8) : Prop where
  distinct : ((received.filter fun f => forwards additional f.1).map Prod.fst).Nodup
  spelled : ∀ f ∈ received, forProxy f.1 = false → overridden additional f.1 = true →
    ∃ a ∈ additional, a.1 = f.1
  target : if (gurl uri).isValid = true ∧ (gurl uri).hasHost = true then
    ((gurl uri).path ++ (if (gurl uri).hasQuery then [63] ++ (gurl uri).query else [])).head? =
      some 47
    else uri.head? = some 47

/-! ## The target -/

lemma originForm_iff (gurl : List UInt8 → Gurl) (uri : List UInt8) :
    OriginForm gurl uri (canonUri gurl uri) ↔
      if (gurl uri).isValid = true ∧ (gurl uri).hasHost = true then
        ((gurl uri).path ++ (if (gurl uri).hasQuery then [63] ++ (gurl uri).query else [])).head? =
          some 47
      else uri.head? = some 47 := by
  by_cases hurl : (gurl uri).isValid = true ∧ (gurl uri).hasHost
  · have hcanon : canonUri gurl uri =
        (gurl uri).path ++ (if (gurl uri).hasQuery then [63] ++ (gurl uri).query else []) := by
      unfold canonUri
      simp only [hurl.1, hurl.2, Bool.and_self, if_true]
      split_ifs <;> simp
    rw [if_pos hurl, hcanon]
    constructor
    · intro h
      exact h.absolute
    · intro h
      exact ⟨h, fun _ _ => rfl, fun hnot => absurd hurl hnot⟩
  have hcanon : canonUri gurl uri = uri := by
    unfold canonUri
    rw [if_neg (by simpa using hurl)]
  rw [if_neg hurl, hcanon]
  constructor
  · intro h
    exact h.absolute
  · intro h
    exact ⟨h, fun hvalid hhost => absurd ⟨hvalid, hhost⟩ hurl, fun _ => rfl⟩

/-! ## The fields -/

section Fields

variable {received additional : List Field}

/-- A field that is emitted although an additional header overrides it: only its spelling is
another. -/
def slips (additional : List Field) (name : List UInt8) : Bool :=
  !forProxy name && overridden additional name && !additional.any fun a => a.1 == name

lemma overridden_of_spelled {name : List UInt8} (h : (additional.any fun a => a.1 == name) = true) :
    overridden additional name = true := by
  obtain ⟨a, ha, hname⟩ := List.any_eq_true.mp h
  refine List.any_eq_true.mpr ⟨a, ha, ?_⟩
  rw [eq_of_beq hname]
  exact beq_self_eq_true _

lemma keepsField_eq (additional : List Field) (f : Field) :
    HttpRequestParser.keepsField additional f =
      (forwards additional f.1 || slips additional f.1) := by
  have hspelled : (additional.any fun a => a.1 == f.1) = true → overridden additional f.1 = true :=
    overridden_of_spelled
  unfold HttpRequestParser.keepsField forwards slips forProxy
  revert hspelled
  generalize equalsCaseInsensitiveAscii f.1 proxyConnection = x
  generalize equalsCaseInsensitiveAscii f.1 proxyAuthorization = y
  generalize overridden additional f.1 = o
  generalize (additional.any fun a => a.1 == f.1) = e
  cases x <;> cases y <;> cases o <;> cases e <;> simp

lemma filter_or_perm {α : Type} {p q : α → Bool} (h : ∀ a, p a = true → q a = false) (l : List α) :
    (l.filter fun a => p a || q a).Perm (l.filter p ++ l.filter q) := by
  have hp : (l.filter fun a => p a || q a).filter p = l.filter p := by
    rw [List.filter_filter]
    refine List.filter_congr fun a _ => ?_
    cases p a <;> simp
  have hq : (l.filter fun a => p a || q a).filter (fun a => !p a) = l.filter q := by
    rw [List.filter_filter]
    refine List.filter_congr fun a _ => ?_
    cases hpa : p a with
    | false => simp
    | true => simp [h a hpa]
  rw [← hp, ← hq]
  exact (List.filter_append_perm p _).symm

lemma slips_eq_false_of_forwards {name : List UInt8} (h : forwards additional name) :
    slips additional name = false := by
  simp only [forwards, Bool.and_eq_true, Bool.not_eq_true'] at h
  simp [slips, h.2]

lemma kept_perm {p : HttpRequestParser} (hmap : p.httpHeaders.Perm (processHeaders received)) :
    (p.httpHeaders.filter (HttpRequestParser.keepsField additional)).Perm
      (build (received.filter fun f => forwards additional f.1) ++
        build (received.filter fun f => slips additional f.1)) := by
  have hkeeps : HttpRequestParser.keepsField additional =
      fun f => forwards additional f.1 || slips additional f.1 :=
    funext (keepsField_eq additional)
  rw [hkeeps, ← filter_build (forwards additional), ← filter_build (slips additional)]
  exact (hmap.filter _).trans (filter_or_perm (fun f => slips_eq_false_of_forwards) _)

def apart (additional : List Field) (f : Field) : Bool :=
  !additional.any fun a => a.1.map toLowerAscii == f.1

lemma apart_lowerName (additional : List Field) (f : Field) :
    apart additional (lowerName f) = !overridden additional f.1 := rfl

lemma filter_apart_map {l : List Field} {b : Bool} (h : ∀ f ∈ l, overridden additional f.1 = b) :
    (l.map lowerName).filter (apart additional) = if b then [] else l.map lowerName := by
  cases b with
  | true =>
    refine List.filter_eq_nil_iff.mpr fun f hf => ?_
    obtain ⟨g, hg, rfl⟩ := List.mem_map.mp hf
    simp [apart_lowerName, h g hg]
  | false =>
    refine List.filter_eq_self.mpr fun f hf => ?_
    obtain ⟨g, hg, rfl⟩ := List.mem_map.mp hf
    simp [apart_lowerName, h g hg]

/-- **The fields.** What is lost and what slips through cannot make up for each other: only the
latter have names of additional headers. -/
lemma perm_fields_iff {p : HttpRequestParser}
    (hmap : p.httpHeaders.Perm (processHeaders received)) :
    ((p.emittedFields additional).map lowerName).Perm
        ((expectedFields received additional).map lowerName) ↔
      ((received.filter fun f => forwards additional f.1).map Prod.fst).Nodup ∧
        (received.filter fun f => slips additional f.1) = [] := by
  set F := received.filter fun f => forwards additional f.1 with hF
  set S := received.filter fun f => slips additional f.1 with hS
  have hkept : ((p.httpHeaders.filter (HttpRequestParser.keepsField additional)).map
      lowerName).Perm ((build F ++ build S).map lowerName) :=
    (kept_perm hmap).map lowerName
  have hF_apart : ∀ f ∈ F, overridden additional f.1 = false := by
    intro f hf
    have := (List.mem_filter.mp hf).2
    simp only [forwards, Bool.and_eq_true, Bool.not_eq_true'] at this
    exact this.2
  have hS_apart : ∀ f ∈ S, overridden additional f.1 = true := by
    intro f hf
    have := (List.mem_filter.mp hf).2
    simp only [slips, Bool.and_eq_true] at this
    exact this.1.2
  unfold HttpRequestParser.emittedFields expectedFields
  rw [List.map_append, List.map_append, List.perm_append_right_iff, ← hF]
  constructor
  · intro hemitted
    have h := hkept.symm.trans hemitted
    have hforwarded := h.filter (apart additional)
    rw [List.map_append, List.filter_append,
      filter_apart_map fun f hf => hF_apart f ((build_sublist F).subset hf),
      filter_apart_map fun f hf => hS_apart f ((build_sublist S).subset hf),
      filter_apart_map hF_apart] at hforwarded
    have hlength := hforwarded.length_eq
    have htotal := h.length_eq
    simp only [Bool.false_eq_true, if_false, if_true, List.append_nil, List.length_map,
      List.length_append] at hlength htotal
    have hsame : build F = F := (build_sublist F).eq_of_length hlength
    refine ⟨(build_eq_self_iff F).mp hsame, (build_eq_nil_iff S).mp ?_⟩
    exact List.length_eq_zero_iff.mp (by omega)
  · rintro ⟨hdistinct, hnone⟩
    rwa [(build_eq_self_iff F).mpr hdistinct, hnone, build_nil, List.append_nil] at hkept

lemma slips_eq_nil_iff :
    (received.filter fun f => slips additional f.1) = [] ↔
      ∀ f ∈ received, forProxy f.1 = false → overridden additional f.1 = true →
        ∃ a ∈ additional, a.1 = f.1 := by
  simp only [List.filter_eq_nil_iff, slips, Bool.and_eq_true, Bool.not_eq_true', not_and,
    Bool.not_eq_false, List.any_eq_true, beq_iff_eq, and_imp]

end Fields

/-- **Forwarded header fields.** For every parsed request, every list of received fields, and all
additional headers: what is printed is a request line and a list of fields; the target is the
origin-form and the fields are, up to order and case of names, the ones that are to be forwarded if
and only if no forwarded field is repeated under the same spelling, every overridden field is
spelled as an additional header, and the target has a path. -/
theorem reforged_fields_iff (gurl : List UInt8 → Gurl) (p : HttpRequestParser)
    (received additional : List Field) (hmap : p.httpHeaders.Perm (processHeaders received)) :
    p.reforgeHttpRequest (canonUri gurl) additional =
        printHeader p.method (canonUri gurl p.httpUrl) p.versionInput
          (p.emittedFields additional) ∧
      (Forwards gurl received additional p ↔
        Forwardable gurl received additional p.httpUrl) := by
  refine ⟨reforgeHttpRequest_eq gurl p additional, ?_⟩
  constructor
  · intro h
    obtain ⟨hdistinct, hnone⟩ := (perm_fields_iff hmap).mp h.fields
    exact ⟨hdistinct, slips_eq_nil_iff.mp hnone, (originForm_iff gurl _).mp h.target⟩
  intro h
  refine ⟨(perm_fields_iff hmap).mpr ⟨h.distinct, slips_eq_nil_iff.mpr h.spelled⟩, ?_⟩
  exact (originForm_iff gurl _).mpr h.target

def pathOnly (_ : List UInt8) : Gurl := ⟨false, false, false, [], []⟩

theorem reforged_fields_sample :
    Forwards pathOnly [([72, 111, 115, 116], [97])] (viaHeaders true true [] []) sampleParser := by
  refine (reforged_fields_iff pathOnly sampleParser _ _ (List.Perm.refl _)).2.mpr ⟨?_, ?_, ?_⟩
  · decide
  · decide
  · decide

/-- `Cookie: a`, `Cookie: b` and `connection: a`. -/
def sampleFields : List Field :=
  [([67, 111, 111, 107, 105, 101], [97]), ([67, 111, 111, 107, 105, 101], [98]),
    ([99, 111, 110, 110, 101, 99, 116, 105, 111, 110], [97])]

/-- One of two cookies is lost, on the client and on the server; and the server sends
`connection: a` as well as its own `Connection: Close`. -/
theorem reforged_fields_lost :
    HttpRequestParser.emittedFields { sampleParser with httpHeaders := processHeaders sampleFields }
        [] = sampleFields.drop 1 ∧
    HttpRequestParser.emittedFields { sampleParser with httpHeaders := processHeaders sampleFields }
        (viaHeaders true true [] []) = sampleFields.drop 1 ++ viaHeaders true true [] [] ∧
    ¬ ((sampleFields.drop 1).map lowerName).Perm ((expectedFields sampleFields []).map lowerName) ∧
    ¬ ((sampleFields.drop 1 ++ viaHeaders true true [] []).map lowerName).Perm
        ((expectedFields sampleFields (viaHeaders true true [] [])).map lowerName) := by
  decide +kernel

end Yass.Net
