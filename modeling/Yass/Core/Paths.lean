import Mathlib.Data.List.DropRight
import Mathlib.Tactic

/-!
# `Dirname` and `Basename`

Source: `core/utils.cpp`. On Windows `kSeparators` has a second character; POSIX says nothing of it.
-/

namespace Yass.Core

def slash (c : Char) : Bool := c == '/'

/-- The last position below `n` where `p` holds. -/
def findLast (p : Char → Bool) (path : List Char) : ℕ → Option ℕ
  | 0 => none
  | n + 1 => if path[n]?.any p then some n else findLast p path n

/-- Source: `core/utils.cpp`, `Dirname`. -/
def dirname (path : List Char) : List Char :=
  match findLast (!slash ·) path path.length with
  | none => if path.isEmpty then ['/'] else path.take 1
  | some last =>
    match findLast slash path (last + 1) with
    | none => ['.']
    | some lastSlash =>
      match findLast (!slash ·) path (lastSlash + 1) with
      | none => path.take 1
      | some last => path.take (last + 1)

/-- Source: `core/utils.cpp`, `Basename`. -/
def basename (path : List Char) : List Char :=
  match findLast (!slash ·) path path.length with
  | none => if path.isEmpty then [] else path.take 1
  | some last =>
    match findLast slash path (last + 1) with
    | none => path.take (last + 1)
    | some lastSlash => (path.drop (lastSlash + 1)).take (last - lastSlash)

/-! ## What the functions are to do -/

/-- `dirname` of POSIX: trailing slashes go, then the last component, then the slashes before it. -/
def posixDirname (path : List Char) : List Char :=
  let stripped := path.rdropWhile slash
  let front := stripped.rdropWhile (!slash ·)
  let dir := front.rdropWhile slash
  if path = [] then ['.']
  else if stripped = [] then ['/']
  else if front = [] then ['.']
  else if dir = [] then ['/']
  else dir

/-- `basename` of POSIX: the last component, without trailing slashes. -/
def posixBasename (path : List Char) : List Char :=
  let stripped := path.rdropWhile slash
  if path = [] then ['.']
  else if stripped = [] then ['/']
  else stripped.rtakeWhile (!slash ·)

def components (path : List Char) : List (List Char) :=
  (path.splitOnP slash).filter fun c => c ≠ [] ∧ c ≠ ['.']

/-- Repeated slashes are one, and a component `.` stands for nothing. -/
def normalized (path : List Char) : Bool × List (List Char) :=
  (path.head?.any slash, components path)

/-! ## The searches -/

lemma findLast_cases (p : Char → Bool) (path : List Char) (n : ℕ) :
    (findLast p path n = none ∧ (path.take n).rdropWhile (!p ·) = []) ∨
      ∃ i < path.length, findLast p path n = some i ∧
        (path.take n).rdropWhile (!p ·) = path.take (i + 1) := by
  induction n with
  | zero => exact .inl ⟨rfl, by simp⟩
  | succ n ih =>
    rw [List.take_add_one, findLast]
    cases hc : path[n]? with
    | none => simpa using ih
    | some c =>
      have hlt : n < path.length := (List.getElem?_eq_some_iff.mp hc).1
      rw [Option.toList_some, List.rdropWhile_concat, Option.any_some]
      by_cases hp : p c
      · refine .inr ⟨n, hlt, by simp [hp], ?_⟩
        rw [if_neg (by simp [hp]), List.take_add_one, hc, Option.toList_some]
      · simpa [hp] using ih

variable {path : List Char}

lemma take_one {front : List Char} (hfront : front <+: path) (hne : front ≠ [])
    (hall : front.rdropWhile slash = []) : path.take 1 = ['/'] := by
  obtain ⟨rest, rfl⟩ := hfront
  obtain ⟨c, front, rfl⟩ := List.exists_cons_of_ne_nil hne
  have hc := List.rdropWhile_eq_nil_iff.mp hall c List.mem_cons_self
  simpa [slash] using hc

lemma dirname_eq (h : path ≠ []) : dirname path = posixDirname path := by
  have hnot := findLast_cases (!slash ·) path
  simp only [Bool.not_not] at hnot
  unfold dirname posixDirname
  rw [if_neg h]
  rcases hnot path.length with ⟨hnone, hnil⟩ | ⟨last, hlt, hlast, hstripped⟩
  · rw [List.take_length] at hnil
    simp only [hnone, hnil, List.isEmpty_iff, h, if_false, if_true]
    exact take_one (List.prefix_refl path) h hnil
  rw [List.take_length] at hstripped
  have hpos : path.take (last + 1) ≠ [] := by simp [h]
  simp only [hlast, hstripped, if_neg hpos]
  rcases findLast_cases slash path (last + 1) with ⟨hnone, hnil⟩ | ⟨i, hi, hslash, hfront⟩
  · simp only [hnone, hnil, if_true]
  have hpos' : path.take (i + 1) ≠ [] := by simp [h]
  simp only [hslash, hfront, if_neg hpos']
  rcases hnot (i + 1) with ⟨hnone, hnil⟩ | ⟨j, hj, hdir, hfinal⟩
  · simp only [hnone, hnil, if_true]
    exact take_one (List.take_prefix _ _) hpos' hnil
  · have hpos'' : path.take (j + 1) ≠ [] := by simp [h]
    simp only [hdir, hfinal, if_neg hpos'']

lemma basename_eq (h : path ≠ []) : basename path = posixBasename path := by
  have hnot := findLast_cases (!slash ·) path path.length
  simp only [Bool.not_not, List.take_length] at hnot
  unfold basename posixBasename
  rw [if_neg h]
  rcases hnot with ⟨hnone, hnil⟩ | ⟨last, hlt, hlast, hstripped⟩
  · simp only [hnone, hnil, List.isEmpty_iff, h, if_false, if_true]
    exact take_one (List.prefix_refl path) h hnil
  have hpos : path.take (last + 1) ≠ [] := by simp [h]
  simp only [hlast, hstripped, if_neg hpos]
  have hsplit := List.rdropWhile_append_rtakeWhile (p := (!slash ·)) (l := path.take (last + 1))
  rcases findLast_cases slash path (last + 1) with ⟨hnone, hnil⟩ | ⟨i, hi, hslash, hfront⟩
  · rw [hnil, List.nil_append] at hsplit
    simp only [hnone, hsplit]
  -- the rest of the stripped path behind its last slash
  rw [hfront] at hsplit
  have hrest := congrArg (List.drop (i + 1)) hsplit
  rw [List.drop_left' (by rw [List.length_take]; omega), List.drop_take] at hrest
  simp only [hslash, hrest]
  congr 1
  omega

/-! ## Joining the two again -/

lemma components_cons (a b : List Char) :
    components (a ++ '/' :: b) = components a ++ components b := by
  rw [components, List.splitOnP_append_cons a b (by decide), List.filter_append]
  rfl

lemma components_slashes (n : ℕ) (b : List Char) :
    components (List.replicate n '/' ++ b) = components b := by
  induction n with
  | zero => rfl
  | succ n ih =>
    rw [List.replicate_succ, List.cons_append]
    exact (components_cons [] _).trans ih

lemma components_trailing (a : List Char) (n : ℕ) :
    components (a ++ List.replicate n '/') = components a := by
  cases n with
  | zero => rw [List.replicate_zero, List.append_nil]
  | succ n =>
    have hnil := components_slashes n []
    rw [List.append_nil] at hnil
    rw [List.replicate_succ, components_cons, hnil]
    exact List.append_nil _

lemma components_middle (a b : List Char) (n : ℕ) :
    components (a ++ List.replicate (n + 1) '/' ++ b) = components a ++ components b := by
  rw [List.append_assoc, List.replicate_succ, List.cons_append, components_cons,
    components_slashes]

lemma replicate_of_slashes {l : List Char} (h : ∀ c ∈ l, slash c = true) :
    l = List.replicate l.length '/' :=
  List.eq_replicate_iff.mpr ⟨rfl, fun c hc => by simpa [slash] using h c hc⟩

lemma exists_parts (h : ∃ c ∈ path, slash c = false) :
    ∃ dir n base k,
      path = dir ++ List.replicate n '/' ++ base ++ List.replicate k '/' ∧
      (base ≠ [] ∧ ∀ c ∈ base, slash c = false) ∧ posixBasename path = base ∧
      posixDirname path = (if n = 0 then ['.'] else if dir = [] then ['/'] else dir) ∧
      (n = 0 → dir = []) := by
  obtain ⟨c, hc, hslash⟩ := h
  have hne : path ≠ [] := List.ne_nil_of_mem hc
  have hpos : path.rdropWhile slash ≠ [] := fun hnil => by
    simpa [hslash] using List.rdropWhile_eq_nil_iff.mp hnil c hc
  set stripped := path.rdropWhile slash with hstripped
  set front := stripped.rdropWhile (!slash ·) with hfront
  set base := stripped.rtakeWhile (!slash ·) with hbase
  have hpath : path = front ++ base ++ List.replicate (path.rtakeWhile slash).length '/' := by
    rw [List.rdropWhile_append_rtakeWhile, ← replicate_of_slashes fun c => List.mem_rtakeWhile_imp,
      List.rdropWhile_append_rtakeWhile]
  have hbase_ne : base ≠ [] := fun hnil => by
    have hlast := List.rtakeWhile_eq_nil_iff.mp hnil hpos
    exact List.rdropWhile_last_not slash path hpos (by simpa using hlast)
  have hplain : ∀ c ∈ base, slash c = false := fun c hc => by
    simpa using List.mem_rtakeWhile_imp hc
  have hbasename : posixBasename path = base := by
    simp only [posixBasename, if_neg hne, ← hstripped, if_neg hpos, ← hbase]
  have hdirname : posixDirname path =
      (if front = [] then ['.'] else if front.rdropWhile slash = [] then ['/']
        else front.rdropWhile slash) := by
    simp only [posixDirname, if_neg hne, ← hstripped, if_neg hpos, ← hfront]
  by_cases hnil : front = []
  · rw [hnil, List.nil_append] at hpath
    exact ⟨[], 0, base, _, hpath, ⟨hbase_ne, hplain⟩, hbasename, hdirname.trans (if_pos hnil),
      fun _ => rfl⟩
  have hslashes : front.rtakeWhile slash ≠ [] := fun hnone => by
    have hlast := List.rtakeWhile_eq_nil_iff.mp hnone hnil
    exact List.rdropWhile_last_not (!slash ·) stripped hnil (by simpa using hlast)
  have hlength : (front.rtakeWhile slash).length ≠ 0 := by simpa using hslashes
  refine ⟨front.rdropWhile slash, _, base, (path.rtakeWhile slash).length, ?_,
    ⟨hbase_ne, hplain⟩, hbasename, ?_, fun hzero => absurd hzero hlength⟩
  · rw [← replicate_of_slashes fun c => List.mem_rtakeWhile_imp,
      List.rdropWhile_append_rtakeWhile]
    exact hpath
  · rw [hdirname, if_neg hnil, if_neg hlength]

lemma normalized_join (h : ∃ c ∈ path, slash c = false) :
    normalized (posixDirname path ++ '/' :: posixBasename path) = normalized path := by
  obtain ⟨dir, n, base, k, hpath, ⟨hbase, hplain⟩, hbasename, hdirname, hdir⟩ := exists_parts h
  have hempty : components ['.'] = [] ∧ components ['/'] = [] ∧ components [] = [] := by decide
  rw [hbasename, hdirname, normalized, normalized, components_cons, hpath, components_trailing]
  cases n with
  | zero =>
    obtain rfl := hdir rfl
    obtain ⟨c, base, rfl⟩ := List.exists_cons_of_ne_nil hbase
    simp [hplain c List.mem_cons_self, hempty.1, show slash '.' = false from rfl]
  | succ n =>
    rw [components_middle]
    cases dir with
    | nil => simp [hempty.2, List.replicate_succ]
    | cons c dir => simp

/-- **Paths.** The two functions agree with POSIX, and their results can be joined to a path that
denotes the same, exactly if the path is not empty. -/
theorem paths_agree_iff (path : List Char) :
    (dirname path = posixDirname path ∧ basename path = posixBasename path ∧
      ((∃ c ∈ path, c ≠ '/') →
        normalized (dirname path ++ '/' :: basename path) = normalized path)) ↔ path ≠ [] := by
  constructor
  · rintro ⟨hdir, -, -⟩ rfl
    revert hdir
    decide
  intro hne
  rw [dirname_eq hne, basename_eq hne]
  refine ⟨rfl, rfl, ?_⟩
  rintro ⟨c, hc, hslash⟩
  exact normalized_join ⟨c, hc, by simpa [slash] using hslash⟩

/-- POSIX has `.` for both. -/
theorem empty_path :
    dirname [] = ['/'] ∧ posixDirname [] = ['.'] ∧ basename [] = [] ∧ posixBasename [] = ['.'] := by
  decide

end Yass.Core
