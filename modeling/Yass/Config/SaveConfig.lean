import Yass.Config.RateFlag

/-!
# Saving the configuration and reading it again

`SaveConfig` changes the JSON object that is in the file, and `ReadConfig` of a new process sets the
flags from it.

* `Key`, `Deprecated` — the members of the object that stand for flags, and old ones.
* `FlagValue`, `Flags` — a flag has a value of its own kind. The names of the ciphers are given.

Source: `config/config.cpp`, `config/config_impl.cpp`, `config/config_impl_local.hpp`. Members that
no flag stands for are left as they are, and `ui_display_realtime_status` is only there on macOS.
-/

namespace Yass.Config

/-! ## Values -/

/-- `Json::Value`. -/
inductive Value where
  | null
  | bool (b : Bool)
  | int (i : ℤ)
  | str (text : List Char)
  /-- An array; `none` is an element that is not a string. -/
  | arr (items : List (Option (List Char)))
  | other
  deriving DecidableEq, Repr

inductive Kind where
  | text
  | port
  | method
  | rate
  | bool
  | int
  | list
  deriving DecidableEq, Repr

inductive Key where
  | server | serverSni | serverPort | method | username | password | localHost | localPort
  | fastOpen | fastOpenConnect | dohUrl | dotHost | connectTimeout | tcpNodelay | limitRate
  | tcpKeepAlive | tcpKeepAliveCnt | tcpKeepAliveIdleTimeout | tcpKeepAliveInterval
  | tcpCongestionAlgorithm | cacert | capath | certificateChainFile | privateKeyFile
  | privateKeyPassword | insecureMode | enablePostQuantumKyber | tls13EarlyData | proxy | listen
  deriving DecidableEq, Repr

def Key.kind : Key → Kind
  | .server | .serverSni | .username | .password | .localHost | .dohUrl | .dotHost
  | .tcpCongestionAlgorithm | .cacert | .capath | .certificateChainFile | .privateKeyFile
  | .privateKeyPassword => .text
  | .serverPort | .localPort => .port
  | .method => .method
  | .limitRate => .rate
  | .fastOpen | .fastOpenConnect | .tcpNodelay | .tcpKeepAlive | .insecureMode
  | .enablePostQuantumKyber | .tls13EarlyData => .bool
  | .connectTimeout | .tcpKeepAliveCnt | .tcpKeepAliveIdleTimeout | .tcpKeepAliveInterval => .int
  | .proxy | .listen => .list

inductive Deprecated where
  | threads
  | timeout
  | congestionAlgorithm
  deriving DecidableEq, Repr

inductive Name where
  | flag (key : Key)
  | deprecated (name : Deprecated)
  deriving DecidableEq, Repr

abbrev Root := Name → Option Value

/-- The ciphers: `to_cipher_method_str` and `to_cipher_method` are made from one table. -/
structure Ciphers where
  M : Type
  str : M → List Char
  parse : List Char → Option M
  parse_str : ∀ m, parse (str m) = some m

inductive FlagValue (M : Type) where
  | text (t : List Char)
  | port (p : UInt16)
  | method (m : M)
  | rate (n : Fin (2 ^ 63))
  | bool (b : Bool)
  | int (i : Int32)
  | list (l : List (List Char))

variable {C : Ciphers}

def FlagValue.kind {M : Type} : FlagValue M → Kind
  | .text _ => .text
  | .port _ => .port
  | .method _ => .method
  | .rate _ => .rate
  | .bool _ => .bool
  | .int _ => .int
  | .list _ => .list

structure Flags (C : Ciphers) where
  value : Key → FlagValue C.M
  typed : ∀ key, (value key).kind = key.kind

/-- The flags of a new process: `--proxy` and `--listen` are empty. -/
structure Defaults (C : Ciphers) extends Flags C where
  proxy_eq : value .proxy = .list []
  listen_eq : value .listen = .list []

/-! ## Members -/

/-- `WriteImpl`, for a type that is not a list. -/
def encode : FlagValue C.M → Value
  | .text t => .str t
  | .port p => .int p.toNat
  | .method m => .str (C.str m)
  | .rate n => .str (unparseRateFlag n)
  | .bool b => .bool b
  | .int i => .int i.toInt
  | .list l => .arr (l.map some)

/-- `AbslParseFlag` of a list. -/
def splitComma (text : List Char) : List (List Char) :=
  if text.isEmpty then [] else text.splitOn ','

/-- `ConfigImpl::Read`. -/
def decode (C : Ciphers) : Kind → Value → Option (FlagValue C.M)
  | .text, .str t => some (.text t)
  | .port, .int i => if 0 ≤ i ∧ i ≤ 65535 then some (.port (UInt16.ofNat i.toNat)) else none
  | .method, .str t => (C.parse t).map .method
  | .rate, .str t =>
    match parseRateFlag t with
    | some (.ok n) => if h : n < 2 ^ 63 then some (.rate ⟨n, h⟩) else none
    | _ => none
  | .bool, .bool b => some (.bool b)
  | .int, .int i => if -2 ^ 31 ≤ i ∧ i < 2 ^ 31 then some (.int (Int32.ofInt i)) else none
  | .list, .arr items => if none ∈ items then none else some (.list (items.filterMap id))
  | .list, .str t => some (.list (splitComma t))
  | _, _ => none

/-- `ConfigImpl::Write`: the member that is left where `old` was. A list is appended to what is
there. -/
def cell (old : Option Value) : FlagValue C.M → Option Value
  | .list l =>
    match old with
    | none | some .null => some (if l = [] then .null else .arr (l.map some))
    | some (.arr items) => some (.arr (items ++ l.map some))
    | some value => if l = [] then some value else none
  | v => some (encode v)

lemma decode_encode (v : FlagValue C.M) : decode C v.kind (encode v) = some v := by
  cases v with
  | text t => rfl
  | port p =>
    have hlt := p.toNat_lt
    rw [FlagValue.kind, encode, decode, if_pos (by omega), Int.toNat_natCast, UInt16.ofNat_toNat]
  | method m => rw [FlagValue.kind, encode, decode, C.parse_str, Option.map_some]
  | rate n =>
    have hne : unparseRateFlag n ≠ [] := (denotes_unparseRateFlag n).ne_nil
    have hparse := parseRateFlag_of_denotes (denotes_unparseRateFlag n) hne
    rw [if_pos n.isLt] at hparse
    rw [FlagValue.kind, encode, decode, hparse]
    exact dif_pos n.isLt
  | bool b => rfl
  | int i =>
    have hle := i.le_toInt
    have hlt := i.toInt_lt
    rw [FlagValue.kind, encode, decode, if_pos ⟨by omega, by omega⟩, Int32.ofInt_toInt]
  | list l =>
    have hnone : none ∉ l.map some := by simp
    rw [FlagValue.kind, encode, decode, if_neg hnone, List.filterMap_map]
    simp

def ListOk (old : Option Value) (l : List (List Char)) : Prop :=
  match old with
  | some (.arr items) => items = [] ∨ l = [] ∧ none ∈ items
  | some (.str t) => t = []
  | _ => True

lemma splitComma_eq_nil (t : List Char) : splitComma t = [] ↔ t = [] := by
  unfold splitComma
  by_cases ht : t = []
  · simp [ht]
  · rw [if_neg (by simpa using ht)]
    exact iff_of_false (List.splitOn_ne_nil _ _) ht

lemma list_restored_iff {old : Option Value} {l : List (List Char)} {value : Value}
    (h : cell (C := C) old (.list l) = some value) :
    (decode C .list value).getD (.list []) = .list l ↔ ListOk old l := by
  rcases old with _ | _ | b | i | t | items | _
  case some.arr =>
    cases h
    by_cases hnone : none ∈ items
    · rcases eq_or_ne items [] with rfl | hne
      · simp at hnone
      · simp [decode, ListOk, hnone, hne, eq_comm]
    have hall : (∀ item ∈ items, item = none) ↔ items = [] := by
      rw [List.eq_nil_iff_forall_not_mem]
      exact ⟨fun hitems item hitem => hnone (hitems item hitem ▸ hitem),
        fun hitems item hitem => absurd hitem (hitems item)⟩
    simp [decode, ListOk, hnone, List.filterMap_append, hall]
  case none | some.null =>
    cases h
    by_cases hl : l = []
    · simp [hl, decode, ListOk]
    · simp [hl, decode, ListOk]
  all_goals
    simp only [cell] at h
    split_ifs at h with hl
    cases h
    simp [hl, decode, ListOk, splitComma_eq_nil]

/-! ## Saving -/

/-- `ProgramType`. -/
inductive ProgramType where
  | unspec | serverDefault | unittestDefault | benchmarkDefault | clientDefault | clientGui
  | clientLib
  deriving DecidableEq, Repr

/-- `pType_IsClient`. -/
def ProgramType.isClient : ProgramType → Bool
  | .clientDefault | .clientGui | .clientLib => true
  | _ => false

/-- `pType_IsServer`. -/
def ProgramType.isServer (p : ProgramType) : Bool := p = .serverDefault

inductive Action where
  | write (key : Key)
  | delete (name : Deprecated)
  deriving DecidableEq, Repr

def writes (keys : List Key) : List Action := keys.map .write

/-- The calls in `SaveConfig`. -/
def saveActions (p : ProgramType) : List Action :=
  writes [.server, .serverSni, .serverPort, .method, .username, .password, .localHost, .localPort,
    .fastOpen, .fastOpenConnect] ++ .delete .threads ::
  writes [.dohUrl, .dotHost] ++ .delete .timeout ::
  writes [.connectTimeout, .tcpNodelay, .limitRate, .tcpKeepAlive, .tcpKeepAliveCnt,
    .tcpKeepAliveIdleTimeout, .tcpKeepAliveInterval] ++ .delete .congestionAlgorithm ::
  writes [.tcpCongestionAlgorithm, .cacert, .capath, .certificateChainFile] ++
  writes (if p.isServer then [.privateKeyFile, .privateKeyPassword] else []) ++
  writes (if p.isClient then [.insecureMode, .enablePostQuantumKyber] else []) ++
  writes [.tls13EarlyData] ++
  writes (if p = .clientDefault then [.proxy, .listen] else [])

/-- One call, with `all_fields_written`. -/
def saveStep (flags : Flags C) (s : Root × Bool) : Action → Option (Root × Bool)
  | .write key =>
    (cell (s.1 (.flag key)) (flags.value key)).map fun value =>
      (Function.update s.1 (.flag key) (some value), s.2 && true)
  | .delete name => some (Function.update s.1 (.deprecated name) none, s.2)

/-- `SaveConfig`. `prior` is the object in the file, if it can be read, and `closed` is whether the
file was written. -/
def saveConfig (p : ProgramType) (prior : Option Root) (flags : Flags C) (closed : Bool) :
    Option (Root × Bool) :=
  ((saveActions p).foldlM (saveStep flags) (prior.getD fun _ => none, false)).map fun s =>
    (s.1, s.2 && closed)

/-! ## Reading -/

def kReadBufferSize : ℕ := 32768

/-- Calls of `Read` for flags with members of their own. -/
def own (keys : List Key) : List (Name × Key) := keys.map fun key => (.flag key, key)

/-- The calls of `Read` for the lists. -/
def listReads (p : ProgramType) : List (Name × Key) :=
  own (if p = .clientDefault then [.proxy, .listen] else [])

def requiredReads (p : ProgramType) (skip : Bool) : List (Name × Key) :=
  own (if skip then [] else [.server, .serverPort, .username, .password, .method] ++
    (if p.isClient then [.localHost, .localPort] else []))

/-- The other calls of `Read`. -/
def optionalReads (p : ProgramType) (skip : Bool) : List (Name × Key) :=
  own (if skip then [] else [.serverSni]) ++
  own [.fastOpen, .fastOpenConnect, .dohUrl, .dotHost] ++
  (.deprecated .timeout, .connectTimeout) ::
  own [.connectTimeout, .tcpNodelay, .limitRate, .tcpKeepAlive, .tcpKeepAliveCnt,
    .tcpKeepAliveIdleTimeout, .tcpKeepAliveInterval] ++
  (.deprecated .congestionAlgorithm, .tcpCongestionAlgorithm) ::
  own [.tcpCongestionAlgorithm, .cacert, .capath, .certificateChainFile] ++
  own (if p.isServer then [.privateKeyFile, .privateKeyPassword] else []) ++
  own (if p.isClient then [.insecureMode] else []) ++
  own [.enablePostQuantumKyber, .tls13EarlyData]

/-- `Read`: what the member holds. -/
def loaded (C : Ciphers) (root : Root) (r : Name × Key) : Option (FlagValue C.M) :=
  (root r.1).bind (decode C r.2.kind)

/-- The calls of `Read`, one after the other. -/
def readAll (root : Root) (value : Key → FlagValue C.M) (rs : List (Name × Key)) :
    Key → FlagValue C.M :=
  rs.foldl (fun value r => Function.update value r.2 ((loaded C root r).getD (value r.2))) value

def correct {M : Type} : FlagValue M → FlagValue M
  | .int i => .int (if i < 0 then 0 else i)
  | v => v

def isEmptyList {M : Type} : FlagValue M → Bool
  | .list [] => true
  | _ => false

def skips (p : ProgramType) (value : Key → FlagValue C.M) : Bool :=
  p = .clientDefault && !isEmptyList (value .proxy) && !isEmptyList (value .listen)

/-- `ReadConfig`, of an object whose text has `size` bytes. -/
def readConfig (p : ProgramType) (defaults : Defaults C) (size : ℕ) (root : Root) :
    (Key → FlagValue C.M) × Bool :=
  if kReadBufferSize ≤ size then (defaults.value, false)
  else
    let value := readAll root defaults.value (listReads p)
    let skip := skips p value
    let required := requiredReads p skip
    let value := readAll root value (required ++ optionalReads p skip)
    (fun key => correct (value key), required.all fun r => (loaded C root r).isSome)

/-! ## What is restored -/

variable {flags : Flags C} {root root' : Root} {all all' : Bool}

lemma nodup_saveActions (p : ProgramType) : (saveActions p).Nodup := by
  cases p <;> decide

lemma save_at {as : List Action} (key : Key)
    (h : as.foldlM (saveStep flags) (root, all) = some (root', all')) :
    (all = false → all' = false) ∧
      (.write key ∉ as → root' (.flag key) = root (.flag key)) ∧
      (as.Nodup → .write key ∈ as → ∃ value,
        cell (root (.flag key)) (flags.value key) = some value ∧
          root' (.flag key) = some value) := by
  induction as generalizing root all with
  | nil =>
    cases h
    exact ⟨id, fun _ => rfl, fun _ hmem => absurd hmem List.not_mem_nil⟩
  | cons a as ih =>
    rw [List.foldlM_cons] at h
    obtain ⟨⟨root₁, all₁⟩, hstep, h⟩ := Option.bind_eq_some_iff.mp h
    obtain ⟨hall, hsame, hcell⟩ := ih h
    cases a with
    | delete name =>
      cases hstep
      refine ⟨hall, fun hmem => ?_, fun hnodup hmem => ?_⟩
      · exact hsame fun hin => hmem (List.mem_cons_of_mem _ hin)
      · exact hcell (List.nodup_cons.mp hnodup).2 (by simpa using hmem)
    | write key' =>
      obtain ⟨value, hvalue, heq⟩ := Option.map_eq_some_iff.mp hstep
      cases heq
      refine ⟨fun hfalse => hall (by rw [hfalse]; rfl), fun hmem => ?_, fun hnodup hmem => ?_⟩
      · have hne : key ≠ key' := fun heq => hmem (heq ▸ List.mem_cons_self)
        rw [hsame fun hin => hmem (List.mem_cons_of_mem _ hin),
          Function.update_of_ne (by simpa using hne)]
      obtain ⟨hnot, hnodup⟩ := List.nodup_cons.mp hnodup
      by_cases heq : key = key'
      · subst heq
        exact ⟨value, hvalue, by rw [hsame hnot, Function.update_self]⟩
      have hin : .write key ∈ as := by simpa [heq] using hmem
      have hold := hcell hnodup hin
      rwa [Function.update_of_ne (by simpa using heq)] at hold

lemma readAll_at (root : Root) (value : Key → FlagValue C.M) (rs : List (Name × Key)) (key : Key) :
    (rs.reverse.find? (·.2 = key) = none → readAll root value rs key = value key) ∧
      ∀ r v, rs.reverse.find? (·.2 = key) = some r → loaded C root r = some v →
        readAll root value rs key = v := by
  induction rs using List.reverseRecOn with
  | nil => exact ⟨fun _ => rfl, fun r v h => absurd h (by simp)⟩
  | append_singleton rs r ih =>
    have hlast : readAll root value (rs ++ [r]) = Function.update (readAll root value rs) r.2
        ((loaded C root r).getD (readAll root value rs r.2)) := by
      rw [readAll, List.foldl_append]
      rfl
    rw [hlast, List.reverse_append, List.reverse_singleton, List.singleton_append, List.find?_cons]
    by_cases heq : r.2 = key
    · subst heq
      refine ⟨fun h => absurd h (by simp), fun r' v h hv => ?_⟩
      obtain rfl : r = r' := by simpa using h
      rw [Function.update_self, hv, Option.getD_some]
    · rw [Function.update_of_ne (Ne.symm heq)]
      simpa [heq] using ih

/-- The calls of `Read` but those of the lists. -/
def reads (p : ProgramType) (skip : Bool) : List (Name × Key) :=
  requiredReads p skip ++ optionalReads p skip

def isRead (p : ProgramType) (skip : Bool) (key : Key) : Bool :=
  (reads p skip).any (·.2 = key)

def Key.keys : List Key :=
  [.server, .serverSni, .serverPort, .method, .username, .password, .localHost, .localPort,
    .fastOpen, .fastOpenConnect, .dohUrl, .dotHost, .connectTimeout, .tcpNodelay, .limitRate,
    .tcpKeepAlive, .tcpKeepAliveCnt, .tcpKeepAliveIdleTimeout, .tcpKeepAliveInterval,
    .tcpCongestionAlgorithm, .cacert, .capath, .certificateChainFile, .privateKeyFile,
    .privateKeyPassword, .insecureMode, .enablePostQuantumKyber, .tls13EarlyData, .proxy, .listen]

lemma Key.mem_keys (key : Key) : key ∈ Key.keys := by
  cases key <;> decide

lemma find_reads (p : ProgramType) (skip : Bool) (key : Key) :
    (reads p skip).reverse.find? (·.2 = key) =
      if isRead p skip key then some (.flag key, key) else none := by
  have hall : ∀ key ∈ Key.keys, (reads p skip).reverse.find? (·.2 = key) =
      if isRead p skip key then some (.flag key, key) else none := by
    cases p <;> cases skip <;> decide +kernel
  exact hall key key.mem_keys

lemma isRead_of_kind (p : ProgramType) (skip : Bool) (key : Key) :
    (key.kind = .list → isRead p skip key = false) ∧
      (key.kind = .int → isRead p skip key = true) := by
  have hall : ∀ key ∈ Key.keys, (key.kind = .list → isRead p skip key = false) ∧
      (key.kind = .int → isRead p skip key = true) := by
    cases p <;> cases skip <;> decide +kernel
  exact hall key key.mem_keys

def KeyOk (p : ProgramType) (prior : Root) (flags : Flags C) (defaults : Defaults C) (key : Key) :
    Prop :=
  match flags.value key with
  | .list l => ListOk (prior (.flag key)) l
  | .int i => ¬i < 0
  | v => isRead p (skips p flags.value) key = true ∨ defaults.value key = v

variable {p : ProgramType} {prior : Root} {defaults : Defaults C} {key : Key}

lemma Flags.kind_eq (flags : Flags C) {v : FlagValue C.M} (hv : flags.value key = v) :
    key.kind = v.kind := by
  rw [← hv, flags.typed]

lemma correct_of_kind {M : Type} {v : FlagValue M} (h : v.kind ≠ .int) : correct v = v := by
  cases v with
  | int i => exact absurd rfl h
  | _ => rfl

lemma correct_int_eq_iff {M : Type} (i : Int32) :
    correct (FlagValue.int i : FlagValue M) = .int i ↔ ¬i < 0 := by
  simp only [correct]
  by_cases hi : i < 0
  · rw [if_pos hi]
    refine iff_of_false (fun heq => ?_) (not_not.mpr hi)
    cases heq
    exact absurd hi (by decide)
  · rw [if_neg hi]
    exact iff_of_true rfl hi

lemma restored_iff_of_kind {value : Key → FlagValue C.M} (hkind : key.kind ≠ .list) {new : Value}
    (hcell : cell (prior (.flag key)) (flags.value key) = some new)
    (hroot : root (.flag key) = some new) (hvalue : value key = defaults.value key) :
    correct (readAll root value (reads p (skips p flags.value)) key) = flags.value key ↔
      KeyOk p prior flags defaults key := by
  obtain ⟨hnone, hsome⟩ := readAll_at root value (reads p (skips p flags.value)) key
  rw [find_reads] at hnone hsome
  have hkey : loaded C root (.flag key, key) = some (flags.value key) := by
    have henc : cell (prior (.flag key)) (flags.value key) = some (encode (flags.value key)) := by
      rcases hv : flags.value key with _ | _ | _ | _ | _ | _ | l
      all_goals first | rfl | exact absurd (flags.kind_eq hv) hkind
    rw [loaded, hroot, ← hcell, henc, Option.bind_some, ← flags.typed key, decode_encode]
  by_cases hread : isRead p (skips p flags.value) key
  · rw [hsome _ _ (if_pos hread) hkey]
    rcases hv : flags.value key with _ | _ | _ | _ | _ | i | l
    case int => rw [correct_int_eq_iff, KeyOk, hv]
    case list => exact absurd (flags.kind_eq hv) hkind
    all_goals
      rw [KeyOk, hv]
      exact iff_of_true rfl (Or.inl hread)
  have hint : key.kind ≠ .int := fun h => hread ((isRead_of_kind p _ key).2 h)
  rw [hnone (if_neg hread), hvalue, correct_of_kind (by rw [defaults.typed]; exact hint)]
  rcases hv : flags.value key with _ | _ | _ | _ | _ | i | l
  case int => exact absurd (flags.kind_eq hv) hint
  case list => exact absurd (flags.kind_eq hv) hkind
  all_goals
    rw [KeyOk, hv]
    exact ⟨Or.inr, fun h => h.resolve_left hread⟩

lemma restored_list_iff {value : Key → FlagValue C.M} {skip : Bool} (hkind : key.kind = .list)
    {new : Value} (hcell : cell (prior (.flag key)) (flags.value key) = some new)
    (hroot : root (.flag key) = some new)
    (hvalue : value key = (loaded C root (.flag key, key)).getD (.list [])) :
    (correct (readAll root value (reads p skip) key) = flags.value key ↔
      KeyOk p prior flags defaults key) ∧
    (correct (readAll root value (reads p skip) key) = flags.value key →
      value key = flags.value key) := by
  obtain ⟨hnone, -⟩ := readAll_at root value (reads p skip) key
  rw [find_reads, (isRead_of_kind p skip key).1 hkind] at hnone
  obtain ⟨l, hl⟩ : ∃ l, flags.value key = .list l := by
    rcases hv : flags.value key with _ | _ | _ | _ | _ | _ | l
    case list => exact ⟨l, rfl⟩
    all_goals exact absurd (hkind.symm.trans (flags.kind_eq hv)) (by simp [FlagValue.kind])
  have hlist : ∀ v : FlagValue C.M, correct v = .list l ↔ v = .list l := by
    intro v
    cases v <;> simp [correct]
  rw [hnone rfl, hl, hlist]
  refine ⟨?_, id⟩
  rw [hl] at hcell
  rw [hvalue, KeyOk, hl]
  rw [loaded, hroot, Option.bind_some, hkind]
  exact list_restored_iff hcell

lemma Key.of_list (hkind : key.kind = .list) : key = .proxy ∨ key = .listen := by
  cases key <;> first | exact .inl rfl | exact .inr rfl | cases hkind

lemma write_list_iff (p : ProgramType) (hkind : key.kind = .list) :
    .write key ∈ saveActions p ↔ p = .clientDefault := by
  rcases Key.of_list hkind with rfl | rfl <;> cases p <;> decide

lemma readAll_listReads (root : Root) (defaults : Defaults C) (hkind : key.kind = .list)
    (hp : p = .clientDefault) : readAll root defaults.value (listReads p) key =
      (loaded C root (.flag key, key)).getD (.list []) := by
  subst hp
  rcases Key.of_list hkind with rfl | rfl
  · rw [← defaults.proxy_eq]
    rfl
  · rw [← defaults.listen_eq]
    rfl

lemma find_listReads (p : ProgramType) (hkind : key.kind ≠ .list) :
    (listReads p).reverse.find? (·.2 = key) = none := by
  have hne : ∀ r ∈ listReads p, r.2.kind = .list := by cases p <;> decide
  rw [List.find?_eq_none]
  intro r hr heq
  have heq : r.2 = key := by simpa using heq
  exact hkind (heq ▸ hne r (List.mem_reverse.mp hr))

def sampleCiphers : Ciphers := ⟨Unit, fun _ => [], fun _ => some (), fun _ => rfl⟩

/-- Flags that are all empty, but for `--proxy`. -/
def sampleFlags (proxy : List (List Char)) : Flags sampleCiphers where
  value
    | .proxy => .list proxy
    | key =>
      match key.kind with
      | .text => .text []
      | .port => .port 443
      | .method => .method ()
      | .rate => .rate 0
      | .bool => .bool true
      | .int => .int 30
      | .list => .list []
  typed key := by cases key <;> rfl

def sampleDefaults : Defaults sampleCiphers := ⟨sampleFlags [], rfl, rfl⟩

end Yass.Config
