import Yass.Lib.Lru
import Yass.Lib.Run

/-!
# `SSLClientSessionCache`: the sessions that a client can resume

* `Ssl` — what the cache uses of an `SSL_SESSION`, and what a copy without early data keeps.
* `Entry` — the two sessions of a key, with `push`, `pop` and `expireSessions`. A stored session is
  marked with the number of the `Insert` it came with.
* `lookup`, `insert`, `clearEarlyData`, `flush` — the methods; `none` is a null pointer that is
  used.
* `Good` — what holds between two calls. `sound_of_run` is what a user of the cache relies on.

The map from keys to entries is the LRU cache of `Lib/Lru`, whose limit `0` means none. The build
with `concurrent_lru_cache` is left out.

Source: `net/ssl_client_session_cache.cpp`.
-/

namespace Yass.Net.SessionCache

structure Ssl (S : Type) where
  shouldBeSingleUse : S → Bool
  getTime : S → UInt64
  getTimeout : S → UInt32
  copyWithoutEarlyData : S → S
  singleUse_copy (s : S) : shouldBeSingleUse (copyWithoutEarlyData s) = shouldBeSingleUse s
  time_copy (s : S) : getTime (copyWithoutEarlyData s) = getTime s
  timeout_copy (s : S) : getTimeout (copyWithoutEarlyData s) = getTimeout s

variable {K S : Type} (ssl : Ssl S)

/-! ## The code -/

def isExpired (session : S) (now : Int64) : Bool :=
  if now < 0 then true
  else
    let nowU64 := now.toUInt64
    -- one second for the clocks that differ; the subtraction and the sum wrap around
    nowU64 < ssl.getTime session - 1 ||
      nowU64 ≥ ssl.getTime session + (ssl.getTimeout session).toUInt64

structure Held (S : Type) where
  session : S
  /-- The number of the `Insert` that brought it. -/
  number : ℕ
  deriving DecidableEq, Repr

structure Entry (S : Type) where
  /-- `sessions[0]`. -/
  first : Option (Held S)
  /-- `sessions[1]`. -/
  second : Option (Held S)
  deriving DecidableEq, Repr

namespace Entry

def push (e : Entry S) (session : Held S) : Entry S :=
  match e.first with
  | some h =>
    if ssl.shouldBeSingleUse h.session then ⟨some session, some h⟩ else ⟨some session, e.second⟩
  | none => ⟨some session, e.second⟩

def pop (e : Entry S) : Option (Held S) × Entry S :=
  match e.first with
  | none => (none, e)
  | some h => if ssl.shouldBeSingleUse h.session then (some h, ⟨e.second, none⟩) else (some h, e)

/-- `ExpireSessions`: whether the entry can go, and what is left of it. -/
def expireSessions (e : Entry S) (now : Int64) : Bool × Entry S :=
  match e.first with
  | none => (true, e)
  | some h =>
    if isExpired ssl h.session now then (true, e)
    else
      match e.second with
      | some h' => if isExpired ssl h'.session now then (false, ⟨e.first, none⟩) else (false, e)
      | none => (false, e)

/-- The loop of `ClearEarlyData`. -/
def copied (e : Entry S) : Entry S :=
  let copy : Held S → Held S := fun h => { h with session := ssl.copyWithoutEarlyData h.session }
  ⟨e.first.map copy, e.second.map copy⟩

end Entry

structure Config where
  maxEntries : ℕ := 1024
  expirationCheckCount : ℕ := 256
  deriving DecidableEq, Repr

structure Cache (K S : Type) where
  cache : List (K × Entry S)
  lookupsSinceFlush : ℕ
  deriving DecidableEq, Repr

namespace Cache

def flushExpiredSessions (c : Cache K S) (now : Int64) : Cache K S :=
  { c with
    cache := c.cache.filterMap fun (key, entry) =>
      match entry.expireSessions ssl now with
      | (true, _) => none
      | (false, entry) => some (key, entry) }

/-- `Lookup`, behind the flush. -/
def lookupEntry [DecidableEq K] (c : Cache K S) (cacheKey : K) (now : Int64) :
    Option (Cache K S × Option (Held S)) :=
  match Lru.get cacheKey c.cache with
  | none => some (c, none)
  | some (entry, _) => do
    let (session, entry) := entry.pop ssl
    let others := Lru.without cacheKey c.cache
    let c :=
      match entry.expireSessions ssl now with
      | (true, _) => { c with cache := others }
      | (false, entry) => { c with cache := (cacheKey, entry) :: others }
    let h ← session
    some (c, if isExpired ssl h.session now then none else some h)

/-- `Lookup`. The clock is read once for the flush, and once for the entry. -/
def lookup [DecidableEq K] (config : Config) (c : Cache K S) (cacheKey : K) (flushNow now : Int64) :
    Option (Cache K S × Option (Held S)) :=
  let c := { c with lookupsSinceFlush := c.lookupsSinceFlush + 1 }
  let c :=
    if c.lookupsSinceFlush ≥ config.expirationCheckCount then
      ({ c with lookupsSinceFlush := 0 } : Cache K S).flushExpiredSessions ssl flushNow
    else c
  c.lookupEntry ssl cacheKey now

def insert [DecidableEq K] (config : Config) (c : Cache K S) (cacheKey : K) (session : Held S) :
    Cache K S :=
  match Lru.get cacheKey c.cache with
  | some (entry, _) =>
    { c with cache := (cacheKey, entry.push ssl session) :: Lru.without cacheKey c.cache }
  | none =>
    { c with
      cache := Lru.put config.maxEntries cacheKey ((⟨none, none⟩ : Entry S).push ssl session)
        c.cache }

def clearEarlyData [DecidableEq K] (c : Cache K S) (cacheKey : K) : Cache K S :=
  match Lru.get cacheKey c.cache with
  | some (entry, _) =>
    { c with cache := (cacheKey, entry.copied ssl) :: Lru.without cacheKey c.cache }
  | none => c

def flush (c : Cache K S) : Cache K S := { c with cache := [] }

end Cache

/-! ## Runs -/

inductive Call (K S : Type) where
  | insert (key : K) (session : S)
  | lookup (key : K) (flushNow now : Int64)
  | clearEarlyData (key : K)
  | flush
  deriving DecidableEq, Repr

/-- What a `Lookup` has returned, and when. -/
structure Returned (K S : Type) where
  key : K
  held : Held S
  now : Int64
  deriving DecidableEq, Repr

structure World (K S : Type) where
  cache : Cache K S
  inserted : List (K × S)
  returned : List (Returned K S)
  deriving DecidableEq, Repr

def start : World K S := ⟨⟨[], 0⟩, [], []⟩

def step [DecidableEq K] (config : Config) (w : World K S) : Call K S → Option (World K S)
  | .insert key session =>
    some { w with
      cache := w.cache.insert ssl config key ⟨session, w.inserted.length⟩
      inserted := w.inserted ++ [(key, session)] }
  | .lookup key flushNow now => do
    let (cache, session) ← w.cache.lookup ssl config key flushNow now
    some { w with
      cache := cache
      returned := w.returned ++ (session.map fun h => ⟨key, h, now⟩).toList }
  | .clearEarlyData key => some { w with cache := w.cache.clearEarlyData ssl key }
  | .flush => some { w with cache := w.cache.flush }

/-! ## What is stored -/

def Ssl.Same (s s' : S) : Prop :=
  ssl.shouldBeSingleUse s = ssl.shouldBeSingleUse s' ∧ ssl.getTime s = ssl.getTime s' ∧
    ssl.getTimeout s = ssl.getTimeout s'

/-- The session came with an `Insert` of this key. -/
def Origin (inserted : List (K × S)) (key : K) (h : Held S) : Prop :=
  ∃ s, inserted[h.number]? = some (key, s) ∧ ssl.Same h.session s

/-- A session of this key that can be returned: if it is for one use, it was not. -/
structure Stored (w : World K S) (key : K) (h : Held S) : Prop where
  origin : Origin ssl w.inserted key h
  unused : ssl.shouldBeSingleUse h.session = true → ∀ r ∈ w.returned, r.held.number ≠ h.number

structure Proper (w : World K S) (key : K) (e : Entry S) : Prop where
  first : ∀ h ∈ e.first, Stored ssl w key h
  second : ∀ h ∈ e.second, Stored ssl w key h
  apart : ∀ h ∈ e.first, ∀ h' ∈ e.second, h.number ≠ h'.number

variable {ssl} {w w' : World K S} {key key' : K} {h : Held S} {e : Entry S} {now : Int64}

variable {inserted : List (K × S)}

lemma Origin.number_lt (ho : Origin ssl inserted key h) :
    h.number < inserted.length := by
  obtain ⟨s, hs, -⟩ := ho
  exact (List.getElem?_eq_some_iff.mp hs).1

lemma Origin.append (ho : Origin ssl inserted key h)
    (more : List (K × S)) : Origin ssl (inserted ++ more) key h := by
  obtain ⟨s, hs, hsame⟩ := ho
  exact ⟨s, by rw [List.getElem?_append_left (Origin.number_lt ⟨s, hs, hsame⟩), hs], hsame⟩

lemma Origin.number_ne {h' : Held S} (ho : Origin ssl inserted key h)
    (ho' : Origin ssl inserted key' h') (hkey : key ≠ key') : h.number ≠ h'.number := by
  obtain ⟨s, hs, -⟩ := ho
  obtain ⟨s', hs', -⟩ := ho'
  intro hnumber
  rw [hnumber, hs'] at hs
  exact hkey (Prod.mk.inj (Option.some.inj hs)).1.symm

lemma Stored.mono (hstored : Stored ssl w key h) {more : List (K × S)}
    (hinserted : w'.inserted = w.inserted ++ more) (hreturned : w'.returned ⊆ w.returned) :
    Stored ssl w' key h :=
  ⟨hinserted ▸ hstored.origin.append more,
    fun hsingle r hr => hstored.unused hsingle r (hreturned hr)⟩

lemma Proper.mono (hproper : Proper ssl w key e) {more : List (K × S)}
    (hinserted : w'.inserted = w.inserted ++ more) (hreturned : w'.returned ⊆ w.returned) :
    Proper ssl w' key e :=
  ⟨fun h hh => (hproper.first h hh).mono hinserted hreturned,
    fun h hh => (hproper.second h hh).mono hinserted hreturned, hproper.apart⟩

lemma Proper.of_other (hproper : Proper ssl w key e) {r : Returned K S}
    (hr : Origin ssl w.inserted r.key r.held) (hkey : r.key ≠ key)
    (hinserted : w'.inserted = w.inserted) (hreturned : w'.returned = w.returned ++ [r]) :
    Proper ssl w' key e := by
  have hstored : ∀ h, Stored ssl w key h → Stored ssl w' key h := by
    intro h hh
    refine ⟨hinserted ▸ hh.origin, fun hsingle r' hr' => ?_⟩
    rw [hreturned] at hr'
    rcases List.mem_append.mp hr' with hold | hnew
    · exact hh.unused hsingle r' hold
    · obtain rfl := List.mem_singleton.mp hnew
      exact hr.number_ne hh.origin hkey
  exact ⟨fun h hh => hstored h (hproper.first h hh), fun h hh => hstored h (hproper.second h hh),
    hproper.apart⟩

/-! ## The operations on an entry -/

lemma first_push (e : Entry S) (h : Held S) : (e.push ssl h).first = some h := by
  unfold Entry.push
  split
  · split_ifs
    · rfl
    · rfl
  · rfl

lemma Proper.push (hproper : Proper ssl w key e) {session : S}
    (hreturned : ∀ r ∈ w.returned, r.held.number < w.inserted.length) :
    Proper ssl { w with inserted := w.inserted ++ [(key, session)] } key
      (e.push ssl ⟨session, w.inserted.length⟩) := by
  have hold : Proper ssl { w with inserted := w.inserted ++ [(key, session)] } key e :=
    hproper.mono rfl (List.Subset.refl _)
  have hnew : Stored ssl { w with inserted := w.inserted ++ [(key, session)] } key
      ⟨session, w.inserted.length⟩ := by
    refine ⟨⟨session, ?_, rfl, rfl, rfl⟩, fun _ r hr => (hreturned r hr).ne⟩
    exact List.getElem?_concat_length
  -- the new session is in front, and what is behind it was in the entry
  have hplaced : ∀ second : Option (Held S),
      (∀ h' ∈ second, h' ∈ e.first ∨ h' ∈ e.second) →
      Proper ssl { w with inserted := w.inserted ++ [(key, session)] } key
        ⟨some ⟨session, w.inserted.length⟩, second⟩ := by
    intro second hsecond
    have hlt : ∀ h' ∈ second, h'.number < w.inserted.length := by
      intro h' hh'
      rcases hsecond h' hh' with hfirst | hsecond
      · exact (hproper.first h' hfirst).origin.number_lt
      · exact (hproper.second h' hsecond).origin.number_lt
    refine ⟨fun h hh => ?_, fun h' hh' => ?_, fun h hh h' hh' => ?_⟩
    · obtain rfl := Option.some.inj hh
      exact hnew
    · rcases hsecond h' hh' with hfirst | hsecond
      · exact hold.first h' hfirst
      · exact hold.second h' hsecond
    · obtain rfl := Option.some.inj hh
      exact (hlt h' hh').ne'
  unfold Entry.push
  split
  · rename_i h hh
    split_ifs
    · apply hplaced
      intro h' hh'
      obtain rfl := Option.some.inj hh'
      exact .inl hh
    · exact hplaced _ fun h' hh' => Or.inr hh'
  · exact hplaced _ fun h' hh' => Or.inr hh'

lemma Proper.pop (hproper : Proper ssl w key e) (hfirst : e.first ≠ none) (now : Int64) :
    ∃ h e', e.pop ssl = (some h, e') ∧ Stored ssl w key h ∧
      Proper ssl { w with returned := w.returned ++ [⟨key, h, now⟩] } key e' := by
  obtain ⟨h, hh⟩ := Option.ne_none_iff_exists'.mp hfirst
  have hstored := hproper.first h hh
  have hlater : ∀ h', Stored ssl w key h' →
      (ssl.shouldBeSingleUse h'.session = true → h.number ≠ h'.number) →
      Stored ssl { w with returned := w.returned ++ [⟨key, h, now⟩] } key h' := by
    intro h' hh' hne
    refine ⟨hh'.origin, fun hsingle r hr => ?_⟩
    rcases List.mem_append.mp hr with hold | hnew
    · exact hh'.unused hsingle r hold
    · obtain rfl := List.mem_singleton.mp hnew
      exact hne hsingle
  unfold Entry.pop
  rw [hh]
  by_cases hsingle : ssl.shouldBeSingleUse h.session
  · refine ⟨h, _, if_pos hsingle, hstored, ?_, by simp, by simp⟩
    intro h' hh'
    exact hlater h' (hproper.second h' hh') fun _ => hproper.apart h hh h' hh'
  refine ⟨h, _, if_neg hsingle, hstored, ?_, ?_, hproper.apart⟩
  · intro h' hh'
    obtain rfl : h = h' := Option.some.inj (hh.symm.trans hh')
    exact hlater h (hproper.first h hh') fun hs => absurd hs hsingle
  · intro h' hh'
    exact hlater h' (hproper.second h' hh') fun _ => hproper.apart h hh h' hh'

lemma Proper.expireSessions (hproper : Proper ssl w key e) {e' : Entry S}
    (hexpire : e.expireSessions ssl now = (false, e')) :
    Proper ssl w key e' ∧ e'.first ≠ none := by
  unfold Entry.expireSessions at hexpire
  split at hexpire
  · cases hexpire
  rename_i h hh
  split_ifs at hexpire with hexpired
  · cases hexpire
  have hne : e.first ≠ none := by
    rw [hh]
    simp
  split at hexpire
  · split_ifs at hexpire
    · cases hexpire
      exact ⟨⟨hproper.first, by simp, by simp⟩, hne⟩
    · cases hexpire
      exact ⟨hproper, hne⟩
  · cases hexpire
    exact ⟨hproper, hne⟩

lemma Stored.copied (hstored : Stored ssl w key h) :
    Stored ssl w key { h with session := ssl.copyWithoutEarlyData h.session } := by
  obtain ⟨s, hs, hsingle, htime, htimeout⟩ := hstored.origin
  refine ⟨⟨s, hs, ?_, ?_, ?_⟩, fun hsingle => hstored.unused ?_⟩
  · exact (ssl.singleUse_copy _).trans hsingle
  · exact (ssl.time_copy _).trans htime
  · exact (ssl.timeout_copy _).trans htimeout
  · exact (ssl.singleUse_copy _).symm.trans hsingle

lemma Proper.copied (hproper : Proper ssl w key e) : Proper ssl w key (e.copied ssl) := by
  refine ⟨fun h hh => ?_, fun h hh => ?_, fun h hh h' hh' => ?_⟩
  · obtain ⟨h₀, hh₀, rfl⟩ := Option.map_eq_some_iff.mp hh
    exact (hproper.first h₀ hh₀).copied
  · obtain ⟨h₀, hh₀, rfl⟩ := Option.map_eq_some_iff.mp hh
    exact (hproper.second h₀ hh₀).copied
  obtain ⟨h₀, hh₀, rfl⟩ := Option.map_eq_some_iff.mp hh
  obtain ⟨h₁, hh₁, rfl⟩ := Option.map_eq_some_iff.mp hh'
  exact hproper.apart h₀ hh₀ h₁ hh₁

/-! ## Between two calls -/

structure Good (ssl : Ssl S) (config : Config) (w : World K S) : Prop where
  entries : ∀ p ∈ w.cache.cache, Proper ssl w p.1 p.2 ∧ p.2.first ≠ none
  returned : ∀ r ∈ w.returned,
    Origin ssl w.inserted r.key r.held ∧ isExpired ssl r.held.session r.now = false
  once : w.returned.Pairwise fun r r' =>
    ssl.shouldBeSingleUse r'.held.session = true → r.held.number ≠ r'.held.number
  bounded : config.maxEntries = 0 ∨ w.cache.cache.length ≤ config.maxEntries

variable {config : Config}

lemma Good.with_cache (hgood : Good ssl config w) {c : Cache K S}
    (hentries : ∀ p ∈ c.cache, Proper ssl w p.1 p.2 ∧ p.2.first ≠ none)
    (hlength : config.maxEntries = 0 ∨ c.cache.length ≤ config.maxEntries) :
    Good ssl config { w with cache := c } where
  entries p hp := by
    obtain ⟨hproper, hfirst⟩ := hentries p hp
    exact ⟨hproper.mono (List.append_nil _).symm (List.Subset.refl _), hfirst⟩
  returned := hgood.returned
  once := hgood.once
  bounded := hlength

lemma Good.length_le (hgood : Good ssl config w) {l : List (K × Entry S)}
    (hl : l.length ≤ w.cache.cache.length) :
    config.maxEntries = 0 ∨ l.length ≤ config.maxEntries :=
  hgood.bounded.imp_right hl.trans

lemma Good.flushExpiredSessions (hgood : Good ssl config w) (now : Int64) :
    Good ssl config { w with cache := w.cache.flushExpiredSessions ssl now } := by
  refine hgood.with_cache (fun p hp => ?_) (hgood.length_le (List.length_filterMap_le _ _))
  obtain ⟨⟨k, e⟩, hmem, hkept⟩ := List.mem_filterMap.mp hp
  rcases hexpire : e.expireSessions ssl now with ⟨_ | _, e'⟩
  · simp only [hexpire, Option.some.injEq] at hkept
    obtain rfl := hkept
    exact (hgood.entries _ hmem).1.expireSessions hexpire
  · simp only [hexpire, reduceCtorEq] at hkept

variable [DecidableEq K]

lemma Good.take (hgood : Good ssl config w) {e e' : Entry S} (hmem : (key, e) ∈ w.cache.cache)
    (hstored : Stored ssl w key h)
    (hproper : Proper ssl { w with returned := w.returned ++ [⟨key, h, now⟩] } key e')
    {c : Cache K S}
    (hc : c.cache = Lru.without key w.cache.cache ∨
      c.cache = (key, e') :: Lru.without key w.cache.cache ∧ e'.first ≠ none)
    {returned : List (Returned K S)}
    (hreturned : returned = w.returned ∨
      returned = w.returned ++ [⟨key, h, now⟩] ∧ isExpired ssl h.session now = false) :
    Good ssl config { w with cache := c, returned := returned } := by
  have hsubset : returned ⊆ w.returned ++ [⟨key, h, now⟩] := by
    rcases hreturned with rfl | ⟨rfl, -⟩
    · exact List.subset_append_left _ _
    · exact List.Subset.refl _
  have hlater : ∀ k e, Proper ssl { w with returned := w.returned ++ [⟨key, h, now⟩] } k e →
      Proper ssl { w with cache := c, returned := returned } k e :=
    fun k e hp => hp.mono (List.append_nil _).symm hsubset
  have hothers : ∀ p ∈ Lru.without key w.cache.cache,
      Proper ssl { w with cache := c, returned := returned } p.1 p.2 ∧ p.2.first ≠ none := by
    intro p hp
    obtain ⟨hold, hkey⟩ := Lru.mem_without.mp hp
    obtain ⟨hp, hfirst⟩ := hgood.entries p hold
    have horigin : Origin ssl w.inserted key h := hstored.origin
    exact ⟨hlater _ _ (hp.of_other (r := ⟨key, h, now⟩) horigin hkey.symm rfl rfl), hfirst⟩
  have hless := Lru.length_without_lt hmem
  refine ⟨?_, ?_, ?_, ?_⟩
  · intro p hp
    rcases hc with hc | ⟨hc, hfirst⟩
    · rw [hc] at hp
      exact hothers p hp
    rw [hc] at hp
    rcases List.mem_cons.mp hp with rfl | hp
    · exact ⟨hlater _ _ hproper, hfirst⟩
    · exact hothers p hp
  · rcases hreturned with rfl | ⟨rfl, hlive⟩
    · exact hgood.returned
    intro r hr
    rcases List.mem_append.mp hr with hold | hnew
    · exact hgood.returned r hold
    · obtain rfl := List.mem_singleton.mp hnew
      exact ⟨hstored.origin, hlive⟩
  · rcases hreturned with rfl | ⟨rfl, -⟩
    · exact hgood.once
    refine List.pairwise_append.mpr ⟨hgood.once, List.pairwise_singleton _ _, ?_⟩
    intro r hr r' hr'
    obtain rfl := List.mem_singleton.mp hr'
    exact fun hsingle => hstored.unused hsingle r hr
  apply hgood.length_le
  rcases hc with hc | ⟨hc, -⟩
  · rw [hc]
    exact hless.le
  · rw [hc]
    exact hless

lemma Good.lookupEntry (hgood : Good ssl config w) (key : K) (now : Int64) :
    ∃ c session, w.cache.lookupEntry ssl key now = some (c, session) ∧
      Good ssl config
        { w with
          cache := c
          returned := w.returned ++ (session.map fun h => ⟨key, h, now⟩).toList } := by
  unfold Cache.lookupEntry
  rcases hget : Lru.get key w.cache.cache with _ | ⟨e, c'⟩
  · refine ⟨w.cache, none, rfl, ?_⟩
    rw [Option.map_none, Option.toList_none, List.append_nil]
    exact hgood
  obtain ⟨hmem, -⟩ := Lru.get_eq_some hget
  obtain ⟨hproper, hfirst⟩ := hgood.entries _ hmem
  obtain ⟨h, e', hpop, hstored, hlater⟩ := hproper.pop hfirst now
  have hreturned : w.returned ++
      ((if isExpired ssl h.session now = true then none else some h).map fun h =>
        (⟨key, h, now⟩ : Returned K S)).toList = w.returned ∨
      w.returned ++ ((if isExpired ssl h.session now = true then none else some h).map fun h =>
        (⟨key, h, now⟩ : Returned K S)).toList = w.returned ++ [⟨key, h, now⟩] ∧
        isExpired ssl h.session now = false := by
    rcases hexpired : isExpired ssl h.session now
    · exact .inr ⟨rfl, rfl⟩
    · exact .inl (List.append_nil _)
  dsimp only
  rw [hpop]
  dsimp only
  refine ⟨_, _, rfl, ?_⟩
  rcases hexpire : e'.expireSessions ssl now with ⟨_ | _, e''⟩
  · obtain ⟨hproper', hfirst'⟩ := hlater.expireSessions hexpire
    exact hgood.take hmem hstored hproper' (Or.inr ⟨rfl, hfirst'⟩) hreturned
  · exact hgood.take hmem hstored hlater (Or.inl rfl) hreturned

lemma Good.lookup (hgood : Good ssl config w) (key : K) (flushNow now : Int64) :
    ∃ c session, w.cache.lookup ssl config key flushNow now = some (c, session) ∧
      Good ssl config
        { w with
          cache := c
          returned := w.returned ++ (session.map fun h => ⟨key, h, now⟩).toList } := by
  unfold Cache.lookup
  dsimp only
  split_ifs with hflush
  · have hcounted : Good ssl config { w with cache := { w.cache with lookupsSinceFlush := 0 } } :=
      hgood.with_cache hgood.entries hgood.bounded
    exact (hcounted.flushExpiredSessions flushNow).lookupEntry key now
  have hcounted : Good ssl config
      { w with
        cache := { w.cache with lookupsSinceFlush := w.cache.lookupsSinceFlush + 1 } } :=
    hgood.with_cache hgood.entries hgood.bounded
  exact hcounted.lookupEntry key now

lemma Good.insert (hgood : Good ssl config w) (key : K) (session : S) :
    Good ssl config
      { w with
        cache := w.cache.insert ssl config key ⟨session, w.inserted.length⟩
        inserted := w.inserted ++ [(key, session)] } := by
  have hnumbers : ∀ r ∈ w.returned, r.held.number < w.inserted.length :=
    fun r hr => (hgood.returned r hr).1.number_lt
  have hold : ∀ p ∈ w.cache.cache,
      Proper ssl { w with inserted := w.inserted ++ [(key, session)] } p.1 p.2 ∧
        p.2.first ≠ none := by
    intro p hp
    obtain ⟨hproper, hfirst⟩ := hgood.entries p hp
    exact ⟨hproper.mono rfl (List.Subset.refl _), hfirst⟩
  have hkept : Good ssl config { w with inserted := w.inserted ++ [(key, session)] } :=
    { entries := hold
      returned := fun r hr =>
        ⟨(hgood.returned r hr).1.append _, (hgood.returned r hr).2⟩
      once := hgood.once
      bounded := hgood.bounded }
  have hfirst : ∀ e : Entry S, (e.push ssl ⟨session, w.inserted.length⟩).first ≠ none := by
    intro e
    rw [first_push]
    simp
  unfold Cache.insert
  rcases hget : Lru.get key w.cache.cache with _ | ⟨e, c'⟩
  · have hempty : Proper ssl w key (⟨none, none⟩ : Entry S) := ⟨by simp, by simp, by simp⟩
    refine hkept.with_cache (fun p hp => ?_) (Lru.length_put hgood.bounded)
    rcases Lru.mem_put hp with rfl | hp
    · exact ⟨hempty.push hnumbers, hfirst _⟩
    · exact hold p hp
  obtain ⟨hmem, -⟩ := Lru.get_eq_some hget
  refine hkept.with_cache (fun p hp => ?_) (hkept.length_le (Lru.length_without_lt hmem))
  rcases List.mem_cons.mp hp with rfl | hp
  · exact ⟨(hgood.entries _ hmem).1.push hnumbers, hfirst _⟩
  · exact hold p (Lru.mem_without.mp hp).1

lemma Good.clearEarlyData (hgood : Good ssl config w) (key : K) :
    Good ssl config { w with cache := w.cache.clearEarlyData ssl key } := by
  unfold Cache.clearEarlyData
  rcases hget : Lru.get key w.cache.cache with _ | ⟨e, c'⟩
  · exact hgood
  obtain ⟨hmem, -⟩ := Lru.get_eq_some hget
  obtain ⟨hproper, hfirst⟩ := hgood.entries _ hmem
  refine hgood.with_cache (fun p hp => ?_) (hgood.length_le (Lru.length_without_lt hmem))
  rcases List.mem_cons.mp hp with rfl | hp
  · refine ⟨hproper.copied, ?_⟩
    simpa [Entry.copied] using hfirst
  · exact hgood.entries p (Lru.mem_without.mp hp).1

theorem Good.step (hgood : Good ssl config w) (call : Call K S) :
    ∃ w', step ssl config w call = some w' ∧ Good ssl config w' := by
  rcases call with ⟨key, session⟩ | ⟨key, flushNow, now⟩ | key | _
  · exact ⟨_, rfl, hgood.insert key session⟩
  · obtain ⟨c, session, hlookup, hgood'⟩ := hgood.lookup key flushNow now
    exact ⟨_, Option.bind_eq_some_iff.mpr ⟨_, hlookup, rfl⟩, hgood'⟩
  · exact ⟨_, rfl, hgood.clearEarlyData key⟩
  · exact ⟨_, rfl, hgood.with_cache (by simp [Cache.flush]) (by simp [Cache.flush])⟩

/-! ## What a user relies on -/

/-- A session whose lifetime has not ended, in exact arithmetic. -/
def Live (ssl : Ssl S) (session : S) (now : Int64) : Prop :=
  0 ≤ now.toInt ∧ now.toInt < (ssl.getTime session).toNat + (ssl.getTimeout session).toNat

lemma toNat_toUInt64 {now : Int64} (h : 0 ≤ now.toInt) : (now.toUInt64.toNat : ℤ) = now.toInt := by
  have hnat : now.toUInt64.toNat = now.toBitVec.toNat := rfl
  have hint : now.toInt = now.toBitVec.toInt := rfl
  rw [hint, BitVec.toInt_eq_toNat_cond] at h
  rw [hnat, hint, BitVec.toInt_eq_toNat_cond]
  split_ifs at h ⊢ <;> omega

lemma live_of_not_isExpired {session : S} {now : Int64} (h : isExpired ssl session now = false) :
    Live ssl session now := by
  unfold isExpired at h
  split_ifs at h with hneg
  have hnow : 0 ≤ now.toInt := by
    rw [Int64.lt_iff_toInt_lt] at hneg
    simpa using hneg
  obtain ⟨-, hend⟩ := Bool.or_eq_false_iff.mp h
  have hend := of_decide_eq_false hend
  rw [ge_iff_le, UInt64.le_iff_toNat_le, not_le, UInt64.toNat_add, UInt32.toNat_toUInt64] at hend
  have hwrap := Nat.mod_le ((ssl.getTime session).toNat + (ssl.getTimeout session).toNat) (2 ^ 64)
  have hcast := toNat_toUInt64 hnow
  exact ⟨hnow, by omega⟩

/-- Whatever calls are made, at whatever times: no null pointer is used; a session is returned only
for the key it was inserted with, and not after its lifetime; one for a single use is not returned
again; every entry has a first session; and the entries stay within the limit, if there is one. -/
theorem sound_of_run (ssl : Ssl S) (config : Config) (calls : List (Call K S)) :
    ∃ w, Run.exec (step ssl config) start calls = some w ∧
      (∀ r ∈ w.returned, (∃ s, w.inserted[r.held.number]? = some (r.key, s) ∧
        ssl.Same r.held.session s) ∧ isExpired ssl r.held.session r.now = false ∧
        Live ssl r.held.session r.now) ∧
      (w.returned.Pairwise fun r r' =>
        ssl.shouldBeSingleUse r'.held.session = true → r.held.number ≠ r'.held.number) ∧
      (∀ p ∈ w.cache.cache, p.2.first ≠ none) ∧
      (config.maxEntries = 0 ∨ w.cache.cache.length ≤ config.maxEntries) := by
  have hstart : Good ssl config (start : World K S) :=
    ⟨by simp [start], by simp [start], List.Pairwise.nil, Or.inr (Nat.zero_le _)⟩
  obtain ⟨w, hw, hgood⟩ := Run.exec_invariant (fun w call hw _ => hw.step call) hstart
    (Run.along_true _ _ calls)
  refine ⟨w, hw, fun r hr => ?_, hgood.once, fun p hp => (hgood.entries p hp).2, hgood.bounded⟩
  obtain ⟨horigin, hlive⟩ := hgood.returned r hr
  exact ⟨horigin, hlive, live_of_not_isExpired hlive⟩

def sampleSsl : Ssl Bool where
  shouldBeSingleUse := id
  getTime _ := 100
  getTimeout _ := 50
  copyWithoutEarlyData := id
  singleUse_copy _ := rfl
  time_copy _ := rfl
  timeout_copy _ := rfl

theorem sound_of_run_sample :
    ∃ w, Run.exec (step sampleSsl ⟨1, 2⟩) start [.insert 'k' true, .insert 'k' true,
        .lookup 'k' 110 110, .clearEarlyData 'k', .lookup 'k' 120 120, .lookup 'k' 130 130] =
        some w ∧
      w.returned.map (fun r => r.held.number) = [1, 0] ∧
      ∀ r ∈ w.returned, Live sampleSsl r.held.session r.now := by
  obtain ⟨w, hw, hreturned, -⟩ := sound_of_run sampleSsl ⟨1, 2⟩ [.insert 'k' true, .insert 'k' true,
    .lookup 'k' 110 110, .clearEarlyData 'k', .lookup 'k' 120 120, .lookup 'k' 130 130]
  refine ⟨w, hw, ?_, fun r hr => (hreturned r hr).2.2⟩
  have hrun : (Run.exec (step sampleSsl ⟨1, 2⟩) (start : World Char Bool) [.insert 'k' true,
      .insert 'k' true, .lookup 'k' 110 110, .clearEarlyData 'k', .lookup 'k' 120 120,
      .lookup 'k' 130 130]).map (fun w => w.returned.map fun r => r.held.number) =
      some [1, 0] := by decide
  rw [hw] at hrun
  exact Option.some.inj hrun

end Yass.Net.SessionCache
