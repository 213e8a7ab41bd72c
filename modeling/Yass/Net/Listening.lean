import Yass.Net.Listeners

/-!
# Listeners that go on listening

Before a shutdown, a listener that was opened has an accept outstanding or posted, or it is on hold
while a connection is open.

Source: `net/content_server.hpp`.
-/

namespace Yass.Net.Listeners

/-- The listener has an accept, posted or outstanding, or is on hold while a connection is open. -/
def Live (s : Server) (i : ℕ) : Prop :=
  .accept i ∈ s.tasks ∨ i ∈ s.accepting ∨ i ∈ s.pendingNextListenCtxes ∧ s.callbacks ≠ []

/-- An accept of the listener `i` ends with an error. -/
def fails (i : ℕ) (s : Server) : Event → Bool
  | .accepted listenCtxNum result => listenCtxNum == i && decide (i ∈ s.accepting) && result != .ok
  | .listen | .shutdown | .stop | .task | .disconnected _ => false

namespace Server

def share (s : Server) (i : ℕ) : ℕ :=
  s.accepting.count i + s.tasks.count (.accept i) + s.pendingNextListenCtxes.count i

/-- `1` for a listener that was opened. -/
def opened (s : Server) (i : ℕ) : ℕ := if i < s.acceptors.length then 1 else 0

end Server

structure Placed (s : Server) : Prop where
  set : s.inShutdown = false → ∀ i < s.acceptors.length, s.acceptors.getD i false = true
  once : s.inShutdown = false → ∀ i, s.share i ≤ s.opened i
  held : s.pendingNextListenCtxes ≠ [] → s.callbacks ≠ []

variable {s s' : Server} {parallelMax i : ℕ}

lemma placed_start : Placed start := by
  constructor <;> simp [start, Server.share, Server.opened]

lemma Placed.lt_of_share (hs : Placed s) (hopen : s.inShutdown = false) (hpos : 0 < s.share i) :
    i < s.acceptors.length := by
  have honce := hs.once hopen i
  unfold Server.opened at honce
  split_ifs at honce with hlt
  · exact hlt
  · omega

lemma share_pos_of_accepting (hi : i ∈ s.accepting) : 0 < s.share i := by
  have hpos := List.count_pos_iff.mpr hi
  unfold Server.share
  omega

lemma share_pos_of_pending (hi : i ∈ s.pendingNextListenCtxes) : 0 < s.share i := by
  have hpos := List.count_pos_iff.mpr hi
  unfold Server.share
  omega

variable {e : Event}

lemma fails_eq_false (h : ∀ j result, e = .accepted j result → j ∉ s.accepting) :
    fails i s e = false := by
  cases e with
  | accepted j result =>
    have hno := h j result rfl
    by_cases hj : j = i
    · subst hj
      simp [fails, hno]
    · simp [fails, hj]
  | listen | shutdown | stop | task | disconnected _ => rfl

lemma count_cons_accept {task : Task} (htask : task.isAccept = false) (tasks : List Task) :
    (task :: tasks).count (.accept i) = tasks.count (.accept i) := by
  apply List.count_cons_of_ne
  rintro rfl
  cases htask

lemma count_append_accept {task : Task} (htask : task.isAccept = false) (tasks : List Task) :
    (tasks ++ [task]).count (.accept i) = tasks.count (.accept i) := by
  rw [List.count_append, count_cons_accept htask]
  simp

lemma share_congr (haccepting : s'.accepting = s.accepting)
    (htasks : s'.tasks.count (.accept i) = s.tasks.count (.accept i))
    (hpending : s'.pendingNextListenCtxes = s.pendingNextListenCtxes) :
    s'.share i = s.share i := by
  rw [Server.share, Server.share, haccepting, htasks, hpending]

lemma share_listened (s : Server) (i : ℕ) :
    Server.share { s with
      acceptors := s.acceptors ++ [true], tasks := s.tasks ++ [.accept s.acceptors.length] } i =
      s.share i + if i = s.acceptors.length then 1 else 0 := by
  have htasks : (s.tasks ++ [Task.accept s.acceptors.length]).count (.accept i) =
      s.tasks.count (.accept i) + if i = s.acceptors.length then 1 else 0 := by
    rw [List.count_append, List.count_singleton]
    by_cases hi : i = s.acceptors.length
    · simp [hi]
    · simp [hi, Ne.symm hi]
  simp only [Server.share, htasks]
  omega

variable {j : ℕ}

lemma count_erase_add {is : List ℕ} (hj : j ∈ is) (i : ℕ) :
    (is.erase j).count i + [j].count i = is.count i := by
  have hperm : (is.erase j ++ [j]).Perm is :=
    (List.perm_append_singleton j _).trans (List.perm_cons_erase hj).symm
  rw [← List.count_append]
  exact hperm.count_eq i

lemma share_accepts {tasks : List Task} (htasks : s.tasks = .accept j :: tasks) (i : ℕ) :
    Server.share { s with tasks, accepting := s.accepting ++ [j] } i = s.share i := by
  have hhead : (Task.accept j :: tasks).count (.accept i) =
      tasks.count (.accept i) + [j].count i := by
    by_cases hj : j = i <;> simp [hj]
  simp only [Server.share, htasks, hhead, List.count_append]
  omega

lemma share_startConnection {conn : ℕ} {tasks : List Task} (htasks : s.tasks = .start conn :: tasks)
    (i : ℕ) : ({ s with tasks }.startConnection conn).share i = s.share i := by
  have hcount : s.tasks.count (.accept i) = tasks.count (.accept i) := by
    rw [htasks, count_cons_accept rfl]
  unfold Server.startConnection
  split_ifs <;> exact share_congr rfl hcount.symm rfl

lemma share_joined (hj : j ∈ s.accepting) (i : ℕ) :
    Server.share { s.joined with accepting := s.accepting.erase j ++ [j] } i = s.share i ∧
      Server.share { s.joined with
        accepting := s.accepting.erase j
        pendingNextListenCtxes := s.pendingNextListenCtxes ++ [j] } i = s.share i := by
  have herase := count_erase_add hj i
  have htasks : (s.tasks ++ [Task.start s.nextConnection]).count (.accept i) =
      s.tasks.count (.accept i) := count_append_accept rfl s.tasks
  simp only [Server.share, Server.joined, Server.onAccept, htasks, List.count_append]
  omega

lemma share_gone (s : Server) (conn i : ℕ) : (s.gone conn).share i = s.share i := by
  have htasks := gone_tasks s conn
  rw [Server.share, htasks]
  simp only [Server.share, Server.gone, List.count_append, List.count_nil]
  omega

lemma share_ended (hplaced : Placed s) (hopen : s.inShutdown = false)
    {result : AcceptResult} (hj : j ∈ s.accepting)
    (hno : s.acceptors.getD j false = false ∨ s.inShutdown = true ∨ result ≠ .ok) (i : ℕ) :
    Server.share { s with accepting := s.accepting.erase j } i +
      (fails i s (.accepted j result)).toNat = s.share i := by
  have herase := count_erase_add hj i
  have hresult : result ≠ .ok := by
    rcases hno with hunset | hshut | hresult
    · rw [hplaced.set hopen j (hplaced.lt_of_share hopen (share_pos_of_accepting hj))] at hunset
      cases hunset
    · rw [hopen] at hshut
      cases hshut
    · exact hresult
  simp only [Server.share]
  by_cases hji : j = i
  · subst hji
    have hfails : fails j s (.accepted j result) = true := by simp [fails, hj, hresult]
    rw [hfails, Bool.toNat_true]
    rw [List.count_singleton_self] at herase
    omega
  have hfails : fails i s (.accepted j result) = false := by simp [fails, hji]
  rw [hfails, Bool.toNat_false]
  rw [List.count_singleton, if_neg (by simpa using hji)] at herase
  omega

/-- **One step.** The listener is lost where one of its accepts fails, and gained where it is
opened. -/
lemma share_step (hs : Sound s) (hplaced : Placed s)
    (h : s.step parallelMax e = some s') (hopen : s'.inShutdown = false) (i : ℕ) :
    s'.share i + (fails i s e).toNat + s.opened i = s.share i + s'.opened i := by
  cases change_of_step h with
  | same _ hsame =>
    rw [fails_eq_false hsame]
    rfl
  | listened _ =>
    rw [share_listened]
    simp only [Server.opened, fails, List.length_append, List.length_singleton,
      Bool.toNat_false]
    split_ifs <;> omega
  | posted task hcloses he =>
    have htask : task.isAccept = false := by cases task <;> trivial
    have hshare : Server.share { s with tasks := s.tasks ++ [task] } i = s.share i :=
      share_congr rfl (count_append_accept htask s.tasks) rfl
    rw [fails_eq_false fun j result hj => absurd hj (he j result), hshare]
    rfl
  | accepts htasks _ =>
    rw [share_accepts htasks]
    rfl
  | started htasks =>
    rw [share_startConnection htasks]
    unfold Server.startConnection
    split_ifs <;> rfl
  | reset => cases hopen
  | stopped htasks hstop =>
    rw [(hs.stopHandler htasks hstop).2.1] at hopen
    cases hopen
  | ended hj hno =>
    rw [share_ended hplaced hopen hj hno]
    rfl
  | @again j hj _ _ _ =>
    have hfails : fails i s (.accepted j .ok) = false := by simp [fails]
    rw [(share_joined hj i).1, hfails]
    rfl
  | @held j hj _ _ _ =>
    have hfails : fails i s (.accepted j .ok) = false := by simp [fails]
    rw [(share_joined hj i).2, hfails]
    rfl
  | @closed conn _ hclose =>
    rcases close_eq_some hs.running_subset hclose with ⟨-, rfl⟩ | ⟨-, rfl⟩
    · rfl
    · rw [share_gone]
      simp [fails, Server.opened]

lemma open_step (hs : Sound s) (h : s.step parallelMax e = some s')
    (hopen : s'.inShutdown = false) : s.inShutdown = false ∧
      (s'.acceptors = s.acceptors ∨ s'.acceptors = s.acceptors ++ [true]) := by
  cases change_of_step h with
  | same | posted | accepts | ended | again | held => exact ⟨hopen, Or.inl rfl⟩
  | listened => exact ⟨hopen, Or.inr rfl⟩
  | started =>
    unfold Server.startConnection at hopen ⊢
    split_ifs at hopen ⊢ <;> exact ⟨hopen, Or.inl rfl⟩
  | reset => cases hopen
  | stopped htasks hstop =>
    rw [(hs.stopHandler htasks hstop).2.1] at hopen
    cases hopen
  | closed hclose =>
    rcases close_eq_some hs.running_subset hclose with ⟨-, rfl⟩ | ⟨-, rfl⟩
    · exact ⟨hopen, Or.inl rfl⟩
    · rw [gone_inShutdown] at hopen
      exact ⟨hopen, Or.inl (gone_acceptors _ _)⟩

lemma held_step (hs : Sound s) (hplaced : Placed s)
    (h : s.step parallelMax e = some s') (hpending : s'.pendingNextListenCtxes ≠ []) :
    s'.callbacks ≠ [] := by
  cases change_of_step h with
  | same | listened | posted | accepts | ended => exact hplaced.held hpending
  | started =>
    unfold Server.startConnection at hpending ⊢
    split_ifs at hpending ⊢ <;> exact hplaced.held hpending
  | reset => exact absurd rfl hpending
  | stopped htasks hstop => exact absurd (hs.stopHandler htasks hstop).2.2.1 hpending
  | again | held => exact List.cons_ne_nil _ _
  | closed hclose =>
    rcases close_eq_some hs.running_subset hclose with ⟨-, rfl⟩ | ⟨-, rfl⟩
    · exact hplaced.held hpending
    · exact absurd rfl hpending

lemma Placed.step (hs : Sound s) (hplaced : Placed s)
    (h : s.step parallelMax e = some s') : Placed s' where
  set hopen i hi := by
    obtain ⟨hopened, heq | heq⟩ := open_step hs h hopen
    · rw [heq] at hi ⊢
      exact hplaced.set hopened i hi
    rw [heq, List.length_append, List.length_singleton] at hi
    rw [heq]
    rcases Nat.lt_succ_iff_lt_or_eq.mp hi with hlt | rfl
    · rw [List.getD_append _ _ _ _ hlt]
      exact hplaced.set hopened i hlt
    · simp
  once hopen i := by
    have hstep := share_step hs hplaced h hopen i
    have honce := hplaced.once (open_step hs h hopen).1 i
    omega
  held := held_step hs hplaced h

lemma Placed.live_iff_share (hplaced : Placed s) : Live s i ↔ 0 < s.share i := by
  have hheld : i ∈ s.pendingNextListenCtxes ∧ s.callbacks ≠ [] ↔ i ∈ s.pendingNextListenCtxes :=
    and_iff_left_of_imp fun hmem => hplaced.held (List.ne_nil_of_mem hmem)
  rw [Live, hheld, ← List.count_pos_iff, ← List.count_pos_iff, ← List.count_pos_iff, Server.share]
  omega

/-- **A run.** A listener that has its share keeps it as long as none of its accepts fails; one that
has lost it does not get it back. -/
lemma share_run (hs : Sound s) (hplaced : Placed s) {es : List Event}
    (hrun : Run.exec (Server.step parallelMax) s es = some s') (hopen : s'.inShutdown = false)
    (i : ℕ) :
    s.inShutdown = false ∧ Placed s' ∧
      (s.share i = s.opened i → (s'.share i = s'.opened i ↔
        Run.Along (Server.step parallelMax) (fun s e => fails i s e = false) s es)) ∧
      (s.share i < s.opened i → s'.share i < s'.opened i) := by
  induction es generalizing s with
  | nil =>
    cases hrun
    exact ⟨hopen, hplaced, fun h => ⟨fun _ => trivial, fun _ => h⟩, id⟩
  | cons e es ih =>
    rw [Run.exec_cons] at hrun
    obtain ⟨s₁, hstep, hrun⟩ := Option.bind_eq_some_iff.mp hrun
    obtain ⟨hopen₁, hplaced', hkeeps, hlost⟩ := ih (hs.step hstep) (hplaced.step hs hstep) hrun
    have hshare := share_step hs hplaced hstep hopen₁ i
    refine ⟨(open_step hs hstep hopen₁).1, hplaced', fun hfull => ?_, fun hless => ?_⟩
    · have halong : Run.Along (Server.step parallelMax) (fun s e => fails i s e = false) s
          (e :: es) ↔ fails i s e = false ∧
            Run.Along (Server.step parallelMax) (fun s e => fails i s e = false) s₁ es := by
        simp [Run.Along, hstep]
      rw [halong]
      cases hfails : fails i s e with
      | false =>
        rw [hfails, Bool.toNat_false] at hshare
        rw [hkeeps (by omega)]
        simp
      | true =>
        rw [hfails, Bool.toNat_true] at hshare
        have hlost' := hlost (by omega)
        simp only [Bool.true_eq_false, false_and, iff_false]
        omega
    · exact hlost (by omega)

/-- **Listener liveness, exactly.** In every state before a shutdown, a listener that was opened is
alive if and only if none of its accepts has failed; and if it is on hold, it accepts again when the
next connection closes. -/
theorem live_iff {es : List Event} (hrun : Run.exec (Server.step parallelMax) start es = some s)
    (hopen : s.inShutdown = false) (hi : i < s.acceptors.length) :
    (Live s i ↔ Run.Along (Server.step parallelMax) (fun s e => fails i s e = false) start es) ∧
      (i ∈ s.pendingNextListenCtxes → ∀ conn ∈ s.running,
        ∃ s', s.step parallelMax (.disconnected conn) = some s' ∧ i ∈ s'.accepting) := by
  obtain ⟨-, hplaced, hkeeps, -⟩ := share_run sound_start placed_start hrun hopen i
  have hs := sound_run hrun
  have honce := hplaced.once hopen i
  have hone : s.opened i = 1 := if_pos hi
  constructor
  · rw [hplaced.live_iff_share, ← hkeeps rfl]
    omega
  intro hpending conn hrunning
  refine ⟨s.gone conn, close_of_set hs.running_subset hrunning fun j hj => ?_,
    List.mem_append_right _ hpending⟩
  exact hplaced.set hopen j (hplaced.lt_of_share hopen (share_pos_of_pending hj))

theorem live_sample :
    ∃ s, Run.exec (Server.step 1) start
        [.listen, .listen, .task, .task, .accepted 0 .ok, .task] = some s ∧
      s.pendingNextListenCtxes = [0] ∧ Live s 0 ∧ Live s 1 ∧
      ∃ s', s.step 1 (.disconnected 0) = some s' ∧ 0 ∈ s'.accepting := by
  have hrun : (Run.exec (Server.step 1) start
      [.listen, .listen, .task, .task, .accepted 0 .ok, .task]).map
      (fun s => (s.inShutdown, s.acceptors.length, s.pendingNextListenCtxes, s.running)) =
        some (false, 2, [0], [0]) := by decide +kernel
  obtain ⟨s, hs, hfields⟩ := Option.map_eq_some_iff.mp hrun
  obtain ⟨hopen, hlength, hpending, hrunning⟩ : s.inShutdown = false ∧ s.acceptors.length = 2 ∧
      s.pendingNextListenCtxes = [0] ∧ s.running = [0] := by simpa using hfields
  obtain ⟨hlive₀, hagain⟩ := live_iff hs hopen (i := 0) (by omega)
  obtain ⟨hlive₁, -⟩ := live_iff hs hopen (i := 1) (by omega)
  refine ⟨s, hs, hpending, hlive₀.mpr (by decide +kernel), hlive₁.mpr (by decide +kernel), ?_⟩
  exact hagain (by simp [hpending]) 0 (by simp [hrunning])

/-- **An accept that fails.** The listener is left without an accept, and is not on hold. -/
theorem failed_accept_ends_listener :
    ∃ s, Run.exec (Server.step 8) start [.listen, .task, .accepted 0 .failed] = some s ∧
      s.inShutdown = false ∧ s.acceptors = [true] ∧ s.tasks = [] ∧ ¬ Live s 0 := by
  have hrun : (Run.exec (Server.step 8) start [.listen, .task, .accepted 0 .failed]).map
      (fun s => (s.inShutdown, s.acceptors, s.tasks, s.accepting, s.pendingNextListenCtxes)) =
        some (false, [true], [], [], []) := by decide +kernel
  obtain ⟨s, hs, hfields⟩ := Option.map_eq_some_iff.mp hrun
  obtain ⟨hopen, hacceptors, htasks, haccepting, hpending⟩ : s.inShutdown = false ∧
      s.acceptors = [true] ∧ s.tasks = [] ∧ s.accepting = [] ∧ s.pendingNextListenCtxes = [] := by
    simpa using hfields
  refine ⟨s, hs, hopen, hacceptors, htasks, ?_⟩
  simp [Live, htasks, haccepting, hpending]

end Yass.Net.Listeners
