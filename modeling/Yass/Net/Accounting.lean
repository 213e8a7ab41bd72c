import Yass.Net.Listeners

/-!
# How many connections a server opens

* `Accounted` — the connections are counted right, and are not more than `parallel_max` and one for
  each other listener.

Source: `net/content_server.hpp`, without `HAVE_TBB`.
-/

namespace Yass.Net.Accounting

open Listeners

structure Accounted (parallelMax : ℕ) (s : Server) : Prop where
  size_eq : s.connectionMap.length = s.openedConnections
  pending_full : s.inShutdown = false → ∀ i ∈ s.pendingNextListenCtxes,
    parallelMax ≤ s.openedConnections
  bound : s.openedConnections ≤ parallelMax + s.acceptors.length - 1

/-- No `listen` between a call of `shutdown` or `stop` and its handler; no number of an open
connection is given again; and a connection closes while there are not too many, or with at most one
listener on hold. -/
def Meets (parallelMax : ℕ) (s : Server) : Event → Prop
  | .listen => ∀ task ∈ s.tasks, task.closes = false
  | .accepted _ _ => ∀ conn ∈ s.connectionMap, connectionId conn ≠ connectionId s.nextConnection
  | .disconnected _ =>
    s.openedConnections ≤ parallelMax ∨ s.pendingNextListenCtxes.length ≤ 1
  | .shutdown | .stop | .task => True

instance (parallelMax : ℕ) (s : Server) : (e : Event) → Decidable (Meets parallelMax s e)
  | .listen => inferInstanceAs (Decidable (∀ task ∈ s.tasks, task.closes = false))
  | .accepted _ _ => inferInstanceAs (Decidable (∀ conn ∈ s.connectionMap, _ ≠ _))
  | .disconnected _ => inferInstanceAs (Decidable (_ ∨ _))
  | .shutdown | .stop | .task => isTrue trivial

/-! ## The invariant -/

def accepts (s : Server) : ℕ := s.accepting.length + s.tasks.countP Task.isAccept

structure Mapped (s : Server) : Prop where
  size_eq : s.connectionMap.length = s.openedConnections
  keys : s.connectionMap.Pairwise fun conn conn' => sameId conn conn' = false
  callbacks : s.inShutdown = false → s.callbacks ⊆ s.connectionMap

/-- A listener is on hold or has one accept; what is open and what may yet be accepted is bounded
together. -/
structure Bounded (parallelMax : ℕ) (s : Server) : Prop where
  full : s.pendingNextListenCtxes ≠ [] → parallelMax ≤ s.openedConnections
  quiet : s.inShutdown = true → s.pendingNextListenCtxes = []
  each : accepts s + s.pendingNextListenCtxes.length ≤ s.acceptors.length
  together : s.openedConnections + accepts s + 1 ≤ parallelMax + s.acceptors.length

structure Posted (s : Server) : Prop where
  pending : ∀ i ∈ s.pendingNextListenCtxes, s.acceptors.getD i false = true
  tasks : ∀ i, .accept i ∈ s.tasks → s.acceptors.getD i false = true
  /-- No accept is posted behind a `shutdown` or `stop`. -/
  order : s.tasks.Pairwise fun task task' => task.closes = true → task'.isAccept = false

structure Held (parallelMax : ℕ) (s : Server) : Prop where
  sound : Sound s
  mapped : Mapped s
  bounded : Bounded parallelMax s
  posted : Posted s

variable {s s' : Server} {parallelMax : ℕ}

lemma Held.accounted (h : Held parallelMax s) : Accounted parallelMax s := by
  refine ⟨h.mapped.size_eq, fun _ i hi => h.bounded.full (List.ne_nil_of_mem hi), ?_⟩
  have := h.bounded.together
  omega

lemma held_start (hmax : 1 ≤ parallelMax) : Held parallelMax start where
  sound := sound_start
  mapped := ⟨rfl, List.Pairwise.nil, fun _ => List.nil_subset _⟩
  bounded := ⟨fun h => absurd rfl h, fun _ => rfl, le_rfl, hmax⟩
  posted := ⟨by simp [start], by simp [start], List.Pairwise.nil⟩

lemma Bounded.of_le (h : Bounded parallelMax s) (haccepts : accepts s' ≤ accepts s)
    (hopened : s'.openedConnections = s.openedConnections)
    (hpending : s'.pendingNextListenCtxes = s.pendingNextListenCtxes)
    (hacceptors : s'.acceptors = s.acceptors) (hshut : s'.inShutdown = s.inShutdown) :
    Bounded parallelMax s' := by
  have heach := h.each
  have htogether := h.together
  constructor
  · rw [hpending, hopened]
    exact h.full
  · rw [hpending, hshut]
    exact h.quiet
  · rw [hpending, hacceptors]
    omega
  · rw [hopened, hacceptors]
    omega

lemma listen_keeps (hb : Bounded parallelMax s) (hp : Posted s)
    (hmeets : ∀ task ∈ s.tasks, task.closes = false) :
    Bounded parallelMax s.listen ∧ Posted s.listen := by
  unfold Server.listen
  split_ifs
  · exact ⟨hb, hp⟩
  have hkeep : ∀ i, s.acceptors.getD i false = true →
      (s.acceptors ++ [true]).getD i false = true := by
    intro i hi
    rw [List.getD_append]
    · exact hi
    by_contra hge
    rw [List.getD_eq_default _ _ (Nat.le_of_not_lt hge)] at hi
    cases hi
  have hcount : (s.tasks ++ [Task.accept s.acceptors.length]).countP Task.isAccept =
      s.tasks.countP Task.isAccept + 1 := by simp [Task.isAccept]
  have heach := hb.each
  have htogether := hb.together
  unfold accepts at heach htogether
  refine ⟨⟨hb.full, hb.quiet, ?_, ?_⟩, ⟨fun i hi => hkeep i (hp.pending i hi), ?_, ?_⟩⟩
  · simp only [accepts, hcount, List.length_append, List.length_singleton]
    omega
  · simp only [accepts, hcount, List.length_append, List.length_singleton]
    omega
  · intro i hi
    rcases List.mem_append.mp hi with hi | hi
    · exact hkeep i (hp.tasks i hi)
    · cases List.mem_singleton.mp hi
      simp
  refine List.pairwise_append.mpr ⟨hp.order, List.pairwise_singleton _ _, ?_⟩
  intro task htask task' _ hcloses
  rw [hmeets task htask] at hcloses
  cases hcloses

variable {task : Task}

lemma Posted.append (hp : Posted s) (htask : task.isAccept = false) :
    Posted { s with tasks := s.tasks ++ [task] } := by
  refine ⟨hp.pending, fun i hi => ?_, ?_⟩
  · rcases List.mem_append.mp hi with hi | hi
    · exact hp.tasks i hi
    · cases List.mem_singleton.mp hi
      cases htask
  refine List.pairwise_append.mpr ⟨hp.order, List.pairwise_singleton _ _, ?_⟩
  rintro - - task' hmem -
  cases List.mem_singleton.mp hmem
  exact htask

variable {tasks : List Task}

lemma Posted.pop (hp : Posted s) (htasks : s.tasks = task :: tasks) : Posted { s with tasks } := by
  have horder := hp.order
  rw [htasks] at horder
  refine ⟨hp.pending, fun i hi => hp.tasks i ?_, horder.of_cons⟩
  rw [htasks]
  exact List.mem_cons_of_mem _ hi

lemma accepts_pop (htasks : s.tasks = task :: tasks) :
    accepts s = accepts { s with tasks } + task.isAccept.toNat := by
  cases hcase : task.isAccept <;> simp [accepts, htasks, hcase, Nat.add_assoc]

lemma reset_keeps (hm : Mapped s) (hb : Bounded parallelMax s) (hp : Posted s)
    (htasks : s.tasks = task :: tasks) (hcloses : task.closes) :
    Mapped { s with tasks }.resetAcceptors ∧
      Bounded parallelMax { s with tasks }.resetAcceptors ∧
      Posted { s with tasks }.resetAcceptors := by
  have horder := hp.order
  rw [htasks, List.pairwise_cons] at horder
  have haccepts := accepts_pop htasks
  have heach := hb.each
  have htogether := hb.together
  have hsame : accepts { s with tasks }.resetAcceptors = accepts { s with tasks } := rfl
  refine ⟨⟨hm.size_eq, hm.keys, by rintro ⟨⟩⟩, ⟨fun hne => absurd rfl hne, fun _ => rfl, ?_, ?_⟩,
    ⟨by simp [Server.resetAcceptors], fun i hi => ?_, horder.2⟩⟩
  · rw [hsame]
    simp only [Server.resetAcceptors, List.length_map, List.length_nil]
    omega
  · rw [hsame]
    simp only [Server.resetAcceptors, List.length_map]
    omega
  · cases horder.1 _ hi hcloses

lemma forget_cases (hm : Mapped s) (conn : ℕ) :
    ((s.gone conn).connectionMap = s.connectionMap.eraseP (sameId conn) ∧
      (s.gone conn).openedConnections + 1 = s.openedConnections ∧
      (s.connectionMap.eraseP (sameId conn)).length + 1 = s.connectionMap.length) ∨
    conn ∉ s.connectionMap ∧ (s.gone conn).connectionMap = s.connectionMap ∧
      (s.gone conn).openedConnections = s.openedConnections := by
  have hsize := hm.size_eq
  unfold Server.gone Server.forget
  split_ifs with hany
  · left
    obtain ⟨other, hmem, hsame⟩ := List.any_eq_true.mp hany
    have hlen := List.length_eraseP_of_mem hmem hsame
    have hpos := List.length_pos_of_mem hmem
    refine ⟨rfl, ?_, ?_⟩
    · show s.openedConnections - 1 + 1 = s.openedConnections
      omega
    · omega
  right
  refine ⟨fun hmem => hany (List.any_eq_true.mpr ⟨conn, hmem, ?_⟩), rfl, rfl⟩
  simp [sameId]

lemma sameId_comm (conn conn' : ℕ) : sameId conn conn' = sameId conn' conn := by
  rw [Bool.eq_iff_iff, sameId, sameId, beq_iff_eq, beq_iff_eq, eq_comm]

instance : Std.Symm fun conn conn' => sameId conn conn' = false where
  symm conn conn' h := (sameId_comm conn' conn).trans h

lemma Mapped.gone (hs : Sound s) (hm : Mapped s) {conn : ℕ} (hcallback : conn ∈ s.callbacks) :
    Mapped (s.gone conn) := by
  have hsize := hm.size_eq
  rcases forget_cases hm conn with ⟨hmap, hopened, hlen⟩ | ⟨hmem, hmap, hopened⟩
  · refine ⟨by rw [hmap]; omega, ?_, fun hopen => ?_⟩
    · rw [hmap]
      exact hm.keys.sublist List.eraseP_sublist
    rw [gone_inShutdown] at hopen
    rw [hmap]
    intro other hother
    obtain ⟨hne, hother⟩ := hs.callbacks.mem_erase_iff.mp hother
    have hin := hm.callbacks hopen
    have hdiff : sameId conn other = false :=
      hm.keys.forall (hin hcallback) (hin hother) (Ne.symm hne)
    exact (List.mem_eraseP_of_neg (by simp [hdiff])).mpr (hin hother)
  refine ⟨by rw [hmap, hopened]; exact hsize, hmap ▸ hm.keys, fun hopen => ?_⟩
  rw [gone_inShutdown] at hopen
  exact absurd (hm.callbacks hopen hcallback) hmem

lemma Bounded.gone (hm : Mapped s) (hb : Bounded parallelMax s) {conn : ℕ}
    (hcallback : conn ∈ s.callbacks)
    (hmeets : s.openedConnections ≤ parallelMax ∨ s.pendingNextListenCtxes.length ≤ 1) :
    Bounded parallelMax (s.gone conn) := by
  have heach := hb.each
  have htogether := hb.together
  have haccepts : accepts (s.gone conn) = accepts s + s.pendingNextListenCtxes.length := by
    have htasks := gone_tasks s conn
    unfold accepts
    rw [htasks]
    simp only [Server.gone, List.length_append]
    omega
  refine ⟨fun hne => absurd rfl hne, fun _ => rfl, ?_, ?_⟩
  · rw [haccepts, gone_acceptors]
    exact heach
  rw [haccepts, gone_acceptors]
  rcases forget_cases hm conn with ⟨-, hopened, -⟩ | ⟨hmem, -, hopened⟩
  · omega
  -- only after a stop, when no listener is on hold
  have hshut : s.inShutdown = true := by
    by_contra hopen
    exact hmem (hm.callbacks (Bool.eq_false_iff.mpr hopen) hcallback)
  have hnone : s.pendingNextListenCtxes.length = 0 := by rw [hb.quiet hshut, List.length_nil]
  omega

lemma Held.close (h : Held parallelMax s)
    (hmeets : s.openedConnections ≤ parallelMax ∨ s.pendingNextListenCtxes.length ≤ 1) (conn : ℕ) :
    ∃ s', s.close conn = some s' ∧ s'.inShutdown = s.inShutdown ∧ Held parallelMax s' := by
  by_cases hrun : conn ∈ s.running
  · have hcallback := h.sound.running_subset hrun
    refine ⟨_, close_of_set h.sound.running_subset hrun h.posted.pending,
      gone_inShutdown s conn, ?_⟩
    refine ⟨h.sound.gone hrun, h.mapped.gone h.sound hcallback,
      h.bounded.gone h.mapped hcallback hmeets, ?_⟩
    refine ⟨fun i hi => absurd hi List.not_mem_nil, ?_, ?_⟩
    · rw [gone_tasks, gone_acceptors]
      exact h.posted.tasks
    · rw [gone_tasks]
      exact h.posted.order
  · exact ⟨s, close_of_not_mem hrun, rfl, h⟩

lemma Held.stopHandler (h : Held parallelMax s) (htasks : s.tasks = .stop :: tasks) :
    ∃ s', { s with tasks }.stopHandler = some s' ∧ Held parallelMax s' := by
  obtain ⟨-, hb, hp⟩ := reset_keeps h.mapped h.bounded h.posted htasks rfl
  have htogether := hb.together
  -- the map is empty before the first connection is closed
  have hclear : Held parallelMax
      { { s with tasks }.resetAcceptors with connectionMap := [], openedConnections := 0 } := by
    refine ⟨h.sound.of_same rfl rfl rfl rfl rfl (starts_of_cons htasks rfl),
      ⟨rfl, List.Pairwise.nil, by rintro ⟨⟩⟩, ⟨fun hne => absurd rfl hne, hb.quiet, hb.each, ?_⟩,
      ⟨hp.pending, hp.tasks, hp.order⟩⟩
    simp only [accepts] at htogether ⊢
    omega
  have hclose : ∀ (s₁ : Server) (conn : ℕ), s₁.inShutdown = true ∧ Held parallelMax s₁ → True →
      ∃ s₂, s₁.close conn = some s₂ ∧ s₂.inShutdown = true ∧ Held parallelMax s₂ := by
    rintro s₁ conn ⟨hshut, h₁⟩ -
    have hnone := h₁.bounded.quiet hshut
    obtain ⟨s₂, hs₂, hsame, h₂⟩ := h₁.close (Or.inr (by rw [hnone]; exact Nat.zero_le _)) conn
    exact ⟨s₂, hs₂, hsame.trans hshut, h₂⟩
  obtain ⟨s', hs', -, h'⟩ := Run.exec_invariant hclose ⟨rfl, hclear⟩
    (Run.along_true Server.close _ s.connectionMap)
  exact ⟨s', hs', h'⟩

lemma joined_keeps (hm : Mapped s) (hopen : s.inShutdown = false)
    (hnew : ∀ conn ∈ s.connectionMap, connectionId conn ≠ connectionId s.nextConnection) :
    Mapped s.joined ∧ s.joined.openedConnections = s.openedConnections + 1 := by
  have hany : s.connectionMap.any (sameId s.nextConnection) = false := by
    rw [List.any_eq_false]
    intro conn hmem
    simpa [sameId] using (hnew conn hmem).symm
  have hmap : s.joined.connectionMap = s.nextConnection :: s.connectionMap := by
    simp only [Server.joined, Server.onAccept]
    exact if_neg (by simp [hany])
  refine ⟨⟨?_, ?_, fun _ => ?_⟩, rfl⟩
  · rw [hmap, List.length_cons, hm.size_eq]
    rfl
  · rw [hmap, List.pairwise_cons]
    refine ⟨fun conn hmem => ?_, hm.keys⟩
    simpa using List.any_eq_false.mp hany conn hmem
  · rw [hmap]
    exact List.cons_subset_cons _ (hm.callbacks hopen)

lemma countP_joined (s : Server) :
    s.joined.tasks.countP Task.isAccept = s.tasks.countP Task.isAccept := by
  simp [Server.joined, Server.onAccept, Task.isAccept]

lemma again_keeps (hb : Bounded parallelMax s) (hp : Posted s) {i : ℕ} (hi : i ∈ s.accepting)
    (hroom : s.openedConnections + 1 < parallelMax) :
    Bounded parallelMax { s.joined with accepting := s.accepting.erase i ++ [i] } ∧
      Posted { s.joined with accepting := s.accepting.erase i ++ [i] } := by
  have hlen := List.length_erase_add_one hi
  have heach := hb.each
  have hposted : Posted { s with tasks := s.tasks ++ [.start s.nextConnection] } := hp.append rfl
  have haccepts :
      accepts { s.joined with accepting := s.accepting.erase i ++ [i] } = accepts s := by
    simp only [accepts, countP_joined, List.length_append, List.length_singleton]
    omega
  refine ⟨⟨fun hne => ?_, hb.quiet, ?_, ?_⟩, ⟨hp.pending, hposted.tasks, hposted.order⟩⟩
  · exact absurd (hb.full hne) (by omega)
  · rw [haccepts]
    exact heach
  rw [haccepts]
  show s.openedConnections + 1 + accepts s + 1 ≤ parallelMax + s.acceptors.length
  omega

lemma held_keeps (hb : Bounded parallelMax s) (hp : Posted s) {i : ℕ} (hi : i ∈ s.accepting)
    (hset : s.acceptors.getD i false) (hopen : s.inShutdown = false)
    (hfull : parallelMax ≤ s.openedConnections + 1) :
    Bounded parallelMax { s.joined with
        accepting := s.accepting.erase i
        pendingNextListenCtxes := s.pendingNextListenCtxes ++ [i] } ∧
      Posted { s.joined with
        accepting := s.accepting.erase i
        pendingNextListenCtxes := s.pendingNextListenCtxes ++ [i] } := by
  have hlen := List.length_erase_add_one hi
  have heach := hb.each
  have htogether := hb.together
  have hposted : Posted { s with tasks := s.tasks ++ [.start s.nextConnection] } := hp.append rfl
  have haccepts : accepts { s.joined with
      accepting := s.accepting.erase i
      pendingNextListenCtxes := s.pendingNextListenCtxes ++ [i] } + 1 = accepts s := by
    simp only [accepts, countP_joined]
    omega
  refine ⟨⟨fun _ => hfull, fun hshut => ?_, ?_, ?_⟩, ⟨fun j hj => ?_, hposted.tasks, hposted.order⟩⟩
  · exact absurd (hopen.symm.trans hshut) (by decide)
  · rw [List.length_append, List.length_singleton]
    show _ ≤ s.acceptors.length
    omega
  · show s.openedConnections + 1 + _ + 1 ≤ parallelMax + s.acceptors.length
    omega
  rcases List.mem_append.mp hj with hj | hj
  · exact hp.pending j hj
  · rw [List.mem_singleton.mp hj]
    exact hset

lemma step_isSome (parallelMax : ℕ) (hs : Sound s) (hp : Posted s) (e : Event) :
    ∃ s', s.step parallelMax e = some s' := by
  cases e with
  | listen | shutdown | stop => exact ⟨_, rfl⟩
  | task =>
    simp only [Server.step]
    rcases htasks : s.tasks with _ | ⟨task, tasks⟩
    · exact ⟨s, rfl⟩
    cases task with
    | accept i => exact ⟨_, accept_of_set (hp.tasks i (by simp [htasks]))⟩
    | start conn | shutdown => exact ⟨_, rfl⟩
    | stop =>
      obtain ⟨s', hs', -⟩ := stopHandler_spec hs htasks
      exact ⟨s', hs'⟩
  | accepted i result =>
    simp only [Server.step, Server.accepted]
    split_ifs with hi hclosed
    · exact ⟨_, rfl⟩
    · cases result with
      | aborted | failed => exact ⟨_, rfl⟩
      | ok =>
        simp only [Server.onAsyncAccept]
        split_ifs
        · exact ⟨_, rfl⟩
        obtain ⟨hset, -⟩ : s.acceptors.getD i false = true ∧ s.inShutdown = false := by
          simpa using hclosed
        exact ⟨_, accept_of_set hset⟩
    · exact ⟨s, rfl⟩
  | disconnected conn =>
    by_cases hrun : conn ∈ s.running
    · exact ⟨_, close_of_set hs.running_subset hrun hp.pending⟩
    · exact ⟨s, close_of_not_mem hrun⟩

/-- **One step.** No acceptor that was reset is used, and the invariant is kept. -/
lemma Held.step (h : Held parallelMax s) {e : Event} (hmeets : Meets parallelMax s e) :
    ∃ s', s.step parallelMax e = some s' ∧ Held parallelMax s' := by
  obtain ⟨hs, hm, hb, hp⟩ := h
  obtain ⟨s', hstep⟩ := step_isSome parallelMax hs hp e
  refine ⟨s', hstep, ?_⟩
  have hs' := hs.step hstep
  cases change_of_step hstep with
  | same => exact ⟨hs, hm, hb, hp⟩
  | listened hroom =>
    have hkeeps := listen_keeps hb hp hmeets
    rw [Server.listen, if_neg (Nat.not_le_of_lt hroom)] at hkeeps
    exact ⟨hs', { hm with }, hkeeps.1, hkeeps.2⟩
  | posted task hcloses _ =>
    have htask : task.isAccept = false := by cases task <;> trivial
    refine ⟨hs', { hm with }, hb.of_le ?_ rfl rfl rfl rfl, hp.append htask⟩
    simp [accepts, htask]
  | @accepts i tasks htasks hset =>
    have hpop := hp.pop htasks
    have haccepts := accepts_pop htasks
    refine ⟨hs', { hm with }, hb.of_le ?_ rfl rfl rfl rfl,
      ⟨hpop.pending, hpop.tasks, hpop.order⟩⟩
    rw [haccepts]
    simp only [accepts, Task.isAccept, List.length_append, List.length_singleton, Bool.toNat_true]
    omega
  | @started conn tasks htasks =>
    have hpop := hp.pop htasks
    have haccepts := accepts_pop htasks
    unfold Server.startConnection at hs' ⊢
    split_ifs at hs' ⊢
    · exact ⟨hs', { hm with },
        hb.of_le (by rw [haccepts]; exact Nat.le_add_right _ _) rfl rfl rfl rfl, hpop⟩
    exact ⟨hs', { hm with },
      hb.of_le (by rw [haccepts]; exact Nat.le_add_right _ _) rfl rfl rfl rfl,
      ⟨hpop.pending, hpop.tasks, hpop.order⟩⟩
  | reset htasks =>
    obtain ⟨hm', hb', hp'⟩ := reset_keeps hm hb hp htasks rfl
    exact ⟨hs', hm', hb', hp'⟩
  | stopped htasks hstop =>
    obtain ⟨s₁, hs₁, hheld⟩ := Held.stopHandler ⟨hs, hm, hb, hp⟩ htasks
    rw [hstop] at hs₁
    cases hs₁
    exact hheld
  | @ended i _ hi _ =>
    have hlen := List.length_erase_add_one hi
    refine ⟨hs', { hm with }, hb.of_le ?_ rfl rfl rfl rfl,
      ⟨hp.pending, hp.tasks, hp.order⟩⟩
    simp only [accepts]
    omega
  | again hi hset hopen hroom =>
    obtain ⟨hm', -⟩ := joined_keeps hm hopen hmeets
    obtain ⟨hb', hp'⟩ := again_keeps hb hp hi hroom
    exact ⟨hs', { hm' with }, hb', hp'⟩
  | held hi hset hopen hfull =>
    obtain ⟨hm', -⟩ := joined_keeps hm hopen hmeets
    obtain ⟨hb', hp'⟩ := held_keeps hb hp hi hset hopen hfull
    exact ⟨hs', { hm' with }, hb', hp'⟩
  | @closed conn _ hclose =>
    obtain ⟨s₁, hs₁, -, hheld⟩ := Held.close ⟨hs, hm, hb, hp⟩ hmeets conn
    rw [hclose] at hs₁
    cases hs₁
    exact hheld

/-- **Connection accounting.** In a run whose steps meet the condition, every state is reached
without the use of a reset acceptor, and the connections are counted right in it. -/
theorem accounted_of_meets (parallelMax : ℕ) (hmax : 1 ≤ parallelMax) (events : List Event)
    (hmeets : Run.Along (Server.step parallelMax) (Meets parallelMax) start events)
    (reached : List Event) (hpre : reached <+: events) :
    ∃ s, Run.exec (Server.step parallelMax) start reached = some s ∧ Accounted parallelMax s := by
  obtain ⟨rest, rfl⟩ := hpre
  obtain ⟨s, hrun, hs⟩ := Run.exec_invariant (fun s e hs he => Held.step hs he) (held_start hmax)
    hmeets.of_append
  exact ⟨s, hrun, hs.accounted⟩

/-- Two listeners and at most one connection at a time: a listener is put on hold and resumed, and
the server is shut down with a connection open. -/
def sampleRun : List Event :=
  [.listen, .listen, .task, .task, .accepted 0 .ok, .task, .disconnected 0, .accepted 1 .ok,
    .task, .shutdown, .task, .disconnected 1, .stop, .task]

theorem accounted_of_meets_sample :
    Run.Along (Server.step 1) (Meets 1) start sampleRun ∧
      ∃ s, Run.exec (Server.step 1) start sampleRun = some s ∧ Accounted 1 s := by
  have hmeets : Run.Along (Server.step 1) (Meets 1) start sampleRun := by decide +kernel
  exact ⟨hmeets, accounted_of_meets 1 le_rfl sampleRun hmeets sampleRun List.prefix_rfl⟩

/-- **The bound is exceeded.** Two listeners, one connection allowed. Both accept, so that two
connections are open, as many as the bound allows; one of them closes, and both listeners are
resumed, although there still is a connection. -/
theorem bound_exceeded :
    ∃ s, Run.exec (Server.step 1) start [.listen, .listen, .task, .task, .accepted 0 .ok,
        .accepted 1 .ok, .task, .disconnected 0, .accepted 0 .ok, .accepted 1 .ok] = some s ∧
      s.openedConnections = 3 ∧ s.acceptors.length = 2 ∧ ¬ Accounted 1 s := by
  have hrun : (Run.exec (Server.step 1) start [.listen, .listen, .task, .task, .accepted 0 .ok,
      .accepted 1 .ok, .task, .disconnected 0, .accepted 0 .ok, .accepted 1 .ok]).map
      (fun s => (s.openedConnections, s.acceptors.length)) = some (3, 2) := by decide +kernel
  obtain ⟨s, hs, hcount⟩ := Option.map_eq_some_iff.mp hrun
  obtain ⟨hopened, hlisteners⟩ : s.openedConnections = 3 ∧ s.acceptors.length = 2 := by
    simpa using hcount
  refine ⟨s, hs, hopened, hlisteners, fun haccounted => ?_⟩
  have := haccounted.bound
  omega

end Yass.Net.Accounting
