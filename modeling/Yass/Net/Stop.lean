import Yass.Net.Listeners

/-!
# A server that is stopped

The handler of `stop` closes the connections that are in the map, and no connection is accepted
behind it.

Source: `net/content_server.hpp`, `server/server_connection.cpp`, `cli/cli_connection.cpp`.
-/

namespace Yass.Net.Listeners

/-- Every connection is closed, and the delegate was told once of each of them and once of its
end. -/
structure Stopped (s : Server) : Prop where
  running : s.running = []
  told : ∀ conn ∈ s.onConnects, s.onConnects.count conn = 1 ∧ s.onDisconnects.count conn = 1

/-- The start of no connection is posted, and every connection that runs is in the map. -/
def Ready (s : Server) : Prop := s.starts = [] ∧ ∀ conn ∈ s.running, conn ∈ s.connectionMap

variable {s s' : Server} {parallelMax : ℕ}

lemma stopped_iff (hs : Sound s) : Stopped s ↔ s.callbacks = [] := by
  constructor
  · intro hstopped
    rw [List.eq_nil_iff_forall_not_mem]
    intro conn hmem
    obtain ⟨-, honce⟩ := hstopped.told conn ((hs.told conn).mpr (Or.inl hmem))
    rw [List.count_eq_zero_of_not_mem (hs.apart conn hmem)] at honce
    exact absurd honce (by decide)
  intro hnone
  refine ⟨List.eq_nil_of_subset_nil (hnone ▸ hs.running_subset), fun conn hmem => ?_⟩
  have hdisconnect : conn ∈ s.onDisconnects := by
    rcases (hs.told conn).mp hmem with hcallback | hdisconnect
    · rw [hnone] at hcallback
      exact absurd hcallback List.not_mem_nil
    · exact hdisconnect
  exact ⟨List.count_eq_one_of_mem hs.connects hmem,
    List.count_eq_one_of_mem hs.disconnects hdisconnect⟩

lemma callbacks_eq_nil_iff (hs : Sound s)
    (h : ∀ conn, conn ∈ s'.callbacks ↔
      conn ∈ s.callbacks ∧ ¬ (conn ∈ s.connectionMap ∧ conn ∈ s.running)) :
    s'.callbacks = [] ↔ Ready s := by
  rw [List.eq_nil_iff_forall_not_mem]
  constructor
  · intro hnone
    have hboth : ∀ conn ∈ s.callbacks, conn ∈ s.connectionMap ∧ conn ∈ s.running := by
      intro conn hmem
      by_contra hnot
      exact hnone conn ((h conn).mpr ⟨hmem, hnot⟩)
    refine ⟨List.eq_nil_iff_forall_not_mem.mpr fun conn hstart => ?_, fun conn hrun => ?_⟩
    · exact hs.idle conn hstart (hboth conn ((hs.open_iff conn).mpr (Or.inr hstart))).2
    · exact (hboth conn (hs.running_subset hrun)).1
  · rintro ⟨hstarts, hmapped⟩ conn hmem
    obtain ⟨hcallback, hnot⟩ := (h conn).mp hmem
    rcases (hs.open_iff conn).mp hcallback with hrun | hstart
    · exact hnot ⟨hmapped conn hrun, hrun⟩
    · rw [hstarts] at hstart
      exact List.not_mem_nil hstart

lemma callbacks_step (hs : Sound s) (hshut : s.inShutdown) (hnone : s.callbacks = [])
    {e : Event} (h : s.step parallelMax e = some s') :
    s'.inShutdown = true ∧ s'.callbacks = [] := by
  have hidle : s.running = [] := List.eq_nil_of_subset_nil (hnone ▸ hs.running_subset)
  cases change_of_step h with
  | same | listened | posted | accepts | ended => exact ⟨hshut, hnone⟩
  | @started conn tasks htasks =>
    have hstart : conn ∈ s.starts := by simp [Server.starts, htasks, Task.starts]
    have hcallback := (hs.open_iff conn).mpr (Or.inr hstart)
    rw [hnone] at hcallback
    exact absurd hcallback List.not_mem_nil
  | reset => exact ⟨rfl, hnone⟩
  | stopped htasks hstop =>
    obtain ⟨-, hshut', -, hsub⟩ := hs.stopHandler htasks hstop
    exact ⟨hshut', List.eq_nil_of_subset_nil (hnone ▸ hsub)⟩
  | again _ _ hopen _ | held _ _ hopen _ =>
    rw [hshut] at hopen
    exact absurd hopen (by decide)
  | closed hclose =>
    rcases close_eq_some hs.running_subset hclose with ⟨-, rfl⟩ | ⟨hrun, -⟩
    · exact ⟨hshut, hnone⟩
    · rw [hidle] at hrun
      exact absurd hrun List.not_mem_nil

/-- **Stop stops, exactly when the server is ready.** In every state that a run reaches, the handler
of `stop` returns. Behind it every connection is closed and stays closed, none is started, and the
delegate is told exactly once of the end of each, if and only if no start was still posted and every
connection that ran was in the map. -/
theorem stop_stops_iff {es : List Event} {tasks : List Task}
    (hrun : Run.exec (Server.step parallelMax) start es = some s)
    (htasks : s.tasks = .stop :: tasks) :
    ∃ s', s.step parallelMax .task = some s' ∧
      ((∀ later s'', Run.exec (Server.step parallelMax) s' later = some s'' → Stopped s'') ↔
        Ready s) := by
  have hs := sound_run hrun
  obtain ⟨s', hs', hsound, hshut, -, hcallbacks⟩ := stopHandler_spec hs htasks
  have hstep : s.step parallelMax .task = some s' := by
    simp only [Server.step, htasks]
    exact hs'
  refine ⟨s', hstep, ?_⟩
  rw [← callbacks_eq_nil_iff hs hcallbacks]
  constructor
  · intro hall
    exact (stopped_iff hsound).mp (hall [] s' rfl)
  intro hnone later s'' hlater
  obtain ⟨hsound', -, hnone'⟩ := Run.exec_keeps
    (I := fun a => Sound a ∧ a.inShutdown = true ∧ a.callbacks = [])
    (fun _ _ _ hI hstep => ⟨hI.1.step hstep, callbacks_step hI.1 hI.2.1 hI.2.2 hstep⟩)
    ⟨hsound, hshut, hnone⟩ hlater
  exact (stopped_iff hsound').mpr hnone'

theorem stop_stops_sample :
    ∃ s s', Run.exec (Server.step 8) start
        [.listen, .task, .accepted 0 .ok, .task, .stop] = some s ∧ s.running = [0] ∧
      s.step 8 .task = some s' ∧
      ∀ later s'', Run.exec (Server.step 8) s' later = some s'' → Stopped s'' := by
  have hrun : (Run.exec (Server.step 8) start
      [.listen, .task, .accepted 0 .ok, .task, .stop]).map
      (fun s => (s.tasks, s.running, s.connectionMap)) = some ([.stop], [0], [0]) := by
    decide +kernel
  obtain ⟨s, hs, hfields⟩ := Option.map_eq_some_iff.mp hrun
  obtain ⟨htasks, hrunning, hmap⟩ :
      s.tasks = [.stop] ∧ s.running = [0] ∧ s.connectionMap = [0] := by
    simpa using hfields
  obtain ⟨s', hstep, hiff⟩ := stop_stops_iff hs htasks
  refine ⟨s, s', hs, hrunning, hstep, hiff.mpr ⟨?_, ?_⟩⟩
  · simp [Server.starts, htasks, Task.starts]
  · simp [hrunning, hmap]

/-- **A connection outlives the stop.** A connection is accepted between the call of `stop` and its
handler. The handler finds it with `closed_` still set and does nothing; then it is started, and
enters its handshake. -/
theorem stop_before_start :
    ∃ s, Run.exec (Server.step 8) start
        [.listen, .task, .stop, .accepted 0 .ok, .task, .task] = some s ∧
      s.inShutdown = true ∧ s.running = [0] ∧ s.onConnects = [0] ∧ s.onDisconnects = [] ∧
      ¬ Stopped s := by
  have hrun : (Run.exec (Server.step 8) start
      [.listen, .task, .stop, .accepted 0 .ok, .task, .task]).map
      (fun s => (s.inShutdown, s.running, s.onConnects, s.onDisconnects)) =
        some (true, [0], [0], []) := by decide +kernel
  obtain ⟨s, hs, hfields⟩ := Option.map_eq_some_iff.mp hrun
  obtain ⟨hshut, hrunning, hconnects, hdisconnects⟩ : s.inShutdown = true ∧ s.running = [0] ∧
      s.onConnects = [0] ∧ s.onDisconnects = [] := by simpa using hfields
  refine ⟨s, hs, hshut, hrunning, hconnects, hdisconnects, fun hstopped => ?_⟩
  have hnone := hstopped.running
  rw [hrunning] at hnone
  cases hnone

end Yass.Net.Listeners
