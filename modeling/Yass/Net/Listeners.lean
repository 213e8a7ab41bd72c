import Mathlib.Data.List.GetD
import Yass.Lib.Run

/-!
# The listeners and the connections of a server

A listener has at most one accept outstanding. After each accept the server either starts the next
one or, if it has `parallel_max` connections, puts the listener on hold; a connection that closes
resumes all listeners on hold. An accepted connection is started by a handler of its own.

* `Event`, `step` — calls of `listen`, `shutdown` and `stop`, the next posted handler, the
  completion of an accept, and a connection that closes. `none` is the use of an acceptor that was
  reset.

`closed_` of a connection (and `closing_` on a server, which is always the same) is `true` until the
connection is started, and `close` returns at once where it is. `work_guard_` only keeps the
`io_context` running, and is left out. Posted handlers run in the order in which they were posted.

Source: `net/content_server.hpp`, `net/connection.hpp`, `server/server_connection.cpp`,
`cli/cli_connection.cpp`, without `HAVE_TBB`.
-/

namespace Yass.Net.Listeners

open List (mem_append mem_cons nodup_cons)

def maxListenAddresses : ℕ := 30

/-- A handler that was posted to the `io_context`. -/
inductive Task where
  | accept (listenCtxNum : ℕ)
  /-- `conn->start()`. -/
  | start (conn : ℕ)
  | shutdown
  | stop
  deriving DecidableEq, Repr

def Task.isAccept : Task → Bool
  | .accept _ => true
  | .start _ | .shutdown | .stop => false

def Task.closes : Task → Bool
  | .shutdown | .stop => true
  | .accept _ | .start _ => false

def Task.starts : Task → Option ℕ
  | .start conn => some conn
  | .accept _ | .shutdown | .stop => none

inductive AcceptResult where
  | ok
  | aborted
  | failed
  deriving DecidableEq, Repr

/-- `connection_id()`, as a word of 32 bits. -/
def connectionId (conn : ℕ) : ℕ := (conn + 1) % 2 ^ 32

/-- A `ContentServer`. -/
structure Server where
  /-- Whether the `acceptor` of a listener is set; `next_listen_ctx_` is their number. -/
  acceptors : List Bool
  accepting : List ℕ
  tasks : List Task
  pendingNextListenCtxes : List ℕ
  /-- The connections in `connection_map_`; their ids are the keys. -/
  connectionMap : List ℕ
  openedConnections : ℕ
  /-- The number of connections so far; the id of the next one is `next_connection_id_`. -/
  nextConnection : ℕ
  inShutdown : Bool
  /-- The connections whose `disconnect_cb_` has not been called. -/
  callbacks : List ℕ
  /-- The connections that were started and not closed: `closed_` is `false`. -/
  running : List ℕ
  /-- The calls of `OnConnect` of the delegate. -/
  onConnects : List ℕ
  /-- The calls of `OnDisconnect` of the delegate. -/
  onDisconnects : List ℕ
  deriving DecidableEq, Repr

def start : Server := ⟨[], [], [], [], [], 0, 0, false, [], [], [], []⟩

inductive Event where
  | listen
  | shutdown
  | stop
  | task
  | accepted (listenCtxNum : ℕ) (result : AcceptResult)
  | disconnected (conn : ℕ)
  deriving DecidableEq, Repr

def sameId (conn conn' : ℕ) : Bool := connectionId conn == connectionId conn'

namespace Server

def accept (s : Server) (listenCtxNum : ℕ) : Option Server :=
  if s.acceptors.getD listenCtxNum false then
    some { s with accepting := s.accepting ++ [listenCtxNum] }
  else none

/-- `on_accept`: `insert` leaves a key that is there as it is. -/
def onAccept (s : Server) (conn : ℕ) : Server :=
  { s with
    connectionMap := if s.connectionMap.any (sameId conn) then s.connectionMap
      else conn :: s.connectionMap
    openedConnections := s.openedConnections + 1
    callbacks := conn :: s.callbacks
    onConnects := s.onConnects ++ [conn]
    tasks := s.tasks ++ [.start conn] }

def onAsyncAccept (parallelMax : ℕ) (s : Server) (listenCtxNum conn : ℕ) : Option Server :=
  let s := s.onAccept conn
  if parallelMax ≤ s.openedConnections then
    some { s with pendingNextListenCtxes := s.pendingNextListenCtxes ++ [listenCtxNum] }
  else s.accept listenCtxNum

def accepted (parallelMax : ℕ) (s : Server) (listenCtxNum : ℕ) (result : AcceptResult) :
    Option Server :=
  if !s.acceptors.getD listenCtxNum false || s.inShutdown then some s
  else
    match result with
    | .aborted | .failed => some s
    | .ok =>
      { s with nextConnection := s.nextConnection + 1 }.onAsyncAccept parallelMax listenCtxNum
        s.nextConnection

def forget (s : Server) (conn : ℕ) : Server :=
  if s.connectionMap.any (sameId conn) then
    { s with
      connectionMap := s.connectionMap.eraseP (sameId conn)
      openedConnections := s.openedConnections - 1 }
  else s

/-- `on_disconnect`: the delegate is told, and all listeners on hold are resumed. -/
def onDisconnect (s : Server) (conn : ℕ) : Option Server :=
  let s := s.forget conn
  s.pendingNextListenCtxes.foldlM accept
    { s with onDisconnects := s.onDisconnects ++ [conn], pendingNextListenCtxes := [] }

/-- `Connection::on_disconnect`: the callback is called once. -/
def disconnect (s : Server) (conn : ℕ) : Option Server :=
  if conn ∈ s.callbacks then
    { s with callbacks := s.callbacks.erase conn }.onDisconnect conn
  else some s

/-- `start` of a connection. -/
def startConnection (s : Server) (conn : ℕ) : Server :=
  if conn ∈ s.running then s else { s with running := conn :: s.running }

/-- `close` of a connection. -/
def close (s : Server) (conn : ℕ) : Option Server :=
  if conn ∈ s.running then { s with running := s.running.erase conn }.disconnect conn else some s

/-- What the handlers of `shutdown` and `stop` begin with. -/
def resetAcceptors (s : Server) : Server :=
  { s with
    acceptors := s.acceptors.map fun _ => false
    pendingNextListenCtxes := []
    inShutdown := true }

/-- The handler of `stop`: every connection in the map is closed. -/
def stopHandler (s : Server) : Option Server :=
  s.connectionMap.foldlM close
    { s.resetAcceptors with connectionMap := [], openedConnections := 0 }

def runTask (s : Server) : Task → Option Server
  | .accept listenCtxNum => s.accept listenCtxNum
  | .start conn => some (s.startConnection conn)
  | .shutdown => some s.resetAcceptors
  | .stop => s.stopHandler

def listen (s : Server) : Server :=
  if maxListenAddresses ≤ s.acceptors.length then s
  else
    { s with
      acceptors := s.acceptors ++ [true]
      tasks := s.tasks ++ [.accept s.acceptors.length] }

def step (parallelMax : ℕ) (s : Server) : Event → Option Server
  | .listen => some s.listen
  | .shutdown => some { s with tasks := s.tasks ++ [.shutdown] }
  | .stop => some { s with tasks := s.tasks ++ [.stop] }
  | .task =>
    match s.tasks with
    | [] => some s
    | task :: tasks => { s with tasks }.runTask task
  | .accepted listenCtxNum result =>
    if listenCtxNum ∈ s.accepting then
      { s with accepting := s.accepting.erase listenCtxNum }.accepted parallelMax listenCtxNum
        result
    else some s
  | .disconnected conn => s.close conn

end Server

/-! ## What each function does -/

section Functions

variable {s s' : Server} {conn i : ℕ}

lemma accept_of_set (h : s.acceptors.getD i false) :
    s.accept i = some { s with accepting := s.accepting ++ [i] } := by
  rw [Server.accept, if_pos h]

lemma foldlM_accept {is : List ℕ} (h : ∀ i ∈ is, s.acceptors.getD i false = true) :
    is.foldlM Server.accept s = some { s with accepting := s.accepting ++ is } := by
  induction is generalizing s with
  | nil => simp
  | cons i is ih =>
    rw [List.foldlM_cons, accept_of_set (h i List.mem_cons_self), Option.bind_eq_bind,
      Option.bind_some, ih]
    · simp
    · intro j hj
      exact h j (List.mem_cons_of_mem _ hj)

lemma accept_eq_some (h : s.accept i = some s') :
    s.acceptors.getD i false = true ∧ s' = { s with accepting := s.accepting ++ [i] } := by
  unfold Server.accept at h
  split_ifs at h with hset
  exact ⟨hset, (Option.some_inj.mp h).symm⟩

lemma foldlM_accept_eq_some {is : List ℕ} (h : is.foldlM Server.accept s = some s') :
    s' = { s with accepting := s.accepting ++ is } := by
  induction is generalizing s with
  | nil =>
    cases h
    simp
  | cons i is ih =>
    obtain ⟨s₁, hs₁, h⟩ := Option.bind_eq_some_iff.mp h
    obtain ⟨-, rfl⟩ := accept_eq_some hs₁
    rw [ih h]
    simp

def Server.joined (s : Server) : Server :=
  { s with nextConnection := s.nextConnection + 1 }.onAccept s.nextConnection

def Server.gone (s : Server) (conn : ℕ) : Server :=
  { s.forget conn with
    running := s.running.erase conn
    callbacks := s.callbacks.erase conn
    onDisconnects := s.onDisconnects ++ [conn]
    pendingNextListenCtxes := []
    accepting := s.accepting ++ s.pendingNextListenCtxes }

lemma forget_eq (s : Server) (conn : ℕ) :
    s.forget conn = { s with
      connectionMap := (s.forget conn).connectionMap
      openedConnections := (s.forget conn).openedConnections } := by
  unfold Server.forget
  split_ifs <;> rfl

section Gone

variable (s : Server) (conn : ℕ)

@[simp] lemma gone_acceptors : (s.gone conn).acceptors = s.acceptors := by
  rw [Server.gone, forget_eq]

@[simp] lemma gone_tasks : (s.gone conn).tasks = s.tasks := by
  rw [Server.gone, forget_eq]

@[simp] lemma gone_inShutdown : (s.gone conn).inShutdown = s.inShutdown := by
  rw [Server.gone, forget_eq]

@[simp] lemma gone_nextConnection : (s.gone conn).nextConnection = s.nextConnection := by
  rw [Server.gone, forget_eq]

@[simp] lemma gone_onConnects : (s.gone conn).onConnects = s.onConnects := by
  rw [Server.gone, forget_eq]

end Gone

lemma close_of_mem (hrun : conn ∈ s.running) (hcallback : conn ∈ s.callbacks) :
    s.close conn = s.pendingNextListenCtxes.foldlM Server.accept
      { s.gone conn with accepting := s.accepting } := by
  unfold Server.close Server.disconnect Server.onDisconnect Server.gone
  rw [if_pos hrun, if_pos hcallback]
  dsimp only
  rw [forget_eq, forget_eq s]
  unfold Server.forget
  split_ifs <;> rfl

lemma close_of_not_mem (hrun : conn ∉ s.running) : s.close conn = some s := if_neg hrun

lemma close_eq_some (hsub : s.running ⊆ s.callbacks) (h : s.close conn = some s') :
    conn ∉ s.running ∧ s' = s ∨ conn ∈ s.running ∧ s' = s.gone conn := by
  by_cases hrun : conn ∈ s.running
  · rw [close_of_mem hrun (hsub hrun)] at h
    exact .inr ⟨hrun, foldlM_accept_eq_some h⟩
  · rw [close_of_not_mem hrun] at h
    exact .inl ⟨hrun, (Option.some_inj.mp h).symm⟩

lemma close_of_set (hsub : s.running ⊆ s.callbacks) (hrun : conn ∈ s.running)
    (hset : ∀ i ∈ s.pendingNextListenCtxes, s.acceptors.getD i false = true) :
    s.close conn = some (s.gone conn) := by
  rw [close_of_mem hrun (hsub hrun), foldlM_accept]
  · rfl
  intro i hi
  rw [gone_acceptors]
  exact hset i hi

end Functions

/-! ## What a step does -/

/-- What one step does, with the condition under which it does it. -/
inductive Change (parallelMax : ℕ) (s : Server) : Event → Server → Prop where
  | same (e : Event) (h : ∀ i result, e = .accepted i result → i ∉ s.accepting) :
      Change parallelMax s e s
  | listened (h : s.acceptors.length < maxListenAddresses) :
      Change parallelMax s .listen { s with
        acceptors := s.acceptors ++ [true], tasks := s.tasks ++ [.accept s.acceptors.length] }
  | posted {e : Event} (task : Task) (h : task.closes = true)
      (he : ∀ i result, e ≠ .accepted i result) :
      Change parallelMax s e { s with tasks := s.tasks ++ [task] }
  | accepts {i : ℕ} {tasks : List Task} (htasks : s.tasks = .accept i :: tasks)
      (hset : s.acceptors.getD i false = true) :
      Change parallelMax s .task { s with tasks, accepting := s.accepting ++ [i] }
  | started {conn : ℕ} {tasks : List Task} (htasks : s.tasks = .start conn :: tasks) :
      Change parallelMax s .task ({ s with tasks }.startConnection conn)
  | reset {tasks : List Task} (htasks : s.tasks = .shutdown :: tasks) :
      Change parallelMax s .task { s with tasks }.resetAcceptors
  | stopped {tasks : List Task} (htasks : s.tasks = .stop :: tasks) {s' : Server}
      (h : { s with tasks }.stopHandler = some s') : Change parallelMax s .task s'
  | ended {i : ℕ} {result : AcceptResult} (hi : i ∈ s.accepting)
      (h : s.acceptors.getD i false = false ∨ s.inShutdown = true ∨ result ≠ .ok) :
      Change parallelMax s (.accepted i result) { s with accepting := s.accepting.erase i }
  | again {i : ℕ} (hi : i ∈ s.accepting) (hset : s.acceptors.getD i false = true)
      (hopen : s.inShutdown = false) (hroom : s.openedConnections + 1 < parallelMax) :
      Change parallelMax s (.accepted i .ok)
        { s.joined with
          accepting := s.accepting.erase i ++ [i] }
  | held {i : ℕ} (hi : i ∈ s.accepting) (hset : s.acceptors.getD i false = true)
      (hopen : s.inShutdown = false) (hfull : parallelMax ≤ s.openedConnections + 1) :
      Change parallelMax s (.accepted i .ok)
        { s.joined with
          accepting := s.accepting.erase i
          pendingNextListenCtxes := s.pendingNextListenCtxes ++ [i] }
  | closed {conn : ℕ} {s' : Server} (h : s.close conn = some s') :
      Change parallelMax s (.disconnected conn) s'

section Change

variable {s s' : Server} {parallelMax : ℕ}

lemma change_of_task (h : s.step parallelMax .task = some s') :
    Change parallelMax s .task s' := by
  simp only [Server.step] at h
  split at h
  · cases h
    exact .same _ fun i result he => by cases he
  · next task tasks htasks =>
    cases task with
    | accept i =>
      obtain ⟨hset, rfl⟩ := accept_eq_some h
      exact .accepts htasks hset
    | start conn =>
      cases h
      exact .started htasks
    | shutdown =>
      cases h
      exact .reset htasks
    | stop => exact .stopped htasks h

lemma change_of_accepted {i : ℕ} {result : AcceptResult}
    (h : s.step parallelMax (.accepted i result) = some s') :
    Change parallelMax s (.accepted i result) s' := by
  simp only [Server.step] at h
  split_ifs at h with hi
  swap
  · cases h
    exact .same _ fun j r he => by cases he; exact hi
  unfold Server.accepted at h
  split_ifs at h with hclosed
  · cases h
    rw [Bool.or_eq_true, Bool.not_eq_true'] at hclosed
    exact .ended hi (hclosed.imp_right Or.inl)
  obtain ⟨hset, hopen⟩ : s.acceptors.getD i false = true ∧ s.inShutdown = false := by
    simpa using hclosed
  cases result with
  | aborted | failed =>
    cases h
    exact .ended hi (Or.inr (Or.inr (by decide)))
  | ok =>
    simp only [Server.onAsyncAccept] at h
    split_ifs at h with hfull
    · cases h
      exact .held hi hset hopen hfull
    · obtain ⟨-, rfl⟩ := accept_eq_some h
      exact .again hi hset hopen (Nat.lt_of_not_le hfull)

/-- **A step is one of these changes.** -/
theorem change_of_step {e : Event} (h : s.step parallelMax e = some s') :
    Change parallelMax s e s' := by
  cases e with
  | listen =>
    cases h
    unfold Server.listen
    split_ifs with hfull
    · exact .same _ fun i result he => by cases he
    · exact .listened (Nat.lt_of_not_le hfull)
  | shutdown =>
    cases h
    exact .posted .shutdown rfl fun i result he => by cases he
  | stop =>
    cases h
    exact .posted .stop rfl fun i result he => by cases he
  | task => exact change_of_task h
  | accepted i result => exact change_of_accepted h
  | disconnected conn => exact .closed h

end Change

/-! ## Connections in every run -/

def Server.starts (s : Server) : List ℕ := s.tasks.filterMap Task.starts

structure Sound (s : Server) : Prop where
  connects : s.onConnects.Nodup
  old : ∀ conn ∈ s.onConnects, conn < s.nextConnection
  callbacks : s.callbacks.Nodup
  disconnects : s.onDisconnects.Nodup
  /-- A connection that the delegate knows calls back once. -/
  told : ∀ conn, conn ∈ s.onConnects ↔ conn ∈ s.callbacks ∨ conn ∈ s.onDisconnects
  apart : ∀ conn ∈ s.callbacks, conn ∉ s.onDisconnects
  /-- One that has not called back runs, or its start is posted. -/
  open_iff : ∀ conn, conn ∈ s.callbacks ↔ conn ∈ s.running ∨ conn ∈ s.starts
  starts : s.starts.Nodup
  running : s.running.Nodup
  idle : ∀ conn ∈ s.starts, conn ∉ s.running

section Invariant

variable {s s' : Server} {conn : ℕ}

lemma sound_start : Sound start := by
  constructor <;> simp [start, Server.starts]

lemma Sound.running_subset (hs : Sound s) : s.running ⊆ s.callbacks :=
  fun _ hrun => (hs.open_iff _).mpr (Or.inl hrun)

lemma Sound.of_same (hs : Sound s) (hconnects : s'.onConnects = s.onConnects)
    (hnext : s'.nextConnection = s.nextConnection) (hcallbacks : s'.callbacks = s.callbacks)
    (hdisconnects : s'.onDisconnects = s.onDisconnects) (hrunning : s'.running = s.running)
    (hstarts : s'.starts = s.starts) : Sound s' := by
  obtain ⟨h₁, h₂, h₃, h₄, h₅, h₆, h₇, h₈, h₉, h₁₀⟩ := hs
  constructor <;> simp only [hconnects, hnext, hcallbacks, hdisconnects, hrunning, hstarts] <;>
    assumption

lemma Sound.joined (hs : Sound s) : Sound s.joined := by
  have hnew : s.nextConnection ∉ s.onConnects := fun hmem => lt_irrefl _ (hs.old _ hmem)
  have hcallback : s.nextConnection ∉ s.callbacks :=
    fun hmem => hnew ((hs.told _).mpr (Or.inl hmem))
  have hdisconnect : s.nextConnection ∉ s.onDisconnects :=
    fun hmem => hnew ((hs.told _).mpr (Or.inr hmem))
  have hrunning : s.nextConnection ∉ s.running := fun hmem => hcallback (hs.running_subset hmem)
  have hstart : s.nextConnection ∉ s.starts :=
    fun hmem => hcallback ((hs.open_iff _).mpr (Or.inr hmem))
  have hstarts : s.joined.starts = s.starts ++ [s.nextConnection] := by
    simp [Server.starts, Server.joined, Server.onAccept, Task.starts]
  constructor
  · exact List.nodup_append_comm.mp (nodup_cons.mpr ⟨hnew, hs.connects⟩)
  · intro conn hmem
    rcases mem_append.mp hmem with hmem | hmem
    · exact Nat.lt_succ_of_lt (hs.old conn hmem)
    · rw [List.mem_singleton.mp hmem]
      exact Nat.lt_succ_self _
  · exact nodup_cons.mpr ⟨hcallback, hs.callbacks⟩
  · exact hs.disconnects
  · intro conn
    simp only [Server.joined, Server.onAccept, mem_append, mem_cons, hs.told conn]
    tauto
  · intro conn hmem
    rcases mem_cons.mp hmem with rfl | hmem
    · exact hdisconnect
    · exact hs.apart conn hmem
  · intro conn
    rw [hstarts]
    simp only [Server.joined, Server.onAccept, mem_append, mem_cons, hs.open_iff conn]
    tauto
  · rw [hstarts]
    exact List.nodup_append_comm.mp (nodup_cons.mpr ⟨hstart, hs.starts⟩)
  · exact hs.running
  intro conn hmem
  rw [hstarts, mem_append, List.mem_singleton] at hmem
  rcases hmem with hmem | rfl
  · exact hs.idle conn hmem
  · exact hrunning

variable {tasks : List Task}

lemma Sound.startConnection (hs : Sound s)
    (htasks : s.tasks = .start conn :: tasks) : Sound ({ s with tasks }.startConnection conn) := by
  have hstarts : s.starts = conn :: tasks.filterMap Task.starts := by
    simp [Server.starts, htasks, Task.starts]
  have hnodup := hs.starts
  rw [hstarts, nodup_cons] at hnodup
  have hidle : conn ∉ s.running := hs.idle conn (by simp [hstarts])
  unfold Server.startConnection
  rw [if_neg hidle]
  constructor
  · exact hs.connects
  · exact hs.old
  · exact hs.callbacks
  · exact hs.disconnects
  · exact hs.told
  · exact hs.apart
  · intro other
    rw [hs.open_iff other, hstarts, mem_cons, mem_cons]
    simp only [Server.starts]
    tauto
  · exact hnodup.2
  · exact nodup_cons.mpr ⟨hidle, hs.running⟩
  intro other hmem hrun
  rcases mem_cons.mp hrun with rfl | hrun
  · exact hnodup.1 hmem
  · have hstart : other ∈ tasks.filterMap Task.starts := hmem
    exact hs.idle other (by simp [hstarts, hstart]) hrun

lemma Sound.gone (hs : Sound s) (hrun : conn ∈ s.running) : Sound (s.gone conn) := by
  have hcallback := hs.running_subset hrun
  have hstarts : (s.gone conn).starts = s.starts := by simp [Server.starts]
  constructor
  · rw [gone_onConnects]
    exact hs.connects
  · rw [gone_onConnects, gone_nextConnection]
    exact hs.old
  · exact hs.callbacks.erase conn
  · exact List.nodup_append_comm.mp
      (nodup_cons.mpr ⟨hs.apart conn hcallback, hs.disconnects⟩)
  · intro other
    have htold := hs.told other
    rw [gone_onConnects, htold]
    simp only [Server.gone, hs.callbacks.mem_erase_iff, mem_append, List.mem_singleton]
    by_cases heq : other = conn
    · simp [heq, hcallback]
    · simp [heq]
  · intro other hmem hdisc
    obtain ⟨hne, hmem⟩ := hs.callbacks.mem_erase_iff.mp hmem
    rcases mem_append.mp hdisc with hdisc | hdisc
    · exact hs.apart other hmem hdisc
    · exact hne (List.mem_singleton.mp hdisc)
  · intro other
    rw [hstarts]
    simp only [Server.gone, hs.callbacks.mem_erase_iff, hs.running.mem_erase_iff, hs.open_iff other]
    by_cases heq : other = conn
    · simp only [heq, ne_eq, not_true_eq_false, false_and, false_or, false_iff]
      exact fun hmem => hs.idle conn hmem hrun
    · simp [heq]
  · rw [hstarts]
    exact hs.starts
  · exact hs.running.erase conn
  intro other hmem hrunning
  rw [hstarts] at hmem
  exact hs.idle other hmem (List.mem_of_mem_erase hrunning)

lemma Sound.close (hs : Sound s) (h : s.close conn = some s') : Sound s' := by
  rcases close_eq_some hs.running_subset h with ⟨-, rfl⟩ | ⟨hrun, rfl⟩
  · exact hs
  · exact hs.gone hrun

lemma close_all (hs : Sound s) (hpending : s.pendingNextListenCtxes = []) (conns : List ℕ) :
    ∃ s', conns.foldlM Server.close s = some s' ∧ Sound s' ∧ s'.inShutdown = s.inShutdown ∧
      s'.pendingNextListenCtxes = [] ∧
      ∀ conn, conn ∈ s'.callbacks ↔ conn ∈ s.callbacks ∧ ¬ (conn ∈ conns ∧ conn ∈ s.running) := by
  induction conns generalizing s with
  | nil => exact ⟨s, rfl, hs, rfl, hpending, by simp⟩
  | cons conn conns ih =>
    rw [List.foldlM_cons]
    by_cases hrun : conn ∈ s.running
    · have hclose : s.close conn = some (s.gone conn) :=
        close_of_set hs.running_subset hrun (by simp [hpending])
      obtain ⟨s', hs', hsound, hshut, hnone, hcallbacks⟩ := ih (hs.gone hrun) rfl
      rw [hclose]
      refine ⟨s', hs', hsound, hshut.trans (gone_inShutdown s conn), hnone, fun other => ?_⟩
      rw [hcallbacks other]
      simp only [Server.gone, hs.callbacks.mem_erase_iff, hs.running.mem_erase_iff, mem_cons]
      by_cases heq : other = conn
      · simp [heq, hrun]
      · simp [heq]
    rw [close_of_not_mem hrun]
    obtain ⟨s', hs', hsound, hshut, hnone, hcallbacks⟩ := ih hs hpending
    refine ⟨s', hs', hsound, hshut, hnone, fun other => ?_⟩
    rw [hcallbacks other, mem_cons]
    by_cases heq : other = conn
    · simp [heq, hrun]
    · simp [heq]

lemma starts_of_cons {task : Task} (htasks : s.tasks = task :: tasks)
    (htask : task.starts = none) : tasks.filterMap Task.starts = s.starts := by
  rw [Server.starts, htasks, List.filterMap_cons_none htask]

lemma stopHandler_spec (hs : Sound s) (htasks : s.tasks = .stop :: tasks) :
    ∃ s', { s with tasks }.stopHandler = some s' ∧ Sound s' ∧ s'.inShutdown = true ∧
      s'.pendingNextListenCtxes = [] ∧
      ∀ conn, conn ∈ s'.callbacks ↔
        conn ∈ s.callbacks ∧ ¬ (conn ∈ s.connectionMap ∧ conn ∈ s.running) := by
  have hclear : Sound { { s with tasks }.resetAcceptors with
      connectionMap := [], openedConnections := 0 } :=
    hs.of_same rfl rfl rfl rfl rfl (starts_of_cons htasks rfl)
  exact close_all hclear rfl s.connectionMap

lemma Sound.stopHandler (hs : Sound s) (htasks : s.tasks = .stop :: tasks)
    (h : { s with tasks }.stopHandler = some s') :
    Sound s' ∧ s'.inShutdown = true ∧ s'.pendingNextListenCtxes = [] ∧
      s'.callbacks ⊆ s.callbacks := by
  obtain ⟨s₁, hs₁, hsound, hshut, hnone, hcallbacks⟩ := stopHandler_spec hs htasks
  rw [h] at hs₁
  cases hs₁
  exact ⟨hsound, hshut, hnone, fun conn hmem => ((hcallbacks conn).mp hmem).1⟩

lemma Sound.step {parallelMax : ℕ} (hs : Sound s) {e : Event}
    (h : s.step parallelMax e = some s') : Sound s' := by
  cases change_of_step h with
  | same => exact hs
  | listened => exact hs.of_same rfl rfl rfl rfl rfl (by simp [Server.starts, Task.starts])
  | posted task hcloses _ =>
    have hnone : task.starts = none := by cases task <;> trivial
    exact hs.of_same rfl rfl rfl rfl rfl (by simp [Server.starts, hnone])
  | accepts htasks _ => exact hs.of_same rfl rfl rfl rfl rfl (starts_of_cons htasks rfl)
  | started htasks => exact hs.startConnection htasks
  | reset htasks => exact hs.of_same rfl rfl rfl rfl rfl (starts_of_cons htasks rfl)
  | stopped htasks hstop => exact (hs.stopHandler htasks hstop).1
  | ended => exact { hs with }
  | again | held => exact { hs.joined with }
  | closed hclose => exact hs.close hclose

theorem sound_run {parallelMax : ℕ} {es : List Event}
    (hrun : Run.exec (Server.step parallelMax) start es = some s) : Sound s :=
  Run.exec_keeps (fun _ _ _ hs hstep => hs.step hstep) sound_start hrun

end Invariant

end Yass.Net.Listeners
