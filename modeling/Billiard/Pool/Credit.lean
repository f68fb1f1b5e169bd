import Billiard.Data.CInt
import Billiard.Data.Pairing
import Billiard.Data.Transition
import Billiard.Pool.Supervision
import Mathlib.Data.List.Induction

/-! How the result handler credits a `READY` to the worker that has sent it, and how workers
wait for that. -/

namespace Billiard

open Pairing Transition

/-- What a worker puts on the outqueue, as far as the credit depends on it. -/
inductive TaskState where
  | ack (task : Task)
  | ready (task : Task)
deriving DecidableEq, Repr

/-- A worker that is `working` has sent the `ACK` of the task. -/
inductive WorkerPhase where
  | absent
  | idle
  | working (task : Task)
  | exited
deriving DecidableEq, Repr

/-- `onReadyCounter` is the `Value('i')` shared with the parent; of what the worker has put,
`handled` is what the result handler has handled. -/
structure CreditedWorker where
  phase : WorkerPhase
  completed : Nat
  onReadyCounter : Int32
  unread : List TaskState
  handled : List TaskState
  removed : Bool
deriving DecidableEq, Repr

/-- The dictionaries of the result handler; `on_ready_counters` is given by its keys. -/
structure CreditTables where
  workerTasks : Dict Nat Task
  taskWorkers : Dict Task Nat
  onReadyCounters : Nat → Bool

/-- `ackers` are the workers that have put the `ACK` of a task. -/
structure Crediting where
  tables : CreditTables
  workers : Nat → CreditedWorker
  ackers : Dict Task Nat

inductive CreditStep where
  | start (pid : Nat)
  | record (pid : Nat)
  | ack (pid : Nat) (task : Task)
  | ready (pid : Nat)
  | exit (pid : Nat)
  | handle (pid : Nat)
  | remove (pid : Nat)
deriving DecidableEq, Repr

namespace TaskState

def isReady : TaskState → Bool
  | .ack _ => false
  | .ready _ => true

/-- The task that was acked last, if no `READY` came after it. -/
def openTask (messages : List TaskState) : Option Task :=
  messages.foldl (fun
    | _, .ack task => some task
    | _, .ready _ => none) none

/-- A `READY` comes right after the `ACK` of its task; `before` and `last` are the open tasks at
both ends. -/
def Sent : Option Task → List TaskState → Option Task → Prop
  | before, [], last => before = last
  | _, .ack task :: messages, last => Sent (some task) messages last
  | before, .ready task :: messages, last => before = some task ∧ Sent none messages last

variable {before last : Option Task} {messages : List TaskState} {task : Task}

@[simp] theorem openTask_ack :
    openTask (messages ++ [.ack task]) = some task := by
  simp [openTask]

@[simp] theorem openTask_ready : openTask (messages ++ [.ready task]) = none := by
  simp [openTask]

theorem ack_mem_of_open (found : openTask messages = some task) : .ack task ∈ messages := by
  induction messages using List.reverseRecOn with
  | nil => cases found
  | append_singleton messages message _ =>
      cases message with
      | ack acked =>
          rw [openTask_ack] at found
          cases found
          exact List.mem_append_right messages (List.mem_singleton_self _)
      | ready done =>
          rw [openTask_ready] at found
          cases found

theorem Sent.ack (sent : Sent before messages last) (task : Task) :
    Sent before (messages ++ [.ack task]) (some task) := by
  induction messages generalizing before with
  | nil => exact rfl
  | cons message messages ih =>
      cases message with
      | ack acked => exact ih sent
      | ready done => exact ⟨sent.1, ih sent.2⟩

theorem Sent.ready (sent : Sent before messages (some task)) :
    Sent before (messages ++ [.ready task]) none := by
  induction messages generalizing before with
  | nil => exact ⟨sent, rfl⟩
  | cons message messages ih =>
      cases message with
      | ack acked => exact ih sent
      | ready done => exact ⟨sent.1, ih sent.2⟩

end TaskState

namespace CreditTables

def onAck (tables : CreditTables) (pid : Nat) (task : Task) : CreditTables :=
  let unlinked := unlink tables.workerTasks tables.taskWorkers pid
  { tables with
    workerTasks := unlinked.1.set pid task
    taskWorkers := unlinked.2.set task pid }

/-- `on_ready`, with the worker whose counter is increased. -/
def onReady (tables : CreditTables) (task : Task) : CreditTables × Option Nat :=
  let workerPid := tables.taskWorkers task
  let unlinked := unlink tables.taskWorkers tables.workerTasks task
  ({ tables with workerTasks := unlinked.2, taskWorkers := unlinked.1 },
    workerPid.filter tables.onReadyCounters)

def onWorkerExit (tables : CreditTables) (pid : Nat) : CreditTables :=
  let unlinked := unlink tables.workerTasks tables.taskWorkers pid
  { tables with workerTasks := unlinked.1, taskWorkers := unlinked.2 }

end CreditTables

namespace Crediting

def init : Crediting where
  tables := ⟨Dict.empty, Dict.empty, fun _ => false⟩
  workers _ := ⟨.absent, 0, 0, [], [], false⟩
  ackers := Dict.empty

def update (state : Crediting) (pid : Nat) (worker : CreditedWorker) : Crediting :=
  { state with workers := Function.update state.workers pid worker }

/-- `on_ready_counter.value += 1` -/
def credit (state : Crediting) : Option Nat → Crediting
  | none => state
  | some pid =>
      let worker := state.workers pid
      state.update pid { worker with onReadyCounter := worker.onReadyCounter + 1 }

/-- `on_ack` or `on_ready` for the first message of a worker that is left. -/
def handle (state : Crediting) (pid : Nat) : Option Crediting :=
  let worker := state.workers pid
  match worker.unread with
  | [] => none
  | .ack task :: unread =>
      let state := state.update pid
        { worker with unread, handled := worker.handled ++ [.ack task] }
      some { state with tables := state.tables.onAck pid task }
  | .ready task :: unread =>
      let state := state.update pid
        { worker with unread, handled := worker.handled ++ [.ready task] }
      some ({ state with tables := (state.tables.onReady task).1 }.credit
        (state.tables.onReady task).2)

/-- The messages of a worker are handled in their order; a worker is recorded in
`_on_ready_counters` after its start and removed after its exit. -/
def step (state : Crediting) : CreditStep → Option Crediting
  | .start pid =>
      let worker := state.workers pid
      if worker.phase = .absent then some (state.update pid { worker with phase := .idle })
      else none
  | .record pid =>
      let worker := state.workers pid
      if worker.phase ≠ .absent ∧ worker.removed = false ∧
          state.tables.onReadyCounters pid = false then
        some { state with tables := { state.tables with
          onReadyCounters := Function.update state.tables.onReadyCounters pid true } }
      else none
  | .ack pid task =>
      let worker := state.workers pid
      if worker.phase ≠ .absent ∧ worker.phase ≠ .exited ∧
          (state.ackers task = none ∨ state.ackers task = some pid) then
        some { state.update pid { worker with
            phase := .working task, unread := worker.unread ++ [.ack task] } with
          ackers := state.ackers.set task pid }
      else none
  | .ready pid =>
      let worker := state.workers pid
      match worker.phase with
      | .working task => some (state.update pid { worker with
          phase := .idle
          completed := worker.completed + 1
          unread := worker.unread ++ [.ready task] })
      | .absent | .idle | .exited => none
  | .exit pid =>
      let worker := state.workers pid
      if worker.phase ≠ .absent ∧ worker.phase ≠ .exited then
        some (state.update pid { worker with phase := .exited })
      else none
  | .handle pid => state.handle pid
  | .remove pid =>
      let worker := state.workers pid
      if worker.phase = .exited ∧ state.tables.onReadyCounters pid = true then
        let tables := { state.tables with
          onReadyCounters := Function.update state.tables.onReadyCounters pid false }
        some { state.update pid { worker with removed := true } with
          tables := tables.onWorkerExit pid }
      else none

/-- The condition of `_ensure_messages_consumed`. -/
def Consumed (worker : CreditedWorker) : Prop := worker.completed ≤ worker.onReadyCounter.toInt

instance : DecidablePred Consumed := fun worker =>
  inferInstanceAs (Decidable (worker.completed ≤ worker.onReadyCounter.toInt))

structure Sound (state : Crediting) : Prop where
  inverse : Inverse state.tables.workerTasks state.tables.taskWorkers
  credited : ∀ pid, (state.workers pid).removed = false →
    (state.workers pid).onReadyCounter.toInt = (state.workers pid).handled.countP TaskState.isReady

/-- A `READY` that is handled adds to the counter of its worker, and a worker does not wait once
all its messages are handled. -/
structure Credits (state : Crediting) (label : CreditStep) : Prop where
  credited : ∀ pid task unread next, label = .handle pid →
    (state.workers pid).unread = .ready task :: unread → (state.workers pid).removed = false →
    state.step label = some next →
    (next.workers pid).onReadyCounter.toInt = (state.workers pid).onReadyCounter.toInt + 1
  consumed : ∀ next, state.step label = some next → ∀ pid, (next.workers pid).removed = false →
    (next.workers pid).unread = [] → Consumed (next.workers pid)

/-- A `READY` is handled after its worker was recorded. -/
def Recorded (state : Crediting) (label : CreditStep) : Prop :=
  ∀ pid, label = .handle pid → (state.workers pid).unread.head?.any TaskState.isReady = true →
    (state.workers pid).removed = false → state.tables.onReadyCounters pid = true

instance (state : Crediting) : (label : CreditStep) → Decidable (state.Recorded label)
  | .handle pid =>
      decidable_of_iff ((state.workers pid).unread.head?.any TaskState.isReady = true →
          (state.workers pid).removed = false → state.tables.onReadyCounters pid = true)
        ⟨fun recorded _ same => CreditStep.handle.inj same ▸ recorded,
          fun recorded => recorded pid rfl⟩
  | .start _ | .record _ | .ack _ _ | .ready _ | .exit _ | .remove _ =>
      isTrue (fun _ other => CreditStep.noConfusion other)

/-- A `READY` is handled while the counter of its worker can still be increased. -/
def Countable (state : Crediting) (label : CreditStep) : Prop :=
  ∀ pid, label = .handle pid → (state.workers pid).unread.head?.any TaskState.isReady = true →
    (state.workers pid).removed = false → (state.workers pid).onReadyCounter ≠ Int32.maxValue

instance (state : Crediting) : (label : CreditStep) → Decidable (state.Countable label)
  | .handle pid =>
      decidable_of_iff ((state.workers pid).unread.head?.any TaskState.isReady = true →
          (state.workers pid).removed = false →
            (state.workers pid).onReadyCounter ≠ Int32.maxValue)
        ⟨fun countable _ same => CreditStep.handle.inj same ▸ countable,
          fun countable => countable pid rfl⟩
  | .start _ | .record _ | .ack _ _ | .ready _ | .exit _ | .remove _ =>
      isTrue (fun _ other => CreditStep.noConfusion other)

/-- What is known of one worker; `task` is what `worker_tasks` has for it. -/
structure Lane (task : Option Task) (ackers : Dict Task Nat) (pid : Nat)
    (worker : CreditedWorker) : Prop where
  tracked : worker.removed = false → task = TaskState.openTask worker.handled
  known : ∀ acked, task = some acked → .ack acked ∈ worker.handled
  acker : ∀ acked, .ack acked ∈ worker.handled ++ worker.unread → ackers acked = some pid
  sent : ∃ last, TaskState.Sent (TaskState.openTask worker.handled) worker.unread last ∧
    ∀ acked, worker.phase = .working acked → last = some acked
  completed : worker.completed = worker.handled.countP TaskState.isReady +
    worker.unread.countP TaskState.isReady
  credited : worker.removed = false →
    worker.onReadyCounter.toInt = worker.handled.countP TaskState.isReady

structure Consistent (state : Crediting) : Prop where
  inverse : Inverse state.tables.workerTasks state.tables.taskWorkers
  lanes : ∀ pid, Lane (state.tables.workerTasks pid) state.ackers pid (state.workers pid)

variable {state next : Crediting} {pid : Nat}

@[simp] theorem update_self (worker : CreditedWorker) :
    (state.update pid worker).workers pid = worker :=
  Function.update_self ..

@[simp] theorem update_tables (worker : CreditedWorker) :
    (state.update pid worker).tables = state.tables := rfl

theorem update_of_ne {other : Nat} (different : other ≠ pid) (worker : CreditedWorker) :
    (state.update pid worker).workers other = state.workers other :=
  Function.update_of_ne different ..

theorem Lane.mono {task : Option Task} {ackers after : Dict Task Nat} {worker : CreditedWorker}
    (lane : Lane task ackers pid worker)
    (kept : ∀ acked, ackers acked = some pid → after acked = some pid) :
    Lane task after pid worker :=
  { lane with acker := fun acked listed => kept acked (lane.acker acked listed) }

theorem Consistent.move (consistent : state.Consistent) (pid : Nat)
    (inverse : Inverse next.tables.workerTasks next.tables.taskWorkers)
    (own : Lane (next.tables.workerTasks pid) next.ackers pid (next.workers pid))
    (tasks : ∀ other, other ≠ pid →
      next.tables.workerTasks other = state.tables.workerTasks other)
    (workers : ∀ other, other ≠ pid → next.workers other = state.workers other)
    (kept : ∀ acked other, state.ackers acked = some other → next.ackers acked = some other) :
    next.Consistent where
  inverse := inverse
  lanes other := by
    by_cases here : other = pid
    · exact here ▸ own
    · rw [tasks other here, workers other here]
      exact (consistent.lanes other).mono fun acked => kept acked other

theorem Consistent.acker (consistent : state.Consistent) {task : Task} {other : Nat}
    (found : state.tables.taskWorkers task = some other) : state.ackers task = some other := by
  have lane := consistent.lanes other
  have listed := lane.known task ((consistent.inverse other task).mpr found)
  exact lane.acker task (List.mem_append_left _ listed)

theorem consistent_init : init.Consistent where
  inverse := inverse_empty
  lanes pid :=
    { tracked := fun _ => rfl
      known := by simp [init]
      acker := by simp [init]
      sent := ⟨none, rfl, by simp [init]⟩
      completed := rfl
      credited := fun _ => rfl }

theorem Consistent.pause (consistent : state.Consistent) {phase : WorkerPhase}
    (pauses : ∀ task, phase ≠ .working task) :
    (state.update pid { state.workers pid with phase }).Consistent := by
  have lane := consistent.lanes pid
  refine consistent.move pid consistent.inverse ?_ (fun _ _ => rfl)
    (fun other different => update_of_ne different _) (fun _ _ => id)
  rw [update_self]
  obtain ⟨last, sent, _⟩ := lane.sent
  exact { lane with sent := ⟨last, sent, fun task working => absurd working (pauses task)⟩ }

theorem Consistent.start (consistent : state.Consistent)
    (taken : state.step (.start pid) = some next) : next.Consistent := by
  unfold step at taken
  simp only at taken
  split at taken
  · cases taken
    exact consistent.pause (by simp)
  · cases taken

theorem Consistent.record (consistent : state.Consistent)
    (taken : state.step (.record pid) = some next) : next.Consistent := by
  unfold step at taken
  simp only at taken
  split at taken
  · cases taken
    exact ⟨consistent.inverse, consistent.lanes⟩
  · cases taken

theorem Consistent.ack {task : Task} (consistent : state.Consistent)
    (taken : state.step (.ack pid task) = some next) : next.Consistent := by
  unfold step at taken
  simp only at taken
  split at taken
  · rename_i enabled
    cases taken
    have lane := consistent.lanes pid
    have kept : ∀ acked other, state.ackers acked = some other →
        state.ackers.set task pid acked = some other := by
      intro acked other listed
      rw [Dict.set_eq_some]
      by_cases same : acked = task
      · rcases enabled.2.2 with none | own
        · rw [same, none] at listed
          cases listed
        · rw [same, own] at listed
          exact .inl ⟨same, Option.some.inj listed⟩
      · exact .inr ⟨same, listed⟩
    refine consistent.move pid consistent.inverse ?_ (fun _ _ => rfl)
      (fun other different => update_of_ne different _) kept
    simp only [update_self]
    obtain ⟨last, sent, _⟩ := lane.sent
    refine { lane with acker := ?_, sent := ⟨some task, sent.ack task, ?_⟩, completed := ?_ }
    · intro acked listed
      rw [← List.append_assoc, List.mem_append] at listed
      rcases listed with earlier | this
      · exact kept acked pid (lane.acker acked earlier)
      · cases List.mem_singleton.mp this
        exact Dict.set_eq_some.mpr (.inl ⟨rfl, rfl⟩)
    · intro acked working
      cases working
      rfl
    · rw [lane.completed, List.countP_append]
      rfl
  · cases taken

theorem Consistent.ready (consistent : state.Consistent)
    (taken : state.step (.ready pid) = some next) : next.Consistent := by
  unfold step at taken
  simp only at taken
  split at taken
  · rename_i task working
    cases taken
    have lane := consistent.lanes pid
    refine consistent.move pid consistent.inverse ?_ (fun _ _ => rfl)
      (fun other different => update_of_ne different _) (fun _ _ => id)
    simp only [update_self]
    obtain ⟨last, sent, current⟩ := lane.sent
    rw [current task working] at sent
    refine { lane with acker := ?_, sent := ⟨none, sent.ready, by simp⟩, completed := ?_ }
    · intro acked listed
      rw [← List.append_assoc, List.mem_append] at listed
      rcases listed with earlier | this
      · exact lane.acker acked earlier
      · cases List.mem_singleton.mp this
    · rw [lane.completed, List.countP_append, Nat.add_assoc]
      rfl
  all_goals cases taken

theorem Consistent.exit (consistent : state.Consistent)
    (taken : state.step (.exit pid) = some next) : next.Consistent := by
  unfold step at taken
  simp only at taken
  split at taken
  · cases taken
    exact consistent.pause (by simp)
  · cases taken

theorem Consistent.remove (consistent : state.Consistent)
    (taken : state.step (.remove pid) = some next) : next.Consistent := by
  unfold step at taken
  simp only at taken
  split at taken
  · cases taken
    have lane := consistent.lanes pid
    refine consistent.move pid (consistent.inverse.unlink pid) ?_ ?_
      (fun other different => update_of_ne different _) (fun _ _ => id)
    · simp only [update_self]
      refine { lane with tracked := by simp, known := ?_, credited := by simp }
      intro acked found
      exact absurd rfl (Dict.erase_eq_some.mp found).1
    · intro other different
      exact (Dict.erase_apply ..).trans (if_neg different)
  · cases taken

theorem Consistent.handleAck {task : Task} {unread : List TaskState}
    (consistent : state.Consistent)
    (first : (state.workers pid).unread = .ack task :: unread)
    (taken : state.step (.handle pid) = some next) : next.Consistent := by
  have lane := consistent.lanes pid
  have acked : state.ackers task = some pid := by
    apply lane.acker
    rw [first]
    exact List.mem_append_right _ List.mem_cons_self
  have unlinked := consistent.inverse.unlink pid
  simp only [step, handle, first, Option.some.injEq] at taken
  subst taken
  refine consistent.move pid (unlinked.link ?_ ?_) ?_ ?_
    (fun other different => update_of_ne different _) (fun _ _ => id)
  · exact (Dict.erase_apply ..).trans (if_pos rfl)
  · -- only the worker itself can have the task
    cases held : (unlink state.tables.workerTasks state.tables.taskWorkers pid).2 task with
    | none => rfl
    | some other =>
        obtain ⟨different, found⟩ := Dict.erase_eq_some.mp ((unlinked other task).mpr held)
        have own := consistent.acker ((consistent.inverse other task).mp found)
        exact absurd (Option.some.inj (own.symm.trans acked)) different
  · simp only [update_self]
    obtain ⟨last, sent, current⟩ := lane.sent
    rw [first] at sent
    refine ⟨fun _ => ?_, ?_, ?_, ⟨last, ?_, current⟩, ?_, ?_⟩
    · rw [TaskState.openTask_ack]
      exact Dict.set_eq_some.mpr (.inl ⟨rfl, rfl⟩)
    · intro other found
      rcases Dict.set_eq_some.mp found with ⟨_, rfl⟩ | ⟨different, _⟩
      · exact List.mem_append_right _ (List.mem_singleton_self _)
      · exact absurd rfl different
    · intro other listed
      apply lane.acker other
      rw [first]
      simpa using listed
    · rw [TaskState.openTask_ack]
      exact sent
    · rw [lane.completed, first, List.countP_append]
      simp [TaskState.isReady]
    · intro present
      rw [lane.credited present, List.countP_append]
      rfl
  · intro other different
    exact (Dict.set_apply ..).trans ((if_neg different).trans
      ((Dict.erase_apply ..).trans (if_neg different)))

/-- The worker that has sent a `READY` is the only one that may be found for it, and it is found
unless it was removed. -/
theorem Consistent.sender {task : Task} {unread : List TaskState} (consistent : state.Consistent)
    (first : (state.workers pid).unread = .ready task :: unread) :
    (state.tables.taskWorkers task = none ∧ (state.workers pid).removed = true) ∨
      state.tables.taskWorkers task = some pid := by
  have lane := consistent.lanes pid
  obtain ⟨last, sent, _⟩ := lane.sent
  rw [first] at sent
  have listed := TaskState.ack_mem_of_open sent.1
  cases found : state.tables.taskWorkers task with
  | none =>
      refine .inl ⟨rfl, ?_⟩
      by_contra present
      have tracked := lane.tracked (by simpa using present)
      rw [sent.1, consistent.inverse, found] at tracked
      cases tracked
  | some other =>
      have acked := lane.acker task (List.mem_append_left _ listed)
      exact .inr (acked.symm.trans (consistent.acker found)).symm

/-- What the handling of a `READY` does: nothing is added to the counter of a worker that is not
recorded. -/
theorem Consistent.handle_ready {task : Task} {unread : List TaskState}
    (consistent : state.Consistent)
    (first : (state.workers pid).unread = .ready task :: unread)
    (taken : state.step (.handle pid) = some next) :
    next.tables = (state.tables.onReady task).1 ∧ next.ackers = state.ackers ∧
      (∀ other, other ≠ pid → next.workers other = state.workers other) ∧
      next.workers pid = { state.workers pid with
        unread
        handled := (state.workers pid).handled ++ [.ready task]
        onReadyCounter := (state.workers pid).onReadyCounter +
          if state.tables.taskWorkers task = some pid ∧
            state.tables.onReadyCounters pid = true then 1 else 0 } := by
  simp only [step, handle, first, update_tables, Option.some.injEq] at taken
  subst taken
  rcases consistent.sender first with ⟨none, _⟩ | found
  · have nobody : (state.tables.onReady task).2 = Option.none := by
      simp [CreditTables.onReady, none]
    rw [nobody]
    refine ⟨rfl, rfl, fun other different => update_of_ne different _, ?_⟩
    simp [credit, none]
  · cases recorded : state.tables.onReadyCounters pid with
    | false =>
        have nobody : (state.tables.onReady task).2 = none := by
          simp [CreditTables.onReady, found, recorded]
        rw [nobody]
        refine ⟨rfl, rfl, fun other different => update_of_ne different _, ?_⟩
        simp [credit]
    | true =>
        have sender : (state.tables.onReady task).2 = some pid := by
          simp [CreditTables.onReady, found, recorded]
        rw [sender]
        refine ⟨rfl, rfl, ?_, ?_⟩
        · intro other different
          exact (update_of_ne different _).trans (update_of_ne different _)
        · simp [credit, found]

theorem Consistent.handleReady {task : Task} {unread : List TaskState}
    (consistent : state.Consistent) (recorded : state.Recorded (.handle pid))
    (countable : state.Countable (.handle pid))
    (first : (state.workers pid).unread = .ready task :: unread)
    (taken : state.step (.handle pid) = some next) : next.Consistent := by
  have lane := consistent.lanes pid
  have sender := consistent.sender first
  obtain ⟨tables, ackers, workers, worker⟩ := consistent.handle_ready first taken
  have key := recorded pid rfl (by rw [first]; rfl)
  have below := countable pid rfl (by rw [first]; rfl)
  obtain ⟨last, sent, current⟩ := lane.sent
  rw [first] at sent
  have tasks : next.tables.workerTasks =
      (unlink state.tables.taskWorkers state.tables.workerTasks task).2 := by
    rw [tables]
    rfl
  refine consistent.move pid ?_ ?_ ?_ workers (by rw [ackers]; exact fun _ _ => id)
  · rw [tables]
    exact (consistent.inverse.symm.unlink task).symm
  · rw [worker, ackers, tasks]
    refine ⟨?_, ?_, ?_, ⟨last, ?_, current⟩, ?_, ?_⟩
    · intro present
      rw [TaskState.openTask_ready]
      rcases sender with ⟨_, removed⟩ | found
      · exact absurd (present.symm.trans removed) (by simp)
      · rw [unlink_of_some found]
        exact (Dict.erase_apply ..).trans (if_pos rfl)
    · intro acked held
      apply List.mem_append_left
      apply lane.known
      rcases sender with ⟨none, _⟩ | found
      · rwa [unlink_of_none none] at held
      · rw [unlink_of_some found] at held
        exact (Dict.erase_eq_some.mp held).2
    · intro acked listed
      apply lane.acker acked
      rw [first]
      simpa using listed
    · rw [TaskState.openTask_ready]
      exact sent.2
    · have one : [TaskState.ready task].countP TaskState.isReady = 1 := rfl
      dsimp only
      rw [lane.completed, first, List.countP_append, one, List.countP_cons_of_pos rfl]
      omega
    · intro present
      rcases sender with ⟨_, removed⟩ | found
      · exact absurd (present.symm.trans removed) (by simp)
      · rw [if_pos ⟨found, key present⟩, CInt.toInt_succ (below present), lane.credited present,
          List.countP_append]
        rfl
  · intro other different
    rw [tasks]
    rcases sender with ⟨none, _⟩ | found
    · rw [unlink_of_none none]
    · rw [unlink_of_some found]
      exact (Dict.erase_apply ..).trans (if_neg different)

theorem Consistent.step {label : CreditStep} (consistent : state.Consistent)
    (recorded : state.Recorded label) (countable : state.Countable label)
    (taken : state.step label = some next) : next.Consistent := by
  cases label with
  | start pid => exact consistent.start taken
  | record pid => exact consistent.record taken
  | ack pid task => exact consistent.ack taken
  | ready pid => exact consistent.ready taken
  | exit pid => exact consistent.exit taken
  | remove pid => exact consistent.remove taken
  | handle pid =>
      cases first : (state.workers pid).unread with
      | nil => simp [Crediting.step, handle, first] at taken
      | cons message unread =>
          cases message with
          | ack task => exact consistent.handleAck first taken
          | ready task => exact consistent.handleReady recorded countable first taken

/-- However the messages of recorded workers are handled and workers are removed, the two
dictionaries stay inverse, and every counter that has not come to its end is the number of
`READY`s handled of its worker. -/
theorem credit_sound {labels : List CreditStep} (recorded : Along step Recorded init labels)
    (countable : Along step Countable init labels)
    (ran : run step init labels = some state) : state.Sound := by
  have kept : Preserves Crediting.step (fun state label => state.Recorded label ∧
      state.Countable label) Consistent :=
    fun _ _ _ consistent met taken => consistent.step met.1 met.2 taken
  have consistent := invariant_along kept consistent_init (recorded.and countable) ran
  exact ⟨consistent.inverse, fun pid => (consistent.lanes pid).credited⟩

theorem Consistent.creditable_of_credits {label : CreditStep} (consistent : state.Consistent)
    (credits : state.Credits label) : state.Recorded label ∧ state.Countable label := by
  have counts : ∀ pid, label = .handle pid →
      (state.workers pid).unread.head?.any TaskState.isReady = true →
      (state.workers pid).removed = false →
      state.tables.onReadyCounters pid = true ∧
        (state.workers pid).onReadyCounter ≠ Int32.maxValue := by
    intro pid same waiting present
    subst same
    cases first : (state.workers pid).unread with
    | nil =>
        rw [first] at waiting
        cases waiting
    | cons message unread =>
        cases message with
        | ack task =>
            rw [first] at waiting
            cases waiting
        | ready task =>
            obtain ⟨next, taken⟩ : ∃ next, state.step (.handle pid) = some next := by
              simp [Crediting.step, handle, first]
            obtain ⟨_, _, _, worker⟩ := consistent.handle_ready first taken
            have credited := credits.credited pid task unread next rfl first present taken
            rw [worker] at credited
            by_cases credit : state.tables.taskWorkers task = some pid ∧
                state.tables.onReadyCounters pid = true
            · rw [if_pos credit] at credited
              exact ⟨credit.2, CInt.ne_maxValue_of_succ credited⟩
            · rw [if_neg credit, Int32.add_zero] at credited
              dsimp only at credited
              omega
  exact ⟨fun pid same waiting present => (counts pid same waiting present).1,
    fun pid same waiting present => (counts pid same waiting present).2⟩

theorem Consistent.credits_of_creditable {label : CreditStep} (consistent : state.Consistent)
    (recorded : state.Recorded label) (countable : state.Countable label) :
    state.Credits label := by
  constructor
  · intro pid task unread next same first present taken
    subst same
    obtain ⟨_, _, _, worker⟩ := consistent.handle_ready first taken
    have found : state.tables.taskWorkers task = some pid := by
      rcases consistent.sender first with ⟨_, removed⟩ | found
      · exact absurd (present.symm.trans removed) (by simp)
      · exact found
    rw [worker, if_pos ⟨found, recorded pid rfl (by rw [first]; rfl) present⟩]
    exact CInt.toInt_succ (countable pid rfl (by rw [first]; rfl) present)
  · intro next taken pid present drained
    have lane := (consistent.step recorded countable taken).lanes pid
    unfold Consumed
    rw [lane.completed, lane.credited present, drained]
    exact Int.le_refl _

/-- Every `READY` of a worker that is not reaped is credited, and no such worker waits in vain for
its messages to be consumed, exactly if none of its `READY`s is handled before it is recorded or
with a counter that has come to its end. -/
theorem credits_iff (labels : List CreditStep) :
    Along step Credits init labels ↔
      Along step (fun state label => state.Recorded label ∧ state.Countable label) init labels := by
  refine along_congr ?_ ?_ consistent_init
  · intro state label next consistent met taken
    exact consistent.step met.1 met.2 taken
  · intro state label consistent
    exact ⟨consistent.creditable_of_credits,
      fun met => consistent.credits_of_creditable met.1 met.2⟩

/-- Worker 7 is killed while it runs its first task, and its second message comes after it was
removed; worker 8 gets a `NACK` and runs another task. -/
def killedAndRefused : List CreditStep :=
  [.start 7, .record 7, .start 8, .record 8, .ack 7 ⟨0, .none⟩, .ready 7, .ack 7 ⟨1, .none⟩,
    .ack 8 ⟨2, .none⟩, .handle 7, .handle 8, .handle 7, .ack 8 ⟨3, .none⟩, .ready 8, .handle 8,
    .exit 7, .remove 7, .handle 7, .handle 8]

theorem recorded_killedAndRefused :
    ∃ state, run step init killedAndRefused = some state ∧ state.Sound := by
  have recorded : Along step Recorded init killedAndRefused := by decide
  have ran : (run step init killedAndRefused).isSome = true := by decide
  obtain ⟨state, ran⟩ := Option.isSome_iff_exists.mp ran
  have countable : Along step Countable init killedAndRefused := by decide
  exact ⟨state, ran, credit_sound recorded countable ran⟩

/-- Worker 7 acks a task and runs it, and both messages are handled. -/
def turn (number : Nat) : List CreditStep :=
  [.ack 7 ⟨number, .none⟩, .ready 7, .handle 7, .handle 7]

def turns (number : Nat) : List CreditStep :=
  [.start 7, .record 7] ++ (List.range number).flatMap turn

/-- The recorded worker 7 has not acked the task `number` yet or any later one, and `ready` of its
`READY`s are handled. -/
structure Turning (state : Crediting) (phase : WorkerPhase) (unread : List TaskState)
    (number ready : Nat) : Prop where
  phase : (state.workers 7).phase = phase
  unread : (state.workers 7).unread = unread
  present : (state.workers 7).removed = false
  recorded : state.tables.onReadyCounters 7 = true
  fresh : ∀ later, number ≤ later → state.ackers ⟨later, .none⟩ = none
  ready : (state.workers 7).handled.countP TaskState.isReady = ready

variable {phase : WorkerPhase} {unread : List TaskState} {number ready : Nat} {task : Task}

theorem Turning.ack (turning : state.Turning .idle [] number ready) :
    ∃ next, state.step (.ack 7 ⟨number, .none⟩) = some next ∧
      next.Turning (.working ⟨number, .none⟩) [.ack ⟨number, .none⟩] (number + 1) ready := by
  refine ⟨_, by simp [step, turning.phase, turning.fresh number (Nat.le_refl _)]; rfl, ?_⟩
  refine ⟨by simp, by simp [turning.unread], by simp [turning.present], turning.recorded, ?_,
    by simp [turning.ready]⟩
  intro later below
  have other : (⟨later, .none⟩ : Task) ≠ ⟨number, .none⟩ := by
    intro same
    cases same
    omega
  exact (Dict.set_apply ..).trans ((if_neg other).trans (turning.fresh later (by omega)))

theorem Turning.put (turning : state.Turning (.working task) unread number ready) :
    ∃ next, state.step (.ready 7) = some next ∧
      next.Turning .idle (unread ++ [.ready task]) number ready := by
  refine ⟨_, by simp only [step, turning.phase]; rfl, ?_⟩
  exact ⟨by simp, by simp [turning.unread], by simp [turning.present], turning.recorded,
    turning.fresh, by simp [turning.ready]⟩

theorem Turning.handleAck (turning : state.Turning phase (.ack task :: unread) number ready) :
    ∃ next, state.step (.handle 7) = some next ∧ next.Turning phase unread number ready := by
  refine ⟨_, by simp only [step, handle, turning.unread]; rfl, ?_⟩
  exact ⟨by simp [turning.phase], by simp, by simp [turning.present], turning.recorded,
    turning.fresh, by simp [turning.ready, TaskState.isReady]⟩

/-- Nothing but counters is changed. -/
theorem credit_keeps (state : Crediting) (sender : Option Nat) :
    (state.credit sender).tables = state.tables ∧ (state.credit sender).ackers = state.ackers ∧
      ∀ other, ∃ onReadyCounter,
        (state.credit sender).workers other = { state.workers other with onReadyCounter } := by
  cases sender with
  | none => exact ⟨rfl, rfl, fun _ => ⟨_, rfl⟩⟩
  | some pid =>
      refine ⟨rfl, rfl, fun other => ?_⟩
      by_cases same : other = pid
      · subst same
        exact ⟨_, update_self _⟩
      · exact ⟨_, update_of_ne same _⟩

theorem Turning.handleReady (turning : state.Turning phase (.ready task :: unread) number ready) :
    ∃ next, state.step (.handle 7) = some next ∧
      next.Turning phase unread number (ready + 1) := by
  refine ⟨_, by simp only [step, handle, turning.unread]; rfl, ?_⟩
  obtain ⟨tables, ackers, workers⟩ := credit_keeps { state.update 7 { state.workers 7 with
    unread, handled := (state.workers 7).handled ++ [.ready task] } with
      tables := (state.tables.onReady task).1 } (state.tables.onReady task).2
  obtain ⟨counter, worker⟩ := workers 7
  rw [update_self] at worker
  refine ⟨?_, ?_, ?_, ?_, ?_, ?_⟩
  · exact (congrArg CreditedWorker.phase worker).trans turning.phase
  · exact congrArg CreditedWorker.unread worker
  · exact (congrArg CreditedWorker.removed worker).trans turning.present
  · exact (congrFun (congrArg CreditTables.onReadyCounters tables) 7).trans turning.recorded
  · exact fun later below => (congrFun ackers _).trans (turning.fresh later below)
  · refine (congrArg (fun worker => worker.handled.countP TaskState.isReady) worker).trans ?_
    simp [turning.ready, TaskState.isReady]

theorem Turning.recorded_of (turning : state.Turning phase unread number ready)
    {label : CreditStep} (own : ∀ pid, label = .handle pid → pid = 7) : state.Recorded label := by
  intro pid same _ _
  rw [own pid same]
  exact turning.recorded

theorem Turning.turn (turning : state.Turning .idle [] number ready) :
    ∃ next, run step state (turn number) = some next ∧ Along step Recorded state (turn number) ∧
      next.Turning .idle [] (number + 1) (ready + 1) := by
  obtain ⟨acked, ack, one⟩ := turning.ack
  obtain ⟨put, done, two⟩ := one.put
  obtain ⟨linked, handledAck, three⟩ := two.handleAck
  obtain ⟨last, handledReady, four⟩ := three.handleReady
  refine ⟨last, ?_, ?_, four⟩
  · simp [Crediting.turn, run, ack, done, handledAck, handledReady]
  · have handled : ∀ pid, CreditStep.handle 7 = .handle pid → pid = 7 := by
      rintro _ ⟨⟩
      rfl
    have nothing : Along step Recorded last [] := True.intro
    have behind := Along.cons (three.recorded_of handled) handledReady nothing
    have between := Along.cons (two.recorded_of handled) handledAck behind
    have sent := Along.cons (one.recorded_of (by simp)) done between
    exact Along.cons (turning.recorded_of (by simp)) ack sent

theorem turned (number : Nat) :
    ∃ state, run step init (turns number) = some state ∧
      Along step Recorded init (turns number) ∧ state.Turning .idle [] number number := by
  induction number with
  | zero => exact ⟨_, rfl, by decide, rfl, rfl, rfl, rfl, fun _ _ => rfl, rfl⟩
  | succ number ih =>
      obtain ⟨state, ran, recorded, turning⟩ := ih
      obtain ⟨next, rest, along, turned⟩ := turning.turn
      have split : turns (number + 1) = turns number ++ turn number := by
        simp [turns, List.range_succ]
      rw [split]
      exact ⟨next, run_append_eq_some.mpr ⟨state, ran, rest⟩,
        recorded.append ran along, turned⟩

/-- A worker that has run `2 ^ 31` tasks has more `READY`s handled than its counter can say. -/
theorem not_credit_sound :
    ∃ state, run step init (turns (2 ^ 31)) = some state ∧
      Along step Recorded init (turns (2 ^ 31)) ∧ (state.workers 7).removed = false ∧
      ¬state.Sound := by
  obtain ⟨state, ran, recorded, turning⟩ := turned (2 ^ 31)
  refine ⟨state, ran, recorded, turning.present, fun sound => ?_⟩
  have counted := sound.credited 7 turning.present
  rw [turning.ready] at counted
  exact CInt.toInt_ne_of_le (Nat.le_refl _) counted

/-- Both messages of a worker are handled before the parent comes to record it. -/
theorem not_credits :
    ∃ state, run step init [.start 7, .ack 7 ⟨0, .none⟩, .ready 7, .handle 7, .handle 7,
        .record 7] = some state ∧
      ¬Consumed (state.workers 7) ∧
      ¬Along step Credits init [.start 7, .ack 7 ⟨0, .none⟩, .ready 7, .handle 7, .handle 7,
        .record 7] := by
  refine ⟨_, rfl, by decide, ?_⟩
  intro along
  have ran : run step init [.start 7, .ack 7 ⟨0, .none⟩, .ready 7, .handle 7] = some _ := rfl
  have rest := along_append ran along
  exact absurd (rest.1.credited 7 _ _ _ rfl rfl rfl rfl) (by decide)

end Crediting

end Billiard
