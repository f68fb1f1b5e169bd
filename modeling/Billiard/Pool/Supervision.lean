import Billiard.Data.Tally
import Billiard.Data.Transition
import Billiard.Pool.Job

/-! A running pool: workers that take tasks, acknowledge them, answer and exit,
the result handler, and the passes of `_join_exited_workers`, interleaved. -/

namespace Billiard

structure Task where
  job : Nat
  i : Index
deriving DecidableEq, Repr

inductive Entry where
  | put (task : Task)
  | setLength (job length : Nat)
deriving DecidableEq, Repr

/-- `serial` tells processes apart that were given the same pid one after the
other; `task` has been taken off the inqueue and not answered. -/
structure Worker where
  serial : Nat
  pid : Nat
  exitcode : Option Int
  jobTerminated : Bool
  task : Option Task
  acked : Bool
deriving DecidableEq, Repr

/-- A message in the outqueue, with the worker that wrote it. -/
structure Report (α : Type u) where
  serial : Nat
  task : Task
  message : Message α
deriving DecidableEq, Repr

structure Acknowledgement where
  serial : Nat
  pid : Nat
  task : Task
deriving DecidableEq, Repr

/-- Where `_join_exited_workers` stands; jobs go by their numbers. -/
inductive Pass where
  | idle
  | marking (shutdown : Bool) (now : Option Nat) (selected : List Nat)
  | reaping (i : Nat) (cleaned : List Worker)
  | scanning (cleaned : List Worker) (allPids todo : List Nat)

/-- `jobs` are the jobs submitted so far, in the order of their numbers; `taken`,
`acks` and `readies` are the history of tasks taken and messages handled. -/
structure Pool (α : Type u) where
  clock : Nat
  jobs : List (Job α)
  taskqueue : List Entry
  inqueue : List Task
  outqueue : List (Report α)
  workers : List Worker
  pass : Pass
  raised : Option Raised
  serials : Nat
  taken : List (Nat × Task)
  acks : List Acknowledgement
  readies : List Task

inductive Submission where
  | apply (options : ApplyOptions)
  | map (chunksize length : Nat) (callback errorCallback : Option Callback)
  | imap (length lostWorkerTimeout : Nat)
  | imapUnordered (length lostWorkerTimeout : Nat)
deriving DecidableEq, Repr

namespace Submission

def job (number : Nat) : Submission → Job α
  | .apply options => .apply (.init number options)
  | .map chunksize length callback errorCallback =>
      .map (.init number (if length = 0 then 0 else chunksize) length callback errorCallback)
  | .imap _ lostWorkerTimeout => .imap (.init number lostWorkerTimeout)
  | .imapUnordered _ lostWorkerTimeout => .imapUnordered (.init number lostWorkerTimeout)

def puts (number length : Nat) : List Entry :=
  (List.range length).map fun i => .put ⟨number, .position i⟩

/-- A map has a task for each chunk; the length of an `imap` follows its tasks. -/
def entries (number : Nat) : Submission → List Entry
  | .apply _ => [.put ⟨number, .none⟩]
  | .map chunksize length _ _ => puts number ((length + chunksize - 1) / chunksize)
  | .imap length _ | .imapUnordered length _ =>
      puts number length ++ [.setLength number length]

end Submission

inductive PoolStep (α : Type u) where
  | tick
  | submit (submission : Submission)
  | feed
  | spawn (pid : Nat)
  | take (serial : Nat)
  | sendAck (serial : Nat) (synqWFd : Option Nat)
  | sendReady (serial : Nat) (outcome : Outcome α)
  | exit (serial : Nat) (code : Int)
  | terminateJob (serial : Nat)
  | handle
  | join (shutdown : Bool)
  | advance
deriving DecidableEq

namespace Pool

def init : Pool α where
  clock := 0
  jobs := []
  taskqueue := []
  inqueue := []
  outqueue := []
  workers := []
  pass := .idle
  raised := none
  serials := 0
  taken := []
  acks := []
  readies := []

def pids (pool : Pool α) : List Nat := pool.workers.map Worker.pid

def running (pool : Pool α) (serial : Nat) : Option Worker :=
  pool.workers.find? fun worker => worker.serial == serial && worker.exitcode.isNone

def modifyWorker (pool : Pool α) (serial : Nat) (f : Worker → Worker) : Pool α :=
  { pool with workers := pool.workers.map fun worker =>
      if worker.serial = serial then f worker else worker }

/-- The numbers of the jobs that are in the cache and satisfy `condition`. -/
def cache (pool : Pool α) (condition : Job α → Bool) : List Nat :=
  (List.range pool.jobs.length).filter fun number =>
    pool.jobs[number]?.any fun job => job.cached && condition job

def store (pool : Pool α) (number : Nat) (result : Job α × Option Raised) : Pool α :=
  { pool with jobs := pool.jobs.set number result.1, raised := result.2 }

/-- An exception that the caller of a method catches. -/
def catching (caught : List Raised) (result : Job α × Option Raised) : Job α × Option Raised :=
  (result.1, result.2.filter (· ∉ caught))

/-- `on_ack` and `on_ready` -/
def onStateChange (iter : α → List α) (pool : Pool α) (report : Report α) : Pool α :=
  match report.message with
  | .ack timeAccepted pid synqWFd =>
      let pool := { pool with acks := pool.acks ++ [⟨report.serial, pid, report.task⟩] }
      match pool.jobs[report.task.job]? with
      | none => pool
      | some job =>
          if job.cached then
            pool.store report.task.job
              (catching [.keyError, .attributeError]
                (job.ack report.task.i timeAccepted pid synqWFd))
          else pool
  | .ready outcome =>
      let pool := { pool with readies := pool.readies ++ [report.task] }
      match pool.jobs[report.task.job]? with
      | none => pool
      | some job =>
          if job.cached then
            pool.store report.task.job
              (catching [.keyError] (job.set iter report.task.i outcome))
          else pool

def markAsWorkerLost (iter : α → List α) (pool : Pool α) (number : Nat) (job : Job α)
    (exitcode : Int) : Pool α :=
  pool.store number (job.set iter .none (.failure (.workerLost exitcode number)))

def gone (cleaned : List Worker) (allPids : List Nat) (pid : Nat) : Bool :=
  cleaned.any (·.pid == pid) || !allPids.contains pid

def scanJob (iter : α → List α) (clock : Nat) (cleaned : List Worker) (allPids : List Nat)
    (job : Job α) : Job α × Option Raised :=
  match (job.workerPids.find? (gone cleaned allPids)).filter (· ≠ 0) with
  | some pid =>
      if job.ready then (job, none)
      else
        let proc := cleaned.find? (·.pid == pid)
        let exitcode := (proc.bind Worker.exitcode).getD 0
        if proc.any Worker.jobTerminated then job.setTerminated iter exitcode
        else (job.setWorkerLost clock exitcode, none)
  | none =>
      -- `job._write_to`, which the iterators do not have
      match job with
      | .apply _ | .map _ => (job, none)
      | .imap _ | .imapUnordered _ => (job, some .attributeError)

def advance (iter : α → List α) (pool : Pool α) : Option (Pool α) :=
  match pool.pass with
  | .idle => none
  | .marking shutdown now (number :: selected) =>
      match pool.jobs[number]? with
      | none => none
      | some job =>
          let reading := now.getD pool.clock
          let pool := { pool with pass := .marking shutdown (some reading) selected }
          match job.workerLost with
          | none => none
          | some (lostTime, lostRet) =>
              if lostTime + job.lostWorkerTimeout < reading then
                some (pool.markAsWorkerLost iter number job lostRet)
              else some pool
  | .marking shutdown _ [] =>
      if shutdown && pool.workers.isEmpty then some { pool with pass := .idle }
      else some { pool with pass := .reaping pool.workers.length [] }
  | .reaping (i + 1) cleaned =>
      match pool.workers[i]? with
      | none => none
      | some worker =>
          if worker.exitcode.isSome then
            some { pool with
              workers := pool.workers.eraseIdx i
              pass := .reaping i (worker :: cleaned) }
          else some { pool with pass := .reaping i cleaned }
  | .reaping 0 cleaned =>
      if cleaned.isEmpty then some { pool with pass := .idle }
      else some { pool with pass := .scanning cleaned pool.pids (pool.cache fun _ => true) }
  | .scanning cleaned allPids (number :: todo) =>
      match pool.jobs[number]? with
      | none => none
      | some job =>
          some ({ pool with pass := .scanning cleaned allPids todo }.store number
            (scanJob iter pool.clock cleaned allPids job))
  | .scanning _ _ [] => some { pool with pass := .idle }

def step (iter : α → List α) (pool : Pool α) (label : PoolStep α) : Option (Pool α) :=
  if pool.raised.isSome then none
  else match label with
  | .tick => some { pool with clock := pool.clock + 1 }
  | .submit submission =>
      some { pool with
        jobs := pool.jobs ++ [submission.job pool.jobs.length]
        taskqueue := pool.taskqueue ++ submission.entries pool.jobs.length }
  | .feed =>
      match pool.taskqueue with
      | [] => none
      | .put task :: taskqueue => some { pool with taskqueue, inqueue := pool.inqueue ++ [task] }
      | .setLength number length :: taskqueue =>
          pool.jobs[number]?.map fun job =>
            { pool with taskqueue }.store number (job.setLength length)
  | .spawn pid =>
      match pool.pass with
      | .idle =>
          if pid ≠ 0 ∧ pid ∉ pool.pids then
            some { pool with
              workers := pool.workers ++ [⟨pool.serials, pid, none, false, none, false⟩]
              serials := pool.serials + 1 }
          else none
      | _ => none
  | .take serial =>
      match pool.running serial, pool.inqueue with
      | some worker, task :: inqueue =>
          if worker.task.isNone then
            some ({ pool with inqueue, taken := pool.taken ++ [(serial, task)] }.modifyWorker
              serial fun worker => { worker with task := some task, acked := false })
          else none
      | _, _ => none
  | .sendAck serial synqWFd =>
      match pool.running serial with
      | none => none
      | some worker =>
          match worker.task, worker.acked with
          | some task, false =>
              let report := Report.mk serial task (.ack pool.clock worker.pid synqWFd)
              some ({ pool with outqueue := pool.outqueue ++ [report] }.modifyWorker serial
                fun worker => { worker with acked := true })
          | _, _ => none
  | .sendReady serial outcome =>
      match pool.running serial with
      | none => none
      | some worker =>
          match worker.task, worker.acked with
          | some task, true =>
              let report := Report.mk serial task (.ready outcome)
              some ({ pool with outqueue := pool.outqueue ++ [report] }.modifyWorker serial
                fun worker => { worker with task := none })
          | _, _ => none
  | .exit serial code =>
      (pool.running serial).map fun _ =>
        pool.modifyWorker serial fun worker => { worker with exitcode := some code }
  | .terminateJob serial =>
      some (pool.modifyWorker serial fun worker => { worker with jobTerminated := true })
  | .handle =>
      match pool.outqueue with
      | [] => none
      | report :: outqueue => some ({ pool with outqueue }.onStateChange iter report)
  | .join shutdown =>
      match pool.pass with
      | .idle => some { pool with
          pass := .marking shutdown none
            (pool.cache fun job => !job.ready && job.workerLost.isSome) }
      | _ => none
  | .advance => pool.advance iter

/-- The steps that are enabled, one by one, with the state each leads to. -/
inductive Moves (iter : α → List α) (pool : Pool α) : PoolStep α → Pool α → Prop where
  | tick : Moves iter pool .tick { pool with clock := pool.clock + 1 }
  | submit (submission : Submission) :
      Moves iter pool (.submit submission) { pool with
        jobs := pool.jobs ++ [submission.job pool.jobs.length]
        taskqueue := pool.taskqueue ++ submission.entries pool.jobs.length }
  | put {task taskqueue} (head : pool.taskqueue = .put task :: taskqueue) :
      Moves iter pool .feed { pool with taskqueue, inqueue := pool.inqueue ++ [task] }
  | setLength {number length taskqueue} {job : Job α}
      (head : pool.taskqueue = .setLength number length :: taskqueue)
      (found : pool.jobs[number]? = some job) :
      Moves iter pool .feed ({ pool with taskqueue }.store number (job.setLength length))
  | spawn {pid} (idle : pool.pass = .idle) (positive : pid ≠ 0) (fresh : pid ∉ pool.pids) :
      Moves iter pool (.spawn pid) { pool with
        workers := pool.workers ++ [⟨pool.serials, pid, none, false, none, false⟩]
        serials := pool.serials + 1 }
  | take {serial task inqueue} {worker : Worker} (running : pool.running serial = some worker)
      (head : pool.inqueue = task :: inqueue) :
      Moves iter pool (.take serial)
        ({ pool with inqueue, taken := pool.taken ++ [(serial, task)] }.modifyWorker serial
          fun worker => { worker with task := some task, acked := false })
  | sendAck {serial task synqWFd} {worker : Worker} (running : pool.running serial = some worker)
      (holding : worker.task = some task) :
      Moves iter pool (.sendAck serial synqWFd)
        ({ pool with
          outqueue := pool.outqueue ++
            [Report.mk serial task (.ack pool.clock worker.pid synqWFd)] }.modifyWorker serial
          fun worker => { worker with acked := true })
  | sendReady {serial task outcome} {worker : Worker}
      (running : pool.running serial = some worker) (holding : worker.task = some task) :
      Moves iter pool (.sendReady serial outcome)
        ({ pool with
          outqueue :=
            pool.outqueue ++ [Report.mk serial task (.ready outcome)] }.modifyWorker serial
          fun worker => { worker with task := none })
  | exit {serial code} {worker : Worker} (running : pool.running serial = some worker) :
      Moves iter pool (.exit serial code)
        (pool.modifyWorker serial fun worker => { worker with exitcode := some code })
  | terminateJob (serial : Nat) :
      Moves iter pool (.terminateJob serial)
        (pool.modifyWorker serial fun worker => { worker with jobTerminated := true })
  | handle {report outqueue} (head : pool.outqueue = report :: outqueue) :
      Moves iter pool .handle ({ pool with outqueue }.onStateChange iter report)
  | join {shutdown} (idle : pool.pass = .idle) :
      Moves iter pool (.join shutdown) { pool with
        pass := .marking shutdown none
          (pool.cache fun job => !job.ready && job.workerLost.isSome) }
  | mark {shutdown now number selected lostTime lostRet} {job : Job α}
      (pass : pool.pass = .marking shutdown now (number :: selected))
      (found : pool.jobs[number]? = some job) (lost : job.workerLost = some (lostTime, lostRet))
      (late : lostTime + job.lostWorkerTimeout < now.getD pool.clock) :
      Moves iter pool .advance
        ({ pool with
          pass := .marking shutdown (some (now.getD pool.clock)) selected }.markAsWorkerLost
            iter number job lostRet)
  | spare {shutdown now number selected}
      (pass : pool.pass = .marking shutdown now (number :: selected)) :
      Moves iter pool .advance
        { pool with pass := .marking shutdown (some (now.getD pool.clock)) selected }
  | joined {now} (pass : pool.pass = .marking true now []) :
      Moves iter pool .advance { pool with pass := .idle }
  | marked {shutdown now} (pass : pool.pass = .marking shutdown now []) :
      Moves iter pool .advance { pool with pass := .reaping pool.workers.length [] }
  | reap {i cleaned} {worker : Worker} (pass : pool.pass = .reaping (i + 1) cleaned)
      (found : pool.workers[i]? = some worker) (exited : worker.exitcode.isSome = true) :
      Moves iter pool .advance { pool with
        workers := pool.workers.eraseIdx i
        pass := .reaping i (worker :: cleaned) }
  | keep {i cleaned} (pass : pool.pass = .reaping (i + 1) cleaned) :
      Moves iter pool .advance { pool with pass := .reaping i cleaned }
  | barren (pass : pool.pass = .reaping 0 []) :
      Moves iter pool .advance { pool with pass := .idle }
  | survey {cleaned} (pass : pool.pass = .reaping 0 cleaned) :
      Moves iter pool .advance
        { pool with pass := .scanning cleaned pool.pids (pool.cache fun _ => true) }
  | scan {cleaned allPids number todo} {job : Job α}
      (pass : pool.pass = .scanning cleaned allPids (number :: todo))
      (found : pool.jobs[number]? = some job) :
      Moves iter pool .advance
        ({ pool with pass := .scanning cleaned allPids todo }.store number
          (scanJob iter pool.clock cleaned allPids job))
  | scanned {cleaned allPids} (pass : pool.pass = .scanning cleaned allPids []) :
      Moves iter pool .advance { pool with pass := .idle }

theorem moves_of_advance {iter : α → List α} {pool next : Pool α}
    (taken : pool.advance iter = some next) : Moves iter pool .advance next := by
  unfold Pool.advance at taken
  split at taken
  case h_1 => cases taken
  case h_2 shutdown now number selected pass =>
      split at taken
      · cases taken
      · rename_i job found
        simp only at taken
        split at taken
        · cases taken
        · rename_i lostTime lostRet lost
          split at taken <;> cases taken
          · rename_i late
            exact .mark pass found lost late
          · exact .spare pass
  case h_3 shutdown now pass =>
      split at taken <;> cases taken
      · rename_i last
        rw [Bool.and_eq_true] at last
        exact .joined (last.1 ▸ pass)
      · exact .marked pass
  case h_4 i cleaned pass =>
      split at taken
      · cases taken
      · rename_i worker found
        split at taken <;> cases taken
        · rename_i exited
          exact .reap pass found exited
        · exact .keep pass
  case h_5 cleaned pass =>
      split at taken <;> cases taken
      · rename_i nobody
        exact .barren (List.isEmpty_iff.mp nobody ▸ pass)
      · exact .survey pass
  case h_6 cleaned allPids number todo pass =>
      split at taken
      · cases taken
      · rename_i job found
        cases taken
        exact .scan pass found
  case h_7 cleaned allPids pass =>
      cases taken
      exact .scanned pass

theorem moves_of_step {iter : α → List α} {pool next : Pool α} {label : PoolStep α}
    (taken : step iter pool label = some next) :
    pool.raised = none ∧ Moves iter pool label next := by
  unfold step at taken
  split at taken
  · cases taken
  rename_i fine
  refine ⟨by simpa using fine, ?_⟩
  cases label with
  | tick =>
      cases taken
      exact .tick
  | submit submission =>
      cases taken
      exact .submit submission
  | feed =>
      simp only at taken
      split at taken
      · cases taken
      · rename_i head
        cases taken
        exact .put head
      · rename_i head
        simp only [Option.map_eq_some_iff] at taken
        obtain ⟨job, found, rfl⟩ := taken
        exact .setLength head found
  | spawn pid =>
      simp only at taken
      split at taken
      · rename_i idle
        simp only [Option.ite_none_right_eq_some, Option.some.injEq] at taken
        obtain ⟨⟨positive, fresh⟩, rfl⟩ := taken
        exact .spawn idle positive fresh
      · cases taken
  | take serial =>
      simp only at taken
      split at taken
      · rename_i running head
        simp only [Option.ite_none_right_eq_some, Option.some.injEq] at taken
        obtain ⟨_, rfl⟩ := taken
        exact .take running head
      · cases taken
  | sendAck serial synqWFd =>
      simp only at taken
      split at taken
      · cases taken
      · rename_i running
        split at taken
        · rename_i holding _
          cases taken
          exact .sendAck running holding
        · cases taken
  | sendReady serial outcome =>
      simp only at taken
      split at taken
      · cases taken
      · rename_i running
        split at taken
        · rename_i holding _
          cases taken
          exact .sendReady running holding
        · cases taken
  | exit serial code =>
      simp only [Option.map_eq_some_iff] at taken
      obtain ⟨worker, running, rfl⟩ := taken
      exact .exit running
  | terminateJob serial =>
      cases taken
      exact .terminateJob serial
  | handle =>
      simp only at taken
      split at taken
      · cases taken
      · rename_i head
        cases taken
        exact .handle head
  | join shutdown =>
      simp only at taken
      split at taken
      · rename_i idle
        cases taken
        exact .join idle
      · cases taken
  | advance => exact moves_of_advance taken

theorem map_modifyWorker {β : Type v} (view : Worker → β) (pool : Pool α) (serial : Nat)
    {f : Worker → Worker} (keeps : ∀ worker, view (f worker) = view worker) :
    (pool.modifyWorker serial f).workers.map view = pool.workers.map view := by
  simp only [modifyWorker, List.map_map]
  apply List.map_congr_left
  intro worker _
  simp only [Function.comp]
  split
  · exact keeps worker
  · rfl

theorem pids_modifyWorker (pool : Pool α) (serial : Nat) {f : Worker → Worker}
    (keeps : ∀ worker, (f worker).pid = worker.pid) :
    (pool.modifyWorker serial f).pids = pool.pids :=
  map_modifyWorker Worker.pid pool serial keeps

theorem serials_modifyWorker (pool : Pool α) (serial : Nat) {f : Worker → Worker}
    (keeps : ∀ worker, (f worker).serial = worker.serial) :
    (pool.modifyWorker serial f).workers.map Worker.serial = pool.workers.map Worker.serial :=
  map_modifyWorker Worker.serial pool serial keeps

theorem mem_cache {pool : Pool α} {condition : Job α → Bool} {number : Nat} :
    number ∈ pool.cache condition ↔
      ∃ job, pool.jobs[number]? = some job ∧ job.cached = true ∧ condition job = true := by
  cases found : pool.jobs[number]? with
  | none => simp [cache, found]
  | some job =>
      have inside : number < pool.jobs.length := (List.getElem?_eq_some_iff.mp found).1
      simp only [cache, List.mem_filter, List.mem_range, inside, found, Option.any_some,
        Bool.and_eq_true, Option.some.injEq, exists_eq_left', true_and]

theorem jobs_store {pool : Pool α} {property : Nat → Job α → Prop} {number : Nat}
    {result : Job α × Option Raised}
    (holds : ∀ other job, other ≠ number → pool.jobs[other]? = some job → property other job)
    (stored : property number result.1) :
    ∀ other job, (pool.store number result).jobs[other]? = some job → property other job :=
  Tally.forall_set stored holds

theorem scanJob_of_ready {iter : α → List α} {clock : Nat} {cleaned : List Worker}
    {allPids : List Nat} {job : Job α} (ready : job.ready = true) :
    (scanJob iter clock cleaned allPids job).1 = job := by
  unfold scanJob
  split
  · rw [if_pos ready]
  · cases job <;> rfl

theorem workerPids_submitted (submission : Submission) (number : Nat) :
    (submission.job number : Job α).workerPids = [] := by
  cases submission <;>
    simp [Submission.job, Job.workerPids, ApplyResult.workerPids, ApplyResult.init,
      MapResult.workerPids, MapResult.init, IMapIterator.init]

theorem workerLost_submitted (submission : Submission) (number : Nat) :
    (submission.job number : Job α).workerLost = none := by
  cases submission <;> rfl

theorem closed_submitted (submission : Submission) (number : Nat) :
    (submission.job number : Job α).cached = false →
      (submission.job number : Job α).ready = true := by
  cases submission <;>
    simp [Submission.job, Job.cached, Job.ready, ApplyResult.init, MapResult.init,
      MapResult.ready, IMapIterator.init]

end Pool

end Billiard
