import Billiard.Pool.Supervision
import Mathlib.Data.List.Nodup

/-! Who holds which task: every task is put once, taken by at most one worker,
and acknowledged and answered by the worker that took it. -/

namespace Billiard

open Transition

def Entry.task? : Entry → Option Task
  | .put task => some task
  | .setLength .. => none

namespace Pool

/-- The tasks submitted so far, wherever they are. -/
def issued (pool : Pool α) : List Task :=
  pool.taskqueue.filterMap Entry.task? ++ pool.inqueue ++ pool.taken.map Prod.snd

def PidOf (pool : Pool α) (serial pid : Nat) : Prop :=
  ∀ worker ∈ pool.workers, worker.serial = serial → worker.pid = pid

structure Ledger (pool : Pool α) : Prop where
  serials_nodup : (pool.workers.map Worker.serial).Nodup
  pids_nodup : pool.pids.Nodup
  serial_lt : ∀ worker ∈ pool.workers, worker.serial < pool.serials
  holding : ∀ worker ∈ pool.workers, ∀ task, worker.task = some task →
    (worker.serial, task) ∈ pool.taken
  issued_nodup : pool.issued.Nodup
  issued_lt : ∀ task ∈ pool.issued, task.job < pool.jobs.length
  taken_lt : ∀ entry ∈ pool.taken, entry.1 < pool.serials
  reports : ∀ report ∈ pool.outqueue, (report.serial, report.task) ∈ pool.taken
  report_pid : ∀ report ∈ pool.outqueue, ∀ timeAccepted pid synqWFd,
    report.message = .ack timeAccepted pid synqWFd → pool.PidOf report.serial pid
  acks : ∀ ack ∈ pool.acks, (ack.serial, ack.task) ∈ pool.taken ∧ pool.PidOf ack.serial ack.pid
  readies : ∀ task ∈ pool.readies, task ∈ pool.issued

theorem init_ledger : (init : Pool α).Ledger := by
  constructor <;> simp [init, pids, issued]

theorem Ledger.taker_unique {pool : Pool α} (ledger : pool.Ledger) {task : Task}
    {first second : Nat} (one : (first, task) ∈ pool.taken) (other : (second, task) ∈ pool.taken) :
    first = second := by
  have nodup : (pool.taken.map Prod.snd).Nodup :=
    (List.nodup_append.mp ledger.issued_nodup).2.1
  have same := List.inj_on_of_nodup_map nodup one other rfl
  exact congrArg Prod.fst same

variable {iter : α → List α} {pool next : Pool α}

theorem Ledger.store (ledger : pool.Ledger) (number : Nat) (result : Job α × Option Raised) :
    (pool.store number result).Ledger :=
  { ledger with
    issued_lt := by
      intro task member
      have bound := ledger.issued_lt task member
      simpa [Pool.store] using bound }

theorem Ledger.turn (ledger : pool.Ledger) (pass : Pass) : { pool with pass }.Ledger :=
  { ledger with }

theorem mem_modifyWorker {serial : Nat} {f : Worker → Worker} {worker : Worker}
    (member : worker ∈ (pool.modifyWorker serial f).workers) :
    ∃ old ∈ pool.workers, worker = old ∨ old.serial = serial ∧ worker = f old := by
  simp only [modifyWorker, List.mem_map] at member
  obtain ⟨old, present, rfl⟩ := member
  refine ⟨old, present, ?_⟩
  split
  · rename_i same
    exact .inr ⟨same, rfl⟩
  · exact .inl rfl

theorem PidOf.modifyWorker {serial pid changed : Nat} {f : Worker → Worker}
    (serial_eq : ∀ worker, (f worker).serial = worker.serial)
    (pid_eq : ∀ worker, (f worker).pid = worker.pid) (known : pool.PidOf serial pid) :
    (pool.modifyWorker changed f).PidOf serial pid := by
  intro worker member same
  obtain ⟨old, present, kept⟩ := mem_modifyWorker member
  cases kept with
  | inl unchanged =>
      rw [unchanged] at same ⊢
      exact known old present same
  | inr updated =>
      rw [updated.2, serial_eq] at same
      rw [updated.2, pid_eq]
      exact known old present same

theorem Ledger.modifyWorker (ledger : pool.Ledger) {serial : Nat} {f : Worker → Worker}
    (serial_eq : ∀ worker, (f worker).serial = worker.serial)
    (pid_eq : ∀ worker, (f worker).pid = worker.pid)
    (holding : ∀ worker ∈ pool.workers, worker.serial = serial → ∀ task,
      (f worker).task = some task → (serial, task) ∈ pool.taken) :
    (pool.modifyWorker serial f).Ledger :=
  { ledger with
    serials_nodup := by
      rw [serials_modifyWorker pool serial serial_eq]
      exact ledger.serials_nodup
    pids_nodup := by
      rw [pids_modifyWorker pool serial pid_eq]
      exact ledger.pids_nodup
    serial_lt := by
      intro worker member
      obtain ⟨old, present, kept⟩ := mem_modifyWorker member
      cases kept with
      | inl unchanged => exact unchanged ▸ ledger.serial_lt old present
      | inr updated =>
          rw [updated.2, serial_eq]
          exact ledger.serial_lt old present
    holding := by
      intro worker member task held
      obtain ⟨old, present, kept⟩ := mem_modifyWorker member
      cases kept with
      | inl unchanged =>
          rw [unchanged] at held ⊢
          exact ledger.holding old present task held
      | inr updated =>
          rw [updated.2] at held
          rw [updated.2, serial_eq, updated.1]
          exact holding old present updated.1 task held
    report_pid := fun report member timeAccepted pid synqWFd message =>
      (ledger.report_pid report member timeAccepted pid synqWFd message).modifyWorker
        serial_eq pid_eq
    acks := fun ack member =>
      ⟨(ledger.acks ack member).1, (ledger.acks ack member).2.modifyWorker serial_eq pid_eq⟩ }

theorem mem_of_running {serial : Nat} {worker : Worker}
    (running : pool.running serial = some worker) :
    worker ∈ pool.workers ∧ worker.serial = serial ∧ worker.exitcode = none := by
  have member := List.mem_of_find?_eq_some running
  have found := List.find?_some running
  simp only [Bool.and_eq_true, beq_iff_eq, Option.isNone_iff_eq_none] at found
  exact ⟨member, found.1, found.2⟩

theorem Ledger.pidOf_running (ledger : pool.Ledger) {serial : Nat} {worker : Worker}
    (running : pool.running serial = some worker) : pool.PidOf serial worker.pid := by
  obtain ⟨member, same, _⟩ := mem_of_running running
  intro other present sameOther
  have equal : other = worker :=
    List.inj_on_of_nodup_map ledger.serials_nodup present member (sameOther.trans same.symm)
  rw [equal]

theorem entries_tasks (submission : Submission) (number : Nat) :
    ((submission.entries number).filterMap Entry.task?).Nodup ∧
      ∀ task ∈ (submission.entries number).filterMap Entry.task?, task.job = number := by
  have chunks : ∀ length, (Submission.puts number length).filterMap Entry.task? =
      (List.range length).map fun i => ⟨number, .position i⟩ := by
    intro length
    simp [Submission.puts, List.filterMap_map, Function.comp_def, Entry.task?]
  have distinct : ∀ length,
      ((List.range length).map fun i => (⟨number, .position i⟩ : Task)).Nodup := by
    intro length
    apply List.Nodup.map _ List.nodup_range
    intro first second same
    simpa using same
  cases submission with
  | apply options => simp [Submission.entries, Entry.task?]
  | map chunksize length callback errorCallback =>
      simp only [Submission.entries, chunks]
      exact ⟨distinct _, by simp⟩
  | imap length lostWorkerTimeout | imapUnordered length lostWorkerTimeout =>
      simp only [Submission.entries, List.filterMap_append, chunks]
      simp only [Entry.task?, List.filterMap_cons, List.filterMap_nil, List.append_nil]
      exact ⟨distinct _, by simp⟩

theorem Ledger.submit (ledger : pool.Ledger) (submission : Submission) :
    { pool with
      jobs := pool.jobs ++ [submission.job pool.jobs.length]
      taskqueue := pool.taskqueue ++ submission.entries pool.jobs.length }.Ledger := by
  obtain ⟨distinct, owned⟩ := entries_tasks submission pool.jobs.length
  have moved : (issued { pool with
      jobs := pool.jobs ++ [submission.job pool.jobs.length]
      taskqueue := pool.taskqueue ++ submission.entries pool.jobs.length }).Perm
      ((submission.entries pool.jobs.length).filterMap Entry.task? ++ pool.issued) := by
    rw [List.perm_iff_count]
    intro task
    simp only [issued, List.filterMap_append, List.count_append]
    omega
  exact { ledger with
    issued_nodup := by
      rw [moved.nodup_iff, List.nodup_append]
      refine ⟨distinct, ledger.issued_nodup, ?_⟩
      intro new fresh old present same
      have bound := ledger.issued_lt old present
      rw [← same, owned new fresh] at bound
      omega
    issued_lt := by
      intro task member
      rw [List.length_append, List.length_singleton]
      cases List.mem_append.mp (moved.mem_iff.mp member) with
      | inl fresh =>
          rw [owned task fresh]
          omega
      | inr present =>
          have bound := ledger.issued_lt task present
          omega
    readies := fun task member =>
      moved.mem_iff.mpr (List.mem_append_right _ (ledger.readies task member)) }

theorem Ledger.pass_on (ledger : pool.Ledger) {taskqueue : List Entry} {inqueue : List Task}
    {taken : List (Nat × Task)}
    (moved : (issued { pool with taskqueue, inqueue, taken := pool.taken ++ taken }).Perm
      pool.issued)
    (takers : ∀ entry ∈ taken, entry.1 < pool.serials) :
    { pool with taskqueue, inqueue, taken := pool.taken ++ taken }.Ledger :=
  { ledger with
    holding := fun worker present task held =>
      List.mem_append_left _ (ledger.holding worker present task held)
    issued_nodup := moved.nodup_iff.mpr ledger.issued_nodup
    issued_lt := fun task member => ledger.issued_lt task (moved.mem_iff.mp member)
    taken_lt := by
      intro entry member
      cases List.mem_append.mp member with
      | inl old => exact ledger.taken_lt entry old
      | inr new => exact takers entry new
    reports := fun report member => List.mem_append_left _ (ledger.reports report member)
    acks := fun ack member =>
      ⟨List.mem_append_left _ (ledger.acks ack member).1, (ledger.acks ack member).2⟩
    readies := fun task member => moved.mem_iff.mpr (ledger.readies task member) }

theorem Ledger.put (ledger : pool.Ledger) {task : Task} {taskqueue : List Entry}
    (head : pool.taskqueue = .put task :: taskqueue) :
    { pool with taskqueue, inqueue := pool.inqueue ++ [task] }.Ledger := by
  have moved : (issued { pool with
      taskqueue, inqueue := pool.inqueue ++ [task], taken := pool.taken ++ [] }).Perm
      pool.issued := by
    rw [List.perm_iff_count]
    intro other
    simp only [issued, head, List.filterMap_cons, Entry.task?, List.count_append,
      List.count_cons, List.count_nil, List.append_nil]
    omega
  simpa using ledger.pass_on moved (by simp)

theorem Ledger.skip (ledger : pool.Ledger) {number length : Nat} {taskqueue : List Entry}
    (head : pool.taskqueue = .setLength number length :: taskqueue) :
    { pool with taskqueue }.Ledger := by
  have moved : (issued { pool with taskqueue, taken := pool.taken ++ [] }).Perm
      pool.issued := by
    simp [issued, head, List.filterMap_cons, Entry.task?]
  simpa using ledger.pass_on moved (by simp)

theorem Ledger.take (ledger : pool.Ledger) {serial : Nat} {task : Task} {inqueue : List Task}
    {worker : Worker} (running : pool.running serial = some worker)
    (head : pool.inqueue = task :: inqueue) :
    { pool with inqueue, taken := pool.taken ++ [(serial, task)] }.Ledger := by
  obtain ⟨member, same, _⟩ := mem_of_running running
  apply ledger.pass_on
  · rw [List.perm_iff_count]
    intro other
    simp only [issued, head, List.count_append, List.count_cons, List.map_append, List.map_cons,
      List.map_nil, List.count_nil]
    omega
  · intro entry new
    rw [List.mem_singleton.mp new, ← same]
    exact ledger.serial_lt worker member

theorem Ledger.send (ledger : pool.Ledger) {report : Report α}
    (taken : (report.serial, report.task) ∈ pool.taken)
    (known : ∀ timeAccepted pid synqWFd, report.message = .ack timeAccepted pid synqWFd →
      pool.PidOf report.serial pid) :
    { pool with outqueue := pool.outqueue ++ [report] }.Ledger :=
  { ledger with
    reports := by
      intro other member
      cases List.mem_append.mp member with
      | inl old => exact ledger.reports other old
      | inr new => exact List.mem_singleton.mp new ▸ taken
    report_pid := by
      intro other member
      cases List.mem_append.mp member with
      | inl old => exact ledger.report_pid other old
      | inr new => exact List.mem_singleton.mp new ▸ known }

theorem Ledger.spawn (ledger : pool.Ledger) {pid : Nat} (fresh : pid ∉ pool.pids) :
    { pool with
      workers := pool.workers ++ [Worker.mk pool.serials pid none false none false]
      serials := pool.serials + 1 }.Ledger := by
  have known : ∀ {serial number : Nat}, serial < pool.serials → pool.PidOf serial number →
      PidOf { pool with
        workers := pool.workers ++ [Worker.mk pool.serials pid none false none false]
        serials := pool.serials + 1 } serial number := by
    intro serial number old known worker member same
    cases List.mem_append.mp member with
    | inl present => exact known worker present same
    | inr new =>
        rw [List.mem_singleton.mp new] at same
        exact absurd same (Nat.ne_of_gt old)
  exact { ledger with
    serials_nodup := by
      rw [List.map_append, List.map_singleton, List.nodup_append]
      refine ⟨ledger.serials_nodup, List.nodup_singleton _, ?_⟩
      intro serial present new isNew same
      obtain ⟨worker, member, rfl⟩ := List.mem_map.mp present
      have bound := ledger.serial_lt worker member
      rw [same, List.mem_singleton.mp isNew] at bound
      exact Nat.lt_irrefl _ bound
    pids_nodup := by
      simp only [pids, List.map_append, List.map_singleton, List.nodup_append]
      refine ⟨ledger.pids_nodup, List.nodup_singleton _, ?_⟩
      intro old present new isNew same
      rw [same, List.mem_singleton.mp isNew] at present
      exact fresh present
    serial_lt := by
      intro worker member
      cases List.mem_append.mp member with
      | inl present => exact Nat.lt_succ_of_lt (ledger.serial_lt worker present)
      | inr new =>
          rw [List.mem_singleton.mp new]
          exact Nat.lt_succ_self _
    holding := by
      intro worker member task held
      cases List.mem_append.mp member with
      | inl present => exact ledger.holding worker present task held
      | inr new =>
          rw [List.mem_singleton.mp new] at held
          cases held
    taken_lt := fun entry member => Nat.lt_succ_of_lt (ledger.taken_lt entry member)
    report_pid := fun report member timeAccepted number synqWFd message =>
      known (ledger.taken_lt _ (ledger.reports report member))
        (ledger.report_pid report member timeAccepted number synqWFd message)
    acks := fun ack member =>
      ⟨(ledger.acks ack member).1, known (ledger.taken_lt _ (ledger.acks ack member).1)
        (ledger.acks ack member).2⟩ }

theorem Ledger.reap (ledger : pool.Ledger) (i : Nat) (pass : Pass) :
    { pool with workers := pool.workers.eraseIdx i, pass }.Ledger :=
  have fewer : (pool.workers.eraseIdx i).Sublist pool.workers := List.eraseIdx_sublist _ _
  { ledger with
    serials_nodup := ledger.serials_nodup.sublist (fewer.map _)
    pids_nodup := ledger.pids_nodup.sublist (fewer.map _)
    serial_lt := fun worker member => ledger.serial_lt worker (fewer.subset member)
    holding := fun worker member => ledger.holding worker (fewer.subset member)
    report_pid := fun report member timeAccepted pid synqWFd message worker present =>
      ledger.report_pid report member timeAccepted pid synqWFd message worker
        (fewer.subset present)
    acks := fun ack member => ⟨(ledger.acks ack member).1, fun worker present =>
      (ledger.acks ack member).2 worker (fewer.subset present)⟩ }

theorem Ledger.handle (ledger : pool.Ledger) {report : Report α} {outqueue : List (Report α)}
    (head : pool.outqueue = report :: outqueue) :
    ({ pool with outqueue }.onStateChange iter report).Ledger := by
  have first : report ∈ pool.outqueue := head ▸ List.mem_cons_self
  have later : ∀ other ∈ outqueue, other ∈ pool.outqueue := fun other member =>
    head ▸ List.mem_cons_of_mem _ member
  have taken := ledger.reports report first
  unfold onStateChange
  cases message : report.message with
  | ack timeAccepted pid synqWFd =>
      have logged : { pool with
          outqueue
          acks := pool.acks ++ [Acknowledgement.mk report.serial pid report.task] }.Ledger :=
        { ledger with
          reports := fun other member => ledger.reports other (later other member)
          report_pid := fun other member => ledger.report_pid other (later other member)
          acks := by
            intro ack member
            cases List.mem_append.mp member with
            | inl old => exact ledger.acks ack old
            | inr new =>
                rw [List.mem_singleton.mp new]
                exact ⟨taken, ledger.report_pid report first _ _ _ message⟩ }
      simp only
      split
      · exact logged
      · split
        · exact logged.store _ _
        · exact logged
  | ready outcome =>
      have logged : { pool with outqueue, readies := pool.readies ++ [report.task] }.Ledger :=
        { ledger with
          reports := fun other member => ledger.reports other (later other member)
          report_pid := fun other member => ledger.report_pid other (later other member)
          readies := by
            intro task member
            cases List.mem_append.mp member with
            | inl old => exact ledger.readies task old
            | inr new =>
                rw [List.mem_singleton.mp new]
                exact List.mem_append_right _ (List.mem_map_of_mem taken) }
      simp only
      split
      · exact logged
      · split
        · exact logged.store _ _
        · exact logged

theorem Ledger.step (pool : Pool α) (label : PoolStep α) (next : Pool α)
    (ledger : pool.Ledger) (taken : Pool.step iter pool label = some next) : next.Ledger := by
  obtain ⟨_, moved⟩ := moves_of_step taken
  cases moved with
  | tick => exact { ledger with }
  | submit submission => exact ledger.submit submission
  | put head => exact ledger.put head
  | setLength head found => exact (ledger.skip head).store _ _
  | spawn idle positive fresh => exact ledger.spawn fresh
  | take running head =>
      refine (ledger.take running head).modifyWorker ?_ ?_ ?_
      · exact fun _ => rfl
      · exact fun _ => rfl
      · intro other present same taken held
        cases held
        exact List.mem_append_right _ (List.mem_singleton_self _)
  | sendAck running holding =>
      obtain ⟨member, same, _⟩ := mem_of_running running
      refine Ledger.modifyWorker (ledger.send ?_ ?_) ?_ ?_ ?_
      · exact same ▸ ledger.holding _ member _ holding
      · intro timeAccepted pid fd message
        cases message
        exact ledger.pidOf_running running
      · exact fun _ => rfl
      · exact fun _ => rfl
      · exact fun worker present same task held => same ▸ ledger.holding worker present task held
  | sendReady running holding =>
      obtain ⟨member, same, _⟩ := mem_of_running running
      refine Ledger.modifyWorker (ledger.send ?_ ?_) ?_ ?_ ?_
      · exact same ▸ ledger.holding _ member _ holding
      · intro timeAccepted pid fd message
        cases message
      · exact fun _ => rfl
      · exact fun _ => rfl
      · exact fun _ _ _ _ held => absurd held nofun
  | exit running =>
      exact ledger.modifyWorker (fun _ => rfl) (fun _ => rfl) fun worker present same task held =>
        same ▸ ledger.holding worker present task held
  | terminateJob serial =>
      exact ledger.modifyWorker (fun _ => rfl) (fun _ => rfl) fun worker present same task held =>
        same ▸ ledger.holding worker present task held
  | handle head => exact ledger.handle head
  | join idle => exact { ledger with }
  | mark pass found lost late => exact (ledger.turn _).store _ _
  | spare pass => exact { ledger with }
  | joined pass => exact { ledger with }
  | marked pass => exact { ledger with }
  | reap pass found exited => exact ledger.reap _ _
  | keep pass => exact { ledger with }
  | barren pass => exact { ledger with }
  | survey pass => exact { ledger with }
  | scan pass found => exact (ledger.turn _).store _ _
  | scanned pass => exact { ledger with }

end Pool

end Billiard
