import Billiard.Pool.Ledger

/-! When a pass fails a job with `WorkerLostError`.  A job of many tasks keeps the
pids of the workers that have finished theirs, and the record of a loss is never
withdrawn, so the failure is justified only under conditions on the run. -/

namespace Billiard

open Transition

namespace Pool

/-- The step passes the job to `mark_as_worker_lost`. -/
def Marks (pool : Pool α) (label : PoolStep α) (number : Nat) (job : Job α) : Prop :=
  label = .advance ∧ pool.jobs[number]? = some job ∧
    ∃ shutdown now selected lostTime lostRet,
      pool.pass = .marking shutdown now (number :: selected) ∧
      job.workerLost = some (lostTime, lostRet) ∧
      lostTime + job.lostWorkerTimeout < now.getD pool.clock

structure Undisturbed (iter : α → List α) (pool : Pool α) (label : PoolStep α) : Prop where
  /-- A worker that a pass takes for gone has not answered all its tasks of a
  map that is still open. -/
  scan : label = .advance → ∀ cleaned allPids number todo (job : Job α),
    pool.pass = .scanning cleaned allPids (number :: todo) → pool.jobs[number]? = some job →
    job.isApply = false → job.ready = false →
    ∀ pid ∈ job.workerPids, gone cleaned allPids pid = true →
      ∃ ack ∈ pool.acks, ack.pid = pid ∧ ack.task.job = number ∧ ack.task ∉ pool.readies
  /-- A READY of a worker that has left `_pool` comes too late for a map that is
  known to have lost a worker, unless it is the last result. -/
  answer : label = .handle → ∀ report outqueue outcome (job : Job α),
    pool.outqueue = report :: outqueue → report.message = .ready outcome →
    pool.jobs[report.task.job]? = some job → job.isApply = false → job.workerLost ≠ none →
    job.ready = false → report.serial ∉ pool.workers.map Worker.serial →
    (job.set iter report.task.i outcome).1.ready = true
  /-- A job selected for failure is still open when it is failed. -/
  mark : ∀ number job, pool.Marks label number job → job.ready = false

/-- A task of the job was acknowledged by a worker that has been reaped, and has
not been answered. -/
def Owed (pool : Pool α) (number : Nat) : Prop :=
  ∃ ack ∈ pool.acks, ack.task.job = number ∧ ack.serial ∉ pool.workers.map Worker.serial ∧
    ack.task ∉ pool.readies

/-- What the record of a job tells about its tasks. -/
structure AccountedJob (pool : Pool α) (number : Nat) (job : Job α) : Prop where
  recorded : ∀ pid ∈ job.workerPids, ∃ ack ∈ pool.acks, ack.pid = pid ∧ ack.task.job = number
  owed : job.workerLost ≠ none → job.ready = false → pool.Owed number
  closed : job.cached = false → job.ready = true
  single : job.isApply = true → job.ready = false → ∀ task ∈ pool.readies, task.job ≠ number
  selected : ∀ shutdown now selected, pool.pass = .marking shutdown now selected →
    number ∈ selected → job.workerLost ≠ none

structure Accounted (pool : Pool α) : Prop where
  ledger : pool.Ledger
  jobs : ∀ (number : Nat) (job : Job α), pool.jobs[number]? = some job →
    pool.AccountedJob number job
  listed : ∀ shutdown now selected, pool.pass = .marking shutdown now selected →
    ∀ number ∈ selected, number < pool.jobs.length
  reaped : ∀ i cleaned, pool.pass = .reaping i cleaned →
    ∀ worker ∈ cleaned, worker.pid ∉ pool.pids
  surveyed : ∀ cleaned allPids todo, pool.pass = .scanning cleaned allPids todo →
    allPids = pool.pids ∧ ∀ worker ∈ cleaned, worker.pid ∉ pool.pids

variable {iter : α → List α} {pool next : Pool α}

theorem AccountedJob.progress {number : Nat} {before after : Job α}
    (accounted : pool.AccountedJob number before) (progress : Job.Progress before after) :
    pool.AccountedJob number after := by
  have unready : after.ready = false → before.ready = false := by
    intro unready
    cases ready : before.ready with
    | false => rfl
    | true => exact absurd ((progress.ready ready).symm.trans unready) nofun
  exact {
    recorded := fun pid member => accounted.recorded pid (progress.workerPids ▸ member)
    owed := fun lost open_ => accounted.owed (progress.workerLost ▸ lost) (unready open_)
    closed := fun dropped => (progress.closed dropped).elim
      (fun before => progress.ready (accounted.closed before)) id
    single := fun isApply open_ => accounted.single (progress.isApply ▸ isApply) (unready open_)
    selected := fun shutdown now selected pass member =>
      progress.workerLost ▸ accounted.selected shutdown now selected pass member }

theorem AccountedJob.mono {number : Nat} {job : Job α} (accounted : pool.AccountedJob number job)
    (acks : ∀ ack ∈ pool.acks, ack ∈ next.acks)
    (workers : ∀ ack ∈ pool.acks, ack.serial ∈ next.workers.map Worker.serial →
      ack.serial ∈ pool.workers.map Worker.serial)
    (readies : next.readies = pool.readies) (pass : next.pass = pool.pass) :
    next.AccountedJob number job where
  recorded := by
    intro pid member
    obtain ⟨ack, present, known⟩ := accounted.recorded pid member
    exact ⟨ack, acks ack present, known⟩
  owed := by
    intro lost open_
    obtain ⟨ack, present, job, reaped, unanswered⟩ := accounted.owed lost open_
    exact ⟨ack, acks ack present, job, fun back => reaped (workers ack present back),
      readies ▸ unanswered⟩
  closed := accounted.closed
  single := readies ▸ accounted.single
  selected := pass ▸ accounted.selected

theorem AccountedJob.turn {number : Nat} {job : Job α} (accounted : pool.AccountedJob number job)
    {pass : Pass} (selected : ∀ shutdown now selected, pass = .marking shutdown now selected →
      number ∈ selected → job.workerLost ≠ none) :
    { pool with pass }.AccountedJob number job :=
  { accounted with selected }

theorem accounted_store {number : Nat} {result : Job α × Option Raised}
    (others : ∀ (other : Nat) (job : Job α), other ≠ number → pool.jobs[other]? = some job →
      pool.AccountedJob other job)
    (stored : pool.AccountedJob number result.1) (other : Nat) (job : Job α)
    (found : (pool.store number result).jobs[other]? = some job) :
    (pool.store number result).AccountedJob other job :=
  have kept : pool.AccountedJob other job := jobs_store others stored other job found
  kept.mono (fun _ member => member) (fun _ _ back => back) rfl rfl

theorem AccountedJob.answered {number : Nat} {job : Job α}
    (accounted : pool.AccountedJob number job) {task : Task} (other : task.job ≠ number)
    (outqueue : List (Report α)) :
    AccountedJob { pool with outqueue, readies := pool.readies ++ [task] } number job where
  recorded := accounted.recorded
  owed := by
    intro lost open_
    obtain ⟨ack, present, same, reaped, unanswered⟩ := accounted.owed lost open_
    refine ⟨ack, present, same, reaped, ?_⟩
    intro member
    cases List.mem_append.mp member with
    | inl old => exact unanswered old
    | inr new => exact other (List.mem_singleton.mp new ▸ same)
  closed := accounted.closed
  single := by
    intro isApply open_ handled member
    cases List.mem_append.mp member with
    | inl old => exact accounted.single isApply open_ handled old
    | inr new => exact List.mem_singleton.mp new ▸ other
  selected := accounted.selected

theorem AccountedJob.of_ready {number : Nat} {job : Job α} (ready : job.ready = true)
    (recorded : ∀ pid ∈ job.workerPids, ∃ ack ∈ pool.acks, ack.pid = pid ∧
      ack.task.job = number)
    (selected : ∀ shutdown now selected, pool.pass = .marking shutdown now selected →
      number ∈ selected → job.workerLost ≠ none) : pool.AccountedJob number job where
  recorded := recorded
  owed := fun _ open_ => absurd (ready.symm.trans open_) nofun
  closed := fun _ => ready
  single := fun _ open_ => absurd (ready.symm.trans open_) nofun
  selected := selected

theorem AccountedJob.set (ledger : pool.Ledger) {report : Report α} {outcome : Outcome α}
    {job : Job α} {outqueue : List (Report α)} (head : pool.outqueue = report :: outqueue)
    (accounted : pool.AccountedJob report.task.job job)
    (last : job.isApply = false → job.workerLost ≠ none → job.ready = false →
      report.serial ∉ pool.workers.map Worker.serial →
      (job.set iter report.task.i outcome).1.ready = true) :
    AccountedJob { pool with outqueue, readies := pool.readies ++ [report.task] }
      report.task.job (job.set iter report.task.i outcome).1 := by
  have progress := job.progress_set iter report.task.i outcome
  have after := accounted.progress progress
  have first : report ∈ pool.outqueue := head ▸ List.mem_cons_self
  exact {
    recorded := after.recorded
    closed := after.closed
    selected := after.selected
    single := by
      intro isApply open_
      have ready := Job.apply_ready_set iter (progress.isApply.symm.trans isApply)
        report.task.i outcome
      exact absurd (ready.symm.trans open_) nofun
    owed := by
      intro lost open_
      obtain ⟨ack, present, same, reaped, unanswered⟩ := after.owed lost open_
      refine ⟨ack, present, same, reaped, ?_⟩
      intro member
      cases List.mem_append.mp member with
      | inl old => exact unanswered old
      | inr new =>
          -- the task that was owed is the one that has just been answered
          have taken := (ledger.acks ack present).1
          rw [List.mem_singleton.mp new] at taken
          have serial := ledger.taker_unique taken (ledger.reports report first)
          rw [serial] at reaped
          have unready : job.ready = false := by
            cases ready : job.ready with
            | false => rfl
            | true => exact absurd ((progress.ready ready).symm.trans open_) nofun
          have ready : (job.set iter report.task.i outcome).1.ready = true := by
            cases isApply : job.isApply with
            | true => exact Job.apply_ready_set iter isApply _ _
            | false => exact last isApply (progress.workerLost ▸ lost) unready reaped
          exact absurd (ready.symm.trans open_) nofun }

theorem AccountedJob.ack {number timeAccepted pid serial : Nat} {i : Index}
    {synqWFd : Option Nat} {job : Job α} (accounted : pool.AccountedJob number job)
    (logged : ⟨serial, pid, ⟨number, i⟩⟩ ∈ pool.acks) :
    pool.AccountedJob number (job.ack i timeAccepted pid synqWFd).1 := by
  have acked := job.acked i timeAccepted pid synqWFd
  exact {
    recorded := by
      intro recorded member
      cases acked.workerPids recorded member with
      | inl old => exact accounted.recorded recorded old
      | inr new => exact ⟨_, logged, new.symm, rfl⟩
    owed := fun lost open_ =>
      accounted.owed (acked.workerLost ▸ lost) (acked.ready.symm.trans open_)
    closed := by
      intro dropped
      rw [acked.ready]
      cases ready : job.ready with
      | true => rfl
      | false =>
          cases cached : job.cached with
          | true => exact absurd ((acked.kept cached ready).symm.trans dropped) nofun
          | false => exact absurd ((accounted.closed cached).symm.trans ready) nofun
    single := fun isApply open_ =>
      accounted.single (acked.isApply.symm.trans isApply) (acked.ready.symm.trans open_)
    selected := fun shutdown now selected pass member =>
      acked.workerLost ▸ accounted.selected shutdown now selected pass member }

theorem jobs_onStateChange (ledger : pool.Ledger)
    (jobs : ∀ (number : Nat) (job : Job α), pool.jobs[number]? = some job →
      pool.AccountedJob number job)
    {report : Report α} {outqueue : List (Report α)} (head : pool.outqueue = report :: outqueue)
    (undisturbed : Undisturbed iter pool .handle) (number : Nat) (job : Job α)
    (found : ({ pool with outqueue }.onStateChange iter report).jobs[number]? = some job) :
    ({ pool with outqueue }.onStateChange iter report).AccountedJob number job := by
  revert number job
  unfold onStateChange
  cases message : report.message with
  | ack timeAccepted pid synqWFd =>
      have logged : ∀ (number : Nat) (job : Job α), pool.jobs[number]? = some job →
          AccountedJob { pool with
            outqueue
            acks := pool.acks ++ [Acknowledgement.mk report.serial pid report.task] }
            number job :=
        fun number job found => (jobs number job found).mono
          (fun _ member => List.mem_append_left _ member) (fun _ _ back => back) rfl rfl
      simp only
      split
      · exact logged
      · rename_i job found
        split
        · apply accounted_store
          · exact fun other job _ found => logged other job found
          · exact (logged _ job found).ack (List.mem_append_right _ (List.mem_singleton_self _))
        · exact logged
  | ready outcome =>
      have others : ∀ (number : Nat) (job : Job α), number ≠ report.task.job →
          pool.jobs[number]? = some job →
          AccountedJob { pool with outqueue, readies := pool.readies ++ [report.task] }
            number job :=
        fun number job different found =>
          (jobs number job found).answered (Ne.symm different) outqueue
      simp only
      split
      · rename_i missing
        intro number job found
        refine others number job ?_ found
        intro same
        rw [same, missing] at found
        cases found
      · rename_i job found
        split
        · apply accounted_store
          · exact others
          · exact AccountedJob.set ledger head (jobs _ job found)
              (undisturbed.answer rfl report outqueue outcome job head message found)
        · rename_i dropped
          intro number other known
          cases Nat.decEq number report.task.job with
          | isFalse different => exact others number other different known
          | isTrue same =>
              subst same
              cases found.symm.trans known
              have before := jobs _ job found
              exact .of_ready (before.closed (eq_false_of_ne_true dropped)) before.recorded
                before.selected

theorem AccountedJob.scan (accounted : pool.Accounted) {cleaned : List Worker}
    {allPids todo : List Nat} {number clock : Nat} {job : Job α}
    (undisturbed : Undisturbed iter pool .advance)
    (pass : pool.pass = .scanning cleaned allPids (number :: todo))
    (found : pool.jobs[number]? = some job) :
    pool.AccountedJob number (scanJob iter clock cleaned allPids job).1 := by
  have before := accounted.jobs number job found
  unfold scanJob
  split
  · rename_i pid sought
    obtain ⟨sought, _⟩ := Option.filter_eq_some_iff.mp sought
    have recorded := List.mem_of_find?_eq_some sought
    have isGone := List.find?_some sought
    split
    · exact before
    · rename_i unready
      have unready := eq_false_of_ne_true unready
      simp only
      split
      · exact before.progress (job.progress_setTerminated iter _)
      · have unanswered : ∃ ack ∈ pool.acks, ack.pid = pid ∧ ack.task.job = number ∧
            ack.task ∉ pool.readies := by
          cases isApply : job.isApply with
          | false =>
              exact undisturbed.scan rfl cleaned allPids number todo job pass found isApply
                unready pid recorded isGone
          | true =>
              obtain ⟨ack, present, same, owner⟩ := before.recorded pid recorded
              exact ⟨ack, present, same, owner, fun answered =>
                before.single isApply unready ack.task answered owner⟩
        obtain ⟨ack, present, same, owner, unanswered⟩ := unanswered
        obtain ⟨all, reaped⟩ := accounted.surveyed cleaned allPids _ pass
        have left : ack.serial ∉ pool.workers.map Worker.serial := by
          intro there
          obtain ⟨worker, member, serial⟩ := List.mem_map.mp there
          have known := (accounted.ledger.acks ack present).2 worker member serial
          have inPool : pid ∈ pool.pids :=
            List.mem_map.mpr ⟨worker, member, known.trans same⟩
          simp only [gone, Bool.or_eq_true, List.any_eq_true, beq_iff_eq, all] at isGone
          cases isGone with
          | inl cleanedUp =>
              obtain ⟨other, listed, samePid⟩ := cleanedUp
              exact reaped other listed (samePid ▸ inPool)
          | inr absent => simp [inPool] at absent
        exact {
          recorded := by simpa using before.recorded
          owed := fun _ _ => ⟨ack, present, owner, left, unanswered⟩
          closed := by simpa using before.closed
          single := by simpa using before.single
          selected := by simp }
  · split <;> exact before

theorem Accounted.congr (accounted : pool.Accounted) (ledger : next.Ledger)
    (jobs : next.jobs = pool.jobs) (acks : next.acks = pool.acks)
    (readies : next.readies = pool.readies) (pids : next.pids = pool.pids)
    (serials : next.workers.map Worker.serial = pool.workers.map Worker.serial)
    (pass : next.pass = pool.pass) : next.Accounted where
  ledger := ledger
  jobs := by
    intro number job found
    rw [jobs] at found
    apply (accounted.jobs number job found).mono
    · exact fun ack member => acks ▸ member
    · exact fun ack _ back => serials ▸ back
    · exact readies
    · exact pass
  listed := by
    rw [pass, jobs]
    exact accounted.listed
  reaped := by
    rw [pass, pids]
    exact accounted.reaped
  surveyed := by
    rw [pass, pids]
    exact accounted.surveyed

theorem Accounted.turn (accounted : pool.Accounted) {pass : Pass}
    (selected : ∀ shutdown now selected, pass = .marking shutdown now selected →
      ∀ number ∈ selected, ∃ job : Job α, pool.jobs[number]? = some job ∧ job.workerLost ≠ none)
    (reaped : ∀ i cleaned, pass = .reaping i cleaned →
      ∀ worker ∈ cleaned, worker.pid ∉ pool.pids)
    (surveyed : ∀ cleaned allPids todo, pass = .scanning cleaned allPids todo →
      allPids = pool.pids ∧ ∀ worker ∈ cleaned, worker.pid ∉ pool.pids) :
    { pool with pass }.Accounted where
  ledger := accounted.ledger.turn pass
  jobs := by
    intro number job found
    apply (accounted.jobs number job found).turn
    intro shutdown now listed same member
    obtain ⟨known, there, lost⟩ := selected shutdown now listed same number member
    cases found.symm.trans there
    exact lost
  listed := by
    intro shutdown now listed same number member
    obtain ⟨job, there, _⟩ := selected shutdown now listed same number member
    exact (List.getElem?_eq_some_iff.mp there).1
  reaped := reaped
  surveyed := surveyed

theorem Accounted.store (accounted : pool.Accounted) {number : Nat}
    {result : Job α × Option Raised} (stored : pool.AccountedJob number result.1) :
    (pool.store number result).Accounted where
  ledger := accounted.ledger.store number result
  jobs := accounted_store (fun other job _ found => accounted.jobs other job found) stored
  listed := by simpa [Pool.store] using accounted.listed
  reaped := accounted.reaped
  surveyed := accounted.surveyed

theorem Accounted.submit (accounted : pool.Accounted) (submission : Submission) :
    { pool with
      jobs := pool.jobs ++ [submission.job pool.jobs.length]
      taskqueue := pool.taskqueue ++ submission.entries pool.jobs.length }.Accounted where
  ledger := accounted.ledger.submit submission
  jobs := by
    intro number job found
    rw [List.getElem?_append] at found
    split at found
    · exact (accounted.jobs number job found).mono (fun _ member => member)
        (fun _ _ back => back) rfl rfl
    · rename_i beyond
      simp only [List.getElem?_singleton] at found
      split at found
      case isFalse => cases found
      case isTrue last =>
        cases found
        have same : number = pool.jobs.length := by omega
        exact {
          recorded := by simp [workerPids_submitted]
          owed := fun lost => absurd (workerLost_submitted submission pool.jobs.length) lost
          closed := closed_submitted submission pool.jobs.length
          single := by
            intro _ _ task answered owner
            have bound := accounted.ledger.issued_lt task (accounted.ledger.readies task answered)
            omega
          selected := by
            intro shutdown now selected pass member
            have bound := accounted.listed shutdown now selected pass number member
            omega }
  listed := by
    intro shutdown now selected pass number member
    have bound := accounted.listed shutdown now selected pass number member
    rw [List.length_append]
    omega
  reaped := accounted.reaped
  surveyed := accounted.surveyed

theorem Accounted.spawn (accounted : pool.Accounted) {pid : Nat} (idle : pool.pass = .idle)
    (fresh : pid ∉ pool.pids) :
    { pool with
      workers := pool.workers ++ [Worker.mk pool.serials pid none false none false]
      serials := pool.serials + 1 }.Accounted where
  ledger := accounted.ledger.spawn fresh
  jobs := by
    intro number job found
    apply (accounted.jobs number job found).mono
    · exact fun _ member => member
    · intro ack present back
      have bound := accounted.ledger.taken_lt _ (accounted.ledger.acks ack present).1
      rw [List.map_append, List.mem_append] at back
      cases back with
      | inl old => exact old
      | inr new => exact absurd (List.mem_singleton.mp new) (Nat.ne_of_lt bound)
    · rfl
    · rfl
  listed := by simp [idle]
  reaped := by simp [idle]
  surveyed := by simp [idle]

theorem Accounted.handle (accounted : pool.Accounted) {report : Report α}
    {outqueue : List (Report α)} (undisturbed : Undisturbed iter pool .handle)
    (head : pool.outqueue = report :: outqueue) :
    ({ pool with outqueue }.onStateChange iter report).Accounted := by
  have frame : ({ pool with outqueue }.onStateChange iter report).pass = pool.pass ∧
      ({ pool with outqueue }.onStateChange iter report).jobs.length = pool.jobs.length ∧
      ({ pool with outqueue }.onStateChange iter report).pids = pool.pids := by
    unfold onStateChange
    split <;> (simp only; split <;> (try split)) <;> simp [Pool.store, pids]
  obtain ⟨pass, length, pids⟩ := frame
  exact {
    ledger := accounted.ledger.handle head
    jobs := jobs_onStateChange accounted.ledger accounted.jobs head undisturbed
    listed := by
      rw [pass, length]
      exact accounted.listed
    reaped := by
      rw [pass, pids]
      exact accounted.reaped
    surveyed := by
      rw [pass, pids]
      exact accounted.surveyed }

theorem Accounted.reap (accounted : pool.Accounted) {i : Nat} {cleaned : List Worker}
    {worker : Worker} (pass : pool.pass = .reaping (i + 1) cleaned)
    (found : pool.workers[i]? = some worker) :
    { pool with
      workers := pool.workers.eraseIdx i
      pass := .reaping i (worker :: cleaned) }.Accounted where
  ledger := accounted.ledger.reap i _
  jobs := by
    intro number job known
    have fewer : (pool.workers.eraseIdx i).Sublist pool.workers := List.eraseIdx_sublist _ _
    have turned : AccountedJob { pool with pass := .reaping i (worker :: cleaned) } number job :=
      (accounted.jobs number job known).turn nofun
    apply turned.mono
    · exact fun _ member => member
    · exact fun ack _ back => (fewer.map Worker.serial).subset back
    · rfl
    · rfl
  listed := nofun
  reaped := by
    intro _ _ same other member
    cases same
    intro there
    obtain ⟨kept, present, samePid⟩ := List.mem_map.mp there
    cases List.mem_cons.mp member with
    | inl new =>
        obtain ⟨j, inside, different, rfl⟩ := List.mem_eraseIdx_iff_getElem.mp present
        obtain ⟨within, rfl⟩ := List.getElem?_eq_some_iff.mp found
        rw [new] at samePid
        have nodup := accounted.ledger.pids_nodup
        have low : j < pool.pids.length := by simpa [pids] using inside
        have high : i < pool.pids.length := by simpa [pids] using within
        have equal : pool.pids[j] = pool.pids[i] := by simpa [pids] using samePid
        exact different (nodup.getElem_inj_iff.mp equal)
    | inr old =>
        exact accounted.reaped _ _ pass other old
          (List.mem_map.mpr ⟨kept, List.eraseIdx_subset present, samePid⟩)
  surveyed := nofun

theorem Accounted.select (accounted : pool.Accounted) {shutdown : Bool} {now : Option Nat}
    {number : Nat} {selected : List Nat}
    (pass : pool.pass = .marking shutdown now (number :: selected)) (reading : Option Nat) :
    { pool with pass := .marking shutdown reading selected }.Accounted := by
  refine accounted.turn ?_ nofun nofun
  intro _ _ _ same other member
  cases same
  have member := List.mem_cons_of_mem number member
  have inside := accounted.listed _ _ _ pass other member
  have found := List.getElem?_eq_getElem inside
  exact ⟨_, found, (accounted.jobs other _ found).selected _ _ _ pass member⟩

theorem Accounted.step (pool : Pool α) (label : PoolStep α) (next : Pool α)
    (accounted : pool.Accounted) (undisturbed : Undisturbed iter pool label)
    (taken : Pool.step iter pool label = some next) : next.Accounted := by
  have ledger := Ledger.step pool label next accounted.ledger taken
  obtain ⟨_, moved⟩ := moves_of_step taken
  cases moved with
  | tick => exact accounted.congr ledger rfl rfl rfl rfl rfl rfl
  | submit submission => exact accounted.submit submission
  | put head => exact accounted.congr ledger rfl rfl rfl rfl rfl rfl
  | @setLength number length taskqueue job head found =>
      have fed : { pool with taskqueue }.Accounted :=
        accounted.congr (accounted.ledger.skip head) rfl rfl rfl rfl rfl rfl
      exact fed.store ((fed.jobs _ _ found).progress (job.progress_setLength length))
  | spawn idle positive fresh => exact accounted.spawn idle fresh
  | take running head =>
      exact accounted.congr ledger rfl rfl rfl (pids_modifyWorker _ _ fun _ => rfl)
        (serials_modifyWorker _ _ fun _ => rfl) rfl
  | sendAck running holding =>
      exact accounted.congr ledger rfl rfl rfl (pids_modifyWorker _ _ fun _ => rfl)
        (serials_modifyWorker _ _ fun _ => rfl) rfl
  | sendReady running holding =>
      exact accounted.congr ledger rfl rfl rfl (pids_modifyWorker _ _ fun _ => rfl)
        (serials_modifyWorker _ _ fun _ => rfl) rfl
  | exit running =>
      exact accounted.congr ledger rfl rfl rfl (pids_modifyWorker _ _ fun _ => rfl)
        (serials_modifyWorker _ _ fun _ => rfl) rfl
  | terminateJob serial =>
      exact accounted.congr ledger rfl rfl rfl (pids_modifyWorker _ _ fun _ => rfl)
        (serials_modifyWorker _ _ fun _ => rfl) rfl
  | handle head => exact accounted.handle undisturbed head
  | join idle =>
      refine accounted.turn ?_ nofun nofun
      intro _ _ _ same number member
      cases same
      obtain ⟨job, found, _, selected⟩ := mem_cache.mp member
      rw [Bool.and_eq_true, Option.isSome_iff_ne_none] at selected
      exact ⟨job, found, selected.2⟩
  | @mark _ now _ _ _ _ _ pass found lost late =>
      have chosen := accounted.select pass (some (now.getD pool.clock))
      exact chosen.store ((chosen.jobs _ _ found).progress (Job.progress_set iter _ _ _))
  | spare pass => exact accounted.select pass _
  | joined pass => exact accounted.turn nofun nofun nofun
  | marked pass =>
      refine accounted.turn nofun ?_ nofun
      intro _ _ same
      cases same
      simp
  | reap pass found exited => exact accounted.reap pass found
  | keep pass =>
      refine accounted.turn nofun ?_ nofun
      intro _ _ same
      cases same
      exact accounted.reaped _ _ pass
  | barren pass => exact accounted.turn nofun nofun nofun
  | survey pass =>
      refine accounted.turn nofun nofun ?_
      intro _ _ _ same
      cases same
      exact ⟨rfl, accounted.reaped _ _ pass⟩
  | @scan cleaned allPids number todo job pass found =>
      have turned : { pool with pass := .scanning cleaned allPids todo }.Accounted := by
        refine accounted.turn nofun nofun ?_
        intro _ _ _ same
        cases same
        exact accounted.surveyed _ _ _ pass
      exact turned.store ((AccountedJob.scan accounted undisturbed pass found).turn nofun)
  | scanned pass => exact accounted.turn nofun nofun nofun

end Pool

end Billiard
