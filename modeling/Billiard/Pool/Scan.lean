import Billiard.Pool.Supervision

/-! A pass looks for the jobs of workers that are gone only if it has reaped a
worker itself.  A job acknowledged after its worker was reaped is overlooked. -/

namespace Billiard

open Transition

/-- The pass under way has still to find that the worker `pid` of the job is gone. -/
def Pass.WillScan (number pid : Nat) : Pass → Prop
  | .idle | .marking .. => False
  | .reaping _ cleaned => ∃ worker ∈ cleaned, worker.pid = pid
  | .scanning cleaned allPids todo => number ∈ todo ∧ Pool.gone cleaned allPids pid = true

namespace Pool

def Complete (pool : Pool α) : Prop :=
  ∀ (number : Nat) (job : Job α), pool.jobs[number]? = some job →
    job.isApply = true → job.cached = true → job.ready = false →
    ∀ pid ∈ job.workerPids, pid ∉ pool.pids → job.workerLost ≠ none

/-- The result handler gets the ACK of an open `ApplyResult` while the worker
that sent it is still in `_pool`. -/
def AckedInTime (pool : Pool α) (label : PoolStep α) : Prop :=
  label = .handle → ∀ report outqueue timeAccepted pid synqWFd job,
    pool.outqueue = report :: outqueue →
    report.message = .ack timeAccepted pid synqWFd →
    pool.jobs[report.task.job]? = some job → job.isApply = true → job.ready = false →
    pid ∈ pool.pids

/-- What is known of a job between the steps of a pass. -/
def WatchedJob (pool : Pool α) (number : Nat) (job : Job α) : Prop :=
  job.isApply = true → job.cached = true → job.ready = false → ∀ pid ∈ job.workerPids,
    pid ∈ pool.pids ∨ job.workerLost ≠ none ∨ pool.pass.WillScan number pid

structure Watched (pool : Pool α) : Prop where
  jobs : ∀ (number : Nat) (job : Job α), pool.jobs[number]? = some job → pool.WatchedJob number job
  /-- Nobody is added to `_pool` during a pass. -/
  surveyed : ∀ cleaned allPids todo, pool.pass = .scanning cleaned allPids todo →
    allPids = pool.pids

theorem init_watched : (init : Pool α).Watched where
  jobs := by simp [init]
  surveyed := by simp [init]

variable {iter : α → List α} {pool next : Pool α}

theorem Watched.congr (watched : pool.Watched) (jobs : next.jobs = pool.jobs)
    (pids : next.pids = pool.pids) (pass : next.pass = pool.pass) : next.Watched where
  jobs := by
    unfold WatchedJob
    rw [jobs, pids, pass]
    exact watched.jobs
  surveyed := by
    rw [pids, pass]
    exact watched.surveyed

theorem WatchedJob.progress {number : Nat} {before after : Job α}
    (watched : pool.WatchedJob number before) (progress : Job.Progress before after) :
    pool.WatchedJob number after := by
  intro isApply cached unready pid recorded
  have unreadyBefore : before.ready = false := by
    cases ready : before.ready with
    | false => rfl
    | true => exact absurd ((progress.ready ready).symm.trans unready) nofun
  rw [progress.workerLost]
  exact watched (progress.isApply ▸ isApply) (progress.cached cached) unreadyBefore pid
    (progress.workerPids ▸ recorded)

theorem Watched.store (watched : pool.Watched) {number : Nat} {result : Job α × Option Raised}
    (stored : pool.WatchedJob number result.1) : (pool.store number result).Watched where
  jobs := @jobs_store _ _ pool.WatchedJob _ _ (fun other job _ => watched.jobs other job) stored
  surveyed := watched.surveyed

theorem Watched.turn (watched : pool.Watched) {pass : Pass}
    (left : ∀ (number : Nat) (job : Job α), pool.jobs[number]? = some job → job.cached = true →
      ∀ pid, pool.pass.WillScan number pid → pass.WillScan number pid)
    (surveyed : ∀ cleaned allPids todo, pass = .scanning cleaned allPids todo →
      allPids = pool.pids) : { pool with pass }.Watched where
  jobs := by
    intro number job found isApply cached unready pid recorded
    refine (watched.jobs number job found isApply cached unready pid recorded).imp_right ?_
    exact Or.imp_right (left number job found cached pid)
  surveyed := surveyed

theorem Watched.submit (watched : pool.Watched) (submission : Submission)
    (entries : List Entry) :
    { pool with
      jobs := pool.jobs ++ [submission.job pool.jobs.length]
      taskqueue := entries }.Watched where
  jobs := by
    intro number job found
    rw [List.getElem?_append] at found
    split at found
    · exact watched.jobs number job found
    · have new : job = submission.job pool.jobs.length := by
        simp only [List.getElem?_singleton] at found
        split at found
        · exact (Option.some.inj found).symm
        · cases found
      intro _ _ _ pid recorded
      rw [new, workerPids_submitted] at recorded
      cases recorded
  surveyed := watched.surveyed

theorem Watched.onStateChange (watched : pool.Watched) {report : Report α}
    (intime : ∀ timeAccepted pid synqWFd (job : Job α),
      report.message = .ack timeAccepted pid synqWFd →
      pool.jobs[report.task.job]? = some job → job.isApply = true → job.ready = false →
      pid ∈ pool.pids) : (pool.onStateChange iter report).Watched := by
  unfold Pool.onStateChange
  cases message : report.message with
  | ack timeAccepted pid synqWFd =>
      have logged : { pool with
          acks := pool.acks ++ [Acknowledgement.mk report.serial pid report.task] }.Watched :=
        watched.congr rfl rfl rfl
      simp only
      split
      · exact logged
      · rename_i job found
        split
        · apply logged.store
          have acked := job.acked report.task.i timeAccepted pid synqWFd
          intro isApply cached unready recorded member
          have open_ := acked.ready.symm.trans unready
          have single := acked.isApply.symm.trans isApply
          cases acked.workerPids recorded member with
          | inl old =>
              rw [show (catching _ _).1.workerLost = job.workerLost from acked.workerLost]
              exact watched.jobs _ _ found single (acked.cached cached) open_ recorded old
          | inr new =>
              rw [new]
              exact .inl (intime _ _ _ _ message found single open_)
        · exact logged
  | ready outcome =>
      have logged : { pool with readies := pool.readies ++ [report.task] }.Watched :=
        watched.congr rfl rfl rfl
      simp only
      split
      · exact logged
      · rename_i job found
        split
        · exact logged.store ((logged.jobs _ _ found).progress (job.progress_set iter _ outcome))
        · exact logged

theorem WatchedJob.scan {cleaned : List Worker} {allPids todo : List Nat} {number clock : Nat}
    {job : Job α} (watched : pool.WatchedJob number job)
    (pass : pool.pass = .scanning cleaned allPids (number :: todo)) :
    { pool with pass := .scanning cleaned allPids todo }.WatchedJob number
      (scanJob iter clock cleaned allPids job).1 := by
  unfold scanJob
  split
  · rename_i pid sought
    split
    · rename_i ready
      intro _ _ unready
      exact absurd (ready.symm.trans unready) nofun
    · simp only
      split
      · intro isApply _ unready
        have single := (job.progress_setTerminated iter _).isApply.symm.trans isApply
        exact absurd ((Job.apply_ready_setTerminated iter single _).symm.trans unready) nofun
      · intro _ _ _ _ _
        exact .inr (.inl (by simp [Job.workerLost_setWorkerLost]))
  · rename_i nobody
    split
    · rename_i result
      intro isApply cached unready pid recorded
      have before := watched isApply cached unready pid recorded
      refine before.imp_right (Or.imp_right ?_)
      intro found
      simp only [pass, Pass.WillScan] at found
      have sought := List.find?_isSome.mpr ⟨pid, recorded, found.2⟩
      obtain ⟨first, sought⟩ := Option.isSome_iff_exists.mp sought
      have positive := ApplyResult.ne_zero_of_mem_workerPids (List.mem_of_find?_eq_some sought)
      simp [sought, positive] at nobody
    · intro isApply
      cases isApply
    · intro isApply
      cases isApply
    · intro isApply
      cases isApply

theorem Watched.scan (watched : pool.Watched) {cleaned : List Worker} {allPids todo : List Nat}
    {number clock : Nat} {job : Job α}
    (pass : pool.pass = .scanning cleaned allPids (number :: todo))
    (found : pool.jobs[number]? = some job) :
    ({ pool with pass := .scanning cleaned allPids todo }.store number
      (scanJob iter clock cleaned allPids job)).Watched where
  jobs := by
    apply @jobs_store _ _ (WatchedJob { pool with pass := .scanning cleaned allPids todo })
    · intro other job different found isApply cached unready pid recorded
      have before := watched.jobs other job found isApply cached unready pid recorded
      refine before.imp_right (Or.imp_right ?_)
      intro left
      simp only [pass, Pass.WillScan, List.mem_cons] at left
      exact ⟨left.1.resolve_left different, left.2⟩
    · exact (watched.jobs number job found).scan pass
  surveyed := by
    intro _ _ _ same
    cases same
    exact watched.surveyed _ _ _ pass

theorem Watched.reap (watched : pool.Watched) {i : Nat} {cleaned : List Worker} {worker : Worker}
    (pass : pool.pass = .reaping (i + 1) cleaned) (found : pool.workers[i]? = some worker) :
    { pool with
      workers := pool.workers.eraseIdx i
      pass := .reaping i (worker :: cleaned) }.Watched where
  jobs := by
    intro number job known isApply cached unready pid recorded
    cases watched.jobs number job known isApply cached unready pid recorded with
    | inl present =>
        obtain ⟨other, member, same⟩ := List.mem_map.mp present
        obtain ⟨j, inside, rfl⟩ := List.getElem_of_mem member
        cases Nat.decEq j i with
        | isTrue reaped =>
            subst reaped
            rw [List.getElem?_eq_getElem inside, Option.some.injEq] at found
            exact .inr (.inr ⟨worker, List.mem_cons_self, found ▸ same⟩)
        | isFalse kept =>
            have stays := List.mem_eraseIdx_iff_getElem.mpr ⟨j, inside, kept, rfl⟩
            exact .inl (List.mem_map.mpr ⟨_, stays, same⟩)
    | inr rest =>
        refine .inr (rest.imp_right ?_)
        intro left
        simp only [pass, Pass.WillScan] at left
        obtain ⟨other, member, same⟩ := left
        exact ⟨other, List.mem_cons_of_mem _ member, same⟩
  surveyed := nofun

theorem Watched.step (pool : Pool α) (label : PoolStep α) (next : Pool α)
    (watched : pool.Watched) (intime : pool.AckedInTime label)
    (taken : Pool.step iter pool label = some next) : next.Watched := by
  obtain ⟨_, moved⟩ := moves_of_step taken
  cases moved with
  | tick => exact watched.congr rfl rfl rfl
  | submit submission => exact watched.submit submission _
  | put head => exact watched.congr rfl rfl rfl
  | @setLength _ _ taskqueue _ head found =>
      have fed : { pool with taskqueue }.Watched := watched.congr rfl rfl rfl
      exact fed.store ((fed.jobs _ _ found).progress (Job.progress_setLength _ _))
  | spawn idle positive fresh =>
      refine ⟨?_, by simp [idle]⟩
      intro number job found isApply cached unready recorded member
      refine (watched.jobs number job found isApply cached unready recorded member).imp_left ?_
      intro present
      simp only [pids, List.map_append]
      exact List.mem_append_left _ present
  | take running head => exact watched.congr rfl (pids_modifyWorker _ _ fun _ => rfl) rfl
  | sendAck running holding => exact watched.congr rfl (pids_modifyWorker _ _ fun _ => rfl) rfl
  | sendReady running holding => exact watched.congr rfl (pids_modifyWorker _ _ fun _ => rfl) rfl
  | exit running => exact watched.congr rfl (pids_modifyWorker pool _ fun _ => rfl) rfl
  | terminateJob serial => exact watched.congr rfl (pids_modifyWorker pool _ fun _ => rfl) rfl
  | @handle report outqueue head =>
      have read : { pool with outqueue }.Watched := watched.congr rfl rfl rfl
      apply read.onStateChange
      intro timeAccepted pid synqWFd job message found single unready
      exact intime rfl _ _ timeAccepted pid synqWFd job head message found single unready
  | join idle => exact watched.turn (by simp [idle, Pass.WillScan]) nofun
  | @mark shutdown now _ selected _ _ _ pass found lost late =>
      have turned : { pool with
          pass := .marking shutdown (some (now.getD pool.clock)) selected }.Watched :=
        watched.turn (by simp [pass, Pass.WillScan]) nofun
      exact turned.store ((turned.jobs _ _ found).progress (Job.progress_set iter _ _ _))
  | spare pass => exact watched.turn (by simp [pass, Pass.WillScan]) nofun
  | joined pass => exact watched.turn (by simp [pass, Pass.WillScan]) nofun
  | marked pass => exact watched.turn (by simp [pass, Pass.WillScan]) nofun
  | reap pass found exited => exact watched.reap pass found
  | keep pass => exact watched.turn (by simp [pass, Pass.WillScan]) nofun
  | barren pass => exact watched.turn (by simp [pass, Pass.WillScan]) nofun
  | survey pass =>
      refine watched.turn ?_ ?_
      · intro number job found cached pid reaped
        simp only [pass, Pass.WillScan] at reaped
        obtain ⟨worker, member, same⟩ := reaped
        refine ⟨mem_cache.mpr ⟨job, found, cached, rfl⟩, ?_⟩
        simp only [gone, Bool.or_eq_true, List.any_eq_true, beq_iff_eq]
        exact .inl ⟨worker, member, same⟩
      · intro _ _ _ same
        cases same
        rfl
  | scan pass found => exact watched.scan pass found
  | scanned pass => exact watched.turn (by simp [pass, Pass.WillScan]) nofun

theorem Watched.complete (watched : pool.Watched) (idle : pool.pass = .idle) :
    pool.Complete := by
  intro number job found isApply cached unready pid recorded absent
  have watch := watched.jobs number job found isApply cached unready pid recorded
  rw [idle] at watch
  exact (watch.resolve_left absent).resolve_right id

end Pool

end Billiard
