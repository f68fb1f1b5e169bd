import Billiard.Pool.Failure

/-! What becomes of the record of a lost worker, `_worker_lost`, until the job is failed. -/

namespace Billiard

open Transition

/-- The last loop of a pass hands the job to `on_job_process_lost`. -/
def Job.relost (cleaned : List Worker) (allPids : List Nat) (job : Job α) : Bool :=
  (job.ackedByGone cleaned allPids).any fun pid =>
    !(cleaned.find? (·.pid == pid)).any Worker.jobTerminated

namespace Pool

/-- The job is resolved, or its record is the given one. -/
def Recorded (number lostTime : Nat) (exitcode : Int) (pool : Pool α) : Prop :=
  ∃ job, pool.jobs[number]? = some job ∧
    (job.ready = true ∨ job.workerLost = some (lostTime, exitcode))

/-- The record stands, every pass takes up the job while it is open, and a pass later than the
deadline fails it with the exit code of the record. -/
structure KeepsRecord (iter : α → List α) (number lostTime : Nat) (exitcode : Int)
    (pool : Pool α) (label : PoolStep α) : Prop where
  recorded : pool.Recorded number lostTime exitcode
  selected : ∀ shutdown next job, label = .join shutdown → pool.step iter label = some next →
    pool.jobs[number]? = some job → job.cached = true → job.ready = false →
    ∃ selected, next.pass = .marking shutdown none selected ∧ number ∈ selected
  failed : ∀ shutdown now selected next job, label = .advance →
    pool.pass = .marking shutdown now (number :: selected) → pool.step iter label = some next →
    pool.jobs[number]? = some job → job.ready = false →
    lostTime + job.lostWorkerTimeout < now.getD pool.clock →
    ∃ after, next.jobs[number]? = some after ∧
      after.answers = job.answers ++ [some (.workerLost exitcode number)]

/-- No pass that has taken out a worker finds the open job with a worker missing, unless
the worker was told to end the job; and the job shows its failure. -/
def Unretouched (number : Nat) (pool : Pool α) (label : PoolStep α) : Prop :=
  match label, pool.pass with
  | .advance, .scanning cleaned allPids (other :: _) => other = number →
      ∀ job ∈ pool.jobs[number]?, job.ready = false → job.relost cleaned allPids = false
  | .advance, .marking _ _ (other :: _) => other = number →
      ∀ job ∈ pool.jobs[number]?, job.ready = false → job.ShowsFailure
  | _, _ => True

instance (number : Nat) (pool : Pool α) (label : PoolStep α) :
    Decidable (pool.Unretouched number label) := by
  unfold Unretouched
  split <;> infer_instance

variable {iter : α → List α} {number lostTime : Nat} {exitcode : Int} {pool next : Pool α}

theorem Recorded.lost (recorded : pool.Recorded number lostTime exitcode) {job : Job α}
    (found : pool.jobs[number]? = some job) (unready : job.ready = false) :
    job.workerLost = some (lostTime, exitcode) := by
  obtain ⟨other, here, state⟩ := recorded
  rw [found] at here
  cases here
  exact state.resolve_left (by simp [unready])

theorem Recorded.congr (recorded : pool.Recorded number lostTime exitcode)
    (jobs : next.jobs = pool.jobs) : next.Recorded number lostTime exitcode := by
  unfold Recorded
  rw [jobs]
  exact recorded

theorem Recorded.store (recorded : pool.Recorded number lostTime exitcode) {other : Nat}
    {before : Job α} {result : Job α × Option Raised}
    (found : pool.jobs[other]? = some before)
    (ready : before.ready = true → result.1.ready = true)
    (lost : other = number → before.ready = false →
      result.1.ready = true ∨ result.1.workerLost = before.workerLost) :
    (pool.store other result).Recorded number lostTime exitcode := by
  obtain ⟨job, here, state⟩ := recorded
  by_cases same : other = number
  · subst same
    rw [found] at here
    cases here
    refine ⟨result.1, Tally.getElem?_set_found found result.1, ?_⟩
    cases unready : before.ready with
    | true => exact .inl (ready unready)
    | false =>
        have recorded := state.resolve_left (by simp [unready])
        exact (lost rfl unready).imp_right fun kept => kept.trans recorded
  · refine ⟨job, ?_, state⟩
    simp only [Pool.store]
    rw [List.getElem?_set_ne same]
    exact here

theorem Recorded.progress (recorded : pool.Recorded number lostTime exitcode) {other : Nat}
    {before : Job α} {result : Job α × Option Raised}
    (found : pool.jobs[other]? = some before) (progress : Job.Progress before result.1) :
    (pool.store other result).Recorded number lostTime exitcode :=
  recorded.store found progress.ready fun _ _ => .inr progress.workerLost

theorem Recorded.onStateChange (recorded : pool.Recorded number lostTime exitcode)
    (report : Report α) : (pool.onStateChange iter report).Recorded number lostTime exitcode := by
  unfold Pool.onStateChange
  cases report.message with
  | ack timeAccepted pid synqWFd =>
      simp only
      split
      · exact recorded.congr rfl
      · rename_i job found
        split
        · have acked := job.acked report.task.i timeAccepted pid synqWFd
          refine Recorded.store (recorded.congr rfl) found acked.ready.trans ?_
          exact fun _ _ => .inr acked.workerLost
        · exact recorded.congr rfl
  | ready outcome =>
      simp only
      split
      · exact recorded.congr rfl
      · rename_i job found
        split
        · exact Recorded.progress (recorded.congr rfl) found (job.progress_set iter _ outcome)
        · exact recorded.congr rfl

/-- The last loop keeps the record of a job that it does not hand to
`on_job_process_lost`. -/
theorem scanJob_kept {clock : Nat} {cleaned : List Worker} {allPids : List Nat} {job : Job α}
    (spared : job.relost cleaned allPids = false) :
    Job.Progress job (scanJob iter clock cleaned allPids job).1 := by
  unfold scanJob
  split
  · rename_i pid sought
    have terminated : (cleaned.find? (·.pid == pid)).any Worker.jobTerminated = true := by
      unfold Job.relost Job.ackedByGone at spared
      rw [sought] at spared
      simpa using spared
    split
    · exact Job.Progress.refl job
    · simp only [terminated, if_true]
      exact job.progress_setTerminated iter _
  · split <;> exact Job.Progress.refl _

theorem Recorded.step (pool : Pool α) (label : PoolStep α) (next : Pool α)
    (recorded : pool.Recorded number lostTime exitcode)
    (unretouched : pool.Unretouched number label)
    (taken : Pool.step iter pool label = some next) : next.Recorded number lostTime exitcode := by
  obtain ⟨_, moved⟩ := moves_of_step taken
  cases moved with
  | submit submission =>
      obtain ⟨job, found, state⟩ := recorded
      refine ⟨job, ?_, state⟩
      have inside := (List.getElem?_eq_some_iff.mp found).1
      simp only
      rw [List.getElem?_append_left inside]
      exact found
  | @setLength _ _ taskqueue job head found =>
      exact Recorded.progress (recorded.congr rfl) found (job.progress_setLength _)
  | @handle report outqueue head =>
      have read : { pool with outqueue }.Recorded number lostTime exitcode := recorded.congr rfl
      exact read.onStateChange report
  | @mark _ _ _ _ _ _ job pass found lost late =>
      exact Recorded.progress (recorded.congr rfl) found (job.progress_set iter _ _)
  | @scan cleaned allPids other todo job pass found =>
      refine Recorded.store (recorded.congr rfl) found ?_ ?_
      · intro ready
        rw [scanJob_of_ready ready]
        exact ready
      · rintro rfl unready
        simp only [Unretouched, pass] at unretouched
        have spared := unretouched True.intro job found unready
        exact .inr (scanJob_kept spared).workerLost
  | _ => exact recorded.congr rfl

theorem KeepsRecord.of_recorded (pool : Pool α) (label : PoolStep α)
    (recorded : pool.Recorded number lostTime exitcode)
    (unretouched : pool.Unretouched number label) :
    pool.KeepsRecord iter number lostTime exitcode label where
  recorded := recorded
  selected := by
    rintro shutdown next job rfl taken found cached unready
    have lost := recorded.lost found unready
    obtain ⟨_, moved⟩ := moves_of_step taken
    cases moved
    exact ⟨_, rfl, mem_cache.mpr ⟨job, found, cached, by simp [unready, lost]⟩⟩
  failed := by
    rintro shutdown now selected next job rfl pass taken found unready late
    simp only [Unretouched, pass] at unretouched
    have shows := unretouched True.intro job found unready
    have lost := recorded.lost found unready
    obtain ⟨calm, _⟩ := moves_of_step taken
    simp only [step, calm, Option.isSome_none, Bool.false_eq_true, if_false, advance, pass, found,
      lost, late, if_true, Option.some.injEq] at taken
    subst taken
    exact ⟨_, Tally.getElem?_set_found found _, Job.answers_markAsWorkerLost unready shows⟩

/-- From the moment of its record on, in every run in which no later pass that takes out
a worker comes upon the job while it is open. -/
theorem record_kept {first last : Pool α} {labels : List (PoolStep α)} {job : Job α}
    (found : first.jobs[number]? = some job) (lost : job.workerLost = some (lostTime, exitcode))
    (unretouched : Along (step iter) (Unretouched number) first labels)
    (ran : run (step iter) first labels = some last) :
    Along (step iter) (KeepsRecord iter number lostTime exitcode) first labels ∧
      last.Recorded number lostTime exitcode := by
  have recorded : first.Recorded number lostTime exitcode := ⟨job, found, .inr lost⟩
  exact ⟨along_of_invariant Recorded.step KeepsRecord.of_recorded recorded unretouched,
    invariant_along Recorded.step recorded unretouched ran⟩

/-- The worker of a call is killed, and a pass records the loss. -/
def killedWorker : List (PoolStep Nat) :=
  [.spawn 7, .spawn 8, .submit (.apply {}), .feed, .take 0, .sendAck 0 none, .handle,
    .exit 0 (-9), .join false, .advance, .advance, .advance, .advance, .advance, .advance]

def undisturbedPasses : List (PoolStep Nat) :=
  [.join false, .advance, .advance, .advance, .advance] ++ List.replicate 11 .tick ++
    [.join false, .advance]

theorem record_kept_failed :
    ∃ first last, run (step fun value => [value]) init killedWorker = some first ∧
      run (step fun value => [value]) first undisturbedPasses = some last ∧
      Along (step fun value => [value]) (KeepsRecord (fun value => [value]) 0 0 (-9)) first
        undisturbedPasses ∧ last.Recorded 0 0 (-9) := by
  refine ⟨_, _, rfl, rfl, record_kept rfl rfl ?_ rfl⟩
  decide

def unrelatedExit : List (PoolStep Nat) :=
  [.tick, .exit 1 0, .join false, .advance, .advance, .advance, .advance, .advance]

theorem record_overwritten :
    ∃ first last job, run (step fun value => [value]) init killedWorker = some first ∧
      first.jobs[0]? = some job ∧ job.ready = false ∧ job.workerLost = some (0, -9) ∧
      run (step fun value => [value]) first unrelatedExit = some last ∧
      ¬last.Recorded 0 0 (-9) := by
  refine ⟨_, _, _, rfl, rfl, rfl, rfl, rfl, ?_⟩
  rintro ⟨job, found, state⟩
  cases found
  obtain ready | lost := state
  · cases ready
  · cases lost

end Pool

end Billiard
