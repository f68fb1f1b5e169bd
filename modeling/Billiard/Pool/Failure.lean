import Billiard.Pool.Join

/-! What the consumer of a job gets to see of a lost worker: `mark_as_worker_lost` hands
the failure to the `_set` of the job with `None` for an index. -/

namespace Billiard

def Outcome.info? : Outcome α → Option ExceptionInfo
  | .success _ => none
  | .failure info => some info

/-- What becomes of a job after it was marked, in any order; `next` is the consumer of an
iterator, and a pass reads the clock for both of its loops. -/
inductive JobEvent (α : Type u) where
  | ready (i : Index) (outcome : Outcome α)
  | ack (i : Index) (timeAccepted pid : Nat) (synqWFd : Option Nat)
  | setLength (length : Nat)
  | next
  | pass (now clock : Nat) (cleaned : List Worker) (allPids : List Nat)

namespace Job

/-- What is there for the consumer, in the order in which `get` or `next` hands it out:
the exception of a failure, or `none` for a value. -/
def answers : Job α → List (Option ExceptionInfo)
  | .apply result => result.outcome.toList.map Outcome.info?
  | .map result =>
      if result.event then
        match result.value with
        | .ok _ => [none]
        | .error info => [some info]
      else []
  | .imap it | .imapUnordered it => it.items.map Outcome.info?

def next (job : Job α) : Job α :=
  match job with
  | .apply _ | .map _ => job
  | .imap it => .imap it.popleft.1
  | .imapUnordered it => .imapUnordered it.popleft.1

/-- The two loops of a pass over the cache, for one job. -/
def pass (iter : α → List α) (number now clock : Nat) (cleaned : List Worker)
    (allPids : List Nat) (job : Job α) : Job α :=
  let job := (job.markIfLate iter now number).1
  if cleaned.isEmpty then job
  else (job.scanIfCached iter (fun _ => clock) cleaned allPids number).1

/-- The result handler finds the job by way of the cache. -/
def act (iter : α → List α) (number : Nat) (job : Job α) : JobEvent α → Job α
  | .ready i outcome => if job.cached then (job.set iter i outcome).1 else job
  | .ack i timeAccepted pid synqWFd =>
      if job.cached then (job.ack i timeAccepted pid synqWFd).1 else job
  | .setLength length => (job.setLength length).1
  | .next => job.next
  | .pass now clock cleaned allPids => job.pass iter number now clock cleaned allPids

/-- `mark_as_worker_lost(job, lost_ret)` -/
def markAsWorkerLost (iter : α → List α) (number : Nat) (exitcode : Int) (job : Job α) :
    Job α × Option Raised :=
  job.set iter .none (.failure (.workerLost exitcode number))

/-- One failure is what the consumer finds after all that was there before, and whatever
happens then, no pass adds to it. -/
structure FailsOnce (iter : α → List α) (number : Nat) (exitcode : Int) (job : Job α) :
    Prop where
  reaches : (job.markAsWorkerLost iter number exitcode).1.answers =
    job.answers ++ [some (.workerLost exitcode number)]
  once : ∀ (events : List (JobEvent α)) now clock cleaned allPids,
    let after := events.foldl (act iter number) (job.markAsWorkerLost iter number exitcode).1
    (after.pass iter number now clock cleaned allPids).answers = after.answers

/-- A job whose `_set` keeps a failure without an index where the consumer looks; a map
does so if its error callback does not raise. -/
def ShowsFailure : Job α → Prop
  | .apply _ | .imapUnordered _ => True
  | .map result => result.errorCallback = none ∨ result.errorCallback = some .returns
  | .imap _ => False

instance : DecidablePred (@ShowsFailure α)
  | .apply _ | .imapUnordered _ => isTrue True.intro
  | .map result =>
      inferInstanceAs (Decidable (result.errorCallback = none ∨
        result.errorCallback = some .returns))
  | .imap _ => isFalse id

/-- A call or a map whose error callback returns; or an `imap_unordered` of known length
that waits for one more result. -/
def TakesFailure : Job α → Prop
  | .apply _ => True
  | .map result => result.errorCallback = none ∨ result.errorCallback = some .returns
  | .imap _ => False
  | .imapUnordered it => it.length = some (it.index + 1)

variable {iter : α → List α} {number : Nat} {exitcode : Int} {job : Job α}

theorem markIfLate_of_ready (ready : job.ready = true) (now : Nat) :
    job.markIfLate iter now number = (job, none) :=
  markIfLate_of_not_late (by simp [late, ready])

theorem scanIfCached_of_ready (ready : job.ready = true) (clock : Nat → Nat)
    (cleaned : List Worker) (allPids : List Nat) :
    (job.scanIfCached iter clock cleaned allPids number).1 = job := by
  unfold scanIfCached Pool.scanJob
  split
  · split
    · rfl
    · cases job <;> rfl
  · rfl

theorem pass_of_ready (ready : job.ready = true) (now clock : Nat) (cleaned : List Worker)
    (allPids : List Nat) : job.pass iter number now clock cleaned allPids = job := by
  unfold pass
  simp only [markIfLate_of_ready ready, scanIfCached_of_ready ready]
  split <;> rfl

theorem ready_popleft (it : IMapIterator α) (ready : it.isReady = true) :
    it.popleft.1.isReady = true := by
  unfold IMapIterator.popleft
  split
  · exact ready
  · split
    · rfl
    · exact ready

theorem ready_act (ready : job.ready = true) (event : JobEvent α) :
    (job.act iter number event).ready = true := by
  cases event with
  | ready i outcome =>
      simp only [act]
      split
      · exact (job.progress_set iter i outcome).ready ready
      · exact ready
  | ack i timeAccepted pid synqWFd =>
      simp only [act]
      split
      · exact (job.acked i timeAccepted pid synqWFd).ready.trans ready
      · exact ready
  | setLength length => exact (job.progress_setLength length).ready ready
  | next =>
      cases job with
      | apply result => exact ready
      | map result => exact ready
      | imap it => exact ready_popleft it ready
      | imapUnordered it => exact ready_popleft it ready
  | pass now clock cleaned allPids =>
      rw [act, pass_of_ready ready]
      exact ready

theorem ready_events (ready : job.ready = true) (events : List (JobEvent α)) :
    (events.foldl (act iter number) job).ready = true := by
  induction events generalizing job with
  | nil => exact ready
  | cons event events ih => exact ih (ready_act ready event)

theorem failsOnce_of_ready
    (reaches : (job.markAsWorkerLost iter number exitcode).1.answers =
      job.answers ++ [some (.workerLost exitcode number)])
    (ready : (job.markAsWorkerLost iter number exitcode).1.ready = true) :
    job.FailsOnce iter number exitcode where
  reaches := reaches
  once events now clock cleaned allPids :=
    congrArg answers (pass_of_ready (ready_events ready events) now clock cleaned allPids)

theorem answers_markUnordered (it : IMapIterator α) (info : ExceptionInfo) :
    (it.setUnordered (.failure info)).1.items = it.items ++ [.failure info] := by
  unfold IMapIterator.setUnordered IMapIterator.complete
  split
  · split <;> rfl
  · rfl

theorem answers_markAsWorkerLost (unready : job.ready = false) (shows : job.ShowsFailure) :
    (job.markAsWorkerLost iter number exitcode).1.answers =
      job.answers ++ [some (.workerLost exitcode number)] := by
  cases job with
  | apply result =>
      obtain ⟨calls, after, _⟩ := result.set_spec (.failure (.workerLost exitcode number))
      have pending : result.outcome = none := by
        simpa [ready, ApplyResult.ready] using unready
      simp [markAsWorkerLost, set, answers, after, pending, Outcome.info?]
  | map result =>
      have pending : result.event = false := unready
      cases shows with
      | inl absent =>
          simp [markAsWorkerLost, set, MapResult.set, MapResult.applyCallback, MapResult.finish,
            answers, absent, pending]
      | inr returns =>
          simp [markAsWorkerLost, set, MapResult.set, MapResult.applyCallback, MapResult.finish,
            answers, returns, pending]
  | imap it => exact shows.elim
  | imapUnordered it =>
      have items := answers_markUnordered it (.workerLost exitcode number)
      simp only [markAsWorkerLost, set, Prod.map, answers]
      rw [items, List.map_append]
      rfl

theorem map_failsOnce_iff {result : MapResult α} (cached : result.cached = true)
    (unready : result.ready = false) :
    (Job.map result).FailsOnce iter number exitcode ↔ (Job.map result).ShowsFailure := by
  constructor
  · intro fails
    have pending : result.event = false := unready
    have reaches := fails.reaches
    cases called : result.errorCallback with
    | none => exact .inl called
    | some callback =>
        cases callback with
        | returns => exact .inr called
        | _ =>
            -- the event is not set when the callback raises
            simp [markAsWorkerLost, set, MapResult.set, MapResult.applyCallback, answers, called,
              pending] at reaches
  · intro shows
    have returned : ((Job.map result).markAsWorkerLost iter number exitcode).2 = none :=
      (setFailure_returned_iff (by exact cached)).mpr shows
    exact failsOnce_of_ready (answers_markAsWorkerLost unready shows)
      (MapResult.event_setFailure (by simpa [markAsWorkerLost, set, Prod.map] using returned))

theorem imap_not_failsOnce (it : IMapIterator α) :
    ¬(Job.imap it).FailsOnce iter number exitcode := by
  intro fails
  have kept : ((Job.imap it).markAsWorkerLost iter number exitcode).1.answers =
      (Job.imap it).answers := by
    simp only [markAsWorkerLost, set, IMapIterator.set, IMapIterator.complete, Prod.map, answers,
      reduceCtorEq, if_false]
    split
    · split <;> rfl
    · rfl
  have reaches := congrArg List.length fails.reaches
  rw [kept, List.length_append, List.length_singleton] at reaches
  omega

theorem imapUnordered_failsOnce_iff {it : IMapIterator α} {lostTime : Nat}
    (cached : it.cached = true) (unready : it.isReady = false)
    (lost : it.workerLost = some (lostTime, exitcode)) :
    (Job.imapUnordered it).FailsOnce iter number exitcode ↔ it.length = some (it.index + 1) := by
  let info : ExceptionInfo := .workerLost exitcode number
  have kept : (it.append (.failure info)).notify.cached = true := cached
  have completed : (it.setUnordered (.failure info)).1 =
      if it.length = some (it.index + 1)
      then { (it.append (.failure info)).notify with isReady := true, cached := false }
      else (it.append (.failure info)).notify := by
    rw [IMapIterator.setUnordered, IMapIterator.complete_of_cached kept]
    rfl
  constructor
  · intro fails
    apply Decidable.byContradiction
    intro more
    rw [if_neg more] at completed
    -- the job is not ready, and the next late pass marks it once more
    let now := lostTime + it.lostWorkerTimeout + 1
    have again := fails.once [] now 0 [] []
    have marked : ((Job.imapUnordered it).markAsWorkerLost iter number exitcode).1 =
        .imapUnordered (it.append (.failure info)).notify := congrArg Job.imapUnordered completed
    rw [List.foldl_nil, marked] at again
    have late : (Job.imapUnordered (it.append (.failure info)).notify).late now = true := by
      simp [late, Job.ready, IMapIterator.ready, IMapIterator.notify, IMapIterator.append,
        unready, workerLost, lost, lostWorkerTimeout, now]
    obtain ⟨other, second⟩ := markIfLate_eq iter number (by exact kept) late
    simp only [pass, List.isEmpty_nil, if_true, second] at again
    have longer := congrArg List.length again
    have items := answers_markUnordered (it.append (.failure info)).notify other
    simp only [set, Prod.map, answers, items, List.map_append, List.length_append] at longer
    simp at longer
  · intro last
    rw [if_pos last] at completed
    refine failsOnce_of_ready (answers_markAsWorkerLost unready True.intro) ?_
    have ready := congrArg IMapIterator.isReady completed
    exact ready

/-- When a worker of the job is lost, the failure reaches the consumer once exactly if the
`_set` of the job makes it ready and keeps the failure where the consumer looks. -/
theorem failsOnce_iff {lostTime : Nat} (cached : job.cached = true)
    (unready : job.ready = false) (lost : job.workerLost = some (lostTime, exitcode)) :
    job.FailsOnce iter number exitcode ↔ job.TakesFailure := by
  cases job with
  | apply result =>
      exact iff_of_true (failsOnce_of_ready (answers_markAsWorkerLost unready True.intro)
        (apply_ready_set iter rfl .none _)) True.intro
  | map result => exact map_failsOnce_iff cached unready
  | imap it => exact iff_of_false (imap_not_failsOnce it) id
  | imapUnordered it => exact imapUnordered_failsOnce_iff cached unready lost

/-- An `imap_unordered` with one result left, which the lost worker had. -/
theorem failsOnce_iff_last :
    let it : IMapIterator Nat := { IMapIterator.init 4 10 with
      items := [.success 5]
      index := 1
      length := some 2
      workerPids := [7, 7]
      workerLost := some (3, -9) }
    ((Job.imapUnordered it).FailsOnce (fun value => [value]) 4 (-9) ↔
        (Job.imapUnordered it).TakesFailure) ∧
      (Job.imapUnordered it).FailsOnce (fun value => [value]) 4 (-9) := by
  intro it
  have both : (Job.imapUnordered it).FailsOnce (fun value => [value]) 4 (-9) ↔
      (Job.imapUnordered it).TakesFailure := failsOnce_iff rfl rfl rfl
  exact ⟨both, both.mpr rfl⟩

/-- The failure of an `imap` goes to `_unsorted`, and the one of an `imap_unordered` that
waits for more results is repeated by the next pass. -/
theorem not_failsOnce :
    ¬(Job.imap { IMapIterator.init 4 10 with
        workerPids := [7]
        workerLost := some (3, -9) } : Job Nat).FailsOnce (fun value => [value]) 4 (-9) ∧
      ¬(Job.imapUnordered { IMapIterator.init 4 10 with
        workerPids := [7]
        workerLost := some (3, -9) } : Job Nat).FailsOnce (fun value => [value]) 4 (-9) := by
  constructor
  · intro fails
    have reaches := fails.reaches
    cases reaches
  · intro fails
    have again := fails.once [] 14 0 [] []
    cases again

end Job

end Billiard
