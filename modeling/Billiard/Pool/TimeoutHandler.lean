import Billiard.Data.Visit
import Billiard.Pool.Job

/-! The passes of `TimeoutHandler.handle_timeouts` over the cache. -/

namespace Billiard

open Visit

inductive TimeLimit where
  | soft
  | hard
deriving DecidableEq, Repr

inductive TimeoutSignal where
  | softTimeout
  | term
  | kill
deriving DecidableEq, Repr

inductive KillOutcome where
  | delivered
  | noSuchProcess
  | refused
deriving DecidableEq, Repr

inductive TimeoutCrash where
  | raised (exc : Raised)
  | osError
deriving DecidableEq, Repr

/-- A job under the timeout handler; `dirty` tells that its number is in the set
`dirty`, and `signals` are those that the pass has sent on its account. -/
structure TimedJob (α : Type u) where
  job : Job α
  dirty : Bool
  signals : List (Nat × TimeoutSignal)

/-- `processes` are the pids of the pool, and `clock` is read for each limit of
each job; `exits` tells that a worker exits in time when it is terminated, with
a status other than 0. -/
structure TimeoutHandler where
  processes : List Nat
  tSoft : Option Nat
  tHard : Option Nat
  clock : Nat → TimeLimit → Nat
  kill : Nat → KillOutcome
  exits : Nat → Bool

def truthy (number : Option Nat) : Bool := number.any (· != 0)

def timedOut (start timeout : Option Nat) (now : Nat) : Bool :=
  match start, timeout with
  | some start, some timeout => start != 0 && timeout != 0 && decide (start + timeout ≤ now)
  | _, _ => false

/-- `_timed_out` for the list of times that a map has: no number can be added to it. -/
def timesTimedOut (start : List (Option Nat)) (timeout : Option Nat) : Option Raised :=
  if start.isEmpty || !truthy timeout then none else some .typeError

namespace TimedJob

def signal (entry : TimedJob α) (pid : Nat) (signal : TimeoutSignal) : TimedJob α :=
  { entry with signals := entry.signals ++ [(pid, signal)] }

/-- A pass begins without the dirty jobs that have left the cache. -/
def start (entry : TimedJob α) : TimedJob α :=
  { entry with dirty := entry.dirty && entry.job.cached, signals := [] }

end TimedJob

namespace TimeoutHandler

def processByPid (handler : TimeoutHandler) (pid : Option Nat) : Option Nat :=
  pid.filter handler.processes.contains

def onSoftTimeout (handler : TimeoutHandler) (entry : TimedJob α) (result : ApplyResult α) :
    TimedJob α × Option TimeoutCrash :=
  match handler.processByPid result.workerPid with
  | none => (entry, none)
  | some pid =>
      match result.handleTimeout true with
      | (result, some exc) => ({ entry with job := .apply result }, some (.raised exc))
      | (result, none) =>
          match handler.kill pid with
          | .delivered => ({ entry with job := .apply result }.signal pid .softTimeout, none)
          | .noSuchProcess => ({ entry with job := .apply result }, none)
          | .refused => ({ entry with job := .apply result }, some .osError)

/-- `_trywaitkill`, where every `OSError` is caught. -/
def trywaitkill (handler : TimeoutHandler) (entry : TimedJob α) (pid : Nat) : TimedJob α :=
  if handler.exits pid then entry.signal pid .term
  else (entry.signal pid .term).signal pid .kill

def onHardTimeout (handler : TimeoutHandler) (entry : TimedJob α) (result : ApplyResult α) :
    TimedJob α × Option TimeoutCrash :=
  if result.ready then (entry, none)
  else
    match result.set (.failure (.timeLimitExceeded result.timeout)) with
    | (result, some exc) => ({ entry with job := .apply result }, some (.raised exc))
    | (result, none) =>
        let process := handler.processByPid result.workerPid
        match result.handleTimeout false with
        | (result, some exc) => ({ entry with job := .apply result }, some (.raised exc))
        | (result, none) =>
            let entry := { entry with job := .apply result }
            (process.elim entry (handler.trywaitkill entry), none)

/-- The body of the loop over the cache. -/
def check (handler : TimeoutHandler) (number : Nat) (entry : TimedJob α) :
    TimedJob α × Option TimeoutCrash :=
  match entry.job with
  | .imap _ | .imapUnordered _ =>
      -- `job._time_accepted`, which the iterators do not have
      (entry, some (.raised .attributeError))
  | .map result =>
      -- `_soft_timeout` and `_timeout` are `None`
      match timesTimedOut result.timeAccepted handler.tHard with
      | some exc => (entry, some (.raised exc))
      | none =>
          if entry.dirty then (entry, none)
          else (entry, (timesTimedOut result.timeAccepted handler.tSoft).map .raised)
  | .apply result =>
      if timedOut result.timeAccepted (result.timeout.or handler.tHard)
          (handler.clock number .hard) then
        handler.onHardTimeout entry result
      else if !entry.dirty && timedOut result.timeAccepted
          (result.softTimeout.or handler.tSoft) (handler.clock number .soft) then
        match handler.onSoftTimeout entry result with
        | (entry, some crash) => (entry, some crash)
        | (entry, none) => ({ entry with dirty := true }, none)
      else (entry, none)

def checkCached (handler : TimeoutHandler) (number : Nat) (entry : TimedJob α) :
    TimedJob α × Option TimeoutCrash :=
  if entry.job.cached then handler.check number entry else (entry, none)

/-- One pass of `handle_timeouts`. -/
def handleTimeouts (handler : TimeoutHandler) (jobs : List (TimedJob α)) :
    List (TimedJob α) × Option TimeoutCrash :=
  visit handler.checkCached 0 (jobs.map TimedJob.start)

/-- The limit of the job that applies has passed since its acknowledgement. -/
def Due (handler : TimeoutHandler) (number : Nat) (job : Job α) (limit : TimeLimit) : Prop :=
  ∃ result accepted timeout, job = .apply result ∧ result.timeAccepted = some accepted ∧
    (match limit with
      | .soft => result.softTimeout.or handler.tSoft
      | .hard => result.timeout.or handler.tHard) = some timeout ∧
    accepted + timeout ≤ handler.clock number limit

/-- What the pass does to a job is due: the result it gives it, the signals it
sends to its worker, the mark it sets and the callbacks it calls. -/
structure Timely (handler : TimeoutHandler) (number : Nat) (before after : TimedJob α) : Prop where
  resolved : after.job.ready ≠ before.job.ready → handler.Due number before.job .hard
  killed : ∀ pid signal, (pid, signal) ∈ after.signals → signal ≠ .softTimeout →
    handler.Due number before.job .hard
  interrupted : ∀ pid, (pid, .softTimeout) ∈ after.signals → handler.Due number before.job .soft
  marked : after.dirty = true → before.dirty = false → handler.Due number before.job .soft
  touched : after.job ≠ before.job →
    handler.Due number before.job .hard ∨ handler.Due number before.job .soft

structure Punctual (handler : TimeoutHandler) (jobs : List (TimedJob α)) : Prop where
  returned : (handler.handleTimeouts jobs).2 = none
  timely : ∀ number before after, jobs[number]? = some before →
    (handler.handleTimeouts jobs).1[number]? = some after → handler.Timely number before after

/-- What a pass needs in order not to raise anything on account of a job. -/
def Harmless (handler : TimeoutHandler) (number : Nat) (entry : TimedJob α) : Prop :=
  match entry.job with
  | .imap _ | .imapUnordered _ => False
  | .map result =>
      result.timeAccepted = [] ∨ truthy handler.tHard = false ∧
        (entry.dirty = true ∨ truthy handler.tSoft = false)
  | .apply result =>
      if timedOut result.timeAccepted (result.timeout.or handler.tHard)
          (handler.clock number .hard) then
        result.ready = true ∨
          result.errorCallback ≠ some .propagates ∧ result.timeoutCallback ≠ some .propagates
      else
        timedOut result.timeAccepted (result.softTimeout.or handler.tSoft)
            (handler.clock number .soft) = true → entry.dirty = false →
          ∀ pid, handler.processByPid result.workerPid = some pid →
            result.timeoutCallback ≠ some .propagates ∧ handler.kill pid ≠ .refused

theorem timedOut_eq_true {start timeout : Option Nat} {now : Nat}
    (passed : timedOut start timeout now = true) :
    ∃ accepted limit, start = some accepted ∧ timeout = some limit ∧ accepted + limit ≤ now := by
  unfold timedOut at passed
  split at passed
  · rename_i accepted limit
    simp only [Bool.and_eq_true, decide_eq_true_eq] at passed
    exact ⟨accepted, limit, rfl, rfl, passed.2⟩
  · cases passed

theorem timesTimedOut_eq_none {start : List (Option Nat)} {timeout : Option Nat} :
    timesTimedOut start timeout = none ↔ start = [] ∨ truthy timeout = false := by
  unfold timesTimedOut
  split
  · rename_i passes
    simpa using passes
  · rename_i fails
    simpa using fails

variable {handler : TimeoutHandler} {number : Nat}

theorem onSoftTimeout_returned_iff {entry : TimedJob α} {result : ApplyResult α} :
    (handler.onSoftTimeout entry result).2 = none ↔
      ∀ pid, handler.processByPid result.workerPid = some pid →
        result.timeoutCallback ≠ some .propagates ∧ handler.kill pid ≠ .refused := by
  unfold onSoftTimeout
  cases handler.processByPid result.workerPid with
  | none => simp
  | some pid =>
      have called : (result.handleTimeout true).2 = none ↔ _ :=
        ApplyResult.handleTimeout_returned_iff
      cases handled : result.handleTimeout true with
      | mk after raised =>
          rw [handled] at called
          cases raised with
          | some exc => simp_all
          | none => cases killed : handler.kill pid <;> simp_all

theorem onHardTimeout_returned_iff {entry : TimedJob α} {result : ApplyResult α} :
    (handler.onHardTimeout entry result).2 = none ↔
      result.ready = true ∨
        result.errorCallback ≠ some .propagates ∧ result.timeoutCallback ≠ some .propagates := by
  unfold onHardTimeout
  cases ready : result.ready with
  | true => simp
  | false =>
      have refused : (result.set (.failure (.timeLimitExceeded result.timeout))).2 = none ↔ _ :=
        ApplyResult.setFailure_returned_iff
      obtain ⟨calls, stored, _⟩ := result.set_spec (.failure (.timeLimitExceeded result.timeout))
      cases resolved : result.set (.failure (.timeLimitExceeded result.timeout)) with
      | mk after raised =>
          rw [resolved] at refused stored
          cases raised with
          | some exc => simp_all
          | none =>
              have same : after.timeoutCallback = result.timeoutCallback := by
                simp only at stored
                rw [stored]
              have called : (after.handleTimeout false).2 = none ↔ _ :=
                ApplyResult.handleTimeout_returned_iff
              rw [same] at called
              cases handled : after.handleTimeout false with
              | mk last raised =>
                  rw [handled] at called
                  cases raised with
                  | some exc => simpa [handled] using fun _ => called
                  | none => simpa [handled] using ⟨refused.mp rfl, called.mp rfl⟩

theorem check_returned_iff {entry : TimedJob α} :
    (handler.check number entry).2 = none ↔ handler.Harmless number entry := by
  unfold check Harmless
  split
  · simp
  · simp
  · rename_i result _
    cases hard : timesTimedOut result.timeAccepted handler.tHard with
    | some exc =>
        have ne := mt timesTimedOut_eq_none.mpr (by rw [hard]; exact Option.some_ne_none exc)
        rw [not_or] at ne
        simp [ne]
    | none =>
        have passes := timesTimedOut_eq_none.mp hard
        cases dirty : entry.dirty with
        | true => simpa [dirty] using passes
        | false =>
            simp only [Bool.false_eq_true, if_false, Option.map_eq_none_iff, false_or,
              timesTimedOut_eq_none, or_and_left]
            exact (and_iff_right passes).symm
  · rename_i result _
    split
    · exact onHardTimeout_returned_iff
    · rename_i early
      cases dirty : entry.dirty with
      | true => simp
      | false =>
          cases soft : timedOut result.timeAccepted (result.softTimeout.or handler.tSoft)
              (handler.clock number .soft) with
          | false => simp
          | true =>
              have called : (handler.onSoftTimeout entry result).2 = none ↔ _ :=
                onSoftTimeout_returned_iff
              cases ended : handler.onSoftTimeout entry result with
              | mk after crash => cases crash <;> simp_all

theorem onSoftTimeout_spec (handler : TimeoutHandler) {entry : TimedJob α} {result : ApplyResult α}
    (timed : entry.job = .apply result) (unsent : entry.signals = []) :
    (∃ calls, (handler.onSoftTimeout entry result).1.job = .apply { result with calls }) ∧
      (handler.onSoftTimeout entry result).1.dirty = entry.dirty ∧
      ∀ pid signal, (pid, signal) ∈ (handler.onSoftTimeout entry result).1.signals →
        signal = .softTimeout := by
  have unsignalled : ∀ pid signal, (pid, signal) ∈ entry.signals → signal = .softTimeout := by
    simp [unsent]
  have noted : ∀ {after raised}, result.handleTimeout true = (after, raised) →
      ∃ calls, Job.apply after = .apply { result with calls } := by
    intro after raised handled
    obtain ⟨calls, noted, _⟩ := ApplyResult.noted_handleTimeout result true
    rw [handled] at noted
    exact ⟨calls, congrArg Job.apply noted⟩
  unfold onSoftTimeout
  split
  · exact ⟨⟨result.calls, timed⟩, rfl, unsignalled⟩
  · split
    · rename_i handled
      exact ⟨noted handled, rfl, unsignalled⟩
    · rename_i handled
      split
      · refine ⟨noted handled, rfl, ?_⟩
        simp [TimedJob.signal, unsent]
      · exact ⟨noted handled, rfl, unsignalled⟩
      · exact ⟨noted handled, rfl, unsignalled⟩

theorem trywaitkill_spec (handler : TimeoutHandler) (entry : TimedJob α) (pid : Nat)
    (unsent : entry.signals = []) :
    (handler.trywaitkill entry pid).dirty = entry.dirty ∧
      ∀ other signal, (other, signal) ∈ (handler.trywaitkill entry pid).signals →
        signal ≠ .softTimeout := by
  unfold trywaitkill
  split
  · simp [TimedJob.signal, unsent]
  · refine ⟨rfl, fun other signal sent => ?_⟩
    simp only [TimedJob.signal, unsent, List.nil_append, List.mem_append, List.mem_singleton,
      Prod.mk.injEq] at sent
    cases sent with
    | inl term => simp [term.2]
    | inr kill => simp [kill.2]

theorem onHardTimeout_spec (handler : TimeoutHandler) {entry : TimedJob α}
    (result : ApplyResult α) (unsent : entry.signals = []) :
    (handler.onHardTimeout entry result).1.dirty = entry.dirty ∧
      ∀ pid signal, (pid, signal) ∈ (handler.onHardTimeout entry result).1.signals →
        signal ≠ .softTimeout := by
  have unsignalled : ∀ pid signal, (pid, signal) ∈ entry.signals → signal ≠ .softTimeout := by
    simp [unsent]
  unfold onHardTimeout
  split
  · exact ⟨rfl, unsignalled⟩
  · split
    · exact ⟨rfl, unsignalled⟩
    · rename_i after resolved
      simp only
      split
      · exact ⟨rfl, unsignalled⟩
      · rename_i last handled
        cases handler.processByPid after.workerPid with
        | none => exact ⟨rfl, unsignalled⟩
        | some pid =>
            exact trywaitkill_spec handler { entry with job := .apply last } pid unsent

theorem timely_untouched {entry : TimedJob α} (unsent : entry.signals = []) :
    handler.Timely number entry entry where
  resolved changed := absurd rfl changed
  killed pid signal sent := by simp [unsent] at sent
  interrupted pid sent := by simp [unsent] at sent
  marked now before := by simp [now] at before
  touched changed := absurd rfl changed

theorem timely_check {entry : TimedJob α} (unsent : entry.signals = []) :
    handler.Timely number entry (handler.check number entry).1 := by
  unfold check
  split
  · exact timely_untouched unsent
  · exact timely_untouched unsent
  · split
    · exact timely_untouched unsent
    · split
      · exact timely_untouched unsent
      · exact timely_untouched unsent
  · rename_i result timed
    split
    · rename_i passed
      obtain ⟨accepted, limit, started, limited, late⟩ := timedOut_eq_true passed
      have due : handler.Due number entry.job .hard :=
        ⟨result, accepted, limit, timed, started, limited, late⟩
      obtain ⟨kept, hard⟩ := onHardTimeout_spec handler result unsent
      exact {
        resolved := fun _ => due
        killed := fun _ _ _ _ => due
        interrupted := fun pid sent => absurd rfl (hard pid _ sent)
        marked := fun now before => by simp [kept, before] at now
        touched := fun _ => .inl due }
    · split
      · rename_i passed
        rw [Bool.and_eq_true] at passed
        obtain ⟨accepted, limit, started, limited, late⟩ := timedOut_eq_true passed.2
        have due : handler.Due number entry.job .soft :=
          ⟨result, accepted, limit, timed, started, limited, late⟩
        obtain ⟨⟨calls, noted⟩, kept, soft⟩ := onSoftTimeout_spec handler timed unsent
        have open_ : (handler.onSoftTimeout entry result).1.job.ready = entry.job.ready := by
          rw [noted, timed]
          rfl
        cases ended : handler.onSoftTimeout entry result with
        | mk after crash =>
            rw [ended] at open_ soft
            cases crash <;> exact {
              resolved := fun changed => absurd open_ changed
              killed := fun pid signal sent hard => absurd (soft pid signal sent) hard
              interrupted := fun _ _ => due
              marked := fun _ _ => due
              touched := fun _ => .inr due }
      · exact timely_untouched unsent

theorem timely_checkCached {entry : TimedJob α} (unsent : entry.signals = []) :
    handler.Timely number entry (handler.checkCached number entry).1 := by
  unfold checkCached
  split
  · exact timely_check unsent
  · exact timely_untouched unsent

/-- What a pass finds to be dirty was dirty before it. -/
theorem Timely.of_start {before after : TimedJob α}
    (timely : handler.Timely number before.start after) : handler.Timely number before after where
  resolved := timely.resolved
  killed := timely.killed
  interrupted := timely.interrupted
  marked now clean := timely.marked now (by simp [TimedJob.start, clean])
  touched := timely.touched

theorem harmless_start {entry : TimedJob α} (cached : entry.job.cached = true) :
    handler.Harmless number entry.start ↔ handler.Harmless number entry := by
  simp only [Harmless, TimedJob.start, cached, Bool.and_true]

/-- A pass is punctual exactly when no cached job makes it raise an exception. -/
theorem punctual_iff {jobs : List (TimedJob α)} :
    handler.Punctual jobs ↔
      ∀ number entry, jobs[number]? = some entry → entry.job.cached = true →
        handler.Harmless number entry := by
  constructor
  · intro punctual number entry found cached
    have ended := Visit.returned_iff.mp punctual.returned number entry.start (by simp [found])
    rw [Nat.zero_add, checkCached, if_pos (show entry.start.job.cached = true from cached),
      check_returned_iff] at ended
    exact (harmless_start cached).mp ended
  · intro harmless
    refine ⟨Visit.returned_iff.mpr ?_, ?_⟩
    · intro number entry found
      rw [List.getElem?_map, Option.map_eq_some_iff] at found
      obtain ⟨prior, listed, rfl⟩ := found
      rw [Nat.zero_add, checkCached]
      split
      · rename_i cached
        have listening : prior.job.cached = true := cached
        exact check_returned_iff.mpr ((harmless_start listening).mpr
          (harmless number prior listed listening))
      · rfl
    · intro number before after found visited
      obtain ⟨entry, listed, turned⟩ := Visit.getElem?_visit visited
      rw [List.getElem?_map, found] at listed
      cases listed
      rw [Nat.zero_add] at turned
      apply Timely.of_start
      cases turned with
      | inl same =>
          rw [same]
          exact timely_untouched rfl
      | inr same =>
          rw [same]
          exact timely_checkCached rfl

/-- In a pool with a hard limit, a map of which a chunk was acknowledged at 5. -/
theorem not_punctual :
    ¬Punctual (α := Nat) ⟨[7], none, some 10, fun _ _ => 6, fun _ => .delivered, fun _ => true⟩
      [⟨.map ((MapResult.init 0 1 2 none none).ack 0 5 7), false, []⟩] := by
  intro punctual
  cases punctual.returned

end TimeoutHandler

end Billiard
