import Billiard.Data.Transition
import Billiard.Pool.Acknowledge
import Billiard.Pool.Mapping

/-! What a callback that raises does to the job of a call or of a map. -/

namespace Billiard

open Chunk Transition

variable {α : Type u}

def Harmless (callback : Option Callback) : Prop :=
  callback = none ∨ callback = some .returns

instance : DecidablePred Harmless := fun callback =>
  inferInstanceAs (Decidable (callback = none ∨ callback = some .returns))

namespace MapResult

/-- The job is done when this result is handled: it is the last one or a failure. -/
def Completes (result : MapResult α) : Outcome β → Prop
  | .success _ => result.numberLeft = 1
  | .failure _ => True

instance (result : MapResult α) : (outcome : Outcome β) → Decidable (result.Completes outcome)
  | .success _ => inferInstanceAs (Decidable (result.numberLeft = 1))
  | .failure _ => inferInstanceAs (Decidable True)

def callbackFor (result : MapResult α) : Outcome β → Option Callback
  | .success _ => result.callback
  | .failure _ => result.errorCallback

def valueAfter (result : MapResult α) (i : Nat) :
    Outcome (List α) → Except ExceptionInfo (List (Option α))
  | .success items => result.value.map fun values =>
      sliceAssign values (i * result.chunksize) ((i + 1) * result.chunksize) (items.map some)
  | .failure info => .error info

/-- `_set` does not raise, and when the job is done it has its value and has left the cache. -/
structure Takes (result : MapResult α) (i : Nat) (outcome : Outcome (List α)) : Prop where
  returns : (result.set i outcome).2 = none
  resolves : result.Completes outcome →
    (result.set i outcome).1.event = true ∧
    (result.set i outcome).1.value = result.valueAfter i outcome ∧
    (result.set i outcome).1.cached = false

/-- A map that is not done has only seen successes. -/
structure Open (result : MapResult α) : Prop where
  event : result.event = false
  accepted : result.accepted ≠ []
  value : ∃ values, result.value = .ok values

variable {result : MapResult α} {i : Nat}

theorem applyCallback_returned_iff {callback : Option Callback}
    {call : Call (List (Option α))} :
    (result.applyCallback callback call).2 = none ↔ Harmless callback := by
  unfold applyCallback Harmless
  cases callback with
  | none => simp
  | some callback => cases callback <;> simp

/-- Both outcomes call back before they take the job out of the cache. -/
theorem set_of_completes {outcome : Outcome (List α)} (held : result.Open)
    (completes : result.Completes outcome) :
    ((result.set i outcome).2 = none → Harmless (result.callbackFor outcome)) ∧
    (Harmless (result.callbackFor outcome) →
      (result.set i outcome).2 = none ∧ (result.set i outcome).1.event = true ∧
      (result.set i outcome).1.value = result.valueAfter i outcome ∧
      (result.set i outcome).1.cached = false) := by
  obtain ⟨_, nonempty, values, ok⟩ := held
  have taken : result.accepted.isEmpty = false := by
    simpa using nonempty
  cases outcome with
  | success items =>
      have last : result.numberLeft = 1 := completes
      constructor
      · intro returned
        simp only [set, ok, last, Int.sub_self, if_true] at returned
        split at returned
        · cases returned
        · rename_i applied
          exact applyCallback_returned_iff.mp (congrArg Prod.snd applied)
      · intro harmless
        have harmless : Harmless result.callback := harmless
        rcases harmless with none | returns
        · simp [set, ok, last, applyCallback, none, finish, taken, valueAfter, Except.map]
        · simp [set, ok, last, applyCallback, returns, finish, taken, valueAfter, Except.map]
  | failure info =>
      constructor
      · intro returned
        simp only [set] at returned
        split at returned
        · cases returned
        · rename_i applied
          exact applyCallback_returned_iff.mp (congrArg Prod.snd applied)
      · intro harmless
        have harmless : Harmless result.errorCallback := harmless
        rcases harmless with none | returns
        · simp [set, applyCallback, none, finish, taken, valueAfter]
        · simp [set, applyCallback, returns, finish, taken, valueAfter]

theorem set_of_not_completes {outcome : Outcome (List α)} (held : result.Open)
    (more : ¬result.Completes outcome) :
    (result.set i outcome).2 = none ∧ (result.set i outcome).1.Open := by
  obtain ⟨unready, nonempty, values, ok⟩ := held
  cases outcome with
  | success items =>
      have left : result.numberLeft - 1 ≠ 0 := by
        intro last
        exact more (by unfold Completes; omega)
      simp only [set, ok, left, if_false]
      exact ⟨trivial, unready, nonempty, _, rfl⟩
  | failure info => exact absurd trivial more

theorem takes_iff {outcome : Outcome (List α)} (held : result.Open) :
    result.Takes i outcome ↔
      (result.Completes outcome → Harmless (result.callbackFor outcome)) := by
  constructor
  · intro takes completes
    exact (set_of_completes held completes).1 takes.returns
  · intro harmless
    by_cases completes : result.Completes outcome
    · obtain ⟨returned, resolved⟩ := (set_of_completes held completes).2 (harmless completes)
      exact ⟨returned, fun _ => resolved⟩
    · exact ⟨(set_of_not_completes held completes).1, fun done => absurd done completes⟩

theorem Open.ack (held : result.Open) (timeAccepted pid : Nat) :
    (result.ack i timeAccepted pid).Open := by
  obtain ⟨unready, nonempty, values, ok⟩ := held
  refine ⟨unready, ?_, values, ok⟩
  simpa [MapResult.ack, fillChunk] using nonempty

end MapResult

namespace Job

/-- A message of a worker, with the number of the task: the result handler looks for the job in
the cache. -/
def handle (iter : α → List α) (job : Job α) (message : Nat × Message α) : Job α :=
  if job.cached then
    match message with
    | (i, .ready outcome) => (job.set iter (.position i) outcome).1
    | (i, .ack timeAccepted pid synqWFd) =>
        (job.ack (.position i) timeAccepted pid synqWFd).1
  else job

/-- `_set` does not raise, and the job gets the value that it is to have. -/
def Takes (iter : α → List α) (job : Job α) (i : Nat) (outcome : Outcome α) : Prop :=
  match job with
  | .apply result =>
      (result.set outcome).2 = none ∧ (result.set outcome).1.outcome = some outcome
  | .map result => result.Takes i (outcome.map iter)
  | .imap _ | .imapUnordered _ => True

/-- A job that is done has left the cache; that of a call waits there for its `ACK`. -/
def Departs : Job α → Prop
  | .apply result => result.ready = true → result.accepted = true → result.cached = false
  | .map result => result.ready = true → result.cached = false
  | .imap _ | .imapUnordered _ => True

/-- A map does not call back, or the callback does not raise. -/
def Quiet (job : Job α) (message : Nat × Message α) : Prop :=
  match job, message.2 with
  | .map result, .ready outcome =>
      result.cached = true → result.Completes outcome → Harmless (result.callbackFor outcome)
  | _, _ => True

/-- A job as `apply_async` and `map_async` make it, with callbacks that `safe_apply_callback` does
not let through. -/
def Fresh : Job α → Prop
  | .apply result => ∃ job options, result = .init job options ∧
      options.callback ≠ some .propagates ∧ options.errorCallback ≠ some .propagates
  | .map result => ∃ job chunksize length callback errorCallback,
      result = .init job chunksize length callback errorCallback ∧ (length = 0 → chunksize = 0)
  | .imap _ | .imapUnordered _ => False

def Settling : Job α → Prop
  | .apply result => result.cancelled = false ∧ result.callback ≠ some .propagates ∧
      result.errorCallback ≠ some .propagates ∧ (Job.apply result).Departs
  | .map result => result.cached = true → result.Open
  | .imap _ | .imapUnordered _ => False

variable {job : Job α}

theorem Fresh.settling (fresh : job.Fresh) : job.Settling := by
  cases job with
  | apply result =>
      obtain ⟨job, options, rfl, callback, errorCallback⟩ := fresh
      refine ⟨rfl, callback, errorCallback, ?_⟩
      intro ready
      cases ready
  | map result =>
      obtain ⟨job, chunksize, length, callback, errorCallback, rfl, sized⟩ := fresh
      intro cached
      have positive : chunksize ≠ 0 := by
        simpa [MapResult.init, Job.cached] using cached
      have some : length ≠ 0 := fun none => positive (sized none)
      exact ⟨by simp [MapResult.init, positive], by simp [MapResult.init, some], _, rfl⟩
  | imap it => exact fresh.elim
  | imapUnordered it => exact fresh.elim

theorem Settling.takes_iff {iter : α → List α} (settling : job.Settling)
    (cached : job.cached = true) (i : Nat) (outcome : Outcome α) :
    job.Takes iter i outcome ↔ job.Quiet (i, .ready outcome) := by
  cases job with
  | apply result =>
      obtain ⟨_, callback, errorCallback, _⟩ := settling
      refine iff_of_true ⟨?_, ?_⟩ trivial
      · unfold ApplyResult.set
        cases outcome with
        | success value =>
            rw [ApplyResult.safeApplyCallback_returned_iff]
            split
            · exact callback
            · exact callback
        | failure info =>
            rw [ApplyResult.safeApplyCallback_returned_iff]
            split
            · exact errorCallback
            · exact errorCallback
      · rw [ApplyResult.set_eq]
  | map result =>
      have completes : result.Completes (outcome.map iter) ↔ result.Completes outcome := by
        cases outcome <;> rfl
      have same : result.callbackFor (outcome.map iter) = result.callbackFor outcome := by
        cases outcome <;> rfl
      refine (MapResult.takes_iff (settling cached)).trans ?_
      rw [completes, same]
      exact ⟨fun harmless _ => harmless, fun quiet => quiet cached⟩
  | imap it => exact settling.elim
  | imapUnordered it => exact settling.elim

theorem Settling.handle {iter : α → List α} (settling : job.Settling) {message : Nat × Message α}
    (quiet : job.Quiet message) : (job.handle iter message).Settling := by
  obtain ⟨i, message⟩ := message
  unfold Job.handle
  split
  · rename_i cached
    cases job with
    | apply result =>
        obtain ⟨uncancelled, callback, errorCallback, _⟩ := settling
        cases message with
        | ack timeAccepted pid synqWFd =>
            simp only [ack, Prod.map, Settling, Departs]
            rw [ApplyResult.ack_eq]
            simp only [ApplyResult.acked, uncancelled, Bool.false_and, Bool.false_eq_true, if_false]
            refine ⟨trivial, callback, errorCallback, ?_⟩
            intro ready _
            have ready : result.ready = true := ready
            simp [ready]
        | ready outcome =>
            simp only [set, Prod.map, Settling, Departs]
            rw [ApplyResult.set_eq]
            refine ⟨uncancelled, callback, errorCallback, ?_⟩
            intro _ accepted
            have accepted : result.accepted = true := accepted
            simp [accepted]
    | map result =>
        have held := settling cached
        cases message with
        | ack timeAccepted pid synqWFd => exact fun _ => held.ack timeAccepted pid
        | ready outcome =>
            have takes : (Job.map result).Takes iter i outcome :=
              (settling.takes_iff cached i outcome).mpr quiet
            intro stays
            by_cases completes : result.Completes (outcome.map iter)
            · have gone := (MapResult.Takes.resolves takes completes).2.2
              exact absurd (stays.symm.trans gone) (by simp)
            · exact (MapResult.set_of_not_completes held completes).2
    | imap it => exact settling.elim
    | imapUnordered it => exact settling.elim
  · exact settling

theorem fresh_mapAsync {processes job : Nat} {chunksize : Option Int} {iterable : List α}
    {callback errorCallback : Option Callback}
    {made : MapResult α × List (List α) × Option ExceptionInfo}
    (mapped : mapAsync processes chunksize iterable callback errorCallback job = .ok made) :
    (Job.map made.1).Fresh := by
  have sized : ∀ size : Int, iterable.length = 0 →
      (if iterable.length = 0 then (0 : Int) else size).toNat = 0 := by
    intro size none
    simp [none]
  unfold mapAsync at mapped
  split at mapped
  · cases mapped
  · cases chunksize with
    | some size =>
        cases mapped
        exact ⟨_, _, _, _, _, rfl, sized size⟩
    | none =>
        cases chosen : defaultChunksize processes iterable.length with
        | error info =>
            simp only [chosen] at mapped
            cases mapped
        | ok size =>
            simp only [chosen] at mapped
            cases mapped
            exact ⟨_, _, _, _, _, rfl, sized size⟩

end Job
end Billiard
