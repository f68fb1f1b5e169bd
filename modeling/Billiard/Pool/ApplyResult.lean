/-! The class `ApplyResult` of `pool.py`, and what the results of all kinds of
job have in common. -/

namespace Billiard

def lostWorkerTimeoutDefault : Nat := 10

inductive ExceptionInfo where
  | raised (exc : String)
  | timeLimitExceeded (timeout : Option Nat)
  | workerLost (exitcode : Int) (job : Nat)
  | terminated (signum : Int)
deriving DecidableEq, Repr

/-- The pair `(success, value)` that `_set` receives. -/
inductive Outcome (α : Type u) where
  | success (value : α)
  | failure (info : ExceptionInfo)
deriving DecidableEq, Repr

def Outcome.map (f : α → β) : Outcome α → Outcome β
  | .success value => .success (f value)
  | .failure info => .failure info

inductive Message (α : Type u) where
  | ack (timeAccepted pid : Nat) (synqWFd : Option Nat)
  | ready (outcome : Outcome α)
deriving DecidableEq, Repr

/-- The index that comes with a result: that of the task, `None`, or the body
of a whole task message (a tuple that no dictionary accepts as a key). -/
inductive Index where
  | none
  | position (i : Nat)
  | body
deriving DecidableEq, Repr

/-- What a user's function does when it is called; `propagates` raises an
exception that `safe_apply_callback` lets through. -/
inductive Callback where
  | returns
  | raises
  | propagates
deriving DecidableEq, Repr

inductive Raised where
  | keyError
  | typeError
  | attributeError
  | callbackError
deriving DecidableEq, Repr

inductive Response where
  | ack
  | nack
deriving DecidableEq, Repr

inductive Call (α : Type u) where
  | callback (value : α)
  | errorCallback (info : ExceptionInfo)
  | acceptCallback (pid timeAccepted : Nat)
  | timeoutCallback (soft : Bool) (timeout : Option Nat)
  | onTimeoutSet (softTimeout timeout : Option Nat)
  | onTimeoutCancel
  | sendAck (response : Response) (pid job fd : Nat)
deriving DecidableEq, Repr

structure ApplyOptions where
  callback : Option Callback := none
  acceptCallback : Option Callback := none
  timeoutCallback : Option Callback := none
  errorCallback : Option Callback := none
  softTimeout : Option Nat := none
  timeout : Option Nat := none
  lostWorkerTimeout : Nat := lostWorkerTimeoutDefault
  onTimeoutSet : Bool := false
  onTimeoutCancel : Bool := false
  sendAck : Bool := false
deriving DecidableEq, Repr

/-- `cached` tells that `cache[self._job]` is this job; `outcome` is the pair
`(_success, _value)`, present once `_event` is set. -/
structure ApplyResult (α : Type u) extends ApplyOptions where
  job : Nat
  cached : Bool
  outcome : Option (Outcome α)
  accepted : Bool
  cancelled : Bool
  workerPid : Option Nat
  timeAccepted : Option Nat
  workerLost : Option (Nat × Int)
  calls : List (Call α)
deriving DecidableEq, Repr

namespace ApplyResult

def init (job : Nat) (options : ApplyOptions) : ApplyResult α where
  toApplyOptions := options
  job
  cached := true
  outcome := none
  accepted := false
  cancelled := false
  workerPid := none
  timeAccepted := none
  workerLost := none
  calls := []

def ready (result : ApplyResult α) : Bool := result.outcome.isSome

def log (result : ApplyResult α) (call : Call α) : ApplyResult α :=
  { result with calls := result.calls ++ [call] }

def safeApplyCallback (result : ApplyResult α) (callback : Option Callback) (call : Call α) :
    ApplyResult α × Option Raised :=
  match callback with
  | none => (result, none)
  | some .propagates => (result.log call, some .callbackError)
  | some _ => (result.log call, none)

/-- `_set`; the index is not used. -/
def set (result : ApplyResult α) (outcome : Outcome α) : ApplyResult α × Option Raised :=
  let result := if result.onTimeoutCancel then result.log .onTimeoutCancel else result
  let result := { result with
    outcome := some outcome
    cached := result.cached && !result.accepted }
  match outcome with
  | .success value => result.safeApplyCallback result.callback (.callback value)
  | .failure info => result.safeApplyCallback result.errorCallback (.errorCallback info)

/-- The end of `_ack`: the answer to a worker that waits for one. -/
def confirm (result : ApplyResult α) (response : Response) (pid : Nat) (synqWFd : Option Nat) :
    ApplyResult α :=
  match synqWFd with
  | some fd =>
      if result.sendAck && fd != 0 then result.log (.sendAck response pid result.job fd)
      else result
  | none => result

/-- `_ack`; an accept callback that raises makes Python look up
`self._propagate_errors`, an attribute that no job has. -/
def ack (result : ApplyResult α) (timeAccepted pid : Nat) (synqWFd : Option Nat) :
    ApplyResult α × Option Raised :=
  if result.cancelled && result.sendAck then
    ({ result with accepted := true }.confirm .nack pid synqWFd, none)
  else
    let result := { result with
      accepted := true
      timeAccepted := some timeAccepted
      workerPid := some pid
      cached := result.cached && !result.ready }
    let result :=
      if result.onTimeoutSet then result.log (.onTimeoutSet result.softTimeout result.timeout)
      else result
    match result.acceptCallback with
    | none => (result.confirm .ack pid synqWFd, none)
    | some .returns =>
        ((result.log (.acceptCallback pid timeAccepted)).confirm .ack pid synqWFd, none)
    | some _ => (result.log (.acceptCallback pid timeAccepted), some .attributeError)

def handleTimeout (result : ApplyResult α) (soft : Bool) : ApplyResult α × Option Raised :=
  result.safeApplyCallback result.timeoutCallback
    (.timeoutCallback soft (if soft then result.softTimeout else result.timeout))

def workerPids (result : ApplyResult α) : List Nat :=
  match result.workerPid with
  | some pid => if pid = 0 then [] else [pid]
  | none => []

theorem ne_zero_of_mem_workerPids {result : ApplyResult α} {pid : Nat}
    (recorded : pid ∈ result.workerPids) : pid ≠ 0 := by
  unfold workerPids at recorded
  split at recorded
  · split at recorded
    · cases recorded
    · rename_i positive
      exact List.mem_singleton.mp recorded ▸ positive
  · cases recorded

/-- The calls that tell the user how the job ended. -/
def resolutions (result : ApplyResult α) : Nat := result.calls.countP fun
  | .callback _ | .errorCallback _ => true
  | _ => false

/-- `after` is `before` with calls that do not tell how the job ended. -/
def Noted (before after : ApplyResult α) : Prop :=
  ∃ calls, after = { before with calls } ∧ after.resolutions = before.resolutions

theorem Noted.refl (result : ApplyResult α) : Noted result result := ⟨result.calls, rfl, rfl⟩

theorem Noted.trans {first middle last : ApplyResult α} (front : Noted first middle)
    (back : Noted middle last) : Noted first last := by
  obtain ⟨_, rfl, frontCount⟩ := front
  obtain ⟨calls, rfl, backCount⟩ := back
  exact ⟨calls, rfl, backCount.trans frontCount⟩

theorem noted_confirm (result : ApplyResult α) (response : Response) (pid : Nat)
    (synqWFd : Option Nat) : Noted result (result.confirm response pid synqWFd) := by
  unfold confirm
  split
  · split
    · exact ⟨_, rfl, by simp [resolutions, log]⟩
    · exact Noted.refl result
  · exact Noted.refl result

theorem safeApplyCallback_spec (result : ApplyResult α) (callback : Option Callback)
    (call : Call α) :
    ∃ calls, (result.safeApplyCallback callback call).1 = { result with calls } ∧
      (result.safeApplyCallback callback call).1.resolutions ≤ result.resolutions + 1 := by
  have logged : (result.log call).resolutions ≤ result.resolutions + 1 := by
    cases call <;> simp [resolutions, log]
  unfold safeApplyCallback
  split
  · exact ⟨result.calls, rfl, Nat.le_succ _⟩
  · exact ⟨result.calls ++ [call], rfl, logged⟩
  · exact ⟨result.calls ++ [call], rfl, logged⟩

theorem noted_handleTimeout (result : ApplyResult α) (soft : Bool) :
    Noted result (result.handleTimeout soft).1 := by
  unfold handleTimeout safeApplyCallback
  split
  · exact Noted.refl result
  · exact ⟨_, rfl, by simp [resolutions, log]⟩
  · exact ⟨_, rfl, by simp [resolutions, log]⟩

/-- `_set` stores the outcome, drops an accepted job from the cache and makes at
most one of the calls that tell the user. -/
theorem set_spec (result : ApplyResult α) (outcome : Outcome α) :
    ∃ calls, (result.set outcome).1 = { result with
        outcome := some outcome
        cached := result.cached && !result.accepted
        calls } ∧
      (result.set outcome).1.resolutions ≤ result.resolutions + 1 := by
  have noted : Noted result
      (if result.onTimeoutCancel then result.log .onTimeoutCancel else result) := by
    split
    · exact ⟨_, rfl, by simp [resolutions, log]⟩
    · exact Noted.refl result
  obtain ⟨calls, noted, same⟩ := noted
  unfold set
  rw [noted] at same ⊢
  cases outcome with
  | success value =>
      obtain ⟨after, called, bound⟩ := safeApplyCallback_spec
        { result with
          outcome := some (.success value)
          cached := result.cached && !result.accepted
          calls } result.callback (.callback value)
      exact ⟨after, called, same ▸ bound⟩
  | failure info =>
      obtain ⟨after, called, bound⟩ := safeApplyCallback_spec
        { result with
          outcome := some (.failure info)
          cached := result.cached && !result.accepted
          calls } result.errorCallback (.errorCallback info)
      exact ⟨after, called, same ▸ bound⟩

theorem set_returns (result : ApplyResult α) (callback : result.callback = some .returns)
    (errorCallback : result.errorCallback = some .returns) (outcome : Outcome α) :
    (result.set outcome).2 = none ∧
      (result.set outcome).1.resolutions = result.resolutions + 1 := by
  unfold set
  cases outcome <;> cases cancels : result.onTimeoutCancel <;>
    simp [callback, errorCallback, safeApplyCallback, resolutions, log]

theorem safeApplyCallback_returned_iff {result : ApplyResult α} {callback : Option Callback}
    {call : Call α} :
    (result.safeApplyCallback callback call).2 = none ↔ callback ≠ some .propagates := by
  unfold safeApplyCallback
  split <;> simp_all

theorem setFailure_returned_iff {result : ApplyResult α} {info : ExceptionInfo} :
    (result.set (.failure info)).2 = none ↔ result.errorCallback ≠ some .propagates := by
  unfold set
  rw [safeApplyCallback_returned_iff]
  split <;> rfl

theorem handleTimeout_returned_iff {result : ApplyResult α} {soft : Bool} :
    (result.handleTimeout soft).2 = none ↔ result.timeoutCallback ≠ some .propagates :=
  safeApplyCallback_returned_iff

theorem ack_spec (result : ApplyResult α) (timeAccepted pid : Nat) (synqWFd : Option Nat) :
    ∃ workerPid time cached,
      Noted { result with accepted := true, timeAccepted := time, workerPid, cached }
        (result.ack timeAccepted pid synqWFd).1 ∧
      (workerPid = result.workerPid ∨ workerPid = some pid) ∧
      (cached = true → result.cached = true) ∧
      (result.cached = true → result.ready = false → cached = true) := by
  unfold ack
  split
  · exact ⟨result.workerPid, result.timeAccepted, result.cached, noted_confirm _ _ _ _,
      .inl rfl, id, fun kept _ => kept⟩
  · refine ⟨some pid, some timeAccepted, result.cached && !result.ready, ?_, .inr rfl,
      fun both => (Bool.and_eq_true _ _ ▸ both).1,
      fun kept unresolved => by simp [kept, unresolved]⟩
    have noted : ∀ prior : ApplyResult α, Noted prior
        (if prior.onTimeoutSet then prior.log (.onTimeoutSet prior.softTimeout prior.timeout)
        else prior) := by
      intro prior
      split
      · exact ⟨_, rfl, by simp [resolutions, log]⟩
      · exact Noted.refl prior
    have accepted : ∀ prior : ApplyResult α,
        Noted prior (prior.log (.acceptCallback pid timeAccepted)) := fun prior =>
      ⟨_, rfl, by simp [resolutions, log]⟩
    simp only
    split
    · exact (noted _).trans (noted_confirm _ _ _ _)
    · exact (noted _).trans ((accepted _).trans (noted_confirm _ _ _ _))
    · exact (noted _).trans (accepted _)

end ApplyResult

end Billiard
