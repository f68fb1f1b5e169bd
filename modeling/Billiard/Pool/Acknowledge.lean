import Billiard.Pool.Failure
import Billiard.Pool.Workloop

/-! `_ack` of an `ApplyResult`: the answer that it sends to the worker, and what it shares with
`_set`. -/

namespace Billiard

variable {α : Type u}

namespace Call

def isAnswer : Call α → Bool
  | .sendAck .. => true
  | _ => false

def arms : Call α → Bool
  | .onTimeoutSet .. => true
  | _ => false

def disarms : Call α → Bool
  | .onTimeoutCancel => true
  | _ => false

/-- What a worker reads from the descriptor that is answered. -/
def responseTo (fd : Nat) : Call α → Option Response
  | .sendAck response _ _ synqWFd => if synqWFd = fd then some response else none
  | _ => none

def timed (call : Call α) : Bool := call.arms || call.disarms

end Call

/-- Every `on_timeout_set` is followed by an `on_timeout_cancel`. -/
def Disarmed : List (Call α) → Prop
  | [] => True
  | call :: calls => (call.arms = true → calls.any Call.disarms = true) ∧ Disarmed calls

theorem disarmed_filter (calls : List (Call α)) :
    Disarmed (calls.filter Call.timed) ↔ Disarmed calls := by
  have cancels : ∀ calls : List (Call α),
      (calls.filter Call.timed).any Call.disarms = calls.any Call.disarms := by
    intro calls
    rw [List.any_filter]
    congr 1
    funext call
    cases call <;> rfl
  induction calls with
  | nil => exact Iff.rfl
  | cons call calls ih =>
      cases timed : call.timed with
      | true =>
          rw [List.filter_cons_of_pos timed]
          exact and_congr (by rw [cancels]) ih
      | false =>
          have quiet : call.arms = false := by
            unfold Call.timed at timed
            exact (Bool.or_eq_false_iff.mp timed).1
          rw [List.filter_cons_of_neg (by simp [timed])]
          exact ih.trans (and_iff_right (by simp [quiet])).symm

namespace ApplyResult

/-- The callback raises, be it what is listed in `callbacks_propagate` or not. -/
def acceptRaises (result : ApplyResult α) : Bool :=
  match result.acceptCallback with
  | none | some .returns => false
  | some .raises | some .propagates => true

/-- The answer that is due to the worker. -/
def response (result : ApplyResult α) : Response :=
  if result.cancelled || result.acceptRaises then .nack else .ack

/-- What `_ack` leaves, apart from its calls. -/
def acked (result : ApplyResult α) (timeAccepted pid : Nat) : ApplyResult α :=
  if result.cancelled && result.sendAck then { result with accepted := true }
  else { result with
    accepted := true
    timeAccepted := some timeAccepted
    workerPid := some pid
    cached := result.cached && !result.ready }

def confirmCalls (result : ApplyResult α) (response : Response) (pid : Nat) :
    Option Nat → List (Call α)
  | some fd =>
      if result.sendAck && fd != 0 then [.sendAck response pid result.job fd] else []
  | none => []

def armCalls (result : ApplyResult α) : List (Call α) :=
  if result.cancelled && result.sendAck then []
  else if result.onTimeoutSet then [.onTimeoutSet result.softTimeout result.timeout] else []

/-- The calls of `_ack` after that of `on_timeout_set`. -/
def acceptCalls (result : ApplyResult α) (timeAccepted pid : Nat) (synqWFd : Option Nat) :
    List (Call α) :=
  if result.cancelled && result.sendAck then result.confirmCalls .nack pid synqWFd
  else match result.acceptCallback with
    | none => result.confirmCalls .ack pid synqWFd
    | some .returns => .acceptCallback pid timeAccepted :: result.confirmCalls .ack pid synqWFd
    | some _ => [.acceptCallback pid timeAccepted]

def cancelCalls (result : ApplyResult α) : List (Call α) :=
  if result.onTimeoutCancel then [.onTimeoutCancel] else []

/-- The calls of `_set` after that of `on_timeout_cancel`. -/
def resultCalls (result : ApplyResult α) : Outcome α → List (Call α)
  | .success value => if result.callback.isSome then [.callback value] else []
  | .failure info => if result.errorCallback.isSome then [.errorCallback info] else []

variable {result : ApplyResult α} {timeAccepted pid fd : Nat} {synqWFd : Option Nat}
  {outcome : Outcome α}

theorem confirm_eq (response : Response) :
    result.confirm response pid synqWFd =
      { result with calls := result.calls ++ result.confirmCalls response pid synqWFd } := by
  unfold confirm confirmCalls
  cases synqWFd with
  | none => simp
  | some fd =>
      simp only
      split
      · rfl
      · simp

theorem ack_eq :
    (result.ack timeAccepted pid synqWFd).1 = { result.acked timeAccepted pid with
      calls := result.calls ++ (result.armCalls ++
        result.acceptCalls timeAccepted pid synqWFd) } := by
  obtain ⟨⟨_, acceptCallback, _, _, _, _, _, onTimeoutSet, _, sendAck⟩, _, _, _, _, cancelled, _⟩ :=
    result
  unfold ack acked armCalls acceptCalls
  simp only
  cases refused : cancelled && sendAck with
  | true => simp [confirm_eq, confirmCalls]
  | false =>
      cases onTimeoutSet with
      | false =>
          cases acceptCallback with
          | none => simp [confirm_eq, confirmCalls, ready]
          | some callback =>
              cases callback with
              | returns => simp [confirm_eq, confirmCalls, log, ready]
              | raises | propagates => simp [log, ready]
      | true =>
          cases acceptCallback with
          | none => simp [confirm_eq, confirmCalls, log, ready]
          | some callback =>
              cases callback with
              | returns => simp [confirm_eq, confirmCalls, log, ready]
              | raises | propagates => simp [log, ready]

theorem safeApplyCallback_eq (callback : Option Callback) (call : Call α) :
    (result.safeApplyCallback callback call).1 =
      { result with calls := result.calls ++ if callback.isSome then [call] else [] } := by
  unfold safeApplyCallback
  cases callback with
  | none => simp
  | some callback => cases callback <;> rfl

theorem set_eq :
    (result.set outcome).1 = { result with
      outcome := some outcome
      cached := result.cached && !result.accepted
      calls := result.calls ++ (result.cancelCalls ++ result.resultCalls outcome) } := by
  have noted : (if result.onTimeoutCancel then result.log .onTimeoutCancel else result) =
      { result with calls := result.calls ++ result.cancelCalls } := by
    unfold cancelCalls
    split
    · rfl
    · simp
  unfold set resultCalls
  rw [noted]
  cases outcome with
  | success value => simp only [safeApplyCallback_eq, List.append_assoc]
  | failure info => simp only [safeApplyCallback_eq, List.append_assoc]

/-- The worker gets one answer, the one that is due, and does not wait for more. -/
structure Answers (result : ApplyResult α) (timeAccepted pid fd : Nat) : Prop where
  once : (result.ack timeAccepted pid (some fd)).1.calls.filter Call.isAnswer =
    result.calls.filter Call.isAnswer ++ [.sendAck result.response pid result.job fd]
  woken : (waitForSyn ((((result.ack timeAccepted pid (some fd)).1.calls.drop
    result.calls.length).filterMap (Call.responseTo fd)).map .message)).1 ≠ .waits

/-- An answer is sent after all the other calls, unless there is no `fd` or a callback that raises
takes it away from a job that is not cancelled. -/
theorem ack_calls (sends : result.sendAck = true) :
    ∃ noted : List (Call α), (∀ call ∈ noted, call.isAnswer = false) ∧
      (result.ack timeAccepted pid (some fd)).1.calls = result.calls ++ (noted ++
        if fd ≠ 0 ∧ (result.cancelled = true ∨ result.acceptRaises = false) then
          [.sendAck result.response pid result.job fd]
        else []) := by
  have armed : ∀ call ∈ result.armCalls, call.isAnswer = false := by
    unfold armCalls
    split
    · simp
    · split
      · simp [Call.isAnswer]
      · simp
  rw [ack_eq]
  unfold acceptCalls confirmCalls acceptRaises response acceptRaises
  cases cancelled : result.cancelled with
  | true =>
      refine ⟨result.armCalls, armed, ?_⟩
      simp [sends]
  | false =>
      cases accepts : result.acceptCallback with
      | none =>
          refine ⟨result.armCalls, armed, ?_⟩
          simp [sends]
      | some callback =>
          refine ⟨result.armCalls ++ [.acceptCallback pid timeAccepted], ?_, ?_⟩
          · simpa [Call.isAnswer, or_imp, forall_and] using armed
          · cases callback with
            | returns => simp [sends]
            | raises | propagates => simp

theorem responses_of_no_answer {calls : List (Call α)}
    (none : ∀ call ∈ calls, call.isAnswer = false) :
    calls.filterMap (Call.responseTo fd) = [] := by
  rw [List.filterMap_eq_nil_iff]
  intro call member
  have other := none call member
  cases call with
  | sendAck => cases other
  | _ => rfl

theorem waitForSyn_response (response : Response) :
    (waitForSyn [.message response]).1 ≠ .waits := by
  cases response with
  | ack => simp [waitForSyn, Poll.receive]
  | nack => simp [waitForSyn, Poll.receive]

/-- A worker gets its answer, and no other, exactly if its descriptor is not zero and the job is
cancelled or has no callback that raises. -/
theorem answers_iff (sends : result.sendAck = true) :
    result.Answers timeAccepted pid fd ↔
      fd ≠ 0 ∧ (result.cancelled = true ∨ result.acceptRaises = false) := by
  obtain ⟨noted, others, calls⟩ := @ack_calls α result timeAccepted pid fd sends
  have unanswered : noted.filter Call.isAnswer = [] :=
    List.filter_eq_nil_iff.mpr fun call member => by simp [others call member]
  constructor
  · intro answers
    by_contra unsent
    have once := answers.once
    rw [calls, if_neg unsent, List.filter_append, List.filter_append, unanswered] at once
    simp at once
  · intro sent
    rw [if_pos sent] at calls
    constructor
    · rw [calls, List.filter_append, List.filter_append, unanswered]
      rfl
    · rw [calls, List.drop_left, List.filterMap_append, responses_of_no_answer others]
      simpa [Call.responseTo] using waitForSyn_response result.response

/-- A job that is cancelled when it has timed out in one worker and another one takes it -/
def givenUp : ApplyResult Nat :=
  { init 4 { acceptCallback := some .raises, softTimeout := some 3, sendAck := true } with
    accepted := true
    cancelled := true
    workerPid := some 6
    timeAccepted := some 2
    calls := [.sendAck .ack 6 4 9, .timeoutCallback true (some 3)] }

theorem answers_givenUp : givenUp.sendAck = true ∧ givenUp.Answers 5 7 3 :=
  ⟨rfl, (answers_iff rfl).mpr ⟨by decide, .inl rfl⟩⟩

/-- Looking for `_propagate_errors` raises before there is an answer. -/
theorem unanswered :
    ((init 0 { sendAck := true, acceptCallback := some .raises } : ApplyResult Nat).ack
        5 7 (some 3)).2 = some .attributeError ∧
      ¬(init 0 { sendAck := true, acceptCallback := some .raises } : ApplyResult Nat).Answers
        5 7 3 := by
  refine ⟨rfl, ?_⟩
  intro answers
  exact absurd answers.once (by decide)

/-- The state of a job that is done with, whatever it has called. -/
structure Settled (result : ApplyResult α) (outcome : Outcome α) : Prop where
  accepted : result.accepted = true
  outcome : result.outcome = some outcome
  uncached : result.cached = false

def ackThenSet (result : ApplyResult α) (timeAccepted pid : Nat) (synqWFd : Option Nat)
    (outcome : Outcome α) : ApplyResult α :=
  ((result.ack timeAccepted pid synqWFd).1.set outcome).1

def setThenAck (result : ApplyResult α) (timeAccepted pid : Nat) (synqWFd : Option Nat)
    (outcome : Outcome α) : ApplyResult α :=
  ((result.set outcome).1.ack timeAccepted pid synqWFd).1

/-- Both orders end in one state but for the order of the calls, the job is done with and no timer
is left. -/
structure Commutes (result : ApplyResult α) (timeAccepted pid : Nat) (synqWFd : Option Nat)
    (outcome : Outcome α) : Prop where
  same : { result.ackThenSet timeAccepted pid synqWFd outcome with calls := [] } =
    { result.setThenAck timeAccepted pid synqWFd outcome with calls := [] }
  ackFirst : (result.ackThenSet timeAccepted pid synqWFd outcome).Settled outcome
  setFirst : (result.setThenAck timeAccepted pid synqWFd outcome).Settled outcome
  disarmed_ackFirst : Disarmed
    ((result.ackThenSet timeAccepted pid synqWFd outcome).calls.drop result.calls.length)
  disarmed_setFirst : Disarmed
    ((result.setThenAck timeAccepted pid synqWFd outcome).calls.drop result.calls.length)

/-- A cancelled job needs no `_ack` to leave the cache, and another one sets no timer. -/
def Tidy (result : ApplyResult α) : Prop :=
  if result.cancelled && result.sendAck then result.cached = false ∨ result.accepted = true
  else result.onTimeoutSet = false

instance : DecidablePred (@Tidy α) := fun result =>
  inferInstanceAs (Decidable (if (result.cancelled && result.sendAck) = true then
    result.cached = false ∨ result.accepted = true else result.onTimeoutSet = false))

theorem ackThenSet_eq :
    result.ackThenSet timeAccepted pid synqWFd outcome = { result.acked timeAccepted pid with
      outcome := some outcome
      cached := false
      calls := result.calls ++ (result.armCalls ++ result.acceptCalls timeAccepted pid synqWFd) ++
        (result.cancelCalls ++ result.resultCalls outcome) } := by
  unfold ackThenSet
  rw [ack_eq, set_eq]
  unfold acked
  split
  · simp [cancelCalls, resultCalls]
  · simp [cancelCalls, resultCalls]

theorem setThenAck_eq :
    result.setThenAck timeAccepted pid synqWFd outcome = { result.acked timeAccepted pid with
      outcome := some outcome
      cached := result.cancelled && result.sendAck && (result.cached && !result.accepted)
      calls := result.calls ++ (result.cancelCalls ++ result.resultCalls outcome) ++
        (result.armCalls ++ result.acceptCalls timeAccepted pid synqWFd) } := by
  unfold setThenAck
  rw [set_eq, ack_eq]
  unfold acked
  cases refused : result.cancelled && result.sendAck with
  | true => simp [armCalls, acceptCalls, confirmCalls]
  | false => simp [armCalls, acceptCalls, confirmCalls, ready]

theorem acceptCalls_untimed :
    (result.acceptCalls timeAccepted pid synqWFd).filter Call.timed = [] := by
  have confirmed : ∀ response,
      (result.confirmCalls response pid synqWFd).filter Call.timed = [] := by
    intro response
    unfold confirmCalls
    cases synqWFd with
    | none => rfl
    | some fd =>
        simp only
        split
        · rfl
        · rfl
  unfold acceptCalls
  split
  · exact confirmed .nack
  · split
    · exact confirmed .ack
    · rw [List.filter_cons_of_neg (by simp [Call.timed, Call.arms, Call.disarms])]
      exact confirmed .ack
    · rfl

theorem resultCalls_untimed : (result.resultCalls outcome).filter Call.timed = [] := by
  unfold resultCalls
  cases outcome with
  | success value =>
      simp only
      split
      · rfl
      · rfl
  | failure info =>
      simp only
      split
      · rfl
      · rfl

theorem armCalls_timed : result.armCalls.filter Call.timed = result.armCalls := by
  unfold armCalls
  split
  · rfl
  · split
    · rfl
    · rfl

theorem cancelCalls_timed : result.cancelCalls.filter Call.timed = result.cancelCalls := by
  unfold cancelCalls
  split
  · rfl
  · rfl

theorem armCalls_cases :
    result.armCalls = [] ∨ result.armCalls = [.onTimeoutSet result.softTimeout result.timeout] := by
  unfold armCalls
  split
  · exact .inl rfl
  · split
    · exact .inr rfl
    · exact .inl rfl

theorem disarmed_ackFirst_iff :
    Disarmed (result.armCalls ++ result.acceptCalls timeAccepted pid synqWFd ++
        (result.cancelCalls ++ result.resultCalls outcome)) ↔
      result.armCalls = [] ∨ result.onTimeoutCancel = true := by
  rw [← disarmed_filter]
  simp only [List.filter_append, acceptCalls_untimed, resultCalls_untimed, armCalls_timed,
    cancelCalls_timed, List.append_nil]
  unfold cancelCalls
  rcases @armCalls_cases α result with none | one
  · rw [none]
    cases result.onTimeoutCancel with
    | false => simp [Disarmed]
    | true => simp [Disarmed, Call.arms]
  · rw [one]
    cases result.onTimeoutCancel with
    | false => simp [Disarmed, Call.arms]
    | true => simp [Disarmed, Call.arms, Call.disarms]

theorem disarmed_setFirst_iff :
    Disarmed (result.cancelCalls ++ result.resultCalls outcome ++
        (result.armCalls ++ result.acceptCalls timeAccepted pid synqWFd)) ↔
      result.armCalls = [] := by
  rw [← disarmed_filter]
  simp only [List.filter_append, acceptCalls_untimed, resultCalls_untimed, armCalls_timed,
    cancelCalls_timed, List.append_nil]
  unfold cancelCalls
  rcases @armCalls_cases α result with none | one
  · rw [none]
    cases result.onTimeoutCancel with
    | false => simp [Disarmed]
    | true => simp [Disarmed, Call.arms]
  · rw [one]
    cases result.onTimeoutCancel with
    | false => simp [Disarmed, Call.arms]
    | true => simp [Disarmed, Call.arms]

theorem armCalls_eq_nil_iff :
    result.armCalls = [] ↔
      (result.cancelled && result.sendAck) = true ∨ result.onTimeoutSet = false := by
  unfold armCalls
  split
  · simp [*]
  · split
    · simp [*]
    · simp [*]

theorem acked_accepted : (result.acked timeAccepted pid).accepted = true := by
  unfold acked
  split
  · rfl
  · rfl

theorem tidy_iff :
    result.Tidy ↔
      (result.cancelled && result.sendAck && (result.cached && !result.accepted)) = false ∧
        result.armCalls = [] := by
  rw [armCalls_eq_nil_iff]
  unfold Tidy
  cases result.cancelled && result.sendAck with
  | false => simp
  | true => cases result.cached <;> simp

/-- The acceptance and the result of a job come to the same in either order exactly if the job is
tidy. -/
theorem commutes_iff (result : ApplyResult α) (timeAccepted pid : Nat) (synqWFd : Option Nat)
    (outcome : Outcome α) :
    result.Commutes timeAccepted pid synqWFd outcome ↔ result.Tidy := by
  rw [tidy_iff]
  constructor
  · intro commutes
    have uncached := commutes.setFirst.uncached
    have disarmed := commutes.disarmed_setFirst
    rw [setThenAck_eq] at uncached disarmed
    rw [List.append_assoc, List.drop_left, disarmed_setFirst_iff] at disarmed
    exact ⟨uncached, disarmed⟩
  · intro ⟨uncached, unarmed⟩
    constructor
    case same => rw [ackThenSet_eq, setThenAck_eq, uncached]
    case ackFirst => rw [ackThenSet_eq]; exact ⟨acked_accepted, rfl, rfl⟩
    case setFirst => rw [setThenAck_eq]; exact ⟨acked_accepted, rfl, uncached⟩
    case disarmed_ackFirst =>
      rw [ackThenSet_eq, List.append_assoc, List.drop_left, disarmed_ackFirst_iff]
      exact .inl unarmed
    case disarmed_setFirst =>
      rw [setThenAck_eq, List.append_assoc, List.drop_left, disarmed_setFirst_iff]
      exact unarmed

/-- A job that is cancelled stays in the cache, and a timer is set for one that is ready. -/
theorem not_commutes :
    ({ init 0 { sendAck := true } with cancelled := true } : ApplyResult Nat).setThenAck
        5 7 none (.success 42) =
      { init 0 { sendAck := true } with
        cancelled := true, accepted := true, outcome := some (.success 42) } ∧
    ((init 0 { onTimeoutSet := true, onTimeoutCancel := true } : ApplyResult Nat).setThenAck
        5 7 none (.success 42)).calls = [.onTimeoutCancel, .onTimeoutSet none none] ∧
    ¬({ init 0 { sendAck := true } with cancelled := true } : ApplyResult Nat).Commutes
        5 7 none (.success 42) ∧
    ¬(init 0 { onTimeoutSet := true, onTimeoutCancel := true } : ApplyResult Nat).Commutes
        5 7 none (.success 42) := by
  refine ⟨rfl, rfl, ?_, ?_⟩
  · intro commutes
    exact absurd commutes.setFirst.uncached (by decide)
  · intro commutes
    exact absurd (commutes.disarmed_setFirst.2.1 rfl) (by decide)

end ApplyResult

/-- The result handler finds a job that is neither accepted nor ready in the cache both times. -/
theorem Job.act_act {result : ApplyResult α} (cached : result.cached = true)
    (unaccepted : result.accepted = false) (unresolved : result.outcome = none)
    (iter : α → List α) (number timeAccepted pid : Nat) (synqWFd : Option Nat) (i : Index)
    (outcome : Outcome α) :
    ((Job.apply result).act iter number (.ack i timeAccepted pid synqWFd)).act iter number
        (.ready i outcome) = .apply (result.ackThenSet timeAccepted pid synqWFd outcome) ∧
      ((Job.apply result).act iter number (.ready i outcome)).act iter number
        (.ack i timeAccepted pid synqWFd) =
          .apply (result.setThenAck timeAccepted pid synqWFd outcome) := by
  have kept : (result.ack timeAccepted pid synqWFd).1.cached = true := by
    rw [ApplyResult.ack_eq]
    unfold ApplyResult.acked
    split
    · exact cached
    · simp [cached, ApplyResult.ready, unresolved]
  have stays : (result.set outcome).1.cached = true := by
    rw [ApplyResult.set_eq]
    simp [cached, unaccepted]
  constructor
  · simp [act, Job.cached, cached, Job.ack, Job.set, kept, ApplyResult.ackThenSet]
  · simp [act, Job.cached, cached, Job.ack, Job.set, stays, ApplyResult.setThenAck]

end Billiard
