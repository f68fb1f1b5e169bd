import Billiard.Queues.Queue
import Billiard.Synchronize.Condition

/-! A `JoinableQueue`: a queue with a semaphore that counts the unfinished tasks, and a
condition over an `RLock`. -/

namespace Billiard

/-- What a party does under `_cond`.  For a join, `since` tells where the history of the count
was when it was called. -/
inductive JoinableCall where
  | put
  | taskDone
  | join (since : Nat)
deriving DecidableEq, Repr

inductive JoinableOutcome where
  | returned
  /-- `task_done() called too many times` -/
  | tooManyTimes
  | failed (error : ConditionError)
deriving DecidableEq, Repr

/-- Where a party stands, before its next operation; one that is outside may be in a method
that the queue has from `Queue`. -/
inductive JoinablePoint where
  | outside
  | entering (call : JoinableCall)
  | appending
  | counting
  | taking
  | testing
  | callingNotify
  | notifying
  | looking (since : Nat)
  | callingWait (since : Nat)
  | waiting (since : Nat)
  | leaving (call : JoinableCall) (outcome : JoinableOutcome)
deriving DecidableEq, Repr

/-- `use.parties` is where the parties stand in the methods of the condition; a party has the
number of its thread in `queue.callers`.  The rest are histories: `values` are those of
`unfinished`, the last one its present one, `counted` is how often a `put` raised the count,
`returned` how often one has returned, and `finished` how often a `task_done` lowered it.  A
join that returns leaves in `joins` the values during its call. -/
structure JoinableQueue (α : Type u) where
  queue : QueueState α
  use : ConditionUse
  unfinished : Nat
  points : List JoinablePoint
  values : List Nat
  counted : Nat
  returned : Nat
  finished : Nat
  joins : List (List Nat)
deriving DecidableEq, Repr

/-- A step of what is inherited from `Queue`, a call, or the next operation of a party. -/
inductive JoinableStep (α : Type u) where
  | queue (step : QueueStep α)
  | put (party : Nat)
  | taskDone (party : Nat)
  | join (party : Nat)
  | advance (party : Nat)
deriving DecidableEq, Repr

namespace JoinablePoint

/-- The party is in `put` and has `_notempty`, which it takes before `_cond`. -/
def holdsNotempty : JoinablePoint → Bool
  | .entering .put | .appending | .counting | .leaving .put _ => true
  | _ => false

/-- The `put` has raised the count and has not returned. -/
def returning : JoinablePoint → Nat
  | .leaving .put .returned => 1
  | _ => 0

end JoinablePoint

variable {α : Type u}

namespace JoinableQueue

/-- There are `parties` threads that may use the methods of a joinable queue. -/
def init (maxsize parties : Nat) : JoinableQueue α :=
  ⟨.init maxsize, .init parties, 0, List.replicate parties .outside, [0], 0, 0, 0, []⟩

def move (state : JoinableQueue α) (party : Nat) (point : JoinablePoint) : JoinableQueue α :=
  { state with points := state.points.set party point }

def notemptyHeld (state : JoinableQueue α) (process : Nat) : Bool :=
  (state.queue.callers.zip state.points).any fun place =>
    place.1.process = process && place.2.holdsNotempty

def isFree (state : JoinableQueue α) (number : Nat) : Bool :=
  state.points[number]?.all (· == .outside)

/-- A party does nothing else during its call, and `_notempty` excludes the feeder before its
inner loop and `_finalize_close`.  The object of a `put` is appended under `_cond`. -/
def allows (state : JoinableQueue α) : QueueStep α → Bool
  | .fork _ | .call _ | .pop _ | .lockPipe _ | .send _ => true
  | .wake process => !state.notemptyHeld process
  | .append _ => false
  | .sentinel number =>
      state.isFree number &&
        state.queue.callers[number]?.all fun caller => !state.notemptyHeld caller.process
  | .put number _ _ | .acquire number | .full number | .get number _ | .lock number
  | .empty number | .receive number | .unlock number | .release number | .close number =>
      state.isFree number

/-- A thread that has passed `_sem` in `put` takes `_notempty`, and then waits for `_cond`. -/
def callPut (state : JoinableQueue α) (party : Nat) : Option (JoinableQueue α) :=
  match state.points[party]?, state.queue.callers[party]? with
  | some .outside, some ⟨process, .admitted _⟩ =>
      if state.notemptyHeld process then none else some (state.move party (.entering .put))
  | _, _ => none

def call (state : JoinableQueue α) (party : Nat) (call : JoinableCall) :
    Option (JoinableQueue α) :=
  match state.points[party]?, state.queue.callers[party]? with
  | some .outside, some ⟨_, .idle⟩ => some (state.move party (.entering call))
  | _, _ => none

variable (maxvalue : Nat)

/-- An operation of the party on the condition; where the party is outside the methods of the
condition after it, `after` takes the outcome of the call. -/
def delegate (state : JoinableQueue α) (party : Nat) (action : PartyAction)
    (inside : JoinablePoint) (after : MethodOutcome → JoinablePoint) :
    Option (JoinableQueue α) :=
  match state.use.step .recursiveMutex maxvalue (party, action) with
  | none => none
  | some use =>
      let state := { state with use }
      match use.parties[party]? with
      | some (.outside outcome) => some (state.move party (after outcome))
      | _ => some (state.move party inside)

def begun : JoinableCall → JoinablePoint
  | .put => .appending
  | .taskDone => .taking
  | .join since => .looking since

/-- The end of a method of the condition, the last thing that the call does under `_cond`. -/
def ended (call : JoinableCall) : MethodOutcome → JoinablePoint
  | .returned _ => .leaving call .returned
  | .raised error => .leaving call (.failed error)

/-- What a call leaves in the histories when it has left `_cond`. -/
def record (state : JoinableQueue α) : JoinableCall → JoinableOutcome → JoinableQueue α
  | .put, .returned => { state with returned := state.returned + 1 }
  | .join since, .returned => { state with joins := state.joins ++ [state.values.drop since] }
  | _, _ => state

def setUnfinished (state : JoinableQueue α) (unfinished : Nat) : JoinableQueue α :=
  { state with unfinished, values := state.values ++ [unfinished] }

def advance (state : JoinableQueue α) (party : Nat) : JoinablePoint → Option (JoinableQueue α)
  | .outside => none
  | .entering call =>
      state.delegate maxvalue party .acquire (.entering call) fun _ => begun call
  | .appending =>
      (state.queue.step (.append party)).map fun queue =>
        { state with queue }.move party .counting
  | .counting =>
      match Semaphore.release maxvalue state.unfinished with
      | .error error => some (state.move party (.leaving .put (.failed (.sem error))))
      | .ok unfinished =>
          some ({ state.setUnfinished unfinished with counted := state.counted + 1 }.move party
            (.leaving .put .returned))
  | .taking =>
      match Semaphore.acquire state.unfinished with
      | none => some (state.move party (.leaving .taskDone .tooManyTimes))
      | some unfinished =>
          some ({ state.setUnfinished unfinished with finished := state.finished + 1 }.move party
            .testing)
  | .testing =>
      if state.unfinished = 0 then some (state.move party .callingNotify)
      else some (state.move party (.leaving .taskDone .returned))
  | .callingNotify =>
      state.delegate maxvalue party (.notification .notifyAll) .notifying (ended .taskDone)
  | .notifying => state.delegate maxvalue party .advance .notifying (ended .taskDone)
  | .looking since =>
      if state.unfinished = 0 then some (state.move party (.leaving (.join since) .returned))
      else some (state.move party (.callingWait since))
  | .callingWait since =>
      state.delegate maxvalue party (.wait false) (.waiting since) (ended (.join since))
  | .waiting since =>
      state.delegate maxvalue party .advance (.waiting since) (ended (.join since))
  | .leaving call outcome =>
      (state.delegate maxvalue party .release (.leaving call outcome) fun _ => .outside).map
        fun state => state.record call outcome

def step (state : JoinableQueue α) : JoinableStep α → Option (JoinableQueue α)
  | .queue label =>
      if state.allows label then
        (state.queue.step label).map fun queue => { state with queue }
      else none
  | .put party => state.callPut party
  | .taskDone party => state.call party .taskDone
  | .join party => state.call party (.join (state.values.length - 1))
  | .advance party => state.points[party]?.bind (state.advance maxvalue party)

end JoinableQueue

end Billiard
