import Billiard.Data.Transition
import Billiard.Synchronize.SemLock

/-! Condition variables built from a lock and three semaphores, used by any
number of parties. -/

namespace Billiard

structure Condition where
  lock : Option Hold
  sleepingCount : Nat
  wokenCount : Nat
  waitSemaphore : Nat
deriving DecidableEq, Repr

inductive ConditionError where
  | sem (error : SemError)
  /-- `assert not self._wait_semaphore.acquire(False)` -/
  | stalePost
  /-- `assert res` -/
  | unmatchedWake
deriving DecidableEq, Repr

inductive MethodOutcome where
  | returned (result : Option Bool)
  | raised (error : ConditionError)
deriving DecidableEq, Repr

/-- The two methods that begin alike. -/
inductive Notification where
  | notify
  | notifyAll
deriving DecidableEq, Repr

/-- Where a party stands, before an operation on the lock or a semaphore.  Outside
the methods it has the outcome of its last call; `i` counts the rounds of a `for`
loop. -/
inductive Point where
  | outside (outcome : MethodOutcome)
  | unlocking (timed : Bool) (count i : Nat)
  | sleeping (timed : Bool) (count : Nat)
  | woken (count : Nat) (result : Bool)
  | relocking (count i : Nat) (result : Bool)
  | draining (call : Notification)
  | matching (call : Notification)
  | notifyPicking
  | notifyPosting
  | notifyAwaiting
  | notifyRezeroing
  | allPicking (sleepers : Nat)
  | allPosting (sleepers : Nat)
  | allAwaiting (sleepers i : Nat)
  | allRezeroing
deriving DecidableEq, Repr

/-- What a party does next; `timed` says that a timeout was given to `wait`. -/
inductive PartyAction where
  | acquire
  | release
  | wait (timed : Bool)
  | notification (call : Notification)
  | advance
  | timeOut
deriving DecidableEq, Repr

structure ConditionUse where
  condition : Condition
  parties : List Point
deriving DecidableEq, Repr

namespace Condition

def new : Condition := ⟨none, 0, 0, 0⟩

/-- The number that `__repr__` shows. -/
def numWaiters (condition : Condition) : Int :=
  condition.sleepingCount - condition.wokenCount

/-- No semaphore has reached its maximum. -/
def Below (maxvalue : Nat) (condition : Condition) : Prop :=
  condition.sleepingCount < maxvalue ∧ condition.wokenCount < maxvalue ∧
    condition.waitSemaphore < maxvalue

end Condition

namespace Point

def raised (error : ConditionError) : Point := .outside (.raised error)

def returned (result : Option Bool) : Point := .outside (.returned result)

variable (kind : LockKind) (maxvalue : Nat)

/-- `wait` up to the release of `_sleeping_count`. -/
def wait (condition : Condition) (party : Nat) (timed : Bool) : Condition × Point :=
  match condition.lock with
  | none => (condition,
      raised (.sem (.assertionError "must acquire() condition before using wait()")))
  | some hold =>
      if hold.owner = party then
        match Semaphore.release maxvalue condition.sleepingCount with
        | .error error => (condition, raised (.sem error))
        | .ok sleepingCount => ({ condition with sleepingCount }, .unlocking timed hold.count 0)
      else (condition,
        raised (.sem (.assertionError "must acquire() condition before using wait()")))

/-- `notify` and `notify_all` up to their second assertion. -/
def notification (condition : Condition) (party : Nat) (call : Notification) :
    Condition × Point :=
  if SemLock.isMine condition.lock party then
    match Semaphore.acquire condition.waitSemaphore with
    | some waitSemaphore => ({ condition with waitSemaphore }, raised .stalePost)
    | none => (condition, .draining call)
  else (condition, raised (.sem (.assertionError "lock is not owned")))

/-- What follows the loop that rezeroes `_woken_count`. -/
def picking : Notification → Point
  | .notify => .notifyPicking
  | .notifyAll => .allPicking 0

/-- The next operation of the method that the party is in; it answers `none` where
the party blocks. -/
def advance (condition : Condition) (party : Nat) : Point → Option (Condition × Point)
  | .outside _ => none
  | .unlocking timed count i =>
      match SemLock.release condition.lock party with
      | .error error => some (condition, raised (.sem error))
      | .ok lock => some ({ condition with lock },
          if i + 1 < count then .unlocking timed count (i + 1) else .sleeping timed count)
  | .sleeping _ count =>
      match Semaphore.acquire condition.waitSemaphore with
      | none => none
      | some waitSemaphore => some ({ condition with waitSemaphore }, .woken count true)
  | .woken count result =>
      match Semaphore.release maxvalue condition.wokenCount with
      | .error error => some (condition, raised (.sem error))
      | .ok wokenCount => some ({ condition with wokenCount }, .relocking count 0 result)
  | .relocking count i result =>
      match SemLock.acquire kind condition.lock party with
      | none => none
      | some hold => some ({ condition with lock := some hold },
          if i + 1 < count then .relocking count (i + 1) result else returned (some result))
  | .draining call =>
      match Semaphore.acquire condition.wokenCount with
      | some wokenCount => some ({ condition with wokenCount }, .matching call)
      | none => some (condition, picking call)
  | .matching call =>
      match Semaphore.acquire condition.sleepingCount with
      | some sleepingCount => some ({ condition with sleepingCount }, .draining call)
      | none => some (condition, raised .unmatchedWake)
  | .notifyPicking =>
      match Semaphore.acquire condition.sleepingCount with
      | some sleepingCount => some ({ condition with sleepingCount }, .notifyPosting)
      | none => some (condition, returned none)
  | .notifyPosting =>
      match Semaphore.release maxvalue condition.waitSemaphore with
      | .error error => some (condition, raised (.sem error))
      | .ok waitSemaphore => some ({ condition with waitSemaphore }, .notifyAwaiting)
  | .notifyAwaiting =>
      match Semaphore.acquire condition.wokenCount with
      | none => none
      | some wokenCount => some ({ condition with wokenCount }, .notifyRezeroing)
  | .notifyRezeroing =>
      match Semaphore.acquire condition.waitSemaphore with
      | some waitSemaphore => some ({ condition with waitSemaphore }, returned none)
      | none => some (condition, returned none)
  | .allPicking sleepers =>
      match Semaphore.acquire condition.sleepingCount with
      | some sleepingCount => some ({ condition with sleepingCount }, .allPosting sleepers)
      | none => some (condition, if sleepers = 0 then returned none else .allAwaiting sleepers 0)
  | .allPosting sleepers =>
      match Semaphore.release maxvalue condition.waitSemaphore with
      | .error error => some (condition, raised (.sem error))
      | .ok waitSemaphore => some ({ condition with waitSemaphore }, .allPicking (sleepers + 1))
  | .allAwaiting sleepers i =>
      match Semaphore.acquire condition.wokenCount with
      | none => none
      | some wokenCount => some ({ condition with wokenCount },
          if i + 1 < sleepers then .allAwaiting sleepers (i + 1) else .allRezeroing)
  | .allRezeroing =>
      match Semaphore.acquire condition.waitSemaphore with
      | some waitSemaphore => some ({ condition with waitSemaphore }, .allRezeroing)
      | none => some (condition, returned none)

/-- A party that is outside the methods uses the lock only as `with` does: it
releases what it holds. -/
def act (condition : Condition) (party : Nat) : PartyAction → Point → Option (Condition × Point)
  | .acquire, .outside _ =>
      match SemLock.acquire kind condition.lock party with
      | none => none
      | some hold => some ({ condition with lock := some hold }, returned (some true))
  | .release, .outside _ =>
      match SemLock.release condition.lock party with
      | .error _ => none
      | .ok lock => some ({ condition with lock }, returned none)
  | .wait timed, .outside _ => some (wait maxvalue condition party timed)
  | .notification call, .outside _ => some (notification condition party call)
  | .advance, point => advance kind maxvalue condition party point
  | .timeOut, .sleeping true count => some (condition, .woken count false)
  | _, _ => none

end Point

namespace ConditionUse

def init (parties : Nat) : ConditionUse :=
  ⟨.new, List.replicate parties (.returned none)⟩

variable (kind : LockKind) (maxvalue : Nat)

def step (use : ConditionUse) (label : Nat × PartyAction) : Option ConditionUse :=
  match use.parties[label.1]? with
  | none => none
  | some point =>
      match point.act kind maxvalue use.condition label.1 label.2 with
      | none => none
      | some (condition, moved) => some ⟨condition, use.parties.set label.1 moved⟩

variable {kind : LockKind} {maxvalue : Nat}

theorem step_cases {use next : ConditionUse} {party : Nat} {action : PartyAction}
    (taken : step kind maxvalue use (party, action) = some next) :
    ∃ point moved, use.parties[party]? = some point ∧
      point.act kind maxvalue use.condition party action = some (next.condition, moved) ∧
      next.parties = use.parties.set party moved := by
  unfold step at taken
  split at taken
  · cases taken
  · rename_i point found
    split at taken
    · cases taken
    · rename_i condition moved acted
      cases taken
      exact ⟨point, moved, found, acted, rfl⟩

end ConditionUse

end Billiard
