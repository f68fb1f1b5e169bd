import Billiard.Data.Lane

/-! A `Queue` that processes share: a semaphore, a pipe with a lock on either end, and in
each process a buffer with a feeder thread. -/

namespace Billiard

/-- `block` and `timeout` of a call. -/
inductive QueueMode where
  | blocking
  | timed
  | nonblocking
deriving DecidableEq, Repr

/-- Where `_feed` stands: in the outer loop, in the inner one, with an object that is to be
sent, or at its end. -/
inductive Feeder (α : Type u) where
  | absent
  | waiting
  | popping
  | holding (obj : α)
  | sending (obj : α)
  | finished
  | crashed
deriving DecidableEq, Repr

/-- The queue in one process.  The sentinel in the buffer is `none`, `finalizer` is `_close`,
and `closing` is a history: what the process had put when the sentinel was appended. -/
structure QueueProcess (α : Type u) where
  closed : Bool
  reader : Bool
  writer : Bool
  buffer : List (Option α)
  feeder : Feeder α
  finalizer : Bool
  closing : Option (List α)
deriving DecidableEq, Repr

/-- Where a thread stands in a call; one that is `received` has read under `_rlock`, and gives
up first the lock (`unlocked`) or first the semaphore (`released`). -/
inductive CallStage (α : Type u) where
  | idle
  | putting (obj : α) (mode : QueueMode)
  | admitted (obj : α)
  | getting (mode : QueueMode)
  | reading (mode : QueueMode)
  | received (obj : α) (mode : QueueMode)
  | unlocked (obj : α)
  | released (obj : α)
  | closing
deriving DecidableEq, Repr

structure Caller (α : Type u) where
  process : Nat
  stage : CallStage α
deriving DecidableEq, Repr

/-- Objects in the pipe and in the histories `accepted` and `delivered` go with the process that
put them; `released` counts the releases of the semaphore and `faults` those that it refused. -/
structure QueueState (α : Type u) where
  maxsize : Nat
  sem : Nat
  rlock : Bool
  wlock : Bool
  processes : List (QueueProcess α)
  callers : List (Caller α)
  pipe : List (Nat × α)
  accepted : List (Nat × α)
  delivered : List (Nat × α)
  released : Nat
  faults : Nat
deriving DecidableEq, Repr

/-- `call` is a new thread; the last four are steps of the feeder of a process. -/
inductive QueueStep (α : Type u) where
  | fork (parent : Nat)
  | call (process : Nat)
  | put (caller : Nat) (obj : α) (mode : QueueMode)
  | acquire (caller : Nat)
  | full (caller : Nat)
  | append (caller : Nat)
  | get (caller : Nat) (mode : QueueMode)
  | lock (caller : Nat)
  | empty (caller : Nat)
  | receive (caller : Nat)
  | unlock (caller : Nat)
  | release (caller : Nat)
  | close (caller : Nat)
  | sentinel (caller : Nat)
  | wake (process : Nat)
  | pop (process : Nat)
  | lockPipe (process : Nat)
  | send (process : Nat)
deriving DecidableEq, Repr

variable {α : Type u}

namespace Feeder

/-- The object that the feeder has popped and not sent. -/
def hand : Feeder α → List α
  | .holding obj | .sending obj => [obj]
  | .absent | .waiting | .popping | .finished | .crashed => []

end Feeder

/-- The call is reading from the pipe, or about to. -/
def CallStage.reads : CallStage α → Bool
  | .reading _ => true
  | _ => false

namespace QueueProcess

def new : QueueProcess α := ⟨false, true, true, [], .absent, false, none⟩

/-- `_after_fork`; the connections are as the parent has left them. -/
def afterFork (process : QueueProcess α) : QueueProcess α :=
  { new with reader := process.reader, writer := process.writer }

def buffered (process : QueueProcess α) : List α := process.buffer.filterMap id

/-- The part of `put` under `_notempty`, with `_start_thread`. -/
def put (process : QueueProcess α) (obj : α) : QueueProcess α :=
  match process.feeder with
  | .absent => { process with buffer := [some obj], feeder := .waiting, finalizer := true }
  | _ => { process with buffer := process.buffer ++ [some obj] }

/-- `_finalize_close`, when `_close` is there; `objs` are what the process has put. -/
def finalizeClose (process : QueueProcess α) (objs : List α) : QueueProcess α :=
  if process.finalizer then
    { process with buffer := process.buffer ++ [none], finalizer := false, closing := some objs }
  else process

/-- `bpopleft()` in the inner loop. -/
def pop (process : QueueProcess α) : QueueProcess α :=
  match process.buffer with
  | [] => { process with feeder := .waiting }
  | some obj :: buffer => { process with buffer, feeder := .holding obj }
  | none :: buffer => { process with buffer, feeder := .finished, writer := false }

end QueueProcess

namespace QueueState

def init (maxsize : Nat) : QueueState α :=
  ⟨maxsize, maxsize, false, false, [.new], [], [], [], [], 0, 0⟩

/-- What has gone through the pipe or is in it. -/
def sent (state : QueueState α) : List (Nat × α) := state.delivered ++ state.pipe

def goTo (state : QueueState α) (number process : Nat) (stage : CallStage α) : QueueState α :=
  { state with callers := state.callers.set number ⟨process, stage⟩ }

def setProcess (state : QueueState α) (number : Nat) (process : QueueProcess α) :
    QueueState α :=
  { state with processes := state.processes.set number process }

/-- A call on a closed queue raises at once. -/
def isOpen (state : QueueState α) (process : Nat) : Bool :=
  state.processes[process]?.any fun process => !process.closed

/-- Writing to the pipe does not fail. -/
def writable (state : QueueState α) (process : QueueProcess α) : Bool :=
  process.writer && state.processes.any (·.reader)

/-- `_sem.release()` of a bounded semaphore, which raises when it is full; a timed call then
leaves `_rlock`. -/
def release (state : QueueState α) (number process : Nat) (after : CallStage α)
    (rlock : Bool) : QueueState α :=
  if state.sem < state.maxsize then
    { state.goTo number process after with sem := state.sem + 1, released := state.released + 1 }
  else { state.goTo number process .idle with rlock, faults := state.faults + 1 }

def callStep (state : QueueState α) (number process : Nat) :
    CallStage α → QueueStep α → Option (QueueState α)
  | .idle, .put _ obj mode =>
      if state.isOpen process then some (state.goTo number process (.putting obj mode)) else none
  | .putting obj _, .acquire _ =>
      if 0 < state.sem then
        some { state.goTo number process (.admitted obj) with sem := state.sem - 1 }
      else none
  | .putting _ mode, .full _ =>
      match mode with
      | .blocking => none
      | .timed => some (state.goTo number process .idle)
      | .nonblocking => if state.sem = 0 then some (state.goTo number process .idle) else none
  | .admitted obj, .append _ =>
      state.processes[process]?.map fun feeding =>
        { (state.goTo number process .idle).setProcess process (feeding.put obj) with
          accepted := state.accepted ++ [(process, obj)] }
  | .idle, .get _ mode =>
      if state.isOpen process then some (state.goTo number process (.getting mode)) else none
  | .getting mode, .lock _ =>
      if state.rlock then none
      else some { state.goTo number process (.reading mode) with rlock := true }
  | .getting mode, .empty _ =>
      match mode with
      | .blocking => none
      | .timed => some (state.goTo number process .idle)
      | .nonblocking => if state.rlock then some (state.goTo number process .idle) else none
  | .reading mode, .empty _ =>
      match mode with
      | .blocking => none
      | .timed => some { state.goTo number process .idle with rlock := false }
      | .nonblocking =>
          match state.pipe with
          | [] => some { state.goTo number process .idle with rlock := false }
          | _ :: _ => none
  | .reading mode, .receive _ =>
      if state.processes[process]?.any (·.reader) then
        match state.pipe with
        | [] => none
        | entry :: pipe =>
            some { state.goTo number process (.received entry.2 mode) with
              pipe, delivered := state.delivered ++ [entry] }
      else
        -- the connection is closed, and the call raises
        some { state.goTo number process .idle with rlock := false }
  | .received obj .blocking, .unlock _ =>
      some { state.goTo number process (.unlocked obj) with rlock := false }
  | .unlocked _, .release _ => some (state.release number process .idle state.rlock)
  | .received obj .timed, .release _ | .received obj .nonblocking, .release _ =>
      some (state.release number process (.released obj) false)
  | .released _, .unlock _ => some { state.goTo number process .idle with rlock := false }
  | .idle, .close _ =>
      -- no other thread of the process is reading from the connection that is closed
      if state.callers.any fun caller => caller.process = process && caller.stage.reads then none
      else state.processes[process]?.map fun closing =>
        (state.goTo number process .closing).setProcess process
          { closing with closed := true, reader := false }
  | .closing, .sentinel _ =>
      state.processes[process]?.map fun closing =>
        (state.goTo number process .idle).setProcess process
          (closing.finalizeClose (lane process state.accepted))
  | _, _ => none

/-- The objects can be pickled, and the pickles fit a message. -/
def feederStep (state : QueueState α) (number : Nat) (process : QueueProcess α) :
    QueueStep α → Option (QueueState α)
  | .wake _ =>
      match process.feeder, process.buffer with
      | .waiting, _ :: _ => some (state.setProcess number { process with feeder := .popping })
      | _, _ => none
  | .pop _ =>
      match process.feeder with
      | .popping => some (state.setProcess number process.pop)
      | _ => none
  | .lockPipe _ =>
      match process.feeder with
      | .holding obj =>
          if state.wlock then none
          else some { state.setProcess number { process with feeder := .sending obj } with
            wlock := true }
      | _ => none
  | .send _ =>
      match process.feeder with
      | .sending obj =>
          if state.writable process then
            some { state.setProcess number { process with feeder := .popping } with
              wlock := false, pipe := state.pipe ++ [(number, obj)] }
          else
            -- the exception ends the thread, and the object is gone
            some { state.setProcess number { process with feeder := .crashed } with
              wlock := false }
      | _ => none
  | _ => none

def step (state : QueueState α) (label : QueueStep α) : Option (QueueState α) :=
  match label with
  | .fork parent =>
      state.processes[parent]?.map fun process =>
        { state with processes := state.processes ++ [process.afterFork] }
  | .call process =>
      if process < state.processes.length then
        some { state with callers := state.callers ++ [⟨process, .idle⟩] }
      else none
  | .put number _ _ | .acquire number | .full number | .append number | .get number _
  | .lock number | .empty number | .receive number | .unlock number | .release number
  | .close number | .sentinel number =>
      state.callers[number]?.bind fun caller =>
        state.callStep number caller.process caller.stage label
  | .wake number | .pop number | .lockPipe number | .send number =>
      state.processes[number]?.bind fun process => state.feederStep number process label

end QueueState

end Billiard
