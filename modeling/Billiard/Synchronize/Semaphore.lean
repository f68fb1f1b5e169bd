import Billiard.Data.CInt
import Billiard.Data.Tally
import Billiard.Data.Transition
import Billiard.Synchronize.RLock
import Mathlib.Algebra.BigOperators.Group.List.Basic
import Mathlib.Algebra.Order.Ring.Int

/-! `semaphore.c` for what is not recursive, a `Semaphore`, `BoundedSemaphore` or `Lock`: `release`
looks at the value, and then posts. -/

namespace Billiard

open Transition

/-- The arguments of `SemLock`; `brokenGetvalue` is `HAVE_BROKEN_SEM_GETVALUE`. -/
structure SemaphoreSetting where
  value : Nat
  maxvalue : Nat
  semValueMax : Nat
  brokenGetvalue : Bool
deriving DecidableEq, Repr

inductive SemaphoreOutcome where
  | returned (result : Option Bool)
  /-- `semaphore or lock released too many times` -/
  | tooManyTimes
  /-- `sem_post` fails with `EOVERFLOW`. -/
  | overflow
  | interrupted
deriving DecidableEq, Repr

inductive SemaphorePoint where
  | outside (outcome : SemaphoreOutcome)
  | waiting (mode : AcquireMode)
  | passed
deriving DecidableEq, Repr

/-- `held` is the history of the thread: how often it has passed the semaphore and not posted
it again. -/
structure SemaphoreThread where
  point : SemaphorePoint
  held : Nat
deriving DecidableEq, Repr

/-- How far a `release` has come: it has let itself through the semaphore and will undo that, it
will post, or it has posted and will lower `count`. -/
inductive ReleasePoint where
  | probed
  | checked
  | posted
deriving DecidableEq, Repr

/-- The object in one process; `release` keeps the interpreter lock from its start to its end.
`hooked` tells whether `SemLock.__init__` made it, or what it is a copy of: the hook for forks is
registered there, and `__setstate__` registers none. -/
structure SemaphoreProcess where
  hooked : Bool
  count : Int32
  lastTid : Nat
  releasing : Option (Nat × ReleasePoint)
  threads : List SemaphoreThread
deriving DecidableEq, Repr

structure SharedSemaphore where
  value : Nat
  processes : List SemaphoreProcess
deriving DecidableEq, Repr

inductive SemaphoreAction where
  | acquire (mode : AcquireMode)
  | decrement
  | giveUp
  | interrupt
  | record
  | release
  | post
  | finish
  | fork
deriving DecidableEq, Repr

def SemaphorePoint.uncounted : SemaphorePoint → Nat
  | .passed => 1
  | .outside _ | .waiting _ => 0

def SemaphorePoint.isOutside : SemaphorePoint → Bool
  | .outside _ => true
  | .waiting _ | .passed => false

theorem SemaphorePoint.isOutside_iff {point : SemaphorePoint} :
    point.isOutside = true ↔ ∃ outcome, point = .outside outcome := by
  cases point <;> simp [isOutside]

namespace SemaphoreSetting

def semaphore (value semValueMax : Nat) (brokenGetvalue : Bool) : SemaphoreSetting :=
  ⟨value, semValueMax, semValueMax, brokenGetvalue⟩

def boundedSemaphore (value semValueMax : Nat) (brokenGetvalue : Bool) : SemaphoreSetting :=
  ⟨value, value, semValueMax, brokenGetvalue⟩

def lock (semValueMax : Nat) (brokenGetvalue : Bool) : SemaphoreSetting :=
  ⟨1, 1, semValueMax, brokenGetvalue⟩

/-- `sem_open` refuses a value above `SEM_VALUE_MAX`. -/
structure Valid (setting : SemaphoreSetting) : Prop where
  value_le : setting.value ≤ setting.maxvalue
  maxvalue_le : setting.maxvalue ≤ setting.semValueMax

end SemaphoreSetting

namespace SemaphoreProcess

/-- There may be as many threads in a process as it has places for. -/
def new (hooked : Bool) (lastTid threads : Nat) : SemaphoreProcess :=
  ⟨hooked, 0, lastTid, none, List.replicate threads ⟨.outside (.returned none), 0⟩⟩

/-- `ISMINE` -/
def isMine (process : SemaphoreProcess) (tid : Nat) : Bool :=
  0 < process.count && tid == process.lastTid

def move (process : SemaphoreProcess) (tid : Nat) (point : SemaphorePoint) (held : Nat) :
    SemaphoreProcess :=
  { process with threads := process.threads.set tid ⟨point, held⟩ }

/-- What `release` does before `sem_post`: it asks for the value, and where that is not to be had
it tries to pass a semaphore of one. -/
def check (setting : SemaphoreSetting) (value : Nat) (process : SemaphoreProcess) (tid : Nat)
    (held : Nat) : Nat × SemaphoreProcess :=
  if setting.brokenGetvalue then
    if setting.maxvalue = 1 then
      match value with
      | 0 => (0, { process with releasing := some (tid, .checked) })
      | value + 1 => (value, { process with releasing := some (tid, .probed) })
    else (value, { process with releasing := some (tid, .checked) })
  else if setting.maxvalue ≤ value then (value, process.move tid (.outside .tooManyTimes) held)
  else (value, { process with releasing := some (tid, .checked) })

/-- The operations of a thread on the semaphore and the object of its process. -/
def act (setting : SemaphoreSetting) (value : Nat) (process : SemaphoreProcess) (tid : Nat)
    (thread : SemaphoreThread) : SemaphoreAction → Option (Nat × SemaphoreProcess)
  | .acquire mode =>
      match process.releasing, thread.point with
      | none, .outside _ => some (value, process.move tid (.waiting mode) thread.held)
      | _, _ => none
  | .decrement =>
      match thread.point, value with
      | .waiting _, value + 1 => some (value, process.move tid .passed (thread.held + 1))
      | _, _ => none
  | .giveUp =>
      let gaveUp := process.move tid (.outside (.returned (some false))) thread.held
      match thread.point, value with
      | .waiting .trywait, 0 => some (0, gaveUp)
      | .waiting .timedwait, value => some (value, gaveUp)
      | _, _ => none
  | .interrupt =>
      match thread.point with
      | .waiting _ => some (value, process.move tid (.outside .interrupted) thread.held)
      | _ => none
  | .record =>
      match process.releasing, thread.point with
      | none, .passed =>
          some (value, { process with count := process.count + 1, lastTid := tid }.move tid
            (.outside (.returned (some true))) thread.held)
      | _, _ => none
  | .release =>
      match process.releasing, thread.point with
      | none, .outside _ => some (process.check setting value tid thread.held)
      | _, _ => none
  | .post =>
      match process.releasing with
      | some (releaser, .probed) =>
          if releaser = tid then
            let freed := { process with releasing := none }
            if value < setting.semValueMax then
              some (value + 1, freed.move tid (.outside .tooManyTimes) thread.held)
            else some (value, freed.move tid (.outside .overflow) thread.held)
          else none
      | some (releaser, .checked) =>
          if releaser = tid then
            if value < setting.semValueMax then
              some (value + 1, { process with releasing := some (tid, .posted) }.move tid
                thread.point (thread.held - 1))
            else some (value, { process with releasing := none }.move tid
              (.outside .overflow) thread.held)
          else none
      | _ => none
  | .finish =>
      if process.releasing = some (tid, .posted) then
        some (value, { process with count := process.count - 1, releasing := none }.move tid
          (.outside (.returned none)) thread.held)
      else none
  | .fork => none

/-- The object in a child once the hooks have run, of which `_after_fork` rezeroes `count`. -/
def forked (process : SemaphoreProcess) : SemaphoreProcess :=
  { new process.hooked process.lastTid process.threads.length with
    count := if process.hooked then 0 else process.count }

def fork (process : SemaphoreProcess) (thread : SemaphoreThread) : Option SemaphoreProcess :=
  match process.releasing, thread.point with
  | none, .outside _ => some process.forked
  | _, _ => none

/-- The threads that have passed the semaphore and are not counted yet. -/
def passed (process : SemaphoreProcess) : Nat :=
  tally (fun thread => thread.point.uncounted) process.threads

def held (process : SemaphoreProcess) : Nat := tally SemaphoreThread.held process.threads

/-- What a release has done to the semaphore that `count` does not show. -/
def owed : Option (Nat × ReleasePoint) → Int
  | some (_, .probed) => 1
  | some (_, .posted) => -1
  | some (_, .checked) | none => 0

/-- What the process has taken from the semaphore, less what it has given back. -/
def account (process : SemaphoreProcess) : Int :=
  process.count.toInt + process.passed + owed process.releasing

/-- Whether a release has looked at the semaphore and has yet to post it. -/
def pending (process : SemaphoreProcess) : Nat :=
  match process.releasing with
  | some (_, .probed) | some (_, .checked) => 1
  | _ => 0

end SemaphoreProcess

namespace SharedSemaphore

/-- The first process has made the semaphore, and the others have got it by `__setstate__`. -/
def init (setting : SemaphoreSetting) (processes threads : Nat) : SharedSemaphore :=
  ⟨setting.value, (List.range processes).map fun pid => .new (pid == 0) 0 threads⟩

def thread (state : SharedSemaphore) (pid tid : Nat) : Option SemaphoreThread :=
  state.processes[pid]?.bind fun process => process.threads[tid]?

def step (setting : SemaphoreSetting) (state : SharedSemaphore)
    (label : Nat × Nat × SemaphoreAction) : Option SharedSemaphore :=
  let (pid, tid, action) := label
  match state.processes[pid]?, state.thread pid tid with
  | some process, some thread =>
      match action with
      | .fork =>
          (process.fork thread).map fun child =>
            { state with processes := state.processes ++ [child] }
      | action =>
          (process.act setting state.value tid thread action).map fun (value, process) =>
            ⟨value, state.processes.set pid process⟩
  | _, _ => none

/-- How many releases are under way that have yet to post. -/
def pending (state : SharedSemaphore) : Nat := tally SemaphoreProcess.pending state.processes

def held (state : SharedSemaphore) : Nat := tally SemaphoreProcess.held state.processes

/-- What all processes have acquired and not released. -/
def account (state : SharedSemaphore) : Int := (state.processes.map SemaphoreProcess.account).sum

end SharedSemaphore

namespace SemaphoreProcess

variable {setting : SemaphoreSetting} {value left tid : Nat} {process after : SemaphoreProcess}
  {thread : SemaphoreThread} {action : SemaphoreAction}

/-- The value with which a `release` gets past its check. -/
def Admits (setting : SemaphoreSetting) (value : Nat) : Prop :=
  if setting.brokenGetvalue then setting.maxvalue = 1 → value = 0 else value < setting.maxvalue

/-- What an operation of a thread does, by what it does to the semaphore. -/
inductive Turn (setting : SemaphoreSetting) (process : SemaphoreProcess) (tid : Nat)
    (thread : SemaphoreThread) : SemaphoreAction → Nat → Nat → SemaphoreProcess → Prop where
  | call (mode : AcquireMode) (value : Nat) {outcome : SemaphoreOutcome}
      (free : process.releasing = none) (here : thread.point = .outside outcome) :
      Turn setting process tid thread (.acquire mode) value value
        (process.move tid (.waiting mode) thread.held)
  | pass (value : Nat) {mode : AcquireMode} (here : thread.point = .waiting mode) :
      Turn setting process tid thread .decrement (value + 1) value
        (process.move tid .passed (thread.held + 1))
  | giveUp {action : SemaphoreAction} (value : Nat) (outcome : SemaphoreOutcome)
      {mode : AcquireMode} (here : thread.point = .waiting mode)
      (call : action = .giveUp ∨ action = .interrupt)
      (well : outcome ≠ .tooManyTimes ∧ outcome ≠ .overflow) :
      Turn setting process tid thread action value value
        (process.move tid (.outside outcome) thread.held)
  | record (value : Nat) (free : process.releasing = none) (here : thread.point = .passed) :
      Turn setting process tid thread .record value value
        ({ process with count := process.count + 1, lastTid := tid }.move tid
          (.outside (.returned (some true))) thread.held)
  | refuse (value : Nat) {outcome : SemaphoreOutcome} (free : process.releasing = none)
      (here : thread.point = .outside outcome) (full : setting.maxvalue ≤ value) :
      Turn setting process tid thread .release value value
        (process.move tid (.outside .tooManyTimes) thread.held)
  | check (value : Nat) {outcome : SemaphoreOutcome} (free : process.releasing = none)
      (here : thread.point = .outside outcome) (admits : Admits setting value) :
      Turn setting process tid thread .release value value
        { process with releasing := some (tid, .checked) }
  | probe (value : Nat) {outcome : SemaphoreOutcome} (free : process.releasing = none)
      (here : thread.point = .outside outcome) (broken : setting.brokenGetvalue = true)
      (one : setting.maxvalue = 1) :
      Turn setting process tid thread .release (value + 1) value
        { process with releasing := some (tid, .probed) }
  | undo (value : Nat) (probed : process.releasing = some (tid, .probed)) :
      Turn setting process tid thread .post value (value + 1)
        ({ process with releasing := none }.move tid (.outside .tooManyTimes) thread.held)
  | post (value : Nat) (checked : process.releasing = some (tid, .checked)) :
      Turn setting process tid thread .post value (value + 1)
        ({ process with releasing := some (tid, .posted) }.move tid thread.point
          (thread.held - 1))
  | overflow (value : Nat) {point : ReleasePoint} (under : process.releasing = some (tid, point))
      (yet : point ≠ .posted) (full : setting.semValueMax ≤ value) :
      Turn setting process tid thread .post value value
        ({ process with releasing := none }.move tid (.outside .overflow) thread.held)
  | finish (value : Nat) (posted : process.releasing = some (tid, .posted)) :
      Turn setting process tid thread .finish value value
        ({ process with count := process.count - 1, releasing := none }.move tid
          (.outside (.returned none)) thread.held)

theorem act_turn (taken : process.act setting value tid thread action = some (left, after)) :
    Turn setting process tid thread action value left after := by
  cases action with
  | acquire mode =>
      simp only [act] at taken
      split at taken <;> cases taken
      exact .call mode value ‹_› ‹_›
  | decrement =>
      simp only [act] at taken
      split at taken <;> cases taken
      exact .pass left ‹_›
  | giveUp =>
      simp only [act] at taken
      split at taken <;> cases taken
      · exact .giveUp 0 _ ‹_› (.inl rfl) ⟨nofun, nofun⟩
      · exact .giveUp _ _ ‹_› (.inl rfl) ⟨nofun, nofun⟩
  | interrupt =>
      simp only [act] at taken
      split at taken <;> cases taken
      exact .giveUp _ _ ‹_› (.inr rfl) ⟨nofun, nofun⟩
  | record =>
      simp only [act] at taken
      split at taken <;> cases taken
      exact .record _ ‹_› ‹_›
  | release =>
      simp only [act] at taken
      split at taken
      · rename_i free here
        simp only [check] at taken
        split at taken
        · rename_i broken
          split at taken
          · rename_i one
            split at taken <;> cases taken
            · exact .check 0 free here (by simp [Admits, broken])
            · exact .probe _ free here broken one
          · rename_i other
            cases taken
            exact .check _ free here (by simp [Admits, broken, other])
        · rename_i sound
          split at taken <;> cases taken
          · exact .refuse _ free here ‹_›
          · rename_i below
            exact .check _ free here (by simpa [Admits, sound] using below)
      · cases taken
  | post =>
      simp only [act] at taken
      split at taken
      · rename_i under
        split at taken
        · rename_i same
          subst same
          split at taken <;> cases taken
          · exact .undo _ under
          · exact .overflow _ under nofun (Nat.le_of_not_lt ‹_›)
        · cases taken
      · rename_i under
        split at taken
        · rename_i same
          subst same
          split at taken <;> cases taken
          · exact .post _ under
          · exact .overflow _ under nofun (Nat.le_of_not_lt ‹_›)
        · cases taken
      · cases taken
  | finish =>
      simp only [act] at taken
      split at taken <;> cases taken
      exact .finish _ ‹_›
  | fork => cases taken

@[simp] theorem uncounted_passed : SemaphorePoint.passed.uncounted = 1 := rfl

@[simp] theorem uncounted_waiting (mode : AcquireMode) :
    (SemaphorePoint.waiting mode).uncounted = 0 := rfl

@[simp] theorem uncounted_outside (outcome : SemaphoreOutcome) :
    (SemaphorePoint.outside outcome).uncounted = 0 := rfl

theorem held_move (found : process.threads[tid]? = some thread) (point : SemaphorePoint)
    (held : Nat) : (process.move tid point held).held + thread.held = process.held + held :=
  Tally.tally_set SemaphoreThread.held found ⟨point, held⟩

theorem passed_move (found : process.threads[tid]? = some thread) (point : SemaphorePoint)
    (held : Nat) :
    (process.move tid point held).passed + thread.point.uncounted =
      process.passed + point.uncounted :=
  Tally.tally_set (fun thread => thread.point.uncounted) found ⟨point, held⟩

/-- Whoever is in `release` is in no other call. -/
def Resting (process : SemaphoreProcess) : Prop :=
  ∀ tid point, process.releasing = some (tid, point) →
    ∃ thread outcome, process.threads[tid]? = some thread ∧ thread.point = .outside outcome

/-- How an operation changes the numbers. -/
inductive Change (setting : SemaphoreSetting) (action : SemaphoreAction) (value left : Nat)
    (process after : SemaphoreProcess) : Prop where
  | none (same : left = value) (pending : after.pending = process.pending)
  | takes (value : value = left + 1) (pending : after.pending = process.pending)
  | admits (call : action = .release) (admits : Admits setting value) (same : left = value)
      (pending : process.pending = 0 ∧ after.pending = 1)
  | probes (call : action = .release) (value : value = left + 1)
      (pending : process.pending = 0 ∧ after.pending = 1)
  | posts (value : left = value + 1) (pending : process.pending = 1 ∧ after.pending = 0)
  | overflows (call : action = .post) (full : setting.semValueMax ≤ value) (same : left = value)
      (pending : process.pending = 1 ∧ after.pending = 0)

theorem Turn.change (turn : Turn setting process tid thread action value left after) :
    Change setting action value left process after := by
  cases turn with
  | call mode value free here => exact .none rfl rfl
  | pass value here => exact .takes rfl rfl
  | giveUp value outcome here call well => exact .none rfl rfl
  | record value free here => exact .none rfl rfl
  | refuse value free here full => exact .none rfl rfl
  | check value free here admits =>
      exact .admits rfl admits rfl ⟨by simp [pending, free], rfl⟩
  | probe value free here broken one =>
      exact .probes rfl rfl ⟨by simp [pending, free], rfl⟩
  | undo value probed => exact .posts rfl ⟨by simp [pending, probed], rfl⟩
  | post value checked => exact .posts rfl ⟨by simp [pending, checked], rfl⟩
  | @overflow value point under yet full =>
      refine .overflows rfl full rfl ⟨?_, rfl⟩
      cases point with
      | probed => simp [pending, under]
      | checked => simp [pending, under]
      | posted => exact absurd rfl yet
  | finish value posted => exact .none rfl (by simp [pending, posted, move])

/-- `count` stays in the range of a C `int`. -/
def Countable (process : SemaphoreProcess) : SemaphoreAction → Prop
  | .record => process.count ≠ Int32.maxValue
  | .finish => process.count ≠ Int32.minValue
  | .acquire _ | .decrement | .giveUp | .interrupt | .release | .post | .fork => True

instance (process : SemaphoreProcess) (action : SemaphoreAction) :
    Decidable (process.Countable action) := by
  unfold Countable
  cases action <;> infer_instance

theorem account_move (found : process.threads[tid]? = some thread) (point : SemaphorePoint)
    (held : Nat) :
    (process.move tid point held).account =
      process.account + point.uncounted - thread.point.uncounted := by
  have passed := passed_move found point held
  unfold account
  have count : (process.move tid point held).count = process.count := rfl
  have releasing : (process.move tid point held).releasing = process.releasing := rfl
  rw [count, releasing]
  omega

theorem account_update (process : SemaphoreProcess) (count : Int32) (lastTid : Nat)
    (releasing : Option (Nat × ReleasePoint)) :
    account ⟨process.hooked, count, lastTid, releasing, process.threads⟩ =
      process.account + (count.toInt - process.count.toInt) +
        (owed releasing - owed process.releasing) := by
  simp only [account, passed]
  omega

/-- What an operation takes from the semaphore is accounted for in its process. -/
theorem Turn.account (turn : Turn setting process tid thread action value left after)
    (found : process.threads[tid]? = some thread) (resting : process.Resting)
    (countable : process.Countable action) (posts : action = .post → value < setting.semValueMax) :
    (left : Int) + after.account = value + process.account := by
  have apart : ∀ point, process.releasing = some (tid, point) → thread.point.uncounted = 0 := by
    intro point under
    obtain ⟨_, outcome, here, outside⟩ := resting tid point under
    cases found.symm.trans here
    rw [outside]
    rfl
  cases turn with
  | call mode value free here => simp [account_move found, here]
  | pass value here =>
      rw [account_move found, here]
      simp only [uncounted_passed, uncounted_waiting]
      omega
  | giveUp value outcome here call well => simp [account_move found, here]
  | record value free here =>
      rw [account_move (by exact found), account_update, CInt.toInt_succ countable, here]
      simp
  | refuse value free here full => simp [account_move found, here]
  | check value free here admits => simp [account_update, free, owed]
  | probe value free here broken one =>
      simp only [account_update, free, owed]
      omega
  | undo value probed =>
      rw [account_move (by exact found), account_update, apart .probed probed, probed]
      simp only [owed, uncounted_outside]
      omega
  | post value checked =>
      rw [account_move (by exact found), account_update, checked]
      simp only [owed]
      omega
  | overflow value under yet full => exact absurd (posts rfl) (Nat.not_lt.mpr full)
  | finish value posted =>
      rw [account_move (by exact found), account_update, apart .posted posted, posted,
        CInt.toInt_pred countable]
      simp only [owed, uncounted_outside]
      omega

theorem passed_new (hooked : Bool) (lastTid threads : Nat) :
    (new hooked lastTid threads).passed = 0 := by
  refine Tally.tally_eq_zero fun thread member => ?_
  rw [List.eq_of_mem_replicate member]
  rfl

theorem account_new (hooked : Bool) (lastTid threads : Nat) :
    (new hooked lastTid threads).account = 0 := by
  rw [account, passed_new]
  rfl

/-- `count` is no more than what the child has acquired. -/
def Forkable (process : SemaphoreProcess) : Prop := process.hooked = true ∨ process.count = 0

instance (process : SemaphoreProcess) : Decidable process.Forkable :=
  inferInstanceAs (Decidable (process.hooked = true ∨ process.count = 0))

theorem account_forked (forkable : process.Forkable) : process.forked.account = 0 := by
  have zero : process.forked.count = 0 := by
    obtain hooked | zero := forkable
    · exact if_pos hooked
    · exact (ite_congr rfl (fun _ => rfl) fun _ => zero).trans (ite_self 0)
  have idle : process.forked.passed = 0 :=
    passed_new process.hooked process.lastTid process.threads.length
  rw [account, zero, idle]
  rfl

theorem resting_new (hooked : Bool) (lastTid threads : Nat) :
    (new hooked lastTid threads).Resting := nofun

theorem resting_forked (process : SemaphoreProcess) : process.forked.Resting := nofun

theorem Resting.of_free (free : process.releasing = none) : process.Resting := by
  intro tid point under
  rw [free] at under
  cases under

/-- A thread that waits is not the one in `release`. -/
theorem Resting.aside (resting : process.Resting) (found : process.threads[tid]? = some thread)
    {mode : AcquireMode} (here : thread.point = .waiting mode) (point : SemaphorePoint)
    (held : Nat) : (process.move tid point held).Resting := by
  intro releaser stage under
  obtain ⟨other, outcome, place, outside⟩ := resting releaser stage under
  refine ⟨other, outcome, ?_, outside⟩
  have different : tid ≠ releaser := by
    intro same
    subst same
    cases found.symm.trans place
    rw [here] at outside
    cases outside
  exact (List.getElem?_set_ne different).trans place

theorem Turn.resting (turn : Turn setting process tid thread action value left after)
    (found : process.threads[tid]? = some thread) (resting : process.Resting) :
    after.Resting := by
  have rests : ∀ {stage outcome}, thread.point = .outside outcome →
      Resting { process with releasing := some (tid, stage) } := by
    rintro stage outcome here _ _ ⟨⟩
    exact ⟨thread, outcome, found, here⟩
  cases turn with
  | call mode value free here => exact .of_free free
  | pass value here => exact resting.aside found here _ _
  | giveUp value outcome here call well => exact resting.aside found here _ _
  | record value free here => exact .of_free free
  | refuse value free here full => exact .of_free free
  | check value free here admits => exact rests here
  | probe value free here broken one => exact rests here
  | undo value probed => exact .of_free rfl
  | post value checked =>
      obtain ⟨_, outcome, here, outside⟩ := resting tid .checked checked
      cases found.symm.trans here
      rintro _ _ ⟨⟩
      exact ⟨_, outcome, Tally.getElem?_set_found found _, outside⟩
  | overflow value under yet full => exact .of_free rfl
  | finish value posted => exact .of_free rfl

end SemaphoreProcess

namespace SharedSemaphore

open SemaphoreProcess

variable {setting : SemaphoreSetting} {state next last : SharedSemaphore} {pid tid : Nat}
  {action : SemaphoreAction} {labels : List (Nat × Nat × SemaphoreAction)}

theorem step_cases (taken : step setting state (pid, tid, action) = some next) :
    ∃ process thread, state.processes[pid]? = some process ∧
      process.threads[tid]? = some thread ∧
      (action = .fork ∧ next = { state with
          processes := state.processes ++ [process.forked] } ∨
        ∃ value after, Turn setting process tid thread action state.value value after ∧
          next = ⟨value, state.processes.set pid after⟩) := by
  unfold step at taken
  simp only at taken
  split at taken
  · rename_i process thread found here
    have place : process.threads[tid]? = some thread := by simpa [SharedSemaphore.thread, found]
      using here
    refine ⟨process, thread, found, place, ?_⟩
    split at taken
    · obtain ⟨child, forked, rfl⟩ := Option.map_eq_some_iff.mp taken
      unfold fork at forked
      split at forked <;> cases forked
      exact .inl ⟨rfl, rfl⟩
    · obtain ⟨⟨value, after⟩, acted, rfl⟩ := Option.map_eq_some_iff.mp taken
      exact .inr ⟨value, after, act_turn acted, rfl⟩
  · cases taken

/-- An invariant of every process, which its own operations keep. -/
theorem forall_step {property : SemaphoreProcess → Prop}
    (forks : ∀ process, action = .fork → state.processes[pid]? = some process →
      property process.forked)
    (taken : step setting state (pid, tid, action) = some next)
    (all : ∀ process ∈ state.processes, property process)
    (kept : ∀ process thread value after, state.processes[pid]? = some process →
      process.threads[tid]? = some thread →
      Turn setting process tid thread action state.value value after → property process →
      property after) :
    ∀ process ∈ next.processes, property process := by
  obtain ⟨process, thread, found, here, ⟨call, rfl⟩ | turns⟩ := step_cases taken
  · rintro other member
    cases List.mem_append.mp member with
    | inl old => exact all other old
    | inr new =>
        rw [List.mem_singleton.mp new]
        exact forks process call found
  · obtain ⟨value, after, turn, rfl⟩ := turns
    intro other member
    cases List.mem_or_eq_of_mem_set member with
    | inl old => exact all other old
    | inr new =>
        rw [new]
        exact kept process thread value after found here turn
          (all process (List.mem_of_getElem? found))

def Resting (state : SharedSemaphore) : Prop := ∀ process ∈ state.processes, process.Resting

theorem Resting.step (taken : SharedSemaphore.step setting state (pid, tid, action) = some next)
    (resting : state.Resting) : next.Resting :=
  forall_step (fun process _ _ => resting_forked process) taken resting
    fun _ _ _ _ _ found turn rests => turn.resting found rests

theorem mem_init {threads processes : Nat} {process : SemaphoreProcess}
    (member : process ∈ (init setting processes threads).processes) :
    ∃ hooked, process = .new hooked 0 threads := by
  obtain ⟨pid, _, rfl⟩ := List.mem_map.mp member
  exact ⟨_, rfl⟩

theorem resting_init (setting : SemaphoreSetting) (processes threads : Nat) :
    (init setting processes threads).Resting := by
  intro process member
  obtain ⟨hooked, rfl⟩ := mem_init member
  exact resting_new hooked 0 threads

theorem account_set {value : Nat} {process after : SemaphoreProcess}
    (found : state.processes[pid]? = some process) :
    account ⟨value, state.processes.set pid after⟩ + process.account =
      state.account + after.account := by
  obtain ⟨within, rfl⟩ := List.getElem?_eq_some_iff.mp found
  have sum := List.sum_set' (state.processes.map SemaphoreProcess.account) pid after.account
  rw [dif_pos (by simpa using within), List.getElem_map] at sum
  simp only [account, List.map_set, sum]
  omega

/-- How a step changes the numbers of the whole. -/
theorem step_change (taken : step setting state (pid, tid, action) = some next) :
    next.value = state.value ∧ next.pending = state.pending ∧
        state.processes.length ≤ next.processes.length ∨
      ∃ process after, Change setting action state.value next.value process after ∧
        next.pending + process.pending = state.pending + after.pending ∧
        next.processes.length = state.processes.length := by
  obtain ⟨process, thread, found, here, forks | turns⟩ := step_cases taken
  · obtain ⟨_, rfl⟩ := forks
    refine .inl ⟨rfl, ?_, ?_⟩
    · simp [pending, SemaphoreProcess.pending, SemaphoreProcess.forked, SemaphoreProcess.new]
    · simp
  · obtain ⟨value, after, turn, rfl⟩ := turns
    exact .inr ⟨process, after, turn.change,
      Tally.tally_set SemaphoreProcess.pending found after, List.length_set⟩

/-- Fewer than `k` releases are between their check and `sem_post` when another one starts. -/
def Overlap (k : Nat) (state : SharedSemaphore) (label : Nat × Nat × SemaphoreAction) : Prop :=
  label.2.2 = .release → state.pending < k

theorem pending_lt {k : Nat} (checks : setting.brokenGetvalue = true → setting.maxvalue = 1)
    (overlap : Overlap k state (pid, tid, action))
    (taken : step setting state (pid, tid, action) = some next)
    (below : state.value + state.pending < setting.maxvalue + k) :
    next.value + next.pending < setting.maxvalue + k := by
  obtain ⟨value, pending, _⟩ | ⟨process, after, change, pending, _⟩ := step_change taken
  · rw [value, pending]
    exact below
  cases change with
  | none same pends => omega
  | takes value pends => omega
  | admits call admits same pends =>
      have few := overlap call
      have low : state.value < setting.maxvalue := by
        unfold Admits at admits
        split at admits
        · rename_i broken
          have one := checks broken
          have zero := admits one
          omega
        · exact admits
      omega
  | probes call value pends => omega
  | posts value pends => omega
  | overflows call full same pends => omega

theorem pending_init (setting : SemaphoreSetting) (processes threads : Nat) :
    (init setting processes threads).pending = 0 := by
  refine Tally.tally_eq_zero fun process member => ?_
  obtain ⟨hooked, rfl⟩ := mem_init member
  rfl

/-- The value exceeds `maxvalue` by less than the number of releases that overlap. -/
theorem value_lt_of_overlap {processes threads k : Nat} (valid : setting.Valid)
    (checks : setting.brokenGetvalue = true → setting.maxvalue = 1) (positive : 0 < k)
    (ran : run (step setting) (init setting processes threads) labels = some last)
    (along : Along (step setting) (Overlap k) (init setting processes threads) labels) :
    last.value < setting.maxvalue + k := by
  have kept : Preserves (step setting) (Overlap k) fun state =>
      state.value + state.pending < setting.maxvalue + k := by
    rintro state ⟨pid, tid, action⟩ next below overlap taken
    exact pending_lt checks overlap taken below
  have start := pending_init setting processes threads
  have below : setting.value + (init setting processes threads).pending < setting.maxvalue + k := by
    have low := valid.value_le
    omega
  have bound := invariant_along kept below along ran
  omega

theorem pending_le (process : SemaphoreProcess) : process.pending ≤ 1 := by
  unfold SemaphoreProcess.pending
  split <;> decide

/-- The process in which a release starts has no other one under way. -/
theorem overlap_of_step (taken : step setting state (pid, tid, action) = some next) :
    Overlap state.processes.length state (pid, tid, action) := by
  rintro rfl
  obtain ⟨process, thread, found, _, ⟨impossible, _⟩ | ⟨value, after, turn, _⟩⟩ :=
    step_cases taken
  · cases impossible
  have free : process.releasing = none := by
    generalize state.value = before at turn
    cases turn with
    | giveUp value outcome here call well => obtain call | call := call <;> cases call
    | refuse value free here full => exact free
    | check value free here admits => exact free
    | probe value free here broken one => exact free
  have none_ : process.pending = 0 := by simp [SemaphoreProcess.pending, free]
  have more := Tally.tally_set SemaphoreProcess.pending found
    { process with releasing := some (tid, .checked) }
  have few := Tally.tally_le_length pending_le
    (state.processes.set pid { process with releasing := some (tid, .checked) })
  rw [none_, show SemaphoreProcess.pending { process with releasing := _ } = 1 from rfl] at more
  rw [List.length_set] at few
  simp only [pending]
  omega

/-- `release` keeps the interpreter lock, so that at most one is under way in a process. -/
theorem value_lt_processes {processes threads : Nat} (valid : setting.Valid)
    (checks : setting.brokenGetvalue = true → setting.maxvalue = 1) (positive : 0 < processes)
    (ran : run (step setting) (init setting processes threads) labels = some last) :
    last.value < setting.maxvalue + last.processes.length := by
  have kept : ∀ state label next,
      state.value + state.pending < setting.maxvalue + state.processes.length →
      step setting state label = some next →
      next.value + next.pending < setting.maxvalue + next.processes.length := by
    rintro state ⟨pid, tid, action⟩ next below taken
    have below := pending_lt checks (overlap_of_step taken) taken below
    obtain ⟨_, _, longer⟩ | ⟨_, _, _, _, same⟩ := step_change taken <;> omega
  have start := pending_init setting processes threads
  have below : setting.value + (init setting processes threads).pending <
      setting.maxvalue + (init setting processes threads).processes.length := by
    have low := valid.value_le
    simp only [init, List.length_map, List.length_range] at start ⊢
    omega
  have bound := invariant_run kept below ran
  omega

/-- Two processes that release a `BoundedSemaphore` at once, of which one has acquired it. -/
def rivalReleases : List (Nat × Nat × SemaphoreAction) :=
  [(0, 0, .acquire .wait), (0, 0, .decrement), (0, 0, .record), (0, 0, .release),
    (1, 0, .release), (0, 0, .post), (1, 0, .post)]

theorem value_lt_processes_rivals :
    ∃ last, run (step (.boundedSemaphore 1 9 false)) (init (.boundedSemaphore 1 9 false) 2 1)
        rivalReleases = some last ∧ last.value = 2 ∧ last.value < 1 + last.processes.length := by
  have ran : run (step (.boundedSemaphore 1 9 false)) (init (.boundedSemaphore 1 9 false) 2 1)
    rivalReleases = some _ := rfl
  exact ⟨_, ran, rfl, value_lt_processes ⟨by decide, by decide⟩ (fun _ => rfl) (by decide) ran⟩

/-- No `sem_post` fails. -/
def Postable (setting : SemaphoreSetting) (state : SharedSemaphore)
    (label : Nat × Nat × SemaphoreAction) : Prop :=
  label.2.2 = .post → state.value < setting.semValueMax

instance (setting : SemaphoreSetting) (state : SharedSemaphore)
    (label : Nat × Nat × SemaphoreAction) : Decidable (Postable setting state label) :=
  inferInstanceAs (Decidable (label.2.2 = .post → state.value < setting.semValueMax))

/-- A process forks with the hook that rezeroes `count`, or with nothing counted. -/
def Forks (state : SharedSemaphore) (label : Nat × Nat × SemaphoreAction) : Prop :=
  label.2.2 = .fork → ∀ process ∈ state.processes[label.1]?, process.Forkable

instance (state : SharedSemaphore) (label : Nat × Nat × SemaphoreAction) :
    Decidable (Forks state label) :=
  inferInstanceAs (Decidable (label.2.2 = .fork →
    ∀ process ∈ state.processes[label.1]?, process.Forkable))

/-- No process comes to the end of its `count`. -/
def Counts (state : SharedSemaphore) (label : Nat × Nat × SemaphoreAction) : Prop :=
  ∀ process ∈ state.processes[label.1]?, process.Countable label.2.2

instance (state : SharedSemaphore) (label : Nat × Nat × SemaphoreAction) :
    Decidable (Counts state label) :=
  inferInstanceAs (Decidable (∀ process ∈ state.processes[label.1]?, process.Countable label.2.2))

/-- No thread is in a call. -/
def Quiet (state : SharedSemaphore) : Prop :=
  ∀ process ∈ state.processes, process.releasing = none ∧
    ∀ thread ∈ process.threads, ∃ outcome, thread.point = .outside outcome

instance (state : SharedSemaphore) : Decidable state.Quiet :=
  decidable_of_iff (∀ process ∈ state.processes, process.releasing = none ∧
      ∀ thread ∈ process.threads, thread.point.isOutside = true) <| by
    simp only [Quiet, SemaphorePoint.isOutside_iff]

theorem Quiet.account_eq (quiet : state.Quiet) {process : SemaphoreProcess}
    (member : process ∈ state.processes) : process.account = process.count.toInt := by
  obtain ⟨free, outside⟩ := quiet process member
  have idle : process.passed = 0 := by
    refine Tally.tally_eq_zero fun thread member => ?_
    obtain ⟨outcome, here⟩ := outside thread member
    rw [here]
    rfl
  simp [SemaphoreProcess.account, idle, free, owed]

theorem account_step (resting : state.Resting) (forks : Forks state (pid, tid, action))
    (counts : Counts state (pid, tid, action)) (posts : Postable setting state (pid, tid, action))
    (taken : step setting state (pid, tid, action) = some next) :
    (next.value : Int) + next.account = state.value + state.account := by
  obtain ⟨process, thread, found, here, ⟨call, rfl⟩ | ⟨value, after, turn, rfl⟩⟩ := step_cases taken
  · have nothing := account_forked (forks call process found)
    simp [account, nothing]
  · have own := turn.account here (resting process (List.mem_of_getElem? found))
      (counts process found) posts
    have sum : SharedSemaphore.account ⟨value, state.processes.set pid after⟩ +
        process.account = state.account + after.account := account_set found
    simp only at own ⊢
    omega

theorem account_init (setting : SemaphoreSetting) (processes threads : Nat) :
    (init setting processes threads).account = 0 := by
  refine List.sum_eq_zero fun number member => ?_
  obtain ⟨process, listed, rfl⟩ := List.mem_map.mp member
  obtain ⟨hooked, rfl⟩ := mem_init listed
  exact account_new ..

theorem account_run {processes threads : Nat}
    (ran : run (step setting) (init setting processes threads) labels = some last)
    (posts : Along (step setting) (Postable setting) (init setting processes threads) labels)
    (forks : Along (step setting) Forks (init setting processes threads) labels)
    (counts : Along (step setting) Counts (init setting processes threads) labels) :
    last.value + last.account = setting.value := by
  have kept : Preserves (step setting) (fun state label => (Postable setting state label ∧
      Forks state label) ∧ Counts state label) fun state =>
      state.Resting ∧ state.value + state.account = (setting.value : Int) := by
    rintro state ⟨pid, tid, action⟩ next ⟨resting, balance⟩ ⟨⟨posts, forks⟩, counts⟩ taken
    exact ⟨resting.step taken, (account_step resting forks counts posts taken).trans balance⟩
  have balance : ((init setting processes threads).value : Int) +
      (init setting processes threads).account = setting.value := by
    rw [account_init, Int.add_zero]
    rfl
  exact (invariant_along kept ⟨resting_init setting processes threads, balance⟩
    ((posts.and forks).and counts) ran).2

/-- Whatever the calls and whoever makes them, the value is the first one less what the processes
together count as acquired. -/
theorem value_eq_of_quiet {processes threads : Nat}
    (ran : run (step setting) (init setting processes threads) labels = some last)
    (posts : Along (step setting) (Postable setting) (init setting processes threads) labels)
    (forks : Along (step setting) Forks (init setting processes threads) labels)
    (counts : Along (step setting) Counts (init setting processes threads) labels)
    (quiet : last.Quiet) :
    last.value + (last.processes.map fun process => process.count.toInt).sum =
      (setting.value : Int) := by
  have counted : (last.processes.map fun process => process.count.toInt) =
      last.processes.map SemaphoreProcess.account :=
    List.map_congr_left fun process member => (quiet.account_eq member).symm
  rw [counted]
  exact account_run ran posts forks counts

/-- Two processes release at once what one of them has acquired, which forks before that. -/
def rivalAndChild : List (Nat × Nat × SemaphoreAction) :=
  rivalReleases.take 3 ++ [(0, 0, .fork)] ++ rivalReleases.drop 3 ++
    [(0, 0, .finish), (1, 0, .finish)]

theorem value_eq_of_quiet_rivals :
    ∃ last, run (step (.boundedSemaphore 1 9 false)) (init (.boundedSemaphore 1 9 false) 2 1)
        rivalAndChild = some last ∧ last.processes.length = 3 ∧
      last.value + (last.processes.map fun process => process.count.toInt).sum = (1 : Int) := by
  have ran : run (step (.boundedSemaphore 1 9 false)) (init (.boundedSemaphore 1 9 false) 2 1)
    rivalAndChild = some _ := rfl
  exact ⟨_, ran, rfl, value_eq_of_quiet ran (by decide) (by decide) (by decide) (by decide)⟩

end SharedSemaphore

end Billiard
