import Billiard.Data.CInt
import Billiard.Data.Tally
import Billiard.Data.Transition
import Billiard.Synchronize.SemLock
import Mathlib.Logic.Function.Basic

/-! `semaphore.c` for a recursive lock: every process has its own `count` and
`last_tid`, and all share one semaphore. -/

namespace Billiard

open Transition

/-- How `acquire` was called: `block` and `timeout` choose between `sem_wait`,
`sem_trywait` and `sem_timedwait`. -/
inductive AcquireMode where
  | wait
  | trywait
  | timedwait
deriving DecidableEq, Repr

inductive LockOutcome where
  | returned (result : Option Bool)
  | raised (error : SemError)
  | interrupted
deriving DecidableEq, Repr

/-- Where a thread stands: out of the methods, with the outcome of its last call,
in a `sem_wait` without the interpreter lock, or behind it. -/
inductive ThreadPoint where
  | outside (outcome : LockOutcome)
  | waiting (mode : AcquireMode)
  | passed
deriving DecidableEq, Repr

/-- `depth` is the history of the thread: the acquisitions it has not released. -/
structure LockThread where
  point : ThreadPoint
  depth : Nat
deriving DecidableEq, Repr

/-- `posting` is the thread in `release` that has called `sem_post` and holds the
interpreter lock until `count` is lowered. -/
structure LockProcess where
  count : Int32
  lastTid : Nat
  posting : Option Nat
  threads : Nat → LockThread

structure RLock where
  semaphore : Nat
  processes : List LockProcess

inductive LockAction where
  | acquire (mode : AcquireMode)
  | decrement
  | giveUp
  | interrupt
  | record
  | release
  | finish
  | fork
deriving DecidableEq, Repr

namespace LockProcess

def new (lastTid : Nat) : LockProcess where
  count := 0
  lastTid
  posting := none
  threads := fun _ => ⟨.outside (.returned none), 0⟩

/-- `ISMINE` -/
def isMine (process : LockProcess) (tid : Nat) : Bool :=
  0 < process.count && tid == process.lastTid

def move (process : LockProcess) (tid : Nat) (point : ThreadPoint) (depth : Nat) : LockProcess :=
  { process with threads := Function.update process.threads tid ⟨point, depth⟩ }

/-- The operations of a thread on the semaphore and the object of its process. -/
def act (semaphore : Nat) (process : LockProcess) (tid : Nat) :
    LockAction → Option (Nat × LockProcess)
  | .acquire mode =>
      match process.posting, (process.threads tid).point with
      | none, .outside _ =>
          let depth := (process.threads tid).depth
          if process.isMine tid then
            some (semaphore, { process with count := process.count + 1 }.move tid
              (.outside (.returned (some true))) (depth + 1))
          else some (semaphore, process.move tid (.waiting mode) depth)
      | _, _ => none
  | .decrement =>
      match (process.threads tid).point, semaphore with
      | .waiting _, semaphore + 1 =>
          some (semaphore, process.move tid .passed ((process.threads tid).depth + 1))
      | _, _ => none
  | .giveUp =>
      let depth := (process.threads tid).depth
      let gaveUp := process.move tid (.outside (.returned (some false))) depth
      match (process.threads tid).point, semaphore with
      | .waiting .trywait, 0 => some (0, gaveUp)
      | .waiting .timedwait, semaphore => some (semaphore, gaveUp)
      | _, _ => none
  | .interrupt =>
      match (process.threads tid).point with
      | .waiting _ => some (semaphore,
          process.move tid (.outside .interrupted) (process.threads tid).depth)
      | _ => none
  | .record =>
      match process.posting, (process.threads tid).point with
      | none, .passed =>
          some (semaphore, { process with count := process.count + 1, lastTid := tid }.move tid
            (.outside (.returned (some true))) (process.threads tid).depth)
      | _, _ => none
  | .release =>
      match process.posting, (process.threads tid).point with
      | none, .outside _ =>
          let depth := (process.threads tid).depth
          if !process.isMine tid then
            some (semaphore, process.move tid (.outside (.raised (.assertionError
              "attempt to release recursive lock not owned by thread"))) depth)
          else if 1 < process.count then
            some (semaphore, { process with count := process.count - 1 }.move tid
              (.outside (.returned none)) (depth - 1))
          else
            some (semaphore + 1, { process with posting := some tid }.move tid
              (process.threads tid).point (depth - 1))
      | _, _ => none
  | .finish =>
      if process.posting = some tid then
        some (semaphore, { process with count := process.count - 1, posting := none }.move tid
          (.outside (.returned none)) (process.threads tid).depth)
      else none
  | .fork => none

/-- The object in the child once `_after_fork` has rezeroed its count; only the
thread that forks is there. -/
def fork (process : LockProcess) (tid : Nat) : Option LockProcess :=
  match process.posting, (process.threads tid).point with
  | none, .outside _ => some (.new process.lastTid)
  | _, _ => none

def answer (process : LockProcess) (tid : Nat) (outcome : LockOutcome) : LockProcess :=
  process.move tid (.outside outcome) (process.threads tid).depth

/-- `++count` leads to the next number for an owner that acquires again. -/
def Countable (process : LockProcess) (tid : Nat) : LockAction → Prop
  | .acquire _ => process.isMine tid = true → process.count ≠ Int32.maxValue
  | .decrement | .giveUp | .interrupt | .record | .release | .finish | .fork => True

instance (process : LockProcess) (tid : Nat) (action : LockAction) :
    Decidable (process.Countable tid action) := by
  unfold Countable
  cases action <;> infer_instance

/-- The thread has passed the semaphore and not posted it. -/
def Owns (process : LockProcess) (tid : Nat) : Prop :=
  (process.threads tid).point = .passed ∨ process.posting = none ∧ process.isMine tid = true

end LockProcess

namespace RLock

def init (processes : Nat) : RLock := ⟨1, List.replicate processes (.new 0)⟩

def step (lock : RLock) (label : Nat × Nat × LockAction) : Option RLock :=
  let (pid, tid, action) := label
  match lock.processes[pid]? with
  | none => none
  | some process =>
      match action with
      | .fork =>
          (process.fork tid).map fun child =>
            { lock with processes := lock.processes ++ [child] }
      | action =>
          (process.act lock.semaphore tid action).map fun (semaphore, process) =>
            ⟨semaphore, lock.processes.set pid process⟩

/-- No owner acquires with `INT_MAX` in its `count`. -/
def Countable (lock : RLock) (label : Nat × Nat × LockAction) : Prop :=
  ∀ process ∈ lock.processes[label.1]?, process.Countable label.2.1 label.2.2

instance (lock : RLock) (label : Nat × Nat × LockAction) : Decidable (lock.Countable label) :=
  inferInstanceAs (Decidable (∀ process ∈ lock.processes[label.1]?,
    process.Countable label.2.1 label.2.2))

def Owns (lock : RLock) (pid tid : Nat) : Prop :=
  ∃ process, lock.processes[pid]? = some process ∧ process.Owns tid

def depth (lock : RLock) (pid tid : Nat) : Nat :=
  match lock.processes[pid]? with
  | none => 0
  | some process => (process.threads tid).depth

def point (lock : RLock) (pid tid : Nat) : Option ThreadPoint :=
  lock.processes[pid]?.map fun process => (process.threads tid).point

/-- The call has ended, and nothing else has changed. -/
def answer (lock : RLock) (pid tid : Nat) (outcome : LockOutcome) : RLock :=
  { lock with processes := lock.processes.modify pid fun process => process.answer tid outcome }

end RLock

namespace LockProcess

variable {process after : LockProcess} {semaphore left : Nat} {tid : Nat} {action : LockAction}
  {owner : Option Nat}

theorem threads_move (process : LockProcess) (tid : Nat) (point : ThreadPoint) (depth other : Nat) :
    (process.move tid point depth).threads other =
      if other = tid then ⟨point, depth⟩ else process.threads other :=
  Function.update_apply process.threads tid _ other

/-- Nobody is recorded in the object, or the one who was has already posted. -/
def Idle (process : LockProcess) : Prop :=
  process.posting = none ∧ process.count = 0 ∨
    ∃ tid outcome, process.posting = some tid ∧ process.count = 1 ∧
      (process.threads tid).point = .outside outcome

/-- What a process looks like while `owner`, one of its threads, owns the lock. -/
structure Fits (process : LockProcess) (owner : Option Nat) : Prop where
  others : ∀ tid, owner ≠ some tid →
    (process.threads tid).point ≠ .passed ∧ (process.threads tid).depth = 0
  idle : owner = none → process.Idle
  owned : ∀ tid, owner = some tid →
    (process.threads tid).point = .passed ∧ (process.threads tid).depth = 1 ∧ process.Idle ∨
      (∃ outcome, (process.threads tid).point = .outside outcome) ∧ process.posting = none ∧
        process.lastTid = tid ∧ process.count.toInt = (process.threads tid).depth ∧
          0 < process.count.toInt

theorem fits_new (lastTid : Nat) : (new lastTid).Fits none :=
  ⟨fun _ _ => ⟨nofun, rfl⟩, fun _ => .inl ⟨rfl, rfl⟩, nofun⟩

theorem isMine_iff :
    process.isMine tid = true ↔ 0 < process.count.toInt ∧ tid = process.lastTid := by
  simp [isMine, CInt.pos_iff]

theorem Idle.not_mine (idle : process.Idle) (posting : process.posting = none) :
    process.isMine tid = false := by
  obtain ⟨_, zero⟩ | ⟨_, _, posted, _⟩ := idle
  · simp [isMine, zero]
  · rw [posting] at posted
    cases posted

theorem Idle.aside (idle : process.Idle) {point : ThreadPoint} {depth : Nat}
    (free : process.posting ≠ some tid) : (process.move tid point depth).Idle := by
  obtain ⟨posting, zero⟩ | ⟨posted, outcome, posting, one, outside⟩ := idle
  · exact .inl ⟨posting, zero⟩
  · refine .inr ⟨posted, outcome, posting, one, ?_⟩
    have different : posted ≠ tid := fun same => free (same ▸ posting)
    rw [threads_move, if_neg different]
    exact outside

/-- Whoever is posting is out of the methods, and `count` is lowered after it. -/
theorem Idle.posting (idle : process.Idle) (posted : process.posting = some tid) :
    process.count = 1 ∧ ∃ outcome, (process.threads tid).point = .outside outcome := by
  obtain ⟨nobody, _⟩ | ⟨someone, outcome, posting, one, outside⟩ := idle
  · rw [nobody] at posted
    cases posted
  · rw [posting] at posted
    cases posted
    exact ⟨one, outcome, outside⟩

/-- The thread that the object names is the owner, with its depth in `count`. -/
theorem Fits.of_mine (fits : process.Fits owner) (posting : process.posting = none)
    (mine : process.isMine tid = true) :
    owner = some tid ∧ process.count.toInt = (process.threads tid).depth ∧
      ∃ outcome, (process.threads tid).point = .outside outcome := by
  cases owner with
  | none =>
      rw [(fits.idle rfl).not_mine posting] at mine
      cases mine
  | some holder =>
      obtain ⟨_, _, idle⟩ | ⟨outside, _, last, counted, _⟩ := fits.owned holder rfl
      · rw [idle.not_mine posting] at mine
        cases mine
      · obtain rfl : tid = holder := (isMine_iff.mp mine).2.trans last
        exact ⟨rfl, counted, outside⟩

theorem Fits.owns_iff (fits : process.Fits owner) : process.Owns tid ↔ owner = some tid := by
  constructor
  · intro owns
    cases owns with
    | inl passed =>
        apply Decidable.byContradiction
        intro other
        exact (fits.others tid other).1 passed
    | inr mine => exact (fits.of_mine mine.1 mine.2).1
  · intro same
    obtain ⟨passed, _⟩ | ⟨_, posting, last, _, positive⟩ := fits.owned tid same
    · exact .inl passed
    · exact .inr ⟨posting, isMine_iff.mpr ⟨positive, last.symm⟩⟩

theorem Fits.depth_pos_iff (fits : process.Fits owner) :
    0 < (process.threads tid).depth ↔ owner = some tid := by
  constructor
  · intro deep
    apply Decidable.byContradiction
    intro other
    have shallow := (fits.others tid other).2
    omega
  · intro same
    obtain ⟨_, depth, _⟩ | ⟨_, _, _, counted, positive⟩ := fits.owned tid same
    · omega
    · omega

/-- What an operation does to the ownership of the lock. -/
inductive Turn (semaphore : Nat) (process : LockProcess) (owner : Option Nat) (tid : Nat)
    (action : LockAction) (left : Nat) (after : LockProcess) : Prop where
  | kept (same : left = semaphore) (fits : after.Fits owner)
  | taken (call : action = .decrement) (free : owner = none) (value : semaphore = left + 1)
      (fits : after.Fits (some tid))
  | passedOn (call : action = .release) (mine : owner = some tid)
      (outermost : (process.threads tid).depth = 1) (value : left = semaphore + 1)
      (fits : after.Fits none)

/-- A thread that stays out of the way changes neither the object nor a depth. -/
theorem Fits.aside (fits : process.Fits owner) {point : ThreadPoint}
    (other : owner ≠ some tid) (moves : point ≠ .passed)
    (free : process.posting ≠ some tid) :
    (process.move tid point (process.threads tid).depth).Fits owner := by
  constructor
  · intro someone ne
    rw [threads_move]
    split
    · rename_i same
      exact ⟨moves, same ▸ (fits.others tid other).2⟩
    · exact fits.others someone ne
  · exact fun nobody => (fits.idle nobody).aside free
  · intro holder same
    have different : holder ≠ tid := fun equal => other (equal ▸ same)
    rw [threads_move, if_neg different]
    obtain ⟨passed, depth, idle⟩ | recorded := fits.owned holder same
    · exact .inl ⟨passed, depth, idle.aside free⟩
    · exact .inr recorded

theorem Fits.waiting (fits : process.Fits owner) {mode : AcquireMode}
    (here : (process.threads tid).point = .waiting mode) :
    owner ≠ some tid ∧ process.posting ≠ some tid := by
  have apart : process.Idle → process.posting ≠ some tid := by
    intro idle posted
    obtain ⟨_, outcome, outside⟩ := idle.posting posted
    rw [here] at outside
    cases outside
  cases owner with
  | none => exact ⟨nofun, apart (fits.idle rfl)⟩
  | some holder =>
      obtain ⟨passed, _, idle⟩ | ⟨⟨outcome, outside⟩, posting, _⟩ := fits.owned holder rfl
      · refine ⟨?_, apart idle⟩
        rintro ⟨⟩
        rw [here] at passed
        cases passed
      · refine ⟨?_, by rw [posting]; nofun⟩
        rintro ⟨⟩
        rw [here] at outside
        cases outside

theorem Fits.stranger (fits : process.Fits owner) {outcome : LockOutcome}
    (here : (process.threads tid).point = .outside outcome)
    (other : process.isMine tid = false) : owner ≠ some tid := by
  intro same
  obtain ⟨passed, _⟩ | ⟨_, _, last, _, positive⟩ := fits.owned tid same
  · rw [here] at passed
    cases passed
  · rw [isMine_iff.mpr ⟨positive, last.symm⟩] at other
    cases other

theorem fits_recorded (process : LockProcess)
    (alone : ∀ someone, someone ≠ tid →
      (process.threads someone).point ≠ .passed ∧ (process.threads someone).depth = 0)
    (posting : process.posting = none) (last : process.lastTid = tid) {depth : Nat}
    (counted : process.count.toInt = depth) (positive : 0 < depth) (outcome : LockOutcome) :
    (process.move tid (.outside outcome) depth).Fits (some tid) := by
  constructor
  · intro someone ne
    have different : someone ≠ tid := fun same => ne (congrArg some same.symm)
    rw [threads_move, if_neg different]
    exact alone someone different
  · nofun
  · rintro _ ⟨⟩
    rw [threads_move, if_pos rfl]
    refine .inr ⟨⟨outcome, rfl⟩, posting, last, counted, ?_⟩
    show 0 < process.count.toInt
    omega

theorem Fits.alone (fits : process.Fits (some tid)) :
    ∀ someone, someone ≠ tid →
      (process.threads someone).point ≠ .passed ∧ (process.threads someone).depth = 0 :=
  fun someone different =>
    fits.others someone fun same => different (Option.some.inj same).symm

/-- The one who gets through the semaphore is not recorded yet. -/
theorem Fits.passes (fits : process.Fits none) (free : process.posting ≠ some tid) :
    (process.move tid .passed ((process.threads tid).depth + 1)).Fits (some tid) := by
  refine ⟨?_, nofun, ?_⟩
  · intro someone ne
    have different : someone ≠ tid := fun same => ne (congrArg some same.symm)
    rw [threads_move, if_neg different]
    exact fits.others someone nofun
  · rintro _ ⟨⟩
    rw [threads_move, if_pos rfl, (fits.others tid nofun).2]
    exact .inl ⟨rfl, rfl, (fits.idle rfl).aside free⟩

/-- The lock is free from `sem_post` on, with the old owner still recorded. -/
theorem Fits.posts (fits : process.Fits (some tid)) {outcome : LockOutcome}
    (here : (process.threads tid).point = .outside outcome) (once : process.count = 1)
    (outermost : (process.threads tid).depth = 1) :
    ({ process with posting := some tid }.move tid (process.threads tid).point
      ((process.threads tid).depth - 1)).Fits none := by
  refine ⟨?_, ?_, nofun⟩
  · intro someone _
    rw [threads_move]
    split
    · exact ⟨by rw [here]; nofun, by rw [outermost]⟩
    · rename_i different
      exact fits.alone someone different
  · intro _
    refine .inr ⟨tid, outcome, rfl, once, ?_⟩
    rw [threads_move, if_pos rfl]
    exact here

theorem Fits.finishes (fits : process.Fits owner) {outcome : LockOutcome}
    (posted : process.posting = some tid) :
    ({ process with count := process.count - 1, posting := none }.move tid (.outside outcome)
      (process.threads tid).depth).Fits owner := by
  have idled : process.Idle →
      ({ process with count := process.count - 1, posting := none }.move tid (.outside outcome)
        (process.threads tid).depth).Idle := by
    intro idle
    exact .inl ⟨rfl, by simp [move, (idle.posting posted).1]⟩
  refine ⟨?_, fun nobody => idled (fits.idle nobody), ?_⟩
  · intro someone ne
    rw [threads_move]
    split
    · rename_i same
      exact ⟨nofun, (fits.others tid (same ▸ ne)).2⟩
    · exact fits.others someone ne
  · intro holder same
    obtain ⟨passed, depth, idle⟩ | ⟨_, posting, _⟩ := fits.owned holder same
    · obtain ⟨_, _, out⟩ := idle.posting posted
      have different : holder ≠ tid := by
        intro equal
        rw [← equal, passed] at out
        cases out
      rw [threads_move, if_neg different]
      exact .inl ⟨passed, depth, idled idle⟩
    · rw [posting] at posted
      cases posted

/-- One operation of a thread, a case for each. -/
theorem Fits.turn (fits : process.Fits owner) (bounded : owner ≠ none → semaphore = 0)
    (countable : process.Countable tid action)
    (taken : process.act semaphore tid action = some (left, after)) :
    Turn semaphore process owner tid action left after := by
  unfold act at taken
  cases action with
  | acquire mode =>
      simp only at taken
      split at taken
      · rename_i posting here
        split at taken
        · rename_i mine
          cases taken
          obtain ⟨rfl, counted, _⟩ := fits.of_mine posting mine
          have last := (isMine_iff.mp mine).2.symm
          have next := CInt.toInt_succ (countable mine)
          refine .kept rfl (fits_recorded { process with count := process.count + 1 }
            fits.alone posting last ?_ (Nat.succ_pos _) _)
          exact next.trans (congrArg (· + 1) counted)
        · rename_i notMine
          cases taken
          have other := fits.stranger here (Bool.eq_false_iff.mpr notMine)
          exact .kept rfl (fits.aside other nofun (by rw [posting]; nofun))
      · cases taken
  | decrement =>
      simp only at taken
      split at taken
      · rename_i mode value here
        cases taken
        obtain ⟨_, apart⟩ := fits.waiting here
        cases owner with
        | some holder => cases bounded nofun
        | none => exact .taken rfl rfl rfl (fits.passes apart)
      · cases taken
  | giveUp =>
      simp only at taken
      split at taken
      · rename_i here
        cases taken
        obtain ⟨other, apart⟩ := fits.waiting here
        exact .kept rfl (fits.aside other nofun apart)
      · rename_i here
        cases taken
        obtain ⟨other, apart⟩ := fits.waiting here
        exact .kept rfl (fits.aside other nofun apart)
      · cases taken
  | interrupt =>
      simp only at taken
      split at taken
      · rename_i mode here
        cases taken
        obtain ⟨other, apart⟩ := fits.waiting here
        exact .kept rfl (fits.aside other nofun apart)
      · cases taken
  | record =>
      simp only at taken
      split at taken
      · rename_i posting here
        cases taken
        obtain rfl := fits.owns_iff.mp (.inl here)
        obtain ⟨_, depth, idle⟩ | ⟨⟨outcome, outside⟩, _⟩ := fits.owned tid rfl
        · obtain ⟨_, zero⟩ | ⟨_, _, posted, _⟩ := idle
          · rw [depth, zero]
            exact .kept rfl (fits_recorded { process with count := 0 + 1, lastTid := tid }
              fits.alone posting rfl rfl Nat.one_pos _)
          · rw [posting] at posted
            cases posted
        · rw [here] at outside
          cases outside
      · cases taken
  | release =>
      simp only at taken
      split at taken
      · rename_i outcome posting here
        split at taken
        · rename_i notMine
          cases taken
          have other := fits.stranger here (by simpa using notMine)
          exact .kept rfl (fits.aside other nofun (by rw [posting]; nofun))
        · rename_i mine
          obtain ⟨rfl, counted, _⟩ := fits.of_mine posting (by simpa using mine)
          have last := (isMine_iff.mp (by simpa using mine)).2.symm
          have positive := (isMine_iff.mp (by simpa using mine)).1
          split at taken
          · rename_i nested
            cases taken
            have below := CInt.toInt_pred (CInt.ne_minValue positive)
            have deep := CInt.one_lt_iff.mp nested
            refine .kept rfl (fits_recorded { process with count := process.count - 1 }
              fits.alone posting last ?_ (by omega) _)
            rw [below]
            omega
          · rename_i outermost
            cases taken
            have notDeep := mt CInt.one_lt_iff.mpr outermost
            have once : process.count.toInt = 1 := by omega
            have shallow : (process.threads tid).depth = 1 := by omega
            exact .passedOn rfl rfl shallow rfl (fits.posts here (CInt.eq_one_iff.mpr once) shallow)
      · cases taken
  | finish =>
      simp only at taken
      split at taken
      · rename_i posted
        cases taken
        exact .kept rfl (fits.finishes posted)
      · cases taken
  | fork => cases taken

theorem act_release (fits : process.Fits owner)
    (taken : process.act semaphore tid .release = some (left, after)) :
    process.Owns tid ∧ (after.threads tid).depth + 1 = (process.threads tid).depth ∨
      ¬process.Owns tid ∧ left = semaphore ∧
        after = process.answer tid (.raised (.assertionError
          "attempt to release recursive lock not owned by thread")) := by
  simp only [act] at taken
  split at taken
  · rename_i outcome posting here
    split at taken
    · rename_i notMine
      cases taken
      have other := fits.stranger here (by simpa using notMine)
      exact .inr ⟨mt fits.owns_iff.mp other, rfl, rfl⟩
    · rename_i mine
      obtain ⟨rfl, counted, _⟩ := fits.of_mine posting (by simpa using mine)
      have positive := (isMine_iff.mp (by simpa using mine)).1
      refine .inl ⟨fits.owns_iff.mpr rfl, ?_⟩
      split at taken
      · cases taken
        rw [threads_move, if_pos rfl]
        dsimp only
        omega
      · cases taken
        rw [threads_move, if_pos rfl]
        dsimp only
        omega
  · cases taken

theorem act_acquire (fits : process.Fits owner) {mode : AcquireMode} (owns : process.Owns tid)
    (taken : process.act semaphore tid (.acquire mode) = some (left, after)) :
    after.threads tid =
      ⟨.outside (.returned (some true)), (process.threads tid).depth + 1⟩ := by
  simp only [act] at taken
  split at taken
  · rename_i posting here
    split at taken
    · cases taken
      rw [threads_move, if_pos rfl]
    · rename_i notMine
      have other := fits.stranger here (Bool.eq_false_iff.mpr notMine)
      exact absurd (fits.owns_iff.mp owns) other
  · cases taken

end LockProcess

namespace RLock

variable {lock next : RLock} {pid tid : Nat} {action : LockAction} {owner : Option (Nat × Nat)}

def ownerAt (owner : Option (Nat × Nat)) (pid : Nat) : Option Nat :=
  (owner.filter (·.1 = pid)).map Prod.snd

@[simp] theorem ownerAt_eq_some : ownerAt owner pid = some tid ↔ owner = some (pid, tid) := by
  cases owner with
  | none => simp [ownerAt]
  | some holder =>
      obtain ⟨process, thread⟩ := holder
      by_cases same : process = pid
      · subst same
        simp [ownerAt, Option.filter]
      · simp [ownerAt, Option.filter, same]

@[simp] theorem ownerAt_none (pid : Nat) : ownerAt none pid = none := rfl

/-- `owner` is the one thread that owns the lock. -/
structure Fits (lock : RLock) (owner : Option (Nat × Nat)) : Prop where
  semaphore : lock.semaphore = owner.isNone.toNat
  inside : ∀ holder, owner = some holder → holder.1 < lock.processes.length
  fits : ∀ (pid : Nat) (process : LockProcess), lock.processes[pid]? = some process →
    process.Fits (ownerAt owner pid)

theorem fits_init (processes : Nat) : (init processes).Fits none := by
  refine ⟨rfl, nofun, ?_⟩
  intro pid process found
  obtain ⟨_, rfl⟩ := List.mem_replicate.mp (List.mem_of_getElem? found)
  exact LockProcess.fits_new 0

theorem Fits.owns_iff (fits : lock.Fits owner) : lock.Owns pid tid ↔ owner = some (pid, tid) := by
  constructor
  · rintro ⟨process, found, owns⟩
    exact ownerAt_eq_some.mp ((fits.fits pid process found).owns_iff.mp owns)
  · intro same
    have found := List.getElem?_eq_getElem (fits.inside _ same)
    exact ⟨_, found, (fits.fits pid _ found).owns_iff.mpr (ownerAt_eq_some.mpr same)⟩

theorem depth_of_found {process : LockProcess} (found : lock.processes[pid]? = some process) :
    lock.depth pid tid = (process.threads tid).depth := by
  simp [depth, found]

theorem Fits.depth_pos_iff (fits : lock.Fits owner) :
    0 < lock.depth pid tid ↔ owner = some (pid, tid) := by
  cases found : lock.processes[pid]? with
  | none =>
      have nobody : ¬lock.Owns pid tid := by
        rintro ⟨process, present, _⟩
        rw [found] at present
        cases present
      simpa [depth, found] using mt fits.owns_iff.mpr nobody
  | some process =>
      rw [depth_of_found found]
      exact (fits.fits pid process found).depth_pos_iff.trans ownerAt_eq_some

/-- An operation other than `fork`, in its process. -/
theorem act_of_step (taken : lock.step (pid, tid, action) = some next) :
    ∃ process, lock.processes[pid]? = some process ∧
      ((action = .fork ∧ next = { lock with
          processes := lock.processes ++ [.new process.lastTid] }) ∨
        ∃ semaphore after, process.act lock.semaphore tid action = some (semaphore, after) ∧
          next = ⟨semaphore, lock.processes.set pid after⟩) := by
  simp only [step] at taken
  split at taken
  · cases taken
  · rename_i process found
    refine ⟨process, found, ?_⟩
    split at taken
    · obtain ⟨child, forked, rfl⟩ := Option.map_eq_some_iff.mp taken
      refine .inl ⟨rfl, ?_⟩
      unfold LockProcess.fork at forked
      split at forked
      · cases forked
        rfl
      · cases forked
    · obtain ⟨⟨semaphore, after⟩, acted, rfl⟩ := Option.map_eq_some_iff.mp taken
      exact .inr ⟨semaphore, after, acted, rfl⟩

theorem Fits.set (fits : lock.Fits owner) {after : LockProcess} {semaphore : Nat}
    {moved : Option (Nat × Nat)} (counted : semaphore = moved.isNone.toNat)
    (here : after.Fits (ownerAt moved pid))
    (elsewhere : ∀ other, other ≠ pid → ownerAt moved other = ownerAt owner other)
    (inside : ∀ holder, moved = some holder → holder.1 < lock.processes.length) :
    Fits ⟨semaphore, lock.processes.set pid after⟩ moved := by
  refine ⟨counted, ?_, ?_⟩
  · intro holder same
    simpa using inside holder same
  · refine Tally.forall_set here fun other process different present => ?_
    rw [elsewhere other different]
    exact fits.fits other process present

/-- The ownership passes on only where a thread gets through the semaphore, and at
the release that matches its outermost acquisition. -/
theorem Fits.step (fits : lock.Fits owner) (countable : lock.Countable (pid, tid, action))
    (taken : lock.step (pid, tid, action) = some next) :
    next.Fits owner ∨
      (action = .decrement ∧ owner = none ∧ next.Fits (some (pid, tid))) ∨
      (action = .release ∧ owner = some (pid, tid) ∧ lock.depth pid tid = 1 ∧ next.Fits none) := by
  obtain ⟨process, found, ⟨_, rfl⟩ | ⟨semaphore, after, acted, rfl⟩⟩ := act_of_step taken
  · refine .inl ⟨fits.semaphore, ?_, ?_⟩
    · intro holder same
      have inside := fits.inside holder same
      simp only [List.length_append]
      omega
    · intro other process present
      rcases Nat.lt_or_ge other lock.processes.length with old | new
      · rw [List.getElem?_append_left old] at present
        exact fits.fits other process present
      · rw [List.getElem?_append_right new] at present
        obtain rfl := List.mem_singleton.mp (List.mem_of_getElem? present)
        have nobody : ownerAt owner other = none := by
          apply Option.eq_none_iff_forall_ne_some.mpr
          intro thread same
          have inside := fits.inside _ (ownerAt_eq_some.mp same)
          omega
        rw [nobody]
        exact LockProcess.fits_new _
  · have bounded : ownerAt owner pid ≠ none → lock.semaphore = 0 := by
      intro someone
      cases owner with
      | none => exact absurd rfl someone
      | some holder => exact fits.semaphore
    have inside : pid < lock.processes.length := (List.getElem?_eq_some_iff.mp found).1
    have turn := (fits.fits pid process found).turn bounded (countable process found) acted
    cases turn with
    | kept same here =>
        exact .inl (fits.set (same.trans fits.semaphore) here (fun _ _ => rfl) fits.inside)
    | taken call free value here =>
        have nobody : owner = none := by
          cases owner with
          | none => rfl
          | some holder =>
              have zero : lock.semaphore = 0 := fits.semaphore
              omega
        have one := fits.semaphore
        subst nobody
        have mine : ownerAt (some (pid, tid)) pid = some tid := ownerAt_eq_some.mpr rfl
        refine .inr (.inl ⟨call, rfl, fits.set ?_ (mine ▸ here) ?_ ?_⟩)
        · simp only [Option.isNone_none, Bool.toNat_true] at one
          simp only [Option.isNone_some, Bool.toNat_false]
          omega
        · intro other different
          simp [ownerAt, Option.filter, different.symm]
        · rintro _ ⟨⟩
          exact inside
    | passedOn call mine outermost value here =>
        obtain rfl := ownerAt_eq_some.mp mine
        have zero : lock.semaphore = 0 := fits.semaphore
        refine .inr (.inr ⟨call, rfl, (depth_of_found found).trans outermost,
          fits.set (by rw [value, zero]; rfl) here ?_ nofun⟩)
        intro other different
        simp [ownerAt, Option.filter, different.symm]

theorem fits_of_run {processes : Nat} {labels : List (Nat × Nat × LockAction)}
    (countable : Along step Countable (init processes) labels)
    (ran : run step (init processes) labels = some lock) : ∃ owner, lock.Fits owner := by
  have kept : Preserves step Countable fun lock => ∃ owner, lock.Fits owner := by
    rintro lock ⟨pid, tid, action⟩ next ⟨owner, fits⟩ countable taken
    obtain kept | ⟨_, _, gained⟩ | ⟨_, _, _, freed⟩ := fits.step countable taken
    · exact ⟨owner, kept⟩
    · exact ⟨some (pid, tid), gained⟩
    · exact ⟨none, freed⟩
  exact invariant_along kept ⟨none, fits_init processes⟩ countable ran

/-- At most one thread of one process owns the lock, and the semaphore tells whether
somebody does; the owner is the thread with acquisitions that it has not released. -/
structure Exclusive (lock : RLock) : Prop where
  single : ∀ pid tid other thread, lock.Owns pid tid → lock.Owns other thread →
    other = pid ∧ thread = tid
  free : lock.semaphore = 1 ↔ ∀ pid tid, ¬lock.Owns pid tid
  held : lock.semaphore = 0 ↔ ∃ pid tid, lock.Owns pid tid
  nested : ∀ pid tid, lock.Owns pid tid ↔ 0 < lock.depth pid tid

/-- How a step of the thread `tid` of the process `pid` may change the ownership. -/
structure Nests (lock : RLock) (pid tid : Nat) (action : LockAction) (next : RLock) : Prop where
  gained : ∀ other thread, ¬lock.Owns other thread → next.Owns other thread →
    other = pid ∧ thread = tid ∧ action = .decrement ∧ lock.semaphore = 1
  lost : ∀ other thread, lock.Owns other thread → ¬next.Owns other thread →
    other = pid ∧ thread = tid ∧ action = .release ∧ lock.depth pid tid = 1
  /-- An owner that acquires again has the lock at once. -/
  again : ∀ mode, action = .acquire mode → lock.Owns pid tid →
    next.Owns pid tid ∧ next.depth pid tid = lock.depth pid tid + 1 ∧
      next.point pid tid = some (.outside (.returned (some true)))
  released : action = .release → lock.Owns pid tid →
    next.depth pid tid + 1 = lock.depth pid tid ∧
      (next.Owns pid tid ↔ lock.depth pid tid ≠ 1)
  refused : action = .release → ¬lock.Owns pid tid →
    next = lock.answer pid tid (.raised (.assertionError
      "attempt to release recursive lock not owned by thread"))

theorem Fits.exclusive (fits : lock.Fits owner) : lock.Exclusive := by
  have counted := fits.semaphore
  constructor
  · intro pid tid other thread mine theirs
    have same := (fits.owns_iff.mp theirs).symm.trans (fits.owns_iff.mp mine)
    cases same
    exact ⟨rfl, rfl⟩
  · rw [counted]
    cases owner with
    | none => exact iff_of_true rfl fun pid tid owns => nomatch fits.owns_iff.mp owns
    | some holder => exact iff_of_false nofun fun nobody => nobody _ _ (fits.owns_iff.mpr rfl)
  · rw [counted]
    cases owner with
    | none => exact iff_of_false nofun fun ⟨_, _, owns⟩ => nomatch fits.owns_iff.mp owns
    | some holder => exact iff_of_true rfl ⟨holder.1, holder.2, fits.owns_iff.mpr rfl⟩
  · intro pid tid
    exact fits.owns_iff.trans fits.depth_pos_iff.symm

theorem Fits.nests (fits : lock.Fits owner) (countable : lock.Countable (pid, tid, action))
    (taken : lock.step (pid, tid, action) = some next) : Nests lock pid tid action next := by
  have moves := fits.step countable taken
  have acts := act_of_step taken
  constructor
  · intro other thread before after
    obtain kept | ⟨call, rfl, gained⟩ | ⟨_, _, _, freed⟩ := moves
    · exact absurd (fits.owns_iff.mpr (kept.owns_iff.mp after)) before
    · cases gained.owns_iff.mp after
      exact ⟨rfl, rfl, call, fits.semaphore⟩
    · cases freed.owns_iff.mp after
  · intro other thread before after
    obtain kept | ⟨_, rfl, _⟩ | ⟨call, mine, outermost, _⟩ := moves
    · exact absurd (kept.owns_iff.mpr (fits.owns_iff.mp before)) after
    · cases fits.owns_iff.mp before
    · cases mine.symm.trans (fits.owns_iff.mp before)
      exact ⟨rfl, rfl, call, outermost⟩
  · rintro mode rfl owns
    obtain ⟨process, found, ⟨call, _⟩ | ⟨semaphore, after, acted, rfl⟩⟩ := acts
    · cases call
    have here := fits.fits pid process found
    have mine := ownerAt_eq_some.mpr (fits.owns_iff.mp owns)
    have again := LockProcess.act_acquire here (here.owns_iff.mpr mine) acted
    have present := Tally.getElem?_set_found found after
    obtain kept | ⟨call, _⟩ | ⟨call, _⟩ := moves
    · refine ⟨kept.owns_iff.mpr (fits.owns_iff.mp owns), ?_, ?_⟩
      · rw [depth_of_found found, depth_of_found present, again]
      · simp [point, present, again]
    · cases call
    · cases call
  · rintro rfl owns
    obtain ⟨process, found, ⟨call, _⟩ | ⟨semaphore, after, acted, rfl⟩⟩ := acts
    · cases call
    have here := fits.fits pid process found
    have mine := here.owns_iff.mpr (ownerAt_eq_some.mpr (fits.owns_iff.mp owns))
    have present := Tally.getElem?_set_found found after
    obtain ⟨_, shallower⟩ | ⟨other, _⟩ := LockProcess.act_release here acted
    · have last : depth ⟨semaphore, lock.processes.set pid after⟩ pid tid =
          (after.threads tid).depth := depth_of_found present
      rw [← depth_of_found found, ← last] at shallower
      refine ⟨shallower, ?_⟩
      obtain kept | ⟨call, _⟩ | ⟨_, _, outermost, freed⟩ := moves
      · have deep := kept.depth_pos_iff.mpr (fits.owns_iff.mp owns)
        exact iff_of_true (kept.owns_iff.mpr (fits.owns_iff.mp owns)) (by omega)
      · cases call
      · exact iff_of_false (fun after => nomatch freed.owns_iff.mp after) (by omega)
    · exact absurd mine other
  · rintro rfl other
    obtain ⟨process, found, ⟨call, _⟩ | ⟨semaphore, after, acted, rfl⟩⟩ := acts
    · cases call
    have here := fits.fits pid process found
    obtain ⟨owns, _⟩ | ⟨_, rfl, rfl⟩ := LockProcess.act_release here acted
    · exact absurd ⟨process, found, owns⟩ other
    · unfold answer
      congr 1
      apply List.ext_getElem?
      intro position
      rw [List.getElem?_modify, List.getElem?_set']
      by_cases same : pid = position
      · subst same
        simp [found]
      · simp [same]

/-- Whatever the threads of any number of processes do, and whenever they fork, as long as
every nested acquisition can be counted. -/
theorem rlock_excludes {processes : Nat} {labels : List (Nat × Nat × LockAction)}
    (countable : Along step Countable (init processes) labels)
    (ran : run step (init processes) labels = some lock) :
    lock.Exclusive ∧ ∀ pid tid action next, lock.Countable (pid, tid, action) →
      lock.step (pid, tid, action) = some next → Nests lock pid tid action next := by
  obtain ⟨owner, fits⟩ := fits_of_run countable ran
  exact ⟨fits.exclusive, fun _ _ _ _ countable taken => fits.nests countable taken⟩

/-- The child of an owner waits for the lock that its parent holds twice. -/
theorem rlock_excludes_child :
    ∃ labels lock, run step (init 1) labels = some lock ∧ lock.depth 0 7 = 2 ∧
      lock.point 1 7 = some (.waiting .wait) ∧ lock.Exclusive ∧
      ∀ pid tid action next, lock.Countable (pid, tid, action) →
        lock.step (pid, tid, action) = some next → Nests lock pid tid action next := by
  let labels : List (Nat × Nat × LockAction) :=
    [(0, 7, .acquire .wait), (0, 7, .decrement), (0, 7, .record), (0, 7, .acquire .trywait),
      (0, 7, .fork), (1, 7, .release), (1, 7, .acquire .wait)]
  have ran : run step (init 1) labels = some _ := rfl
  exact ⟨labels, _, ran, rfl, rfl, rlock_excludes (by decide) ran⟩

/-- Thread 7 of one process takes the lock and then acquires it `further` times more. -/
def nesting (further : Nat) : List (Nat × Nat × LockAction) :=
  [(0, 7, .acquire .wait), (0, 7, .decrement), (0, 7, .record)] ++
    List.replicate further (0, 7, .acquire .wait)

/-- Thread 7 of the only process has acquired `depth` times, and `count` has been increased as
often. -/
structure Nested (lock : RLock) (depth : Nat) (process : LockProcess) : Prop where
  taken : lock.semaphore = 0
  only : lock.processes = [process]
  count : process.count = Int32.ofNat depth
  last : process.lastTid = 7
  posting : process.posting = none
  here : process.threads 7 = ⟨.outside (.returned (some true)), depth⟩

theorem Nested.again {depth : Nat} {process : LockProcess} (nested : lock.Nested depth process)
    (positive : 0 < depth) (fits : depth < 2 ^ 31) :
    ∃ next after, lock.step (0, 7, .acquire .wait) = some next ∧ next.Nested (depth + 1) after := by
  have counted : process.count.toInt = depth := by
    rw [nested.count]
    exact Int32.toInt_ofNat_of_lt fits
  have mine : process.isMine 7 = true :=
    LockProcess.isMine_iff.mpr ⟨by omega, nested.last.symm⟩
  refine ⟨⟨lock.semaphore, [_]⟩, { process with count := process.count + 1 }.move 7
    (.outside (.returned (some true))) (depth + 1), ?_, nested.taken, rfl, ?_, nested.last,
    nested.posting, ?_⟩
  · simp [step, nested.only, LockProcess.act, nested.here, nested.posting, mine]
  · rw [Int32.ofNat_add, ← nested.count]
    rfl
  · rw [LockProcess.threads_move, if_pos rfl]

theorem Nested.run {depth : Nat} {process : LockProcess} (nested : lock.Nested depth process)
    (positive : 0 < depth) (further : Nat) (fits : depth + further ≤ 2 ^ 31) :
    ∃ last after, run step lock (List.replicate further (0, 7, .acquire .wait)) = some last ∧
      last.Nested (depth + further) after := by
  induction further generalizing lock depth process with
  | zero => exact ⟨lock, process, rfl, nested⟩
  | succ further ih =>
      obtain ⟨next, middle, taken, nested⟩ := nested.again positive (by omega)
      obtain ⟨last, after, ran, reached⟩ := ih nested (by omega) (by omega)
      refine ⟨last, after, ?_, by rwa [← Nat.add_assoc, Nat.add_right_comm]⟩
      rw [List.replicate_succ, run_cons_eq_some]
      exact ⟨next, taken, ran⟩

theorem nested_once :
    ∃ lock process, run step (init 1) (nesting 0) = some lock ∧ lock.Nested 1 process :=
  ⟨_, _, rfl, rfl, rfl, rfl, rfl, rfl, rfl⟩

/-- The owner of `2 ^ 31` acquisitions is none to `ISMINE`. -/
theorem Nested.not_mine {process : LockProcess} (nested : lock.Nested (2 ^ 31) process) :
    process.isMine 7 = false := by
  simp [LockProcess.isMine, nested.count]

theorem Nested.not_exclusive {process : LockProcess} (nested : lock.Nested (2 ^ 31) process) :
    ¬lock.Exclusive := by
  intro exclusive
  have deep : 0 < lock.depth 0 7 := by simp [depth, nested.only, nested.here]
  obtain ⟨found, present, passed | ⟨_, mine⟩⟩ := (exclusive.nested 0 7).mpr deep
  · rw [nested.only] at present
    cases present
    rw [nested.here] at passed
    cases passed
  · rw [nested.only] at present
    cases present
    rw [nested.not_mine] at mine
    cases mine

/-- The last of `2 ^ 31` acquisitions makes `count` negative, and the thread that holds them
all cannot release them. -/
theorem not_rlock_excludes :
    ∃ lock, run step (init 1) (nesting (2 ^ 31 - 1)) = some lock ∧ lock.depth 0 7 = 2 ^ 31 ∧
      ¬lock.Exclusive ∧
      lock.step (0, 7, .release) = some (lock.answer 0 7 (.raised (.assertionError
        "attempt to release recursive lock not owned by thread"))) := by
  obtain ⟨first, _, ran, once⟩ := nested_once
  obtain ⟨last, process, rest, nested⟩ := once.run Nat.one_pos (2 ^ 31 - 1) (by decide)
  have whole : 1 + (2 ^ 31 - 1) = 2 ^ 31 := by decide
  rw [whole] at nested
  refine ⟨last, run_append_eq_some.mpr ⟨first, ran, rest⟩, ?_, nested.not_exclusive, ?_⟩
  · simp [depth, nested.only, nested.here]
  · simp [step, nested.only, LockProcess.act, nested.here, nested.posting, nested.not_mine,
      answer, LockProcess.answer]

end RLock

end Billiard
