import Billiard.Data.Dict
import Billiard.Pool.Job

/-! `TaskHandler.body` of `pool.py`: the tasks of the task queue are put on the
inqueue, and a task that cannot be put is to fail its job. -/

namespace Billiard

/-- The constant `TASK`, the first element of every task message. -/
def taskTag : Nat := 2

/-- The second element of a task message, `(job, i, func, args, kwds)`. -/
structure TaskMessage where
  job : Nat
  i : Option Nat
deriving DecidableEq, Repr

def TaskMessage.index (task : TaskMessage) : Index :=
  match task.i with
  | none => .none
  | some i => .position i

inductive Put where
  | stored
  | ioError
  | raises (info : ExceptionInfo)
deriving DecidableEq, Repr

/-- A round of the loop over the tasks: `running` tells that `_state` is `RUN`. -/
structure Attempt where
  task : TaskMessage
  running : Bool
  put : Put
deriving DecidableEq, Repr

def Attempt.stored (attempt : Attempt) : Option TaskMessage :=
  match attempt.put with
  | .stored => some attempt.task
  | .ioError | .raises _ => none

def Attempt.failed (attempt : Attempt) : Option (TaskMessage × ExceptionInfo) :=
  match attempt.put with
  | .raises info => some (attempt.task, info)
  | .stored | .ioError => none

/-- An element of the task queue.  Iterating over its tasks may raise `failure`
after the last one; `setLength` is the job whose `_set_length` comes with it. -/
structure Batch where
  attempts : List Attempt
  failure : Option ExceptionInfo
  setLength : Option Nat
deriving DecidableEq, Repr

/-- A call `cache[job]._set(i, (False, info))`. -/
structure Notice where
  job : Nat
  i : Index
  info : ExceptionInfo
deriving DecidableEq, Repr

/-- `puts`, `sets` and `lengths` are the calls made so far; `owed` are the calls
of `_set` that the failed tasks with a job in the cache give cause for. -/
structure TaskHandler (α : Type u) where
  jobs : Dict Nat (Job α)
  puts : List TaskMessage
  sets : List Notice
  owed : List Notice
  lengths : List (Nat × Nat)
  sentinels : Nat

inductive Exit where
  | exhausted
  | broke
  | raised (info : ExceptionInfo)
deriving DecidableEq, Repr

def Raised.info : Raised → ExceptionInfo
  | .keyError => .raised "KeyError"
  | .typeError => .raised "TypeError"
  | .attributeError => .raised "AttributeError"
  | .callbackError => .raised "Exception"

namespace TaskHandler

def init (jobs : Dict Nat (Job α)) : TaskHandler α := ⟨jobs, [], [], [], [], 0⟩

def cached (jobs : Dict Nat (Job α)) (number : Nat) : Option (Job α) :=
  (jobs number).filter Job.cached

variable (iter : α → List α)

/-- `cache[number]._set(i, (False, ExceptionInfo()))`, for a job in the cache. -/
def setFailure (handler : TaskHandler α) (number : Nat) (job : Job α) (i : Index)
    (info : ExceptionInfo) : TaskHandler α × Option Raised :=
  let result := job.set iter i (.failure info)
  ({ handler with
    jobs := handler.jobs.set number result.1
    sets := handler.sets ++ [⟨number, i, info⟩] }, result.2)

def owe (handler : TaskHandler α) (task : TaskMessage) (info : ExceptionInfo) : TaskHandler α :=
  if (cached handler.jobs task.job).isSome then
    { handler with owed := handler.owed ++ [⟨task.job, task.index, info⟩] }
  else handler

/-- The inner `except Exception`.  `task[:2]` is the tag of the task and its body. -/
def putFailed (handler : TaskHandler α) (task : TaskMessage) (info : ExceptionInfo) :
    TaskHandler α × Option Raised :=
  let handler := handler.owe task info
  match cached handler.jobs taskTag with
  | none => (handler, none)
  | some job =>
      match handler.setFailure iter taskTag job .body info with
      | (handler, some .keyError) => (handler, none)
      | result => result

/-- The loop over the tasks; `count` is `i + 1`. -/
def putTasks (handler : TaskHandler α) (count : Nat) :
    List Attempt → TaskHandler α × Nat × Exit
  | [] => (handler, count, .exhausted)
  | attempt :: attempts =>
      if !attempt.running then (handler, count + 1, .broke)
      else match attempt.put with
      | .stored =>
          putTasks { handler with puts := handler.puts ++ [attempt.task] } (count + 1) attempts
      | .ioError => (handler, count + 1, .broke)
      | .raises info =>
          match handler.putFailed iter attempt.task info with
          | (handler, none) => putTasks handler (count + 1) attempts
          | (handler, some exc) => (handler, count + 1, .raised exc.info)

/-- `set_length(i + 1)` -/
def callSetLength (handler : TaskHandler α) (batch : Batch) (count : Nat) :
    TaskHandler α × Option Raised :=
  match batch.setLength with
  | none => (handler, none)
  | some number =>
      let handler := { handler with lengths := handler.lengths ++ [(number, count)] }
      match handler.jobs number with
      | none => (handler, none)
      | some job =>
          let result := job.setLength count
          ({ handler with jobs := handler.jobs.set number result.1 }, result.2)

/-- The outer `except Exception`; without a task, `job, ind` is `(0, 0)`. -/
def recover (handler : TaskHandler α) (batch : Batch) (count : Nat) (info : ExceptionInfo) :
    TaskHandler α × Option Raised :=
  if count = 0 then
    match cached handler.jobs 0 with
    | none => handler.callSetLength batch count
    | some job =>
        match handler.setFailure iter 0 job (.position 1) info with
        | (handler, none) => handler.callSetLength batch count
        | result => result
  else if (cached handler.jobs taskTag).isSome then
    -- `ind + 1`, where `ind` is a tuple
    (handler, some .typeError)
  else handler.callSetLength batch count

/-- A round of the loop over the task queue. -/
def processBatch (handler : TaskHandler α) (batch : Batch) : TaskHandler α × Exit :=
  let recovered (handler : TaskHandler α) (count : Nat) (info : ExceptionInfo) :=
    match handler.recover iter batch count info with
    | (handler, none) => (handler, Exit.exhausted)
    | (handler, some exc) => (handler, .raised exc.info)
  match handler.putTasks iter 0 batch.attempts with
  | (handler, _, .broke) => (handler, .broke)
  | (handler, count, .raised info) => recovered handler count info
  | (handler, count, .exhausted) =>
      match batch.failure with
      | some info => recovered handler count info
      | none =>
          match handler.callSetLength batch count with
          | (handler, none) => (handler, .exhausted)
          | (handler, some exc) => recovered handler count exc.info

/-- The loop over the task queue, up to its sentinel. -/
def processQueue (handler : TaskHandler α) : List Batch → TaskHandler α × Exit
  | [] => (handler, .exhausted)
  | batch :: queue =>
      match handler.processBatch iter batch with
      | (handler, .exhausted) => processQueue handler queue
      | stopped => stopped

/-- `tell_others`: a sentinel for each worker of the pool. -/
def tellOthers (handler : TaskHandler α) : List Put → TaskHandler α × Option ExceptionInfo
  | [] => (handler, none)
  | .stored :: puts => tellOthers { handler with sentinels := handler.sentinels + 1 } puts
  | .ioError :: _ => (handler, none)
  | .raises info :: _ => (handler, some info)

/-- `TaskHandler.body`; `sentinels` is what putting the sentinels does. -/
def body (handler : TaskHandler α) (queue : List Batch) (sentinels : List Put) :
    TaskHandler α × Option ExceptionInfo :=
  match handler.processQueue iter queue with
  | (handler, .raised info) => (handler, some info)
  | (handler, _) => handler.tellOthers sentinels

end TaskHandler

namespace Batch

def stored (batch : Batch) : List TaskMessage := batch.attempts.filterMap Attempt.stored

def failing (batch : Batch) : List (TaskMessage × ExceptionInfo) :=
  batch.attempts.filterMap Attempt.failed

/-- The call of `_set_length` that is due after the tasks. -/
def length (batch : Batch) : Option (Nat × Nat) :=
  batch.setLength.map fun number => (number, batch.attempts.length)

def setLengths (jobs : Dict Nat (Job α)) : List Batch → Dict Nat (Job α)
  | [] => jobs
  | batch :: queue =>
      setLengths ((TaskHandler.init jobs).callSetLength batch batch.attempts.length).1.jobs queue

/-- The pool runs, no put raises `IOError`, and the iterable does not raise. -/
structure Regular (batch : Batch) : Prop where
  attempts : ∀ attempt ∈ batch.attempts, attempt.running = true ∧ attempt.put ≠ .ioError
  failure : batch.failure = none

/-- The job is an iterator of unknown length in the cache. -/
def Fresh (jobs : Dict Nat (Job α)) (number : Nat) : Prop :=
  ∃ it, (jobs number = some (.imap it) ∨ jobs number = some (.imapUnordered it)) ∧
    it.cached = true ∧ it.length = none

/-- Each `_set_length` belongs to an iterator of its own, as `imap` and
`imap_unordered` submit it. -/
structure Submitted (jobs : Dict Nat (Job α)) (queue : List Batch) : Prop where
  fresh : ∀ number ∈ queue.filterMap Batch.setLength, Fresh jobs number
  distinct : (queue.filterMap Batch.setLength).Nodup

/-- No failing task meets a cache that holds its job or the job whose number is
the tag of a task. -/
def Undisturbed (jobs : Dict Nat (Job α)) : List Batch → Prop
  | [] => True
  | batch :: queue =>
      (∀ failed ∈ batch.failing, TaskHandler.cached jobs taskTag = none ∧
        TaskHandler.cached jobs failed.1.job = none) ∧
      Undisturbed (setLengths jobs [batch]) queue

structure Isolated (jobs : Dict Nat (Job α)) (queue : List Batch) (handler : TaskHandler α) :
    Prop where
  failures : handler.sets = handler.owed
  untouched : ∀ number, (∀ batch ∈ queue, ∀ failed ∈ batch.failing, failed.1.job ≠ number) →
    handler.jobs number = setLengths jobs queue number
  puts : handler.puts = queue.flatMap Batch.stored
  lengths : handler.lengths = queue.filterMap Batch.length

end Batch

namespace TaskHandler

open Batch

variable {iter : α → List α} {handler : TaskHandler α}

/-- `after` comes from `before` by calls of `_set` that carry a task's body for
an index, and the iterators in `kept` still wait for their length. -/
structure Extends (kept : Nat → Prop) (before after : TaskHandler α) : Prop where
  sets : ∃ sets, after.sets = before.sets ++ sets ∧ ∀ notice ∈ sets, notice.i = .body
  owed : ∃ owed, after.owed = before.owed ++ owed ∧ ∀ notice ∈ owed, notice.i ≠ .body
  fresh : ∀ number, kept number → Fresh before.jobs number → Fresh after.jobs number

theorem Extends.refl (kept : Nat → Prop) (handler : TaskHandler α) :
    Extends kept handler handler :=
  ⟨⟨[], by simp, nofun⟩, ⟨[], by simp, nofun⟩, fun _ _ => id⟩

theorem Extends.trans {kept : Nat → Prop} {first middle last : TaskHandler α}
    (front : Extends kept first middle) (back : Extends kept middle last) :
    Extends kept first last := by
  obtain ⟨⟨sets, setsEq, bodies⟩, ⟨owed, owedEq, positions⟩, fresh⟩ := front
  obtain ⟨⟨moreSets, moreSetsEq, moreBodies⟩, ⟨moreOwed, moreOwedEq, morePositions⟩,
    stillFresh⟩ := back
  refine ⟨⟨sets ++ moreSets, ?_, ?_⟩, ⟨owed ++ moreOwed, ?_, ?_⟩, ?_⟩
  · rw [moreSetsEq, setsEq, List.append_assoc]
  · exact List.forall_mem_append.mpr ⟨bodies, moreBodies⟩
  · rw [moreOwedEq, owedEq, List.append_assoc]
  · exact List.forall_mem_append.mpr ⟨positions, morePositions⟩
  · exact fun number keep before => stillFresh number keep (fresh number keep before)

theorem Extends.weaken {kept fewer : Nat → Prop} {before after : TaskHandler α}
    (extended : Extends kept before after) (sub : ∀ number, fewer number → kept number) :
    Extends fewer before after :=
  ⟨extended.sets, extended.owed, fun number keep => extended.fresh number (sub number keep)⟩

theorem fresh_setFailure {job : Job α} {info : ExceptionInfo} {number : Nat}
    (found : handler.jobs taskTag = some job) (fresh : Fresh handler.jobs number) :
    Fresh (handler.setFailure iter taskTag job .body info).1.jobs number := by
  obtain ⟨it, kind, kept, unknown⟩ := fresh
  unfold Fresh setFailure
  simp only [Dict.set_apply]
  cases Nat.decEq number taskTag with
  | isFalse other =>
      simp only [if_neg other]
      exact ⟨it, kind, kept, unknown⟩
  | isTrue same =>
      subst same
      rw [found] at kind
      cases kind with
      | inl ordered =>
          cases ordered
          exact ⟨it, .inl (by simp [Job.set, IMapIterator.set]), kept, unknown⟩
      | inr unordered =>
          cases unordered
          refine ⟨(it.setUnordered (.failure info)).1, .inr (by simp [Job.set]), ?_, ?_⟩
          · simp [IMapIterator.setUnordered, IMapIterator.complete, IMapIterator.notify,
              IMapIterator.append, unknown, kept]
          · simp [IMapIterator.setUnordered, IMapIterator.complete, IMapIterator.notify,
              IMapIterator.append, unknown]

theorem extends_owe (kept : Nat → Prop) (handler : TaskHandler α) (task : TaskMessage)
    (info : ExceptionInfo) : Extends kept handler (handler.owe task info) := by
  unfold owe
  split
  · refine ⟨⟨[], by simp, nofun⟩, ⟨_, rfl, ?_⟩, fun _ _ => id⟩
    intro notice member
    rw [List.mem_singleton.mp member]
    unfold TaskMessage.index
    split <;> nofun
  · exact Extends.refl kept handler

theorem cached_eq_some {jobs : Dict Nat (Job α)} {number : Nat} {job : Job α}
    (found : cached jobs number = some job) : jobs number = some job :=
  (Option.filter_eq_some_iff.mp found).1

@[simp] theorem jobs_owe (handler : TaskHandler α) (task : TaskMessage) (info : ExceptionInfo) :
    (handler.owe task info).jobs = handler.jobs := by
  unfold owe
  split <;> rfl

theorem putFailed_cached {job : Job α} (found : cached handler.jobs taskTag = some job)
    (task : TaskMessage) (info : ExceptionInfo) :
    (handler.putFailed iter task info).1 =
      ((handler.owe task info).setFailure iter taskTag job .body info).1 := by
  simp only [putFailed, jobs_owe, found]
  split
  · rename_i same
    rw [same]
  · rfl

theorem putFailed_missing (missing : cached handler.jobs taskTag = none) (task : TaskMessage)
    (info : ExceptionInfo) :
    handler.putFailed iter task info = (handler.owe task info, none) := by
  simp only [putFailed, jobs_owe, missing]

theorem extends_putFailed (iter : α → List α) (kept : Nat → Prop) (handler : TaskHandler α)
    (task : TaskMessage) (info : ExceptionInfo) :
    Extends kept handler (handler.putFailed iter task info).1 := by
  have owed := extends_owe kept handler task info
  cases found : cached handler.jobs taskTag with
  | none =>
      rw [putFailed_missing found]
      exact owed
  | some job =>
      rw [putFailed_cached found]
      refine owed.trans ⟨⟨_, rfl, ?_⟩, ⟨[], by simp [setFailure], nofun⟩, ?_⟩
      · intro notice member
        rw [List.mem_singleton.mp member]
      · intro number _
        apply fresh_setFailure
        rw [jobs_owe]
        exact cached_eq_some found

theorem extends_putTasks (iter : α → List α) (kept : Nat → Prop) (attempts : List Attempt)
    (handler : TaskHandler α) (count : Nat) :
    Extends kept handler (handler.putTasks iter count attempts).1 := by
  induction attempts generalizing handler count with
  | nil => exact Extends.refl kept handler
  | cons attempt attempts ih =>
      unfold putTasks
      split
      · exact Extends.refl kept handler
      split
      · have rest := ih { handler with puts := handler.puts ++ [attempt.task] } (count + 1)
        exact { rest with }
      · exact Extends.refl kept handler
      · rename_i info _
        have failed := extends_putFailed iter kept handler attempt.task info
        split
        · rename_i after result
          rw [result] at failed
          exact failed.trans (ih after (count + 1))
        · rename_i after exc result
          rw [result] at failed
          exact failed

theorem extends_callSetLength (handler : TaskHandler α) (batch : Batch) (count : Nat) :
    Extends (some · ≠ batch.setLength) handler (handler.callSetLength batch count).1 := by
  unfold callSetLength
  split
  · exact Extends.refl _ handler
  · rename_i number named
    simp only
    split
    · exact ⟨⟨[], by simp, nofun⟩, ⟨[], by simp, nofun⟩, fun _ _ => id⟩
    · refine ⟨⟨[], by simp, nofun⟩, ⟨[], by simp, nofun⟩, ?_⟩
      intro other keep fresh
      have different : other ≠ number := fun same => keep (same ▸ named.symm)
      simpa [Fresh, Dict.set_apply, different] using fresh

theorem callSetLength_returns {batch : Batch} (count : Nat)
    (fresh : ∀ number ∈ batch.setLength, Fresh handler.jobs number) :
    (handler.callSetLength batch count).2 = none := by
  unfold callSetLength
  split
  · rfl
  · rename_i number named
    obtain ⟨it, kind, kept, _⟩ := fresh number named
    have returns : (it.setLength count).2 = none := by
      unfold IMapIterator.setLength
      simp only
      split
      · rw [IMapIterator.complete_of_cached (by exact kept)]
      · rfl
    cases kind with
    | inl ordered => simpa [ordered, Job.setLength] using returns
    | inr unordered => simpa [unordered, Job.setLength] using returns

/-- No call of `_set` has been made, and none is due. -/
def Quiet (handler : TaskHandler α) : Prop := handler.sets = [] ∧ handler.owed = []

theorem Extends.quiet {kept : Nat → Prop} {before after : TaskHandler α}
    (extended : Extends kept before after) (quiet : after.Quiet) : before.Quiet := by
  obtain ⟨⟨sets, setsEq, _⟩, ⟨owed, owedEq, _⟩, _⟩ := extended
  obtain ⟨noSets, noneOwed⟩ := quiet
  rw [setsEq] at noSets
  rw [owedEq] at noneOwed
  exact ⟨(List.append_eq_nil_iff.mp noSets).1, (List.append_eq_nil_iff.mp noneOwed).1⟩

theorem Extends.quiet_iff {kept : Nat → Prop} {before after : TaskHandler α}
    (extended : Extends kept before after) (quiet : before.Quiet) :
    after.sets = after.owed ↔ after.Quiet := by
  obtain ⟨⟨sets, setsEq, bodies⟩, ⟨owed, owedEq, positions⟩, _⟩ := extended
  rw [quiet.1, List.nil_append] at setsEq
  rw [quiet.2, List.nil_append] at owedEq
  unfold Quiet
  rw [setsEq, owedEq]
  constructor
  · intro same
    subst same
    cases sets with
    | nil => exact ⟨rfl, rfl⟩
    | cons notice sets =>
        exact absurd (bodies notice List.mem_cons_self) (positions notice List.mem_cons_self)
  · intro none
    rw [none.1, none.2]

/-- The failure of the task reaches no job, and none is in the cache to receive it. -/
def Unheard (jobs : Dict Nat (Job α)) (task : TaskMessage) : Prop :=
  cached jobs taskTag = none ∧ cached jobs task.job = none

theorem putFailed_unheard {task : TaskMessage} (info : ExceptionInfo)
    (unheard : Unheard handler.jobs task) : handler.putFailed iter task info = (handler, none) := by
  simp [putFailed_missing unheard.1, owe, unheard.2]

theorem unheard_of_quiet {task : TaskMessage} {info : ExceptionInfo}
    (quiet : (handler.putFailed iter task info).1.Quiet) : Unheard handler.jobs task := by
  have tag : cached handler.jobs taskTag = none := by
    cases found : cached handler.jobs taskTag with
    | none => rfl
    | some job =>
        rw [putFailed_cached found] at quiet
        simp [Quiet, setFailure] at quiet
  refine ⟨tag, ?_⟩
  rw [putFailed_missing tag] at quiet
  cases found : cached handler.jobs task.job with
  | none => rfl
  | some job => simp [Quiet, owe, found] at quiet

theorem putTasks_unheard (iter : α → List α) {attempts : List Attempt} (count : Nat)
    (regular : ∀ attempt ∈ attempts, attempt.running = true ∧ attempt.put ≠ .ioError)
    (unheard : ∀ failed ∈ attempts.filterMap Attempt.failed, Unheard handler.jobs failed.1) :
    handler.putTasks iter count attempts =
      ({ handler with puts := handler.puts ++ attempts.filterMap Attempt.stored },
        count + attempts.length, .exhausted) := by
  induction attempts generalizing handler count with
  | nil => simp [putTasks]
  | cons attempt attempts ih =>
      obtain ⟨⟨running, noIOError⟩, regular⟩ := List.forall_mem_cons.mp regular
      unfold putTasks
      simp only [running, Bool.not_true, Bool.false_eq_true, if_false]
      cases put : attempt.put with
      | stored =>
          have head : attempt.failed = none := by simp [Attempt.failed, put]
          rw [List.filterMap_cons_none head] at unheard
          simp only
          rw [@ih { handler with puts := handler.puts ++ [attempt.task] } (count + 1) regular
            unheard]
          simp [Attempt.stored, put, Nat.add_assoc, Nat.add_comm 1]
      | ioError => exact absurd put noIOError
      | raises info =>
          have head : attempt.failed = some (attempt.task, info) := by simp [Attempt.failed, put]
          rw [List.filterMap_cons_some head] at unheard
          obtain ⟨first, unheard⟩ := List.forall_mem_cons.mp unheard
          simp only [putFailed_unheard info first]
          simp [ih _ regular unheard, Attempt.stored, put, Nat.add_assoc, Nat.add_comm 1]

theorem putTasks_quiet {attempts : List Attempt} {count : Nat}
    (regular : ∀ attempt ∈ attempts, attempt.running = true ∧ attempt.put ≠ .ioError)
    (quiet : (handler.putTasks iter count attempts).1.Quiet) :
    ∀ failed ∈ attempts.filterMap Attempt.failed, Unheard handler.jobs failed.1 := by
  induction attempts generalizing handler count with
  | nil => nofun
  | cons attempt attempts ih =>
      obtain ⟨⟨running, noIOError⟩, regular⟩ := List.forall_mem_cons.mp regular
      unfold putTasks at quiet
      simp only [running, Bool.not_true, Bool.false_eq_true, if_false] at quiet
      cases put : attempt.put with
      | stored =>
          have head : attempt.failed = none := by simp [Attempt.failed, put]
          rw [List.filterMap_cons_none head]
          simp only [put] at quiet
          have rest := ih regular quiet
          exact rest
      | ioError => exact absurd put noIOError
      | raises info =>
          have head : attempt.failed = some (attempt.task, info) := by simp [Attempt.failed, put]
          rw [List.filterMap_cons_some head]
          simp only [put] at quiet
          have first : Unheard handler.jobs attempt.task := by
            have failed : (handler.putFailed iter attempt.task info).1.Quiet := by
              split at quiet
              · rename_i after result
                rw [result]
                exact (extends_putTasks iter (fun _ => True) attempts after _).quiet quiet
              · rename_i after exc result
                rw [result]
                exact quiet
            exact unheard_of_quiet failed
          simp only [putFailed_unheard info first] at quiet
          exact List.forall_mem_cons.mpr ⟨first, ih regular quiet⟩

theorem putTasks_raised {attempts : List Attempt} {count last : Nat} {info : ExceptionInfo}
    (raised : (handler.putTasks iter count attempts).2 = (last, .raised info)) : last ≠ 0 := by
  induction attempts generalizing handler count with
  | nil => cases raised
  | cons attempt attempts ih =>
      unfold putTasks at raised
      split at raised
      · cases raised
      split at raised
      · exact ih raised
      · cases raised
      · split at raised
        · exact ih raised
        · cases raised
          exact Nat.succ_ne_zero count

theorem processBatch_after {batch : Batch} (regular : batch.Regular)
    (fresh : ∀ number ∈ batch.setLength, Fresh handler.jobs number) :
    Extends (some · ≠ batch.setLength) (handler.putTasks iter 0 batch.attempts).1
      (handler.processBatch iter batch).1 := by
  have before := extends_putTasks iter (fun _ => True) batch.attempts handler 0
  unfold processBatch
  cases ran : handler.putTasks iter 0 batch.attempts with
  | mk after rest =>
      obtain ⟨count, exit⟩ := rest
      rw [ran] at before
      cases exit with
      | broke => exact Extends.refl _ after
      | exhausted =>
          have still : ∀ number ∈ batch.setLength, Fresh after.jobs number :=
            fun number named => before.fresh number True.intro (fresh number named)
          have returns := callSetLength_returns count still
          have called := extends_callSetLength after batch count
          simp only [regular.failure]
          cases result : after.callSetLength batch count with
          | mk last raised =>
              rw [result] at returns called
              simp only at returns
              subst returns
              exact called
      | raised info =>
          have some_ : count ≠ 0 := by
            have stopped : (handler.putTasks iter 0 batch.attempts).2 = (count, .raised info) := by
              rw [ran]
            exact putTasks_raised stopped
          have called := extends_callSetLength after batch count
          simp only [recover, if_neg some_]
          split
          · rename_i last result
            split at result
            · cases result
            · rw [result] at called
              exact called
          · rename_i last exc result
            split at result
            · cases result
              exact Extends.refl _ after
            · rw [result] at called
              exact called

theorem callSetLength_eq (handler : TaskHandler α) (batch : Batch) :
    (handler.callSetLength batch batch.attempts.length).1 = { handler with
      lengths := handler.lengths ++ batch.length.toList
      jobs := setLengths handler.jobs [batch] } := by
  unfold setLengths setLengths callSetLength Batch.length
  cases batch.setLength with
  | none => simp [init]
  | some number =>
      simp only [Option.map_some, Option.toList_some, init]
      cases handler.jobs number <;> rfl

theorem processBatch_unheard (iter : α → List α) {batch : Batch} (regular : batch.Regular)
    (fresh : ∀ number ∈ batch.setLength, Fresh handler.jobs number)
    (unheard : ∀ failed ∈ batch.failing, Unheard handler.jobs failed.1) :
    handler.processBatch iter batch = ({ handler with
      puts := handler.puts ++ batch.stored
      lengths := handler.lengths ++ batch.length.toList
      jobs := setLengths handler.jobs [batch] }, .exhausted) := by
  have tasks := putTasks_unheard iter 0 regular.attempts unheard
  have called := callSetLength_eq
    { handler with puts := handler.puts ++ batch.attempts.filterMap Attempt.stored } batch
  have returns := @callSetLength_returns _
    { handler with puts := handler.puts ++ batch.attempts.filterMap Attempt.stored } batch
    batch.attempts.length fresh
  unfold processBatch
  simp only [tasks, Nat.zero_add, regular.failure]
  split
  · rename_i last result
    rw [result] at called
    rw [show last = _ from called]
    rfl
  · rename_i last exc result
    rw [result] at returns
    cases returns

end TaskHandler

namespace Batch

open TaskHandler

theorem Submitted.head {jobs : Dict Nat (Job α)} {batch : Batch} {queue : List Batch}
    (submitted : Submitted jobs (batch :: queue)) :
    ∀ number ∈ batch.setLength, Fresh jobs number := by
  intro number named
  apply submitted.fresh
  rw [List.filterMap_cons_some named]
  exact List.mem_cons_self

theorem Submitted.tail {batch : Batch} {queue : List Batch} {before after : TaskHandler α}
    (submitted : Submitted before.jobs (batch :: queue))
    (extended : Extends (some · ≠ batch.setLength) before after) :
    Submitted after.jobs queue := by
  obtain ⟨fresh, distinct⟩ := submitted
  cases named : batch.setLength with
  | none =>
      rw [List.filterMap_cons_none named] at fresh distinct
      exact ⟨fun number member => extended.fresh number (by simp [named]) (fresh number member),
        distinct⟩
  | some other =>
      rw [List.filterMap_cons_some named] at fresh distinct
      obtain ⟨missing, distinct⟩ := List.nodup_cons.mp distinct
      refine ⟨fun number member => extended.fresh number ?_
        (fresh number (List.mem_cons_of_mem _ member)), distinct⟩
      rw [named]
      intro same
      exact missing (Option.some.inj same ▸ member)

end Batch

namespace TaskHandler

open Batch

variable {iter : α → List α} {handler : TaskHandler α}

theorem extends_processBatch (iter : α → List α) {batch : Batch} (regular : batch.Regular)
    (fresh : ∀ number ∈ batch.setLength, Fresh handler.jobs number) :
    Extends (some · ≠ batch.setLength) handler (handler.processBatch iter batch).1 :=
  (extends_putTasks iter _ batch.attempts handler 0).trans (processBatch_after regular fresh)

theorem processQueue_undisturbed (iter : α → List α) (handler : TaskHandler α)
    {queue : List Batch} (regular : ∀ batch ∈ queue, batch.Regular)
    (submitted : Submitted handler.jobs queue)
    (undisturbed : Undisturbed handler.jobs queue) :
    handler.processQueue iter queue = ({ handler with
      puts := handler.puts ++ queue.flatMap Batch.stored
      lengths := handler.lengths ++ queue.filterMap Batch.length
      jobs := setLengths handler.jobs queue }, .exhausted) := by
  induction queue generalizing handler with
  | nil => simp [processQueue, setLengths]
  | cons batch queue ih =>
      obtain ⟨first, regular⟩ := List.forall_mem_cons.mp regular
      obtain ⟨unheard, undisturbed⟩ := undisturbed
      have round := processBatch_unheard iter first submitted.head unheard
      have extended := extends_processBatch iter first submitted.head
      rw [round] at extended
      have rest := ih _ regular (submitted.tail extended) undisturbed
      simp only [processQueue, round, rest]
      cases named : batch.length <;> simp [named, setLengths]

theorem extends_processQueue (iter : α → List α) (handler : TaskHandler α) {queue : List Batch}
    (regular : ∀ batch ∈ queue, batch.Regular) (submitted : Submitted handler.jobs queue) :
    Extends (fun _ => False) handler (handler.processQueue iter queue).1 := by
  induction queue generalizing handler with
  | nil => exact Extends.refl _ handler
  | cons batch queue ih =>
      obtain ⟨first, regular⟩ := List.forall_mem_cons.mp regular
      have extended := extends_processBatch iter first submitted.head
      unfold processQueue
      split
      · rename_i after result
        rw [result] at extended
        exact (extended.weaken nofun).trans (ih _ regular (submitted.tail extended))
      · exact extended.weaken nofun

theorem undisturbed_of_quiet {queue : List Batch} (regular : ∀ batch ∈ queue, batch.Regular)
    (submitted : Submitted handler.jobs queue)
    (quiet : (handler.processQueue iter queue).1.Quiet) : Undisturbed handler.jobs queue := by
  induction queue generalizing handler with
  | nil => exact True.intro
  | cons batch queue ih =>
      obtain ⟨first, regular⟩ := List.forall_mem_cons.mp regular
      have extended := extends_processBatch iter first submitted.head
      have round : (handler.processBatch iter batch).1.Quiet := by
        unfold processQueue at quiet
        split at quiet
        · rename_i after result
          rw [result] at extended ⊢
          exact (extends_processQueue iter _ regular (submitted.tail extended)).quiet quiet
        · exact quiet
      have unheard : ∀ failed ∈ batch.failing, Unheard handler.jobs failed.1 :=
        putTasks_quiet first.attempts ((processBatch_after first submitted.head).quiet round)
      have result := processBatch_unheard iter first submitted.head unheard
      rw [result] at extended
      have still := submitted.tail extended
      simp only [processQueue, result] at quiet
      have rest := ih regular still quiet
      exact ⟨unheard, rest⟩

theorem tellOthers_eq (handler : TaskHandler α) (puts : List Put) :
    ∃ sentinels, (handler.tellOthers puts).1 = { handler with sentinels } := by
  induction puts generalizing handler with
  | nil => exact ⟨_, rfl⟩
  | cons put puts ih =>
      cases put with
      | stored => exact ih { handler with sentinels := handler.sentinels + 1 }
      | ioError => exact ⟨_, rfl⟩
      | raises info => exact ⟨_, rfl⟩

theorem body_eq (iter : α → List α) (handler : TaskHandler α) (queue : List Batch)
    (puts : List Put) :
    ∃ sentinels, (handler.body iter queue puts).1 =
      { (handler.processQueue iter queue).1 with sentinels } := by
  unfold body
  split
  · rename_i after info result
    exact ⟨after.sentinels, by rw [result]⟩
  · rename_i after exit _ result
    rw [result]
    exact after.tellOthers_eq puts

/-- Tasks that cannot be put fail their own jobs, and nothing else goes wrong,
exactly when no such task meets a cache that holds its job or the job whose
number is the tag of a task. -/
theorem isolated_iff (iter : α → List α) (jobs : Dict Nat (Job α)) (queue : List Batch)
    (sentinels : List Put) (regular : ∀ batch ∈ queue, batch.Regular)
    (submitted : Submitted jobs queue) :
    Isolated jobs queue ((init jobs).body iter queue sentinels).1 ↔ Undisturbed jobs queue := by
  obtain ⟨count, told⟩ := body_eq iter (init jobs) queue sentinels
  rw [told]
  constructor
  · intro isolated
    have extended := extends_processQueue iter (init jobs) regular submitted
    have quiet := (extended.quiet_iff ⟨rfl, rfl⟩).mp isolated.failures
    exact undisturbed_of_quiet regular submitted quiet
  · intro undisturbed
    have result := processQueue_undisturbed iter (init jobs) regular submitted undisturbed
    rw [result]
    exact {
      failures := rfl
      untouched := fun _ _ => rfl
      puts := rfl
      lengths := rfl }

/-- A task of the `imap` 5 cannot be put after the job was dropped from the cache
of a pool without a job 2. -/
theorem isolated_discardedJob :
    Isolated (α := Nat) (fun number => if number = 6 then some (.imap (.init 6 10)) else none)
      [⟨[⟨⟨5, none⟩, true, .raises (.raised "PicklingError")⟩], none, none⟩,
        ⟨[⟨⟨6, some 0⟩, true, .stored⟩], none, some 6⟩]
      ((init fun number => if number = 6 then some (.imap (.init 6 10)) else none).body
        (fun value => [value])
        [⟨[⟨⟨5, none⟩, true, .raises (.raised "PicklingError")⟩], none, none⟩,
          ⟨[⟨⟨6, some 0⟩, true, .stored⟩], none, some 6⟩] [.stored]).1 := by
  apply (isolated_iff _ _ _ _ ?_ ?_).mpr
  · refine ⟨?_, nofun, trivial⟩
    intro failed member
    cases List.mem_singleton.mp member
    exact ⟨rfl, rfl⟩
  · exact List.forall_mem_cons.mpr ⟨⟨by decide, rfl⟩,
      List.forall_mem_singleton.mpr ⟨by decide, rfl⟩⟩
  · refine ⟨?_, by decide⟩
    intro number member
    cases List.mem_singleton.mp member
    exact ⟨_, .inl rfl, rfl, rfl⟩

/-- A task of job 5 cannot be put: job 2 fails, and job 5 never hears of it. -/
theorem not_isolated :
    ∃ (jobs : Dict Nat (Job Nat)) (queue : List Batch),
      (∀ batch ∈ queue, batch.Regular) ∧ Submitted jobs queue ∧
      (cached jobs 5).isSome ∧
      ¬Isolated jobs queue ((init jobs).body (fun value => [value]) queue []).1 := by
  refine ⟨fun number => if number = 2 ∨ number = 5 then some (.apply (.init number {})) else none,
    [⟨[⟨⟨5, none⟩, true, .raises (.raised "PicklingError")⟩], none, none⟩], ?_, ?_, rfl, ?_⟩
  · intro batch member
    cases List.mem_singleton.mp member
    exact ⟨by decide, rfl⟩
  · exact ⟨nofun, List.nodup_nil⟩
  · intro isolated
    exact absurd isolated.failures (by decide)

end TaskHandler

end Billiard
