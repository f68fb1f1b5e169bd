import Billiard.Pool.Workloop
import Mathlib.Algebra.Ring.Int.Defs

/-! `Worker.__call__` and `_do_exit`: the status of a worker, which a patched `sys.exit` leaves
in a cell. -/

namespace Billiard

/-- What is given to `sys.exit` or carried by a `SystemExit`, unless it is `None`. -/
inductive ExitStatus where
  | int (code : Int)
  | object (str : String)
deriving DecidableEq, Repr

/-- How `workloop` ends; `interrupted` is by a `BaseException` that is neither an `Exception`
nor a `SystemExit`. -/
inductive Ending where
  | returned (status : Nat)
  | systemExit (status : Option ExitStatus)
  | exception
  | interrupted
deriving DecidableEq, Repr

inductive ExitReport where
  | onExit (status : ExitStatus)
  | death (status : ExitStatus)
  | osExit (status : ExitStatus)
deriving DecidableEq, Repr

/-- `onExit` tells which calls of `on_exit` raise. -/
structure WorkerExit where
  win32 : Bool
  onExit : Option (Nat → Bool)

namespace ExitStatus

def ok : ExitStatus := .int exOk

def failure : ExitStatus := .int exFailure

/-- `os._exit` takes an `int` of C and raises for anything else. -/
def IsCInt : ExitStatus → Prop
  | .int code => -2 ^ 31 ≤ code ∧ code < 2 ^ 31
  | .object _ => False

instance : (status : ExitStatus) → Decidable status.IsCInt
  | .int code => inferInstanceAs (Decidable (-2 ^ 31 ≤ code ∧ code < 2 ^ 31))
  | .object _ => inferInstanceAs (Decidable False)

/-- `_exitcode[0]` after these calls of the patched `sys.exit`. -/
def cell (exits : List (Option ExitStatus)) : Option ExitStatus :=
  exits.foldl (fun _ status => status) none

theorem cell_concat (exits : List (Option ExitStatus)) (status : Option ExitStatus) :
    cell (exits ++ [status]) = status := by
  simp [cell]

end ExitStatus

namespace ExitReport

def status : ExitReport → ExitStatus
  | .onExit status | .death status | .osExit status => status

end ExitReport

def Ending.status : Ending → ExitStatus
  | .returned status => .int status
  | .systemExit status => status.getD .ok
  | .exception | .interrupted => .failure

namespace WorkerExit

/-- The end of `_do_exit`, once `on_exit` has returned. -/
def leave (worker : WorkerExit) (status : ExitStatus) : List ExitReport :=
  (if worker.win32 then [] else [.death status]) ++ [.osExit status]

/-- `_do_exit`, with whether the process is gone thereafter; `call` counts the calls of it. -/
def doExit (worker : WorkerExit) (call : Nat) (exitcode : Option ExitStatus) (exc : Bool) :
    List ExitReport × Bool :=
  let status := exitcode.getD (if exc then .failure else .ok)
  match worker.onExit with
  | none => (worker.leave status, decide status.IsCInt)
  | some raises =>
      if raises call then ([.onExit status], false)
      else (.onExit status :: worker.leave status, decide status.IsCInt)

/-- `__call__` from the end of `workloop` on; `exits` are the calls of `sys.exit` so far. The
`finally` clause comes to `_do_exit` again when the `except` clause does not end the process. -/
def call (worker : WorkerExit) (exits : List (Option ExitStatus)) :
    Ending → List ExitReport
  | .returned status =>
      (worker.doExit 0 (ExitStatus.cell (exits ++ [some (.int status)])) false).1
  | .systemExit _ | .interrupted => (worker.doExit 0 (ExitStatus.cell exits) false).1
  | .exception =>
      let handled := worker.doExit 0 (ExitStatus.cell exits) true
      if handled.2 then handled.1
      else handled.1 ++ (worker.doExit 1 (ExitStatus.cell exits) false).1

def Returns (worker : WorkerExit) (call : Nat) : Prop :=
  match worker.onExit with
  | none => True
  | some raises => raises call = false

instance (worker : WorkerExit) (call : Nat) : Decidable (worker.Returns call) := by
  unfold Returns
  split <;> infer_instance

/-- Everything that is told is this status, and unless `on_exit` raises nobody is left out. -/
structure Announces (worker : WorkerExit) (expected : ExitStatus) (reports : List ExitReport) :
    Prop where
  status : ∀ report ∈ reports, report.status = expected
  complete : (∀ call, worker.Returns call) →
    reports = (if worker.onExit.isSome then [.onExit expected] else []) ++ worker.leave expected

/-- What the last call of `sys.exit` left in the cell is what the end of `workloop` asks for. -/
def Passes (worker : WorkerExit) (exits : List (Option ExitStatus)) : Ending → Prop
  | .returned _ => True
  | .systemExit status => (ExitStatus.cell exits).getD .ok = status.getD .ok
  | .exception =>
      ExitStatus.cell exits = some .failure ∨ ExitStatus.cell exits = none ∧ worker.Returns 0
  | .interrupted => ExitStatus.cell exits = some .failure

instance (worker : WorkerExit) (exits : List (Option ExitStatus)) :
    (ending : Ending) → Decidable (worker.Passes exits ending)
  | .returned _ => inferInstanceAs (Decidable True)
  | .systemExit status =>
      inferInstanceAs (Decidable ((ExitStatus.cell exits).getD .ok = status.getD .ok))
  | .exception => inferInstanceAs (Decidable (_ ∨ _))
  | .interrupted => inferInstanceAs (Decidable (ExitStatus.cell exits = some .failure))

variable {worker : WorkerExit} {exits : List (Option ExitStatus)} {expected : ExitStatus}

theorem status_of_leave {report : ExitReport} (told : report ∈ worker.leave expected) :
    report.status = expected := by
  unfold leave at told
  split at told
  · rw [List.mem_singleton.mp told]
    rfl
  · rcases List.mem_cons.mp told with rfl | told
    · rfl
    · rw [List.mem_singleton.mp told]
      rfl

theorem osExit_mem_leave : .osExit expected ∈ worker.leave expected := by
  simp [leave]

theorem doExit_gone_iff (call : Nat) (exitcode : Option ExitStatus) (exc : Bool) :
    (worker.doExit call exitcode exc).2 = true ↔
      (exitcode.getD (if exc then .failure else .ok)).IsCInt ∧ worker.Returns call := by
  unfold doExit Returns
  cases worker.onExit with
  | none => simp
  | some raises =>
      simp only
      cases raises call with
      | true => simp
      | false => simp

theorem doExit_announces (call : Nat) (exitcode : Option ExitStatus) (exc : Bool) :
    worker.Announces (exitcode.getD (if exc then .failure else .ok))
      (worker.doExit call exitcode exc).1 := by
  generalize same : exitcode.getD (if exc then ExitStatus.failure else ExitStatus.ok) = expected
  unfold doExit
  simp only [same]
  constructor
  · intro report told
    cases accepted : worker.onExit with
    | none =>
        simp only [accepted] at told
        exact status_of_leave told
    | some raises =>
        simp only [accepted] at told
        split at told
        · rw [List.mem_singleton.mp told]
          rfl
        · rcases List.mem_cons.mp told with rfl | told
          · rfl
          · exact status_of_leave told
  · intro returns
    have returned := returns call
    unfold Returns at returned
    cases accepted : worker.onExit with
    | none => rfl
    | some raises =>
        simp only [accepted] at returned
        simp [returned]

theorem exists_mem_doExit (call : Nat) (exitcode : Option ExitStatus) (exc : Bool) :
    ∃ report, report ∈ (worker.doExit call exitcode exc).1 := by
  unfold doExit
  cases worker.onExit with
  | none => exact ⟨_, osExit_mem_leave⟩
  | some raises =>
      simp only
      split
      · exact ⟨_, List.mem_singleton_self _⟩
      · exact ⟨_, List.mem_cons_self⟩

theorem doExit_announces_iff (call : Nat) (exitcode : Option ExitStatus) (exc : Bool) :
    worker.Announces expected (worker.doExit call exitcode exc).1 ↔
      exitcode.getD (if exc then .failure else .ok) = expected := by
  have announces := @doExit_announces worker call exitcode exc
  constructor
  · intro announced
    obtain ⟨report, told⟩ := @exists_mem_doExit worker call exitcode exc
    rw [← announces.status report told, announced.status report told]
  · rintro rfl
    exact announces

theorem Announces.append {front back : List ExitReport} (first : worker.Announces expected front)
    (second : worker.Announces expected back) (raises : ∃ call, ¬worker.Returns call) :
    worker.Announces expected (front ++ back) where
  status report told := (List.mem_append.mp told).elim (first.status report) (second.status report)
  complete returns := raises.elim fun call raised => absurd (returns call) raised

theorem Announces.front {front back : List ExitReport}
    (announces : worker.Announces expected (front ++ back)) :
    ∀ report ∈ front, report.status = expected :=
  fun report told => announces.status report (List.mem_append_left back told)

theorem Announces.back {front back : List ExitReport}
    (announces : worker.Announces expected (front ++ back)) :
    ∀ report ∈ back, report.status = expected :=
  fun report told => announces.status report (List.mem_append_right front told)

/-- After an `Exception` the `finally` clause is left to a worker whose `on_exit` has raised or
whose status `os._exit` does not take. -/
theorem exception_announces_iff :
    worker.Announces .failure (worker.call exits .exception) ↔ worker.Passes exits .exception := by
  have gone := @doExit_gone_iff worker 0 (ExitStatus.cell exits) true
  have first := @doExit_announces worker 0 (ExitStatus.cell exits) true
  have second := @doExit_announces worker 1 (ExitStatus.cell exits) false
  obtain ⟨report, told⟩ := @exists_mem_doExit worker 0 (ExitStatus.cell exits) true
  obtain ⟨again, retold⟩ := @exists_mem_doExit worker 1 (ExitStatus.cell exits) false
  have failure : ExitStatus.failure.IsCInt := by decide
  simp only [call, Passes]
  generalize ExitStatus.cell exits = written at *
  cases written with
  | none =>
      simp only [Option.getD_none, if_true, failure, true_and] at gone first second told retold
      by_cases returns : worker.Returns 0
      · rw [if_pos (gone.mpr returns)]
        exact iff_of_true first (.inr ⟨rfl, returns⟩)
      · rw [if_neg (mt gone.mp returns)]
        refine iff_of_false ?_ (by simp [returns])
        -- `exc` is `None` the second time
        intro announces
        have same := announces.back again retold
        rw [second.status again retold] at same
        exact absurd same (by decide)
  | some status =>
      simp only [Option.getD_some] at gone first second told retold
      constructor
      · intro announces
        have same : report.status = .failure := by
          split at announces
          · exact announces.status report told
          · exact announces.front report told
        rw [first.status report told] at same
        exact .inl (congrArg some same)
      · intro passes
        have same : status = .failure := by simpa using passes
        subst same
        split
        · exact first
        · rename_i stays
          refine first.append second ⟨0, fun returns => stays ?_⟩
          exact gone.mpr ⟨failure, returns⟩

/-- `on_exit`, the parent and the operating system are told the status that the end of `workloop`
asks for exactly if the cell has it. -/
theorem announces_iff (worker : WorkerExit) (exits : List (Option ExitStatus)) (ending : Ending) :
    worker.Announces ending.status (worker.call exits ending) ↔ worker.Passes exits ending := by
  cases ending with
  | returned status =>
      refine (doExit_announces_iff ..).trans (iff_of_true ?_ trivial)
      rw [ExitStatus.cell_concat]
      rfl
  | systemExit status => exact doExit_announces_iff ..
  | exception => exact exception_announces_iff
  | interrupted =>
      refine (doExit_announces_iff ..).trans ?_
      unfold Passes
      cases ExitStatus.cell exits with
      | none => simp [Ending.status, ExitStatus.ok, ExitStatus.failure, exOk, exFailure]
      | some status => simp [Ending.status]

end WorkerExit

/-- `kind` tells what exception a text stands for. -/
def LoopEnd.ending (kind : String → Ending) : LoopEnd → Option Ending
  | .waiting => none
  | .returned status => some (.returned status)
  | .systemExit status => some (.systemExit (some (.int status)))
  | .raised exc => some (kind exc)

theorem Poll.status_of_receive {poll : Poll β} {status : Nat}
    (exits : poll.receive = .error status) : status = exOk ∨ status = exFailure := by
  cases poll with
  | shutdown => exact .inl (Except.error.inj exits).symm
  | closed | sentinel => exact .inr (Except.error.inj exits).symm
  | empty | interrupted | message => cases exits

theorem status_of_waitForSyn {polls : List (Poll Response)} {status : Nat}
    (exits : (waitForSyn polls).1 = .exits status) : status = exOk ∨ status = exFailure := by
  induction polls with
  | nil => cases exits
  | cons poll polls ih =>
      unfold waitForSyn at exits
      split at exits
      · rename_i received
        cases exits
        exact poll.status_of_receive received
      · exact ih exits
      · cases exits
      · cases exits

theorem status_of_confirm {synq : Option (List (Poll Response))} {status : Nat}
    (exits : (confirm synq).1 = .exits status) : status = exOk ∨ status = exFailure := by
  cases synq with
  | none => cases exits
  | some polls => exact status_of_waitForSyn exits

namespace WorkerSetting

variable {α : Type u} {setting : WorkerSetting α} {completed status : Nat}
  {inq : List (Poll (JobRequest α))} {synq : Option (List (Poll Response))}

theorem afterReady_ne_systemExit (request : JobRequest α) :
    setting.afterReady request ≠ some (.systemExit status) := by
  unfold afterReady
  split
  · simp
  · split
    · simp
    · simp

theorem runJob_ne_systemExit (request : JobRequest α) :
    (setting.runJob completed request).2.2 ≠ some (.systemExit status) := by
  unfold runJob
  split
  · simp
  · split
    · simp
    · exact afterReady_ne_systemExit request

theorem status_of_workloop
    (exits : (setting.workloop completed inq synq).ending = .systemExit status) :
    status = exOk ∨ status = exFailure := by
  fun_induction workloop setting completed inq synq with
  | case1 => cases exits
  | case2 => cases exits
  | case3 =>
      rename_i received
      cases exits
      exact Poll.status_of_receive received
  | case4 => rename_i ih; exact ih exits
  | case5 => cases exits
  | case6 => rename_i ih; exact ih exits
  | case7 =>
      rename_i confirmed
      cases exits
      exact status_of_confirm (congrArg Prod.fst confirmed)
  | case8 => cases exits
  | case9 =>
      rename_i ran
      exact absurd ((congrArg (·.2.2) ran).trans (congrArg some exits)) (runJob_ne_systemExit _)
  | case10 => rename_i ih; exact ih exits
  | case11 => cases exits

/-- With no `sys.exit` before it, `EX_OK` is told where the receive functions ask for
`EX_FAILURE`. -/
theorem announces_received (worker : WorkerExit)
    (exits : (setting.workloop completed inq synq).ending = .systemExit status) :
    worker.Announces .ok (worker.call [] (.systemExit (some (.int status)))) ∧
      (status = exOk ∨ status = exFailure) :=
  ⟨WorkerExit.doExit_announces 0 none false, status_of_workloop exits⟩

/-- The inqueue is closed, and the process exits as if it had been told to. -/
theorem failure_announced_ok :
    ((⟨100, 5, none, none, none, fun _ => none, fun _ => .ok ""⟩ : WorkerSetting Nat).workloop 0
        [.closed] none).ending.ending (fun _ => .exception) =
      some (.systemExit (some .failure)) ∧
    (⟨false, none⟩ : WorkerExit).call [] (.systemExit (some .failure)) =
      [.death .ok, .osExit .ok] ∧
    ¬(⟨false, none⟩ : WorkerExit).Announces (Ending.systemExit (some .failure)).status
      ((⟨false, none⟩ : WorkerExit).call [] (.systemExit (some .failure))) := by
  refine ⟨rfl, rfl, ?_⟩
  intro announces
  exact absurd (announces.status (.osExit .ok) (by decide)) (by decide)

end WorkerSetting

end Billiard
