import Billiard.Data.Tally
import Billiard.Data.Transition

/-! The shutdown that `Pool.close` starts: workers with a quota of tasks, the
supervisor that replaces them while the pool runs, and the task handler, which
ends with a sentinel for each worker. -/

namespace Billiard

open Transition

inductive Duty where
  | waiting
  | busy
  | exited
deriving DecidableEq, Repr

/-- A worker in `_pool`; `completed` is the counter of its `workloop`. -/
structure QuotaWorker where
  completed : Nat
  duty : Duty
deriving DecidableEq, Repr

/-- Where `Supervisor.body` stands; `left` are the rounds that remain of the loop
of `_repopulate_pool`. -/
inductive Supervision where
  | resting
  | checking (left : Nat)
  | creating (left : Nat)
deriving DecidableEq, Repr

/-- Where `TaskHandler.body` stands; `i` is how far `for p in pool` has got. -/
inductive Feeding where
  | feeding
  | telling (i : Nat)
  | finished
deriving DecidableEq, Repr

/-- The jobs are numbered as they are submitted, one task each; `none` in a queue
is a sentinel. -/
structure ClosingPool where
  closed : Bool
  submitted : Nat
  taskqueue : List (Option Nat)
  inqueue : List (Option Nat)
  taken : List Nat
  workers : List QuotaWorker
  supervisor : Supervision
  taskHandler : Feeding
deriving DecidableEq

inductive ClosingStep where
  | submit
  | close
  | feed
  | tell
  | take (i : Nat)
  | finish (i : Nat)
  | quit (i : Nat)
  | maintain
  | check
  | create
  | reap
deriving DecidableEq

namespace QuotaWorker

def new : QuotaWorker := ⟨0, .waiting⟩

/-- The condition of the loop of `workloop`. -/
def mayTake (maxtasks : Option Nat) (worker : QuotaWorker) : Bool :=
  match maxtasks with
  | none => true
  | some quota => worker.completed < quota

def alive (worker : QuotaWorker) : Bool := worker.duty != .exited

def remaining (quota : Nat) (worker : QuotaWorker) : Nat :=
  match worker.duty with
  | .waiting => quota - worker.completed
  | .busy => quota - worker.completed - 1
  | .exited => 0

end QuotaWorker

namespace ClosingPool

def init (processes : Nat) : ClosingPool where
  closed := false
  submitted := 0
  taskqueue := []
  inqueue := []
  taken := []
  workers := List.replicate processes .new
  supervisor := .resting
  taskHandler := .feeding

def joinExitedWorkers (pool : ClosingPool) : ClosingPool :=
  { pool with workers := pool.workers.filter QuotaWorker.alive }

variable (processes : Nat) (maxtasks : Option Nat)

def step (pool : ClosingPool) : ClosingStep → Option ClosingPool
  | .submit =>
      if pool.closed then none
      else some { pool with
        submitted := pool.submitted + 1
        taskqueue := pool.taskqueue ++ [some pool.submitted] }
  | .close =>
      if pool.closed then none
      else some { pool with closed := true, taskqueue := pool.taskqueue ++ [none] }
  | .feed =>
      match pool.taskHandler, pool.taskqueue with
      | .feeding, some job :: taskqueue =>
          some { pool with taskqueue, inqueue := pool.inqueue ++ [some job] }
      | .feeding, none :: taskqueue => some { pool with taskqueue, taskHandler := .telling 0 }
      | _, _ => none
  | .tell =>
      match pool.taskHandler with
      | .telling i =>
          if i < pool.workers.length then
            some { pool with inqueue := pool.inqueue ++ [none], taskHandler := .telling (i + 1) }
          else some { pool with taskHandler := .finished }
      | _ => none
  | .take i =>
      match pool.workers[i]?, pool.inqueue with
      | some ⟨completed, .waiting⟩, entry :: inqueue =>
          if QuotaWorker.mayTake maxtasks ⟨completed, .waiting⟩ then
            match entry with
            | some job => some { pool with
                inqueue
                taken := pool.taken ++ [job]
                workers := pool.workers.set i ⟨completed, .busy⟩ }
            | none => some { pool with
                inqueue
                workers := pool.workers.set i ⟨completed, .exited⟩ }
          else none
      | _, _ => none
  | .finish i =>
      match pool.workers[i]? with
      | some ⟨completed, .busy⟩ =>
          some { pool with workers := pool.workers.set i ⟨completed + 1, .waiting⟩ }
      | _ => none
  | .quit i =>
      match pool.workers[i]? with
      | some ⟨completed, .waiting⟩ =>
          if QuotaWorker.mayTake maxtasks ⟨completed, .waiting⟩ then none
          else some { pool with workers := pool.workers.set i ⟨completed, .exited⟩ }
      | _ => none
  | .maintain =>
      if pool.supervisor = .resting ∧ pool.closed = false then
        let pool := pool.joinExitedWorkers
        some { pool with supervisor := .checking (processes - pool.workers.length) }
      else none
  | .check =>
      match pool.supervisor with
      | .checking 0 => some { pool with supervisor := .resting }
      | .checking (left + 1) =>
          if pool.closed then some { pool with supervisor := .resting }
          else some { pool with supervisor := .creating left }
      | _ => none
  | .create =>
      match pool.supervisor with
      | .creating left => some { pool with
          workers := pool.workers ++ [.new]
          supervisor := .checking left }
      | _ => none
  | .reap => if pool.closed then some pool.joinExitedWorkers else none

def jobs (queue : List (Option Nat)) : List Nat := queue.filterMap id

def untaken (pool : ClosingPool) : List Nat := jobs pool.inqueue ++ jobs pool.taskqueue

def capacity (quota : Nat) (pool : ClosingPool) : Nat :=
  tally (QuotaWorker.remaining quota) pool.workers

/-- During the shutdown the workers have not all exited before the last job that
was submitted has been taken. -/
def Drained (pool : ClosingPool) : Prop :=
  pool.closed = true → (∀ worker ∈ pool.workers, worker.duty = .exited) →
    ∀ job < pool.submitted, job ∈ pool.taken

/-- When the pool is closed, the quotas of its workers are enough for the jobs
that are left. -/
def Provided (pool : ClosingPool) (label : ClosingStep) : Prop :=
  label = .close → ∀ quota ∈ maxtasks, pool.untaken.length ≤ pool.capacity quota

def Covered (pool : ClosingPool) : Prop :=
  match maxtasks with
  | none => ∃ worker ∈ pool.workers, worker.duty ≠ .exited
  | some quota => pool.untaken.length ≤ pool.capacity quota

structure Invariant (pool : ClosingPool) : Prop where
  history : pool.taken ++ pool.untaken = List.range pool.submitted
  inqueue : ∃ (jobs : List Nat) (sentinels : Nat),
    pool.inqueue = jobs.map some ++ List.replicate sentinels none ∧
      (sentinels ≠ 0 → pool.taskHandler ≠ .feeding)
  taskqueue : pool.taskHandler = .feeding →
    ∃ jobs : List Nat, pool.taskqueue = jobs.map some ++ if pool.closed then [none] else []
  told : pool.taskHandler ≠ .feeding → pool.closed = true ∧ jobs pool.taskqueue = []
  unlimited : maxtasks = none → pool.closed = false → pool.Covered maxtasks
  covered : pool.closed = true → pool.untaken = [] ∨ pool.Covered maxtasks

variable {processes : Nat} {maxtasks : Option Nat} {pool : ClosingPool}

theorem init_invariant (some_ : 1 ≤ processes) : Invariant maxtasks (init processes) := by
  refine ⟨rfl, ⟨[], 0, rfl, nofun⟩, fun _ => ⟨[], rfl⟩, nofun, ?_, nofun⟩
  rintro rfl _
  have first : QuotaWorker.new ∈ List.replicate processes .new :=
    List.mem_replicate.mpr ⟨Nat.ne_of_gt some_, rfl⟩
  exact ⟨.new, first, nofun⟩

theorem Invariant.submit (invariant : Invariant maxtasks pool) (running : pool.closed = false) :
    Invariant maxtasks { pool with
      submitted := pool.submitted + 1
      taskqueue := pool.taskqueue ++ [some pool.submitted] } := by
  refine ⟨?_, invariant.inqueue, ?_, ?_, ?_, ?_⟩
  · rw [List.range_succ, ← invariant.history]
    simp [untaken, jobs]
  · intro feeding
    obtain ⟨queued, same⟩ := invariant.taskqueue feeding
    exact ⟨queued ++ [pool.submitted], by simp [same, running]⟩
  · intro stopped
    exact absurd ((invariant.told stopped).1.symm.trans running) nofun
  · intro unlimited _
    have covered := invariant.unlimited unlimited running
    subst unlimited
    exact covered
  · intro closed
    exact absurd (closed.symm.trans running) nofun

theorem Invariant.close (invariant : Invariant maxtasks pool) (running : pool.closed = false)
    (provided : ∀ quota ∈ maxtasks, pool.untaken.length ≤ pool.capacity quota) :
    Invariant maxtasks
      { pool with closed := true, taskqueue := pool.taskqueue ++ [none] } := by
  have same : untaken { pool with closed := true, taskqueue := pool.taskqueue ++ [none] } =
      pool.untaken := by simp [untaken, jobs]
  refine ⟨?_, invariant.inqueue, ?_, ?_, nofun, ?_⟩
  · rw [same]
    exact invariant.history
  · intro feeding
    obtain ⟨queued, same⟩ := invariant.taskqueue feeding
    exact ⟨queued, by simp [same, running]⟩
  · intro stopped
    exact absurd ((invariant.told stopped).1.symm.trans running) nofun
  · intro _
    apply Or.inr
    cases maxtasks with
    | none => exact invariant.unlimited rfl running
    | some quota =>
        unfold Covered
        simp only [same]
        exact provided quota rfl

theorem Invariant.move (invariant : Invariant maxtasks pool)
    (inqueue taskqueue : List (Option Nat)) (taskHandler : Feeding)
    (same : jobs inqueue ++ jobs taskqueue = pool.untaken)
    (sorted : ∃ (jobs : List Nat) (sentinels : Nat),
      inqueue = jobs.map some ++ List.replicate sentinels none ∧
        (sentinels ≠ 0 → taskHandler ≠ .feeding))
    (fed : taskHandler = .feeding →
      ∃ jobs : List Nat, taskqueue = jobs.map some ++ if pool.closed then [none] else [])
    (told : taskHandler ≠ .feeding → pool.closed = true ∧ jobs taskqueue = []) :
    Invariant maxtasks { pool with inqueue, taskqueue, taskHandler } := by
  have untaken : untaken { pool with inqueue, taskqueue, taskHandler } = pool.untaken := same
  refine ⟨?_, sorted, fed, told, ?_, ?_⟩
  · rw [untaken]
    exact invariant.history
  · intro unlimited running
    have covered := invariant.unlimited unlimited running
    subst unlimited
    exact covered
  · intro closed
    rw [untaken]
    cases invariant.covered closed with
    | inl done => exact .inl done
    | inr covered =>
        apply Or.inr
        unfold Covered
        rw [untaken]
        exact covered

theorem Invariant.staff {workers : List QuotaWorker} {supervisor : Supervision}
    (invariant : Invariant maxtasks pool)
    (covers : pool.Covered maxtasks → Covered maxtasks { pool with workers, supervisor }) :
    Invariant maxtasks { pool with workers, supervisor } := by
  refine { invariant with unlimited := ?_, covered := ?_ }
  · exact fun unlimited running => covers (invariant.unlimited unlimited running)
  · exact fun closed => (invariant.covered closed).imp_right covers

theorem Covered.set {i : Nat} {old new : QuotaWorker} (covered : pool.Covered maxtasks)
    (found : pool.workers[i]? = some old) (alive : new.duty ≠ .exited ∨ maxtasks ≠ none)
    (cheap : ∀ quota ∈ maxtasks, old.remaining quota ≤ new.remaining quota) :
    Covered maxtasks { pool with workers := pool.workers.set i new } := by
  cases maxtasks with
  | none =>
      have stays := alive.resolve_right (fun none => none rfl)
      exact ⟨new, List.mem_set (List.getElem?_eq_some_iff.mp found).1 new, stays⟩
  | some quota =>
      have total := Tally.tally_set (QuotaWorker.remaining quota) found new
      have cheap := cheap quota rfl
      have enough :
          pool.untaken.length ≤ tally (QuotaWorker.remaining quota) pool.workers := covered
      change pool.untaken.length ≤ tally (QuotaWorker.remaining quota) (pool.workers.set i new)
      omega

theorem Covered.joinExitedWorkers (covered : pool.Covered maxtasks) :
    pool.joinExitedWorkers.Covered maxtasks := by
  cases maxtasks with
  | none =>
      obtain ⟨worker, member, alive⟩ := covered
      exact ⟨worker, List.mem_filter.mpr ⟨member, by simpa [QuotaWorker.alive] using alive⟩, alive⟩
  | some quota =>
      have same : pool.joinExitedWorkers.capacity quota = pool.capacity quota := by
        apply Tally.tally_filter
        intro worker exited
        have duty : worker.duty = .exited := by simpa [QuotaWorker.alive] using exited
        simp [QuotaWorker.remaining, duty]
      change pool.untaken.length ≤ pool.joinExitedWorkers.capacity quota
      rw [same]
      exact covered

theorem Covered.create (covered : pool.Covered maxtasks) (worker : QuotaWorker) :
    Covered maxtasks { pool with workers := pool.workers ++ [worker] } := by
  cases maxtasks with
  | none =>
      obtain ⟨worker, member, alive⟩ := covered
      exact ⟨worker, List.mem_append_left _ member, alive⟩
  | some quota =>
      change pool.untaken.length ≤ tally (QuotaWorker.remaining quota) (pool.workers ++ [worker])
      rw [Tally.tally_append]
      exact Nat.le_add_right_of_le covered

theorem Invariant.takeJob (invariant : Invariant maxtasks pool) {i completed job : Nat}
    {inqueue : List (Option Nat)} (found : pool.workers[i]? = some ⟨completed, .waiting⟩)
    (head : pool.inqueue = some job :: inqueue)
    (mayTake : QuotaWorker.mayTake maxtasks ⟨completed, .waiting⟩ = true) :
    Invariant maxtasks { pool with
      inqueue
      taken := pool.taken ++ [job]
      workers := pool.workers.set i ⟨completed, .busy⟩ } := by
  have shorter : pool.untaken = job :: (jobs inqueue ++ jobs pool.taskqueue) := by
    simp [untaken, jobs, head]
  refine ⟨?_, ?_, invariant.taskqueue, invariant.told, ?_, ?_⟩
  · rw [← invariant.history, shorter]
    simp [untaken]
  · obtain ⟨queued, sentinels, same, ended⟩ := invariant.inqueue
    rw [head] at same
    cases queued with
    | nil =>
        cases sentinels with
        | zero => cases same
        | succ sentinels => cases same
    | cons first queued =>
        cases same
        exact ⟨queued, sentinels, rfl, ended⟩
  · intro unlimited _
    subst unlimited
    exact ⟨_, List.mem_set (List.getElem?_eq_some_iff.mp found).1 _, nofun⟩
  · intro closed
    apply Or.inr
    cases maxtasks with
    | none => exact ⟨_, List.mem_set (List.getElem?_eq_some_iff.mp found).1 _, nofun⟩
    | some quota =>
        have covered : pool.untaken.length ≤ pool.capacity quota := by
          cases invariant.covered closed with
          | inl done => simp [done]
          | inr covered => exact covered
        have total := Tally.tally_set (QuotaWorker.remaining quota) found
          ⟨completed, .busy⟩
        have below : completed < quota := by simpa [QuotaWorker.mayTake] using mayTake
        rw [shorter, List.length_cons] at covered
        change (jobs inqueue ++ jobs pool.taskqueue).length ≤
          tally (QuotaWorker.remaining quota) (pool.workers.set i ⟨completed, .busy⟩)
        simp only [QuotaWorker.remaining, capacity] at total covered ⊢
        omega

theorem Invariant.behind_sentinel (invariant : Invariant maxtasks pool)
    {rest : List (Option Nat)} (head : pool.inqueue = none :: rest) :
    pool.taskHandler ≠ .feeding ∧ ∃ sentinels, rest = List.replicate sentinels none := by
  obtain ⟨queued, sentinels, same, ended⟩ := invariant.inqueue
  rw [head] at same
  cases queued with
  | cons first queued => cases same
  | nil =>
      cases sentinels with
      | zero => cases same
      | succ sentinels =>
          cases same
          exact ⟨ended (Nat.succ_ne_zero sentinels), sentinels, rfl⟩

theorem Invariant.untaken_of_sentinel (invariant : Invariant maxtasks pool)
    {rest : List (Option Nat)} (head : pool.inqueue = none :: rest) : pool.untaken = [] := by
  obtain ⟨stopped, sentinels, same⟩ := invariant.behind_sentinel head
  rw [untaken, head, same, (invariant.told stopped).2]
  simp [jobs]

theorem Invariant.takeSentinel (invariant : Invariant maxtasks pool) {i completed : Nat}
    {inqueue : List (Option Nat)} (head : pool.inqueue = none :: inqueue) :
    Invariant maxtasks { pool with
      inqueue
      workers := pool.workers.set i ⟨completed, .exited⟩ } := by
  obtain ⟨stopped, sentinels, same⟩ := invariant.behind_sentinel head
  have done := invariant.untaken_of_sentinel head
  have unchanged : jobs inqueue ++ jobs pool.taskqueue = pool.untaken := by
    simp [untaken, jobs, head]
  refine ⟨?_, ⟨[], sentinels, same, fun _ => stopped⟩, invariant.taskqueue, invariant.told, ?_,
    fun _ => .inl (unchanged.trans done)⟩
  · rw [← invariant.history, ← unchanged]
    rfl
  · intro _ running
    exact absurd ((invariant.told stopped).1.symm.trans running) nofun

theorem Invariant.feedJob (invariant : Invariant maxtasks pool) {job : Nat}
    {taskqueue : List (Option Nat)} (feeding : pool.taskHandler = .feeding)
    (head : pool.taskqueue = some job :: taskqueue) :
    Invariant maxtasks { pool with taskqueue, inqueue := pool.inqueue ++ [some job] } := by
  apply invariant.move _ _ pool.taskHandler
  · simp [untaken, jobs, head]
  · obtain ⟨queued, sentinels, same, ended⟩ := invariant.inqueue
    cases sentinels with
    | zero => exact ⟨queued ++ [job], 0, by simp [same], nofun⟩
    | succ sentinels => exact absurd feeding (ended (Nat.succ_ne_zero sentinels))
  · intro _
    obtain ⟨queued, same⟩ := invariant.taskqueue feeding
    rw [head] at same
    cases queued with
    | nil => cases closed : pool.closed <;> simp [closed] at same
    | cons first queued =>
        simp only [List.map_cons, List.cons_append, List.cons.injEq] at same
        exact ⟨queued, same.2⟩
  · exact fun stopped => absurd feeding stopped

theorem Invariant.feedSentinel (invariant : Invariant maxtasks pool)
    {taskqueue : List (Option Nat)} (feeding : pool.taskHandler = .feeding)
    (head : pool.taskqueue = none :: taskqueue) :
    Invariant maxtasks { pool with taskqueue, taskHandler := .telling 0 } := by
  apply invariant.move pool.inqueue
  · simp [untaken, jobs, head]
  · obtain ⟨queued, sentinels, same, _⟩ := invariant.inqueue
    exact ⟨queued, sentinels, same, fun _ => nofun⟩
  · nofun
  · intro _
    obtain ⟨queued, same⟩ := invariant.taskqueue feeding
    rw [head] at same
    cases queued with
    | nil =>
        cases closed : pool.closed with
        | false => simp [closed] at same
        | true =>
            simp only [closed] at same
            cases same
            exact ⟨rfl, rfl⟩
    | cons first queued => cases same

theorem Invariant.tell (invariant : Invariant maxtasks pool) {i j : Nat}
    (telling : pool.taskHandler = .telling i) :
    Invariant maxtasks
      { pool with inqueue := pool.inqueue ++ [none], taskHandler := .telling j } := by
  have stopped : pool.taskHandler ≠ .feeding := by simp [telling]
  apply invariant.move _ pool.taskqueue
  · simp [untaken, jobs]
  · obtain ⟨queued, sentinels, same, _⟩ := invariant.inqueue
    refine ⟨queued, sentinels + 1, ?_, fun _ => nofun⟩
    rw [same, List.append_assoc, List.replicate_succ']
  · nofun
  · exact fun _ => invariant.told stopped

theorem Invariant.tellLast (invariant : Invariant maxtasks pool) {i : Nat}
    (telling : pool.taskHandler = .telling i) :
    Invariant maxtasks { pool with taskHandler := .finished } := by
  have stopped : pool.taskHandler ≠ .feeding := by simp [telling]
  apply invariant.move pool.inqueue pool.taskqueue _ rfl
  · obtain ⟨queued, sentinels, same, _⟩ := invariant.inqueue
    exact ⟨queued, sentinels, same, fun _ => nofun⟩
  · nofun
  · exact fun _ => invariant.told stopped

theorem Invariant.step (label : ClosingStep) {next : ClosingPool}
    (invariant : Invariant maxtasks pool) (provided : Provided maxtasks pool label)
    (taken : ClosingPool.step processes maxtasks pool label = some next) :
    Invariant maxtasks next := by
  cases label with
  | submit =>
      simp only [ClosingPool.step] at taken
      split at taken
      · cases taken
      · cases taken
        exact invariant.submit (by simpa using ‹¬pool.closed = true›)
  | close =>
      simp only [ClosingPool.step] at taken
      split at taken
      · cases taken
      · cases taken
        exact invariant.close (by simpa using ‹¬pool.closed = true›) (provided rfl)
  | feed =>
      simp only [ClosingPool.step] at taken
      split at taken
      · cases taken
        exact invariant.feedJob ‹_› ‹_›
      · cases taken
        exact invariant.feedSentinel ‹_› ‹_›
      · cases taken
  | tell =>
      simp only [ClosingPool.step] at taken
      split at taken
      · rename_i i telling
        split at taken
        · cases taken
          exact invariant.tell telling
        · cases taken
          exact invariant.tellLast telling
      · cases taken
  | take i =>
      simp only [ClosingPool.step] at taken
      split at taken
      · rename_i completed entry inqueue found head
        split at taken
        · rename_i mayTake
          split at taken
          · cases taken
            exact invariant.takeJob found head mayTake
          · cases taken
            exact invariant.takeSentinel head
        · cases taken
      · cases taken
  | finish i =>
      simp only [ClosingPool.step] at taken
      split at taken
      · rename_i completed found
        cases taken
        apply invariant.staff
        intro covered
        apply covered.set found (.inl (by simp))
        intro quota _
        simp only [QuotaWorker.remaining]
        omega
      · cases taken
  | quit i =>
      simp only [ClosingPool.step] at taken
      split at taken
      · rename_i completed found
        split at taken
        · cases taken
        · rename_i exhausted
          cases taken
          apply invariant.staff
          intro covered
          apply covered.set found
          · apply Or.inr
            intro unlimited
            subst unlimited
            exact exhausted rfl
          · intro quota limited
            cases limited
            have done : quota ≤ completed := by simpa [QuotaWorker.mayTake] using exhausted
            simp only [QuotaWorker.remaining]
            omega
      · cases taken
  | maintain =>
      simp only [ClosingPool.step] at taken
      split at taken
      · cases taken
        exact invariant.staff Covered.joinExitedWorkers
      · cases taken
  | check =>
      simp only [ClosingPool.step] at taken
      split at taken
      · cases taken
        exact invariant.staff id
      · split at taken
        · cases taken
          exact invariant.staff id
        · cases taken
          exact invariant.staff id
      · cases taken
  | create =>
      simp only [ClosingPool.step] at taken
      split at taken
      · cases taken
        exact invariant.staff fun covered => covered.create .new
      · cases taken
  | reap =>
      simp only [ClosingPool.step] at taken
      split at taken
      · cases taken
        exact invariant.staff Covered.joinExitedWorkers
      · cases taken

theorem Invariant.drained (invariant : Invariant maxtasks pool) : pool.Drained := by
  intro closed gone job submitted
  have nothing : pool.untaken = [] := by
    cases invariant.covered closed with
    | inl done => exact done
    | inr covered =>
        cases maxtasks with
        | none =>
            obtain ⟨worker, member, alive⟩ := covered
            exact absurd (gone worker member) alive
        | some quota =>
            have none_ : pool.capacity quota = 0 := by
              apply Tally.tally_eq_zero
              intro worker member
              simp [QuotaWorker.remaining, gone worker member]
            have covered : pool.untaken.length ≤ pool.capacity quota := covered
            exact List.eq_nil_of_length_eq_zero (by omega)
  have history := invariant.history
  rw [nothing, List.append_nil] at history
  rw [history]
  exact List.mem_range.mpr submitted

/-- No job is left behind by a shutdown that starts when the quotas of the workers
are enough for the jobs. -/
theorem drains {processes : Nat} (some_ : 1 ≤ processes) (maxtasks : Option Nat)
    {labels : List ClosingStep} {pool : ClosingPool}
    (provided : Along (step processes maxtasks) (Provided maxtasks) (init processes) labels)
    (ran : run (step processes maxtasks) (init processes) labels = some pool) : pool.Drained :=
  have invariant : Invariant maxtasks pool := invariant_along
    (fun _ label _ invariant provided taken => Invariant.step label invariant provided taken)
    (init_invariant some_) provided ran
  invariant.drained

/-- The worker of the first job is replaced before the pool is closed. -/
theorem drains_recycledWorker :
    ∃ labels pool, run (step 1 (some 1)) (init 1) labels = some pool ∧ pool.Drained := by
  have along : Along (step 1 (some 1)) (Provided (some 1)) (init 1)
      [.submit, .submit, .feed, .take 0, .finish 0, .quit 0, .maintain, .check, .create, .close,
        .feed, .take 0, .finish 0, .quit 0] := by
    have other : ∀ pool label, label ≠ ClosingStep.close → Provided (some 1) pool label :=
      fun _ _ different same => absurd same different
    iterate 9 refine .cons (other _ _ nofun) rfl ?_
    refine .cons ?_ rfl ?_
    · intro _ quota member
      cases member
      decide
    iterate 4 refine .cons (other _ _ nofun) rfl ?_
    exact True.intro
  have ran : run (step 1 (some 1)) (init 1)
      [.submit, .submit, .feed, .take 0, .finish 0, .quit 0, .maintain, .check, .create, .close,
        .feed, .take 0, .finish 0, .quit 0] = some _ := rfl
  exact ⟨_, _, ran, drains (by decide) (some 1) along ran⟩

/-- Two jobs for a worker with a quota of one task, which the supervisor does not
replace once the pool is closed. -/
theorem not_drained :
    ∃ labels pool, run (step 1 (some 1)) (init 1) labels = some pool ∧ ¬pool.Drained := by
  have ran : run (step 1 (some 1)) (init 1)
      [.submit, .submit, .close, .feed, .feed, .take 0, .finish 0, .quit 0] = some _ := rfl
  refine ⟨_, _, ran, ?_⟩
  intro drained
  exact absurd (drained rfl (by decide) 1 (by decide)) (by decide)

def steps (quota : Nat) (worker : QuotaWorker) : Nat :=
  match worker.duty with
  | .waiting => 2 * (quota - worker.completed) + 1
  | .busy => 2 * max 1 (quota - worker.completed)
  | .exited => 0

theorem Invariant.head_of_nil (invariant : Invariant maxtasks pool) (empty : pool.inqueue = [])
    (some_ : 0 < pool.untaken.length) :
    ∃ job taskqueue, pool.taskHandler = .feeding ∧ pool.taskqueue = some job :: taskqueue := by
  have waiting : pool.untaken = jobs pool.taskqueue := by simp [untaken, empty, jobs]
  rw [waiting] at some_
  cases Decidable.em (pool.taskHandler = .feeding) with
  | inr stopped =>
      rw [(invariant.told stopped).2] at some_
      cases some_
  | inl feeding =>
      obtain ⟨queued, same⟩ := invariant.taskqueue feeding
      cases queued with
      | nil => cases closed : pool.closed <;> simp [same, closed, jobs] at some_
      | cons job queued => exact ⟨job, _, feeding, same⟩

theorem Invariant.proceeds {quota i : Nat} {worker : QuotaWorker}
    (invariant : Invariant (some quota) pool) (processes : Nat)
    (found : pool.workers[i]? = some worker) (alive : worker.duty ≠ .exited)
    (short : pool.capacity quota < pool.untaken.length) :
    ∃ label next, ClosingPool.step processes (some quota) pool label = some next ∧
      label ≠ .close ∧ next.closed = pool.closed ∧
      next.capacity quota < next.untaken.length ∧
      tally (steps quota) next.workers + next.taskqueue.length <
        tally (steps quota) pool.workers + pool.taskqueue.length := by
  obtain ⟨completed, duty⟩ := worker
  have capacities := fun new => Tally.tally_set (QuotaWorker.remaining quota) found new
  have weights := fun new => Tally.tally_set (steps quota) found new
  unfold capacity at short
  cases duty with
  | exited => exact absurd rfl alive
  | busy =>
      refine ⟨.finish i, { pool with workers := pool.workers.set i ⟨completed + 1, .waiting⟩ }, ?_,
        nofun, rfl, ?_, ?_⟩
      · simp [ClosingPool.step, found]
      · have total := capacities ⟨completed + 1, .waiting⟩
        change tally _ (pool.workers.set i _) < pool.untaken.length
        simp only [QuotaWorker.remaining] at total ⊢
        omega
      · have total := weights ⟨completed + 1, .waiting⟩
        change tally _ (pool.workers.set i _) + pool.taskqueue.length < _
        simp only [steps] at total ⊢
        omega
  | waiting =>
      cases Nat.decLt completed quota with
      | isFalse exhausted =>
          refine ⟨.quit i, { pool with workers := pool.workers.set i ⟨completed, .exited⟩ }, ?_,
            nofun, rfl, ?_, ?_⟩
          · simp [ClosingPool.step, found, QuotaWorker.mayTake, exhausted]
          · have total := capacities ⟨completed, .exited⟩
            change tally _ (pool.workers.set i _) < pool.untaken.length
            simp only [QuotaWorker.remaining] at total ⊢
            omega
          · have total := weights ⟨completed, .exited⟩
            change tally _ (pool.workers.set i _) + pool.taskqueue.length < _
            simp only [steps] at total ⊢
            omega
      | isTrue below =>
          cases inqueue : pool.inqueue with
          | nil =>
              obtain ⟨job, taskqueue, feeding, head⟩ := invariant.head_of_nil inqueue (by omega)
              refine ⟨.feed, { pool with taskqueue, inqueue := pool.inqueue ++ [some job] }, ?_,
                nofun, rfl, ?_, ?_⟩
              · simp [ClosingPool.step, feeding, head]
              · have same : untaken { pool with
                    taskqueue, inqueue := pool.inqueue ++ [some job] } = pool.untaken := by
                  simp [untaken, jobs, head]
                rw [same]
                exact short
              · simp [head]
          | cons entry rest =>
              cases entry with
              | none =>
                  have done := invariant.untaken_of_sentinel inqueue
                  simp [done] at short
              | some job =>
                  refine ⟨.take i, { pool with
                    inqueue := rest
                    taken := pool.taken ++ [job]
                    workers := pool.workers.set i ⟨completed, .busy⟩ }, ?_, nofun, rfl, ?_, ?_⟩
                  · simp [ClosingPool.step, found, inqueue, QuotaWorker.mayTake, below]
                  · have total := capacities ⟨completed, .busy⟩
                    have shorter : pool.untaken = job :: (jobs rest ++ jobs pool.taskqueue) := by
                      simp [untaken, jobs, inqueue]
                    rw [shorter, List.length_cons] at short
                    change tally _ (pool.workers.set i _) <
                      (jobs rest ++ jobs pool.taskqueue).length
                    simp only [QuotaWorker.remaining] at total ⊢
                    omega
                  · have total := weights ⟨completed, .busy⟩
                    change tally _ (pool.workers.set i _) + pool.taskqueue.length < _
                    simp only [steps] at total ⊢
                    omega

/-- A shutdown whose workers have smaller quotas than there are jobs may leave a
job behind. -/
theorem Invariant.leaves_job {quota : Nat} (invariant : Invariant (some quota) pool)
    (closed : pool.closed = true) (short : pool.capacity quota < pool.untaken.length) :
    ∃ labels last, run (ClosingPool.step processes (some quota)) pool labels = some last ∧
      ¬last.Drained := by
  generalize bound : tally (steps quota) pool.workers + pool.taskqueue.length = rounds
  induction rounds using Nat.strongRecOn generalizing pool with
  | ind rounds ih =>
      cases Decidable.em (∃ worker ∈ pool.workers, worker.duty ≠ .exited) with
      | inl someone =>
          obtain ⟨worker, member, alive⟩ := someone
          obtain ⟨i, found⟩ := List.getElem?_of_mem member
          obtain ⟨label, next, taken, other, same, short, fewer⟩ :=
            invariant.proceeds processes found alive short
          have provided : Provided (some quota) pool label := fun close => absurd close other
          obtain ⟨labels, last, ran, left⟩ := ih _ (bound ▸ fewer)
            (invariant.step label provided taken) (same.trans closed) short rfl
          exact ⟨label :: labels, last, run_cons_eq_some.mpr ⟨next, taken, ran⟩, left⟩
      | inr nobody =>
          refine ⟨[], pool, rfl, ?_⟩
          intro drained
          obtain ⟨job, waits⟩ : ∃ job, job ∈ pool.untaken :=
            List.exists_mem_of_length_pos (Nat.zero_lt_of_lt short)
          have history := invariant.history
          have submitted : job < pool.submitted := by
            rw [← List.mem_range, ← history]
            exact List.mem_append_right _ waits
          have taken : job ∈ pool.taken := by
            apply drained closed _ job submitted
            intro worker member
            apply Decidable.byContradiction
            exact fun alive => nobody ⟨worker, member, alive⟩
          have distinct : (pool.taken ++ pool.untaken).Nodup := history ▸ List.nodup_range
          exact (List.nodup_append.mp distinct).2.2 job taken job waits rfl

end ClosingPool

end Billiard
