import Billiard.Pool.Supervision

/-! A pool with `putlocks`: `apply_async` takes a slot, and a slot is given back for each READY of
an open job and for each worker that a pass has reaped. -/

namespace Billiard

open Transition

structure LaxBoundedSemaphore where
  value : Nat
  initialValue : Int
deriving DecidableEq, Repr

namespace LaxBoundedSemaphore

def init (value : Nat) : LaxBoundedSemaphore := ⟨value, value⟩

/-- A caller that finds no slot waits. -/
def acquire (putlock : LaxBoundedSemaphore) : Option LaxBoundedSemaphore :=
  match putlock.value with
  | 0 => none
  | value + 1 => some { putlock with value }

def release (putlock : LaxBoundedSemaphore) : LaxBoundedSemaphore :=
  if (putlock.value : Int) < putlock.initialValue then
    { putlock with value := putlock.value + 1 }
  else putlock

def grow (putlock : LaxBoundedSemaphore) : LaxBoundedSemaphore :=
  ⟨putlock.value + 1, putlock.initialValue + 1⟩

def shrink (putlock : LaxBoundedSemaphore) : Option LaxBoundedSemaphore :=
  acquire { putlock with initialValue := putlock.initialValue - 1 }

end LaxBoundedSemaphore

/-- `joined` are the reaped workers for which `_maintain_pool` has still to give back a slot. -/
structure SlottedPool (α : Type u) where
  pool : Pool α
  putlock : LaxBoundedSemaphore
  joined : Nat

inductive SlotStep (α : Type u) where
  | applyAsync (options : ApplyOptions)
  | pool (label : PoolStep α)
  | hardTimeout (number : Nat)
  | release
deriving DecidableEq

namespace Pool

def unresolved (pool : Pool α) : Nat := tally (fun job => if job.ready then 0 else 1) pool.jobs

/-- The message that comes next is the READY of a job that is in the cache and not ready. -/
def answersNext (pool : Pool α) : Bool :=
  match pool.outqueue with
  | [] => false
  | report :: _ =>
      match report.message with
      | .ack .. => false
      | .ready _ => pool.jobs[report.task.job]?.any fun job => job.cached && !job.ready

end Pool

namespace SlottedPool

def init (n : Nat) : SlottedPool α := ⟨.init, .init n, 0⟩

/-- `on_hard_timeout`, up to the signals to the worker. -/
def onHardTimeout (iter : α → List α) (state : SlottedPool α) (number : Nat) :
    Option (SlottedPool α) :=
  match state.pool.jobs[number]? with
  | some (.apply result) =>
      if result.ready || state.pool.raised.isSome then none
      else
        let failure := Outcome.failure (.timeLimitExceeded result.timeout)
        some { state with
          pool := state.pool.store number
            ((Job.apply result).set iter (.position number) failure) }
  | _ => none

def step (iter : α → List α) (state : SlottedPool α) : SlotStep α → Option (SlottedPool α)
  | .applyAsync options =>
      match state.putlock.acquire with
      | none => none
      | some putlock =>
          (state.pool.step iter (.submit (.apply options))).map fun pool =>
            { state with pool, putlock }
  | .pool (.submit _) => none
  | .pool .handle =>
      (state.pool.step iter .handle).map fun pool =>
        let putlock := if state.pool.answersNext then state.putlock.release else state.putlock
        { state with pool, putlock }
  | .pool (.join shutdown) =>
      if state.joined = 0 then
        (state.pool.step iter (.join shutdown)).map fun pool => { state with pool }
      else none
  | .pool .advance =>
      (state.pool.step iter .advance).map fun pool =>
        match state.pool.pass with
        | .scanning cleaned _ [] => { state with pool, joined := cleaned.length }
        | _ => { state with pool }
  | .pool label => (state.pool.step iter label).map fun pool => { state with pool }
  | .hardTimeout number => state.onHardTimeout iter number
  | .release =>
      match state.joined with
      | 0 => none
      | joined + 1 => some { state with putlock := state.putlock.release, joined }

/-- The slot given back for a reaped worker is that of a job which was resolved without giving it
back, or there is none to give back. -/
def Covered (state : SlottedPool α) (label : SlotStep α) : Prop :=
  label = .release → (state.putlock.value : Int) < state.putlock.initialValue →
    state.pool.unresolved + state.putlock.value < state.putlock.initialValue

instance [DecidableEq α] (state : SlottedPool α) (label : SlotStep α) :
    Decidable (state.Covered label) := by
  unfold Covered
  infer_instance

end SlottedPool

namespace Pool

variable {iter : α → List α} {pool next : Pool α} {label : PoolStep α}

def Applies (pool : Pool α) : Prop := ∀ job ∈ pool.jobs, job.isApply = true

theorem unresolved_store {number : Nat} {before : Job α} {result : Job α × Option Raised}
    (found : pool.jobs[number]? = some before)
    (kept : before.ready = true → result.1.ready = true) :
    (pool.store number result).unresolved ≤ pool.unresolved := by
  have total := Tally.tally_set (fun job => if job.ready then 0 else 1) found result.1
  unfold unresolved
  simp only [Pool.store]
  cases ready : before.ready with
  | true =>
      simp only [ready, kept ready, if_true] at total
      omega
  | false =>
      simp only [ready, Bool.false_eq_true, if_false] at total
      split at total <;> omega

theorem unresolved_resolved {number : Nat} {before : Job α} {result : Job α × Option Raised}
    (found : pool.jobs[number]? = some before) (unready : before.ready = false)
    (ready : result.1.ready = true) :
    (pool.store number result).unresolved + 1 = pool.unresolved := by
  have total := Tally.tally_set (fun job => if job.ready then 0 else 1) found result.1
  simp only [unready, ready, if_true, Bool.false_eq_true, if_false] at total
  exact total

theorem Applies.store (applies : pool.Applies) {number : Nat} {before : Job α}
    {result : Job α × Option Raised} (found : pool.jobs[number]? = some before)
    (kept : result.1.isApply = before.isApply) : (pool.store number result).Applies := by
  intro job member
  cases List.mem_or_eq_of_mem_set member with
  | inl old => exact applies job old
  | inr new =>
      rw [new, kept]
      exact applies before (List.mem_of_getElem? found)

theorem isApply_scanJob (iter : α → List α) (clock : Nat) (cleaned : List Worker)
    (allPids : List Nat) (job : Job α) :
    (scanJob iter clock cleaned allPids job).1.isApply = job.isApply := by
  unfold scanJob
  split
  · split
    · rfl
    · simp only
      split
      · exact (job.progress_setTerminated iter _).isApply
      · exact job.isApply_setWorkerLost _ _
  · cases job <;> rfl

theorem Applies.keep (applies : pool.Applies) {number : Nat} {before : Job α}
    {result : Job α × Option Raised} (found : pool.jobs[number]? = some before)
    (isApply : result.1.isApply = before.isApply)
    (ready : before.ready = true → result.1.ready = true) :
    (pool.store number result).Applies ∧
      (pool.store number result).unresolved ≤ pool.unresolved :=
  ⟨applies.store found isApply, unresolved_store found ready⟩

/-- Only a submission opens a job. -/
theorem unresolved_of_step (applies : pool.Applies) (taken : pool.step iter label = some next)
    (notSubmit : ∀ submission, label ≠ .submit submission) (notHandle : label ≠ .handle) :
    next.Applies ∧ next.unresolved ≤ pool.unresolved := by
  obtain ⟨_, moved⟩ := moves_of_step taken
  cases moved with
  | submit submission => exact absurd rfl (notSubmit submission)
  | handle => exact absurd rfl notHandle
  | @setLength _ _ taskqueue job head found =>
      have progress := job.progress_setLength
      have kept : { pool with taskqueue }.Applies := applies
      exact kept.keep found (progress _).isApply (progress _).ready
  | @mark shutdown now number selected _ lostRet job pass found lost late =>
      have progress := job.progress_set iter .none (.failure (.workerLost lostRet number))
      have kept : { pool with
          pass := .marking shutdown (some (now.getD pool.clock)) selected }.Applies := applies
      exact kept.keep found progress.isApply progress.ready
  | @scan cleaned allPids number todo job pass found =>
      have kept : { pool with pass := .scanning cleaned allPids todo }.Applies := applies
      refine kept.keep found (isApply_scanJob iter pool.clock cleaned allPids job) fun ready => ?_
      rw [scanJob_of_ready ready]
      exact ready
  | _ => exact ⟨applies, Nat.le_refl _⟩

theorem unresolved_handle (applies : pool.Applies)
    (taken : pool.step iter .handle = some next) :
    next.Applies ∧ next.unresolved + (if pool.answersNext then 1 else 0) ≤ pool.unresolved := by
  obtain ⟨_, moved⟩ := moves_of_step taken
  cases moved with
  | @handle report outqueue head =>
  unfold answersNext onStateChange
  simp only [head]
  cases report.message with
  | ack timeAccepted pid synqWFd =>
      simp only [Bool.false_eq_true, if_false, Nat.add_zero]
      have kept : { pool with
          outqueue
          acks := pool.acks ++ [Acknowledgement.mk report.serial pid report.task] }.Applies :=
        applies
      split
      · exact ⟨applies, Nat.le_refl _⟩
      · rename_i job found
        have acked := job.acked report.task.i timeAccepted pid synqWFd
        split
        · exact kept.keep found acked.isApply acked.ready.trans
        · exact ⟨applies, Nat.le_refl _⟩
  | ready outcome =>
      have kept : { pool with
          outqueue, readies := pool.readies ++ [report.task] }.Applies := applies
      simp only
      cases found : pool.jobs[report.task.job]? with
      | none => exact ⟨applies, Nat.le_refl _⟩
      | some job =>
          have progress := job.progress_set iter report.task.i outcome
          cases cached : job.cached with
          | false =>
              simp only [Option.any_some, cached, Bool.false_and, Bool.false_eq_true, if_false,
                Nat.add_zero]
              exact ⟨applies, Nat.le_refl _⟩
          | true =>
              simp only [Option.any_some, cached, Bool.true_and, if_true]
              cases ready : job.ready with
              | true =>
                  simp only [Bool.not_true, Bool.false_eq_true, if_false, Nat.add_zero]
                  exact kept.keep found progress.isApply progress.ready
              | false =>
                  simp only [Bool.not_false, if_true]
                  have isApply := applies job (List.mem_of_getElem? found)
                  have resolved := Job.apply_ready_set iter isApply report.task.i outcome
                  exact ⟨kept.store found progress.isApply,
                    Nat.le_of_eq (@unresolved_resolved _ { pool with
                      outqueue, readies := pool.readies ++ [report.task] } _ _ _ found ready
                      resolved)⟩

end Pool

namespace SlottedPool

variable {iter : α → List α} {n : Nat} {state next : SlottedPool α}

/-- Every unresolved job has a slot of its own. -/
structure Sound (n : Nat) (state : SlottedPool α) : Prop where
  applies : state.pool.Applies
  initialValue : state.putlock.initialValue = n
  bounded : state.pool.unresolved + state.putlock.value ≤ n

theorem init_sound (n : Nat) : (init n : SlottedPool α).Sound n where
  applies := by simp [Pool.Applies, init, Pool.init]
  initialValue := rfl
  bounded := Nat.le_of_eq (Nat.zero_add n)

theorem Sound.turn (sound : state.Sound n) {pool : Pool α} {joined : Nat}
    (kept : pool.Applies ∧ pool.unresolved ≤ state.pool.unresolved) :
    { state with pool, joined }.Sound n where
  applies := kept.1
  initialValue := sound.initialValue
  bounded := Nat.le_trans (Nat.add_le_add_right kept.2 _) sound.bounded

theorem Sound.applyAsync (sound : state.Sound n) {options : ApplyOptions}
    {putlock : LaxBoundedSemaphore} {pool : Pool α}
    (acquired : state.putlock.acquire = some putlock)
    (taken : state.pool.step iter (.submit (.apply options)) = some pool) :
    { state with pool, putlock }.Sound n := by
  have bounded := sound.bounded
  obtain ⟨_, moved⟩ := Pool.moves_of_step taken
  cases moved
  unfold LaxBoundedSemaphore.acquire at acquired
  split at acquired
  · cases acquired
  · rename_i value slots
    cases acquired
    exact {
      applies := by
        intro job member
        cases List.mem_append.mp member with
        | inl old => exact sound.applies job old
        | inr new =>
            rw [List.mem_singleton.mp new]
            rfl
      initialValue := sound.initialValue
      bounded := by
        simp only [Pool.unresolved, Tally.tally_append, slots, Tally.tally_cons,
          Tally.tally_nil] at bounded ⊢
        split <;> omega }

theorem Sound.release (sound : state.Sound n) (covered : state.Covered .release) {joined : Nat} :
    { state with putlock := state.putlock.release, joined }.Sound n := by
  have bounded := sound.bounded
  have initialValue := sound.initialValue
  unfold LaxBoundedSemaphore.release
  split
  · rename_i few
    have spare := covered rfl few
    exact { sound with
      bounded := by
        rw [initialValue] at spare
        simp only
        omega }
  · exact { sound with }

theorem Sound.handle (sound : state.Sound n) {pool : Pool α}
    (taken : state.pool.step iter .handle = some pool) :
    Sound n { state with
      pool
      putlock := if state.pool.answersNext then state.putlock.release else state.putlock } := by
  obtain ⟨applies, fewer⟩ := Pool.unresolved_handle sound.applies taken
  have bounded := sound.bounded
  have initialValue := sound.initialValue
  split at fewer
  · rename_i answers
    simp only [answers, if_true]
    unfold LaxBoundedSemaphore.release
    split
    · exact ⟨applies, initialValue, by simp only; omega⟩
    · exact ⟨applies, initialValue, by simp only; omega⟩
  · rename_i silent
    simp only [eq_false_of_ne_true silent, Bool.false_eq_true, if_false]
    exact ⟨applies, initialValue, by simp only; omega⟩

theorem Sound.hardTimeout (sound : state.Sound n) {number : Nat}
    (taken : state.onHardTimeout iter number = some next) : next.Sound n := by
  unfold onHardTimeout at taken
  split at taken
  · rename_i result found
    split at taken
    · cases taken
    · cases taken
      have progress := (Job.apply result).progress_set iter (.position number)
        (.failure (.timeLimitExceeded result.timeout))
      exact sound.turn (sound.applies.keep found progress.isApply progress.ready)
  · cases taken

theorem Sound.step (state : SlottedPool α) (label : SlotStep α) (next : SlottedPool α)
    (sound : state.Sound n) (covered : state.Covered label)
    (taken : state.step iter label = some next) : next.Sound n := by
  unfold SlottedPool.step at taken
  split at taken
  · split at taken
    · cases taken
    · rename_i acquired
      simp only [Option.map_eq_some_iff] at taken
      obtain ⟨pool, submitted, rfl⟩ := taken
      exact sound.applyAsync acquired submitted
  · cases taken
  · simp only [Option.map_eq_some_iff] at taken
    obtain ⟨pool, handled, rfl⟩ := taken
    exact sound.handle handled
  · simp only [Option.ite_none_right_eq_some, Option.map_eq_some_iff] at taken
    obtain ⟨_, pool, joined, rfl⟩ := taken
    exact sound.turn (Pool.unresolved_of_step sound.applies joined (by simp) (by simp))
  · simp only [Option.map_eq_some_iff] at taken
    obtain ⟨pool, advanced, rfl⟩ := taken
    have kept := Pool.unresolved_of_step sound.applies advanced (by simp) (by simp)
    split
    · exact sound.turn kept
    · exact sound.turn kept
  · rename_i label notSubmit notHandle _ _
    simp only [Option.map_eq_some_iff] at taken
    obtain ⟨pool, moved, rfl⟩ := taken
    exact sound.turn (Pool.unresolved_of_step sound.applies moved
      (fun submission => notSubmit submission) notHandle)
  · exact sound.hardTimeout taken
  · split at taken
    · cases taken
    · cases taken
      exact sound.release covered

/-- As many jobs as there are slots can be submitted, and nothing else need happen. -/
theorem submits (iter : α → List α) (state : SlottedPool α) (calm : state.pool.raised = none)
    {count : Nat} (free : count ≤ state.putlock.value) :
    ∃ last, run (step iter) state (List.replicate count (.applyAsync {})) = some last ∧
      last.pool.unresolved = state.pool.unresolved + count := by
  induction count generalizing state with
  | zero => exact ⟨state, rfl, rfl⟩
  | succ count ih =>
      obtain ⟨value, slots⟩ : ∃ value, state.putlock.value = value + 1 :=
        Nat.exists_eq_succ_of_ne_zero (by omega)
      let taken : SlottedPool α := { state with
        pool := { state.pool with
          jobs := state.pool.jobs ++ [(Submission.apply {}).job state.pool.jobs.length]
          taskqueue := state.pool.taskqueue ++
            (Submission.apply {}).entries state.pool.jobs.length }
        putlock := { state.putlock with value } }
      have moved : state.step iter (.applyAsync {}) = some taken := by
        simp [SlottedPool.step, LaxBoundedSemaphore.acquire, slots, Pool.step, calm, taken]
      have more : taken.pool.unresolved = state.pool.unresolved + 1 := by
        simp only [taken, Pool.unresolved, Tally.tally_append]
        rfl
      obtain ⟨last, ran, open_⟩ := ih taken calm (by simp only [taken]; omega)
      refine ⟨last, run_cons_eq_some.mpr ⟨taken, moved, ran⟩, ?_⟩
      omega

/-- A surplus slot can always be used. -/
theorem overflows_of_surplus (iter : α → List α) (sound : state.Sound n)
    (calm : state.pool.raised = none) (joined : state.joined ≠ 0)
    (surplus : ¬state.Covered .release) :
    ∃ labels last, run (step iter) state labels = some last ∧ n < last.pool.unresolved := by
  have bounded := sound.bounded
  have initialValue := sound.initialValue
  obtain ⟨more, someJoined⟩ := Nat.exists_eq_succ_of_ne_zero joined
  obtain ⟨few, taken⟩ : (state.putlock.value : Int) < state.putlock.initialValue ∧
      state.putlock.initialValue ≤ state.pool.unresolved + state.putlock.value := by
    simpa [Covered] using surplus
  let next : SlottedPool α := { state with putlock := state.putlock.release, joined := more }
  have released : state.step iter .release = some next := by
    simp [SlottedPool.step, someJoined, next]
  have slots : next.putlock.value = state.putlock.value + 1 := by
    simp [next, LaxBoundedSemaphore.release, few]
  obtain ⟨last, ran, open_⟩ := submits iter next calm (Nat.le_of_eq slots.symm)
  refine ⟨_, last, run_cons_eq_some.mpr ⟨next, released, ran⟩, ?_⟩
  simp only [next] at open_
  omega

/-- A worker takes the first job, whose ACK is handled. -/
def accepted : List (SlotStep Nat) :=
  [.pool (.spawn 7), .applyAsync {}, .pool .feed, .pool (.take 0), .pool (.sendAck 0 none),
    .pool .handle]

/-- The worker is reaped, and another one is started. -/
def replaced (code : Int) (rounds : Nat) : List (SlotStep Nat) :=
  [.pool (.exit 0 code), .pool (.join false)] ++ List.replicate rounds (.pool .advance) ++
    [.pool (.spawn 8), .release]

end SlottedPool

end Billiard
