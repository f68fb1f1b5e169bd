import Billiard.Pool.Ledger

/-! `shrink` in a running pool: it looks at the workers one after the other, and tells those to
end of which the cache shows no ACK. -/

namespace Billiard

open Transition

/-- A call of `shrink` that has told `i` workers: `position` is where it reads `_pool` next, and
`chosen` was found inactive. -/
structure ShrinkCall where
  n : Int
  i : Nat
  position : Nat
  chosen : Option Nat
deriving DecidableEq, Repr

/-- `told` are the workers that `terminate_controlled` was called for. -/
structure Shrinking (α : Type u) where
  pool : Pool α
  call : Option ShrinkCall
  told : List Nat

inductive ShrinkStep (α : Type u) where
  | pool (label : PoolStep α)
  | shrink (n : Int)
  | look
  | terminate
deriving DecidableEq

def Pool.workerActive (pool : Pool α) (worker : Worker) : Bool :=
  pool.jobs.any fun job => job.cached && job.workerPids.contains worker.pid

namespace Pool

def Held (pool : Pool α) (entry : Nat × Task) : Prop :=
  ∃ worker ∈ pool.workers, worker.serial = entry.1 ∧ worker.task = some entry.2 ∧
    worker.exitcode = none

def Answered (pool : Pool α) (task : Task) : Prop :=
  task ∈ pool.readies ∨
    ∃ report ∈ pool.outqueue, report.task = task ∧ ∃ outcome, report.message = .ready outcome

/-- Every task that was taken is with a worker that runs, or has been answered. -/
def NothingLost (pool : Pool α) : Prop :=
  ∀ entry ∈ pool.taken, pool.Held entry ∨ pool.Answered entry.2

end Pool

namespace Shrinking

def init : Shrinking α := ⟨.init, none, []⟩

def step (iter : α → List α) (state : Shrinking α) (label : ShrinkStep α) :
    Option (Shrinking α) :=
  match label, state.call with
  | .pool label, _ => (state.pool.step iter label).map fun pool => { state with pool }
  | .shrink n, none => some { state with call := some ⟨n, 0, 0, none⟩ }
  | .look, some ⟨n, i, position, none⟩ =>
      match state.pool.workers[position]? with
      -- `ValueError`
      | none => some { state with call := none }
      | some worker =>
          let chosen := if state.pool.workerActive worker then none else some worker.serial
          some { state with call := some ⟨n, i, position + 1, chosen⟩ }
  -- `self._putlock.shrink()` may have waited for a slot before this
  | .terminate, some ⟨n, i, position, some serial⟩ =>
      some { state with
        call := if (i : Int) ≥ n - 1 then none else some ⟨n, i + 1, position, none⟩
        told := state.told ++ [serial] }
  | _, _ => none

/-- The worker is told to end, or will be. -/
def Marked (state : Shrinking α) (serial : Nat) : Prop :=
  serial ∈ state.told ∨ ∃ call ∈ state.call, call.chosen = some serial

/-- The one that `shrink` tells to end has no task. -/
def Spares (state : Shrinking α) (label : ShrinkStep α) : Prop :=
  label = .terminate → ∀ call ∈ state.call, ∀ serial ∈ call.chosen,
    ∀ worker ∈ state.pool.workers, worker.serial = serial → worker.task = none

instance [DecidableEq α] (state : Shrinking α) (label : ShrinkStep α) :
    Decidable (state.Spares label) := by
  unfold Spares
  infer_instance

/-- `shrink` looks at a worker when the ACK of its task has been handled and the job is still in the
cache, and no worker takes a task after that if it is to end. -/
def Informed (state : Shrinking α) (label : ShrinkStep α) : Prop :=
  match label with
  | .look => ∀ call ∈ state.call, ∀ worker ∈ state.pool.workers[call.position]?,
      ∀ task ∈ worker.task, ∃ job ∈ state.pool.jobs[task.job]?,
        job.cached = true ∧ worker.pid ∈ job.workerPids
  | .pool (.take serial) => ¬state.Marked serial
  | _ => True

instance (state : Shrinking α) (serial : Nat) : Decidable (state.Marked serial) := by
  unfold Marked
  infer_instance

instance (state : Shrinking α) (label : ShrinkStep α) : Decidable (state.Informed label) := by
  unfold Informed
  split <;> infer_instance

/-- No worker leaves with a task unless it was told to end. -/
def Healthy (state : Shrinking α) (label : ShrinkStep α) : Prop :=
  match label with
  | .pool (.exit serial _) => serial ∈ state.told ∨
      ∀ worker ∈ state.pool.running serial, worker.task = none
  | _ => True

instance (state : Shrinking α) (label : ShrinkStep α) : Decidable (state.Healthy label) := by
  unfold Healthy
  split <;> infer_instance

end Shrinking

namespace Pool

variable {iter : α → List α} {pool next : Pool α} {label : PoolStep α}

theorem onStateChange_eq (iter : α → List α) (pool : Pool α) (report : Report α) :
    ∃ jobs raised acks readies,
      pool.onStateChange iter report = { pool with jobs, raised, acks, readies } ∧
      (∀ task ∈ pool.readies, task ∈ readies) ∧
      ∀ outcome, report.message = .ready outcome → report.task ∈ readies := by
  unfold onStateChange
  cases report.message with
  | ack timeAccepted pid synqWFd =>
      simp only
      split
      · exact ⟨_, _, _, _, rfl, fun _ => id, nofun⟩
      · split <;> exact ⟨_, _, _, _, rfl, fun _ => id, nofun⟩
  | ready outcome =>
      have answered : ∀ other : Outcome α, Message.ready outcome = .ready other →
          report.task ∈ pool.readies ++ [report.task] :=
        fun _ _ => List.mem_append_right _ (List.mem_singleton_self _)
      simp only
      split
      · exact ⟨_, _, _, _, rfl, fun _ => List.mem_append_left _, answered⟩
      · split <;> exact ⟨_, _, _, _, rfl, fun _ => List.mem_append_left _, answered⟩

theorem serials_le_of_step (taken : pool.step iter label = some next) :
    pool.serials ≤ next.serials := by
  obtain ⟨_, moved⟩ := moves_of_step taken
  cases moved with
  | spawn => exact Nat.le_succ _
  | @handle report outqueue head =>
      obtain ⟨_, _, _, _, after, _⟩ := onStateChange_eq iter { pool with outqueue } report
      rw [after]
  | _ => exact Nat.le_refl _

/-- A worker gets a task only by taking it. -/
theorem worker_of_step (taken : pool.step iter label = some next) {worker : Worker}
    (member : worker ∈ next.workers) :
    worker.serial = pool.serials ∨ ∃ old ∈ pool.workers, old.serial = worker.serial ∧
      (worker.task = old.task ∨ worker.task = none ∨ label = .take worker.serial) := by
  obtain ⟨_, moved⟩ := moves_of_step taken
  have same : worker ∈ pool.workers → worker.serial = pool.serials ∨
      ∃ old ∈ pool.workers, old.serial = worker.serial ∧
        (worker.task = old.task ∨ worker.task = none ∨ label = .take worker.serial) :=
    fun present => .inr ⟨worker, present, rfl, .inl rfl⟩
  cases moved with
  | spawn =>
      cases List.mem_append.mp member with
      | inl present => exact same present
      | inr new => exact .inl (by rw [List.mem_singleton.mp new])
  | take | sendAck | sendReady | exit | terminateJob =>
      obtain ⟨old, present, unchanged | ⟨here, changed⟩⟩ := mem_modifyWorker member
      · exact same (unchanged ▸ present)
      · subst here
        subst changed
        exact .inr ⟨old, present, rfl, by simp⟩
  | @handle report outqueue head =>
      obtain ⟨_, _, _, _, after, _⟩ := onStateChange_eq iter { pool with outqueue } report
      rw [after] at member
      exact same member
  | reap => exact same (List.mem_of_mem_eraseIdx member)
  | _ => exact same member

theorem free_of_take {serial : Nat} {worker : Worker}
    (taken : pool.step iter (.take serial) = some next)
    (running : pool.running serial = some worker) : worker.task = none := by
  unfold step at taken
  split at taken
  · cases taken
  cases head : pool.inqueue with
  | nil => simp [running, head] at taken
  | cons task inqueue =>
      simp only [running, head, Option.ite_none_right_eq_some] at taken
      exact Option.isNone_iff_eq_none.mp taken.1

theorem Answered.send {task : Task} (answered : pool.Answered task) {report : Report α}
    (outqueue : next.outqueue = pool.outqueue ++ [report]) (readies : next.readies = pool.readies) :
    next.Answered task := by
  unfold Answered
  rw [outqueue, readies]
  cases answered with
  | inl handled => exact .inl handled
  | inr queued =>
      obtain ⟨other, listed, answer⟩ := queued
      exact .inr ⟨other, List.mem_append_left _ listed, answer⟩

theorem Held.modifyWorker {entry : Nat × Task} {serial : Nat} {f : Worker → Worker}
    (held : pool.Held entry) (serial_eq : ∀ worker, (f worker).serial = worker.serial)
    (kept : ∀ worker ∈ pool.workers, worker.serial = serial → worker.exitcode = none →
      worker.task = some entry.2 → (f worker).task = some entry.2 ∧ (f worker).exitcode = none) :
    (pool.modifyWorker serial f).Held entry := by
  obtain ⟨worker, member, same, task, running⟩ := held
  by_cases changed : worker.serial = serial
  · obtain ⟨after, still⟩ := kept worker member changed running task
    refine ⟨f worker, List.mem_map.mpr ⟨worker, member, if_pos changed⟩, ?_, after, still⟩
    rw [serial_eq, same]
  · exact ⟨worker, List.mem_map.mpr ⟨worker, member, if_neg changed⟩, same, task, running⟩

/-- A running worker is the only one with its serial number. -/
theorem Ledger.running_unique (ledger : pool.Ledger) {serial : Nat} {worker other : Worker}
    (running : pool.running serial = some worker) (member : other ∈ pool.workers)
    (same : other.serial = serial) : other = worker := by
  obtain ⟨present, here, _⟩ := mem_of_running running
  exact List.inj_on_of_nodup_map ledger.serials_nodup member present (same.trans here.symm)

theorem NothingLost.step (ledger : pool.Ledger) (kept : pool.NothingLost)
    (idle : ∀ serial code, label = .exit serial code →
      ∀ worker ∈ pool.running serial, worker.task = none)
    (taken : pool.step iter label = some next) : next.NothingLost := by
  obtain ⟨_, moved⟩ := moves_of_step taken
  cases moved with
  | tick | submit | put | setLength | join | mark | spare | joined | marked | keep | barren
  | survey | scan | scanned => exact kept
  | spawn =>
      intro entry member
      refine (kept entry member).imp_left ?_
      rintro ⟨worker, present, same, task, running⟩
      exact ⟨worker, List.mem_append_left _ present, same, task, running⟩
  | @take serial task inqueue worker running head =>
      have free := free_of_take taken running
      obtain ⟨present, here, alive⟩ := mem_of_running running
      intro entry member
      cases List.mem_append.mp member with
      | inl old =>
          refine (kept entry old).imp_left fun held => Held.modifyWorker held (fun _ => rfl) ?_
          intro other there same _ holds
          rw [ledger.running_unique running there same, free] at holds
          cases holds
      | inr new =>
          rw [List.mem_singleton.mp new]
          exact .inl ⟨_, List.mem_map.mpr ⟨worker, present, if_pos here⟩, here, rfl, alive⟩
  | sendAck running holding =>
      intro entry member
      cases kept entry member with
      | inl held =>
          exact .inl (Held.modifyWorker held (fun _ => rfl)
            fun _ _ _ alive holds => ⟨holds, alive⟩)
      | inr answered => exact .inr (answered.send rfl rfl)
  | @sendReady serial task outcome worker running holding =>
      intro entry member
      cases kept entry member with
      | inl held =>
          obtain ⟨other, there, same, holds, alive⟩ := held
          by_cases sender : other.serial = serial
          · rw [ledger.running_unique running there sender, holding] at holds
            exact .inr (.inr ⟨_, List.mem_append_right _ (List.mem_singleton_self _),
              Option.some.inj holds, outcome, rfl⟩)
          · exact .inl ⟨other, List.mem_map.mpr ⟨other, there, if_neg sender⟩, same, holds, alive⟩
      | inr answered => exact .inr (answered.send rfl rfl)
  | @exit serial code worker running =>
      have free := idle serial code rfl worker running
      intro entry member
      refine (kept entry member).imp_left fun held => Held.modifyWorker held (fun _ => rfl) ?_
      intro other there same _ holds
      rw [ledger.running_unique running there same, free] at holds
      cases holds
  | terminateJob serial =>
      intro entry member
      exact (kept entry member).imp_left fun held => Held.modifyWorker held (fun _ => rfl)
        fun _ _ _ alive holds => ⟨holds, alive⟩
  | @handle report outqueue head =>
      obtain ⟨_, _, _, _, after, stays, logged⟩ :=
        onStateChange_eq iter { pool with outqueue } report
      rw [after]
      intro entry member
      refine (kept entry member).imp_right ?_
      rintro (before | ⟨other, queued, answer⟩)
      · exact .inl (stays _ before)
      · rw [head] at queued
        cases List.mem_cons.mp queued with
        | inl first =>
            obtain ⟨same, outcome, message⟩ := first ▸ answer
            exact .inl (same ▸ logged outcome message)
        | inr later => exact .inr ⟨other, later, answer⟩
  | @reap i cleaned worker pass found exited =>
      intro entry member
      refine (kept entry member).imp_left ?_
      rintro ⟨other, there, same, holds, alive⟩
      obtain ⟨j, here⟩ := List.getElem?_of_mem there
      have apart : j ≠ i := by
        rintro rfl
        rw [found] at here
        cases here
        simp [alive] at exited
      exact ⟨other, List.mem_eraseIdx_iff_getElem?.mpr ⟨j, apart, here⟩, same, holds, alive⟩

end Pool

namespace Shrinking

variable {iter : α → List α} {state next : Shrinking α} {label : ShrinkStep α}

/-- The workers that are to end have no task and are no newcomers. -/
structure Sound (state : Shrinking α) : Prop where
  ledger : state.pool.Ledger
  known : ∀ serial, state.Marked serial → serial < state.pool.serials
  free : ∀ worker ∈ state.pool.workers, state.Marked worker.serial → worker.task = none

theorem init_sound : (init : Shrinking α).Sound where
  ledger := Pool.init_ledger
  known := by simp [Marked, init]
  free := by simp [init, Pool.init]

theorem Sound.pool (sound : state.Sound) {label : PoolStep α} {pool : Pool α}
    (informed : state.Informed (.pool label)) (taken : state.pool.step iter label = some pool) :
    { state with pool }.Sound where
  ledger := Pool.Ledger.step _ _ _ sound.ledger taken
  known := fun serial marked =>
    Nat.lt_of_lt_of_le (sound.known serial marked) (Pool.serials_le_of_step taken)
  free := by
    intro worker member marked
    have old := sound.known worker.serial marked
    obtain new | ⟨before, present, same, kept⟩ := Pool.worker_of_step taken member
    · exact absurd new (Nat.ne_of_lt old)
    · obtain unchanged | free | takes := kept
      · rw [unchanged]
        exact sound.free before present (same ▸ marked)
      · exact free
      · subst takes
        exact absurd marked informed

theorem Sound.mark (sound : state.Sound) (same : next.pool = state.pool)
    (marks : ∀ serial, next.Marked serial → state.Marked serial ∨
      ∃ worker ∈ state.pool.workers, worker.serial = serial ∧ worker.task = none) :
    next.Sound where
  ledger := same ▸ sound.ledger
  known := by
    intro serial marked
    rw [same]
    obtain before | ⟨worker, member, rfl, _⟩ := marks serial marked
    · exact sound.known serial before
    · exact sound.ledger.serial_lt worker member
  free := by
    rw [same]
    intro worker member marked
    obtain before | ⟨other, there, here, free⟩ := marks worker.serial marked
    · exact sound.free worker member before
    · rwa [List.inj_on_of_nodup_map sound.ledger.serials_nodup there member here] at free

/-- A worker that looks inactive to an informed `shrink` has no task. -/
theorem free_of_inactive {call : ShrinkCall} {worker : Worker} (informed : state.Informed .look)
    (here : state.call = some call) (found : state.pool.workers[call.position]? = some worker)
    (inactive : state.pool.workerActive worker = false) : worker.task = none := by
  cases holds : worker.task with
  | none => rfl
  | some task =>
      obtain ⟨job, known, cached, recorded⟩ := informed call here worker found task holds
      have active : state.pool.workerActive worker = true := by
        unfold Pool.workerActive
        rw [List.any_eq_true]
        exact ⟨job, List.mem_of_getElem? known, by simp [cached, recorded]⟩
      exact absurd (inactive.symm.trans active) nofun

theorem Sound.step (state : Shrinking α) (label : ShrinkStep α) (next : Shrinking α)
    (sound : state.Sound) (informed : state.Informed label)
    (taken : state.step iter label = some next) : next.Sound := by
  unfold Shrinking.step at taken
  split at taken
  · simp only [Option.map_eq_some_iff] at taken
    obtain ⟨pool, moved, rfl⟩ := taken
    exact sound.pool informed moved
  · cases taken
    refine sound.mark rfl ?_
    rintro serial (before | ⟨call, there, chosen⟩)
    · exact .inl (.inl before)
    · cases there
      cases chosen
  · rename_i n i position here
    split at taken
    · cases taken
      refine sound.mark rfl ?_
      rintro serial (before | ⟨call, there, _⟩)
      · exact .inl (.inl before)
      · cases there
    · rename_i worker found
      cases taken
      refine sound.mark rfl ?_
      rintro serial (before | ⟨call, there, chosen⟩)
      · exact .inl (.inl before)
      · cases there
        simp only [Option.ite_none_left_eq_some, Option.some.injEq] at chosen
        obtain ⟨inactive, rfl⟩ := chosen
        exact .inr ⟨worker, List.mem_of_getElem? found, rfl,
          free_of_inactive informed here found (eq_false_of_ne_true inactive)⟩
  · rename_i n i position chosen here
    cases taken
    refine sound.mark rfl ?_
    rintro serial (before | ⟨call, there, marked⟩)
    · cases List.mem_append.mp before with
      | inl told => exact .inl (.inl told)
      | inr new => exact .inl (.inr ⟨_, here, List.mem_singleton.mp new ▸ rfl⟩)
    · simp only [Option.mem_def, Option.ite_none_left_eq_some, Option.some.injEq] at there
      obtain ⟨_, rfl⟩ := there
      cases marked
  · cases taken

theorem Sound.spares (state : Shrinking α) (label : ShrinkStep α) (sound : state.Sound)
    (_ : state.Informed label) : state.Spares label := by
  intro _ call here serial chosen worker member same
  exact sound.free worker member (.inr ⟨call, here, same ▸ chosen⟩)

theorem Sound.nothingLost (sound : state.Sound) (nothing : state.pool.NothingLost)
    (healthy : state.Healthy label) (taken : state.step iter label = some next) :
    next.pool.NothingLost := by
  unfold Shrinking.step at taken
  split at taken
  · simp only [Option.map_eq_some_iff] at taken
    obtain ⟨pool, moved, rfl⟩ := taken
    refine nothing.step sound.ledger ?_ moved
    rintro serial code rfl worker running
    cases healthy with
    | inl told =>
        obtain ⟨member, here, _⟩ := Pool.mem_of_running running
        exact sound.free worker member (.inl (here ▸ told))
    | inr idle => exact idle worker running
  · cases taken
    exact nothing
  · split at taken <;> cases taken <;> exact nothing
  · cases taken
    exact nothing
  · cases taken

/-- Whatever the order of steps, a `shrink` that knows of every task in hand spares the workers
that have one, and then a pool of healthy workers loses nothing. -/
theorem shrink_spares {labels : List (ShrinkStep α)}
    (informed : Along (step iter) Informed init labels) :
    Along (step iter) Spares init labels ∧
      ∀ last, run (step iter) init labels = some last → Along (step iter) Healthy init labels →
        last.pool.NothingLost := by
  refine ⟨along_of_invariant Sound.step Sound.spares init_sound informed, ?_⟩
  intro last ran healthy
  have kept : Preserves (step iter) (fun state label => state.Informed label ∧ state.Healthy label)
      (fun state => state.Sound ∧ state.pool.NothingLost) := by
    intro state label next ⟨sound, nothing⟩ ⟨informed, healthy⟩ taken
    exact ⟨Sound.step _ _ _ sound informed taken, sound.nothingLost nothing healthy taken⟩
  exact (invariant_along kept ⟨init_sound, by simp [Pool.NothingLost, init, Pool.init]⟩
    (informed.and healthy) ran).2

/-- One of two workers has acknowledged a task, and the ACK is in the outqueue. -/
def acknowledged : List (ShrinkStep Nat) :=
  [.pool (.spawn 7), .pool (.spawn 8), .pool (.submit (.apply {})), .pool .feed, .pool (.take 0),
    .pool (.sendAck 0 none)]

def shrinkAfterAck : List (ShrinkStep Nat) :=
  acknowledged ++ [.pool .handle, .shrink 1, .look, .look, .terminate, .pool (.exit 1 (-15)),
    .pool (.sendReady 0 (.success 5))]

theorem shrink_spares_afterAck :
    Along (step fun value => [value]) Spares init shrinkAfterAck ∧
      ∃ last, run (step fun value => [value]) init shrinkAfterAck = some last ∧
        last.pool.NothingLost := by
  have informed : Along (step fun value => [value]) Informed init shrinkAfterAck := by decide
  have healthy : Along (step fun value => [value]) Healthy init shrinkAfterAck := by decide
  obtain ⟨spared, nothing⟩ := shrink_spares informed
  exact ⟨spared, _, rfl, nothing _ rfl healthy⟩

/-- The busy worker looks inactive before its ACK is handled. -/
def shrinkBeforeAck : List (ShrinkStep Nat) :=
  acknowledged ++ [.shrink 1, .look, .terminate, .pool (.exit 0 (-15))]

theorem not_spared :
    Along (step fun value => [value]) Healthy init shrinkBeforeAck ∧
      ¬Along (step fun value => [value]) Spares init shrinkBeforeAck ∧
      ∃ last, run (step fun value => [value]) init shrinkBeforeAck = some last ∧
        ¬last.pool.NothingLost := by
  refine ⟨by decide, by decide, _, rfl, ?_⟩
  intro nothing
  obtain ⟨worker, member, _, _, running⟩ | answered := nothing (0, ⟨0, .none⟩) (by decide)
  · revert worker
    decide
  · obtain answered | ⟨report, queued, _, outcome, message⟩ := answered
    · cases answered
    · cases List.mem_singleton.mp queued
      cases message

end Shrinking

end Billiard
