import Billiard.Pool.Mapping

/-! `_map_async` beside the cache and the task queue of its pool. -/

namespace Billiard

open Chunk Transition

/-- An entry of the task queue; `raised` is what its generator ends with. -/
structure QueuedMap (α : Type u) where
  job : Nat
  tasks : List (List α)
  raised : Option ExceptionInfo
deriving DecidableEq

/-- A pool that runs; `jobs` is the next of `job_counter`. -/
structure MapPool (α : Type u) (β : Type v) where
  processes : Nat
  jobs : Nat
  cache : List (MapResult β)
  taskQueue : List (QueuedMap α)

namespace MapPool

/-- `Pool._map_async`; a job without batches leaves the cache at once. -/
def mapAsync (pool : MapPool α β) (chunksize : Option Int) (iterable : List α)
    (callback errorCallback : Option Callback) :
    MapPool α β × Except ExceptionInfo (MapResult β) :=
  match Billiard.mapAsync pool.processes chunksize iterable callback errorCallback pool.jobs with
  | .error exc => (pool, .error exc)
  | .ok (result, tasks, raised) =>
      ({ pool with
          jobs := pool.jobs + 1
          cache := if result.cached then pool.cache ++ [result] else pool.cache
          taskQueue := pool.taskQueue ++ [⟨result.job, tasks, raised⟩] }, .ok result)

/-- In every run of the map, it is ready only with the values that are to be computed. -/
def Computes (result : MapResult β) (tasks : List (List α)) (iterable : List α) : Prop :=
  ∀ (mapper : List α → List β) (call : α → β), (∀ batch, mapper batch = batch.map call) →
    ∀ labels mapping, run (Mapping.step mapper tasks) (.init result) labels = some mapping →
      mapping.result.ready = true → mapping.result.get = some (.ok ((iterable.map call).map some))

/-- The batches are in the queue, are those of the iterable, and are as many as are waited for. -/
structure Enqueued (pool next : MapPool α β) (iterable : List α) (result : MapResult β)
    (tasks : List (List α)) : Prop where
  queue : next.taskQueue = pool.taskQueue ++ [⟨result.job, tasks, none⟩]
  nonempty : ∀ batch ∈ tasks, batch ≠ []
  flatten : tasks.flatten = iterable
  numberLeft : result.numberLeft = tasks.length
  computes : Computes result tasks iterable

def Submits (pool : MapPool α β) (chunksize : Option Int) (iterable : List α)
    (callback errorCallback : Option Callback) : Prop :=
  match pool.mapAsync chunksize iterable callback errorCallback with
  | (next, .error exc) => exc = .raised "ValueError" ∧ next.cache = pool.cache ∧
      next.taskQueue = pool.taskQueue
  | (next, .ok result) => ∃ tasks, pool.Enqueued next iterable result tasks

/-- The size of the batches can be found, and it is one that a batch can have. -/
def Divides (pool : MapPool α β) (chunksize : Option Int) (iterable : List α) : Prop :=
  iterable.length ≤ ssizeMax ∧
    match chunksize with
    | none => 1 ≤ pool.processes
    | some size => iterable = [] ∨ 1 ≤ size ∧ size ≤ ssizeMax

variable {pool : MapPool α β} {chunksize : Option Int} {iterable : List α}
  {callback errorCallback : Option Callback}

theorem computes_nil (job : Nat) :
    Computes (.init job 0 0 callback errorCallback : MapResult β) ([] : List (List α)) [] := by
  intro mapper call mapped labels mapping ran ready
  cases labels with
  | nil =>
      cases ran
      rfl
  | cons label labels =>
      obtain ⟨next, taken, _⟩ := run_cons_eq_some.mp ran
      cases label <;> simp [Mapping.step, Mapping.init] at taken

theorem computes_split {size : Nat} (positive : 0 < size) (nonempty : iterable ≠ []) (job : Nat) :
    Computes (.init job size iterable.length callback errorCallback : MapResult β)
      (split size iterable.length iterable) iterable := by
  intro mapper call mapped labels mapping ran ready
  -- a callback that raises ends the run with the result not ready
  have held : Mapping.Invariant call size iterable callback errorCallback job mapping ∨
      mapping.raised.isSome = true ∧ mapping.result.ready = false := by
    have kept : ∀ (mapping : Mapping β) label next,
        Mapping.Invariant call size iterable callback errorCallback job mapping ∨
          mapping.raised.isSome = true ∧ mapping.result.ready = false →
        Mapping.step mapper (split size iterable.length iterable) mapping label = some next →
        Mapping.Invariant call size iterable callback errorCallback job next ∨
          next.raised.isSome = true ∧ next.result.ready = false := by
      rintro mapping label next (invariant | ⟨raised, _⟩) taken
      · exact (invariant.step_or positive mapped label taken).imp_right And.right
      · simp [Mapping.step, raised] at taken
    exact invariant_run kept (.inl (Mapping.invariant_init errorCallback job positive nonempty))
      ran
  rcases held with invariant | ⟨_, unready⟩
  · exact (invariant.gives positive).get ready
  · rw [ready] at unready
    cases unready

theorem Enqueued.of_split {next : MapPool α β} {size job : Nat} (positive : 0 < size)
    (nonempty : iterable ≠ [])
    (queue : next.taskQueue =
      pool.taskQueue ++ [⟨job, split size iterable.length iterable, none⟩]) :
    pool.Enqueued next iterable (.init job size iterable.length callback errorCallback)
      (split size iterable.length iterable) where
  queue := queue
  nonempty _ := ne_nil_of_mem_split
  flatten := flatten_split positive (Nat.le_refl _)
  numberLeft := by
    rw [length_split positive (Nat.le_refl _), count]
    simp only [MapResult.init, if_neg (Nat.ne_of_gt positive)]
    split <;> simp
  computes := computes_split positive nonempty job

theorem submits_of_divides (divides : pool.Divides chunksize iterable) :
    pool.Submits chunksize iterable callback errorCallback := by
  obtain ⟨short, divides⟩ := divides
  have workers : chunksize = none → 1 ≤ pool.processes := by
    rintro rfl
    exact divides
  by_cases empty : iterable = []
  · subst empty
    have submitted := Mapping.mapAsync_nil (δ := α) (β := β) callback errorCallback pool.jobs
      workers
    unfold Submits mapAsync
    simp only [submitted]
    exact ⟨[], rfl, nofun, rfl, rfl, computes_nil pool.jobs⟩
  · have sized : ∀ size ∈ chunksize, 1 ≤ size ∧ size ≤ ssizeMax := by
      rintro size chosen
      obtain rfl : chunksize = some size := chosen
      exact divides.resolve_left empty
    obtain ⟨size, positive, submitted⟩ := Mapping.mapAsync_of_ne_nil (β := β) callback
      errorCallback pool.jobs (fun size chosen => (sized size chosen).1) workers
      ⟨short, .inr fun size chosen => (sized size chosen).2⟩ empty
    unfold Submits mapAsync
    simp only [submitted]
    exact ⟨_, .of_split positive empty rfl⟩

theorem valueError_of_submits {exc : ExceptionInfo}
    (failed : Billiard.mapAsync (β := β) pool.processes chunksize iterable callback errorCallback
      pool.jobs = .error exc)
    (submits : pool.Submits chunksize iterable callback errorCallback) :
    exc = .raised "ValueError" := by
  unfold Submits mapAsync at submits
  rw [failed] at submits
  exact submits.1

theorem divides_of_submits (submits : pool.Submits chunksize iterable callback errorCallback) :
    pool.Divides chunksize iterable := by
  by_cases short : ssizeMax < iterable.length
  · have failed : Billiard.mapAsync (β := β) pool.processes chunksize iterable callback
        errorCallback pool.jobs = .error (.raised "OverflowError") := if_pos short
    exact absurd (valueError_of_submits failed submits) (by decide)
  refine ⟨Nat.le_of_not_lt short, ?_⟩
  cases chunksize with
  | none =>
      by_contra workers
      have none_ : pool.processes = 0 := by omega
      have failed : Billiard.mapAsync (β := β) pool.processes none iterable callback
          errorCallback pool.jobs = .error (.raised "ZeroDivisionError") := by
        simp [Billiard.mapAsync, short, defaultChunksize, none_, Except.map]
      exact absurd (valueError_of_submits failed submits) (by decide)
  | some size =>
      refine or_iff_not_imp_left.mpr fun empty => ?_
      have submitted : Billiard.mapAsync (β := β) pool.processes (some size) iterable callback
          errorCallback pool.jobs = .ok (.init pool.jobs size.toNat iterable.length callback
            errorCallback, getTasks size iterable) := by
        simp [Billiard.mapAsync, short, Except.map, empty]
      unfold Submits mapAsync at submits
      simp only [submitted] at submits
      obtain ⟨tasks, enqueued⟩ := submits
      have queue := List.append_cancel_left enqueued.queue
      simp only [List.cons.injEq, QueuedMap.mk.injEq, and_true, true_and] at queue
      obtain ⟨batches, unraised⟩ := queue
      -- `islice` takes the size, or the generator of the batches raises
      by_cases refused : size < 0 || (ssizeMax : Int) < size
      · rw [getTasks, if_pos refused] at unraised
        cases unraised
      · rw [getTasks, if_neg refused] at batches
        have nonzero : size ≠ 0 := by
          rintro rfl
          apply empty
          rw [← enqueued.flatten, ← batches]
          exact congrArg List.flatten (split_zero _ _)
        simp only [Bool.or_eq_true, decide_eq_true_eq] at refused
        omega

/-- A map is submitted as it should be exactly if its sequence can be divided into batches. -/
theorem submits_iff (pool : MapPool α β) (chunksize : Option Int) (iterable : List α)
    (callback errorCallback : Option Callback) :
    pool.Submits chunksize iterable callback errorCallback ↔ pool.Divides chunksize iterable :=
  ⟨divides_of_submits, submits_of_divides⟩

/-- A pool without workers cannot find a size; and with the size 0, the map is ready at once,
though nothing was computed. -/
theorem not_submits :
    (⟨0, 0, [], []⟩ : MapPool Nat Nat).mapAsync none [1] none none =
        (⟨0, 0, [], []⟩, .error (.raised "ZeroDivisionError")) ∧
      ¬(⟨0, 0, [], []⟩ : MapPool Nat Nat).Submits none [1] none none ∧
      ¬(⟨1, 0, [], []⟩ : MapPool Nat Nat).Submits (some 0) [1] none none := by
  refine ⟨rfl, ?_, ?_⟩
  · intro submits
    exact absurd submits.1 (by decide)
  · rintro ⟨tasks, enqueued⟩
    have queue := List.append_cancel_left enqueued.queue
    cases queue
    exact absurd enqueued.flatten (by decide)

end MapPool

end Billiard
