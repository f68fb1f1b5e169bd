import Mathlib.Algebra.Ring.Nat
import Billiard.Data.Arrival
import Billiard.Data.Chunk
import Billiard.Pool.Delivery
import Billiard.Pool.MapResult

/-! `map_async`, `starmap_async` and `imap`: an iterable is cut into batches, the
workers apply the function to them, and the results come back in any order. -/

namespace Billiard

open Chunk Transition

abbrev Func (α : Type u) (β : Type v) := List α → β

def mapstar (func : Func α β) (batch : List α) : List β := batch.map fun x => func [x]

def starmapstar (func : Func α β) (batch : List (List α)) : List β := batch.map func

/-- `PY_SSIZE_T_MAX` of a 64-bit build: `len` returns nothing above it, and `itertools.islice`
takes nothing above it. -/
def ssizeMax : Nat := 2 ^ 63 - 1

/-- `Pool._get_tasks`; a size that `itertools.islice` does not take is refused when the first batch
is taken. -/
def getTasks (size : Int) (iterable : List α) : List (List α) × Option ExceptionInfo :=
  if size < 0 || (ssizeMax : Int) < size then ([], some (.raised "ValueError"))
  else (split size.toNat iterable.length iterable, none)

/-- The default of `_map_async`: four batches for each worker. -/
def defaultChunksize (processes length : Nat) : Except ExceptionInfo Int :=
  if processes = 0 then .error (.raised "ZeroDivisionError")
  else .ok (count (processes * 4) length)

/-- `Pool._map_async` on a running pool: the job, and the batches that go to the
task queue. -/
def mapAsync (processes : Nat) (chunksize : Option Int) (iterable : List α)
    (callback errorCallback : Option Callback) (job : Nat) :
    Except ExceptionInfo (MapResult β × List (List α) × Option ExceptionInfo) :=
  -- `len(iterable)`
  if ssizeMax < iterable.length then .error (.raised "OverflowError")
  else
    let chosen : Except ExceptionInfo Int :=
      match chunksize with
      | some size => .ok size
      | none => defaultChunksize processes iterable.length
    chosen.map fun size =>
      let size := if iterable.length = 0 then 0 else size
      (.init job size.toNat iterable.length callback errorCallback, getTasks size iterable)

/-- What `Pool.imap` returns: an iterator over the results, or over their items. -/
inductive Imap (α : Type u) where
  | single (tasks : List α)
  | flattened (tasks : List (List α))
deriving DecidableEq

/-- `Pool.imap` on a running pool; `None < 1` raises `TypeError`. -/
def imap (chunksize : Option Int) (iterable : List α) : Except ExceptionInfo (Imap α) :=
  match chunksize with
  | none => .error (.raised "TypeError")
  | some size =>
      if size < 1 then .error (.raised "ValueError")
      else if size = 1 then .ok (.single iterable)
      else .ok (.flattened (getTasks size iterable).1)

/-- `MapResult.get`, once it does not block any more. -/
def MapResult.get (result : MapResult α) : Option (Except ExceptionInfo (List (Option α))) :=
  if result.event then some result.value else none

/-- A map whose batches are being computed; `acked` and `arrived` are the batches
whose acks and results have been handled. -/
structure Mapping (α : Type u) where
  result : MapResult α
  acked : List Nat
  arrived : List Nat
  raised : Option Raised

inductive MappingStep where
  | ack (i timeAccepted pid : Nat)
  | ready (i : Nat)
deriving DecidableEq

namespace Mapping

def init (result : MapResult α) : Mapping α := ⟨result, [], [], none⟩

/-- A message of the worker that has the batch; a job that is not in the cache
does not see it. -/
def step (mapper : List α → List β) (tasks : List (List α)) (mapping : Mapping β)
    (label : MappingStep) : Option (Mapping β) :=
  if mapping.raised.isSome then none
  else match label with
  | .ack i timeAccepted pid =>
      if i < tasks.length ∧ i ∉ mapping.acked then
        some { mapping with
          result :=
            if mapping.result.cached then mapping.result.ack i timeAccepted pid
            else mapping.result
          acked := mapping.acked ++ [i] }
      else none
  | .ready i =>
      match tasks[i]? with
      | none => none
      | some batch =>
          if i ∈ mapping.arrived then none
          else
            let result :=
              if mapping.result.cached then mapping.result.set i (.success (mapper batch))
              else (mapping.result, none)
            some { mapping with
              result := result.1
              arrived := mapping.arrived ++ [i]
              raised := result.2 }

/-- A map that is to give `values` does so as soon as all its batches have come
back, and calls its callback then. -/
structure Gives (count : Nat) (values : List α) (callback : Option Callback)
    (mapping : Mapping α) : Prop where
  faultless : mapping.raised = none
  ready : mapping.result.ready = true ↔ ∀ i < count, i ∈ mapping.arrived
  get : mapping.result.ready = true → mapping.result.get = some (.ok (values.map some))
  calls : mapping.result.calls =
    if mapping.result.ready = true ∧ callback.isSome then [.callback (values.map some)] else []

section Runs

variable {call : δ → β} {size : Nat} {xs : List δ} {callback errorCallback : Option Callback}
  {job : Nat}

/-- The values of the batches that have arrived, at their places. -/
def filled (call : δ → β) (size : Nat) (xs : List δ) (arrived : List Nat) : List (Option β) :=
  xs.mapIdx fun j x => if j / size ∈ arrived then some (call x) else none

def resultAfter (call : δ → β) (size : Nat) (xs : List δ) (callback errorCallback : Option Callback)
    (job : Nat) (arrived : List Nat) (accepted : List Bool)
    (workerPid timeAccepted : List (Option Nat)) : MapResult β :=
  let ready := decide (arrived.length = count size xs.length)
  { (MapResult.init job size xs.length callback errorCallback : MapResult β) with
    cached := !ready
    event := ready
    value := .ok (filled call size xs arrived)
    accepted
    workerPid
    timeAccepted
    numberLeft := (count size xs.length : Int) - arrived.length
    calls :=
      if ready && callback.isSome then [.callback ((xs.map call).map some)] else [] }

structure Invariant (call : δ → β) (size : Nat) (xs : List δ)
    (callback errorCallback : Option Callback) (job : Nat) (mapping : Mapping β) : Prop where
  faultless : mapping.raised = none
  arrival : Arrival (count size xs.length) mapping.arrived
  result : ∃ accepted workerPid timeAccepted, accepted ≠ [] ∧
    mapping.result = resultAfter call size xs callback errorCallback job mapping.arrived accepted
      workerPid timeAccepted

theorem filled_nil (call : δ → β) (size : Nat) (xs : List δ) :
    filled call size xs [] = List.replicate xs.length none := by
  simp only [filled, List.not_mem_nil, if_false]
  apply List.ext_getElem <;> simp

theorem filled_all (call : δ → β) (positive : 0 < size) {arrived : List Nat}
    (all : ∀ i < count size xs.length, i ∈ arrived) :
    filled call size xs arrived = (xs.map call).map some := by
  apply List.ext_getElem
  · simp [filled]
  · intro j low _
    have inside : j < xs.length := by simpa [filled] using low
    simp [filled, all _ (div_lt_count positive inside)]

theorem sliceAssign_filled (call : δ → β) (xs : List δ) (positive : 0 < size)
    (arrived : List Nat) (i : Nat) :
    sliceAssign (filled call size xs arrived) (i * size) ((i + 1) * size)
        (((nth size i xs).map call).map some) =
      filled call size xs (arrived ++ [i]) := by
  apply List.ext_getElem?
  intro j
  have same : (filled call size xs arrived).length = ((xs.map call).map some).length := by
    simp [filled]
  rw [← nth_map, ← nth_map, getElem?_sliceAssign_nth positive same]
  cases item : xs[j]? with
  | none => simp [filled, item]
  | some x =>
      cases Nat.decEq (j / size) i with
      | isTrue here => simp [filled, item, here]
      | isFalse elsewhere => simp [filled, item, elsewhere]

theorem invariant_init (errorCallback : Option Callback) (job : Nat) (positive : 0 < size)
    (nonempty : xs ≠ []) :
    Invariant call size xs callback errorCallback job
      (init (.init job size xs.length callback errorCallback)) := by
  have length : 0 < xs.length := List.length_pos_iff.mpr nonempty
  have batches : 0 < count size xs.length := by
    rw [lt_count_iff positive]
    omega
  refine ⟨rfl, .nil _, List.replicate xs.length false, List.replicate xs.length none,
    List.replicate xs.length none, ?_, ?_⟩
  · simpa using nonempty
  · have unready : decide (0 = count size xs.length) = false := by
      simpa using Nat.ne_of_lt batches
    have left : (count size xs.length : Int) =
        xs.length / size + (if xs.length % size = 0 then 0 else 1) := by
      unfold count
      split <;> simp
    simp [init, MapResult.init, resultAfter, filled_nil, unready, left, Nat.ne_of_gt positive]

theorem Invariant.ack {mapping : Mapping β} {i timeAccepted pid : Nat}
    (invariant : Invariant call size xs callback errorCallback job mapping) :
    Invariant call size xs callback errorCallback job { mapping with
      result :=
        if mapping.result.cached then mapping.result.ack i timeAccepted pid else mapping.result
      acked := mapping.acked ++ [i] } := by
  obtain ⟨faultless, arrival, accepted, workerPid, times, some_, result⟩ := invariant
  refine ⟨faultless, arrival, ?_⟩
  cases cached : mapping.result.cached with
  | false => exact ⟨accepted, workerPid, times, some_, result⟩
  | true =>
      have unready : decide (mapping.arrived.length = count size xs.length) = false := by
        simpa [result, resultAfter] using cached
      refine ⟨mapping.result.fillChunk i accepted true,
        mapping.result.fillChunk i workerPid (some pid),
        mapping.result.fillChunk i times (some timeAccepted), ?_, ?_⟩
      · simpa [MapResult.fillChunk] using some_
      · simp [result, resultAfter, MapResult.ack, MapResult.ready, unready]

/-- A batch comes back; the last one may find a callback that raises. -/
theorem set_resultAfter {arrived : List Nat} {accepted : List Bool} {i : Nat} (call : δ → β)
    (callback errorCallback : Option Callback) (job : Nat)
    (workerPid timeAccepted : List (Option Nat)) (positive : 0 < size) (some_ : accepted ≠ [])
    (arrival : Arrival (count size xs.length) arrived) (inside : i < count size xs.length)
    (missing : i ∉ arrived) :
    (resultAfter call size xs callback errorCallback job arrived accepted workerPid
        timeAccepted).set i (.success ((nth size i xs).map call)) =
      (resultAfter call size xs callback errorCallback job (arrived ++ [i]) accepted workerPid
        timeAccepted, none) ∨
      ¬(callback = none ∨ callback = some .returns) ∧ ∃ result exc,
        (resultAfter call size xs callback errorCallback job arrived accepted workerPid
          timeAccepted).set i (.success ((nth size i xs).map call)) = (result, some exc) ∧
        result.event = false := by
  have short := arrival.length_lt inside missing
  have unready : decide (arrived.length = count size xs.length) = false := by
    simpa using Nat.ne_of_lt short
  have assigned := sliceAssign_filled call xs positive arrived i
  rw [List.map_map] at assigned
  cases Nat.decEq (arrived.length + 1) (count size xs.length) with
  | isTrue last =>
      have left : (count size xs.length : Int) - arrived.length - 1 = 0 := by omega
      have all : filled call size xs (arrived ++ [i]) = xs.map (some ∘ call) := by
        rw [← List.map_map]
        apply filled_all call positive
        apply (arrival.concat inside missing).length_eq_iff.mp
        rw [List.length_append]
        exact last
      by_cases returns : callback = none ∨ callback = some .returns
      · left
        cases returns with
        | inl none =>
            simp [resultAfter, MapResult.set, MapResult.init, assigned, left, none, last,
              MapResult.applyCallback, MapResult.finish, some_, unready]
        | inr some =>
            simp [resultAfter, MapResult.set, MapResult.init, assigned, left, some, last,
              MapResult.applyCallback, MapResult.finish, some_, unready, all]
      · right
        refine ⟨returns, ?_⟩
        rw [← unready]
        exact MapResult.set_raises i ((nth size i xs).map call) rfl left returns
  | isFalse more =>
      have left : (count size xs.length : Int) - arrived.length - 1 ≠ 0 := by omega
      have next : (count size xs.length : Int) - arrived.length - 1 =
          count size xs.length - (arrived.length + 1) := by omega
      rw [next] at left
      left
      simp [resultAfter, MapResult.set, MapResult.init, assigned, left, more, unready, next]

theorem tasks_getElem? (positive : 0 < size) (xs : List δ) (i : Nat) :
    (split size xs.length xs)[i]? =
      if i < count size xs.length then some (nth size i xs) else none := by
  rw [split_eq positive (Nat.le_refl _), List.getElem?_map]
  cases Nat.decLt i (count size xs.length) with
  | isTrue inside => simp [inside]
  | isFalse outside => simp [outside]

variable {mapper : List δ → List β} {mapping : Mapping β}

/-- A step keeps the invariant, unless the callback raises. -/
theorem Invariant.step_or (positive : 0 < size) (maps : ∀ batch, mapper batch = batch.map call)
    (label : MappingStep) {next : Mapping β}
    (invariant : Invariant call size xs callback errorCallback job mapping)
    (taken : Mapping.step mapper (split size xs.length xs) mapping label = some next) :
    Invariant call size xs callback errorCallback job next ∨
      ¬(callback = none ∨ callback = some .returns) ∧ next.raised.isSome ∧
        next.result.ready = false := by
  unfold Mapping.step at taken
  split at taken
  · cases taken
  cases label with
  | ack i timeAccepted pid =>
      simp only [Option.ite_none_right_eq_some, Option.some.injEq] at taken
      obtain ⟨_, rfl⟩ := taken
      exact .inl invariant.ack
  | ready i =>
      simp only [tasks_getElem? positive] at taken
      split at taken
      · cases taken
      · rename_i batch found
        obtain ⟨inside, same⟩ := Option.ite_none_right_eq_some.mp found
        cases same
        split at taken
        · cases taken
        · rename_i missing
          cases taken
          obtain ⟨faultless, arrival, accepted, workerPid, times, some_, result⟩ := invariant
          have short := arrival.length_lt inside missing
          have cached : mapping.result.cached = true := by
            simpa [result, resultAfter] using Nat.ne_of_lt short
          have set_ := set_resultAfter call callback errorCallback job workerPid times positive
            some_ arrival inside missing
          rw [← result, ← maps] at set_
          simp only [cached, if_true]
          rcases set_ with set_ | ⟨raising, after, exc, set_, unready⟩
          · left
            rw [set_]
            exact ⟨rfl, arrival.concat inside missing, accepted, workerPid, times, some_, rfl⟩
          · right
            rw [set_]
            exact ⟨raising, rfl, unready⟩

theorem Invariant.step (positive : 0 < size) (maps : ∀ batch, mapper batch = batch.map call)
    (returns : callback = none ∨ callback = some .returns) (label : MappingStep)
    {next : Mapping β}
    (invariant : Invariant call size xs callback errorCallback job mapping)
    (taken : Mapping.step mapper (split size xs.length xs) mapping label = some next) :
    Invariant call size xs callback errorCallback job next :=
  (invariant.step_or positive maps label taken).resolve_right fun raising => raising.1 returns

theorem Invariant.gives (positive : 0 < size)
    (invariant : Invariant call size xs callback errorCallback job mapping) :
    Gives (count size xs.length) (xs.map call) callback mapping := by
  obtain ⟨faultless, arrival, accepted, workerPid, times, some_, result⟩ := invariant
  have ready : mapping.result.ready = true ↔ ∀ i < count size xs.length, i ∈ mapping.arrived := by
    rw [← arrival.length_eq_iff, result]
    simp [resultAfter, MapResult.ready]
  refine ⟨faultless, ready, ?_, ?_⟩
  · intro done
    have all := filled_all call positive (ready.mp done)
    have value : mapping.result.value = .ok ((xs.map call).map some) := by
      rw [result, ← all]
      rfl
    have event : mapping.result.event = true := done
    simp only [MapResult.get, event, if_true, value]
  · rw [result]
    simp [resultAfter, MapResult.ready]

theorem gives_nil_iff (callback errorCallback : Option Callback) (job : Nat) :
    Gives 0 ([] : List β) callback (init (.init job 0 0 callback errorCallback)) ↔
      callback = none := by
  constructor
  · intro gives
    have calls := gives.calls
    cases callback with
    | none => rfl
    | some callback => simp [init, MapResult.init, MapResult.ready] at calls
  · rintro rfl
    exact ⟨rfl, by simp [init, MapResult.init, MapResult.ready],
      fun _ => rfl, by simp [init, MapResult.init]⟩

end Runs

/-- Every run of a map that has been submitted gives `values`. -/
def Maps (processes : Nat) (chunksize : Option Int) (iterable : List δ)
    (callback errorCallback : Option Callback) (job : Nat) (mapper : List δ → List β)
    (values : List β) : Prop :=
  ∃ result tasks, mapAsync processes chunksize iterable callback errorCallback job =
      .ok (result, tasks, none) ∧
    ∀ labels mapping, run (step mapper tasks) (init result) labels = some mapping →
      Gives tasks.length values callback mapping

theorem mapAsync_nil {processes : Nat} {chunksize : Option Int}
    (callback errorCallback : Option Callback) (job : Nat)
    (workers : chunksize = none → 1 ≤ processes) :
    mapAsync processes chunksize ([] : List δ) callback errorCallback job =
      .ok ((.init job 0 0 callback errorCallback : MapResult β), [], none) := by
  cases chunksize with
  | some size => rfl
  | none =>
      have some_ : processes ≠ 0 := Nat.ne_of_gt (workers rfl)
      simp [mapAsync, defaultChunksize, some_, Except.map, getTasks, split]

/-- Neither `len` nor `islice` is asked for too much. -/
def Bounded (chunksize : Option Int) (iterable : List δ) : Prop :=
  iterable.length ≤ ssizeMax ∧ (iterable = [] ∨ ∀ size ∈ chunksize, size ≤ ssizeMax)

instance (chunksize : Option Int) (iterable : List δ) : Decidable (Bounded chunksize iterable) :=
  inferInstanceAs (Decidable (iterable.length ≤ ssizeMax ∧
    (iterable = [] ∨ ∀ size ∈ chunksize, size ≤ ssizeMax)))

theorem mapAsync_of_ne_nil {processes : Nat} {chunksize : Option Int} {iterable : List δ}
    (callback errorCallback : Option Callback) (job : Nat)
    (sized : ∀ size ∈ chunksize, 1 ≤ size) (workers : chunksize = none → 1 ≤ processes)
    (bounded : Bounded chunksize iterable) (nonempty : iterable ≠ []) :
    ∃ size, 0 < size ∧ mapAsync processes chunksize iterable callback errorCallback job =
      .ok ((.init job size iterable.length callback errorCallback : MapResult β),
        split size iterable.length iterable, none) := by
  have length : iterable.length ≠ 0 := by simpa using nonempty
  have short : ¬ssizeMax < iterable.length := Nat.not_lt.mpr bounded.1
  cases chunksize with
  | some size =>
      have positive := sized size rfl
      refine ⟨size.toNat, by omega, ?_⟩
      have valid : ¬size < 0 := by omega
      have fits : ¬(ssizeMax : Int) < size :=
        Int.not_lt.mpr (bounded.2.resolve_left nonempty size rfl)
      simp [mapAsync, Except.map, getTasks, nonempty, valid, short, fits]
  | none =>
      have some_ : processes ≠ 0 := Nat.ne_of_gt (workers rfl)
      have positive : 0 < count (processes * 4) iterable.length := by
        rw [lt_count_iff (by omega)]
        omega
      refine ⟨_, positive, ?_⟩
      have valid : ¬(count (processes * 4) iterable.length : Int) < 0 := by omega
      have fits : ¬ssizeMax < count (processes * 4) iterable.length :=
        Nat.not_lt.mpr (Nat.le_trans (count_le (by omega) _) bounded.1)
      simp [mapAsync, defaultChunksize, some_, Except.map, getTasks, nonempty, valid, short, fits]

/-- A map that is submitted without an exception has asked for no more than there may be. -/
theorem bounded_of_submitted {processes : Nat} {chunksize : Option Int} {iterable : List δ}
    {callback errorCallback : Option Callback} {job : Nat} {result : MapResult β}
    {tasks : List (List δ)}
    (submitted : mapAsync processes chunksize iterable callback errorCallback job =
      .ok (result, tasks, none)) : Bounded chunksize iterable := by
  unfold mapAsync at submitted
  split at submitted
  · cases submitted
  · rename_i short
    refine ⟨Nat.le_of_not_lt short, ?_⟩
    by_cases empty : iterable = []
    · exact .inl empty
    · refine .inr fun size chosen => ?_
      obtain rfl : chunksize = some size := chosen
      simp only [Except.map, if_neg (mt List.eq_nil_of_length_eq_zero empty), getTasks,
        Except.ok.injEq, Prod.mk.injEq] at submitted
      by_contra large
      rw [if_pos (by simp [Int.not_le.mp large])] at submitted
      cases submitted.2

theorem maps_iff {processes : Nat} {chunksize : Option Int} {callback : Option Callback}
    (iterable : List δ) (errorCallback : Option Callback) (job : Nat) (mapper : List δ → List β)
    (call : δ → β) (sized : ∀ size ∈ chunksize, 1 ≤ size)
    (workers : chunksize = none → 1 ≤ processes)
    (returns : callback = none ∨ callback = some .returns)
    (mapped : ∀ batch, mapper batch = batch.map call) :
    Maps processes chunksize iterable callback errorCallback job mapper (iterable.map call) ↔
      (iterable ≠ [] ∨ callback = none) ∧ Bounded chunksize iterable := by
  cases iterable with
  | nil =>
      rw [or_iff_right (by simp), and_iff_left ⟨Nat.zero_le _, .inl rfl⟩,
        ← gives_nil_iff (β := β) callback errorCallback job]
      constructor
      · intro ⟨result, tasks, submitted, gives⟩
        rw [mapAsync_nil callback errorCallback job workers] at submitted
        cases submitted
        exact gives [] _ rfl
      · intro gives
        refine ⟨_, _, mapAsync_nil callback errorCallback job workers, ?_⟩
        intro labels mapping ran
        cases labels with
        | nil =>
            cases ran
            exact gives
        | cons label labels =>
            obtain ⟨next, taken, _⟩ := run_cons_eq_some.mp ran
            cases label <;> simp [step, init] at taken
  | cons x xs =>
      have nonempty : x :: xs ≠ [] := List.cons_ne_nil x xs
      rw [and_iff_right (.inl nonempty)]
      refine ⟨fun ⟨_, _, submitted, _⟩ => bounded_of_submitted submitted, fun bounded => ?_⟩
      obtain ⟨size, positive, submitted⟩ :=
        mapAsync_of_ne_nil callback errorCallback job sized workers bounded nonempty
      refine ⟨_, _, submitted, ?_⟩
      intro labels mapping ran
      rw [length_split positive (Nat.le_refl _)]
      apply Invariant.gives positive
      exact invariant_run
        (fun _ label _ invariant taken =>
          Invariant.step positive mapped returns label invariant taken)
        (invariant_init errorCallback job positive nonempty) ran

end Mapping

def answers (call : α → β) (tasks : List α) (i : Nat) : Outcome β :=
  match tasks[i]? with
  | some task => .success (call task)
  | none => .failure (.raised "IndexError")

def yielded (received : List (Outcome α)) : List α := received.filterMap fun
  | .success value => some value
  | .failure _ => none

theorem yielded_answers (call : α → β) (tasks : List α) :
    yielded ((List.range tasks.length).map (answers call tasks)) = tasks.map call := by
  have all : (List.range tasks.length).map (answers call tasks) =
      tasks.map fun task => .success (call task) := by
    apply List.ext_getElem
    · simp
    · intro i _ inside
      simp only [List.length_map] at inside
      simp [answers, inside]
  rw [all, yielded, List.filterMap_map]
  change tasks.filterMap (some ∘ call) = tasks.map call
  rw [List.filterMap_eq_map]

/-- Whatever the order of the results, the iterator yields `values` and stops. -/
def Imap.Yields (func : Func α β) (values : List β) (it : Imap α) : Prop :=
  ∀ (job lostWorkerTimeout : Nat) (labels : List DeliveryStep),
    match it with
    | .single tasks =>
        let results := answers (fun x => func [x]) tasks
        ∀ delivery, run (Delivery.step false tasks.length results)
            (.init job lostWorkerTimeout) labels = some delivery →
          delivery.Correct false tasks.length results ∧
            (delivery.stopped = true → yielded delivery.received = values)
    | .flattened tasks =>
        let results := answers (mapstar func) tasks
        ∀ delivery, run (Delivery.step false tasks.length results)
            (.init job lostWorkerTimeout) labels = some delivery →
          delivery.Correct false tasks.length results ∧
            (delivery.stopped = true → (yielded delivery.received).flatten = values)

theorem yields_single (func : Func α β) (tasks : List α) :
    (Imap.single tasks).Yields func (tasks.map fun x => func [x]) := by
  intro job lostWorkerTimeout labels
  simp only
  intro delivery ran
  have correct := (Delivery.invariant_of_run _ _ _ job lostWorkerTimeout ran).correct
  refine ⟨correct, ?_⟩
  intro stopped
  rw [(correct.stopped stopped).2]
  exact yielded_answers _ tasks

theorem yields_flattened (func : Func α β) {size : Nat} (positive : 0 < size) (iterable : List α) :
    (Imap.flattened (split size iterable.length iterable)).Yields func
      (iterable.map fun x => func [x]) := by
  intro job lostWorkerTimeout labels
  simp only
  intro delivery ran
  have correct := (Delivery.invariant_of_run _ _ _ job lostWorkerTimeout ran).correct
  refine ⟨correct, ?_⟩
  intro stopped
  have items : (yielded delivery.received) =
      (split size iterable.length iterable).map (mapstar func) := by
    rw [(correct.stopped stopped).2]
    exact yielded_answers _ _
  rw [items]
  unfold mapstar
  rw [← List.map_flatten, flatten_split positive (Nat.le_refl _)]

/-- `map_async` and `starmap_async` with a callback, and `imap`, compute what the
list of the results is. -/
structure Refines (func : Func α β) (xs : List α) (ys : List (List α)) (processes : Nat)
    (chunksize : Option Int) (callback errorCallback : Option Callback) (job : Nat) : Prop where
  map : Mapping.Maps processes chunksize xs callback errorCallback job (mapstar func)
    (xs.map fun x => func [x])
  starmap : Mapping.Maps processes chunksize ys callback errorCallback job (starmapstar func)
    (ys.map func)
  imap : ∃ it, Billiard.imap chunksize xs = .ok it ∧ it.Yields func (xs.map fun x => func [x])

/-- If the iterator ends at once, there is nothing to yield. -/
theorem eq_nil_of_yields {func : Func α β} {values : List β}
    (yields : (Imap.flattened []).Yields func values) : values = [] := by
  obtain ⟨_, yielded⟩ := yields 0 0 [.setLength, .next false] _ rfl
  exact (yielded rfl).symm

theorem imap_yields_iff (func : Func α β) (xs : List α) {chunksize : Option Int}
    (sized : ∀ size ∈ chunksize, 1 ≤ size) :
    (∃ it, imap chunksize xs = .ok it ∧ it.Yields func (xs.map fun x => func [x])) ↔
      chunksize ≠ none ∧ (xs = [] ∨ ∀ size ∈ chunksize, size ≤ ssizeMax) := by
  cases chunksize with
  | none => simp [imap]
  | some size =>
      rw [and_iff_right nofun]
      have positive := sized size rfl
      have valid : ¬size < 1 := by omega
      have nonnegative : ¬size < 0 := by omega
      rcases Int.lt_or_le ssizeMax size with large | fits
      · have more : size ≠ 1 := by
          intro one
          rw [one] at large
          exact absurd large (by decide)
        have refused : imap (some size) xs = .ok (.flattened []) := by
          simp [imap, more, valid, getTasks, nonnegative, large]
        rw [refused]
        constructor
        · rintro ⟨it, same, yields⟩
          cases same
          exact .inl (List.map_eq_nil_iff.mp (eq_nil_of_yields yields))
        · rintro (rfl | fit)
          · exact ⟨_, rfl, yields_flattened func Nat.one_pos []⟩
          · exact absurd (fit size rfl) (Int.not_le.mpr large)
      · refine iff_of_true ?_ (.inr fun _ same => Option.some.inj same ▸ fits)
        cases decEq size 1 with
        | isTrue one => exact ⟨.single xs, by simp [imap, one], yields_single func xs⟩
        | isFalse more =>
            refine ⟨.flattened (split size.toNat xs.length xs), ?_,
              yields_flattened func (by omega) xs⟩
            simp [imap, more, valid, getTasks, nonnegative, Int.not_lt.mpr fits]

/-- The results are those of the list, unless a callback waits for the result of
an empty iterable, or `imap` is left to choose the size of its batches, or more is asked for than
there may be. -/
theorem refines_iff (func : Func α β) (xs : List α) (ys : List (List α)) (processes : Nat)
    (chunksize : Option Int) (callback errorCallback : Option Callback) (job : Nat)
    (sized : ∀ size ∈ chunksize, 1 ≤ size) (workers : chunksize = none → 1 ≤ processes)
    (returns : callback = none ∨ callback = some .returns) :
    Refines func xs ys processes chunksize callback errorCallback job ↔
      (((xs ≠ [] ∧ ys ≠ []) ∨ callback = none) ∧ chunksize ≠ none) ∧
        Mapping.Bounded chunksize xs ∧ Mapping.Bounded chunksize ys := by
  have map := Mapping.maps_iff xs errorCallback job (mapstar func) (fun x => func [x]) sized
    workers returns fun _ => rfl
  have starmap := Mapping.maps_iff ys errorCallback job (starmapstar func) func sized workers
    returns fun _ => rfl
  have imap := imap_yields_iff func xs sized
  constructor
  · intro refines
    obtain ⟨some_, boundedXs⟩ := map.mp refines.map
    obtain ⟨other, boundedYs⟩ := starmap.mp refines.starmap
    exact ⟨⟨and_or_right.mpr ⟨some_, other⟩, (imap.mp refines.imap).1⟩, boundedXs, boundedYs⟩
  · rintro ⟨⟨some_, chosen⟩, boundedXs, boundedYs⟩
    obtain ⟨someXs, someYs⟩ := and_or_right.mp some_
    exact ⟨map.mpr ⟨someXs, boundedXs⟩, starmap.mpr ⟨someYs, boundedYs⟩,
      imap.mpr ⟨chosen, boundedXs.2⟩⟩

theorem refines_shortLastChunk :
    Refines (fun args : List Nat => args.sum) [1, 2, 3] [[1, 2], [3, 4], [5]] 1 (some 2)
      (some .returns) none 0 := by
  apply (refines_iff _ _ _ 1 (some 2) (some .returns) none 0 (by decide) nofun (.inr rfl)).mpr
  decide

/-- `map_async(f, [], callback=callback)` never calls `callback`. -/
theorem not_refines :
    ¬Refines (fun args : List Nat => args.sum) [] [[1, 2]] 1 (some 1) (some .returns) none 0 := by
  intro refines
  obtain ⟨result, tasks, submitted, gives⟩ := refines.map
  cases submitted
  exact absurd (gives [] _ rfl).calls (by simp [Mapping.init, MapResult.init, MapResult.ready])

end Billiard
