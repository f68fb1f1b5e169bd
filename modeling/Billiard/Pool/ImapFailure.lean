import Billiard.Data.Chunk
import Billiard.Pool.Delivery
import Billiard.Pool.TaskHandler

/-! An `imap` or `imap_unordered` of an iterable that raises, from the submission until the
consumer has what it is to get. -/

namespace Billiard

open Transition

/-- The iterable yields `items` and then raises `info`; `results` are the answers of the
workers to its tasks. -/
structure ImapCall (α : Type u) (β : Type v) where
  unordered : Bool
  number : Nat
  lostWorkerTimeout : Nat
  chunksize : Nat
  positive : 0 < chunksize
  items : List β
  info : ExceptionInfo
  results : Nat → Outcome α

/-- `exit` tells how the `TaskHandler` came out of the submission, `received` and `stopped`
what the consumer has got from `next`. -/
structure ImapRun (α : Type u) where
  handler : TaskHandler α
  count : Nat
  exit : Option Exit
  arrived : List Nat
  consumer : Consumer
  received : List (Outcome α)
  stopped : Bool

inductive ImapStep where
  | put
  | fail
  | deliver (label : DeliveryStep)
deriving DecidableEq

namespace ImapCall

/-- What `_get_tasks` yields: items read for a batch in which the iterable raises are lost. -/
def batches (call : ImapCall α β) : List (List β) :=
  Chunk.whole call.chunksize call.items.length call.items

def batch (call : ImapCall α β) : Batch where
  attempts := (List.range call.batches.length).map fun i => ⟨⟨call.number, some i⟩, true, .stored⟩
  failure := some call.info
  setLength := some call.number

def job (call : ImapCall α β) (it : IMapIterator α) : Job α :=
  if call.unordered then .imapUnordered it else .imap it

def iterator (call : ImapCall α β) (jobs : Dict Nat (Job α)) : Option (IMapIterator α) :=
  match jobs call.number with
  | some (.imap it) | some (.imapUnordered it) => some it
  | _ => none

def init (call : ImapCall α β) (cache : Dict Nat (Job α)) : ImapRun α where
  handler := .init
    (cache.set call.number (call.job (.init call.number call.lostWorkerTimeout)))
  count := 0
  exit := none
  arrived := []
  consumer := .idle
  received := []
  stopped := false

def delivery (run : ImapRun α) (it : IMapIterator α) : Delivery α :=
  ⟨it, run.arrived, run.consumer, run.received, run.stopped, if it.cached then 0 else 1, none⟩

def store (call : ImapCall α β) (run : ImapRun α) (delivery : Delivery α) : ImapRun α :=
  { run with
    handler := { run.handler with
      jobs := run.handler.jobs.set call.number (call.job delivery.it) }
    arrived := delivery.arrived
    consumer := delivery.consumer
    received := delivery.received
    stopped := delivery.stopped }

def deliver (call : ImapCall α β) (run : ImapRun α) (label : DeliveryStep) :
    Option (ImapRun α) :=
  match call.iterator run.handler.jobs with
  | none => none
  | some it =>
      ((delivery run it).step call.unordered call.batches.length call.results label).map
        (call.store run)

def step (iter : α → List α) (call : ImapCall α β) (run : ImapRun α) (label : ImapStep) :
    Option (ImapRun α) :=
  match run.exit, label with
  -- the parent has left by `os._exit(1)`
  | some (.raised _), _ => none
  | none, .put =>
      match call.batch.attempts[run.count]? with
      | none => none
      | some attempt =>
          let (handler, count, _) := run.handler.putTasks iter run.count [attempt]
          some { run with handler, count }
  | none, .fail =>
      if run.count = call.batches.length then
        match run.handler.recover iter call.batch run.count call.info with
        | (handler, none) => some { run with handler, exit := some .exhausted }
        | (handler, some exc) => some { run with handler, exit := some (.raised exc.info) }
      else none
  | _, .deliver (.arrive i) => if i < run.count then call.deliver run (.arrive i) else none
  | _, .deliver (.next timed) => call.deliver run (.next timed)
  | _, .deliver .wake => call.deliver run .wake
  | _, .deliver .timeOut => call.deliver run .timeOut
  | _, _ => none

/-- The `TaskHandler` is through with the submission, and every result has arrived. -/
structure Settled (call : ImapCall α β) (run : ImapRun α) : Prop where
  exit : run.exit = some .exhausted
  arrived : run.arrived.length = call.batches.length

/-- In the end the consumer has, or can take, the result of every batch and then an exception, and
waits for nothing before that. -/
structure Upholds (call : ImapCall α β) (cache : Dict Nat (Job α)) (run : ImapRun α) : Prop where
  goesOn : ∀ info, run.exit ≠ some (.raised info)
  untouched : ∀ other ≠ call.number, run.handler.jobs other = cache other
  endless : run.stopped = false
  delivered : call.Settled run → ∃ it info, call.iterator run.handler.jobs = some it ∧
    run.received ++ it.items =
      ((delivery run it).sequence call.unordered call.batches.length).map call.results ++
        [.failure info] ∧
    (it.waiters ≠ [] → call.batches.length < run.received.length)

variable {iter : α → List α} {call : ImapCall α β} {cache : Dict Nat (Job α)} {run : ImapRun α}

theorem length_batches (call : ImapCall α β) :
    call.batches.length = call.items.length / call.chunksize :=
  Chunk.length_whole call.positive (Nat.le_refl _)

theorem iterator_of_job {jobs : Dict Nat (Job α)} {it : IMapIterator α}
    (found : jobs call.number = some (call.job it)) : call.iterator jobs = some it := by
  unfold iterator
  rw [found]
  unfold job
  cases call.unordered <;> rfl

@[simp] theorem iterator_set (jobs : Dict Nat (Job α)) (it : IMapIterator α) :
    call.iterator (jobs.set call.number (call.job it)) = some it :=
  iterator_of_job (by rw [Dict.set_apply, if_pos rfl])

/-- The consumer's side stands where a run of an `imap` with as many tasks may stand. -/
structure Ordinary (call : ImapCall α β) (run : ImapRun α) : Prop where
  exit : run.exit = some .exhausted
  count : run.count = call.batches.length
  invariant : ∃ it, call.iterator run.handler.jobs = some it ∧
    Delivery.Invariant call.unordered call.batches.length call.results (delivery run it)

theorem invariant_delivery {next : Delivery α}
    (invariant : next.Invariant call.unordered call.batches.length call.results)
    (arrived : run.arrived = next.arrived) (consumer : run.consumer = next.consumer)
    (received : run.received = next.received) (stopped : run.stopped = next.stopped) :
    (delivery run next.it).Invariant call.unordered call.batches.length call.results := by
  have same : delivery run next.it = next := by
    simp only [delivery, arrived, consumer, received, stopped, ← invariant.deletions,
      ← invariant.faultless]
  rw [same]
  exact invariant

theorem Ordinary.arrive (iter : α → List α) (ordinary : call.Ordinary run) {i : Nat}
    (inside : i < call.batches.length) (missing : i ∉ run.arrived) :
    ∃ next, call.step iter run (.deliver (.arrive i)) = some next ∧ call.Ordinary next ∧
      next.arrived = run.arrived ++ [i] := by
  obtain ⟨it, found, invariant⟩ := ordinary.invariant
  cases taken : (delivery run it).step call.unordered call.batches.length call.results
      (.arrive i) with
  | none => simp [Delivery.step, delivery, inside, missing] at taken
  | some next =>
      have kept := invariant.step _ taken
      have arrived : next.arrived = run.arrived ++ [i] := by
        simp only [Delivery.step, delivery, inside, missing, not_false_eq_true, and_self, if_true,
          Option.isSome_none, Bool.false_eq_true, if_false, Option.some.injEq] at taken
        rw [← taken]
        rfl
      refine ⟨call.store run next, ?_, ?_, arrived⟩
      · simp [step, ordinary.exit, ordinary.count, inside, deliver, found, taken]
      · exact ⟨ordinary.exit, ordinary.count, next.it, iterator_set _ _,
          invariant_delivery kept rfl rfl rfl rfl⟩

theorem Ordinary.settle (iter : α → List α) (ordinary : call.Ordinary run) {missing : Nat}
    (arrived : run.arrived = List.range (call.batches.length - missing))
    (few : missing ≤ call.batches.length) :
    ∃ labels last, Transition.run (call.step iter) run labels = some last ∧
      call.Ordinary last ∧ call.Settled last := by
  induction missing generalizing run with
  | zero => exact ⟨[], run, rfl, ordinary, ordinary.exit, by simp [arrived]⟩
  | succ missing ih =>
      have inside : call.batches.length - (missing + 1) < call.batches.length := by omega
      have following : call.batches.length - (missing + 1) + 1 =
          call.batches.length - missing := by omega
      obtain ⟨next, taken, after, more⟩ := ordinary.arrive iter inside (by simp [arrived])
      rw [arrived, ← List.range_succ, Nat.succ_eq_add_one, following] at more
      obtain ⟨labels, last, ran, rest⟩ := ih after more (by omega)
      exact ⟨_, last, run_cons_eq_some.mpr ⟨next, taken, ran⟩, rest⟩

/-- An ordinary run ends with the results, and nothing tells that the iterable has raised. -/
theorem Ordinary.not_upholds (ordinary : call.Ordinary run) (settled : call.Settled run) :
    ¬call.Upholds cache run := by
  intro upholds
  obtain ⟨it, info, found, handed, _⟩ := upholds.delivered settled
  obtain ⟨other, here, invariant⟩ := ordinary.invariant
  rw [found] at here
  cases here
  have full : it.index = call.batches.length := invariant.index_eq_iff.mpr settled.arrived
  have length := congrArg List.length handed
  have received := invariant.received_length
  have sequence : ((delivery run it).sequence call.unordered call.batches.length).length =
      call.batches.length := by
    unfold Delivery.sequence
    split
    · exact settled.arrived
    · exact List.length_range
  simp only [List.length_append, List.length_map, List.length_singleton, sequence] at length
  simp only [delivery] at received
  omega

theorem puts (iter : α → List α) (call : ImapCall α β) (cache : Dict Nat (Job α)) {count : Nat}
    (few : count ≤ call.batches.length) :
    Transition.run (call.step iter) (call.init cache) (List.replicate count .put) =
      some { call.init cache with
        handler := { (call.init cache).handler with
          puts := (call.batch.attempts.take count).filterMap Attempt.stored }
        count } := by
  induction count with
  | zero => rfl
  | succ count ih =>
      have inside : count < call.batches.length := few
      rw [List.replicate_succ', run_append_eq_some]
      refine ⟨_, ih (Nat.le_of_lt few), ?_⟩
      simp [run_cons_eq_some, step, init, TaskHandler.init, TaskHandler.putTasks, batch, inside,
        List.take_add_one, Attempt.stored]

theorem step_fail {handler : TaskHandler α} {raised : Option Raised} (fed : run.exit = none)
    (all : run.count = call.batches.length)
    (recovered : run.handler.recover iter call.batch call.batches.length call.info =
      (handler, raised)) :
    call.step iter run .fail = some { run with
      handler
      exit := some (match raised with | none => .exhausted | some exc => .raised exc.info) } := by
  unfold step
  simp only [fed, all, if_true, recovered]
  cases raised <;> rfl

/-- Without anything in between, the steps are `TaskHandler.processBatch`. -/
theorem run_processBatch (iter : α → List α) (call : ImapCall α β) (cache : Dict Nat (Job α)) :
    Transition.run (call.step iter) (call.init cache)
        (List.replicate call.batches.length .put ++ [.fail]) =
      some { call.init cache with
        handler := ((call.init cache).handler.processBatch iter call.batch).1
        count := call.batches.length
        exit := some ((call.init cache).handler.processBatch iter call.batch).2 } := by
  rw [run_append_eq_some]
  refine ⟨_, puts iter call cache (Nat.le_refl _), ?_⟩
  have running : ∀ attempt ∈ call.batch.attempts,
      attempt.running = true ∧ attempt.put ≠ .ioError := by
    simp [batch]
  have unheard : ∀ failed ∈ call.batch.attempts.filterMap Attempt.failed,
      TaskHandler.Unheard (call.init cache).handler.jobs failed.1 := by
    simp [batch, Attempt.failed]
  have length : call.batch.attempts.length = call.batches.length := by simp [batch]
  have tasks := TaskHandler.putTasks_unheard iter 0 running unheard
  have nothing : (call.init cache).handler.puts ++ call.batch.attempts.filterMap Attempt.stored =
      call.batch.attempts.filterMap Attempt.stored := rfl
  have failure : call.batch.failure = some call.info := rfl
  rw [Nat.zero_add, length, nothing] at tasks
  rw [List.take_of_length_le (Nat.le_of_eq length)]
  cases recovered : TaskHandler.recover iter { (call.init cache).handler with
      puts := call.batch.attempts.filterMap Attempt.stored } call.batch call.batches.length
      call.info with
  | mk handler raised =>
      refine run_cons_eq_some.mpr ⟨_, step_fail rfl rfl recovered, ?_⟩
      simp only [TaskHandler.processBatch, tasks, failure, recovered]
      cases raised <;> rfl

theorem callSetLength_job {handler : TaskHandler α} {it : IMapIterator α}
    (found : handler.jobs call.number = some (call.job it)) (count : Nat) :
    handler.callSetLength call.batch count =
      ({ handler with
        jobs := handler.jobs.set call.number (call.job (it.setLength count).1)
        lengths := handler.lengths ++ [(call.number, count)] }, (it.setLength count).2) := by
  simp only [TaskHandler.callSetLength, batch, found]
  unfold job
  cases call.unordered <;> rfl

/-- What the outer `except` does to the iterator is what follows an iterable that ends there, but
for the job 0 that has no task yet. -/
theorem recover_cases {before after : TaskHandler α} {it : IMapIterator α}
    (found : before.jobs call.number = some (call.job it))
    (recovered : before.recover iter call.batch call.batches.length call.info = (after, none)) :
    call.iterator after.jobs = some (it.setLength call.batches.length).1 ∨
      call.number = 0 ∧ call.batches.length = 0 := by
  have lengthSet : ∀ handler : TaskHandler α, handler.jobs call.number = some (call.job it) →
      handler.callSetLength call.batch call.batches.length = (after, none) →
      call.iterator after.jobs = some (it.setLength call.batches.length).1 := by
    intro handler here called
    rw [callSetLength_job here, Prod.mk.injEq] at called
    rw [← called.1]
    exact iterator_set _ _
  unfold TaskHandler.recover at recovered
  split at recovered
  · rename_i nothing
    split at recovered
    · exact .inl (lengthSet before found recovered)
    · by_cases first : call.number = 0
      · exact .inr ⟨first, nothing⟩
      split at recovered
      · rename_i handler failed
        refine .inl (lengthSet handler ?_ recovered)
        have same := congrArg (fun result => result.1.jobs call.number) failed
        simp only [TaskHandler.setFailure, Dict.set_apply, if_neg first] at same
        rw [← same]
        exact found
      · rename_i failed
        rw [recovered] at failed
        exact absurd rfl (failed after)
  · split at recovered
    · cases recovered
    · exact .inl (lengthSet before found recovered)

/-- An ordered iterator keeps the failure for an index that its consumer never gets to. -/
theorem items_recover_first {before after : TaskHandler α}
    (ordered : call.unordered = false) (first : call.number = 0)
    (found : before.jobs call.number =
      some (call.job (.init call.number call.lostWorkerTimeout)))
    (recovered : before.recover iter call.batch 0 call.info = (after, none)) :
    ∃ it, call.iterator after.jobs = some it ∧ it.items = [] := by
  have cached : TaskHandler.cached before.jobs 0 =
      some (.imap (.init call.number call.lostWorkerTimeout)) := by
    rw [first] at found
    simp [TaskHandler.cached, found, job, ordered, first, Job.cached, IMapIterator.init]
  have set : (Job.imap (.init call.number call.lostWorkerTimeout)).set iter (.position 1)
      (.failure call.info) = (.imap ((IMapIterator.init call.number call.lostWorkerTimeout).keep
        (.position 1) (.failure call.info)), none) := rfl
  have kept : ∀ it : IMapIterator α, (it.setLength 0).1.items = it.items := by
    intro it
    cases cached : it.cached <;> by_cases last : it.index = 0 <;>
      simp [IMapIterator.setLength, IMapIterator.notify, IMapIterator.complete, cached, last]
  simp only [TaskHandler.recover, if_true, cached, TaskHandler.setFailure, set] at recovered
  rw [@callSetLength_job _ _ _ _ ((IMapIterator.init call.number call.lostWorkerTimeout).keep
    (.position 1) (.failure call.info)), Prod.mk.injEq] at recovered
  · rw [← recovered.1]
    exact ⟨_, iterator_set _ _, kept _⟩
  · simp [first, Dict.set_apply, job, ordered]

theorem not_upholds (iter : α → List α) (call : ImapCall α β) (cache : Dict Nat (Job α))
    (unlike : ¬(call.unordered = true ∧ call.number = 0 ∧ call.items.length < call.chunksize)) :
    ∃ labels last, Transition.run (call.step iter) (call.init cache) labels = some last ∧
      ¬call.Upholds cache last := by
  have fed := puts iter call cache (Nat.le_refl _)
  generalize started : ({ (call.init cache).handler with
    puts := (call.batch.attempts.take call.batches.length).filterMap Attempt.stored } :
      TaskHandler α) = before at fed
  have found : before.jobs call.number =
      some (call.job (.init call.number call.lostWorkerTimeout)) := by
    simp [← started, init, TaskHandler.init, Dict.set_apply]
  cases recovered : before.recover iter call.batch call.batches.length call.info with
  | mk handler raised =>
      have failed := run_append_eq_some.mpr
        ⟨_, fed, run_cons_eq_some.mpr ⟨_, step_fail rfl rfl recovered, run_nil _⟩⟩
      cases raised with
      | some exc => exact ⟨_, _, failed, fun upholds => upholds.goesOn _ rfl⟩
      | none =>
          cases recover_cases found recovered with
          | inl known =>
              have unknown := Delivery.init_invariant call.unordered call.batches.length
                call.results call.number call.lostWorkerTimeout
              have ordinary : call.Ordinary { call.init cache with
                  handler
                  count := call.batches.length
                  exit := some .exhausted } :=
                ⟨rfl, rfl, _, known, invariant_delivery (unknown.setLength rfl) rfl rfl rfl rfl⟩
              obtain ⟨labels, last, ran, after, settled⟩ :=
                ordinary.settle iter (by simp [init]) (Nat.le_refl _)
              exact ⟨_, last, run_append_eq_some.mpr ⟨_, failed, ran⟩, after.not_upholds settled⟩
          | inr early =>
              obtain ⟨first, none_⟩ := early
              have short : call.items.length < call.chunksize := by
                rw [length_batches] at none_
                exact (Nat.div_eq_zero_iff_lt call.positive).mp none_
              have ordered : call.unordered = false := by simpa [first, short] using unlike
              rw [none_] at recovered
              obtain ⟨it, here, nothing⟩ := items_recover_first ordered first found recovered
              refine ⟨_, _, failed, fun upholds => ?_⟩
              obtain ⟨other, info, there, handed, _⟩ :=
                upholds.delivered ⟨rfl, by simp [init, none_]⟩
              rw [here] at there
              cases there
              simp [nothing, init, Delivery.sequence] at handed

/-- The consumer may take the items that are there, and then it waits. -/
structure Pending (expected : List (Outcome α)) (delivery : Delivery α) : Prop where
  faultless : delivery.raised = none
  arrived : delivery.arrived = []
  handed : delivery.received ++ delivery.it.items = expected
  open_ : delivery.it.length ≠ some delivery.it.index
  rests : Delivery.Rests delivery.it delivery.consumer
  endless : delivery.stopped = false

theorem Pending.attempt {expected : List (Outcome α)} {delivery blocked : Delivery α}
    (pending : Pending expected delivery) (idle : delivery.consumer = .idle)
    (otherwise : delivery.it.items = [] → Pending expected blocked ∧
      ∃ items waiters, blocked.it = { delivery.it with items, waiters }) :
    Pending expected (delivery.attempt blocked) ∧
      ∃ items waiters, (delivery.attempt blocked).it = { delivery.it with items, waiters } := by
  have rests := pending.rests
  rw [idle] at rests
  cases items : delivery.it.items with
  | cons outcome rest =>
      simp only [Delivery.attempt, IMapIterator.popleft_item items]
      have handed := pending.handed
      simp only [items] at handed
      exact ⟨{ pending with handed := by simpa using handed, rests := rests }, rest,
        delivery.it.waiters, rfl⟩
  | nil =>
      simp only [Delivery.attempt, IMapIterator.popleft_nothing items pending.open_]
      exact otherwise items

theorem Pending.awake {expected : List (Outcome α)} {delivery : Delivery α}
    (pending : Pending expected delivery) : Pending expected delivery.awake :=
  { pending with rests := rfl }

theorem Pending.consume {expected : List (Outcome α)} {delivery next : Delivery α}
    {label : DeliveryStep} (pending : Pending expected delivery) {unordered : Bool}
    {results : Nat → Outcome α}
    (consumes : label = .wake ∨ label = .timeOut ∨ ∃ timed, label = .next timed)
    (taken : delivery.step unordered 0 results label = some next) :
    Pending expected next ∧ ∃ items waiters, next.it = { delivery.it with items, waiters } := by
  obtain ⟨blocked, rfl, left⟩ := Delivery.consume_cases pending.rests consumes taken
  refine pending.awake.attempt rfl fun items => ?_
  obtain rfl | ⟨timed, rfl⟩ := left
  · exact ⟨pending.awake, _, _, rfl⟩
  · exact ⟨{ pending with rests := .inr ⟨rfl, items, pending.open_⟩ }, _, _, rfl⟩

theorem Pending.step {expected : List (Outcome α)} {delivery next : Delivery α}
    {label : DeliveryStep} (pending : Pending expected delivery) {unordered : Bool}
    {results : Nat → Outcome α} (notSetLength : label ≠ .setLength)
    (taken : delivery.step unordered 0 results label = some next) :
    Pending expected next ∧ ∃ items waiters, next.it = { delivery.it with items, waiters } := by
  cases label with
  | arrive i => simp [Delivery.step] at taken
  | setLength => exact absurd rfl notSetLength
  | next timed => exact pending.consume (.inr (.inr ⟨timed, rfl⟩)) taken
  | wake => exact pending.consume (.inl rfl) taken
  | timeOut => exact pending.consume (.inr (.inl rfl)) taken

/-- Where the `imap_unordered` 0 stands that has no task. -/
structure Early (call : ImapCall α β) (cache : Dict Nat (Job α)) (run : ImapRun α) : Prop where
  count : run.count = 0
  untouched : ∀ other ≠ call.number, run.handler.jobs other = cache other
  iterator : ∃ it, run.handler.jobs call.number = some (call.job it) ∧ it.cached = true ∧
    (run.exit = none ∧ it.length = none ∧ it.index = 0 ∧ Pending [] (delivery run it) ∨
      run.exit = some .exhausted ∧ it.length = some 0 ∧ it.index = 1 ∧
        Pending [.failure call.info] (delivery run it))

theorem pending_delivery {expected : List (Outcome α)} {next : Delivery α}
    (pending : Pending expected next) (arrived : run.arrived = next.arrived)
    (consumer : run.consumer = next.consumer) (received : run.received = next.received)
    (stopped : run.stopped = next.stopped) : Pending expected (delivery run next.it) where
  faultless := rfl
  arrived := arrived.trans pending.arrived
  handed := by
    rw [delivery, received]
    exact pending.handed
  open_ := pending.open_
  rests := by
    rw [delivery, consumer]
    exact pending.rests
  endless := stopped.trans pending.endless

theorem Early.deliver (nothing : call.batches.length = 0) {next : ImapRun α}
    {label : DeliveryStep} (early : call.Early cache run) (notSetLength : label ≠ .setLength)
    (taken : call.deliver run label = some next) : call.Early cache next := by
  obtain ⟨it, found, cached, state⟩ := early.iterator
  have known : call.iterator run.handler.jobs = some it := iterator_of_job found
  simp only [ImapCall.deliver, known, nothing, Option.map_eq_some_iff] at taken
  obtain ⟨after, moved, rfl⟩ := taken
  have others : ∀ other ≠ call.number,
      (call.store run after).handler.jobs other = cache other := by
    intro other different
    simp only [store, Dict.set_apply, if_neg different]
    exact early.untouched other different
  have stored : (call.store run after).handler.jobs call.number = some (call.job after.it) := by
    simp [store, Dict.set_apply]
  cases state with
  | inl before =>
      obtain ⟨exit, length, index, pending⟩ := before
      obtain ⟨kept, items, waiters, same⟩ := pending.step notSetLength moved
      refine ⟨early.count, others, after.it, stored, ?_, .inl ⟨exit, ?_, ?_, ?_⟩⟩
      · exact same ▸ cached
      · exact same ▸ length
      · exact same ▸ index
      · exact pending_delivery kept rfl rfl rfl rfl
  | inr before =>
      obtain ⟨exit, length, index, pending⟩ := before
      obtain ⟨kept, items, waiters, same⟩ := pending.step notSetLength moved
      refine ⟨early.count, others, after.it, stored, ?_, .inr ⟨exit, ?_, ?_, ?_⟩⟩
      · exact same ▸ cached
      · exact same ▸ length
      · exact same ▸ index
      · exact pending_delivery kept rfl rfl rfl rfl

theorem recover_early (iter : α → List α) (unordered : call.unordered = true)
    (first : call.number = 0) {before : TaskHandler α} {it : IMapIterator α}
    (found : before.jobs call.number = some (call.job it)) (cached : it.cached = true)
    (length : it.length = none) (index : it.index = 0) :
    ∃ after, before.recover iter call.batch 0 call.info = (after, none) ∧
      after.jobs call.number = some (call.job
        { (it.append (.failure call.info)).notify with length := some 0 }) ∧
      ∀ other ≠ call.number, after.jobs other = before.jobs other := by
  have inCache : TaskHandler.cached before.jobs 0 = some (call.job it) := by
    rw [first] at found
    simp [TaskHandler.cached, found, job, unordered, Job.cached, cached]
  have set : (call.job it).set iter (.position 1) (.failure call.info) =
      (call.job (it.append (.failure call.info)).notify, none) := by
    simp [job, unordered, Job.set, IMapIterator.setUnordered, IMapIterator.complete,
      IMapIterator.notify, IMapIterator.append, length]
  have lengthSet : (it.append (.failure call.info)).notify.setLength 0 =
      ({ (it.append (.failure call.info)).notify with length := some 0 }, none) := by
    simp [IMapIterator.setLength, IMapIterator.notify, IMapIterator.append, index]
  have stored : (before.setFailure iter 0 (call.job it) (.position 1) call.info).1.jobs
      call.number = some (call.job (it.append (.failure call.info)).notify) := by
    simp only [TaskHandler.setFailure, set, Dict.set_apply, if_pos first]
  have called := callSetLength_job stored 0
  rw [lengthSet] at called
  have failed : before.setFailure iter 0 (call.job it) (.position 1) call.info =
      ((before.setFailure iter 0 (call.job it) (.position 1) call.info).1, none) := by
    simp only [TaskHandler.setFailure, set]
  have recovered : before.recover iter call.batch 0 call.info =
      (before.setFailure iter 0 (call.job it) (.position 1) call.info).1.callSetLength
        call.batch 0 := by
    simp only [TaskHandler.recover, if_true, inCache]
    rw [failed]
  refine ⟨_, recovered.trans called, ?_, ?_⟩
  · simp [Dict.set_apply]
  · intro other different
    have apart : other ≠ 0 := first ▸ different
    simp [Dict.set_apply, different, TaskHandler.setFailure, apart]

theorem Early.fail (unordered : call.unordered = true) (first : call.number = 0)
    (nothing : call.batches.length = 0) {next : ImapRun α} (early : call.Early cache run)
    (fed : run.exit = none) (taken : call.step iter run .fail = some next) :
    call.Early cache next := by
  obtain ⟨it, found, cached, state⟩ := early.iterator
  obtain ⟨length, index, pending⟩ : it.length = none ∧ it.index = 0 ∧
      Pending [] (delivery run it) := by
    cases state with
    | inl before => exact before.2
    | inr before => exact absurd (fed.symm.trans before.1) nofun
  obtain ⟨after, recovered, stored, others⟩ :=
    recover_early iter unordered first found cached length index
  rw [← nothing] at recovered
  rw [step_fail fed (early.count.trans nothing.symm) recovered] at taken
  cases taken
  have empty : it.items = [] := (List.append_eq_nil_iff.mp pending.handed).2
  have fresh : run.received = [] := (List.append_eq_nil_iff.mp pending.handed).1
  have awake : it.waiters.tail = [] := Delivery.Rests.notified pending.rests
  refine ⟨early.count, fun other different => (others other different).trans
    (early.untouched other different), _, stored, cached, .inr ⟨rfl, rfl, ?_, ?_⟩⟩
  · simp [IMapIterator.notify, IMapIterator.append, index]
  · exact {
      faultless := rfl
      arrived := pending.arrived
      handed := by simp [delivery, fresh, IMapIterator.notify, IMapIterator.append, empty]
      open_ := by simp [delivery, IMapIterator.notify, IMapIterator.append, index]
      rests := Delivery.rests_of_filled awake
        (by simp [delivery, IMapIterator.notify, IMapIterator.append])
      endless := pending.endless }

theorem deliver_of_step {next : ImapRun α} {label : DeliveryStep}
    (taken : call.step iter run (.deliver label) = some next) :
    label ≠ .setLength ∧ call.deliver run label = some next := by
  cases state : run.exit with
  | none => cases label <;> simp_all [ImapCall.step]
  | some exit => cases exit <;> cases label <;> simp_all [ImapCall.step]

theorem Early.step (unordered : call.unordered = true) (first : call.number = 0)
    (nothing : call.batches.length = 0) (run : ImapRun α) (label : ImapStep) (next : ImapRun α)
    (early : call.Early cache run) (taken : call.step iter run label = some next) :
    call.Early cache next := by
  cases label with
  | put =>
      cases fed : run.exit with
      | none => simp [ImapCall.step, fed, batch, nothing] at taken
      | some exit => cases exit <;> simp [ImapCall.step, fed] at taken
  | fail =>
      cases fed : run.exit with
      | none => exact early.fail unordered first nothing fed taken
      | some exit => cases exit <;> simp [ImapCall.step, fed] at taken
  | deliver label =>
      obtain ⟨notSetLength, moved⟩ := deliver_of_step taken
      exact early.deliver nothing notSetLength moved

theorem Early.upholds (nothing : call.batches.length = 0) (early : call.Early cache run) :
    call.Upholds cache run := by
  obtain ⟨it, found, _, state⟩ := early.iterator
  have known : call.iterator run.handler.jobs = some it := iterator_of_job found
  cases state with
  | inl before =>
      obtain ⟨exit, _, _, pending⟩ := before
      exact {
        goesOn := fun info raised => by simp [exit] at raised
        untouched := early.untouched
        endless := pending.endless
        delivered := fun settled => absurd (exit.symm.trans settled.exit) nofun }
  | inr before =>
      obtain ⟨exit, _, _, pending⟩ := before
      have none_ : run.arrived = [] := pending.arrived
      exact {
        goesOn := fun info raised => by simp [exit] at raised
        untouched := early.untouched
        endless := pending.endless
        delivered := fun _ => by
          refine ⟨it, call.info, known, ?_, ?_⟩
          · have handed : run.received ++ it.items = [.failure call.info] := pending.handed
            simpa [Delivery.sequence, nothing, none_, delivery] using handed
          · intro asleep
            have handed : run.received ++ it.items = [.failure call.info] := pending.handed
            have rests : Delivery.Rests it run.consumer := pending.rests
            have empty : it.items = [] := by
              cases consumer : run.consumer with
              | idle =>
                  rw [consumer] at rests
                  exact absurd rests asleep
              | waiting timed =>
                  rw [consumer] at rests
                  cases rests with
                  | inl notified => exact absurd notified.1 asleep
                  | inr waits => exact waits.2.1
            rw [empty, List.append_nil] at handed
            simp [handed, nothing] }

/-- A submission upholds what is expected of it exactly when it is an `imap_unordered`, the first
job of its process, and has no batch that is complete. -/
theorem upholds_iff (iter : α → List α) (call : ImapCall α β) (cache : Dict Nat (Job α)) :
    (∀ labels last, Transition.run (call.step iter) (call.init cache) labels = some last →
      call.Upholds cache last) ↔
    call.unordered = true ∧ call.number = 0 ∧ call.items.length < call.chunksize := by
  constructor
  · intro upholds
    apply Decidable.byContradiction
    intro unlike
    obtain ⟨labels, last, ran, fails⟩ := not_upholds iter call cache unlike
    exact fails (upholds labels last ran)
  · rintro ⟨unordered, first, short⟩ labels last ran
    have nothing : call.batches.length = 0 := by
      rw [length_batches, Nat.div_eq_of_lt short]
    have early : call.Early cache (call.init cache) := {
      count := rfl
      untouched := fun other different => by
        simp [init, TaskHandler.init, Dict.set_apply, different]
      iterator := ⟨.init call.number call.lostWorkerTimeout,
        by simp [init, TaskHandler.init, Dict.set_apply], rfl,
        .inl ⟨rfl, rfl, rfl, rfl, rfl, rfl, nofun, rfl, rfl⟩⟩ }
    exact (invariant_run (Early.step unordered first nothing) early ran).upholds nothing

/-- The iterable yields 7 and raises; the `imap` ends after the result of 7. -/
theorem imap_ends :
    ∃ (call : ImapCall Nat Nat) (cache : Dict Nat (Job Nat)) (labels : List ImapStep)
      (last : ImapRun Nat),
      Transition.run (call.step fun value => [value]) (call.init cache) labels = some last ∧
      last.received = [.success 7] ∧ last.stopped = true ∧ ¬call.Upholds cache last := by
  refine ⟨⟨false, 5, 10, 1, Nat.one_pos, [7], .raised "ValueError", fun _ => .success 7⟩,
    Dict.empty, [.put, .fail, .deliver (.arrive 0), .deliver (.next false),
      .deliver (.next false)], _, rfl, rfl, rfl, ?_⟩
  intro upholds
  cases upholds.endless

/-- After the exception, `next` waits for an item that does not come. -/
theorem Early.stuck (early : call.Early cache run)
    (failed : run.received ≠ []) (asleep : run.consumer = .waiting false) (label : ImapStep) :
    call.step iter run label = none := by
  obtain ⟨it, found, _, state⟩ := early.iterator
  have known : call.iterator run.handler.jobs = some it := iterator_of_job found
  cases state with
  | inl before =>
      have handed : run.received ++ it.items = [] := before.2.2.2.handed
      exact absurd (List.append_eq_nil_iff.mp handed).1 failed
  | inr before =>
      obtain ⟨exit, length, index, pending⟩ := before
      have handed : run.received ++ it.items = [.failure call.info] := pending.handed
      have rests : Delivery.Rests it run.consumer := pending.rests
      have waits : it.waiters = [0] := by
        rw [asleep] at rests
        cases rests with
        | inl notified =>
            have taken : it.items = [] := by
              cases received : run.received with
              | nil => exact absurd received failed
              | cons outcome rest =>
                  rw [received, List.cons_append, List.cons.injEq] at handed
                  exact (List.append_eq_nil_iff.mp handed.2).2
            cases notified.2 with
            | inl filled => exact absurd taken filled
            | inr complete => exact absurd complete pending.open_
        | inr waits => exact waits.1
      cases label with
      | put => simp [ImapCall.step, exit]
      | fail => simp [ImapCall.step, exit]
      | deliver label =>
          cases label <;> simp [ImapCall.step, exit, ImapCall.deliver, known, Delivery.step,
            delivery, asleep, waits, early.count]

end ImapCall

end Billiard
