import Billiard.Data.Tally
import Billiard.Data.Transition
import Billiard.Pool.Shutdown
import Mathlib.Data.List.Nodup

/-! `Pool.terminate` and `Pool.join` while the threads of the pool are at work.  The supervisor and
the result handler both take workers that have exited out of `_pool`, which the caller goes through
at the same time. -/

namespace Billiard

open Transition Tally

inductive WorkerLife where
  | unstarted
  | alive
  | exited
deriving DecidableEq, Repr

/-- `recorded` tells whether the pid of the worker is in `_poolctrl`. -/
structure EndingWorker where
  life : WorkerLife
  recorded : Bool
  signalled : Bool
deriving DecidableEq, Repr

/-- Where a thread stands in the second loop of `_join_exited_workers`: it has yet to look at
`left` indices, or it is to remove the worker that it has found at one of them. -/
inductive Reaping where
  | looking (left : Nat)
  | removing (i worker : Nat)
deriving DecidableEq, Repr

/-- Where `Supervisor.body` stands; `left` are the rounds of `_repopulate_pool` that remain. -/
inductive SupervisorStage where
  | resting
  | reaping (point : Reaping)
  | repopulating (left : Nat)
  | starting (worker left : Nat)
  | recording (worker left : Nat)
  | finished
deriving DecidableEq, Repr

/-- Where `ResultHandler.body` stands; it is `finishing` between two rounds of the loop of
`finish_at_shutdown`. -/
inductive CollectorStage where
  | collecting
  | finishing
  | reaping (point : Reaping)
  | finished
deriving DecidableEq, Repr

/-- Where the caller stands; `k` is how far a `for p in pool` has got. -/
inductive EndingPoint where
  | outside
  | closing
  | stoppingSupervisor (terminating : Bool)
  | signalling (k : Nat)
  | terminating (k worker : Nat)
  | stoppingTaskHandler
  | stoppingResultHandler
  | joining (k : Nat)
  | ended
deriving DecidableEq, Repr

/-- Workers go by their place among all that were ever created; `pool` is the list `_pool`.
`told` and `reaped` are histories: whether the loop that terminates the workers has come to its
end, and how many workers have been removed while it ran. -/
structure EndingPool where
  running : Bool
  workers : List EndingWorker
  pool : List Nat
  supervisor : SupervisorStage
  taskHandler : Feeding
  collector : CollectorStage
  caller : EndingPoint
  crashed : Bool
  told : Bool
  reaped : Nat
deriving DecidableEq

/-- `leave` tells that the loop of `finish_at_shutdown` ends, as the cache or the outqueue or the
clock would have it. -/
inductive EndingAction where
  | supervise
  | feed
  | collect (leave : Bool)
  | exit (worker : Nat)
  | close
  | join
  | terminate
  | proceed
deriving DecidableEq, Repr

namespace EndingPool

/-- The pool as `Pool.__init__` leaves it. -/
def init (processes : Nat) : EndingPool where
  running := true
  workers := List.replicate processes ⟨.alive, true, false⟩
  pool := List.range processes
  supervisor := .resting
  taskHandler := .feeding
  collector := .collecting
  caller := .outside
  crashed := false
  told := false
  reaped := 0

def life (pool : EndingPool) (worker : Nat) : Option WorkerLife :=
  pool.workers[worker]?.map EndingWorker.life

def update (pool : EndingPool) (worker : Nat) (change : EndingWorker → EndingWorker) : EndingPool :=
  { pool with workers := pool.workers.modify worker change }

/-- An exception ends a `PoolThread`, and with it the process. -/
def crash (pool : EndingPool) : EndingPool := { pool with crashed := true }

/-- Whether the caller is in the loop that terminates the workers. -/
def inLoop (pool : EndingPool) : Bool :=
  match pool.caller with
  | .signalling _ | .terminating .. => true
  | _ => false

/-- What `_join_exited_workers` takes out of `_pool` and `_poolctrl` -/
def remove (pool : EndingPool) (i worker : Nat) : EndingPool :=
  { pool.update worker fun old => { old with recorded := false } with
    pool := pool.pool.eraseIdx i
    reaped := pool.reaped + if pool.inLoop then 1 else 0 }

/-- A step of `_join_exited_workers`; `goOn` tells the thread where it stands then.  An index that
is not there is an `IndexError`, and a pid that is not in `_poolctrl` a `KeyError`. -/
def reap (pool : EndingPool) (goOn : EndingPool → Option Reaping → EndingPool) :
    Reaping → EndingPool
  | .looking 0 => goOn pool none
  | .looking (i + 1) =>
      match pool.pool[i]? with
      | none => pool.crash
      | some worker =>
          if pool.life worker = some .alive then goOn pool (some (.looking i))
          else goOn pool (some (.removing i worker))
  | .removing i worker =>
      if i < pool.pool.length then
        if pool.workers[worker]?.any EndingWorker.recorded then
          goOn (pool.remove i worker) (some (.looking i))
        else (pool.remove i worker).crash
      else pool.crash

def superviseOn (processes : Nat) (pool : EndingPool) : Option Reaping → EndingPool
  | some point => { pool with supervisor := .reaping point }
  | none => { pool with supervisor := .repopulating (processes - pool.pool.length) }

def collectOn (pool : EndingPool) : Option Reaping → EndingPool
  | some point => { pool with collector := .reaping point }
  | none => { pool with collector := .finishing }

def supervise (processes : Nat) (pool : EndingPool) : SupervisorStage → Option EndingPool
  | .resting =>
      if pool.running then
        some { pool with supervisor := .reaping (.looking pool.pool.length) }
      else some { pool with supervisor := .finished }
  | .reaping point => some (pool.reap (superviseOn processes) point)
  | .repopulating 0 => some { pool with supervisor := .resting }
  | .repopulating (left + 1) =>
      if pool.running then
        some { pool with
          workers := pool.workers ++ [⟨.unstarted, false, false⟩]
          pool := pool.pool ++ [pool.workers.length]
          supervisor := .starting pool.workers.length left }
      else some { pool with supervisor := .resting }
  | .starting worker left =>
      some { pool.update worker fun old => { old with life := .alive } with
        supervisor := .recording worker left }
  | .recording worker left =>
      some { pool.update worker fun old => { old with recorded := true } with
        supervisor := .repopulating left }
  | .finished => none

def collect (leave : Bool) (pool : EndingPool) : CollectorStage → Option EndingPool
  | .collecting => some { pool with collector := .finishing }
  | .finishing =>
      if leave then some { pool with collector := .finished }
      -- `WorkersJoined`
      else if pool.pool = [] then some pool
      else some { pool with collector := .reaping (.looking pool.pool.length) }
  | .reaping point => some (pool.reap collectOn point)
  | .finished => none

def feed (pool : EndingPool) : Feeding → Option EndingPool
  | .feeding => some { pool with taskHandler := .telling 0 }
  | .telling i =>
      if i < pool.pool.length then some { pool with taskHandler := .telling (i + 1) }
      else some { pool with taskHandler := .finished }
  | .finished => none

/-- The caller joins each thread before it goes on, and then each worker that is alive. -/
def proceed (pool : EndingPool) : EndingPoint → Option EndingPool
  | .outside | .ended => none
  | .closing =>
      if pool.supervisor = .finished then some { pool with caller := .outside } else none
  | .stoppingSupervisor terminating =>
      if pool.supervisor = .finished then
        some { pool with
          caller := if terminating then .signalling 0 else .stoppingTaskHandler }
      else none
  | .signalling k =>
      match pool.pool[k]? with
      | none => some { pool with caller := .stoppingTaskHandler, told := true }
      | some worker => some { pool with caller := .terminating (k + 1) worker }
  | .terminating k worker =>
      if pool.life worker = some .alive then
        some { pool.update worker fun old => { old with signalled := true } with
          caller := .signalling k }
      else some { pool with caller := .signalling k }
  | .stoppingTaskHandler =>
      if pool.taskHandler = .finished then some { pool with caller := .stoppingResultHandler }
      else none
  | .stoppingResultHandler =>
      if pool.collector = .finished then some { pool with caller := .joining 0 } else none
  | .joining k =>
      match pool.pool[k]? with
      | none => some { pool with caller := .ended }
      | some worker =>
          if pool.life worker = some .alive then none
          else some { pool with caller := .joining (k + 1) }

/-- `running` stands for `_state` of the pool, which is set before that of the supervisor. -/
def step (processes : Nat) (pool : EndingPool) (action : EndingAction) : Option EndingPool :=
  if pool.crashed then none
  else
    match action with
    | .supervise => pool.supervise processes pool.supervisor
    | .feed => pool.feed pool.taskHandler
    | .collect leave => pool.collect leave pool.collector
    | .exit worker =>
        if pool.life worker = some .alive then
          some (pool.update worker fun old => { old with life := .exited })
        else none
    | .close =>
        if pool.caller = .outside ∧ pool.running then
          some { pool with running := false, caller := .closing }
        else none
    | .join =>
        if pool.caller = .outside ∧ pool.running = false then
          some { pool with caller := .stoppingSupervisor false }
        else none
    | .terminate =>
        if pool.caller = .outside then
          some { pool with running := false, caller := .stoppingSupervisor true }
        else none
    | .proceed => pool.proceed pool.caller

end EndingPool

/-- The worker that the supervisor is creating, and whether it has been started. -/
def SupervisorStage.creation : SupervisorStage → Option (Nat × Bool)
  | .starting worker _ => some (worker, false)
  | .recording worker _ => some (worker, true)
  | .resting | .reaping _ | .repopulating _ | .finished => none

/-- The supervisor is in `_maintain_pool`. -/
def SupervisorStage.maintains : SupervisorStage → Bool
  | .resting | .finished => false
  | .reaping _ | .repopulating _ | .starting .. | .recording .. => true

def CollectorStage.reaps : CollectorStage → Bool
  | .reaping _ => true
  | .collecting | .finishing | .finished => false

/-- The caller has joined the supervisor. -/
def EndingPoint.past : EndingPoint → Bool
  | .outside | .closing | .stoppingSupervisor _ => false
  | _ => true

/-- The caller has joined the result handler. -/
def EndingPoint.gathered : EndingPoint → Bool
  | .joining _ | .ended => true
  | _ => false

/-- How many of the first workers in `_pool` the caller has joined. -/
def EndingPoint.joined (length : Nat) : EndingPoint → Nat
  | .joining k => k
  | .ended => length
  | _ => 0

/-- The workers and `_pool` while the supervisor creates a worker, if it does. -/
structure Roll (workers : List EndingWorker) (pool : List Nat) (creation : Option (Nat × Bool)) :
    Prop where
  living : ∀ id worker, workers[id]? = some worker → worker.life ≠ .exited → id ∈ pool
  recorded : ∀ id worker, workers[id]? = some worker → id ∈ pool → worker.recorded = false →
    ∃ started, creation = some (id, started)
  started : ∀ id worker, workers[id]? = some worker → worker.life = .unstarted →
    creation = some (id, false)
  listed : ∀ id started, creation = some (id, started) → id ∈ pool
  inside : ∀ id ∈ pool, id < workers.length
  distinct : pool.Nodup

namespace Roll

variable {workers : List EndingWorker} {pool : List Nat} {creation : Option (Nat × Bool)}
  {id : Nat} {worker : EndingWorker} {change : EndingWorker → EndingWorker}

theorem modify_cases {j : Nat} {new : EndingWorker}
    (here : (workers.modify id change)[j]? = some new) :
    (j = id ∧ ∃ old, workers[j]? = some old ∧ new = change old) ∨
      (j ≠ id ∧ workers[j]? = some new) := by
  rw [List.getElem?_modify] at here
  obtain ⟨old, found, same⟩ := Option.map_eq_some_iff.mp here
  by_cases it : id = j
  · rw [if_pos it] at same
    exact .inl ⟨it.symm, old, found, same.symm⟩
  · rw [if_neg it] at same
    exact .inr ⟨Ne.symm it, by rw [found, ← same]⟩

/-- A change that brings no worker to life and takes none off the record. -/
theorem modify (roll : Roll workers pool creation) (id : Nat)
    (living : ∀ old, workers[id]? = some old → (change old).life ≠ .exited → old.life ≠ .exited)
    (recorded : ∀ old, (change old).recorded = old.recorded)
    (started : ∀ old, workers[id]? = some old → (change old).life = .unstarted →
      old.life = .unstarted) :
    Roll (workers.modify id change) pool creation := by
  refine ⟨?_, ?_, ?_, roll.listed, ?_, roll.distinct⟩
  · intro j new here lives
    obtain ⟨rfl, old, found, rfl⟩ | ⟨_, found⟩ := modify_cases here
    · exact roll.living _ old found (living old found lives)
    · exact roll.living j new found lives
  · intro j new here member unrecorded
    obtain ⟨rfl, old, found, rfl⟩ | ⟨_, found⟩ := modify_cases here
    · exact roll.recorded _ old found member ((recorded old).symm.trans unrecorded)
    · exact roll.recorded j new found member unrecorded
  · intro j new here unstarted
    obtain ⟨rfl, old, found, rfl⟩ | ⟨_, found⟩ := modify_cases here
    · exact roll.started _ old found (started old found unstarted)
    · exact roll.started j new found unstarted
  · intro j member
    rw [List.length_modify]
    exact roll.inside j member

theorem remove (roll : Roll workers pool none) {i : Nat} (here : pool[i]? = some id)
    (found : workers[id]? = some worker) (exited : worker.life = .exited) :
    Roll (workers.modify id fun old => { old with recorded := false }) (pool.eraseIdx i) none := by
  have gone : pool.eraseIdx i = pool.erase id := by
    obtain ⟨within, rfl⟩ := List.getElem?_eq_some_iff.mp here
    exact (roll.distinct.erase_getElem i within).symm
  rw [gone]
  have stays : ∀ j, j ≠ id → (j ∈ pool.erase id ↔ j ∈ pool) := fun j other =>
    List.mem_erase_of_ne other
  refine ⟨?_, ?_, ?_, nofun, ?_, roll.distinct.erase id⟩
  · intro j new here lives
    obtain ⟨rfl, old, place, rfl⟩ | ⟨other, place⟩ := modify_cases here
    · rw [found] at place
      cases place
      exact absurd exited lives
    · exact (stays j other).mpr (roll.living j new place lives)
  · intro j new here member unrecorded
    obtain ⟨rfl, old, place, rfl⟩ | ⟨other, place⟩ := modify_cases here
    · exact absurd member (roll.distinct.not_mem_erase)
    · exact roll.recorded j new place ((stays j other).mp member) unrecorded
  · intro j new here unstarted
    obtain ⟨rfl, old, place, rfl⟩ | ⟨_, place⟩ := modify_cases here
    · exact roll.started _ old place unstarted
    · exact roll.started j new place unstarted
  · intro j member
    rw [List.length_modify]
    exact roll.inside j (List.mem_of_mem_erase member)

theorem create (roll : Roll workers pool none) :
    Roll (workers ++ [⟨.unstarted, false, false⟩]) (pool ++ [workers.length])
      (some (workers.length, false)) := by
  have cases_ : ∀ {j : Nat} {new : EndingWorker},
      (workers ++ [⟨.unstarted, false, false⟩])[j]? = some new →
        workers[j]? = some new ∨ j = workers.length := by
    intro j new here
    by_cases inside : j < workers.length
    · rw [List.getElem?_append_left inside] at here
      exact .inl here
    · have beyond := (List.getElem?_eq_some_iff.mp here).1
      rw [List.length_append, List.length_singleton] at beyond
      exact .inr (by omega)
  refine ⟨?_, ?_, ?_, ?_, ?_, ?_⟩
  · intro j new here lives
    cases cases_ here with
    | inl place => exact List.mem_append_left _ (roll.living j new place lives)
    | inr same => exact List.mem_append_right _ (same ▸ List.mem_singleton_self _)
  · intro j new here member unrecorded
    cases cases_ here with
    | inr same => exact ⟨false, by rw [same]⟩
    | inl place =>
        cases List.mem_append.mp member with
        | inl old =>
            obtain ⟨_, impossible⟩ := roll.recorded j new place old unrecorded
            cases impossible
        | inr same => exact ⟨false, by rw [List.mem_singleton.mp same]⟩
  · intro j new here unstarted
    cases cases_ here with
    | inl place => exact absurd (roll.started j new place unstarted) nofun
    | inr same => rw [same]
  · rintro j started ⟨⟩
    exact List.mem_append_right _ (List.mem_singleton_self _)
  · intro j member
    rw [List.length_append, List.length_singleton]
    cases List.mem_append.mp member with
    | inl old => exact Nat.lt_succ_of_lt (roll.inside j old)
    | inr same =>
        rw [List.mem_singleton.mp same]
        exact Nat.lt_succ_self _
  · refine List.nodup_append.mpr ⟨roll.distinct, List.nodup_singleton _, ?_⟩
    intro j old other new same
    rw [same, List.mem_singleton.mp new] at old
    exact Nat.lt_irrefl _ (roll.inside _ old)

theorem start (roll : Roll workers pool (some (id, false))) :
    Roll (workers.modify id fun old => { old with life := .alive }) pool (some (id, true)) := by
  have listed := roll.listed id false rfl
  refine ⟨?_, ?_, ?_, ?_, ?_, roll.distinct⟩
  · intro j new here lives
    obtain ⟨rfl, _⟩ | ⟨_, place⟩ := modify_cases here
    · exact listed
    · exact roll.living j new place lives
  · intro j new here member unrecorded
    obtain ⟨rfl, _⟩ | ⟨other, place⟩ := modify_cases here
    · exact ⟨true, rfl⟩
    · obtain ⟨_, same⟩ := roll.recorded j new place member unrecorded
      cases same
      exact absurd rfl other
  · intro j new here unstarted
    obtain ⟨rfl, old, _, rfl⟩ | ⟨other, place⟩ := modify_cases here
    · cases unstarted
    · cases roll.started j new place unstarted
      exact absurd rfl other
  · rintro j started ⟨⟩
    exact listed
  · intro j member
    rw [List.length_modify]
    exact roll.inside j member

theorem record (roll : Roll workers pool (some (id, true))) :
    Roll (workers.modify id fun old => { old with recorded := true }) pool none := by
  refine ⟨?_, ?_, ?_, nofun, ?_, roll.distinct⟩
  · intro j new here lives
    obtain ⟨rfl, old, place, rfl⟩ | ⟨_, place⟩ := modify_cases here
    · exact roll.living _ old place lives
    · exact roll.living j new place lives
  · intro j new here member unrecorded
    obtain ⟨rfl, old, place, rfl⟩ | ⟨other, place⟩ := modify_cases here
    · cases unrecorded
    · obtain ⟨_, same⟩ := roll.recorded j new place member unrecorded
      cases same
      exact absurd rfl other
  · intro j new here unstarted
    obtain ⟨rfl, old, place, rfl⟩ | ⟨_, place⟩ := modify_cases here
    · cases roll.started _ old place unstarted
    · cases roll.started j new place unstarted
  · intro j member
    rw [List.length_modify]
    exact roll.inside j member

end Roll

theorem EndingPoint.joined_eq_zero {caller : EndingPoint} (length : Nat)
    (elsewhere : caller.gathered = false) : caller.joined length = 0 := by
  cases caller with
  | joining k => cases elsewhere
  | ended => cases elsewhere
  | _ => rfl

theorem EndingPoint.gathered_of_not_past {caller : EndingPoint} (before : caller.past = false) :
    caller.gathered = false := by
  cases caller with
  | outside => rfl
  | closing => rfl
  | stoppingSupervisor terminating => rfl
  | _ => cases before

variable {processes : Nat} {pool next last : EndingPool} {action : EndingAction}
  {point : Reaping} {i worker : Nat} {labels : List EndingAction}

namespace EndingPool

/-- A pass that nothing disturbs finds at its index what it has found there. -/
def Placed (pool : EndingPool) : Reaping → Prop
  | .looking left => left ≤ pool.pool.length
  | .removing i worker => pool.pool[i]? = some worker ∧ pool.life worker = some .exited

/-- No two threads are at work on `_pool`: the result handler begins with a pass only while the
supervisor is not in `_maintain_pool`, and the supervisor only while the result handler is not in
a pass. -/
def Apart (pool : EndingPool) : EndingAction → Prop
  | .supervise => pool.supervisor = .resting → pool.collector.reaps = false
  | .collect false => pool.collector = .finishing → pool.supervisor.maintains = false
  | _ => True

instance (pool : EndingPool) (action : EndingAction) : Decidable (pool.Apart action) := by
  unfold Apart
  split <;> infer_instance

structure Sound (pool : EndingPool) : Prop where
  calm : pool.crashed = false
  apart : pool.collector.reaps = true → pool.supervisor.maintains = false
  roll : Roll pool.workers pool.pool pool.supervisor.creation
  placed : ∀ point, pool.supervisor = .reaping point ∨ pool.collector = .reaping point →
    pool.Placed point
  past : pool.caller.past = true → pool.supervisor = .finished
  gathered : pool.caller.gathered = true → pool.collector = .finished
  joined : ∀ i id, i < pool.caller.joined pool.pool.length → pool.pool[i]? = some id →
    pool.life id ≠ some .alive

theorem creation_eq_none {supervisor : SupervisorStage} (idle : supervisor.maintains = false) :
    supervisor.creation = none := by
  cases supervisor with
  | starting worker left => cases idle
  | recording worker left => cases idle
  | _ => rfl

theorem life_eq_some {life : WorkerLife} (known : pool.life worker = some life) :
    ∃ found, pool.workers[worker]? = some found ∧ found.life = life :=
  Option.map_eq_some_iff.mp known

theorem life_update_cases {change : EndingWorker → EndingWorker} {life : WorkerLife} {j : Nat}
    (known : (pool.update worker change).life j = some life) :
    (j = worker ∧ ∃ old, pool.workers[j]? = some old ∧ life = (change old).life) ∨
      pool.life j = some life := by
  obtain ⟨new, here, rfl⟩ := life_eq_some known
  obtain ⟨rfl, old, found, rfl⟩ | ⟨_, found⟩ := Roll.modify_cases here
  · exact .inl ⟨rfl, old, found, rfl⟩
  · exact .inr (by rw [life, found]; rfl)

theorem reap_cases (goOn : EndingPool → Option Reaping → EndingPool) (placed : pool.Placed point)
    (roll : Roll pool.workers pool.pool none) :
    pool.reap goOn point = goOn pool none ∨
      (∃ next, pool.Placed next ∧ pool.reap goOn point = goOn pool (some next)) ∨
      ∃ i worker, point = .removing i worker ∧
        pool.reap goOn point = goOn (pool.remove i worker) (some (.looking i)) := by
  cases point with
  | looking left =>
      cases left with
      | zero => exact .inl rfl
      | succ i =>
          have within : i < pool.pool.length := placed
          have here := List.getElem?_eq_getElem within
          have member := List.getElem_mem within
          simp only [reap, here]
          split
          · exact .inr (.inl ⟨.looking i, Nat.le_of_succ_le placed, rfl⟩)
          · rename_i dead
            refine .inr (.inl ⟨.removing i pool.pool[i], ⟨here, ?_⟩, rfl⟩)
            have found := List.getElem?_eq_getElem (roll.inside _ member)
            cases known : pool.life pool.pool[i] with
            | none => simp [life, found] at known
            | some lives =>
                obtain ⟨found, place, rfl⟩ := life_eq_some known
                cases lives : found.life with
                | unstarted => cases roll.started _ found place lives
                | alive => exact absurd (known.trans (congrArg some lives)) dead
                | exited => rfl
  | removing i worker =>
      obtain ⟨here, exited⟩ := placed
      obtain ⟨found, place, gone⟩ := life_eq_some exited
      have within := (List.getElem?_eq_some_iff.mp here).1
      have recorded : found.recorded = true := by
        cases known : found.recorded with
        | true => rfl
        | false =>
            obtain ⟨_, impossible⟩ :=
              roll.recorded worker found place (List.mem_of_getElem? here) known
            cases impossible
      refine .inr (.inr ⟨i, worker, rfl, ?_⟩)
      simp [reap, within, place, recorded]

/-- A change of a worker that at most ends its life. -/
theorem Sound.update (sound : pool.Sound) {change : EndingWorker → EndingWorker}
    (recorded : ∀ old, (change old).recorded = old.recorded)
    (life : ∀ old, pool.workers[worker]? = some old → (change old).life = old.life ∨
      old.life = .alive ∧ (change old).life = .exited) : (pool.update worker change).Sound := by
  refine ⟨sound.calm, sound.apart, ?_, ?_, sound.past, sound.gathered, ?_⟩
  · refine sound.roll.modify worker ?_ recorded ?_
    · intro old found lives gone
      obtain same | ⟨alive, _⟩ := life old found
      · exact lives (same.trans gone)
      · exact absurd (alive.symm.trans gone) nofun
    · intro old found unstarted
      obtain same | ⟨_, gone⟩ := life old found
      · exact same.symm.trans unstarted
      · exact absurd (gone.symm.trans unstarted) nofun
  · intro point standing
    have before := sound.placed point standing
    cases point with
    | looking left => exact before
    | removing i id =>
        refine ⟨before.1, ?_⟩
        obtain ⟨found, place, exited⟩ := life_eq_some before.2
        by_cases it : worker = id
        · subst it
          obtain same | ⟨alive, _⟩ := life found place
          · simp [EndingPool.life, EndingPool.update, place, same, exited]
          · exact absurd (alive.symm.trans exited) nofun
        · simp [EndingPool.life, EndingPool.update, it, place, exited]
  · intro i id low here alive
    obtain ⟨rfl, old, found, lives⟩ | before := life_update_cases alive
    · obtain same | ⟨_, gone⟩ := life old found
      · exact sound.joined i _ low here (by rw [EndingPool.life, found, lives, same]; rfl)
      · exact absurd (lives.trans gone) nofun
    · exact sound.joined i id low here before

/-- What a pass takes out of `_pool` has come to its end. -/
theorem Sound.remove (sound : pool.Sound) (idle : pool.supervisor.creation = none)
    (here : pool.Placed (.removing i worker)) :
    Roll (pool.remove i worker).workers (pool.remove i worker).pool none ∧
      (pool.remove i worker).Placed (.looking i) := by
  obtain ⟨here, exited⟩ := here
  obtain ⟨found, place, gone⟩ := life_eq_some exited
  have within := (List.getElem?_eq_some_iff.mp here).1
  refine ⟨(idle ▸ sound.roll).remove here place gone, ?_⟩
  show i ≤ (pool.pool.eraseIdx i).length
  rw [List.length_eraseIdx_of_lt within]
  omega

/-- The supervisor moves only while the result handler is not in a pass, and before the caller has
joined it. -/
theorem Sound.supervised (sound : pool.Sound) (busy : pool.supervisor ≠ .finished)
    (quiet : pool.collector.reaps = false) (calm : next.crashed = false)
    (collector : next.collector = pool.collector) (caller : next.caller = pool.caller)
    (roll : Roll next.workers next.pool next.supervisor.creation)
    (placed : ∀ point, next.supervisor = .reaping point → next.Placed point) : next.Sound := by
  have before : pool.caller.past = false :=
    Bool.eq_false_iff.mpr fun past => busy (sound.past past)
  refine ⟨calm, ?_, roll, ?_, ?_, ?_, ?_⟩
  · rw [collector, quiet]
    nofun
  · rintro point (reaping | reaping)
    · exact placed point reaping
    · rw [collector] at reaping
      rw [reaping] at quiet
      cases quiet
  · rw [caller, before]
    nofun
  · rw [caller, collector]
    exact sound.gathered
  · intro i id low
    rw [caller, EndingPoint.joined_eq_zero _ (EndingPoint.gathered_of_not_past before)] at low
    cases low

theorem Sound.supervise (sound : pool.Sound) (apart : pool.Apart .supervise)
    (taken : pool.supervise processes pool.supervisor = some next) : next.Sound := by
  have quiet : pool.supervisor.maintains = true → pool.collector.reaps = false := fun maintains =>
    Bool.eq_false_iff.mpr fun reaps => absurd ((sound.apart reaps).symm.trans maintains) nofun
  have roll := sound.roll
  cases standing : pool.supervisor with
  | resting =>
      simp only [standing, EndingPool.supervise] at taken
      rw [standing] at roll
      have supervised := fun next => @Sound.supervised pool next sound (by rw [standing]; nofun)
        (apart standing)
      split at taken
      · cases taken
        exact supervised _ sound.calm rfl rfl roll (by rintro point ⟨⟩; exact Nat.le_refl _)
      · cases taken
        exact supervised _ sound.calm rfl rfl roll nofun
  | reaping point =>
      rw [standing] at taken quiet roll
      have supervised := fun next => @Sound.supervised pool next sound (by rw [standing]; nofun)
        (quiet rfl)
      have here := sound.placed point (.inl standing)
      cases taken
      obtain same | ⟨point, placed, same⟩ | ⟨i, worker, rfl, same⟩ :=
        reap_cases (superviseOn processes) here roll <;> rw [same]
      · exact supervised _ sound.calm rfl rfl roll nofun
      · exact supervised _ sound.calm rfl rfl roll (by rintro _ ⟨⟩; exact placed)
      · obtain ⟨after, placed⟩ := sound.remove (by rw [standing]; rfl) here
        exact supervised _ sound.calm rfl rfl after (by rintro _ ⟨⟩; exact placed)
  | repopulating left =>
      rw [standing] at taken quiet roll
      have supervised := fun next => @Sound.supervised pool next sound (by rw [standing]; nofun)
        (quiet rfl)
      cases left with
      | zero =>
          cases taken
          exact supervised _ sound.calm rfl rfl roll nofun
      | succ left =>
          simp only [EndingPool.supervise] at taken
          split at taken
          · cases taken
            exact supervised _ sound.calm rfl rfl roll.create nofun
          · cases taken
            exact supervised _ sound.calm rfl rfl roll nofun
  | starting worker left =>
      rw [standing] at taken quiet roll
      cases taken
      exact sound.supervised (by rw [standing]; nofun) (quiet rfl) sound.calm rfl rfl roll.start
        nofun
  | recording worker left =>
      rw [standing] at taken quiet roll
      cases taken
      exact sound.supervised (by rw [standing]; nofun) (quiet rfl) sound.calm rfl rfl roll.record
        nofun
  | finished =>
      rw [standing] at taken
      cases taken

theorem Sound.collected (sound : pool.Sound) (busy : pool.collector ≠ .finished)
    (calm : next.crashed = false) (supervisor : next.supervisor = pool.supervisor)
    (caller : next.caller = pool.caller)
    (apart : next.collector.reaps = true → pool.supervisor.maintains = false)
    (roll : Roll next.workers next.pool pool.supervisor.creation)
    (aside : pool.supervisor.maintains = true → ∀ point, pool.Placed point → next.Placed point)
    (placed : ∀ point, next.collector = .reaping point → next.Placed point) : next.Sound := by
  have before : pool.caller.gathered = false :=
    Bool.eq_false_iff.mpr fun gathered => busy (sound.gathered gathered)
  refine ⟨calm, ?_, ?_, ?_, ?_, ?_, ?_⟩
  · rw [supervisor]
    exact apart
  · rw [supervisor]
    exact roll
  · rintro point (reaping | reaping)
    · rw [supervisor] at reaping
      exact aside (by rw [reaping]; rfl) point (sound.placed point (.inl reaping))
    · exact placed point reaping
  · rw [caller, supervisor]
    exact sound.past
  · rw [caller, before]
    nofun
  · intro i id low
    rw [caller, EndingPoint.joined_eq_zero _ before] at low
    cases low

theorem Sound.collect (sound : pool.Sound) {leave : Bool} (apart : pool.Apart (.collect leave))
    (taken : pool.collect leave pool.collector = some next) : next.Sound := by
  have roll := sound.roll
  cases standing : pool.collector with
  | collecting =>
      rw [standing] at taken
      cases taken
      exact sound.collected (by rw [standing]; nofun) sound.calm rfl rfl nofun roll
        (fun _ _ placed => placed) nofun
  | finishing =>
      rw [standing] at taken
      have collected := fun next => @Sound.collected pool next sound (by rw [standing]; nofun)
      simp only [EndingPool.collect] at taken
      split at taken
      · cases taken
        exact collected _ sound.calm rfl rfl nofun roll (fun _ _ placed => placed) nofun
      · rename_i stays
        rw [Bool.not_eq_true] at stays
        subst stays
        split at taken
        · cases taken
          exact sound
        · cases taken
          exact collected _ sound.calm rfl rfl (fun _ => apart standing) roll
            (fun _ _ placed => placed) (by rintro point ⟨⟩; exact Nat.le_refl _)
  | reaping point =>
      rw [standing] at taken
      have collected := fun next => @Sound.collected pool next sound (by rw [standing]; nofun)
      have idle := sound.apart (by rw [standing]; rfl)
      have here := sound.placed point (.inr standing)
      have nothing := creation_eq_none idle
      cases taken
      obtain same | ⟨point, placed, same⟩ | ⟨i, worker, rfl, same⟩ :=
        reap_cases collectOn here (nothing ▸ roll) <;> rw [same]
      · exact collected _ sound.calm rfl rfl nofun roll (fun _ _ placed => placed) nofun
      · exact collected _ sound.calm rfl rfl (fun _ => idle) roll (fun _ _ placed => placed)
          (by rintro _ ⟨⟩; exact placed)
      · obtain ⟨after, placed⟩ := sound.remove nothing here
        exact collected _ sound.calm rfl rfl (fun _ => idle) (nothing.symm ▸ after)
          (fun maintains => absurd (idle.symm.trans maintains) nofun)
          (by rintro _ ⟨⟩; exact placed)
  | finished =>
      rw [standing] at taken
      cases taken

/-- The caller goes on with the same workers. -/
theorem Sound.called (sound : pool.Sound) (caller : EndingPoint) (told : Bool)
    (past : caller.past = true → pool.supervisor = .finished)
    (gathered : caller.gathered = true → pool.collector = .finished)
    (joined : ∀ i id, i < caller.joined pool.pool.length → pool.pool[i]? = some id →
      pool.life id ≠ some .alive) : { pool with caller, told }.Sound :=
  ⟨sound.calm, sound.apart, sound.roll, sound.placed, past, gathered, joined⟩

theorem Sound.stopped (sound : pool.Sound) : { pool with running := false }.Sound :=
  ⟨sound.calm, sound.apart, sound.roll, sound.placed, sound.past, sound.gathered, sound.joined⟩

theorem Sound.proceed (sound : pool.Sound) (taken : pool.proceed pool.caller = some next) :
    next.Sound := by
  have past := sound.past
  have gathered := sound.gathered
  have joined := sound.joined
  cases standing : pool.caller with
  | outside =>
      rw [standing] at taken
      cases taken
  | closing =>
      simp only [standing, EndingPool.proceed] at taken
      split at taken
      · cases taken
        exact sound.called _ _ nofun nofun nofun
      · cases taken
  | stoppingSupervisor terminating =>
      simp only [standing, EndingPool.proceed] at taken
      split at taken
      · rename_i finished
        cases taken
        refine sound.called _ _ (fun _ => finished) ?_ ?_ <;> cases terminating <;> nofun
      · cases taken
  | signalling k =>
      rw [standing] at past
      simp only [standing, EndingPool.proceed] at taken
      split at taken
      · cases taken
        exact sound.called _ _ past nofun nofun
      · cases taken
        exact sound.called _ _ past nofun nofun
  | terminating k worker =>
      rw [standing] at past
      simp only [standing, EndingPool.proceed] at taken
      split at taken
      · cases taken
        have signalled := @Sound.update pool worker sound
          (fun old => { old with signalled := true })
          (fun _ => rfl) fun _ _ => .inl rfl
        exact signalled.called _ _ past nofun nofun
      · cases taken
        exact sound.called _ _ past nofun nofun
  | stoppingTaskHandler =>
      rw [standing] at past
      simp only [standing, EndingPool.proceed] at taken
      split at taken
      · cases taken
        exact sound.called _ _ past nofun nofun
      · cases taken
  | stoppingResultHandler =>
      rw [standing] at past
      simp only [standing, EndingPool.proceed] at taken
      split at taken
      · rename_i finished
        cases taken
        exact sound.called _ _ past (fun _ => finished) nofun
      · cases taken
  | joining k =>
      rw [standing] at past gathered joined
      simp only [standing, EndingPool.proceed] at taken
      split at taken
      · rename_i beyond
        cases taken
        refine sound.called _ _ past gathered fun i id low here => ?_
        exact joined i id (Nat.lt_of_lt_of_le low (List.getElem?_eq_none_iff.mp beyond)) here
      · rename_i worker here
        split at taken
        · cases taken
        · rename_i dead
          cases taken
          refine sound.called _ _ past gathered fun i id low found => ?_
          obtain before | rfl := Nat.lt_succ_iff_lt_or_eq.mp low
          · exact joined i id before found
          · rw [here] at found
            cases found
            exact dead
  | ended =>
      rw [standing] at taken
      cases taken

theorem Sound.step (sound : pool.Sound) (apart : pool.Apart action)
    (taken : EndingPool.step processes pool action = some next) : next.Sound := by
  unfold EndingPool.step at taken
  rw [if_neg (by rw [sound.calm]; nofun)] at taken
  cases action with
  | supervise => exact sound.supervise apart taken
  | collect leave => exact sound.collect apart taken
  | proceed => exact sound.proceed taken
  | feed =>
      have kept : ∀ taskHandler, { pool with taskHandler }.Sound := fun _ =>
        ⟨sound.calm, sound.apart, sound.roll, sound.placed, sound.past, sound.gathered,
          sound.joined⟩
      cases standing : pool.taskHandler with
      | feeding =>
          simp only [standing, feed] at taken
          cases taken
          exact kept _
      | telling i =>
          simp only [standing, feed] at taken
          split at taken <;> cases taken <;> exact kept _
      | finished =>
          simp only [standing, feed] at taken
          cases taken
  | exit worker =>
      simp only at taken
      split at taken
      · rename_i alive
        cases taken
        refine sound.update (fun _ => rfl) fun old found => .inr ⟨?_, rfl⟩
        rw [life, found] at alive
        exact Option.some.inj alive
      · cases taken
  | close =>
      simp only at taken
      split at taken
      · cases taken
        exact (sound.called .closing pool.told nofun nofun nofun).stopped
      · cases taken
  | join =>
      simp only at taken
      split at taken
      · cases taken
        exact sound.called _ _ nofun nofun nofun
      · cases taken
  | terminate =>
      simp only at taken
      split at taken
      · cases taken
        exact (sound.called (.stoppingSupervisor true) pool.told nofun nofun nofun).stopped
      · cases taken

theorem sound_init (processes : Nat) : (init processes).Sound := by
  have started : ∀ {id : Nat} {worker},
      (List.replicate processes (⟨.alive, true, false⟩ : EndingWorker))[id]? = some worker →
        id < processes ∧ worker = ⟨.alive, true, false⟩ := by
    intro id worker here
    obtain ⟨within, _⟩ := List.getElem?_eq_some_iff.mp here
    exact ⟨by rwa [List.length_replicate] at within,
      List.eq_of_mem_replicate (List.mem_of_getElem? here)⟩
  refine ⟨rfl, nofun, ⟨?_, ?_, ?_, nofun, ?_, List.nodup_range⟩, ?_, nofun, nofun, nofun⟩
  · exact fun id worker here _ => List.mem_range.mpr (started here).1
  · intro id worker here _ unrecorded
    rw [(started here).2] at unrecorded
    cases unrecorded
  · intro id worker here unstarted
    rw [(started here).2] at unstarted
    cases unstarted
  · intro id member
    rw [init, List.length_replicate]
    exact List.mem_range.mp member
  · rintro point (reaping | reaping) <;> cases reaping

theorem sound_of_run (ran : run (step processes) (init processes) labels = some last)
    (along : Along (step processes) Apart (init processes) labels) : last.Sound :=
  invariant_along (fun _ _ _ sound apart taken => sound.step apart taken) (sound_init processes)
    along ran

/-- When `terminate` or `join` returns, every worker that was ever created has exited, there is
nobody left to create another one, and no thread of the pool has failed. -/
theorem ended_exited (ran : run (step processes) (init processes) labels = some last)
    (along : Along (step processes) Apart (init processes) labels)
    (ended : last.caller = .ended) :
    (∀ worker ∈ last.workers, worker.life = .exited) ∧ last.supervisor = .finished ∧
      last.collector = .finished ∧ last.crashed = false := by
  have sound := sound_of_run ran along
  have past := sound.past (by rw [ended]; rfl)
  refine ⟨fun worker member => ?_, past, sound.gathered (by rw [ended]; rfl), sound.calm⟩
  obtain ⟨id, found⟩ := List.getElem?_of_mem member
  apply Decidable.byContradiction
  intro lives
  obtain ⟨i, here⟩ := List.getElem?_of_mem (sound.roll.living id worker found lives)
  have within := (List.getElem?_eq_some_iff.mp here).1
  have dead := sound.joined i id (by rw [ended]; exact within) here
  rw [life, found] at dead
  cases alive : worker.life with
  | unstarted =>
      have creation := sound.roll.started id worker found alive
      rw [past] at creation
      cases creation
  | alive => exact dead (congrArg some alive)
  | exited => exact lives alive

/-- A pool of three workers that is terminated; the result handler takes the first of them out of
`_pool` while the caller goes through it, so that the second one has to exit by itself. -/
def terminated : List EndingAction :=
  [.terminate, .supervise, .proceed, .proceed, .proceed, .exit 0, .collect false, .collect false,
    .collect false, .collect false, .collect false, .collect false, .proceed, .proceed, .proceed,
    .collect false, .feed, .feed, .feed, .feed, .proceed, .collect true, .proceed, .exit 1,
    .proceed, .exit 2, .proceed, .proceed]

theorem ended_exited_terminated :
    ∃ last, run (step 3) (init 3) terminated = some last ∧
      ∀ worker ∈ last.workers, worker.life = .exited := by
  have ran : run (step 3) (init 3) terminated = some _ := rfl
  exact ⟨_, ran, (ended_exited ran (by decide) (by decide)).1⟩

/-- Where the passes overlap, the result handler can take a worker out of `_pool` that the
supervisor is about to start, and nobody ends it. -/
theorem orphaned :
    ∃ labels last, run (step 1) (init 1) labels = some last ∧ last.caller = .ended ∧
      ∃ worker ∈ last.workers, worker.life = .alive := by
  let labels : List EndingAction :=
    [.exit 0, .supervise, .supervise, .supervise, .supervise, .supervise, .terminate,
      .collect false, .collect false, .collect false, .supervise, .supervise, .collect false,
      .collect false, .collect true, .supervise, .supervise, .feed, .feed, .proceed, .proceed,
      .proceed, .proceed, .proceed]
  have ran : run (step 1) (init 1) labels = some _ := rfl
  exact ⟨labels, _, ran, by decide, by decide⟩

end EndingPool

end Billiard
