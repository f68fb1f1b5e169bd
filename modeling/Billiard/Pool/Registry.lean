import Billiard.Data.Transition
import Billiard.Pool.Join
import Mathlib.Data.Finset.Basic
import Mathlib.Data.Finset.Image

/-! `_pool` beside `_poolctrl` and `_on_ready_counters`, which get the entry of a worker after
it was started. -/

namespace Billiard

open Transition

/-- The `pid` of a worker whose `start` has failed is `None`. -/
structure PoolProcess where
  pid : Option Nat
  exitcode : Option Int
deriving DecidableEq, Repr

structure Registry where
  workers : List PoolProcess
  poolctrl : Finset Nat
  onReadyCounters : Finset Nat
deriving DecidableEq

/-- `create` comes with the pid that `start` gets, if it gets one; `exit` is that of the worker at
the given place of `_pool`. -/
inductive RegistryStep where
  | create (pid : Option Nat)
  | exit (i : Nat) (code : Int)
  | join
deriving DecidableEq, Repr

/-- `popen is None or exitcode is not None` -/
def PoolProcess.gone (worker : PoolProcess) : Bool :=
  worker.pid.isNone || worker.exitcode.isSome

def pidsOf (workers : List PoolProcess) : List Nat := workers.filterMap PoolProcess.pid

namespace Registry

def init : Registry := ⟨[], ∅, ∅⟩

/-- `_create_worker_process`; where `start` raises, the worker is in `_pool` already. -/
def create (registry : Registry) (pid : Option Nat) : Registry :=
  let registry := { registry with workers := registry.workers ++ [⟨pid, none⟩] }
  match pid with
  | none => registry
  | some pid => { registry with
      poolctrl := insert pid registry.poolctrl
      onReadyCounters := insert pid registry.onReadyCounters }

/-- `del self._poolctrl[worker.pid]` and `del self._on_ready_counters[worker.pid]`, with whether
one of them raises `KeyError`. -/
def forget (registry : Registry) : Option Nat → Registry × Bool
  | none => (registry, true)
  | some pid =>
      if pid ∈ registry.poolctrl then
        let registry := { registry with poolctrl := registry.poolctrl.erase pid }
        if pid ∈ registry.onReadyCounters then
          ({ registry with onReadyCounters := registry.onReadyCounters.erase pid }, false)
        else (registry, true)
      else (registry, true)

/-- The loop over `_pool`, which starts at its end; `registry` has the workers that stay. -/
def reap : List PoolProcess → Registry → Registry × Bool
  | [], registry => (registry, false)
  | worker :: workers, registry =>
      match reap workers registry with
      | (registry, true) => ({ registry with workers := worker :: registry.workers }, true)
      | (registry, false) =>
          if worker.gone then registry.forget worker.pid
          else ({ registry with workers := worker :: registry.workers }, false)

/-- `_join_exited_workers`, up to the end of that loop. -/
def joinExitedWorkers (registry : Registry) : Registry × Bool :=
  reap registry.workers { registry with workers := [] }

def step (registry : Registry) : RegistryStep → Option Registry
  | .create pid => some (registry.create pid)
  | .exit i code =>
      match registry.workers[i]? with
      | none => none
      | some worker =>
          if worker.gone then none
          else some { registry with
            workers := registry.workers.set i { worker with exitcode := some code } }
  | .join => some registry.joinExitedWorkers.1

/-- The keys of both dictionaries are the pids of the workers that were started. -/
structure Registered (registry : Registry) : Prop where
  poolctrl : registry.poolctrl = (pidsOf registry.workers).toFinset
  onReadyCounters : registry.onReadyCounters = (pidsOf registry.workers).toFinset

structure Upholds (registry : Registry) (label : RegistryStep) : Prop where
  registered : ∀ next, registry.step label = some next → next.Registered
  reaps : label = .join → registry.joinExitedWorkers.2 = false ∧
    registry.joinExitedWorkers.1.workers = registry.workers.filter (!·.gone)

/-- A pass finds no worker that was not started, and no pid twice where one of the two workers is
to be taken out. -/
def Reapable (registry : Registry) (label : RegistryStep) : Prop :=
  label = .join →
    (∀ worker ∈ registry.workers, worker.pid ≠ none) ∧
    (pidsOf (registry.workers.filter (·.gone))).Nodup ∧
    ∀ pid ∈ pidsOf (registry.workers.filter (·.gone)),
      pid ∉ pidsOf (registry.workers.filter (!·.gone))

instance (registry : Registry) (label : RegistryStep) : Decidable (registry.Reapable label) := by
  unfold Reapable
  infer_instance

variable {registry next : Registry} {label : RegistryStep}

theorem forget_ok {pid : Option Nat} (removed : (registry.forget pid).2 = false) :
    ∃ key, pid = some key ∧ key ∈ registry.poolctrl ∧ key ∈ registry.onReadyCounters ∧
      registry.forget pid = ({ registry with
        poolctrl := registry.poolctrl.erase key
        onReadyCounters := registry.onReadyCounters.erase key }, false) := by
  cases pid with
  | none => cases removed
  | some key =>
      unfold forget at removed ⊢
      simp only at removed ⊢
      by_cases controlled : key ∈ registry.poolctrl
      · by_cases counted : key ∈ registry.onReadyCounters
        · exact ⟨key, rfl, controlled, counted, by simp [controlled, counted]⟩
        · simp [controlled, counted] at removed
      · simp [controlled] at removed

theorem reap_ok {workers : List PoolProcess} (empty : registry.workers = [])
    (removed : (reap workers registry).2 = false) :
    (∀ worker ∈ workers, worker.pid ≠ none) ∧ (pidsOf (workers.filter (·.gone))).Nodup ∧
      (reap workers registry).1 = {
        workers := workers.filter (!·.gone)
        poolctrl := registry.poolctrl \ (pidsOf (workers.filter (·.gone))).toFinset
        onReadyCounters :=
          registry.onReadyCounters \ (pidsOf (workers.filter (·.gone))).toFinset } := by
  induction workers with
  | nil =>
      obtain ⟨_, poolctrl, onReadyCounters⟩ := registry
      cases empty
      exact ⟨nofun, List.nodup_nil, by simp [reap, pidsOf]⟩
  | cons worker workers ih =>
      rw [List.forall_mem_cons]
      unfold reap at removed ⊢
      cases rest : reap workers registry with
      | mk after raised =>
          simp only [rest] at removed ih ⊢
          cases raised with
          | true => cases removed
          | false =>
              obtain ⟨started, distinct, rfl⟩ := ih rfl
              simp only at removed ⊢
              cases gone : worker.gone with
              | false =>
                  have present : worker.pid ≠ none := by
                    intro missing
                    simp [PoolProcess.gone, missing] at gone
                  refine ⟨⟨present, started⟩, ?_, ?_⟩
                  · simpa [gone] using distinct
                  · simp [gone]
              | true =>
                  simp only [gone, if_true] at removed ⊢
                  obtain ⟨key, same, controlled, _, forgotten⟩ := forget_ok removed
                  have apart : key ∉ pidsOf (workers.filter (·.gone)) := by
                    intro listed
                    simp [listed] at controlled
                  have pids : pidsOf ((worker :: workers).filter (·.gone)) =
                      key :: pidsOf (workers.filter (·.gone)) := by
                    simp [pidsOf, same, gone]
                  rw [forgotten, pids, List.toFinset_cons, Finset.sdiff_insert,
                    Finset.sdiff_insert]
                  refine ⟨⟨by simp [same], started⟩, List.nodup_cons.mpr ⟨apart, distinct⟩, ?_⟩
                  simp [gone]

theorem reap_of {workers : List PoolProcess} (empty : registry.workers = [])
    (started : ∀ worker ∈ workers, worker.pid ≠ none)
    (distinct : (pidsOf (workers.filter (·.gone))).Nodup)
    (controlled : ∀ pid ∈ pidsOf workers, pid ∈ registry.poolctrl)
    (counted : ∀ pid ∈ pidsOf workers, pid ∈ registry.onReadyCounters) :
    (reap workers registry).2 = false := by
  induction workers with
  | nil => rfl
  | cons worker workers ih =>
      obtain ⟨present, started⟩ := List.forall_mem_cons.mp started
      obtain ⟨key, same⟩ := Option.ne_none_iff_exists'.mp present
      have pids : pidsOf (worker :: workers) = key :: pidsOf workers := by simp [pidsOf, same]
      rw [pids] at controlled counted
      have sublist : (pidsOf (workers.filter (·.gone))).Sublist
          (pidsOf ((worker :: workers).filter (·.gone))) :=
        ((List.sublist_cons_self worker workers).filter _).filterMap _
      have rest := ih started (distinct.sublist sublist) (List.forall_mem_cons.mp controlled).2
        (List.forall_mem_cons.mp counted).2
      obtain ⟨_, _, after⟩ := reap_ok empty rest
      unfold reap
      rw [← Prod.mk.eta (p := reap workers registry), rest]
      simp only
      cases gone : worker.gone with
      | false => rfl
      | true =>
          have apart : key ∉ pidsOf (workers.filter (·.gone)) := by
            have cons : pidsOf ((worker :: workers).filter (·.gone)) =
                key :: pidsOf (workers.filter (·.gone)) := by
              simp [pidsOf, same, gone]
            rw [cons] at distinct
            exact (List.nodup_cons.mp distinct).1
          have here := (List.forall_mem_cons.mp controlled).1
          have there := (List.forall_mem_cons.mp counted).1
          simp [after, same, forget, here, there, apart]

theorem Registered.create (registered : registry.Registered) (pid : Option Nat) :
    (registry.create pid).Registered := by
  obtain ⟨poolctrl, onReadyCounters⟩ := registered
  cases pid with
  | none => exact ⟨by simp [Registry.create, pidsOf, poolctrl],
      by simp [Registry.create, pidsOf, onReadyCounters]⟩
  | some pid => exact ⟨by simp [Registry.create, pidsOf, poolctrl, Finset.union_comm],
      by simp [Registry.create, pidsOf, onReadyCounters]⟩

theorem pidsOf_set {workers : List PoolProcess} {i : Nat} {worker : PoolProcess}
    (found : workers[i]? = some worker) (code : Int) :
    pidsOf (workers.set i { worker with exitcode := some code }) = pidsOf workers := by
  have pids : ∀ workers, pidsOf workers = (workers.map PoolProcess.pid).filterMap id := by
    intro workers
    rw [List.filterMap_map]
    rfl
  obtain ⟨inside, rfl⟩ := List.getElem?_eq_some_iff.mp found
  rw [pids, pids, List.map_set]
  congr 1
  apply List.ext_getElem (by simp)
  intro j _ _
  by_cases here : i = j
  · simp [here]
  · simp [List.getElem_set_ne here]

theorem mem_pidsOf_gone {workers : List PoolProcess} {pid : Nat} :
    pid ∈ pidsOf workers ↔ pid ∈ pidsOf (workers.filter (·.gone)) ∨
      pid ∈ pidsOf (workers.filter (!·.gone)) := by
  simp only [pidsOf, List.mem_filterMap, List.mem_filter, Bool.not_eq_true']
  constructor
  · rintro ⟨worker, member, same⟩
    cases gone : worker.gone with
    | true => exact .inl ⟨worker, ⟨member, gone⟩, same⟩
    | false => exact .inr ⟨worker, ⟨member, gone⟩, same⟩
  · rintro (⟨worker, ⟨member, _⟩, same⟩ | ⟨worker, ⟨member, _⟩, same⟩)
    · exact ⟨worker, member, same⟩
    · exact ⟨worker, member, same⟩

/-- The keys that are left belong to the workers that stay unless one of them shares its pid. -/
theorem registered_reaped_iff {workers : List PoolProcess} :
    (pidsOf workers).toFinset \ (pidsOf (workers.filter (·.gone))).toFinset =
        (pidsOf (workers.filter (!·.gone))).toFinset ↔
      ∀ pid ∈ pidsOf (workers.filter (·.gone)), pid ∉ pidsOf (workers.filter (!·.gone)) := by
  constructor
  · intro same pid gone stays
    have left : pid ∈ (pidsOf (workers.filter (!·.gone))).toFinset := List.mem_toFinset.mpr stays
    rw [← same, Finset.mem_sdiff, List.mem_toFinset, List.mem_toFinset] at left
    exact left.2 gone
  · intro apart
    ext pid
    simp only [Finset.mem_sdiff, List.mem_toFinset, @mem_pidsOf_gone workers]
    constructor
    · rintro ⟨gone | stays, kept⟩
      · exact absurd gone kept
      · exact stays
    · intro stays
      exact ⟨.inr stays, fun gone => apart pid gone stays⟩

theorem Registered.step_upholds_iff (registered : registry.Registered) (label : RegistryStep) :
    registry.Upholds label ↔ registry.Reapable label := by
  obtain ⟨poolctrl, onReadyCounters⟩ := registered
  cases label with
  | create pid =>
      refine ⟨fun _ => nofun, fun _ => ⟨?_, nofun⟩⟩
      intro next taken
      cases taken
      exact Registered.create ⟨poolctrl, onReadyCounters⟩ pid
  | exit i code =>
      refine ⟨fun _ => nofun, fun _ => ⟨?_, nofun⟩⟩
      intro next taken
      unfold step at taken
      simp only at taken
      split at taken
      · cases taken
      · rename_i worker found
        split at taken
        · cases taken
        · cases taken
          exact ⟨by simp only [pidsOf_set found, poolctrl],
            by simp only [pidsOf_set found, onReadyCounters]⟩
  | join =>
      constructor
      · intro upholds _
        obtain ⟨started, distinct, after⟩ := reap_ok rfl (upholds.reaps rfl).1
        refine ⟨started, distinct, registered_reaped_iff.mp ?_⟩
        have next := (upholds.registered _ rfl).poolctrl
        unfold joinExitedWorkers at next
        rw [after] at next
        simpa only [poolctrl] using next
      · intro reapable
        obtain ⟨started, distinct, apart⟩ := reapable rfl
        have removed := @reap_of { registry with workers := [] } registry.workers rfl started
          distinct (by simp [poolctrl]) (by simp [onReadyCounters])
        obtain ⟨_, _, after⟩ := reap_ok rfl removed
        have left := registered_reaped_iff.mpr apart
        refine ⟨?_, fun _ => ⟨removed, congrArg Registry.workers after⟩⟩
        intro next taken
        cases taken
        unfold joinExitedWorkers
        rw [after]
        exact ⟨by simpa only [poolctrl] using left, by simpa only [onReadyCounters] using left⟩

/-- Whatever is started, exits and is reaped, the dictionaries fit the workers and the passes take
out those that are gone, exactly if no pass comes upon a worker whose start has failed. -/
theorem reaps_iff (labels : List RegistryStep) :
    Along step Upholds init labels ↔ Along step Reapable init labels := by
  have start : init.Registered := ⟨rfl, rfl⟩
  refine along_congr ?_ (fun registry label registered => registered.step_upholds_iff label) start
  intro registry label next registered reapable taken
  exact ((registered.step_upholds_iff label).mpr reapable).registered next taken

/-- The pass comes upon a worker that was not started. -/
theorem keyError_of_failedStart :
    ∃ registry, run step init [.create (some 7), .create none] = some registry ∧
      registry.joinExitedWorkers.2 = true ∧ ¬registry.Upholds .join := by
  refine ⟨_, rfl, rfl, ?_⟩
  intro upholds
  cases (upholds.reaps rfl).1

end Registry

namespace Staff

def registry (staff : Staff) : Registry where
  workers := staff.workers.map fun worker => ⟨some worker.pid, worker.exitcode⟩
  poolctrl := staff.poolctrl.toFinset
  onReadyCounters := staff.onReadyCounters.toFinset

theorem pidsOf_registry (staff : Staff) : pidsOf staff.registry.workers = staff.pids := by
  simp [registry, pidsOf, pids]

end Staff

/-- A crew is what a pass asks for. -/
theorem Crew.reaps (crew : Crew) : crew.registry.joinExitedWorkers.2 = false := by
  have pids := crew.toStaff.pidsOf_registry
  refine Registry.reap_of rfl ?_ ?_ ?_ ?_
  · intro worker member
    obtain ⟨_, _, rfl⟩ := List.mem_map.mp member
    exact nofun
  · have sublist : (pidsOf (crew.registry.workers.filter (·.gone))).Sublist crew.pids := by
      rw [← pids]
      exact List.filter_sublist.filterMap _
    exact crew.distinct.sublist sublist
  · intro pid member
    rw [pids] at member
    obtain ⟨worker, listed, rfl⟩ := List.mem_map.mp member
    exact List.mem_toFinset.mpr (crew.controlled worker listed)
  · intro pid member
    rw [pids] at member
    obtain ⟨worker, listed, rfl⟩ := List.mem_map.mp member
    exact List.mem_toFinset.mpr (crew.counted worker listed)

end Billiard
