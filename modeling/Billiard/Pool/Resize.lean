import Billiard.Pool.Putlock
import Billiard.Pool.Roster
import Mathlib.Data.List.Perm.Subperm
import Mathlib.Data.List.Range

/-! `grow` and `shrink` between the passes that bring a pool to its target size. -/

namespace Billiard

open Transition

structure ResizedPool where
  roster : Roster
  putlock : LaxBoundedSemaphore
  restartState : RestartState
  running : Bool
deriving DecidableEq, Repr

/-- How `_maintain_pool` ends: `raised` by the limit of restarts, `failed` by an assertion. -/
inductive MaintainExit where
  | done
  | raised
  | failed
deriving DecidableEq, Repr

/-- `acked` are the pids that the jobs in the cache show, `clock` the reading in each round of
`_repopulate_pool`. -/
inductive ResizeStep where
  | grow (n : Nat)
  | shrink (n : Int) (acked : List Nat)
  | exit (pid : Nat) (code : Int)
  | acquire
  | release
  | maintain (clock : Nat → Nat)

namespace ResizedPool

def init (processes : Nat) (maxR : Option Int) (maxT : Nat) : ResizedPool :=
  ⟨.init processes, .init processes, .init maxR maxT, true⟩

def grow (state : ResizedPool) : Nat → ResizedPool
  | 0 => state
  | n + 1 => grow { state with
      roster := { state.roster with processes := state.roster.processes + 1 }
      putlock := state.putlock.grow } n

/-- The loop of `shrink` over the rest of `_pool`, with `_processes` and the semaphore as they are
by then.  There is no result while `_putlock.shrink` waits. -/
def shrinkLoop (acked : List Nat) (n : Int) (i : Nat) (processes : Int)
    (putlock : LaxBoundedSemaphore) :
    List RosterWorker → Option (Int × LaxBoundedSemaphore × List RosterWorker)
  -- `ValueError`
  | [] => some (processes, putlock, [])
  | worker :: workers =>
      if acked.contains worker.pid then
        (shrinkLoop acked n i processes putlock workers).map fun (processes, putlock, workers) =>
          (processes, putlock, worker :: workers)
      else
        match putlock.shrink with
        | none => none
        | some putlock =>
            let worker := { worker with told := true }
            if (i : Int) ≥ n - 1 then some (processes - 1, putlock, worker :: workers)
            else
              (shrinkLoop acked n (i + 1) (processes - 1) putlock workers).map
                fun (processes, putlock, workers) => (processes, putlock, worker :: workers)

def shrink (state : ResizedPool) (n : Int) (acked : List Nat) : Option ResizedPool :=
  (shrinkLoop acked n 0 state.roster.processes state.putlock state.roster.workers).map
    fun (processes, putlock, workers) =>
      { state with roster := { state.roster with processes, workers }, putlock }

/-- The rounds of `_repopulate_pool` from round `i` on. -/
def repopulate (clock : Nat → Nat) (exitcodes : List Int) :
    Nat → Nat → ResizedPool → ResizedPool × MaintainExit
  | 0, _, state => (state, .done)
  | rounds + 1, i, state =>
      if !state.running then (state, .done)
      else
        let (restartState, exceeded) :=
          if Roster.counts exitcodes i then state.restartState.step (clock i)
          else (state.restartState, false)
        if exceeded then ({ state with restartState }, .raised)
        else
          match state.roster.availIndex with
          | none => ({ state with restartState }, .failed)
          | some index =>
              repopulate clock exitcodes rounds (i + 1)
                { state with restartState, roster := state.roster.create index }

/-- `_maintain_pool`; an exception closes the pool. -/
def maintain (clock : Nat → Nat) (state : ResizedPool) : ResizedPool × MaintainExit :=
  let (exitcodes, roster) := state.roster.joinExitedWorkers
  match repopulate clock exitcodes roster.missing 0 { state with roster } with
  | (state, .done) =>
      ({ state with putlock := exitcodes.foldl (fun putlock _ => putlock.release) state.putlock },
        .done)
  | (state, exit) => ({ state with running := false }, exit)

def step (state : ResizedPool) : ResizeStep → Option ResizedPool
  | .grow n => some (state.grow n)
  | .shrink n acked => state.shrink n acked
  | .exit pid code => some { state with roster := state.roster.exit pid code }
  | .acquire => state.putlock.acquire.map fun putlock => { state with putlock }
  | .release => some { state with putlock := state.putlock.release }
  | .maintain clock => if state.running then some (state.maintain clock).1 else none

/-- A pass brings the pool to its target size once every worker that was told to end has exited. -/
def Converges (state : ResizedPool) (label : ResizeStep) : Prop :=
  match label with
  | .maintain clock => state.running = true →
      (∀ worker ∈ state.roster.workers, worker.told = true → worker.exitcode.isSome = true) →
      (state.maintain clock).2 ≠ .raised →
      ((state.maintain clock).1.roster.workers.length : Int) =
        (state.maintain clock).1.roster.processes
  | _ => True

/-- `shrink` comes upon no worker that was told to end already. -/
def PicksUntold (state : ResizedPool) (label : ResizeStep) : Prop :=
  match label with
  | .shrink n acked =>
      ∀ worker ∈ (state.roster.workers.filter fun worker => !acked.contains worker.pid).take
        (max 1 n).toNat, worker.told = false
  | _ => True

instance (state : ResizedPool) (label : ResizeStep) : Decidable (state.PicksUntold label) := by
  unfold PicksUntold
  split <;> infer_instance

end ResizedPool

namespace Roster

/-- The workers that were not told to end. -/
def staying (workers : List RosterWorker) : Nat := workers.countP fun worker => !worker.told

variable {roster : Roster}

theorem staying_le (workers : List RosterWorker) : staying workers ≤ workers.length :=
  List.countP_le_length

theorem staying_exit (roster : Roster) (pid : Nat) (code : Int) :
    staying (roster.exit pid code).workers = staying roster.workers := by
  unfold staying exit
  rw [List.countP_map]
  congr 1
  funext worker
  simp only [Function.comp]
  split <;> rfl

theorem staying_joinExitedWorkers (roster : Roster) :
    staying roster.joinExitedWorkers.2.workers ≤ staying roster.workers :=
  List.Sublist.countP_le List.filter_sublist

theorem staying_create (roster : Roster) (index : Nat) :
    staying (roster.create index).workers = staying roster.workers + 1 := by
  simp [staying, create, List.countP_append]

theorem length_create (roster : Roster) (index : Nat) :
    (roster.create index).workers.length = roster.workers.length + 1 := by
  simp [create]

theorem foldl_create (indices : List Nat) (roster : Roster) :
    (indices.foldl create roster).processes = roster.processes ∧
      staying (indices.foldl create roster).workers = staying roster.workers + indices.length := by
  induction indices generalizing roster with
  | nil => exact ⟨rfl, rfl⟩
  | cons index indices ih =>
      obtain ⟨processes, workers⟩ := ih (roster.create index)
      refine ⟨processes, ?_⟩
      rw [List.foldl_cons, workers, staying_create, List.length_cons]
      omega

theorem lt_of_availIndex {index : Nat} (found : roster.availIndex = some index) :
    (roster.workers.length : Int) < roster.processes := by
  unfold availIndex at found
  split at found
  · assumption
  · cases found

/-- A pool below its target size has an index to give. -/
theorem availIndex_of_lt (below : (roster.workers.length : Int) < roster.processes) :
    ∃ index, roster.availIndex = some index := by
  unfold availIndex
  rw [if_pos below]
  cases found : (List.range roster.processes.toNat).find? fun i =>
      !(roster.workers.map RosterWorker.index).contains i with
  | some index => exact ⟨index, rfl⟩
  | none =>
      have taken : List.range roster.processes.toNat ⊆
          roster.workers.map RosterWorker.index := by
        intro i inside
        simpa using List.find?_eq_none.mp found i inside
      have enough := (List.nodup_range.subperm taken).length_le
      rw [List.length_range, List.length_map] at enough
      omega

end Roster

namespace ResizedPool

variable {state next : ResizedPool}

/-- No more workers stay than the pool is to have. -/
def Sound (state : ResizedPool) : Prop :=
  (Roster.staying state.roster.workers : Int) ≤ state.roster.processes

theorem init_sound (processes : Nat) (maxR : Option Int) (maxT : Nat) :
    (init processes maxR maxT).Sound := by
  obtain ⟨target, workers⟩ := Roster.foldl_create (List.range processes) ⟨processes, [], 1⟩
  unfold Sound init Roster.init
  rw [workers, target]
  simp [Roster.staying]

theorem Sound.grow (sound : state.Sound) (n : Nat) : (state.grow n).Sound := by
  induction n generalizing state with
  | zero => exact sound
  | succ n ih =>
      apply ih
      unfold Sound at sound ⊢
      simp only
      omega

/-- A worker that is told to end lowers both sides. -/
theorem shrinkLoop_spec {acked : List Nat} {n : Int} {workers : List RosterWorker} {i : Nat}
    {processes : Int} {putlock : LaxBoundedSemaphore}
    {result : Int × LaxBoundedSemaphore × List RosterWorker}
    (untold : ∀ worker ∈ (workers.filter fun worker => !acked.contains worker.pid).take
      (max 1 (n - i)).toNat, worker.told = false)
    (done : shrinkLoop acked n i processes putlock workers = some result) :
    (Roster.staying result.2.2 : Int) + processes = Roster.staying workers + result.1 := by
  induction workers generalizing i processes putlock result with
  | nil =>
      cases done
      rfl
  | cons worker workers ih =>
      unfold shrinkLoop at done
      split at done
      · rename_i shown
        simp only [Option.map_eq_some_iff] at done
        obtain ⟨⟨_, _, rest⟩, ended, rfl⟩ := done
        rw [List.filter_cons_of_neg (by simpa using shown)] at untold
        have kept := ih untold ended
        simp only [Roster.staying, List.countP_cons] at kept ⊢
        omega
      · rename_i hidden
        split at done
        · cases done
        · rename_i acquired
          rw [List.filter_cons_of_pos (by simpa using hidden)] at untold
          obtain ⟨more, size⟩ : ∃ more, (max 1 (n - (i : Int))).toNat = more + 1 :=
            ⟨(max 1 (n - (i : Int))).toNat - 1, by omega⟩
          rw [size, List.take_succ_cons] at untold
          obtain ⟨free, others⟩ := List.forall_mem_cons.mp untold
          split at done
          · cases done
            simp only [Roster.staying, List.countP_cons, free, Bool.not_false, Bool.not_true,
              if_true, Bool.false_eq_true, if_false]
            omega
          · rename_i further
            simp only [Option.map_eq_some_iff] at done
            obtain ⟨⟨_, _, rest⟩, ended, rfl⟩ := done
            have bound : (max 1 (n - ((i + 1 : Nat) : Int))).toNat = more := by omega
            rw [← bound] at others
            have kept := ih others ended
            simp only [Roster.staying, List.countP_cons, free, Bool.not_false, Bool.not_true,
              if_true, Bool.false_eq_true, if_false] at kept ⊢
            omega

theorem repopulate_spec (clock : Nat → Nat) (exitcodes : List Int) (rounds i : Nat)
    (sound : state.Sound) : (repopulate clock exitcodes rounds i state).1.Sound ∧
      (repopulate clock exitcodes rounds i state).1.roster.processes = state.roster.processes := by
  induction rounds generalizing state i with
  | zero => exact ⟨sound, rfl⟩
  | succ rounds ih =>
      unfold repopulate
      split
      · exact ⟨sound, rfl⟩
      · split
        rename_i restartState exceeded counted
        split
        · exact ⟨sound, rfl⟩
        · split
          · exact ⟨sound, rfl⟩
          · rename_i index found
            have below := Roster.lt_of_availIndex found
            have few := Roster.staying_le state.roster.workers
            apply ih
            unfold Sound
            rw [Roster.staying_create]
            simp only [Roster.create]
            omega

theorem repopulate_length (clock : Nat → Nat) (exitcodes : List Int) {rounds i : Nat}
    (running : state.running = true)
    (room : (state.roster.workers.length : Int) + rounds ≤ state.roster.processes)
    (calm : (repopulate clock exitcodes rounds i state).2 ≠ .raised) :
    (repopulate clock exitcodes rounds i state).2 = .done ∧
      (repopulate clock exitcodes rounds i state).1.roster.workers.length =
        state.roster.workers.length + rounds := by
  induction rounds generalizing state i with
  | zero => exact ⟨rfl, rfl⟩
  | succ rounds ih =>
      unfold repopulate at calm ⊢
      simp only [running, Bool.not_true, Bool.false_eq_true, if_false] at calm ⊢
      generalize (if Roster.counts exitcodes i = true then state.restartState.step (clock i)
        else (state.restartState, false)) = counted at calm ⊢
      obtain ⟨restartState, exceeded⟩ := counted
      cases exceeded with
      | true => exact absurd rfl calm
      | false =>
          have below : (state.roster.workers.length : Int) < state.roster.processes := by omega
          obtain ⟨index, found⟩ := Roster.availIndex_of_lt below
          simp only [found, Bool.false_eq_true, if_false] at calm ⊢
          have spare : ((state.roster.create index).workers.length : Int) + rounds ≤
              (state.roster.create index).processes := by
            rw [Roster.length_create]
            simp only [Roster.create]
            omega
          obtain ⟨done, length⟩ := @ih
            ⟨state.roster.create index, state.putlock, restartState, true⟩ (i + 1) rfl spare calm
          refine ⟨done, ?_⟩
          rw [length, Roster.length_create]
          omega

theorem Sound.join (sound : state.Sound) :
    Sound { state with roster := state.roster.joinExitedWorkers.2 } := by
  have fewer := Roster.staying_joinExitedWorkers state.roster
  unfold Sound at sound ⊢
  simp only [Roster.joinExitedWorkers] at fewer ⊢
  omega

/-- After the reaping only workers that stay are left. -/
theorem Sound.room (sound : state.Sound) (exited : ∀ worker ∈ state.roster.workers,
      worker.told = true → worker.exitcode.isSome = true) :
    (state.roster.joinExitedWorkers.2.workers.length : Int) +
      state.roster.joinExitedWorkers.2.missing = state.roster.processes := by
  have all : Roster.staying state.roster.joinExitedWorkers.2.workers =
      state.roster.joinExitedWorkers.2.workers.length := by
    unfold Roster.staying
    rw [List.countP_eq_length]
    intro worker member
    obtain ⟨present, runs⟩ := List.mem_filter.mp member
    cases told : worker.told with
    | false => rfl
    | true =>
        have gone := exited worker present told
        rw [Option.isNone_iff_eq_none.mp runs] at gone
        cases gone
  have bounded := sound.join
  unfold Sound at bounded
  rw [all] at bounded
  unfold Roster.missing
  simp only [Roster.joinExitedWorkers] at bounded ⊢
  omega

theorem Sound.maintain (sound : state.Sound) (clock : Nat → Nat) :
    (state.maintain clock).1.Sound := by
  have repopulated := (repopulate_spec clock state.roster.joinExitedWorkers.1
    state.roster.joinExitedWorkers.2.missing 0 sound.join).1
  unfold ResizedPool.maintain
  simp only
  split
  · rename_i after result
    rw [result] at repopulated
    exact repopulated
  · rename_i after exit _ result
    rw [result] at repopulated
    exact repopulated

theorem Sound.step (state : ResizedPool) (label : ResizeStep) (next : ResizedPool)
    (sound : state.Sound) (picks : state.PicksUntold label)
    (taken : state.step label = some next) : next.Sound := by
  cases label with
  | grow n =>
      cases taken
      exact sound.grow n
  | shrink n acked =>
      simp only [ResizedPool.step, shrink, Option.map_eq_some_iff] at taken
      obtain ⟨⟨_, _, workers⟩, done, rfl⟩ := taken
      have kept := shrinkLoop_spec (by simpa [PicksUntold] using picks) done
      unfold Sound at sound ⊢
      simp only at kept ⊢
      omega
  | exit pid code =>
      cases taken
      unfold Sound at sound ⊢
      rw [Roster.staying_exit]
      exact sound
  | acquire =>
      simp only [ResizedPool.step, Option.map_eq_some_iff] at taken
      obtain ⟨putlock, _, rfl⟩ := taken
      exact sound
  | release =>
      cases taken
      exact sound
  | maintain clock =>
      simp only [ResizedPool.step, Option.ite_none_right_eq_some, Option.some.injEq] at taken
      obtain ⟨_, rfl⟩ := taken
      exact sound.maintain clock

theorem Sound.converges (state : ResizedPool) (label : ResizeStep) (sound : state.Sound)
    (_ : state.PicksUntold label) : state.Converges label := by
  cases label with
  | maintain clock =>
      intro running exited calm
      have room := sound.room exited
      have counted := @repopulate_length { state with roster := state.roster.joinExitedWorkers.2 }
        clock state.roster.joinExitedWorkers.1 state.roster.joinExitedWorkers.2.missing 0 running
        (Int.le_of_eq room)
      have target := (repopulate_spec clock state.roster.joinExitedWorkers.1
        state.roster.joinExitedWorkers.2.missing 0 sound.join).2
      unfold ResizedPool.maintain at calm ⊢
      cases result : repopulate clock state.roster.joinExitedWorkers.1
          state.roster.joinExitedWorkers.2.missing 0
          { state with roster := state.roster.joinExitedWorkers.2 } with
      | mk after exit =>
      simp only [result] at calm counted target ⊢
      cases exit with
      | done =>
          have length := (counted nofun).2
          simp only [target, length]
          exact room
      | raised => exact absurd rfl calm
      | failed => cases (counted nofun).1
  | _ => exact True.intro

/-- Whatever comes between, a pool whose `shrink` picks workers that are to stay reaches its target
size. -/
theorem resize_converges {processes : Nat} {maxR : Option Int} {maxT : Nat}
    {labels : List ResizeStep}
    (picks : Along step PicksUntold (init processes maxR maxT) labels) :
    Along step Converges (init processes maxR maxT) labels :=
  along_of_invariant Sound.step Sound.converges (init_sound processes maxR maxT) picks

/-- Two of three workers are told to end, and the pool grows by one before they are reaped. -/
def shrunkAndGrown : List ResizeStep :=
  [.shrink 2 [], .exit 1 0, .grow 1, .exit 2 0, .maintain fun _ => 0]

theorem resize_converges_shrunkAndGrown :
    Along step Converges (init 3 none 1) shrunkAndGrown ∧
      ∃ last, run step (init 3 none 1) shrunkAndGrown = some last ∧
        last.roster.workers.length = 2 := by
  have picks : Along step PicksUntold (init 3 none 1) shrunkAndGrown := by decide
  exact ⟨resize_converges picks, _, rfl, rfl⟩

/-- The second `shrink` comes upon the worker that the first one told to end. -/
def shrunkTwice : List ResizeStep := [.shrink 1 [], .shrink 1 [], .exit 1 (-15)]

theorem not_converges :
    ∃ before last, run step (init 3 none 1) shrunkTwice = some before ∧
      before.step (.maintain fun _ => 0) = some last ∧
      last.roster.workers.length = 2 ∧ last.roster.processes = 1 ∧
      ¬before.Converges (.maintain fun _ => 0) := by
  refine ⟨_, _, rfl, rfl, rfl, rfl, ?_⟩
  intro converges
  exact absurd (converges rfl (by decide) (by decide)) (by decide)

end ResizedPool

end Billiard
