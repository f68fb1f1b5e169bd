import Billiard.Pool.ShrinkOutcome
import Mathlib.Data.List.Nodup

/-! The index of a worker, by which it can be told from the others of its pool. -/

namespace Billiard

open Transition

/-- How `_avail_index` ends. -/
inductive AvailEnd where
  | index (i : Nat)
  | assertionError
  | stopIteration
deriving DecidableEq, Repr

/-- Besides the steps of `ResizedPool` there are `did_start_ok`, which only reaps, and calls of
`_repopulate_pool` with any exit codes. -/
inductive PoolCall where
  | resize (label : ResizeStep)
  | reap
  | repopulate (clock : Nat → Nat) (exitcodes : List Int)

namespace Roster

def indices (roster : Roster) : List Nat := roster.workers.map RosterWorker.index

def availEnd (roster : Roster) : AvailEnd :=
  if (roster.workers.length : Int) < roster.processes then
    match (List.range roster.processes.toNat).find? fun i => !roster.indices.contains i with
    | some i => .index i
    | none => .stopIteration
  else .assertionError

variable {roster : Roster} {index : Nat}

theorem availIndex_eq_some : roster.availIndex = some index ↔ roster.availEnd = .index index := by
  unfold availIndex availEnd indices
  split
  · split
    · rename_i found
      rw [found]
      simp
    · rename_i missing
      rw [missing]
      simp
  · simp

theorem free_of_availIndex (found : roster.availIndex = some index) :
    index ∉ roster.indices ∧ (index : Int) < roster.processes := by
  unfold availIndex at found
  split at found
  · have free := List.find?_some found
    have inside := List.mem_range.mp (List.mem_of_find?_eq_some found)
    refine ⟨by simpa [indices] using free, ?_⟩
    omega
  · cases found

@[simp] theorem indices_create : (roster.create index).indices = roster.indices ++ [index] := by
  simp [indices, create]

@[simp] theorem indices_exit (pid : Nat) (code : Int) :
    (roster.exit pid code).indices = roster.indices := by
  unfold indices exit
  rw [List.map_map]
  apply List.map_congr_left
  intro worker _
  simp only [Function.comp]
  split <;> rfl

theorem indices_join : roster.joinExitedWorkers.2.indices.Sublist roster.indices :=
  List.filter_sublist.map _

theorem indices_foldl_create (taken : List Nat) :
    (taken.foldl create roster).indices = roster.indices ++ taken := by
  induction taken generalizing roster with
  | nil => exact (List.append_nil _).symm
  | cons index taken ih =>
      rw [List.foldl_cons, ih, indices_create]
      exact (List.append_cons ..).symm

end Roster

namespace ResizedPool

def call (state : ResizedPool) : PoolCall → Option ResizedPool
  | .resize label => state.step label
  | .reap => some { state with roster := state.roster.joinExitedWorkers.2 }
  | .repopulate clock exitcodes =>
      some (repopulate clock exitcodes state.roster.missing 0 state).1

/-- The pools for which `_avail_index` is called in the rounds of `_repopulate_pool`. -/
def availCalls (clock : Nat → Nat) (exitcodes : List Int) : Nat → Nat → ResizedPool → List Roster
  | 0, _, _ => []
  | rounds + 1, i, state =>
      if !state.running then []
      else
        let (restartState, exceeded) :=
          if Roster.counts exitcodes i then state.restartState.step (clock i)
          else (state.restartState, false)
        if exceeded then []
        else
          state.roster :: match state.roster.availIndex with
            | none => []
            | some index =>
                availCalls clock exitcodes rounds (i + 1)
                  { state with restartState, roster := state.roster.create index }

/-- The same for any call on the pool. -/
def asked (state : ResizedPool) : PoolCall → List Roster
  | .resize (.maintain clock) =>
      let (exitcodes, roster) := state.roster.joinExitedWorkers
      availCalls clock exitcodes roster.missing 0 { state with roster }
  | .repopulate clock exitcodes => availCalls clock exitcodes state.roster.missing 0 state
  | .resize _ | .reap => []

structure Indexed (state : ResizedPool) (label : PoolCall) : Prop where
  distinct : state.roster.indices.Nodup
  found : ∀ roster ∈ state.asked label, ∃ index, roster.availEnd = .index index ∧
    index ∉ roster.indices ∧ (index : Int) < roster.processes

/-- Once all workers that were told to end have exited, a pass leaves none whose index is not one
of those of the pool. -/
def InRange (state : ResizedPool) : PoolCall → Prop
  | .resize (.maintain clock) => state.running = true →
      (∀ worker ∈ state.roster.workers, worker.told = true → worker.exitcode.isSome = true) →
      ∀ worker ∈ (state.maintain clock).1.roster.workers,
        (worker.index : Int) < (state.maintain clock).1.roster.processes
  | _ => True

def exits (state : ResizedPool) (gone : List (Nat × Int)) : ResizedPool :=
  { state with roster := gone.foldl (fun roster exit => roster.exit exit.1 exit.2) state.roster }

/-- A pass that comes now is in range, and so is one that comes after the call and after some more
workers have exited. -/
structure StaysInRange (state : ResizedPool) (label : PoolCall) : Prop where
  now : state.InRange label
  soon : ∀ next, state.call label = some next → ∀ gone clock,
    (next.exits gone).InRange (.resize (.maintain clock))

/-- The workers that `shrink` tells to end, if it does not have to wait. -/
def picked (state : ResizedPool) (n : Int) (acked : List Nat) : List RosterWorker :=
  (state.roster.workers.filter fun worker => !acked.contains worker.pid).take (max 1 n).toNat

/-- `shrink` leaves no other worker whose index is too large for the smaller pool. -/
def Orderly (state : ResizedPool) : PoolCall → Prop
  | .resize (.shrink n acked) => state.running = true →
      (state.picked n acked).length ≤ state.putlock.value →
      ∀ worker ∈ state.roster.workers, worker.exitcode = none → worker.told = false →
        worker ∉ state.picked n acked →
          (worker.index : Int) < state.roster.processes - (state.picked n acked).length
  | _ => True

variable {state next : ResizedPool} {clock : Nat → Nat} {exitcodes : List Int}

/-- `_repopulate_pool` creates the workers with the indices that its calls find, and each call is
for the pool with the workers created before it. -/
theorem availCalls_spec (rounds i : Nat) :
    (repopulate clock exitcodes rounds i state).1.roster =
        ((availCalls clock exitcodes rounds i state).filterMap Roster.availIndex).foldl
          Roster.create state.roster ∧
      ∀ k roster, (availCalls clock exitcodes rounds i state)[k]? = some roster →
        roster = (((availCalls clock exitcodes rounds i state).take k).filterMap
          Roster.availIndex).foldl Roster.create state.roster := by
  induction rounds generalizing state i with
  | zero => exact ⟨rfl, by simp [availCalls]⟩
  | succ rounds ih =>
      unfold repopulate availCalls
      split
      · exact ⟨rfl, by simp⟩
      · rcases (if Roster.counts exitcodes i then state.restartState.step (clock i)
          else (state.restartState, false)) with ⟨restartState, exceeded⟩
        cases exceeded with
        | true => exact ⟨rfl, by simp⟩
        | false =>
            simp only [Bool.false_eq_true, if_false]
            cases found : state.roster.availIndex with
            | none =>
                refine ⟨by simp [found], ?_⟩
                rintro (_ | k) roster ⟨⟩
                rfl
            | some index =>
                obtain ⟨created, asked⟩ := @ih
                  { state with restartState, roster := state.roster.create index } (i + 1)
                refine ⟨by simp [found, created], ?_⟩
                rintro (_ | k) roster here
                · cases here
                  rfl
                · simpa [found] using asked k roster here

theorem availCalls_found {rounds i : Nat}
    (room : (state.roster.workers.length : Int) + rounds ≤ max state.roster.processes
      state.roster.workers.length) :
    ∀ roster ∈ availCalls clock exitcodes rounds i state,
      ∃ index, roster.availEnd = .index index ∧ index ∉ roster.indices ∧
        (index : Int) < roster.processes := by
  induction rounds generalizing state i with
  | zero => intro roster member; cases member
  | succ rounds ih =>
      intro roster member
      unfold availCalls at member
      split at member
      · cases member
      · split at member
        rename_i restartState exceeded counted
        split at member
        · cases member
        · have below : (state.roster.workers.length : Int) < state.roster.processes := by omega
          obtain ⟨index, found⟩ := Roster.availIndex_of_lt below
          rcases List.mem_cons.mp member with rfl | later
          · exact ⟨index, Roster.availIndex_eq_some.mp found, Roster.free_of_availIndex found⟩
          · rw [found] at later
            refine ih ?_ roster later
            rw [Roster.length_create]
            simp only [Roster.create]
            omega

theorem missing_room (roster : Roster) :
    (roster.workers.length : Int) + roster.missing ≤ max roster.processes
      roster.workers.length := by
  unfold Roster.missing
  omega

theorem repopulate_adds (rounds i : Nat) :
    ∃ added, (repopulate clock exitcodes rounds i state).1.roster.workers =
        state.roster.workers ++ added ∧
      (repopulate clock exitcodes rounds i state).1.roster.processes = state.roster.processes ∧
      (∀ worker ∈ added, (worker.index : Int) < state.roster.processes) ∧
      (state.roster.indices.Nodup →
        (repopulate clock exitcodes rounds i state).1.roster.indices.Nodup) := by
  induction rounds generalizing state i with
  | zero => exact ⟨[], (List.append_nil _).symm, rfl, by simp, id⟩
  | succ rounds ih =>
      unfold repopulate
      split
      · exact ⟨[], (List.append_nil _).symm, rfl, by simp, id⟩
      · split
        rename_i restartState exceeded counted
        split
        · exact ⟨[], (List.append_nil _).symm, rfl, by simp, id⟩
        · split
          · exact ⟨[], (List.append_nil _).symm, rfl, by simp, id⟩
          · rename_i index found
            obtain ⟨free, inside⟩ := Roster.free_of_availIndex found
            obtain ⟨added, workers, processes, indices, distinct⟩ := @ih
              { state with restartState, roster := state.roster.create index } (i + 1)
            refine ⟨⟨state.roster.pids, index, none, false⟩ :: added, ?_, processes, ?_, ?_⟩
            · rw [workers]
              exact (List.append_cons ..).symm
            · exact List.forall_mem_cons.mpr ⟨inside, indices⟩
            · intro nodup
              apply distinct
              rw [Roster.indices_create]
              refine List.nodup_append.mpr ⟨nodup, by simp, ?_⟩
              intro taken member other same
              rw [List.mem_singleton.mp same]
              exact fun equal => free (equal ▸ member)

def Distinct (state : ResizedPool) : Prop := state.roster.indices.Nodup

theorem init_distinct (processes : Nat) (maxR : Option Int) (maxT : Nat) :
    (init processes maxR maxT).Distinct := by
  unfold Distinct init Roster.init
  rw [Roster.indices_foldl_create]
  exact List.nodup_range

theorem grow_workers (n : Nat) : (state.grow n).roster.workers = state.roster.workers := by
  induction n generalizing state with
  | zero => rfl
  | succ n ih => exact ih

theorem shrinkLoop_indices {acked : List Nat} {n : Int} {workers : List RosterWorker} {i : Nat}
    {processes : Int} {putlock : LaxBoundedSemaphore}
    {result : Int × LaxBoundedSemaphore × List RosterWorker}
    (done : shrinkLoop acked n i processes putlock workers = some result) :
    result.2.2.map RosterWorker.index = workers.map RosterWorker.index := by
  induction workers generalizing i processes putlock result with
  | nil =>
      cases done
      rfl
  | cons worker workers ih =>
      unfold shrinkLoop at done
      split at done
      · obtain ⟨_, ended, rfl⟩ := Option.map_eq_some_iff.mp done
        exact congrArg (worker.index :: ·) (ih ended)
      · split at done
        · cases done
        · split at done
          · cases done
            rfl
          · obtain ⟨_, ended, rfl⟩ := Option.map_eq_some_iff.mp done
            exact congrArg (worker.index :: ·) (ih ended)

theorem Distinct.maintain (distinct : state.Distinct) (clock : Nat → Nat) :
    (state.maintain clock).1.Distinct := by
  obtain ⟨_, _, _, _, kept⟩ := @repopulate_adds
    { state with roster := state.roster.joinExitedWorkers.2 } clock
    state.roster.joinExitedWorkers.1 state.roster.joinExitedWorkers.2.missing 0
  have repopulated := kept (distinct.sublist Roster.indices_join)
  unfold ResizedPool.maintain
  simp only
  split
  · rename_i after result
    rw [result] at repopulated
    exact repopulated
  · rename_i after exit _ result
    rw [result] at repopulated
    exact repopulated

theorem Distinct.step {label : ResizeStep} (distinct : state.Distinct)
    (taken : state.step label = some next) : next.Distinct := by
  cases label with
  | grow n =>
      cases taken
      unfold Distinct Roster.indices
      rw [grow_workers]
      exact distinct
  | shrink n acked =>
      obtain ⟨⟨_, _, workers⟩, done, rfl⟩ := Option.map_eq_some_iff.mp taken
      unfold Distinct Roster.indices
      simp only
      rw [shrinkLoop_indices done]
      exact distinct
  | exit pid code =>
      cases taken
      unfold Distinct
      rw [Roster.indices_exit]
      exact distinct
  | acquire =>
      obtain ⟨putlock, _, rfl⟩ := Option.map_eq_some_iff.mp taken
      exact distinct
  | release =>
      cases taken
      exact distinct
  | maintain clock =>
      obtain ⟨_, rfl⟩ := (Option.ite_none_right_eq_some.mp taken).imp_right Option.some.inj
      exact distinct.maintain clock

theorem Distinct.call {label : PoolCall} (distinct : state.Distinct)
    (taken : state.call label = some next) : next.Distinct := by
  cases label with
  | resize label => exact distinct.step taken
  | reap =>
      cases taken
      exact distinct.sublist Roster.indices_join
  | repopulate clock exitcodes =>
      cases taken
      obtain ⟨_, _, _, _, kept⟩ := @repopulate_adds state clock exitcodes state.roster.missing 0
      exact kept distinct

theorem asked_found (label : PoolCall) :
    ∀ roster ∈ state.asked label, ∃ index, roster.availEnd = .index index ∧
      index ∉ roster.indices ∧ (index : Int) < roster.processes := by
  unfold asked
  split
  · exact availCalls_found (missing_room _)
  · exact availCalls_found (missing_room _)
  · simp
  · simp

/-- Whatever is done to a pool, its workers have different indices, and `_avail_index` finds one
whenever it is called. -/
theorem indexed (processes : Nat) (maxR : Option Int) (maxT : Nat) (labels : List PoolCall) :
    Along call Indexed (init processes maxR maxT) labels := by
  have kept : Preserves call (fun _ _ => True) Distinct :=
    fun _ _ _ distinct _ taken => distinct.call taken
  refine along_of_invariant kept ?_ (init_distinct processes maxR maxT) (along_true _ _)
  intro state label distinct _
  exact ⟨distinct, asked_found label⟩

/-- What is known of the workers: the pids are given out in order, and unless the pool is closed the
index of each one that is to stay is in range. -/
structure Ranged (state : ResizedPool) : Prop where
  distinct : (state.roster.workers.map RosterWorker.pid).Nodup
  given : ∀ worker ∈ state.roster.workers, worker.pid < state.roster.pids
  inside : state.running = true → ∀ worker ∈ state.roster.workers, worker.exitcode = none →
    worker.told = false → (worker.index : Int) < state.roster.processes

theorem Ranged.sublist (ranged : state.Ranged)
    (pids : (next.roster.workers.map RosterWorker.pid).Sublist
      (state.roster.workers.map RosterWorker.pid))
    (bound : next.roster.pids = state.roster.pids)
    (inside : next.running = true → ∀ worker ∈ next.roster.workers, worker.exitcode = none →
      worker.told = false → (worker.index : Int) < next.roster.processes) : next.Ranged where
  distinct := ranged.distinct.sublist pids
  given worker member := by
    obtain ⟨prior, old, same⟩ := List.mem_map.mp (pids.subset (List.mem_map_of_mem member))
    rw [← same, bound]
    exact ranged.given prior old
  inside := inside

theorem Ranged.create (ranged : state.Ranged) {index : Nat} (restartState : RestartState)
    (fits : (index : Int) < state.roster.processes) :
    Ranged { state with restartState, roster := state.roster.create index } where
  distinct := by
    simp only [Roster.create, List.map_append]
    refine List.nodup_append.mpr ⟨ranged.distinct, by simp, ?_⟩
    intro pid member other same
    obtain ⟨worker, old, rfl⟩ := List.mem_map.mp member
    rw [List.mem_singleton.mp same]
    exact Nat.ne_of_lt (ranged.given worker old)
  given worker member := by
    rcases List.mem_append.mp member with old | new
    · exact Nat.lt_succ_of_lt (ranged.given worker old)
    · rw [List.mem_singleton.mp new]
      exact Nat.lt_succ_self _
  inside running worker member alive untold := by
    rcases List.mem_append.mp member with old | new
    · exact ranged.inside running worker old alive untold
    · rw [List.mem_singleton.mp new]
      exact fits

theorem Ranged.foldl_create (ranged : state.Ranged) {taken : List Nat}
    (fit : ∀ index ∈ taken, (index : Int) < state.roster.processes) :
    Ranged { state with roster := taken.foldl Roster.create state.roster } := by
  induction taken generalizing state with
  | nil => exact ranged
  | cons index taken ih =>
      obtain ⟨first, rest⟩ := List.forall_mem_cons.mp fit
      exact ih (ranged.create state.restartState first) rest

theorem init_ranged (processes : Nat) (maxR : Option Int) (maxT : Nat) :
    (init processes maxR maxT).Ranged := by
  have empty : Ranged ⟨⟨processes, [], 1⟩, .init processes, .init maxR maxT, true⟩ :=
    ⟨List.nodup_nil, by simp, by simp⟩
  exact empty.foldl_create fun index member => by simpa using member

theorem Ranged.repopulate (ranged : state.Ranged) (rounds i : Nat) :
    (repopulate clock exitcodes rounds i state).1.Ranged := by
  induction rounds generalizing state i with
  | zero => exact ranged
  | succ rounds ih =>
      unfold ResizedPool.repopulate
      split
      · exact ranged
      · split
        rename_i restartState exceeded counted
        split
        · exact ⟨ranged.distinct, ranged.given, ranged.inside⟩
        · split
          · exact ⟨ranged.distinct, ranged.given, ranged.inside⟩
          · rename_i index found
            exact ih (ranged.create restartState (Roster.free_of_availIndex found).2) (i + 1)

theorem Ranged.join (ranged : state.Ranged) :
    Ranged { state with roster := state.roster.joinExitedWorkers.2 } :=
  ranged.sublist (List.filter_sublist.map _) rfl fun running worker member =>
    ranged.inside running worker (List.mem_of_mem_filter member)

theorem exit_worker {roster : Roster} {pid : Nat} {code : Int} {worker : RosterWorker}
    (member : worker ∈ (roster.exit pid code).workers) (alive : worker.exitcode = none) :
    worker ∈ roster.workers := by
  obtain ⟨prior, old, same⟩ := List.mem_map.mp member
  split at same
  · rw [← same] at alive
    cases alive
  · exact same ▸ old

theorem pids_exit (roster : Roster) (pid : Nat) (code : Int) :
    (roster.exit pid code).workers.map RosterWorker.pid = roster.workers.map RosterWorker.pid := by
  unfold Roster.exit
  rw [List.map_map]
  apply List.map_congr_left
  intro worker _
  simp only [Function.comp]
  split <;> rfl

theorem Ranged.exit (ranged : state.Ranged) (pid : Nat) (code : Int) :
    Ranged { state with roster := state.roster.exit pid code } := by
  refine ranged.sublist (by rw [pids_exit]) rfl ?_
  intro running worker member alive
  exact ranged.inside running worker (exit_worker member alive) alive

theorem Ranged.exits (ranged : state.Ranged) (gone : List (Nat × Int)) :
    (state.exits gone).Ranged := by
  induction gone generalizing state with
  | nil => exact ranged
  | cons exit gone ih => exact ih (ranged.exit exit.1 exit.2)

theorem maintain_workers (state : ResizedPool) (clock : Nat → Nat) :
    ∃ added, (state.maintain clock).1.roster.workers =
        state.roster.joinExitedWorkers.2.workers ++ added ∧
      (state.maintain clock).1.roster.processes = state.roster.processes ∧
      ∀ worker ∈ added, (worker.index : Int) < state.roster.processes := by
  obtain ⟨added, workers, processes, indices, _⟩ := @repopulate_adds
    { state with roster := state.roster.joinExitedWorkers.2 } clock
    state.roster.joinExitedWorkers.1 state.roster.joinExitedWorkers.2.missing 0
  refine ⟨added, ?_, ?_, indices⟩
  · unfold ResizedPool.maintain
    simp only
    split
    · rename_i after result
      rw [result] at workers
      exact workers
    · rename_i after exit _ result
      rw [result] at workers
      exact workers
  · unfold ResizedPool.maintain
    simp only
    split
    · rename_i after result
      rw [result] at processes
      exact processes
    · rename_i after exit _ result
      rw [result] at processes
      exact processes

theorem Ranged.maintain (ranged : state.Ranged) (clock : Nat → Nat) :
    (state.maintain clock).1.Ranged := by
  have repopulated := @Ranged.repopulate _ clock state.roster.joinExitedWorkers.1 ranged.join
    state.roster.joinExitedWorkers.2.missing 0
  unfold ResizedPool.maintain
  simp only
  split
  · rename_i after result
    rw [result] at repopulated
    exact ⟨repopulated.distinct, repopulated.given, repopulated.inside⟩
  · rename_i after exit _ result
    rw [result] at repopulated
    exact ⟨repopulated.distinct, repopulated.given, nofun⟩

theorem Ranged.inRange (ranged : state.Ranged) (clock : Nat → Nat) :
    state.InRange (.resize (.maintain clock)) := by
  intro running exited worker member
  obtain ⟨added, workers, processes, indices⟩ := state.maintain_workers clock
  rw [processes]
  rw [workers] at member
  rcases List.mem_append.mp member with stays | new
  · obtain ⟨old, alive⟩ := List.mem_filter.mp stays
    have alive := Option.isNone_iff_eq_none.mp alive
    refine ranged.inside running worker old alive ?_
    by_contra told
    have gone := exited worker old (by simpa using told)
    rw [alive] at gone
    cases gone
  · exact indices worker new

theorem shrinkLoop_picks {acked : List Nat} {n : Int} {workers : List RosterWorker} {i : Nat}
    {processes : Int} {putlock : LaxBoundedSemaphore} (distinct : workers.Nodup) :
    let picked := (workers.filter fun worker => !acked.contains worker.pid).take
      (max 1 (n - i)).toNat
    ∃ left, shrinkLoop acked n i processes putlock workers =
      if picked.length ≤ putlock.value then
        some (processes - picked.length, left, workers.map fun worker =>
          if worker ∈ picked then { worker with told := true } else worker)
      else none := by
  induction workers generalizing i processes putlock with
  | nil => exact ⟨putlock, by simp [shrinkLoop]⟩
  | cons worker workers ih =>
      obtain ⟨fresh, distinct⟩ := List.nodup_cons.mp distinct
      intro picked
      cases active : acked.contains worker.pid with
      | true =>
          have same : picked = (workers.filter fun worker => !acked.contains worker.pid).take
              (max 1 (n - i)).toNat := by
            simp only [picked]
            rw [List.filter_cons_of_neg (by rw [active]; decide)]
          have other : worker ∉ picked := by
            rw [same]
            exact fun member => fresh (List.mem_of_mem_filter (List.mem_of_mem_take member))
          obtain ⟨left, rest⟩ := @ih i processes putlock distinct
          refine ⟨left, ?_⟩
          simp only [← same] at rest
          rw [shrinkLoop, if_pos active, rest, List.map_cons, if_neg other]
          split
          · rfl
          · rfl
      | false =>
          obtain ⟨more, size⟩ : ∃ more, (max 1 (n - (i : Int))).toNat = more + 1 :=
            ⟨(max 1 (n - (i : Int))).toNat - 1, by omega⟩
          have same : picked = worker :: (workers.filter fun worker =>
              !acked.contains worker.pid).take more := by
            simp only [picked]
            rw [List.filter_cons_of_pos (by rw [active]; decide), size, List.take_succ_cons]
          have others : ∀ {rest : List RosterWorker}, workers.map (fun other =>
              if other ∈ worker :: rest then { other with told := true } else other) =
                workers.map fun other =>
                  if other ∈ rest then { other with told := true } else other := by
            intro rest
            apply List.map_congr_left
            intro other member
            have different : other ≠ worker := fun equal => fresh (equal ▸ member)
            simp [different]
          rw [same, List.map_cons, if_pos List.mem_cons_self, others, List.length_cons, shrinkLoop,
            if_neg (Bool.eq_false_iff.mp active)]
          rcases Nat.eq_zero_or_pos putlock.value with none | free
          · refine ⟨putlock, ?_⟩
            rw [LaxBoundedSemaphore.shrink_of_zero none, if_neg (by omega)]
          · rw [LaxBoundedSemaphore.shrink_of_pos free]
            simp only
            have slots : ∀ {k}, k + 1 ≤ putlock.value ↔ k ≤ (putlock.lower 1).value := by
              intro k
              unfold LaxBoundedSemaphore.lower
              simp only
              omega
            split
            · obtain rfl : more = 0 := by omega
              refine ⟨putlock.lower 1, ?_⟩
              rw [List.take_zero, if_pos (by exact free)]
              simp
            · have bound : (max 1 (n - ((i + 1 : Nat) : Int))).toNat = more := by omega
              obtain ⟨left, rest⟩ := @ih (i + 1) (processes - 1) (putlock.lower 1) distinct
              rw [bound] at rest
              refine ⟨left, ?_⟩
              simp only [slots]
              rw [rest]
              split
              · simp only [Option.map_some, Option.some.injEq, Prod.mk.injEq, and_true]
                omega
              · rfl

theorem Ranged.shrink_eq (ranged : state.Ranged) (n : Int) (acked : List Nat) :
    ∃ putlock, state.shrink n acked =
      if (state.picked n acked).length ≤ state.putlock.value then
        some { state with
          roster := { state.roster with
            processes := state.roster.processes - (state.picked n acked).length
            workers := state.roster.workers.map fun worker =>
              if worker ∈ state.picked n acked then { worker with told := true } else worker }
          putlock }
      else none := by
  have spec := @shrinkLoop_picks acked n state.roster.workers 0 state.roster.processes
    state.putlock (List.Nodup.of_map _ ranged.distinct)
  have whole : n - ((0 : Nat) : Int) = n := by omega
  simp only [whole] at spec
  obtain ⟨putlock, looped⟩ := spec
  refine ⟨putlock, ?_⟩
  unfold shrink
  rw [looped]
  unfold picked
  split
  · rfl
  · rfl

theorem Ranged.grow (ranged : state.Ranged) (n : Nat) : (state.grow n).Ranged := by
  induction n generalizing state with
  | zero => exact ranged
  | succ n ih =>
      apply ih
      refine ⟨ranged.distinct, ranged.given, ?_⟩
      intro running worker member alive untold
      exact Int.lt_trans (ranged.inside running worker member alive untold) (Int.lt_succ _)

theorem pids_picked (workers picked : List RosterWorker) :
    (workers.map fun worker =>
        if worker ∈ picked then { worker with told := true } else worker).map RosterWorker.pid =
      workers.map RosterWorker.pid := by
  rw [List.map_map]
  apply List.map_congr_left
  intro worker _
  simp only [Function.comp]
  split <;> rfl

theorem Ranged.shrink (ranged : state.Ranged) {n : Int} {acked : List Nat}
    (orderly : state.Orderly (.resize (.shrink n acked)))
    (taken : state.shrink n acked = some next) : next.Ranged := by
  obtain ⟨putlock, shrunk⟩ := ranged.shrink_eq n acked
  rw [shrunk] at taken
  obtain ⟨slots, same⟩ := Option.ite_none_right_eq_some.mp taken
  cases same
  refine ranged.sublist ?_ rfl ?_
  · rw [pids_picked]
  · intro running worker member alive untold
    obtain ⟨prior, old, same⟩ := List.mem_map.mp member
    split at same
    · rw [← same] at untold
      cases untold
    · rename_i other
      subst same
      exact orderly running slots prior old alive untold other

theorem Ranged.call {label : PoolCall} (ranged : state.Ranged) (orderly : state.Orderly label)
    (taken : state.call label = some next) : next.Ranged := by
  cases label with
  | reap =>
      cases taken
      exact ranged.join
  | repopulate clock exitcodes =>
      cases taken
      exact ranged.repopulate _ _
  | resize label =>
      cases label with
      | grow n =>
          cases taken
          exact ranged.grow n
      | shrink n acked => exact ranged.shrink orderly taken
      | exit pid code =>
          cases taken
          exact ranged.exit pid code
      | acquire =>
          obtain ⟨putlock, _, rfl⟩ := Option.map_eq_some_iff.mp taken
          exact ⟨ranged.distinct, ranged.given, ranged.inside⟩
      | release =>
          cases taken
          exact ⟨ranged.distinct, ranged.given, ranged.inside⟩
      | maintain clock =>
          obtain ⟨_, rfl⟩ := (Option.ite_none_right_eq_some.mp taken).imp_right Option.some.inj
          exact ranged.maintain clock

theorem exits_processes (gone : List (Nat × Int)) :
    (state.exits gone).roster.processes = state.roster.processes := by
  induction gone generalizing state with
  | nil => rfl
  | cons exit gone ih => exact @ih { state with roster := state.roster.exit exit.1 exit.2 }

theorem alive_exits {gone : List (Nat × Int)} {worker : RosterWorker}
    (alive : worker.exitcode = none) :
    worker ∈ (state.exits gone).roster.workers ↔
      worker ∈ state.roster.workers ∧ worker.pid ∉ gone.map Prod.fst := by
  induction gone generalizing state with
  | nil => simp [exits]
  | cons exit gone ih =>
      have one : worker ∈ (state.roster.exit exit.1 exit.2).workers ↔
          worker ∈ state.roster.workers ∧ worker.pid ≠ exit.1 := by
        constructor
        · intro member
          refine ⟨exit_worker member alive, ?_⟩
          intro same
          obtain ⟨prior, old, turned⟩ := List.mem_map.mp member
          split at turned
          · rw [← turned] at alive
            cases alive
          · rename_i other
            rw [turned, same, alive] at other
            simp at other
        · intro ⟨member, different⟩
          refine List.mem_map.mpr ⟨worker, member, if_neg ?_⟩
          simp [different]
      refine (@ih { state with roster := state.roster.exit exit.1 exit.2 }).trans ?_
      rw [one, List.map_cons, List.mem_cons, not_or, and_assoc]

/-- What a call that is not orderly leaves is out of range once the workers that were told to end
have exited. -/
theorem Ranged.orderly (ranged : state.Ranged) {n : Int} {acked : List Nat}
    (stays : state.StaysInRange (.resize (.shrink n acked))) :
    state.Orderly (.resize (.shrink n acked)) := by
  intro running slots worker old alive untold other
  obtain ⟨putlock, shrunk⟩ := ranged.shrink_eq n acked
  rw [if_pos slots] at shrunk
  generalize after : ({ state with
    roster := { state.roster with
      processes := state.roster.processes - (state.picked n acked).length
      workers := state.roster.workers.map fun worker =>
        if worker ∈ state.picked n acked then { worker with told := true } else worker }
    putlock } : ResizedPool) = next at shrunk
  have kept : worker ∈ next.roster.workers := by
    rw [← after]
    exact List.mem_map.mpr ⟨worker, old, if_neg other⟩
  have distinct : (next.roster.workers.map RosterWorker.pid).Nodup := by
    rw [← after, pids_picked]
    exact ranged.distinct
  let gone : List (Nat × Int) :=
    (next.roster.workers.filter RosterWorker.told).map fun worker => (worker.pid, 0)
  have mem_gone : ∀ pid, pid ∈ gone.map Prod.fst ↔
      ∃ worker ∈ next.roster.workers, worker.told = true ∧ worker.pid = pid := by
    simp [gone, and_assoc]
  have inRange := stays.soon next shrunk gone (fun _ => 0) (by rw [← after]; exact running)
  have last : worker ∈ (next.exits gone).roster.workers := by
    refine (alive_exits alive).mpr ⟨kept, ?_⟩
    rw [mem_gone]
    intro ⟨told, member, ends, same⟩
    have equal := List.inj_on_of_nodup_map distinct member kept same
    rw [equal, untold] at ends
    cases ends
  have exited : ∀ worker ∈ (next.exits gone).roster.workers, worker.told = true →
      worker.exitcode.isSome = true := by
    intro worker member told
    by_contra alive
    have alive : worker.exitcode = none := by simpa using alive
    obtain ⟨member, stays⟩ := (alive_exits alive).mp member
    exact stays ((mem_gone worker.pid).mpr ⟨worker, member, told, rfl⟩)
  obtain ⟨added, workers, processes, _⟩ := (next.exits gone).maintain_workers fun _ => 0
  have bound := inRange exited worker (by
    rw [workers]
    exact List.mem_append_left _ (List.mem_filter.mpr ⟨last, by simp [alive]⟩))
  rw [processes, exits_processes, ← after] at bound
  exact bound

theorem Ranged.stays_iff (label : PoolCall) (ranged : state.Ranged) :
    state.StaysInRange label ↔ state.Orderly label := by
  constructor
  · intro stays
    cases label with
    | reap | repopulate => exact True.intro
    | resize label =>
        cases label with
        | shrink n acked => exact ranged.orderly stays
        | grow | exit | acquire | release | maintain => exact True.intro
  · intro orderly
    constructor
    · cases label with
      | reap | repopulate => exact True.intro
      | resize label =>
          cases label with
          | maintain clock => exact ranged.inRange clock
          | grow | shrink | exit | acquire | release => exact True.intro
    · intro next taken gone clock
      exact ((ranged.call orderly taken).exits gone).inRange clock

/-- The indices stay in range, however workers exit later on, exactly if each `shrink` tells those
workers to end whose indices are too large for the smaller pool. -/
theorem staysInRange_iff (processes : Nat) (maxR : Option Int) (maxT : Nat)
    (labels : List PoolCall) :
    Along call StaysInRange (init processes maxR maxT) labels ↔
      Along call Orderly (init processes maxR maxT) labels := by
  have kept : Preserves call Orderly Ranged :=
    fun _ _ _ ranged orderly taken => ranged.call orderly taken
  refine along_congr kept ?_ (init_ranged processes maxR maxT)
  intro state label ranged
  exact ranged.stays_iff label

/-- `shrink` picks the first of three workers, and the last one keeps its index. -/
theorem not_inRange :
    ∃ state, Transition.run call (init 3 none 1) [.resize (.shrink 1 []), .resize (.exit 1 0)] =
        some state ∧
      (state.maintain fun _ => 0).1.roster.indices = [1, 2] ∧
      (state.maintain fun _ => 0).1.roster.processes = 2 ∧
      ¬Along call StaysInRange (init 3 none 1) [.resize (.shrink 1 []), .resize (.exit 1 0),
        .resize (.maintain fun _ => 0)] := by
  refine ⟨_, rfl, rfl, rfl, ?_⟩
  intro along
  have ran : run call (init 3 none 1) [.resize (.shrink 1 []), .resize (.exit 1 0)] = some _ := rfl
  have last := (along_append ran along).1.now
  exact absurd (last rfl (by decide)) (by decide)

end ResizedPool

end Billiard
