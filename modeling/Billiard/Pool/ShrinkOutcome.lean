import Billiard.Pool.Resize

/-! How a call of `shrink` ends, and what it has done by then. -/

namespace Billiard

/-- `waits` is the end of a call that finds no slot in `_putlock`. -/
inductive ShrinkExit where
  | done
  | valueError
  | waits
deriving DecidableEq, Repr

/-- `terminated` are the places in `_pool` of the workers that were told to end. -/
structure Shrunk where
  processes : Int
  putlock : Option LaxBoundedSemaphore
  workers : List RosterWorker
  terminated : List Nat
  exit : ShrinkExit
deriving DecidableEq, Repr

namespace LaxBoundedSemaphore

def lower (putlock : LaxBoundedSemaphore) (n : Nat) : LaxBoundedSemaphore :=
  ⟨putlock.value - n, putlock.initialValue - n⟩

theorem shrink_of_zero {putlock : LaxBoundedSemaphore} (none : putlock.value = 0) :
    putlock.shrink = Option.none := by
  simp [shrink, acquire, none]

theorem shrink_of_pos {putlock : LaxBoundedSemaphore} (free : 1 ≤ putlock.value) :
    putlock.shrink = some (putlock.lower 1) := by
  obtain ⟨value, same⟩ := Nat.exists_eq_succ_of_ne_zero (Nat.ne_of_gt free)
  simp [shrink, acquire, same, lower]

end LaxBoundedSemaphore

namespace Shrunk

def keep (worker : RosterWorker) (result : Shrunk) : Shrunk :=
  { result with workers := worker :: result.workers }

/-- `worker.terminate_controlled()` -/
def tell (place : Nat) (worker : RosterWorker) (result : Shrunk) : Shrunk :=
  { result with
    workers := { worker with told := true } :: result.workers
    terminated := place :: result.terminated }

/-- The loop of `shrink` from the worker at `place` on, after `i` workers were told. -/
def loop (acked : List Nat) (n : Int) (i place : Nat) (processes : Int)
    (putlock : Option LaxBoundedSemaphore) : List RosterWorker → Shrunk
  | [] => ⟨processes, putlock, [], [], .valueError⟩
  | worker :: workers =>
      if acked.contains worker.pid then
        (loop acked n i (place + 1) processes putlock workers).keep worker
      else
        match putlock.map LaxBoundedSemaphore.shrink with
        | some none =>
            let putlock := putlock.map fun putlock =>
              { putlock with initialValue := putlock.initialValue - 1 }
            ⟨processes - 1, putlock, worker :: workers, [], .waits⟩
        | lowered =>
            if (i : Int) ≥ n - 1 then
              Shrunk.tell place worker ⟨processes - 1, lowered.join, workers, [], .done⟩
            else
              (loop acked n (i + 1) (place + 1) (processes - 1) lowered.join workers).tell place
                worker

/-- `shrink` of a pool that may have been made without `putlocks`. -/
def call (roster : Roster) (putlock : Option LaxBoundedSemaphore) (n : Int) (acked : List Nat) :
    Shrunk :=
  loop acked n 0 0 roster.processes putlock roster.workers

/-- The inactive workers with their places. -/
def idle (acked : List Nat) : Nat → List RosterWorker → List (Nat × RosterWorker)
  | _, [] => []
  | place, worker :: workers =>
      if acked.contains worker.pid then idle acked (place + 1) workers
      else (place, worker) :: idle acked (place + 1) workers

def Spare (putlock : Option LaxBoundedSemaphore) (n : Nat) : Prop :=
  ∀ semaphore ∈ putlock, n ≤ semaphore.value

/-- All of it is done, to workers that are inactive and were not told before. -/
structure Whole (roster : Roster) (putlock : Option LaxBoundedSemaphore) (n : Nat)
    (acked : List Nat) (result : Shrunk) : Prop where
  exit : result.exit = .done
  length : result.terminated.length = n
  distinct : result.terminated.Nodup
  inactive : ∀ place ∈ result.terminated, ∃ worker, roster.workers[place]? = some worker ∧
    acked.contains worker.pid = false ∧ worker.told = false
  workers : ∀ place : Nat, result.workers[place]? = roster.workers[place]?.map fun worker =>
    if place ∈ result.terminated then { worker with told := true } else worker
  processes : result.processes = roster.processes - n
  putlock : result.putlock = putlock.map fun semaphore => semaphore.lower n

structure Refused (roster : Roster) (putlock : Option LaxBoundedSemaphore) (result : Shrunk) :
    Prop where
  exit : result.exit = .valueError
  processes : result.processes = roster.processes
  putlock : result.putlock = putlock
  workers : result.workers = roster.workers

def AllOrNothing (roster : Roster) (putlock : Option LaxBoundedSemaphore) (n : Nat)
    (acked : List Nat) : Prop :=
  Whole roster putlock n acked (call roster putlock n acked) ∨
    Refused roster putlock (call roster putlock n acked)

/-- There is nobody to end, or there are enough workers of which the first ones were not told to
end, and as many slots. -/
def Possible (roster : Roster) (putlock : Option LaxBoundedSemaphore) (n : Nat)
    (acked : List Nat) : Prop :=
  let inactive := roster.workers.filter fun worker => !acked.contains worker.pid
  inactive = [] ∨
    n ≤ inactive.length ∧ (∀ worker ∈ inactive.take n, worker.told = false) ∧ Spare putlock n

variable {acked : List Nat} {n : Int} {i place k : Nat} {processes : Int}
  {putlock : Option LaxBoundedSemaphore} {worker : RosterWorker} {workers : List RosterWorker}

theorem spare_zero : Spare putlock 0 := fun _ _ => Nat.zero_le _

theorem spare_lower (one : Spare putlock 1) :
    Spare (putlock.map fun semaphore => semaphore.lower 1) k ↔ Spare putlock (k + 1) := by
  cases putlock with
  | none => simp [Spare]
  | some semaphore =>
      have free := one semaphore rfl
      simp only [Spare, Option.map_some, Option.mem_def, Option.some.injEq, forall_eq',
        LaxBoundedSemaphore.lower]
      omega

theorem lower_lower :
    (putlock.map fun semaphore => semaphore.lower 1).map (fun semaphore => semaphore.lower k) =
      putlock.map fun semaphore => semaphore.lower (k + 1) := by
  rw [Option.map_map]
  congr 1
  funext semaphore
  simp only [Function.comp, LaxBoundedSemaphore.lower, LaxBoundedSemaphore.mk.injEq]
  omega

theorem loop_active (active : acked.contains worker.pid = true) :
    loop acked n i place processes putlock (worker :: workers) =
      (loop acked n i (place + 1) processes putlock workers).keep worker := by
  rw [loop, if_pos active]

theorem loop_waits (inactive : acked.contains worker.pid = false) (full : ¬Spare putlock 1) :
    (loop acked n i place processes putlock (worker :: workers)).exit = .waits := by
  obtain ⟨semaphore, rfl, none⟩ : ∃ semaphore, putlock = some semaphore ∧ semaphore.value = 0 := by
    simpa [Spare] using full
  rw [loop, if_neg (Bool.eq_false_iff.mp inactive)]
  simp [LaxBoundedSemaphore.shrink_of_zero none]

theorem loop_tells (inactive : acked.contains worker.pid = false) (free : Spare putlock 1) :
    loop acked n i place processes putlock (worker :: workers) =
      tell place worker (if (i : Int) ≥ n - 1 then
          ⟨processes - 1, putlock.map fun semaphore => semaphore.lower 1, workers, [], .done⟩
        else loop acked n (i + 1) (place + 1) (processes - 1)
          (putlock.map fun semaphore => semaphore.lower 1) workers) := by
  rw [loop, if_neg (Bool.eq_false_iff.mp inactive)]
  cases putlock with
  | none =>
      simp only [Option.map_none, Option.join_none]
      split
      · rfl
      · rfl
  | some semaphore =>
      have taken := LaxBoundedSemaphore.shrink_of_pos (free semaphore rfl)
      simp only [Option.map_some, taken, Option.join_some]
      split
      · rfl
      · rfl

theorem le_of_mem_idle {entry : Nat × RosterWorker} (member : entry ∈ idle acked place workers) :
    place ≤ entry.1 := by
  induction workers generalizing place with
  | nil => cases member
  | cons worker workers ih =>
      unfold idle at member
      split at member
      · exact Nat.le_of_succ_le (ih member)
      · rcases List.mem_cons.mp member with rfl | member
        · exact Nat.le_refl _
        · exact Nat.le_of_succ_le (ih member)

/-- What the loop has done when it did not have to wait. -/
structure Chosen (place : Nat) (processes : Int) (putlock : Option LaxBoundedSemaphore)
    (workers : List RosterWorker) (chosen : List (Nat × RosterWorker)) (result : Shrunk) :
    Prop where
  terminated : result.terminated = chosen.map Prod.fst
  processes : result.processes = processes - chosen.length
  putlock : result.putlock = putlock.map fun semaphore => semaphore.lower chosen.length
  workers : ∀ j : Nat, result.workers[j]? = workers[j]?.map fun worker =>
    if place + j ∈ result.terminated then { worker with told := true } else worker

theorem Chosen.keep {chosen : List (Nat × RosterWorker)} {result : Shrunk}
    (done : Chosen (place + 1) processes putlock workers chosen result)
    (later : ∀ entry ∈ chosen, place < entry.1) :
    Chosen place processes putlock (worker :: workers) chosen (result.keep worker) := by
  refine { done with workers := ?_ }
  have other : place ∉ result.terminated := by
    rw [done.terminated]
    intro listed
    obtain ⟨entry, member, same⟩ := List.mem_map.mp listed
    exact absurd (later entry member) (same ▸ Nat.lt_irrefl _)
  intro j
  cases j with
  | zero => simp [Shrunk.keep, other]
  | succ j =>
      have rest := done.workers j
      rw [Nat.succ_add_eq_add_succ] at rest
      exact rest

theorem Chosen.tell {chosen : List (Nat × RosterWorker)} {result : Shrunk}
    (done : Chosen (place + 1) (processes - 1)
      (putlock.map fun semaphore => semaphore.lower 1) workers chosen result) :
    Chosen place processes putlock (worker :: workers) ((place, worker) :: chosen)
      (result.tell place worker) where
  terminated := congrArg (place :: ·) done.terminated
  processes := by
    rw [List.length_cons]
    exact done.processes.trans (by omega)
  putlock := done.putlock.trans lower_lower
  workers := by
    intro j
    cases j with
    | zero => simp [Shrunk.tell]
    | succ j =>
        have rest := done.workers j
        rw [Nat.succ_add_eq_add_succ] at rest
        have after : place + (j + 1) ≠ place := by omega
        simpa [Shrunk.tell, after] using rest

theorem chosen_nil (exit : ShrinkExit) :
    Chosen place processes putlock workers [] ⟨processes, putlock, workers, [], exit⟩ where
  terminated := rfl
  processes := by simp
  putlock := by simp [LaxBoundedSemaphore.lower]
  workers := by simp

/-- With `k + 1` workers still to be told the loop tells the first ones that are idle, and waits if
there are not as many slots. -/
theorem loop_spec (left : n = i + (k + 1)) :
    let chosen := (idle acked place workers).take (k + 1)
    let result := loop acked n i place processes putlock workers
    (Spare putlock chosen.length → Chosen place processes putlock workers chosen result ∧
        result.exit =
          if k + 1 ≤ (idle acked place workers).length then .done else .valueError) ∧
      (¬Spare putlock chosen.length → result.exit = .waits) := by
  induction workers generalizing i place processes putlock k with
  | nil =>
      exact ⟨fun _ => ⟨chosen_nil _, rfl⟩, fun full => absurd spare_zero full⟩
  | cons worker workers ih =>
      intro chosen result
      cases active : acked.contains worker.pid with
      | true =>
          have same : idle acked place (worker :: workers) = idle acked (place + 1) workers := by
            rw [idle, if_pos active]
          have rest := @ih i (place + 1) k processes putlock left
          simp only [chosen, result, same, loop_active active]
          refine ⟨fun spare => ?_, rest.2⟩
          obtain ⟨done, exit⟩ := rest.1 spare
          refine ⟨done.keep fun entry member => ?_, exit⟩
          exact le_of_mem_idle (List.mem_of_mem_take member)
      | false =>
          have same : idle acked place (worker :: workers) =
              (place, worker) :: idle acked (place + 1) workers := by
            rw [idle, if_neg (Bool.eq_false_iff.mp active)]
          simp only [chosen, result, same, List.take_succ_cons, List.length_cons]
          by_cases free : Spare putlock 1
          · rw [loop_tells active free, ← spare_lower free]
            cases k with
            | zero =>
                rw [if_pos (by omega), List.take_zero]
                exact ⟨fun _ => ⟨(chosen_nil _).tell, by simp [tell]⟩,
                  fun full => absurd spare_zero full⟩
            | succ k =>
                rw [if_neg (by omega)]
                have rest := @ih (i + 1) (place + 1) k (processes - 1)
                  (putlock.map fun semaphore => semaphore.lower 1) (by omega)
                refine ⟨fun spare => ?_, rest.2⟩
                obtain ⟨done, exit⟩ := rest.1 spare
                refine ⟨done.tell, exit.trans ?_⟩
                simp only [Nat.succ_le_succ_iff]
          · refine ⟨fun spare => ?_, fun _ => loop_waits active free⟩
            exact absurd (fun semaphore listed => by have := spare semaphore listed; omega) free

theorem map_snd_idle (acked : List Nat) (place : Nat) (workers : List RosterWorker) :
    (idle acked place workers).map Prod.snd =
      workers.filter fun worker => !acked.contains worker.pid := by
  induction workers generalizing place with
  | nil => rfl
  | cons worker workers ih =>
      unfold idle
      cases active : acked.contains worker.pid with
      | true => rw [if_pos rfl, List.filter_cons_of_neg (by rw [active]; decide), ih]
      | false =>
          rw [if_neg (by decide), List.filter_cons_of_pos (by rw [active]; decide), List.map_cons,
            ih]

theorem length_idle :
    (workers.filter fun worker => !acked.contains worker.pid).length =
      (idle acked place workers).length := by
  rw [← map_snd_idle acked place, List.length_map]

theorem getElem?_of_mem_idle {entry : Nat × RosterWorker}
    (member : entry ∈ idle acked place workers) :
    ∃ j, entry.1 = place + j ∧ workers[j]? = some entry.2 ∧ acked.contains entry.2.pid = false := by
  induction workers generalizing place with
  | nil => cases member
  | cons worker workers ih =>
      unfold idle at member
      split at member
      · obtain ⟨j, here, found, inactive⟩ := ih member
        exact ⟨j + 1, by omega, found, inactive⟩
      · rename_i inactive
        rcases List.mem_cons.mp member with rfl | member
        · exact ⟨0, rfl, rfl, Bool.eq_false_iff.mpr inactive⟩
        · obtain ⟨j, here, found, other⟩ := ih member
          exact ⟨j + 1, by omega, found, other⟩

theorem nodup_idle (acked : List Nat) (place : Nat) (workers : List RosterWorker) :
    ((idle acked place workers).map Prod.fst).Nodup := by
  induction workers generalizing place with
  | nil => exact List.nodup_nil
  | cons worker workers ih =>
      unfold idle
      split
      · exact ih (place + 1)
      · refine List.nodup_cons.mpr ⟨?_, ih (place + 1)⟩
        intro listed
        obtain ⟨entry, member, same⟩ := List.mem_map.mp listed
        have later := le_of_mem_idle member
        omega

variable {roster : Roster} {count : Nat}

theorem whole_of_possible
    (enough : count ≤ (roster.workers.filter fun worker => !acked.contains worker.pid).length)
    (untold : ∀ worker ∈ (roster.workers.filter fun worker =>
      !acked.contains worker.pid).take count, worker.told = false)
    (spare : Spare putlock count) (positive : 1 ≤ count) :
    Whole roster putlock count acked (call roster putlock count acked) := by
  obtain ⟨k, rfl⟩ : ∃ k, count = k + 1 := ⟨count - 1, by omega⟩
  rw [@length_idle acked 0] at enough
  rw [← map_snd_idle acked 0, ← List.map_take] at untold
  have length : ((idle acked 0 roster.workers).take (k + 1)).length = k + 1 :=
    List.length_take_of_le enough
  have spec := (@loop_spec acked ((k + 1 : Nat) : Int) 0 0 k roster.processes putlock
    roster.workers (by omega)).1
  rw [length] at spec
  obtain ⟨done, exit⟩ := spec spare
  have terminated := done.terminated
  refine ⟨?_, ?_, ?_, ?_, ?_, ?_, ?_⟩
  · exact exit.trans (if_pos enough)
  · exact (congrArg List.length terminated).trans ((List.length_map _).trans length)
  · have sublist := (List.take_sublist (k + 1) (idle acked 0 roster.workers)).map Prod.fst
    exact terminated ▸ (nodup_idle acked 0 roster.workers).sublist sublist
  · intro place listed
    obtain ⟨entry, member, rfl⟩ := List.mem_map.mp (terminated ▸ listed)
    obtain ⟨j, here, found, inactive⟩ := getElem?_of_mem_idle (List.mem_of_mem_take member)
    rw [Nat.zero_add] at here
    exact ⟨entry.2, here ▸ found, inactive, untold _ (List.mem_map_of_mem member)⟩
  · intro place
    have told := done.workers place
    rwa [Nat.zero_add] at told
  · exact done.processes.trans (by rw [length])
  · exact done.putlock.trans (by rw [length])

theorem Whole.possible {result : Shrunk} (whole : Whole roster putlock count acked result)
    (done : Chosen 0 roster.processes putlock roster.workers
      ((idle acked 0 roster.workers).take count) result)
    (enough : count ≤ (idle acked 0 roster.workers).length)
    (spare : Spare putlock ((idle acked 0 roster.workers).take count).length) :
    Possible roster putlock count acked := by
  rw [List.length_take_of_le enough] at spare
  rw [← @length_idle acked 0] at enough
  refine .inr ⟨enough, ?_, spare⟩
  rw [← map_snd_idle acked 0, ← List.map_take]
  intro worker listed
  obtain ⟨entry, member, rfl⟩ := List.mem_map.mp listed
  have told : entry.1 ∈ result.terminated := by
    rw [done.terminated]
    exact List.mem_map_of_mem member
  obtain ⟨j, here, found, _⟩ := getElem?_of_mem_idle (List.mem_of_mem_take member)
  rw [Nat.zero_add] at here
  obtain ⟨other, same, _, untold⟩ := whole.inactive _ told
  rw [here, found] at same
  cases same
  exact untold

theorem refused_of_chosen_nil {result : Shrunk} (exit : result.exit = .valueError)
    (done : Chosen 0 roster.processes putlock roster.workers [] result) :
    Refused roster putlock result where
  exit := exit
  processes := done.processes.trans (by simp)
  putlock := done.putlock.trans (by simp [LaxBoundedSemaphore.lower])
  workers := by
    refine List.ext_getElem? fun place => (done.workers place).trans ?_
    rw [done.terminated]
    simp

/-- `shrink` does all of it or nothing exactly if there is nobody to end at all, or if there are
enough workers, none of them told before, and a slot for each. -/
theorem allOrNothing_iff (roster : Roster) (putlock : Option LaxBoundedSemaphore)
    (acked : List Nat) (positive : 1 ≤ count) :
    AllOrNothing roster putlock count acked ↔ Possible roster putlock count acked := by
  obtain ⟨k, rfl⟩ : ∃ k, count = k + 1 := ⟨count - 1, by omega⟩
  have spec := @loop_spec acked ((k + 1 : Nat) : Int) 0 0 k roster.processes putlock
    roster.workers (by omega)
  constructor
  · intro ended
    have spare : Spare putlock ((idle acked 0 roster.workers).take (k + 1)).length := by
      by_contra full
      have waits : (call roster putlock (k + 1 : Nat) acked).exit = .waits := spec.2 full
      rcases ended with whole | refused
      · cases waits.symm.trans whole.exit
      · cases waits.symm.trans refused.exit
    obtain ⟨done, exit⟩ := spec.1 spare
    rcases ended with whole | refused
    · have enough : k + 1 ≤ (idle acked 0 roster.workers).length := by
        by_contra few
        rw [if_neg few] at exit
        cases whole.exit.symm.trans exit
      exact whole.possible done enough spare
    · have few : ¬k + 1 ≤ (idle acked 0 roster.workers).length := by
        intro enough
        rw [if_pos enough] at exit
        cases refused.exit.symm.trans exit
      have same := refused.processes.symm.trans done.processes
      rw [List.length_take] at same
      have nobody : (idle acked 0 roster.workers).length = 0 := by omega
      rw [← @length_idle acked 0] at nobody
      exact .inl (List.eq_nil_of_length_eq_zero nobody)
  · rintro (none | ⟨enough, untold, spare⟩)
    · have nobody := congrArg List.length none
      rw [@length_idle acked 0] at nobody
      rw [List.eq_nil_of_length_eq_zero nobody] at spec
      obtain ⟨done, exit⟩ := spec.1 spare_zero
      exact .inr (refused_of_chosen_nil exit done)
    · exact .inl (whole_of_possible enough untold spare positive)

theorem allOrNothing_of_three : AllOrNothing (.init 3) (some (.init 3)) 2 [2] := by
  refine (allOrNothing_iff _ _ _ (by decide)).mpr (.inr ⟨by decide, by decide, ?_⟩)
  rintro _ ⟨⟩
  decide

/-- One of two workers is inactive: it is told to end before there is the `ValueError`.  And a
worker is told again by the next call. -/
theorem not_allOrNothing :
    call (.init 2) (some (.init 2)) 2 [2] =
        ⟨1, some ⟨1, 1⟩, [⟨1, 0, none, true⟩, ⟨2, 1, none, false⟩], [0], .valueError⟩ ∧
      ¬AllOrNothing (.init 2) (some (.init 2)) 2 [2] ∧
      (call ⟨1, [⟨1, 0, none, true⟩, ⟨2, 1, none, false⟩], 3⟩ (some (.init 1)) 1 []).terminated =
        [0] ∧
      ¬AllOrNothing ⟨1, [⟨1, 0, none, true⟩, ⟨2, 1, none, false⟩], 3⟩ (some (.init 1)) 1 [] := by
  refine ⟨rfl, ?_, rfl, ?_⟩
  · rintro (whole | refused)
    · cases whole.exit
    · cases refused.processes
  · rintro (whole | refused)
    · obtain ⟨worker, found, _, untold⟩ := whole.inactive 0 (by decide)
      cases found
      cases untold
    · cases refused.exit

/-- What a call has changed; there is nothing to say of one that waits. -/
def outcome (result : Shrunk) : Option (Int × Option LaxBoundedSemaphore × List RosterWorker) :=
  if result.exit = .waits then none
  else some (result.processes, result.putlock, result.workers)

theorem outcome_keep (worker : RosterWorker) (result : Shrunk) :
    (result.keep worker).outcome = result.outcome.map fun (processes, putlock, workers) =>
      (processes, putlock, worker :: workers) := by
  unfold outcome
  by_cases waits : result.exit = .waits
  · simp [keep, waits]
  · simp [keep, waits]

theorem outcome_tell (place : Nat) (worker : RosterWorker) (result : Shrunk) :
    (result.tell place worker).outcome = result.outcome.map fun (processes, putlock, workers) =>
      (processes, putlock, { worker with told := true } :: workers) := by
  unfold outcome
  by_cases waits : result.exit = .waits
  · simp [tell, waits]
  · simp [tell, waits]

/-- This is the `shrink` of a pool with `putlocks`. -/
theorem shrinkLoop_eq (acked : List Nat) (n : Int) (i place : Nat) (processes : Int)
    (putlock : LaxBoundedSemaphore) (workers : List RosterWorker) :
    (ResizedPool.shrinkLoop acked n i processes putlock workers).map
        (fun (processes, putlock, workers) => (processes, some putlock, workers)) =
      (loop acked n i place processes (some putlock) workers).outcome := by
  induction workers generalizing i place processes putlock with
  | nil => rfl
  | cons worker workers ih =>
      unfold ResizedPool.shrinkLoop
      cases active : acked.contains worker.pid with
      | true =>
          rw [if_pos rfl, loop_active active, outcome_keep, ← ih i (place + 1), Option.map_map,
            Option.map_map]
          rfl
      | false =>
          rw [if_neg (by decide)]
          by_cases free : Spare (some putlock) 1
          · rw [LaxBoundedSemaphore.shrink_of_pos (free putlock rfl), loop_tells active free,
              outcome_tell]
            simp only
            split
            · rfl
            · rw [Option.map_some, ← ih (i + 1) (place + 1), Option.map_map, Option.map_map]
              rfl
          · have none : putlock.value = 0 := by simpa [Spare] using free
            rw [LaxBoundedSemaphore.shrink_of_zero none]
            exact (if_pos (loop_waits active free)).symm

end Shrunk

end Billiard
