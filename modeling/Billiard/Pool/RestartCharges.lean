import Billiard.Pool.Resize

/-! The restarts that `_repopulate_pool` charges to the limiter. -/

namespace Billiard

namespace Roster

/-- The status of a worker that is neither `EX_OK` nor `EX_RECYCLE`. -/
def crashed (code : Int) : Bool := code ≠ (exOk : Int) && code ≠ (exRecycle : Int)

theorem counts_of_some {exitcodes : List Int} {i : Nat} {code : Int}
    (found : exitcodes[i]? = some code) : counts exitcodes i = crashed code := by
  obtain ⟨inside, _⟩ := List.getElem?_eq_some_iff.mp found
  have some : exitcodes ≠ [] := List.ne_nil_of_length_pos (Nat.zero_lt_of_lt inside)
  simp [counts, crashed, found, some]

theorem counts_of_none {exitcodes : List Int} {i : Nat} (some : exitcodes ≠ [])
    (missing : exitcodes[i]? = none) : counts exitcodes i = true := by
  simp [counts, missing, some]

theorem missing_create (roster : Roster) (index : Nat) :
    (roster.create index).missing = roster.missing - 1 := by
  unfold missing
  rw [length_create]
  simp only [create]
  omega

theorem availIndex_of_missing {roster : Roster} {rounds : Nat}
    (room : rounds + 1 ≤ roster.missing) : ∃ index, roster.availIndex = some index := by
  refine availIndex_of_lt ?_
  unfold missing at room
  omega

theorem length_joinExitedWorkers (roster : Roster) :
    roster.joinExitedWorkers.1.length + roster.joinExitedWorkers.2.workers.length =
      roster.workers.length := by
  unfold joinExitedWorkers
  simp only [List.length_reverse]
  induction roster.workers with
  | nil => rfl
  | cons worker workers ih =>
      cases gone : worker.exitcode with
      | none =>
          rw [List.filterMap_cons_none gone, List.filter_cons_of_pos (by simp [gone])]
          simp only [List.length_cons]
          omega
      | some code =>
          rw [List.filterMap_cons_some gone, List.filter_cons_of_neg (by simp [gone])]
          simp only [List.length_cons]
          omega

end Roster

namespace RestartState

/-- The limiter raises for one of these exit codes, the first of which is that of round `i`. -/
def exhausts (clock : Nat → Nat) : Nat → List Int → RestartState → Bool
  | _, [], _ => false
  | i, code :: exitcodes, limiter =>
      if Roster.crashed code then
        let (limiter, exceeded) := limiter.step (clock i)
        exceeded || exhausts clock (i + 1) exitcodes limiter
      else exhausts clock (i + 1) exitcodes limiter

end RestartState

namespace ResizedPool

/-- `repopulate` with the rounds in which it calls `restart_state.step()`. -/
def repopulateCharging (clock : Nat → Nat) (exitcodes : List Int) :
    Nat → Nat → ResizedPool → (ResizedPool × MaintainExit) × List Nat
  | 0, _, state => ((state, .done), [])
  | rounds + 1, i, state =>
      if !state.running then ((state, .done), [])
      else
        let charged := if Roster.counts exitcodes i then [i] else []
        let (restartState, exceeded) :=
          if Roster.counts exitcodes i then state.restartState.step (clock i)
          else (state.restartState, false)
        if exceeded then (({ state with restartState }, .raised), charged)
        else
          match state.roster.availIndex with
          | none => (({ state with restartState }, .failed), charged)
          | some index =>
              let result := repopulateCharging clock exitcodes rounds (i + 1)
                { state with restartState, roster := state.roster.create index }
              (result.1, charged ++ result.2)

def charges (clock : Nat → Nat) (state : ResizedPool) : List Nat :=
  let (exitcodes, roster) := state.roster.joinExitedWorkers
  (repopulateCharging clock exitcodes roster.missing 0 { state with roster }).2

/-- Each charge is for a worker of its own, one that was reaped in this pass and has crashed. -/
structure ChargesCrashes (state : ResizedPool) (clock : Nat → Nat) : Prop where
  once : (state.charges clock).Nodup
  crashed : ∀ i ∈ state.charges clock, ∃ code,
    state.roster.joinExitedWorkers.1[i]? = some code ∧ Roster.crashed code = true

/-- No pass starts more workers than it has reaped, unless it ends before that. -/
def Replaces (state : ResizedPool) (clock : Nat → Nat) : Prop :=
  state.running = false ∨ state.roster.joinExitedWorkers.1 = [] ∨
    state.roster.processes ≤ state.roster.workers.length ∨
    state.restartState.exhausts clock 0 state.roster.joinExitedWorkers.1 = true

instance (state : ResizedPool) (clock : Nat → Nat) : Decidable (state.Replaces clock) :=
  inferInstanceAs (Decidable (_ ∨ _ ∨ _ ∨ _))

variable {state : ResizedPool} {clock : Nat → Nat} {exitcodes : List Int}

theorem repopulateCharging_fst (clock : Nat → Nat) (exitcodes : List Int) (rounds i : Nat)
    (state : ResizedPool) :
    (repopulateCharging clock exitcodes rounds i state).1 =
      repopulate clock exitcodes rounds i state := by
  induction rounds generalizing state i with
  | zero => rfl
  | succ rounds ih =>
      unfold repopulateCharging repopulate
      generalize (if Roster.counts exitcodes i then state.restartState.step (clock i)
        else (state.restartState, false)) = counted
      obtain ⟨restartState, exceeded⟩ := counted
      cases state.running with
      | false => rfl
      | true =>
          cases exceeded with
          | true => rfl
          | false =>
              cases state.roster.availIndex with
              | none => rfl
              | some index => exact ih ..

theorem charges_from (rounds i : Nat) :
    (repopulateCharging clock exitcodes rounds i state).2.Nodup ∧
      ∀ j ∈ (repopulateCharging clock exitcodes rounds i state).2, i ≤ j := by
  induction rounds generalizing state i with
  | zero => simp [repopulateCharging]
  | succ rounds ih =>
      unfold repopulateCharging
      generalize (if Roster.counts exitcodes i then state.restartState.step (clock i)
        else (state.restartState, false)) = counted
      obtain ⟨restartState, exceeded⟩ := counted
      cases state.running with
      | false => simp
      | true =>
          cases exceeded with
          | true => cases Roster.counts exitcodes i <;> simp
          | false =>
              cases state.roster.availIndex with
              | none => cases Roster.counts exitcodes i <;> simp
              | some index =>
                  obtain ⟨distinct, later⟩ := @ih
                    ⟨state.roster.create index, state.putlock, restartState, true⟩ (i + 1)
                  have after := fun j charged => Nat.le_of_succ_le (later j charged)
                  cases Roster.counts exitcodes i with
                  | false => exact ⟨distinct, after⟩
                  | true =>
                      refine ⟨List.nodup_cons.mpr ⟨?_, distinct⟩, ?_⟩
                      · intro again
                        exact absurd (later i again) (by omega)
                      · exact List.forall_mem_cons.mpr ⟨Nat.le_refl i, after⟩

theorem charged_of_counts {rounds i : Nat} (running : state.running = true)
    (counted : Roster.counts exitcodes i = true) :
    i ∈ (repopulateCharging clock exitcodes (rounds + 1) i state).2 := by
  unfold repopulateCharging
  simp only [running, counted, Bool.not_true, Bool.false_eq_true, if_false, if_true]
  split
  · exact List.mem_singleton_self i
  · split
    · exact List.mem_singleton_self i
    · exact List.mem_append_left _ (List.mem_singleton_self i)

/-- From a round on that has an exit code, no round is charged to a worker that has not crashed
exactly if the exit codes last, or the limiter ends the pass with one of them. -/
theorem charges_crashes_iff {rounds i : Nat} (running : state.running = true)
    (some : exitcodes ≠ []) (room : rounds ≤ state.roster.missing) (within : i ≤ exitcodes.length) :
    (∀ j ∈ (repopulateCharging clock exitcodes rounds i state).2, ∃ code,
        exitcodes[j]? = Option.some code ∧ Roster.crashed code = true) ↔
      i + rounds ≤ exitcodes.length ∨
        state.restartState.exhausts clock i (exitcodes.drop i) = true := by
  induction rounds generalizing state i with
  | zero => exact iff_of_true (by simp [repopulateCharging]) (.inl within)
  | succ rounds ih =>
      rcases Nat.lt_or_ge i exitcodes.length with inside | outside
      · have code : exitcodes[i]? = Option.some exitcodes[i] := List.getElem?_eq_getElem inside
        obtain ⟨index, found⟩ := Roster.availIndex_of_missing room
        unfold repopulateCharging
        simp only [running, Bool.not_true, Bool.false_eq_true, if_false, found]
        have spare : rounds ≤ (state.roster.create index).missing := by
          rw [Roster.missing_create]
          omega
        rw [List.drop_eq_getElem_cons inside, Roster.counts_of_some code]
        unfold RestartState.exhausts
        cases crashed : Roster.crashed exitcodes[i] with
        | false =>
            simp only [Bool.false_eq_true, if_false, List.nil_append]
            have rest := @ih ⟨state.roster.create index, state.putlock, state.restartState, true⟩
              (i + 1) rfl spare inside
            rw [Nat.succ_add_eq_add_succ] at rest
            exact rest
        | true =>
            simp only [if_true]
            cases stepped : state.restartState.step (clock i) with
            | mk limiter exceeded =>
                cases exceeded with
                | true =>
                    refine iff_of_true ?_ (.inr rfl)
                    simpa using ⟨_, code, crashed⟩
                | false =>
                    have rest := @ih ⟨state.roster.create index, state.putlock, limiter, true⟩
                      (i + 1) rfl spare inside
                    rw [Nat.succ_add_eq_add_succ] at rest
                    simp only [Bool.false_eq_true, if_false, Bool.false_or, List.forall_mem_append,
                      List.forall_mem_singleton]
                    exact (and_iff_right ⟨_, code, crashed⟩).trans rest
      · -- `IndexError`
        have missing : exitcodes[i]? = none := List.getElem?_eq_none outside
        refine iff_of_false ?_ ?_
        · intro charged
          have counted := Roster.counts_of_none some missing
          obtain ⟨code, found, _⟩ := charged i (charged_of_counts running counted)
          rw [missing] at found
          cases found
        · rw [List.drop_eq_nil_of_le outside]
          simp only [RestartState.exhausts, Bool.false_eq_true, or_false]
          omega

theorem charges_of_stopped (stopped : state.running = false) (rounds i : Nat) :
    (repopulateCharging clock exitcodes rounds i state).2 = [] := by
  cases rounds with
  | zero => rfl
  | succ rounds => simp [repopulateCharging, stopped]

theorem charges_of_nil (rounds i : Nat) :
    (repopulateCharging clock [] rounds i state).2 = [] := by
  induction rounds generalizing state i with
  | zero => rfl
  | succ rounds ih =>
      have uncounted : Roster.counts [] i = false := rfl
      unfold repopulateCharging
      simp only [uncounted, Bool.false_eq_true, if_false, List.nil_append]
      split
      · rfl
      · split
        · rfl
        · exact ih ..

theorem missing_le_iff (roster : Roster) :
    roster.joinExitedWorkers.2.missing ≤ roster.joinExitedWorkers.1.length ↔
      roster.processes ≤ roster.workers.length := by
  have length := roster.length_joinExitedWorkers
  have same : roster.joinExitedWorkers.2.processes = roster.processes := rfl
  unfold Roster.missing
  rw [same]
  omega

/-- A pass charges only crashes to the limiter, and each of them once, exactly if it starts no more
workers than it has reaped. -/
theorem charges_iff (state : ResizedPool) (clock : Nat → Nat) :
    state.ChargesCrashes clock ↔ state.Replaces clock := by
  have distinct : (state.charges clock).Nodup := (charges_from ..).1
  have crashes_iff : state.ChargesCrashes clock ↔ ∀ i ∈ state.charges clock, ∃ code,
      state.roster.joinExitedWorkers.1[i]? = some code ∧ Roster.crashed code = true :=
    ⟨ChargesCrashes.crashed, fun crashed => ⟨distinct, crashed⟩⟩
  rw [crashes_iff]
  unfold Replaces
  cases running : state.running with
  | false =>
      refine iff_of_true ?_ (.inl rfl)
      have none : state.charges clock = [] := charges_of_stopped (by exact running) ..
      simp [none]
  | true =>
      by_cases nobody : state.roster.joinExitedWorkers.1 = []
      · refine iff_of_true ?_ (.inr (.inl nobody))
        have none : state.charges clock = [] := by
          unfold charges
          simp only [nobody]
          exact charges_of_nil ..
        simp [none]
      · have charged := @charges_crashes_iff
          { state with roster := state.roster.joinExitedWorkers.2 } clock
          state.roster.joinExitedWorkers.1 state.roster.joinExitedWorkers.2.missing 0 running nobody
          (Nat.le_refl _) (Nat.zero_le _)
        rw [Nat.zero_add, missing_le_iff, List.drop_zero] at charged
        simp only [Bool.true_eq_false, nobody, false_or]
        exact charged

/-- Nobody has crashed, and the pool has grown by one. -/
theorem not_chargesCrashes :
    ∃ state, Transition.run step (init 2 none 1) [.exit 1 0, .grow 1] = some state ∧
      state.roster.joinExitedWorkers.1 = [0] ∧ state.charges (fun _ => 5) = [1] ∧
      (state.maintain fun _ => 5).1.restartState.R = 1 ∧
      ¬state.ChargesCrashes fun _ => 5 := by
  refine ⟨_, rfl, rfl, rfl, rfl, ?_⟩
  intro charges
  obtain ⟨code, found, _⟩ := charges.crashed 1 (by decide)
  cases found

end ResizedPool

end Billiard
