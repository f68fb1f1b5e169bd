import Billiard.Pool.Workloop

/-! The list `_pool` of the workers, and how it is brought to its target size. -/

namespace Billiard

/-- The class `restart_state` of `common.py`; times are in ticks of the clock, or of any other
kind. -/
structure RestartState (τ : Type := Nat) where
  maxR : Option Int
  maxT : τ
  R : Nat
  T : Option τ
deriving DecidableEq, Repr

namespace RestartState

variable {τ : Type}

def init (maxR : Option Int) (maxT : τ) : RestartState τ := ⟨maxR, maxT, 0, none⟩

def count (state : RestartState τ) (now : τ) : RestartState τ :=
  { state with R := state.R + 1, T := some (state.T.getD now) }

variable [Zero τ] [Add τ] [LE τ] [DecidableEq τ] [DecidableLE τ]

/-- `step`; the second component tells that it raises `RestartFreqExceeded`. -/
def step (state : RestartState τ) (now : τ) : RestartState τ × Bool :=
  if state.T.any fun since => since ≠ 0 && since + state.maxT ≤ now then
    ({ state with R := 0, T := some now }.count now, false)
  else if state.R ≠ 0 && state.maxR.any fun maxR => maxR ≠ 0 && maxR ≤ (state.R : Int) then
    ({ state with R := 0 }, true)
  else (state.count now, false)

theorem step_counted {state after : RestartState τ} {now : τ}
    (counted : state.step now = (after, false)) :
    after.R ≤ state.R + 1 := by
  unfold step at counted
  split at counted
  · cases counted
    exact Nat.le_add_left 1 state.R
  · split at counted
    · cases counted
    · cases counted
      exact Nat.le_refl _

theorem step_raised {state after : RestartState τ} {now : τ}
    (raised : state.step now = (after, true)) :
    after.R = 0 ∧ ∃ maxR, state.maxR = some maxR ∧ maxR ≤ (state.R : Int) := by
  unfold step at raised
  split at raised
  · cases raised
  · split at raised
    · rename_i exceeded
      cases raised
      simp only [Bool.and_eq_true, Option.any_eq_true, decide_eq_true_eq] at exceeded
      obtain ⟨_, maxR, known, _, reached⟩ := exceeded
      exact ⟨rfl, maxR, known, reached⟩
    · cases raised

end RestartState

/-- `told` is set by `terminate_controlled`. -/
structure RosterWorker where
  pid : Nat
  index : Nat
  exitcode : Option Int
  told : Bool
deriving DecidableEq, Repr

/-- `_processes` and `_pool`; the pids are given out in order. -/
structure Roster where
  processes : Int
  workers : List RosterWorker
  pids : Nat
deriving DecidableEq, Repr

namespace Roster

def create (roster : Roster) (index : Nat) : Roster :=
  { roster with
    workers := roster.workers ++ [⟨roster.pids, index, none, false⟩]
    pids := roster.pids + 1 }

/-- The first loop of `Pool.__init__` -/
def init (processes : Nat) : Roster :=
  (List.range processes).foldl create ⟨processes, [], 1⟩

/-- `_avail_index`, which fails on its assertion. -/
def availIndex (roster : Roster) : Option Nat :=
  if (roster.workers.length : Int) < roster.processes then
    (List.range roster.processes.toNat).find? fun i =>
      !(roster.workers.map RosterWorker.index).contains i
  else none

def exit (roster : Roster) (pid : Nat) (code : Int) : Roster :=
  { roster with workers := roster.workers.map fun worker =>
      if worker.pid = pid && worker.exitcode.isNone then { worker with exitcode := some code }
      else worker }

/-- `_join_exited_workers` goes through `_pool` from its end. -/
def joinExitedWorkers (roster : Roster) : List Int × Roster :=
  ((roster.workers.filterMap RosterWorker.exitcode).reverse,
    { roster with workers := roster.workers.filter (·.exitcode.isNone) })

/-- How many workers `_repopulate_pool` is to start. -/
def missing (roster : Roster) : Nat := (roster.processes - roster.workers.length).toNat

/-- Whether the worker started in round `i` counts as a restart; without an exit code of its own
it does, unless nobody has exited. -/
def counts (exitcodes : List Int) (i : Nat) : Bool :=
  !exitcodes.isEmpty && exitcodes[i]?.all fun code =>
    code ≠ (exOk : Int) && code ≠ (exRecycle : Int)

end Roster

end Billiard
