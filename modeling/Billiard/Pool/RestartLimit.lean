import Billiard.Data.Transition
import Billiard.Pool.Roster
import Mathlib.Algebra.Order.Group.Nat

/-! The limit of `restart_state`, in terms of the times of all the steps that were made. -/

namespace Billiard

open Transition

variable {τ : Type}

/-- A job that is accepted resets `R`. -/
inductive LimiterCall (τ : Type) where
  | step (now : τ)
  | reset
deriving DecidableEq, Repr

/-- A limiter in use: `clock` is the time of the last step, and `recent` are those of the steps
since the last reset and the last exception, the latest first. -/
structure Limited (τ : Type) where
  limiter : RestartState τ
  clock : τ
  recent : List τ
  raised : Nat
deriving DecidableEq, Repr

variable [AddCommMonoid τ] [LinearOrder τ]

theorem RestartState.step_cases (state : RestartState τ) (now : τ) :
    (∃ since, state.T = some since ∧ since + state.maxT ≤ now ∧
        state.step now = ({ state with R := 1, T := some now }, false)) ∨
      (∀ since, state.T = some since → since ≠ 0 → now < since + state.maxT) ∧
        (((∃ maxR, state.maxR = some maxR ∧ maxR ≤ (state.R : Int)) ∧ state.R ≠ 0 ∧
            state.step now = ({ state with R := 0 }, true)) ∨
          ((∀ maxR, state.maxR = some maxR → 0 < maxR → (state.R : Int) < maxR) ∧
            state.step now = (state.count now, false))) := by
  unfold step
  split
  · rename_i elapsed
    simp only [Option.any_eq_true, Bool.and_eq_true, decide_eq_true_eq] at elapsed
    obtain ⟨since, opened, _, passed⟩ := elapsed
    exact .inl ⟨since, opened, passed, rfl⟩
  · rename_i within
    refine .inr ⟨?_, ?_⟩
    · intro since opened positive
      simpa [opened, positive] using within
    · split
      · rename_i reached
        simp only [Bool.and_eq_true, Option.any_eq_true, decide_eq_true_eq] at reached
        obtain ⟨some, maxR, allowed, _, exceeded⟩ := reached
        exact .inl ⟨⟨maxR, allowed, exceeded⟩, some, rfl⟩
      · rename_i below
        refine .inr ⟨?_, rfl⟩
        intro maxR allowed positive
        by_contra reached
        apply below
        simp [allowed]
        omega

namespace Limited

def init (maxR : Nat) (maxT : τ) : Limited τ := ⟨.init (some maxR) maxT, 0, [], 0⟩

/-- The steps come at positive times, in their order. -/
def step (state : Limited τ) : LimiterCall τ → Option (Limited τ)
  | .step now =>
      if 0 < now ∧ state.clock ≤ now then
        match state.limiter.step now with
        | (limiter, true) =>
            some { limiter, clock := now, recent := [], raised := state.raised + 1 }
        | (limiter, false) =>
            some { state with limiter, clock := now, recent := now :: state.recent }
      else none
  | .reset => some { state with limiter := { state.limiter with R := 0 }, recent := [] }

/-- `R` counts the latest steps, which all lie in the window that `T` has opened. -/
structure Sound (maxR : Nat) (maxT : τ) (state : Limited τ) : Prop where
  limit : state.limiter.maxR = some (maxR : Int)
  span : state.limiter.maxT = maxT
  bounded : state.limiter.R ≤ maxR
  counted : state.limiter.R ≤ state.recent.length
  fresh : state.limiter.T = none → state.limiter.R = 0
  window : ∀ since, state.limiter.T = some since → 0 < since ∧ since ≤ state.clock ∧
    ∀ time ∈ state.recent.take state.limiter.R, since ≤ time

variable {maxR : Nat} {maxT now : τ} {state next last : Limited τ}

theorem sound_init : (init maxR maxT).Sound maxR maxT where
  limit := rfl
  span := rfl
  bounded := Nat.zero_le _
  counted := Nat.le_refl 0
  fresh _ := rfl
  window _ opened := by cases opened

/-- A step comes in time.  It raises when the limit is reached; or it opens a window, the last one
being over; or it is counted. -/
theorem step_now (taken : state.step (.step now) = some next) :
    0 < now ∧ state.clock ≤ now ∧
      ((∃ limit, state.limiter.maxR = some limit ∧ limit ≤ (state.limiter.R : Int) ∧
          state.limiter.R ≠ 0 ∧ (∀ since, state.limiter.T = some since → since ≠ 0 →
            now < since + state.limiter.maxT) ∧
          next = ⟨{ state.limiter with R := 0 }, now, [], state.raised + 1⟩) ∨
        (∃ since, state.limiter.T = some since ∧ since + state.limiter.maxT ≤ now ∧
          next = ⟨{ state.limiter with R := 1, T := some now }, now, now :: state.recent,
            state.raised⟩) ∨
        (∀ limit, state.limiter.maxR = some limit → 0 < limit →
            (state.limiter.R : Int) < limit) ∧
          next = ⟨state.limiter.count now, now, now :: state.recent, state.raised⟩) := by
  unfold step at taken
  simp only at taken
  split at taken
  · rename_i inTime
    refine ⟨inTime.1, inTime.2, ?_⟩
    rcases state.limiter.step_cases now with
      ⟨since, opened, elapsed, stepped⟩ |
        ⟨within, ⟨⟨limit, known, reached⟩, some, stepped⟩ | ⟨below, stepped⟩⟩
    · rw [stepped] at taken
      cases taken
      exact .inr (.inl ⟨since, opened, elapsed, rfl⟩)
    · rw [stepped] at taken
      cases taken
      exact .inl ⟨limit, known, reached, some, within, rfl⟩
    · rw [stepped] at taken
      cases taken
      exact .inr (.inr ⟨below, rfl⟩)
  · cases taken

theorem Sound.reset (sound : state.Sound maxR maxT) (taken : state.step .reset = some next) :
    next.Sound maxR maxT := by
  cases taken
  exact {
    limit := sound.limit
    span := sound.span
    bounded := Nat.zero_le _
    counted := Nat.le_refl 0
    fresh := fun _ => rfl
    window := fun since opened =>
      ⟨(sound.window since opened).1, (sound.window since opened).2.1, by simp⟩ }

theorem Sound.step (allowed : 1 ≤ maxR) (sound : state.Sound maxR maxT)
    (taken : state.step (.step now) = some next) : next.Sound maxR maxT := by
  obtain ⟨positive, later, raises | opens | counts⟩ := step_now taken
  · -- the exception leaves `T` as it is
    obtain ⟨_, _, _, _, _, rfl⟩ := raises
    exact {
      limit := sound.limit
      span := sound.span
      bounded := Nat.zero_le _
      counted := Nat.le_refl 0
      fresh := fun _ => rfl
      window := fun since opened => ⟨(sound.window since opened).1,
        (sound.window since opened).2.1.trans later, by simp⟩ }
  · obtain ⟨_, _, _, rfl⟩ := opens
    exact {
      limit := sound.limit
      span := sound.span
      bounded := allowed
      counted := Nat.le_add_left 1 _
      fresh := by simp
      window := by
        intro since opened
        cases opened
        exact ⟨positive, le_rfl, by simp⟩ }
  · obtain ⟨below, rfl⟩ := counts
    have room := below maxR sound.limit (by omega)
    refine {
      limit := sound.limit
      span := sound.span
      bounded := ?_
      counted := Nat.succ_le_succ sound.counted
      fresh := by simp [RestartState.count]
      window := ?_ }
    · simp only [RestartState.count]
      omega
    · intro since opened
      simp only [RestartState.count, Option.some.injEq] at opened
      cases before : state.limiter.T with
      | none =>
          rw [before] at opened
          cases opened
          refine ⟨positive, le_rfl, ?_⟩
          simp [RestartState.count, sound.fresh before]
      | some first =>
          rw [before] at opened
          cases opened
          obtain ⟨after, early, within⟩ := sound.window _ before
          refine ⟨after, early.trans later, ?_⟩
          simp only [RestartState.count, List.take_succ_cons, List.forall_mem_cons]
          exact ⟨early.trans later, within⟩

theorem sound_of_run (allowed : 1 ≤ maxR) {labels : List (LimiterCall τ)}
    (ran : run Limited.step (init maxR maxT) labels = some state) : state.Sound maxR maxT := by
  refine invariant_run ?_ sound_init ran
  intro state label next sound taken
  cases label with
  | step now => exact sound.step allowed taken
  | reset => exact sound.reset taken

theorem raised_le (taken : state.step (.step now) = some next) : state.raised ≤ next.raised := by
  obtain ⟨_, _, ⟨_, _, _, _, _, rfl⟩ | ⟨_, _, _, rfl⟩ | ⟨_, rfl⟩⟩ := step_now taken
  · exact Nat.le_succ _
  · exact Nat.le_refl _
  · exact Nat.le_refl _

theorem clock_of_step (taken : state.step (.step now) = some next) :
    state.clock ≤ now ∧ next.clock = now := by
  obtain ⟨_, later, ⟨_, _, _, _, _, rfl⟩ | ⟨_, _, _, rfl⟩ | ⟨_, rfl⟩⟩ := step_now taken
  · exact ⟨later, rfl⟩
  · exact ⟨later, rfl⟩
  · exact ⟨later, rfl⟩

theorem raised_le_run {times : List τ}
    (ran : run Limited.step state (times.map .step) = some last) : state.raised ≤ last.raised := by
  induction times generalizing state with
  | nil =>
      cases ran
      exact Nat.le_refl _
  | cons now times ih =>
      obtain ⟨next, taken, rest⟩ := run_cons_eq_some.mp ran
      exact (raised_le taken).trans (ih rest)

theorem clock_le_run {times : List τ}
    (ran : run Limited.step state (times.map .step) = some last) :
    ∀ time ∈ times, state.clock ≤ time := by
  induction times generalizing state with
  | nil => simp
  | cons now times ih =>
      obtain ⟨next, taken, rest⟩ := run_cons_eq_some.mp ran
      obtain ⟨later, clock⟩ := clock_of_step taken
      refine List.forall_mem_cons.mpr ⟨later, fun time member => ?_⟩
      exact later.trans (clock ▸ ih rest time member)

variable [IsOrderedAddMonoid τ]

/-- The steps that `R` counts lie in the window, and there are `maxR` of them. -/
theorem Sound.raises_late (sound : state.Sound maxR maxT)
    (taken : state.step (.step now) = some next) (raised : next.raised = state.raised + 1) :
    maxR ≤ state.recent.countP fun time => now < time + maxT := by
  obtain ⟨_, _, raises | ⟨_, _, _, rfl⟩ | ⟨_, rfl⟩⟩ := step_now taken
  · obtain ⟨limit, known, reached, some, within, rfl⟩ := raises
    have full : maxR ≤ state.limiter.R := by
      cases sound.limit.symm.trans known
      omega
    obtain ⟨since, opened⟩ : ∃ since, state.limiter.T = Option.some since :=
      Option.ne_none_iff_exists'.mp (mt sound.fresh some)
    obtain ⟨positive, _, inside⟩ := sound.window since opened
    have early : now < since + maxT := sound.span ▸ within since opened positive.ne'
    have all : (state.recent.take state.limiter.R).countP (fun time => now < time + maxT) =
        (state.recent.take state.limiter.R).length := by
      rw [List.countP_eq_length]
      intro time member
      exact decide_eq_true (early.trans_le (add_le_add_left (inside time member) maxT))
    calc maxR ≤ state.limiter.R := full
      _ = (state.recent.take state.limiter.R).length :=
          (List.length_take_of_le sound.counted).symm
      _ = _ := all.symm
      _ ≤ _ := (List.take_sublist _ _).countP_le
  · simp at raised
  · simp at raised

/-- Once a window is open from `first` on, no other one opens before it is over. -/
theorem Sound.length_of_open (allowed : 1 ≤ maxR) (sound : state.Sound maxR maxT) {first since : τ}
    (opened : state.limiter.T = some since) (after : first ≤ since) {times : List τ}
    (inside : ∀ time ∈ times, time < first + maxT)
    (ran : run Limited.step state (times.map .step) = some last)
    (quiet : last.raised = state.raised) : state.limiter.R + times.length ≤ maxR := by
  induction times generalizing state with
  | nil => exact sound.bounded
  | cons now times ih =>
      obtain ⟨next, taken, rest⟩ := run_cons_eq_some.mp ran
      have kept := sound.step allowed taken
      have more := raised_le_run rest
      obtain ⟨early, inside⟩ := List.forall_mem_cons.mp inside
      obtain ⟨_, _, ⟨_, _, _, _, _, rfl⟩ | ⟨other, same, elapsed, rfl⟩ | ⟨_, rfl⟩⟩ := step_now taken
      · simp only at more
        omega
      · cases opened.symm.trans same
        rw [sound.span] at elapsed
        exact absurd (early.trans_le ((add_le_add_left after maxT).trans elapsed)) (lt_irrefl now)
      · have bound := ih kept (by simp [RestartState.count, opened]) inside rest quiet
        simp only [RestartState.count] at bound
        rw [List.length_cons]
        omega

/-- A run without an exception fills the window that it finds and one more. -/
theorem Sound.length_le (allowed : 1 ≤ maxR) (sound : state.Sound maxR maxT) {first : τ}
    {times : List τ} (inside : ∀ time ∈ times, first ≤ time ∧ time < first + maxT)
    (ran : run Limited.step state (times.map .step) = some last)
    (quiet : last.raised = state.raised) :
    times.length + state.limiter.R ≤ 2 * maxR := by
  induction times generalizing state with
  | nil =>
      have bound := sound.bounded
      rw [List.length_nil]
      omega
  | cons now times ih =>
      obtain ⟨next, taken, rest⟩ := run_cons_eq_some.mp ran
      have kept := sound.step allowed taken
      have more := raised_le_run rest
      have held := sound.bounded
      obtain ⟨⟨after, _⟩, inside⟩ := List.forall_mem_cons.mp inside
      have early : ∀ time ∈ times, time < first + maxT := fun time member =>
        (inside time member).2
      rw [List.length_cons]
      obtain ⟨_, _, ⟨_, _, _, _, _, rfl⟩ | ⟨_, _, _, rfl⟩ | ⟨below, rfl⟩⟩ := step_now taken
      · simp only at more
        omega
      · -- the one window that opens meanwhile
        have bound := kept.length_of_open allowed rfl after early rest quiet
        simp only at bound
        omega
      · have room := below maxR sound.limit (by omega)
        cases before : state.limiter.T with
        | none =>
            have opened : (state.limiter.count now).T = some now := by
              simp [RestartState.count, before]
            have bound := kept.length_of_open allowed opened after early rest quiet
            simp only [RestartState.count] at bound
            omega
        | some since =>
            have bound := ih kept inside rest quiet
            simp only [RestartState.count] at bound
            omega

/-- The limiter raises only after `maxR` steps within `maxT` since the last reset and the last
exception, and it raises among any `2 * maxR + 1` steps within `maxT`. -/
theorem limits (allowed : 1 ≤ maxR) {labels : List (LimiterCall τ)}
    (ran : run Limited.step (init maxR maxT) labels = some state) :
    (∀ now next, state.step (.step now) = some next → next.raised = state.raised + 1 →
        maxR ≤ state.recent.countP fun time => now < time + maxT) ∧
      ∀ first times last, times.length = 2 * maxR → (∀ time ∈ times, time < first + maxT) →
        run Limited.step state ((first :: times).map .step) = some last →
        state.raised < last.raised := by
  have sound := sound_of_run allowed ran
  refine ⟨fun now next => sound.raises_late, ?_⟩
  intro first times last many inside steps
  have later : ∀ time ∈ times, first ≤ time := by
    obtain ⟨next, taken, rest⟩ := run_cons_eq_some.mp steps
    exact (clock_of_step taken).2 ▸ clock_le_run rest
  obtain ⟨time, member⟩ : ∃ time, time ∈ times := List.exists_mem_of_length_pos (by omega)
  have all : ∀ time ∈ first :: times, first ≤ time ∧ time < first + maxT :=
    List.forall_mem_cons.mpr
      ⟨⟨le_rfl, (later time member).trans_lt (inside time member)⟩,
        fun time member => ⟨later time member, inside time member⟩⟩
  refine lt_of_le_of_ne (raised_le_run steps) fun quiet => ?_
  have bound := sound.length_le allowed all steps quiet.symm
  rw [List.length_cons, many] at bound
  omega

/-- Two restarts in ten ticks; an accepted job lets two more pass. -/
theorem limits_twice :
    let calls : List (LimiterCall Nat) :=
      [.step 1, .step 2, .reset, .step 5, .step 6, .step 7, .step 30]
    ∃ state, run Limited.step (init 2 10) calls = some state ∧
      ((∀ now next, state.step (.step now) = some next → next.raised = state.raised + 1 →
          2 ≤ state.recent.countP fun time => now < time + 10) ∧
        ∀ first times last, times.length = 2 * 2 → (∀ time ∈ times, time < first + 10) →
          run Limited.step state ((first :: times).map .step) = some last →
          state.raised < last.raised) := by
  intro calls
  have ran : (run Limited.step (init 2 (10 : Nat)) calls).isSome = true := by decide
  obtain ⟨state, ran⟩ := Option.isSome_iff_exists.mp ran
  exact ⟨state, ran, limits (by decide) ran⟩

end Limited

end Billiard
