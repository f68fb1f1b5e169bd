import Billiard.Data.Tally
import Billiard.Synchronize.Condition

/-! How the three semaphores of a condition count its sleepers, at every point
where its parties may be. -/

namespace Billiard

open Transition

namespace Point

def notifying : Point → Bool
  | .outside _ | .unlocking .. | .sleeping .. | .woken .. | .relocking .. => false
  | .draining _ | .matching _ | .notifyPicking | .notifyPosting | .notifyAwaiting
  | .notifyRezeroing | .allPicking _ | .allPosting _ | .allAwaiting .. | .allRezeroing => true

/-- The party has announced its sleep and not its wake-up. -/
def announced : Point → Nat
  | .unlocking .. | .sleeping .. | .woken .. => 1
  | _ => 0

/-- The party has announced its sleep and still holds the lock. -/
def leaving : Point → Nat
  | .unlocking .. => 1
  | _ => 0

def asleep : Point → Nat
  | .sleeping .. => 1
  | _ => 0

/-- The next operation of the party releases `_woken_count`. -/
def wakes : Point → Nat
  | .woken .. => 1
  | _ => 0

/-- The acquisitions of `_woken_count` that a party at its blocking loop still has to
do. -/
def awaited : Point → Option Nat
  | .notifyAwaiting => some 1
  | .allAwaiting sleepers i => some (sleepers - i)
  | _ => none

/-- The semaphore that the party releases next, once it is in a method, has not reached
its maximum. -/
def Room (maxvalue : Nat) (condition : Condition) : Point → Prop
  | .woken .. => condition.wokenCount < maxvalue
  | .notifyPosting | .allPosting _ => condition.waitSemaphore < maxvalue
  | _ => True

/-- What is true of the lock, or of its last call, while a party stands where it does. -/
def Fits (lock : Option Hold) (party : Nat) : Point → Prop
  | .outside outcome => outcome ≠ .raised .stalePost ∧ outcome ≠ .raised .unmatchedWake
  | .relocking .. => True
  | .unlocking _ count i => ∃ again, lock = some ⟨party, again⟩ ∧ again + 1 + i = count
  | .sleeping .. | .woken .. => SemLock.isMine lock party = false
  | .draining _ | .matching _ | .notifyPicking | .notifyPosting | .notifyAwaiting
  | .notifyRezeroing | .allPicking _ | .allPosting _ | .allAwaiting .. | .allRezeroing =>
      SemLock.isMine lock party = true

/-- What the semaphores hold while the owner of the lock stands at the given point,
`announced` parties have announced a sleep and `woken` of them left it. -/
def Phase (condition : Condition) (announced woken : Nat) : Point → Prop
  | .outside _ | .unlocking .. | .sleeping .. | .woken .. | .relocking ..
  | .draining _ | .notifyPicking =>
      condition.waitSemaphore = 0 ∧ condition.sleepingCount = condition.wokenCount + announced
  | .matching _ =>
      condition.waitSemaphore = 0 ∧ condition.sleepingCount = condition.wokenCount + announced + 1
  | .notifyPosting =>
      condition.waitSemaphore = 0 ∧ condition.sleepingCount + 1 = condition.wokenCount + announced
  | .notifyAwaiting =>
      condition.waitSemaphore ≤ 1 ∧
        condition.sleepingCount + 1 = condition.wokenCount + announced ∧
        1 ≤ condition.waitSemaphore + woken + condition.wokenCount
  | .notifyRezeroing =>
      condition.waitSemaphore ≤ 1 ∧ condition.sleepingCount = condition.wokenCount + announced
  | .allPicking sleepers =>
      condition.waitSemaphore ≤ sleepers ∧
        condition.sleepingCount + sleepers = condition.wokenCount + announced ∧
        sleepers ≤ condition.waitSemaphore + woken + condition.wokenCount
  | .allPosting sleepers =>
      condition.waitSemaphore ≤ sleepers ∧
        condition.sleepingCount + sleepers + 1 = condition.wokenCount + announced ∧
        sleepers ≤ condition.waitSemaphore + woken + condition.wokenCount
  | .allAwaiting sleepers i =>
      i < sleepers ∧
        condition.sleepingCount + (sleepers - i) = condition.wokenCount + announced ∧
        sleepers - i ≤ condition.waitSemaphore + woken + condition.wokenCount
  | .allRezeroing => condition.sleepingCount = condition.wokenCount + announced

variable {condition : Condition} {lock : Option Hold} {announced woken party other : Nat}
  {point : Point}

theorem Fits.mine (fits : point.Fits lock party) (notifies : point.notifying = true) :
    SemLock.isMine lock party = true := by
  cases point <;> first | exact fits | cases notifies

@[simp] theorem fits_returned (result : Option Bool) : (returned result).Fits lock party :=
  ⟨nofun, nofun⟩

@[simp] theorem fits_raised_sem (error : SemError) : (raised (.sem error)).Fits lock party :=
  ⟨nofun, nofun⟩

theorem Fits.keep {rest : Option Hold} (fits : point.Fits lock party)
    (before : SemLock.isMine lock party = false) (after : SemLock.isMine rest party = false) :
    point.Fits rest party := by
  cases point with
  | outside outcome => exact fits
  | relocking count i result => exact True.intro
  | sleeping timed count => exact after
  | woken count result => exact after
  | unlocking timed count i =>
      obtain ⟨again, rfl, _⟩ := fits
      simp at before
  | _ => exact absurd fits (by simp [Fits, before])

theorem phase_of_quiet (quiet : point.notifying = false) :
    point.Phase condition announced woken ↔
      condition.waitSemaphore = 0 ∧
        condition.sleepingCount = condition.wokenCount + announced := by
  cases point <;> first | exact Iff.rfl | cases quiet

theorem Phase.wake {waitSemaphore : Nat} (phase : point.Phase condition announced woken)
    (posted : condition.waitSemaphore = waitSemaphore + 1) :
    point.Phase { condition with waitSemaphore } announced (woken + 1) := by
  cases point <;> simp only [Phase] at phase ⊢ <;> omega

theorem Phase.timeOut (phase : point.Phase condition announced woken) :
    point.Phase condition announced (woken + 1) := by
  cases point <;> simp only [Phase] at phase ⊢ <;> omega

theorem Phase.announce (phase : point.Phase condition (announced + 1) (woken + 1)) :
    point.Phase { condition with wokenCount := condition.wokenCount + 1 } announced woken := by
  cases point <;> simp only [Phase] at phase ⊢ <;> omega

variable {kind : LockKind} {maxvalue : Nat} {after : Condition} {new : Point}

/-- An operation of a notification; the second assertion finds a sleeper. -/
theorem Phase.advance (phase : point.Phase condition announced woken)
    (notifies : point.notifying = true) (room : point.Room maxvalue condition)
    (taken : point.advance kind maxvalue condition party = some (after, new)) :
    after.lock = condition.lock ∧ (new.notifying = true ∨ new = returned none) ∧
      new.Phase after announced woken := by
  obtain ⟨lock, sleepingCount, wokenCount, waitSemaphore⟩ := condition
  cases point with
  | outside outcome => cases notifies
  | unlocking timed count i => cases notifies
  | sleeping timed count => cases notifies
  | woken count result => cases notifies
  | relocking count i result => cases notifies
  | draining call =>
      cases wokenCount with
      | zero =>
          cases taken
          cases call with
          | notify => exact ⟨rfl, .inl rfl, phase⟩
          | notifyAll =>
              simp only [Phase] at phase
              refine ⟨rfl, .inl rfl, ?_⟩
              simp only [Phase, picking]
              omega
      | succ wokenCount =>
          cases taken
          simp only [Phase] at phase
          refine ⟨rfl, .inl rfl, ?_⟩
          simp only [Phase]
          omega
  | matching call =>
      cases sleepingCount with
      | zero =>
          simp only [Phase] at phase
          omega
      | succ sleepingCount =>
          cases taken
          simp only [Phase] at phase
          refine ⟨rfl, .inl rfl, ?_⟩
          simp only [Phase]
          omega
  | notifyPicking =>
      cases sleepingCount with
      | zero =>
          cases taken
          exact ⟨rfl, .inr rfl, phase⟩
      | succ sleepingCount =>
          cases taken
          exact ⟨rfl, .inl rfl, phase⟩
  | notifyPosting =>
      have below : waitSemaphore < maxvalue := room
      simp only [Point.advance, Semaphore.release_of_lt below] at taken
      cases taken
      simp only [Phase] at phase
      refine ⟨rfl, .inl rfl, ?_⟩
      simp only [Phase]
      omega
  | notifyAwaiting =>
      cases wokenCount with
      | zero => cases taken
      | succ wokenCount =>
          cases taken
          simp only [Phase] at phase
          refine ⟨rfl, .inl rfl, ?_⟩
          simp only [Phase]
          omega
  | notifyRezeroing =>
      simp only [Phase] at phase
      cases waitSemaphore with
      | zero =>
          cases taken
          exact ⟨rfl, .inr rfl, ⟨rfl, phase.2⟩⟩
      | succ waitSemaphore =>
          cases taken
          refine ⟨rfl, .inr rfl, ?_⟩
          simp only [Phase, returned]
          omega
  | allPicking sleepers =>
      simp only [Phase] at phase
      cases sleepingCount with
      | zero =>
          cases sleepers with
          | zero =>
              cases taken
              refine ⟨rfl, .inr rfl, ?_⟩
              simp only [Phase, if_true, returned]
              omega
          | succ sleepers =>
              cases taken
              refine ⟨rfl, .inl rfl, ?_⟩
              simp only [Phase, Nat.succ_ne_zero, if_false]
              omega
      | succ sleepingCount =>
          cases taken
          refine ⟨rfl, .inl rfl, ?_⟩
          simp only [Phase]
          omega
  | allPosting sleepers =>
      have below : waitSemaphore < maxvalue := room
      simp only [Point.advance, Semaphore.release_of_lt below] at taken
      cases taken
      simp only [Phase] at phase
      refine ⟨rfl, .inl rfl, ?_⟩
      simp only [Phase]
      omega
  | allAwaiting sleepers i =>
      simp only [Phase] at phase
      cases wokenCount with
      | zero => cases taken
      | succ wokenCount =>
          cases Nat.decLt (i + 1) sleepers with
          | isTrue more =>
              simp only [Point.advance, Semaphore.acquire_succ, more, if_true] at taken
              cases taken
              refine ⟨rfl, .inl rfl, ?_⟩
              simp only [Phase]
              omega
          | isFalse last =>
              simp only [Point.advance, Semaphore.acquire_succ, last, if_false] at taken
              cases taken
              refine ⟨rfl, .inl rfl, ?_⟩
              simp only [Phase]
              omega
  | allRezeroing =>
      simp only [Phase] at phase
      cases waitSemaphore with
      | zero =>
          cases taken
          exact ⟨rfl, .inr rfl, ⟨rfl, phase⟩⟩
      | succ waitSemaphore =>
          cases taken
          exact ⟨rfl, .inl rfl, phase⟩

theorem advance_load (taken : point.advance kind maxvalue condition party = some (after, new)) :
    after.wokenCount + new.announced ≤ condition.wokenCount + point.announced := by
  cases point with
  | outside outcome => cases taken
  | unlocking timed count i =>
      simp only [Point.advance] at taken
      split at taken
      · cases taken
        exact Nat.le_add_right _ 1
      · cases taken
        split <;> exact Nat.le_refl _
  | sleeping timed count =>
      simp only [Point.advance] at taken
      split at taken
      · cases taken
      · cases taken
        exact Nat.le_refl _
  | woken count result =>
      simp only [Point.advance] at taken
      split at taken
      · cases taken
        exact Nat.le_add_right _ 1
      · rename_i released
        obtain ⟨_, rfl⟩ := Semaphore.release_eq_ok released
        cases taken
        exact Nat.le_refl _
  | relocking count i result =>
      simp only [Point.advance] at taken
      split at taken
      · cases taken
      · cases taken
        split <;> exact Nat.le_refl _
  | draining call =>
      simp only [Point.advance] at taken
      split at taken
      · rename_i acquired
        cases taken
        exact Nat.le_of_lt (Semaphore.acquire_lt acquired)
      · cases taken
        cases call <;> exact Nat.le_refl _
  | allPicking sleepers =>
      simp only [Point.advance] at taken
      split at taken
      · cases taken
        exact Nat.le_refl _
      · cases taken
        split <;> exact Nat.le_refl _
  | notifyAwaiting =>
      simp only [Point.advance] at taken
      split at taken
      · cases taken
      · rename_i acquired
        cases taken
        exact Nat.le_of_lt (Semaphore.acquire_lt acquired)
  | allAwaiting sleepers i =>
      simp only [Point.advance] at taken
      split at taken
      · cases taken
      · rename_i acquired
        cases taken
        split <;> exact Nat.le_of_lt (Semaphore.acquire_lt acquired)
  | _ =>
      simp only [Point.advance] at taken
      split at taken <;>
        · cases taken
          exact Nat.le_refl _

end Point

theorem Condition.Below.room {condition : Condition} {maxvalue : Nat} {point : Point}
    (below : condition.Below maxvalue) : point.Room maxvalue condition := by
  cases point with
  | woken count result => exact below.2.1
  | notifyPosting => exact below.2.2
  | allPosting sleepers => exact below.2.2
  | _ => exact True.intro

namespace ConditionUse

open Point

def announced (use : ConditionUse) : Nat := tally Point.announced use.parties

def asleep (use : ConditionUse) : Nat := tally Point.asleep use.parties

def waking (use : ConditionUse) : Nat := tally Point.wakes use.parties

def Quiet (use : ConditionUse) : Prop := ∀ point ∈ use.parties, point.notifying = false

def current (use : ConditionUse) : Point :=
  match use.condition.lock with
  | none => .returned none
  | some hold => use.parties[hold.owner]?.getD (.returned none)

structure Invariant (use : ConditionUse) : Prop where
  fits : ∀ (party : Nat) (point : Point), use.parties[party]? = some point →
    point.Fits use.condition.lock party
  phase : use.current.Phase use.condition use.announced use.waking

variable {use : ConditionUse} {party : Nat} {point new : Point} {condition : Condition}

theorem current_of_mine (found : use.parties[party]? = some point)
    (mine : SemLock.isMine use.condition.lock party = true) : use.current = point := by
  obtain ⟨again, held⟩ := SemLock.isMine_iff.mp mine
  simp [current, held, found]

theorem current_quiet (quiet : use.Quiet) : use.current.notifying = false := by
  unfold current
  split
  · rfl
  · rename_i hold held
    cases found : use.parties[hold.owner]? with
    | none => rfl
    | some point => exact quiet point (List.mem_of_getElem? found)

/-- There is a post to take only while a party is in `notify` or `notify_all`. -/
theorem Invariant.notifier_of_posted (invariant : use.Invariant)
    (posted : use.condition.waitSemaphore ≠ 0) :
    ∃ (party : Nat) (point : Point), use.parties[party]? = some point ∧
      point.notifying = true := by
  by_contra nobody
  have quiet : use.Quiet := by
    intro point member
    obtain ⟨party, found⟩ := List.getElem?_of_mem member
    exact Bool.eq_false_iff.mpr fun notifies => nobody ⟨party, point, found, notifies⟩
  exact posted ((Point.phase_of_quiet (current_quiet quiet)).mp invariant.phase).1

theorem Invariant.fits_set (invariant : use.Invariant)
    (moves : condition.lock = use.condition.lock ∨
      SemLock.Open use.condition.lock party ∧ SemLock.Open condition.lock party)
    (fits : new.Fits condition.lock party) :
    ∀ (other : Nat) (point : Point), (use.parties.set party new)[other]? = some point →
      point.Fits condition.lock other := by
  refine Tally.forall_set fits fun other point different present => ?_
  have before := invariant.fits other point present
  cases moves with
  | inl same =>
      rw [same]
      exact before
  | inr free => exact before.keep (free.1.not_other different) (free.2.not_other different)

theorem Invariant.phase_of_mine (invariant : use.Invariant)
    (found : use.parties[party]? = some point)
    (mine : SemLock.isMine use.condition.lock party = true) :
    point.Phase use.condition use.announced use.waking := by
  rw [← current_of_mine found mine]
  exact invariant.phase

def Totals (use : ConditionUse) (point new : Point) (announced woken : Nat) : Prop :=
  announced + point.announced = use.announced + new.announced ∧
    woken + point.wakes = use.waking + new.wakes

theorem totals_set (found : use.parties[party]? = some point) :
    use.Totals point new (announced ⟨condition, use.parties.set party new⟩)
      (waking ⟨condition, use.parties.set party new⟩) :=
  ⟨Tally.tally_set _ found new, Tally.tally_set _ found new⟩

theorem Invariant.bystander (invariant : use.Invariant)
    (found : use.parties[party]? = some point)
    (other : SemLock.isMine use.condition.lock party = false)
    (same : condition.lock = use.condition.lock)
    (fits : new.Fits condition.lock party)
    (phase : ∀ (owner : Point) (announced woken : Nat), use.Totals point new announced woken →
      owner.Phase use.condition use.announced use.waking →
      owner.Phase condition announced woken) :
    Invariant ⟨condition, use.parties.set party new⟩ := by
  refine ⟨invariant.fits_set (.inl same) fits, ?_⟩
  have kept : current ⟨condition, use.parties.set party new⟩ = use.current := by
    unfold current
    dsimp only
    rw [same]
    cases held : use.condition.lock with
    | none => rfl
    | some hold =>
        have ne : hold.owner ≠ party := by simpa [held, SemLock.isMine] using other
        simp only [List.getElem?_set_ne (Ne.symm ne)]
  rw [kept]
  exact phase _ _ _ (totals_set found) invariant.phase

theorem Invariant.owner (invariant : use.Invariant)
    (found : use.parties[party]? = some point)
    (mine : SemLock.isMine use.condition.lock party = true)
    (same : condition.lock = use.condition.lock)
    (fits : new.Fits condition.lock party)
    (phase : ∀ announced woken, use.Totals point new announced woken →
      point.Phase use.condition use.announced use.waking →
      new.Phase condition announced woken) :
    Invariant ⟨condition, use.parties.set party new⟩ := by
  refine ⟨invariant.fits_set (.inl same) fits, ?_⟩
  have after : current ⟨condition, use.parties.set party new⟩ = new :=
    current_of_mine (Tally.getElem?_set_found found new) (by rw [same]; exact mine)
  rw [after]
  exact phase _ _ (totals_set found) (invariant.phase_of_mine found mine)

theorem Invariant.relock {lock : Option Hold} (invariant : use.Invariant)
    (found : use.parties[party]? = some point)
    (before : SemLock.Open use.condition.lock party) (after : SemLock.Open lock party)
    (fits : new.Fits lock party)
    (quiet : point.notifying = false) (still : new.notifying = false)
    (same : new.announced = point.announced) :
    Invariant ⟨{ use.condition with lock }, use.parties.set party new⟩ := by
  refine ⟨invariant.fits_set (.inr ⟨before, after⟩) fits, ?_⟩
  have was : use.current.notifying = false := by
    cases before with
    | inl free => simp [current, free, returned, notifying]
    | inr mine =>
        rw [current_of_mine found mine]
        exact quiet
  have is : (current ⟨{ use.condition with lock }, use.parties.set party new⟩).notifying =
      false := by
    cases after with
    | inl free => simp [current, free, returned, notifying]
    | inr mine =>
        rw [current_of_mine (Tally.getElem?_set_found found new) mine]
        exact still
  have totals := @totals_set _ _ _ new { use.condition with lock } found
  have total := Nat.add_right_cancel (same ▸ totals.1)
  have phase := (phase_of_quiet was).mp invariant.phase
  apply (phase_of_quiet is).mpr
  rw [total]
  exact phase

variable {kind : LockKind} {maxvalue : Nat}

theorem Invariant.wait (invariant : use.Invariant) {outcome : MethodOutcome} {timed : Bool}
    (found : use.parties[party]? = some (.outside outcome))
    (called : Point.wait maxvalue use.condition party timed = (condition, new)) :
    Invariant ⟨condition, use.parties.set party new⟩ := by
  cases mine : SemLock.isMine use.condition.lock party with
  | true =>
      obtain ⟨again, held⟩ := SemLock.isMine_iff.mp mine
      simp only [Point.wait, held, if_true] at called
      split at called
      · -- the release of `_sleeping_count` is refused, and nothing else has happened
        cases called
        refine invariant.owner found mine rfl (fits_raised_sem _) ?_
        intro announced woken totals phase
        obtain ⟨same, _⟩ : announced = use.announced ∧ woken = use.waking := totals
        rw [same]
        exact phase
      · rename_i released
        obtain ⟨_, rfl⟩ := Semaphore.release_eq_ok released
        cases called
        refine invariant.owner found mine held.symm ⟨again, rfl, rfl⟩ ?_
        intro announced woken totals phase
        simp only [Phase, Totals, Point.announced] at phase totals ⊢
        omega
  | false =>
      have refused : (condition, new) = (use.condition,
          raised (.sem (.assertionError "must acquire() condition before using wait()"))) := by
        rw [← called]
        unfold Point.wait
        cases held : use.condition.lock with
        | none => rfl
        | some hold =>
            have ne : hold.owner ≠ party := by simpa [held, SemLock.isMine] using mine
            simp only [ne, if_false]
      cases refused
      refine invariant.bystander found mine rfl (fits_raised_sem _) ?_
      intro owner announced woken totals phase
      obtain ⟨same, still⟩ : announced = use.announced ∧ woken = use.waking := totals
      rw [same, still]
      exact phase

theorem Invariant.notification (invariant : use.Invariant) {outcome : MethodOutcome}
    {call : Notification} (found : use.parties[party]? = some (.outside outcome))
    (called : Point.notification use.condition party call = (condition, new)) :
    Invariant ⟨condition, use.parties.set party new⟩ := by
  cases mine : SemLock.isMine use.condition.lock party with
  | true =>
      have unposted : use.condition.waitSemaphore = 0 := (invariant.phase_of_mine found mine).1
      simp only [Point.notification, mine, if_true, unposted, Semaphore.acquire_zero] at called
      cases called
      refine invariant.owner found mine rfl mine ?_
      intro announced woken totals phase
      obtain ⟨same, _⟩ : announced = use.announced ∧ woken = use.waking := totals
      rw [same]
      exact phase
  | false =>
      simp only [Point.notification, mine, Bool.false_eq_true, if_false] at called
      cases called
      refine invariant.bystander found mine rfl (fits_raised_sem _) ?_
      intro owner announced woken totals phase
      obtain ⟨same, still⟩ : announced = use.announced ∧ woken = use.waking := totals
      rw [same, still]
      exact phase

theorem Invariant.advance (invariant : use.Invariant)
    (found : use.parties[party]? = some point) (room : point.Room maxvalue use.condition)
    (taken : point.advance kind maxvalue use.condition party = some (condition, new)) :
    Invariant ⟨condition, use.parties.set party new⟩ := by
  have fits := invariant.fits party point found
  cases notifies : point.notifying with
  | true =>
      have mine := fits.mine notifies
      obtain ⟨same, stays, phase⟩ :=
        (invariant.phase_of_mine found mine).advance notifies room taken
      have weightless : new.announced = 0 ∧ new.wakes = 0 := by
        cases stays with
        | inl notifies => cases new <;> first | exact ⟨rfl, rfl⟩ | cases notifies
        | inr returned =>
            rw [returned]
            exact ⟨rfl, rfl⟩
      have was : point.announced = 0 ∧ point.wakes = 0 := by
        cases point <;> first | exact ⟨rfl, rfl⟩ | cases notifies
      refine invariant.owner found mine same ?_ ?_
      · rw [same]
        cases stays with
        | inl notifies => cases new <;> first | exact mine | cases notifies
        | inr returned =>
            rw [returned]
            exact fits_returned none
      · intro announced woken totals _
        simp only [Totals, was, weightless, Nat.add_zero] at totals
        rw [totals.1, totals.2]
        exact phase
  | false =>
      cases point with
      | outside outcome => cases taken
      | unlocking timed count i =>
          obtain ⟨again, held, rounds⟩ := fits
          have before : SemLock.Open use.condition.lock party :=
            .inr (SemLock.isMine_iff.mpr ⟨again, held⟩)
          cases again with
          | zero =>
              have last : ¬i + 1 < count := by omega
              simp only [Point.advance, SemLock.release, held, if_true, last, if_false] at taken
              cases taken
              exact invariant.relock found before (.inl rfl) rfl rfl rfl rfl
          | succ again =>
              have more : i + 1 < count := by omega
              simp only [Point.advance, SemLock.release, held, if_true, more] at taken
              cases taken
              refine invariant.relock found before (.inr (SemLock.isMine_self ..)) ?_ rfl rfl rfl
              exact ⟨again, rfl, by omega⟩
      | sleeping timed count =>
          cases posted : use.condition.waitSemaphore with
          | zero =>
              simp only [Point.advance, posted, Semaphore.acquire_zero] at taken
              cases taken
          | succ waitSemaphore =>
              simp only [Point.advance, posted, Semaphore.acquire_succ] at taken
              cases taken
              refine invariant.bystander found fits rfl fits ?_
              intro owner announced woken totals phase
              obtain ⟨same, more⟩ : announced + 1 = use.announced + 1 ∧
                woken = use.waking + 1 := totals
              rw [Nat.succ.inj same, more]
              exact phase.wake posted
      | woken count result =>
          have below : use.condition.wokenCount < maxvalue := room
          simp only [Point.advance, Semaphore.release_of_lt below] at taken
          cases taken
          refine invariant.bystander found fits rfl True.intro ?_
          intro owner announced woken totals phase
          obtain ⟨sleepers, awake⟩ : announced + 1 = use.announced ∧
            woken + 1 = use.waking := totals
          rw [← sleepers, ← awake] at phase
          exact phase.announce
      | relocking count i result =>
          cases acquired : SemLock.acquire kind use.condition.lock party with
          | none =>
              simp only [Point.advance, acquired] at taken
              cases taken
          | some hold =>
              obtain ⟨before, mine⟩ := SemLock.acquire_open acquired
              simp only [Point.advance, acquired] at taken
              cases taken
              cases Nat.decLt (i + 1) count with
              | isTrue more =>
                  simp only [more, if_true]
                  exact invariant.relock found before (.inr mine) True.intro rfl rfl rfl
              | isFalse last =>
                  simp only [last, if_false]
                  exact invariant.relock found before (.inr mine) (fits_returned _) rfl rfl rfl
      | _ => cases notifies

theorem Invariant.step {next : ConditionUse} {action : PartyAction} (invariant : use.Invariant)
    (room : ∀ point, use.parties[party]? = some point → point.Room maxvalue use.condition)
    (taken : ConditionUse.step kind maxvalue use (party, action) = some next) :
    next.Invariant := by
  obtain ⟨point, moved, found, acted, parties⟩ := step_cases taken
  obtain ⟨condition, _⟩ := next
  cases parties
  unfold Point.act at acted
  split at acted
  · split at acted
    · cases acted
    · rename_i hold acquired
      obtain ⟨before, mine⟩ := SemLock.acquire_open acquired
      cases acted
      exact invariant.relock found before (.inr mine) (fits_returned _) rfl rfl rfl
  · split at acted
    · cases acted
    · rename_i lock released
      obtain ⟨mine, after⟩ := SemLock.release_open released
      cases acted
      exact invariant.relock found (.inr mine) after (fits_returned _) rfl rfl rfl
  · exact invariant.wait found (Option.some.inj acted)
  · exact invariant.notification found (Option.some.inj acted)
  · exact invariant.advance found (room _ found) acted
  · cases acted
    have fits := invariant.fits party _ found
    refine invariant.bystander found fits rfl fits ?_
    intro owner announced woken totals phase
    obtain ⟨same, more⟩ : announced + 1 = use.announced + 1 ∧ woken = use.waking + 1 := totals
    rw [Nat.succ.inj same, more]
    exact phase.timeOut
  · cases acted

/-- There is room in `_woken_count` for all who may still add to it. -/
def Spare (maxvalue : Nat) (use : ConditionUse) : Prop :=
  use.condition.wokenCount + use.announced ≤ maxvalue

theorem Spare.room (spare : use.Spare maxvalue) (invariant : use.Invariant)
    (found : use.parties[party]? = some point) : point.Room maxvalue use.condition := by
  unfold Spare at spare
  cases point with
  | woken count result =>
      obtain ⟨counted, _⟩ := @totals_set _ _ _ (.returned none) use.condition found
      simp only [Room, Point.announced, returned] at counted ⊢
      omega
  | notifyPosting =>
      have phase := invariant.phase_of_mine found (invariant.fits party _ found)
      simp only [Phase, Room] at phase ⊢
      omega
  | allPosting sleepers =>
      have phase := invariant.phase_of_mine found (invariant.fits party _ found)
      simp only [Phase, Room] at phase ⊢
      omega
  | _ => exact True.intro

theorem Spare.move (spare : use.Spare maxvalue) (found : use.parties[party]? = some point)
    (load : condition.wokenCount + new.announced ≤ use.condition.wokenCount + point.announced) :
    Spare maxvalue ⟨condition, use.parties.set party new⟩ := by
  obtain ⟨counted, _⟩ := @totals_set _ _ _ new condition found
  unfold Spare at spare ⊢
  dsimp only
  omega

theorem Spare.wait (spare : use.Spare maxvalue) (invariant : use.Invariant)
    {outcome : MethodOutcome} {timed : Bool}
    (found : use.parties[party]? = some (.outside outcome))
    (called : Point.wait maxvalue use.condition party timed = (condition, new)) :
    Spare maxvalue ⟨condition, use.parties.set party new⟩ := by
  unfold Point.wait at called
  split at called
  · cases called
    exact spare.move found (Nat.le_refl _)
  · rename_i hold held
    split at called
    · rename_i same
      split at called
      · cases called
        exact spare.move found (Nat.le_refl _)
      · rename_i released
        obtain ⟨below, rfl⟩ := Semaphore.release_eq_ok released
        cases called
        -- `_sleeping_count` counts all who may add to `_woken_count`
        have mine : SemLock.isMine use.condition.lock party = true := by
          simp [SemLock.isMine, held, same]
        have phase := invariant.phase_of_mine found mine
        obtain ⟨counted, _⟩ := @totals_set _ _ _ (.unlocking timed hold.count 0)
          { use.condition with sleepingCount := use.condition.sleepingCount + 1 } found
        simp only [Phase, Point.announced, Spare] at phase counted ⊢
        omega
    · cases called
      exact spare.move found (Nat.le_refl _)

theorem Spare.step {next : ConditionUse} {action : PartyAction} (spare : use.Spare maxvalue)
    (invariant : use.Invariant)
    (taken : ConditionUse.step kind maxvalue use (party, action) = some next) :
    next.Spare maxvalue := by
  obtain ⟨point, moved, found, acted, parties⟩ := step_cases taken
  obtain ⟨condition, _⟩ := next
  cases parties
  unfold Point.act at acted
  split at acted
  · split at acted
    · cases acted
    · cases acted
      exact spare.move found (Nat.le_refl _)
  · split at acted
    · cases acted
    · cases acted
      exact spare.move found (Nat.le_refl _)
  · exact spare.wait invariant found (Option.some.inj acted)
  · unfold Point.notification at acted
    split at acted
    · split at acted <;>
        · cases acted
          exact spare.move found (Nat.le_refl _)
    · cases acted
      exact spare.move found (Nat.le_refl _)
  · exact spare.move found (advance_load acted)
  · cases acted
    exact spare.move found (Nat.le_refl _)
  · cases acted

theorem announced_init (parties : Nat) : (init parties).announced = 0 := by
  apply Tally.tally_eq_zero
  intro point member
  rw [(List.mem_replicate.mp member).2]
  rfl

theorem spare_init (parties maxvalue : Nat) : (init parties).Spare maxvalue := by
  unfold Spare
  rw [announced_init]
  exact Nat.zero_le maxvalue

theorem invariant_init (parties : Nat) : (init parties).Invariant := by
  constructor
  · intro party point found
    obtain ⟨_, rfl⟩ := List.mem_replicate.mp (List.mem_of_getElem? found)
    exact fits_returned none
  · exact ⟨rfl, by rw [announced_init]; rfl⟩

theorem invariant_of_run {parties : Nat} {labels : List (Nat × PartyAction)} {last : ConditionUse}
    (ran : run (ConditionUse.step kind maxvalue) (init parties) labels = some last)
    (below : Along (ConditionUse.step kind maxvalue)
      (fun use _ => use.condition.Below maxvalue) (init parties) labels) : last.Invariant := by
  refine invariant_along ?_ (invariant_init parties) below ran
  intro use label next invariant below taken
  exact invariant.step (fun _ _ => below.room) taken

structure Accounted (use : ConditionUse) : Prop where
  /-- The first assertion holds when a notification starts. -/
  unposted : ∀ party outcome, use.parties[party]? = some (.outside outcome) →
    SemLock.isMine use.condition.lock party = true → use.condition.waitSemaphore = 0
  /-- The second assertion finds a token for the one from `_woken_count`. -/
  matched : ∀ call, .matching call ∈ use.parties → 0 < use.condition.sleepingCount
  asserts : ∀ point ∈ use.parties, point ≠ raised .stalePost ∧ point ≠ raised .unmatchedWake
  counted : use.Quiet →
    use.condition.waitSemaphore = 0 ∧ use.condition.numWaiters = use.announced
  /-- A blocked notifier is released by as many parties as it waits for; those about to
  announce their wake-up and those for which there is a post do not block. -/
  releasers : ∀ point ∈ use.parties, ∀ left, point.awaited = some left →
    use.condition.wokenCount = 0 →
      left ≤ use.announced ∧ left ≤ use.waking + min use.condition.waitSemaphore use.asleep

/-- While somebody is in a notification, the sleepers have released the lock. -/
theorem Invariant.asleep_add_waking (invariant : use.Invariant)
    (found : use.parties[party]? = some point) (notifies : point.notifying = true) :
    use.asleep + use.waking = use.announced := by
  have mine := (invariant.fits party point found).mine notifies
  have nobody : tally Point.leaving use.parties = 0 := by
    apply Tally.tally_eq_zero
    intro other member
    cases other with
    | unlocking timed count i =>
        obtain ⟨position, present⟩ := List.getElem?_of_mem member
        obtain ⟨again, held, _⟩ := invariant.fits position _ present
        have same : position = party := by simpa [held, SemLock.isMine] using mine
        rw [same, found] at present
        cases present
        cases notifies
    | _ => rfl
  have parts : Point.announced =
      fun point => point.leaving + (point.asleep + point.wakes) := by
    funext point
    cases point <;> rfl
  unfold announced asleep waking
  rw [parts, Tally.tally_add, Tally.tally_add, nobody, Nat.zero_add]

theorem Invariant.accounted (invariant : use.Invariant) : use.Accounted := by
  constructor
  · intro party outcome found mine
    have phase := invariant.phase_of_mine found mine
    exact phase.1
  · intro call member
    obtain ⟨party, found⟩ := List.getElem?_of_mem member
    have phase := invariant.phase_of_mine found (invariant.fits party _ found)
    simp only [Phase] at phase
    omega
  · intro point member
    obtain ⟨party, found⟩ := List.getElem?_of_mem member
    have fits := invariant.fits party point found
    cases point with
    | outside outcome => simpa [Fits, raised] using fits
    | _ => exact ⟨nofun, nofun⟩
  · intro quiet
    have phase := (phase_of_quiet (current_quiet quiet)).mp invariant.phase
    refine ⟨phase.1, ?_⟩
    unfold Condition.numWaiters
    omega
  · intro point member left awaits free
    obtain ⟨party, found⟩ := List.getElem?_of_mem member
    have notifies : point.notifying = true := by cases point <;> first | rfl | cases awaits
    have parts := invariant.asleep_add_waking found notifies
    have phase := invariant.phase_of_mine found ((invariant.fits party point found).mine notifies)
    cases point with
    | notifyAwaiting =>
        cases awaits
        simp only [Phase] at phase
        omega
    | allAwaiting sleepers i =>
        cases awaits
        simp only [Phase] at phase
        omega
    | _ => cases awaits

/-- Whatever the parties do, and whenever their waits time out, the semaphores keep the
account of the sleepers as long as none of them reaches its maximum. -/
theorem sleepers_accounted {parties : Nat} {labels : List (Nat × PartyAction)} {last : ConditionUse}
    (ran : run (ConditionUse.step kind maxvalue) (init parties) labels = some last)
    (below : Along (ConditionUse.step kind maxvalue)
      (fun use _ => use.condition.Below maxvalue) (init parties) labels) : last.Accounted :=
  (invariant_of_run ran below).accounted

/-- The sleeper that is notified times out before it takes the post. -/
theorem sleepers_accounted_timedOut :
    ∃ labels last, run (ConditionUse.step .recursiveMutex 10) (init 2) labels = some last ∧
      last.parties = [.woken 1 false, .notifyAwaiting] ∧ last.Accounted := by
  let labels : List (Nat × PartyAction) :=
    [(0, .acquire), (0, .wait true), (0, .advance), (1, .acquire), (1, .notification .notify),
      (1, .advance), (1, .advance), (1, .advance), (0, .timeOut)]
  have below : Along (ConditionUse.step .recursiveMutex 10)
      (fun use _ => use.condition.Below 10) (init 2) labels := by
    iterate 9 refine .cons ⟨by decide, by decide, by decide⟩ rfl ?_
    exact True.intro
  have ran : run (ConditionUse.step .recursiveMutex 10) (init 2) labels = some _ := rfl
  exact ⟨labels, _, ran, rfl, sleepers_accounted ran below⟩

end ConditionUse

end Billiard
