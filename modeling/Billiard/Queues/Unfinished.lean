import Billiard.Queues.Joinable
import Billiard.Synchronize.Event

/-! The count of unfinished tasks of a joinable queue, and the joins that wait for it. -/

namespace Billiard

open Transition

variable {α : Type u}

/-- The promises of `put`, `task_done` and `join`.  Nothing that a `put` does after it has raised
the count can fail. -/
structure JoinableQueue.Accounts (maxvalue : Nat) (state : JoinableQueue α) : Prop where
  counted : state.unfinished + state.finished = state.counted
  completed : state.counted = state.returned + tally JoinablePoint.returning state.points
  latest : state.values.getLast? = some state.unfinished
  raises : ∀ party next, state.points[party]? = some .taking →
    state.step maxvalue (.advance party) = some next →
    (next.points[party]? = some (.leaving .taskDone .tooManyTimes) ↔
      state.counted = state.finished)
  unchanged : ∀ party next, state.points[party]? = some .taking →
    state.step maxvalue (.advance party) = some next → state.counted = state.finished →
    next = state.move party (.leaving .taskDone .tooManyTimes)
  succeeds : ∀ (party : Nat) (error : ConditionError),
    state.points[party]? ≠ some (.leaving .taskDone (.failed error))
  joins : ∀ during ∈ state.joins, 0 ∈ during

namespace JoinableCall

def Started (values : List Nat) : JoinableCall → Prop
  | .put | .taskDone => True
  | .join since => since < values.length

def Finishes (values : List Nat) : JoinableCall → JoinableOutcome → Prop
  | .join since, .returned => 0 ∈ values.drop since
  | .taskDone, .failed _ => False
  | _, _ => True

theorem Started.grow {values later : List Nat} {call : JoinableCall} (started : call.Started values)
    (grows : values <+: later) : call.Started later := by
  cases call with
  | put => exact True.intro
  | taskDone => exact True.intro
  | join since => exact Nat.lt_of_lt_of_le started grows.length_le

end JoinableCall

theorem zero_mem_drop {values later : List Nat} {since : Nat} (zero : 0 ∈ values.drop since)
    (grows : values <+: later) : 0 ∈ later.drop since := by
  obtain ⟨more, rfl⟩ := grows
  rw [List.drop_append]
  exact List.mem_append_left _ zero

theorem zero_mem_of_latest {values : List Nat} {since : Nat} (latest : values.getLast? = some 0)
    (started : since < values.length) : 0 ∈ values.drop since := by
  apply List.mem_of_getLast?
  rw [List.getLast?_drop, if_neg (Nat.not_le.mpr started), latest]

namespace JoinablePoint

/-- What is true while a party stands where it does; a join that is roused has been so by
somebody who found the count at zero. -/
def Stands (lock : Option Hold) (party unfinished : Nat) (values : List Nat) (inner : Point) :
    JoinablePoint → Prop
  | .outside => inner.isOutside = true
  | .entering call => inner.isOutside = true ∧ call.Started values
  | .appending | .counting | .taking | .testing =>
      SemLock.isMine lock party = true ∧ inner.isOutside = true
  | .callingNotify =>
      SemLock.isMine lock party = true ∧ inner.isOutside = true ∧ unfinished = 0
  | .notifying => SemLock.isMine lock party = true ∧ inner.notifying = true ∧ unfinished = 0
  | .looking since | .callingWait since =>
      SemLock.isMine lock party = true ∧ inner.isOutside = true ∧ since < values.length
  | .waiting since => inner.inWait false = true ∧ since < values.length ∧
      (inner.roused = true → 0 ∈ values.drop since)
  | .leaving call outcome => SemLock.isMine lock party = true ∧ inner.isOutside = true ∧
      call.Finishes values outcome

theorem Stands.keep {point : JoinablePoint} {lock rest : Option Hold}
    {party unfinished level : Nat} {values later : List Nat} {inner : Point}
    (stands : point.Stands lock party unfinished values inner)
    (apart : SemLock.isMine lock party = false ∨ rest = lock ∧ level = unfinished ∧ later = values)
    (grows : values <+: later) : point.Stands rest party level later inner := by
  obtain other | ⟨rfl, rfl, rfl⟩ := apart
  · cases point with
    | outside => exact stands
    | entering call => exact ⟨stands.1, stands.2.grow grows⟩
    | waiting since =>
        obtain ⟨waits, started, zero⟩ := stands
        exact ⟨waits, Nat.lt_of_lt_of_le started grows.length_le,
          fun roused => zero_mem_drop (zero roused) grows⟩
    | _ => exact absurd (stands.1.symm.trans other) nofun
  · exact stands

end JoinablePoint

namespace JoinableQueue

/-- Where the parties stand, in the queue and in its condition. -/
structure Placed (maxvalue : Nat) (use : ConditionUse) (unfinished : Nat) (values : List Nat)
    (points : List JoinablePoint) : Prop where
  condition : use.Invariant
  spare : use.Spare maxvalue
  length : points.length = use.parties.length
  latest : values.getLast? = some unfinished
  stands : ∀ (party : Nat) (point : JoinablePoint) (inner : Point),
    points[party]? = some point → use.parties[party]? = some inner →
      point.Stands use.condition.lock party unfinished values inner

structure Sound (maxvalue : Nat) (state : JoinableQueue α) : Prop where
  placed : Placed maxvalue state.use state.unfinished state.values state.points
  counted : state.unfinished + state.finished = state.counted
  completed : state.counted = state.returned + tally JoinablePoint.returning state.points
  joins : ∀ during ∈ state.joins, 0 ∈ during

variable {maxvalue : Nat} {state next : JoinableQueue α} {party : Nat} {point : JoinablePoint}
  {use : ConditionUse} {unfinished : Nat} {values : List Nat} {points : List JoinablePoint}

theorem Placed.present (placed : Placed maxvalue use unfinished values points)
    (found : points[party]? = some point) :
    ∃ inner, use.parties[party]? = some inner ∧
      point.Stands use.condition.lock party unfinished values inner := by
  obtain ⟨inner, here⟩ := Tally.exists_beside found placed.length
  exact ⟨inner, here, placed.stands party point inner found here⟩

/-- What a step of `party` has to show: the others stand where they stood, since only the holder
of the lock changes the count. -/
theorem Placed.set (placed : Placed maxvalue use unfinished values points) {after : ConditionUse}
    {level : Nat} {later : List Nat} {new : JoinablePoint} {moved : Point}
    (condition : after.Invariant) (spare : after.Spare maxvalue)
    (parties : after.parties = use.parties.set party moved)
    (apart : after.condition.lock = use.condition.lock ∧ level = unfinished ∧ later = values ∨
      SemLock.Open use.condition.lock party)
    (grows : values <+: later) (latest : later.getLast? = some level)
    (stands : new.Stands after.condition.lock party level later moved) :
    Placed maxvalue after level later (points.set party new) := by
  refine ⟨condition, spare, ?_, latest, ?_⟩
  · simpa [parties] using placed.length
  · rw [parties]
    refine Tally.forall_set_beside stands fun other place inside different here there => ?_
    refine (placed.stands other place inside here there).keep ?_ grows
    cases apart with
    | inl same => exact .inr same
    | inr free => exact .inl (free.not_other different)

/-- There is a post to take only while a `task_done` is in `notify_all`. -/
theorem Placed.zero_of_posted (placed : Placed maxvalue use unfinished values points)
    (posted : use.condition.waitSemaphore ≠ 0) : unfinished = 0 := by
  obtain ⟨owner, inner, present, notifies⟩ := placed.condition.notifier_of_posted posted
  obtain ⟨place, found⟩ := Tally.exists_beside present placed.length.symm
  have stands := placed.stands owner place inner found present
  have busy : inner.isOutside = false ∧ inner.inWait false = false := by
    cases inner <;> first | exact ⟨rfl, rfl⟩ | cases notifies
  cases place with
  | notifying =>
      exact stands.2.2
  | outside =>
      exact absurd (stands.symm.trans busy.1) nofun
  | entering call =>
      exact absurd (stands.1.symm.trans busy.1) nofun
  | waiting since =>
      exact absurd (stands.1.symm.trans busy.2) nofun
  | appending =>
      exact absurd (stands.2.symm.trans busy.1) nofun
  | counting =>
      exact absurd (stands.2.symm.trans busy.1) nofun
  | taking =>
      exact absurd (stands.2.symm.trans busy.1) nofun
  | testing =>
      exact absurd (stands.2.symm.trans busy.1) nofun
  | _ =>
      exact absurd (stands.2.1.symm.trans busy.1) nofun

/-- Where a party stands once a method of the condition has gone on. -/
def settle (moved : Point) (inside : JoinablePoint) (after : MethodOutcome → JoinablePoint) :
    JoinablePoint :=
  match moved with
  | .outside outcome => after outcome
  | _ => inside

variable {action : PartyAction} {inside : JoinablePoint} {after : MethodOutcome → JoinablePoint}

theorem delegate_cases (taken : state.delegate maxvalue party action inside after = some next) :
    ∃ (use : ConditionUse) (inner moved : Point), state.use.parties[party]? = some inner ∧
      state.use.step .recursiveMutex maxvalue (party, action) = some use ∧
      inner.act .recursiveMutex maxvalue state.use.condition party action =
        some (use.condition, moved) ∧
      use.parties = state.use.parties.set party moved ∧
      next = { state with use, points := state.points.set party (settle moved inside after) } := by
  unfold delegate at taken
  split at taken
  · cases taken
  · rename_i use stepped
    obtain ⟨inner, moved, found, acted, parties⟩ := ConditionUse.step_cases stepped
    refine ⟨use, inner, moved, found, stepped, acted, parties, ?_⟩
    have here : use.parties[party]? = some moved := by
      rw [parties]
      exact Tally.getElem?_set_found found moved
    rw [here] at taken
    unfold settle
    split at taken
    · rename_i outcome same
      cases same
      cases taken
      rfl
    · rename_i other
      cases taken
      split
      · exact absurd rfl (other _)
      · rfl

/-- The party goes from a point to another, and neither of them counts as returning. -/
theorem Sound.move (sound : state.Sound maxvalue) (found : state.points[party]? = some point)
    {new : JoinablePoint} (same : new.returning = point.returning)
    (stands : ∀ inner, state.use.parties[party]? = some inner →
      new.Stands state.use.condition.lock party state.unfinished state.values inner) :
    (state.move party new).Sound maxvalue := by
  obtain ⟨inner, here, _⟩ := sound.placed.present found
  have total := Tally.tally_set JoinablePoint.returning found new
  have completed := sound.completed
  exact {
    placed := sound.placed.set sound.placed.condition sound.placed.spare
      (Tally.set_self here).symm (.inl ⟨rfl, rfl, rfl⟩) (List.prefix_refl _)
      sound.placed.latest (stands inner here)
    counted := sound.counted
    completed := by
      dsimp only [JoinableQueue.move]
      omega
    joins := sound.joins }

theorem Sound.delegate (sound : state.Sound maxvalue)
    (found : state.points[party]? = some point)
    (taken : state.delegate maxvalue party action inside after = some next)
    (moves : ∀ (condition : Condition) (inner moved : Point),
      state.use.parties[party]? = some inner →
      inner.act .recursiveMutex maxvalue state.use.condition party action =
        some (condition, moved) →
      (condition.lock = state.use.condition.lock ∨
        SemLock.Open state.use.condition.lock party) ∧
      (settle moved inside after).Stands condition.lock party state.unfinished state.values moved)
    (same : ∀ moved, (settle moved inside after).returning = point.returning) :
    next.Sound maxvalue := by
  obtain ⟨use, inner, moved, here, stepped, acted, parties, rfl⟩ := delegate_cases taken
  obtain ⟨apart, stands⟩ := moves use.condition inner moved here acted
  have condition := sound.placed.condition.step
    (fun _ found => sound.placed.spare.room sound.placed.condition found) stepped
  have total := Tally.tally_set JoinablePoint.returning found (settle moved inside after)
  have completed := sound.completed
  rw [same moved] at total
  exact {
    placed := sound.placed.set condition (sound.placed.spare.step sound.placed.condition stepped)
      parties (apart.imp_left fun same => ⟨same, rfl, rfl⟩) (List.prefix_refl _)
      sound.placed.latest stands
    counted := sound.counted
    completed := by
      dsimp only
      omega
    joins := sound.joins }

theorem Sound.setUnfinished (sound : state.Sound maxvalue)
    (found : state.points[party]? = some point)
    (mine : SemLock.isMine state.use.condition.lock party = true) {level counted finished : Nat}
    {new : JoinablePoint} (balance : level + finished = counted)
    (pending : counted + point.returning = state.counted + new.returning)
    (stands : ∀ inner, state.use.parties[party]? = some inner →
      new.Stands state.use.condition.lock party level (state.values ++ [level]) inner) :
    ({ state.setUnfinished level with counted, finished }.move party new).Sound maxvalue := by
  obtain ⟨inner, here, _⟩ := sound.placed.present found
  have total := Tally.tally_set JoinablePoint.returning found new
  have completed := sound.completed
  exact {
    placed := sound.placed.set sound.placed.condition sound.placed.spare (Tally.set_self here).symm
      (.inr (.inr mine)) (List.prefix_append _ _) List.getLast?_concat (stands inner here)
    counted := balance
    completed := by
      dsimp only [JoinableQueue.move, JoinableQueue.setUnfinished]
      omega
    joins := sound.joins }

theorem settle_of_inWait {moved : Point} {timed : Bool} (waits : moved.inWait timed = true)
    (inside : JoinablePoint) (after : MethodOutcome → JoinablePoint) :
    settle moved inside after = inside := by
  cases moved with
  | outside outcome => cases waits
  | _ => rfl

theorem settle_of_notifying {moved : Point} (notifies : moved.notifying = true)
    (inside : JoinablePoint) (after : MethodOutcome → JoinablePoint) :
    settle moved inside after = inside := by
  cases moved with
  | outside outcome => cases notifies
  | _ => rfl

theorem settle_returning {inside : JoinablePoint} {call : JoinableCall}
    (idle : inside.returning = 0) (other : call ≠ .put) (moved : Point) :
    (settle moved inside (ended call)).returning = 0 := by
  cases moved with
  | outside outcome =>
      cases call with
      | put => exact absurd rfl other
      | taskDone => cases outcome <;> rfl
      | join since => cases outcome <;> rfl
  | _ => exact idle

theorem Sound.waiting (sound : state.Sound maxvalue) {since : Nat}
    (found : state.points[party]? = some (.waiting since))
    (taken : state.delegate maxvalue party .advance (.waiting since) (ended (.join since)) =
      some next) : next.Sound maxvalue := by
  refine sound.delegate found taken ?_ (settle_returning rfl nofun)
  intro condition inner moved here acted
  obtain ⟨waits, started, zero⟩ := sound.placed.stands party _ inner found here
  rcases Point.inWait_cases waits (sound.placed.condition.fits party inner here)
    (sound.placed.spare.room sound.placed.condition here) acted with
    ⟨mine, waits, asleep⟩ | ⟨roused, same, waits, _⟩ | ⟨roused, free, ⟨waits, _⟩ | ⟨mine, done⟩⟩
  · rw [settle_of_inWait waits]
    exact ⟨.inr (.inr mine), waits, started, fun awake => absurd (awake.symm.trans asleep) nofun⟩
  · rw [settle_of_inWait waits]
    refine ⟨.inl same, waits, started, fun _ => ?_⟩
    rcases roused with posted | roused
    · have latest := sound.placed.latest
      rw [sound.placed.zero_of_posted posted] at latest
      exact zero_mem_of_latest latest started
    · exact zero roused
  · rw [settle_of_inWait waits]
    exact ⟨.inr free, waits, started, fun _ => zero roused⟩
  · obtain ⟨result, rfl⟩ := done
    exact ⟨.inr free, mine, rfl, zero roused⟩

theorem Sound.notifying (sound : state.Sound maxvalue)
    (found : state.points[party]? = some .notifying)
    (taken : state.delegate maxvalue party .advance .notifying (ended .taskDone) = some next) :
    next.Sound maxvalue := by
  refine sound.delegate found taken ?_ (settle_returning rfl nofun)
  intro condition inner moved here acted
  obtain ⟨mine, notifies, zero⟩ := sound.placed.stands party _ inner found here
  have phase := sound.placed.condition.phase_of_mine here mine
  obtain ⟨same, stays, _⟩ := phase.advance notifies
    (sound.placed.spare.room sound.placed.condition here) acted
  rw [same]
  cases stays with
  | inl busy =>
      rw [settle_of_notifying busy]
      exact ⟨.inl rfl, mine, busy, zero⟩
  | inr done =>
      rw [done]
      exact ⟨.inl rfl, mine, rfl, True.intro⟩

theorem Sound.entering (sound : state.Sound maxvalue) {call : JoinableCall}
    (found : state.points[party]? = some (.entering call))
    (taken : state.delegate maxvalue party .acquire (.entering call) (fun _ => begun call) =
      some next) : next.Sound maxvalue := by
  refine sound.delegate found taken ?_ ?_
  · intro condition inner moved here acted
    obtain ⟨out, started⟩ := sound.placed.stands party _ inner found here
    obtain ⟨free, mine, outcome, rfl⟩ := Point.acquire_cases out acted
    refine ⟨.inr free, ?_⟩
    cases call with
    | put => exact ⟨mine, rfl⟩
    | taskDone => exact ⟨mine, rfl⟩
    | join since => exact ⟨mine, rfl, started⟩
  · intro moved
    cases moved with
    | outside outcome => cases call <;> rfl
    | _ => rfl

theorem Sound.callingNotify (sound : state.Sound maxvalue)
    (found : state.points[party]? = some .callingNotify)
    (taken : state.delegate maxvalue party (.notification .notifyAll) .notifying
      (ended .taskDone) = some next) : next.Sound maxvalue := by
  refine sound.delegate found taken ?_ (settle_returning rfl nofun)
  intro condition inner moved here acted
  obtain ⟨mine, out, zero⟩ := sound.placed.stands party _ inner found here
  obtain ⟨same, ⟨posted, _⟩ | busy⟩ := Point.notification_cases out mine acted
  · have quiet : inner.notifying = false := by
      cases inner <;> first | rfl | cases out
    have phase := sound.placed.condition.phase_of_mine here mine
    exact absurd ((Point.phase_of_quiet quiet).mp phase).1 posted
  · rw [settle_of_notifying busy, same]
    exact ⟨.inl rfl, mine, busy, zero⟩

theorem Sound.callingWait (sound : state.Sound maxvalue) {since : Nat}
    (found : state.points[party]? = some (.callingWait since))
    (taken : state.delegate maxvalue party (.wait false) (.waiting since)
      (ended (.join since)) = some next) : next.Sound maxvalue := by
  refine sound.delegate found taken ?_ (settle_returning rfl nofun)
  intro condition inner moved here acted
  obtain ⟨mine, out, started⟩ := sound.placed.stands party _ inner found here
  obtain ⟨same, ⟨error, rfl⟩ | ⟨waits, asleep⟩⟩ := Point.wait_cases out mine acted
  · rw [same]
    exact ⟨.inl rfl, mine, rfl, True.intro⟩
  · rw [settle_of_inWait waits, same]
    exact ⟨.inl rfl, waits, started, fun awake => absurd (awake.symm.trans asleep) nofun⟩

theorem Sound.leaving (sound : state.Sound maxvalue) {call : JoinableCall}
    {outcome : JoinableOutcome} (found : state.points[party]? = some (.leaving call outcome))
    (taken : state.delegate maxvalue party .release (.leaving call outcome) (fun _ => .outside) =
      some next) : (next.record call outcome).Sound maxvalue := by
  obtain ⟨use, inner, moved, here, stepped, acted, parties, rfl⟩ := delegate_cases taken
  obtain ⟨mine, out, finishes⟩ := sound.placed.stands party _ inner found here
  obtain ⟨last, rfl⟩ := Point.release_cases out acted
  have condition := sound.placed.condition.step
    (fun _ found => sound.placed.spare.room sound.placed.condition found) stepped
  have spare := sound.placed.spare.step sound.placed.condition stepped
  have total := Tally.tally_set JoinablePoint.returning found .outside
  have completed := sound.completed
  have placed : Placed maxvalue use state.unfinished state.values
      (state.points.set party .outside) :=
    sound.placed.set condition spare parties (.inr (.inr mine)) (List.prefix_refl _)
      sound.placed.latest rfl
  -- only the first two calls leave something in the histories
  have unrecorded : (JoinablePoint.leaving call outcome).returning = 0 →
      state.counted = state.returned + tally JoinablePoint.returning
        (state.points.set party .outside) := by
    intro none
    rw [none] at total
    dsimp only [JoinablePoint.returning] at total
    omega
  cases call with
  | put =>
      cases outcome with
      | returned =>
          refine ⟨placed, sound.counted, ?_, sound.joins⟩
          change state.counted = state.returned + 1 +
            tally JoinablePoint.returning (state.points.set party .outside)
          dsimp only [JoinablePoint.returning] at total
          omega
      | _ => exact ⟨placed, sound.counted, unrecorded rfl, sound.joins⟩
  | taskDone => exact ⟨placed, sound.counted, unrecorded rfl, sound.joins⟩
  | join since =>
      cases outcome with
      | returned =>
          refine ⟨placed, sound.counted, unrecorded rfl, fun during member => ?_⟩
          rcases List.mem_append.mp member with old | new
          · exact sound.joins during old
          · cases List.mem_singleton.mp new
            exact finishes
      | _ => exact ⟨placed, sound.counted, unrecorded rfl, sound.joins⟩

theorem Sound.advance (sound : state.Sound maxvalue) (found : state.points[party]? = some point)
    (taken : state.advance maxvalue party point = some next) : next.Sound maxvalue := by
  have stands : ∀ inner, state.use.parties[party]? = some inner → _ :=
    fun inner here => sound.placed.stands party point inner found here
  obtain ⟨inner, _, place⟩ := sound.placed.present found
  have counted := sound.counted
  cases point with
  | outside => cases taken
  | entering call => exact sound.entering found taken
  | appending =>
      obtain ⟨queue, _, same⟩ := Option.map_eq_some_iff.mp taken
      cases same
      have moved : (state.move party .counting).Sound maxvalue := sound.move found rfl stands
      exact { moved with }
  | counting =>
      simp only [JoinableQueue.advance] at taken
      split at taken
      · cases taken
        exact sound.move found rfl fun inner here =>
          ⟨(stands inner here).1, (stands inner here).2, True.intro⟩
      · rename_i level released
        obtain ⟨_, rfl⟩ := Semaphore.release_eq_ok released
        cases taken
        have balance : state.unfinished + 1 + state.finished = state.counted + 1 := by omega
        exact sound.setUnfinished found place.1 balance rfl fun inner here =>
          ⟨(stands inner here).1, (stands inner here).2, True.intro⟩
  | taking =>
      simp only [JoinableQueue.advance] at taken
      split at taken
      · cases taken
        exact sound.move found rfl fun inner here =>
          ⟨(stands inner here).1, (stands inner here).2, True.intro⟩
      · rename_i level acquired
        cases taken
        have lower : state.unfinished = level + 1 := by
          cases here : state.unfinished with
          | zero =>
              rw [here] at acquired
              cases acquired
          | succ value =>
              rw [here] at acquired
              cases acquired
              rfl
        have balance : level + (state.finished + 1) = state.counted := by omega
        exact sound.setUnfinished found place.1 balance rfl fun inner here =>
          ⟨(stands inner here).1, (stands inner here).2⟩
  | testing =>
      simp only [JoinableQueue.advance] at taken
      split at taken
      · rename_i zero
        cases taken
        exact sound.move found rfl fun inner here =>
          ⟨(stands inner here).1, (stands inner here).2, zero⟩
      · cases taken
        exact sound.move found rfl fun inner here =>
          ⟨(stands inner here).1, (stands inner here).2, True.intro⟩
  | callingNotify => exact sound.callingNotify found taken
  | notifying => exact sound.notifying found taken
  | looking since =>
      simp only [JoinableQueue.advance] at taken
      split at taken
      · rename_i zero
        cases taken
        have latest := sound.placed.latest
        rw [zero] at latest
        exact sound.move found rfl fun inner here =>
          ⟨(stands inner here).1, (stands inner here).2.1,
            zero_mem_of_latest latest (stands inner here).2.2⟩
      · cases taken
        exact sound.move found rfl stands
  | callingWait since => exact sound.callingWait found taken
  | waiting since => exact sound.waiting found taken
  | leaving call outcome =>
      obtain ⟨left, released, same⟩ := Option.map_eq_some_iff.mp taken
      cases same
      exact sound.leaving found released

theorem Sound.enter (sound : state.Sound maxvalue) {call : JoinableCall}
    (found : state.points[party]? = some .outside) (started : call.Started state.values) :
    (state.move party (.entering call)).Sound maxvalue :=
  sound.move found (by cases call <;> rfl) fun inner here =>
    ⟨sound.placed.stands party _ inner found here, started⟩

theorem Sound.call (sound : state.Sound maxvalue) {call : JoinableCall}
    (started : call.Started state.values) (taken : state.call party call = some next) :
    next.Sound maxvalue := by
  unfold JoinableQueue.call at taken
  split at taken
  · rename_i found _
    cases taken
    exact sound.enter found started
  · cases taken

theorem Sound.step (sound : state.Sound maxvalue) {label : JoinableStep α}
    (taken : state.step maxvalue label = some next) : next.Sound maxvalue := by
  cases label with
  | queue label =>
      obtain ⟨_, mapped⟩ := Option.ite_none_right_eq_some.mp taken
      obtain ⟨queue, _, same⟩ := Option.map_eq_some_iff.mp mapped
      cases same
      exact { sound with }
  | put party =>
      simp only [JoinableQueue.step, callPut] at taken
      split at taken
      · rename_i found _
        split at taken
        · cases taken
        · cases taken
          exact sound.enter found True.intro
      · cases taken
  | taskDone party =>
      have started : JoinableCall.taskDone.Started state.values := True.intro
      exact sound.call started taken
  | join party =>
      refine sound.call ?_ taken
      have latest := sound.placed.latest
      cases values : state.values with
      | nil =>
          rw [values] at latest
          cases latest
      | cons first rest => exact Nat.lt_succ_self rest.length
  | advance party =>
      obtain ⟨point, found, advanced⟩ := Option.bind_eq_some_iff.mp taken
      exact sound.advance found advanced

theorem sound_init (maxsize parties maxvalue : Nat) :
    (init maxsize parties : JoinableQueue α).Sound maxvalue where
  placed := by
    refine ⟨ConditionUse.invariant_init parties, ConditionUse.spare_init parties maxvalue,
      by simp [init, ConditionUse.init], rfl, ?_⟩
    intro party point inner found here
    obtain ⟨_, rfl⟩ := List.mem_replicate.mp (List.mem_of_getElem? found)
    obtain ⟨_, rfl⟩ := List.mem_replicate.mp (List.mem_of_getElem? here)
    rfl
  counted := rfl
  completed := by
    have none : tally JoinablePoint.returning (List.replicate parties .outside) = 0 := by
      apply Tally.tally_eq_zero
      intro point member
      rw [(List.mem_replicate.mp member).2]
      rfl
    exact (congrArg (0 + ·) none).symm
  joins := nofun

/-- `task_done` finds the count at zero exactly when it has been lowered as often as raised. -/
theorem Sound.taking_cases (sound : state.Sound maxvalue)
    (found : state.points[party]? = some .taking)
    (taken : state.step maxvalue (.advance party) = some next) :
    state.counted = state.finished ∧ next = state.move party (.leaving .taskDone .tooManyTimes) ∨
      state.counted ≠ state.finished ∧ next.points[party]? = some .testing := by
  have counted := sound.counted
  obtain ⟨point, here, advanced⟩ := Option.bind_eq_some_iff.mp taken
  rw [found] at here
  cases here
  simp only [JoinableQueue.advance] at advanced
  cases level : state.unfinished with
  | zero =>
      rw [level] at advanced
      cases advanced
      exact .inl ⟨by omega, rfl⟩
  | succ value =>
      rw [level] at advanced
      cases advanced
      exact .inr ⟨by omega, Tally.getElem?_set_found found .testing⟩

theorem Sound.accounts (sound : state.Sound maxvalue) : state.Accounts maxvalue where
  counted := sound.counted
  completed := sound.completed
  latest := sound.placed.latest
  raises := by
    intro party next found taken
    rcases sound.taking_cases found taken with ⟨none, rfl⟩ | ⟨some, testing⟩
    · exact iff_of_true (Tally.getElem?_set_found found _) none
    · rw [testing]
      exact iff_of_false nofun some
  unchanged := by
    intro party next found taken none
    rcases sound.taking_cases found taken with ⟨_, same⟩ | ⟨some, _⟩
    · exact same
    · exact absurd none some
  succeeds := by
    intro party error found
    obtain ⟨_, _, stands⟩ := sound.placed.present found
    exact stands.2.2
  joins := sound.joins

/-- Under the new methods the queue does what a `Queue` does. -/
theorem step_queue {label : JoinableStep α} (taken : state.step maxvalue label = some next) :
    next.queue = state.queue ∨ ∃ inner, state.queue.step inner = some next.queue := by
  have called : ∀ {party : Nat} {call : JoinableCall}, state.call party call = some next →
      next.queue = state.queue := by
    intro party call taken
    unfold JoinableQueue.call at taken
    split at taken
    · cases taken
      rfl
    · cases taken
  have delegated : ∀ {party : Nat} {action : PartyAction} {inside : JoinablePoint}
      {after : MethodOutcome → JoinablePoint} {next : JoinableQueue α},
      state.delegate maxvalue party action inside after = some next →
      next.queue = state.queue := by
    intro party action inside after next taken
    obtain ⟨_, _, _, _, _, _, _, rfl⟩ := delegate_cases taken
    rfl
  cases label with
  | queue label =>
      obtain ⟨_, mapped⟩ := Option.ite_none_right_eq_some.mp taken
      obtain ⟨queue, moved, same⟩ := Option.map_eq_some_iff.mp mapped
      cases same
      exact .inr ⟨label, moved⟩
  | put party =>
      simp only [JoinableQueue.step, callPut] at taken
      split at taken
      · split at taken
        · cases taken
        · cases taken
          exact .inl rfl
      · cases taken
  | taskDone party => exact .inl (called taken)
  | join party => exact .inl (called taken)
  | advance party =>
      obtain ⟨point, _, advanced⟩ := Option.bind_eq_some_iff.mp taken
      cases point with
      | outside => cases advanced
      | entering call => exact .inl (delegated advanced)
      | appending =>
          obtain ⟨queue, moved, same⟩ := Option.map_eq_some_iff.mp advanced
          cases same
          exact .inr ⟨_, moved⟩
      | counting =>
          simp only [JoinableQueue.advance] at advanced
          split at advanced <;> cases advanced <;> exact .inl rfl
      | taking =>
          simp only [JoinableQueue.advance] at advanced
          split at advanced <;> cases advanced <;> exact .inl rfl
      | testing =>
          simp only [JoinableQueue.advance] at advanced
          split at advanced <;> cases advanced <;> exact .inl rfl
      | callingNotify => exact .inl (delegated advanced)
      | notifying => exact .inl (delegated advanced)
      | looking since =>
          simp only [JoinableQueue.advance] at advanced
          split at advanced <;> cases advanced <;> exact .inl rfl
      | callingWait since => exact .inl (delegated advanced)
      | waiting since => exact .inl (delegated advanced)
      | leaving call outcome =>
          obtain ⟨left, released, same⟩ := Option.map_eq_some_iff.mp advanced
          have kept : (left.record call outcome).queue = left.queue := by
            cases call <;> cases outcome <;> rfl
          cases same
          exact .inl (kept.trans (delegated released))

/-- So what holds in every run of a `Queue` holds of the queue of every joinable queue. -/
theorem queue_reachable {maxsize parties : Nat} {labels : List (JoinableStep α)}
    {last : JoinableQueue α} (ran : run (step maxvalue) (init maxsize parties) labels = some last) :
    Reachable QueueState.step (QueueState.init maxsize) last.queue := by
  have kept : ∀ (state : JoinableQueue α) (label : JoinableStep α) (next : JoinableQueue α),
      Reachable QueueState.step (QueueState.init maxsize) state.queue →
      state.step maxvalue label = some next →
      Reachable QueueState.step (QueueState.init maxsize) next.queue := by
    intro state label next reached taken
    rcases step_queue taken with same | ⟨inner, moved⟩
    · rw [same]
      exact reached
    · exact reached.tail moved
  exact invariant_run kept (Reachable.refl _) ran

/-- The count is what its history says, and no join returns without having seen it at zero. -/
theorem accounts_of_run {maxsize parties : Nat} {labels : List (JoinableStep α)}
    {last : JoinableQueue α} (ran : run (step maxvalue) (init maxsize parties) labels = some last) :
    last.Accounts maxvalue := by
  have sound := invariant_run (fun _ _ _ sound taken => Sound.step sound taken)
    (sound_init (α := α) maxsize parties maxvalue) ran
  exact sound.accounts

/-- A join waits for the one task of a queue, which its producer gets back and finishes. -/
def oneTask : List (JoinableStep Nat) :=
  [.queue (.call 0), .queue (.call 0), .queue (.put 0 7 .blocking), .queue (.acquire 0), .put 0] ++
    List.replicate 4 (.advance 0) ++ .join 1 :: List.replicate 4 (.advance 1) ++
    [.queue (.wake 0), .queue (.pop 0), .queue (.lockPipe 0), .queue (.send 0),
      .queue (.get 0 .blocking), .queue (.lock 0), .queue (.receive 0), .queue (.unlock 0),
      .queue (.release 0), .taskDone 0] ++
    List.replicate 8 (.advance 0) ++ List.replicate 2 (.advance 1) ++
    List.replicate 3 (.advance 0) ++ List.replicate 2 (.advance 1)

theorem accounts_oneTask : ∃ last,
    run (step 2147483647) (init 1 2) oneTask = some last ∧ last.joins = [[1, 0]] ∧
      last.Accounts 2147483647 := by
  have ran : run (step 2147483647) (init 1 2) oneTask = some _ := rfl
  exact ⟨_, ran, rfl, accounts_of_run ran⟩

end JoinableQueue

end Billiard
