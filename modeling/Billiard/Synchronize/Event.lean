import Billiard.Synchronize.Sleepers

/-! The class `Event` of `synchronize.py`: a flag, and a condition over a `Lock`. -/

namespace Billiard

open Transition

inductive EventCall where
  | isSet
  | set
  | clear
  | wait (timed : Bool)
deriving DecidableEq, Repr

/-- Where a party stands in a method of the event, before its next operation on the
flag or on the condition. -/
inductive EventPoint where
  | outside (last : Option (EventCall × MethodOutcome))
  | entering (call : EventCall)
  | probing (call : EventCall)
  | restoring (call : EventCall)
  | callingNotify
  | notifying
  | callingWait (timed : Bool)
  | waiting (timed : Bool)
  | reading (timed : Bool)
  | rereleasing (timed : Bool)
  | leaving (call : EventCall) (outcome : MethodOutcome)
deriving DecidableEq, Repr

inductive EventAction where
  | call (call : EventCall)
  | advance
  | timeOut
deriving DecidableEq, Repr

/-- `use.parties` is where the parties stand in the methods of the condition. -/
structure Event where
  use : ConditionUse
  flag : Nat
  points : List EventPoint
deriving DecidableEq, Repr

namespace Point

def isOutside : Point → Bool
  | .outside _ => true
  | _ => false

/-- The party is in `wait`, called with a timeout or without. -/
def inWait (timed : Bool) : Point → Bool
  | .unlocking given .. | .sleeping given _ => given == timed
  | .woken .. | .relocking .. => true
  | _ => false

/-- The party has left its sleep and wants the lock back. -/
def roused : Point → Bool
  | .woken .. | .relocking .. => true
  | _ => false

variable {kind : LockKind} {maxvalue party : Nat} {condition after : Condition}
  {point moved : Point} {timed : Bool}

/-- The next operation of a party in `wait` gives up the lock, leaves the sleep with a post or
comes nearer to the lock, until it has it and returns. -/
theorem inWait_cases (waits : point.inWait timed = true) (fits : point.Fits condition.lock party)
    (room : point.Room maxvalue condition)
    (taken : point.advance kind maxvalue condition party = some (after, moved)) :
    (SemLock.isMine condition.lock party = true ∧ moved.inWait timed = true ∧
      moved.roused = false) ∨
    ((condition.waitSemaphore ≠ 0 ∨ point.roused = true) ∧ after.lock = condition.lock ∧
      moved.inWait timed = true ∧ moved.roused = true) ∨
    (point.roused = true ∧ SemLock.Open condition.lock party ∧
      (moved.inWait timed = true ∧ moved.roused = true ∨
        SemLock.isMine after.lock party = true ∧ ∃ result, moved = returned result)) := by
  cases point with
  | unlocking given count i =>
      obtain ⟨again, held, rounds⟩ := fits
      have mine := SemLock.isMine_iff.mpr ⟨again, held⟩
      refine .inl ⟨mine, ?_⟩
      cases again with
      | zero =>
          have last : ¬i + 1 < count := by omega
          simp only [advance, SemLock.release, held, if_true, last, if_false] at taken
          cases taken
          exact ⟨waits, rfl⟩
      | succ again =>
          have more : i + 1 < count := by omega
          simp only [advance, SemLock.release, held, if_true, more] at taken
          cases taken
          exact ⟨waits, rfl⟩
  | sleeping given count =>
      simp only [advance] at taken
      cases posted : condition.waitSemaphore with
      | zero =>
          rw [posted] at taken
          cases taken
      | succ waitSemaphore =>
          rw [posted] at taken
          cases taken
          exact .inr (.inl ⟨.inl (Nat.succ_ne_zero _), rfl, rfl, rfl⟩)
  | woken count result =>
      have below : condition.wokenCount < maxvalue := room
      simp only [advance, Semaphore.release_of_lt below] at taken
      cases taken
      exact .inr (.inl ⟨.inr rfl, rfl, rfl, rfl⟩)
  | relocking count i result =>
      simp only [advance] at taken
      split at taken
      · cases taken
      · rename_i hold acquired
        obtain ⟨free, mine⟩ := SemLock.acquire_open acquired
        cases taken
        refine .inr (.inr ⟨rfl, free, ?_⟩)
        split
        · exact .inl ⟨rfl, rfl⟩
        · exact .inr ⟨mine, _, rfl⟩
  | _ => cases waits

theorem acquire_cases (out : point.isOutside = true)
    (taken : point.act kind maxvalue condition party .acquire = some (after, moved)) :
    SemLock.Open condition.lock party ∧ SemLock.isMine after.lock party = true ∧
      ∃ outcome, moved = .outside outcome := by
  cases point with
  | outside last =>
      simp only [act] at taken
      split at taken
      · cases taken
      · rename_i hold acquired
        obtain ⟨free, mine⟩ := SemLock.acquire_open acquired
        cases taken
        exact ⟨free, mine, _, rfl⟩
  | _ => cases out

theorem release_cases (out : point.isOutside = true)
    (taken : point.act kind maxvalue condition party .release = some (after, moved)) :
    ∃ outcome, moved = .outside outcome := by
  cases point with
  | outside last =>
      simp only [act] at taken
      split at taken
      · cases taken
      · cases taken
        exact ⟨_, rfl⟩
  | _ => cases out

theorem wait_cases (out : point.isOutside = true)
    (mine : SemLock.isMine condition.lock party = true)
    (taken : point.act kind maxvalue condition party (.wait timed) = some (after, moved)) :
    after.lock = condition.lock ∧
      ((∃ error, moved = raised error) ∨ moved.inWait timed = true ∧ moved.roused = false) := by
  obtain ⟨again, held⟩ := SemLock.isMine_iff.mp mine
  cases point with
  | outside last =>
      simp only [act, wait, held, if_true] at taken
      split at taken
      · cases taken
        exact ⟨rfl, .inl ⟨_, rfl⟩⟩
      · cases taken
        exact ⟨held.symm, .inr ⟨beq_self_eq_true timed, rfl⟩⟩
  | _ => cases out

theorem notification_cases {call : Notification} (out : point.isOutside = true)
    (mine : SemLock.isMine condition.lock party = true)
    (taken : point.act kind maxvalue condition party (.notification call) =
      some (after, moved)) :
    after.lock = condition.lock ∧
      (condition.waitSemaphore ≠ 0 ∧ (∃ error, moved = raised error) ∨
        moved.notifying = true) := by
  cases point with
  | outside last =>
      simp only [act, notification, mine, if_true] at taken
      split at taken
      · rename_i waitSemaphore acquired
        have posted := Semaphore.acquire_lt acquired
        cases taken
        exact ⟨rfl, .inl ⟨by omega, _, rfl⟩⟩
      · cases taken
        exact ⟨rfl, .inr rfl⟩
  | _ => cases out

end Point

namespace EventPoint

/-- The party has taken the flag down and puts it up again with its next operation. -/
def transient : EventPoint → Bool
  | .restoring _ | .rereleasing _ => true
  | _ => false

def Stands (lock : Option Hold) (party flag : Nat) (inner : Point) :
    EventPoint → Prop
  | .outside last => inner.isOutside = true ∧
      ∀ result, last = some (.wait false, .returned result) → result = some true
  | .entering _ => inner.isOutside = true
  | .waiting timed => inner.inWait timed = true
  | .notifying => SemLock.isMine lock party = true ∧ inner.notifying = true ∧ 0 < flag
  | .probing _ | .callingWait _ => SemLock.isMine lock party = true ∧ inner.isOutside = true
  | .restoring _ | .rereleasing _ =>
      SemLock.isMine lock party = true ∧ inner.isOutside = true ∧ flag = 0
  | .callingNotify => SemLock.isMine lock party = true ∧ inner.isOutside = true ∧ 0 < flag
  | .reading timed =>
      SemLock.isMine lock party = true ∧ inner.isOutside = true ∧ (timed = false → 0 < flag)
  | .leaving call outcome => SemLock.isMine lock party = true ∧ inner.isOutside = true ∧
      ∀ result, (call, outcome) = (.wait false, .returned result) → result = some true

theorem Stands.keep {point : EventPoint} {lock rest : Option Hold} {party flag level : Nat}
    {inner : Point}
    (stands : point.Stands lock party flag inner)
    (apart : SemLock.isMine lock party = false ∨ rest = lock ∧ level = flag) :
    point.Stands rest party level inner := by
  obtain other | ⟨rfl, rfl⟩ := apart
  · cases point with
    | outside last => exact stands
    | entering call => exact stands
    | waiting timed => exact stands
    | _ => exact absurd (stands.1.symm.trans other) nofun
  · exact stands

end EventPoint

namespace Event

def init (parties : Nat) : Event :=
  ⟨.init parties, 0, List.replicate parties (.outside none)⟩

def move (event : Event) (party : Nat) (point : EventPoint) : Event :=
  { event with points := event.points.set party point }

variable (maxvalue : Nat)

/-- An operation of the party on the condition; where the party is outside the
methods of the condition after it, `after` takes the outcome of the call. -/
def delegate (event : Event) (party : Nat) (action : PartyAction) (inside : EventPoint)
    (after : MethodOutcome → EventPoint) : Option Event :=
  match event.use.step .semaphore maxvalue (party, action) with
  | none => none
  | some use =>
      let event := { event with use }
      match use.parties[party]? with
      | some (.outside outcome) => some (event.move party (after outcome))
      | _ => some (event.move party inside)

/-- `self._flag.release()` -/
def releaseFlag (event : Event) (party : Nat) (call : EventCall) (point : EventPoint) : Event :=
  match Semaphore.release maxvalue event.flag with
  | .error error => event.move party (.leaving call (.raised (.sem error)))
  | .ok flag => { event with flag }.move party point

/-- The end of a method of the condition that the event calls. -/
def resume (call : EventCall) (point : EventPoint) : MethodOutcome → EventPoint
  | .returned _ => point
  | .raised error => .leaving call (.raised error)

/-- What follows the first `self._flag.acquire(False)` of a method. -/
def probed (call : EventCall) (found : Bool) : EventPoint :=
  match call, found with
  | .isSet, true | .set, _ | .wait _, true => .restoring call
  | .isSet, false => .leaving call (.returned (some false))
  | .clear, _ => .leaving call (.returned none)
  | .wait timed, false => .callingWait timed

/-- What follows the `self._flag.release()` after it. -/
def restored : EventCall → EventPoint
  | .isSet => .leaving .isSet (.returned (some true))
  | .set => .callingNotify
  | .clear => .leaving .clear (.returned none)
  | .wait timed => .reading timed

def advance (event : Event) (party : Nat) : EventPoint → Option Event
  | .outside _ => none
  | .entering call =>
      event.delegate maxvalue party .acquire (.entering call) fun _ => .probing call
  | .probing call =>
      match Semaphore.acquire event.flag with
      | some flag => some ({ event with flag }.move party (probed call true))
      | none => some (event.move party (probed call false))
  | .restoring call => some (event.releaseFlag maxvalue party call (restored call))
  | .callingNotify =>
      event.delegate maxvalue party (.notification .notifyAll) .notifying
        (resume .set (.leaving .set (.returned none)))
  | .notifying =>
      event.delegate maxvalue party .advance .notifying
        (resume .set (.leaving .set (.returned none)))
  | .callingWait timed =>
      event.delegate maxvalue party (.wait timed) (.waiting timed)
        (resume (.wait timed) (.reading timed))
  | .waiting timed =>
      event.delegate maxvalue party .advance (.waiting timed)
        (resume (.wait timed) (.reading timed))
  | .reading timed =>
      match Semaphore.acquire event.flag with
      | some flag => some ({ event with flag }.move party (.rereleasing timed))
      | none => some (event.move party (.leaving (.wait timed) (.returned (some false))))
  | .rereleasing timed =>
      some (event.releaseFlag maxvalue party (.wait timed)
        (.leaving (.wait timed) (.returned (some true))))
  | .leaving call outcome =>
      event.delegate maxvalue party .release (.leaving call outcome) fun _ =>
        .outside (some (call, outcome))

def step (event : Event) (label : Nat × EventAction) : Option Event :=
  match event.points[label.1]? with
  | none => none
  | some point =>
      match label.2, point with
      | .call call, .outside _ => some (event.move label.1 (.entering call))
      | .advance, point => event.advance maxvalue label.1 point
      | .timeOut, .waiting timed =>
          event.delegate maxvalue label.1 .timeOut (.waiting timed)
            (resume (.wait timed) (.reading timed))
      | _, _ => none

/-- A call of `wait` without a timeout has returned nothing but `True`. -/
def WaitsReturnTrue (event : Event) : Prop :=
  ∀ (party : Nat) (result : Option Bool),
    event.points[party]? = some (.outside (some (.wait false, .returned result))) →
      result = some true

/-- A waiter without a timeout has been woken and has not got the lock back. -/
def waiterRoused (event : Event) : Bool :=
  (event.points.zip event.use.parties).any fun place =>
    place.1 == .waiting false && place.2.roused

/-- Where a party is about to take the flag down in `clear`, no waiter without a
timeout is between its wake-up and the lock. -/
def Undisturbed (event : Event) (label : Nat × EventAction) : Prop :=
  label.2 = .advance → event.points[label.1]? = some (.probing .clear) →
    event.flag = 0 ∨ event.waiterRoused = false

instance (event : Event) (label : Nat × EventAction) : Decidable (event.Undisturbed label) := by
  unfold Undisturbed
  infer_instance

/-- The flag is up, but for a party that is about to put it up again. -/
def Up (event : Event) : Prop :=
  0 < event.flag ∨
    ∃ (party : Nat) (point : EventPoint), event.points[party]? = some point ∧
      point.transient = true

structure Sound (event : Event) : Prop where
  condition : event.use.Invariant
  spare : event.use.Spare maxvalue
  length : event.points.length = event.use.parties.length
  bounded : event.flag ≤ 1
  stands : ∀ (party : Nat) (point : EventPoint) (inner : Point),
    event.points[party]? = some point → event.use.parties[party]? = some inner →
      point.Stands event.use.condition.lock party event.flag inner
  up : event.waiterRoused = true → event.Up

variable {maxvalue : Nat} {event : Event} {party : Nat} {point : EventPoint} {inner : Point}

theorem roused_iff : event.waiterRoused = true ↔
    ∃ (party : Nat) (inner : Point), event.points[party]? = some (.waiting false) ∧
      event.use.parties[party]? = some inner ∧ inner.roused = true := by
  simp only [waiterRoused, List.any_eq_true, Prod.exists, Bool.and_eq_true, beq_iff_eq]
  constructor
  · rintro ⟨point, inner, member, rfl, roused⟩
    obtain ⟨party, found⟩ := List.getElem?_of_mem member
    obtain ⟨here, there⟩ := List.getElem?_zip_eq_some.mp found
    exact ⟨party, inner, here, there, roused⟩
  · rintro ⟨party, inner, here, there, roused⟩
    have found : (event.points.zip event.use.parties)[party]? = some (.waiting false, inner) :=
      List.getElem?_zip_eq_some.mpr ⟨here, there⟩
    exact ⟨.waiting false, inner, List.mem_of_getElem? found, rfl, roused⟩

theorem Sound.present (sound : event.Sound maxvalue)
    (found : event.points[party]? = some point) :
    ∃ inner, event.use.parties[party]? = some inner ∧
      point.Stands event.use.condition.lock party event.flag inner := by
  obtain ⟨inner, here⟩ := Tally.exists_beside found sound.length
  exact ⟨inner, here, sound.stands party point inner found here⟩

/-- What a step of `party` has to show: the others stand where they stood, since only
the holder of the lock moves the flag. -/
theorem Sound.set (sound : event.Sound maxvalue)
    {use : ConditionUse} {flag : Nat} {new : EventPoint} {moved : Point}
    (condition : use.Invariant) (spare : use.Spare maxvalue)
    (parties : use.parties = event.use.parties.set party moved)
    (apart : use.condition.lock = event.use.condition.lock ∧ flag = event.flag ∨
      SemLock.Open event.use.condition.lock party)
    (bounded : flag ≤ 1)
    (stands : new.Stands use.condition.lock party flag moved)
    (up : event.waiterRoused = true ∨ new = .waiting false ∧ moved.roused = true →
      Up ⟨use, flag, event.points.set party new⟩) :
    Sound maxvalue ⟨use, flag, event.points.set party new⟩ := by
  refine ⟨condition, spare, ?_, bounded, ?_, ?_⟩
  · simpa [parties] using sound.length
  · dsimp only
    rw [parties]
    refine Tally.forall_set_beside stands fun other place inside different here there => ?_
    refine (sound.stands other place inside here there).keep ?_
    cases apart with
    | inl same => exact .inr same
    | inr free => exact .inl (free.not_other different)
  · intro roused
    obtain ⟨other, inside, here, there, awake⟩ := roused_iff.mp roused
    dsimp only at there
    rw [parties] at there
    have before : ∀ (other : Nat) (place : EventPoint) (inside : Point),
        (event.points.set party new)[other]? = some place →
        (event.use.parties.set party moved)[other]? = some inside →
        place = .waiting false → inside.roused = true →
        event.waiterRoused = true ∨ new = .waiting false ∧ moved.roused = true := by
      refine Tally.forall_set_beside (fun waits awake => .inr ⟨waits, awake⟩) ?_
      rintro other _ inside _ here there rfl awake
      exact .inl (roused_iff.mpr ⟨other, inside, here, there, awake⟩)
    exact up (before other _ inside here there rfl awake)

theorem Up.set (up : event.Up) (found : event.points[party]? = some point) {use : ConditionUse}
    {flag : Nat} {new : EventPoint}
    (level : event.flag ≤ flag ∧ point.transient = false ∨ 0 < flag ∨ new.transient = true) :
    Up ⟨use, flag, event.points.set party new⟩ := by
  obtain ⟨higher, stable⟩ | positive | transient := level
  · obtain positive | ⟨other, place, here, transient⟩ := up
    · exact .inl (Nat.lt_of_lt_of_le positive higher)
    · have different : party ≠ other := by
        rintro rfl
        rw [found] at here
        cases here
        rw [stable] at transient
        cases transient
      refine .inr ⟨other, place, ?_, transient⟩
      dsimp only
      rw [List.getElem?_set_ne different]
      exact here
  · exact .inl positive
  · exact .inr ⟨party, new, Tally.getElem?_set_found found new, transient⟩

/-- Where a party stands once a method of the condition has gone on. -/
def settle (moved : Point) (inside : EventPoint) (after : MethodOutcome → EventPoint) :
    EventPoint :=
  match moved with
  | .outside outcome => after outcome
  | _ => inside

variable {next : Event} {action : PartyAction} {inside : EventPoint}
  {after : MethodOutcome → EventPoint}

theorem delegate_cases (taken : event.delegate maxvalue party action inside after = some next) :
    ∃ (use : ConditionUse) (inner moved : Point), event.use.parties[party]? = some inner ∧
      event.use.step .semaphore maxvalue (party, action) = some use ∧
      inner.act .semaphore maxvalue event.use.condition party action =
        some (use.condition, moved) ∧
      use.parties = event.use.parties.set party moved ∧
      next = ⟨use, event.flag, event.points.set party (settle moved inside after)⟩ := by
  unfold delegate at taken
  split at taken
  · cases taken
  · rename_i use stepped
    obtain ⟨inner, moved, found, acted, parties⟩ := ConditionUse.step_cases stepped
    refine ⟨use, inner, moved, found, stepped, acted, parties, ?_⟩
    have here : use.parties[party]? = some moved := by
      rw [parties]
      exact Tally.getElem?_set_found found moved
    rw [here] at taken
    unfold settle
    split at taken
    · rename_i outcome same
      cases same
      cases taken
      rfl
    · rename_i other
      cases taken
      split
      · exact absurd rfl (other _)
      · rfl

theorem Sound.delegate (sound : event.Sound maxvalue)
    (found : event.points[party]? = some point) (stable : point.transient = false)
    (taken : event.delegate maxvalue party action inside after = some next)
    (moves : ∀ (condition : Condition) (inner moved : Point),
      event.use.parties[party]? = some inner →
      inner.act .semaphore maxvalue event.use.condition party action = some (condition, moved) →
      (condition.lock = event.use.condition.lock ∨
        SemLock.Open event.use.condition.lock party) ∧
      (settle moved inside after).Stands condition.lock party event.flag moved ∧
      (settle moved inside after = .waiting false → moved.roused = true → event.Up)) :
    next.Sound maxvalue := by
  obtain ⟨use, inner, moved, here, stepped, acted, parties, rfl⟩ := delegate_cases taken
  obtain ⟨apart, stands, up⟩ := moves use.condition inner moved here acted
  have condition := sound.condition.step
    (fun _ found => sound.spare.room sound.condition found) stepped
  refine sound.set condition (sound.spare.step sound.condition stepped) parties
    (apart.imp_left fun same => ⟨same, rfl⟩) sound.bounded stands ?_
  intro roused
  have raised : event.Up := by
    obtain before | ⟨waits, awake⟩ := roused
    · exact sound.up before
    · exact up waits awake
  exact raised.set found (.inl ⟨Nat.le_refl _, stable⟩)

/-- An operation on the flag by the holder of the lock. -/
theorem Sound.flagged (sound : event.Sound maxvalue)
    (found : event.points[party]? = some point)
    (mine : SemLock.isMine event.use.condition.lock party = true) {flag : Nat} {new : EventPoint}
    (bounded : flag ≤ 1)
    (stands : ∀ inner, event.use.parties[party]? = some inner →
      new.Stands event.use.condition.lock party flag inner)
    (asleep : new ≠ .waiting false)
    (level : event.waiterRoused = true →
      event.flag ≤ flag ∧ point.transient = false ∨ 0 < flag ∨ new.transient = true) :
    Sound maxvalue ⟨event.use, flag, event.points.set party new⟩ := by
  obtain ⟨inner, here, _⟩ := sound.present found
  refine sound.set sound.condition sound.spare (Tally.set_self here).symm
    (.inr (.inr mine)) bounded (stands inner here) ?_
  intro roused
  obtain before | ⟨waits, _⟩ := roused
  · exact (sound.up before).set found (level before)
  · exact absurd waits asleep

/-- There is a post to take only while a `set` is in `notify_all`. -/
theorem Sound.raised_of_posted (sound : event.Sound maxvalue)
    (posted : event.use.condition.waitSemaphore ≠ 0) : 0 < event.flag := by
  obtain ⟨owner, inner, present, notifies⟩ := sound.condition.notifier_of_posted posted
  obtain ⟨place, found⟩ := Tally.exists_beside present sound.length.symm
  have stands := sound.stands owner place inner found present
  have busy : inner.isOutside = false ∧ ∀ timed, inner.inWait timed = false := by
    cases inner <;> first | exact ⟨rfl, fun _ => rfl⟩ | cases notifies
  cases place with
  | notifying =>
      exact stands.2.2
  | waiting timed =>
      exact absurd (stands.symm.trans (busy.2 timed)) nofun
  | entering call =>
      exact absurd (stands.symm.trans busy.1) nofun
  | outside last =>
      exact absurd (stands.1.symm.trans busy.1) nofun
  | probing call =>
      exact absurd (stands.2.symm.trans busy.1) nofun
  | callingWait timed =>
      exact absurd (stands.2.symm.trans busy.1) nofun
  | _ =>
      exact absurd (stands.2.1.symm.trans busy.1) nofun

/-- While a party may take the lock, nobody is about to put the flag up again. -/
theorem Sound.raised_of_open (sound : event.Sound maxvalue) (up : event.Up)
    (free : SemLock.Open event.use.condition.lock party)
    (found : event.points[party]? = some point) (stable : point.transient = false) :
    0 < event.flag := by
  obtain raised | ⟨other, place, here, transient⟩ := up
  · exact raised
  · obtain ⟨inner, _, stands⟩ := sound.present here
    have mine : SemLock.isMine event.use.condition.lock other = true := by
      cases place <;> first | exact stands.1 | cases transient
    have same : other = party := by
      apply Decidable.byContradiction
      intro different
      rw [free.not_other different] at mine
      cases mine
    rw [same, found] at here
    cases here
    rw [stable] at transient
    cases transient

/-- A raising method has not answered. -/
theorem raised_unanswered {call : EventCall} {error : ConditionError} :
    ∀ result, (call, MethodOutcome.raised error) = (.wait false, .returned result) →
      result = some true := by
  intro result same
  cases same

theorem answers_of_ne {call : EventCall} {outcome : MethodOutcome} (other : call ≠ .wait false) :
    ∀ result, (call, outcome) = (.wait false, .returned result) → result = some true := by
  intro result same
  exact absurd (congrArg Prod.fst same) other

theorem settle_of_inWait {moved : Point} {timed : Bool} (waits : moved.inWait timed = true)
    (inside : EventPoint) (after : MethodOutcome → EventPoint) :
    settle moved inside after = inside := by
  cases moved with
  | outside outcome => cases waits
  | _ => rfl

theorem settle_of_notifying {moved : Point} (notifies : moved.notifying = true)
    (inside : EventPoint) (after : MethodOutcome → EventPoint) :
    settle moved inside after = inside := by
  cases moved with
  | outside outcome => cases notifies
  | _ => rfl

theorem Sound.waiting (sound : event.Sound maxvalue) {timed : Bool}
    (found : event.points[party]? = some (.waiting timed))
    (call : action = .advance ∨ action = .timeOut)
    (taken : event.delegate maxvalue party action (.waiting timed)
      (resume (.wait timed) (.reading timed)) = some next) : next.Sound maxvalue := by
  refine sound.delegate found rfl taken ?_
  intro condition inner moved here acted
  have waits : inner.inWait timed = true := sound.stands party _ inner found here
  have up : inner.roused = true → timed = false → event.Up := fun awake same =>
    sound.up (roused_iff.mpr ⟨party, inner, by rw [found, same], here, awake⟩)
  obtain rfl | rfl := call
  · rcases Point.inWait_cases waits (sound.condition.fits party inner here)
      (sound.spare.room sound.condition here) acted with
      ⟨mine, waits, asleep⟩ | ⟨roused, same, waits, awake⟩ | ⟨roused, free, still | ⟨mine, done⟩⟩
    · rw [settle_of_inWait waits]
      exact ⟨.inr (.inr mine), waits, fun _ awake => absurd (awake.symm.trans asleep) nofun⟩
    · rw [settle_of_inWait waits]
      refine ⟨.inl same, waits, fun place _ => ?_⟩
      rcases roused with posted | roused
      · exact .inl (sound.raised_of_posted posted)
      · exact up roused (by cases place; rfl)
    · rw [settle_of_inWait still.1]
      exact ⟨.inr free, still.1, fun place _ => up roused (by cases place; rfl)⟩
    · obtain ⟨result, rfl⟩ := done
      exact ⟨.inr free,
        ⟨mine, rfl, fun same => sound.raised_of_open (up roused same) free found rfl⟩,
        nofun⟩
  · cases inner with
    | sleeping given count =>
        cases given with
        | false => cases acted
        | true =>
            have timeout : true = timed := by simpa [Point.inWait] using waits
            cases timeout
            cases acted
            exact ⟨.inl rfl, rfl, by rintro ⟨⟩⟩
    | _ => cases acted

theorem Sound.releaseFlag (sound : event.Sound maxvalue) (positive : 0 < maxvalue)
    (found : event.points[party]? = some point) {call : EventCall} {new : EventPoint}
    (mine : SemLock.isMine event.use.condition.lock party = true) (down : event.flag = 0)
    (stands : ∀ inner, event.use.parties[party]? = some inner →
      new.Stands event.use.condition.lock party 1 inner)
    (asleep : new ≠ .waiting false) :
    (event.releaseFlag maxvalue party call new).Sound maxvalue := by
  have below : event.flag < maxvalue := down ▸ positive
  unfold Event.releaseFlag
  rw [Semaphore.release_of_lt below, down]
  exact sound.flagged found mine (Nat.le_refl _) stands asleep
    (fun _ => .inr (.inl Nat.one_pos))

theorem Sound.probing (sound : event.Sound maxvalue) {call : EventCall}
    (found : event.points[party]? = some (.probing call))
    (met : call = .clear → event.flag = 0 ∨ event.waiterRoused = false) :
    (∀ flag, Semaphore.acquire event.flag = some flag →
      (({ event with flag } : Event).move party (probed call true)).Sound maxvalue) ∧
    (Semaphore.acquire event.flag = none →
      (event.move party (probed call false)).Sound maxvalue) := by
  obtain ⟨inner, _, mine, _⟩ := sound.present found
  have outside : ∀ inner, event.use.parties[party]? = some inner → inner.isOutside = true :=
    fun inner here => (sound.stands party _ inner found here).2
  have bounded := sound.bounded
  constructor
  · intro flag acquired
    have lower := Semaphore.acquire_lt acquired
    have down : flag = 0 := by omega
    have low : flag ≤ 1 := by omega
    refine sound.flagged found mine low ?_ ?_ ?_
    · intro inner here
      cases call with
      | clear => exact ⟨mine, outside inner here, answers_of_ne EventCall.noConfusion⟩
      | _ => exact ⟨mine, outside inner here, down⟩
    · cases call <;> rintro ⟨⟩
    · intro roused
      cases call with
      | clear =>
          cases met rfl with
          | inl zero => omega
          | inr nobody => exact absurd (roused.symm.trans nobody) Bool.noConfusion
      | _ => exact .inr (.inr rfl)
  · intro refused
    have down : event.flag = 0 := by
      cases level : event.flag with
      | zero => rfl
      | succ flag =>
          rw [level] at refused
          cases refused
    refine sound.flagged found mine sound.bounded ?_ ?_ (fun _ => .inl ⟨Nat.le_refl _, rfl⟩)
    · intro inner here
      cases call with
      | isSet => exact ⟨mine, outside inner here, answers_of_ne EventCall.noConfusion⟩
      | set => exact ⟨mine, outside inner here, down⟩
      | clear => exact ⟨mine, outside inner here, answers_of_ne EventCall.noConfusion⟩
      | wait timed => exact ⟨mine, outside inner here⟩
    · cases call <;> rintro ⟨⟩

theorem Sound.advance (sound : event.Sound maxvalue) (positive : 0 < maxvalue)
    (found : event.points[party]? = some point)
    (met : point = .probing .clear → event.flag = 0 ∨ event.waiterRoused = false)
    (taken : event.advance maxvalue party point = some next) : next.Sound maxvalue := by
  obtain ⟨inner, _, place⟩ := sound.present found
  have stands : ∀ inner, event.use.parties[party]? = some inner → _ :=
    fun inner here => sound.stands party point inner found here
  cases point with
  | outside last => cases taken
  | entering call =>
      refine sound.delegate found rfl taken ?_
      intro condition inner moved here acted
      obtain ⟨free, mine, outcome, rfl⟩ := Point.acquire_cases (stands inner here) acted
      exact ⟨.inr free, ⟨mine, rfl⟩, by rintro ⟨⟩⟩
  | probing call =>
      obtain ⟨lowered, kept⟩ := sound.probing found fun same => met (congrArg _ same)
      simp only [Event.advance] at taken
      split at taken
      · rename_i flag acquired
        cases taken
        exact lowered flag acquired
      · rename_i refused
        cases taken
        exact kept refused
  | restoring call =>
      obtain ⟨mine, _, down⟩ := place
      cases taken
      refine sound.releaseFlag positive found mine down ?_ (by cases call <;> rintro ⟨⟩)
      intro inner here
      have out := (stands inner here).2.1
      cases call with
      | isSet => exact ⟨mine, out, answers_of_ne EventCall.noConfusion⟩
      | set => exact ⟨mine, out, Nat.one_pos⟩
      | clear => exact ⟨mine, out, answers_of_ne EventCall.noConfusion⟩
      | wait timed => exact ⟨mine, out, fun _ => Nat.one_pos⟩
  | callingNotify =>
      refine sound.delegate found rfl taken ?_
      intro condition inner moved here acted
      obtain ⟨mine, out, raised⟩ := stands inner here
      obtain ⟨same, ⟨_, error, rfl⟩ | busy⟩ := Point.notification_cases out mine acted
      · rw [same]
        exact ⟨.inl rfl, ⟨mine, rfl, raised_unanswered⟩, by rintro ⟨⟩⟩
      · rw [settle_of_notifying busy, same]
        exact ⟨.inl rfl, ⟨mine, busy, raised⟩, by rintro ⟨⟩⟩
  | notifying =>
      refine sound.delegate found rfl taken ?_
      intro condition inner moved here acted
      obtain ⟨mine, notifies, raised⟩ := stands inner here
      obtain ⟨same, stays, _⟩ := (sound.condition.phase_of_mine here mine).advance notifies
        (sound.spare.room sound.condition here) acted
      rw [same]
      cases stays with
      | inl busy =>
          rw [settle_of_notifying busy]
          exact ⟨.inl rfl, ⟨mine, busy, raised⟩, by rintro ⟨⟩⟩
      | inr done =>
          rw [done]
          exact ⟨.inl rfl, ⟨mine, rfl, answers_of_ne EventCall.noConfusion⟩, by rintro ⟨⟩⟩
  | callingWait timed =>
      refine sound.delegate found rfl taken ?_
      intro condition inner moved here acted
      obtain ⟨mine, out⟩ := stands inner here
      obtain ⟨same, ⟨error, rfl⟩ | ⟨waits, asleep⟩⟩ := Point.wait_cases out mine acted
      · rw [same]
        exact ⟨.inl rfl, ⟨mine, rfl, raised_unanswered⟩, by rintro ⟨⟩⟩
      · rw [settle_of_inWait waits, same]
        exact ⟨.inl rfl, waits, fun _ awake => absurd (awake.symm.trans asleep) nofun⟩
  | waiting timed => exact sound.waiting found (.inl rfl) taken
  | reading timed =>
      obtain ⟨mine, _, raised⟩ := place
      have bounded := sound.bounded
      simp only [Event.advance] at taken
      split at taken
      · rename_i flag acquired
        cases taken
        have lower := Semaphore.acquire_lt acquired
        have down : flag = 0 := by omega
        have low : flag ≤ 1 := by omega
        exact sound.flagged found mine low (fun inner here => ⟨mine, (stands inner here).2.1, down⟩)
          EventPoint.noConfusion fun _ => .inr (.inr rfl)
      · rename_i refused
        cases taken
        refine sound.flagged found mine bounded ?_ EventPoint.noConfusion
          fun _ => .inl ⟨Nat.le_refl _, rfl⟩
        intro inner here
        refine ⟨mine, (stands inner here).2.1, ?_⟩
        rintro result ⟨⟩
        have up := raised rfl
        cases level : event.flag with
        | zero => omega
        | succ flag =>
            rw [level] at refused
            cases refused
  | rereleasing timed =>
      obtain ⟨mine, _, down⟩ := place
      cases taken
      refine sound.releaseFlag positive found mine down ?_ EventPoint.noConfusion
      intro inner here
      refine ⟨mine, (stands inner here).2.1, ?_⟩
      rintro result ⟨⟩
      rfl
  | leaving call outcome =>
      refine sound.delegate found rfl taken ?_
      intro condition inner moved here acted
      obtain ⟨mine, out, returns⟩ := stands inner here
      obtain ⟨last, rfl⟩ := Point.release_cases out acted
      refine ⟨.inr (.inr mine), ⟨rfl, ?_⟩, by rintro ⟨⟩⟩
      intro result same
      exact returns result (Option.some.inj same)

theorem Sound.step (sound : event.Sound maxvalue) (positive : 0 < maxvalue)
    {label : Nat × EventAction} (met : event.Undisturbed label)
    (taken : Event.step maxvalue event label = some next) : next.Sound maxvalue := by
  obtain ⟨party, action⟩ := label
  unfold Event.step at taken
  split at taken
  · cases taken
  · rename_i point found
    simp only at found taken
    split at taken
    · rename_i call last
      cases taken
      obtain ⟨inner, here, stands⟩ := sound.present found
      refine sound.set sound.condition sound.spare (Tally.set_self here).symm
        (.inl ⟨rfl, rfl⟩) sound.bounded stands.1 ?_
      intro roused
      obtain before | ⟨entering, _⟩ := roused
      · exact (sound.up before).set found (.inl ⟨Nat.le_refl _, rfl⟩)
      · cases entering
    · refine sound.advance positive found ?_ taken
      intro same
      exact met rfl (same ▸ found)
    · exact sound.waiting found (.inr rfl) taken
    · cases taken

theorem sound_init (parties maxvalue : Nat) : (init parties).Sound maxvalue := by
  refine ⟨ConditionUse.invariant_init parties, ConditionUse.spare_init parties maxvalue,
    by simp [init, ConditionUse.init], Nat.zero_le 1, ?_, ?_⟩
  · intro party point inner found here
    obtain ⟨_, rfl⟩ := List.mem_replicate.mp (List.mem_of_getElem? found)
    obtain ⟨_, rfl⟩ := List.mem_replicate.mp (List.mem_of_getElem? here)
    exact ⟨rfl, nofun⟩
  · intro roused
    obtain ⟨party, inner, found, _⟩ := roused_iff.mp roused
    cases (List.mem_replicate.mp (List.mem_of_getElem? found)).2

/-- As long as no `clear` takes the flag down between the wake-up of a waiter and its
reacquisition of the lock, a wait without a timeout answers `True`. -/
theorem waits_return_true {parties : Nat} {labels : List (Nat × EventAction)} {last : Event}
    (positive : 0 < maxvalue)
    (ran : run (step maxvalue) (init parties) labels = some last)
    (undisturbed : Along (step maxvalue) Undisturbed (init parties) labels) :
    last.WaitsReturnTrue := by
  have sound : last.Sound maxvalue := by
    refine invariant_along ?_ (sound_init parties maxvalue) undisturbed ran
    intro event label next sound met taken
    exact sound.step positive met taken
  intro party result found
  obtain ⟨inner, _, stands⟩ := sound.present found
  exact stands.2 result rfl

/-- A waiter is woken by `set` and gets the lock before `clear` does. -/
theorem waits_return_true_woken :
    ∃ labels last, run (step 2147483647) (init 3) labels = some last ∧
      last.points[0]? = some (.outside (some (.wait false, .returned (some true)))) ∧
      last.flag = 0 ∧ last.WaitsReturnTrue := by
  let labels : List (Nat × EventAction) :=
    (0, .call (.wait false)) :: List.replicate 4 (0, .advance) ++
      (1, .call .set) :: List.replicate 8 (1, .advance) ++ List.replicate 2 (0, .advance) ++
      List.replicate 3 (1, .advance) ++ List.replicate 4 (0, .advance) ++
      (2, .call .clear) :: List.replicate 3 (2, .advance)
  have ran : run (step 2147483647) (init 3) labels = some _ := rfl
  have undisturbed : Along (step 2147483647) Undisturbed (init 3) labels := by decide
  exact ⟨labels, _, ran, rfl, rfl, waits_return_true (by decide) ran undisturbed⟩

/-- `clear` gets the lock before the waiter that `set` has woken. -/
theorem wait_returns_false :
    ∃ labels last, run (step 2147483647) (init 3) labels = some last ∧ ¬last.WaitsReturnTrue := by
  let labels : List (Nat × EventAction) :=
    (0, .call (.wait false)) :: List.replicate 4 (0, .advance) ++
      (1, .call .set) :: List.replicate 8 (1, .advance) ++ List.replicate 2 (0, .advance) ++
      List.replicate 3 (1, .advance) ++ (2, .call .clear) :: List.replicate 3 (2, .advance) ++
      List.replicate 3 (0, .advance)
  have ran : run (step 2147483647) (init 3) labels = some _ := rfl
  refine ⟨labels, _, ran, fun returns => ?_⟩
  have answered := returns 0 (some false) rfl
  cases answered

end Event

end Billiard
