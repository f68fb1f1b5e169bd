import Billiard.Data.Transition
import Billiard.Pool.ApplyResult
import Mathlib.Logic.Function.Basic

/-! The three threads that can resolve an `ApplyResult`.  Each first checks that
the job is still open and then calls `_set`, which does not check again. -/

namespace Billiard

open Transition

inductive Agent where
  | resultHandler
  | timeoutHandler
  | supervisor
deriving DecidableEq

/-- `pending agent` is what `agent` is about to pass to `_set`; `raised` ends the
process, as every thread of the pool does on an exception. -/
structure Race (α : Type u) where
  job : ApplyResult α
  unread : List (Message α)
  pending : Agent → Option (Outcome α)
  raised : Option Raised

/-- The steps of the threads: the result handler reads an ACK or looks up the
job of a READY, the others find the job not ready, and each one settles it. -/
inductive RaceStep where
  | readAck
  | lookUp
  | checkTimeout
  | loseWorker (now : Nat) (exitcode : Int)
  | selectLost
  | selectTerminated (exitcode : Int)
  | settle (agent : Agent)
deriving DecidableEq

def RaceStep.isCheck : RaceStep → Bool
  | .lookUp | .checkTimeout | .selectLost | .selectTerminated _ => true
  | .readAck | .loseWorker .. | .settle _ => false

namespace Race

def start (job : ApplyResult α) (unread : List (Message α)) : Race α :=
  ⟨job, unread, fun _ => none, none⟩

def await (race : Race α) (agent : Agent) (outcome : Outcome α) : Race α :=
  { race with pending := Function.update race.pending agent (some outcome) }

/-- `_set`, which `on_hard_timeout` follows by the timeout callback. -/
def resolve (race : Race α) (agent : Agent) (outcome : Outcome α) : Race α :=
  let pending := Function.update race.pending agent none
  match agent, race.job.set outcome with
  | .timeoutHandler, (job, none) =>
      let (job, raised) := job.handleTimeout false
      { race with job, pending, raised }
  | _, (job, raised) => { race with job, pending, raised }

def step (race : Race α) : RaceStep → Option (Race α)
  | .readAck =>
      match race.unread with
      | .ack timeAccepted pid synqWFd :: unread =>
          if race.raised.isNone ∧ race.pending .resultHandler = none then
            -- `on_ack` swallows the `AttributeError` that `_ack` may raise
            if race.job.cached then
              some { race with job := (race.job.ack timeAccepted pid synqWFd).1, unread }
            else some { race with unread }
          else none
      | _ => none
  | .lookUp =>
      match race.unread with
      | .ready outcome :: unread =>
          if race.raised.isNone ∧ race.pending .resultHandler = none then
            if race.job.cached then some ({ race with unread }.await .resultHandler outcome)
            else some { race with unread }
          else none
      | _ => none
  | .checkTimeout =>
      if race.raised.isNone ∧ race.pending .timeoutHandler = none ∧
          race.job.timeAccepted.isSome ∧ !race.job.ready then
        some (race.await .timeoutHandler (.failure (.timeLimitExceeded race.job.timeout)))
      else none
  | .loseWorker now exitcode =>
      if race.raised.isNone ∧ race.pending .supervisor = none ∧
          race.job.workerPids ≠ [] ∧ !race.job.ready then
        some { race with job := { race.job with workerLost := some (now, exitcode) } }
      else none
  | .selectLost =>
      match race.job.workerLost with
      | some (_, exitcode) =>
          if race.raised.isNone ∧ race.pending .supervisor = none ∧ !race.job.ready then
            some (race.await .supervisor (.failure (.workerLost exitcode race.job.job)))
          else none
      | none => none
  | .selectTerminated exitcode =>
      if race.raised.isNone ∧ race.pending .supervisor = none ∧
          race.job.workerPids ≠ [] ∧ !race.job.ready then
        some (race.await .supervisor (.failure (.terminated (-exitcode))))
      else none
  | .settle agent =>
      if race.raised.isNone then (race.pending agent).map (race.resolve agent) else none

def Quiet (race : Race α) : Prop := ∀ agent, race.pending agent = none

/-- A check is made only while no thread is between its check and its `_set`. -/
def CheckedAlone (race : Race α) (label : RaceStep) : Prop :=
  label.isCheck = true → race.Quiet

structure Fresh (job : ApplyResult α) : Prop where
  cached : job.cached = true
  unresolved : job.outcome = none
  unaccepted : job.accepted = false
  unassigned : job.workerPid = none
  untimed : job.timeAccepted = none
  found : job.workerLost = none
  silent : job.calls = []

structure Invariant (race : Race α) : Prop where
  single : ∀ agent other, race.pending agent ≠ none → race.pending other ≠ none → agent = other
  open_of_pending : ∀ agent, race.pending agent ≠ none → race.job.outcome = none
  resolved : race.job.outcome ≠ none → race.job.cached = false
  told : race.job.resolutions ≤ if race.job.outcome.isSome then 1 else 0
  /-- Before the ACK nothing can resolve the job, and the READY follows the ACK. -/
  unaccepted : race.job.accepted = false → race.job.outcome = none ∧ race.job.cached = true ∧
    race.job.workerPid = none ∧ race.job.timeAccepted = none ∧ race.job.workerLost = none ∧
    race.Quiet ∧ ∀ outcome unread, race.unread ≠ .ready outcome :: unread

theorem start_invariant {job : ApplyResult α} (fresh : Fresh job) {timeAccepted pid : Nat}
    {synqWFd : Option Nat} {outcome : Outcome α} {unread : List (Message α)}
    (sent : unread <+: [.ack timeAccepted pid synqWFd, .ready outcome]) :
    (start job unread).Invariant where
  single := by simp [start]
  open_of_pending := by simp [start]
  resolved := by simp [start, fresh.unresolved]
  told := by simp [start, fresh.unresolved, ApplyResult.resolutions, fresh.silent]
  unaccepted := fun _ => by
    refine ⟨fresh.unresolved, fresh.cached, fresh.unassigned, fresh.untimed, fresh.found,
      fun _ => rfl, ?_⟩
    intro other rest same
    simp only [start] at same
    simp [same] at sent

variable {race next : Race α}

theorem Invariant.accepted_of_ready (invariant : race.Invariant) {outcome : Outcome α}
    {unread : List (Message α)} (head : race.unread = .ready outcome :: unread) :
    race.job.accepted = true := by
  by_contra unaccepted
  exact (invariant.unaccepted (eq_false_of_ne_true unaccepted)).2.2.2.2.2.2 _ _ head

theorem Invariant.accepted_of_pending (invariant : race.Invariant) {agent : Agent}
    (pending : race.pending agent ≠ none) : race.job.accepted = true := by
  by_contra unaccepted
  exact pending
    ((invariant.unaccepted (eq_false_of_ne_true unaccepted)).2.2.2.2.2.1 agent)

/-- Once the job is accepted, what the parent has read does not matter. -/
theorem Invariant.read (invariant : race.Invariant) (accepted : race.job.accepted = true)
    (unread : List (Message α)) : { race with unread }.Invariant :=
  { invariant with unaccepted := fun unaccepted => absurd (accepted.symm.trans unaccepted) nofun }

theorem Invariant.await (invariant : race.Invariant) (quiet : race.Quiet)
    (unresolved : race.job.outcome = none) (accepted : race.job.accepted = true)
    (agent : Agent) (outcome : Outcome α) : (race.await agent outcome).Invariant where
  single := by
    have only : ∀ other, (race.await agent outcome).pending other ≠ none → other = agent := by
      intro other pending
      by_contra different
      simp [Race.await, different, quiet other] at pending
    intro first second firstPending secondPending
    exact (only first firstPending).trans (only second secondPending).symm
  open_of_pending := fun _ _ => unresolved
  resolved := invariant.resolved
  told := invariant.told
  unaccepted := fun unaccepted => absurd (accepted.symm.trans unaccepted) nofun

theorem resolve_spec (race : Race α) (agent : Agent) (outcome : Outcome α) :
    ∃ calls, (race.resolve agent outcome).job = { race.job with
        outcome := some outcome
        cached := race.job.cached && !race.job.accepted
        calls } ∧
      (race.resolve agent outcome).job.resolutions ≤ race.job.resolutions + 1 ∧
      (race.resolve agent outcome).pending = Function.update race.pending agent none := by
  obtain ⟨calls, stored, bound⟩ := race.job.set_spec outcome
  unfold resolve
  cases settled : race.job.set outcome with
  | mk job raised =>
      rw [settled] at stored bound
      simp only at stored bound
      split
      · rename_i first same
        cases same
        obtain ⟨after, noted, count⟩ := job.noted_handleTimeout false
        exact ⟨after, noted.trans (by rw [stored]), Nat.le_trans (Nat.le_of_eq count) bound, rfl⟩
      · rename_i same
        cases same
        exact ⟨calls, stored, bound, rfl⟩

theorem Invariant.settle (invariant : race.Invariant) {agent : Agent} {outcome : Outcome α}
    (pending : race.pending agent = some outcome) :
    (race.resolve agent outcome).Invariant := by
  have some_pending : race.pending agent ≠ none := by simp [pending]
  have accepted := invariant.accepted_of_pending some_pending
  have unresolved := invariant.open_of_pending agent some_pending
  obtain ⟨calls, job, bound, after⟩ := race.resolve_spec agent outcome
  have quiet : (race.resolve agent outcome).Quiet := by
    intro other
    rw [after]
    by_cases same : other = agent
    · simp [same]
    · have idle : race.pending other = none := by
        by_contra busy
        exact same (invariant.single other agent busy some_pending)
      simp [same, idle]
  have told := invariant.told
  simp only [unresolved, Option.isSome_none, Bool.false_eq_true, if_false] at told
  exact {
    single := fun first _ busy _ => absurd (quiet first) busy
    open_of_pending := fun first busy => absurd (quiet first) busy
    resolved := fun _ => by simp [job, accepted]
    told := by
      have resolvedNow : (race.resolve agent outcome).job.outcome.isSome = true := by simp [job]
      rw [resolvedNow, if_pos rfl]
      omega
    unaccepted := fun unaccepted => by simp [job, accepted] at unaccepted }

theorem Invariant.readAck (invariant : race.Invariant)
    (taken : step race .readAck = some next) : next.Invariant := by
  simp only [step] at taken
  split at taken
  case h_2 => cases taken
  case h_1 timeAccepted pid synqWFd unread head =>
      simp only [Option.ite_none_right_eq_some] at taken
      obtain ⟨_, taken⟩ := taken
      cases cached : race.job.cached with
      | false =>
          simp only [cached, Bool.false_eq_true, if_false, Option.some.injEq] at taken
          subst taken
          have accepted : race.job.accepted = true := by
            by_contra unaccepted
            have before := invariant.unaccepted (eq_false_of_ne_true unaccepted)
            exact absurd (cached.symm.trans before.2.1) nofun
          exact invariant.read accepted unread
      | true =>
          simp only [cached, if_true, Option.some.injEq] at taken
          subst taken
          obtain ⟨workerPid, time, after, ⟨calls, acked, count⟩, _⟩ :=
            race.job.ack_spec timeAccepted pid synqWFd
          have unresolved : race.job.outcome = none := by
            by_contra resolved
            exact absurd (cached.symm.trans (invariant.resolved resolved)) nofun
          exact {
            single := invariant.single
            open_of_pending := fun _ _ => by simp [acked, unresolved]
            resolved := fun resolved => by simp [acked, unresolved] at resolved
            told := by
              have told := invariant.told
              rw [count]
              simpa [acked, ApplyResult.resolutions] using told
            unaccepted := fun unaccepted => by simp [acked] at unaccepted }

theorem Invariant.lookUp (invariant : race.Invariant) (quiet : race.Quiet)
    (taken : step race .lookUp = some next) : next.Invariant := by
  simp only [step] at taken
  split at taken
  case h_2 => cases taken
  case h_1 outcome unread head =>
      simp only [Option.ite_none_right_eq_some] at taken
      obtain ⟨_, taken⟩ := taken
      have accepted := invariant.accepted_of_ready head
      have read := invariant.read accepted unread
      cases cached : race.job.cached with
      | false =>
          simp only [cached, Bool.false_eq_true, if_false, Option.some.injEq] at taken
          exact taken ▸ read
      | true =>
          simp only [cached, if_true, Option.some.injEq] at taken
          have unresolved : race.job.outcome = none := by
            by_contra resolved
            exact absurd (cached.symm.trans (invariant.resolved resolved)) nofun
          exact taken ▸ read.await quiet unresolved accepted _ _

theorem Invariant.checkTimeout (invariant : race.Invariant) (quiet : race.Quiet)
    (taken : step race .checkTimeout = some next) : next.Invariant := by
  simp only [step, Option.ite_none_right_eq_some, Option.some.injEq] at taken
  obtain ⟨⟨_, _, acked, unresolved⟩, rfl⟩ := taken
  have accepted : race.job.accepted = true := by
    by_contra unaccepted
    have before := (invariant.unaccepted (eq_false_of_ne_true unaccepted)).2.2.2.1
    simp [before] at acked
  have unresolved : race.job.outcome = none := by simpa [ApplyResult.ready] using unresolved
  exact invariant.await quiet unresolved accepted _ _

theorem Invariant.accepted_of_workerPids (invariant : race.Invariant)
    (recorded : race.job.workerPids ≠ []) : race.job.accepted = true := by
  by_contra unaccepted
  have before := (invariant.unaccepted (eq_false_of_ne_true unaccepted)).2.2.1
  simp [ApplyResult.workerPids, before] at recorded

theorem Invariant.loseWorker (invariant : race.Invariant) {now : Nat} {exitcode : Int}
    (taken : step race (.loseWorker now exitcode) = some next) : next.Invariant := by
  simp only [step, Option.ite_none_right_eq_some, Option.some.injEq] at taken
  obtain ⟨⟨_, _, recorded, _⟩, rfl⟩ := taken
  have accepted := invariant.accepted_of_workerPids recorded
  exact { invariant with
    unaccepted := fun unaccepted => absurd (accepted.symm.trans unaccepted) nofun }

theorem Invariant.selectLost (invariant : race.Invariant) (quiet : race.Quiet)
    (taken : step race .selectLost = some next) : next.Invariant := by
  simp only [step] at taken
  split at taken
  case h_2 => cases taken
  case h_1 time exitcode lost =>
      simp only [Option.ite_none_right_eq_some, Option.some.injEq] at taken
      obtain ⟨⟨_, _, unresolved⟩, rfl⟩ := taken
      have accepted : race.job.accepted = true := by
        by_contra unaccepted
        have before := (invariant.unaccepted (eq_false_of_ne_true unaccepted)).2.2.2.2.1
        simp [before] at lost
      have unresolved : race.job.outcome = none := by simpa [ApplyResult.ready] using unresolved
      exact invariant.await quiet unresolved accepted _ _

theorem Invariant.selectTerminated (invariant : race.Invariant) (quiet : race.Quiet)
    {exitcode : Int} (taken : step race (.selectTerminated exitcode) = some next) :
    next.Invariant := by
  simp only [step, Option.ite_none_right_eq_some, Option.some.injEq] at taken
  obtain ⟨⟨_, _, recorded, unresolved⟩, rfl⟩ := taken
  have unresolved : race.job.outcome = none := by simpa [ApplyResult.ready] using unresolved
  exact invariant.await quiet unresolved (invariant.accepted_of_workerPids recorded) _ _

theorem Invariant.step (race : Race α) (label : RaceStep) (next : Race α)
    (invariant : race.Invariant) (alone : race.CheckedAlone label)
    (taken : Race.step race label = some next) : next.Invariant := by
  cases label with
  | readAck => exact invariant.readAck taken
  | lookUp => exact invariant.lookUp (alone rfl) taken
  | checkTimeout => exact invariant.checkTimeout (alone rfl) taken
  | loseWorker now exitcode => exact invariant.loseWorker taken
  | selectLost => exact invariant.selectLost (alone rfl) taken
  | selectTerminated exitcode => exact invariant.selectTerminated (alone rfl) taken
  | settle agent =>
      simp only [Race.step, Option.ite_none_right_eq_some, Option.map_eq_some_iff] at taken
      obtain ⟨_, outcome, pending, rfl⟩ := taken
      exact invariant.settle pending

theorem step_outcome {label : RaceStep} (taken : Race.step race label = some next) :
    next.job.outcome = race.job.outcome ∨
      ∃ agent, label = .settle agent ∧ race.pending agent ≠ none := by
  cases label with
  | readAck =>
      simp only [Race.step] at taken
      split at taken
      case h_2 => cases taken
      case h_1 timeAccepted pid synqWFd unread head =>
          simp only [Option.ite_none_right_eq_some] at taken
          obtain ⟨_, taken⟩ := taken
          obtain ⟨_, _, _, ⟨calls, acked, _⟩, _⟩ := race.job.ack_spec timeAccepted pid synqWFd
          split at taken
          · cases taken
            exact .inl (by simp [acked])
          · cases taken
            exact .inl rfl
  | lookUp =>
      simp only [Race.step] at taken
      split at taken
      case h_2 => cases taken
      case h_1 outcome unread head =>
          simp only [Option.ite_none_right_eq_some] at taken
          obtain ⟨_, taken⟩ := taken
          split at taken <;> cases taken <;> exact .inl rfl
  | selectLost =>
      simp only [Race.step] at taken
      split at taken
      case h_2 => cases taken
      case h_1 time exitcode lost =>
          simp only [Option.ite_none_right_eq_some, Option.some.injEq] at taken
          exact .inl (taken.2 ▸ rfl)
  | checkTimeout =>
      simp only [Race.step, Option.ite_none_right_eq_some, Option.some.injEq] at taken
      exact .inl (taken.2 ▸ rfl)
  | loseWorker now exitcode =>
      simp only [Race.step, Option.ite_none_right_eq_some, Option.some.injEq] at taken
      exact .inl (taken.2 ▸ rfl)
  | selectTerminated exitcode =>
      simp only [Race.step, Option.ite_none_right_eq_some, Option.some.injEq] at taken
      exact .inl (taken.2 ▸ rfl)
  | settle agent =>
      simp only [Race.step, Option.ite_none_right_eq_some, Option.map_eq_some_iff] at taken
      obtain ⟨_, outcome, pending, _⟩ := taken
      exact .inr ⟨agent, rfl, by simp [pending]⟩

theorem Invariant.outcome_kept (invariant : race.Invariant) {label : RaceStep}
    (taken : Race.step race label = some next) (resolved : race.job.outcome ≠ none) :
    next.job.outcome = race.job.outcome := by
  cases step_outcome taken with
  | inl same => exact same
  | inr settled =>
      obtain ⟨agent, _, pending⟩ := settled
      exact absurd (invariant.open_of_pending agent pending) resolved

theorem outcome_kept_along {labels : List RaceStep} (invariant : race.Invariant)
    (alone : Along Race.step CheckedAlone race labels)
    (ran : run Race.step race labels = some next) (resolved : race.job.outcome ≠ none) :
    next.job.outcome = race.job.outcome := by
  induction labels generalizing race with
  | nil =>
      cases ran
      rfl
  | cons label labels ih =>
      obtain ⟨middle, taken, rest⟩ := run_cons_eq_some.mp ran
      have kept := invariant.outcome_kept taken resolved
      have after := invariant.step race label middle alone.1 taken
      rw [ih after (alone.2 middle taken) rest (kept ▸ resolved), kept]

/-- The job is resolved at most once in the run: no step changes the outcome
after the first `_set`, and the user is told at most once. -/
def ResolvedOnce (race : Race α) (labels : List RaceStep) : Prop :=
  ∀ last, run step race labels = some last → last.job.resolutions ≤ 1 ∧
    ∀ front back middle, labels = front ++ back → run step race front = some middle →
      middle.job.outcome ≠ none → last.job.outcome = middle.job.outcome

/-- The messages of the job's worker, of which it may die before sending all. -/
def Sent (unread : List (Message α)) : Prop :=
  ∃ timeAccepted pid synqWFd outcome,
    unread <+: [.ack timeAccepted pid synqWFd, .ready outcome]

/-- `_set` does not look whether the job is resolved already, so two threads
whose checks both succeed resolve it twice. -/
theorem not_resolvedOnce :
    ¬ ∀ (job : ApplyResult Nat) (unread : List (Message Nat)) (labels : List RaceStep),
      Fresh job → Sent unread → ResolvedOnce (start job unread) labels := by
  intro claimed
  have once := claimed
    (.init 1 { callback := some .returns, errorCallback := some .returns, timeout := some 3 })
    [.ack 5 7 none, .ready (.success 42)]
    [.readAck, .lookUp, .checkTimeout, .settle .resultHandler, .settle .timeoutHandler]
    ⟨rfl, rfl, rfl, rfl, rfl, rfl, rfl⟩ ⟨5, 7, none, .success 42, List.prefix_rfl⟩ _ rfl
  have told := once.1
  revert told
  decide

/-- A job is resolved at most once in every run in which each check is made
while no other thread is between its check and its `_set`. -/
theorem resolved_once {job : ApplyResult α} {unread : List (Message α)}
    {labels : List RaceStep} (fresh : Fresh job) (sent : Sent unread)
    (alone : Along step CheckedAlone (start job unread) labels) :
    ResolvedOnce (start job unread) labels := by
  obtain ⟨timeAccepted, pid, synqWFd, outcome, sent⟩ := sent
  have begun := start_invariant fresh sent
  intro last ran
  have finished := invariant_along Invariant.step begun alone ran
  constructor
  · have told := finished.told
    split at told <;> omega
  · intro front back middle split ranFront resolved
    subst split
    obtain ⟨reached, ranFront', ranBack⟩ := run_append_eq_some.mp ran
    cases ranFront.symm.trans ranFront'
    have between := invariant_along Invariant.step begun (along_of_append alone) ranFront
    exact outcome_kept_along between (along_append ranFront alone) ranBack resolved

theorem resolved_once_after_timeout :
    ResolvedOnce (start (.init 1 { timeout := some 3 })
        [.ack 5 7 none, .ready (.success 42)])
      [.readAck, .checkTimeout, .settle .timeoutHandler, .lookUp] :=
  resolved_once ⟨rfl, rfl, rfl, rfl, rfl, rfl, rfl⟩
    ⟨5, 7, none, .success 42, List.prefix_rfl⟩
    (.cons nofun rfl (.cons (fun _ _ => rfl) rfl (.cons nofun rfl
      (.cons (fun _ agent => by cases agent <;> rfl) rfl True.intro))))

theorem resolve_told (callback : race.job.callback = some .returns)
    (errorCallback : race.job.errorCallback = some .returns)
    (timeoutCallback : race.job.timeoutCallback ≠ some .propagates)
    (agent : Agent) (outcome : Outcome α) :
    (race.resolve agent outcome).raised = none ∧
      (race.resolve agent outcome).job.resolutions = race.job.resolutions + 1 := by
  have settled := race.job.set_returns callback errorCallback outcome
  obtain ⟨calls, stored, _⟩ := race.job.set_spec outcome
  unfold resolve
  cases ran : race.job.set outcome with
  | mk job raised =>
      rw [ran] at settled stored
      obtain ⟨rfl, told⟩ := settled
      simp only at stored
      split
      · rename_i same
        cases same
        obtain ⟨_, _, count⟩ := job.noted_handleTimeout false
        refine ⟨?_, count.trans told⟩
        apply ApplyResult.handleTimeout_returned_iff.mpr
        simp only [stored]
        exact timeoutCallback
      · rename_i same
        cases same
        exact ⟨rfl, told⟩

/-- The condition is exact: two checks that both succeed before either thread
settles are followed by two resolutions. -/
theorem resolved_twice {first second : Agent} {one two : Outcome α}
    (different : first ≠ second) (running : race.raised = none)
    (firstPending : race.pending first = some one)
    (secondPending : race.pending second = some two)
    (callback : race.job.callback = some .returns)
    (errorCallback : race.job.errorCallback = some .returns)
    (timeoutCallback : race.job.timeoutCallback ≠ some .propagates) :
    ∃ last, run step race [.settle first, .settle second] = some last ∧
      last.job.resolutions = race.job.resolutions + 2 := by
  obtain ⟨calls, job, _, pending⟩ := race.resolve_spec first one
  obtain ⟨raised, told⟩ := resolve_told callback errorCallback timeoutCallback first one
  have stillPending : (race.resolve first one).pending second = some two := by
    rw [pending, Function.update_of_ne different.symm, secondPending]
  have again := @resolve_told _ (race.resolve first one) (by rw [job]; exact callback)
    (by rw [job]; exact errorCallback) (by rw [job]; exact timeoutCallback) second two
  refine ⟨(race.resolve first one).resolve second two, ?_, by rw [again.2, told]⟩
  simp [run, step, running, firstPending, raised, stillPending]

end Race

end Billiard
