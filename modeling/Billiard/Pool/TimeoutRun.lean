import Billiard.Data.History
import Billiard.Data.Tally
import Billiard.Data.Transition
import Billiard.Pool.TimeoutHandler

/-! A run of `handle_timeouts` in small steps, while the other threads submit, acknowledge and
resolve jobs. -/

namespace Billiard

open History Tally Transition

/-- The local variables with which a pass examines a job. -/
structure Examination where
  number : Nat
  ackTime : Option Nat
  softTimeout : Option Nat
  hardTimeout : Option Nat
deriving DecidableEq, Repr

/-- What comes of an examination. -/
inductive Deed where
  | nothing
  | finished
  | vanished
  | soft
  | softSignal (pid : Nat)
  | hard
  | term (pid : Nat)
  | kill (pid : Nat)
deriving DecidableEq, Repr

def Deed.limit : Deed → Option TimeLimit
  | .nothing | .finished | .vanished => none
  | .soft | .softSignal _ => some .soft
  | .hard | .term _ | .kill _ => some .hard

/-- `readAt` is when the pass first read the clock for the job. -/
inductive PoolEvent where
  | submitted (number : Nat) (softTimeout timeout : Option Nat)
  | accepted (number time : Nat)
  | resolved (number : Nat)
  | took (deed : Deed) (exam : Examination) (readAt now : Nat)
deriving DecidableEq, Repr

/-- Where the generator is; `rest` are the jobs of the copy that it has not come to. -/
inductive PassPoint where
  | yielded
  | looping (rest : List Nat)
  | examining (exam : Examination) (rest : List Nat)
  | early (exam : Examination) (readAt : Nat) (rest : List Nat)
  | hardDue (exam : Examination) (readAt : Nat) (rest : List Nat)
  | softDue (exam : Examination) (readAt : Nat) (rest : List Nat)
  | signalling (exam : Examination) (readAt : Nat) (rest : List Nat)
  | terminating (exam : Examination) (readAt : Nat) (rest : List Nat)
  | ended
deriving DecidableEq, Repr

/-- `jobs` are all that were submitted, by their numbers, and `log` is what has happened. -/
structure TimeoutRun (α : Type u) where
  processes : List Nat
  running : Bool
  now : Nat
  jobs : List (ApplyResult α)
  dirty : List Nat
  point : PassPoint
  log : List PoolEvent
deriving DecidableEq

/-- What other threads do, then what the handler does. -/
inductive TimeoutStep (α : Type u) where
  | tick (d : Nat)
  | submit (options : ApplyOptions)
  | ack (number timeAccepted pid : Nat) (synqWFd : Option Nat)
  | resolve (number : Nat) (outcome : Outcome α)
  | pop (number : Nat)
  | setProcesses (pids : List Nat)
  | close
  | pass
  | take
  | testHard
  | testSoft
  | hard
  | terminate (exits : Bool)
  | soft
  | signal (outcome : KillOutcome)
deriving DecidableEq

namespace TimeoutRun

def init : TimeoutRun α := ⟨[], true, 0, [], [], .yielded, []⟩

def inCache (state : TimeoutRun α) (number : Nat) : Bool :=
  state.jobs[number]?.any ApplyResult.cached

def record (state : TimeoutRun α) (events : List PoolEvent) : TimeoutRun α :=
  { state with log := state.log ++ events }

def setJob (state : TimeoutRun α) (number : Nat) (job : ApplyResult α) : TimeoutRun α :=
  { state with jobs := state.jobs.set number job }

def moveTo (state : TimeoutRun α) (point : PassPoint) : TimeoutRun α := { state with point }

/-- `dirty.add(i)` -/
def markDirty (state : TimeoutRun α) (number : Nat) : TimeoutRun α :=
  { state with dirty := number :: state.dirty }

def took (state : TimeoutRun α) (deed : Deed) (exam : Examination) (readAt : Nat) :
    TimeoutRun α :=
  state.record [.took deed exam readAt state.now]

def processByPid (state : TimeoutRun α) (pid : Option Nat) : Option Nat :=
  pid.filter state.processes.contains

/-- `_ack`; a worker that is refused has not accepted the job. -/
def ack (state : TimeoutRun α) (number timeAccepted pid : Nat) (synqWFd : Option Nat)
    (job : ApplyResult α) : TimeoutRun α :=
  (state.setJob number (job.ack timeAccepted pid synqWFd).1).record
    (if job.cancelled && job.sendAck then [] else [.accepted number timeAccepted])

/-- `on_hard_timeout` as far as `_set` -/
def onHardTimeout (state : TimeoutRun α) (exam : Examination) (readAt : Nat) (rest : List Nat)
    (job : ApplyResult α) : TimeoutRun α :=
  if job.ready then (state.took .finished exam readAt).moveTo (.looping rest)
  else
    let (after, raised) := job.set (.failure (.timeLimitExceeded job.timeout))
    (((state.took .hard exam readAt).setJob exam.number after).record
      [.resolved exam.number]).moveTo
        (if raised.isSome then .ended else .terminating exam readAt rest)

/-- The rest of `on_hard_timeout`, with `_trywaitkill`. -/
def terminate (state : TimeoutRun α) (exam : Examination) (readAt : Nat) (rest : List Nat)
    (exits : Bool) (job : ApplyResult α) : TimeoutRun α :=
  let (after, raised) := job.handleTimeout false
  let called := state.setJob exam.number after
  if raised.isSome then called.moveTo .ended
  else
    match state.processByPid job.workerPid with
    | none => called.moveTo (.looping rest)
    | some pid =>
        let called := called.took (.term pid) exam readAt
        (if exits then called else called.took (.kill pid) exam readAt).moveTo (.looping rest)

/-- `on_soft_timeout` as far as the callback -/
def onSoftTimeout (state : TimeoutRun α) (exam : Examination) (readAt : Nat) (rest : List Nat)
    (job : ApplyResult α) : TimeoutRun α :=
  match state.processByPid job.workerPid with
  | none => ((state.took .vanished exam readAt).markDirty exam.number).moveTo (.looping rest)
  | some _ =>
      let (after, raised) := job.handleTimeout true
      ((state.took .soft exam readAt).setJob exam.number after).moveTo
        (if raised.isSome then .ended else .signalling exam readAt rest)

/-- The rest of `on_soft_timeout`, and `dirty.add`. -/
def signal (state : TimeoutRun α) (exam : Examination) (readAt : Nat) (rest : List Nat)
    (outcome : KillOutcome) (job : ApplyResult α) : TimeoutRun α :=
  match job.workerPid, outcome with
  | none, _ | some _, .refused => state.moveTo .ended
  | some pid, .delivered =>
      ((state.took (.softSignal pid) exam readAt).markDirty exam.number).moveTo (.looping rest)
  | some _, .noSuchProcess => (state.markDirty exam.number).moveTo (.looping rest)

/-- The locals `ack_time`, `soft_timeout` and `hard_timeout` -/
def examine (tSoft tHard : Option Nat) (number : Nat) (job : ApplyResult α) : Examination :=
  ⟨number, job.timeAccepted, job.softTimeout.or tSoft, job.timeout.or tHard⟩

def step (tSoft tHard : Option Nat) (state : TimeoutRun α) : TimeoutStep α →
    Option (TimeoutRun α)
  | .tick d => some { state with now := state.now + d }
  | .submit options =>
      some ({ state with jobs := state.jobs ++ [ApplyResult.init state.jobs.length options] }.record
        [.submitted state.jobs.length options.softTimeout options.timeout])
  | .ack number timeAccepted pid synqWFd =>
      if 0 < timeAccepted then
        state.jobs[number]?.map (state.ack number timeAccepted pid synqWFd)
      else none
  -- `_event.set()`, and `cache.pop` as a step of its own
  | .resolve number outcome => state.jobs[number]?.map fun job =>
      (state.setJob number { job with outcome := some outcome }).record [.resolved number]
  | .pop number => state.jobs[number]?.map fun job =>
      state.setJob number { job with cached := false }
  | .setProcesses processes => some { state with processes }
  | .close => some { state with running := false }
  | .pass =>
      match state.point with
      | .yielded =>
          if state.running then
            let cache := (List.range state.jobs.length).filter state.inCache
            some { state with dirty := state.dirty.filter cache.contains, point := .looping cache }
          else some (state.moveTo .ended)
      | _ => none
  | .take =>
      match state.point with
      | .looping [] => some (state.moveTo .yielded)
      | .looping (number :: rest) => state.jobs[number]?.map fun job =>
          state.moveTo (.examining (examine tSoft tHard number job) rest)
      | _ => none
  | .testHard =>
      match state.point with
      | .examining exam rest =>
          some (state.moveTo (if timedOut exam.ackTime exam.hardTimeout state.now then
            .hardDue exam state.now rest else .early exam state.now rest))
      | _ => none
  | .testSoft =>
      match state.point with
      | .early exam readAt rest =>
          if !state.dirty.contains exam.number &&
              timedOut exam.ackTime exam.softTimeout state.now then
            some (state.moveTo (.softDue exam readAt rest))
          else some ((state.took .nothing exam readAt).moveTo (.looping rest))
      | _ => none
  | .hard =>
      match state.point with
      | .hardDue exam readAt rest =>
          state.jobs[exam.number]?.map (state.onHardTimeout exam readAt rest)
      | _ => none
  | .terminate exits =>
      match state.point with
      | .terminating exam readAt rest =>
          state.jobs[exam.number]?.map (state.terminate exam readAt rest exits)
      | _ => none
  | .soft =>
      match state.point with
      | .softDue exam readAt rest =>
          state.jobs[exam.number]?.map (state.onSoftTimeout exam readAt rest)
      | _ => none
  | .signal outcome =>
      match state.point with
      | .signalling exam readAt rest =>
          state.jobs[exam.number]?.map (state.signal exam readAt rest outcome)
      | _ => none

/-- The limit in force for the job, its own or else that of the pool, has passed since `accepted`;
0 is no limit. -/
def RanOut (tSoft tHard : Option Nat) (before : List PoolEvent) (limit : TimeLimit)
    (number accepted now : Nat) : Prop :=
  ∃ softTimeout timeout allowed, .submitted number softTimeout timeout ∈ before ∧
    (match limit with
      | .soft => softTimeout.or tSoft
      | .hard => timeout.or tHard) = some allowed ∧
    0 < allowed ∧ accepted + allowed ≤ now

/-- The soft signal is sent once, no action comes too early, and what had to be stopped by the time
it was examined is not asked to stop. -/
def Lawful (tSoft tHard : Option Nat) (before : List PoolEvent) : PoolEvent → Prop
  | .took deed exam readAt now =>
      (∀ pid, deed = .softSignal pid → ∀ other prior readAt now,
        .took (.softSignal other) prior readAt now ∈ before → prior.number ≠ exam.number) ∧
      (∀ limit, deed.limit = some limit → ∃ accepted, .accepted exam.number accepted ∈ before ∧
        RanOut tSoft tHard before limit exam.number accepted now) ∧
      ∀ accepted, exam.ackTime = some accepted →
        RanOut tSoft tHard before .hard exam.number accepted readAt →
          deed.limit = some .hard ∨ deed = .finished
  | _ => True

def Signalled (log : List PoolEvent) (number : Nat) : Prop :=
  ∃ pid exam readAt now, .took (.softSignal pid) exam readAt now ∈ log ∧ exam.number = number

/-- What the log tells of the jobs is what they are. -/
structure Recorded (state : TimeoutRun α) : Prop where
  submitted : ∀ number job, state.jobs[number]? = some job →
    .submitted number job.softTimeout job.timeout ∈ state.log
  known : ∀ number softTimeout timeout, .submitted number softTimeout timeout ∈ state.log →
    ∃ job, state.jobs[number]? = some job ∧ job.softTimeout = softTimeout ∧ job.timeout = timeout
  accepted : ∀ number job time, state.jobs[number]? = some job → job.timeAccepted = some time →
    0 < time ∧ .accepted number time ∈ state.log
  resolved : ∀ number, .resolved number ∈ state.log ↔
    ∃ job, state.jobs[number]? = some job ∧ job.ready = true

def Examined (tSoft tHard : Option Nat) (log : List PoolEvent) (exam : Examination) : Prop :=
  ∃ softTimeout timeout, .submitted exam.number softTimeout timeout ∈ log ∧
    exam.softTimeout = softTimeout.or tSoft ∧ exam.hardTimeout = timeout.or tHard ∧
    ∀ time, exam.ackTime = some time → 0 < time ∧ .accepted exam.number time ∈ log

def AtPoint (tSoft tHard : Option Nat) (state : TimeoutRun α) : PassPoint → Prop
  | .yielded | .looping _ | .ended => True
  | .examining exam _ => Examined tSoft tHard state.log exam
  | .early exam readAt _ => Examined tSoft tHard state.log exam ∧
      timedOut exam.ackTime exam.hardTimeout readAt = false
  | .hardDue exam readAt _ | .terminating exam readAt _ => Examined tSoft tHard state.log exam ∧
      timedOut exam.ackTime exam.hardTimeout readAt = true ∧ readAt ≤ state.now
  | .softDue exam readAt _ | .signalling exam readAt _ => Examined tSoft tHard state.log exam ∧
      timedOut exam.ackTime exam.hardTimeout readAt = false ∧
      timedOut exam.ackTime exam.softTimeout state.now = true ∧
      ¬Signalled state.log exam.number

/-- The jobs of the copy that the pass has still to do with. -/
def PassPoint.pending : PassPoint → List Nat
  | .yielded | .ended => []
  | .looping rest => rest
  | .examining exam rest => exam.number :: rest
  | .early exam _ rest | .hardDue exam _ rest | .softDue exam _ rest
  | .signalling exam _ rest | .terminating exam _ rest => exam.number :: rest

/-- A job to which the signal was sent is dirty, or it has left the cache and the copy of it. -/
structure Watched (tSoft tHard : Option Nat) (state : TimeoutRun α) : Prop where
  recorded : state.Recorded
  point : state.AtPoint tSoft tHard state.point
  signalled : ∀ number, Signalled state.log number → ∃ job, state.jobs[number]? = some job ∧
    (number ∈ state.dirty ∨ job.cached = false ∧ number ∉ PassPoint.pending state.point)
  lawful : Sound (Lawful tSoft tHard) state.log

theorem timedOut_iff {start timeout : Option Nat} {now : Nat} :
    timedOut start timeout now = true ↔ ∃ accepted allowed, start = some accepted ∧
      timeout = some allowed ∧ 0 < accepted ∧ 0 < allowed ∧ accepted + allowed ≤ now := by
  unfold timedOut
  split
  · simp [Nat.pos_iff_ne_zero, and_assoc]
  · rename_i missing
    constructor
    · nofun
    · rintro ⟨accepted, allowed, rfl, rfl, _⟩
      exact absurd rfl (missing accepted allowed rfl)

theorem timedOut_later {start timeout : Option Nat} {now later : Nat}
    (passed : timedOut start timeout now = true) (since : now ≤ later) :
    timedOut start timeout later = true := by
  obtain ⟨accepted, allowed, started, limited, some_, positive, late⟩ := timedOut_iff.mp passed
  exact timedOut_iff.mpr ⟨accepted, allowed, started, limited, some_, positive,
    Nat.le_trans late since⟩

variable {tSoft tHard : Option Nat} {state next : TimeoutRun α} {exam : Examination}
  {log events : List PoolEvent} {number : Nat}

theorem Examined.ranOut (examined : Examined tSoft tHard log exam) (limit : TimeLimit) {now : Nat}
    (passed : timedOut exam.ackTime
      (match limit with
        | .soft => exam.softTimeout
        | .hard => exam.hardTimeout) now = true) :
    ∃ accepted, .accepted exam.number accepted ∈ log ∧
      RanOut tSoft tHard log limit exam.number accepted now := by
  obtain ⟨softTimeout, timeout, listed, soft, hard, acknowledged⟩ := examined
  obtain ⟨accepted, allowed, started, limited, _, positive, late⟩ := timedOut_iff.mp passed
  refine ⟨accepted, (acknowledged accepted started).2, softTimeout, timeout, allowed, listed, ?_,
    positive, late⟩
  cases limit with
  | soft => exact soft ▸ limited
  | hard => exact hard ▸ limited

theorem Examined.timedOut (examined : Examined tSoft tHard state.log exam)
    (recorded : state.Recorded) {accepted now : Nat} (started : exam.ackTime = some accepted)
    (passed : RanOut tSoft tHard state.log .hard exam.number accepted now) :
    Billiard.timedOut exam.ackTime exam.hardTimeout now = true := by
  obtain ⟨_, timeout, listed, _, hard, acknowledged⟩ := examined
  obtain ⟨_, other, allowed, again, limited, positive, late⟩ := passed
  obtain ⟨job, found, _, rfl⟩ := recorded.known _ _ _ listed
  obtain ⟨same, foundAgain, _, rfl⟩ := recorded.known _ _ _ again
  rw [found] at foundAgain
  cases foundAgain
  exact timedOut_iff.mpr ⟨accepted, allowed, started, hard.trans limited,
    (acknowledged accepted started).1, positive, late⟩

theorem Examined.mono (examined : Examined tSoft tHard log exam) :
    Examined tSoft tHard (log ++ events) exam := by
  obtain ⟨softTimeout, timeout, listed, soft, hard, acknowledged⟩ := examined
  exact ⟨softTimeout, timeout, List.mem_append_left _ listed, soft, hard, fun time started =>
    ⟨(acknowledged time started).1, List.mem_append_left _ (acknowledged time started).2⟩⟩

theorem signalled_append (quiet : ∀ pid exam readAt now,
      .took (.softSignal pid) exam readAt now ∉ events) :
    Signalled (log ++ events) number ↔ Signalled log number := by
  simp only [Signalled, List.mem_append, quiet, or_false]

theorem AtPoint.mono {point : PassPoint} (at_ : state.AtPoint tSoft tHard point)
    (later : state.now ≤ next.now) (logged : next.log = state.log ++ events)
    (quiet : ∀ pid exam readAt now, .took (.softSignal pid) exam readAt now ∉ events) :
    next.AtPoint tSoft tHard point := by
  unfold AtPoint at at_ ⊢
  rw [logged]
  split
  · exact True.intro
  · exact True.intro
  · exact True.intro
  · exact at_.mono
  · exact ⟨at_.1.mono, at_.2⟩
  · exact ⟨at_.1.mono, at_.2.1, Nat.le_trans at_.2.2 later⟩
  · exact ⟨at_.1.mono, at_.2.1, Nat.le_trans at_.2.2 later⟩
  · exact ⟨at_.1.mono, at_.2.1, timedOut_later at_.2.2.1 later,
      mt (signalled_append quiet).mp at_.2.2.2⟩
  · exact ⟨at_.1.mono, at_.2.1, timedOut_later at_.2.2.1 later,
      mt (signalled_append quiet).mp at_.2.2.2⟩

def IsDeed : PoolEvent → Prop
  | .took .. => True
  | _ => False

theorem Recorded.append (recorded : state.Recorded) (jobs : next.jobs = state.jobs)
    (logged : next.log = state.log ++ events) (deeds : ∀ event ∈ events, IsDeed event) :
    next.Recorded := by
  have old : ∀ event, ¬IsDeed event → (event ∈ next.log ↔ event ∈ state.log) := by
    intro event other
    rw [logged, List.mem_append]
    exact or_iff_left fun member => other (deeds event member)
  refine ⟨?_, ?_, ?_, ?_⟩
  · intro number job found
    rw [jobs] at found
    exact (old _ id).mpr (recorded.submitted number job found)
  · intro number softTimeout timeout listed
    rw [jobs]
    exact recorded.known number softTimeout timeout ((old _ id).mp listed)
  · intro number job time found started
    rw [jobs] at found
    obtain ⟨positive, listed⟩ := recorded.accepted number job time found started
    exact ⟨positive, (old _ id).mpr listed⟩
  · intro number
    rw [old _ id, jobs]
    exact recorded.resolved number

theorem Recorded.set {job after : ApplyResult α} (recorded : state.Recorded)
    (found : state.jobs[number]? = some job) (jobs : next.jobs = state.jobs.set number after)
    (logged : next.log = state.log ++ events)
    (soft : after.softTimeout = job.softTimeout) (hard : after.timeout = job.timeout)
    (times : ∀ time, after.timeAccepted = some time →
      job.timeAccepted = some time ∨ 0 < time ∧ .accepted number time ∈ events)
    (unsubmitted : ∀ other softTimeout timeout, .submitted other softTimeout timeout ∉ events)
    (own : ∀ other, .resolved other ∈ events → other = number)
    (ready : after.ready = true ↔ job.ready = true ∨ .resolved number ∈ events) :
    next.Recorded := by
  have kept : ∀ event ∈ state.log, event ∈ next.log := fun event member =>
    logged ▸ List.mem_append_left _ member
  have here : next.jobs[number]? = some after := jobs ▸ getElem?_set_found found after
  have elsewhere : ∀ other, other ≠ number → next.jobs[other]? = state.jobs[other]? := by
    intro other differs
    rw [jobs, List.getElem?_set_ne differs.symm]
  refine ⟨?_, ?_, ?_, ?_⟩
  · intro other entry listed
    rw [jobs] at listed
    rcases getElem?_set_cases listed with ⟨rfl, rfl⟩ | ⟨_, same⟩
    · rw [soft, hard]
      exact kept _ (recorded.submitted other job found)
    · exact kept _ (recorded.submitted other entry same)
  · intro other softTimeout timeout listed
    rw [logged, List.mem_append] at listed
    obtain ⟨entry, same, rfl, rfl⟩ := recorded.known other softTimeout timeout
      (listed.resolve_right (unsubmitted _ _ _))
    by_cases differs : other = number
    · subst differs
      rw [found] at same
      cases same
      exact ⟨after, here, soft, hard⟩
    · exact ⟨entry, (elsewhere other differs).trans same, rfl, rfl⟩
  · intro other entry time listed started
    rw [jobs] at listed
    rcases getElem?_set_cases listed with ⟨rfl, rfl⟩ | ⟨_, same⟩
    · rcases times time started with before | ⟨positive, now⟩
      · exact (recorded.accepted other job time found before).imp_right (kept _)
      · exact ⟨positive, logged ▸ List.mem_append_right _ now⟩
    · exact (recorded.accepted other entry time same started).imp_right (kept _)
  · intro other
    rw [logged, List.mem_append, recorded.resolved other]
    by_cases differs : other = number
    · subst differs
      simp only [found, here, Option.some.injEq, exists_eq_left', ready]
    · rw [elsewhere other differs]
      exact or_iff_left (mt (own other) differs)

theorem Recorded.submit (recorded : state.Recorded) (options : ApplyOptions)
    (jobs : next.jobs = state.jobs ++ [ApplyResult.init state.jobs.length options])
    (logged : next.log = state.log ++
      [.submitted state.jobs.length options.softTimeout options.timeout]) : next.Recorded := by
  have kept : ∀ event ∈ state.log, event ∈ next.log := fun event member =>
    logged ▸ List.mem_append_left _ member
  have last : next.jobs[state.jobs.length]? =
      some (ApplyResult.init state.jobs.length options) := by
    rw [jobs, List.getElem?_concat_length]
  have old : ∀ (number : Nat) (job : ApplyResult α), state.jobs[number]? = some job →
      next.jobs[number]? = some job := by
    intro number job found
    rw [jobs, List.getElem?_append_left (List.getElem?_eq_some_iff.mp found).1]
    exact found
  have cases_ : ∀ (number : Nat) (job : ApplyResult α), next.jobs[number]? = some job →
      state.jobs[number]? = some job ∨
      number = state.jobs.length ∧ job = ApplyResult.init state.jobs.length options := by
    intro number job found
    rw [jobs, List.getElem?_append, List.getElem?_singleton] at found
    split at found
    · exact .inl found
    · simp only [Option.ite_none_right_eq_some, Option.some.injEq] at found
      exact .inr ⟨by omega, found.2.symm⟩
  refine ⟨?_, ?_, ?_, ?_⟩
  · intro number job found
    rcases cases_ number job found with same | ⟨rfl, rfl⟩
    · exact kept _ (recorded.submitted number job same)
    · rw [logged]
      exact List.mem_append_right _ (List.mem_singleton_self _)
  · intro number softTimeout timeout listed
    rw [logged, List.mem_append, List.mem_singleton] at listed
    rcases listed with before | new
    · obtain ⟨job, found, same⟩ := recorded.known number softTimeout timeout before
      exact ⟨job, old number job found, same⟩
    · cases new
      exact ⟨_, last, rfl, rfl⟩
  · intro number job time found started
    rcases cases_ number job found with same | ⟨rfl, rfl⟩
    · exact (recorded.accepted number job time same started).imp_right (kept _)
    · cases started
  · intro number
    rw [logged, List.mem_append, List.mem_singleton, or_iff_left (by simp), recorded.resolved]
    constructor
    · rintro ⟨job, found, ready⟩
      exact ⟨job, old number job found, ready⟩
    · rintro ⟨job, found, ready⟩
      rcases cases_ number job found with same | ⟨rfl, rfl⟩
      · exact ⟨job, same, ready⟩
      · cases ready

theorem Watched.advance (watched : state.Watched tSoft tHard) (recorded : next.Recorded)
    (kept : ∀ (number : Nat) (job : ApplyResult α), state.jobs[number]? = some job →
      ∃ after, next.jobs[number]? = some after ∧ (job.cached = false → after.cached = false))
    (dirty : state.dirty ⊆ next.dirty)
    (pending : PassPoint.pending next.point ⊆ PassPoint.pending state.point)
    (point : next.AtPoint tSoft tHard next.point)
    (sent : ∀ number, Signalled next.log number → Signalled state.log number ∨
      number ∈ next.dirty ∧ ∃ job, state.jobs[number]? = some job)
    (lawful : Sound (Lawful tSoft tHard) next.log) : next.Watched tSoft tHard where
  recorded := recorded
  point := point
  signalled number sends := by
    rcases sent number sends with before | ⟨marked, job, found⟩
    · obtain ⟨job, found, done⟩ := watched.signalled number before
      obtain ⟨after, same, left⟩ := kept number job found
      exact ⟨after, same, done.imp (@dirty number)
        fun gone => ⟨left gone.1, fun still => gone.2 (pending still)⟩⟩
    · obtain ⟨after, same, _⟩ := kept number job found
      exact ⟨after, same, .inl marked⟩
  lawful := lawful

theorem Watched.outside (watched : state.Watched tSoft tHard) (recorded : next.Recorded)
    (kept : ∀ (number : Nat) (job : ApplyResult α), state.jobs[number]? = some job →
      ∃ after, next.jobs[number]? = some after ∧ (job.cached = false → after.cached = false))
    (dirty : next.dirty = state.dirty) (point : next.point = state.point)
    (later : state.now ≤ next.now) (logged : next.log = state.log ++ events)
    (others : ∀ event ∈ events, ¬IsDeed event) : next.Watched tSoft tHard := by
  have quiet : ∀ pid exam readAt now, .took (.softSignal pid) exam readAt now ∉ events :=
    fun pid exam readAt now member => others _ member True.intro
  refine watched.advance recorded kept (fun _ => dirty ▸ id) ?_ ?_ ?_ ?_
  · rw [point]
    exact List.Subset.refl _
  · rw [point]
    exact watched.point.mono later logged quiet
  · intro number sends
    rw [logged, signalled_append quiet] at sends
    exact .inl sends
  · rw [logged, sound_append]
    · exact watched.lawful
    · intro event member before
      cases event with
      | took deed exam readAt now => exact absurd True.intro (others _ member)
      | submitted | accepted | resolved => exact True.intro

theorem kept_set {job after : ApplyResult α} (found : state.jobs[number]? = some job)
    (jobs : next.jobs = state.jobs.set number after)
    (cached : job.cached = false → after.cached = false) (other : Nat) (entry : ApplyResult α)
    (listed : state.jobs[other]? = some entry) :
    ∃ after, next.jobs[other]? = some after ∧ (entry.cached = false → after.cached = false) := by
  rw [jobs]
  by_cases same : other = number
  · subst same
    rw [found] at listed
    cases listed
    exact ⟨after, getElem?_set_found found after, cached⟩
  · exact ⟨entry, (List.getElem?_set_ne (Ne.symm same)).trans listed, id⟩

theorem kept_refl (jobs : next.jobs = state.jobs) (number : Nat) (job : ApplyResult α)
    (found : state.jobs[number]? = some job) :
    ∃ after, next.jobs[number]? = some after ∧ (job.cached = false → after.cached = false) :=
  ⟨job, jobs ▸ found, id⟩

section Lawful

variable {deed : Deed} {readAt now : Nat}

theorem lawful_hard (examined : Examined tSoft tHard log exam) (hard : deed.limit = some .hard)
    (passed : timedOut exam.ackTime exam.hardTimeout readAt = true) (since : readAt ≤ now) :
    Lawful tSoft tHard log (.took deed exam readAt now) := by
  refine ⟨?_, ?_, fun _ _ _ => .inl hard⟩
  · rintro pid rfl
    cases hard
  · intro limit limited
    rw [hard] at limited
    cases limited
    exact examined.ranOut .hard (timedOut_later passed since)

theorem lawful_soft (recorded : state.Recorded) (examined : Examined tSoft tHard state.log exam)
    (soft : deed.limit = some .soft)
    (early : timedOut exam.ackTime exam.hardTimeout readAt = false)
    (passed : timedOut exam.ackTime exam.softTimeout now = true)
    (unsent : ¬Signalled state.log exam.number) :
    Lawful tSoft tHard state.log (.took deed exam readAt now) := by
  refine ⟨?_, ?_, ?_⟩
  · rintro pid - other prior readAt now sent same
    exact unsent ⟨other, prior, readAt, now, sent, same⟩
  · intro limit limited
    rw [soft] at limited
    cases limited
    exact examined.ranOut .soft passed
  · intro accepted started ranOut
    rw [examined.timedOut recorded started ranOut] at early
    cases early

theorem lawful_idle (recorded : state.Recorded) (examined : Examined tSoft tHard state.log exam)
    (idle : deed.limit = none)
    (early : deed = .finished ∨ timedOut exam.ackTime exam.hardTimeout readAt = false) :
    Lawful tSoft tHard state.log (.took deed exam readAt now) := by
  refine ⟨?_, ?_, ?_⟩
  · rintro pid rfl
    cases idle
  · intro limit limited
    rw [idle] at limited
    cases limited
  · intro accepted started ranOut
    refine .inr (early.resolve_right fun unready => ?_)
    rw [examined.timedOut recorded started ranOut] at unready
    cases unready

end Lawful

theorem timeAccepted_ack (job : ApplyResult α) (timeAccepted pid : Nat) (synqWFd : Option Nat) :
    (job.ack timeAccepted pid synqWFd).1.timeAccepted =
      if job.cancelled && job.sendAck then job.timeAccepted else some timeAccepted := by
  have confirmed : ∀ (prior : ApplyResult α) (response : Response),
      (prior.confirm response pid synqWFd).timeAccepted = prior.timeAccepted := by
    intro prior response
    obtain ⟨calls, same, _⟩ := ApplyResult.noted_confirm prior response pid synqWFd
    rw [same]
  unfold ApplyResult.ack
  split
  · exact confirmed _ _
  · simp only
    split
    · exact (confirmed _ _).trans (by split <;> rfl)
    · exact (confirmed _ _).trans (by split <;> rfl)
    · simp only [ApplyResult.log]
      split <;> rfl

theorem Watched.ack {job : ApplyResult α} (watched : state.Watched tSoft tHard)
    {timeAccepted pid : Nat} {synqWFd : Option Nat} (positive : 0 < timeAccepted)
    (found : state.jobs[number]? = some job) :
    (state.ack number timeAccepted pid synqWFd job).Watched tSoft tHard := by
  obtain ⟨workerPid, time, cached, ⟨calls, noted, _⟩, _, left, _⟩ :=
    job.ack_spec timeAccepted pid synqWFd
  have times := timeAccepted_ack job timeAccepted pid synqWFd
  refine watched.outside (watched.recorded.set found rfl rfl ?_ ?_ ?_ ?_ ?_ ?_)
    (kept_set found rfl ?_) rfl rfl (Nat.le_refl _) rfl ?_
  · rw [noted]
  · rw [noted]
  · intro when accepted
    rw [times] at accepted
    split at accepted
    · exact .inl accepted
    · rename_i takes
      cases accepted
      rw [if_neg takes]
      exact .inr ⟨positive, List.mem_singleton_self _⟩
  · intro other softTimeout timeout
    split <;> simp
  · intro other
    split <;> simp
  · rw [noted]
    split <;> simp [ApplyResult.ready]
  · intro gone
    rw [noted]
    by_contra stays
    rw [left (by simpa using stays)] at gone
    cases gone
  · split <;> simp [IsDeed]

theorem Watched.submit (watched : state.Watched tSoft tHard) (options : ApplyOptions) :
    ({ state with jobs := state.jobs ++ [ApplyResult.init state.jobs.length options] }.record
      [.submitted state.jobs.length options.softTimeout options.timeout]).Watched
        tSoft tHard := by
  refine watched.outside (watched.recorded.submit options rfl rfl) ?_ rfl rfl (Nat.le_refl _) rfl
    (by simp [IsDeed])
  intro number job found
  exact ⟨job, (List.getElem?_append_left (List.getElem?_eq_some_iff.mp found).1).trans found, id⟩

theorem Watched.resolved {job after : ApplyResult α} (watched : state.Watched tSoft tHard)
    (found : state.jobs[number]? = some job) (soft : after.softTimeout = job.softTimeout)
    (hard : after.timeout = job.timeout) (times : after.timeAccepted = job.timeAccepted)
    (cached : job.cached = false → after.cached = false) (ready : after.ready = true) :
    ((state.setJob number after).record [.resolved number]).Watched tSoft tHard := by
  refine watched.outside (watched.recorded.set found rfl rfl soft hard ?_ ?_ ?_ ?_)
    (kept_set found rfl cached) rfl rfl (Nat.le_refl _) rfl ?_
  · exact fun time accepted => .inl (times ▸ accepted)
  · simp
  · simp
  · simp [ready]
  · simp [IsDeed]

theorem Watched.setJob {job after : ApplyResult α} (watched : state.Watched tSoft tHard)
    (found : state.jobs[number]? = some job) (soft : after.softTimeout = job.softTimeout)
    (hard : after.timeout = job.timeout) (times : after.timeAccepted = job.timeAccepted)
    (cached : job.cached = false → after.cached = false) (ready : after.ready = job.ready) :
    (state.setJob number after).Watched tSoft tHard := by
  refine watched.outside (watched.recorded.set found rfl (List.append_nil _).symm soft hard
    ?_ ?_ ?_ ?_) (kept_set found rfl cached) rfl rfl (Nat.le_refl _) (List.append_nil _).symm nofun
  · exact fun time accepted => .inl (times ▸ accepted)
  · simp
  · simp
  · simp [ready]

theorem Watched.idle (watched : state.Watched tSoft tHard) (jobs : next.jobs = state.jobs)
    (dirty : next.dirty = state.dirty) (point : next.point = state.point)
    (later : state.now ≤ next.now) (logged : next.log = state.log) : next.Watched tSoft tHard :=
  have added : next.log = state.log ++ [] := logged.trans (List.append_nil _).symm
  watched.outside (watched.recorded.append jobs added nofun) (kept_refl jobs) dirty point later
    added nofun

theorem Watched.pass (watched : state.Watched tSoft tHard) :
    { state with
      dirty := state.dirty.filter ((List.range state.jobs.length).filter state.inCache).contains
      point := .looping ((List.range state.jobs.length).filter state.inCache) }.Watched
        tSoft tHard where
  recorded := watched.recorded.append rfl (List.append_nil _).symm nofun
  point := True.intro
  signalled number sends := by
    obtain ⟨job, found, done⟩ := watched.signalled number sends
    refine ⟨job, found, ?_⟩
    have inside : number < state.jobs.length := (List.getElem?_eq_some_iff.mp found).1
    cases cached : job.cached with
    | true =>
        have copied : number ∈ (List.range state.jobs.length).filter state.inCache :=
          List.mem_filter.mpr ⟨List.mem_range.mpr inside, by simp [inCache, found, cached]⟩
        refine .inl (List.mem_filter.mpr ⟨?_, List.contains_iff_mem.mpr copied⟩)
        exact done.resolve_right fun gone => by simp [cached] at gone
    | false =>
        refine .inr ⟨rfl, ?_⟩
        simp [PassPoint.pending, inCache, found, cached]
  lawful := watched.lawful

theorem Watched.moveTo (watched : state.Watched tSoft tHard) {point : PassPoint}
    (pending : PassPoint.pending point ⊆ PassPoint.pending state.point)
    (at_ : state.AtPoint tSoft tHard point) : (state.moveTo point).Watched tSoft tHard :=
  watched.advance (watched.recorded.append rfl (List.append_nil _).symm nofun) (kept_refl rfl)
    (List.Subset.refl _) pending
    (at_.mono (Nat.le_refl _) (List.append_nil _).symm nofun) (fun _ => .inl) watched.lawful

theorem Watched.markDirty (watched : state.Watched tSoft tHard) (number : Nat) :
    (state.markDirty number).Watched tSoft tHard :=
  watched.advance (watched.recorded.append rfl (List.append_nil _).symm nofun) (kept_refl rfl)
    (List.subset_cons_self _ _) (List.Subset.refl _)
    (watched.point.mono (Nat.le_refl _) (List.append_nil _).symm nofun) (fun _ => .inl)
    watched.lawful

theorem Watched.took (watched : state.Watched tSoft tHard) {deed : Deed} {readAt : Nat}
    (lawful : Lawful tSoft tHard state.log (.took deed exam readAt state.now))
    (other : ∀ pid, deed ≠ .softSignal pid) :
    (state.took deed exam readAt).Watched tSoft tHard := by
  have quiet : ∀ pid prior readAt' now,
      PoolEvent.took (.softSignal pid) prior readAt' now ∉ [.took deed exam readAt state.now] := by
    intro pid prior readAt' now member
    cases List.mem_singleton.mp member
    exact other pid rfl
  refine watched.advance (watched.recorded.append rfl rfl ?_) (kept_refl rfl)
    (List.Subset.refl _) (List.Subset.refl _)
    (watched.point.mono (Nat.le_refl _) rfl quiet) ?_ (sound_concat.mpr ⟨watched.lawful, lawful⟩)
  · intro event member
    cases List.mem_singleton.mp member
    exact True.intro
  · intro number sends
    exact .inl ((signalled_append quiet).mp sends)

/-- A job is dirty when the signal is sent to its worker, and the pass goes on. -/
theorem Watched.sends (watched : state.Watched tSoft tHard) {pid readAt : Nat} {rest : List Nat}
    {job : ApplyResult α} (found : state.jobs[exam.number]? = some job)
    (here : state.point = .looping rest) (dirty : exam.number ∈ state.dirty)
    (lawful : Lawful tSoft tHard state.log (.took (.softSignal pid) exam readAt state.now)) :
    (state.took (.softSignal pid) exam readAt).Watched tSoft tHard := by
  refine watched.advance (watched.recorded.append rfl rfl ?_) (kept_refl rfl)
    (List.Subset.refl _) (List.Subset.refl _) ?_ ?_ (sound_concat.mpr ⟨watched.lawful, lawful⟩)
  · intro event member
    cases List.mem_singleton.mp member
    exact True.intro
  · change (state.took (.softSignal pid) exam readAt).AtPoint tSoft tHard state.point
    rw [here]
    exact True.intro
  · rintro number ⟨other, prior, readAt', now, sent, rfl⟩
    rcases List.mem_append.mp sent with before | new
    · exact .inl ⟨other, prior, readAt', now, before, rfl⟩
    · cases List.mem_singleton.mp new
      exact .inr ⟨dirty, job, found⟩

section Actions

variable {readAt : Nat} {rest : List Nat} {job : ApplyResult α}

theorem Watched.onHardTimeout (watched : state.Watched tSoft tHard)
    (here : state.point = .hardDue exam readAt rest)
    (found : state.jobs[exam.number]? = some job) :
    (state.onHardTimeout exam readAt rest job).Watched tSoft tHard := by
  obtain ⟨examined, passed, since⟩ := here ▸ watched.point
  have pending : rest ⊆ PassPoint.pending state.point := by
    rw [here]
    exact List.subset_cons_self _ _
  unfold TimeoutRun.onHardTimeout
  split
  · exact (watched.took (lawful_idle watched.recorded examined rfl (.inl rfl)) nofun).moveTo
      pending True.intro
  · obtain ⟨calls, stored, _⟩ := job.set_spec (.failure (.timeLimitExceeded job.timeout))
    have acts : (state.took .hard exam readAt).Watched tSoft tHard :=
      watched.took (lawful_hard examined rfl passed since) nofun
    have ends := acts.resolved found (congrArg (·.softTimeout) stored)
      (congrArg (·.timeout) stored) (congrArg (·.timeAccepted) stored)
      (fun gone => by rw [stored]; simp [gone]) (by rw [stored]; rfl)
    simp only
    split
    · exact ends.moveTo (List.nil_subset _) True.intro
    · refine ends.moveTo ?_ ?_
      · change exam.number :: rest ⊆ PassPoint.pending state.point
        rw [here]
        exact List.Subset.refl _
      · exact ⟨examined.mono.mono, passed, since⟩

theorem Watched.noted {after : ApplyResult α} (watched : state.Watched tSoft tHard)
    (found : state.jobs[number]? = some job) (noted : ApplyResult.Noted job after) :
    (state.setJob number after).Watched tSoft tHard := by
  obtain ⟨calls, rfl, _⟩ := noted
  exact watched.setJob found rfl rfl rfl id rfl

theorem Watched.terminate (watched : state.Watched tSoft tHard)
    (here : state.point = .terminating exam readAt rest)
    (found : state.jobs[exam.number]? = some job) (exits : Bool) :
    (state.terminate exam readAt rest exits job).Watched tSoft tHard := by
  obtain ⟨examined, passed, since⟩ := here ▸ watched.point
  have pending : rest ⊆ PassPoint.pending state.point := by
    rw [here]
    exact List.subset_cons_self _ _
  have called := watched.noted found (ApplyResult.noted_handleTimeout job false)
  unfold TimeoutRun.terminate
  simp only
  split
  · exact called.moveTo (List.nil_subset _) True.intro
  · split
    · exact called.moveTo pending True.intro
    · rename_i pid _
      have term : ((state.setJob exam.number (job.handleTimeout false).1).took (.term pid) exam
          readAt).Watched tSoft tHard :=
        called.took (lawful_hard examined rfl passed since) nofun
      split
      · exact term.moveTo pending True.intro
      · have kill : (((state.setJob exam.number (job.handleTimeout false).1).took (.term pid) exam
            readAt).took (.kill pid) exam readAt).Watched tSoft tHard :=
          term.took (lawful_hard examined.mono rfl passed since) nofun
        exact kill.moveTo pending True.intro

theorem Watched.onSoftTimeout (watched : state.Watched tSoft tHard)
    (here : state.point = .softDue exam readAt rest)
    (found : state.jobs[exam.number]? = some job) :
    (state.onSoftTimeout exam readAt rest job).Watched tSoft tHard := by
  obtain ⟨examined, early, passed, unsent⟩ := here ▸ watched.point
  unfold TimeoutRun.onSoftTimeout
  split
  · have vanishes : (state.took .vanished exam readAt).Watched tSoft tHard :=
      watched.took (lawful_idle watched.recorded examined rfl (.inr early)) nofun
    refine (vanishes.markDirty _).moveTo ?_ True.intro
    change rest ⊆ PassPoint.pending state.point
    rw [here]
    exact List.subset_cons_self _ _
  · have acts : (state.took .soft exam readAt).Watched tSoft tHard :=
      watched.took (lawful_soft watched.recorded examined rfl early passed unsent) nofun
    have called := acts.noted found (ApplyResult.noted_handleTimeout job true)
    simp only
    split
    · exact called.moveTo (List.nil_subset _) True.intro
    · refine called.moveTo ?_ ?_
      · change exam.number :: rest ⊆ PassPoint.pending state.point
        rw [here]
        exact List.Subset.refl _
      · exact ⟨examined.mono, early, passed, mt (signalled_append (by simp)).mp unsent⟩

theorem Watched.signal (watched : state.Watched tSoft tHard)
    (here : state.point = .signalling exam readAt rest)
    (found : state.jobs[exam.number]? = some job) (outcome : KillOutcome) :
    (state.signal exam readAt rest outcome job).Watched tSoft tHard := by
  obtain ⟨examined, early, passed, unsent⟩ := here ▸ watched.point
  have marked : ((state.markDirty exam.number).moveTo (.looping rest)).Watched tSoft tHard := by
    refine (watched.markDirty exam.number).moveTo ?_ True.intro
    change rest ⊆ PassPoint.pending state.point
    rw [here]
    exact List.subset_cons_self _ _
  unfold TimeoutRun.signal
  split
  · exact watched.moveTo (List.nil_subset _) True.intro
  · exact watched.moveTo (List.nil_subset _) True.intro
  · rename_i pid _
    have lawful : Lawful tSoft tHard state.log (.took (.softSignal pid) exam readAt state.now) :=
      lawful_soft watched.recorded examined rfl early passed unsent
    exact marked.sends found rfl (List.mem_cons_self ..) lawful
  · exact marked

end Actions

theorem examined_examine (recorded : state.Recorded) {job : ApplyResult α}
    (found : state.jobs[number]? = some job) :
    Examined tSoft tHard state.log (examine tSoft tHard number job) :=
  ⟨job.softTimeout, job.timeout, recorded.submitted number job found, rfl, rfl,
    fun time started => recorded.accepted number job time found started⟩

theorem Watched.testHard (watched : state.Watched tSoft tHard)
    (taken : TimeoutRun.step tSoft tHard state .testHard = some next) :
    next.Watched tSoft tHard := by
  simp only [TimeoutRun.step] at taken
  split at taken
  · rename_i exam rest here
    cases taken
    have examined := watched.point
    rw [here] at examined
    split
    · rename_i passed
      refine watched.moveTo ?_ ⟨examined, passed, Nat.le_refl _⟩
      rw [here]
      exact List.Subset.refl _
    · rename_i early
      refine watched.moveTo ?_ ⟨examined, by simpa using early⟩
      rw [here]
      exact List.Subset.refl _
  · cases taken

theorem Watched.testSoft (watched : state.Watched tSoft tHard)
    (taken : TimeoutRun.step tSoft tHard state .testSoft = some next) :
    next.Watched tSoft tHard := by
  simp only [TimeoutRun.step] at taken
  split at taken
  · rename_i exam readAt rest here
    obtain ⟨examined, early⟩ := here ▸ watched.point
    have pending : exam.number :: rest ⊆ PassPoint.pending state.point := by
      rw [here]
      exact List.Subset.refl _
    split at taken
    · rename_i due
      cases taken
      simp only [Bool.and_eq_true, Bool.not_eq_true', List.contains_eq_mem,
        decide_eq_false_iff_not] at due
      refine watched.moveTo pending ⟨examined, early, due.2, fun sent => ?_⟩
      -- what the copy still holds is dirty once its worker was signalled
      obtain ⟨_, _, marked | gone⟩ := watched.signalled _ sent
      · exact due.1 marked
      · exact gone.2 (pending (List.mem_cons_self ..))
    · cases taken
      have nothing : (state.took .nothing exam readAt).Watched tSoft tHard :=
        watched.took (lawful_idle watched.recorded examined rfl (.inr early))
          fun _ same => Deed.noConfusion same
      exact nothing.moveTo (fun _ member => pending (List.mem_cons_of_mem _ member)) True.intro
  · cases taken

theorem Watched.step (label : TimeoutStep α) (watched : state.Watched tSoft tHard)
    (taken : step tSoft tHard state label = some next) : next.Watched tSoft tHard := by
  cases label with
  | tick d =>
      cases taken
      exact watched.idle rfl rfl rfl (Nat.le_add_right _ _) rfl
  | submit options =>
      cases taken
      exact watched.submit options
  | ack number timeAccepted pid synqWFd =>
      simp only [TimeoutRun.step, Option.ite_none_right_eq_some, Option.map_eq_some_iff] at taken
      obtain ⟨positive, job, found, rfl⟩ := taken
      exact watched.ack positive found
  | resolve number outcome =>
      obtain ⟨job, found, rfl⟩ := Option.map_eq_some_iff.mp taken
      exact watched.resolved found rfl rfl rfl id rfl
  | pop number =>
      obtain ⟨job, found, rfl⟩ := Option.map_eq_some_iff.mp taken
      exact watched.setJob found rfl rfl rfl (fun _ => rfl) rfl
  | setProcesses processes =>
      cases taken
      exact watched.idle rfl rfl rfl (Nat.le_refl _) rfl
  | close =>
      cases taken
      exact watched.idle rfl rfl rfl (Nat.le_refl _) rfl
  | pass =>
      simp only [TimeoutRun.step] at taken
      split at taken
      · split at taken
        · cases taken
          exact watched.pass
        · cases taken
          exact watched.moveTo (List.nil_subset _) True.intro
      · cases taken
  | take =>
      simp only [TimeoutRun.step] at taken
      split at taken
      · cases taken
        exact watched.moveTo (List.nil_subset _) True.intro
      · rename_i number rest here
        obtain ⟨job, found, rfl⟩ := Option.map_eq_some_iff.mp taken
        refine watched.moveTo ?_ (examined_examine watched.recorded found)
        rw [here]
        exact List.Subset.refl _
      · cases taken
  | testHard => exact watched.testHard taken
  | testSoft => exact watched.testSoft taken
  | hard =>
      simp only [TimeoutRun.step] at taken
      split at taken
      · rename_i here
        obtain ⟨job, found, rfl⟩ := Option.map_eq_some_iff.mp taken
        exact watched.onHardTimeout here found
      · cases taken
  | terminate exits =>
      simp only [TimeoutRun.step] at taken
      split at taken
      · rename_i here
        obtain ⟨job, found, rfl⟩ := Option.map_eq_some_iff.mp taken
        exact watched.terminate here found exits
      · cases taken
  | soft =>
      simp only [TimeoutRun.step] at taken
      split at taken
      · rename_i here
        obtain ⟨job, found, rfl⟩ := Option.map_eq_some_iff.mp taken
        exact watched.onSoftTimeout here found
      · cases taken
  | signal outcome =>
      simp only [TimeoutRun.step] at taken
      split at taken
      · rename_i here
        obtain ⟨job, found, rfl⟩ := Option.map_eq_some_iff.mp taken
        exact watched.signal here found outcome
      · cases taken

theorem init_watched : (init : TimeoutRun α).Watched tSoft tHard where
  recorded := by constructor <;> simp [init]
  point := True.intro
  signalled number sends := by
    obtain ⟨_, _, _, _, sent, _⟩ := sends
    cases sent
  lawful := sound_nil

/-- Whatever the other threads do meanwhile, what the handler has done by any time is lawful. -/
theorem lawful_of_run (tSoft tHard : Option Nat) {labels : List (TimeoutStep α)}
    (ran : run (step tSoft tHard) init labels = some state) :
    Sound (Lawful tSoft tHard) state.log :=
  (invariant_run (fun _ label _ watched taken => Watched.step label watched taken) init_watched
    ran).lawful

/-- A job that gets its soft signal, and is stopped two passes later. -/
theorem lawful_softThenHard :
    ∃ state : TimeoutRun Nat,
      run (step (some 1) (some 5)) init [.submit {}, .setProcesses [7], .ack 0 1 7 none, .tick 3,
        .pass, .take, .testHard, .testSoft, .soft, .signal .delivered, .take,
        .pass, .take, .testHard, .testSoft, .take, .tick 4,
        .pass, .take, .testHard, .hard, .terminate true] = some state ∧
      state.log.length = 8 ∧ Sound (Lawful (some 1) (some 5)) state.log := by
  have ran : run (step (some 1) (some 5)) (init : TimeoutRun Nat) [.submit {},
      .setProcesses [7], .ack 0 1 7 none, .tick 3, .pass, .take, .testHard, .testSoft, .soft,
      .signal .delivered, .take, .pass, .take, .testHard, .testSoft, .take, .tick 4,
      .pass, .take, .testHard, .hard, .terminate true] = some _ := rfl
  exact ⟨_, ran, rfl, lawful_of_run (some 1) (some 5) ran⟩

end TimeoutRun

end Billiard
