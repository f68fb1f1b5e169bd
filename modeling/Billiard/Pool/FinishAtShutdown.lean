import Billiard.Data.Transition
import Billiard.Pool.Join
import Billiard.Pool.TimeoutHandler

/-! The loop of `ResultHandler.finish_at_shutdown`, which delivers what the
workers have left in the outqueue. -/

namespace Billiard

open Transition Visit

/-- No job is in the cache after that was not before. -/
def Shrinks (before after : List (Job α)) : Prop :=
  ∀ (number : Nat) (job : Job α), after[number]? = some job → job.cached = true →
    ∃ prior : Job α, before[number]? = some prior ∧ prior.cached = true

structure TimeoutCheck (α : Type u) where
  run : List (Job α) → List (Job α) × Option TimeoutCrash
  shrinks : ∀ jobs, Shrinks jobs (run jobs).1

inductive FinishEnd where
  | drained
  | terminated
  | eof
  | timedOut
  | crashed
deriving DecidableEq, Repr

/-- `none` in the outqueue is a sentinel. -/
structure ResultHandler (α : Type u) where
  jobs : List (Job α)
  staff : Staff
  outqueue : List (Option (Report α))
  timeTerminate : Option Nat
  ended : Option FinishEnd

/-- The loop begins before its first look at the clock. -/
def ResultHandler.start (jobs : List (Job α)) (staff : Staff)
    (outqueue : List (Option (Report α))) : ResultHandler α :=
  ⟨jobs, staff, outqueue, none, none⟩

/-- What a turn of the loop meets: messages that have arrived, workers that have
exited, by their serial numbers, and the readings of the clock. -/
structure FinishTurn (α : Type u) where
  terminated : Bool
  checkTimeouts : Option (TimeoutCheck α)
  arrivals : List (Option (Report α))
  eof : Bool
  exits : Nat → Option Int
  joinNow : Nat
  joinClock : Nat → Nat
  now : Nat

/-- What stays the same throughout the loop: how a result is iterated over, the
pool's `on_process_down`, the readings of the clock in a second, and whether the
outqueue has a `_reader`. -/
structure FinishSetting (α : Type u) where
  iter : α → List α
  onProcessDown : Option (Worker → Callback)
  second : Nat
  hasReader : Bool

namespace ResultHandler

/-- `on_state_change` -/
def onStateChange (iter : α → List α) (jobs : List (Job α)) (report : Report α) :
    List (Job α) × Option Raised :=
  match jobs[report.task.job]? with
  | none => (jobs, none)
  | some job =>
      if job.cached then
        let result := match report.message with
          | .ack timeAccepted pid synqWFd =>
              Pool.catching [.keyError, .attributeError]
                (job.ack report.task.i timeAccepted pid synqWFd)
          | .ready outcome => Pool.catching [.keyError] (job.set iter report.task.i outcome)
        (jobs.set report.task.job result.1, result.2)
      else (jobs, none)

def discards (hasReader : Bool) : Nat := if hasReader then 10 else 0

/-- Behind the loop, room is made in the outqueue. -/
def leave (setting : FinishSetting α) (handler : ResultHandler α) (ended : FinishEnd) :
    ResultHandler α :=
  { handler with
    outqueue := handler.outqueue.drop (discards setting.hasReader)
    ended := some ended }

/-- The end of a turn, from `join_exited_workers` on. -/
def join (setting : FinishSetting α) (handler : ResultHandler α) (turn : FinishTurn α) :
    ResultHandler α :=
  let joining := joinExitedWorkers setting.iter setting.onProcessDown turn.joinNow turn.joinClock
    true handler.jobs handler.staff
  let handler := { handler with jobs := joining.jobs, staff := joining.staff }
  match joining.ended with
  | .joined _ => handler
  | .raised _ => { handler with ended := some .crashed }
  | .workersJoined =>
      match handler.timeTerminate.filter (· ≠ 0) with
      | none => { handler with timeTerminate := some turn.now }
      | some timeTerminate =>
          if timeTerminate + 5 * setting.second < turn.now then handler.leave setting .timedOut
          else handler

def receive (setting : FinishSetting α) (handler : ResultHandler α) (turn : FinishTurn α) :
    ResultHandler α :=
  match handler.outqueue with
  | [] => handler.join setting turn
  | none :: outqueue => { handler with outqueue }
  | some report :: outqueue =>
      match onStateChange setting.iter handler.jobs report with
      | (jobs, some _) => { handler with jobs, outqueue, ended := some .crashed }
      | (jobs, none) => { handler with jobs, outqueue }.join setting turn

def exit (staff : Staff) (exits : Nat → Option Int) : Staff :=
  { staff with workers := staff.workers.map fun worker =>
      { worker with exitcode := worker.exitcode.or (exits worker.serial) } }

def meet (handler : ResultHandler α) (turn : FinishTurn α) : ResultHandler α :=
  { handler with
    staff := exit handler.staff turn.exits
    outqueue := handler.outqueue ++ turn.arrivals }

/-- A turn of the loop, or the way out of it. -/
def step (setting : FinishSetting α) (handler : ResultHandler α) (turn : FinishTurn α) :
    Option (ResultHandler α) :=
  if handler.ended.isSome then none
  else
    let handler := handler.meet turn
    if handler.jobs.all (!·.cached) then some (handler.leave setting .drained)
    else if turn.terminated then some (handler.leave setting .terminated)
    else
      match turn.checkTimeouts.map (·.run handler.jobs) with
      | some (jobs, some _) => some { handler with jobs, ended := some .crashed }
      | some (jobs, none) =>
          if turn.eof then some { handler with jobs, ended := some .eof }
          else some ({ handler with jobs }.receive setting turn)
      | none =>
          if turn.eof then some { handler with ended := some .eof }
          else some (handler.receive setting turn)

/-- A result for a job in the cache. -/
def Awaited (jobs : List (Job α)) (message : Option (Report α)) : Prop :=
  ∃ report outcome job, message = some report ∧ report.message = .ready outcome ∧
    jobs[report.task.job]? = some job ∧ job.cached = true

/-- The method has not returned with a result unread, unless it was terminated
or met the end of the queue. -/
def Delivered (handler : ResultHandler α) : Prop :=
  handler.ended = some .drained ∨ handler.ended = some .timedOut →
    ∀ message ∈ handler.outqueue, ¬Awaited handler.jobs message

/-- The timer for giving up has run out. -/
def RunOut (setting : FinishSetting α) (timeTerminate : Option Nat) (now : Nat) : Prop :=
  ∃ started, timeTerminate = some started ∧ started ≠ 0 ∧ started + 5 * setting.second < now

/-- If the method gives up in this turn, five seconds after the pool was empty,
what it does not read or discard is for no job in the cache. -/
def Patient (setting : FinishSetting α) (handler : ResultHandler α) (turn : FinishTurn α) : Prop :=
  turn.terminated = false → turn.eof = false → handler.staff.workers = [] →
    RunOut setting handler.timeTerminate turn.now →
    (handler.outqueue ++ turn.arrivals).head? ≠ some none →
    ∀ message ∈ (handler.outqueue ++ turn.arrivals).drop (discards setting.hasReader + 1),
      ¬Awaited handler.jobs message

end ResultHandler

theorem Shrinks.refl (jobs : List (Job α)) : Shrinks jobs jobs :=
  fun _ job found cached => ⟨job, found, cached⟩

theorem Shrinks.trans {first middle last : List (Job α)} (front : Shrinks first middle)
    (back : Shrinks middle last) : Shrinks first last := by
  intro number job found cached
  obtain ⟨prior, found, cached⟩ := back number job found cached
  exact front number prior found cached

theorem shrinks_visit {turn : Nat → Job α → Job α × Option ε}
    (kept : ∀ number job, (turn number job).1.cached = true → job.cached = true)
    (jobs : List (Job α)) : Shrinks jobs (visit turn 0 jobs).1 := by
  intro number job found cached
  obtain ⟨prior, found, turned⟩ := getElem?_visit found
  cases turned with
  | inl same => exact ⟨prior, found, same ▸ cached⟩
  | inr same => exact ⟨prior, found, kept _ prior (same ▸ cached)⟩

theorem shrinks_set {jobs : List (Job α)} {number : Nat} {job after : Job α}
    (found : jobs[number]? = some job) (kept : after.cached = true → job.cached = true) :
    Shrinks jobs (jobs.set number after) := by
  intro other result present cached
  obtain ⟨rfl, rfl⟩ | ⟨_, unchanged⟩ := Tally.getElem?_set_cases present
  · exact ⟨job, found, kept cached⟩
  · exact ⟨result, unchanged, cached⟩

theorem Job.cached_markIfLate {iter : α → List α} {now number : Nat} {job : Job α}
    (cached : (job.markIfLate iter now number).1.cached = true) : job.cached = true := by
  unfold markIfLate at cached
  split at cached
  · exact cached
  · split at cached
    · exact (progress_set iter job _ _).cached cached
    · exact cached

theorem Job.cached_scanIfCached {iter : α → List α} {clock : Nat → Nat} {cleaned : List Worker}
    {allPids : List Nat} {number : Nat} {job : Job α}
    (cached : (job.scanIfCached iter clock cleaned allPids number).1.cached = true) :
    job.cached = true := by
  unfold scanIfCached at cached
  split at cached
  · assumption
  · exact cached

theorem shrinks_joinExitedWorkers (iter : α → List α)
    (onProcessDown : Option (Worker → Callback)) (now : Nat) (clock : Nat → Nat) (shutdown : Bool)
    (jobs : List (Job α)) (staff : Staff) :
    Shrinks jobs (joinExitedWorkers iter onProcessDown now clock shutdown jobs staff).jobs := by
  have marked : Shrinks jobs (visit (Job.markIfLate iter now) 0 jobs).1 :=
    shrinks_visit (fun _ _ => Job.cached_markIfLate) jobs
  have scanned : ∀ (cleaned : List Worker) (allPids : List Nat) (after : List (Job α)),
      Shrinks after (visit (Job.scanIfCached iter clock cleaned allPids) 0 after).1 :=
    fun cleaned allPids after => shrinks_visit (fun _ _ => Job.cached_scanIfCached) after
  unfold joinExitedWorkers
  split
  · rename_i after exc visited
    rw [visited] at marked
    exact marked
  · rename_i after visited
    rw [visited] at marked
    split
    · exact marked
    · simp only
      split
      · exact marked
      · rename_i rest _
        split
        · exact marked
        · have scanned := scanned staff.cleaned rest.pids after
          split
          · rename_i last exc visited
            rw [visited] at scanned
            exact marked.trans scanned
          · rename_i last visited
            rw [visited] at scanned
            split
            · exact marked.trans scanned
            · exact marked.trans scanned

theorem workers_of_workersJoined {iter : α → List α}
    {onProcessDown : Option (Worker → Callback)} {now : Nat} {clock : Nat → Nat} {shutdown : Bool}
    {jobs : List (Job α)} {staff : Staff}
    (joined : (joinExitedWorkers iter onProcessDown now clock shutdown jobs staff).ended =
      .workersJoined) : staff.workers = [] := by
  unfold joinExitedWorkers at joined
  split at joined
  · cases joined
  · split at joined
    · rename_i finished
      exact List.isEmpty_iff.mp ((Bool.and_eq_true _ _).mp finished).2
    · simp only at joined
      split at joined
      · cases joined
      · split at joined
        · cases joined
        · split at joined
          · cases joined
          · split at joined <;> cases joined

def TimeoutHandler.toCheck (handler : TimeoutHandler) (dirty : Nat → Bool) : TimeoutCheck α where
  run jobs :=
    let passed := handler.handleTimeouts (jobs.mapIdx fun number job => ⟨job, dirty number, []⟩)
    (passed.1.map TimedJob.job, passed.2)
  shrinks := by
    intro jobs number job found cached
    simp only [List.getElem?_map, Option.map_eq_some_iff] at found
    obtain ⟨after, visited, rfl⟩ := found
    obtain ⟨entry, started, turned⟩ := getElem?_visit visited
    simp only [List.getElem?_map, List.getElem?_mapIdx, Option.map_eq_some_iff] at started
    obtain ⟨_, ⟨prior, found, rfl⟩, rfl⟩ := started
    refine ⟨prior, found, ?_⟩
    cases turned with
    | inl same =>
        rw [same] at cached
        exact cached
    | inr same =>
        rw [same, checkCached] at cached
        split at cached
        · assumption
        · exact cached

namespace ResultHandler

variable {setting : FinishSetting α} {handler next : ResultHandler α} {turn : FinishTurn α}

theorem shrinks_onStateChange (iter : α → List α) (jobs : List (Job α)) (report : Report α) :
    Shrinks jobs (onStateChange iter jobs report).1 := by
  unfold onStateChange
  split
  · exact Shrinks.refl jobs
  · rename_i job found
    split
    · apply shrinks_set found
      cases report.message with
      | ack timeAccepted pid synqWFd => exact (Job.acked job _ _ _ _).cached
      | ready outcome => exact (Job.progress_set iter job _ _).cached
    · exact Shrinks.refl jobs

theorem Awaited.shrinks {before after : List (Job α)} {message : Option (Report α)}
    (awaited : Awaited after message) (shrinks : Shrinks before after) :
    Awaited before message := by
  obtain ⟨report, outcome, job, same, ready, found, cached⟩ := awaited
  obtain ⟨prior, found, cached⟩ := shrinks report.task.job job found cached
  exact ⟨report, outcome, prior, same, ready, found, cached⟩

theorem delivered_of_ended {ended : FinishEnd} (ends : handler.ended = some ended)
    (ne : ended ≠ .drained ∧ ended ≠ .timedOut) : handler.Delivered := by
  intro finished
  rw [ends] at finished
  simp only [Option.some.injEq] at finished
  exact absurd finished (not_or.mpr ne)

theorem delivered_of_open (open_ : handler.ended = none) : handler.Delivered := by
  intro finished
  rw [open_] at finished
  simp at finished

theorem delivered_join (open_ : handler.ended = none)
    (patient : handler.staff.workers = [] → RunOut setting handler.timeTerminate turn.now →
      ∀ message ∈ handler.outqueue.drop (discards setting.hasReader),
        ¬Awaited handler.jobs message) : (handler.join setting turn).Delivered := by
  have shrinks := shrinks_joinExitedWorkers setting.iter setting.onProcessDown turn.joinNow
    turn.joinClock true handler.jobs handler.staff
  unfold join
  simp only
  split
  · exact delivered_of_open open_
  · exact delivered_of_ended rfl ⟨nofun, nofun⟩
  · rename_i joined
    split
    · exact delivered_of_open open_
    · rename_i timeTerminate started
      split
      · rename_i late
        rw [Option.filter_eq_some_iff] at started
        intro _ message unread awaited
        exact patient (workers_of_workersJoined joined)
          ⟨timeTerminate, started.1, by simpa using started.2, late⟩ message unread
          (awaited.shrinks shrinks)
      · exact delivered_of_open open_

theorem delivered_receive (open_ : handler.ended = none)
    (patient : handler.staff.workers = [] → RunOut setting handler.timeTerminate turn.now →
      handler.outqueue.head? ≠ some none →
      ∀ message ∈ handler.outqueue.drop (discards setting.hasReader + 1),
        ¬Awaited handler.jobs message) : (handler.receive setting turn).Delivered := by
  unfold receive
  split
  · rename_i empty
    apply delivered_join open_
    simp [empty]
  · exact delivered_of_open open_
  · rename_i report outqueue waiting
    have shrinks := shrinks_onStateChange setting.iter handler.jobs report
    split
    · exact delivered_of_ended rfl ⟨nofun, nofun⟩
    · rename_i jobs handled
      rw [handled] at shrinks
      refine delivered_join (by exact open_) ?_
      intro nobody late message unread awaited
      rw [waiting] at patient
      exact patient nobody late (by simp) message unread (awaited.shrinks shrinks)

theorem delivered_step (patient : Patient setting handler turn)
    (taken : step setting handler turn = some next) : next.Delivered := by
  unfold step at taken
  split at taken
  · cases taken
  · rename_i continues
    have open_ : handler.ended = none := by simpa using continues
    have met : ∀ jobs, Shrinks handler.jobs jobs → turn.terminated = false → turn.eof = false →
        ({ handler.meet turn with jobs }.receive setting turn).Delivered := by
      intro jobs shrinks runs more
      refine delivered_receive (by exact open_) ?_
      intro nobody late first message unread awaited
      have nobody : handler.staff.workers = [] := by simpa [meet, exit] using nobody
      exact patient runs more nobody late first message unread (awaited.shrinks shrinks)
    simp only at taken
    split at taken
    · rename_i drained
      cases taken
      intro _ message _ awaited
      obtain ⟨report, outcome, job, _, _, found, cached⟩ := awaited
      have dropped := List.all_eq_true.mp drained job (List.mem_of_getElem? found)
      simp [cached] at dropped
    · split at taken
      · cases taken
        exact delivered_of_ended rfl ⟨nofun, nofun⟩
      · rename_i runs
        have runs := Bool.eq_false_iff.mpr runs
        split at taken
        · cases taken
          exact delivered_of_ended rfl ⟨nofun, nofun⟩
        · rename_i jobs checked
          split at taken
          · cases taken
            exact delivered_of_ended rfl ⟨nofun, nofun⟩
          · rename_i more
            cases taken
            obtain ⟨check, _, ran⟩ := Option.map_eq_some_iff.mp checked
            have shrinks := check.shrinks (handler.meet turn).jobs
            rw [ran] at shrinks
            exact met jobs shrinks runs (Bool.eq_false_iff.mpr more)
        · split at taken
          · cases taken
            exact delivered_of_ended rfl ⟨nofun, nofun⟩
          · rename_i more
            cases taken
            exact met handler.jobs (Shrinks.refl _) runs (Bool.eq_false_iff.mpr more)

/-- A shutdown that gives up in no turn while a result stays behind delivers
every result. -/
theorem delivered_along {jobs : List (Job α)} {staff : Staff}
    {outqueue : List (Option (Report α))} {turns : List (FinishTurn α)} {last : ResultHandler α}
    (patient : Along (step setting) (Patient setting) (start jobs staff outqueue) turns)
    (ran : run (step setting) (start jobs staff outqueue) turns = some last) : last.Delivered := by
  have kept : Preserves (step setting) (Patient setting) Delivered :=
    fun _ _ _ _ patient taken => delivered_step patient taken
  exact invariant_along kept (delivered_of_open rfl) patient ran

/-- A turn in which nothing happens but that the clock reads `now`. -/
def quiet (now : Nat) : FinishTurn α := ⟨false, none, [], false, fun _ => none, 0, fun _ => 0, now⟩

/-- Accepted jobs whose results wait when all workers have gone. -/
def waiting (count : Nat) : ResultHandler Nat :=
  start ((List.range count).map fun number => .apply ((ApplyResult.init number {}).ack 0 7 none).1)
    ⟨[], [], []⟩
    ((List.range count).map fun number => some ⟨0, ⟨number, .none⟩, .ready (.success number)⟩)

def inSeconds : FinishSetting Nat := ⟨fun value => [value], none, 1, true⟩

theorem delivered_along_lastResult :
    ∃ last, run (step inSeconds) (waiting 1) [quiet 1, quiet 2] = some last ∧ last.Delivered := by
  have early : ∀ now, now < 6 → ¬RunOut inSeconds (some 1) now := by
    intro now soon late
    obtain ⟨started, same, _, late⟩ := late
    cases same
    have late : 1 + 5 * 1 < now := late
    omega
  have patient : Along (step inSeconds) (Patient inSeconds) (waiting 1) [quiet 1, quiet 2] := by
    refine Along.cons ?_ rfl (Along.cons ?_ rfl True.intro)
    · intro _ _ _ late
      obtain ⟨_, unset, _⟩ := late
      cases unset
    · intro _ _ _ late
      exact absurd late (early 2 (by decide))
  exact ⟨_, rfl, delivered_along patient rfl⟩

/-- Thirteen results wait, and the callback of the second takes six seconds. -/
theorem not_delivered :
    ∃ last, run (step inSeconds) (waiting 13) [quiet 1, quiet 7] = some last ∧
      ¬last.Delivered := by
  refine ⟨_, rfl, fun delivered => ?_⟩
  exact delivered (.inr rfl) (some ⟨0, ⟨12, .none⟩, .ready (.success 12)⟩) (by decide)
    ⟨_, _, _, rfl, rfl, rfl, rfl⟩

theorem onStateChange_pool (iter : α → List α) (pool : Pool α) (report : Report α)
    (calm : pool.raised = none) :
    ((pool.onStateChange iter report).jobs, (pool.onStateChange iter report).raised) =
      onStateChange iter pool.jobs report := by
  unfold Pool.onStateChange onStateChange
  cases report.message with
  | ack timeAccepted pid synqWFd =>
      simp only
      cases pool.jobs[report.task.job]? with
      | none => simp [calm]
      | some job => cases cached : job.cached <;> simp [calm, Pool.store, cached]
  | ready outcome =>
      simp only
      cases pool.jobs[report.task.job]? with
      | none => simp [calm]
      | some job => cases cached : job.cached <;> simp [calm, Pool.store, cached]

end ResultHandler

end Billiard
