import Mathlib.Data.List.Nodup
import Billiard.Data.Visit
import Billiard.Pool.Supervision

/-! A whole pass of `Pool._join_exited_workers`, over jobs of all kinds. -/

namespace Billiard

open Visit

/-- `workers` is `_pool`; the others are the keys of the dictionaries that have
an entry for each worker. -/
structure Staff where
  workers : List Worker
  poolctrl : List Nat
  onReadyCounters : List Nat
deriving DecidableEq, Repr

/-- What `_create_worker_process` provides for: the pids are those of processes
that nobody has waited for, and each has its entries. -/
structure Crew extends Staff where
  distinct : (workers.map Worker.pid).Nodup
  controlled : ∀ worker ∈ workers, worker.pid ∈ poolctrl
  counted : ∀ worker ∈ workers, worker.pid ∈ onReadyCounters

inductive JoinEnd where
  | joined (exitcodes : List Int)
  | workersJoined
  | raised (exc : Raised)
deriving DecidableEq, Repr

/-- The state that a pass leaves, and how it ends. -/
structure Joining (α : Type u) where
  jobs : List (Job α)
  staff : Staff
  ended : JoinEnd

namespace Job

def isIterator : Job α → Bool
  | .apply _ | .map _ => false
  | .imap _ | .imapUnordered _ => true

/-- `job._worker_lost` is older than `job._lost_worker_timeout`. -/
def late (now : Nat) (job : Job α) : Bool :=
  !job.ready && job.workerLost.any fun lost => lost.1 + job.lostWorkerTimeout < now

/-- The first loop of the pass, for a job in the cache. -/
def markIfLate (iter : α → List α) (now number : Nat) (job : Job α) : Job α × Option Raised :=
  match job.workerLost with
  | none => (job, none)
  | some (_, lostRet) =>
      if job.cached && job.late now then
        job.set iter .none (.failure (.workerLost lostRet number))
      else (job, none)

def ackedByGone (cleaned : List Worker) (allPids : List Nat) (job : Job α) : Option Nat :=
  (job.workerPids.find? (Pool.gone cleaned allPids)).filter (· ≠ 0)

/-- The last loop over the cache. -/
def scanIfCached (iter : α → List α) (clock : Nat → Nat) (cleaned : List Worker)
    (allPids : List Nat) (number : Nat) (job : Job α) : Job α × Option Raised :=
  if job.cached then Pool.scanJob iter (clock number) cleaned allPids job else (job, none)

/-- The error callback of the job raises nothing that the job lets through. -/
def Forgiving : Job α → Prop
  | .apply result => result.errorCallback ≠ some .propagates
  | .map result => result.errorCallback = none ∨ result.errorCallback = some .returns
  | .imap _ | .imapUnordered _ => True

/-- The last loop raises nothing on account of the job. -/
def Scannable (cleaned : List Worker) (allPids : List Nat) (job : Job α) : Prop :=
  match job.ackedByGone cleaned allPids with
  | some pid =>
      job.ready = true ∨ (cleaned.find? (·.pid == pid)).any Worker.jobTerminated = false ∨
        job.isIterator = false ∧ job.Forgiving
  | none => job.isIterator = false

/-- One more failure is all that an iterator waits for. -/
def closing : Job α → Bool
  | .apply _ | .map _ => false
  | .imap it => it.length = some it.index
  | .imapUnordered it => it.length = some (it.index + 1)

end Job

namespace Staff

def pids (staff : Staff) : List Nat := staff.workers.map Worker.pid

/-- The workers that the pass takes out, the last one first. -/
def cleaned (staff : Staff) : List Worker := (staff.workers.filter (·.exitcode.isSome)).reverse

def survivors (staff : Staff) : List Worker := staff.workers.filter (·.exitcode.isNone)

/-- `del self._poolctrl[pid]` and `del self._on_ready_counters[pid]` -/
def forget : List Nat → Staff → Option Staff
  | [], staff => some staff
  | pid :: pids, staff =>
      if pid ∈ staff.poolctrl ∧ pid ∈ staff.onReadyCounters then
        forget pids { staff with
          poolctrl := staff.poolctrl.erase pid
          onReadyCounters := staff.onReadyCounters.erase pid }
      else none

end Staff

def processDown (onProcessDown : Option (Worker → Callback)) (worker : Worker) : Option Raised :=
  match onProcessDown with
  | none => none
  | some callback => if callback worker = .returns then none else some .callbackError

/-- `now` is the reading of the clock for the first loop, `clock` those for the
jobs that lose their worker. -/
def joinExitedWorkers (iter : α → List α) (onProcessDown : Option (Worker → Callback))
    (now : Nat) (clock : Nat → Nat) (shutdown : Bool) (jobs : List (Job α)) (staff : Staff) :
    Joining α :=
  match visit (Job.markIfLate iter now) 0 jobs with
  | (jobs, some exc) => ⟨jobs, staff, .raised exc⟩
  | (jobs, none) =>
      if shutdown && staff.workers.isEmpty then ⟨jobs, staff, .workersJoined⟩
      else
        let cleaned := staff.cleaned
        let staff := { staff with workers := staff.survivors }
        match staff.forget (cleaned.map Worker.pid) with
        | none => ⟨jobs, staff, .raised .keyError⟩
        | some staff =>
            if cleaned.isEmpty then ⟨jobs, staff, .joined []⟩
            else
              match visit (Job.scanIfCached iter clock cleaned staff.pids) 0 jobs with
              | (jobs, some exc) => ⟨jobs, staff, .raised exc⟩
              | (jobs, none) =>
                  match cleaned.findSome? (processDown onProcessDown) with
                  | some exc => ⟨jobs, staff, .raised exc⟩
                  | none => ⟨jobs, staff, .joined (cleaned.filterMap Worker.exitcode)⟩

/-- The pass raises nothing, other than `WorkersJoined` in its place. -/
def Joining.Completed (joining : Joining α) (shutdown : Bool) (staff : Staff) : Prop :=
  match joining.ended with
  | .joined _ => True
  | .workersJoined => shutdown = true ∧ staff.workers = []
  | .raised _ => False

namespace Job

variable {iter : α → List α} {job : Job α}

theorem setFailure_returned_iff {info : ExceptionInfo} (cached : job.cached = true) :
    (job.set iter .none (.failure info)).2 = none ↔ job.Forgiving := by
  cases job with
  | apply result =>
      have called : (result.set (.failure info)).2 = none ↔ _ := ApplyResult.setFailure_returned_iff
      simpa [set, Prod.map, Forgiving] using called
  | map result =>
      simp only [set, Forgiving, MapResult.set, MapResult.applyCallback]
      cases result.errorCallback with
      | none => simp [Prod.map]
      | some callback => cases callback <;> simp [Prod.map]
  | imap it =>
      have kept : (it.keep .none (.failure info)).cached = true := cached
      simp [set, IMapIterator.set, IMapIterator.complete_of_cached kept, Prod.map, Forgiving]
  | imapUnordered it =>
      have kept : (it.append (.failure info)).notify.cached = true := cached
      simp [set, IMapIterator.setUnordered, IMapIterator.complete_of_cached kept, Prod.map,
        Forgiving]

variable {clock : Nat → Nat} {cleaned : List Worker} {allPids : List Nat} {now number : Nat}

theorem setTerminated_returned_iff {signum : Int} (cached : job.cached = true) :
    (job.setTerminated iter signum).2 = none ↔ job.isIterator = false ∧ job.Forgiving := by
  cases job with
  | apply result => simpa [setTerminated, isIterator] using setFailure_returned_iff cached
  | map result => simpa [setTerminated, isIterator] using setFailure_returned_iff cached
  | imap it => simp [setTerminated, isIterator]
  | imapUnordered it => simp [setTerminated, isIterator]

theorem scanJob_returned_iff {reading : Nat} (cached : job.cached = true) :
    (Pool.scanJob iter reading cleaned allPids job).2 = none ↔ job.Scannable cleaned allPids := by
  unfold Pool.scanJob Scannable ackedByGone
  cases (job.workerPids.find? (Pool.gone cleaned allPids)).filter (· ≠ 0) with
  | none => cases job <;> simp [isIterator]
  | some pid =>
      cases ready : job.ready with
      | true => simp
      | false =>
          cases terminated : (cleaned.find? (·.pid == pid)).any Worker.jobTerminated with
          | true => simpa [terminated] using setTerminated_returned_iff cached
          | false => simp [terminated]

theorem markIfLate_eq (iter : α → List α) (number : Nat) (cached : job.cached = true)
    (late : job.late now = true) :
    ∃ info, job.markIfLate iter now number = job.set iter .none (.failure info) := by
  unfold markIfLate
  cases lost : job.workerLost with
  | none => simp [Job.late, lost] at late
  | some loss => exact ⟨.workerLost loss.2 number, by simp [cached, late]⟩

theorem markIfLate_of_not_late (punctual : job.late now = false) :
    job.markIfLate iter now number = (job, none) := by
  unfold markIfLate
  split
  · rfl
  · simp [punctual]

theorem markIfLate_of_not_cached (gone : job.cached = false) :
    job.markIfLate iter now number = (job, none) := by
  unfold markIfLate
  split
  · rfl
  · simp [gone]

theorem markIfLate_returned_iff :
    (job.markIfLate iter now number).2 = none ↔
      (job.cached = true → job.late now = true → job.Forgiving) := by
  cases cached : job.cached with
  | false => simp [markIfLate_of_not_cached cached]
  | true =>
      cases late : job.late now with
      | false => simp [markIfLate_of_not_late late]
      | true =>
          obtain ⟨info, marked⟩ := markIfLate_eq iter number cached late
          simpa [marked] using setFailure_returned_iff cached

theorem scannable_of_forgiving (single : job.isIterator = false) (forgiving : job.Forgiving) :
    job.Scannable cleaned allPids := by
  unfold Scannable
  split
  · exact .inr (.inr ⟨single, forgiving⟩)
  · exact single

theorem scan_of_not_cached (gone : job.cached = false) :
    (job.scanIfCached iter clock cleaned allPids number).2 = none := by
  simp [scanIfCached, gone]

theorem scan_returned_iff (cached : job.cached = true) :
    (job.scanIfCached iter clock cleaned allPids number).2 = none ↔
      job.Scannable cleaned allPids := by
  rw [scanIfCached, if_pos cached]
  exact scanJob_returned_iff cached

theorem scan_of_ready (ready : job.ready = true) (single : job.isIterator = false) :
    (job.scanIfCached iter clock cleaned allPids number).2 = none := by
  cases cached : job.cached with
  | false => exact scan_of_not_cached cached
  | true =>
      apply (scan_returned_iff cached).mpr
      unfold Scannable
      split
      · exact .inl ready
      · exact single

/-- What the last loop finds after the first: a job that was late needs nothing
more, unless it is an iterator that waits for other results. -/
theorem scan_marked_iff (cached : job.cached = true)
    (forgiving : job.late now = true → job.Forgiving) :
    ((job.markIfLate iter now number).1.scanIfCached iter clock cleaned allPids number).2 = none ↔
      job.late now = true ∧ job.closing = true ∨ job.Scannable cleaned allPids := by
  cases late : job.late now with
  | false =>
      rw [markIfLate_of_not_late late, scan_returned_iff cached]
      simp
  | true =>
      obtain ⟨info, marked⟩ := markIfLate_eq iter number cached late
      have forgives := forgiving late
      rw [marked]
      cases job with
      | apply result =>
          have ready : ((Job.apply result).set iter .none (.failure info)).1.ready = true :=
            apply_ready_set iter rfl .none (.failure info)
          exact iff_of_true (scan_of_ready ready rfl) (.inr (scannable_of_forgiving rfl forgives))
      | map result =>
          have returned : ((Job.map result).set iter .none (.failure info)).2 = none :=
            (setFailure_returned_iff cached).mpr forgives
          have ready : ((Job.map result).set iter .none (.failure info)).1.ready = true :=
            MapResult.event_setFailure (by simpa [set, Prod.map] using returned)
          exact iff_of_true (scan_of_ready ready rfl) (.inr (scannable_of_forgiving rfl forgives))
      | imap it =>
          have kept : (it.keep .none (.failure info)).cached = true := cached
          have stored : ((Job.imap it).set iter .none (.failure info)).1 =
              .imap (it.keep .none (.failure info)).complete.1 := rfl
          rw [stored, IMapIterator.complete_of_cached kept]
          by_cases last : it.length = some it.index
          · rw [if_pos (by exact last)]
            exact iff_of_true (scan_of_not_cached rfl) (.inl ⟨rfl, decide_eq_true last⟩)
          · have more : (Job.imap it).closing = false := decide_eq_false last
            rw [if_neg (by exact last), scan_returned_iff (by exact kept), more]
            exact (or_iff_right (by simp)).symm
      | imapUnordered it =>
          have kept : (it.append (.failure info)).notify.cached = true := cached
          have stored : ((Job.imapUnordered it).set iter .none (.failure info)).1 =
              .imapUnordered (it.append (.failure info)).notify.complete.1 := rfl
          rw [stored, IMapIterator.complete_of_cached kept]
          by_cases last : it.length = some (it.index + 1)
          · rw [if_pos (by exact last)]
            exact iff_of_true (scan_of_not_cached rfl) (.inl ⟨rfl, decide_eq_true last⟩)
          · have more : (Job.imapUnordered it).closing = false := decide_eq_false last
            rw [if_neg (by exact last), scan_returned_iff (by exact kept), more]
            exact (or_iff_right (by simp)).symm

end Job

theorem Staff.forget_spec {pids : List Nat} (staff : Staff) (distinct : pids.Nodup)
    (controlled : ∀ pid ∈ pids, pid ∈ staff.poolctrl)
    (counted : ∀ pid ∈ pids, pid ∈ staff.onReadyCounters) :
    ∃ poolctrl onReadyCounters,
      staff.forget pids = some { staff with poolctrl, onReadyCounters } ∧
        ∀ pid, pid ∉ pids → (pid ∈ staff.poolctrl → pid ∈ poolctrl) ∧
          (pid ∈ staff.onReadyCounters → pid ∈ onReadyCounters) := by
  induction pids generalizing staff with
  | nil => exact ⟨staff.poolctrl, staff.onReadyCounters, rfl, fun _ _ => ⟨id, id⟩⟩
  | cons pid pids ih =>
      obtain ⟨absent, distinct⟩ := List.nodup_cons.mp distinct
      have kept : ∀ {other : Nat} {keys : List Nat}, other ≠ pid → other ∈ keys →
          other ∈ keys.erase pid := fun ne member => (List.mem_erase_of_ne ne).mpr member
      have others : ∀ other ∈ pids, other ≠ pid := fun other member same =>
        absurd (same ▸ member) absent
      obtain ⟨poolctrl, onReadyCounters, forgotten, rest⟩ := ih
        { staff with
          poolctrl := staff.poolctrl.erase pid
          onReadyCounters := staff.onReadyCounters.erase pid } distinct
        (fun other member =>
          kept (others other member) (controlled other (List.mem_cons_of_mem _ member)))
        (fun other member =>
          kept (others other member) (counted other (List.mem_cons_of_mem _ member)))
      refine ⟨poolctrl, onReadyCounters, ?_, ?_⟩
      · rw [forget, if_pos ⟨controlled pid List.mem_cons_self, counted pid List.mem_cons_self⟩]
        exact forgotten
      · intro other missing
        obtain ⟨ne, missing⟩ := not_or.mp (mt List.mem_cons.mpr missing)
        exact ⟨fun member => (rest other missing).1 (kept ne member),
          fun member => (rest other missing).2 (kept ne member)⟩

theorem Crew.forget_spec (crew : Crew) :
    ∃ rest : Crew, { crew.toStaff with workers := crew.survivors }.forget
        (crew.cleaned.map Worker.pid) = some rest.toStaff ∧ rest.workers = crew.survivors := by
  have present : ∀ worker ∈ crew.cleaned, worker ∈ crew.workers ∧ worker.exitcode.isSome = true :=
    fun worker cleaned => List.mem_filter.mp (List.mem_reverse.mp cleaned)
  have stays : ∀ worker ∈ crew.survivors, worker ∈ crew.workers ∧ worker.exitcode.isNone = true :=
    fun worker survives => List.mem_filter.mp survives
  have listed : ∀ pid ∈ crew.cleaned.map Worker.pid,
      pid ∈ crew.poolctrl ∧ pid ∈ crew.onReadyCounters := by
    intro pid member
    obtain ⟨worker, cleaned, rfl⟩ := List.mem_map.mp member
    exact ⟨crew.controlled worker (present worker cleaned).1,
      crew.counted worker (present worker cleaned).1⟩
  have apart : ∀ worker ∈ crew.survivors, worker.pid ∉ crew.cleaned.map Worker.pid := by
    intro worker survives member
    obtain ⟨other, cleaned, same⟩ := List.mem_map.mp member
    have equal := List.inj_on_of_nodup_map crew.distinct (present other cleaned).1
      (stays worker survives).1 same
    have exited := (present other cleaned).2
    have alive := (stays worker survives).2
    rw [equal, Option.isSome_iff_ne_none] at exited
    exact exited (Option.isNone_iff_eq_none.mp alive)
  have distinct : (crew.cleaned.map Worker.pid).Nodup := by
    rw [Staff.cleaned, List.map_reverse, (List.reverse_perm _).nodup_iff]
    exact crew.distinct.sublist (List.filter_sublist.map _)
  obtain ⟨poolctrl, onReadyCounters, forgotten, kept⟩ := Staff.forget_spec
    { crew.toStaff with workers := crew.survivors } distinct
    (fun pid member => (listed pid member).1) (fun pid member => (listed pid member).2)
  exact ⟨{
    workers := crew.survivors
    poolctrl
    onReadyCounters
    distinct := crew.distinct.sublist (List.filter_sublist.map _)
    controlled := fun worker survives => (kept worker.pid (apart worker survives)).1
      (crew.controlled worker (stays worker survives).1)
    counted := fun worker survives => (kept worker.pid (apart worker survives)).2
      (crew.counted worker (stays worker survives).1) }, forgotten, rfl⟩

structure Unhindered (onProcessDown : Option (Worker → Callback)) (now : Nat)
    (jobs : List (Job α)) (staff : Staff) : Prop where
  forgiving : ∀ job ∈ jobs, job.cached = true → job.late now = true → job.Forgiving
  scannable : staff.cleaned ≠ [] → ∀ job ∈ jobs, job.cached = true →
    job.late now = true ∧ job.closing = true ∨
      job.Scannable staff.cleaned (staff.survivors.map Worker.pid)
  processDown : ∀ worker ∈ staff.cleaned, processDown onProcessDown worker = none

variable {iter : α → List α} {onProcessDown : Option (Worker → Callback)} {now : Nat}
  {clock : Nat → Nat} {shutdown : Bool} {jobs : List (Job α)}

theorem unhindered_of_nobody {staff : Staff} (nobody : staff.cleaned = [])
    (forgiving : ∀ job ∈ jobs, job.cached = true → job.late now = true → job.Forgiving) :
    Unhindered onProcessDown now jobs staff where
  forgiving := forgiving
  scannable := fun some => absurd nobody some
  processDown := by simp [nobody]

theorem marks_iff (iter : α → List α) (now : Nat) (jobs : List (Job α)) :
    (visit (Job.markIfLate iter now) 0 jobs).2 = none ↔
      ∀ job ∈ jobs, job.cached = true → job.late now = true → job.Forgiving := by
  rw [Visit.returned_iff]
  constructor
  · intro returned job member
    obtain ⟨number, found⟩ := List.getElem?_of_mem member
    exact Job.markIfLate_returned_iff.mp (returned number job found)
  · intro forgiving number job found
    exact Job.markIfLate_returned_iff.mpr (forgiving job (List.mem_of_getElem? found))

theorem scans_iff (clock : Nat → Nat) (cleaned : List Worker) (allPids : List Nat)
    (marked : (visit (Job.markIfLate iter now) 0 jobs).2 = none) :
    (visit (Job.scanIfCached iter clock cleaned allPids) 0
        (visit (Job.markIfLate iter now) 0 jobs).1).2 = none ↔
      ∀ job ∈ jobs, job.cached = true →
        job.late now = true ∧ job.closing = true ∨ job.Scannable cleaned allPids := by
  have forgiving := (marks_iff iter now jobs).mp marked
  have after := Visit.getElem?_visit_of_returned marked
  rw [Visit.returned_iff]
  constructor
  · intro returned job member cached
    obtain ⟨number, found⟩ := List.getElem?_of_mem member
    have scanned := returned number _ (by rw [after, found]; rfl)
    rw [Nat.zero_add] at scanned
    exact (Job.scan_marked_iff cached (forgiving job member cached)).mp scanned
  · intro scannable number job found
    rw [after, Option.map_eq_some_iff] at found
    obtain ⟨prior, found, rfl⟩ := found
    have member := List.mem_of_getElem? found
    rw [Nat.zero_add]
    cases cached : prior.cached with
    | false =>
        rw [Job.markIfLate_of_not_cached cached]
        exact Job.scan_of_not_cached cached
    | true =>
        exact (Job.scan_marked_iff cached (forgiving prior member cached)).mpr
          (scannable prior member cached)

/-- Workers that were started and have exited are joined without an exception
exactly when the jobs and the callbacks leave room for none. -/
theorem completed_iff (crew : Crew) :
    (joinExitedWorkers iter onProcessDown now clock shutdown jobs crew.toStaff).Completed shutdown
      crew.toStaff ↔ Unhindered onProcessDown now jobs crew.toStaff := by
  obtain ⟨rest, forgotten, survivors⟩ := crew.forget_spec
  have marks := marks_iff iter now jobs
  have scans : (visit (Job.markIfLate iter now) 0 jobs).2 = none → _ :=
    scans_iff clock crew.cleaned (crew.survivors.map Worker.pid)
  unfold joinExitedWorkers
  cases marked : visit (Job.markIfLate iter now) 0 jobs with
  | mk after raised =>
      rw [marked] at marks scans
      cases raised with
      | some exc =>
          refine iff_of_false id fun unhindered => ?_
          cases marks.mpr unhindered.forgiving
      | none =>
          have forgiving := marks.mp rfl
          have scans := scans rfl
          cases finished : shutdown && crew.workers.isEmpty with
          | true =>
              simp only [if_true]
              obtain ⟨requested, nobody⟩ := (Bool.and_eq_true _ _).mp finished
              have nobody := List.isEmpty_iff.mp nobody
              have cleaned : crew.cleaned = [] := by simp [Staff.cleaned, nobody]
              exact iff_of_true ⟨requested, nobody⟩ (unhindered_of_nobody cleaned forgiving)
          | false =>
              simp only [Bool.false_eq_true, if_false, forgotten]
              cases cleaned : crew.cleaned with
              | nil =>
                  simp only [List.isEmpty_nil, if_true]
                  exact iff_of_true True.intro (unhindered_of_nobody cleaned forgiving)
              | cons worker workers =>
                  have some : crew.cleaned ≠ [] := by simp [cleaned]
                  rw [← cleaned, if_neg (by simpa using some)]
                  simp only [Staff.pids, survivors]
                  cases scanned : visit (Job.scanIfCached iter clock crew.cleaned
                      (crew.survivors.map Worker.pid)) 0 after with
                  | mk last raised =>
                      rw [scanned] at scans
                      cases raised with
                      | some exc =>
                          refine iff_of_false id fun unhindered => ?_
                          cases scans.mpr (unhindered.scannable some)
                      | none =>
                          have scannable := scans.mp rfl
                          simp only
                          split
                          · rename_i exc raises
                            refine iff_of_false id fun unhindered => ?_
                            obtain ⟨worker, member, raised⟩ :=
                              List.exists_of_findSome?_eq_some raises
                            rw [unhindered.processDown worker member] at raised
                            cases raised
                          · rename_i returned
                            exact iff_of_true True.intro ⟨forgiving, fun _ => scannable,
                              List.findSome?_eq_none_iff.mp returned⟩

/-- Two of the workers have exited. -/
def partlyExited : Crew where
  workers := [⟨0, 7, some 0, false, none, false⟩, ⟨1, 8, none, false, none, false⟩,
    ⟨2, 9, some (-9), false, none, false⟩]
  poolctrl := [7, 8, 9]
  onReadyCounters := [9, 8, 7]
  distinct := by decide
  controlled := by decide
  counted := by decide

/-- Jobs of all kinds: the first three have lost their workers, and the last one for too long. -/
def bereft : List (Job Nat) :=
  [.apply ((ApplyResult.init 0 {}).ack 3 7 none).1,
    .map ((MapResult.init 1 2 3 none none).ack 0 4 9), .imap ((IMapIterator.init 2 10).ack 9),
    .map (MapResult.init 3 1 1 none (some .raises)),
    .imapUnordered { (IMapIterator.init 4 10).ack 6 with
      length := some 1
      workerLost := some (5, 1) }]

theorem completed_iff_partlyExited : Unhindered none 20 bereft partlyExited.toStaff := by
  have joined : (joinExitedWorkers (fun value => [value]) none 20 (fun _ => 21) false bereft
      partlyExited.toStaff).Completed false partlyExited.toStaff := True.intro
  exact (completed_iff partlyExited).mp joined

/-- An iterator that no worker has acknowledged yet, when a worker exits. -/
theorem not_completed :
    ¬(joinExitedWorkers (α := Nat) (fun value => [value]) none 0 (fun _ => 0) false
      [.imap (.init 0 10)] ⟨[⟨0, 7, some 0, false, none, false⟩], [7], [7]⟩).Completed false
        ⟨[⟨0, 7, some 0, false, none, false⟩], [7], [7]⟩ := id

end Billiard
