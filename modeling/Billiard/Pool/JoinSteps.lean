import Mathlib.Data.List.Induction
import Billiard.Pool.Join

/-! A pass of `_join_exited_workers` taken step by step, as the running pool takes it, is
the whole pass when nothing comes between its steps. -/

namespace Billiard

open Transition Visit

variable {α : Type u} {iter : α → List α}

/-- The numbers of the selected jobs, counted from `i`. -/
def todo (selected : Job α → Bool) : Nat → List (Job α) → List Nat
  | _, [] => []
  | i, job :: jobs =>
      if selected job then i :: todo selected (i + 1) jobs else todo selected (i + 1) jobs

def JoinEnd.exc? : JoinEnd → Option Raised
  | .raised exc => some exc
  | .joined _ | .workersJoined => none

theorem JoinEnd.exc?_elim (failed : Option Raised) (exitcodes : List Int) :
    (failed.elim (.joined exitcodes) .raised : JoinEnd).exc? = failed := by
  cases failed <;> rfl

theorem find?_pid {workers : List Worker} (distinct : (workers.map Worker.pid).Nodup)
    {worker : Worker} (member : worker ∈ workers) :
    workers.find? (·.pid == worker.pid) = some worker := by
  cases found : workers.find? (·.pid == worker.pid) with
  | none =>
      have other := List.find?_eq_none.mp found worker member
      simp at other
  | some other =>
      have same : other.pid = worker.pid := by simpa using List.find?_some found
      rw [List.inj_on_of_nodup_map distinct (List.mem_of_find?_eq_some found) member same]

theorem find?_pid_reverse {workers : List Worker} (distinct : (workers.map Worker.pid).Nodup)
    (pid : Nat) : workers.reverse.find? (·.pid == pid) = workers.find? (·.pid == pid) := by
  cases found : workers.find? (·.pid == pid) with
  | none =>
      apply List.find?_eq_none.mpr
      intro worker member
      exact List.find?_eq_none.mp found worker (List.mem_reverse.mp member)
  | some worker =>
      have same : worker.pid = pid := by simpa using List.find?_some found
      rw [← same]
      apply find?_pid
      · rw [List.map_reverse]
        exact List.nodup_reverse.mpr distinct
      · exact List.mem_reverse.mpr (List.mem_of_find?_eq_some found)

namespace Pool

/-- The pass asks of the workers that it has taken out only which pids they had. -/
theorem scanJob_reverse {cleaned : List Worker} (distinct : (cleaned.map Worker.pid).Nodup)
    (clock : Nat) (allPids : List Nat) (job : Job α) :
    scanJob iter clock cleaned.reverse allPids job = scanJob iter clock cleaned allPids job := by
  have gone : gone cleaned.reverse allPids = gone cleaned allPids := by
    funext pid
    simp [Pool.gone]
  unfold scanJob
  rw [gone]
  simp only [find?_pid_reverse distinct]

/-- The next step of the pass, with nothing before it. -/
def proceed (iter : α → List α) (pool : Pool α) (_ : Unit) : Option (Pool α) :=
  pool.step iter .advance

theorem filter_range'_eq_todo (selected : Job α → Bool) (front rest : List (Job α)) :
    ((List.range' front.length rest.length).filter fun number =>
      (front ++ rest)[number]?.any selected) = todo selected front.length rest := by
  induction rest generalizing front with
  | nil => rfl
  | cons job rest ih =>
      have tail := ih (front ++ [job])
      rw [List.append_assoc, List.singleton_append, List.length_append,
        List.length_singleton] at tail
      have here : (front ++ job :: rest)[front.length]? = some job := by simp
      rw [List.length_cons, List.range'_succ, List.filter_cons, here, Option.any_some, tail]
      rfl

theorem cache_eq_todo (pool : Pool α) (condition : Job α → Bool) :
    pool.cache condition = todo (fun job => job.cached && condition job) 0 pool.jobs := by
  have listed := filter_range'_eq_todo (fun job => job.cached && condition job) [] pool.jobs
  rw [List.nil_append, List.length_nil, ← List.range_eq_range'] at listed
  exact listed

/-- A loop over the cache, of which each round is one step of the pass. -/
theorem visit_steps {Left : List Nat → Pass → Prop} {selected : Job α → Bool}
    {turn : Nat → Job α → Job α × Option Raised} {clock : Nat}
    (passed : ∀ number job, selected job = false → turn number job = (job, none))
    (proceeds : ∀ (pool : Pool α) (number : Nat) (numbers : List Nat) (job : Job α),
      pool.raised = none → pool.clock = clock → Left (number :: numbers) pool.pass →
      pool.jobs[number]? = some job → selected job = true →
      ∃ pass, Left numbers pass ∧
        pool.proceed iter () = some ({ pool with pass }.store number (turn number job)))
    (front rest : List (Job α)) (pool : Pool α) (jobs : pool.jobs = front ++ rest)
    (calm : pool.raised = none) (reading : pool.clock = clock)
    (left : Left (todo selected front.length rest) pool.pass) :
    ∃ pass, Reachable (proceed iter) pool { pool with
        jobs := front ++ (visit turn front.length rest).1
        raised := (visit turn front.length rest).2
        pass } ∧
      ((visit turn front.length rest).2 = none → Left [] pass) := by
  induction rest generalizing front pool with
  | nil =>
      refine ⟨pool.pass, ?_, fun _ => left⟩
      have same : { pool with
          jobs := front ++ (visit turn front.length []).1
          raised := (visit turn front.length []).2
          pass := pool.pass } = pool := by
        rw [visit, ← jobs, ← calm]
      rw [same]
      exact .refl pool
  | cons job rest ih =>
      have grown : (front ++ [job]).length = front.length + 1 := by simp
      cases picked : selected job with
      | false =>
          have skipped := passed front.length job picked
          have next : todo selected front.length (job :: rest) =
              todo selected (front ++ [job]).length rest := by
            rw [grown, todo, picked]
            rfl
          obtain ⟨pass, reached, ended⟩ := ih (front ++ [job]) pool (by simp [jobs]) calm reading
            (next ▸ left)
          rw [visit_cons_returned (by rw [skipped]), skipped, ← grown]
          refine ⟨pass, ?_, ended⟩
          simpa using reached
      | true =>
          have next : todo selected front.length (job :: rest) =
              front.length :: todo selected (front.length + 1) rest := by
            rw [todo, picked]
            rfl
          have found : pool.jobs[front.length]? = some job := by simp [jobs]
          obtain ⟨pass, after, taken⟩ := proceeds pool front.length
            (todo selected (front.length + 1) rest) job calm reading (next ▸ left) found picked
          have stored : pool.jobs.set front.length (turn front.length job).1 =
              front ++ (turn front.length job).1 :: rest := by simp [jobs]
          rw [store, stored] at taken
          cases failed : (turn front.length job).2 with
          | some failure =>
              rw [visit_cons_failed failed]
              refine ⟨pass, ?_, fun returned => by cases returned⟩
              rw [← failed]
              exact .head taken (.refl _)
          | none =>
              rw [failed] at taken
              rw [visit_cons_returned failed]
              obtain ⟨final, reached, ended⟩ := ih (front ++ [(turn front.length job).1])
                { pool with
                  jobs := front ++ (turn front.length job).1 :: rest
                  raised := none
                  pass }
                (by simp) rfl reading (by simpa using after)
              refine ⟨final, .head taken ?_, ?_⟩
              · simpa using reached
              · simpa using ended

theorem reap_steps (iter : α → List α) (front back : List Worker) (pool : Pool α)
    {cleaned : List Worker}
    (workers : pool.workers = front ++ back) (calm : pool.raised = none)
    (pass : pool.pass = .reaping front.length cleaned) :
    Reachable (proceed iter) pool { pool with
      workers := front.filter (·.exitcode.isNone) ++ back
      pass := .reaping 0 (front.filter (·.exitcode.isSome) ++ cleaned) } := by
  induction front using List.reverseRecOn generalizing pool back cleaned with
  | nil =>
      have same : { pool with workers := [] ++ back, pass := .reaping 0 ([] ++ cleaned) } =
          pool := by
        rw [← workers]
        exact congrArg (fun pass => { pool with pass }) pass.symm
      rw [List.filter_nil, List.filter_nil, same]
      exact .refl pool
  | append_singleton front worker ih =>
      have last : (front ++ [worker]).length = front.length + 1 := by simp
      have found : pool.workers[front.length]? = some worker := by simp [workers]
      rw [last] at pass
      cases exited : worker.exitcode.isSome with
      | true =>
          have gone : worker.exitcode.isNone = false := by
            rw [← Option.not_isSome, exited]
            rfl
          have erased : pool.workers.eraseIdx front.length = front ++ back := by
            simp [workers, List.eraseIdx_append_of_length_le]
          have taken : pool.proceed iter () = some { pool with
              workers := front ++ back
              pass := .reaping front.length (worker :: cleaned) } := by
            simp [proceed, step, advance, calm, pass, found, exited, erased]
          have rest := ih back { pool with
            workers := front ++ back
            pass := .reaping front.length (worker :: cleaned) } rfl calm rfl
          refine .head taken ?_
          simpa [exited, gone] using rest
      | false =>
          have stays : worker.exitcode.isNone = true := by
            rw [← Option.not_isSome, exited]
            rfl
          have taken : pool.proceed iter () = some { pool with
              pass := .reaping front.length cleaned } := by
            simp [proceed, step, advance, calm, pass, found, exited]
          have rest := ih (worker :: back) { pool with
            pass := .reaping front.length cleaned } (by simp [workers]) calm rfl
          refine .head taken ?_
          simpa [exited, stays] using rest

theorem store_same {pool : Pool α} {number : Nat} {job : Job α} (calm : pool.raised = none)
    (found : pool.jobs[number]? = some job) : pool.store number (job, none) = pool := by
  unfold store
  rw [Tally.set_self found, ← calm]

theorem mark_steps (iter : α → List α) (shutdown : Bool) (pool : Pool α) (calm : pool.raised = none)
    (pass : pool.pass = .marking shutdown none
      (pool.cache fun job => !job.ready && job.workerLost.isSome)) :
    ∃ pass, Reachable (proceed iter) pool { pool with
        jobs := (visit (Job.markIfLate iter pool.clock) 0 pool.jobs).1
        raised := (visit (Job.markIfLate iter pool.clock) 0 pool.jobs).2
        pass } ∧
      ((visit (Job.markIfLate iter pool.clock) 0 pool.jobs).2 = none →
        ∃ now, pass = .marking shutdown now []) := by
  let Left (numbers : List Nat) (pass : Pass) : Prop :=
    ∃ now, pass = .marking shutdown now numbers ∧ now.getD pool.clock = pool.clock
  have passed (number : Nat) (job : Job α)
      (kept : (job.cached && (!job.ready && job.workerLost.isSome)) = false) :
      job.markIfLate iter pool.clock number = (job, none) := by
    cases cached : job.cached with
    | false => exact Job.markIfLate_of_not_cached cached
    | true =>
        apply Job.markIfLate_of_not_late
        rw [cached, Bool.true_and] at kept
        cases lost : job.workerLost with
        | none => simp [Job.late, lost]
        | some loss => simp_all [Job.late]
  have proceeds (state : Pool α) (number : Nat) (numbers : List Nat) (job : Job α)
      (calm : state.raised = none) (reading : state.clock = pool.clock)
      (left : Left (number :: numbers) state.pass) (found : state.jobs[number]? = some job)
      (selected : (job.cached && (!job.ready && job.workerLost.isSome)) = true) :
      ∃ pass, Left numbers pass ∧ state.proceed iter () =
        some ({ state with pass }.store number (job.markIfLate iter pool.clock number)) := by
    obtain ⟨now, here, first⟩ := left
    simp only [Bool.and_eq_true, Bool.not_eq_true'] at selected
    obtain ⟨cached, waiting, lost⟩ := selected
    obtain ⟨⟨lostTime, lostRet⟩, lost⟩ := Option.isSome_iff_exists.mp lost
    refine ⟨.marking shutdown (some pool.clock) numbers, ⟨_, rfl, rfl⟩, ?_⟩
    by_cases late : lostTime + job.lostWorkerTimeout < pool.clock
    · have marked : job.markIfLate iter pool.clock number =
          job.set iter .none (.failure (.workerLost lostRet number)) := by
        simp [Job.markIfLate, Job.late, lost, cached, waiting, late]
      simp [proceed, step, advance, calm, here, found, lost, reading, first, late, marked,
        markAsWorkerLost]
    · have kept : job.markIfLate iter pool.clock number = (job, none) := by
        simp [Job.markIfLate, Job.late, lost, late]
      rw [kept, store_same (by exact calm) (by exact found)]
      simp [proceed, step, advance, calm, here, found, lost, reading, first, late]
  have left : Left (todo _ 0 pool.jobs) pool.pass :=
    ⟨none, by rw [pass, cache_eq_todo], rfl⟩
  obtain ⟨final, reached, ended⟩ := visit_steps passed proceeds [] pool.jobs pool rfl calm rfl left
  refine ⟨final, reached, fun returned => ?_⟩
  obtain ⟨now, left, _⟩ := ended returned
  exact ⟨now, left⟩

theorem scan_steps (iter : α → List α) (pool : Pool α) {cleaned : List Worker} {allPids : List Nat}
    (distinct : (cleaned.map Worker.pid).Nodup) (calm : pool.raised = none)
    (pass : pool.pass = .scanning cleaned allPids (pool.cache fun _ => true)) :
    let scan := Job.scanIfCached iter (fun _ => pool.clock) cleaned.reverse allPids
    ∃ pass, Reachable (proceed iter) pool { pool with
        jobs := (visit scan 0 pool.jobs).1
        raised := (visit scan 0 pool.jobs).2
        pass } ∧
      ((visit scan 0 pool.jobs).2 = none → pass = .scanning cleaned allPids []) := by
  intro scan
  have passed (number : Nat) (job : Job α) (gone : (job.cached && true) = false) :
      scan number job = (job, none) := by
    rw [Bool.and_true] at gone
    exact if_neg (ne_true_of_eq_false gone)
  have proceeds (state : Pool α) (number : Nat) (numbers : List Nat) (job : Job α)
      (calm : state.raised = none) (reading : state.clock = pool.clock)
      (left : state.pass = .scanning cleaned allPids (number :: numbers))
      (found : state.jobs[number]? = some job) (cached : (job.cached && true) = true) :
      ∃ pass, pass = .scanning cleaned allPids numbers ∧ state.proceed iter () =
        some ({ state with pass }.store number (scan number job)) := by
    have turn : scan number job = scanJob iter pool.clock cleaned allPids job := by
      rw [Bool.and_true] at cached
      exact (if_pos cached).trans (scanJob_reverse distinct pool.clock allPids job)
    refine ⟨_, rfl, ?_⟩
    simp [proceed, step, advance, calm, left, found, turn, reading]
  let Left (numbers : List Nat) (pass : Pass) : Prop := pass = .scanning cleaned allPids numbers
  have left : Left (todo (fun job => job.cached && true) 0 pool.jobs) pool.pass := by
    rw [← cache_eq_todo]
    exact pass
  exact visit_steps passed proceeds [] pool.jobs pool rfl calm rfl left

theorem reap_all (pool : Pool α) {shutdown : Bool} {now : Option Nat}
    (calm : pool.raised = none) (pass : pool.pass = .marking shutdown now [])
    (more : (shutdown && pool.workers.isEmpty) = false) :
    Reachable (proceed iter) pool { pool with
      workers := pool.workers.filter (·.exitcode.isNone)
      pass := .reaping 0 (pool.workers.filter (·.exitcode.isSome)) } := by
  have taken : pool.proceed iter () = some { pool with
      pass := .reaping pool.workers.length [] } := by
    simp [proceed, step, advance, calm, pass, more]
  have rest := reap_steps iter pool.workers []
    { pool with pass := .reaping pool.workers.length [] } (by simp) calm rfl
  rw [List.append_nil, List.append_nil] at rest
  exact .head taken rest

theorem survey_all (iter : α → List α) (pool : Pool α) {cleaned : List Worker}
    (some_gone : cleaned.isEmpty = false)
    (distinct : (cleaned.map Worker.pid).Nodup) (calm : pool.raised = none)
    (pass : pool.pass = .reaping 0 cleaned) :
    let scan := Job.scanIfCached iter (fun _ => pool.clock) cleaned.reverse pool.pids
    ∃ pass, Reachable (proceed iter) pool { pool with
        jobs := (visit scan 0 pool.jobs).1
        raised := (visit scan 0 pool.jobs).2
        pass } ∧
      ((visit scan 0 pool.jobs).2 = none → pass = .idle) := by
  intro scan
  let scanning : Pool α := { pool with
    pass := .scanning cleaned pool.pids (pool.cache fun _ => true) }
  have taken : pool.proceed iter () = some scanning := by
    simp [proceed, step, advance, calm, pass, some_gone, scanning]
  obtain ⟨last, scanned, ended⟩ := scan_steps iter scanning distinct calm rfl
  have reached := Reachable.head taken scanned
  cases failed : (visit scan 0 pool.jobs).2 with
  | some exc => exact ⟨last, failed ▸ reached, fun returned => by cases returned⟩
  | none =>
      cases ended failed
      have finished : proceed iter { scanning with
            jobs := (visit scan 0 pool.jobs).1
            raised := none
            pass := .scanning cleaned pool.pids [] } () =
          some { pool with
            jobs := (visit scan 0 pool.jobs).1
            raised := none
            pass := .idle } := by
        simp [proceed, step, advance, scanning]
      refine ⟨.idle, Reachable.tail ?_ finished, fun _ => rfl⟩
      rw [← failed]
      exact reached

/-- The pool as a whole pass leaves it. -/
def joinedBy (pool : Pool α) (whole : Joining α) (pass : Pass) : Pool α :=
  { pool with
    jobs := whole.jobs
    workers := whole.staff.workers
    raised := whole.ended.exc?
    pass }

/-- Once the late jobs are marked, a crew loses its dead and the pass looks at every job. -/
theorem joinExitedWorkers_of_marked {before jobs : List (Job α)} {now : Nat}
    {clock : Nat → Nat} {shutdown : Bool} (crew : Crew)
    (visited : visit (Job.markIfLate iter now) 0 before = (jobs, none))
    (more : (shutdown && crew.workers.isEmpty) = false) :
    ∃ rest : Crew, rest.workers = crew.survivors ∧
      joinExitedWorkers iter none now clock shutdown before crew.toStaff =
        if crew.cleaned.isEmpty then ⟨jobs, rest.toStaff, .joined []⟩
        else
          let scanned := visit (Job.scanIfCached iter clock crew.cleaned rest.pids) 0 jobs
          ⟨scanned.1, rest.toStaff, scanned.2.elim
            (.joined (crew.cleaned.filterMap Worker.exitcode)) .raised⟩ := by
  obtain ⟨rest, forgotten, survivors⟩ := crew.forget_spec
  have silent : crew.cleaned.findSome? (processDown none) = none :=
    List.findSome?_eq_none_iff.mpr fun _ _ => rfl
  refine ⟨rest, survivors, ?_⟩
  simp only [joinExitedWorkers, visited, more, forgotten, silent, Bool.false_eq_true, if_false]
  split
  · rfl
  · cases visit (Job.scanIfCached iter clock crew.cleaned rest.pids) 0 jobs with
    | mk after failed => cases failed <;> rfl

/-- Nothing else happens to the pool between the steps, and the clock stands still. -/
theorem join_undivided (pool : Pool α) (calm : pool.raised = none) (idle : pool.pass = .idle)
    (crew : Crew) (staffed : crew.workers = pool.workers) (shutdown : Bool) :
    let whole := joinExitedWorkers iter none pool.clock (fun _ => pool.clock) shutdown pool.jobs
      crew.toStaff
    ∃ started pass, pool.step iter (.join shutdown) = some started ∧
      Reachable (proceed iter) started (pool.joinedBy whole pass) ∧
      (whole.ended.exc? = none → pass = .idle) := by
  intro whole
  let started : Pool α := { pool with
    pass := .marking shutdown none (pool.cache fun job => !job.ready && job.workerLost.isSome) }
  have begun : pool.step iter (.join shutdown) = some started := by
    simp [step, calm, idle, started]
  obtain ⟨pass, marked, ended⟩ := mark_steps iter shutdown started calm rfl
  have marks : visit (Job.markIfLate iter started.clock) 0 started.jobs =
      visit (Job.markIfLate iter pool.clock) 0 pool.jobs := rfl
  rw [marks] at marked ended
  cases visited : visit (Job.markIfLate iter pool.clock) 0 pool.jobs with
  | mk jobs failed =>
      rw [visited] at marked ended
      cases failed with
      | some exc =>
          have raised : whole = ⟨jobs, crew.toStaff, .raised exc⟩ := by
            simp only [whole, joinExitedWorkers, visited]
          rw [raised]
          refine ⟨started, pass, begun, ?_, fun returned => by cases returned⟩
          rw [joinedBy, staffed]
          exact marked
      | none =>
          obtain ⟨now, rfl⟩ := ended rfl
          cases last : shutdown && pool.workers.isEmpty with
          | true =>
              have joined : whole = ⟨jobs, crew.toStaff, .workersJoined⟩ := by
                simp only [whole, joinExitedWorkers, visited, staffed, last, if_true]
              have taken : proceed iter { started with
                    jobs
                    pass := .marking shutdown now []
                    raised := none } () =
                  some (pool.joinedBy ⟨jobs, crew.toStaff, .workersJoined⟩ .idle) := by
                simp [proceed, step, advance, joinedBy, staffed, started, last, JoinEnd.exc?]
              exact ⟨started, .idle, begun, joined ▸ marked.tail taken, fun _ => rfl⟩
          | false =>
              obtain ⟨rest, survivors, left⟩ :=
                joinExitedWorkers_of_marked crew visited (staffed ▸ last)
              have stayed : rest.workers = pool.workers.filter (·.exitcode.isNone) := by
                rw [survivors, Staff.survivors, staffed]
              have removed : crew.cleaned = (pool.workers.filter (·.exitcode.isSome)).reverse := by
                rw [Staff.cleaned, staffed]
              let reaping : Pool α := { started with
                jobs
                workers := pool.workers.filter (·.exitcode.isNone)
                pass := .reaping 0 (pool.workers.filter (·.exitcode.isSome))
                raised := none }
              have reaped : Reachable (proceed iter) started reaping :=
                marked.trans (reap_all _ rfl rfl last)
              have emptiness : crew.cleaned.isEmpty =
                  (pool.workers.filter (·.exitcode.isSome)).isEmpty := by
                rw [removed, List.isEmpty_reverse]
              cases nobody : (pool.workers.filter (·.exitcode.isSome)).isEmpty with
              | true =>
                  have joined : whole = ⟨jobs, rest.toStaff, .joined []⟩ :=
                    left.trans (if_pos (emptiness.trans nobody))
                  have taken : proceed iter reaping () =
                      some (pool.joinedBy ⟨jobs, rest.toStaff, .joined []⟩ .idle) := by
                    simp only [proceed, step, advance, joinedBy, stayed, started, reaping, nobody,
                      JoinEnd.exc?, Option.isSome_none, Bool.false_eq_true, if_false, if_true]
                  exact ⟨started, .idle, begun, joined ▸ reaped.tail taken, fun _ => rfl⟩
              | false =>
                  have distinct :
                      ((pool.workers.filter (·.exitcode.isSome)).map Worker.pid).Nodup := by
                    rw [← staffed]
                    exact crew.distinct.sublist (List.filter_sublist.map _)
                  obtain ⟨pass, scanned, done⟩ := survey_all iter reaping nobody distinct rfl rfl
                  have scans : Job.scanIfCached iter (fun _ => reaping.clock)
                        (pool.workers.filter (·.exitcode.isSome)).reverse reaping.pids =
                      Job.scanIfCached iter (fun _ => pool.clock) crew.cleaned rest.pids := by
                    rw [removed, Staff.pids, stayed]
                    rfl
                  rw [scans] at scanned done
                  have some_gone : ¬crew.cleaned.isEmpty = true := by
                    rw [emptiness, nobody]
                    exact Bool.false_ne_true
                  have joined := left.trans (if_neg some_gone)
                  rw [show whole = _ from joined]
                  refine ⟨started, pass, begun, ?_,
                    fun returned => done ((JoinEnd.exc?_elim _ _).symm.trans returned)⟩
                  simp only [joinedBy, stayed, JoinEnd.exc?_elim]
                  exact reaped.trans scanned

end Pool

end Billiard
