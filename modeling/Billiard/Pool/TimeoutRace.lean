import Billiard.Pool.TimeoutRun

/-! Actions of the timeout handler on jobs that are resolved while a pass is under way. -/

namespace Billiard

open History Transition

def PoolEvent.starts : PoolEvent → Bool
  | .took .soft .. | .took .hard .. => true
  | _ => false

/-- The jobs of the copy on which the pass may still start an action. -/
def PassPoint.ahead : PassPoint → List Nat
  | .yielded | .ended => []
  | .looping rest | .signalling _ _ rest | .terminating _ _ rest => rest
  | .examining exam rest | .early exam _ rest | .hardDue exam _ rest | .softDue exam _ rest =>
      exam.number :: rest

namespace TimeoutRun

/-- `on_soft_timeout` is not called for a resolved job whose worker is still in the pool. -/
def Fresh (state : TimeoutRun α) : TimeoutStep α → Prop
  | .soft =>
      match state.point with
      | .softDue exam _ _ => ∀ job ∈ state.jobs[exam.number]?,
          (state.processByPid job.workerPid).isSome = true → job.ready = false
      | _ => True
  | _ => True

/-- No job in the cache is resolved when the copy of it is made, and none of the copy is resolved by
another thread before the pass has done with it. -/
def Undisturbed (state : TimeoutRun α) : TimeoutStep α → Prop
  | .pass => ∀ job ∈ state.jobs, job.cached = true → job.ready = false
  | .resolve number _ => number ∉ state.point.ahead
  | _ => True

instance (state : TimeoutRun α) (label : TimeoutStep α) : Decidable (state.Fresh label) := by
  unfold Fresh
  split
  · split <;> infer_instance
  · infer_instance

variable {tSoft tHard : Option Nat} {state next : TimeoutRun α} {exam : Examination}
  {readAt : Nat} {rest : List Nat} {job : ApplyResult α} {events : List PoolEvent}

theorem ready_iff_resolved (recorded : state.Recorded)
    (found : state.jobs[exam.number]? = some job) :
    .resolved exam.number ∈ state.log ↔ job.ready = true := by
  rw [recorded.resolved, found]
  simp

/-- The jobs ahead of the pass are not resolved. -/
structure Ahead (state : TimeoutRun α) : Prop where
  distinct : state.point.ahead.Nodup
  unresolved : ∀ number ∈ state.point.ahead, .resolved number ∉ state.log

theorem Ahead.frame (ahead : state.Ahead) (less : next.point.ahead.Sublist state.point.ahead)
    (logged : next.log = state.log ++ events)
    (quiet : ∀ number ∈ next.point.ahead, .resolved number ∉ events) : next.Ahead := by
  refine ⟨ahead.distinct.sublist less, fun number listed => ?_⟩
  rw [logged, List.mem_append]
  exact not_or.mpr ⟨ahead.unresolved number (less.subset listed), quiet number listed⟩

theorem Ahead.same (ahead : state.Ahead) (less : next.point.ahead.Sublist state.point.ahead)
    (logged : next.log = state.log) : next.Ahead :=
  ahead.frame less (logged.trans (List.append_nil _).symm) fun _ _ => List.not_mem_nil

/-- What comes of a job whose turn it is leaves those behind it ahead, or none. -/
theorem sublist_ahead (here : state.point.ahead = exam.number :: rest) {point : PassPoint}
    (onward : point.ahead = rest ∨ point.ahead = []) :
    point.ahead.Sublist state.point.ahead := by
  rw [here]
  obtain same | same := onward
  · exact same ▸ List.sublist_cons_self ..
  · exact same ▸ List.nil_sublist _

theorem Ahead.onHardTimeout (ahead : state.Ahead)
    (here : state.point.ahead = exam.number :: rest) :
    (state.onHardTimeout exam readAt rest job).Ahead := by
  have distinct := ahead.distinct
  rw [here] at distinct
  unfold TimeoutRun.onHardTimeout
  split
  · exact ahead.frame (sublist_ahead here (.inl rfl)) rfl (by simp)
  · rcases job.set (.failure (.timeLimitExceeded job.timeout)) with ⟨after, raised⟩
    refine ahead.frame (sublist_ahead here ?_) (List.append_assoc ..) fun number listed told => ?_
    · cases raised with
      | none => exact .inl rfl
      | some exc => exact .inr rfl
    · obtain rfl : number = exam.number := by simpa using told
      cases raised with
      | none => exact (List.nodup_cons.mp distinct).1 listed
      | some exc => cases listed

theorem Ahead.terminate (ahead : state.Ahead) (here : state.point.ahead = rest) (exits : Bool) :
    (state.terminate exam readAt rest exits job).Ahead := by
  unfold TimeoutRun.terminate
  simp only
  split
  · exact ahead.same (List.nil_sublist _) rfl
  · split
    · exact ahead.same (here ▸ List.Sublist.refl _) rfl
    · split
      · exact ahead.frame (here ▸ List.Sublist.refl _) rfl (by simp)
      · exact ahead.frame (here ▸ List.Sublist.refl _) (List.append_assoc ..) (by simp)

theorem Ahead.onSoftTimeout (ahead : state.Ahead)
    (here : state.point.ahead = exam.number :: rest) :
    (state.onSoftTimeout exam readAt rest job).Ahead := by
  unfold TimeoutRun.onSoftTimeout
  split
  · exact ahead.frame (sublist_ahead here (.inl rfl)) rfl (by simp)
  · rcases job.handleTimeout true with ⟨after, raised⟩
    refine ahead.frame (sublist_ahead here ?_) rfl (by simp)
    cases raised with
    | none => exact .inl rfl
    | some exc => exact .inr rfl

theorem Ahead.signal (ahead : state.Ahead) (here : state.point.ahead = rest)
    (outcome : KillOutcome) : (state.signal exam readAt rest outcome job).Ahead := by
  unfold TimeoutRun.signal
  split
  · exact ahead.same (List.nil_sublist _) rfl
  · exact ahead.same (List.nil_sublist _) rfl
  · exact ahead.frame (here ▸ List.Sublist.refl _) rfl (by simp)
  · exact ahead.same (here ▸ List.Sublist.refl _) rfl

theorem Ahead.step (ahead : state.Ahead) (recorded : state.Recorded) {label : TimeoutStep α}
    (undisturbed : state.Undisturbed label)
    (taken : step tSoft tHard state label = some next) : next.Ahead := by
  cases label with
  | tick | setProcesses | close =>
      cases taken
      exact ahead.same (List.Sublist.refl _) rfl
  | submit options =>
      cases taken
      exact ahead.frame (List.Sublist.refl _) rfl (by simp)
  | ack number timeAccepted pid synqWFd =>
      simp only [TimeoutRun.step, Option.ite_none_right_eq_some, Option.map_eq_some_iff] at taken
      obtain ⟨_, job, _, rfl⟩ := taken
      refine ahead.frame (List.Sublist.refl _) rfl fun _ _ => ?_
      split <;> simp
  | resolve number outcome =>
      obtain ⟨job, _, rfl⟩ := Option.map_eq_some_iff.mp taken
      refine ahead.frame (List.Sublist.refl _) rfl fun other listed told => ?_
      cases List.mem_singleton.mp told
      exact undisturbed listed
  | pop number =>
      obtain ⟨job, _, rfl⟩ := Option.map_eq_some_iff.mp taken
      exact ahead.same (List.Sublist.refl _) rfl
  | pass =>
      simp only [TimeoutRun.step] at taken
      split at taken
      · split at taken
        · cases taken
          refine ⟨List.nodup_range.sublist List.filter_sublist, fun number listed told => ?_⟩
          obtain ⟨job, found, ready⟩ := (recorded.resolved number).mp told
          have cached := (List.mem_filter.mp listed).2
          simp only [inCache, found, Option.any_some] at cached
          cases ready.symm.trans (undisturbed job (List.mem_of_getElem? found) cached)
        · cases taken
          exact ahead.same (List.nil_sublist _) rfl
      · cases taken
  | take =>
      simp only [TimeoutRun.step] at taken
      split at taken
      · cases taken
        exact ahead.same (List.nil_sublist _) rfl
      · rename_i number rest here
        obtain ⟨job, _, rfl⟩ := Option.map_eq_some_iff.mp taken
        exact ahead.same (here ▸ List.Sublist.refl _) rfl
      · cases taken
  | testHard =>
      simp only [TimeoutRun.step] at taken
      split at taken
      · rename_i exam rest here
        cases taken
        refine ahead.same ?_ rfl
        rw [here]
        split <;> exact List.Sublist.refl _
      · cases taken
  | testSoft =>
      simp only [TimeoutRun.step] at taken
      split at taken
      · rename_i exam readAt rest here
        split at taken
        · cases taken
          exact ahead.same (here ▸ List.Sublist.refl _) rfl
        · cases taken
          exact ahead.frame (here ▸ List.sublist_cons_self ..) rfl (by simp)
      · cases taken
  | hard =>
      simp only [TimeoutRun.step] at taken
      split at taken
      · rename_i exam readAt rest here
        obtain ⟨job, _, rfl⟩ := Option.map_eq_some_iff.mp taken
        exact ahead.onHardTimeout (here ▸ rfl)
      · cases taken
  | terminate exits =>
      simp only [TimeoutRun.step] at taken
      split at taken
      · rename_i exam readAt rest here
        obtain ⟨job, _, rfl⟩ := Option.map_eq_some_iff.mp taken
        exact ahead.terminate (here ▸ rfl) exits
      · cases taken
  | soft =>
      simp only [TimeoutRun.step] at taken
      split at taken
      · rename_i exam readAt rest here
        obtain ⟨job, _, rfl⟩ := Option.map_eq_some_iff.mp taken
        exact ahead.onSoftTimeout (here ▸ rfl)
      · cases taken
  | signal outcome =>
      simp only [TimeoutRun.step] at taken
      split at taken
      · rename_i exam readAt rest here
        obtain ⟨job, _, rfl⟩ := Option.map_eq_some_iff.mp taken
        exact ahead.signal (here ▸ rfl) outcome
      · cases taken

theorem Ahead.fresh (ahead : state.Ahead) (recorded : state.Recorded) (label : TimeoutStep α) :
    state.Fresh label := by
  unfold Fresh
  split
  · split
    · rename_i exam readAt rest here
      intro job found _
      have open_ := ahead.unresolved exam.number (here ▸ List.mem_cons_self ..)
      exact Bool.eq_false_iff.mpr (mt (ready_iff_resolved recorded found).mpr open_)
    · trivial
  · trivial

/-- Where no other thread resolves a job that a pass has ahead, `on_soft_timeout` meets none that is
resolved. -/
theorem fresh_of_undisturbed {tSoft tHard : Option Nat} {labels : List (TimeoutStep α)}
    (along : Along (step tSoft tHard) Undisturbed init labels) :
    Along (step tSoft tHard) Fresh init labels := by
  have kept : Preserves (TimeoutRun.step tSoft tHard) Undisturbed fun state : TimeoutRun α =>
      state.Watched tSoft tHard ∧ state.Ahead :=
    fun _ label _ ⟨watched, ahead⟩ undisturbed taken =>
      ⟨watched.step label taken, ahead.step watched.recorded undisturbed taken⟩
  refine along_of_invariant kept ?_
    ⟨init_watched, ⟨List.nodup_nil, fun _ listed => absurd listed List.not_mem_nil⟩⟩ along
  exact fun state label ⟨watched, ahead⟩ _ => ahead.fresh watched.recorded label

end TimeoutRun

end Billiard
