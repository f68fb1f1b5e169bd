import Billiard.Pool.Terminate

/-! Which workers the loop of `_terminate_pool` passes by: the result handler takes others out of
the list while the loop goes through it. -/

namespace Billiard

open Transition Tally

variable {processes : Nat} {pool next last : EndingPool} {action : EndingAction}
  {point : Reaping} {i worker : Nat} {labels : List EndingAction}

/-- The caller is done with terminating workers, if it has done so. -/
def EndingPoint.after : EndingPoint → Bool
  | .stoppingTaskHandler | .stoppingResultHandler | .joining _ | .ended => true
  | _ => false

theorem EndingPoint.past_of_after {caller : EndingPoint} (after : caller.after = true) :
    caller.past = true := by
  cases caller with
  | outside => cases after
  | closing => cases after
  | stoppingSupervisor terminating => cases after
  | _ => rfl

/-- The worker that the caller is about to terminate -/
def EndingPoint.current : EndingPoint → Option Nat
  | .terminating _ worker => some worker
  | _ => none

namespace EndingPool

/-- The worker is alive and `terminate` goes by it. -/
def missed (pool : EndingPool) (worker : Nat) : Nat :=
  match pool.workers[worker]? with
  | some ⟨.alive, _, false⟩ => if pool.caller.current = some worker then 0 else 1
  | _ => 0

/-- What the loop that terminates the workers is done with -/
def behind (pool : EndingPool) : List Nat :=
  match pool.caller with
  | .signalling k | .terminating k _ => pool.pool.take k
  | _ => if pool.told then pool.pool else []

structure Heard (pool : EndingPool) : Prop where
  after : pool.told = true → pool.caller.after = true
  missed : tally pool.missed pool.behind ≤ pool.reaped

theorem missed_le (pool : EndingPool) (worker : Nat) : pool.missed worker ≤ 1 := by
  unfold missed
  split
  · split <;> omega
  · exact Nat.zero_le _

theorem missed_pos {worker : Nat} : 0 < pool.missed worker ↔
    ∃ found, pool.workers[worker]? = some found ∧ found.life = .alive ∧ found.signalled = false ∧
      pool.caller.current ≠ some worker := by
  unfold missed
  split
  · rename_i recorded here
    rw [here]
    split <;> simp [*]
  · rename_i other
    constructor
    · nofun
    · rintro ⟨⟨life, recorded, signalled⟩, here, rfl, rfl, _⟩
      exact absurd here (other recorded)

theorem missed_le_missed {worker : Nat} (kept : 0 < next.missed worker → 0 < pool.missed worker) :
    next.missed worker ≤ pool.missed worker := by
  have most := next.missed_le worker
  omega

theorem missed_update_le {change : EndingWorker → EndingWorker}
    (kept : ∀ old, (change old).life = .alive → (change old).signalled = false →
      old.life = .alive ∧ old.signalled = false) (j : Nat) :
    (pool.update worker change).missed j ≤ pool.missed j := by
  refine missed_le_missed fun missed => ?_
  obtain ⟨new, here, alive, silent, other⟩ := missed_pos.mp missed
  obtain ⟨rfl, old, found, rfl⟩ | ⟨_, found⟩ := Roll.modify_cases here
  · obtain ⟨alive, silent⟩ := kept old alive silent
    exact missed_pos.mpr ⟨old, found, alive, silent, other⟩
  · exact missed_pos.mpr ⟨new, found, alive, silent, other⟩

theorem behind_eq_nil (before : pool.caller.past = false) (told : pool.told = false) :
    pool.behind = [] := by
  unfold behind
  split
  · rename_i standing
    rw [standing] at before
    cases before
  · rename_i standing
    rw [standing] at before
    cases before
  · rw [told]
    rfl

theorem Heard.untold (heard : pool.Heard) (before : pool.caller.past = false) :
    pool.told = false :=
  Bool.eq_false_iff.mpr fun told =>
    absurd (before.symm.trans (EndingPoint.past_of_after (heard.after told))) nofun

theorem heard_of_untold (before : next.caller.past = false) (told : next.told = false) :
    next.Heard := by
  refine ⟨fun known => absurd (told.symm.trans known) Bool.false_ne_true, ?_⟩
  rw [behind_eq_nil before told]
  exact Nat.zero_le _

/-- Nobody has begun to terminate workers while the supervisor is at work. -/
theorem Heard.supervise (heard : pool.Heard) (sound : pool.Sound)
    (taken : pool.supervise processes pool.supervisor = some next) : next.Heard := by
  have busy : pool.supervisor ≠ .finished := by
    intro finished
    rw [finished] at taken
    cases taken
  have before : pool.caller.past = false :=
    Bool.eq_false_iff.mpr fun past => busy (sound.past past)
  have frame : next.caller = pool.caller ∧ next.told = pool.told := by
    cases standing : pool.supervisor with
    | resting =>
        simp only [standing, EndingPool.supervise] at taken
        split at taken <;> cases taken <;> exact ⟨rfl, rfl⟩
    | reaping point =>
        rw [standing] at taken
        have idle : pool.supervisor.creation = none := by rw [standing]; rfl
        cases taken
        obtain same | ⟨point, _, same⟩ | ⟨i, worker, _, same⟩ :=
          reap_cases (superviseOn processes) (sound.placed point (.inl standing))
            (idle ▸ sound.roll) <;> rw [same] <;> exact ⟨rfl, rfl⟩
    | repopulating left =>
        rw [standing] at taken
        cases left with
        | zero =>
            cases taken
            exact ⟨rfl, rfl⟩
        | succ left =>
            simp only [EndingPool.supervise] at taken
            split at taken <;> cases taken <;> exact ⟨rfl, rfl⟩
    | starting worker left =>
        rw [standing] at taken
        cases taken
        exact ⟨rfl, rfl⟩
    | recording worker left =>
        rw [standing] at taken
        cases taken
        exact ⟨rfl, rfl⟩
    | finished => exact absurd standing busy
  exact heard_of_untold (frame.1 ▸ before) (frame.2 ▸ heard.untold before)

theorem exists_behind (pool : EndingPool) :
    (pool.inLoop = true ∧ ∃ k, pool.behind = pool.pool.take k ∧
      ∀ i worker, (pool.remove i worker).behind = (pool.pool.eraseIdx i).take k) ∨
    (pool.inLoop = false ∧ pool.behind = (if pool.told then pool.pool else []) ∧
      ∀ i worker, (pool.remove i worker).behind =
        if pool.told then pool.pool.eraseIdx i else []) := by
  simp only [inLoop, behind]
  cases calling : pool.caller with
  | signalling k => exact .inl ⟨rfl, k, rfl, fun _ _ => by simp only [remove, update, calling]⟩
  | terminating k worker =>
      exact .inl ⟨rfl, k, rfl, fun _ _ => by simp only [remove, update, calling]⟩
  | _ => exact .inr ⟨rfl, rfl, fun _ _ => by simp only [remove, update, calling]⟩

theorem Heard.remove (heard : pool.Heard) (i worker : Nat) : (pool.remove i worker).Heard := by
  refine ⟨heard.after, ?_⟩
  have lighter : ∀ items, tally (pool.remove i worker).missed items ≤
      tally pool.missed items := fun items => tally_le_tally fun id _ =>
    @missed_update_le pool worker (fun old => { old with recorded := false })
      (fun _ alive silent => ⟨alive, silent⟩) id
  have known := heard.missed
  have counted : (pool.remove i worker).reaped = pool.reaped + if pool.inLoop then 1 else 0 := rfl
  obtain ⟨looping, k, behind, after⟩ | ⟨outside, behind, after⟩ := pool.exists_behind
  · rw [looping, if_pos rfl] at counted
    rw [behind] at known
    rw [after, counted]
    have shift := @tally_take_eraseIdx_le _ pool.missed pool.pool pool.missed_le i k
    have light := lighter ((pool.pool.eraseIdx i).take k)
    omega
  · rw [outside] at counted
    rw [behind] at known
    rw [after, counted]
    cases told : pool.told with
    | false => exact Nat.zero_le _
    | true =>
        rw [told] at known
        exact Nat.le_trans (lighter _) (Nat.le_trans (tally_eraseIdx_le i) known)

theorem Heard.collect (heard : pool.Heard) (sound : pool.Sound) {leave : Bool}
    (taken : pool.collect leave pool.collector = some next) : next.Heard := by
  have same : ∀ {pool : EndingPool} collector, pool.Heard → { pool with collector }.Heard :=
    fun _ heard => ⟨heard.after, heard.missed⟩
  cases standing : pool.collector with
  | collecting =>
      rw [standing] at taken
      cases taken
      exact same _ heard
  | finishing =>
      rw [standing] at taken
      simp only [EndingPool.collect] at taken
      split at taken
      · cases taken
        exact same _ heard
      · split at taken <;> cases taken
        · exact heard
        · exact same _ heard
  | reaping point =>
      rw [standing] at taken
      have idle := creation_eq_none (sound.apart (by rw [standing]; rfl))
      cases taken
      obtain stays | ⟨point, _, stays⟩ | ⟨i, worker, _, removed⟩ :=
        reap_cases collectOn (sound.placed point (.inr standing)) (idle ▸ sound.roll)
      · rw [stays]
        exact same _ heard
      · rw [stays]
        exact same _ heard
      · rw [removed]
        exact same _ (heard.remove i worker)
  | finished =>
      rw [standing] at taken
      cases taken

theorem missed_called {caller : EndingPoint} {told : Bool} {id : Nat}
    (missed : 0 < { pool with caller, told }.missed id) (other : pool.caller.current ≠ some id) :
    0 < pool.missed id := by
  obtain ⟨found, here, alive, silent, _⟩ := missed_pos.mp missed
  exact missed_pos.mpr ⟨found, here, alive, silent, other⟩

/-- The caller goes on when it is not about to terminate a worker. -/
theorem Heard.called (heard : pool.Heard) (caller : EndingPoint) (told : Bool)
    (free : pool.caller.current = none) (after : told = true → caller.after = true)
    (behind : { pool with caller, told }.behind = pool.behind) :
    { pool with caller, told }.Heard := by
  refine ⟨after, ?_⟩
  rw [behind]
  refine Nat.le_trans (tally_le_tally fun id _ => missed_le_missed fun missed => ?_) heard.missed
  exact missed_called missed (by rw [free]; nofun)

/-- The next worker in `_pool` is not passed by. -/
theorem Heard.fetched (heard : pool.Heard) {k : Nat} (standing : pool.caller = .signalling k)
    (here : pool.pool[k]? = some worker) :
    { pool with caller := .terminating (k + 1) worker }.Heard := by
  refine ⟨fun told => ?_, ?_⟩
  · have impossible := heard.after told
    rw [standing] at impossible
    cases impossible
  have passed : pool.behind = pool.pool.take k := by simp only [behind, standing]
  have known := heard.missed
  rw [passed] at known
  have light : tally { pool with caller := .terminating (k + 1) worker }.missed
      (pool.pool.take k) ≤ tally pool.missed (pool.pool.take k) :=
    tally_le_tally fun id _ => missed_le_missed fun missed =>
      missed_called missed (by rw [standing]; nofun)
  have mine : { pool with caller := .terminating (k + 1) worker }.missed worker = 0 := by
    refine Nat.eq_zero_of_not_pos fun missed => ?_
    obtain ⟨_, _, _, _, other⟩ := missed_pos.mp missed
    exact other rfl
  show tally _ (pool.pool.take (k + 1)) ≤ pool.reaped
  rw [List.take_add_one, here, Option.toList_some, tally_append, tally_cons, tally_nil, mine]
  omega

/-- Nor is it when the caller has dealt with it. -/
theorem Heard.terminated (heard : pool.Heard) {k : Nat}
    (standing : pool.caller = .terminating k worker) (next : EndingPool)
    (calling : next.caller = .signalling k) (same : next.pool = pool.pool)
    (reaped : next.reaped = pool.reaped)
    (mine : next.missed worker = 0)
    (others : ∀ id, id ≠ worker → next.workers[id]? = pool.workers[id]?)
    (told : next.told = pool.told) : next.Heard := by
  refine ⟨fun known => ?_, ?_⟩
  · have impossible := heard.after (told ▸ known)
    rw [standing] at impossible
    cases impossible
  have passed : pool.behind = pool.pool.take k := by simp only [behind, standing]
  have passes : next.behind = pool.pool.take k := by simp only [behind, calling, same]
  have known := heard.missed
  rw [passed] at known
  rw [passes, reaped]
  refine Nat.le_trans (tally_le_tally fun id _ => missed_le_missed fun missed => ?_) known
  by_cases it : id = worker
  · rw [it, mine] at missed
    cases missed
  · obtain ⟨worker, here, alive, silent, _⟩ := missed_pos.mp missed
    refine missed_pos.mpr ⟨worker, (others id it).symm.trans here, alive, silent, ?_⟩
    rw [standing]
    exact fun impossible => it (Option.some.inj impossible).symm

theorem Heard.proceed (heard : pool.Heard) (taken : pool.proceed pool.caller = some next) :
    next.Heard := by
  cases standing : pool.caller with
  | outside =>
      rw [standing] at taken
      cases taken
  | closing =>
      have told := heard.untold (by rw [standing]; rfl)
      simp only [standing, EndingPool.proceed] at taken
      split at taken
      · cases taken
        exact heard_of_untold rfl told
      · cases taken
  | stoppingSupervisor terminating =>
      have told := heard.untold (by rw [standing]; rfl)
      simp only [standing, EndingPool.proceed] at taken
      split at taken
      · cases taken
        refine ⟨fun known => absurd (told.symm.trans known) Bool.false_ne_true, ?_⟩
        cases terminating with
        | true => exact Nat.zero_le _
        | false =>
            simp only [behind, told]
            exact Nat.zero_le _
      · cases taken
  | signalling k =>
      simp only [standing, EndingPool.proceed] at taken
      split at taken
      · rename_i beyond
        cases taken
        refine heard.called _ _ (by rw [standing]; rfl) (fun _ => rfl) ?_
        simp only [behind, standing, if_true]
        exact (List.take_of_length_le (List.getElem?_eq_none_iff.mp beyond)).symm
      · rename_i worker here
        cases taken
        exact heard.fetched standing here
  | terminating k worker =>
      simp only [standing, EndingPool.proceed] at taken
      split at taken
      · cases taken
        refine heard.terminated standing _ rfl rfl rfl ?_ ?_ rfl
        · refine Nat.eq_zero_of_not_pos fun missed => ?_
          obtain ⟨found, here, _, silent, _⟩ := missed_pos.mp missed
          obtain ⟨_, old, _, rfl⟩ | ⟨other, _⟩ := Roll.modify_cases here
          · cases silent
          · exact other rfl
        · intro id other
          simp [update, Ne.symm other]
      · rename_i dead
        cases taken
        refine heard.terminated standing _ rfl rfl rfl ?_ (fun _ _ => rfl) rfl
        refine Nat.eq_zero_of_not_pos fun missed => ?_
        obtain ⟨found, here, alive, _⟩ := missed_pos.mp missed
        exact dead (by rw [life, show pool.workers[worker]? = _ from here, ← alive]; rfl)
  | stoppingTaskHandler =>
      simp only [standing, EndingPool.proceed] at taken
      split at taken
      · cases taken
        exact heard.called _ _ (by rw [standing]; rfl) (fun _ => rfl)
          (by simp only [behind, standing])
      · cases taken
  | stoppingResultHandler =>
      simp only [standing, EndingPool.proceed] at taken
      split at taken
      · cases taken
        exact heard.called _ _ (by rw [standing]; rfl) (fun _ => rfl)
          (by simp only [behind, standing])
      · cases taken
  | joining k =>
      simp only [standing, EndingPool.proceed] at taken
      split at taken
      · cases taken
        exact heard.called _ _ (by rw [standing]; rfl) (fun _ => rfl)
          (by simp only [behind, standing])
      · split at taken
        · cases taken
        · cases taken
          exact heard.called _ _ (by rw [standing]; rfl) (fun _ => rfl)
            (by simp only [behind, standing])
  | ended =>
      rw [standing] at taken
      cases taken

theorem Heard.step (heard : pool.Heard) (sound : pool.Sound)
    (taken : EndingPool.step processes pool action = some next) : next.Heard := by
  unfold EndingPool.step at taken
  rw [if_neg (by simp [sound.calm])] at taken
  cases action with
  | supervise => exact heard.supervise sound taken
  | collect leave => exact heard.collect sound taken
  | proceed => exact heard.proceed taken
  | feed =>
      have kept : ∀ taskHandler, { pool with taskHandler }.Heard := fun _ =>
        ⟨heard.after, heard.missed⟩
      cases standing : pool.taskHandler with
      | feeding =>
          simp only [standing, feed] at taken
          cases taken
          exact kept _
      | telling i =>
          simp only [standing, feed] at taken
          split at taken <;> cases taken <;> exact kept _
      | finished =>
          simp only [standing, feed] at taken
          cases taken
  | exit worker =>
      simp only at taken
      split at taken
      · cases taken
        refine ⟨heard.after, Nat.le_trans (tally_le_tally fun id _ => ?_) heard.missed⟩
        exact @missed_update_le pool worker (fun old => { old with life := .exited })
          (by simp) id
      · cases taken
  | close =>
      simp only at taken
      split at taken
      · rename_i outside
        cases taken
        exact heard_of_untold rfl (heard.untold (by rw [outside.1]; rfl))
      · cases taken
  | join =>
      simp only at taken
      split at taken
      · rename_i outside
        cases taken
        exact heard_of_untold rfl (heard.untold (by rw [outside.1]; rfl))
      · cases taken
  | terminate =>
      simp only at taken
      split at taken
      · rename_i outside
        cases taken
        exact heard_of_untold rfl (heard.untold (by rw [outside]; rfl))
      · cases taken

/-- From the end of its loop on, the workers that are alive are in `_pool`, and those of them that
`terminate` has passed by are no more than were taken out of `_pool` while the loop ran. -/
theorem missed_le_reaped (ran : run (step processes) (init processes) labels = some last)
    (along : Along (step processes) Apart (init processes) labels) (told : last.told = true) :
    tally last.missed last.pool ≤ last.reaped ∧
      ∀ id worker, last.workers[id]? = some worker → worker.life = .alive →
        id ∈ last.pool ∧ (worker.signalled = false → last.missed id = 1) := by
  have kept : Preserves (step processes) Apart fun pool => pool.Sound ∧ pool.Heard :=
    fun _ _ _ holds apart taken => ⟨holds.1.step apart taken, holds.2.step holds.1 taken⟩
  obtain ⟨sound, heard⟩ :=
    invariant_along kept ⟨sound_init processes, heard_of_untold rfl rfl⟩ along ran
  have after := heard.after told
  have missed := heard.missed
  have behind : last.behind = last.pool := by
    unfold EndingPool.behind
    split
    · rename_i standing
      rw [standing] at after
      cases after
    · rename_i standing
      rw [standing] at after
      cases after
    · rw [told]
      rfl
  rw [behind] at missed
  refine ⟨missed, fun id worker found alive => ⟨?_, fun silent => ?_⟩⟩
  · exact sound.roll.living id worker found (by rw [alive]; nofun)
  · have other : last.caller.current ≠ some id := by
      intro current
      cases standing : last.caller with
      | terminating k worker =>
          rw [standing] at after
          cases after
      | _ =>
          rw [standing] at current
          cases current
    have positive := missed_pos.mpr ⟨worker, found, alive, silent, other⟩
    have most := last.missed_le id
    omega

theorem missed_le_reaped_terminated :
    ∃ last, run (step 3) (init 3) (terminated.take 15) = some last ∧ last.missed 1 = 1 ∧
      tally last.missed last.pool ≤ 1 := by
  have ran : run (step 3) (init 3) (terminated.take 15) = some _ := rfl
  exact ⟨_, ran, rfl, (missed_le_reaped ran (by decide) (by decide)).1⟩

end EndingPool

end Billiard
