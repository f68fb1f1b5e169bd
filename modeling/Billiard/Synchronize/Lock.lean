import Billiard.Synchronize.Semaphore

/-! The locks and semaphores of `semaphore.c` in the hands of threads that release only what they
have acquired. -/

namespace Billiard

open Transition

variable {setting : SemaphoreSetting} {value left tid : Nat} {process after : SemaphoreProcess}
  {thread : SemaphoreThread} {action : SemaphoreAction}

namespace SemaphoreProcess

/-- A process of which every thread releases only what it has acquired. -/
structure Proper (process : SemaphoreProcess) : Prop where
  releasing : ∀ tid point, process.releasing = some (tid, point) →
    point ≠ .probed ∧ (point = .checked →
      ∃ thread, process.threads[tid]? = some thread ∧ 0 < thread.held)
  outcomes : ∀ thread ∈ process.threads, ∀ outcome, thread.point = .outside outcome →
    outcome ≠ .tooManyTimes ∧ outcome ≠ .overflow

theorem held_new (hooked : Bool) (lastTid threads : Nat) :
    (new hooked lastTid threads).held = 0 := by
  refine Tally.tally_eq_zero fun thread member => ?_
  rw [List.eq_of_mem_replicate member]

theorem held_forked (process : SemaphoreProcess) : process.forked.held = 0 :=
  held_new process.hooked process.lastTid process.threads.length

theorem proper_new (hooked : Bool) (lastTid threads : Nat) :
    (new hooked lastTid threads).Proper := by
  refine ⟨nofun, ?_⟩
  intro thread member outcome here
  rw [List.eq_of_mem_replicate member] at here
  cases here
  exact ⟨nofun, nofun⟩

theorem proper_forked (process : SemaphoreProcess) : process.forked.Proper := by
  have fresh := proper_new process.hooked process.lastTid process.threads.length
  exact ⟨nofun, fresh.outcomes⟩

theorem Proper.outcomes_move (proper : process.Proper) {point : SemaphorePoint} {held : Nat}
    (well : ∀ outcome, point = .outside outcome → outcome ≠ .tooManyTimes ∧ outcome ≠ .overflow) :
    ∀ thread ∈ (process.move tid point held).threads, ∀ outcome,
      thread.point = .outside outcome → outcome ≠ .tooManyTimes ∧ outcome ≠ .overflow := by
  intro thread member outcome here
  cases List.mem_or_eq_of_mem_set member with
  | inl old => exact proper.outcomes thread old outcome here
  | inr new =>
      rw [new] at here
      exact well outcome here

/-- The thread in `release` keeps what it will post. -/
theorem Proper.releasing_move (proper : process.Proper)
    (found : process.threads[tid]? = some thread) (point : SemaphorePoint) {held : Nat}
    (more : thread.held ≤ held) :
    ∀ releaser stage, process.releasing = some (releaser, stage) →
      stage ≠ .probed ∧ (stage = .checked →
        ∃ thread, (process.move tid point held).threads[releaser]? = some thread ∧
          0 < thread.held) := by
  intro releaser stage under
  obtain ⟨real, checked⟩ := proper.releasing releaser stage under
  refine ⟨real, fun called => ?_⟩
  obtain ⟨other, place, positive⟩ := checked called
  by_cases same : tid = releaser
  · subst same
    cases found.symm.trans place
    exact ⟨_, Tally.getElem?_set_found found _, Nat.lt_of_lt_of_le positive more⟩
  · exact ⟨other, (List.getElem?_set_ne same).trans place, positive⟩

/-- A thread that keeps what it holds. -/
theorem Proper.move (proper : process.Proper) (found : process.threads[tid]? = some thread)
    (point : SemaphorePoint)
    (well : ∀ outcome, point = .outside outcome → outcome ≠ .tooManyTimes ∧ outcome ≠ .overflow) :
    (process.move tid point thread.held).Proper :=
  ⟨proper.releasing_move found point (Nat.le_refl _), proper.outcomes_move well⟩

/-- What a thread does to what is held. -/
theorem held_same (found : process.threads[tid]? = some thread) (point : SemaphorePoint) :
    (process.move tid point thread.held).held = process.held :=
  Nat.add_right_cancel (held_move found point thread.held)

/-- What a thread does that releases only what it has acquired, while what is held leaves room
below the limits. -/
theorem Turn.proper (turn : Turn setting process tid thread action value left after)
    (found : process.threads[tid]? = some thread)
    (room : 0 < thread.held → value < setting.maxvalue ∧ value < setting.semValueMax)
    (probing : 0 < thread.held → setting.maxvalue = 1 → value = 0)
    (mine : action = .release → 0 < thread.held) (proper : process.Proper) :
    after.Proper ∧ left + after.held = value + process.held := by
  have holds : process.releasing = some (tid, .checked) → 0 < thread.held := by
    intro checked
    obtain ⟨_, here, positive⟩ := (proper.releasing tid .checked checked).2 rfl
    cases found.symm.trans here
    exact positive
  cases turn with
  | call mode value free here =>
      exact ⟨proper.move found _ (by simp), by rw [held_same found]⟩
  | pass value here =>
      have held := held_move found .passed (thread.held + 1)
      exact ⟨⟨proper.releasing_move found _ (Nat.le_succ _), proper.outcomes_move (by simp)⟩,
        by omega⟩
  | giveUp value outcome here call well =>
      exact ⟨proper.move found _ (by rintro _ ⟨⟩; exact well), by rw [held_same found]⟩
  | record value free here =>
      refine ⟨⟨proper.releasing_move found _ (Nat.le_refl _), proper.outcomes_move ?_⟩, ?_⟩
      · rintro _ ⟨⟩
        decide
      · exact congrArg (value + ·) (held_same found (.outside (.returned (some true))))
  | refuse value free here full =>
      exact absurd (room (mine rfl)).1 (Nat.not_lt.mpr full)
  | check value free here admits =>
      refine ⟨⟨?_, proper.outcomes⟩, rfl⟩
      rintro _ _ ⟨⟩
      exact ⟨by decide, fun _ => ⟨thread, found, mine rfl⟩⟩
  | probe value free here broken one =>
      exact absurd (probing (mine rfl) one) (Nat.succ_ne_zero _)
  | undo value probed => exact absurd rfl (proper.releasing tid .probed probed).1
  | post value checked =>
      have positive := holds checked
      have held : SemaphoreProcess.held (SemaphoreProcess.move
          { process with releasing := some (tid, .posted) } tid thread.point (thread.held - 1)) +
            thread.held = process.held + (thread.held - 1) :=
        held_move found thread.point (thread.held - 1)
      refine ⟨⟨?_, ?_⟩, by omega⟩
      · rintro _ _ ⟨⟩
        exact ⟨by decide, fun checked => absurd checked (by decide)⟩
      · exact proper.outcomes_move fun outcome here =>
          proper.outcomes thread (List.mem_of_getElem? found) outcome here
  | @overflow value point under yet full =>
      cases point with
      | probed => exact absurd rfl (proper.releasing tid .probed under).1
      | checked => exact absurd (room (holds under)).2 (Nat.not_lt.mpr full)
      | posted => exact absurd rfl yet
  | finish value posted =>
      refine ⟨⟨by rintro _ _ ⟨⟩, ?_⟩, ?_⟩
      · exact proper.outcomes_move (by rintro _ ⟨⟩; decide)
      · exact congrArg (value + ·) (held_same found (.outside (.returned none)))

/-- Whoever posts holds what it posts. -/
theorem Turn.postable (turn : Turn setting process tid thread action value left after)
    (found : process.threads[tid]? = some thread) (proper : process.Proper)
    (room : 0 < thread.held → value < setting.semValueMax) :
    action = .post → value < setting.semValueMax := by
  have checks : process.releasing = some (tid, .checked) → value < setting.semValueMax := by
    intro checked
    obtain ⟨_, here, positive⟩ := (proper.releasing tid .checked checked).2 rfl
    cases found.symm.trans here
    exact room positive
  intro call
  cases turn with
  | giveUp value outcome here gaveUp well => obtain rfl | rfl := gaveUp <;> cases call
  | undo value probed => exact absurd rfl (proper.releasing tid .probed probed).1
  | post value checked => exact checks checked
  | @overflow value point under yet full =>
      cases point with
      | probed => exact absurd rfl (proper.releasing tid .probed under).1
      | checked => exact checks under
      | posted => exact absurd rfl yet
  | _ => cases call

end SemaphoreProcess

namespace SharedSemaphore

open SemaphoreProcess

variable {state next last : SharedSemaphore} {pid : Nat}
  {labels : List (Nat × Nat × SemaphoreAction)}

/-- Only a thread that has acquired the semaphore more often than released it calls `release`. -/
def Disciplined (state : SharedSemaphore) (label : Nat × Nat × SemaphoreAction) : Prop :=
  label.2.2 = .release → ∃ thread, state.thread label.1 label.2.1 = some thread ∧ 0 < thread.held

instance (state : SharedSemaphore) (label : Nat × Nat × SemaphoreAction) :
    Decidable (Disciplined state label) :=
  decidable_of_iff
    (label.2.2 = .release →
      ((state.thread label.1 label.2.1).any fun thread => 0 < thread.held) = true)
    (by simp [Disciplined, Option.any_eq_true])

structure Kept (setting : SemaphoreSetting) (state : SharedSemaphore) : Prop where
  resting : state.Resting
  proper : ∀ process ∈ state.processes, process.Proper
  balance : state.value + state.held = setting.value

theorem kept_init (setting : SemaphoreSetting) (processes threads : Nat) :
    (init setting processes threads).Kept setting := by
  refine ⟨resting_init setting processes threads, ?_, ?_⟩
  · intro process member
    obtain ⟨hooked, rfl⟩ := mem_init member
    exact proper_new hooked 0 threads
  · have nobody : (init setting processes threads).held = 0 := by
      refine Tally.tally_eq_zero fun process member => ?_
      obtain ⟨hooked, rfl⟩ := mem_init member
      exact held_new hooked 0 threads
    rw [nobody]
    rfl

theorem held_le_of_thread (found : state.processes[pid]? = some process)
    (here : process.threads[tid]? = some thread) :
    thread.held ≤ process.held ∧ process.held ≤ state.held :=
  ⟨Tally.weight_le here, Tally.weight_le found⟩

theorem Kept.step (valid : setting.Valid)
    (kept : state.Kept setting) (disciplined : Disciplined state (pid, tid, action))
    (taken : SharedSemaphore.step setting state (pid, tid, action) = some next) :
    next.Kept setting := by
  have resting := kept.resting.step taken
  obtain ⟨process, thread, found, here, ⟨_, rfl⟩ | ⟨value, after, turn, rfl⟩⟩ := step_cases taken
  · refine ⟨resting, ?_, ?_⟩
    · intro other member
      cases List.mem_append.mp member with
      | inl old => exact kept.proper other old
      | inr new =>
          rw [List.mem_singleton.mp new]
          exact proper_forked process
    · rw [← kept.balance]
      simp [held, held_forked]
  · have member := List.mem_of_getElem? found
    have low := held_le_of_thread found here
    have balance := kept.balance
    have mine : action = .release → 0 < thread.held := by
      intro called
      obtain ⟨_, place, positive⟩ := disciplined called
      have same : state.thread pid tid = some thread := by
        simp [SharedSemaphore.thread, found, here]
      cases same.symm.trans place
      exact positive
    have bounds := valid.value_le
    have limits := valid.maxvalue_le
    obtain ⟨proper, same⟩ := turn.proper here
      (fun positive => by omega) (fun positive one => by omega) mine (kept.proper process member)
    refine ⟨resting, ?_, ?_⟩
    · intro other member
      cases List.mem_or_eq_of_mem_set member with
      | inl old => exact kept.proper other old
      | inr new =>
          rw [new]
          exact proper
    · have sum := Tally.tally_set SemaphoreProcess.held found after
      simp only [held] at balance ⊢
      omega

theorem kept_run {processes threads : Nat} (valid : setting.Valid)
    (ran : run (step setting) (init setting processes threads) labels = some last)
    (along : Along (step setting) Disciplined (init setting processes threads) labels) :
    last.Kept setting :=
  invariant_along (fun _ _ _ kept disciplined taken => kept.step valid disciplined taken)
    (kept_init setting processes threads) along ran

/-- A thread takes a lock that another process then tries in vain, and gives it back. -/
def contended : List (Nat × Nat × SemaphoreAction) :=
  [(0, 1, .acquire .wait), (0, 1, .decrement), (0, 1, .record), (1, 0, .acquire .trywait),
    (1, 0, .giveUp), (0, 1, .release), (0, 1, .post), (0, 1, .finish)]

/-- No more threads hold the semaphore than it lets through, and no `release` fails. -/
theorem excludes {processes threads : Nat} (valid : setting.Valid)
    (ran : run (step setting) (init setting processes threads) labels = some last)
    (along : Along (step setting) Disciplined (init setting processes threads) labels) :
    last.value + last.held = setting.value ∧
      ∀ process ∈ last.processes, ∀ thread ∈ process.threads,
        thread.point ≠ .outside .tooManyTimes ∧ thread.point ≠ .outside .overflow := by
  have kept := kept_run valid ran along
  refine ⟨kept.balance, fun process member thread place => ?_⟩
  have outcomes := (kept.proper process member).outcomes thread place
  exact ⟨fun here => (outcomes _ here).1 rfl, fun here => (outcomes _ here).2 rfl⟩

theorem excludes_contended :
    ∃ last, run (step (.lock 9 false)) (init (.lock 9 false) 2 2) contended = some last ∧
      last.value + last.held = 1 := by
  have ran : run (step (.lock 9 false)) (init (.lock 9 false) 2 2) contended = some _ := rfl
  exact ⟨_, ran, (excludes ⟨by decide, by decide⟩ ran (by decide)).1⟩

end SharedSemaphore

namespace SemaphoreProcess

/-- In a process that uses a `Lock`: `last_tid` is the thread that has it, once it is counted. -/
structure Named (process : SemaphoreProcess) : Prop where
  last : ∀ tid thread, process.threads[tid]? = some thread → 0 < thread.held →
    thread.point ≠ .passed → process.lastTid = tid
  passed : ∀ thread ∈ process.threads, thread.point = .passed → 0 < thread.held

theorem named_new (hooked : Bool) (lastTid threads : Nat) :
    (new hooked lastTid threads).Named := by
  constructor
  · intro tid thread here positive
    rw [List.eq_of_mem_replicate (List.mem_of_getElem? here)] at positive
    cases positive
  · intro thread member here
    rw [List.eq_of_mem_replicate member] at here
    cases here

theorem named_forked (process : SemaphoreProcess) : process.forked.Named := by
  have fresh := named_new process.hooked process.lastTid process.threads.length
  exact ⟨fresh.last, fresh.passed⟩

theorem Named.passed_le (named : process.Named) : process.passed ≤ process.held := by
  refine Tally.tally_le_tally fun thread member => ?_
  cases here : thread.point with
  | passed => exact named.passed thread member here
  | outside outcome => exact Nat.zero_le _
  | waiting mode => exact Nat.zero_le _

/-- Where `count` tells what a process holds, and it never holds more than one, `count` is far from
its ends. -/
theorem Named.countable (named : process.Named) (counted : process.account = process.held)
    (one : process.held ≤ 1) (found : process.threads[tid]? = some thread)
    (turn : Turn setting process tid thread action value left after) :
    process.Countable action := by
  cases turn with
  | giveUp value outcome here call well => obtain rfl | rfl := call <;> exact True.intro
  | record value free here =>
      have own : thread.point.uncounted ≤ process.passed :=
        @Tally.weight_le _ (fun thread => thread.point.uncounted) process.threads tid thread found
      rw [here, uncounted_passed] at own
      rw [account, free, owed] at counted
      exact CInt.ne_maxValue (by omega)
  | finish value posted =>
      have less := named.passed_le
      rw [account, posted, owed] at counted
      exact CInt.ne_minValue (by omega)
  | _ => exact True.intro

theorem Named.stored (named : process.Named) {point : SemaphorePoint} {held : Nat}
    (threads : after.threads = process.threads.set tid ⟨point, held⟩)
    (others : ∀ other thread, other ≠ tid → process.threads[other]? = some thread →
      0 < thread.held → thread.point ≠ .passed → after.lastTid = other)
    (last : 0 < held → point ≠ .passed → after.lastTid = tid)
    (passed : point = .passed → 0 < held) : after.Named := by
  constructor
  · intro other thread here positive away
    rw [threads] at here
    obtain ⟨rfl, rfl⟩ | ⟨different, before⟩ := Tally.getElem?_set_cases here
    · exact last positive away
    · exact others other thread different before positive away
  · intro thread member here
    rw [threads] at member
    cases List.mem_or_eq_of_mem_set member with
    | inl old => exact named.passed thread old here
    | inr new =>
        rw [new] at here ⊢
        exact passed here

/-- Two threads of a process hold no more than all of them. -/
theorem held_add_le {other : Nat} {beside : SemaphoreThread} (different : other ≠ tid)
    (found : process.threads[tid]? = some thread)
    (there : process.threads[other]? = some beside) :
    beside.held + thread.held ≤ process.held := by
  have sum := held_move found thread.point 0
  have kept : (process.move tid thread.point 0).threads[other]? = some beside :=
    (List.getElem?_set_ne (Ne.symm different)).trans there
  have low : beside.held ≤ (process.move tid thread.point 0).held := Tally.weight_le kept
  omega

/-- A process that never has the lock twice. -/
theorem Turn.named (turn : Turn setting process tid thread action value left after)
    (found : process.threads[tid]? = some thread) (resting : process.Resting)
    (one : value + process.held ≤ 1) (named : process.Named) : after.Named := by
  have outside : ∀ {point}, process.releasing = some (tid, point) → thread.point ≠ .passed := by
    intro point under passed
    obtain ⟨_, outcome, here, outside⟩ := resting tid point under
    cases found.symm.trans here
    rw [passed] at outside
    cases outside
  have last : thread.point ≠ .passed → 0 < thread.held → process.lastTid = tid :=
    fun away positive => named.last tid thread found positive away
  have others : ∀ other thread, other ≠ tid → process.threads[other]? = some thread →
      0 < thread.held → thread.point ≠ .passed → process.lastTid = other :=
    fun other thread _ => named.last other thread
  cases turn with
  | call mode value free here =>
      exact named.stored rfl others (fun positive _ => last (by rw [here]; nofun) positive) nofun
  | pass value here =>
      exact named.stored rfl others (fun _ away => absurd rfl away) fun _ => Nat.succ_pos _
  | giveUp value outcome here call well =>
      exact named.stored rfl others (fun positive _ => last (by rw [here]; nofun) positive) nofun
  | record value free here =>
      have mine := named.passed thread (List.mem_of_getElem? found) here
      refine named.stored rfl ?_ (fun _ _ => rfl) nofun
      intro other beside different there positive _
      have both := held_add_le different found there
      omega
  | refuse value free here full =>
      exact named.stored rfl others (fun positive _ => last (by rw [here]; nofun) positive) nofun
  | check value free here admits => exact ⟨named.last, named.passed⟩
  | probe value free here broken one => exact ⟨named.last, named.passed⟩
  | undo value probed =>
      exact named.stored rfl others (fun positive _ => last (outside probed) positive) nofun
  | post value checked =>
      exact named.stored rfl others (fun positive _ => last (outside checked) (by omega))
        fun passed => absurd passed (outside checked)
  | overflow value under yet full =>
      exact named.stored rfl others (fun positive _ => last (outside under) positive) nofun
  | finish value posted =>
      exact named.stored rfl others (fun positive _ => last (outside posted) positive) nofun

/-- The thread that the object names, while none of the process is in a call. -/
theorem isMine_iff_of_named (named : process.Named) (counted : process.count.toInt = process.held)
    (outside : ∀ thread ∈ process.threads, ∃ outcome, thread.point = .outside outcome)
    (found : process.threads[tid]? = some thread) :
    process.isMine tid = true ↔ 0 < thread.held := by
  have away : ∀ {other : Nat} {beside}, process.threads[other]? = some beside →
      beside.point ≠ .passed := by
    intro other beside there passed
    obtain ⟨outcome, here⟩ := outside beside (List.mem_of_getElem? there)
    rw [passed] at here
    cases here
  simp only [isMine, Bool.and_eq_true, decide_eq_true_eq, beq_iff_eq, CInt.pos_iff, counted]
  constructor
  · rintro ⟨positive, same⟩
    obtain ⟨other, beside, there, holds⟩ := Tally.exists_weight (by exact_mod_cast positive)
    obtain rfl := (named.last other beside there holds (away there)).symm.trans same.symm
    cases found.symm.trans there
    exact holds
  · intro positive
    have low : thread.held ≤ process.held := Tally.weight_le found
    exact ⟨by omega, (named.last tid thread found positive (away found)).symm⟩

end SemaphoreProcess

/-- What `Lock.__repr__` shows as the owner; it knows the name of the caller only. -/
inductive LockOwner where
  | caller
  | unknown
  | nobody
  | someOtherThread
  | someOtherProcess
deriving DecidableEq, Repr

namespace SharedSemaphore

open SemaphoreProcess

/-- `Lock.__repr__`, called by the thread `tid` of the process -/
def reprOwner (setting : SemaphoreSetting) (state : SharedSemaphore) (process : SemaphoreProcess)
    (tid : Nat) : LockOwner :=
  if process.isMine tid then .caller
  else if setting.brokenGetvalue then .unknown
  else if state.value = 1 then .nobody
  else if 0 < process.count then .someOtherThread
  else .someOtherProcess

theorem named_run {processes threads : Nat} (valid : setting.Valid) (one : setting.value = 1)
    (ran : run (step setting) (init setting processes threads) labels = some last)
    (along : Along (step setting) Disciplined (init setting processes threads) labels)
    (forks : Along (step setting) Forks (init setting processes threads) labels) :
    ∀ process ∈ last.processes, process.Named ∧ process.account = process.held := by
  have kept : Preserves (step setting) (fun state label => Disciplined state label ∧
      Forks state label) fun state => state.Kept setting ∧
        ∀ process ∈ state.processes, process.Named ∧ process.account = process.held := by
    rintro state ⟨pid, tid, action⟩ next ⟨kept, named⟩ ⟨disciplined, forks⟩ taken
    refine ⟨kept.step valid disciplined taken, forall_step ?_ taken named ?_⟩
    · intro process call found
      refine ⟨named_forked process, ?_⟩
      rw [account_forked (forks call process found), held_forked]
      rfl
    · intro process thread value after found here turn ⟨names, counted⟩
      have member := List.mem_of_getElem? found
      have low : process.held ≤ state.held := Tally.weight_le found
      have balance := kept.balance
      have limits := valid.maxvalue_le
      have bounds := valid.value_le
      have resting := kept.resting process member
      have few : process.held ≤ 1 := by omega
      have idle : 0 < thread.held → state.value = 0 := by
        intro positive
        have own : thread.held ≤ process.held := Tally.weight_le here
        omega
      have proper := kept.proper process member
      have room : 0 < thread.held → state.value < setting.semValueMax := by
        intro positive
        have zero := idle positive
        omega
      have mine : action = .release → 0 < thread.held := by
        intro called
        obtain ⟨_, there, positive⟩ := disciplined called
        have same : state.thread pid tid = some thread := by
          simp [SharedSemaphore.thread, found, here]
        cases same.symm.trans there
        exact positive
      have held := (turn.proper here (fun positive => ⟨by omega, room positive⟩)
        (fun positive _ => idle positive) mine proper).2
      have sum := turn.account here resting (names.countable counted few here turn)
        (turn.postable here proper room)
      refine ⟨turn.named here resting (by omega) names, ?_⟩
      omega
  have start : ∀ process ∈ (init setting processes threads).processes,
      process.Named ∧ process.account = process.held := by
    intro process member
    obtain ⟨hooked, rfl⟩ := mem_init member
    refine ⟨named_new hooked 0 threads, ?_⟩
    rw [account_new, held_new]
    rfl
  exact (invariant_along kept ⟨kept_init setting processes threads, start⟩
    (along.and forks) ran).2

/-- Whoever asks, while nobody is in a call, is told who has the lock, as far as the value of the
semaphore is to be had. -/
theorem repr_tells {processes threads pid : Nat} {process : SemaphoreProcess}
    {thread : SemaphoreThread} (locks : setting.value = 1) (valid : setting.Valid)
    (ran : run (step setting) (init setting processes threads) labels = some last)
    (along : Along (step setting) Disciplined (init setting processes threads) labels)
    (forks : Along (step setting) Forks (init setting processes threads) labels)
    (quiet : last.Quiet) (found : last.processes[pid]? = some process)
    (here : process.threads[tid]? = some thread) :
    (reprOwner setting last process tid = .caller ↔ 0 < thread.held) ∧
      (setting.brokenGetvalue = false →
        (reprOwner setting last process tid = .nobody ↔ last.held = 0) ∧
        (reprOwner setting last process tid = .someOtherThread ↔
          thread.held = 0 ∧ 0 < process.held) ∧
        (reprOwner setting last process tid = .someOtherProcess ↔
          process.held = 0 ∧ 0 < last.held)) := by
  have kept := kept_run valid ran along
  have member := List.mem_of_getElem? found
  have balance := kept.balance
  have low : process.held ≤ last.held := Tally.weight_le found
  have least : thread.held ≤ process.held := Tally.weight_le here
  obtain ⟨named, counted⟩ := named_run valid locks ran along forks process member
  have count := (quiet.account_eq member).symm.trans counted
  have mine := isMine_iff_of_named named count (quiet process member).2 here
  unfold reprOwner
  split
  · rename_i own
    have holds := mine.mp own
    refine ⟨by simpa using holds, fun _ => ⟨?_, ?_, ?_⟩⟩ <;> simp <;> omega
  · rename_i other
    have idle : thread.held = 0 := Nat.eq_zero_of_not_pos fun holds => other (mine.mpr holds)
    split
    · rename_i broken
      exact ⟨by simpa using idle, fun known => absurd (known.symm.trans broken) nofun⟩
    · split
      · refine ⟨?_, fun _ => ⟨?_, ?_, ?_⟩⟩ <;> simp <;> omega
      · split
        · rename_i counts
          have several := CInt.pos_iff.mp counts
          refine ⟨?_, fun _ => ⟨?_, ?_, ?_⟩⟩ <;> simp <;> omega
        · rename_i counts
          have none_ := mt CInt.pos_iff.mpr counts
          refine ⟨?_, fun _ => ⟨?_, ?_, ?_⟩⟩ <;> simp <;> omega

/-- The owner forks: the child sees the owner in another process. -/
theorem repr_tells_contended :
    ∃ last process, run (step (.lock 9 false)) (init (.lock 9 false) 2 2)
        (contended.take 5 ++ [(0, 1, .fork)]) = some last ∧ last.processes[2]? = some process ∧
      reprOwner (.lock 9 false) last process 1 = .someOtherProcess := by
  let unused : SemaphoreThread := ⟨.outside (.returned none), 0⟩
  let refused : SemaphoreThread := ⟨.outside (.returned (some false)), 0⟩
  let holder : SemaphoreProcess :=
    ⟨true, 1, 1, none, [unused, ⟨.outside (.returned (some true)), 1⟩]⟩
  let child : SemaphoreProcess := ⟨true, 0, 1, none, [unused, unused]⟩
  have ran : run (step (.lock 9 false)) (init (.lock 9 false) 2 2)
      (contended.take 5 ++ [(0, 1, .fork)]) =
    some ⟨0, [holder, ⟨false, 0, 0, none, [refused, unused]⟩, child]⟩ := rfl
  have found : [holder, ⟨false, 0, 0, none, [refused, unused]⟩, child][2]? = some child := rfl
  have here : [unused, unused][1]? = some unused := rfl
  exact ⟨_, _, ran, found, ((repr_tells rfl ⟨by decide, by decide⟩ ran (by decide) (by decide)
    (by decide) found here).2 rfl).2.2.mpr (by decide)⟩

end SharedSemaphore

end Billiard
