import Billiard.Data.Tally
import Billiard.Pool.Delivery

/-! Several consumers of one `imap` or `imap_unordered`, which call `next` without a timeout. -/

namespace Billiard

open Tally Transition

/-- Where a consumer is in `next`; one that is asleep has been notified once it is not among the
waiters any more. -/
inductive NextState where
  | idle
  | calling
  | asleep
deriving DecidableEq, Repr

/-- `received` is what has been handed out, and `timedOut` are the consumers for which `next` has
raised `TimeoutError`. -/
structure Consumers (α : Type u) where
  it : IMapIterator α
  arrived : List Nat
  threads : List NextState
  received : List (Outcome α)
  timedOut : List Nat
  raised : Option Raised
deriving DecidableEq

/-- A consumer calls `next`, enters it once it has the lock, and goes on once it has the lock again
after it was notified. -/
inductive ConsumersStep where
  | arrive (i : Nat)
  | setLength
  | call (c : Nat)
  | enter (c : Nat)
  | wake (c : Nat)
deriving DecidableEq, Repr

namespace IMapIterator

def hush (it : IMapIterator α) : IMapIterator α := { it with waiters := [] }

variable (it : IMapIterator α)

theorem hush_drain (rounds : Nat) : (it.drain rounds).hush = it.hush.drain rounds := by
  induction rounds generalizing it with
  | zero => rfl
  | succ rounds ih =>
      have same : it.hush.unsorted.lookup (.position it.hush.index) =
        it.unsorted.lookup (.position it.index) := rfl
      unfold drain
      rw [same]
      split
      · rfl
      · exact ih _

theorem hush_complete : it.hush.complete = (it.complete.1.hush, it.complete.2) := by
  unfold complete
  change (if it.length = some it.index then _ else _) = _
  split
  · change (if it.cached = true then _ else _) = _
    split <;> rfl
  · rfl

theorem hush_set (i : Index) (outcome : Outcome α) :
    it.hush.set i outcome = ((it.set i outcome).1.hush, (it.set i outcome).2) := by
  unfold set
  change (if i = .position it.index then
    (((it.append outcome).hush.drain it.unsorted.length).notify).complete else _) = _
  split
  · rw [← hush_drain]
    exact hush_complete ((it.append outcome).drain it.unsorted.length).notify
  · split
    · rfl
    · exact hush_complete (it.keep i outcome)

theorem hush_setUnordered (outcome : Outcome α) :
    it.hush.setUnordered outcome =
      ((it.setUnordered outcome).1.hush, (it.setUnordered outcome).2) :=
  hush_complete (it.append outcome).notify

theorem hush_setLength (length : Nat) :
    it.hush.setLength length = ((it.setLength length).1.hush, (it.setLength length).2) := by
  have same : it.hush.index = it.index := rfl
  by_cases last : it.index = length
  · simp only [setLength, same, if_pos last]
    exact hush_complete { it with length := some length }.notify
  · simp only [setLength, same, if_neg last]
    rfl

end IMapIterator

namespace Consumers

def init (consumers job lostWorkerTimeout : Nat) : Consumers α :=
  ⟨.init job lostWorkerTimeout, [], List.replicate consumers .idle, [], [], none⟩

def moveTo (state : Consumers α) (c : Nat) (thread : NextState) : Consumers α :=
  { state with threads := state.threads.set c thread }

/-- An attempt of `next` to take an item, as for a single consumer. -/
def attempt (state : Consumers α) (c : Nat) (blocked : Consumers α) : Consumers α :=
  match state.it.popleft with
  | (it, .item outcome) =>
      { state.moveTo c .idle with it, received := state.received ++ [outcome] }
  | (it, .exhausted) => { state.moveTo c .idle with it }
  | (_, .nothing) => blocked

variable (unordered : Bool) (n : Nat) (results : Nat → Outcome α)

def setResult (it : IMapIterator α) (i : Nat) : IMapIterator α × Option Raised :=
  if unordered then it.setUnordered (results i) else it.set (.position i) (results i)

def step (state : Consumers α) (label : ConsumersStep) : Option (Consumers α) :=
  if state.raised.isSome then none
  else match label with
  | .arrive i =>
      if i < n ∧ i ∉ state.arrived then
        let (it, raised) := setResult unordered results state.it i
        some { state with it, raised, arrived := state.arrived ++ [i] }
      else none
  | .setLength =>
      if state.it.length = none then
        let (it, raised) := state.it.setLength n
        some { state with it, raised }
      else none
  | .call c => if state.threads[c]? = some .idle then some (state.moveTo c .calling) else none
  | .enter c =>
      if state.threads[c]? = some .calling then
        let asleep := { state.it with waiters := state.it.waiters ++ [c] }
        some (state.attempt c { state.moveTo c .asleep with it := asleep })
      else none
  | .wake c =>
      if state.threads[c]? = some .asleep ∧ c ∉ state.it.waiters then
        some (state.attempt c { state.moveTo c .idle with timedOut := state.timedOut ++ [c] })
      else none

def count (kind : NextState) (threads : List NextState) : Nat :=
  tally (fun thread => if thread = kind then 1 else 0) threads

def notified (state : Consumers α) : Nat := count .asleep state.threads - state.it.waiters.length

/-- `next` never raises `TimeoutError`, and a consumer that nobody has notified waits neither for
an item that no other one is about to take nor after all items have been handed out. -/
structure Served (state : Consumers α) : Prop where
  timedOut : state.timedOut = []
  taken : state.it.waiters ≠ [] →
    state.it.items.length ≤ state.notified + count .calling state.threads
  ended : state.it.length = some n → state.received.length = n → state.it.waiters = []

/-- How many results `_set` hands over for `i`: it and those that have waited for it. -/
def released (state : Consumers α) (i : Nat) : Nat :=
  if unordered then 1
  else if i = state.it.index then
    1 + ((List.range' (i + 1) (n - (i + 1))).takeWhile (state.arrived.contains ·)).length
  else 0

/-- One consumer waits at most where more is to be had than one notification tells of, and nobody
takes an item before a consumer that was notified of it. -/
def Fair (state : Consumers α) : ConsumersStep → Prop
  | .arrive i => state.it.waiters.length ≤ 1 ∨
      ¬(state.it.length.isSome = true ∧ state.arrived.length + 1 = n) ∧
        state.it.items.length + state.released unordered n i ≤
          state.notified + count .calling state.threads + 1
  | .setLength => state.arrived.length = n → state.it.waiters.length ≤ 1
  | .enter _ => state.it.items ≠ [] → state.it.length ≠ some state.it.index →
      state.notified < state.it.items.length
  | .call _ | .wake _ => True

instance (state : Consumers α) (label : ConsumersStep) :
    Decidable (state.Fair unordered n label) := by
  unfold Fair
  split <;> infer_instance

variable {unordered n results} {state : Consumers α} {threads : List NextState} {c i : Nat}

theorem count_set (kind : NextState) {old : NextState} (found : threads[c]? = some old)
    (new : NextState) :
    count kind (threads.set c new) + (if old = kind then 1 else 0) =
      count kind threads + if new = kind then 1 else 0 :=
  tally_set _ found new

theorem length_le_count {waiters : List Nat} (distinct : waiters.Nodup)
    (asleep : ∀ c ∈ waiters, threads[c]? = some .asleep) :
    waiters.length ≤ count .asleep threads := by
  induction waiters generalizing threads with
  | nil => exact Nat.zero_le _
  | cons c waiters ih =>
      obtain ⟨fresh, rest⟩ := List.nodup_cons.mp distinct
      have found := asleep c (List.mem_cons_self ..)
      -- without the first one, the others are asleep still
      have others := @ih (threads.set c .idle) rest fun other member => by
        have differs : c ≠ other := fun same => fresh (same ▸ member)
        rw [List.getElem?_set_ne differs]
        exact asleep other (List.mem_cons_of_mem _ member)
      have fewer := count_set .asleep found .idle
      simp only [if_true, reduceCtorEq, if_false] at fewer
      rw [List.length_cons]
      omega

def delivery (state : Consumers α) (stopped : Bool) (deletions : Nat) : Delivery α :=
  ⟨state.it.hush, state.arrived, .idle, state.received, stopped, deletions, state.raised⟩

def Delivers (unordered : Bool) (n : Nat) (results : Nat → Outcome α) (state : Consumers α) :
    Prop :=
  ∃ stopped deletions, (state.delivery stopped deletions).Invariant unordered n results

/-- As long as more is to come, there is an item for each consumer that was notified; and while
others wait, each item is taken care of. -/
structure Attended (unordered : Bool) (n : Nat) (results : Nat → Outcome α)
    (state : Consumers α) : Prop where
  delivers : state.Delivers unordered n results
  asleep : ∀ c ∈ state.it.waiters, state.threads[c]? = some .asleep
  distinct : state.it.waiters.Nodup
  timedOut : state.timedOut = []
  promised : state.it.length ≠ some state.it.index → state.notified ≤ state.it.items.length
  covered : state.it.waiters ≠ [] → state.it.length ≠ some state.it.index ∧
    state.it.items.length ≤ state.notified + count .calling state.threads

theorem Attended.waiters_le (attended : state.Attended unordered n results) :
    state.it.waiters.length ≤ count .asleep state.threads :=
  length_le_count attended.distinct attended.asleep

theorem Attended.waiters_lt (attended : state.Attended unordered n results)
    (found : state.threads[c]? = some .asleep) (awoken : c ∉ state.it.waiters) :
    state.it.waiters.length < count .asleep state.threads :=
  length_le_count (List.nodup_cons.mpr ⟨awoken, attended.distinct⟩)
    (List.forall_mem_cons.mpr ⟨found, attended.asleep⟩)

theorem Delivers.received_add_items (delivers : state.Delivers unordered n results) :
    state.received.length + state.it.items.length = state.it.index := by
  obtain ⟨stopped, deletions, invariant⟩ := delivers
  have handed := congrArg List.length invariant.handed
  rw [List.length_append, List.length_map] at handed
  have placed := invariant.placed
  unfold Delivery.Placed at placed
  unfold Delivery.order at handed
  change state.received.length + state.it.items.length = _ at handed
  rw [handed]
  split at placed
  · rename_i same
    rw [if_pos same]
    exact placed.symm
  · rename_i same
    rw [if_neg same]
    exact List.length_range

theorem Delivers.index_le (delivers : state.Delivers unordered n results) :
    state.it.index ≤ n := by
  obtain ⟨stopped, deletions, invariant⟩ := delivers
  have placed := invariant.placed
  unfold Delivery.Placed at placed
  split at placed
  · exact Nat.le_trans (Nat.le_of_eq placed) invariant.arrival.length_le
  · by_contra beyond
    exact Nat.lt_irrefl n (invariant.arrival.bounded n (placed.2.2 n (Nat.lt_of_not_le beyond)))

theorem Attended.served (attended : state.Attended unordered n results) : state.Served n where
  timedOut := attended.timedOut
  taken some_ := (attended.covered some_).2
  ended known all := by
    by_contra some_
    apply (attended.covered some_).1
    have items := attended.delivers.received_add_items
    have bound := attended.delivers.index_le
    rw [known]
    congr 1
    omega

theorem init_attended (consumers job lostWorkerTimeout : Nat) :
    (init consumers job lostWorkerTimeout : Consumers α).Attended unordered n results where
  delivers := ⟨false, 0, Delivery.init_invariant unordered n results job lostWorkerTimeout⟩
  asleep := nofun
  distinct := List.nodup_nil
  timedOut := rfl
  promised _ := by
    have none_ : count .asleep (List.replicate consumers .idle) = 0 := by
      refine tally_eq_zero fun thread member => ?_
      rw [List.eq_of_mem_replicate member]
      rfl
    simp [notified, init, none_]
  covered some_ := absurd rfl some_

theorem asleep_set (attended : state.Attended unordered n results) {old : NextState}
    (found : state.threads[c]? = some old) (awake : old ≠ .asleep) (new : NextState) :
    ∀ other ∈ state.it.waiters, (state.threads.set c new)[other]? = some .asleep := by
  intro other member
  have sleeps := attended.asleep other member
  have differs : c ≠ other := by
    rintro rfl
    rw [found] at sleeps
    exact awake (Option.some.inj sleeps)
  rw [List.getElem?_set_ne differs]
  exact sleeps

theorem Attended.call (attended : state.Attended unordered n results)
    (found : state.threads[c]? = some .idle) :
    (state.moveTo c .calling).Attended unordered n results := by
  have sleeping := count_set .asleep found .calling
  have calling := count_set .calling found .calling
  simp only [reduceCtorEq, if_false, if_true, Nat.add_zero] at sleeping calling
  exact {
    delivers := attended.delivers
    asleep := asleep_set attended found nofun .calling
    distinct := attended.distinct
    timedOut := attended.timedOut
    promised := fun more => by
      have promised := attended.promised more
      simp only [notified, moveTo] at promised ⊢
      omega
    covered := fun some_ => by
      obtain ⟨more, covered⟩ := attended.covered some_
      refine ⟨more, ?_⟩
      simp only [notified, moveTo] at covered ⊢
      omega }

theorem Delivers.take {outcome : Outcome α} {items : List (Outcome α)}
    (delivers : state.Delivers unordered n results) (filled : state.it.items = outcome :: items)
    (thread : NextState) :
    Delivers unordered n results { state.moveTo c thread with
      it := { state.it with items }, received := state.received ++ [outcome] } := by
  obtain ⟨stopped, deletions, invariant⟩ := delivers
  have taken := invariant.attempt rfl fun _ _ => invariant
  have filled : (state.delivery stopped deletions).it.items = outcome :: items := filled
  rw [Delivery.attempt, IMapIterator.popleft_item filled] at taken
  exact ⟨stopped, deletions, taken⟩

theorem Delivers.exhaust (delivers : state.Delivers unordered n results)
    (empty : state.it.items = []) (complete : state.it.length = some state.it.index)
    (thread : NextState) :
    Delivers unordered n results
      { state.moveTo c thread with it := { state.it with isReady := true } } := by
  obtain ⟨stopped, deletions, invariant⟩ := delivers
  have taken := invariant.attempt rfl fun _ _ => invariant
  have empty : (state.delivery stopped deletions).it.items = [] := empty
  rw [Delivery.attempt, IMapIterator.popleft_exhausted empty complete] at taken
  exact ⟨true, deletions, taken⟩

/-- The consumer has the lock and the first item. -/
theorem Attended.take {outcome : Outcome α} {items : List (Outcome α)}
    (attended : state.Attended unordered n results) (filled : state.it.items = outcome :: items)
    (asleep : ∀ other ∈ state.it.waiters, (state.threads.set c .idle)[other]? = some .asleep)
    (promised : state.it.length ≠ some state.it.index →
      count .asleep (state.threads.set c .idle) ≤ items.length + state.it.waiters.length)
    (covered : state.notified + count .calling state.threads ≤
      count .asleep (state.threads.set c .idle) - state.it.waiters.length +
        count .calling (state.threads.set c .idle) + 1) :
    Attended unordered n results { state.moveTo c .idle with
      it := { state.it with items }, received := state.received ++ [outcome] } where
  delivers := attended.delivers.take filled .idle
  asleep := asleep
  distinct := attended.distinct
  timedOut := attended.timedOut
  promised more := by
    have promised := promised more
    simp only [notified, moveTo]
    omega
  covered some_ := by
    obtain ⟨more, before⟩ := attended.covered some_
    refine ⟨more, ?_⟩
    rw [filled, List.length_cons] at before
    simp only [notified, moveTo] at covered before ⊢
    omega

theorem Attended.exhaust (attended : state.Attended unordered n results)
    (empty : state.it.items = []) (complete : state.it.length = some state.it.index)
    (asleep : ∀ other ∈ state.it.waiters, (state.threads.set c .idle)[other]? = some .asleep) :
    Attended unordered n results
      { state.moveTo c .idle with it := { state.it with isReady := true } } where
  delivers := attended.delivers.exhaust empty complete .idle
  asleep := asleep
  distinct := attended.distinct
  timedOut := attended.timedOut
  promised more := absurd complete more
  covered some_ := absurd complete (attended.covered some_).1

theorem Attended.enter (attended : state.Attended unordered n results)
    (found : state.threads[c]? = some .calling)
    (fair : state.it.items ≠ [] → state.it.length ≠ some state.it.index →
      state.notified < state.it.items.length) :
    (state.attempt c { state.moveTo c .asleep with
      it := { state.it with waiters := state.it.waiters ++ [c] } }).Attended
        unordered n results := by
  have sleeping := count_set .asleep found .idle
  have calling := count_set .calling found .idle
  simp only [reduceCtorEq, if_false, if_true, Nat.add_zero] at sleeping calling
  unfold Consumers.attempt
  cases filled : state.it.items with
  | cons outcome items =>
      rw [IMapIterator.popleft_item filled]
      apply attended.take filled (asleep_set attended found nofun .idle)
      · intro more
        have fewer := fair (by simp [filled]) more
        simp only [notified, filled, List.length_cons] at fewer
        omega
      · simp only [notified]
        omega
  | nil =>
      by_cases complete : state.it.length = some state.it.index
      · rw [IMapIterator.popleft_exhausted filled complete]
        exact attended.exhaust filled complete (asleep_set attended found nofun .idle)
      · rw [IMapIterator.popleft_nothing filled complete]
        have more := count_set .asleep found .asleep
        simp only [reduceCtorEq, if_false, if_true, Nat.add_zero] at more
        have promised := attended.promised complete
        simp only [notified, filled, List.length_nil] at promised
        have fresh : c ∉ state.it.waiters := fun member => by
          have sleeps := attended.asleep c member
          rw [found] at sleeps
          cases sleeps
        exact {
          delivers := attended.delivers
          asleep := fun other member => by
            rcases List.mem_append.mp member with before | new
            · exact asleep_set attended found nofun .asleep other before
            · rw [List.mem_singleton.mp new]
              exact getElem?_set_found found .asleep
          distinct := List.nodup_append.mpr ⟨attended.distinct, by simp, by
            intro other member last new same
            rw [List.mem_singleton.mp new] at same
            exact fresh (same ▸ member)⟩
          timedOut := attended.timedOut
          promised := fun _ => by
            simp only [notified, moveTo, filled, List.length_append, List.length_singleton,
              List.length_nil]
            omega
          covered := fun _ => ⟨complete, by simp [filled]⟩ }

theorem Attended.wake (attended : state.Attended unordered n results)
    (found : state.threads[c]? = some .asleep) (awoken : c ∉ state.it.waiters) :
    (state.attempt c { state.moveTo c .idle with
      timedOut := state.timedOut ++ [c] }).Attended unordered n results := by
  have sleeping := count_set .asleep found .idle
  have calling := count_set .calling found .idle
  simp only [reduceCtorEq, if_false, if_true, Nat.add_zero] at sleeping calling
  have below := attended.waiters_lt found awoken
  have others : ∀ other ∈ state.it.waiters,
      (state.threads.set c .idle)[other]? = some .asleep := by
    intro other member
    have differs : c ≠ other := fun same => awoken (same ▸ member)
    rw [List.getElem?_set_ne differs]
    exact attended.asleep other member
  unfold Consumers.attempt
  cases filled : state.it.items with
  | cons outcome items =>
      rw [IMapIterator.popleft_item filled]
      apply attended.take filled others
      · intro more
        have promised := attended.promised more
        simp only [notified, filled, List.length_cons] at promised
        omega
      · simp only [notified]
        omega
  | nil =>
      by_cases complete : state.it.length = some state.it.index
      · rw [IMapIterator.popleft_exhausted filled complete]
        exact attended.exhaust filled complete others
      · -- there is an item for whoever was notified
        have promised := attended.promised complete
        simp only [notified, filled, List.length_nil] at promised
        omega

theorem hush_setResult (it : IMapIterator α) (i : Nat) :
    setResult unordered results it.hush i =
      ((setResult unordered results it i).1.hush, (setResult unordered results it i).2) := by
  unfold setResult
  split
  · exact it.hush_setUnordered (results i)
  · exact it.hush_set (.position i) (results i)

theorem Delivers.arrive (delivers : state.Delivers unordered n results) (inside : i < n)
    (missing : i ∉ state.arrived) :
    Delivers unordered n results { state with
      it := (setResult unordered results state.it i).1
      raised := (setResult unordered results state.it i).2
      arrived := state.arrived ++ [i] } := by
  obtain ⟨stopped, deletions, invariant⟩ := delivers
  have arrives : ({ state.delivery stopped deletions with arrived := state.arrived ++ [i] }.store
      (setResult unordered results state.it.hush i)).Invariant unordered n results := by
    cases unordered with
    | true => exact invariant.arriveUnordered inside missing
    | false =>
        by_cases same : i = state.it.index
        · subst same
          exact invariant.arriveNext inside missing
        · exact invariant.arriveEarly inside missing same
  rw [hush_setResult] at arrives
  exact ⟨stopped, _, arrives⟩

theorem Delivers.setLength (delivers : state.Delivers unordered n results)
    (unknown : state.it.length = none) :
    Delivers unordered n results { state with
      it := (state.it.setLength n).1
      raised := (state.it.setLength n).2 } := by
  obtain ⟨stopped, deletions, invariant⟩ := delivers
  have sets := invariant.setLength unknown
  change ((state.delivery stopped deletions).store (state.it.hush.setLength n)).Invariant
    unordered n results at sets
  rw [IMapIterator.hush_setLength] at sets
  exact ⟨stopped, _, sets⟩

theorem length_takeWhile_range' {among : Nat → Bool} {start total : Nat} (k : Nat)
    (within : k ≤ total) (all : ∀ j, start ≤ j → j < start + k → among j = true)
    (last : k < total → among (start + k) = false) :
    ((List.range' start total).takeWhile among).length = k := by
  induction k generalizing start total with
  | zero =>
      cases total with
      | zero => rfl
      | succ total =>
          have none_ : among start = false := last (Nat.succ_pos total)
          simp [List.range'_succ, none_]
  | succ k ih =>
      cases total with
      | zero => omega
      | succ total =>
          have first := all start (Nat.le_refl _) (by omega)
          have rest := @ih (start + 1) total (by omega)
            (fun j low high => all j (by omega) (by omega))
            (fun more => by rw [Nat.add_assoc, Nat.add_comm 1 k]; exact last (by omega))
          rw [List.range'_succ, List.takeWhile_cons, if_pos first, List.length_cons, rest]

theorem complete_frame (it : IMapIterator α) :
    it.complete.1.items = it.items ∧ it.complete.1.index = it.index ∧
      it.complete.1.length = it.length ∧ it.complete.1.waiters = it.waiters := by
  unfold IMapIterator.complete
  split
  · split <;> exact ⟨rfl, rfl, rfl, rfl⟩
  · exact ⟨rfl, rfl, rfl, rfl⟩

/-- What `_set` hands over, with one notification if it is anything. -/
theorem setResult_spec (delivers : state.Delivers unordered n results) (inside : i < n)
    (missing : i ∉ state.arrived) :
    ∃ new : List (Outcome α), new.length = state.released unordered n i ∧
      (setResult unordered results state.it i).1.items = state.it.items ++ new ∧
      (setResult unordered results state.it i).1.index = state.it.index + new.length ∧
      (setResult unordered results state.it i).1.length = state.it.length ∧
      (setResult unordered results state.it i).1.waiters =
        if new = [] then state.it.waiters else state.it.waiters.tail := by
  obtain ⟨stopped, deletions, invariant⟩ := delivers
  unfold setResult released
  cases unordered with
  | true =>
      obtain ⟨items, index, length, waiters⟩ :=
        complete_frame ((state.it.append (results i)).notify)
      exact ⟨[results i], rfl, items, index, length, waiters⟩
  | false =>
      simp only [Bool.false_eq_true, if_false]
      by_cases same : i = state.it.index
      · subst same
        obtain ⟨keeps, _, all⟩ : state.it.Keeps results state.arrived ∧
          state.it.index ∉ state.arrived ∧ ∀ i < state.it.index, i ∈ state.arrived :=
            invariant.placed
        obtain ⟨k, unsorted, drained, _, last, more⟩ := IMapIterator.drain_spec _
          (Nat.le_refl _) (keeps.append missing (results state.it.index))
        simp only [IMapIterator.append, List.mem_append, List.mem_singleton] at last more
        have here : ∀ j, state.it.index + 1 ≤ j → j < state.it.index + 1 + k →
            j ∈ state.arrived := by
          intro j low high
          exact (more j low high).resolve_right (by omega)
        have within : state.it.index + 1 + k ≤ n := by
          by_contra beyond
          have bound : ∀ j ∈ state.arrived, j < n := invariant.arrival.bounded
          have reached := bound n (here n (by omega) (by omega))
          omega
        have held : ((List.range' (state.it.index + 1) (n - (state.it.index + 1))).takeWhile
            (state.arrived.contains ·)).length = k := by
          refine length_takeWhile_range' k (by omega) ?_ ?_
          · intro j low high
            exact List.contains_iff_mem.mpr (here j low high)
          · intro _
            simpa using fun member => last (.inl member)
        obtain ⟨items, index, length, waiters⟩ := complete_frame
          ((state.it.append (results state.it.index)).drain
            (state.it.append (results state.it.index)).unsorted.length).notify
        simp only [IMapIterator.set, if_true]
        refine ⟨results state.it.index ::
          (List.range' (state.it.index + 1) k).map results, ?_, ?_, ?_, ?_, ?_⟩
        · rw [held, List.length_cons, List.length_map, List.length_range']
          omega
        · rw [items, IMapIterator.notify, drained]
          simp [IMapIterator.append]
        · rw [index, IMapIterator.notify, drained]
          simp only [IMapIterator.append, List.length_cons, List.length_map, List.length_range']
          omega
        · rw [length, IMapIterator.notify, drained]
          rfl
        · rw [waiters, IMapIterator.notify, drained]
          rfl
      · have different : (Index.position i) ≠ .position state.it.index := by simpa using same
        obtain ⟨items, index, length, waiters⟩ :=
          complete_frame (state.it.keep (.position i) (results i))
        simp only [IMapIterator.set, if_neg different, reduceCtorEq, if_false, if_neg same]
        exact ⟨[], rfl, items.trans (List.append_nil _).symm, index, length, waiters⟩

theorem Attended.arrive (attended : state.Attended unordered n results) (inside : i < n)
    (missing : i ∉ state.arrived) (fair : state.Fair unordered n (.arrive i)) :
    Attended unordered n results { state with
      it := (setResult unordered results state.it i).1
      raised := (setResult unordered results state.it i).2
      arrived := state.arrived ++ [i] } := by
  have delivers := attended.delivers.arrive inside missing
  have unfinished : state.it.length ≠ some state.it.index := by
    obtain ⟨stopped, deletions, invariant⟩ := attended.delivers
    exact invariant.unfinished inside missing
  have completes : (setResult unordered results state.it i).1.length =
      some (setResult unordered results state.it i).1.index ↔
        (setResult unordered results state.it i).1.length.isSome = true ∧
          state.arrived.length + 1 = n := by
    obtain ⟨stopped, deletions, invariant⟩ := delivers
    have complete := invariant.complete_iff
    simp only [delivery, List.length_append, List.length_singleton] at complete
    exact complete
  obtain ⟨new, many, items, index, length, waiters⟩ :=
    setResult_spec attended.delivers inside missing
  have promised := attended.promised unfinished
  have below := attended.waiters_le
  rw [length] at completes
  by_cases nothing : new = []
  · rw [nothing, List.length_nil, Nat.add_zero] at index
    rw [if_pos nothing] at waiters
    rw [nothing, List.append_nil] at items
    exact {
      delivers := delivers
      asleep := by rw [waiters]; exact attended.asleep
      distinct := by rw [waiters]; exact attended.distinct
      timedOut := attended.timedOut
      promised := fun _ => by simpa only [notified, waiters, items] using promised
      covered := fun some_ => by
        simp only [waiters] at some_
        simpa only [notified, waiters, items, length, index] using attended.covered some_ }
  · rw [if_neg nothing] at waiters
    have positive := List.length_pos_iff.mpr nothing
    have fewer : state.it.waiters.tail.length = state.it.waiters.length - 1 := List.length_tail
    exact {
      delivers := delivers
      asleep := by
        rw [waiters]
        exact fun other member => attended.asleep other (List.mem_of_mem_tail member)
      distinct := by
        rw [waiters]
        exact attended.distinct.sublist (List.tail_sublist _)
      timedOut := attended.timedOut
      promised := fun _ => by
        simp only [notified, waiters, items, List.length_append, fewer] at promised ⊢
        omega
      covered := fun some_ => by
        simp only [waiters] at some_
        have several := List.length_pos_iff.mpr some_
        -- more than one waits, so there is no more than can be taken
        obtain ⟨more, room⟩ := Or.resolve_left fair (by omega)
        refine ⟨fun complete => more (completes.mp (length ▸ complete)), ?_⟩
        simp only [notified, waiters, items, List.length_append, fewer] at room ⊢
        omega }

theorem Attended.setLength (attended : state.Attended unordered n results)
    (unknown : state.it.length = none) (fair : state.Fair unordered n .setLength) :
    Attended unordered n results { state with
      it := (state.it.setLength n).1
      raised := (state.it.setLength n).2 } := by
  have delivers := attended.delivers.setLength unknown
  have all : state.it.index = n ↔ state.arrived.length = n := by
    obtain ⟨stopped, deletions, invariant⟩ := attended.delivers
    exact invariant.index_eq_iff
  have promised := attended.promised (by simp [unknown])
  have below := attended.waiters_le
  by_cases last : state.it.index = n
  · obtain ⟨items, index, length, waiters⟩ :=
      complete_frame { state.it with length := some n }.notify
    have result : state.it.setLength n =
        { state.it with length := some n }.notify.complete := by
      simp only [IMapIterator.setLength, if_pos last]
    rw [result] at delivers ⊢
    have awake : state.it.waiters.tail = [] := by
      apply List.eq_nil_of_length_eq_zero
      have few := fair (all.mp last)
      rw [List.length_tail]
      omega
    have none_ : { state.it with length := some n }.notify.complete.1.waiters = [] :=
      waiters.trans awake
    exact {
      delivers := delivers
      asleep := by
        rw [none_]
        exact fun other member => absurd member List.not_mem_nil
      distinct := by rw [none_]; exact List.nodup_nil
      timedOut := attended.timedOut
      promised := fun more => by
        refine absurd ?_ more
        rw [length, index]
        exact congrArg some last.symm
      covered := fun some_ => absurd none_ some_ }
  · have result : state.it.setLength n = ({ state.it with length := some n }, none) := by
      simp only [IMapIterator.setLength, if_neg last]
    rw [result] at delivers ⊢
    exact {
      delivers := delivers
      asleep := attended.asleep
      distinct := attended.distinct
      timedOut := attended.timedOut
      promised := fun _ => promised
      covered := fun some_ =>
        ⟨fun complete => last (Option.some.inj complete).symm, (attended.covered some_).2⟩ }

theorem Attended.step (label : ConsumersStep) {next : Consumers α}
    (attended : state.Attended unordered n results) (fair : state.Fair unordered n label)
    (taken : step unordered n results state label = some next) :
    next.Attended unordered n results := by
  unfold Consumers.step at taken
  split at taken
  · cases taken
  cases label with
  | arrive i =>
      obtain ⟨⟨inside, missing⟩, rfl⟩ :=
        (Option.ite_none_right_eq_some.mp taken).imp_right Option.some.inj
      exact attended.arrive inside missing fair
  | setLength =>
      obtain ⟨unknown, rfl⟩ :=
        (Option.ite_none_right_eq_some.mp taken).imp_right Option.some.inj
      exact attended.setLength unknown fair
  | call c =>
      obtain ⟨found, rfl⟩ := (Option.ite_none_right_eq_some.mp taken).imp_right Option.some.inj
      exact attended.call found
  | enter c =>
      obtain ⟨found, rfl⟩ := (Option.ite_none_right_eq_some.mp taken).imp_right Option.some.inj
      exact attended.enter found fair
  | wake c =>
      obtain ⟨⟨found, awoken⟩, rfl⟩ :=
        (Option.ite_none_right_eq_some.mp taken).imp_right Option.some.inj
      exact attended.wake found awoken

/-- As long as every step is fair, the consumers get along. -/
theorem served_of_fair (unordered : Bool) (n : Nat) (results : Nat → Outcome α)
    (consumers job lostWorkerTimeout : Nat) {labels : List ConsumersStep}
    (fair : Along (step unordered n results) (Fair unordered n)
      (init consumers job lostWorkerTimeout) labels)
    (ran : run (step unordered n results) (init consumers job lostWorkerTimeout) labels =
      some state) : state.Served n := by
  have kept : Preserves (step unordered n results) (Fair unordered n)
      (Attended unordered n results) :=
    fun _ label _ attended fair taken => Attended.step label attended fair taken
  exact (invariant_along kept (init_attended consumers job lostWorkerTimeout) fair ran).served

theorem served_twoConsumers :
    ∃ state : Consumers Nat,
      run (step false 2 .success) (init 2 0 10) [.call 0, .enter 0, .call 1, .enter 1, .arrive 0,
        .wake 0, .arrive 1, .wake 1, .setLength] = some state ∧
      state.received = [.success 0, .success 1] ∧ state.Served 2 := by
  have ran : run (step false 2 .success) (init 2 0 10 : Consumers Nat) [.call 0, .enter 0,
      .call 1, .enter 1, .arrive 0, .wake 0, .arrive 1, .wake 1, .setLength] = some _ := rfl
  exact ⟨_, ran, rfl, served_of_fair false 2 .success 2 0 10 (by decide) ran⟩

/-- An item is taken before the consumer that was notified of it wakes up; two items come with one
notification; and the end of the items is told to one of two consumers. -/
theorem not_served :
    (∃ state : Consumers Nat,
      run (step true 2 .success) (init 2 0 10) [.call 0, .enter 0, .arrive 0, .call 1, .enter 1,
        .wake 0] = some state ∧ state.timedOut = [0] ∧ ¬state.Served 2) ∧
    (∃ state : Consumers Nat,
      run (step false 3 .success) (init 2 0 10) [.call 0, .enter 0, .call 1, .enter 1, .arrive 1,
        .arrive 0] = some state ∧ state.it.items.length = 2 ∧ ¬state.Served 3) ∧
    ∃ state : Consumers Nat,
      run (step true 1 .success) (init 2 0 10) [.setLength, .call 0, .enter 0, .call 1, .enter 1,
        .arrive 0, .wake 0] = some state ∧ state.received = [.success 0] ∧ ¬state.Served 1 := by
  refine ⟨⟨_, rfl, rfl, fun served => ?_⟩, ⟨_, rfl, rfl, fun served => ?_⟩,
    ⟨_, rfl, rfl, fun served => ?_⟩⟩
  · exact absurd served.timedOut (by decide)
  · exact absurd (served.taken (by decide)) (by decide)
  · exact absurd (served.ended rfl rfl) (by decide)

end Consumers

end Billiard
