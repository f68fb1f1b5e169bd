import Billiard.Data.Arrival
import Billiard.Data.Transition
import Billiard.Pool.IMapIterator

/-! One consumer of an `imap` or `imap_unordered`: the results and the length
arrive in any order while it calls `next`. -/

namespace Billiard

open Transition

inductive Consumer where
  | idle
  | waiting (timed : Bool)
deriving DecidableEq

/-- `arrived` are the indices passed to `_set` so far, `received` is what `next`
has returned or raised for them, `stopped` tells that it raised `StopIteration`. -/
structure Delivery (α : Type u) where
  it : IMapIterator α
  arrived : List Nat
  consumer : Consumer
  received : List (Outcome α)
  stopped : Bool
  deletions : Nat
  raised : Option Raised

inductive DeliveryStep where
  | arrive (i : Nat)
  | setLength
  | next (timed : Bool)
  | wake
  | timeOut
deriving DecidableEq

namespace Delivery

def init (job lostWorkerTimeout : Nat) : Delivery α :=
  ⟨.init job lostWorkerTimeout, [], .idle, [], false, 0, none⟩

def store (delivery : Delivery α) (result : IMapIterator α × Option Raised) : Delivery α :=
  { delivery with
    it := result.1
    deletions := delivery.deletions + if delivery.it.cached && !result.1.cached then 1 else 0
    raised := result.2 }

/-- An attempt of `next` to take an item; `blocked` is what follows if there is
none and more are to come. -/
def attempt (delivery : Delivery α) (blocked : Delivery α) : Delivery α :=
  match delivery.it.popleft with
  | (it, .item outcome) =>
      { delivery with it, consumer := .idle, received := delivery.received ++ [outcome] }
  | (it, .exhausted) => { delivery with it, consumer := .idle, stopped := true }
  | (_, .nothing) => blocked

variable (unordered : Bool) (n : Nat) (results : Nat → Outcome α)

def step (delivery : Delivery α) (label : DeliveryStep) : Option (Delivery α) :=
  if delivery.raised.isSome then none
  else match label with
  | .arrive i =>
      if i < n ∧ i ∉ delivery.arrived then
        let result :=
          if unordered then delivery.it.setUnordered (results i)
          else delivery.it.set (.position i) (results i)
        some ({ delivery with arrived := delivery.arrived ++ [i] }.store result)
      else none
  | .setLength =>
      if delivery.it.length = none then some (delivery.store (delivery.it.setLength n)) else none
  | .next timed =>
      match delivery.consumer with
      | .idle =>
          let asleep := { delivery.it with waiters := delivery.it.waiters ++ [0] }
          some (delivery.attempt { delivery with it := asleep, consumer := .waiting timed })
      | .waiting _ => none
  | .wake =>
      match delivery.consumer with
      | .waiting _ =>
          -- finding nothing here raises `TimeoutError` whether or not a timeout was given
          if delivery.it.waiters = [] then
            some (delivery.attempt { delivery with consumer := .idle })
          else none
      | .idle => none
  | .timeOut =>
      match delivery.consumer with
      | .waiting true =>
          let delivery := { delivery with
            it := { delivery.it with waiters := delivery.it.waiters.erase 0 } }
          some (delivery.attempt { delivery with consumer := .idle })
      | _ => none

/-- The indices in the order in which their results are handed out. -/
def order (delivery : Delivery α) : List Nat :=
  if unordered then delivery.arrived else List.range delivery.it.index

/-- How far the iterator has got with the results that have arrived. -/
def Placed (it : IMapIterator α) (arrived : List Nat) : Prop :=
  if unordered then it.index = arrived.length
  else it.Keeps results arrived ∧ it.index ∉ arrived ∧ ∀ i < it.index, i ∈ arrived

/-- A consumer that nobody has notified has nothing to take. -/
def Rests (it : IMapIterator α) : Consumer → Prop
  | .idle => it.waiters = []
  | .waiting _ =>
      it.waiters = [] ∧ (it.items ≠ [] ∨ it.length = some it.index) ∨
        it.waiters = [0] ∧ it.items = [] ∧ it.length ≠ some it.index

structure Invariant (delivery : Delivery α) : Prop where
  faultless : delivery.raised = none
  arrival : Arrival n delivery.arrived
  placed : Placed unordered results delivery.it delivery.arrived
  handed : delivery.received ++ delivery.it.items = (delivery.order unordered).map results
  length : delivery.it.length = none ∨ delivery.it.length = some n
  cached : delivery.it.cached = true ↔ delivery.it.length ≠ some delivery.it.index
  deletions : delivery.deletions = if delivery.it.cached then 0 else 1
  rests : Rests delivery.it delivery.consumer
  stopped : delivery.stopped = true →
    delivery.it.items = [] ∧ delivery.it.length = some delivery.it.index

theorem init_invariant (job lostWorkerTimeout : Nat) :
    Invariant unordered n results (init job lostWorkerTimeout) := by
  constructor
  case arrival => exact .nil n
  all_goals simp [init, IMapIterator.init, Placed, order, Rests, IMapIterator.Keeps]

variable {unordered n results} {delivery : Delivery α}

theorem Invariant.index_eq_iff (invariant : Invariant unordered n results delivery) :
    delivery.it.index = n ↔ delivery.arrived.length = n := by
  have placed := invariant.placed
  unfold Placed at placed
  split at placed
  · rw [placed]
  · obtain ⟨_, fresh, all⟩ := placed
    constructor
    · intro last
      exact invariant.arrival.length_eq_iff.mpr (last ▸ all)
    · intro full
      have low : n ≤ delivery.it.index := by
        apply Nat.le_of_not_lt
        intro inside
        exact fresh (invariant.arrival.length_eq_iff.mp full _ inside)
      have high : delivery.it.index ≤ n := by
        apply Nat.le_of_not_lt
        intro beyond
        exact Nat.lt_irrefl n (invariant.arrival.bounded n (all n beyond))
      omega

theorem Invariant.complete_iff (invariant : Invariant unordered n results delivery) :
    delivery.it.length = some delivery.it.index ↔
      delivery.it.length.isSome ∧ delivery.arrived.length = n := by
  rw [← invariant.index_eq_iff]
  cases invariant.length with
  | inl unknown => simp [unknown]
  | inr known => simp [known, eq_comm]

theorem Invariant.unfinished (invariant : Invariant unordered n results delivery) {i : Nat}
    (inside : i < n) (missing : i ∉ delivery.arrived) :
    delivery.it.length ≠ some delivery.it.index := by
  intro complete
  have full := (invariant.complete_iff.mp complete).2
  have short := invariant.arrival.length_lt inside missing
  omega

/-- There is one consumer. -/
theorem Rests.waiters {it : IMapIterator α} {consumer : Consumer} (rests : Rests it consumer) :
    it.waiters = [] ∨ it.waiters = [0] := by
  cases consumer with
  | idle => exact .inl rests
  | waiting timed => exact rests.imp (fun notified => notified.1) (fun asleep => asleep.1)

/-- Whom a result or the length notifies. -/
theorem Rests.notified {it : IMapIterator α} {consumer : Consumer} (rests : Rests it consumer) :
    it.waiters.tail = [] := by
  cases rests.waiters with
  | inl none_ => simp [none_]
  | inr one => simp [one]

/-- The consumer has left its sleep and looks again. -/
def awake (delivery : Delivery α) : Delivery α :=
  { delivery with it := { delivery.it with waiters := [] }, consumer := .idle }

def asleep (delivery : Delivery α) (timed : Bool) : Delivery α :=
  { delivery with it := { delivery.it with waiters := [0] }, consumer := .waiting timed }

theorem awake_eq (none_ : delivery.it.waiters = []) :
    { delivery with consumer := .idle } = delivery.awake := by
  unfold awake
  rw [← none_]

theorem attempt_awake (none_ : delivery.it.waiters = []) (blocked : Delivery α) :
    delivery.attempt blocked = delivery.awake.attempt blocked := by
  rw [← awake_eq none_]
  rfl

/-- Each step of the consumer is an attempt; where it finds nothing, a call of `next` falls
asleep and the other two raise. -/
theorem consume_cases {label : DeliveryStep} {next : Delivery α}
    (rests : Rests delivery.it delivery.consumer)
    (consumes : label = .wake ∨ label = .timeOut ∨ ∃ timed, label = .next timed)
    (taken : Delivery.step unordered n results delivery label = some next) :
    ∃ blocked, next = delivery.awake.attempt blocked ∧
      (blocked = delivery.awake ∨ ∃ timed, blocked = delivery.asleep timed) := by
  unfold Delivery.step at taken
  split at taken
  · cases taken
  obtain rfl | rfl | ⟨timed, rfl⟩ := consumes
  · simp only at taken
    split at taken
    · simp only [Option.ite_none_right_eq_some, Option.some.injEq] at taken
      obtain ⟨none_, rfl⟩ := taken
      exact ⟨_, attempt_awake none_ _, .inl (awake_eq none_)⟩
    · cases taken
  · simp only at taken
    split at taken
    · cases taken
      have none_ : delivery.it.waiters.erase 0 = [] := by
        cases rests.waiters with
        | inl none_ => simp [none_]
        | inr one => simp [one]
      rw [none_]
      exact ⟨_, rfl, .inl rfl⟩
    · cases taken
  · simp only at taken
    split at taken
    · rename_i idle
      cases taken
      rw [idle] at rests
      have none_ : delivery.it.waiters = [] := rests
      rw [none_]
      exact ⟨_, attempt_awake none_ _, .inr ⟨timed, rfl⟩⟩
    · cases taken

theorem rests_of_filled {it : IMapIterator α} {consumer : Consumer} (awake : it.waiters = [])
    (filled : it.items ≠ []) : Rests it consumer := by
  cases consumer with
  | idle => exact awake
  | waiting timed => exact .inl ⟨awake, .inl filled⟩

theorem Invariant.deliver (invariant : Invariant unordered n results delivery)
    (new : List Nat) (unsorted : List (Index × Outcome α)) {arrived : List Nat}
    {it : IMapIterator α}
    (appended : it = { delivery.it with
      items := delivery.it.items ++ new.map results
      index := delivery.it.index + new.length
      unsorted
      waiters := delivery.it.waiters.tail })
    (some_new : new ≠ []) (unfinished : delivery.it.length ≠ some delivery.it.index)
    (arrival : Arrival n arrived)
    (placed : Placed unordered results it arrived)
    (order : (if unordered then arrived else List.range it.index) =
      delivery.order unordered ++ new) :
    Invariant unordered n results ({ delivery with arrived }.store it.complete) := by
  have cachedBefore : delivery.it.cached = true := invariant.cached.mpr unfinished
  have cached : it.cached = true := by rw [appended]; exact cachedBefore
  have running : delivery.stopped = false := by
    cases stopped : delivery.stopped with
    | false => rfl
    | true => exact absurd (invariant.stopped stopped).2 unfinished
  have awake : it.waiters = [] := by
    rw [appended]
    exact invariant.rests.notified
  have filled : it.items ≠ [] := by
    rw [appended]
    simp [some_new]
  have handed : delivery.received ++ it.items = (delivery.order unordered ++ new).map results := by
    rw [List.map_append, ← invariant.handed, appended, List.append_assoc]
  have deletions := invariant.deletions
  rw [IMapIterator.complete_of_cached cached]
  split
  · rename_i last
    exact {
      faultless := rfl
      arrival := arrival
      placed := placed
      handed := by simpa only [store, Delivery.order, order] using handed
      length := by
        have length := invariant.length
        simpa [store, appended] using length
      cached := by simp [store, last]
      deletions := by simpa [store, cachedBefore] using deletions
      rests := rests_of_filled awake filled
      stopped := fun stopped => absurd (running.symm.trans stopped) nofun }
  · rename_i more
    exact {
      faultless := rfl
      arrival := arrival
      placed := placed
      handed := by simpa only [store, Delivery.order, order] using handed
      length := by
        have length := invariant.length
        simpa [store, appended] using length
      cached := by simp [store, more, cached]
      deletions := by simpa [store, cachedBefore, cached] using deletions
      rests := rests_of_filled awake filled
      stopped := fun stopped => absurd (running.symm.trans stopped) nofun }

theorem Invariant.arriveUnordered (invariant : Invariant true n results delivery) {i : Nat}
    (inside : i < n) (missing : i ∉ delivery.arrived) :
    Invariant true n results ({ delivery with arrived := delivery.arrived ++ [i] }.store
      (delivery.it.setUnordered (results i))) := by
  have placed : delivery.it.index = delivery.arrived.length := invariant.placed
  apply invariant.deliver [i] delivery.it.unsorted
  · simp [IMapIterator.append, IMapIterator.notify]
  · simp
  · exact invariant.unfinished inside missing
  · exact invariant.arrival.concat inside missing
  · simp [Placed, IMapIterator.append, IMapIterator.notify, placed]
  · simp [order]

theorem Invariant.arriveNext (invariant : Invariant false n results delivery)
    (inside : delivery.it.index < n) (missing : delivery.it.index ∉ delivery.arrived) :
    Invariant false n results
      ({ delivery with arrived := delivery.arrived ++ [delivery.it.index] }.store
        (delivery.it.set (.position delivery.it.index) (results delivery.it.index))) := by
  obtain ⟨keeps, _, all⟩ : delivery.it.Keeps results delivery.arrived ∧
      delivery.it.index ∉ delivery.arrived ∧ ∀ i < delivery.it.index, i ∈ delivery.arrived :=
    invariant.placed
  obtain ⟨count, unsorted, drained, after, last, more⟩ :=
    IMapIterator.drain_spec _ (Nat.le_refl _) (keeps.append missing (results delivery.it.index))
  simp only [IMapIterator.set, if_pos]
  simp only [IMapIterator.append] at last more
  apply invariant.deliver (List.range' delivery.it.index (count + 1)) unsorted
  · rw [drained]
    simp [IMapIterator.append, IMapIterator.notify, List.range'_succ, Nat.add_assoc,
      Nat.add_comm 1 count]
  · simp
  · exact invariant.unfinished inside missing
  · exact invariant.arrival.concat inside missing
  · refine ⟨after, ?_, ?_⟩
    · rw [drained]
      exact last
    · rw [drained]
      intro i low
      simp only [IMapIterator.append, IMapIterator.notify] at low
      rw [List.mem_append]
      cases Nat.lt_trichotomy i delivery.it.index with
      | inl before => exact .inl (all i before)
      | inr rest =>
          cases rest with
          | inl same => exact .inr (same ▸ List.mem_singleton_self _)
          | inr beyond => exact List.mem_append.mp (more i beyond low)
  · rw [drained]
    simp only [IMapIterator.append, IMapIterator.notify, order, Bool.false_eq_true, if_false]
    rw [List.range_eq_range', List.range_eq_range', Nat.add_assoc, Nat.add_comm 1 count]
    simpa using (@List.range'_append 0 delivery.it.index (count + 1) 1).symm

theorem Invariant.arriveEarly (invariant : Invariant false n results delivery) {i : Nat}
    (inside : i < n) (missing : i ∉ delivery.arrived) (early : i ≠ delivery.it.index) :
    Invariant false n results ({ delivery with arrived := delivery.arrived ++ [i] }.store
      (delivery.it.set (.position i) (results i))) := by
  obtain ⟨keeps, fresh, all⟩ : delivery.it.Keeps results delivery.arrived ∧
      delivery.it.index ∉ delivery.arrived ∧ ∀ i < delivery.it.index, i ∈ delivery.arrived :=
    invariant.placed
  have beyond : delivery.it.index ≤ i := by
    apply Nat.le_of_not_lt
    intro before
    exact missing (all i before)
  have unfinished := invariant.unfinished inside missing
  have result : delivery.it.set (.position i) (results i) =
      (delivery.it.keep (.position i) (results i), none) := by
    have different : (Index.position i) ≠ .position delivery.it.index := by simpa using early
    simp [IMapIterator.set, different, IMapIterator.complete, IMapIterator.keep, unfinished]
  rw [result]
  exact {
    faultless := rfl
    arrival := invariant.arrival.concat inside missing
    placed := by
      refine ⟨keeps.keep missing beyond, ?_, ?_⟩
      · simp only [store, IMapIterator.keep, List.mem_append, List.mem_singleton, not_or]
        exact ⟨fresh, Ne.symm early⟩
      · intro j before
        exact List.mem_append_left _ (all j before)
    handed := invariant.handed
    length := invariant.length
    cached := invariant.cached
    deletions := by simpa [store, IMapIterator.keep] using invariant.deletions
    rests := by
      have rests := invariant.rests
      cases consumer : delivery.consumer <;>
        simpa [Rests, store, IMapIterator.keep, consumer] using rests
    stopped := invariant.stopped }

theorem Invariant.setLength (invariant : Invariant unordered n results delivery)
    (unknown : delivery.it.length = none) :
    Invariant unordered n results (delivery.store (delivery.it.setLength n)) := by
  have cached : delivery.it.cached = true := invariant.cached.mpr (by simp [unknown])
  have running : delivery.stopped = false := by
    cases stopped : delivery.stopped with
    | false => rfl
    | true => exact absurd (unknown.symm.trans (invariant.stopped stopped).2) nofun
  have rests := invariant.rests
  have deletions := invariant.deletions
  cases Nat.decEq delivery.it.index n with
  | isTrue last =>
    have result : delivery.it.setLength n = ({ delivery.it with
        length := some n
        isReady := true
        cached := false
        waiters := delivery.it.waiters.tail }, none) := by
      simp [IMapIterator.setLength, IMapIterator.notify, IMapIterator.complete, last, cached]
    rw [result]
    exact {
      faultless := rfl
      arrival := invariant.arrival
      placed := invariant.placed
      handed := invariant.handed
      length := .inr rfl
      cached := by simp [store, last]
      deletions := by simpa [store, cached] using deletions
      rests := by
        cases consumer : delivery.consumer with
        | idle => simp [Rests, store, consumer, rests.notified]
        | waiting timed => simp [Rests, store, consumer, rests.notified, last]
      stopped := fun stopped => absurd (running.symm.trans stopped) nofun }
  | isFalse more =>
    have different : (some n : Option Nat) ≠ some delivery.it.index := by
      simpa using Ne.symm more
    have result : delivery.it.setLength n = ({ delivery.it with length := some n }, none) := by
      simp [IMapIterator.setLength, more]
    rw [result]
    exact {
      faultless := rfl
      arrival := invariant.arrival
      placed := invariant.placed
      handed := invariant.handed
      length := .inr rfl
      cached := by simp [store, cached, different]
      deletions := by simpa [store, cached] using deletions
      rests := by
        cases consumer : delivery.consumer with
        | idle => simpa [Rests, store, consumer] using rests
        | waiting timed => simpa [Rests, store, consumer, unknown, different] using rests
      stopped := fun stopped => absurd (running.symm.trans stopped) nofun }

theorem Invariant.attempt {blocked : Delivery α}
    (invariant : Invariant unordered n results delivery) (idle : delivery.consumer = .idle)
    (otherwise : delivery.it.items = [] → delivery.it.length ≠ some delivery.it.index →
      Invariant unordered n results blocked) :
    Invariant unordered n results (delivery.attempt blocked) := by
  have rests := invariant.rests
  rw [idle] at rests
  cases items : delivery.it.items with
  | cons outcome rest =>
      simp only [Delivery.attempt, IMapIterator.popleft_item items]
      exact {
        invariant with
        handed := by
          have handed := invariant.handed
          simp only [items] at handed
          simpa [Delivery.order] using handed
        rests := rests
        stopped := fun stopped => by
          have nothing := (invariant.stopped stopped).1
          simp [items] at nothing }
  | nil =>
      cases Decidable.em (delivery.it.length = some delivery.it.index) with
      | inl complete =>
          simp only [Delivery.attempt, IMapIterator.popleft_exhausted items complete]
          exact {
            invariant with
            rests := rests
            stopped := fun _ => ⟨items, complete⟩ }
      | inr open_ =>
          simp only [Delivery.attempt, IMapIterator.popleft_nothing items open_]
          exact otherwise items open_

theorem Invariant.awake (invariant : Invariant unordered n results delivery) :
    Invariant unordered n results delivery.awake :=
  { invariant with rests := rfl }

theorem Invariant.consume {label : DeliveryStep} {next : Delivery α}
    (invariant : Invariant unordered n results delivery)
    (consumes : label = .wake ∨ label = .timeOut ∨ ∃ timed, label = .next timed)
    (taken : Delivery.step unordered n results delivery label = some next) :
    Invariant unordered n results next := by
  obtain ⟨blocked, rfl, left⟩ := consume_cases invariant.rests consumes taken
  apply invariant.awake.attempt rfl
  intro items open_
  obtain rfl | ⟨timed, rfl⟩ := left
  · exact invariant.awake
  · exact { invariant with rests := .inr ⟨rfl, items, open_⟩ }

theorem Invariant.step (label : DeliveryStep) {next : Delivery α}
    (invariant : Invariant unordered n results delivery)
    (taken : Delivery.step unordered n results delivery label = some next) :
    Invariant unordered n results next := by
  cases label with
  | arrive i =>
      simp only [Delivery.step, Option.ite_none_left_eq_some, Option.ite_none_right_eq_some,
        Option.some.injEq] at taken
      obtain ⟨_, ⟨inside, missing⟩, rfl⟩ := taken
      cases unordered with
      | true => exact invariant.arriveUnordered inside missing
      | false =>
          cases Nat.decEq i delivery.it.index with
          | isTrue same =>
              subst same
              exact invariant.arriveNext inside missing
          | isFalse early => exact invariant.arriveEarly inside missing early
  | setLength =>
      simp only [Delivery.step, Option.ite_none_left_eq_some, Option.ite_none_right_eq_some,
        Option.some.injEq] at taken
      obtain ⟨_, unknown, rfl⟩ := taken
      exact invariant.setLength unknown
  | next timed => exact invariant.consume (.inr (.inr ⟨timed, rfl⟩)) taken
  | wake => exact invariant.consume (.inl rfl) taken
  | timeOut => exact invariant.consume (.inr (.inl rfl)) taken

/-- The indices in the order in which the consumer must receive their results. -/
def sequence (unordered : Bool) (n : Nat) (delivery : Delivery α) : List Nat :=
  if unordered then delivery.arrived else List.range n

def proceed (delivery : Delivery α) (timed : Bool) : DeliveryStep :=
  match delivery.consumer with
  | .idle => .next timed
  | .waiting _ => .wake

structure Correct (unordered : Bool) (n : Nat) (results : Nat → Outcome α)
    (delivery : Delivery α) : Prop where
  faultless : delivery.raised = none
  received : delivery.received <+: (sequence unordered n delivery).map results
  stopped : delivery.stopped = true →
    delivery.arrived.length = n ∧
      delivery.received = (sequence unordered n delivery).map results
  deleted_once : delivery.deletions =
    if delivery.it.length.isSome ∧ delivery.arrived.length = n then 1 else 0
  /-- What can be handed out is the next thing the consumer receives. -/
  receives : delivery.received.length < (delivery.order unordered).length → ∀ timed, ∃ next,
    Delivery.step unordered n results delivery (delivery.proceed timed) = some next ∧
      next.consumer = .idle ∧ next.received.length = delivery.received.length + 1
  stops : delivery.it.length.isSome → delivery.arrived.length = n →
    (delivery.order unordered).length = n ∧
      (delivery.received.length = n → ∀ timed, ∃ next,
        Delivery.step unordered n results delivery (delivery.proceed timed) = some next ∧
          next.consumer = .idle ∧ next.stopped = true)

theorem Invariant.order_length (invariant : Invariant unordered n results delivery) :
    (delivery.order unordered).length = delivery.it.index := by
  have placed := invariant.placed
  unfold Placed at placed
  unfold order
  split
  · rw [if_pos ‹_›] at placed
    exact placed.symm
  · exact List.length_range

theorem Invariant.received_length (invariant : Invariant unordered n results delivery) :
    delivery.received.length + delivery.it.items.length = delivery.it.index := by
  have same := congrArg List.length invariant.handed
  rwa [List.length_append, List.length_map, invariant.order_length] at same

theorem Invariant.index_le (invariant : Invariant unordered n results delivery) :
    delivery.it.index ≤ n := by
  have placed := invariant.placed
  unfold Placed at placed
  split at placed
  · exact placed ▸ invariant.arrival.length_le
  · apply Nat.le_of_not_lt
    intro beyond
    exact Nat.lt_irrefl n (invariant.arrival.bounded n (placed.2.2 n beyond))

theorem Invariant.order_prefix (invariant : Invariant unordered n results delivery) :
    delivery.order unordered <+: sequence unordered n delivery := by
  unfold order sequence
  split
  · exact List.prefix_rfl
  · obtain ⟨more, rfl⟩ := Nat.exists_eq_add_of_le invariant.index_le
    rw [List.range_add]
    exact List.prefix_append _ _

/-- A consumer that could take something is awake or has been notified. -/
theorem Invariant.proceeds (invariant : Invariant unordered n results delivery) (timed : Bool)
    (ready : delivery.it.items ≠ [] ∨ delivery.it.length = some delivery.it.index) :
    ∃ blocked, Delivery.step unordered n results delivery (delivery.proceed timed) =
      some (delivery.attempt blocked) := by
  have rests := invariant.rests
  cases consumer : delivery.consumer with
  | idle => simp [Delivery.step, proceed, invariant.faultless, consumer]
  | waiting since =>
      rw [consumer] at rests
      cases rests with
      | inl notified => simp [Delivery.step, proceed, invariant.faultless, consumer, notified.1]
      | inr asleep =>
          cases ready with
          | inl filled => exact absurd asleep.2.1 filled
          | inr complete => exact absurd complete asleep.2.2

theorem Invariant.correct (invariant : Invariant unordered n results delivery) :
    Correct unordered n results delivery where
  faultless := invariant.faultless
  received :=
    (invariant.handed ▸ List.prefix_append _ _).trans (invariant.order_prefix.map results)
  stopped := by
    intro stopped
    obtain ⟨nothing, complete⟩ := invariant.stopped stopped
    have full := (invariant.complete_iff.mp complete).2
    have last := invariant.index_eq_iff.mpr full
    have handed := invariant.handed
    rw [nothing, List.append_nil] at handed
    refine ⟨full, handed.trans ?_⟩
    simp only [order, sequence, last]
  deleted_once := by
    rw [invariant.deletions]
    simp only [← invariant.complete_iff]
    cases Decidable.em (delivery.it.length = some delivery.it.index) with
    | inl complete =>
        have gone : ¬delivery.it.cached = true := fun kept =>
          invariant.cached.mp kept complete
        rw [if_neg gone, if_pos complete]
    | inr open_ => rw [if_pos (invariant.cached.mpr open_), if_neg open_]
  receives := by
    intro behind timed
    rw [invariant.order_length, ← invariant.received_length] at behind
    cases items : delivery.it.items with
    | nil => simp [items] at behind
    | cons outcome rest =>
        obtain ⟨blocked, taken⟩ := invariant.proceeds timed (.inl (by simp [items]))
        exact ⟨_, taken, by simp [Delivery.attempt, IMapIterator.popleft_item items]⟩
  stops := by
    intro known full
    have last := invariant.index_eq_iff.mpr full
    have complete := invariant.complete_iff.mpr ⟨known, full⟩
    refine ⟨invariant.order_length.trans last, ?_⟩
    intro all timed
    have length := invariant.received_length
    have items : delivery.it.items = [] := by
      apply List.eq_nil_of_length_eq_zero
      omega
    obtain ⟨blocked, taken⟩ := invariant.proceeds timed (.inr complete)
    exact ⟨_, taken, by simp [Delivery.attempt, IMapIterator.popleft_exhausted items complete]⟩

theorem invariant_of_run (unordered : Bool) (n : Nat) (results : Nat → Outcome α)
    (job lostWorkerTimeout : Nat) {labels : List DeliveryStep} {delivery : Delivery α}
    (ran : run (Delivery.step unordered n results) (init job lostWorkerTimeout) labels =
      some delivery) : Invariant unordered n results delivery :=
  invariant_run (fun _ label _ invariant taken => Invariant.step label invariant taken)
    (init_invariant unordered n results job lostWorkerTimeout) ran

/-- The consumer of an `imap` receives the results in the order of their indices,
that of an `imap_unordered` in the order of their arrival, and `StopIteration`
after the last one. -/
theorem delivers (unordered : Bool) (n : Nat) (results : Nat → Outcome α)
    (job lostWorkerTimeout : Nat) {labels : List DeliveryStep} {delivery : Delivery α}
    (ran : run (Delivery.step unordered n results) (init job lostWorkerTimeout) labels =
      some delivery) : Correct unordered n results delivery :=
  (invariant_of_run unordered n results job lostWorkerTimeout ran).correct

/-- The second result arrives before the first, and the consumer loses nothing
by its timeout. -/
theorem delivers_after_timeOut :
    ∃ labels, ∃ delivery : Delivery Nat,
      run (Delivery.step false 2 fun i => .success (i + 10)) (init 0 10) labels = some delivery ∧
        Correct false 2 (fun i => .success (i + 10)) delivery ∧ delivery.stopped = true :=
  have ran : run (Delivery.step false 2 fun i => .success (i + 10)) (init 0 10)
      [.next true, .arrive 1, .timeOut, .next false, .arrive 0, .setLength, .wake, .next true,
        .next true] = some _ := rfl
  ⟨_, _, ran, delivers false 2 _ 0 10 ran, rfl⟩

end Delivery

end Billiard
