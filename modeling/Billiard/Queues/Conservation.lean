import Billiard.Data.Tally
import Billiard.Data.Transition
import Billiard.Queues.Queue

/-! What a shared `Queue` keeps: every object that was put is delivered, in the pipe, in the
hand of a feeder or in a buffer, in the order in which its process put it. -/

namespace Billiard

open Transition

variable {α : Type u}

/-- The steps of a call that raises `Full` or `Empty`. -/
def QueueStep.isQuiet : QueueStep α → Bool
  | .put _ _ _ | .full _ | .get _ _ | .lock _ | .empty _ => true
  | _ => false

namespace Caller

def holding (caller : Caller α) : Nat :=
  match caller.stage with
  | .reading _ | .received _ _ | .released _ => 1
  | _ => 0

/-- It has passed the semaphore and has not put its object. -/
def entering (caller : Caller α) : Nat :=
  match caller.stage with
  | .admitted _ => 1
  | _ => 0

/-- It has read an object and has not released the semaphore. -/
def owing (caller : Caller α) : Nat :=
  match caller.stage with
  | .received _ _ | .unlocked _ => 1
  | _ => 0

end Caller

namespace QueueState

/-- All but what a call knows of itself and the lock that it takes and leaves. -/
def contents (state : QueueState α) : QueueState α := { state with callers := [], rlock := false }

structure Sound (state : QueueState α) : Prop where
  conserved : ∀ (number : Nat) (process : QueueProcess α),
    state.processes[number]? = some process →
    lane number state.accepted = lane number state.delivered ++ lane number state.pipe ++
      process.feeder.hand ++ process.buffered
  bounded : state.accepted.length ≤ state.released + state.maxsize
  flushed : ∀ (number : Nat) (process : QueueProcess α),
    state.processes[number]? = some process → process.feeder = .finished →
    process.closing = some (lane number state.delivered ++ lane number state.pipe)
  quiet : ∀ label next, state.step label = some next → label.isQuiet = true →
    next.contents = state.contents
  locked : tally Caller.holding state.callers = state.rlock.toNat
  faultless : state.faults = 0

/-- The feeder that sends has its end of the pipe, and some process has the other end. -/
def Heard (state : QueueState α) : QueueStep α → Prop
  | .send number => state.processes[number]?.any state.writable = true
  | _ => True

end QueueState

/-- What a process has put, what it has sent, and what is in between. -/
structure QueueProcess.Flows (process : QueueProcess α) (accepted sent : List α) : Prop where
  conserved : accepted = sent ++ process.feeder.hand ++ process.buffered
  absent : process.feeder = .absent →
    process.buffer = [] ∧ process.finalizer = false ∧ process.closing = none
  opened : process.closing = none → none ∉ process.buffer ∧ process.feeder ≠ .finished
  closing : ∀ objs, process.closing = some objs → process.finalizer = false ∧
    ((process.feeder = .finished ∧ sent = objs) ∨
      (process.feeder ≠ .finished ∧ ∃ front back, process.buffer = front ++ none :: back ∧
        none ∉ front ∧ none ∉ back ∧
        sent ++ process.feeder.hand ++ front.filterMap id = objs))
  alive : process.feeder ≠ .crashed

def QueueProcess.load (process : QueueProcess α) : Nat :=
  process.feeder.hand.length + process.buffered.length

structure QueueState.Invariant (state : QueueState α) : Prop where
  flows : ∀ (number : Nat) (process : QueueProcess α),
    state.processes[number]? = some process →
    process.Flows (lane number state.accepted) (lane number state.sent)
  known : ∀ entry ∈ state.accepted ++ state.sent, entry.1 < state.processes.length
  counted : state.accepted.length = state.sent.length + tally QueueProcess.load state.processes
  capacity : state.sem + tally Caller.entering state.callers + state.accepted.length =
    state.maxsize + state.released
  releases : state.released + tally Caller.owing state.callers = state.delivered.length
  locked : tally Caller.holding state.callers = state.rlock.toNat
  faultless : state.faults = 0

namespace QueueProcess

namespace Flows

variable {process : QueueProcess α} {accepted sent : List α} {obj : α}

theorem new : (QueueProcess.new : QueueProcess α).Flows [] [] where
  conserved := rfl
  absent _ := ⟨rfl, rfl, rfl⟩
  opened _ := ⟨List.not_mem_nil, by simp [QueueProcess.new]⟩
  closing objs closed := by cases closed
  alive := by simp [QueueProcess.new]

theorem length_eq (flows : process.Flows accepted sent) :
    accepted.length = sent.length + process.load := by
  rw [flows.conserved]
  simp [QueueProcess.load]

/-- The sentinel of a closed queue is in the buffer until the feeder takes it. -/
theorem sentinel (flows : process.Flows accepted sent) (unfinished : process.feeder ≠ .finished)
    {objs : List α} (closed : process.closing = some objs) :
    process.finalizer = false ∧ ∃ front back, process.buffer = front ++ none :: back ∧
      none ∉ front ∧ none ∉ back ∧
      sent ++ process.feeder.hand ++ front.filterMap id = objs := by
  obtain ⟨finalized, ⟨finished, _⟩ | ⟨_, queued⟩⟩ := flows.closing objs closed
  · exact absurd finished unfinished
  · exact ⟨finalized, queued⟩

theorem flags (flows : process.Flows accepted sent) (closed reader writer : Bool) :
    ({ process with closed, reader, writer } : QueueProcess α).Flows accepted sent :=
  ⟨flows.conserved, flows.absent, flows.opened, flows.closing, flows.alive⟩

theorem step (flows : process.Flows accepted sent) {feeder : Feeder α}
    (hand : feeder.hand = process.feeder.hand) (present : feeder ≠ .absent)
    (unfinished : process.feeder ≠ .finished) (still : feeder ≠ .finished)
    (alive : feeder ≠ .crashed) :
    ({ process with feeder } : QueueProcess α).Flows accepted sent where
  conserved := by
    simp only [hand]
    exact flows.conserved
  absent gone := absurd gone present
  opened none_closed := ⟨(flows.opened none_closed).1, still⟩
  closing objs closed := by
    obtain ⟨finalized, front, back, split, front_ok, back_ok, same⟩ :=
      flows.sentinel unfinished closed
    refine ⟨finalized, .inr ⟨still, front, back, split, front_ok, back_ok, ?_⟩⟩
    simp only [hand]
    exact same
  alive := alive

theorem put (flows : process.Flows accepted sent) (obj : α) :
    (process.put obj).Flows (accepted ++ [obj]) sent := by
  unfold QueueProcess.put
  split
  case h_1 absent =>
    obtain ⟨empty, _, opened⟩ := flows.absent absent
    have conserved := flows.conserved
    simp only [QueueProcess.buffered, empty, absent, Feeder.hand, List.filterMap_nil,
      List.append_nil] at conserved
    constructor
    case conserved => simp [QueueProcess.buffered, Feeder.hand, conserved]
    case absent => exact fun gone => by cases gone
    case opened => exact fun _ => ⟨by simp, by simp⟩
    case closing =>
      intro objs closed
      rw [opened] at closed
      cases closed
    case alive => simp
  case h_2 present =>
    constructor
    case conserved =>
      rw [flows.conserved]
      simp [QueueProcess.buffered]
    case absent => exact fun gone => absurd gone present
    case opened =>
      intro none_closed
      obtain ⟨no_sentinel, unfinished⟩ := flows.opened none_closed
      exact ⟨by simp [no_sentinel], unfinished⟩
    case closing =>
      intro objs closed
      obtain ⟨finalized, done | ⟨unfinished, front, back, split, front_ok, back_ok, same⟩⟩ :=
        flows.closing objs closed
      · exact ⟨finalized, .inl done⟩
      · refine ⟨finalized, .inr ⟨unfinished, front, back ++ [some obj], ?_, front_ok, ?_, same⟩⟩
        · simp [split]
        · simp [back_ok]
    case alive => exact flows.alive

theorem finalizeClose (flows : process.Flows accepted sent) :
    (process.finalizeClose accepted).Flows accepted sent := by
  unfold QueueProcess.finalizeClose
  split
  case isFalse => exact flows
  case isTrue final =>
    have none_closed : process.closing = none := by
      cases closed : process.closing with
      | none => rfl
      | some objs =>
          rw [(flows.closing objs closed).1] at final
          cases final
    obtain ⟨no_sentinel, unfinished⟩ := flows.opened none_closed
    constructor
    case conserved =>
      rw [flows.conserved]
      simp [QueueProcess.buffered]
    case absent =>
      intro gone
      rw [(flows.absent gone).2.1] at final
      cases final
    case opened => exact fun opened => by cases opened
    case closing =>
      intro objs closed
      cases closed
      refine ⟨rfl, .inr ⟨unfinished, process.buffer, [], rfl, no_sentinel, List.not_mem_nil, ?_⟩⟩
      exact flows.conserved.symm
    case alive => exact flows.alive

theorem pop (flows : process.Flows accepted sent) (popping : process.feeder = .popping) :
    process.pop.Flows accepted sent := by
  have unfinished : process.feeder ≠ .finished := by simp [popping]
  have conserved := flows.conserved
  simp only [popping, Feeder.hand, List.append_nil] at conserved
  unfold QueueProcess.pop
  split
  case h_1 =>
    apply flows.step
    case hand => rw [popping]; rfl
    case unfinished => exact unfinished
    all_goals simp
  case h_2 obj buffer popped =>
    constructor
    case conserved =>
      rw [conserved]
      simp [QueueProcess.buffered, popped, Feeder.hand]
    case absent => exact fun gone => by cases gone
    case opened =>
      intro none_closed
      have no_sentinel := (flows.opened none_closed).1
      rw [popped] at no_sentinel
      exact ⟨fun listed => no_sentinel (List.mem_cons_of_mem _ listed), by simp⟩
    case closing =>
      intro objs closed
      obtain ⟨finalized, front, back, split, front_ok, back_ok, same⟩ :=
        flows.sentinel unfinished closed
      refine ⟨finalized, .inr ⟨by simp, ?_⟩⟩
      rw [popped] at split
      cases front with
      | nil => cases split
      | cons first front =>
          obtain ⟨rfl, rfl⟩ := List.cons.inj split
          refine ⟨front, back, rfl, fun listed => front_ok (List.mem_cons_of_mem _ listed),
            back_ok, ?_⟩
          rw [← same]
          simp [popping, Feeder.hand]
    case alive => simp
  case h_3 buffer popped =>
    constructor
    case conserved =>
      rw [conserved]
      simp [QueueProcess.buffered, popped, Feeder.hand]
    case absent => exact fun gone => by cases gone
    case opened =>
      intro none_closed
      have no_sentinel := (flows.opened none_closed).1
      rw [popped] at no_sentinel
      exact absurd List.mem_cons_self no_sentinel
    case closing =>
      intro objs closed
      obtain ⟨finalized, front, back, split, front_ok, back_ok, same⟩ :=
        flows.sentinel unfinished closed
      refine ⟨finalized, .inl ⟨rfl, ?_⟩⟩
      rw [popped] at split
      cases front with
      | nil =>
          rw [← same]
          simp [popping, Feeder.hand]
      | cons first front =>
          obtain ⟨rfl, _⟩ := List.cons.inj split
          exact absurd List.mem_cons_self front_ok
    case alive => simp

theorem send (flows : process.Flows accepted sent) (sending : process.feeder = .sending obj) :
    ({ process with feeder := .popping } : QueueProcess α).Flows accepted (sent ++ [obj]) := by
  constructor
  case conserved =>
    rw [flows.conserved]
    simp [sending, Feeder.hand, QueueProcess.buffered]
  case absent => exact fun gone => by cases gone
  case opened => exact fun none_closed => ⟨(flows.opened none_closed).1, by simp⟩
  case closing =>
    intro objs closed
    have unfinished : process.feeder ≠ .finished := by simp [sending]
    obtain ⟨finalized, front, back, split, front_ok, back_ok, same⟩ :=
      flows.sentinel unfinished closed
    refine ⟨finalized, .inr ⟨by simp, front, back, split, front_ok, back_ok, ?_⟩⟩
    rw [← same]
    simp [sending, Feeder.hand]
  case alive => simp

end Flows

end QueueProcess

namespace QueueState

variable {state next : QueueState α} {number process : Nat} {label : QueueStep α}

theorem Invariant.call (invariant : state.Invariant) {old : Caller α}
    (found : state.callers[number]? = some old) (new : Caller α) (sem released : Nat)
    (rlock : Bool)
    (capacity : sem + new.entering + state.released = state.sem + old.entering + released)
    (releases : released + new.owing = state.released + old.owing)
    (locked : rlock.toNat + old.holding = state.rlock.toNat + new.holding) :
    Invariant { state with callers := state.callers.set number new, sem, released, rlock } where
  flows := invariant.flows
  known := invariant.known
  counted := invariant.counted
  capacity := by
    have replaced := Tally.tally_set Caller.entering found new
    have before := invariant.capacity
    simp only
    omega
  releases := by
    have replaced := Tally.tally_set Caller.owing found new
    have before := invariant.releases
    simp only
    omega
  locked := by
    have replaced := Tally.tally_set Caller.holding found new
    have before := invariant.locked
    simp only
    omega
  faultless := invariant.faultless

theorem Invariant.setProcess (invariant : state.Invariant) {old new : QueueProcess α}
    (found : state.processes[number]? = some old)
    (flows : new.Flows (lane number state.accepted) (lane number state.sent))
    (load : new.load = old.load) : (state.setProcess number new).Invariant where
  flows other process found_other := by
    obtain ⟨rfl, rfl⟩ | ⟨_, unchanged⟩ := Tally.getElem?_set_cases found_other
    · exact flows
    · exact invariant.flows other process unchanged
  known entry listed := by
    simp only [QueueState.setProcess, List.length_set]
    exact invariant.known entry listed
  counted := by
    have replaced := Tally.tally_set QueueProcess.load found new
    have before := invariant.counted
    simp only [QueueState.setProcess, sent] at before ⊢
    omega
  capacity := invariant.capacity
  releases := invariant.releases
  locked := invariant.locked
  faultless := invariant.faultless

theorem Invariant.append (invariant : state.Invariant) {obj : α} {feeding : QueueProcess α}
    (called : state.callers[number]? = some ⟨process, .admitted obj⟩)
    (found : state.processes[process]? = some feeding) :
    Invariant { (state.goTo number process .idle).setProcess process (feeding.put obj) with
      accepted := state.accepted ++ [(process, obj)] } := by
  have flows := (invariant.flows process feeding found).put obj
  have load : (feeding.put obj).load = feeding.load + 1 := by
    have before := (invariant.flows process feeding found).length_eq
    have after := flows.length_eq
    simp only [List.length_append, List.length_singleton] at after
    omega
  constructor
  case flows =>
    intro other asked found_other
    show asked.Flows (lane other (state.accepted ++ [(process, obj)])) (lane other state.sent)
    rw [Lane.lane_append]
    obtain ⟨rfl, rfl⟩ | ⟨different, unchanged⟩ := Tally.getElem?_set_cases found_other
    · rw [Lane.lane_own]
      exact flows
    · rw [Lane.lane_other (Ne.symm different), List.append_nil]
      exact invariant.flows other asked unchanged
  case known =>
    intro entry listed
    simp only [QueueState.setProcess, QueueState.goTo, List.length_set]
    simp only [List.append_assoc, List.mem_append, List.mem_singleton] at listed
    obtain old | rfl | old := listed
    · exact invariant.known entry (List.mem_append_left _ old)
    · exact (List.getElem?_eq_some_iff.mp found).1
    · exact invariant.known entry (List.mem_append_right _ old)
  case counted =>
    have replaced := Tally.tally_set QueueProcess.load found (feeding.put obj)
    have before := invariant.counted
    simp only [QueueState.setProcess, QueueState.goTo, sent, List.length_append,
      List.length_singleton] at before ⊢
    omega
  case capacity =>
    have replaced := Tally.tally_set Caller.entering called ⟨process, .idle⟩
    have before := invariant.capacity
    simp only [QueueState.setProcess, QueueState.goTo, Caller.entering, List.length_append,
      List.length_singleton] at replaced before ⊢
    omega
  case releases =>
    have replaced := Tally.tally_set Caller.owing called ⟨process, .idle⟩
    have before := invariant.releases
    simp only [QueueState.setProcess, QueueState.goTo, Caller.owing] at replaced before ⊢
    omega
  case locked =>
    have replaced := Tally.tally_set Caller.holding called ⟨process, .idle⟩
    have before := invariant.locked
    simp only [QueueState.setProcess, QueueState.goTo, Caller.holding] at replaced before ⊢
    omega
  case faultless => exact invariant.faultless

theorem Invariant.receive (invariant : state.Invariant) {mode : QueueMode} {entry : Nat × α}
    {pipe : List (Nat × α)} (called : state.callers[number]? = some ⟨process, .reading mode⟩)
    (first : state.pipe = entry :: pipe) :
    Invariant { state.goTo number process (.received entry.2 mode) with
      pipe, delivered := state.delivered ++ [entry] } := by
  have same : (state.delivered ++ [entry]) ++ pipe = state.sent := by
    simp [sent, first]
  constructor
  case flows =>
    intro other asked found_other
    show asked.Flows (lane other state.accepted) (lane other ((state.delivered ++ [entry]) ++ pipe))
    rw [same]
    exact invariant.flows other asked found_other
  case known =>
    show ∀ other ∈ state.accepted ++ (state.delivered ++ [entry] ++ pipe),
      other.1 < state.processes.length
    rw [same]
    exact invariant.known
  case counted =>
    show state.accepted.length = (state.delivered ++ [entry] ++ pipe).length +
      tally QueueProcess.load state.processes
    rw [same]
    exact invariant.counted
  case capacity =>
    have replaced := Tally.tally_set Caller.entering called ⟨process, .received entry.2 mode⟩
    have before := invariant.capacity
    simp only [QueueState.goTo, Caller.entering] at replaced before ⊢
    omega
  case releases =>
    have replaced := Tally.tally_set Caller.owing called ⟨process, .received entry.2 mode⟩
    have before := invariant.releases
    simp only [QueueState.goTo, Caller.owing, List.length_append,
      List.length_singleton] at replaced before ⊢
    omega
  case locked =>
    have replaced := Tally.tally_set Caller.holding called ⟨process, .received entry.2 mode⟩
    have before := invariant.locked
    simp only [QueueState.goTo, Caller.holding] at replaced before ⊢
    omega
  case faultless => exact invariant.faultless

theorem Invariant.send (invariant : state.Invariant) {obj : α} {feeding : QueueProcess α}
    (found : state.processes[number]? = some feeding) (sending : feeding.feeder = .sending obj) :
    Invariant { state.setProcess number { feeding with feeder := .popping } with
      wlock := false, pipe := state.pipe ++ [(number, obj)] } := by
  have flows := (invariant.flows number feeding found).send sending
  have same : state.delivered ++ (state.pipe ++ [(number, obj)]) = state.sent ++ [(number, obj)] :=
    (List.append_assoc _ _ _).symm
  constructor
  case flows =>
    intro other asked found_other
    show asked.Flows (lane other state.accepted)
      (lane other (state.delivered ++ (state.pipe ++ [(number, obj)])))
    rw [same, Lane.lane_append]
    obtain ⟨rfl, rfl⟩ | ⟨different, unchanged⟩ := Tally.getElem?_set_cases found_other
    · rw [Lane.lane_own]
      exact flows
    · rw [Lane.lane_other (Ne.symm different), List.append_nil]
      exact invariant.flows other asked unchanged
  case known =>
    show ∀ entry ∈ state.accepted ++ (state.delivered ++ (state.pipe ++ [(number, obj)])),
      entry.1 < (state.processes.set number _).length
    rw [same, ← List.append_assoc, List.length_set]
    intro entry listed
    cases List.mem_append.mp listed with
    | inl old => exact invariant.known entry old
    | inr new =>
        rw [List.mem_singleton.mp new]
        exact (List.getElem?_eq_some_iff.mp found).1
  case counted =>
    show state.accepted.length = (state.delivered ++ (state.pipe ++ [(number, obj)])).length +
      tally QueueProcess.load (state.processes.set number _)
    rw [same, List.length_append, List.length_singleton]
    have lighter := flows.length_eq
    rw [(invariant.flows number feeding found).length_eq, List.length_append,
      List.length_singleton] at lighter
    have replaced := Tally.tally_set QueueProcess.load found { feeding with feeder := .popping }
    have before := invariant.counted
    omega
  case capacity => exact invariant.capacity
  case releases => exact invariant.releases
  case locked => exact invariant.locked
  case faultless => exact invariant.faultless

theorem Invariant.fork (invariant : state.Invariant) (parent : QueueProcess α) :
    Invariant { state with processes := state.processes ++ [parent.afterFork] } := by
  have strange (entries : List (Nat × α))
      (listed : ∀ entry ∈ entries, entry ∈ state.accepted ++ state.sent) :
      lane state.processes.length entries = [] := by
    apply Lane.lane_eq_nil
    intro entry member own
    have known := invariant.known entry (listed entry member)
    omega
  constructor
  case flows =>
    intro other asked found
    by_cases here : other < state.processes.length
    · rw [List.getElem?_append_left here] at found
      exact invariant.flows other asked found
    · rw [List.getElem?_append_right (Nat.le_of_not_lt here)] at found
      have is_child := List.mem_singleton.mp (List.mem_of_getElem? found)
      have last : other = state.processes.length := by
        have at_end := (List.getElem?_eq_some_iff.mp found).1
        rw [List.length_singleton] at at_end
        omega
      subst last is_child
      show QueueProcess.Flows _ (lane _ state.accepted) (lane _ state.sent)
      rw [strange _ fun entry member => List.mem_append_left _ member,
        strange _ fun entry member => List.mem_append_right _ member]
      exact QueueProcess.Flows.new.flags _ _ _
  case known =>
    intro entry listed
    rw [List.length_append]
    exact Nat.lt_add_right _ (invariant.known entry listed)
  case counted =>
    have before := invariant.counted
    show state.accepted.length = state.sent.length +
      tally QueueProcess.load (state.processes ++ [parent.afterFork])
    simp [before, QueueProcess.load, QueueProcess.afterFork, QueueProcess.new, Feeder.hand,
      QueueProcess.buffered]
  case capacity => exact invariant.capacity
  case releases => exact invariant.releases
  case locked => exact invariant.locked
  case faultless => exact invariant.faultless

theorem Invariant.addCaller (invariant : state.Invariant) (process : Nat) :
    Invariant { state with callers := state.callers ++ [⟨process, .idle⟩] } where
  flows := invariant.flows
  known := invariant.known
  counted := invariant.counted
  capacity := by
    have before := invariant.capacity
    simpa [Caller.entering] using before
  releases := by
    have before := invariant.releases
    simpa [Caller.owing] using before
  locked := by
    have before := invariant.locked
    simpa [Caller.holding] using before
  faultless := invariant.faultless

/-- The semaphore takes back what a delivered object has taken of it. -/
theorem Invariant.sem_lt (invariant : state.Invariant) {old : Caller α}
    (found : state.callers[number]? = some old) (owes : old.owing = 1) :
    state.sem < state.maxsize := by
  have capacity := invariant.capacity
  have releases := invariant.releases
  have counted := invariant.counted
  have one : tally Caller.owing state.callers ≠ 0 := by
    intro nothing
    have weightless := Tally.weight_eq_zero nothing (List.mem_of_getElem? found)
    omega
  simp only [sent, List.length_append] at counted
  omega

theorem Invariant.release (invariant : state.Invariant) {stage after : CallStage α}
    (found : state.callers[number]? = some ⟨process, stage⟩)
    (owes : (⟨process, stage⟩ : Caller α).owing = 1)
    (settled : (⟨process, after⟩ : Caller α).owing = 0)
    (entering : (⟨process, after⟩ : Caller α).entering = (⟨process, stage⟩ : Caller α).entering)
    (holding : (⟨process, after⟩ : Caller α).holding = (⟨process, stage⟩ : Caller α).holding)
    (rlock : Bool) : (state.release number process after rlock).Invariant := by
  have room := invariant.sem_lt found owes
  simp only [QueueState.release, room, if_true]
  exact invariant.call found ⟨process, after⟩ (state.sem + 1) (state.released + 1) state.rlock
    (by omega) (by omega) (by omega)

theorem Invariant.goTo (invariant : state.Invariant) {stage after : CallStage α}
    (found : state.callers[number]? = some ⟨process, stage⟩)
    (owing : (⟨process, after⟩ : Caller α).owing = (⟨process, stage⟩ : Caller α).owing)
    (entering : (⟨process, after⟩ : Caller α).entering = (⟨process, stage⟩ : Caller α).entering)
    (holding : (⟨process, after⟩ : Caller α).holding = (⟨process, stage⟩ : Caller α).holding) :
    (state.goTo number process after).Invariant :=
  invariant.call found ⟨process, after⟩ state.sem state.released state.rlock (by omega) (by omega)
    (by omega)

/-- A call that holds the lock is not alone in knowing it. -/
theorem Invariant.rlock_of_holding (invariant : state.Invariant) {old : Caller α}
    (found : state.callers[number]? = some old) (holds : old.holding = 1) :
    state.rlock = true := by
  have locked := invariant.locked
  cases held : state.rlock with
  | true => rfl
  | false =>
      rw [held] at locked
      have weightless := Tally.weight_eq_zero locked (List.mem_of_getElem? found)
      omega

theorem Invariant.leaveLock (invariant : state.Invariant) {stage after : CallStage α}
    (found : state.callers[number]? = some ⟨process, stage⟩)
    (owing : (⟨process, after⟩ : Caller α).owing = (⟨process, stage⟩ : Caller α).owing)
    (entering : (⟨process, after⟩ : Caller α).entering = (⟨process, stage⟩ : Caller α).entering)
    (holds : (⟨process, stage⟩ : Caller α).holding = 1)
    (left : (⟨process, after⟩ : Caller α).holding = 0) :
    Invariant { state.goTo number process after with rlock := false } := by
  have held := invariant.rlock_of_holding found holds
  have locked : false.toNat + (⟨process, stage⟩ : Caller α).holding =
      state.rlock.toNat + (⟨process, after⟩ : Caller α).holding := by
    rw [held, holds, left]
    rfl
  exact invariant.call found ⟨process, after⟩ state.sem state.released false (by omega) (by omega)
    locked

theorem Invariant.callStep (invariant : state.Invariant) {stage : CallStage α}
    (found : state.callers[number]? = some ⟨process, stage⟩)
    (taken : state.callStep number process stage label = some next) : next.Invariant := by
  unfold QueueState.callStep at taken
  split at taken
  case h_1 =>
    -- put
    split at taken
    · cases taken
      exact invariant.goTo found rfl rfl rfl
    · cases taken
  case h_2 obj mode _ =>
    -- acquire
    split at taken
    case isFalse => cases taken
    case isTrue free =>
      cases taken
      have entered : (⟨process, .admitted obj⟩ : Caller α).entering = 1 := rfl
      have outside : (⟨process, .putting obj mode⟩ : Caller α).entering = 0 := rfl
      exact invariant.call found ⟨process, .admitted obj⟩ (state.sem - 1) state.released state.rlock
        (by omega) rfl rfl
  case h_3 mode _ =>
    -- full
    cases mode with
    | blocking => cases taken
    | timed =>
        cases taken
        exact invariant.goTo found rfl rfl rfl
    | nonblocking =>
        simp only at taken
        split at taken
        · cases taken
          exact invariant.goTo found rfl rfl rfl
        · cases taken
  case h_4 obj _ =>
    -- append
    obtain ⟨feeding, here, rfl⟩ := Option.map_eq_some_iff.mp taken
    exact invariant.append found here
  case h_5 =>
    -- get
    split at taken
    · cases taken
      exact invariant.goTo found rfl rfl rfl
    · cases taken
  case h_6 mode _ =>
    -- lock
    split at taken
    case isTrue => cases taken
    case isFalse free =>
      cases taken
      have locked : true.toNat + (⟨process, .getting mode⟩ : Caller α).holding =
          state.rlock.toNat + (⟨process, .reading mode⟩ : Caller α).holding := by
        rw [Bool.eq_false_iff.mpr free]
        rfl
      exact invariant.call found ⟨process, .reading mode⟩ state.sem state.released true rfl rfl
        locked
  case h_7 mode _ =>
    -- empty, without the lock
    cases mode with
    | blocking => cases taken
    | timed =>
        cases taken
        exact invariant.goTo found rfl rfl rfl
    | nonblocking =>
        simp only at taken
        split at taken
        · cases taken
          exact invariant.goTo found rfl rfl rfl
        · cases taken
  case h_8 mode _ =>
    -- empty, with the lock
    cases mode with
    | blocking => cases taken
    | timed =>
        cases taken
        exact invariant.leaveLock found rfl rfl rfl rfl
    | nonblocking =>
        simp only at taken
        split at taken
        · cases taken
          exact invariant.leaveLock found rfl rfl rfl rfl
        · cases taken
  case h_9 mode _ =>
    -- receive
    split at taken
    · split at taken
      · cases taken
      · rename_i first
        cases taken
        exact invariant.receive found first
    · cases taken
      exact invariant.leaveLock found rfl rfl rfl rfl
  case h_10 obj _ =>
    -- unlock, before the release
    cases taken
    exact invariant.leaveLock found rfl rfl rfl rfl
  case h_11 obj _ =>
    cases taken
    apply invariant.release found <;> rfl
  case h_12 obj _ =>
    cases taken
    apply invariant.release found <;> rfl
  case h_13 obj _ =>
    cases taken
    apply invariant.release found <;> rfl
  case h_14 =>
    -- unlock, after the release
    cases taken
    exact invariant.leaveLock found rfl rfl rfl rfl
  case h_15 =>
    -- close
    split at taken
    · cases taken
    · obtain ⟨closing, here, rfl⟩ := Option.map_eq_some_iff.mp taken
      have moved : (state.goTo _ process .closing).Invariant := invariant.goTo found rfl rfl rfl
      exact moved.setProcess here ((invariant.flows process closing here).flags _ _ _) rfl
  case h_16 =>
    -- the sentinel
    obtain ⟨closing, here, rfl⟩ := Option.map_eq_some_iff.mp taken
    have moved : (state.goTo _ process .idle).Invariant := invariant.goTo found rfl rfl rfl
    have flows := (invariant.flows process closing here).finalizeClose
    apply moved.setProcess here flows
    have before := (invariant.flows process closing here).length_eq
    have after := flows.length_eq
    omega
  case h_17 => cases taken

theorem Invariant.feederStep (invariant : state.Invariant) {feeding : QueueProcess α}
    (found : state.processes[number]? = some feeding)
    (heard : state.Heard label) (named : ∀ other, label = .send other → other = number)
    (taken : state.feederStep number feeding label = some next) : next.Invariant := by
  have flows := invariant.flows number feeding found
  unfold QueueState.feederStep at taken
  split at taken
  case h_1 =>
    -- wake
    split at taken
    case h_2 => cases taken
    case h_1 waiting _ =>
      cases taken
      apply invariant.setProcess found
      case load => simp [QueueProcess.load, QueueProcess.buffered, waiting, Feeder.hand]
      case flows =>
        apply flows.step
        case hand => rw [waiting]; rfl
        case unfinished => simp [waiting]
        all_goals simp
  case h_2 =>
    -- pop
    split at taken
    case h_2 => cases taken
    case h_1 popping =>
      cases taken
      have popped := flows.pop popping
      apply invariant.setProcess found popped
      have before := flows.length_eq
      have after := popped.length_eq
      omega
  case h_3 =>
    -- lockPipe
    split at taken
    case h_2 => cases taken
    case h_1 obj holding =>
      split at taken
      · cases taken
      · cases taken
        have moved :
            (state.setProcess number { feeding with feeder := .sending obj }).Invariant := by
          apply invariant.setProcess found
          case load => simp [QueueProcess.load, QueueProcess.buffered, holding, Feeder.hand]
          case flows =>
            apply flows.step
            case hand => rw [holding]; rfl
            case unfinished => simp [holding]
            all_goals simp
        exact ⟨moved.flows, moved.known, moved.counted, moved.capacity, moved.releases,
          moved.locked, moved.faultless⟩
  case h_4 other =>
    -- send
    split at taken
    case h_2 => cases taken
    case h_1 obj sending =>
      obtain rfl := named other rfl
      have writable : state.writable feeding = true := by
        simpa [Heard, found] using heard
      rw [writable, if_pos rfl] at taken
      cases taken
      exact invariant.send found sending
  case h_5 => cases taken

theorem step_invariant : Preserves step Heard (Invariant (α := α)) := by
  intro state label next invariant heard taken
  have called {number : Nat} (taken : (state.callers[number]?.bind fun caller =>
      state.callStep number caller.process caller.stage label) = some next) : next.Invariant := by
    obtain ⟨⟨process, stage⟩, found, moved⟩ := Option.bind_eq_some_iff.mp taken
    exact invariant.callStep found moved
  have fed {number : Nat} (named : ∀ other, label = .send other → other = number)
      (taken : (state.processes[number]?.bind fun process =>
        state.feederStep number process label) = some next) : next.Invariant := by
    obtain ⟨process, found, moved⟩ := Option.bind_eq_some_iff.mp taken
    exact invariant.feederStep found heard named moved
  cases label with
  | fork parent =>
      obtain ⟨process, _, rfl⟩ := Option.map_eq_some_iff.mp taken
      exact invariant.fork process
  | call process =>
      simp only [step] at taken
      split at taken
      · cases taken
        exact invariant.addCaller process
      · cases taken
  | wake number => exact fed (fun _ same => by cases same) taken
  | pop number => exact fed (fun _ same => by cases same) taken
  | lockPipe number => exact fed (fun _ same => by cases same) taken
  | send number => exact fed (fun _ same => by cases same; rfl) taken
  | _ => exact called taken

theorem invariant_init (maxsize : Nat) : (init maxsize : QueueState α).Invariant where
  flows number process found := by
    have is_new := List.mem_singleton.mp (List.mem_of_getElem? found)
    subst is_new
    exact QueueProcess.Flows.new
  known entry listed := by cases listed
  counted := rfl
  capacity := rfl
  releases := rfl
  locked := rfl
  faultless := rfl

theorem callStep_contents {stage : CallStage α} (quiet : label.isQuiet = true)
    (taken : state.callStep number process stage label = some next) :
    next.contents = state.contents := by
  unfold QueueState.callStep at taken
  split at taken
  case h_1 =>
    split at taken
    · cases taken
      rfl
    · cases taken
  case h_3 mode _ =>
    cases mode with
    | blocking => cases taken
    | timed =>
        cases taken
        rfl
    | nonblocking =>
        simp only at taken
        split at taken
        · cases taken
          rfl
        · cases taken
  case h_5 =>
    split at taken
    · cases taken
      rfl
    · cases taken
  case h_6 =>
    split at taken
    · cases taken
    · cases taken
      rfl
  case h_7 mode _ =>
    cases mode with
    | blocking => cases taken
    | timed =>
        cases taken
        rfl
    | nonblocking =>
        simp only at taken
        split at taken
        · cases taken
          rfl
        · cases taken
  case h_8 mode _ =>
    cases mode with
    | blocking => cases taken
    | timed =>
        cases taken
        rfl
    | nonblocking =>
        simp only at taken
        split at taken
        · cases taken
          rfl
        · cases taken
  case h_17 => cases taken
  all_goals cases quiet

theorem quiet_contents (quiet : label.isQuiet = true) (taken : state.step label = some next) :
    next.contents = state.contents := by
  have called {number : Nat} (taken : (state.callers[number]?.bind fun caller =>
      state.callStep number caller.process caller.stage label) = some next) :
      next.contents = state.contents := by
    obtain ⟨⟨process, stage⟩, _, moved⟩ := Option.bind_eq_some_iff.mp taken
    exact callStep_contents quiet moved
  cases label with
  | put number obj mode => exact called taken
  | full number => exact called taken
  | get number mode => exact called taken
  | lock number => exact called taken
  | empty number => exact called taken
  | _ => cases quiet

theorem Invariant.sound (invariant : state.Invariant) : state.Sound where
  conserved number process found := by
    rw [(invariant.flows number process found).conserved, sent, Lane.lane_append]
  bounded := by
    have capacity := invariant.capacity
    omega
  flushed number process found finished := by
    have flows := invariant.flows number process found
    cases closed : process.closing with
    | none => exact absurd finished (flows.opened closed).2
    | some objs =>
        obtain ⟨_, ⟨_, same⟩ | ⟨unfinished, _⟩⟩ := flows.closing objs closed
        · rw [← same, sent, Lane.lane_append]
        · exact absurd finished unfinished
  quiet _ _ taken quiet := quiet_contents quiet taken
  locked := invariant.locked
  faultless := invariant.faultless

/-- However the processes and their feeders interleave, as long as nobody sends into a pipe
without readers. -/
theorem sound_along {maxsize : Nat} {labels : List (QueueStep α)} {last : QueueState α}
    (heard : Along step Heard (init maxsize) labels)
    (ran : run step (init maxsize) labels = some last) : last.Sound :=
  (invariant_along step_invariant (invariant_init maxsize) heard ran).sound

instance (state : QueueState α) : DecidablePred state.Heard
  | .send number => inferInstanceAs (Decidable (state.processes[number]?.any state.writable = true))
  | .fork _ | .call _ | .put _ _ _ | .acquire _ | .full _ | .append _ | .get _ _ | .lock _
  | .empty _ | .receive _ | .unlock _ | .release _ | .close _ | .sentinel _ | .wake _ | .pop _
  | .lockPipe _ => inferInstanceAs (Decidable True)

/-- A child puts an object into a queue of capacity one and closes it; its parent finds the
queue full, and then gets the object. -/
def handedOver : List (QueueStep Nat) :=
  [.fork 0, .call 0, .call 1, .put 1 5 .blocking, .acquire 1, .append 1,
    .put 0 6 .nonblocking, .full 0, .close 1, .sentinel 1,
    .wake 1, .pop 1, .lockPipe 1, .send 1, .pop 1,
    .get 0 .timed, .lock 0, .receive 0, .release 0, .unlock 0]

theorem sound_along_handedOver :
    ∃ last, run step (init 1) handedOver = some last ∧ last.Sound := by
  have runs : (run step (init 1) handedOver).isSome = true := by decide
  obtain ⟨last, ran⟩ := Option.isSome_iff_exists.mp runs
  exact ⟨last, ran, sound_along (by decide) ran⟩

/-- A process alone puts an object and closes the queue, and with it the only reader. -/
def closedEarly : List (QueueStep Nat) :=
  [.call 0, .put 0 5 .blocking, .acquire 0, .append 0, .close 0, .sentinel 0,
    .wake 0, .pop 0, .lockPipe 0, .send 0]

theorem not_sound : ¬ ∀ (maxsize : Nat) (labels : List (QueueStep Nat)) (last : QueueState Nat),
    run step (init maxsize) labels = some last → last.Sound := by
  intro claimed
  have ran : ∃ last, run step (init 1) closedEarly = some last ∧
      last.accepted = [(0, 5)] ∧ last.delivered = [] ∧ last.pipe = [] ∧
      last.processes = [⟨true, false, true, [none], .crashed, false, some [5]⟩] :=
    ⟨_, rfl, rfl, rfl, rfl, rfl⟩
  obtain ⟨last, ran, accepted, delivered, pipe, processes⟩ := ran
  have conserved := (claimed 1 closedEarly last ran).conserved 0 _ (by rw [processes]; rfl)
  rw [accepted, delivered, pipe] at conserved
  exact absurd conserved (by decide)

end QueueState

end Billiard
