import Billiard.Data.Transition
import Billiard.Queues.Queue

/-! A queue of which one process puts objects that need not be serialisable.  All others only
get, so that nobody but its feeder takes `_wlock`. -/

namespace Billiard

open Transition

/-- What `ForkingPickler.dumps` does with an object.  Its bytes fit a message; that an object is too
large for the header, on which `send_bytes` raises, is an `error` too. -/
inductive Dumped where
  | bytes
  | indexError
  | error
deriving DecidableEq, Repr

/-- `admitted` are the objects of the calls of `put` that have passed the semaphore, `sent` is
all that was written to the pipe; `received` and `released` count what the calls of `get` have
read of it, and how often they have released the semaphore. -/
structure PickledQueue (α : Type u) where
  maxsize : Nat
  sem : Nat
  process : QueueProcess α
  admitted : List α
  put : List α
  sent : List α
  received : Nat
  released : Nat
deriving DecidableEq, Repr

inductive PickledStep (α : Type u) where
  | acquire (obj : α)
  | append (call : Nat)
  | wake
  | pop
  | dumps
  | send
  | receive
  | release
deriving DecidableEq, Repr

def PickledStep.isFeeder : PickledStep α → Bool
  | .wake | .pop | .dumps | .send => true
  | .acquire _ | .append _ | .receive | .release => false

variable {α : Type u} (dumps : α → Dumped)

def serialisable (obj : α) : Bool := dumps obj = .bytes

namespace PickledQueue

def init (maxsize : Nat) : PickledQueue α := ⟨maxsize, maxsize, .new, [], [], [], 0, 0⟩

def feederStep (queue : PickledQueue α) : PickledStep α → Option (PickledQueue α)
  | .wake =>
      match queue.process.feeder, queue.process.buffer with
      | .waiting, _ :: _ =>
          some { queue with process := { queue.process with feeder := .popping } }
      | _, _ => none
  | .pop =>
      match queue.process.feeder with
      | .popping => some { queue with process := queue.process.pop }
      | _ => none
  | .dumps =>
      match queue.process.feeder with
      | .holding obj =>
          match dumps obj with
          | .bytes => some { queue with process := { queue.process with feeder := .sending obj } }
          | .indexError =>
              -- taken for that of `bpopleft` from an empty buffer
              some { queue with process := { queue.process with feeder := .waiting } }
          | .error => some { queue with process := { queue.process with feeder := .crashed } }
      | _ => none
  | .send =>
      match queue.process.feeder with
      | .sending obj =>
          some { queue with
            process := { queue.process with feeder := .popping }, sent := queue.sent ++ [obj] }
      | _ => none
  | _ => none

def step (queue : PickledQueue α) : PickledStep α → Option (PickledQueue α)
  | .acquire obj =>
      if 0 < queue.sem then
        some { queue with sem := queue.sem - 1, admitted := queue.admitted ++ [obj] }
      else none
  | .append call =>
      queue.admitted[call]?.map fun obj =>
        { queue with
          process := queue.process.put obj
          admitted := queue.admitted.eraseIdx call
          put := queue.put ++ [obj] }
  | .receive =>
      if queue.received < queue.sent.length then
        some { queue with received := queue.received + 1 }
      else none
  | .release =>
      if queue.released < queue.received ∧ queue.sem < queue.maxsize then
        some { queue with sem := queue.sem + 1, released := queue.released + 1 }
      else none
  | .wake => queue.feederStep dumps .wake
  | .pop => queue.feederStep dumps .pop
  | .dumps => queue.feederStep dumps .dumps
  | .send => queue.feederStep dumps .send

def AtRest (queue : PickledQueue α) : Prop :=
  ∀ label, label.isFeeder = true → queue.step dumps label = none

/-- The feeder can come to rest, with nobody else doing anything. -/
def ComesToRest (queue : PickledQueue α) : Prop :=
  ∃ labels last, (∀ label ∈ labels, label.isFeeder = true) ∧
    run (step dumps) queue labels = some last ∧ last.AtRest dumps

/-- The slots that are not free are those of calls of `put` and of objects that were sent and
that no `get` has released. -/
structure Delivers (queue : PickledQueue α) : Prop where
  sent : queue.sent = queue.put.filter (serialisable dumps)
  slots : queue.sem + queue.admitted.length + queue.sent.length = queue.maxsize + queue.released

/-- `consumed` are the objects that the feeder is done with. -/
structure Progress (queue : PickledQueue α) (consumed : List α) : Prop where
  put : queue.put = consumed ++ queue.process.feeder.hand ++ queue.process.buffered
  sent : queue.sent = consumed.filter (serialisable dumps)
  dumped : ∀ obj, queue.process.feeder = .sending obj → serialisable dumps obj = true
  crashed : queue.process.feeder = .crashed → ∃ obj ∈ consumed, serialisable dumps obj = false
  unclosed : none ∉ queue.process.buffer ∧ queue.process.feeder ≠ .finished
  absent : queue.process.feeder = .absent → queue.process.buffer = []
  slots : queue.sem + queue.admitted.length + queue.put.length = queue.maxsize + queue.released

variable {dumps} {queue next : PickledQueue α} {consumed : List α}

theorem Progress.init (maxsize : Nat) : (init maxsize : PickledQueue α).Progress dumps [] where
  put := rfl
  sent := rfl
  dumped := nofun
  crashed := nofun
  unclosed := ⟨List.not_mem_nil, nofun⟩
  absent _ := rfl
  slots := rfl

/-- The first object starts the feeder, which has cleared an empty buffer. -/
theorem put_appends {process : QueueProcess α} (obj : α)
    (absent : process.feeder = .absent → process.buffer = []) :
    (process.put obj).buffer = process.buffer ++ [some obj] ∧
      (process.put obj).feeder ≠ .absent ∧
      ((process.put obj).feeder = process.feeder ∨
        process.feeder = .absent ∧ (process.put obj).feeder = .waiting) := by
  unfold QueueProcess.put
  split
  · rename_i unstarted
    exact ⟨by rw [absent unstarted]; rfl, nofun, .inr ⟨unstarted, rfl⟩⟩
  · rename_i started
    exact ⟨rfl, started, .inl rfl⟩

theorem Progress.append (progress : queue.Progress dumps consumed) {call : Nat} {obj : α}
    (admitted : queue.admitted[call]? = some obj) :
    Progress dumps { queue with
      process := queue.process.put obj
      admitted := queue.admitted.eraseIdx call
      put := queue.put ++ [obj] } consumed := by
  obtain ⟨inside, _⟩ := List.getElem?_eq_some_iff.mp admitted
  have fewer := List.length_eraseIdx_of_lt inside
  have slots := progress.slots
  obtain ⟨buffer, started, feeder⟩ := put_appends obj progress.absent
  have hand : (queue.process.put obj).feeder.hand = queue.process.feeder.hand := by
    rcases feeder with same | ⟨before, after⟩
    · rw [same]
    · rw [before, after]
      rfl
  have kept : ∀ stage, stage ≠ .waiting → (queue.process.put obj).feeder = stage →
      queue.process.feeder = stage := by
    rintro _ other rfl
    rcases feeder with same | ⟨_, after⟩
    · exact same.symm
    · exact absurd after other
  exact {
    put := by
      rw [hand, QueueProcess.buffered, buffer, progress.put, QueueProcess.buffered]
      simp
    sent := progress.sent
    dumped := fun other sending => progress.dumped other (kept _ nofun sending)
    crashed := fun crashed => progress.crashed (kept _ nofun crashed)
    unclosed := by
      rw [buffer]
      exact ⟨by simp [progress.unclosed.1], fun finished =>
        progress.unclosed.2 (kept _ nofun finished)⟩
    absent := fun gone => absurd gone started
    slots := by
      rw [fewer, List.length_append, List.length_singleton]
      dsimp only
      omega }

theorem Progress.pop (progress : queue.Progress dumps consumed)
    (popping : queue.process.feeder = .popping) :
    Progress dumps { queue with process := queue.process.pop } consumed := by
  have put := progress.put
  have unclosed := progress.unclosed.1
  rw [popping, QueueProcess.buffered] at put
  unfold QueueProcess.pop
  split
  · rename_i empty
    exact { progress with
      put := by rw [put, QueueProcess.buffered, empty]; rfl
      dumped := nofun
      crashed := nofun
      unclosed := ⟨unclosed, nofun⟩
      absent := nofun }
  · rename_i obj buffer split
    rw [split] at put unclosed
    exact { progress with
      put := by rw [put, QueueProcess.buffered]; simp [Feeder.hand]
      dumped := nofun
      crashed := nofun
      unclosed := ⟨fun member => unclosed (List.mem_cons_of_mem _ member), nofun⟩
      absent := nofun }
  · rename_i split
    rw [split] at unclosed
    exact absurd List.mem_cons_self unclosed

theorem Progress.goOn (progress : queue.Progress dumps consumed) {feeder : Feeder α}
    (hand : feeder.hand = queue.process.feeder.hand)
    (dumped : ∀ obj, feeder = .sending obj → serialisable dumps obj = true)
    (alive : feeder ≠ .crashed ∧ feeder ≠ .finished ∧ feeder ≠ .absent) :
    Progress dumps { queue with process := { queue.process with feeder } } consumed :=
  { progress with
    put := by
      rw [hand]
      exact progress.put
    dumped
    crashed := fun crashed => absurd crashed alive.1
    unclosed := ⟨progress.unclosed.1, alive.2.1⟩
    absent := fun absent => absurd absent alive.2.2 }

theorem Progress.finish (progress : queue.Progress dumps consumed) {feeder : Feeder α}
    {sent : List α} {obj : α} (holding : queue.process.feeder.hand = [obj])
    (hand : feeder.hand = [])
    (same : sent = queue.sent ++ [obj].filter (serialisable dumps))
    (crashed : feeder = .crashed → serialisable dumps obj = false)
    (alive : feeder ≠ .finished ∧ feeder ≠ .absent) :
    Progress dumps { queue with process := { queue.process with feeder }, sent }
      (consumed ++ [obj]) :=
  { progress with
    put := by
      rw [hand, List.append_nil, progress.put, holding]
      rfl
    sent := by rw [same, progress.sent, List.filter_append]
    dumped := by
      rintro other rfl
      cases hand
    crashed := fun failed => ⟨obj, List.mem_append_right _ List.mem_cons_self, crashed failed⟩
    unclosed := ⟨progress.unclosed.1, alive.1⟩
    absent := fun absent => absurd absent alive.2 }

theorem Progress.feederStep (progress : queue.Progress dumps consumed) (label : PickledStep α)
    (taken : queue.feederStep dumps label = some next) :
    ∃ consumed, next.Progress dumps consumed := by
  cases label with
  | wake =>
      simp only [PickledQueue.feederStep] at taken
      split at taken
      · rename_i waiting _
        cases taken
        exact ⟨consumed, progress.goOn (by rw [waiting]; rfl) nofun ⟨nofun, nofun, nofun⟩⟩
      · cases taken
  | pop =>
      simp only [PickledQueue.feederStep] at taken
      split at taken
      · rename_i popping
        cases taken
        exact ⟨consumed, progress.pop popping⟩
      · cases taken
  | dumps =>
      simp only [PickledQueue.feederStep] at taken
      split at taken
      · rename_i obj holding
        have hand : queue.process.feeder.hand = [obj] := by rw [holding]; rfl
        split at taken
        · rename_i written
          cases taken
          have dumped : serialisable dumps obj = true := decide_eq_true written
          refine ⟨consumed, progress.goOn hand.symm ?_ ⟨nofun, nofun, nofun⟩⟩
          rintro _ ⟨⟩
          exact dumped
        · rename_i raised
          cases taken
          have refused : serialisable dumps obj = false := by simp [serialisable, raised]
          exact ⟨consumed ++ [obj], progress.finish hand rfl (by simp [refused])
            (fun _ => refused) ⟨nofun, nofun⟩⟩
        · rename_i raised
          cases taken
          have refused : serialisable dumps obj = false := by simp [serialisable, raised]
          exact ⟨consumed ++ [obj], progress.finish hand rfl (by simp [refused])
            (fun _ => refused) ⟨nofun, nofun⟩⟩
      · cases taken
  | send =>
      simp only [PickledQueue.feederStep] at taken
      split at taken
      · rename_i obj sending
        cases taken
        have dumped := progress.dumped obj sending
        exact ⟨consumed ++ [obj], progress.finish (by rw [sending]; rfl) rfl (by simp [dumped])
          nofun ⟨nofun, nofun⟩⟩
      · cases taken
  | acquire obj => cases taken
  | append call => cases taken
  | receive => cases taken
  | release => cases taken

theorem Progress.step (progress : queue.Progress dumps consumed) {label : PickledStep α}
    (taken : queue.step dumps label = some next) : ∃ consumed, next.Progress dumps consumed := by
  have slots := progress.slots
  cases label with
  | acquire obj =>
      obtain ⟨room, same⟩ := Option.ite_none_right_eq_some.mp taken
      cases same
      refine ⟨consumed, { progress with slots := ?_ }⟩
      rw [List.length_append, List.length_singleton]
      dsimp only
      omega
  | append call =>
      obtain ⟨obj, admitted, same⟩ := Option.map_eq_some_iff.mp taken
      cases same
      exact ⟨consumed, progress.append admitted⟩
  | receive =>
      obtain ⟨_, same⟩ := Option.ite_none_right_eq_some.mp taken
      cases same
      exact ⟨consumed, { progress with }⟩
  | release =>
      obtain ⟨_, same⟩ := Option.ite_none_right_eq_some.mp taken
      cases same
      refine ⟨consumed, { progress with slots := ?_ }⟩
      dsimp only
      omega
  | wake => exact progress.feederStep .wake taken
  | pop => exact progress.feederStep .pop taken
  | dumps => exact progress.feederStep .dumps taken
  | send => exact progress.feederStep .send taken

def rank (queue : PickledQueue α) : Nat :=
  let left := 4 * queue.process.buffer.length
  match queue.process.feeder with
  | .waiting => if queue.process.buffer = [] then 0 else left + 2
  | .popping => left + 1
  | .holding _ => left + 3
  | .sending _ => left + 2
  | .absent | .finished | .crashed => 0

theorem rank_lt {label : PickledStep α} (feeds : label.isFeeder = true)
    (taken : queue.step dumps label = some next) : next.rank < queue.rank := by
  cases label with
  | wake =>
      simp only [PickledQueue.step, feederStep] at taken
      split at taken
      · rename_i first rest waiting buffer
        cases taken
        simp [rank, waiting, buffer]
      · cases taken
  | pop =>
      simp only [PickledQueue.step, feederStep] at taken
      split at taken
      · rename_i popping
        cases taken
        unfold QueueProcess.pop
        split
        · rename_i buffer
          simp [rank, popping, buffer]
        · rename_i buffer
          simp only [rank, popping, buffer, List.length_cons]
          omega
        · simp [rank, popping]
      · cases taken
  | dumps =>
      simp only [PickledQueue.step, feederStep] at taken
      split at taken
      · rename_i obj holding
        split at taken
        · cases taken
          simp [rank, holding]
        · cases taken
          simp only [rank, holding]
          split <;> omega
        · cases taken
          simp [rank, holding]
      · cases taken
  | send =>
      simp only [PickledQueue.step, feederStep] at taken
      split at taken
      · rename_i sending
        cases taken
        simp [rank, sending]
      · cases taken
  | acquire obj => cases feeds
  | append call => cases feeds
  | receive => cases feeds
  | release => cases feeds

theorem progress_of_run {labels : List (PickledStep α)} {last : PickledQueue α}
    (progress : queue.Progress dumps consumed)
    (ran : run (step dumps) queue labels = some last) :
    ∃ consumed, last.Progress dumps consumed := by
  have kept : ∀ (state : PickledQueue α) (label : PickledStep α) (next : PickledQueue α),
      (∃ consumed, state.Progress dumps consumed) → state.step dumps label = some next →
      ∃ consumed, next.Progress dumps consumed :=
    fun _ _ _ ⟨_, progress⟩ taken => progress.step taken
  exact invariant_run kept ⟨consumed, progress⟩ ran

/-- At rest the feeder is done with everything, or an object was not serialisable. -/
theorem Progress.atRest (progress : queue.Progress dumps consumed) (rest : queue.AtRest dumps) :
    queue.put = consumed ∨ ∃ obj ∈ queue.put, serialisable dumps obj = false := by
  have put := progress.put
  cases stage : queue.process.feeder with
  | absent =>
      rw [stage, QueueProcess.buffered, progress.absent stage] at put
      exact .inl (by simpa [Feeder.hand] using put)
  | waiting =>
      have woken := rest .wake rfl
      simp only [PickledQueue.step, PickledQueue.feederStep, stage] at woken
      have empty : queue.process.buffer = [] := by
        cases buffer : queue.process.buffer with
        | nil => rfl
        | cons first others =>
            rw [buffer] at woken
            cases woken
      rw [stage, QueueProcess.buffered, empty] at put
      exact .inl (by simpa [Feeder.hand] using put)
  | popping =>
      have popped := rest .pop rfl
      simp [PickledQueue.step, PickledQueue.feederStep, stage] at popped
  | holding obj =>
      have dumped := rest .dumps rfl
      simp only [PickledQueue.step, PickledQueue.feederStep, stage] at dumped
      split at dumped <;> cases dumped
  | sending obj =>
      have sent := rest .send rfl
      simp [PickledQueue.step, PickledQueue.feederStep, stage] at sent
  | finished => exact absurd stage progress.unclosed.2
  | crashed =>
      obtain ⟨obj, lost, refused⟩ := progress.crashed stage
      refine .inr ⟨obj, ?_, refused⟩
      rw [put, List.append_assoc]
      exact List.mem_append_left _ lost

theorem Progress.delivers_at_rest (progress : queue.Progress dumps consumed)
    (rest : queue.AtRest dumps) :
    queue.Delivers dumps ↔ ∀ obj ∈ queue.put, serialisable dumps obj = true := by
  have slots := progress.slots
  constructor
  · intro delivers
    have used := delivers.slots
    have all : (queue.put.filter (serialisable dumps)).length = queue.put.length := by
      rw [← delivers.sent]
      omega
    exact List.filter_eq_self.mp ((List.filter_sublist).eq_of_length all)
  · intro all
    have whole : queue.put = consumed := by
      rcases progress.atRest rest with whole | ⟨obj, put, refused⟩
      · exact whole
      · rw [all obj put] at refused
        cases refused
    have sent := progress.sent
    rw [← whole] at sent
    have same : queue.sent = queue.put := sent.trans (List.filter_eq_self.mpr all)
    exact ⟨sent, by rw [same]; exact slots⟩

/-- The feeder always comes to rest, and has then sent what it should and given back all slots
exactly if every object was serialisable. -/
theorem delivers_iff {maxsize : Nat} {labels : List (PickledStep α)} {last : PickledQueue α}
    (ran : run (step dumps) (init maxsize) labels = some last) :
    last.ComesToRest dumps ∧ (last.AtRest dumps →
      (last.Delivers dumps ↔ ∀ obj ∈ last.put, serialisable dumps obj = true)) := by
  obtain ⟨consumed, progress⟩ := progress_of_run (Progress.init maxsize) ran
  exact ⟨exists_rest rank (fun _ _ _ feeds taken => rank_lt feeds taken) last,
    progress.delivers_at_rest⟩

/-- Numbers, of which zero cannot be serialised. -/
def dumpsPositive : Nat → Dumped
  | 0 => .error
  | _ + 1 => .bytes

/-- Two objects go through a queue for one. -/
def twoSent : List (PickledStep Nat) :=
  [.acquire 3, .append 0, .wake, .pop, .dumps, .send, .pop, .receive, .release,
    .acquire 5, .append 0, .wake, .pop, .dumps, .send, .pop]

theorem delivers_twoSent : ∃ last, run (step dumpsPositive) (init 1) twoSent = some last ∧
    last.put = [3, 5] ∧ (last.AtRest dumpsPositive → last.Delivers dumpsPositive) := by
  refine ⟨_, rfl, rfl, fun rest => ?_⟩
  have ran : run (step dumpsPositive) (init 1) twoSent = some _ := rfl
  exact ((delivers_iff ran).2 rest).mpr (by decide)

/-- What is put behind an object that cannot be serialised stays in the buffer. -/
theorem not_delivers : ¬∀ labels last, run (step dumpsPositive) (init 2) labels = some last →
    last.AtRest dumpsPositive → last.Delivers dumpsPositive := by
  intro always
  have delivers := always [.acquire 0, .append 0, .acquire 5, .append 0, .wake, .pop, .dumps] _ rfl
    (by
      intro label feeds
      cases label with
      | wake => rfl
      | pop => rfl
      | dumps => rfl
      | send => rfl
      | acquire obj => cases feeds
      | append call => cases feeds
      | receive => cases feeds
      | release => cases feeds)
  exact absurd delivers.sent (by decide)

end PickledQueue

end Billiard
