import Billiard.Data.Transition
import Billiard.Heap.WellFormed

/-! What `malloc` and `free` calls in one process do to its heap.  A call that
holds `_lock` flushes the pending list one block at a time; until it releases the
lock, any number of other `free` calls may find it taken and append to that list. -/

namespace Billiard

open Transition

/-- The call that holds `_lock`. -/
inductive Request where
  | malloc (size : Nat)
  | free (block : Block)
deriving DecidableEq

/-- `live` are the blocks `malloc` returned and nobody has passed to `free`. -/
structure Session where
  heap : Heap
  holder : Option Request
  live : Finset Block
  fault : Option HeapFault

inductive Action where
  | malloc (size : Nat)
  | free (block : Block)
  | freeLocked (block : Block)
  | freePending
deriving DecidableEq

namespace Session

def init (pid size : Nat) : Session :=
  ⟨Heap.init pid size, none, ∅, none⟩

def fail (session : Session) (fault : HeapFault) : Session :=
  { session with fault := some fault }

/-- What the holder of the lock does once it has found the pending list empty, down to the
release; it does not look at that list again, so that frees meanwhile make no difference to it.
`mapped` tells whether the arena that `malloc` may ask for is created. -/
def finish (pageShift : Nat) (mapped : Bool) (session : Session) : Request → Session
  | .malloc size =>
      match session.heap.carve pageShift mapped size with
      | .ok (heap, block) =>
          { session with heap, holder := none, live := insert block session.live }
      | .error (.arenaError heap) => { session with heap, holder := none }
      | .error fault => session.fail fault
  | .free block =>
      match session.heap.freeBlock block with
      | .error fault => session.fail fault
      | .ok heap => { session with heap, holder := none }

/-- `malloc` and `free` take the lock, `freeLocked` finds it taken.  A caller
frees only what `malloc` returned, and each block once. -/
def step (pid : Nat) (session : Session) : Action → Option Session
  | .malloc size =>
      if session.fault.isNone ∧ session.holder = none ∧ size < maxsize then
        some { session with holder := some (.malloc size) }
      else none
  | .free block =>
      if session.fault.isNone ∧ session.holder = none ∧ block ∈ session.live then
        some { session with
          holder := some (.free block)
          live := session.live.erase block }
      else none
  | .freeLocked block =>
      if session.fault.isNone ∧ session.holder.isSome ∧ block ∈ session.live then
        match session.heap.free pid true block with
        | .error fault => some (session.fail fault)
        | .ok heap => some { session with heap, live := session.live.erase block }
      else none
  | .freePending =>
      if session.fault.isNone ∧ session.holder.isSome then
        session.heap.freePendingBlock.map fun
          | .error fault => session.fail fault
          | .ok heap => { session with heap }
      else none

structure Invariant (pid : Nat) (session : Session) : Prop where
  faultless : session.fault = none
  wellFormed : session.heap.WellFormed
  pid_eq : session.heap.lastpid = pid
  live : ∀ block ∈ session.live, block ∈ session.heap.allocatedBlocks ∧
    block ∉ session.heap.pendingFreeBlocks ∧ session.holder ≠ some (.free block)
  holder : ∀ block, session.holder = some (.free block) →
    block ∈ session.heap.allocatedBlocks ∧ block ∉ session.heap.pendingFreeBlocks
  accounted : ∀ block ∈ session.heap.allocatedBlocks, block ∈ session.live ∨
    block ∈ session.heap.pendingFreeBlocks ∨ session.holder = some (.free block)

theorem init_invariant (pid size : Nat) : (init pid size).Invariant pid where
  faultless := rfl
  wellFormed := Heap.init_wellFormed pid size
  pid_eq := rfl
  live := by simp [init]
  holder := by simp [init]
  accounted := by simp [init, Heap.init]

variable {pageShift pid : Nat} {session next : Session}

theorem Invariant.malloc {size : Nat} (invariant : session.Invariant pid)
    (taken : step pid session (.malloc size) = some next) : next.Invariant pid := by
  simp only [step, Option.ite_none_right_eq_some, Option.some.injEq] at taken
  obtain ⟨⟨_, idle, _⟩, rfl⟩ := taken
  exact {
    invariant with
    live := fun block member =>
      ⟨(invariant.live block member).1, (invariant.live block member).2.1, by simp⟩
    holder := by simp
    accounted := fun block member => by
      have before := invariant.accounted block member
      rw [idle] at before
      simpa using before }

theorem Invariant.free {block : Block} (invariant : session.Invariant pid)
    (taken : step pid session (.free block) = some next) : next.Invariant pid := by
  simp only [step, Option.ite_none_right_eq_some, Option.some.injEq] at taken
  obtain ⟨⟨_, idle, member⟩, rfl⟩ := taken
  obtain ⟨allocated, notPending, _⟩ := invariant.live block member
  exact {
    invariant with
    live := fun other kept => by
      obtain ⟨different, old⟩ := Finset.mem_erase.mp kept
      refine ⟨(invariant.live other old).1, (invariant.live other old).2.1, ?_⟩
      intro same
      cases same
      exact different rfl
    holder := fun other same => by
      cases same
      exact ⟨allocated, notPending⟩
    accounted := fun other old => by
      have before := invariant.accounted other old
      rw [idle] at before
      by_cases same : other = block
      · exact .inr (.inr (by rw [same]))
      · rcases before with before | before | before
        · exact .inl (Finset.mem_erase.mpr ⟨same, before⟩)
        · exact .inr (.inl before)
        · cases before }

theorem Invariant.free_locked (invariant : session.Invariant pid) (block : Block) :
    session.heap.free pid true block = .ok { session.heap with
      pendingFreeBlocks := session.heap.pendingFreeBlocks ++ [block] } := by
  simp [Heap.free, invariant.pid_eq, pure, Except.pure]

theorem Invariant.freeLocked {block : Block} (invariant : session.Invariant pid)
    (taken : step pid session (.freeLocked block) = some next) :
    next.Invariant pid := by
  simp only [step, invariant.free_locked, Option.ite_none_right_eq_some, Option.some.injEq] at taken
  obtain ⟨⟨_, _, member⟩, rfl⟩ := taken
  obtain ⟨allocated, notPending, notHolder⟩ := invariant.live block member
  exact {
    faultless := invariant.faultless
    wellFormed := invariant.wellFormed.defer allocated notPending
    pid_eq := invariant.pid_eq
    live := fun other kept => by
      obtain ⟨different, old⟩ := Finset.mem_erase.mp kept
      have before := invariant.live other old
      exact ⟨before.1, by simp [before.2.1, different], before.2.2⟩
    holder := fun other same => by
      have before := invariant.holder other same
      refine ⟨before.1, ?_⟩
      rw [List.mem_append, List.mem_singleton, not_or]
      refine ⟨before.2, ?_⟩
      rintro rfl
      exact notHolder same
    accounted := fun other old => by
      by_cases same : other = block
      · exact .inr (.inl (by simp [same]))
      · have before := invariant.accounted other old
        simpa [Finset.mem_erase, same] using before }

theorem Invariant.freePending (invariant : session.Invariant pid)
    (taken : step pid session .freePending = some next) : next.Invariant pid := by
  simp only [step, Option.ite_none_right_eq_some, Option.map_eq_some_iff] at taken
  obtain ⟨_, outcome, popped, rfl⟩ := taken
  obtain ⟨front, block, split⟩ := Heap.pending_of_freePendingBlock popped
  obtain ⟨index, freed, after, _⟩ := Heap.freePendingBlock_spec invariant.wellFormed split
  rw [freed, Option.some.injEq] at popped
  subst popped
  exact {
    faultless := invariant.faultless
    wellFormed := after
    pid_eq := invariant.pid_eq
    live := fun other member => by
      have before := invariant.live other member
      simp only [split, List.mem_append, List.mem_singleton, not_or] at before
      exact ⟨Finset.mem_erase.mpr ⟨before.2.1.2, before.1⟩, before.2.1.1, before.2.2⟩
    holder := fun other same => by
      have before := invariant.holder other same
      simp only [split, List.mem_append, List.mem_singleton, not_or] at before
      exact ⟨Finset.mem_erase.mpr ⟨before.2.2, before.1⟩, before.2.1⟩
    accounted := fun other kept => by
      obtain ⟨different, old⟩ := Finset.mem_erase.mp kept
      have before := invariant.accounted other old
      simpa [split, different] using before }

theorem Invariant.finishMalloc {size : Nat} (invariant : session.Invariant pid)
    (holding : session.holder = some (.malloc size)) :
    (finish pageShift true session (.malloc size)).Invariant pid := by
  obtain ⟨heap, block, ran, wellFormed, fresh, allocated, pending, lastpid, _⟩ :=
    Heap.carve_spec pageShift invariant.wellFormed size
  simp only [finish, ran]
  exact {
    faultless := invariant.faultless
    wellFormed := wellFormed
    pid_eq := lastpid.trans invariant.pid_eq
    live := fun other member => by
      rw [allocated, pending]
      refine ⟨?_, ?_, by simp⟩
      · rcases Finset.mem_insert.mp member with rfl | old
        · exact Finset.mem_insert_self _ _
        · exact Finset.mem_insert_of_mem (invariant.live other old).1
      · rcases Finset.mem_insert.mp member with rfl | old
        · exact fun listed => fresh (invariant.wellFormed.pending_allocated _ listed)
        · exact (invariant.live other old).2.1
    holder := by simp
    accounted := fun other member => by
      rw [allocated] at member
      rw [pending]
      rcases Finset.mem_insert.mp member with rfl | old
      · exact .inl (Finset.mem_insert_self _ _)
      · have before := invariant.accounted other old
        rw [holding] at before
        rcases before with before | before | before
        · exact .inl (Finset.mem_insert_of_mem before)
        · exact .inr (.inl before)
        · cases before }

theorem Invariant.finishFree {block : Block} (mapped : Bool) (invariant : session.Invariant pid)
    (holding : session.holder = some (.free block)) :
    (finish pageShift mapped session (.free block)).Invariant pid := by
  obtain ⟨allocated, notPending⟩ := invariant.holder block holding
  obtain ⟨index, ran, after, _⟩ := Heap.freeBlock_spec invariant.wellFormed allocated notPending
  simp only [finish, ran]
  exact {
    faultless := invariant.faultless
    wellFormed := after
    pid_eq := invariant.pid_eq
    live := fun other member => by
      have before := invariant.live other member
      refine ⟨Finset.mem_erase.mpr ⟨?_, before.1⟩, before.2.1, by simp⟩
      rintro rfl
      exact before.2.2 holding
    holder := by simp
    accounted := fun other kept => by
      obtain ⟨different, old⟩ := Finset.mem_erase.mp kept
      have before := invariant.accounted other old
      rw [holding] at before
      rcases before with before | before | before
      · exact .inl before
      · exact .inr (.inl before)
      · cases before
        exact absurd rfl different }

theorem Invariant.step (session : Session) (action : Action) (next : Session)
    (invariant : session.Invariant pid)
    (taken : Session.step pid session action = some next) : next.Invariant pid := by
  cases action with
  | malloc size => exact invariant.malloc taken
  | free block => exact invariant.free taken
  | freeLocked block => exact invariant.freeLocked taken
  | freePending => exact invariant.freePending taken

/-- While nobody is in the middle of `free`. -/
theorem Invariant.nothing_allocated (invariant : session.Invariant pid)
    (settled : ∀ block, session.holder ≠ some (.free block)) (freed : session.live = ∅)
    (flushed : session.heap.pendingFreeBlocks = []) : session.heap.allocatedBlocks = ∅ := by
  apply Finset.eq_empty_of_forall_notMem
  intro block member
  have before := invariant.accounted block member
  simp [settled block, freed, flushed] at before

end Session

end Billiard
