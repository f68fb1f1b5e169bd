import Billiard.Heap.Session

/-! Every sequence of `malloc` and `free` calls, and what `malloc` promises of the block it
returns, in every state the heap of a process can be in: any number of calls have ended or are
under way, some of the arenas they asked for could not be created, and the process may be the
child of a fork that inherited the heap. -/

namespace Billiard

open Transition

namespace Heap

/-- The heap `malloc` works on: a child of a fork starts with an empty one. -/
def begun (pageShift pid : Nat) (heap : Heap) : Heap :=
  if pid ≠ heap.lastpid then init pid (pagesize pageShift) else heap

def Aligned (heap : Heap) : Prop :=
  ∀ block ∈ heap.parts, alignment ∣ block.start

/-- `heap` is the heap after the flush and `next` the heap `malloc` leaves behind. -/
structure Allocates (heap next : Heap) (size : Nat) (block : Block) : Prop where
  aligned : alignment ∣ block.start
  length : IsLeast {length | alignment ∣ length ∧ max size 1 ≤ length} block.length
  known : block.arena ∈ next.arenas
  nonempty : block.start < block.stop
  inside : block.stop ≤ block.arena.size
  apart : ∀ other ∈ heap.allocatedBlocks, other.arena = block.arena →
    other.stop ≤ block.start ∨ block.stop ≤ other.start
  allocated : next.allocatedBlocks = insert block heap.allocatedBlocks
  carved : heap.Carved next block
  represents : next.toFreeIndex.Represents next.toFreeIndex.blocks

variable {heap next : Heap} {block : Block} {size : Nat}

theorem malloc_eq (pageShift pid : Nat) (mapped : Bool) (heap : Heap) {size : Nat}
    (bounded : size < maxsize) :
    heap.malloc pageShift pid mapped size =
      (heap.begun pageShift pid).freePendingBlocks >>= fun flushed =>
        flushed.carve pageShift mapped size := by
  simp only [malloc, if_neg (not_not.mpr bounded)]
  rfl

theorem WellFormed.single_free (wellFormed : heap.WellFormed)
    (nothing : heap.allocatedBlocks = ∅) :
    ∀ arena ∈ heap.arenas, ∀ block,
      block ∈ heap.toFreeIndex.blocks ∧ block.arena = arena ↔ block = ⟨arena, 0, arena.size⟩ := by
  intro arena member block
  have layout := wellFormed.layout
  rw [nothing, Finset.coe_empty] at layout
  exact layout.all_free member (wellFormed.positive arena member) block

theorem init_aligned (pid size : Nat) : (init pid size).Aligned := by
  have none_free : (init pid size).toFreeIndex.blocks = ∅ := FreeIndex.represents_empty.blocks_eq
  rintro block (free | allocated)
  · rw [none_free] at free
    exact absurd free (Set.notMem_empty block)
  · exact absurd allocated (Finset.notMem_empty block)

theorem Aligned.of_startsAmong (aligned : heap.Aligned)
    (starts : StartsAmong next.parts heap.parts) : next.Aligned := by
  intro block member
  obtain ⟨old, known, _, same⟩ := starts block member
  exact same ▸ aligned old known

theorem Aligned.start_carved (aligned : heap.Aligned) (carved : heap.Carved next block) :
    alignment ∣ block.start := by
  obtain ⟨found, _, start, _, source, _⟩ := carved
  rw [← start]
  rcases source with ⟨member, _⟩ | ⟨_, whole, _⟩
  · exact aligned found (.inl member)
  · rw [whole]
    exact ⟨0, rfl⟩

theorem Aligned.carved (aligned : heap.Aligned) (carved : heap.Carved next block)
    (stop : alignment ∣ block.stop)
    (allocated : next.allocatedBlocks = insert block heap.allocatedBlocks) : next.Aligned := by
  have start := aligned.start_carved carved
  obtain ⟨found, _, _, _, _, free⟩ := carved
  rintro other (member | member)
  · rw [free] at member
    rcases member with ⟨old, _⟩ | ⟨rfl, _⟩
    · exact aligned other (.inl old)
    · exact stop
  · have inserted : other ∈ insert block heap.allocatedBlocks := allocated ▸ member
    rcases Finset.mem_insert.mp inserted with rfl | old
    · exact start
    · exact aligned other (.inr old)

theorem carve_allocates (pageShift : Nat) (wellFormed : heap.WellFormed) (aligned : heap.Aligned)
    (size : Nat) :
    ∃ next block, heap.carve pageShift true size = .ok (next, block) ∧ next.Aligned ∧
      heap.Allocates next size block := by
  obtain ⟨next, block, ran, after, fresh, allocated, _, _, stop, carved⟩ :=
    carve_spec pageShift wellFormed size
  have least : IsLeast {length | alignment ∣ length ∧ max size 1 ≤ length}
      (roundup (max size 1) alignment) := roundup_isLeast (max size 1) 3
  have start := aligned.start_carved carved
  have member : block ∈ next.toFreeIndex.blocks ∪ {other | other ∈ next.allocatedBlocks} ∪ ∅ :=
    .inl (.inr (allocated ▸ Finset.mem_insert_self _ _))
  refine ⟨next, block, ran, aligned.carved carved ?_ allocated, ?_⟩
  · rw [stop]
    exact Nat.dvd_add start least.1.1
  · exact {
      aligned := start
      length := by
        have length : block.length = roundup (max size 1) alignment := by
          simp [Block.length, stop]
        exact length ▸ least
      known := after.layout.known block member
      nonempty := after.layout.nonempty member
      inside := after.layout.inside member
      apart := by
        intro other old sameArena
        refine after.layout.apart ?_ member sameArena fun same => fresh (same ▸ old)
        exact .inl (.inr (allocated ▸ Finset.mem_insert_of_mem old))
      allocated := allocated
      carved := carved
      represents := after.represents }

/-- Only a request for which no free block is long enough can fail, and the
failure doubles `_size`. -/
theorem carve_unmapped (pageShift : Nat) (heap : Heap) (size : Nat) :
    heap.carve pageShift false size = heap.carve pageShift true size ∨
      heap.carve pageShift false size =
        .error (.arenaError { heap with size := heap.size * 2 }) := by
  by_cases none_long : Bisect.bisectLeft heap.lengths (roundup (max size 1) alignment) =
      heap.lengths.length
  · right
    simp [carve, mallocBlock, none_long, bind, Except.bind]
  · left
    simp [carve, mallocBlock, none_long]

end Heap

namespace Session

variable {pageShift pid : Nat} {session next : Session}

/-- Only the end of a call can let a block start where none did. -/
theorem startsAmong_step {action : Action} (invariant : session.Invariant pid)
    (taken : session.step pid action = some next) :
    StartsAmong next.heap.parts session.heap.parts := by
  cases action with
  | malloc size =>
      simp only [step, Option.ite_none_right_eq_some, Option.some.injEq] at taken
      obtain ⟨_, rfl⟩ := taken
      exact .of_subset (Set.Subset.refl _)
  | free block =>
      simp only [step, Option.ite_none_right_eq_some, Option.some.injEq] at taken
      obtain ⟨_, rfl⟩ := taken
      exact .of_subset (Set.Subset.refl _)
  | freeLocked block =>
      simp only [step, invariant.free_locked, Option.ite_none_right_eq_some,
        Option.some.injEq] at taken
      obtain ⟨_, rfl⟩ := taken
      exact .of_subset (Set.Subset.refl _)
  | freePending =>
      simp only [step, Option.ite_none_right_eq_some, Option.map_eq_some_iff] at taken
      obtain ⟨_, outcome, popped, rfl⟩ := taken
      obtain ⟨front, block, listed⟩ := Heap.pending_of_freePendingBlock popped
      obtain ⟨index, freed, _, starts⟩ :=
        Heap.freePendingBlock_spec invariant.wellFormed listed
      rw [freed, Option.some.injEq] at popped
      subst popped
      exact starts

theorem Invariant.unmapped {size length : Nat} (invariant : session.Invariant pid)
    (holding : session.holder = some (.malloc size)) :
    Invariant pid { session with
      heap := { session.heap with size := length }
      holder := none } where
  faultless := invariant.faultless
  wellFormed := { invariant.wellFormed with }
  pid_eq := invariant.pid_eq
  live := fun block member =>
    ⟨(invariant.live block member).1, (invariant.live block member).2.1, by simp⟩
  holder := by simp
  accounted := fun block member => by
    have before := invariant.accounted block member
    rw [holding] at before
    simpa using before

theorem Invariant.finish (pageShift : Nat) (mapped : Bool) {request : Request}
    (invariant : session.Invariant pid) (aligned : session.heap.Aligned)
    (holding : session.holder = some request) :
    (session.finish pageShift mapped request).Invariant pid ∧
      (session.finish pageShift mapped request).heap.Aligned := by
  cases request with
  | malloc size =>
      obtain ⟨heap, block, carved, after, _⟩ :=
        Heap.carve_allocates pageShift invariant.wellFormed aligned size
      have ended : (session.finish pageShift true (.malloc size)).Invariant pid :=
        invariant.finishMalloc holding
      have created : session.heap.carve pageShift mapped size = .ok (heap, block) ∨
          session.heap.carve pageShift mapped size =
            .error (.arenaError { session.heap with size := session.heap.size * 2 }) := by
        cases mapped with
        | true => exact .inl carved
        | false => exact carved ▸ Heap.carve_unmapped pageShift session.heap size
      simp only [Session.finish, carved] at ended
      rcases created with created | failed
      · simp only [Session.finish, created]
        exact ⟨ended, after⟩
      · simp only [Session.finish, failed]
        exact ⟨invariant.unmapped holding, aligned⟩
  | free block =>
      obtain ⟨allocated, notPending⟩ := invariant.holder block holding
      obtain ⟨index, freed, _, starts⟩ :=
        Heap.freeBlock_spec invariant.wellFormed allocated notPending
      have ended : (session.finish pageShift mapped (.free block)).Invariant pid :=
        invariant.finishFree mapped holding
      refine ⟨ended, ?_⟩
      simp only [Session.finish, freed]
      exact aligned.of_startsAmong starts

end Session

/-- The heap of a process.  `drained` tells that the holder of the lock found the
pending list empty: what is appended from then on waits for the next call. -/
structure Allocator where
  session : Session
  pid : Nat
  drained : Bool

namespace Allocator

inductive Action where
  | malloc (size : Nat)
  | free (block : Block)
  | freeLocked (block : Block)
  | freePending
  | drain
  | finish (mapped : Bool)
  | fork (pid : Nat)
deriving DecidableEq

def init (pid size : Nat) : Allocator :=
  ⟨Session.init pid size, pid, false⟩

def Owned (allocator : Allocator) : Prop :=
  allocator.pid = allocator.session.heap.lastpid

instance (allocator : Allocator) : Decidable allocator.Owned :=
  inferInstanceAs (Decidable (_ = _))

/-- A child of a fork can only inherit the heap further or start its own with `malloc`. -/
def step (pageShift : Nat) (allocator : Allocator) : Action → Option Allocator
  | .malloc size =>
      let session := if allocator.Owned then allocator.session
        else Session.init allocator.pid (pagesize pageShift)
      (session.step allocator.pid (.malloc size)).map fun session =>
        { allocator with session, drained := false }
  | .free block =>
      if allocator.Owned then
        (allocator.session.step allocator.pid (.free block)).map fun session =>
          { allocator with session, drained := false }
      else none
  | .freeLocked block =>
      if allocator.Owned then
        (allocator.session.step allocator.pid (.freeLocked block)).map fun session =>
          { allocator with session }
      else none
  | .freePending =>
      if allocator.Owned ∧ ¬allocator.drained then
        (allocator.session.step allocator.pid .freePending).map fun session =>
          { allocator with session }
      else none
  | .drain =>
      if allocator.Owned ∧ allocator.session.holder.isSome ∧
          allocator.session.heap.freePendingBlock.isNone then
        some { allocator with drained := true }
      else none
  | .finish mapped =>
      if allocator.Owned ∧ allocator.drained then
        allocator.session.holder.map fun request =>
          { allocator with
            session := allocator.session.finish pageShift mapped request
            drained := false }
      else none
  | .fork pid => some { allocator with pid }

structure Invariant (allocator : Allocator) : Prop where
  session : allocator.session.Invariant allocator.session.heap.lastpid
  aligned : allocator.session.heap.Aligned

theorem init_invariant (pid size : Nat) : (init pid size).Invariant where
  session := Session.init_invariant pid size
  aligned := Heap.init_aligned pid size

variable {pageShift : Nat} {allocator next : Allocator}

theorem invariant_of_session {session : Session} {pid owner : Nat} {drained : Bool}
    (invariant : session.Invariant owner) (aligned : session.heap.Aligned) :
    Invariant ⟨session, pid, drained⟩ where
  session := by
    rw [invariant.pid_eq]
    exact invariant
  aligned := aligned

theorem invariant_of_step {session after : Session} {action : Billiard.Action}
    {owner pid : Nat} {drained : Bool}
    (invariant : session.Invariant owner) (aligned : session.heap.Aligned)
    (taken : session.step owner action = some after) :
    Invariant ⟨after, pid, drained⟩ :=
  invariant_of_session (Session.Invariant.step session action after invariant taken)
    (aligned.of_startsAmong (Session.startsAmong_step invariant taken))

theorem Invariant.owned (invariant : allocator.Invariant) (owned : allocator.Owned) :
    allocator.session.Invariant allocator.pid :=
  owned ▸ invariant.session

theorem Invariant.step (allocator : Allocator) (action : Action) (next : Allocator)
    (invariant : allocator.Invariant)
    (taken : allocator.step pageShift action = some next) : next.Invariant := by
  cases action with
  | malloc size =>
      simp only [Allocator.step, Option.map_eq_some_iff] at taken
      obtain ⟨after, begun, rfl⟩ := taken
      by_cases owned : allocator.Owned
      · rw [if_pos owned] at begun
        exact invariant_of_step (invariant.owned owned) invariant.aligned begun
      · rw [if_neg owned] at begun
        exact invariant_of_step (Session.init_invariant _ _) (Heap.init_aligned _ _) begun
  | free block =>
      simp only [Allocator.step, Option.ite_none_right_eq_some, Option.map_eq_some_iff] at taken
      obtain ⟨owned, after, begun, rfl⟩ := taken
      exact invariant_of_step (invariant.owned owned) invariant.aligned begun
  | freeLocked block =>
      simp only [Allocator.step, Option.ite_none_right_eq_some, Option.map_eq_some_iff] at taken
      obtain ⟨owned, after, deferred, rfl⟩ := taken
      exact invariant_of_step (invariant.owned owned) invariant.aligned deferred
  | freePending =>
      simp only [Allocator.step, Option.ite_none_right_eq_some, Option.map_eq_some_iff] at taken
      obtain ⟨⟨owned, _⟩, after, flushed, rfl⟩ := taken
      exact invariant_of_step (invariant.owned owned) invariant.aligned flushed
  | drain =>
      simp only [Allocator.step, Option.ite_none_right_eq_some, Option.some.injEq] at taken
      obtain ⟨_, rfl⟩ := taken
      exact ⟨invariant.session, invariant.aligned⟩
  | finish mapped =>
      simp only [Allocator.step, Option.ite_none_right_eq_some, Option.map_eq_some_iff] at taken
      obtain ⟨⟨owned, _⟩, request, holding, rfl⟩ := taken
      have ended := (invariant.owned owned).finish pageShift mapped invariant.aligned holding
      exact invariant_of_session ended.1 ended.2
  | fork pid =>
      cases taken
      exact ⟨invariant.session, invariant.aligned⟩

theorem Invariant.begun (pageShift pid : Nat) (invariant : allocator.Invariant) :
    (allocator.session.heap.begun pageShift pid).WellFormed ∧
      (allocator.session.heap.begun pageShift pid).Aligned := by
  simp only [Heap.begun]
  split
  · exact ⟨Heap.init_wellFormed _ _, Heap.init_aligned _ _⟩
  · exact ⟨invariant.session.wellFormed, invariant.aligned⟩

theorem Invariant.malloc (invariant : allocator.Invariant) {size : Nat}
    (bounded : size < maxsize) :
    ∃ flushed next block,
      (allocator.session.heap.begun pageShift allocator.pid).freePendingBlocks = .ok flushed ∧
      flushed.allocatedBlocks =
        (allocator.session.heap.begun pageShift allocator.pid).allocatedBlocks \
          (allocator.session.heap.begun pageShift allocator.pid).pendingFreeBlocks.toFinset ∧
      allocator.session.heap.malloc pageShift allocator.pid true size = .ok (next, block) ∧
      flushed.Allocates next size block := by
  obtain ⟨wellFormed, aligned⟩ := invariant.begun pageShift allocator.pid
  obtain ⟨flushed, ran, after, _, _, allocated, starts⟩ :=
    Heap.freePendingBlocks_spec wellFormed
  obtain ⟨next, block, carved, _, allocates⟩ :=
    Heap.carve_allocates pageShift after (aligned.of_startsAmong starts) size
  refine ⟨flushed, next, block, ran, allocated, ?_, allocates⟩
  rw [Heap.malloc_eq _ _ _ _ bounded, ran]
  exact carved

theorem freePendingBlock_lastpid {heap freed : Heap} (wellFormed : heap.WellFormed)
    (popped : heap.freePendingBlock = some (.ok freed)) :
    freed.WellFormed ∧ freed.lastpid = heap.lastpid := by
  obtain ⟨front, block, listed⟩ := Heap.pending_of_freePendingBlock popped
  obtain ⟨index, freed, after, _⟩ := Heap.freePendingBlock_spec wellFormed listed
  cases freed.symm.trans popped
  exact ⟨after, rfl⟩

/-- The loop of `_free_pending_blocks`, while nobody else does anything. -/
theorem freePendingRounds_run (rounds : Nat) {heap : Heap} (owned : allocator.Owned)
    (fresh : allocator.drained = false) (faultless : allocator.session.fault = none)
    (busy : allocator.session.holder.isSome) (wellFormed : allocator.session.heap.WellFormed)
    (flushed : Heap.freePendingRounds rounds allocator.session.heap = .ok heap) :
    Reachable (step pageShift) allocator
      { allocator with session := { allocator.session with heap } } := by
  induction rounds generalizing allocator with
  | zero =>
      cases flushed
      exact Reachable.refl allocator
  | succ rounds ih =>
      cases popped : allocator.session.heap.freePendingBlock with
      | none =>
          simp only [Heap.freePendingRounds, popped, Except.ok.injEq] at flushed
          subst flushed
          exact Reachable.refl allocator
      | some outcome =>
          cases outcome with
          | error fault => simp [Heap.freePendingRounds, popped, Except.bind] at flushed
          | ok freed =>
              simp only [Heap.freePendingRounds, popped, Except.bind] at flushed
              obtain ⟨after, same⟩ := freePendingBlock_lastpid wellFormed popped
              have taken : step pageShift allocator .freePending =
                  some { allocator with session := { allocator.session with heap := freed } } := by
                simp [step, Session.step, owned, fresh, faultless, busy, popped]
              have still : Owned { allocator with
                  session := { allocator.session with heap := freed } } := owned.trans same.symm
              exact Reachable.head taken (ih still fresh faultless busy after flushed)

/-- A call from the flush to the release of the lock. -/
theorem finish_run {request : Request} {heap : Heap} (mapped : Bool)
    (owned : allocator.Owned) (fresh : allocator.drained = false)
    (faultless : allocator.session.fault = none)
    (holding : allocator.session.holder = some request)
    (wellFormed : allocator.session.heap.WellFormed)
    (flushed : allocator.session.heap.freePendingBlocks = .ok heap) :
    Reachable (step pageShift) allocator { allocator with
      session := { allocator.session with heap }.finish pageShift mapped request } := by
  obtain ⟨_, ran, _, drained, same, _⟩ := Heap.freePendingBlocks_spec wellFormed
  cases ran.symm.trans flushed
  have busy : allocator.session.holder.isSome := by simp [holding]
  have flush : Reachable (step pageShift) allocator
      { allocator with session := { allocator.session with heap } } :=
    freePendingRounds_run _ owned fresh faultless busy wellFormed ran
  have still : Owned { allocator with session := { allocator.session with heap } } :=
    owned.trans same.symm
  have empties : step pageShift
      { allocator with session := { allocator.session with heap } } .drain =
      some { allocator with session := { allocator.session with heap }, drained := true } := by
    simp [step, still, busy, Heap.freePendingBlock_eq_none.mpr drained]
  have ends : step pageShift
      { allocator with session := { allocator.session with heap }, drained := true }
        (.finish mapped) = some { allocator with
          session := { allocator.session with heap }.finish pageShift mapped request } := by
    have owns : Owned { allocator with
        session := { allocator.session with heap }, drained := true } := still
    simp only [step]
    rw [if_pos ⟨owns, trivial⟩]
    simp [holding, fresh]
  exact (flush.tail empties).tail ends

/-- The function `malloc` is such a run. -/
theorem malloc_run (invariant : allocator.Invariant) (owned : allocator.Owned)
    (idle : allocator.session.holder = none) {size : Nat} (bounded : size < maxsize) :
    ∃ heap block, allocator.session.heap.malloc pageShift allocator.pid true size =
        .ok (heap, block) ∧
      Reachable (step pageShift) allocator { allocator with
        session := { allocator.session with
          heap, live := insert block allocator.session.live }
        drained := false } := by
  obtain ⟨flushed, ran, wellFormed, _⟩ :=
    Heap.freePendingBlocks_spec invariant.session.wellFormed
  obtain ⟨heap, block, carved, _⟩ := Heap.carve_spec pageShift wellFormed size
  refine ⟨heap, block, ?_, ?_⟩
  · have samePid : ¬allocator.pid ≠ allocator.session.heap.lastpid := not_not.mpr owned
    rw [Heap.malloc_eq _ _ _ _ bounded, Heap.begun, if_neg samePid, ran]
    exact carved
  · have started : step pageShift allocator (.malloc size) = some { allocator with
        session := { allocator.session with holder := some (.malloc size) }
        drained := false } := by
      simp [step, Session.step, owned, invariant.session.faultless, idle, bounded]
    have finished : Reachable (step pageShift) _ _ := finish_run true
      (show Owned { allocator with
        session := { allocator.session with holder := some (.malloc size) }
        drained := false } from owned) rfl invariant.session.faultless rfl
      invariant.session.wellFormed ran
    simp only [Session.finish, carved] at finished
    simpa [idle] using Reachable.head started finished

/-- The function `free` is such a run, if it gets the lock. -/
theorem free_run (invariant : allocator.Invariant) (owned : allocator.Owned)
    (idle : allocator.session.holder = none) {block : Block}
    (member : block ∈ allocator.session.live) :
    ∃ heap, allocator.session.heap.free allocator.pid false block = .ok heap ∧
      Reachable (step pageShift) allocator { allocator with
        session := { allocator.session with
          heap, live := allocator.session.live.erase block }
        drained := false } := by
  have started : allocator.session.step allocator.pid (.free block) =
      some { allocator.session with
        holder := some (.free block)
        live := allocator.session.live.erase block } := by
    simp [Session.step, invariant.session.faultless, idle, member]
  have begun := (invariant.owned owned).free started
  obtain ⟨flushed, ran, wellFormed, drained, _, remaining, _⟩ :=
    Heap.freePendingBlocks_spec begun.wellFormed
  have allocated : block ∈ flushed.allocatedBlocks := by
    rw [remaining]
    simp [(begun.holder block rfl).1, (begun.holder block rfl).2]
  obtain ⟨index, freed, _⟩ := Heap.freeBlock_spec wellFormed allocated (by simp [drained])
  refine ⟨{ flushed with
      toFreeIndex := index
      allocatedBlocks := flushed.allocatedBlocks.erase block }, ?_, ?_⟩
  · have samePid : ¬allocator.pid ≠ allocator.session.heap.lastpid := not_not.mpr owned
    simp only [Heap.free, if_neg samePid, Bool.false_eq_true, if_false]
    rw [ran]
    exact freed
  · have taken : step pageShift allocator (.free block) = some { allocator with
        session := { allocator.session with
          holder := some (.free block)
          live := allocator.session.live.erase block }
        drained := false } := by
      simp [step, owned, started]
    have finished : Reachable (step pageShift) _ _ := finish_run true
      (show Owned { allocator with
        session := { allocator.session with
          holder := some (.free block)
          live := allocator.session.live.erase block }
        drained := false } from owned) rfl invariant.session.faultless rfl begun.wellFormed ran
    simp only [Session.finish, freed] at finished
    simpa [idle] using Reachable.head taken finished

/-- No call fails, whatever is freed while another one holds the lock, and the heap stays well
formed.  Once every block has been freed and the pending list is empty, each arena is a single free
block; and where that list is not empty yet, its flush makes it so. -/
theorem heap_stays_wellFormed (pageShift pid size : Nat) {actions : List Action}
    {allocator : Allocator}
    (ran : run (step pageShift) (init pid size) actions = some allocator) :
    allocator.session.fault = none ∧ allocator.session.heap.WellFormed ∧
      ((∀ block, allocator.session.holder ≠ some (.free block)) → allocator.session.live = ∅ →
        (allocator.session.heap.pendingFreeBlocks = [] →
          ∀ arena ∈ allocator.session.heap.arenas, ∀ block,
            block ∈ allocator.session.heap.toFreeIndex.blocks ∧ block.arena = arena ↔
              block = ⟨arena, 0, arena.size⟩) ∧
        ∃ flushed, allocator.session.heap.freePendingBlocks = .ok flushed ∧
          flushed.pendingFreeBlocks = [] ∧ ∀ arena ∈ flushed.arenas, ∀ block,
            block ∈ flushed.toFreeIndex.blocks ∧ block.arena = arena ↔
              block = ⟨arena, 0, arena.size⟩) := by
  have invariant : allocator.Invariant := invariant_run Invariant.step (init_invariant pid size) ran
  refine ⟨invariant.session.faultless, invariant.session.wellFormed, fun settled freed => ⟨?_, ?_⟩⟩
  · intro flushed
    exact invariant.session.wellFormed.single_free
      (invariant.session.nothing_allocated settled freed flushed)
  · obtain ⟨flushed, ran, after, drained, _, allocated, _⟩ :=
      Heap.freePendingBlocks_spec invariant.session.wellFormed
    refine ⟨flushed, ran, drained, after.single_free ?_⟩
    rw [allocated, Finset.sdiff_eq_empty_iff_subset]
    intro block member
    have before := invariant.session.accounted block member
    simpa [freed, settled block] using before

/-- Both blocks are freed, the first of them while `free` is at work on the second and has the
flush behind it. -/
def freedAfterFlush : List Action :=
  [.malloc 10, .drain, .finish true, .malloc 20, .drain, .finish true,
    .free ⟨⟨0, 4096⟩, 16, 40⟩, .drain, .freeLocked ⟨⟨0, 4096⟩, 0, 16⟩, .finish true]

theorem heap_stays_wellFormed_freedAfterFlush :
    ∃ allocator, run (step 12) (init 7 4096) freedAfterFlush = some allocator ∧
      allocator.session.holder = none ∧ allocator.session.live = ∅ ∧
      allocator.session.heap.pendingFreeBlocks = [⟨⟨0, 4096⟩, 0, 16⟩] ∧
      allocator.session.heap.WellFormed ∧
      ∃ flushed, allocator.session.heap.freePendingBlocks = .ok flushed ∧
        ∀ arena ∈ flushed.arenas, ∀ block,
          block ∈ flushed.toFreeIndex.blocks ∧ block.arena = arena ↔
            block = ⟨arena, 0, arena.size⟩ := by
  have ended : (run (step 12) (init 7 4096) freedAfterFlush).map
      (fun allocator => (allocator.session.holder, allocator.session.live,
        allocator.session.heap.pendingFreeBlocks)) =
        some (none, ∅, [⟨⟨0, 4096⟩, 0, 16⟩]) := by
    decide +kernel
  obtain ⟨allocator, ran, state⟩ := Option.map_eq_some_iff.mp ended
  obtain ⟨idle, rest⟩ := Prod.mk.inj state
  obtain ⟨freed, pending⟩ := Prod.mk.inj rest
  obtain ⟨_, wellFormed, single⟩ := heap_stays_wellFormed 12 7 4096 ran
  obtain ⟨flushed, flush, _, whole⟩ := (single (fun block => by rw [idle]; nofun) freed).2
  exact ⟨allocator, ran, idle, freed, pending, wellFormed, flushed, flush, whole⟩

/-- Every `malloc` whose arena is created returns a block cut to its request,
whatever was freed while another call held the lock. -/
theorem mallocs (pageShift pid size : Nat) {actions : List Action} {allocator : Allocator}
    (ran : run (step pageShift) (init pid size) actions = some allocator) :
    (∀ request, allocator.session.holder = some (.malloc request) → allocator.drained = true →
      allocator.session.live ⊆ allocator.session.heap.allocatedBlocks ∧
      ∃ next block, allocator.session.heap.carve pageShift true request = .ok (next, block) ∧
        allocator.session.heap.Allocates next request block) ∧
    ∀ request, request < maxsize →
      ∃ flushed next block,
        (allocator.session.heap.begun pageShift allocator.pid).freePendingBlocks = .ok flushed ∧
        flushed.allocatedBlocks =
          (allocator.session.heap.begun pageShift allocator.pid).allocatedBlocks \
            (allocator.session.heap.begun pageShift allocator.pid).pendingFreeBlocks.toFinset ∧
        allocator.session.heap.malloc pageShift allocator.pid true request = .ok (next, block) ∧
        flushed.Allocates next request block := by
  have invariant : allocator.Invariant := invariant_run Invariant.step (init_invariant pid size) ran
  constructor
  · intro request _ _
    obtain ⟨next, block, carved, _, allocates⟩ := Heap.carve_allocates pageShift
      invariant.session.wellFormed invariant.aligned request
    exact ⟨fun block member => (invariant.session.live block member).1, next, block, carved,
      allocates⟩
  · exact fun request bounded => invariant.malloc bounded

/-- A block is freed while another is being allocated, an arena cannot be
created, and a child of a fork starts a heap of its own. -/
def forkedAndFailed : List Action :=
  [.malloc 10, .drain, .finish true, .malloc 20, .drain,
    .freeLocked ⟨⟨0, 4096⟩, 0, 16⟩, .finish true, .malloc 5000, .freePending, .drain,
    .finish false, .fork 9, .malloc 3, .drain]

/-- One block is in use, and another one waits to be freed. -/
def oneDeferred : List Action :=
  [.malloc 10, .drain, .finish true, .malloc 20, .drain, .freeLocked ⟨⟨0, 4096⟩, 0, 16⟩,
    .finish true]

theorem mallocs_forkedAndFailed :
    (∃ allocator, run (step 12) (init 7 4096) forkedAndFailed = some allocator ∧
      ∃ next block, allocator.session.heap.carve 12 true 3 = .ok (next, block) ∧
        allocator.session.heap.Allocates next 3 block) ∧
    ∃ allocator, run (step 12) (init 7 4096) oneDeferred = some allocator ∧
      allocator.session.live = {⟨⟨0, 4096⟩, 16, 40⟩} ∧
      allocator.session.heap.pendingFreeBlocks = [⟨⟨0, 4096⟩, 0, 16⟩] ∧
      ∃ flushed next block,
        (allocator.session.heap.begun 12 allocator.pid).freePendingBlocks = .ok flushed ∧
        allocator.session.heap.malloc 12 allocator.pid true 5 = .ok (next, block) ∧
        flushed.Allocates next 5 block := by
  constructor
  · have ended : (run (step 12) (init 7 4096) forkedAndFailed).map
        (fun allocator => (allocator.session.holder, allocator.drained)) =
          some (some (.malloc 3), true) := by
      decide +kernel
    obtain ⟨allocator, ran, state⟩ := Option.map_eq_some_iff.mp ended
    obtain ⟨holding, drained⟩ := Prod.mk.inj state
    exact ⟨allocator, ran, ((mallocs 12 7 4096 ran).1 3 holding drained).2⟩
  · have ended : (run (step 12) (init 7 4096) oneDeferred).map
        (fun allocator => (allocator.session.live, allocator.session.heap.pendingFreeBlocks)) =
          some ({⟨⟨0, 4096⟩, 16, 40⟩}, [⟨⟨0, 4096⟩, 0, 16⟩]) := by
      decide +kernel
    obtain ⟨allocator, ran, state⟩ := Option.map_eq_some_iff.mp ended
    obtain ⟨live, pending⟩ := Prod.mk.inj state
    obtain ⟨flushed, next, block, flush, _, allocated, allocates⟩ :=
      (mallocs 12 7 4096 ran).2 5 (by decide)
    exact ⟨allocator, ran, live, pending, flushed, next, block, flush, allocated, allocates⟩

end Allocator

end Billiard
