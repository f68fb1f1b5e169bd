import Mathlib.Data.Finset.Sigma
import Mathlib.Data.Finset.Card
import Billiard.Data.Observation
import Billiard.Heap.Allocation

/-! A `malloc` whose arena cannot be created: `_malloc` doubles `_size` before it
creates the arena, so the failure is not undone. -/

namespace Billiard

open Observation Transition

namespace Heap

/-- The length of the arena that `malloc` asks for, when it asks for one. -/
def asked (pageShift pid : Nat) (heap : Heap) (size : Nat) : Option Nat :=
  match (heap.begun pageShift pid).freePendingBlocks with
  | .error _ => none
  | .ok flushed =>
      match flushed.mallocBlock pageShift true (roundup (max size 1) alignment) with
      | .error _ => none
      | .ok (next, _) => next.arenas[flushed.arenas.length]?.map Arena.size

/-- One call after another, as one thread makes them; `mapped` tells whether the
arena that a `malloc` may ask for is created. -/
inductive Call where
  | malloc (size : Nat) (mapped : Bool)
  | free (block : Block)
deriving DecidableEq

structure Reply where
  block : Option Block
  asked : Option Nat
deriving DecidableEq

def answer (pageShift pid : Nat) (heap : Heap) : Call → Reply × Heap
  | .malloc size mapped =>
      match heap.malloc pageShift pid mapped size with
      | .ok (next, block) => (⟨some block, heap.asked pageShift pid size⟩, next)
      | .error (.arenaError after) => (⟨none, heap.asked pageShift pid size⟩, after)
      | .error _ => (⟨none, none⟩, heap)
  | .free block =>
      match heap.free pid false block with
      | .ok next => (⟨none, none⟩, next)
      | .error _ => (⟨none, none⟩, heap)

def resized (heap : Heap) (size : Nat) : Heap :=
  { heap with size }

variable {pageShift pid : Nat} {heap next : Heap} {block : Block}

/-- The heap of the process between two calls, nothing being left to flush. -/
structure Settled (pid : Nat) (heap : Heap) : Prop where
  wellFormed : heap.WellFormed
  owned : pid = heap.lastpid
  flushed : heap.pendingFreeBlocks = []

theorem freePendingBlocks_eq (flushed : heap.pendingFreeBlocks = []) :
    heap.freePendingBlocks = .ok heap := by
  simp [freePendingBlocks, flushed, freePendingRounds]

theorem begun_owned (owned : pid = heap.lastpid) : heap.begun pageShift pid = heap :=
  if_neg (not_not.mpr owned)

theorem begun_foreign (foreign : pid ≠ heap.lastpid) :
    heap.begun pageShift pid = init pid (pagesize pageShift) :=
  if_pos foreign

theorem Settled.malloc (settled : Settled pid heap) {size : Nat} (bounded : size < maxsize)
    (mapped : Bool) :
    heap.malloc pageShift pid mapped size = heap.carve pageShift mapped size := by
  rw [malloc_eq _ _ _ _ bounded, begun_owned settled.owned,
    freePendingBlocks_eq settled.flushed]
  rfl

theorem bind_eq_ok {before : Except HeapFault α} {rest : α → Except HeapFault β} {result : β} :
    before >>= rest = .ok result ↔ ∃ value, before = .ok value ∧ rest value = .ok result := by
  cases before with
  | error fault => simp [bind, Except.bind]
  | ok value => simp [bind, Except.bind]

theorem carve_eq_ok {mapped : Bool} {size : Nat} :
    heap.carve pageShift mapped size = .ok (next, block) ↔
    ∃ middle found index,
      heap.mallocBlock pageShift mapped (roundup (max size 1) alignment) = .ok (middle, found) ∧
      (if found.start + roundup (max size 1) alignment < found.stop then
          middle.toFreeIndex.free
            { found with start := found.start + roundup (max size 1) alignment }
        else pure middle.toFreeIndex) = .ok index ∧
      block = { found with stop := found.start + roundup (max size 1) alignment } ∧
      next = { middle with
        toFreeIndex := index
        allocatedBlocks := insert block middle.allocatedBlocks } := by
  rw [carve, bind_eq_ok]
  constructor
  · rintro ⟨⟨middle, found⟩, ran, rest⟩
    by_cases left : found.start + roundup (max size 1) alignment < found.stop
    · simp only [if_pos left, bind_eq_ok] at rest
      obtain ⟨index, freed, same⟩ := rest
      cases same
      exact ⟨middle, found, index, ran, by rw [if_pos left, freed], rfl, rfl⟩
    · simp only [if_neg left] at rest
      cases rest
      exact ⟨middle, found, _, ran, by rw [if_neg left]; rfl, rfl, rfl⟩
  · rintro ⟨middle, found, index, ran, freed, rfl, rfl⟩
    refine ⟨(middle, found), ran, ?_⟩
    by_cases left : found.start + roundup (max size 1) alignment < found.stop
    · rw [if_pos left] at freed
      simp only [if_pos left, freed]
      rfl
    · rw [if_neg left] at freed
      cases freed
      simp only [if_neg left]
      rfl

theorem mallocBlock_resized {mapped : Bool} {size : Nat} (length : Nat)
    (roomy : Bisect.bisectLeft heap.lengths size ≠ heap.lengths.length)
    (ran : heap.mallocBlock pageShift mapped size = .ok (next, block)) :
    (heap.resized length).mallocBlock pageShift mapped size = .ok (next.resized length, block) ∧
      next.size = heap.size ∧ next.arenas = heap.arenas := by
  simp only [mallocBlock, if_neg roomy, bind_eq_ok] at ran
  obtain ⟨⟨index, found⟩, took, same⟩ := ran
  cases same
  refine ⟨?_, rfl, rfl⟩
  simp only [mallocBlock, resized, if_neg roomy, took]
  rfl

theorem mallocBlock_full {size : Nat}
    (full : Bisect.bisectLeft heap.lengths size = heap.lengths.length)
    (ran : heap.mallocBlock pageShift true size = .ok (next, block)) :
    block.arena.size = roundup (max heap.size size) (pagesize pageShift) ∧
      next.size = heap.size * 2 := by
  simp only [mallocBlock, if_pos full, if_true] at ran
  cases ran
  exact ⟨rfl, rfl⟩

theorem mallocBlock_full_resized {size length : Nat}
    (full : Bisect.bisectLeft heap.lengths size = heap.lengths.length)
    (same : roundup (max length size) (pagesize pageShift) =
      roundup (max heap.size size) (pagesize pageShift))
    (ran : heap.mallocBlock pageShift true size = .ok (next, block)) :
    (heap.resized length).mallocBlock pageShift true size =
      .ok (next.resized (length * 2), block) := by
  simp only [mallocBlock, if_pos full, if_true] at ran
  cases ran
  simp only [mallocBlock, resized, if_pos full, if_true, same]

theorem carve_resized {mapped : Bool} {size : Nat} (length : Nat)
    (roomy : Bisect.bisectLeft heap.lengths (roundup (max size 1) alignment) ≠
      heap.lengths.length)
    (carved : heap.carve pageShift mapped size = .ok (next, block)) :
    (heap.resized length).carve pageShift mapped size = .ok (next.resized length, block) ∧
      next.size = heap.size ∧ next.arenas = heap.arenas := by
  obtain ⟨middle, found, index, ran, freed, rfl, rfl⟩ := carve_eq_ok.mp carved
  obtain ⟨ranResized, sameSize, sameArenas⟩ := mallocBlock_resized length roomy ran
  exact ⟨carve_eq_ok.mpr ⟨middle.resized length, found, index, ranResized, freed, rfl, rfl⟩,
    sameSize, sameArenas⟩

theorem carve_full {size : Nat}
    (full : Bisect.bisectLeft heap.lengths (roundup (max size 1) alignment) =
      heap.lengths.length)
    (carved : heap.carve pageShift true size = .ok (next, block)) :
    block.arena.size =
        roundup (max heap.size (roundup (max size 1) alignment)) (pagesize pageShift) ∧
      next.size = heap.size * 2 := by
  obtain ⟨middle, found, index, ran, _, rfl, rfl⟩ := carve_eq_ok.mp carved
  obtain ⟨length, doubled⟩ := mallocBlock_full full ran
  exact ⟨length, doubled⟩

theorem carve_full_resized {size length : Nat}
    (full : Bisect.bisectLeft heap.lengths (roundup (max size 1) alignment) =
      heap.lengths.length)
    (same : roundup (max length (roundup (max size 1) alignment)) (pagesize pageShift) =
      roundup (max heap.size (roundup (max size 1) alignment)) (pagesize pageShift))
    (carved : heap.carve pageShift true size = .ok (next, block)) :
    (heap.resized length).carve pageShift true size = .ok (next.resized (length * 2), block) := by
  obtain ⟨middle, found, index, ran, freed, rfl, rfl⟩ := carve_eq_ok.mp carved
  exact carve_eq_ok.mpr ⟨middle.resized (length * 2), found, index,
    mallocBlock_full_resized full same ran, freed, rfl, rfl⟩

theorem Settled.resized (settled : Settled pid heap) (length : Nat) :
    Settled pid (heap.resized length) where
  wellFormed := { settled.wellFormed with }
  owned := settled.owned
  flushed := settled.flushed

theorem Settled.carve (settled : Settled pid heap) (pageShift size : Nat) :
    ∃ next block, heap.carve pageShift true size = .ok (next, block) ∧ Settled pid next ∧
      next.allocatedBlocks.card = heap.allocatedBlocks.card + 1 := by
  obtain ⟨next, block, carved, wellFormed, fresh, allocated, pending, lastpid, _⟩ :=
    carve_spec pageShift settled.wellFormed size
  refine ⟨next, block, carved, ⟨wellFormed, ?_, pending.trans settled.flushed⟩, ?_⟩
  · exact settled.owned.trans lastpid.symm
  · rw [allocated, Finset.card_insert_of_notMem fresh]

theorem Settled.answer_malloc (settled : Settled pid heap)
    (carved : heap.carve pageShift true 1 = .ok (next, block)) :
    heap.answer pageShift pid (.malloc 1 true) =
      (⟨some block, heap.asked pageShift pid 1⟩, next) := by
  simp only [answer, settled.malloc (show 1 < maxsize by decide), carved]

def places (arenas : List Arena) : Finset ((_ : Arena) × Nat) :=
  arenas.toFinset.sigma fun arena => Finset.range arena.size

theorem card_allocatedBlocks_le (wellFormed : heap.WellFormed) :
    heap.allocatedBlocks.card ≤ (places heap.arenas).card := by
  apply Finset.card_le_card_of_injOn fun block => ⟨block.arena, block.start⟩
  · intro block allocated
    have member : block ∈ heap.toFreeIndex.blocks ∪ ↑heap.allocatedBlocks ∪ ∅ :=
      .inl (.inr allocated)
    have nonempty := wellFormed.layout.nonempty member
    have inside := wellFormed.layout.inside member
    simp only [places, Finset.coe_sigma, Set.mem_sigma_iff, Finset.mem_coe, List.mem_toFinset,
      Finset.mem_range]
    exact ⟨wellFormed.layout.known block member, by omega⟩
  · intro left hleft right hright same
    cases left
    cases right
    cases same
    exact wellFormed.layout.eq_of_start (.inl (.inr hleft)) (.inl (.inr hright)) rfl rfl

theorem Settled.request_roomy (settled : Settled pid heap) {length : Nat}
    (roomy : Bisect.bisectLeft heap.lengths alignment ≠ heap.lengths.length)
    (same : Same (answer pageShift pid) heap (heap.resized length)) :
    ∃ next, Settled pid next ∧ next.size = heap.size ∧ next.arenas = heap.arenas ∧
      next.allocatedBlocks.card = heap.allocatedBlocks.card + 1 ∧
      Same (answer pageShift pid) next (next.resized length) := by
  obtain ⟨next, block, carved, after, card⟩ := settled.carve pageShift 1
  obtain ⟨carvedResized, sameSize, sameArenas⟩ := carve_resized length roomy carved
  have follows := same.next (.malloc 1 true)
  rw [settled.answer_malloc carved, (settled.resized length).answer_malloc carvedResized]
    at follows
  exact ⟨next, after, sameSize, sameArenas, card, follows⟩

/-- Small requests use up every free block that is long enough for one more. -/
theorem Settled.exists_full {length : Nat} (bound : Nat) (settled : Settled pid heap)
    (bounded : (places heap.arenas).card ≤ heap.allocatedBlocks.card + bound)
    (same : Same (answer pageShift pid) heap (heap.resized length)) :
    ∃ full, Settled pid full ∧ full.size = heap.size ∧
      Bisect.bisectLeft full.lengths alignment = full.lengths.length ∧
      Same (answer pageShift pid) full (full.resized length) := by
  induction bound generalizing heap with
  | zero =>
      by_cases full : Bisect.bisectLeft heap.lengths alignment = heap.lengths.length
      · exact ⟨heap, settled, rfl, full, same⟩
      · obtain ⟨next, after, _, sameArenas, card, _⟩ := settled.request_roomy full same
        have allocated := card_allocatedBlocks_le after.wellFormed
        rw [sameArenas] at allocated
        omega
  | succ bound ih =>
      by_cases full : Bisect.bisectLeft heap.lengths alignment = heap.lengths.length
      · exact ⟨heap, settled, rfl, full, same⟩
      · obtain ⟨next, after, sameSize, sameArenas, card, follows⟩ :=
          settled.request_roomy full same
        obtain ⟨last, lastSettled, lastSize, lastFull, lastSame⟩ :=
          ih after (by rw [sameArenas]; omega) follows
        exact ⟨last, lastSettled, lastSize.trans sameSize, lastFull, lastSame⟩

theorem Settled.request_full (settled : Settled pid heap) {length : Nat}
    (full : Bisect.bisectLeft heap.lengths alignment = heap.lengths.length)
    (same : Same (answer pageShift pid) heap (heap.resized length)) :
    roundup (max length alignment) (pagesize pageShift) =
        roundup (max heap.size alignment) (pagesize pageShift) ∧
      ∃ next, Settled pid next ∧ next.size = heap.size * 2 ∧
        Same (answer pageShift pid) next (next.resized (length * 2)) := by
  obtain ⟨next, block, carved, after, _⟩ := settled.carve pageShift 1
  obtain ⟨other, otherBlock, otherCarved, _⟩ := (settled.resized length).carve pageShift 1
  obtain ⟨arenaSize, doubled⟩ := carve_full full carved
  obtain ⟨otherSize, _⟩ := carve_full full otherCarved
  have reply := same.reply (.malloc 1 true)
  rw [settled.answer_malloc carved, (settled.resized length).answer_malloc otherCarved] at reply
  have sameBlock : block = otherBlock := Option.some.inj (congrArg Reply.block reply)
  have rounds : roundup (max length alignment) (pagesize pageShift) =
      roundup (max heap.size alignment) (pagesize pageShift) :=
    otherSize.symm.trans (sameBlock ▸ arenaSize)
  refine ⟨rounds, next, after, doubled, ?_⟩
  have follows := same.next (.malloc 1 true)
  rw [settled.answer_malloc carved,
    (settled.resized length).answer_malloc (carve_full_resized full rounds carved)] at follows
  exact follows

/-- Twice the `_size` is told apart by the time `_size` reaches a page. -/
theorem Settled.not_same (fuel : Nat) (settled : Settled pid heap) (positive : 0 < heap.size)
    (enough : max (pagesize pageShift) alignment ≤ heap.size * 2 ^ fuel) :
    ¬ Same (answer pageShift pid) heap (heap.resized (heap.size * 2)) := by
  intro same
  induction fuel generalizing heap with
  | zero =>
      obtain ⟨full, after, sameSize, none_long, follows⟩ :=
        settled.exists_full _ (Nat.le_add_left _ _) same
      obtain ⟨rounds, _⟩ := after.request_full none_long follows
      have below := roundup_lt heap.size pageShift
      have above := le_roundup (heap.size * 2) pageShift
      rw [sameSize, max_eq_left (by omega), max_eq_left (by omega)] at rounds
      simp only [pagesize] at rounds enough
      omega
  | succ fuel ih =>
      obtain ⟨full, after, sameSize, none_long, follows⟩ :=
        settled.exists_full _ (Nat.le_add_left _ _) same
      obtain ⟨_, next, nextSettled, doubled, nextSame⟩ := after.request_full none_long follows
      rw [sameSize] at doubled
      rw [← doubled] at nextSame
      refine ih nextSettled (by omega) ?_ nextSame
      rw [doubled, Nat.mul_assoc, ← Nat.pow_succ']
      exact enough

theorem settled_begun (pageShift pid : Nat) (wellFormed : heap.WellFormed)
    (flushed : heap.pendingFreeBlocks = []) : Settled pid (heap.begun pageShift pid) := by
  by_cases owned : pid = heap.lastpid
  · rw [begun_owned owned]
    exact ⟨wellFormed, owned, flushed⟩
  · rw [begun_foreign owned]
    exact ⟨init_wellFormed _ _, rfl, rfl⟩

theorem malloc_failed {size : Nat} {after : Heap} (wellFormed : heap.WellFormed)
    (flushed : heap.pendingFreeBlocks = [])
    (failed : heap.malloc pageShift pid false size = .error (.arenaError after)) :
    after = (heap.begun pageShift pid).resized ((heap.begun pageShift pid).size * 2) := by
  have settled := settled_begun pageShift pid wellFormed flushed
  by_cases bounded : size < maxsize
  · rw [malloc_eq _ _ _ _ bounded, freePendingBlocks_eq settled.flushed] at failed
    have carved : (heap.begun pageShift pid).carve pageShift false size =
        .error (.arenaError after) := failed
    rcases carve_unmapped pageShift (heap.begun pageShift pid) size with mapped | unmapped
    · obtain ⟨next, block, created, _⟩ := settled.carve pageShift size
      rw [mapped, created] at carved
      cases carved
    · rw [unmapped] at carved
      cases carved
      rfl
  · simp only [Heap.malloc, if_pos bounded] at failed
    cases failed

theorem answer_foreign (foreign : pid ≠ heap.lastpid) (call : Call) :
    (heap.answer pageShift pid call).1 =
        ((init pid (pagesize pageShift)).answer pageShift pid call).1 ∧
      ((heap.answer pageShift pid call).2 =
          ((init pid (pagesize pageShift)).answer pageShift pid call).2 ∨
        pid ≠ (heap.answer pageShift pid call).2.lastpid ∧
          ((init pid (pagesize pageShift)).answer pageShift pid call).2 =
            init pid (pagesize pageShift)) := by
  have same : heap.begun pageShift pid = (init pid (pagesize pageShift)).begun pageShift pid :=
    (begun_foreign foreign).trans (begun_owned rfl).symm
  cases call with
  | malloc size mapped =>
      have asked : heap.asked pageShift pid size =
          (init pid (pagesize pageShift)).asked pageShift pid size := by
        rw [Heap.asked, same, Heap.asked]
      by_cases bounded : size < maxsize
      · have malloc : heap.malloc pageShift pid mapped size =
            (init pid (pagesize pageShift)).malloc pageShift pid mapped size := by
          rw [malloc_eq _ _ _ _ bounded, same, malloc_eq _ _ _ _ bounded]
        simp only [answer, malloc, asked]
        split
        · exact ⟨rfl, .inl rfl⟩
        · exact ⟨rfl, .inl rfl⟩
        · exact ⟨rfl, .inr ⟨foreign, rfl⟩⟩
      · simp only [answer, Heap.malloc, if_pos bounded]
        exact ⟨rfl, .inr ⟨foreign, rfl⟩⟩
  | free block =>
      have unknown : (init pid (pagesize pageShift)).free pid false block = .error .keyError := by
        simp only [Heap.free, init, ne_eq, not_true, if_false, Bool.false_eq_true,
          freePendingBlocks, freePendingRounds, List.length_nil, bind, Except.bind, freeBlock,
          Finset.notMem_empty, not_false_eq_true, if_true]
        rfl
      have refused : heap.free pid false block = .error .assertionError := by
        simp only [Heap.free, if_pos foreign]
        rfl
      simp only [answer, unknown, refused]
      exact ⟨trivial, .inr ⟨foreign, trivial⟩⟩

/-- A child of a fork is answered as if it had started its own heap already. -/
theorem same_begun (pageShift pid : Nat) (heap : Heap) :
    Same (answer pageShift pid) heap (heap.begun pageShift pid) := by
  by_cases owned : pid = heap.lastpid
  · rw [begun_owned owned]
    exact Same.refl heap
  · rw [begun_foreign owned]
    apply same_of_simulation fun left right =>
      left = right ∨ pid ≠ left.lastpid ∧ right = init pid (pagesize pageShift)
    · rintro left right call (rfl | ⟨foreign, rfl⟩)
      · exact ⟨rfl, .inl rfl⟩
      · exact answer_foreign foreign call
    · exact .inr ⟨owned, rfl⟩

/-- The failed request is as if it had never been made. -/
def LeavesNoTrace (pageShift pid : Nat) (heap : Heap) (size : Nat) : Prop :=
  ∀ after, heap.malloc pageShift pid false size = .error (.arenaError after) →
    after = heap ∧ Same (answer pageShift pid) after heap

theorem LeavesNoTrace.same {size : Nat} {after : Heap} (failed :
    heap.malloc pageShift pid false size = .error (.arenaError after)) :
    LeavesNoTrace pageShift pid heap size ↔ after = heap := by
  constructor
  · exact fun traceless => (traceless after failed).1
  · rintro rfl other again
    rw [failed] at again
    cases again
    exact ⟨rfl, Same.refl _⟩

theorem resized_double (empty : heap.size = 0) : heap.resized (heap.size * 2) = heap := by
  simp only [resized, empty, Nat.zero_mul]
  rw [← empty]

/-- Calls tell the doubled `_size` from the one before, unless both are zero. -/
theorem Settled.same_double_iff (settled : Settled pid heap) :
    Same (answer pageShift pid) (heap.resized (heap.size * 2)) heap ↔ heap.size = 0 := by
  constructor
  · intro same
    by_contra positive
    have one : 1 ≤ heap.size := Nat.one_le_iff_ne_zero.mpr positive
    have enough : max (pagesize pageShift) alignment ≤
        heap.size * 2 ^ max (pagesize pageShift) alignment :=
      calc max (pagesize pageShift) alignment
          ≤ 2 ^ max (pagesize pageShift) alignment := Nat.lt_two_pow_self.le
        _ = 1 * 2 ^ max (pagesize pageShift) alignment := (Nat.one_mul _).symm
        _ ≤ heap.size * 2 ^ max (pagesize pageShift) alignment := Nat.mul_le_mul_right _ one
    exact settled.not_same _ one enough same.symm
  · intro empty
    rw [resized_double empty]
    exact Same.refl heap

end Heap

namespace Allocator

/-- The failure stays unnoticed only where `_size` is zero, which doubling keeps. -/
theorem leavesNoTrace_iff (pageShift pid size : Nat) {actions : List Action}
    {allocator : Allocator} {request : Nat} {after : Heap}
    (ran : run (step pageShift) (init pid size) actions = some allocator)
    (flushed : allocator.session.heap.pendingFreeBlocks = [])
    (failed : allocator.session.heap.malloc pageShift allocator.pid false request =
      .error (.arenaError after)) :
    (allocator.session.heap.LeavesNoTrace pageShift allocator.pid request ↔
        allocator.Owned ∧ allocator.session.heap.size = 0) ∧
      (Same (Heap.answer pageShift allocator.pid) after allocator.session.heap ↔
        allocator.Owned ∧ allocator.session.heap.size = 0) := by
  have invariant : allocator.Invariant := invariant_run Invariant.step (init_invariant pid size) ran
  have wellFormed := invariant.session.wellFormed
  have settled := Heap.settled_begun pageShift allocator.pid wellFormed flushed
  have left := Heap.malloc_failed wellFormed flushed failed
  have unchanged : allocator.Owned ∧ allocator.session.heap.size = 0 →
      after = allocator.session.heap := by
    rintro ⟨owned, empty⟩
    rw [left, Heap.begun_owned owned, Heap.resized_double empty]
  have told : Same (Heap.answer pageShift allocator.pid) after allocator.session.heap →
      allocator.Owned ∧ allocator.session.heap.size = 0 := by
    intro same
    have begun := same.trans (Heap.same_begun pageShift allocator.pid allocator.session.heap)
    rw [left, settled.same_double_iff] at begun
    by_cases owned : allocator.pid = allocator.session.heap.lastpid
    · rw [Heap.begun_owned owned] at begun
      exact ⟨owned, begun⟩
    · rw [Heap.begun_foreign owned] at begun
      exact absurd begun (Nat.two_pow_pos pageShift).ne'
  have same : allocator.Owned ∧ allocator.session.heap.size = 0 →
      Same (Heap.answer pageShift allocator.pid) after allocator.session.heap :=
    fun met => unchanged met ▸ Same.refl _
  refine ⟨?_, told, same⟩
  rw [Heap.LeavesNoTrace.same failed]
  exact ⟨fun traceless => told (traceless ▸ Same.refl _), unchanged⟩

/-- The first request of a process fails, and the next one is given an arena of
two pages. -/
theorem not_leavesNoTrace :
    ∃ allocator after, run (step 12) (init 7 4096) [] = some allocator ∧
      allocator.session.heap.pendingFreeBlocks = [] ∧
      allocator.session.heap.malloc 12 allocator.pid false 10 = .error (.arenaError after) ∧
      replies (Heap.answer 12 allocator.pid) allocator.session.heap [.malloc 10 true] =
        [⟨some ⟨⟨0, 4096⟩, 0, 16⟩, some 4096⟩] ∧
      replies (Heap.answer 12 allocator.pid) after [.malloc 10 true] =
        [⟨some ⟨⟨0, 8192⟩, 0, 16⟩, some 8192⟩] ∧
      ¬ allocator.session.heap.LeavesNoTrace 12 allocator.pid 10 := by
  have failed : (Heap.init 7 4096).malloc 12 7 false 10 =
      .error (.arenaError ((Heap.init 7 4096).resized 8192)) := rfl
  refine ⟨init 7 4096, (Heap.init 7 4096).resized 8192, rfl, rfl, failed, ?_, ?_, ?_⟩
  · decide +kernel
  · decide +kernel
  · intro traceless
    have same := congrArg Heap.size (traceless _ failed).1
    simp [Heap.resized, init, Session.init, Heap.init] at same

theorem leavesNoTrace_empty :
    (Heap.init 7 0).LeavesNoTrace 12 7 10 := by
  have failed : (Heap.init 7 0).malloc 12 7 false 10 =
      .error (.arenaError (Heap.init 7 0)) := rfl
  have started : run (step 12) (init 7 0) [] = some (init 7 0) := rfl
  exact (leavesNoTrace_iff 12 7 0 started rfl failed).1.mpr ⟨rfl, rfl⟩

end Allocator

end Billiard
