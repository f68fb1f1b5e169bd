import Billiard.Heap.Layout

/-! The invariant of the allocator and what each operation does to it. -/

namespace Billiard

variable {index : FreeIndex} {arenas : List Arena} {free allocated : Set Block} {block : Block}

theorem andNot_eq (x shift : Nat) : andNot x (2 ^ shift - 1) = 2 ^ shift * (x / 2 ^ shift) := by
  apply Nat.eq_of_testBit_eq
  intro i
  rw [andNot, Nat.and_two_pow_sub_one_eq_mod, Nat.testBit_xor, Nat.testBit_mod_two_pow,
    Nat.testBit_two_pow_mul, Nat.testBit_div_two_pow]
  by_cases below : i < shift
  · simp [below, Nat.not_le.mpr below]
  · simp [below, Nat.not_lt.mp below]

theorem roundup_eq (n shift : Nat) :
    roundup n (2 ^ shift) = 2 ^ shift * ((n + (2 ^ shift - 1)) / 2 ^ shift) := by
  simp only [roundup, andNot_eq]

theorem le_roundup (n shift : Nat) : n ≤ roundup n (2 ^ shift) := by
  have positive : 0 < 2 ^ shift := Nat.two_pow_pos shift
  have division := Nat.div_add_mod (n + (2 ^ shift - 1)) (2 ^ shift)
  have remainder := Nat.mod_lt (n + (2 ^ shift - 1)) positive
  rw [roundup_eq]
  omega

theorem roundup_lt (n shift : Nat) : roundup n (2 ^ shift) < n + 2 ^ shift := by
  have positive : 0 < 2 ^ shift := Nat.two_pow_pos shift
  have division := Nat.div_add_mod (n + (2 ^ shift - 1)) (2 ^ shift)
  rw [roundup_eq]
  omega

theorem roundup_isLeast (n shift : Nat) :
    IsLeast {length | 2 ^ shift ∣ length ∧ n ≤ length} (roundup n (2 ^ shift)) := by
  constructor
  · exact ⟨⟨_, roundup_eq n shift⟩, le_roundup n shift⟩
  · rintro length ⟨⟨count, rfl⟩, enough⟩
    have positive : 0 < 2 ^ shift := Nat.two_pow_pos shift
    rw [roundup_eq]
    refine Nat.mul_le_mul_left _ (Nat.le_of_lt_succ ?_)
    rw [Nat.div_lt_iff_lt_mul positive, Nat.succ_mul, Nat.mul_comm count]
    omega

/-- What is left of `found` once `block` has been cut off its front. -/
def remainder (found block : Block) : Set Block :=
  {rest | rest = ⟨found.arena, block.stop, found.stop⟩ ∧ block.stop < found.stop}

/-- Merging takes away places where blocks start, and adds none. -/
def StartsAmong (after before : Set Block) : Prop :=
  ∀ block ∈ after, ∃ old ∈ before, old.arena = block.arena ∧ old.start = block.start

theorem StartsAmong.of_subset {after before : Set Block} (subset : after ⊆ before) :
    StartsAmong after before :=
  fun block member => ⟨block, subset member, rfl, rfl⟩

theorem StartsAmong.trans {first middle last : Set Block} (front : StartsAmong last middle)
    (back : StartsAmong middle first) : StartsAmong last first := by
  intro block member
  obtain ⟨between, inside, arena, start⟩ := front block member
  obtain ⟨old, listed, sameArena, sameStart⟩ := back between inside
  exact ⟨old, listed, sameArena.trans arena, sameStart.trans start⟩

namespace FreeIndex

theorem absorbPrev_spec (represents : index.Represents free)
    (layout : Layout arenas free allocated {block}) :
    ∃ next rest merged, index.absorbPrev block = .ok (next, merged) ∧
      next.Represents rest ∧ Layout arenas rest allocated {merged} ∧
      StartsAmong (insert merged rest) (insert block free) ∧
      ∀ other ∈ rest, other.arena = merged.arena → other.stop ≠ merged.start := by
  obtain ⟨arena, start, stop⟩ := block
  cases found : index.stopToBlock (arena, start) with
  | none =>
      refine ⟨index, free, ⟨arena, start, stop⟩, by simp [absorbPrev, found], represents,
        layout, .of_subset (Set.Subset.refl _), ?_⟩
      intro other member sameArena meets
      have known := represents.stop_some member
      rw [sameArena, meets, found] at known
      contradiction
  | some prevBlock =>
      obtain ⟨member, rfl, rfl⟩ := (represents.stop arena start prevBlock).mp found
      obtain ⟨next, absorbed, after⟩ := absorb_spec represents member
      refine ⟨next, free \ {prevBlock}, ⟨prevBlock.arena, prevBlock.start, stop⟩, ?_, after, ?_,
        ?_, ?_⟩
      · simp [absorbPrev, found, absorbed, bind, Except.bind, pure, Except.pure]
      · exact (layout.takeFree member).merge
      · rintro other (rfl | old)
        · exact ⟨prevBlock, .inr member, rfl, rfl⟩
        · exact ⟨other, .inr old.1, rfl, rfl⟩
      · exact fun other old sameArena => layout.separated other old.1 prevBlock member sameArena

theorem absorbNext_spec (represents : index.Represents free)
    (layout : Layout arenas free allocated {block})
    (noPrev : ∀ other ∈ free, other.arena = block.arena → other.stop ≠ block.start) :
    ∃ next rest merged, index.absorbNext block = .ok (next, merged) ∧
      next.Represents rest ∧ Layout arenas rest allocated {merged} ∧
      StartsAmong (insert merged rest) (insert block free) ∧
      (∀ other ∈ rest, other.arena = merged.arena → other.stop ≠ merged.start) ∧
      ∀ other ∈ rest, other.arena = merged.arena → merged.stop ≠ other.start := by
  obtain ⟨arena, start, stop⟩ := block
  cases found : index.startToBlock (arena, stop) with
  | none =>
      refine ⟨index, free, ⟨arena, start, stop⟩, by simp [absorbNext, found], represents,
        layout, .of_subset (Set.Subset.refl _), noPrev, ?_⟩
      intro other member sameArena meets
      have known := represents.start_some member
      rw [sameArena, ← meets, found] at known
      contradiction
  | some nextBlock =>
      obtain ⟨member, rfl, rfl⟩ := (represents.start arena stop nextBlock).mp found
      obtain ⟨next, absorbed, after⟩ := absorb_spec represents member
      refine ⟨next, free \ {nextBlock}, ⟨nextBlock.arena, start, nextBlock.stop⟩, ?_, after,
        ?_, ?_, ?_, ?_⟩
      · simp [absorbNext, found, absorbed, bind, Except.bind, pure, Except.pure]
      · have taken := layout.takeFree member
        rw [Set.pair_comm] at taken
        exact taken.merge
      · rintro other (rfl | old)
        · exact ⟨_, .inl rfl, rfl, rfl⟩
        · exact ⟨other, .inr old.1, rfl, rfl⟩
      · exact fun other old => noPrev other old.1
      · exact fun other old sameArena =>
          layout.separated nextBlock member other old.1 sameArena.symm

theorem free_spec (represents : index.Represents free)
    (layout : Layout arenas free allocated {block}) :
    ∃ next rest, index.free block = .ok next ∧ next.Represents rest ∧
      Layout arenas rest allocated ∅ ∧ StartsAmong rest (insert block free) := by
  obtain ⟨first, firstRest, firstBlock, firstRan, firstRepresents, firstLayout, firstStarts,
    firstPrev⟩ := absorbPrev_spec represents layout
  obtain ⟨second, rest, merged, secondRan, secondRepresents, secondLayout, secondStarts, noPrev,
    noNext⟩ := absorbNext_spec firstRepresents firstLayout firstPrev
  have fresh : merged ∉ rest := Set.disjoint_singleton_right.mp secondLayout.free_held
  refine ⟨second.register merged, insert merged rest, ?_, ?_,
    secondLayout.release noPrev noNext, secondStarts.trans firstStarts⟩
  · simp [FreeIndex.free, firstRan, secondRan, bind, Except.bind, pure, Except.pure]
  · apply register_represents secondRepresents
    · intro other member sameArena sameStart
      exact fresh (secondLayout.eq_of_start (.inr rfl) (.inl (.inl member)) sameArena.symm
        sameStart.symm ▸ member)
    · intro other member sameArena sameStop
      exact fresh (secondLayout.eq_of_stop (.inr rfl) (.inl (.inl member)) sameArena.symm
        sameStop.symm ▸ member)

theorem free_apart (represents : index.Represents free)
    (layout : Layout arenas free allocated {block})
    (noPrev : ∀ other ∈ free, other.arena = block.arena → other.stop ≠ block.start)
    (noNext : ∀ other ∈ free, other.arena = block.arena → block.stop ≠ other.start) :
    ∃ next, index.free block = .ok next ∧ next.Represents (insert block free) ∧
      Layout arenas (insert block free) allocated ∅ := by
  have prev : index.stopToBlock (block.arena, block.start) = none := by
    rw [Option.eq_none_iff_forall_ne_some]
    intro other found
    obtain ⟨member, arena, stop⟩ := (represents.stop _ _ other).mp found
    exact noPrev other member arena stop
  have next : index.startToBlock (block.arena, block.stop) = none := by
    rw [Option.eq_none_iff_forall_ne_some]
    intro other found
    obtain ⟨member, arena, start⟩ := (represents.start _ _ other).mp found
    exact noNext other member arena start.symm
  have fresh : block ∉ free := Set.disjoint_singleton_right.mp layout.free_held
  refine ⟨index.register block, ?_, register_represents represents ?_ ?_,
    layout.release noPrev noNext⟩
  · simp [FreeIndex.free, absorbPrev, absorbNext, prev, next, bind, Except.bind, pure, Except.pure]
  · intro other member sameArena sameStart
    exact fresh (layout.eq_of_start (.inr rfl) (.inl (.inl member)) sameArena.symm
      sameStart.symm ▸ member)
  · intro other member sameArena sameStop
    exact fresh (layout.eq_of_stop (.inr rfl) (.inl (.inl member)) sameArena.symm
      sameStop.symm ▸ member)

end FreeIndex

namespace Heap

/-- The invariant while the operation under way holds the blocks of `held`.
`_len_to_seq` defines the free blocks; the other index structures agree with it. -/
structure Holds (heap : Heap) (held : Set Block) : Prop where
  represents : heap.toFreeIndex.Represents heap.toFreeIndex.blocks
  layout : Layout heap.arenas heap.toFreeIndex.blocks heap.allocatedBlocks held
  identity : ∀ i (arena : Arena), heap.arenas[i]? = some arena → arena.id = i
  positive : ∀ arena ∈ heap.arenas, 0 < arena.size
  pending_nodup : heap.pendingFreeBlocks.Nodup
  pending_allocated : ∀ block ∈ heap.pendingFreeBlocks, block ∈ heap.allocatedBlocks

abbrev WellFormed (heap : Heap) : Prop := heap.Holds ∅

theorem init_wellFormed (pid size : Nat) : (init pid size).WellFormed where
  represents := by
    have same : (init pid size).toFreeIndex.blocks = ∅ := FreeIndex.represents_empty.blocks_eq
    rw [same]
    exact FreeIndex.represents_empty
  layout := by
    have same : (init pid size).toFreeIndex.blocks = ∅ := FreeIndex.represents_empty.blocks_eq
    rw [same]
    simpa [init] using layout_empty
  identity := by simp [init]
  positive := by simp [init]
  pending_nodup := List.nodup_nil
  pending_allocated := by simp [init]

variable {heap : Heap}

theorem Holds.defer (wellFormed : heap.WellFormed) (allocated : block ∈ heap.allocatedBlocks)
    (fresh : block ∉ heap.pendingFreeBlocks) :
    Holds { heap with pendingFreeBlocks := heap.pendingFreeBlocks ++ [block] } ∅ where
  represents := wellFormed.represents
  layout := wellFormed.layout
  identity := wellFormed.identity
  positive := wellFormed.positive
  pending_nodup := by
    rw [List.nodup_append]
    refine ⟨wellFormed.pending_nodup, by simp, ?_⟩
    intro left inside right last same
    rw [List.mem_singleton] at last
    exact fresh (last ▸ same ▸ inside)
  pending_allocated := by
    intro other member
    rcases List.mem_append.mp member with old | new
    · exact wellFormed.pending_allocated other old
    · rw [List.mem_singleton.mp new]
      exact allocated

/-- The free blocks and the allocated ones: what the arenas are cut into. -/
def parts (heap : Heap) : Set Block :=
  heap.toFreeIndex.blocks ∪ {block | block ∈ heap.allocatedBlocks}

theorem freeBlock_spec (wellFormed : heap.WellFormed) (allocated : block ∈ heap.allocatedBlocks)
    (fresh : block ∉ heap.pendingFreeBlocks) :
    ∃ index, heap.freeBlock block =
        .ok { heap with
          toFreeIndex := index
          allocatedBlocks := heap.allocatedBlocks.erase block } ∧
      WellFormed { heap with
          toFreeIndex := index
          allocatedBlocks := heap.allocatedBlocks.erase block } ∧
      StartsAmong (parts { heap with
          toFreeIndex := index
          allocatedBlocks := heap.allocatedBlocks.erase block }) heap.parts := by
  have member : block ∈ {other | other ∈ heap.allocatedBlocks} := allocated
  have taken := wellFormed.layout.takeAllocated member
  have single : (insert block ∅ : Set Block) = {block} := by simp
  rw [single] at taken
  obtain ⟨index, rest, ran, represents, layout, starts⟩ :=
    FreeIndex.free_spec wellFormed.represents taken
  have same : index.blocks = rest := represents.blocks_eq
  refine ⟨index, ?_, ?_, ?_⟩
  · simp [freeBlock, allocated, ran, bind, Except.bind, pure, Except.pure]
  · exact {
      represents := same ▸ represents
      layout := by
        rw [Finset.coe_erase]
        exact same ▸ layout
      identity := wellFormed.identity
      positive := wellFormed.positive
      pending_nodup := wellFormed.pending_nodup
      pending_allocated := by
        intro other member
        refine Finset.mem_erase.mpr ⟨?_, wellFormed.pending_allocated other member⟩
        intro same
        exact fresh (same ▸ member) }
  · rintro other (merged | kept)
    · obtain ⟨old, known, arena, start⟩ := starts other (same ▸ merged)
      refine ⟨old, ?_, arena, start⟩
      rcases known with rfl | known
      · exact .inr allocated
      · exact .inl known
    · exact ⟨other, .inr (Finset.mem_of_mem_erase kept), rfl, rfl⟩

theorem freePendingBlock_spec (wellFormed : heap.WellFormed) {front : List Block}
    (listed : heap.pendingFreeBlocks = front ++ [block]) :
    ∃ index, heap.freePendingBlock = some (.ok { heap with
          toFreeIndex := index
          allocatedBlocks := heap.allocatedBlocks.erase block
          pendingFreeBlocks := front }) ∧
      WellFormed { heap with
          toFreeIndex := index
          allocatedBlocks := heap.allocatedBlocks.erase block
          pendingFreeBlocks := front } ∧
      StartsAmong (parts { heap with
          toFreeIndex := index
          allocatedBlocks := heap.allocatedBlocks.erase block
          pendingFreeBlocks := front }) heap.parts := by
  have nodup := wellFormed.pending_nodup
  rw [listed, List.nodup_append] at nodup
  have unlisted : block ∉ front := fun again => nodup.2.2 block again block (by simp) rfl
  have shorter : WellFormed { heap with pendingFreeBlocks := front } := {
    wellFormed with
    pending_nodup := nodup.1
    pending_allocated := fun other member =>
      wellFormed.pending_allocated other (by simp [listed, member]) }
  have allocated : block ∈ heap.allocatedBlocks :=
    wellFormed.pending_allocated block (by simp [listed])
  obtain ⟨index, ran, after, starts⟩ := freeBlock_spec shorter allocated unlisted
  exact ⟨index, by simp [freePendingBlock, listed, ran], after, starts⟩

theorem freePendingBlock_eq_none : heap.freePendingBlock = none ↔ heap.pendingFreeBlocks = [] := by
  simp [freePendingBlock]

theorem pending_of_freePendingBlock {outcome : Except HeapFault Heap}
    (popped : heap.freePendingBlock = some outcome) :
    ∃ front block, heap.pendingFreeBlocks = front ++ [block] := by
  rcases List.eq_nil_or_concat heap.pendingFreeBlocks with none_left | ⟨front, block, listed⟩
  · rw [freePendingBlock_eq_none.mpr none_left] at popped
    contradiction
  · exact ⟨front, block, listed.trans List.concat_eq_append⟩

theorem freePendingRounds_spec (rounds : Nat) (wellFormed : heap.WellFormed)
    (enough : heap.pendingFreeBlocks.length ≤ rounds) :
    ∃ next, freePendingRounds rounds heap = .ok next ∧ next.WellFormed ∧
      next.pendingFreeBlocks = [] ∧ next.lastpid = heap.lastpid ∧
      next.allocatedBlocks = heap.allocatedBlocks \ heap.pendingFreeBlocks.toFinset ∧
      StartsAmong next.parts heap.parts := by
  induction rounds generalizing heap with
  | zero =>
      have none_left : heap.pendingFreeBlocks = [] :=
        List.length_eq_zero_iff.mp (Nat.le_zero.mp enough)
      exact ⟨heap, rfl, wellFormed, none_left, rfl, by simp [none_left],
        .of_subset (Set.Subset.refl _)⟩
  | succ rounds ih =>
      rcases List.eq_nil_or_concat heap.pendingFreeBlocks with none_left | ⟨front, block, listed⟩
      · refine ⟨heap, ?_, wellFormed, none_left, rfl, by simp [none_left],
          .of_subset (Set.Subset.refl _)⟩
        simp [freePendingRounds, freePendingBlock_eq_none.mpr none_left]
      · rw [List.concat_eq_append] at listed
        obtain ⟨index, popped, after, front⟩ := freePendingBlock_spec wellFormed listed
        obtain ⟨next, ran, nextWellFormed, flushed, samePid, allocated, back⟩ :=
          ih after (by simp [listed] at enough ⊢; omega)
        refine ⟨next, ?_, nextWellFormed, flushed, samePid, ?_, back.trans front⟩
        · simp [freePendingRounds, popped, Except.bind, ran]
        · rw [allocated, listed]
          ext other
          simp only [Finset.mem_sdiff, Finset.mem_erase, List.mem_toFinset, List.mem_append,
            List.mem_singleton]
          tauto

theorem freePendingBlocks_spec (wellFormed : heap.WellFormed) :
    ∃ next, heap.freePendingBlocks = .ok next ∧ next.WellFormed ∧
      next.pendingFreeBlocks = [] ∧ next.lastpid = heap.lastpid ∧
      next.allocatedBlocks = heap.allocatedBlocks \ heap.pendingFreeBlocks.toFinset ∧
      StartsAmong next.parts heap.parts :=
  freePendingRounds_spec _ wellFormed (le_refl _)

theorem Holds.arena_fresh {held : Set Block} (holds : heap.Holds held) (size : Nat) :
    (⟨heap.arenas.length, size⟩ : Arena) ∉ heap.arenas := by
  intro member
  obtain ⟨i, inside, same⟩ := List.getElem_of_mem member
  have identity := holds.identity i _ (List.getElem?_eq_getElem inside)
  rw [same] at identity
  simp only at identity
  omega

/-- `found` is a free block of the least length that is enough, or else a new arena. -/
def Source (heap : Heap) (arenas : List Arena) (length : Nat) (found : Block) : Prop :=
  found ∈ heap.toFreeIndex.blocks ∧ length ≤ found.length ∧
      (∀ other ∈ heap.toFreeIndex.blocks, length ≤ other.length → found.length ≤ other.length) ∧
      arenas = heap.arenas ∨
    (∀ other ∈ heap.toFreeIndex.blocks, other.length < length) ∧
      found = ⟨found.arena, 0, found.arena.size⟩ ∧ found.arena ∉ heap.arenas ∧
      arenas = heap.arenas ++ [found.arena]

theorem lt_of_bisectLeft_eq (wellFormed : heap.WellFormed) {length : Nat}
    (none_long : Bisect.bisectLeft heap.lengths length = heap.lengths.length) :
    ∀ other ∈ heap.toFreeIndex.blocks, other.length < length := by
  intro other member
  obtain ⟨seq, found, _⟩ := member
  exact Bisect.lt_of_bisectLeft_eq none_long
    ((wellFormed.represents.mem_lengths _).mpr ⟨seq, found⟩)

theorem Holds.addArena (wellFormed : heap.WellFormed) {length : Nat} (positive : 0 < length)
    (size : Nat) :
    Holds { heap with size, arenas := heap.arenas ++ [⟨heap.arenas.length, length⟩] }
      {⟨⟨heap.arenas.length, length⟩, 0, length⟩} where
  represents := wellFormed.represents
  layout := wellFormed.layout.addArena (wellFormed.arena_fresh length) positive
  identity := by
    intro i arena found
    rcases lt_or_ge i heap.arenas.length with old | new
    · rw [List.getElem?_append_left old] at found
      exact wellFormed.identity i arena found
    · rw [List.getElem?_append_right new, List.getElem?_singleton] at found
      split at found
      · cases found
        simp only
        omega
      · contradiction
  positive := by
    intro arena member
    rcases List.mem_append.mp member with old | new
    · exact wellFormed.positive arena old
    · rw [List.mem_singleton.mp new]
      exact positive
  pending_nodup := wellFormed.pending_nodup
  pending_allocated := wellFormed.pending_allocated

theorem Holds.allocate {held : Set Block} {index : FreeIndex} (holds : heap.Holds held)
    (represents : index.Represents index.blocks)
    (layout : Layout heap.arenas index.blocks (insert block ↑heap.allocatedBlocks) ∅) :
    WellFormed { heap with
      toFreeIndex := index
      allocatedBlocks := insert block heap.allocatedBlocks } where
  represents := represents
  layout := by
    rw [Finset.coe_insert]
    exact layout
  identity := holds.identity
  positive := holds.positive
  pending_nodup := holds.pending_nodup
  pending_allocated := fun other member =>
    Finset.mem_insert_of_mem (holds.pending_allocated other member)

theorem mallocBlock_spec (pageShift : Nat) (wellFormed : heap.WellFormed) {size : Nat}
    (positive : 0 < size) :
    ∃ next found, heap.mallocBlock pageShift true size = .ok (next, found) ∧
      next.Holds {found} ∧ found.start + size ≤ found.stop ∧
      next.allocatedBlocks = heap.allocatedBlocks ∧
      next.pendingFreeBlocks = heap.pendingFreeBlocks ∧ next.lastpid = heap.lastpid ∧
      heap.Source next.arenas size found ∧
      next.toFreeIndex.blocks = heap.toFreeIndex.blocks \ {found} ∧
      ∀ other ∈ next.toFreeIndex.blocks, other.arena = found.arena → found.stop ≠ other.start := by
  by_cases none_long : Bisect.bisectLeft heap.lengths size = heap.lengths.length
  · have enough : size ≤ roundup (max heap.size size) (pagesize pageShift) :=
      (le_max_right _ _).trans (le_roundup _ pageShift)
    generalize roundedEq : roundup (max heap.size size) (pagesize pageShift) = length at enough
    have fresh := wellFormed.arena_fresh length
    have foreign : ∀ other ∈ heap.toFreeIndex.blocks,
        other.arena ≠ ⟨heap.arenas.length, length⟩ := by
      intro other member same
      exact fresh (same ▸ wellFormed.layout.known other (.inl (.inl member)))
    refine ⟨{ heap with
        size := heap.size * 2
        arenas := heap.arenas ++ [⟨heap.arenas.length, length⟩] },
      ⟨⟨heap.arenas.length, length⟩, 0, length⟩, ?_,
      Holds.addArena wellFormed (positive.trans_le enough) _, by simpa using enough, rfl, rfl, rfl,
      .inr ⟨lt_of_bisectLeft_eq wellFormed none_long, rfl, fresh, rfl⟩, ?_,
      fun other member same => absurd same (foreign other member)⟩
    · simp [mallocBlock, none_long, roundedEq]
    · exact (Set.sdiff_singleton_eq_self fun member => foreign _ member rfl).symm
  · have inside : Bisect.bisectLeft heap.lengths size < heap.lengths.length :=
      lt_of_le_of_ne (Bisect.bisectLeft_le_length _ _) none_long
    obtain ⟨index, found, ran, member, enough, least, represents⟩ :=
      FreeIndex.take_spec wellFormed.represents inside
    have layout := wellFormed.layout.takeFree member
    have bounds : found.start < found.stop := wellFormed.layout.nonempty (.inl (.inl member))
    have same : index.blocks = heap.toFreeIndex.blocks \ {found} := represents.blocks_eq
    refine ⟨{ heap with toFreeIndex := index }, found, ?_, ?_, ?_, rfl, rfl, rfl,
      .inl ⟨member, enough, least, rfl⟩, same, ?_⟩
    · simp [mallocBlock, none_long, ran, bind, Except.bind, pure, Except.pure]
    · exact {
        represents := same ▸ represents
        layout := by
          rw [← same] at layout
          simpa using layout
        identity := wellFormed.identity
        positive := wellFormed.positive
        pending_nodup := wellFormed.pending_nodup
        pending_allocated := wellFormed.pending_allocated }
    · simp only [Block.length] at enough
      omega
    · intro other listed sameArena
      rw [same] at listed
      exact wellFormed.layout.separated found member other listed.1 sameArena.symm

/-- Where a block comes from, and what becomes of the rest of it. -/
def Carved (heap next : Heap) (block : Block) : Prop :=
  ∃ found, found.arena = block.arena ∧ found.start = block.start ∧ block.stop ≤ found.stop ∧
    heap.Source next.arenas block.length found ∧
    next.toFreeIndex.blocks = heap.toFreeIndex.blocks \ {found} ∪ remainder found block

theorem carve_spec (pageShift : Nat) (wellFormed : heap.WellFormed) (size : Nat) :
    ∃ next block, heap.carve pageShift true size = .ok (next, block) ∧ next.WellFormed ∧
      block ∉ heap.allocatedBlocks ∧
      next.allocatedBlocks = insert block heap.allocatedBlocks ∧
      next.pendingFreeBlocks = heap.pendingFreeBlocks ∧ next.lastpid = heap.lastpid ∧
      block.stop = block.start + roundup (max size 1) alignment ∧ heap.Carved next block := by
  have positive : 0 < roundup (max size 1) alignment :=
    lt_of_lt_of_le (by simp) (le_roundup (max size 1) 3)
  generalize roundedEq : roundup (max size 1) alignment = rounded at positive
  obtain ⟨middle, found, ran, holds, enough, sameAllocated, samePending, samePid, source,
    others, noNext⟩ := mallocBlock_spec pageShift wellFormed positive
  obtain ⟨arena, start, stop⟩ := found
  simp only at enough
  by_cases rest : start + rounded < stop
  · have cut := (holds.layout.split (by omega) rest :
      Layout _ _ _ {⟨arena, start, start + rounded⟩, ⟨arena, start + rounded, stop⟩})
    have fresh : (⟨arena, start, start + rounded⟩ : Block) ∉ middle.allocatedBlocks :=
      Set.disjoint_right.mp cut.allocated_held (.inl rfl)
    -- no free block stops where the rest begins: it would be the block that is cut off
    have noPrev : ∀ other ∈ middle.toFreeIndex.blocks, other.arena = arena →
        other.stop ≠ start + rounded := by
      intro other member sameArena sameStop
      have same : other = ⟨arena, start, start + rounded⟩ :=
        cut.eq_of_stop (.inl (.inl member)) (.inr (.inl rfl)) sameArena sameStop
      exact Set.disjoint_left.mp cut.free_held member (.inl same)
    obtain ⟨index, freed, represents, layout⟩ :=
      FreeIndex.free_apart holds.represents (cut.allocate (by simp; omega)) noPrev noNext
    have same : index.blocks = insert ⟨arena, start + rounded, stop⟩ middle.toFreeIndex.blocks :=
      represents.blocks_eq
    rw [← same] at represents layout
    refine ⟨{ middle with
        toFreeIndex := index
        allocatedBlocks := insert ⟨arena, start, start + rounded⟩ middle.allocatedBlocks },
      ⟨arena, start, start + rounded⟩, ?_, holds.allocate represents layout,
      sameAllocated ▸ fresh, ?_, samePending, samePid, rfl,
      ⟨⟨arena, start, stop⟩, rfl, rfl, enough, ?_, ?_⟩⟩
    · simp [carve, roundedEq, ran, rest, freed, bind, Except.bind, pure, Except.pure]
    · simp [sameAllocated]
    · simpa [Block.length] using source
    · have left : remainder ⟨arena, start, stop⟩ ⟨arena, start, start + rounded⟩ =
          {⟨arena, start + rounded, stop⟩} := by
        ext other
        simp [remainder, rest]
      rw [left, Set.union_singleton, ← others]
      exact same
  · have exactly : start + rounded = stop := by omega
    have fresh : (⟨arena, start, stop⟩ : Block) ∉ middle.allocatedBlocks :=
      Set.disjoint_right.mp holds.layout.allocated_held rfl
    have layout := holds.layout
    rw [← insert_empty_eq] at layout
    refine ⟨{ middle with
        allocatedBlocks := insert ⟨arena, start, stop⟩ middle.allocatedBlocks },
      ⟨arena, start, stop⟩, ?_,
      holds.allocate holds.represents (layout.allocate (Set.notMem_empty _)),
      sameAllocated ▸ fresh, ?_, samePending, samePid, exactly.symm,
      ⟨⟨arena, start, stop⟩, rfl, rfl, le_refl _, ?_, ?_⟩⟩
    · simp [carve, roundedEq, ran, exactly, bind, Except.bind, pure, Except.pure]
    · simp [sameAllocated]
    · have length : stop - start = rounded := by omega
      simpa only [Block.length, length] using source
    · rw [← others]
      have none_left : remainder ⟨arena, start, stop⟩ ⟨arena, start, stop⟩ = ∅ := by
        ext other
        simp [remainder]
      rw [none_left, Set.union_empty]

end Heap

end Billiard
