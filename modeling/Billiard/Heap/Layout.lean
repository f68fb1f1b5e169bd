import Mathlib.Order.CompletePartialOrder
import Mathlib.Data.Set.Lattice
import Billiard.Data.Tiling
import Billiard.Heap.Index

/-! What the allocator is for: every arena is cut into free blocks, allocated
blocks and blocks that an operation under way holds. -/

namespace Billiard

open Tiling

/-- The extents of the blocks of one arena. -/
def spans (arena : Arena) (blocks : Set Block) : Set (Nat × Nat) :=
  {span | (⟨arena, span.1, span.2⟩ : Block) ∈ blocks}

structure Layout (arenas : List Arena) (free allocated held : Set Block) : Prop where
  tiles : ∀ arena ∈ arenas,
    Tiles (spans arena (free ∪ allocated ∪ held)) (Set.Ico 0 arena.size)
  known : ∀ block ∈ free ∪ allocated ∪ held, block.arena ∈ arenas
  free_allocated : Disjoint free allocated
  free_held : Disjoint free held
  allocated_held : Disjoint allocated held
  separated : ∀ left ∈ free, ∀ right ∈ free, left.arena = right.arena →
    left.stop ≠ right.start

variable {arenas : List Arena} {free allocated held blocks : Set Block} {block : Block}

@[simp] theorem mem_spans {arena : Arena} {span : Nat × Nat} :
    span ∈ spans arena blocks ↔ (⟨arena, span.1, span.2⟩ : Block) ∈ blocks :=
  Iff.rfl

theorem mem_spans_of_mem (member : block ∈ blocks) :
    (block.start, block.stop) ∈ spans block.arena blocks :=
  member

theorem Layout.nonempty (layout : Layout arenas free allocated held)
    (member : block ∈ free ∪ allocated ∪ held) : block.start < block.stop :=
  (layout.tiles block.arena (layout.known block member)).nonempty _ (mem_spans_of_mem member)

theorem Layout.eq_of_start (layout : Layout arenas free allocated held) {left right : Block}
    (hleft : left ∈ free ∪ allocated ∪ held) (hright : right ∈ free ∪ allocated ∪ held)
    (arena : left.arena = right.arena) (start : left.start = right.start) :
    left = right := by
  obtain ⟨leftArena, leftStart, leftStop⟩ := left
  obtain ⟨rightArena, rightStart, rightStop⟩ := right
  cases arena
  have same := (layout.tiles leftArena (layout.known _ hleft)).eq_of_start
    (mem_spans_of_mem hleft) (mem_spans_of_mem hright) start
  cases same
  rfl

theorem Layout.eq_of_stop (layout : Layout arenas free allocated held) {left right : Block}
    (hleft : left ∈ free ∪ allocated ∪ held) (hright : right ∈ free ∪ allocated ∪ held)
    (arena : left.arena = right.arena) (stop : left.stop = right.stop) :
    left = right := by
  obtain ⟨leftArena, leftStart, leftStop⟩ := left
  obtain ⟨rightArena, rightStart, rightStop⟩ := right
  cases arena
  have same := (layout.tiles leftArena (layout.known _ hleft)).eq_of_stop
    (mem_spans_of_mem hleft) (mem_spans_of_mem hright) stop
  cases same
  rfl

theorem Layout.apart (layout : Layout arenas free allocated held) {left right : Block}
    (hleft : left ∈ free ∪ allocated ∪ held) (hright : right ∈ free ∪ allocated ∪ held)
    (arena : left.arena = right.arena) (different : left ≠ right) :
    left.stop ≤ right.start ∨ right.stop ≤ left.start := by
  obtain ⟨leftArena, leftStart, leftStop⟩ := left
  obtain ⟨rightArena, rightStart, rightStop⟩ := right
  cases arena
  refine (layout.tiles leftArena (layout.known _ hleft)).apart (mem_spans_of_mem hleft)
    (mem_spans_of_mem hright) ?_
  intro same
  cases same
  exact different rfl

theorem Layout.inside (layout : Layout arenas free allocated held)
    (member : block ∈ free ∪ allocated ∪ held) : block.stop ≤ block.arena.size :=
  ((layout.tiles block.arena (layout.known block member)).mem_bounds
    (mem_spans_of_mem member)).2

theorem layout_empty : Layout [] ∅ ∅ ∅ where
  tiles := by simp
  known := by simp
  free_allocated := by simp
  free_held := by simp
  allocated_held := by simp
  separated := by simp

theorem Layout.takeFree (layout : Layout arenas free allocated held) (member : block ∈ free) :
    Layout arenas (free \ {block}) allocated (insert block held) := by
  have whole : free \ {block} ∪ allocated ∪ insert block held = free ∪ allocated ∪ held := by
    ext other
    by_cases same : other = block
    · simp [same, member]
    · simp [same]
  refine ⟨whole ▸ layout.tiles, whole ▸ layout.known, ?_, ?_, ?_, ?_⟩
  · exact layout.free_allocated.mono_left Set.sdiff_subset
  · rw [Set.disjoint_insert_right]
    exact ⟨fun inside => inside.2 rfl, layout.free_held.mono_left Set.sdiff_subset⟩
  · rw [Set.disjoint_insert_right]
    exact ⟨Set.disjoint_left.mp layout.free_allocated member, layout.allocated_held⟩
  · exact fun left hleft right hright => layout.separated left hleft.1 right hright.1

theorem Layout.takeAllocated (layout : Layout arenas free allocated held)
    (member : block ∈ allocated) :
    Layout arenas free (allocated \ {block}) (insert block held) := by
  have whole : free ∪ allocated \ {block} ∪ insert block held = free ∪ allocated ∪ held := by
    ext other
    by_cases same : other = block
    · simp [same, member]
    · simp [same]
  refine ⟨whole ▸ layout.tiles, whole ▸ layout.known, ?_, ?_, ?_, layout.separated⟩
  · exact layout.free_allocated.mono_right Set.sdiff_subset
  · rw [Set.disjoint_insert_right]
    exact ⟨Set.disjoint_right.mp layout.free_allocated member, layout.free_held⟩
  · rw [Set.disjoint_insert_right]
    exact ⟨fun inside => inside.2 rfl, layout.allocated_held.mono_left Set.sdiff_subset⟩

theorem Layout.allocate (layout : Layout arenas free allocated (insert block held))
    (fresh : block ∉ held) : Layout arenas free (insert block allocated) held := by
  have whole : free ∪ insert block allocated ∪ held =
      free ∪ allocated ∪ insert block held := by
    ext other
    simp only [Set.mem_union, Set.mem_insert_iff]
    tauto
  have free_held := Set.disjoint_insert_right.mp layout.free_held
  have allocated_held := Set.disjoint_insert_right.mp layout.allocated_held
  refine ⟨whole ▸ layout.tiles, whole ▸ layout.known, ?_, free_held.2, ?_, layout.separated⟩
  · exact Set.disjoint_insert_right.mpr ⟨free_held.1, layout.free_allocated⟩
  · exact Set.disjoint_insert_left.mpr ⟨fresh, allocated_held.2⟩

theorem Layout.release (layout : Layout arenas free allocated {block})
    (noPrev : ∀ other ∈ free, other.arena = block.arena → other.stop ≠ block.start)
    (noNext : ∀ other ∈ free, other.arena = block.arena → block.stop ≠ other.start) :
    Layout arenas (insert block free) allocated ∅ := by
  have whole : insert block free ∪ allocated ∪ ∅ = free ∪ allocated ∪ {block} := by
    ext other
    simp only [Set.mem_union, Set.mem_insert_iff, Set.mem_singleton_iff, Set.mem_empty_iff_false]
    tauto
  refine ⟨whole ▸ layout.tiles, whole ▸ layout.known, ?_, Set.disjoint_empty _,
    Set.disjoint_empty _, ?_⟩
  · exact Set.disjoint_insert_left.mpr
      ⟨Set.disjoint_singleton_right.mp layout.allocated_held, layout.free_allocated⟩
  · intro left hleft right hright arena
    rcases hleft with rfl | oldLeft
    · rcases hright with rfl | oldRight
      · exact (layout.nonempty (.inr rfl)).ne'
      · exact noNext right oldRight arena.symm
    · rcases hright with rfl | oldRight
      · exact noPrev left oldLeft arena
      · exact layout.separated left oldLeft right oldRight arena

theorem Layout.recut (layout : Layout arenas free allocated held) (arena : Arena)
    {recut : Set Block}
    (some_held : held.Nonempty) (held_arena : ∀ block ∈ held, block.arena = arena)
    (recut_arena : ∀ block ∈ recut, block.arena = arena)
    (changed : ∀ block ∈ recut, ∃ old ∈ held, old ≠ block ∧
      (old.start = block.start ∨ old.stop = block.stop))
    (retiled : Tiles (spans arena recut ∪
      (spans arena (free ∪ allocated ∪ held) \ spans arena held)) (Set.Ico 0 arena.size)) :
    Layout arenas free allocated recut := by
  have arena_known : arena ∈ arenas := by
    obtain ⟨block, member⟩ := some_held
    exact held_arena block member ▸ layout.known block (.inr member)
  have held_fresh : ∀ block ∈ held, block ∉ free ∪ allocated := by
    intro block member old
    rcases old with old | old
    · exact Set.disjoint_left.mp layout.free_held old member
    · exact Set.disjoint_left.mp layout.allocated_held old member
  have recut_fresh : ∀ block ∈ recut, block ∉ free ∪ allocated := by
    intro block member inside
    obtain ⟨old, oldMember, different, shared⟩ := changed block member
    have sameArena := (held_arena old oldMember).trans (recut_arena block member).symm
    rcases shared with start | stop
    · exact different (layout.eq_of_start (.inr oldMember) (.inl inside) sameArena start)
    · exact different (layout.eq_of_stop (.inr oldMember) (.inl inside) sameArena stop)
  refine ⟨?_, ?_, layout.free_allocated, ?_, ?_, layout.separated⟩
  · intro other member
    by_cases same : other = arena
    · subst same
      have pieces : spans other (free ∪ allocated ∪ recut) = spans other recut ∪
          (spans other (free ∪ allocated ∪ held) \ spans other held) := by
        ext span
        have fresh := held_fresh ⟨other, span.1, span.2⟩
        simp only [Set.mem_union, mem_spans, Set.mem_sdiff] at fresh ⊢
        tauto
      rw [pieces]
      exact retiled
    · have pieces : spans other (free ∪ allocated ∪ recut) =
          spans other (free ∪ allocated ∪ held) := by
        ext span
        have notHeld : (⟨other, span.1, span.2⟩ : Block) ∉ held :=
          fun inside => same (held_arena _ inside)
        have notRecut : (⟨other, span.1, span.2⟩ : Block) ∉ recut :=
          fun inside => same (recut_arena _ inside)
        simp only [Set.mem_union, mem_spans, notHeld, notRecut]
      rw [pieces]
      exact layout.tiles other member
  · intro block member
    rcases member with old | new
    · exact layout.known block (.inl old)
    · exact recut_arena block new ▸ arena_known
  · exact Set.disjoint_right.mpr fun block member old => recut_fresh block member (.inl old)
  · exact Set.disjoint_right.mpr fun block member old => recut_fresh block member (.inr old)

theorem Layout.split {arena : Arena} {start middle stop : Nat}
    (layout : Layout arenas free allocated {⟨arena, start, stop⟩})
    (hfirst : start < middle) (hsecond : middle < stop) :
    Layout arenas free allocated {⟨arena, start, middle⟩, ⟨arena, middle, stop⟩} := by
  apply layout.recut arena (Set.singleton_nonempty _)
  · simp
  · simp
  · intro block member
    refine ⟨⟨arena, start, stop⟩, rfl, ?_⟩
    rcases member with rfl | rfl
    · simp [hsecond.ne']
    · simp [hfirst.ne]
  · have retiled := (layout.tiles arena (layout.known ⟨arena, start, stop⟩ (.inr rfl))).split
      (.inr rfl) hfirst hsecond
    have old : spans arena {⟨arena, start, stop⟩} = {(start, stop)} := by
      ext span
      simp [spans, Prod.ext_iff]
    have new : spans arena {⟨arena, start, middle⟩, ⟨arena, middle, stop⟩} =
        {(start, middle), (middle, stop)} := by
      ext span
      simp [spans, Prod.ext_iff]
    rw [old, new, Set.insert_union, Set.singleton_union]
    exact retiled

theorem Layout.merge {arena : Arena} {start middle stop : Nat}
    (layout : Layout arenas free allocated {⟨arena, start, middle⟩, ⟨arena, middle, stop⟩}) :
    Layout arenas free allocated {⟨arena, start, stop⟩} := by
  have first : (⟨arena, start, middle⟩ : Block) ∈ free ∪ allocated ∪
      {⟨arena, start, middle⟩, ⟨arena, middle, stop⟩} := .inr (.inl rfl)
  have second : (⟨arena, middle, stop⟩ : Block) ∈ free ∪ allocated ∪
      {⟨arena, start, middle⟩, ⟨arena, middle, stop⟩} := .inr (.inr rfl)
  have hfirst : start < middle := layout.nonempty first
  have hsecond : middle < stop := layout.nonempty second
  apply layout.recut arena (Set.insert_nonempty _ _)
  · simp
  · simp
  · intro block member
    refine ⟨⟨arena, start, middle⟩, .inl rfl, ?_⟩
    cases member
    simp [hsecond.ne]
  · have retiled := (layout.tiles arena (layout.known _ first)).merge first second
    have old : spans arena {⟨arena, start, middle⟩, ⟨arena, middle, stop⟩} =
        {(start, middle), (middle, stop)} := by
      ext span
      simp [spans, Prod.ext_iff]
    have new : spans arena {⟨arena, start, stop⟩} = {(start, stop)} := by
      ext span
      simp [spans, Prod.ext_iff]
    rw [old, new, Set.singleton_union]
    exact retiled

theorem Layout.addArena (layout : Layout arenas free allocated ∅) {arena : Arena}
    (fresh : arena ∉ arenas) (positive : 0 < arena.size) :
    Layout (arenas ++ [arena]) free allocated {⟨arena, 0, arena.size⟩} := by
  have foreign : ∀ block ∈ free ∪ allocated, block.arena ≠ arena := by
    intro block member same
    exact fresh (same ▸ layout.known block (.inl member))
  refine ⟨?_, ?_, layout.free_allocated, ?_, ?_, layout.separated⟩
  · intro other member
    rcases List.mem_append.mp member with old | new
    · have pieces : spans other (free ∪ allocated ∪ {⟨arena, 0, arena.size⟩}) =
          spans other (free ∪ allocated ∪ ∅) := by
        ext span
        have different : other ≠ arena := fun same => fresh (same ▸ old)
        simp [spans, different]
      rw [pieces]
      exact layout.tiles other old
    · rw [List.mem_singleton] at new
      subst new
      have pieces : spans other (free ∪ allocated ∪ {⟨other, 0, other.size⟩}) =
          {(0, other.size)} := by
        ext span
        have notOld : (⟨other, span.1, span.2⟩ : Block) ∉ free ∪ allocated :=
          fun inside => foreign _ inside rfl
        rw [mem_spans, Set.mem_union, or_iff_right notOld]
        simp [Prod.ext_iff]
      rw [pieces]
      exact tiles_singleton positive
  · intro block member
    rcases member with old | rfl
    · exact List.mem_append_left _ (layout.known block (.inl old))
    · simp
  · exact Set.disjoint_singleton_right.mpr fun old => foreign _ (.inl old) rfl
  · exact Set.disjoint_singleton_right.mpr fun old => foreign _ (.inr old) rfl

theorem Layout.all_free {arena : Arena} (layout : Layout arenas free ∅ ∅)
    (member : arena ∈ arenas) (positive : 0 < arena.size) (block : Block) :
    block ∈ free ∧ block.arena = arena ↔ block = ⟨arena, 0, arena.size⟩ := by
  have tiles := layout.tiles arena member
  rw [Set.union_empty, Set.union_empty] at tiles
  have whole := tiles.eq_singleton positive
    (fun left hleft right hright => layout.separated _ hleft _ hright rfl)
  obtain ⟨blockArena, start, stop⟩ := block
  constructor
  · intro inside
    obtain ⟨free, same⟩ := inside
    cases same
    have span : (start, stop) ∈ spans blockArena _ := free
    rw [whole, Set.mem_singleton_iff, Prod.mk.injEq] at span
    rw [span.1, span.2]
  · intro same
    cases same
    have span : (0, arena.size) ∈ spans arena free := whole ▸ rfl
    exact ⟨span, rfl⟩

end Billiard
