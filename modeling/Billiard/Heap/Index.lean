import Billiard.Heap.Basic
import Mathlib.Data.Set.Insert

/-! The index structures as one set of free blocks. -/

namespace Billiard

open Bisect

namespace FreeIndex

def blocks (index : FreeIndex) : Set Block :=
  {block | ∃ seq, index.lenToSeq block.length = some seq ∧ block ∈ seq}

/-- All five structures describe the set `free`. -/
structure Represents (index : FreeIndex) (free : Set Block) : Prop where
  ascending : index.lengths.Pairwise (· < ·)
  mem_lengths : ∀ length, length ∈ index.lengths ↔ ∃ seq, index.lenToSeq length = some seq
  seq : ∀ length seq, index.lenToSeq length = some seq →
    seq ≠ [] ∧ seq.Nodup ∧ ∀ block, block ∈ seq ↔ block ∈ free ∧ block.length = length
  listed : ∀ block ∈ free, ∃ seq, index.lenToSeq block.length = some seq
  start : ∀ arena start block, index.startToBlock (arena, start) = some block ↔
    block ∈ free ∧ block.arena = arena ∧ block.start = start
  stop : ∀ arena stop block, index.stopToBlock (arena, stop) = some block ↔
    block ∈ free ∧ block.arena = arena ∧ block.stop = stop

theorem represents_empty : empty.Represents ∅ where
  ascending := List.Pairwise.nil
  mem_lengths := by simp [empty]
  seq := by simp [empty]
  listed := by simp
  start := by simp [empty]
  stop := by simp [empty]

variable {index : FreeIndex} {free : Set Block} {block : Block}

theorem Represents.blocks_eq (represents : index.Represents free) : index.blocks = free := by
  ext block
  constructor
  · rintro ⟨seq, found, member⟩
    exact (((represents.seq _ seq found).2.2 block).mp member).1
  · intro member
    obtain ⟨seq, found⟩ := represents.listed block member
    exact ⟨seq, found, ((represents.seq _ seq found).2.2 block).mpr ⟨member, rfl⟩⟩

theorem Represents.mem_seq (represents : index.Represents free) (member : block ∈ free) :
    ∃ seq, index.lenToSeq block.length = some seq ∧ block ∈ seq := by
  obtain ⟨seq, found⟩ := represents.listed block member
  exact ⟨seq, found, ((represents.seq _ seq found).2.2 block).mpr ⟨member, rfl⟩⟩

theorem Represents.start_some (represents : index.Represents free) (member : block ∈ free) :
    index.startToBlock (block.arena, block.start) = some block :=
  (represents.start _ _ _).mpr ⟨member, rfl, rfl⟩

theorem Represents.stop_some (represents : index.Represents free) (member : block ∈ free) :
    index.stopToBlock (block.arena, block.stop) = some block :=
  (represents.stop _ _ _).mpr ⟨member, rfl, rfl⟩

theorem Represents.starts (represents : index.Represents free) :
    index.startToBlock.Indexes (fun block => (block.arena, block.start)) free :=
  fun ⟨arena, start⟩ block => by rw [represents.start, Prod.mk.injEq]

theorem Represents.stops (represents : index.Represents free) :
    index.stopToBlock.Indexes (fun block => (block.arena, block.stop)) free :=
  fun ⟨arena, stop⟩ block => by rw [represents.stop, Prod.mk.injEq]

theorem erase_start (represents : index.Represents free) (member : block ∈ free)
    (arena : Arena) (start : Nat) (other : Block) :
    index.startToBlock.erase (block.arena, block.start) (arena, start) = some other ↔
      other ∈ free \ {block} ∧ other.arena = arena ∧ other.start = start := by
  rw [represents.starts.erase member (arena, start) other, Prod.mk.injEq]

theorem erase_stop (represents : index.Represents free) (member : block ∈ free)
    (arena : Arena) (stop : Nat) (other : Block) :
    index.stopToBlock.erase (block.arena, block.stop) (arena, stop) = some other ↔
      other ∈ free \ {block} ∧ other.arena = arena ∧ other.stop = stop := by
  rw [represents.stops.erase member (arena, stop) other, Prod.mk.injEq]

theorem Represents.dropLength (represents : index.Represents free) (member : block ∈ free)
    {seq : List Block} (found : index.lenToSeq block.length = some seq)
    (alone : ∀ other ∈ seq, other = block) {lengths : List Nat}
    (ascending : lengths.Pairwise (· < ·))
    (mem_lengths : ∀ length, length ∈ lengths ↔
      length ∈ index.lengths ∧ length ≠ block.length) :
    Represents ⟨lengths, index.lenToSeq.erase block.length,
      index.startToBlock.erase (block.arena, block.start),
      index.stopToBlock.erase (block.arena, block.stop)⟩ (free \ {block}) := by
  have sole : ∀ other ∈ free, other.length = block.length → other = block := by
    intro other old same
    exact alone other (((represents.seq _ seq found).2.2 other).mpr ⟨old, same⟩)
  refine ⟨ascending, ?_, ?_, ?_, erase_start represents member, erase_stop represents member⟩
  · intro length
    rw [mem_lengths, represents.mem_lengths]
    simp only [Dict.erase_eq_some]
    constructor
    · intro kept
      obtain ⟨seq, old⟩ := kept.1
      exact ⟨seq, kept.2, old⟩
    · intro kept
      obtain ⟨seq, different, old⟩ := kept
      exact ⟨⟨seq, old⟩, different⟩
  · intro length others kept
    obtain ⟨different, old⟩ := Dict.erase_eq_some.mp kept
    obtain ⟨nonempty, nodup, same⟩ := represents.seq length others old
    refine ⟨nonempty, nodup, fun other => (same other).trans ?_⟩
    constructor
    · intro kept
      refine ⟨⟨kept.1, fun gone => ?_⟩, kept.2⟩
      exact different (kept.2.symm.trans (congrArg Block.length gone))
    · exact fun kept => ⟨kept.1.1, kept.2⟩
  · rintro other ⟨old, different⟩
    obtain ⟨others, listed⟩ := represents.listed other old
    exact ⟨others, Dict.erase_eq_some.mpr ⟨fun same => different (sole other old same), listed⟩⟩

theorem Represents.dropFromSeq (represents : index.Represents free) (member : block ∈ free)
    {seq rest : List Block} (found : index.lenToSeq block.length = some seq)
    (nonempty : rest ≠ []) (nodup : rest.Nodup)
    (mem_rest : ∀ other, other ∈ rest ↔ other ∈ seq ∧ other ≠ block) :
    Represents ⟨index.lengths, index.lenToSeq.set block.length rest,
      index.startToBlock.erase (block.arena, block.start),
      index.stopToBlock.erase (block.arena, block.stop)⟩ (free \ {block}) := by
  refine ⟨represents.ascending, ?_, ?_, ?_, erase_start represents member,
    erase_stop represents member⟩
  · intro length
    rw [represents.mem_lengths]
    simp only [Dict.set_eq_some]
    constructor
    · rintro ⟨others, listed⟩
      by_cases same : length = block.length
      · exact ⟨rest, .inl ⟨same, rfl⟩⟩
      · exact ⟨others, .inr ⟨same, listed⟩⟩
    · rintro ⟨others, ⟨rfl, rfl⟩ | ⟨_, listed⟩⟩
      · exact ⟨seq, found⟩
      · exact ⟨others, listed⟩
  · intro length others listed
    rcases Dict.set_eq_some.mp listed with ⟨rfl, rfl⟩ | ⟨different, old⟩
    · refine ⟨nonempty, nodup, fun other => ?_⟩
      rw [mem_rest, (represents.seq _ seq found).2.2 other]
      exact ⟨fun ⟨⟨inside, size⟩, fresh⟩ => ⟨⟨inside, fresh⟩, size⟩,
        fun ⟨⟨inside, fresh⟩, size⟩ => ⟨⟨inside, size⟩, fresh⟩⟩
    · obtain ⟨nonempty, nodup, same⟩ := represents.seq length others old
      refine ⟨nonempty, nodup, fun other => (same other).trans ?_⟩
      refine ⟨fun ⟨inside, size⟩ => ⟨⟨inside, ?_⟩, size⟩, fun ⟨inside, size⟩ => ⟨inside.1, size⟩⟩
      rintro rfl
      exact different size.symm
  · rintro other ⟨old, _⟩
    obtain ⟨others, listed⟩ := represents.listed other old
    by_cases same : other.length = block.length
    · exact ⟨rest, Dict.set_eq_some.mpr (.inl ⟨same, rfl⟩)⟩
    · exact ⟨others, Dict.set_eq_some.mpr (.inr ⟨same, listed⟩)⟩

theorem absorb_spec (represents : index.Represents free) (member : block ∈ free) :
    ∃ next, index.absorb block = .ok (next, block.start, block.stop) ∧
      next.Represents (free \ {block}) := by
  obtain ⟨seq, found, listed⟩ := represents.mem_seq member
  obtain ⟨_, nodup, _⟩ := represents.seq _ seq found
  have knownLength : block.length ∈ index.lengths :=
    (represents.mem_lengths _).mpr ⟨seq, found⟩
  simp only [absorb, Dict.del?_of_some (represents.start_some member),
    Dict.del?_of_some (represents.stop_some member), found, orRaise_some, bind, Except.bind,
    listed, not_true_eq_false, if_false, pure, Except.pure]
  cases rest : seq.erase block with
  | nil =>
      simp only [List.isEmpty_nil, if_true, Dict.del?_of_some found, orRaise_some, knownLength,
        not_true_eq_false, if_false]
      refine ⟨_, rfl, represents.dropLength member found ?_
        (represents.ascending.sublist List.erase_sublist) ?_⟩
      · intro other inside
        by_contra different
        have kept := (List.mem_erase_of_ne different).mpr inside
        rw [rest] at kept
        exact absurd kept List.not_mem_nil
      · intro length
        rw [(nodup_of_ascending represents.ascending).mem_erase_iff]
        exact and_comm
  | cons head tail =>
      simp only [List.isEmpty_cons, Bool.false_eq_true, if_false]
      refine ⟨_, rfl, represents.dropFromSeq member found (List.cons_ne_nil _ _) ?_ ?_⟩
      · exact rest ▸ nodup.erase block
      · intro other
        rw [← rest, nodup.mem_erase_iff]
        exact and_comm

theorem set_start (represents : index.Represents free)
    (fresh : ∀ other ∈ free, other.arena = block.arena → other.start ≠ block.start)
    (arena : Arena) (start : Nat) (other : Block) :
    index.startToBlock.set (block.arena, block.start) block (arena, start) = some other ↔
      other ∈ insert block free ∧ other.arena = arena ∧ other.start = start := by
  have apart : ∀ other ∈ free, (other.arena, other.start) ≠ (block.arena, block.start) := by
    intro other old same
    obtain ⟨sameArena, sameStart⟩ := Prod.mk.inj same
    exact fresh other old sameArena sameStart
  rw [represents.starts.set apart (arena, start) other, Prod.mk.injEq]

theorem set_stop (represents : index.Represents free)
    (fresh : ∀ other ∈ free, other.arena = block.arena → other.stop ≠ block.stop)
    (arena : Arena) (stop : Nat) (other : Block) :
    index.stopToBlock.set (block.arena, block.stop) block (arena, stop) = some other ↔
      other ∈ insert block free ∧ other.arena = arena ∧ other.stop = stop := by
  have apart : ∀ other ∈ free, (other.arena, other.stop) ≠ (block.arena, block.stop) := by
    intro other old same
    obtain ⟨sameArena, sameStop⟩ := Prod.mk.inj same
    exact fresh other old sameArena sameStop
  rw [represents.stops.set apart (arena, stop) other, Prod.mk.injEq]

theorem Represents.add (represents : index.Represents free)
    (freshStart : ∀ other ∈ free, other.arena = block.arena → other.start ≠ block.start)
    (freshStop : ∀ other ∈ free, other.arena = block.arena → other.stop ≠ block.stop)
    {lengths : List Nat} {seq : List Block} (ascending : lengths.Pairwise (· < ·))
    (mem_lengths : ∀ length, length ∈ lengths ↔ length = block.length ∨ length ∈ index.lengths)
    (nonempty : seq ≠ []) (nodup : seq.Nodup)
    (mem_seq : ∀ other, other ∈ seq ↔ other ∈ insert block free ∧ other.length = block.length) :
    Represents ⟨lengths, index.lenToSeq.set block.length seq,
      index.startToBlock.set (block.arena, block.start) block,
      index.stopToBlock.set (block.arena, block.stop) block⟩ (insert block free) := by
  refine ⟨ascending, ?_, ?_, ?_, set_start represents freshStart, set_stop represents freshStop⟩
  · intro length
    rw [mem_lengths, represents.mem_lengths]
    simp only [Dict.set_eq_some]
    constructor
    · rintro (rfl | ⟨old, listed⟩)
      · exact ⟨_, .inl ⟨rfl, rfl⟩⟩
      · by_cases size : length = block.length
        · exact ⟨_, .inl ⟨size, rfl⟩⟩
        · exact ⟨old, .inr ⟨size, listed⟩⟩
    · rintro ⟨old, ⟨rfl, _⟩ | ⟨_, listed⟩⟩
      · exact .inl rfl
      · exact .inr ⟨old, listed⟩
  · intro length old listed
    rcases Dict.set_eq_some.mp listed with ⟨rfl, rfl⟩ | ⟨different, before⟩
    · exact ⟨nonempty, nodup, mem_seq⟩
    · obtain ⟨nonempty, nodup, same⟩ := represents.seq length old before
      refine ⟨nonempty, nodup, fun other => (same other).trans ?_⟩
      refine ⟨fun ⟨inside, size⟩ => ⟨.inr inside, size⟩, fun ⟨inside, size⟩ => ⟨?_, size⟩⟩
      rcases inside with rfl | inside
      · exact absurd size.symm different
      · exact inside
  · rintro other (rfl | old)
    · exact ⟨_, Dict.set_eq_some.mpr (.inl ⟨rfl, rfl⟩)⟩
    · obtain ⟨before, listed⟩ := represents.listed other old
      by_cases size : other.length = block.length
      · exact ⟨_, Dict.set_eq_some.mpr (.inl ⟨size, rfl⟩)⟩
      · exact ⟨before, Dict.set_eq_some.mpr (.inr ⟨size, listed⟩)⟩

theorem register_represents (represents : index.Represents free)
    (freshStart : ∀ other ∈ free, other.arena = block.arena → other.start ≠ block.start)
    (freshStop : ∀ other ∈ free, other.arena = block.arena → other.stop ≠ block.stop) :
    (index.register block).Represents (insert block free) := by
  have fresh : block ∉ free := fun old => freshStart block old rfl rfl
  cases found : index.lenToSeq block.length with
  | some seq =>
      simp only [register, found]
      obtain ⟨_, nodup, same⟩ := represents.seq _ seq found
      have unlisted : block ∉ seq := fun listed => fresh ((same block).mp listed).1
      have known : block.length ∈ index.lengths := (represents.mem_lengths _).mpr ⟨seq, found⟩
      apply represents.add freshStart freshStop represents.ascending _ (by simp)
      · refine List.nodup_append.mpr ⟨nodup, by simp, ?_⟩
        intro left inside right last
        rw [List.mem_singleton.mp last]
        rintro rfl
        exact unlisted inside
      · intro other
        rw [List.mem_append, List.mem_singleton, same]
        constructor
        · rintro (⟨inside, size⟩ | rfl)
          · exact ⟨.inr inside, size⟩
          · exact ⟨.inl rfl, rfl⟩
        · rintro ⟨rfl | inside, size⟩
          · exact .inr rfl
          · exact .inl ⟨inside, size⟩
      · exact fun length => ⟨.inr, fun either => either.elim (fun same => same ▸ known) id⟩
  | none =>
      simp only [register, found]
      have unknown : block.length ∉ index.lengths := by
        rw [represents.mem_lengths, found]
        simp
      apply represents.add freshStart freshStop (insort_ascending represents.ascending unknown)
        (fun length => mem_insort) (by simp) (by simp)
      intro other
      rw [List.mem_singleton]
      constructor
      · rintro rfl
        exact ⟨.inl rfl, rfl⟩
      · rintro ⟨rfl | inside, size⟩
        · rfl
        · obtain ⟨before, was⟩ := represents.listed other inside
          rw [size, found] at was
          contradiction

/-- `_malloc` takes a free block of the least sufficient length. -/
theorem take_spec (represents : index.Represents free) {size : Nat}
    (inside : bisectLeft index.lengths size < index.lengths.length) :
    ∃ next block, index.take (bisectLeft index.lengths size) = .ok (next, block) ∧
      block ∈ free ∧ size ≤ block.length ∧
      (∀ other ∈ free, size ≤ other.length → block.length ≤ other.length) ∧
      next.Represents (free \ {block}) := by
  obtain ⟨enough, least⟩ := getElem_bisectLeft represents.ascending inside
  generalize position : bisectLeft index.lengths size = i at inside enough least ⊢
  have known : index.lengths[i] ∈ index.lengths := List.getElem_mem inside
  obtain ⟨seq, found⟩ := (represents.mem_lengths _).mp known
  obtain ⟨nonempty, nodup, same⟩ := represents.seq _ seq found
  obtain ⟨front, block, rfl⟩ : ∃ front block, seq = front ++ [block] :=
    ⟨seq.dropLast, seq.getLast nonempty, (List.dropLast_append_getLast nonempty).symm⟩
  obtain ⟨member, size_eq⟩ := (same block).mp (by simp)
  have unlisted : block ∉ front := by
    intro again
    exact (List.nodup_append.mp nodup).2.2 block again block (by simp) rfl
  have leastBlock : ∀ other ∈ free, size ≤ other.length → block.length ≤ other.length := by
    intro other old above
    rw [size_eq]
    exact least _ ((represents.mem_lengths _).mpr (represents.listed other old)) above
  rw [← size_eq] at found
  simp only [take, List.getElem?_eq_getElem inside, orRaise_some, ← size_eq, found, bind,
    Except.bind, List.getLast?_concat, List.dropLast_concat]
  cases front with
  | nil =>
      simp only [List.isEmpty_nil, if_true, Dict.del?_of_some found,
        Dict.del?_of_some (represents.start_some member),
        Dict.del?_of_some (represents.stop_some member), orRaise_some, pure, Except.pure]
      refine ⟨_, block, rfl, member, size_eq ▸ enough, leastBlock,
        represents.dropLength member found ?_
          (represents.ascending.sublist (List.eraseIdx_sublist _ _)) ?_⟩
      · simp
      · intro length
        rw [← (nodup_of_ascending represents.ascending).erase_getElem i inside, ← size_eq,
          (nodup_of_ascending represents.ascending).mem_erase_iff]
        exact and_comm
  | cons head tail =>
      simp only [List.isEmpty_cons, Bool.false_eq_true, if_false,
        Dict.del?_of_some (represents.start_some member),
        Dict.del?_of_some (represents.stop_some member), orRaise_some, pure, Except.pure]
      refine ⟨_, block, rfl, member, size_eq ▸ enough, leastBlock,
        represents.dropFromSeq member found (List.cons_ne_nil _ _)
          (List.nodup_append.mp nodup).1 ?_⟩
      intro other
      rw [List.mem_append, List.mem_singleton]
      refine ⟨fun kept => ⟨.inl kept, ?_⟩, fun kept => kept.1.resolve_right kept.2⟩
      intro same
      rw [same] at kept
      exact unlisted kept

end FreeIndex

end Billiard
