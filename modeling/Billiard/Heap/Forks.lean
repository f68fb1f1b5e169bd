import Billiard.Data.Tally
import Billiard.Heap.Allocation

/-! The heaps of a tree of processes.  An arena is mapped for the process that creates it and for
all that are forked from it later on, which inherit the heap as well. -/

namespace Billiard

open Transition Tally

/-- `regions` are the shared mappings behind the arenas of the heap, in the order of `_arenas`. -/
structure HeapProcess where
  allocator : Allocator
  regions : List Nat

/-- `created` counts the mappings that any process has made. -/
structure HeapFamily where
  processes : List HeapProcess
  created : Nat

namespace HeapProcess

/-- Whether the heap is the one of this process; what it has inherited belongs to another one. -/
abbrev Owned (process : HeapProcess) : Prop := process.allocator.Owned

def arenas (process : HeapProcess) : List Arena := process.allocator.session.heap.arenas

/-- What `malloc` has returned in this process and nobody has freed. -/
def live (process : HeapProcess) : Finset Block :=
  if process.Owned then process.allocator.session.live else ∅

/-- The two blocks have bytes in common. -/
def Shares (left : HeapProcess) (block : Block) (right : HeapProcess) (other : Block) : Prop :=
  ∃ region, left.regions[block.arena.id]? = some region ∧
    right.regions[other.arena.id]? = some region ∧
    block.start < other.stop ∧ other.start < block.stop

end HeapProcess

/-- A heap that has come to have `count` arenas: each new one has a mapping of its own. -/
def mapArenas (regions : List Nat) (created count : Nat) : List Nat :=
  regions.take count ++ List.range' created (count - regions.length)

namespace HeapFamily

def init (pid size : Nat) : HeapFamily :=
  ⟨[⟨.init pid size, []⟩], 0⟩

def step (pageShift : Nat) (family : HeapFamily) (label : Nat × Allocator.Action) :
    Option HeapFamily :=
  let (i, action) := label
  match family.processes[i]?, action with
  | none, _ => none
  | some process, .fork pid =>
      some { family with
        processes := family.processes ++ [{ process with
          allocator := { process.allocator with pid } }] }
  | some process, action =>
      (process.allocator.step pageShift action).map fun allocator =>
        let count := allocator.session.heap.arenas.length
        { processes := family.processes.set i
            ⟨allocator, mapArenas process.regions family.created count⟩
          created := family.created + (count - process.regions.length) }

/-- No child gets the pid of the process whose heap it inherits. -/
def Fresh (family : HeapFamily) : Nat × Allocator.Action → Prop
  | (i, .fork pid) => ∀ process, family.processes[i]? = some process →
      pid ≠ process.allocator.session.heap.lastpid
  | _ => True

instance (family : HeapFamily) (label : Nat × Allocator.Action) :
    Decidable (family.Fresh label) := by
  obtain ⟨i, action⟩ := label
  cases action with
  | fork pid =>
      exact decidable_of_iff ((family.processes[i]?.all fun process =>
        pid ≠ process.allocator.session.heap.lastpid) = true)
        (by simp only [Fresh, Option.all_eq_true, decide_eq_true_eq])
  | _ => exact isTrue trivial

end HeapFamily

section MapArenas

variable {regions : List Nat} {created count : Nat}

@[simp] theorem length_mapArenas : (mapArenas regions created count).length = count := by
  rw [mapArenas, List.length_append, List.length_take, List.length_range']
  omega

@[simp] theorem mapArenas_zero : mapArenas regions created 0 = [] :=
  List.eq_nil_of_length_eq_zero length_mapArenas

theorem mem_mapArenas {region : Nat} (member : region ∈ mapArenas regions created count) :
    region ∈ regions ∨ created ≤ region ∧ region < created + (count - regions.length) := by
  cases List.mem_append.mp member with
  | inl old => exact .inl (List.mem_of_mem_take old)
  | inr new => exact .inr (List.mem_range'_1.mp new)

theorem nodup_mapArenas (distinct : regions.Nodup) (old : ∀ region ∈ regions, region < created) :
    (mapArenas regions created count).Nodup := by
  refine List.nodup_append.mpr ⟨distinct.sublist (List.take_sublist ..), List.nodup_range' .., ?_⟩
  rintro region before _ after rfl
  have low := old region (List.mem_of_mem_take before)
  have high := (List.mem_range'_1.mp after).1
  omega

end MapArenas

variable {pageShift : Nat} {family next last : HeapFamily} {process : HeapProcess}
  {labels : List (Nat × Allocator.Action)}

/-- The mappings of a process that has a heap of its own are its own. -/
structure HeapProcess.Sound (created : Nat) (process : HeapProcess) : Prop where
  allocator : process.allocator.Invariant
  length : process.regions.length = process.arenas.length
  distinct : process.Owned → process.regions.Nodup
  old : process.Owned → ∀ region ∈ process.regions, region < created

namespace HeapFamily

structure Sound (family : HeapFamily) : Prop where
  each : ∀ (i : Nat) process, family.processes[i]? = some process → process.Sound family.created
  apart : ∀ (i j : Nat) left right, family.processes[i]? = some left →
    family.processes[j]? = some right → i ≠ j → left.Owned → right.Owned →
    ∀ region ∈ left.regions, region ∉ right.regions

/-- A process gets a heap of its own without any arenas. -/
theorem owned_of_step {allocator after : Allocator} {action : Allocator.Action}
    (taken : allocator.step pageShift action = some after) (work : ∀ pid, action ≠ .fork pid) :
    allocator.Owned ∨ after.session.heap.arenas = [] := by
  by_cases owned : allocator.Owned
  · exact .inl owned
  · cases action with
    | fork pid => exact absurd rfl (work pid)
    | malloc size =>
        simp only [Allocator.step, if_neg owned, Session.step] at taken
        obtain ⟨session, begun, rfl⟩ := Option.map_eq_some_iff.mp taken
        split at begun
        · cases begun
          exact .inr rfl
        · cases begun
    | free block => simp [Allocator.step, owned] at taken
    | freeLocked block => simp [Allocator.step, owned] at taken
    | freePending => simp [Allocator.step, owned] at taken
    | drain => simp [Allocator.step, owned] at taken
    | finish mapped => simp [Allocator.step, owned] at taken

theorem Sound.fork (sound : family.Sound) {i pid : Nat}
    (found : family.processes[i]? = some process)
    (fresh : pid ≠ process.allocator.session.heap.lastpid) :
    Sound { family with
      processes := family.processes ++ [{ process with
        allocator := { process.allocator with pid } }] } := by
  constructor
  · intro j member here
    cases getElem?_concat_cases here with
    | inl old => exact sound.each j member old
    | inr new =>
        have parent := sound.each i process found
        rw [new.2]
        exact ⟨⟨parent.allocator.session, parent.allocator.aligned⟩, parent.length,
          fun owned => absurd owned fresh, fun owned => absurd owned fresh⟩
  · intro j k left right here there different owned others
    cases getElem?_concat_cases here with
    | inr new =>
        rw [new.2] at owned
        exact absurd owned fresh
    | inl old =>
        cases getElem?_concat_cases there with
        | inr new =>
            rw [new.2] at others
            exact absurd others fresh
        | inl beside => exact sound.apart j k left right old beside different owned others

theorem Sound.work (sound : family.Sound) {i : Nat} {action : Allocator.Action}
    {after : Allocator} (found : family.processes[i]? = some process)
    (taken : process.allocator.step pageShift action = some after)
    (working : ∀ pid, action ≠ .fork pid) :
    Sound
      { processes := family.processes.set i
          ⟨after, mapArenas process.regions family.created after.session.heap.arenas.length⟩
        created := family.created +
          (after.session.heap.arenas.length - process.regions.length) } := by
  have mine := sound.each i process found
  -- who starts a heap of its own has no mappings at all then
  have regions : ∀ region ∈ mapArenas process.regions family.created
      after.session.heap.arenas.length,
      process.Owned ∧ region ∈ process.regions ∨ family.created ≤ region ∧
        region < family.created + (after.session.heap.arenas.length - process.regions.length) := by
    intro region member
    cases owned_of_step taken working with
    | inl owned => exact (mem_mapArenas member).imp_left fun old => ⟨owned, old⟩
    | inr empty =>
        rw [empty, List.length_nil, mapArenas_zero] at member
        cases member
  have stored : HeapProcess.Sound
      (family.created + (after.session.heap.arenas.length - process.regions.length))
      ⟨after, mapArenas process.regions family.created after.session.heap.arenas.length⟩ := by
    refine ⟨Allocator.Invariant.step _ _ _ mine.allocator taken, length_mapArenas, ?_, ?_⟩
    · intro _
      cases owned_of_step taken working with
      | inl owned => exact nodup_mapArenas (mine.distinct owned) (mine.old owned)
      | inr empty =>
          rw [empty, List.length_nil, mapArenas_zero]
          exact List.nodup_nil
    · intro _ region member
      obtain ⟨owned, old⟩ | ⟨_, new⟩ := regions region member
      · exact Nat.lt_add_right _ (mine.old owned region old)
      · exact new
  constructor
  · refine forall_set stored fun j member _ here => ?_
    have beside := sound.each j member here
    exact ⟨beside.allocator, beside.length, beside.distinct,
      fun owned region member => Nat.lt_add_right _ (beside.old owned region member)⟩
  · have against : ∀ (j : Nat) other, j ≠ i → family.processes[j]? = some other → other.Owned →
        ∀ region ∈ mapArenas process.regions family.created after.session.heap.arenas.length,
          region ∉ other.regions := by
      intro j other different here owns region member elsewhere
      obtain ⟨owned, old⟩ | ⟨new, _⟩ := regions region member
      · exact sound.apart i j process other found here (Ne.symm different) owned owns region old
          elsewhere
      · have low := (sound.each j other here).old owns region elsewhere
        omega
    intro j k left right here there different owned others region member elsewhere
    obtain ⟨rfl, rfl⟩ | ⟨aside, before⟩ := getElem?_set_cases here
    · obtain ⟨same, _⟩ | ⟨aside, beside⟩ := getElem?_set_cases there
      · exact different same.symm
      · exact against k right aside beside others region member elsewhere
    · obtain ⟨rfl, rfl⟩ | ⟨_, beside⟩ := getElem?_set_cases there
      · exact against j left aside before owned region elsewhere member
      · exact sound.apart j k left right before beside different owned others region member
          elsewhere

theorem Sound.step (sound : family.Sound) {label : Nat × Allocator.Action}
    (fresh : family.Fresh label) (taken : HeapFamily.step pageShift family label = some next) :
    next.Sound := by
  obtain ⟨i, action⟩ := label
  simp only [HeapFamily.step] at taken
  cases found : family.processes[i]? with
  | none =>
      rw [found] at taken
      cases action <;> cases taken
  | some process =>
      rw [found] at taken
      cases action with
      | fork pid =>
          cases taken
          exact sound.fork found (fresh process found)
      | _ =>
          obtain ⟨after, moved, rfl⟩ := Option.map_eq_some_iff.mp taken
          exact sound.work found moved nofun

theorem sound_init (pid size : Nat) : (init pid size).Sound := by
  have only : ∀ {i : Nat} {process}, (init pid size).processes[i]? = some process →
      i = 0 ∧ process = ⟨.init pid size, []⟩ := by
    intro i process here
    cases i with
    | zero =>
        cases here
        exact ⟨rfl, rfl⟩
    | succ i => cases here
  constructor
  · intro i process here
    rw [(only here).2]
    exact ⟨Allocator.init_invariant pid size, rfl, fun _ => List.nodup_nil, fun _ => nofun⟩
  · intro i j left right here there different
    exact absurd ((only here).1.trans (only there).1.symm) different

end HeapFamily

/-- A block that is in use lies in the mapping of its arena. -/
theorem HeapProcess.Sound.mapped {created : Nat} (sound : process.Sound created) {block : Block}
    (member : block ∈ process.live) :
    process.Owned ∧ process.arenas[block.arena.id]? = some block.arena ∧
      block.stop ≤ block.arena.size ∧ ∃ region, process.regions[block.arena.id]? = some region := by
  unfold live at member
  split at member
  · rename_i owned
    have session := sound.allocator.session
    have allocated := (session.live block member).1
    have within := session.wellFormed.layout.inside (.inl (.inr allocated))
    have known := session.wellFormed.layout.known block (.inl (.inr allocated))
    obtain ⟨i, here⟩ := List.getElem?_of_mem known
    have identity := session.wellFormed.identity i block.arena here
    rw [← identity] at here
    exact ⟨owned, here, within, exists_beside here sound.length.symm⟩
  · cases member

namespace HeapFamily

/-- No two blocks in use have bytes in common, whichever processes of the tree have got them from
`malloc`, and each lies in a mapping. -/
theorem live_apart {pid size : Nat} (ran : run (step pageShift) (init pid size) labels = some last)
    (along : Along (step pageShift) Fresh (init pid size) labels) {i j : Nat}
    {left right : HeapProcess} {block other : Block} (here : last.processes[i]? = some left)
    (there : last.processes[j]? = some right) (mine : block ∈ left.live)
    (its : other ∈ right.live) :
    (∃ region, left.regions[block.arena.id]? = some region ∧ block.stop ≤ block.arena.size) ∧
      (left.Shares block right other → i = j ∧ block = other) := by
  have sound : last.Sound :=
    invariant_along (fun _ _ _ sound fresh taken => sound.step fresh taken) (sound_init pid size)
      along ran
  have one := sound.each i left here
  have two := sound.each j right there
  obtain ⟨owned, placed, within, region, mapped⟩ := one.mapped mine
  obtain ⟨owns, beside, _⟩ := two.mapped its
  refine ⟨⟨region, mapped, within⟩, ?_⟩
  rintro ⟨region, mapped, maps, low, high⟩
  have same : i = j := by
    apply Decidable.byContradiction
    intro different
    exact sound.apart i j left right here there different owned owns region
      (List.mem_of_getElem? mapped) (List.mem_of_getElem? maps)
  subst same
  cases here.symm.trans there
  refine ⟨rfl, ?_⟩
  have identity : block.arena.id = other.arena.id := by
    have within := (List.getElem?_eq_some_iff.mp mapped).1
    exact (List.getElem?_inj within (one.distinct owned)).mp (mapped.trans maps.symm)
  have arena : block.arena = other.arena := by
    rw [← identity, placed] at beside
    exact Option.some.inj beside
  apply Decidable.byContradiction
  intro different
  have session := one.allocator.session
  unfold HeapProcess.live at mine its
  rw [if_pos owned] at mine its
  have order := session.wellFormed.layout.apart (.inl (.inr (session.live block mine).1))
    (.inl (.inr (session.live other its).1)) arena different
  omega

/-- Parent and child have the same block of their first arenas. -/
def twoHeaps : List (Nat × Allocator.Action) :=
  [(0, .malloc 10), (0, .drain), (0, .finish true), (0, .fork 9), (1, .malloc 10), (1, .drain),
    (1, .finish true)]

theorem live_apart_twoHeaps :
    ∃ last left right, run (step 12) (init 7 4096) twoHeaps = some last ∧
      last.processes[0]? = some left ∧ last.processes[1]? = some right ∧
      ¬left.Shares ⟨⟨0, 4096⟩, 0, 16⟩ right ⟨⟨0, 4096⟩, 0, 16⟩ := by
  let block : Block := ⟨⟨0, 4096⟩, 0, 16⟩
  have ended : (run (step 12) (init 7 4096) twoHeaps).map
      (fun last => last.processes.map HeapProcess.live) = some [{block}, {block}] := by
    decide +kernel
  obtain ⟨last, ran, lives⟩ := Option.map_eq_some_iff.mp ended
  have along : Along (step 12) Fresh (init 7 4096) twoHeaps := by decide +kernel
  have at_ : ∀ (i : Nat) live, [({block} : Finset Block), {block}][i]? = some live →
      ∃ process, last.processes[i]? = some process ∧ process.live = live := by
    intro i live here
    rw [← lives, List.getElem?_map] at here
    exact Option.map_eq_some_iff.mp here
  obtain ⟨left, here, mine⟩ := at_ 0 _ rfl
  obtain ⟨right, there, its⟩ := at_ 1 _ rfl
  refine ⟨last, left, right, ran, here, there, fun shares => ?_⟩
  have same := (live_apart ran along here there (mine ▸ Finset.mem_singleton_self block)
    (its ▸ Finset.mem_singleton_self block)).2 shares
  cases same.1

end HeapFamily

end Billiard
