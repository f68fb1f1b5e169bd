import Billiard.Data.Assoc
import Billiard.Pool.ApplyResult

/-! The classes `IMapIterator` and `IMapUnorderedIterator` of `pool.py`. -/

namespace Billiard

/-- `waiters` are the consumers asleep on `_cond` that nobody has notified. -/
structure IMapIterator (α : Type u) where
  job : Nat
  cached : Bool
  items : List (Outcome α)
  index : Nat
  length : Option Nat
  isReady : Bool
  unsorted : List (Index × Outcome α)
  workerPids : List Nat
  lostWorkerTimeout : Nat
  workerLost : Option (Nat × Int)
  waiters : List Nat
deriving DecidableEq, Repr

inductive Found (α : Type u) where
  | item (outcome : Outcome α)
  | exhausted
  | nothing
deriving DecidableEq, Repr

namespace IMapIterator

def init (job lostWorkerTimeout : Nat) : IMapIterator α where
  job
  cached := true
  items := []
  index := 0
  length := none
  isReady := false
  unsorted := []
  workerPids := []
  lostWorkerTimeout
  workerLost := none
  waiters := []

def ready (it : IMapIterator α) : Bool := it.isReady

def notify (it : IMapIterator α) : IMapIterator α := { it with waiters := it.waiters.tail }

def append (it : IMapIterator α) (outcome : Outcome α) : IMapIterator α :=
  { it with items := it.items ++ [outcome], index := it.index + 1 }

def popUnsorted (it : IMapIterator α) (i : Nat) : IMapIterator α :=
  { it with unsorted := it.unsorted.filter (·.1 ≠ .position i) }

/-- The loop of `_set`: it takes an entry off `_unsorted` in each round. -/
def drain : Nat → IMapIterator α → IMapIterator α
  | 0, it => it
  | rounds + 1, it =>
      match it.unsorted.lookup (.position it.index) with
      | none => it
      | some outcome => drain rounds ((it.popUnsorted it.index).append outcome)

/-- `del self._cache[self._job]` once every result has arrived. -/
def complete (it : IMapIterator α) : IMapIterator α × Option Raised :=
  if it.length = some it.index then
    if it.cached then ({ it with isReady := true, cached := false }, none)
    else ({ it with isReady := true }, some .keyError)
  else (it, none)

def keep (it : IMapIterator α) (i : Index) (outcome : Outcome α) : IMapIterator α :=
  { it with unsorted := it.unsorted.filter (·.1 ≠ i) ++ [(i, outcome)] }

def set (it : IMapIterator α) (i : Index) (outcome : Outcome α) :
    IMapIterator α × Option Raised :=
  if i = .position it.index then
    let it := it.append outcome
    (it.drain it.unsorted.length).notify.complete
  else if i = .body then (it, some .typeError)
  else (it.keep i outcome).complete

/-- `IMapUnorderedIterator._set` -/
def setUnordered (it : IMapIterator α) (outcome : Outcome α) :
    IMapIterator α × Option Raised :=
  (it.append outcome).notify.complete

def setLength (it : IMapIterator α) (length : Nat) : IMapIterator α × Option Raised :=
  let it := { it with length := some length }
  if it.index = length then it.notify.complete else (it, none)

def ack (it : IMapIterator α) (pid : Nat) : IMapIterator α :=
  { it with workerPids := it.workerPids ++ [pid] }

/-- Each of the two attempts of `next` to take an item. -/
def popleft (it : IMapIterator α) : IMapIterator α × Found α :=
  match it.items with
  | outcome :: items => ({ it with items }, .item outcome)
  | [] =>
      if it.length = some it.index then ({ it with isReady := true }, .exhausted)
      else (it, .nothing)

theorem popleft_item {it : IMapIterator α} {outcome : Outcome α} {items : List (Outcome α)}
    (filled : it.items = outcome :: items) : it.popleft = ({ it with items }, .item outcome) := by
  simp [popleft, filled]

theorem popleft_exhausted {it : IMapIterator α} (empty : it.items = [])
    (complete : it.length = some it.index) :
    it.popleft = ({ it with isReady := true }, .exhausted) := by
  simp [popleft, empty, complete]

theorem popleft_nothing {it : IMapIterator α} (empty : it.items = [])
    (open_ : it.length ≠ some it.index) : it.popleft = (it, .nothing) := by
  simp [popleft, empty, open_]

/-- `after` is `before` up to what the consumer and `_set` change; the iterator
leaves the cache only when it is ready. -/
def Delivered (before after : IMapIterator α) : Prop :=
  ∃ cached items index isReady unsorted waiters,
    after = { before with cached, items, index, isReady, unsorted, waiters } ∧
      (cached = true → before.cached = true) ∧ (before.isReady = true → isReady = true) ∧
      (cached = false → before.cached = false ∨ isReady = true)

theorem Delivered.refl (it : IMapIterator α) : Delivered it it :=
  ⟨_, _, _, _, _, _, rfl, id, id, .inl⟩

theorem Delivered.trans {first middle last : IMapIterator α} (front : Delivered first middle)
    (back : Delivered middle last) : Delivered first last := by
  obtain ⟨_, _, _, _, _, _, rfl, frontCached, frontReady, frontClosed⟩ := front
  obtain ⟨cached, items, index, isReady, unsorted, waiters, rfl, backCached, backReady,
    backClosed⟩ := back
  refine ⟨cached, items, index, isReady, unsorted, waiters, rfl, fun kept =>
    frontCached (backCached kept), fun prior => backReady (frontReady prior), ?_⟩
  intro dropped
  cases backClosed dropped with
  | inl before => exact (frontClosed before).imp_right backReady
  | inr ready => exact .inr ready

theorem delivered_append (it : IMapIterator α) (outcome : Outcome α) :
    Delivered it (it.append outcome) := ⟨_, _, _, _, _, _, rfl, id, id, .inl⟩

theorem delivered_notify (it : IMapIterator α) : Delivered it it.notify :=
  ⟨_, _, _, _, _, _, rfl, id, id, .inl⟩

theorem delivered_drain (rounds : Nat) (it : IMapIterator α) :
    Delivered it (it.drain rounds) := by
  induction rounds generalizing it with
  | zero => exact Delivered.refl it
  | succ rounds ih =>
      unfold drain
      split
      · exact Delivered.refl it
      · exact Delivered.trans ⟨_, _, _, _, _, _, rfl, id, id, .inl⟩ (ih _)

theorem delivered_complete (it : IMapIterator α) : Delivered it it.complete.1 := by
  unfold complete
  split
  · split
    · exact ⟨_, _, _, _, _, _, rfl, nofun, fun _ => rfl, fun _ => .inr rfl⟩
    · exact ⟨_, _, _, _, _, _, rfl, id, fun _ => rfl, .inl⟩
  · exact Delivered.refl it

theorem delivered_set (it : IMapIterator α) (i : Index) (outcome : Outcome α) :
    Delivered it (it.set i outcome).1 := by
  unfold set
  split
  · exact (delivered_append it outcome).trans ((delivered_drain _ _).trans
      ((delivered_notify _).trans (delivered_complete _)))
  · split
    · exact Delivered.refl it
    · exact Delivered.trans ⟨_, _, _, _, _, _, rfl, id, id, .inl⟩ (delivered_complete _)

theorem delivered_setUnordered (it : IMapIterator α) (outcome : Outcome α) :
    Delivered it (it.setUnordered outcome).1 :=
  (delivered_append it outcome).trans ((delivered_notify _).trans (delivered_complete _))

theorem delivered_setLength (it : IMapIterator α) (length : Nat) :
    Delivered { it with length := some length } (it.setLength length).1 := by
  unfold setLength
  simp only
  split
  · exact (delivered_notify _).trans (delivered_complete _)
  · exact Delivered.refl _

theorem complete_of_cached {it : IMapIterator α} (cached : it.cached = true) :
    it.complete =
      (if it.length = some it.index then { it with isReady := true, cached := false } else it,
        none) := by
  unfold complete
  rw [cached]
  split <;> rfl

/-- `_unsorted` holds the results that have arrived too early. -/
def Keeps (it : IMapIterator α) (results : Nat → Outcome α) (arrived : List Nat) : Prop :=
  ∀ i, it.unsorted.lookup (.position i) =
    if i ∈ arrived ∧ it.index ≤ i then some (results i) else none

theorem drain_spec {results : Nat → Outcome α} {arrived : List Nat} (rounds : Nat)
    {it : IMapIterator α} (enough : it.unsorted.length ≤ rounds)
    (keeps : it.Keeps results arrived) :
    ∃ count unsorted, it.drain rounds = { it with
        items := it.items ++ (List.range' it.index count).map results
        index := it.index + count
        unsorted } ∧
      (it.drain rounds).Keeps results arrived ∧ it.index + count ∉ arrived ∧
      ∀ i, it.index ≤ i → i < it.index + count → i ∈ arrived := by
  induction rounds generalizing it with
  | zero =>
      have empty : it.unsorted = [] := List.eq_nil_of_length_eq_zero (Nat.le_zero.mp enough)
      have missing := keeps it.index
      simp only [empty, List.lookup_nil, Nat.le_refl, and_true] at missing
      refine ⟨0, it.unsorted, by simp [drain], keeps, ?_, fun i low high => by omega⟩
      simpa using missing
  | succ rounds ih =>
      have next := keeps it.index
      simp only [Nat.le_refl, and_true] at next
      cases found : it.unsorted.lookup (.position it.index) with
      | none =>
          have unchanged : it.drain (rounds + 1) = it := by simp [drain, found]
          rw [unchanged]
          refine ⟨0, it.unsorted, by simp, keeps, ?_, fun i low high => by omega⟩
          intro there
          rw [found, if_pos (show it.index ∈ arrived from there)] at next
          cases next
      | some outcome =>
          have there : it.index ∈ arrived := by
            apply Decidable.byContradiction
            intro absent
            simp [found, absent] at next
          have same : outcome = results it.index := by simpa [found, there] using next
          subst same
          have shorter := Assoc.length_filter_lt found
          have popped : ((it.popUnsorted it.index).append (results it.index)).Keeps
              results arrived := by
            intro i
            simp only [append, popUnsorted, Assoc.lookup_filter_ne, keeps i,
              Index.position.injEq]
            by_cases same : i = it.index
            · have low : ¬it.index + 1 ≤ it.index := by omega
              simp [same, low]
            · have shift : it.index + 1 ≤ i ↔ it.index ≤ i := by omega
              simp only [if_neg same, shift]
          have enough : ((it.popUnsorted it.index).append (results it.index)).unsorted.length ≤
              rounds := by
            simp only [append, popUnsorted]
            omega
          have step : it.drain (rounds + 1) =
              ((it.popUnsorted it.index).append (results it.index)).drain rounds := by
            simp [drain, found]
          rw [step]
          obtain ⟨count, unsorted, drained, after, last, all⟩ := ih enough popped
          refine ⟨count + 1, unsorted, ?_, after, ?_, ?_⟩
          · rw [drained]
            simp only [append, popUnsorted, List.range'_succ, List.map_cons, List.append_assoc,
              List.singleton_append, Nat.add_assoc, Nat.add_comm 1 count]
          · rw [Nat.add_comm count 1, ← Nat.add_assoc]
            exact last
          · intro i low high
            by_cases same : i = it.index
            · exact same ▸ there
            · exact all i (by simp only [append, popUnsorted]; omega)
                (by simp only [append, popUnsorted]; omega)

theorem Keeps.append {it : IMapIterator α} {results : Nat → Outcome α} {arrived : List Nat}
    (keeps : it.Keeps results arrived) (fresh : it.index ∉ arrived) (outcome : Outcome α) :
    (it.append outcome).Keeps results (arrived ++ [it.index]) := by
  intro i
  have before := keeps i
  simp only [IMapIterator.append, List.mem_append, List.mem_singleton]
  rw [before]
  by_cases same : i = it.index
  · subst same
    simp [fresh]
  · have shift : it.index + 1 ≤ i ↔ it.index ≤ i := by omega
    simp [same, shift]

theorem Keeps.keep {it : IMapIterator α} {results : Nat → Outcome α} {arrived : List Nat} {i : Nat}
    (keeps : it.Keeps results arrived) (fresh : i ∉ arrived) (early : it.index ≤ i) :
    (it.keep (.position i) (results i)).Keeps results (arrived ++ [i]) := by
  intro j
  have before := keeps j
  simp only [IMapIterator.keep, List.lookup_append, Assoc.lookup_filter_ne, before,
    List.mem_append, List.mem_singleton, Index.position.injEq]
  by_cases same : j = i
  · subst same
    simp [early]
  · have different : (Index.position j == Index.position i) = false := by simpa using same
    simp [same, List.lookup_cons, different]

end IMapIterator

end Billiard
