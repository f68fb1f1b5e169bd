import Mathlib.Data.Finset.Dedup
import Billiard.Data.Saturation

/-! `get_processtree_pids`: the descendants of a process, found from `parents`, the dict
that `get_all_processes_pids` makes. -/

namespace Billiard

open Relation Saturation

namespace ProcessTree

/-- The body of the `for`, with `pids_new` for the result. -/
def visit (parents : List (Nat × Nat)) (pids new : Finset Nat) (pid : Nat) : Finset Nat :=
  match parents.lookup pid with
  | some parent => if parent ∈ pids then insert pid new else new
  | none => new

def addChildren (parents : List (Nat × Nat)) (pids : Finset Nat) : Finset Nat :=
  (parents.map Prod.fst).foldl (visit parents pids) pids

/-- `pids.remove(pid)`, which fails on a missing pid. -/
def remove? (pids : Finset Nat) (pid : Nat) : Option (Finset Nat) :=
  if pid ∈ pids then some (pids.erase pid) else none

end ProcessTree

/-- The list has the order of a `set`, which is not told. -/
def getProcesstreePids (rounds : Nat) (parents : List (Nat × Nat)) (pid : Nat)
    (includeParent : Bool) : Option (Multiset Nat) :=
  match saturate (ProcessTree.addChildren parents) rounds {pid} with
  | none => none
  | some pids =>
      if includeParent then some pids.val
      else (ProcessTree.remove? pids pid).map Finset.val

def Follows (parents : List (Nat × Nat)) (child parent : Nat) : Prop :=
  parents.lookup child = some parent

namespace ProcessTree

variable {parents : List (Nat × Nat)} {pids : Finset Nat}

theorem mem_visit {new : Finset Nat} {pid other : Nat} :
    other ∈ visit parents pids new pid ↔
      other ∈ new ∨ other = pid ∧ ∃ parent ∈ pids, Follows parents pid parent := by
  unfold visit Follows
  cases parents.lookup pid with
  | none => simp
  | some parent =>
      by_cases found : parent ∈ pids
      · simp [found, or_comm]
      · simp [found]

theorem mem_foldl_visit {keys : List Nat} {new : Finset Nat} {other : Nat} :
    other ∈ keys.foldl (visit parents pids) new ↔
      other ∈ new ∨ other ∈ keys ∧ ∃ parent ∈ pids, Follows parents other parent := by
  induction keys generalizing new with
  | nil => simp
  | cons pid keys ih =>
      rw [List.foldl_cons, ih, mem_visit, List.mem_cons, or_assoc, or_and_right]
      refine or_congr_right (or_congr_left (and_congr_right fun same => ?_))
      rw [same]

theorem key_of_follows {child parent : Nat} (follows : Follows parents child parent) :
    child ∈ parents.map Prod.fst := by
  obtain ⟨front, back, rfl, _⟩ := List.lookup_eq_some_iff.mp follows
  simp

theorem mem_addChildren (pids : Finset Nat) (other : Nat) :
    other ∈ addChildren parents pids ↔
      other ∈ pids ∨ ∃ parent ∈ pids, Follows parents other parent := by
  rw [addChildren, mem_foldl_visit]
  refine or_congr_right (and_iff_right_of_imp ?_)
  rintro ⟨parent, _, follows⟩
  exact key_of_follows follows

/-- Each round but the last adds a key. -/
theorem exists_saturate (parents : List (Nat × Nat)) (pid : Nat) :
    ∃ pids, ∀ rounds, parents.length < rounds →
      saturate (addChildren parents) rounds {pid} = some pids := by
  have inflates (pids : Finset Nat) : pids ⊆ addChildren parents pids :=
    fun other known => (mem_addChildren pids other).mpr (.inl known)
  have bounded (pids : Finset Nat) (within : pids ⊆ insert pid (parents.map Prod.fst).toFinset) :
      addChildren parents pids ⊆ insert pid (parents.map Prod.fst).toFinset := by
    intro other added
    rcases (mem_addChildren pids other).mp added with known | ⟨parent, _, follows⟩
    · exact within known
    · exact Finset.mem_insert_of_mem (List.mem_toFinset.mpr (key_of_follows follows))
  have few : (insert pid (parents.map Prod.fst).toFinset).card ≤ parents.length + 1 := by
    refine (Finset.card_insert_le _ _).trans (Nat.succ_le_succ ?_)
    exact (List.toFinset_card_le _).trans (List.length_map _).le
  have start : {pid} ⊆ insert pid (parents.map Prod.fst).toFinset :=
    Finset.singleton_subset_iff.mpr (Finset.mem_insert_self pid _)
  have enough : (insert pid (parents.map Prod.fst).toFinset).card - ({pid} : Finset Nat).card <
      parents.length + 1 := by
    rw [Finset.card_singleton]
    omega
  obtain ⟨pids, ran⟩ := saturate_isSome inflates bounded start enough
  exact ⟨pids, fun rounds enough => saturate_mono enough ran⟩

theorem mem_of_saturate {rounds pid : Nat}
    (ran : saturate (addChildren parents) rounds {pid} = some pids) (other : Nat) :
    other ∈ pids ↔ ReflTransGen (Follows parents) other pid := by
  rw [Saturation.mem_of_saturate mem_addChildren ran, ← reflTransGen_swap]
  simp only [Finset.mem_singleton, exists_eq_left]

end ProcessTree

/-- Whatever cycles the parents have, rounds enough for all processes come to the pids of
the tree, each once. -/
theorem getProcesstreePids_exact (parents : List (Nat × Nat)) (pid : Nat)
    (includeParent : Bool) :
    ∃ pids, (∀ rounds, parents.length < rounds →
        getProcesstreePids rounds parents pid includeParent = some pids) ∧
      pids.Nodup ∧
      ∀ other, other ∈ pids ↔
        ReflTransGen (Follows parents) other pid ∧ (includeParent = false → other ≠ pid) := by
  obtain ⟨pids, ran⟩ := ProcessTree.exists_saturate parents pid
  have members := ProcessTree.mem_of_saturate (ran _ (Nat.lt_succ_self _))
  cases includeParent with
  | true =>
      refine ⟨pids.val, fun rounds enough => ?_, pids.nodup, fun other => ?_⟩
      · simp [getProcesstreePids, ran rounds enough]
      · rw [Finset.mem_val, members]
        simp
  | false =>
      have own : pid ∈ pids := (members pid).mpr .refl
      refine ⟨(pids.erase pid).val, fun rounds enough => ?_, (pids.erase pid).nodup,
        fun other => ?_⟩
      · simp [getProcesstreePids, ran rounds enough, ProcessTree.remove?, own]
      · rw [Finset.mem_val, Finset.mem_erase, members, and_comm]
        simp

/-- The pid 4 was used again, by a process that its own descendant 6 had started. -/
example : (getProcesstreePids 5 [(4, 6), (5, 4), (6, 5), (7, 1)] 4 false) = some {5, 6} := by
  decide

end Billiard
