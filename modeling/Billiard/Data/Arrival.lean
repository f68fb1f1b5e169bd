import Mathlib.Data.List.Perm.Subperm
import Mathlib.Data.List.Range

/-! The indices below a bound, arriving one by one in any order. -/

structure Arrival (n : Nat) (arrived : List Nat) : Prop where
  nodup : arrived.Nodup
  bounded : ∀ i ∈ arrived, i < n

namespace Arrival

variable {n i : Nat} {arrived : List Nat}

theorem nil (n : Nat) : Arrival n [] := ⟨List.nodup_nil, nofun⟩

theorem concat (arrival : Arrival n arrived) (inside : i < n) (missing : i ∉ arrived) :
    Arrival n (arrived ++ [i]) := by
  constructor
  · simpa [List.nodup_append] using
      ⟨arrival.nodup, fun j member same => missing (same ▸ member)⟩
  · exact List.forall_mem_append.mpr ⟨arrival.bounded, List.forall_mem_singleton.mpr inside⟩

theorem length_le (arrival : Arrival n arrived) : arrived.length ≤ n := by
  have within : arrived ⊆ List.range n := fun i member =>
    List.mem_range.mpr (arrival.bounded i member)
  simpa using (arrival.nodup.subperm within).length_le

theorem length_lt (arrival : Arrival n arrived) (inside : i < n) (missing : i ∉ arrived) :
    arrived.length < n := by
  have more := (arrival.concat inside missing).length_le
  rw [List.length_append] at more
  exact more

theorem length_eq_iff (arrival : Arrival n arrived) :
    arrived.length = n ↔ ∀ i < n, i ∈ arrived := by
  constructor
  · intro full i inside
    apply Decidable.byContradiction
    intro missing
    exact Nat.ne_of_lt (arrival.length_lt inside missing) full
  · intro all
    have within : List.range n ⊆ arrived := fun i inside => all i (List.mem_range.mp inside)
    have enough := (List.nodup_range.subperm within).length_le
    rw [List.length_range] at enough
    exact Nat.le_antisymm arrival.length_le enough

end Arrival
