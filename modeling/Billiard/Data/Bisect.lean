import Mathlib.Data.List.Nodup
import Mathlib.Order.Lattice

/-! Binary search in an ascending list, as the `bisect` module documents it. -/

namespace Bisect

variable {α : Type u} [LinearOrder α]

def bisectLeft (xs : List α) (x : α) : Nat :=
  (xs.takeWhile (· < x)).length

/-- Insert `x` behind every element that is not above it. -/
def insort (xs : List α) (x : α) : List α :=
  xs.takeWhile (· ≤ x) ++ x :: xs.dropWhile (· ≤ x)

theorem bisectLeft_le_length (xs : List α) (x : α) : bisectLeft xs x ≤ xs.length :=
  (List.takeWhile_sublist _).length_le

theorem getElem_bisectLeft {xs : List α} (ascending : xs.Pairwise (· < ·)) {x : α}
    (inside : bisectLeft xs x < xs.length) :
    x ≤ xs[bisectLeft xs x] ∧ ∀ y ∈ xs, x ≤ y → xs[bisectLeft xs x] ≤ y := by
  induction xs with
  | nil => exact absurd inside (Nat.not_lt_zero _)
  | cons head tail ih =>
      rw [List.pairwise_cons] at ascending
      by_cases below : head < x
      · have shift : bisectLeft (head :: tail) x = bisectLeft tail x + 1 := by
          simp [bisectLeft, below]
        have tailInside : bisectLeft tail x < tail.length := by
          rw [shift, List.length_cons] at inside
          exact Nat.lt_of_succ_lt_succ inside
        have found := ih ascending.2 tailInside
        simp only [shift, List.getElem_cons_succ]
        refine ⟨found.1, fun y member above => ?_⟩
        rcases List.mem_cons.mp member with rfl | later
        · exact absurd below (not_lt.mpr above)
        · exact found.2 y later above
      · have start : bisectLeft (head :: tail) x = 0 := by
          simp [bisectLeft, below]
        simp only [start, List.getElem_cons_zero]
        refine ⟨not_lt.mp below, fun y member _ => ?_⟩
        rcases List.mem_cons.mp member with rfl | later
        · exact le_refl _
        · exact (ascending.1 y later).le

theorem lt_of_bisectLeft_eq {xs : List α} {x y : α} (last : bisectLeft xs x = xs.length)
    (member : y ∈ xs) : y < x := by
  have all := (List.takeWhile_sublist _).eq_of_length last
  have below := List.all_eq_true.mp (List.all_takeWhile (p := (· < x)) (l := xs)) y
  rw [all] at below
  exact of_decide_eq_true (below member)

@[simp] theorem mem_insort {xs : List α} {x y : α} : y ∈ insort xs x ↔ y = x ∨ y ∈ xs := by
  have whole : y ∈ xs.takeWhile (· ≤ x) ∨ y ∈ xs.dropWhile (· ≤ x) ↔ y ∈ xs := by
    rw [← List.mem_append, List.takeWhile_append_dropWhile]
  rw [insort, List.mem_append, List.mem_cons, or_left_comm, whole]

theorem insort_ascending {xs : List α} (ascending : xs.Pairwise (· < ·)) {x : α}
    (fresh : x ∉ xs) : (insort xs x).Pairwise (· < ·) := by
  induction xs with
  | nil => simp [insort]
  | cons head tail ih =>
      rw [List.pairwise_cons] at ascending
      rw [List.mem_cons, not_or] at fresh
      by_cases below : head ≤ x
      · have step : insort (head :: tail) x = head :: insort tail x := by
          simp [insort, below]
        rw [step, List.pairwise_cons]
        refine ⟨fun y member => ?_, ih ascending.2 fresh.2⟩
        rcases mem_insort.mp member with rfl | later
        · exact lt_of_le_of_ne below (Ne.symm fresh.1)
        · exact ascending.1 y later
      · have step : insort (head :: tail) x = x :: head :: tail := by
          simp [insort, below]
        rw [step, List.pairwise_cons, List.pairwise_cons]
        refine ⟨fun y member => ?_, ascending⟩
        rcases List.mem_cons.mp member with rfl | later
        · exact not_le.mp below
        · exact (not_le.mp below).trans (ascending.1 y later)

theorem nodup_of_ascending {xs : List α} (ascending : xs.Pairwise (· < ·)) : xs.Nodup :=
  ascending.imp fun below => ne_of_lt below

end Bisect
