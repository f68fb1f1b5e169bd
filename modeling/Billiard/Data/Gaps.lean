import Mathlib.Algebra.Order.Group.Int
import Mathlib.Data.List.Basic

/-! The gaps between the numbers of an ascending list and the ends of a range. -/

namespace Gaps

/-- Each gap is told by the numbers around it. -/
def between (low : Int) : List Int → Int → List (Int × Int)
  | [], high => [(low, high)]
  | kept :: keep, high => (low, kept) :: between kept keep high

theorem zip_eq_between (low high : Int) (keep : List Int) :
    (low :: keep).zip (keep ++ [high]) = between low keep high := by
  induction keep generalizing low with
  | nil => rfl
  | cons kept keep ih => exact congrArg ((low, kept) :: ·) (ih kept)

theorem mem_between {low high : Int} {keep : List Int} {gap : Int × Int}
    (ascending : keep.Pairwise (· < ·)) (above : ∀ kept ∈ keep, low < kept)
    (listed : gap ∈ between low keep high) : low ≤ gap.1 ∧ (gap.2 = high ∨ gap.1 < gap.2) := by
  induction keep generalizing low with
  | nil =>
      cases List.mem_singleton.mp listed
      exact ⟨le_rfl, .inl rfl⟩
  | cons kept keep ih =>
      rw [List.pairwise_cons] at ascending
      have further := above kept List.mem_cons_self
      rcases List.mem_cons.mp listed with rfl | later
      · exact ⟨le_rfl, .inr further⟩
      · obtain ⟨after, ends⟩ := ih ascending.2 ascending.1 later
        exact ⟨further.le.trans after, ends⟩

def Inside (gap : Int × Int) (number : Int) : Prop := gap.1 < number ∧ number < gap.2

instance Inside.decidable (gap : Int × Int) (number : Int) : Decidable (Inside gap number) :=
  inferInstanceAs (Decidable (_ ∧ _))

theorem not_inside_of_le {low high number : Int} {keep : List Int}
    (ascending : keep.Pairwise (· < ·)) (above : ∀ kept ∈ keep, low < kept)
    (below : number ≤ low) : ∀ gap ∈ between low keep high, ¬ Inside gap number := by
  induction keep generalizing low with
  | nil =>
      intro gap listed inside
      cases List.mem_singleton.mp listed
      exact absurd inside.1 (not_lt.mpr below)
  | cons kept keep ih =>
      intro gap listed inside
      rw [List.pairwise_cons] at ascending
      have further := above kept List.mem_cons_self
      rcases List.mem_cons.mp listed with rfl | later
      · exact absurd inside.1 (not_lt.mpr below)
      · exact ih ascending.2 ascending.1 (below.trans further.le) gap later inside

/-- What is above the first number and below the last is in a gap or in the list; the first
number need not be below the list. -/
theorem not_inside_iff {low high number : Int} {keep : List Int}
    (ascending : keep.Pairwise (· < ·)) (above : low < number) (below : number < high) :
    (∀ gap ∈ between low keep high, ¬ Inside gap number) ↔ number ∈ keep := by
  induction keep generalizing low with
  | nil =>
      have inside : Inside (low, high) number := ⟨above, below⟩
      simp [between, inside]
  | cons kept keep ih =>
      rw [List.pairwise_cons] at ascending
      rw [between, List.forall_mem_cons, List.mem_cons]
      rcases lt_trichotomy number kept with before | same | after
      · have inside : Inside (low, kept) number := ⟨above, before⟩
        have unlisted : number ∉ keep :=
          fun listed => lt_asymm before (ascending.1 number listed)
        simp [inside, before.ne, unlisted]
      · have outside : ¬ Inside (low, kept) number :=
          fun inside => inside.2.ne same
        have rest : ∀ gap ∈ between kept keep high, ¬ Inside gap number :=
          not_inside_of_le ascending.2 ascending.1 same.le
        simp only [same, true_or, iff_true]
        exact ⟨same ▸ outside, same ▸ rest⟩
      · have outside : ¬ Inside (low, kept) number :=
          fun inside => lt_asymm inside.2 after
        rw [ih ascending.2 after]
        simp [outside, after.ne']

/-- The ends of every gap that is not empty are in the range of a machine integer. -/
def Within (least bound : Int) (gaps : List (Int × Int)) : Prop :=
  ∀ gap ∈ gaps, gap.1 + 1 ≠ gap.2 →
    (least ≤ gap.1 + 1 ∧ gap.1 + 1 < bound) ∧ least ≤ gap.2 ∧ gap.2 < bound

theorem within_cons {least bound low kept high : Int} {keep : List Int} :
    Within least bound (between low (kept :: keep) high) ↔
      (low + 1 ≠ kept → (least ≤ low + 1 ∧ low + 1 < bound) ∧ least ≤ kept ∧ kept < bound) ∧
        Within least bound (between kept keep high) :=
  List.forall_mem_cons

theorem within_iff_of_above {least bound low high : Int} {keep : List Int}
    (ascending : keep.Pairwise (· < ·)) (above : ∀ kept ∈ keep, low < kept)
    (start : least ≤ low + 1) :
    Within least bound (between low keep high) ↔
      least ≤ high ∧ (bound ≤ low + 1 → low < high) ∧
        ∀ number, bound ≤ number + 1 → low < number → (number ∈ keep ↔ number < high) := by
  induction keep generalizing low with
  | nil =>
      simp only [Within, between, List.mem_singleton, forall_eq, List.not_mem_nil, false_iff,
        not_lt]
      constructor
      · intro fits
        refine ⟨by omega, by omega, fun number large after => by omega⟩
      · rintro ⟨bottom, ends, beyond⟩ apart
        have first := beyond (low + 1)
        have last := beyond (bound - 1)
        omega
  | cons kept keep ih =>
      rw [List.pairwise_cons] at ascending
      have further := above kept List.mem_cons_self
      have rest := ih ascending.2 ascending.1 (by omega)
      rw [within_cons, rest]
      constructor
      · rintro ⟨fits, bottom, ends, beyond⟩
        refine ⟨bottom, by omega, fun number large after => ?_⟩
        rw [List.mem_cons]
        rcases lt_trichotomy number kept with before | same | later
        · omega
        · exact ⟨fun _ => by omega, fun _ => .inl same⟩
        · rw [← beyond number large later]
          exact or_iff_right later.ne'
      · rintro ⟨bottom, ends, beyond⟩
        have unlisted {number : Int} (before : number < kept) : number ∉ kept :: keep := by
          rintro (_ | ⟨_, listed⟩)
          · exact lt_irrefl _ before
          · exact lt_asymm before (ascending.1 number listed)
        have own : bound ≤ kept + 1 → kept < high := fun large =>
          (beyond kept large further).mp List.mem_cons_self
        have unkept {number : Int} (large : bound ≤ number + 1) (after : low < number)
            (before : number < kept) : high ≤ number :=
          not_lt.mp fun inside => unlisted before ((beyond number large after).mpr inside)
        refine ⟨fun apart => ?_, bottom, own, fun number large later => ?_⟩
        · -- a gap that ends too high would begin with a number that is not kept
          have first : bound ≤ low + 1 + 1 → low + 1 < kept → high ≤ low + 1 :=
            fun large => unkept large (by omega)
          have last : bound ≤ kept - 1 + 1 → low < kept - 1 → high ≤ kept - 1 :=
            fun large after => unkept large after (by omega)
          omega
        · rw [← beyond number large (further.trans later), List.mem_cons]
          exact (or_iff_right later.ne').symm

/-- The first number may be above numbers of the list, if it is in the range. -/
theorem within_iff {least bound low high : Int} {keep : List Int}
    (ascending : keep.Pairwise (· < ·)) (start : least ≤ low + 1) (small : low + 1 < bound) :
    Within least bound (between low keep high) ↔
      least ≤ high ∧ (∀ kept ∈ keep, least ≤ kept) ∧
        ∀ number, bound ≤ number + 1 → (number ∈ keep ↔ number < high) := by
  by_cases above : ∀ kept ∈ keep, low < kept
  · rw [within_iff_of_above ascending above start]
    constructor
    · rintro ⟨bottom, _, beyond⟩
      refine ⟨bottom, fun kept listed => ?_, fun number large => beyond number large (by omega)⟩
      have := above kept listed
      omega
    · rintro ⟨bottom, _, beyond⟩
      exact ⟨bottom, fun never => by omega, fun number large _ => beyond number large⟩
  · cases keep with
    | nil => exact absurd (fun _ listed => absurd listed List.not_mem_nil) above
    | cons kept keep =>
        -- the first gap ends before it begins
        rw [List.pairwise_cons] at ascending
        have behind : kept ≤ low := by
          by_contra after
          refine above (List.forall_mem_cons.mpr ⟨by omega, fun other listed => ?_⟩)
          have := ascending.1 other listed
          omega
        rw [within_cons]
        constructor
        · rintro ⟨first, rest⟩
          have bottom := (first (by omega)).2.1
          obtain ⟨end_ge, _, beyond⟩ :=
            (within_iff_of_above ascending.2 ascending.1 (by omega)).mp rest
          refine ⟨end_ge, List.forall_mem_cons.mpr ⟨bottom, fun other listed => ?_⟩,
            fun number large => ?_⟩
          · have := ascending.1 other listed
            omega
          · rw [List.mem_cons, ← beyond number large (by omega)]
            exact or_iff_right (by omega)
        · rintro ⟨end_ge, least_le, beyond⟩
          have bottom := least_le kept List.mem_cons_self
          refine ⟨fun _ => by omega, (within_iff_of_above ascending.2 ascending.1
            (by omega)).mpr ⟨end_ge, by omega, fun number large after => ?_⟩⟩
          rw [← beyond number large, List.mem_cons]
          exact (or_iff_right (by omega)).symm

end Gaps
