/-! The entries of one owner in a list that several share, in their order. -/

def lane [DecidableEq ι] (owner : ι) (entries : List (ι × α)) : List α :=
  (entries.filter (·.1 = owner)).map (·.2)

namespace Lane

variable [DecidableEq ι] {owner other : ι} {entries : List (ι × α)} {value : α}

@[simp] theorem lane_nil : lane owner ([] : List (ι × α)) = [] := rfl

@[simp] theorem lane_append (front back : List (ι × α)) :
    lane owner (front ++ back) = lane owner front ++ lane owner back := by
  simp [lane]

@[simp] theorem lane_own : lane owner [(owner, value)] = [value] := by
  simp [lane]

theorem lane_other (different : other ≠ owner) : lane owner [(other, value)] = [] := by
  simp [lane, different]

theorem lane_eq_nil (none_own : ∀ entry ∈ entries, entry.1 ≠ owner) : lane owner entries = [] := by
  simpa [lane, List.filter_eq_nil_iff] using none_own

end Lane
