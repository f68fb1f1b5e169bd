/-! Association lists in which entries are taken out by key. -/

namespace Assoc

variable {κ : Type u} {ν : Type v} [DecidableEq κ]

theorem lookup_filter_ne (key other : κ) (entries : List (κ × ν)) :
    (entries.filter (·.1 ≠ other)).lookup key =
      if key = other then none else entries.lookup key := by
  induction entries with
  | nil => simp
  | cons entry entries ih =>
      obtain ⟨first, value⟩ := entry
      by_cases removed : first = other
      · subst removed
        by_cases same : key = first
        · simpa [same] using ih
        · have different : (key == first) = false := by simpa using same
          simpa [List.lookup_cons, same, different] using ih
      · by_cases same : key = first
        · subst same
          simp [removed]
        · have different : (key == first) = false := by simpa using same
          simpa [removed, List.lookup_cons, different] using ih

theorem length_filter_lt {key : κ} {value : ν} {entries : List (κ × ν)}
    (found : entries.lookup key = some value) :
    (entries.filter (·.1 ≠ key)).length < entries.length := by
  rw [List.length_filter_lt_length_iff_exists]
  induction entries with
  | nil => cases found
  | cons entry entries ih =>
      obtain ⟨first, stored⟩ := entry
      by_cases same : key = first
      · exact ⟨(first, stored), List.mem_cons_self, by simp [same]⟩
      · have different : (key == first) = false := by simpa using same
        rw [List.lookup_cons, different] at found
        obtain ⟨entry, member, isKey⟩ := ih found
        exact ⟨entry, List.mem_cons_of_mem _ member, isKey⟩

end Assoc
