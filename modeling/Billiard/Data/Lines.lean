import Mathlib.Data.List.Basic

/-! Streams that are read line by line. -/

namespace Lines

variable {α : Type u} [DecidableEq α]

/-- Each line has its end, but perhaps the last. -/
def lines (newline : α) : List α → List (List α)
  | [] => []
  | item :: rest =>
      if item = newline then [item] :: lines newline rest
      else
        match lines newline rest with
        | [] => [[item]]
        | line :: more => (item :: line) :: more

variable {newline : α}

theorem lines_append {line : List α} (whole : newline ∉ line) (rest : List α) :
    lines newline (line ++ newline :: rest) = (line ++ [newline]) :: lines newline rest := by
  induction line with
  | nil => simp [lines]
  | cons item line ih =>
      rw [List.mem_cons, not_or] at whole
      rw [List.cons_append, lines, if_neg (Ne.symm whole.1), ih whole.2]
      rfl

theorem lines_flatten {texts : List (List α)} (whole : ∀ text ∈ texts, newline ∉ text) :
    lines newline (texts.map (· ++ [newline])).flatten = texts.map (· ++ [newline]) := by
  induction texts with
  | nil => rfl
  | cons text texts ih =>
      rw [List.forall_mem_cons] at whole
      rw [List.map_cons, List.flatten_cons, List.append_assoc, List.singleton_append,
        lines_append whole.1, ih whole.2]

/-- A line has no end but its own. -/
theorem eq_of_mem_lines {stream line : List α} (listed : line ∈ lines newline stream) :
    ∃ text, newline ∉ text ∧ (line = text ∨ line = text ++ [newline]) := by
  induction stream generalizing line with
  | nil => cases listed
  | cons item stream ih =>
      rw [lines] at listed
      by_cases last : item = newline
      · rw [if_pos last] at listed
        rcases List.mem_cons.mp listed with rfl | later
        · exact ⟨[], List.not_mem_nil, .inr (by rw [last]; rfl)⟩
        · exact ih later
      · rw [if_neg last] at listed
        cases split : lines newline stream with
        | nil =>
            rw [split] at listed
            cases List.mem_singleton.mp listed
            exact ⟨[item], by simpa using Ne.symm last, .inl rfl⟩
        | cons first more =>
            rw [split] at listed ih
            rcases List.mem_cons.mp listed with rfl | later
            · obtain ⟨text, whole, ends⟩ := ih List.mem_cons_self
              have longer : newline ∉ item :: text := by
                rw [List.mem_cons, not_or]
                exact ⟨Ne.symm last, whole⟩
              exact ⟨item :: text, longer, ends.imp (congrArg (item :: ·)) (congrArg (item :: ·))⟩
            · exact ih (List.mem_cons_of_mem first later)

end Lines
