/-! A loop over the entries of a list that ends at the first entry that fails. -/

namespace Visit

variable {α : Type u} {ε : Type v}

/-- `turn` is what the loop does with an entry, given its position. -/
def visit (turn : Nat → α → α × Option ε) : Nat → List α → List α × Option ε
  | _, [] => ([], none)
  | i, entry :: entries =>
      match turn i entry with
      | (entry, some failure) => (entry :: entries, some failure)
      | (entry, none) =>
          (entry :: (visit turn (i + 1) entries).1, (visit turn (i + 1) entries).2)

variable {turn : Nat → α → α × Option ε}

theorem visit_cons_failed {i : Nat} {entry : α} {entries : List α} {failure : ε}
    (failed : (turn i entry).2 = some failure) :
    visit turn i (entry :: entries) = ((turn i entry).1 :: entries, some failure) := by
  unfold visit
  cases turned : turn i entry with
  | mk after raised =>
      rw [turned] at failed
      cases failed
      rfl

theorem visit_cons_returned {i : Nat} {entry : α} {entries : List α}
    (returned : (turn i entry).2 = none) :
    visit turn i (entry :: entries) =
      ((turn i entry).1 :: (visit turn (i + 1) entries).1, (visit turn (i + 1) entries).2) := by
  rw [visit]
  cases turned : turn i entry with
  | mk after raised =>
      rw [turned] at returned
      cases returned
      rfl

theorem returned_iff {i : Nat} {entries : List α} :
    (visit turn i entries).2 = none ↔
      ∀ j entry, entries[j]? = some entry → (turn (i + j) entry).2 = none := by
  induction entries generalizing i with
  | nil => simp [visit]
  | cons entry entries ih =>
      cases turned : (turn i entry).2 with
      | some failure =>
          rw [visit_cons_failed turned]
          constructor
          · intro returned
            cases returned
          · intro all
            have first := all 0 entry rfl
            rw [Nat.add_zero, turned] at first
            cases first
      | none =>
          rw [visit_cons_returned turned, ih]
          constructor
          · intro rest j other found
            cases j with
            | zero =>
                cases found
                exact turned
            | succ j =>
                have tail := rest j other found
                rwa [Nat.add_assoc, Nat.add_comm 1 j] at tail
          · intro all j other found
            have tail := all (j + 1) other found
            rwa [Nat.add_comm j 1, ← Nat.add_assoc] at tail

theorem getElem?_visit {i j : Nat} {entries : List α} {after : α}
    (found : (visit turn i entries).1[j]? = some after) :
    ∃ before, entries[j]? = some before ∧ (after = before ∨ after = (turn (i + j) before).1) := by
  induction entries generalizing i j with
  | nil => cases found
  | cons entry entries ih =>
      cases turned : (turn i entry).2 with
      | some failure =>
          rw [visit_cons_failed turned] at found
          cases j with
          | zero =>
              cases found
              exact ⟨entry, rfl, .inr rfl⟩
          | succ j => exact ⟨after, found, .inl rfl⟩
      | none =>
          rw [visit_cons_returned turned] at found
          cases j with
          | zero =>
              cases found
              exact ⟨entry, rfl, .inr rfl⟩
          | succ j =>
              have shift : i + 1 + j = i + (j + 1) := by omega
              exact shift ▸ ih found

theorem getElem?_visit_of_returned {i : Nat} {entries : List α}
    (returned : (visit turn i entries).2 = none) (j : Nat) :
    (visit turn i entries).1[j]? = entries[j]?.map fun entry => (turn (i + j) entry).1 := by
  induction entries generalizing i j with
  | nil => rfl
  | cons entry entries ih =>
      have first : (turn i entry).2 = none := returned_iff.mp returned 0 entry rfl
      rw [visit_cons_returned first] at returned ⊢
      cases j with
      | zero => rfl
      | succ j =>
          have shift : i + 1 + j = i + (j + 1) := by omega
          exact shift ▸ ih returned j

end Visit
