import Mathlib.Algebra.Ring.Nat

/-! Sums of weights over a list of which entries are replaced one by one. -/

def tally (weight : α → Nat) (items : List α) : Nat := (items.map weight).sum

namespace Tally

variable {weight : α → Nat} {items : List α}

@[simp] theorem tally_nil : tally weight [] = 0 := rfl

@[simp] theorem tally_cons (item : α) (items : List α) :
    tally weight (item :: items) = weight item + tally weight items := by
  simp [tally]

@[simp] theorem tally_append (front back : List α) :
    tally weight (front ++ back) = tally weight front + tally weight back := by
  simp [tally]

theorem getElem?_set_found {i : Nat} {old : α} (found : items[i]? = some old) (new : α) :
    (items.set i new)[i]? = some new := by
  obtain ⟨inside, _⟩ := List.getElem?_eq_some_iff.mp found
  exact List.getElem?_set_self inside

theorem getElem?_set_cases {i j : Nat} {new found : α}
    (here : (items.set i new)[j]? = some found) :
    (j = i ∧ found = new) ∨ (j ≠ i ∧ items[j]? = some found) := by
  by_cases same : i = j
  · subst same
    rw [List.getElem?_set_self'] at here
    obtain ⟨_, _, rfl⟩ := Option.map_eq_some_iff.mp here
    exact .inl ⟨rfl, rfl⟩
  · rw [List.getElem?_set_ne same] at here
    exact .inr ⟨Ne.symm same, here⟩

theorem getElem?_concat_cases {j : Nat} {new found : α} (here : (items ++ [new])[j]? = some found) :
    items[j]? = some found ∨ j = items.length ∧ found = new := by
  by_cases inside : j < items.length
  · exact .inl ((List.getElem?_append_left inside).symm.trans here)
  · rw [List.getElem?_append_right (Nat.le_of_not_lt inside), List.getElem?_singleton] at here
    split at here
    · rename_i zero
      exact .inr ⟨by omega, (Option.some.inj here).symm⟩
    · cases here

theorem set_self {i : Nat} {item : α} (found : items[i]? = some item) :
    items.set i item = items := by
  obtain ⟨within, rfl⟩ := List.getElem?_eq_some_iff.mp found
  exact List.set_getElem_self within

theorem exists_beside {others : List β} {i : Nat} {item : α} (found : items[i]? = some item)
    (length : items.length = others.length) : ∃ other, others[i]? = some other := by
  have within := (List.getElem?_eq_some_iff.mp found).1
  rw [length] at within
  exact ⟨others[i], List.getElem?_eq_getElem within⟩

theorem forall_set {holds : Nat → α → Prop} {i : Nat} {new : α} (stored : holds i new)
    (kept : ∀ j item, j ≠ i → items[j]? = some item → holds j item) :
    ∀ j item, (items.set i new)[j]? = some item → holds j item := by
  intro j item here
  obtain ⟨rfl, rfl⟩ | ⟨different, before⟩ := getElem?_set_cases here
  · exact stored
  · exact kept j item different before

/-- Two lists of which the entries at one place are replaced. -/
theorem forall_set_beside {others : List β} {holds : Nat → α → β → Prop} {i : Nat} {new : α}
    {beside : β} (stored : holds i new beside)
    (kept : ∀ j item other, j ≠ i → items[j]? = some item → others[j]? = some other →
      holds j item other) :
    ∀ j item other, (items.set i new)[j]? = some item → (others.set i beside)[j]? = some other →
      holds j item other := by
  intro j item other here there
  obtain ⟨rfl, rfl⟩ | ⟨different, before⟩ := getElem?_set_cases here
  · obtain ⟨_, rfl⟩ | ⟨different, _⟩ := getElem?_set_cases there
    · exact stored
    · exact absurd rfl different
  · obtain ⟨same, _⟩ | ⟨_, behind⟩ := getElem?_set_cases there
    · exact absurd same different
    · exact kept j item other different before behind

theorem tally_set (weight : α → Nat) {i : Nat} {old : α} (found : items[i]? = some old)
    (new : α) :
    tally weight (items.set i new) + weight old = tally weight items + weight new := by
  induction items generalizing i with
  | nil => simp at found
  | cons item items ih =>
      cases i with
      | zero =>
          cases found
          simp only [List.set_cons_zero, tally_cons]
          omega
      | succ i =>
          have rest := ih (i := i) found
          simp only [List.set_cons_succ, tally_cons]
          omega

theorem weight_le {i : Nat} {item : α} (found : items[i]? = some item) :
    weight item ≤ tally weight items := by
  induction items generalizing i with
  | nil => simp at found
  | cons first items ih =>
      rw [tally_cons]
      cases i with
      | zero =>
          cases found
          exact Nat.le_add_right _ _
      | succ i => exact Nat.le_add_left_of_le (ih found)

theorem tally_le_length (light : ∀ item, weight item ≤ 1) (items : List α) :
    tally weight items ≤ items.length := by
  induction items with
  | nil => exact Nat.le_refl _
  | cons item items ih =>
      have one := light item
      rw [tally_cons, List.length_cons]
      omega

/-- Something weighs. -/
theorem exists_weight (positive : 0 < tally weight items) :
    ∃ (i : Nat) (item : α), items[i]? = some item ∧ 0 < weight item := by
  induction items with
  | nil => cases positive
  | cons first items ih =>
      rw [tally_cons] at positive
      cases weighs : weight first with
      | succ _ => exact ⟨0, first, rfl, by omega⟩
      | zero =>
          obtain ⟨i, item, found, weight⟩ := ih (by omega)
          exact ⟨i + 1, item, found, weight⟩

theorem tally_le_tally {lighter : α → Nat} (le : ∀ item ∈ items, lighter item ≤ weight item) :
    tally lighter items ≤ tally weight items := by
  induction items with
  | nil => exact Nat.le_refl _
  | cons item items ih =>
      obtain ⟨first, rest⟩ := List.forall_mem_cons.mp le
      have rest := ih rest
      rw [tally_cons, tally_cons]
      omega

theorem tally_eraseIdx_le (i : Nat) : tally weight (items.eraseIdx i) ≤ tally weight items := by
  induction items generalizing i with
  | nil => exact Nat.le_refl _
  | cons item items ih =>
      cases i with
      | zero =>
          rw [List.eraseIdx_cons_zero, tally_cons]
          exact Nat.le_add_left _ _
      | succ i =>
          rw [List.eraseIdx_cons_succ, tally_cons, tally_cons]
          exact Nat.add_le_add_left (ih i) _

/-- What is behind the first `k` entries comes one closer when one of them goes. -/
theorem tally_take_eraseIdx_le (light : ∀ item, weight item ≤ 1) (i k : Nat) :
    tally weight ((items.eraseIdx i).take k) ≤ tally weight (items.take k) + 1 := by
  induction items generalizing i k with
  | nil => simp
  | cons item items ih =>
      cases k with
      | zero => simp
      | succ k =>
          cases i with
          | zero =>
              rw [List.eraseIdx_cons_zero, List.take_succ_cons, tally_cons, List.take_add_one,
                tally_append]
              have last : tally weight items[k]?.toList ≤ 1 := by
                cases items[k]? with
                | none => exact Nat.zero_le _
                | some next =>
                    have one := light next
                    rw [Option.toList_some, tally_cons, tally_nil]
                    exact one
              omega
          | succ i =>
              rw [List.eraseIdx_cons_succ, List.take_succ_cons, List.take_succ_cons, tally_cons,
                tally_cons, Nat.add_assoc]
              exact Nat.add_le_add_left (ih i k) _

theorem tally_add (left right : α → Nat) (items : List α) :
    tally (fun item => left item + right item) items = tally left items + tally right items := by
  induction items with
  | nil => rfl
  | cons item items ih =>
      simp only [tally_cons, ih]
      omega

theorem tally_filter {keep : α → Bool} (weightless : ∀ item, keep item = false → weight item = 0) :
    tally weight (items.filter keep) = tally weight items := by
  induction items with
  | nil => rfl
  | cons item items ih =>
      cases kept : keep item with
      | true => simp [kept, ih]
      | false => simp [kept, ih, weightless item kept]

theorem tally_eq_zero (weightless : ∀ item ∈ items, weight item = 0) : tally weight items = 0 := by
  induction items with
  | nil => rfl
  | cons item items ih =>
      obtain ⟨first, rest⟩ := List.forall_mem_cons.mp weightless
      rw [tally_cons, first, ih rest]

theorem weight_eq_zero (nothing : tally weight items = 0) {item : α} (member : item ∈ items) :
    weight item = 0 := by
  induction items with
  | nil => cases member
  | cons first items ih =>
      rw [tally_cons] at nothing
      cases List.mem_cons.mp member with
      | inl same =>
          rw [same]
          omega
      | inr rest => exact ih (by omega) rest

end Tally
