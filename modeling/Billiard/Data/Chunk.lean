import Mathlib.Data.Nat.Init

/-! Lists cut into consecutive chunks of one size, and lists that are filled
chunk by chunk. -/

namespace Chunk

variable {α : Type u} {size : Nat}

/-- `values[start:stop] = items` for `start ≤ stop`. -/
def sliceAssign (values : List α) (start stop : Nat) (items : List α) : List α :=
  values.take start ++ items ++ values.drop (max start stop)

def nth (size i : Nat) (items : List α) : List α := (items.drop (i * size)).take size

def count (size length : Nat) : Nat := length / size + if length % size = 0 then 0 else 1

/-- The chunks of a list, taken off one after the other, but not more than `rounds`. -/
def split (size : Nat) : Nat → List α → List (List α)
  | 0, _ => []
  | rounds + 1, items =>
      match items.take size with
      | [] => []
      | item :: chunk => (item :: chunk) :: split size rounds (items.drop size)

/-- The chunks that are full, taken off one after the other. -/
def whole (size : Nat) : Nat → List α → List (List α)
  | 0, _ => []
  | rounds + 1, items =>
      if items.length < size then [] else items.take size :: whole size rounds (items.drop size)

@[simp] theorem count_zero (size : Nat) : count size 0 = 0 := by simp [count]

theorem count_succ (positive : 0 < size) {length : Nat} (some_ : 0 < length) :
    count size length = count size (length - size) + 1 := by
  cases Nat.lt_or_ge length size with
  | inl short =>
      have rest : length - size = 0 := by omega
      have partly : length % size ≠ 0 := by rw [Nat.mod_eq_of_lt short]; omega
      rw [rest, count_zero, count, Nat.div_eq_of_lt short, if_neg partly]
  | inr full =>
      obtain ⟨rest, rfl⟩ := Nat.exists_eq_add_of_le full
      simp only [count, Nat.add_sub_cancel_left, Nat.add_mod_left, Nat.add_div_left _ positive]
      omega

theorem count_le (positive : 0 < size) (length : Nat) : count size length ≤ length := by
  have split := Nat.div_add_mod length size
  have quotient := Nat.le_mul_of_pos_left (length / size) positive
  unfold count
  split
  · omega
  · omega

theorem lt_count_iff (positive : 0 < size) {i length : Nat} :
    i < count size length ↔ i * size < length := by
  have split := Nat.div_add_mod length size
  have low := Nat.mod_lt length positive
  unfold count
  constructor
  · intro inside
    split at inside
    · rename_i exact_
      have := Nat.mul_le_mul_right size (show i + 1 ≤ length / size by omega)
      rw [Nat.add_mul, Nat.one_mul, Nat.mul_comm (length / size)] at this
      omega
    · have := Nat.mul_le_mul_right size (show i ≤ length / size by omega)
      rw [Nat.mul_comm (length / size)] at this
      omega
  · intro inside
    have bound : i ≤ length / size := by
      rw [Nat.le_div_iff_mul_le positive]
      omega
    split
    · rename_i exact_
      have strict : i ≠ length / size := by
        intro same
        subst same
        rw [Nat.mul_comm] at inside
        omega
      omega
    · omega

theorem div_lt_count (positive : 0 < size) {j length : Nat} (inside : j < length) :
    j / size < count size length := by
  rw [lt_count_iff positive]
  exact Nat.lt_of_le_of_lt (Nat.div_mul_le_self j size) inside

theorem nth_zero (items : List α) : nth size 0 items = items.take size := by simp [nth]

theorem nth_succ (i : Nat) (items : List α) :
    nth size (i + 1) items = nth size i (items.drop size) := by
  rw [nth, nth, List.drop_drop, Nat.add_mul, Nat.one_mul, Nat.add_comm]

theorem nth_map (f : α → β) (i : Nat) (items : List α) :
    nth size i (items.map f) = (nth size i items).map f := by
  simp [nth, List.map_drop, List.map_take]

theorem split_cons (positive : 0 < size) (rounds : Nat) (item : α) (items : List α) :
    split size (rounds + 1) (item :: items) =
      (item :: items).take size :: split size rounds ((item :: items).drop size) := by
  cases size with
  | zero => cases positive
  | succ less => rfl

theorem ne_nil_of_mem_split {rounds : Nat} {items chunk : List α}
    (member : chunk ∈ split size rounds items) : chunk ≠ [] := by
  induction rounds generalizing items with
  | zero => cases member
  | succ rounds ih =>
      unfold split at member
      split at member
      · cases member
      · rcases List.mem_cons.mp member with rfl | later
        · exact List.cons_ne_nil _ _
        · exact ih later

/-- Chunks without items are not taken off at all. -/
theorem split_zero (rounds : Nat) (items : List α) : split 0 rounds items = [] := by
  cases rounds with
  | zero => rfl
  | succ rounds => rfl

theorem split_eq (positive : 0 < size) {rounds : Nat} {items : List α}
    (enough : items.length ≤ rounds) :
    split size rounds items =
      (List.range (count size items.length)).map fun i => nth size i items := by
  induction rounds generalizing items with
  | zero =>
      have empty : items = [] := List.eq_nil_of_length_eq_zero (Nat.le_zero.mp enough)
      subst empty
      simp [split]
  | succ rounds ih =>
      cases items with
      | nil => simp [split]
      | cons item items =>
          have rest : ((item :: items).drop size).length ≤ rounds := by
            simp only [List.length_drop, List.length_cons] at enough ⊢
            omega
          have more := count_succ positive (show 0 < (item :: items).length by simp)
          rw [split_cons positive, ih rest, more, List.range_succ_eq_map, List.map_cons,
            List.map_map, nth_zero, List.length_drop]
          congr 1
          apply List.map_congr_left
          intro i _
          exact (nth_succ i (item :: items)).symm

theorem length_split (positive : 0 < size) {rounds : Nat} {items : List α}
    (enough : items.length ≤ rounds) :
    (split size rounds items).length = count size items.length := by
  simp [split_eq positive enough]

theorem flatten_split (positive : 0 < size) {rounds : Nat} {items : List α}
    (enough : items.length ≤ rounds) : (split size rounds items).flatten = items := by
  induction rounds generalizing items with
  | zero =>
      have empty : items = [] := List.eq_nil_of_length_eq_zero (Nat.le_zero.mp enough)
      simp [split, empty]
  | succ rounds ih =>
      cases items with
      | nil => simp [split]
      | cons item items =>
          have rest : ((item :: items).drop size).length ≤ rounds := by
            simp only [List.length_drop, List.length_cons] at enough ⊢
            omega
          rw [split_cons positive, List.flatten_cons, ih rest, List.take_append_drop]

theorem length_whole (positive : 0 < size) {rounds : Nat} {items : List α}
    (enough : items.length ≤ rounds) : (whole size rounds items).length = items.length / size := by
  induction rounds generalizing items with
  | zero =>
      have empty : items.length = 0 := Nat.le_zero.mp enough
      simp [whole, empty]
  | succ rounds ih =>
      unfold whole
      split
      · rename_i short
        rw [Nat.div_eq_of_lt short, List.length_nil]
      · rename_i full
        have rest : (items.drop size).length ≤ rounds := by
          rw [List.length_drop]
          omega
        rw [List.length_cons, ih rest, List.length_drop,
          Nat.div_eq_sub_div positive (Nat.le_of_not_lt full)]

theorem div_eq_iff (positive : 0 < size) {i j : Nat} :
    j / size = i ↔ i * size ≤ j ∧ j < (i + 1) * size := by
  rw [← Nat.le_div_iff_mul_le positive, ← Nat.div_lt_iff_lt_mul positive]
  omega

theorem getElem?_sliceAssign_nth (positive : 0 < size) {values items : List α}
    (same : values.length = items.length) (i j : Nat) :
    (sliceAssign values (i * size) ((i + 1) * size) (nth size i items))[j]? =
      if j / size = i then items[j]? else values[j]? := by
  have range := @div_eq_iff size positive i j
  rw [Nat.add_mul, Nat.one_mul] at range
  simp only [sliceAssign, nth, range, Nat.add_mul, Nat.one_mul]
  clear range
  generalize i * size = start
  simp only [Nat.max_eq_right (Nat.le_add_right _ _), List.getElem?_append, List.length_append,
    List.length_take, List.length_drop, List.getElem?_take, List.getElem?_drop]
  grind

end Chunk
