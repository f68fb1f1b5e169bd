import Mathlib.Order.Interval.Set.Basic
import Mathlib.Data.Set.Insert

/-! Sets of half-open intervals that cut a set of positions into pieces. -/

namespace Tiling

variable {α : Type u} [LinearOrder α]

/-- The pieces are nonempty half-open intervals, together they cover exactly
`whole`, and no position lies in two of them. -/
structure Tiles (pieces : Set (α × α)) (whole : Set α) : Prop where
  nonempty : ∀ piece ∈ pieces, piece.1 < piece.2
  cover : ∀ x, x ∈ whole ↔ ∃ piece ∈ pieces, x ∈ Set.Ico piece.1 piece.2
  unique : ∀ left ∈ pieces, ∀ right ∈ pieces, ∀ x,
    x ∈ Set.Ico left.1 left.2 → x ∈ Set.Ico right.1 right.2 → left = right

/-- No piece begins where another one ends. -/
def Separated (pieces : Set (α × α)) : Prop :=
  ∀ left ∈ pieces, ∀ right ∈ pieces, left.2 ≠ right.1

variable {pieces : Set (α × α)} {whole : Set α} {a b c : α}

theorem Tiles.apart (tiles : Tiles pieces whole) {left right : α × α}
    (hleft : left ∈ pieces) (hright : right ∈ pieces) (different : left ≠ right) :
    left.2 ≤ right.1 ∨ right.2 ≤ left.1 := by
  by_contra overlap
  rw [not_or, not_le, not_le] at overlap
  apply different
  refine tiles.unique left hleft right hright (max left.1 right.1) ?_ ?_
  · exact ⟨le_max_left _ _, max_lt (tiles.nonempty left hleft) overlap.1⟩
  · exact ⟨le_max_right _ _, max_lt overlap.2 (tiles.nonempty right hright)⟩

theorem Tiles.eq_of_start (tiles : Tiles pieces whole) {left right : α × α}
    (hleft : left ∈ pieces) (hright : right ∈ pieces) (same : left.1 = right.1) :
    left = right :=
  tiles.unique left hleft right hright left.1
    ⟨le_refl _, tiles.nonempty left hleft⟩
    ⟨same ▸ le_refl _, same ▸ tiles.nonempty right hright⟩

theorem Tiles.eq_of_stop (tiles : Tiles pieces whole) {left right : α × α}
    (hleft : left ∈ pieces) (hright : right ∈ pieces) (same : left.2 = right.2) :
    left = right := by
  by_contra different
  have leftLt := tiles.nonempty left hleft
  have rightLt := tiles.nonempty right hright
  rcases tiles.apart hleft hright different with below | below
  · exact absurd rightLt (not_lt.mpr (same ▸ below))
  · exact absurd leftLt (not_lt.mpr (same ▸ below))

theorem Tiles.mem_bounds {first last : α}
    (tiles : Tiles pieces (Set.Ico first last)) {piece : α × α}
    (member : piece ∈ pieces) : first ≤ piece.1 ∧ piece.2 ≤ last := by
  have positive := tiles.nonempty piece member
  have inside : ∀ x ∈ Set.Ico piece.1 piece.2, x ∈ Set.Ico first last :=
    fun x hx => (tiles.cover x).mpr ⟨piece, member, hx⟩
  refine ⟨(inside piece.1 ⟨le_refl _, positive⟩).1, ?_⟩
  by_contra beyond
  rw [not_le] at beyond
  have below := (inside piece.1 ⟨le_refl _, positive⟩).2
  exact absurd (inside last ⟨below.le, beyond⟩).2 (lt_irrefl _)

theorem tiles_singleton (positive : a < b) : Tiles {(a, b)} (Set.Ico a b) where
  nonempty := by
    rintro piece rfl
    exact positive
  cover := fun x => ⟨fun inside => ⟨(a, b), rfl, inside⟩, by
    rintro ⟨piece, rfl, inside⟩
    exact inside⟩
  unique := by
    rintro left rfl right rfl _ _ _
    rfl

theorem Tiles.split (tiles : Tiles pieces whole) (member : (a, c) ∈ pieces)
    (hab : a < b) (hbc : b < c) :
    Tiles (insert (a, b) (insert (b, c) (pieces \ {(a, c)}))) whole := by
  have within : ∀ piece ∈ insert (a, b) (insert (b, c) (pieces \ {(a, c)})),
      ∀ x, x ∈ Set.Ico piece.1 piece.2 →
        (piece ∈ pieces ∧ piece ≠ (a, c)) ∨
          (x ∈ Set.Ico a c ∧ (piece = (a, b) ∧ x < b ∨ piece = (b, c) ∧ b ≤ x)) := by
    rintro piece (rfl | rfl | ⟨old, fresh⟩) x ⟨lower, upper⟩
    · exact .inr ⟨⟨lower, upper.trans hbc⟩, .inl ⟨rfl, upper⟩⟩
    · exact .inr ⟨⟨hab.le.trans lower, upper⟩, .inr ⟨rfl, lower⟩⟩
    · exact .inl ⟨old, fresh⟩
  refine ⟨?_, ?_, ?_⟩
  · rintro piece (rfl | rfl | ⟨old, _⟩)
    · exact hab
    · exact hbc
    · exact tiles.nonempty piece old
  · intro x
    rw [tiles.cover]
    constructor
    · rintro ⟨piece, old, inside⟩
      by_cases same : piece = (a, c)
      · subst same
        rcases lt_or_ge x b with below | above
        · exact ⟨(a, b), .inl rfl, inside.1, below⟩
        · exact ⟨(b, c), .inr (.inl rfl), above, inside.2⟩
      · exact ⟨piece, .inr (.inr ⟨old, same⟩), inside⟩
    · rintro ⟨piece, new, inside⟩
      rcases within piece new x inside with ⟨old, _⟩ | ⟨cut, _⟩
      · exact ⟨piece, old, inside⟩
      · exact ⟨(a, c), member, cut⟩
  · intro left hleft right hright x inLeft inRight
    rcases within left hleft x inLeft with ⟨oldLeft, freshLeft⟩ | ⟨cutLeft, halfLeft⟩
    · rcases within right hright x inRight with ⟨oldRight, _⟩ | ⟨cutRight, _⟩
      · exact tiles.unique left oldLeft right oldRight x inLeft inRight
      · exact absurd (tiles.unique left oldLeft (a, c) member x inLeft cutRight) freshLeft
    · rcases within right hright x inRight with ⟨oldRight, freshRight⟩ | ⟨_, halfRight⟩
      · exact absurd (tiles.unique right oldRight (a, c) member x inRight cutLeft) freshRight
      · rcases halfLeft with ⟨rfl, hx⟩ | ⟨rfl, hx⟩ <;>
          rcases halfRight with ⟨rfl, hx'⟩ | ⟨rfl, hx'⟩
        · rfl
        · exact absurd hx (not_lt.mpr hx')
        · exact absurd hx' (not_lt.mpr hx)
        · rfl

theorem Tiles.merge (tiles : Tiles pieces whole) (first : (a, b) ∈ pieces)
    (second : (b, c) ∈ pieces) :
    Tiles (insert (a, c) (pieces \ {(a, b), (b, c)})) whole := by
  have hab : a < b := tiles.nonempty _ first
  have hbc : b < c := tiles.nonempty _ second
  have halves : ∀ x, x ∈ Set.Ico a c →
      x ∈ Set.Ico a b ∨ x ∈ Set.Ico b c := by
    rintro x ⟨lower, upper⟩
    rcases lt_or_ge x b with below | above
    · exact .inl ⟨lower, below⟩
    · exact .inr ⟨above, upper⟩
  have foreign : ∀ piece ∈ pieces, piece ∉ ({(a, b), (b, c)} : Set (α × α)) →
      ∀ x ∈ Set.Ico piece.1 piece.2, x ∉ Set.Ico a c := by
    intro piece old fresh x inside cut
    rcases halves x cut with half | half
    · exact fresh (.inl (tiles.unique piece old (a, b) first x inside half))
    · exact fresh (.inr (tiles.unique piece old (b, c) second x inside half))
  refine ⟨?_, ?_, ?_⟩
  · rintro piece (rfl | ⟨old, _⟩)
    · exact hab.trans hbc
    · exact tiles.nonempty piece old
  · intro x
    rw [tiles.cover]
    constructor
    · rintro ⟨piece, old, inside⟩
      by_cases same : piece ∈ ({(a, b), (b, c)} : Set (α × α))
      · refine ⟨(a, c), .inl rfl, ?_⟩
        rcases same with rfl | rfl
        · exact ⟨inside.1, inside.2.trans hbc⟩
        · exact ⟨hab.le.trans inside.1, inside.2⟩
      · exact ⟨piece, .inr ⟨old, same⟩, inside⟩
    · rintro ⟨piece, rfl | ⟨old, _⟩, inside⟩
      · rcases halves x inside with half | half
        · exact ⟨(a, b), first, half⟩
        · exact ⟨(b, c), second, half⟩
      · exact ⟨piece, old, inside⟩
  · rintro left (rfl | ⟨oldLeft, freshLeft⟩) right (rfl | ⟨oldRight, freshRight⟩) x inLeft inRight
    · rfl
    · exact absurd inLeft (foreign right oldRight freshRight x inRight)
    · exact absurd inRight (foreign left oldLeft freshLeft x inLeft)
    · exact tiles.unique left oldLeft right oldRight x inLeft inRight

theorem Tiles.eq_singleton {first last : α} (positive : first < last)
    (tiles : Tiles pieces (Set.Ico first last)) (separated : Separated pieces) :
    pieces = {(first, last)} := by
  obtain ⟨head, member, inside⟩ := (tiles.cover first).mp ⟨le_refl _, positive⟩
  obtain ⟨startBound, stopBound⟩ := tiles.mem_bounds member
  have starts : head.1 = first := le_antisymm inside.1 startBound
  have stops : head.2 = last := by
    by_contra short
    have shorter := lt_of_le_of_ne stopBound short
    obtain ⟨next, nextMember, nextInside⟩ :=
      (tiles.cover head.2).mp ⟨starts ▸ (tiles.nonempty head member).le, shorter⟩
    have different : head ≠ next := by
      rintro rfl
      exact lt_irrefl _ nextInside.2
    rcases tiles.apart member nextMember different with below | below
    · exact separated head member next nextMember (le_antisymm below nextInside.1)
    · exact absurd (below.trans_lt (tiles.nonempty head member))
        (not_lt.mpr nextInside.2.le)
  have whole : head = (first, last) := Prod.ext starts stops
  subst whole
  apply Set.eq_singleton_iff_unique_mem.mpr
  refine ⟨member, fun piece other => ?_⟩
  obtain ⟨lower, upper⟩ := tiles.mem_bounds other
  exact tiles.unique piece other (first, last) member piece.1
    ⟨le_refl _, tiles.nonempty piece other⟩
    ⟨lower, (tiles.nonempty piece other).trans_le upper⟩

end Tiling
