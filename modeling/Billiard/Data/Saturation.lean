import Mathlib.Data.Finset.Card
import Mathlib.Logic.Relation

/-! Sets that a step enlarges until nothing is new. -/

namespace Saturation

open Relation

variable {α : Type u} [DecidableEq α]

/-- No result when `rounds` are not enough. -/
def saturate (grow : Finset α → Finset α) : Nat → Finset α → Option (Finset α)
  | 0, _ => none
  | rounds + 1, members =>
      if grow members = members then some members
      else saturate grow rounds (grow members)

variable {grow : Finset α → Finset α}

theorem saturate_isSome {bound : Finset α} (inflates : ∀ members, members ⊆ grow members)
    (bounded : ∀ members, members ⊆ bound → grow members ⊆ bound) {rounds : Nat}
    {members : Finset α} (within : members ⊆ bound)
    (enough : bound.card - members.card < rounds) :
    ∃ last, saturate grow rounds members = some last := by
  induction rounds generalizing members with
  | zero => exact absurd enough (Nat.not_lt_zero _)
  | succ rounds ih =>
      rw [saturate]
      by_cases still : grow members = members
      · exact ⟨members, if_pos still⟩
      · rw [if_neg still]
        have larger : members.card < (grow members).card :=
          Finset.card_lt_card ((inflates members).ssubset_of_ne fun same => still same.symm)
        have least := Finset.card_le_card (bounded members within)
        exact ih (bounded members within) (by omega)

theorem saturate_fixed {rounds : Nat} {members last : Finset α}
    (ran : saturate grow rounds members = some last) : grow last = last := by
  induction rounds generalizing members with
  | zero => cases ran
  | succ rounds ih =>
      rw [saturate] at ran
      split at ran
      case isTrue still =>
        cases ran
        exact still
      case isFalse => exact ih ran

theorem saturate_invariant (property : Finset α → Prop)
    (kept : ∀ members, property members → property (grow members)) {rounds : Nat}
    {members last : Finset α} (holds : property members)
    (ran : saturate grow rounds members = some last) : property last := by
  induction rounds generalizing members with
  | zero => cases ran
  | succ rounds ih =>
      rw [saturate] at ran
      split at ran
      case isTrue =>
        cases ran
        exact holds
      case isFalse => exact ih (kept members holds) ran

theorem saturate_mono {rounds more : Nat} (least : rounds ≤ more) {members last : Finset α}
    (ran : saturate grow rounds members = some last) :
    saturate grow more members = some last := by
  induction rounds generalizing members more with
  | zero => cases ran
  | succ rounds ih =>
      obtain ⟨more, rfl⟩ := Nat.exists_eq_add_of_le' (Nat.lt_of_lt_of_le rounds.succ_pos least)
      rw [saturate] at ran ⊢
      split at ran
      case isTrue still => rw [if_pos still, ran]
      case isFalse still =>
        rw [if_neg still]
        exact ih (Nat.le_of_succ_le_succ least) ran

/-- A step that adds what is related to a member comes to what the members lead to. -/
theorem mem_of_saturate {related : α → α → Prop}
    (grows : ∀ members new, new ∈ grow members ↔
      new ∈ members ∨ ∃ member ∈ members, related member new)
    {rounds : Nat} {members last : Finset α}
    (ran : saturate grow rounds members = some last) (reached : α) :
    reached ∈ last ↔ ∃ member ∈ members, ReflTransGen related member reached := by
  constructor
  · have kept : ∀ found : Finset α,
        (∀ new ∈ found, ∃ member ∈ members, ReflTransGen related member new) →
        ∀ new ∈ grow found, ∃ member ∈ members, ReflTransGen related member new := by
      intro found led new added
      rcases (grows found new).mp added with known | ⟨middle, known, next⟩
      · exact led new known
      · obtain ⟨member, listed, path⟩ := led middle known
        exact ⟨member, listed, path.tail next⟩
    exact saturate_invariant _ kept (fun new known => ⟨new, known, .refl⟩) ran reached
  · rintro ⟨member, listed, path⟩
    have first : member ∈ last := saturate_invariant (member ∈ ·)
      (fun found known => (grows found member).mpr (.inl known)) listed ran
    induction path with
    | refl => exact first
    | tail _ next known =>
        rw [← saturate_fixed ran]
        exact (grows last _).mpr (.inr ⟨_, known, next⟩)

end Saturation
