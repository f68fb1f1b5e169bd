import Billiard.Data.Dict

/-! Two dictionaries, each the other one read backwards. -/

universe u v

namespace Pairing

variable {κ : Type u} {ν : Type v}

def Inverse (forth : Dict κ ν) (back : Dict ν κ) : Prop :=
  ∀ key value, forth key = some value ↔ back value = some key

theorem inverse_empty : Inverse (Dict.empty : Dict κ ν) Dict.empty := fun _ _ => by simp

theorem Inverse.symm {forth : Dict κ ν} {back : Dict ν κ} (inverse : Inverse forth back) :
    Inverse back forth := fun value key => (inverse key value).symm

variable [DecidableEq κ] [DecidableEq ν]

/-- `back.pop(forth.pop(key, None), None)` -/
def unlink (forth : Dict κ ν) (back : Dict ν κ) (key : κ) : Dict κ ν × Dict ν κ :=
  (forth.erase key, match forth key with
    | none => back
    | some value => back.erase value)

variable {forth : Dict κ ν} {back : Dict ν κ} {key : κ} {value : ν}

theorem unlink_of_none (missing : forth key = none) : (unlink forth back key).2 = back := by
  simp [unlink, missing]

theorem unlink_of_some (found : forth key = some value) :
    (unlink forth back key).2 = back.erase value := by
  simp [unlink, found]

theorem Inverse.unlink (inverse : Inverse forth back) (key : κ) :
    Inverse (unlink forth back key).1 (unlink forth back key).2 := by
  intro other value
  unfold Pairing.unlink
  rw [Dict.erase_eq_some]
  cases found : forth key with
  | none =>
      rw [inverse other value]
      refine and_iff_right_of_imp ?_
      rintro reverse rfl
      exact absurd (found.symm.trans ((inverse other value).mpr reverse)) (by simp)
  | some taken =>
      rw [Dict.erase_eq_some, inverse other value]
      refine and_congr_left fun reverse => not_congr ?_
      have forward := (inverse other value).mpr reverse
      constructor
      · rintro rfl
        exact Option.some.inj (forward.symm.trans found)
      · rintro rfl
        exact Option.some.inj (reverse.symm.trans ((inverse key value).mp found))

theorem Inverse.link (inverse : Inverse forth back) (free : forth key = none)
    (unused : back value = none) : Inverse (forth.set key value) (back.set value key) := by
  intro other stored
  rw [Dict.set_eq_some, Dict.set_eq_some, inverse other stored]
  constructor
  · rintro (⟨rfl, rfl⟩ | ⟨_, reverse⟩)
    · exact .inl ⟨rfl, rfl⟩
    · refine .inr ⟨?_, reverse⟩
      rintro rfl
      exact absurd (unused.symm.trans reverse) (by simp)
  · rintro (⟨rfl, rfl⟩ | ⟨_, reverse⟩)
    · exact .inl ⟨rfl, rfl⟩
    · refine .inr ⟨?_, reverse⟩
      rintro rfl
      exact absurd (free.symm.trans ((inverse other stored).mpr reverse)) (by simp)

end Pairing
