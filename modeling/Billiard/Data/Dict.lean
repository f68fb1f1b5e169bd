import Mathlib.Data.Set.Insert
import Mathlib.Logic.Function.Basic

/-! Dictionaries, seen through their lookups. -/

universe u v

abbrev Dict (κ : Type u) (ν : Type v) := κ → Option ν

namespace Dict

variable {κ : Type u} {ν : Type v}

def empty : Dict κ ν := fun _ => none

@[simp] theorem empty_apply (key : κ) : (empty : Dict κ ν) key = none := rfl

variable [DecidableEq κ]

def set (dict : Dict κ ν) (key : κ) (value : ν) : Dict κ ν :=
  Function.update dict key (some value)

def erase (dict : Dict κ ν) (key : κ) : Dict κ ν :=
  Function.update dict key none

/-- `del dict[key]`, which fails on a missing key. -/
def del? (dict : Dict κ ν) (key : κ) : Option (Dict κ ν) :=
  (dict key).map fun _ => dict.erase key

theorem del?_of_some {dict : Dict κ ν} {key : κ} {value : ν} (found : dict key = some value) :
    dict.del? key = some (dict.erase key) := by
  simp [del?, found]

theorem set_apply (dict : Dict κ ν) (key : κ) (value : ν) (other : κ) :
    dict.set key value other = if other = key then some value else dict other :=
  Function.update_apply dict key (some value) other

theorem erase_apply (dict : Dict κ ν) (key other : κ) :
    dict.erase key other = if other = key then none else dict other :=
  Function.update_apply dict key none other

theorem erase_eq_some {dict : Dict κ ν} {key other : κ} {value : ν} :
    dict.erase key other = some value ↔ other ≠ key ∧ dict other = some value := by
  rw [erase_apply]
  by_cases same : other = key
  · simp [same]
  · simp [same]

theorem set_eq_some {dict : Dict κ ν} {key other : κ} {value result : ν} :
    dict.set key value other = some result ↔
      (other = key ∧ value = result) ∨ (other ≠ key ∧ dict other = some result) := by
  rw [set_apply]
  by_cases same : other = key
  · simp [same]
  · simp [same]

/-- Exactly these values are in the dictionary, each under the key that it has. -/
def Indexes (dict : Dict κ ν) (keyOf : ν → κ) (values : Set ν) : Prop :=
  ∀ key value, dict key = some value ↔ value ∈ values ∧ keyOf value = key

variable {dict : Dict κ ν} {keyOf : ν → κ} {values : Set ν} {value : ν}

omit [DecidableEq κ] in
theorem Indexes.eq_of_key (indexes : dict.Indexes keyOf values) {left right : ν}
    (hleft : left ∈ values) (hright : right ∈ values) (same : keyOf left = keyOf right) :
    left = right := by
  have found := (indexes (keyOf left) left).mpr ⟨hleft, rfl⟩
  rw [same, (indexes (keyOf right) right).mpr ⟨hright, rfl⟩] at found
  exact (Option.some.inj found).symm

theorem Indexes.erase (indexes : dict.Indexes keyOf values) (member : value ∈ values) :
    (dict.erase (keyOf value)).Indexes keyOf (values \ {value}) := by
  intro key other
  rw [Dict.erase_eq_some, indexes]
  constructor
  · rintro ⟨different, old, rfl⟩
    refine ⟨⟨old, ?_⟩, rfl⟩
    rintro rfl
    exact different rfl
  · rintro ⟨⟨old, different⟩, rfl⟩
    exact ⟨fun same => different (indexes.eq_of_key old member same), old, rfl⟩

theorem Indexes.set (indexes : dict.Indexes keyOf values)
    (fresh : ∀ other ∈ values, keyOf other ≠ keyOf value) :
    (dict.set (keyOf value) value).Indexes keyOf (insert value values) := by
  intro key other
  rw [Dict.set_eq_some, indexes]
  constructor
  · rintro (⟨rfl, rfl⟩ | ⟨_, old, at_⟩)
    · exact ⟨.inl rfl, rfl⟩
    · exact ⟨.inr old, at_⟩
  · rintro ⟨rfl | old, rfl⟩
    · exact .inl ⟨rfl, rfl⟩
    · exact .inr ⟨fresh other old, old, rfl⟩

end Dict
