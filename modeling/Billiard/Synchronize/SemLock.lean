/-! Semaphores and locks, with each operation of `_billiard.SemLock` one step. -/

namespace Billiard

/-- The two values of `kind`; a `Lock` is a semaphore that starts at one. -/
inductive LockKind where
  | recursiveMutex
  | semaphore
deriving DecidableEq, Repr

/-- Who holds a lock; `again` counts the acquisitions after the first, and stays below `INT_MAX`. -/
structure Hold where
  owner : Nat
  again : Nat
deriving DecidableEq, Repr

inductive SemError where
  | assertionError (text : String)
  | valueError (text : String)
deriving DecidableEq, Repr

def Hold.count (hold : Hold) : Nat := hold.again + 1

namespace Semaphore

/-- `acquire`: where the value is zero, `acquire(False)` answers `False` and
`acquire()` blocks. -/
def acquire : Nat → Option Nat
  | 0 => none
  | value + 1 => some value

def release (maxvalue value : Nat) : Except SemError Nat :=
  if value < maxvalue then .ok (value + 1)
  else .error (.valueError "semaphore or lock released too many times")

@[simp] theorem acquire_zero : acquire 0 = none := rfl

@[simp] theorem acquire_succ (value : Nat) : acquire (value + 1) = some value := rfl

theorem acquire_lt {value left : Nat} (acquired : acquire value = some left) : left < value := by
  cases value with
  | zero => cases acquired
  | succ value =>
      cases acquired
      exact Nat.lt_succ_self _

@[simp] theorem release_of_lt {maxvalue value : Nat} (below : value < maxvalue) :
    release maxvalue value = .ok (value + 1) := if_pos below

theorem release_eq_ok {maxvalue value after : Nat} (released : release maxvalue value = .ok after) :
    value < maxvalue ∧ after = value + 1 := by
  unfold release at released
  split at released
  · rename_i below
    cases released
    exact ⟨below, rfl⟩
  · cases released

end Semaphore

namespace SemLock

def isMine (lock : Option Hold) (party : Nat) : Bool :=
  match lock with
  | none => false
  | some hold => hold.owner == party

/-- `acquire()`; only a recursive lock lets its owner in again. -/
def acquire (kind : LockKind) (lock : Option Hold) (party : Nat) : Option Hold :=
  match lock with
  | none => some ⟨party, 0⟩
  | some hold =>
      match kind with
      | .recursiveMutex => if hold.owner = party then some ⟨party, hold.again + 1⟩ else none
      | .semaphore => none

/-- `release()`; the owner of a `Lock` is not checked, but its users release only what they
hold. -/
def release (lock : Option Hold) (party : Nat) : Except SemError (Option Hold) :=
  match lock with
  | none => .error (.assertionError "attempt to release recursive lock not owned by thread")
  | some hold =>
      if hold.owner = party then
        match hold.again with
        | 0 => .ok none
        | again + 1 => .ok (some ⟨party, again⟩)
      else .error (.assertionError "attempt to release recursive lock not owned by thread")

theorem isMine_iff {lock : Option Hold} {party : Nat} :
    isMine lock party = true ↔ ∃ again, lock = some ⟨party, again⟩ := by
  cases lock with
  | none => simp [isMine]
  | some hold =>
      obtain ⟨owner, again⟩ := hold
      simp [isMine]

@[simp] theorem isMine_self (party again : Nat) : isMine (some ⟨party, again⟩) party = true :=
  isMine_iff.mpr ⟨again, rfl⟩

theorem isMine_of_ne {lock : Option Hold} {party other : Nat} (mine : isMine lock party = true)
    (ne : other ≠ party) : isMine lock other = false := by
  obtain ⟨again, rfl⟩ := isMine_iff.mp mine
  simpa [isMine] using Ne.symm ne

/-- The lock is not in the hands of another party. -/
def Open (lock : Option Hold) (party : Nat) : Prop :=
  lock = none ∨ isMine lock party = true

theorem Open.not_other {lock : Option Hold} {party other : Nat} (free : Open lock party)
    (ne : other ≠ party) : isMine lock other = false := by
  cases free with
  | inl free =>
      rw [free]
      rfl
  | inr mine => exact isMine_of_ne mine ne

theorem acquire_open {kind : LockKind} {lock : Option Hold} {party : Nat} {hold : Hold}
    (taken : acquire kind lock party = some hold) :
    Open lock party ∧ isMine (some hold) party = true := by
  unfold acquire at taken
  split at taken
  · cases taken
    exact ⟨.inl rfl, isMine_self ..⟩
  · split at taken
    · split at taken
      · rename_i hold owner
        cases taken
        exact ⟨.inr (by simp [isMine, owner]), isMine_self ..⟩
      · cases taken
    · cases taken

theorem release_open {lock rest : Option Hold} {party : Nat}
    (taken : release lock party = .ok rest) : isMine lock party = true ∧ Open rest party := by
  unfold release at taken
  split at taken
  · cases taken
  · split at taken
    · rename_i hold owner
      have mine : isMine (some hold) party = true := by simp [isMine, owner]
      split at taken
      · cases taken
        exact ⟨mine, .inl rfl⟩
      · cases taken
        exact ⟨mine, .inr (isMine_self ..)⟩
    · cases taken

end SemLock

end Billiard
