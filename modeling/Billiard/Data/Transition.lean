/-! Systems whose parties move by computed steps.  A step that answers `none`
is not enabled; a run is the list of the labels of its steps. -/

namespace Transition

variable {State : Type u} {Label : Type v}

def run (step : State → Label → Option State) : State → List Label → Option State
  | state, [] => some state
  | state, label :: labels =>
      match step state label with
      | none => none
      | some next => run step next labels

def Reachable (step : State → Label → Option State) (first last : State) : Prop :=
  ∃ labels, run step first labels = some last

/-- Every step of the run meets `condition` in the state it starts from. -/
def Along (step : State → Label → Option State)
    (condition : State → Label → Prop) : State → List Label → Prop
  | _, [] => True
  | state, label :: labels =>
      condition state label ∧
        ∀ next, step state label = some next → Along step condition next labels

instance Along.decidable {step : State → Label → Option State}
    {condition : State → Label → Prop}
    [met : ∀ state label, Decidable (condition state label)] :
    ∀ state labels, Decidable (Along step condition state labels)
  | _, [] => isTrue True.intro
  | state, label :: labels =>
      match taken : step state label with
      | none => decidable_of_iff (condition state label) (by simp [Along, taken])
      | some next =>
          have rest : Decidable (Along step condition next labels) := Along.decidable next labels
          decidable_of_iff (condition state label ∧ Along step condition next labels)
            (by simp [Along, taken])

def Preserves (step : State → Label → Option State)
    (condition : State → Label → Prop) (property : State → Prop) : Prop :=
  ∀ state label next, property state → condition state label →
    step state label = some next → property next

/-- The one way to go on from `first` leads to `second`. -/
def Only (step : State → Label → Option State) (first second : State) : Prop :=
  (∃ label, step first label = some second) ∧
    ∀ label next, step first label = some next → next = second

/-- The states of the only run from the first of them to the last, which is final. -/
def Corridor (step : State → Label → Option State) : List State → Prop
  | [] => False
  | [last] => ∀ label, step last label = none
  | first :: second :: rest => Only step first second ∧ Corridor step (second :: rest)

variable {step : State → Label → Option State}

@[simp] theorem run_nil (state : State) : run step state [] = some state := rfl

theorem run_cons_eq_some {state last : State} {label : Label} {labels : List Label} :
    run step state (label :: labels) = some last ↔
      ∃ next, step state label = some next ∧ run step next labels = some last := by
  cases taken : step state label with
  | none => simp [run, taken]
  | some next => simp [run, taken]

theorem run_append_eq_some {state last : State} {front back : List Label} :
    run step state (front ++ back) = some last ↔
      ∃ middle, run step state front = some middle ∧ run step middle back = some last := by
  induction front generalizing state with
  | nil => simp
  | cons label front ih =>
      simp only [List.cons_append, run_cons_eq_some, ih]
      exact ⟨fun ⟨next, taken, middle, ran, rest⟩ => ⟨middle, ⟨next, taken, ran⟩, rest⟩,
        fun ⟨middle, ⟨next, taken, ran⟩, rest⟩ => ⟨next, taken, middle, ran, rest⟩⟩

theorem Reachable.refl (state : State) : Reachable step state state := ⟨[], rfl⟩

theorem Reachable.trans {first middle last : State}
    (front : Reachable step first middle) (back : Reachable step middle last) :
    Reachable step first last := by
  obtain ⟨frontLabels, frontRan⟩ := front
  obtain ⟨backLabels, backRan⟩ := back
  exact ⟨frontLabels ++ backLabels,
    run_append_eq_some.mpr ⟨middle, frontRan, backRan⟩⟩

theorem Reachable.head {first middle last : State} {label : Label}
    (taken : step first label = some middle) (back : Reachable step middle last) :
    Reachable step first last := by
  obtain ⟨labels, ran⟩ := back
  exact ⟨label :: labels, run_cons_eq_some.mpr ⟨middle, taken, ran⟩⟩

theorem Reachable.tail {first middle last : State} {label : Label}
    (front : Reachable step first middle) (taken : step middle label = some last) :
    Reachable step first last :=
  front.trans (Reachable.head taken (Reachable.refl last))

theorem Along.cons {condition : State → Label → Prop} {state next : State}
    {label : Label} {labels : List Label} (met : condition state label)
    (taken : step state label = some next) (rest : Along step condition next labels) :
    Along step condition state (label :: labels) :=
  ⟨met, fun _ same => Option.some.inj (taken.symm.trans same) ▸ rest⟩

theorem Along.and {condition other : State → Label → Prop} {state : State} {labels : List Label}
    (one : Along step condition state labels) (two : Along step other state labels) :
    Along step (fun state label => condition state label ∧ other state label) state labels := by
  induction labels generalizing state with
  | nil => exact True.intro
  | cons label labels ih =>
      exact ⟨⟨one.1, two.1⟩, fun next taken => ih (one.2 next taken) (two.2 next taken)⟩

theorem along_append {condition : State → Label → Prop} {state middle : State}
    {front back : List Label} (ran : run step state front = some middle)
    (along : Along step condition state (front ++ back)) :
    Along step condition middle back := by
  induction front generalizing state with
  | nil =>
      cases ran
      exact along
  | cons label front ih =>
      obtain ⟨next, taken, rest⟩ := run_cons_eq_some.mp ran
      exact ih rest (along.2 next taken)

theorem Along.append {condition : State → Label → Prop} {state middle : State}
    {front back : List Label} (along : Along step condition state front)
    (ran : run step state front = some middle) (rest : Along step condition middle back) :
    Along step condition state (front ++ back) := by
  induction front generalizing state with
  | nil =>
      cases ran
      exact rest
  | cons label front ih =>
      obtain ⟨next, taken, later⟩ := run_cons_eq_some.mp ran
      exact Along.cons along.1 taken (ih (along.2 next taken) later)

theorem along_of_append {condition : State → Label → Prop} {state : State}
    {front back : List Label} (along : Along step condition state (front ++ back)) :
    Along step condition state front := by
  induction front generalizing state with
  | nil => exact True.intro
  | cons label front ih => exact ⟨along.1, fun next taken => ih (along.2 next taken)⟩

theorem invariant_along {condition : State → Label → Prop} {property : State → Prop}
    (kept : Preserves step condition property) {state last : State}
    {labels : List Label} (holds : property state)
    (along : Along step condition state labels)
    (ran : run step state labels = some last) : property last := by
  induction labels generalizing state with
  | nil =>
      cases ran
      exact holds
  | cons label labels ih =>
      obtain ⟨next, taken, rest⟩ := run_cons_eq_some.mp ran
      exact ih (kept state label next holds along.1 taken) (along.2 next taken) rest

theorem along_true (state : State) (labels : List Label) :
    Along step (fun _ _ => True) state labels := by
  induction labels generalizing state with
  | nil => exact True.intro
  | cons label labels ih => exact ⟨True.intro, fun next _ => ih next⟩

theorem invariant_run {property : State → Prop}
    (kept : ∀ state label next, property state → step state label = some next →
      property next)
    {state last : State} {labels : List Label} (holds : property state)
    (ran : run step state labels = some last) : property last := by
  have keptAlong : Preserves step (fun _ _ => True) property :=
    fun state label next holds _ taken => kept state label next holds taken
  exact invariant_along keptAlong holds (along_true state labels) ran

theorem along_of_invariant {condition conclusion : State → Label → Prop}
    {property : State → Prop} (kept : Preserves step condition property)
    (concludes : ∀ state label, property state → condition state label →
      conclusion state label)
    {state : State} {labels : List Label} (holds : property state)
    (along : Along step condition state labels) :
    Along step conclusion state labels := by
  induction labels generalizing state with
  | nil => exact True.intro
  | cons label labels ih =>
      exact ⟨concludes state label holds along.1, fun next taken =>
        ih (kept state label next holds along.1 taken) (along.2 next taken)⟩

/-- What agrees with the condition in every state of an invariant agrees with it along a run. -/
theorem along_congr {condition conclusion : State → Label → Prop}
    {property : State → Prop} (kept : Preserves step condition property)
    (agree : ∀ state label, property state → (conclusion state label ↔ condition state label))
    {state : State} {labels : List Label} (holds : property state) :
    Along step conclusion state labels ↔ Along step condition state labels := by
  induction labels generalizing state with
  | nil => exact Iff.rfl
  | cons label labels ih =>
      refine and_congr_left' (agree state label holds) |>.trans (and_congr_right fun met => ?_)
      exact forall₂_congr fun next taken => ih (kept state label next holds met taken)

/-- Steps of a kind that lowers a rank come to an end. -/
theorem exists_rest {active : Label → Prop} (rank : State → Nat)
    (lower : ∀ state label next, active label → step state label = some next →
      rank next < rank state) (state : State) :
    ∃ labels last, (∀ label ∈ labels, active label) ∧ run step state labels = some last ∧
      ∀ label, active label → step last label = none := by
  induction bound : rank state using Nat.strongRecOn generalizing state with
  | ind n ih =>
      by_cases rest : ∀ label, active label → step state label = none
      · exact ⟨[], state, nofun, rfl, rest⟩
      · obtain ⟨label, moving⟩ := Classical.not_forall.mp rest
        obtain ⟨works, taken⟩ := Classical.not_imp.mp moving
        obtain ⟨next, taken⟩ := Option.ne_none_iff_exists'.mp taken
        obtain ⟨labels, last, all, ran, final⟩ :=
          ih (rank next) (bound ▸ lower state label next works taken) next rfl
        exact ⟨label :: labels, last, List.forall_mem_cons.mpr ⟨works, all⟩,
          run_cons_eq_some.mpr ⟨next, taken, ran⟩, final⟩

theorem run_corridor {first last : State} {rest : List State} {labels : List Label}
    (corridor : Corridor step (first :: rest)) (ran : run step first labels = some last) :
    last ∈ first :: rest ∧ labels.length ≤ rest.length ∧
      ((∀ label, step last label = none) → (first :: rest).getLast? = some last) := by
  induction rest generalizing first labels with
  | nil =>
      cases labels with
      | nil =>
          cases ran
          exact ⟨List.mem_singleton_self _, Nat.le_refl _, fun _ => rfl⟩
      | cons label labels =>
          obtain ⟨next, taken, _⟩ := run_cons_eq_some.mp ran
          rw [corridor label] at taken
          cases taken
  | cons second rest ih =>
      obtain ⟨⟨onward, exits⟩, onlyOne⟩ := corridor.1
      cases labels with
      | nil =>
          cases ran
          refine ⟨List.mem_cons_self, Nat.zero_le _, fun stuck => ?_⟩
          rw [stuck onward] at exits
          cases exits
      | cons label labels =>
          obtain ⟨next, taken, ran⟩ := run_cons_eq_some.mp ran
          rw [onlyOne label next taken] at ran
          obtain ⟨member, shorter, final⟩ := ih corridor.2 ran
          refine ⟨List.mem_cons_of_mem _ member, Nat.succ_le_succ shorter, fun stuck => ?_⟩
          rw [List.getLast?_cons_cons]
          exact final stuck

end Transition
