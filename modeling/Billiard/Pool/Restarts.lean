import Billiard.Data.Transition
import Billiard.Pool.Roster

/-! `Supervisor.body` beside the result handler: the restarts are counted by the limiter that is in
force, and a handled ACK resets the one that the result handler was made with. -/

namespace Billiard

open Transition

/-- The two objects that `pool.restart_state` is bound to. -/
inductive Limiter where
  | initial
  | burst
deriving DecidableEq, Repr

/-- Where `Supervisor.body` stands: `left` are the passes left of the burst, and `none` stands for
the steady loop; `i` of the `n` rounds of `_repopulate_pool` are done. -/
inductive SupervisorPoint where
  | asleep
  | looping (left : Option Nat)
  | repopulating (left : Option Nat) (exitcodes : List Int) (i n : Nat)
  | ended
  | raised
deriving DecidableEq, Repr

/-- `captured` is what `create_result_handler` has read, `counted` are the restarts counted since
the last ACK was handled. -/
structure Supervising where
  clock : Nat
  running : Bool
  roster : Roster
  initial : RestartState
  burst : RestartState
  inForce : Limiter
  captured : Option Limiter
  point : SupervisorPoint
  counted : Nat
deriving DecidableEq, Repr

inductive SupervisorStep where
  | tick
  | createResultHandler
  | ack
  | exit (pid : Nat) (code : Int)
  | resize (processes : Int)
  | close
  | advance
deriving DecidableEq, Repr

def SupervisorPoint.Bursting : SupervisorPoint → Prop
  | .looping (some _) | .repopulating (some _) _ _ _ => True
  | _ => False

namespace Supervising

def init (processes : Nat) (maxR : Option Int) (maxT : Nat) : Supervising where
  clock := 0
  running := true
  roster := .init processes
  initial := .init maxR maxT
  burst := .init none 0
  inForce := .initial
  captured := none
  point := .asleep
  counted := 0

def limiter (state : Supervising) : Limiter → RestartState
  | .initial => state.initial
  | .burst => state.burst

def setLimiter (state : Supervising) (name : Limiter) (limiter : RestartState) : Supervising :=
  match name with
  | .initial => { state with initial := limiter }
  | .burst => { state with burst := limiter }

/-- `on_ack`, as far as it goes about restarts. -/
def onAck (state : Supervising) (captured : Limiter) : Supervising :=
  { state.setLimiter captured { state.limiter captured with R := 0 } with counted := 0 }

def maintain (state : Supervising) (left : Option Nat) : Supervising :=
  let (exitcodes, roster) := state.roster.joinExitedWorkers
  { state with roster, point := .repopulating left exitcodes 0 roster.missing }

/-- `_create_worker_process(_avail_index())`; a failed assertion ends the thread. -/
def create (state : Supervising) (left : Option Nat) (exitcodes : List Int) (i n : Nat) :
    Supervising :=
  match state.roster.availIndex with
  | none => { state with point := .ended }
  | some index => { state with
      roster := state.roster.create index
      point := .repopulating left exitcodes (i + 1) n }

/-- A round of `_repopulate_pool` -/
def repopulate (state : Supervising) (left : Option Nat) (exitcodes : List Int) (i n : Nat) :
    Supervising :=
  if Roster.counts exitcodes i then
    match (state.limiter state.inForce).step state.clock with
    | (limiter, true) => { state.setLimiter state.inForce limiter with point := .raised }
    | (limiter, false) =>
        { state.setLimiter state.inForce limiter with counted := state.counted + 1 }.create
          left exitcodes i n
  else state.create left exitcodes i n

/-- `ticks` is the length of a second. -/
def advance (ticks : Nat) (state : Supervising) : Option Supervising :=
  match state.point with
  | .asleep => some { state with
      burst := .init (some (10 * state.roster.processes)) ticks
      inForce := .burst
      point := .looping (some 10) }
  | .looping (some (left + 1)) =>
      if state.running then some (state.maintain (some left))
      else some { state with point := .looping (some left) }
  | .looping (some 0) => some { state with inForce := .initial, point := .looping none }
  | .looping none =>
      if state.running then some (state.maintain none) else some { state with point := .ended }
  | .repopulating left exitcodes i n =>
      if i < n && state.running then some (state.repopulate left exitcodes i n)
      else some { state with point := .looping left }
  | .ended | .raised => none

def step (ticks : Nat) (state : Supervising) : SupervisorStep → Option Supervising
  | .tick => some { state with clock := state.clock + 1 }
  | .createResultHandler =>
      if state.captured = none then some { state with captured := some state.inForce } else none
  | .ack => state.captured.map state.onAck
  | .exit pid code => some { state with roster := state.roster.exit pid code }
  | .resize processes => some { state with roster := { state.roster with processes } }
  | .close => some { state with running := false }
  | .advance => state.advance ticks

/-- `RestartFreqExceeded` tells of as many restarts since the last ACK as the limiter allows, and
an ACK resets the limiter that is in force. -/
structure Upholds (ticks : Nat) (state : Supervising) (label : SupervisorStep) : Prop where
  raises : ∀ next, label = .advance → state.step ticks label = some next →
    next.point = .raised → ∀ maxR, (state.limiter state.inForce).maxR = some maxR →
    maxR ≤ (state.counted : Int)
  resets : ∀ next, label = .ack → state.step ticks label = some next →
    (next.limiter next.inForce).R = 0

/-- An ACK is handled when the limiter in force is that of the result handler, or has counted
nothing. -/
def InTime (state : Supervising) (label : SupervisorStep) : Prop :=
  label = .ack → ∀ captured ∈ state.captured,
    captured = state.inForce ∨ (state.limiter state.inForce).R = 0

instance (state : Supervising) (label : SupervisorStep) : Decidable (state.InTime label) := by
  unfold InTime
  infer_instance

variable {ticks : Nat} {state next : Supervising}

@[simp] theorem point_setLimiter (state : Supervising) (name : Limiter)
    (limiter : RestartState) : (state.setLimiter name limiter).point = state.point := by
  cases name <;> rfl

/-- The limiter in force has counted nothing that came before the last ACK. -/
structure Sound (state : Supervising) : Prop where
  bounded : (state.limiter state.inForce).R ≤ state.counted
  fresh : state.point = .asleep ∨ state.point.Bursting → state.initial.R = 0
  force : state.point.Bursting → state.inForce = .burst

theorem init_sound (processes : Nat) (maxR : Option Int) (maxT : Nat) :
    (init processes maxR maxT).Sound where
  bounded := Nat.le_refl _
  fresh := fun _ => rfl
  force := nofun

theorem Sound.turn (sound : state.Sound) (roster : Roster) {point : SupervisorPoint}
    (awake : point ≠ .asleep) (bursting : point.Bursting → state.point.Bursting) :
    { state with roster, point }.Sound where
  bounded := sound.bounded
  fresh := fun early => sound.fresh (.inr (bursting (early.resolve_left awake)))
  force := fun here => sound.force (bursting here)

theorem Sound.create (sound : state.Sound) {left : Option Nat} {exitcodes : List Int} {i n : Nat}
    (here : state.point = .repopulating left exitcodes i n) :
    (state.create left exitcodes i n).Sound := by
  have same : ∀ j, SupervisorPoint.Bursting (.repopulating left exitcodes j n) →
      state.point.Bursting := by
    intro j bursting
    rw [here]
    cases left with
    | none => exact bursting
    | some left => exact True.intro
  unfold Supervising.create
  split
  · exact sound.turn _ nofun nofun
  · exact sound.turn _ nofun (same _)

theorem Sound.count (sound : state.Sound) (awake : state.point ≠ .asleep)
    {limiter : RestartState} {counted : Nat} (bounded : limiter.R ≤ counted) :
    { state.setLimiter state.inForce limiter with counted }.Sound := by
  cases force : state.inForce with
  | initial =>
      have calm : ¬state.point.Bursting := fun bursting =>
        absurd (force.symm.trans (sound.force bursting)) nofun
      exact {
        bounded := by simpa [setLimiter, Supervising.limiter, force] using bounded
        fresh := fun early => (early.elim awake calm).elim
        force := fun bursting => absurd bursting calm }
  | burst =>
      exact {
        bounded := by simpa [setLimiter, Supervising.limiter, force] using bounded
        fresh := sound.fresh
        force := fun _ => force }

theorem Sound.repopulate (sound : state.Sound) {left : Option Nat} {exitcodes : List Int}
    {i n : Nat} (here : state.point = .repopulating left exitcodes i n) :
    (state.repopulate left exitcodes i n).Sound := by
  have awake : state.point ≠ .asleep := by simp [here]
  unfold Supervising.repopulate
  split
  · split
    · rename_i limiter raised
      have reset := (RestartState.step_raised raised).1
      have low : limiter.R ≤ state.counted := by omega
      have kept : { state.setLimiter state.inForce limiter with point := .raised }.Sound := by
        have counted := (sound.count awake low).turn state.roster
          (show SupervisorPoint.raised ≠ .asleep from nofun) nofun
        cases force : state.inForce <;> simpa [setLimiter, force] using counted
      exact kept
    · rename_i limiter counted
      have more := RestartState.step_counted counted
      have high : limiter.R ≤ state.counted + 1 :=
        Nat.le_trans more (Nat.succ_le_succ sound.bounded)
      refine (sound.count awake high).create ?_
      simpa using here
  · exact sound.create here

theorem Sound.advance (sound : state.Sound) (taken : state.advance ticks = some next) :
    next.Sound := by
  unfold Supervising.advance at taken
  split at taken
  · rename_i asleep
    cases taken
    exact {
      bounded := Nat.zero_le _
      fresh := fun _ => sound.fresh (.inl asleep)
      force := fun _ => rfl }
  · rename_i left here
    split at taken
    · cases taken
      exact sound.turn _ nofun fun _ => here ▸ True.intro
    · cases taken
      exact sound.turn state.roster nofun fun _ => here ▸ True.intro
  · rename_i here
    cases taken
    have zero : state.initial.R = 0 := sound.fresh (.inr (here ▸ True.intro))
    exact {
      bounded := by simp [limiter, zero]
      fresh := fun _ => zero
      force := nofun }
  · rename_i here
    split at taken
    · cases taken
      exact sound.turn _ nofun nofun
    · cases taken
      exact sound.turn state.roster nofun nofun
  · rename_i left exitcodes i n here
    split at taken
    · cases taken
      exact sound.repopulate here
    · cases taken
      refine sound.turn state.roster nofun fun bursting => ?_
      rw [here]
      cases left with
      | none => exact bursting
      | some left => exact True.intro
  · cases taken
  · cases taken

theorem reset_onAck (state : Supervising) (captured : Limiter) :
    ((state.onAck captured).limiter (state.onAck captured).inForce).R = 0 ↔
      captured = state.inForce ∨ (state.limiter state.inForce).R = 0 := by
  cases captured <;> cases force : state.inForce <;>
    simp [onAck, setLimiter, limiter, force]

theorem Sound.ack (sound : state.Sound) {captured : Limiter}
    (inTime : captured = state.inForce ∨ (state.limiter state.inForce).R = 0) :
    (state.onAck captured).Sound where
  bounded := Nat.le_of_eq ((reset_onAck state captured).mpr inTime)
  fresh := by
    cases captured with
    | initial => exact fun _ => rfl
    | burst => exact sound.fresh
  force := by
    cases captured with
    | initial => exact sound.force
    | burst => exact sound.force

theorem Sound.step (state : Supervising) (label : SupervisorStep) (next : Supervising)
    (sound : state.Sound) (inTime : state.InTime label)
    (taken : state.step ticks label = some next) : next.Sound := by
  cases label with
  | tick =>
      cases taken
      exact { sound with }
  | createResultHandler =>
      simp only [Supervising.step, Option.ite_none_right_eq_some, Option.some.injEq] at taken
      obtain ⟨_, rfl⟩ := taken
      exact { sound with }
  | ack =>
      simp only [Supervising.step, Option.map_eq_some_iff] at taken
      obtain ⟨captured, known, rfl⟩ := taken
      exact sound.ack (inTime rfl captured known)
  | exit pid code =>
      cases taken
      exact { sound with }
  | resize processes =>
      cases taken
      exact { sound with }
  | close =>
      cases taken
      exact { sound with }
  | advance => exact sound.advance taken

theorem raised_of_create {left : Option Nat} {exitcodes : List Int} {i n : Nat} :
    (state.create left exitcodes i n).point ≠ .raised := by
  unfold create
  split <;> nofun

/-- The supervisor raises only when the limiter in force has counted all it allows. -/
theorem reached_of_raised (taken : state.advance ticks = some next) (raised : next.point = .raised)
    {maxR : Int} (known : (state.limiter state.inForce).maxR = some maxR) :
    maxR ≤ ((state.limiter state.inForce).R : Int) := by
  unfold Supervising.advance at taken
  split at taken
  case h_5 left exitcodes i n here =>
      split at taken
      · cases taken
        unfold repopulate at raised
        split at raised
        · split at raised
          · rename_i limiter exceeded
            obtain ⟨_, allowed, found, reached⟩ := RestartState.step_raised exceeded
            cases known.symm.trans found
            exact reached
          · exact absurd raised raised_of_create
        · exact absurd raised raised_of_create
      · cases taken
        cases raised
  case h_2 | h_4 =>
      split at taken <;> cases taken <;> cases raised
  all_goals
    cases taken
    try cases raised

theorem Sound.upholds (state : Supervising) (label : SupervisorStep) (sound : state.Sound)
    (inTime : state.InTime label) : state.Upholds ticks label where
  raises := by
    rintro next rfl taken raised maxR known
    have reached := reached_of_raised taken raised known
    have bounded := sound.bounded
    omega
  resets := by
    rintro next rfl taken
    simp only [Supervising.step, Option.map_eq_some_iff] at taken
    obtain ⟨captured, found, rfl⟩ := taken
    exact (reset_onAck state captured).mpr (inTime rfl captured found)

theorem Upholds.inTime (state : Supervising) (label : SupervisorStep)
    (upholds : state.Upholds ticks label) : state.InTime label := by
  rintro rfl captured found
  have reset := upholds.resets (state.onAck captured) rfl
    (congrArg (Option.map state.onAck) found)
  exact (reset_onAck state captured).mp reset

/-- In any run, from the construction of the pool on. -/
theorem restarts_iff (ticks processes : Nat) (maxR : Option Int) (maxT : Nat)
    (labels : List SupervisorStep) :
    Along (step ticks) (Upholds ticks) (init processes maxR maxT) labels ↔
      Along (step ticks) InTime (init processes maxR maxT) labels := by
  refine along_congr Sound.step ?_ (init_sound processes maxR maxT)
  intro state label sound
  exact ⟨Upholds.inTime state label, Sound.upholds state label sound⟩

def restartInBurst : List SupervisorStep :=
  [.createResultHandler, .advance, .exit 1 1, .advance, .advance, .advance]

/-- The pool grows by eleven, and the next pass of the burst finds a worker that has exited. -/
def growthInBurst : List SupervisorStep :=
  [.ack, .resize 12, .exit 2 1, .advance] ++ List.replicate 9 .advance

/-- The ACK leaves the count of the burst as it is, and the tenth restart after it raises. -/
theorem not_reset :
    ∃ accepted before last : Supervising,
      run (step 10) (init 1 (some 100) 1) restartInBurst = some accepted ∧
      ¬accepted.Upholds 10 .ack ∧
      run (step 10) accepted growthInBurst = some before ∧
      before.step 10 .advance = some last ∧ last.point = .raised ∧ before.counted = 9 ∧
      ¬before.Upholds 10 .advance := by
  refine ⟨_, _, _, rfl, ?_, rfl, rfl, rfl, rfl, ?_⟩
  · intro upholds
    cases upholds.resets _ rfl rfl
  · intro upholds
    exact absurd (upholds.raises _ rfl rfl rfl 10 rfl) (by decide)

end Supervising

end Billiard
