import Billiard.Data.Tally
import Billiard.Synchronize.SemaphoreTracker
import Mathlib.Data.Finset.SDiff

/-! The names of the semaphores behind `SemLock`s, from `sem_open` to the end of the tracker.  Any
process can die at any time; commands reach the tracker whole and as they were sent, which is so
for names without `:` and white space at their end, such as `_make_name` gives.  There is at most
one tracker, which the first process starts before it forks: a process that is forked earlier has
no `_fd`, and would start a tracker of its own. -/

namespace Billiard

open Transition Tally

/-- Where a `SemLock` stands: in `__init__` with some of its tries left or with a semaphore that
is not registered yet, in use, or in `_cleanup`.  It is `refused` when all names it tried exist,
`unsent` when `register` raises and `failed` when `sem_unlink` does. -/
inductive NamingStage where
  | trying (left : Nat)
  | refused
  | opened (name : List Char)
  | unnamed
  | unsent (name : List Char)
  | registered (name : List Char)
  | failed
  | unlinked (name : List Char)
  | unregistered
deriving DecidableEq, Repr

/-- `unlinkNow` is set where processes are started by `fork`. -/
structure NamedSemLock where
  owner : Nat
  unlinkNow : Bool
  stage : NamingStage
deriving DecidableEq, Repr

/-- `names` are all names of semaphores there are, `pipe` and `cache` what the tracker has yet to
read and the names it knows of.  It is done when it has unlinked those.  Once it is `running`, each
process has its `_fd`. -/
structure SemaphoreNames where
  names : Finset (List Char)
  running : Bool
  alive : List Bool
  semlocks : List NamedSemLock
  pipe : List TrackerCommand
  cache : Finset (List Char)
  done : Bool
deriving DecidableEq

inductive NamingAction where
  | create (owner : Nat) (unlinkNow : Bool)
  | open (semlock : Nat) (name : List Char)
  | proceed (semlock : Nat)
  | ensureRunning (process : Nat)
  | fork (process : Nat)
  | kill (process : Nat)
  | track
  | cleanUp
deriving DecidableEq

/-- The name of a semaphore that has been opened and not unlinked. -/
def NamingStage.held : NamingStage → Option (List Char)
  | .opened name | .unsent name | .registered name => some name
  | .trying _ | .refused | .unnamed | .failed | .unlinked _ | .unregistered => none

namespace SemaphoreNames

/-- `foreign` are the names that others have given. -/
def init (foreign : Finset (List Char)) : SemaphoreNames :=
  ⟨foreign, false, [true], [], [], ∅, false⟩

def move (state : SemaphoreNames) (i : Nat) (semlock : NamedSemLock) (stage : NamingStage) :
    SemaphoreNames :=
  { state with semlocks := state.semlocks.set i { semlock with stage } }

/-- `_send` starts the tracker, if it has to, and raises before it writes. -/
def send (state : SemaphoreNames) (command : TrackerCommand) : SemaphoreNames :=
  { state with
    running := true
    pipe := state.pipe ++ if command.message?.isSome then [command] else [] }

/-- Every process has the `_fd` of one tracker, or is the one that may start it. -/
def trackable (state : SemaphoreNames) : Bool := state.running || state.alive.length == 1

/-- The next operation of a `SemLock` whose process is alive. -/
def proceed (state : SemaphoreNames) (i : Nat) (semlock : NamedSemLock) :
    Option SemaphoreNames :=
  match semlock.stage with
  | .opened name =>
      if semlock.unlinkNow then
        if name ∈ state.names then
          some ({ state with names := state.names.erase name }.move i semlock .unnamed)
        else some (state.move i semlock .failed)
      else if !state.trackable then none
      else if (TrackerCommand.mk .register name).message?.isSome then
        some ((state.send ⟨.register, name⟩).move i semlock (.registered name))
      else some ((state.send ⟨.register, name⟩).move i semlock (.unsent name))
  | .registered name =>
      if name ∈ state.names then
        some ({ state with names := state.names.erase name }.move i semlock (.unlinked name))
      else some (state.move i semlock .failed)
  | .unlinked name =>
      some ((state.send ⟨.unregister, name⟩).move i semlock .unregistered)
  | _ => none

/-- `sem_open` with `O_CREAT | O_EXCL` -/
def openName (state : SemaphoreNames) (i : Nat) (semlock : NamedSemLock) (name : List Char) :
    Option SemaphoreNames :=
  match semlock.stage with
  | .trying (left + 1) =>
      if name ∈ state.names then
        some (state.move i semlock (if left = 0 then .refused else .trying left))
      else some ({ state with names := insert name state.names }.move i semlock (.opened name))
  | _ => none

def isAlive (state : SemaphoreNames) (process : Nat) : Bool := state.alive[process]? == some true

def step (state : SemaphoreNames) : NamingAction → Option SemaphoreNames
  | .create owner unlinkNow =>
      if state.isAlive owner then
        some { state with
          semlocks := state.semlocks ++ [⟨owner, unlinkNow, .trying 100⟩] }
      else none
  | .open i name =>
      match state.semlocks[i]? with
      | none => none
      | some semlock =>
          if state.isAlive semlock.owner then state.openName i semlock name else none
  | .proceed i =>
      match state.semlocks[i]? with
      | none => none
      | some semlock => if state.isAlive semlock.owner then state.proceed i semlock else none
  | .ensureRunning process =>
      if state.isAlive process ∧ state.trackable then some { state with running := true } else none
  | .fork process =>
      if state.isAlive process then some { state with alive := state.alive ++ [true] } else none
  | .kill process =>
      if state.isAlive process then some { state with alive := state.alive.set process false }
      else none
  | .track =>
      match state.pipe with
      | [] => none
      | command :: pipe => some { state with pipe, cache := command.apply state.cache }
  | .cleanUp =>
      if state.alive.all (!·) ∧ state.pipe = [] ∧ state.running ∧ state.done = false then
        some { state with names := state.names \ state.cache, done := true }
      else none

/-- No name is given again while the process that has unlinked it has yet to unregister it. -/
def Unreused (state : SemaphoreNames) : NamingAction → Prop
  | .open _ name => ∀ semlock ∈ state.semlocks, semlock.stage = .unlinked name →
      state.isAlive semlock.owner = false
  | _ => True

instance (state : SemaphoreNames) (action : NamingAction) : Decidable (state.Unreused action) := by
  unfold Unreused
  split <;> infer_instance

end SemaphoreNames

variable {foreign names : Finset (List Char)} {semlocks : List NamedSemLock}
  {state next last : SemaphoreNames} {i : Nat} {semlock : NamedSemLock} {name : List Char}
  {stage : NamingStage} {action : NamingAction} {labels : List NamingAction}

namespace TrackerCommand

theorem mem_apply_of_ne {cache : Finset (List Char)} {command : TrackerCommand}
    (other : name ≠ command.name) : name ∈ command.apply cache ↔ name ∈ cache := by
  cases verb : command.verb with
  | register => simp [apply, verb, other]
  | unregister => simp [apply, verb, other]

end TrackerCommand

/-- Before the tracker is done, each name that was not there before is that of one `SemLock`. -/
structure Named (foreign names : Finset (List Char)) (semlocks : List NamedSemLock) : Prop where
  held : ∀ (i : Nat) semlock name, semlocks[i]? = some semlock →
    semlock.stage.held = some name → name ∈ names ∧ name ∉ foreign
  apart : ∀ (i j : Nat) left right name, semlocks[i]? = some left → semlocks[j]? = some right →
    left.stage.held = some name → right.stage.held = some name → i = j
  owned : ∀ name ∈ names, name ∉ foreign →
    ∃ semlock ∈ semlocks, semlock.stage.held = some name
  kept : foreign ⊆ names

namespace Named

/-- What a `SemLock` that goes on leaves to the others -/
theorem mem_set (new : NamedSemLock) {other : NamedSemLock}
    (found : semlocks[i]? = some semlock) (member : other ∈ semlocks) :
    other = semlock ∨ other ∈ semlocks.set i new := by
  obtain ⟨j, here⟩ := List.getElem?_of_mem member
  by_cases same : i = j
  · subst same
    exact .inl (Option.some.inj (here.symm.trans found))
  · refine .inr (List.mem_of_getElem? (i := j) ?_)
    rw [List.getElem?_set_ne same]
    exact here

theorem stays (named : Named foreign names semlocks) (found : semlocks[i]? = some semlock)
    (same : stage.held = semlock.stage.held) :
    Named foreign names (semlocks.set i { semlock with stage }) := by
  have before : ∀ {j : Nat} {other : NamedSemLock},
      (semlocks.set i { semlock with stage })[j]? = some other →
        ∃ old, semlocks[j]? = some old ∧ other.stage.held = old.stage.held := by
    intro j other here
    obtain ⟨rfl, rfl⟩ | ⟨_, here⟩ := getElem?_set_cases here
    · exact ⟨semlock, found, same⟩
    · exact ⟨other, here, rfl⟩
  refine ⟨?_, ?_, ?_, named.kept⟩
  · intro j other name here holds
    obtain ⟨old, place, stage⟩ := before here
    exact named.held j old name place (stage.symm.trans holds)
  · intro j k left right name here there holds owns
    obtain ⟨_, place, stage⟩ := before here
    obtain ⟨_, beside, stages⟩ := before there
    exact named.apart j k _ _ name place beside (stage.symm.trans holds) (stages.symm.trans owns)
  · intro name member strange
    obtain ⟨other, listed, holds⟩ := named.owned name member strange
    cases mem_set { semlock with stage } found listed with
    | inl it =>
        exact ⟨_, List.mem_of_getElem? (getElem?_set_found found _),
          same.trans (it ▸ holds)⟩
    | inr stays => exact ⟨other, stays, holds⟩

theorem opens (named : Named foreign names semlocks) (found : semlocks[i]? = some semlock)
    (free : semlock.stage.held = none) (fresh : name ∉ names) (holds : stage.held = some name) :
    Named foreign (insert name names) (semlocks.set i { semlock with stage }) := by
  have before : ∀ {j : Nat} {other : NamedSemLock} {known : List Char},
      (semlocks.set i { semlock with stage })[j]? = some other →
        other.stage.held = some known → j = i ∧ known = name ∨
          semlocks[j]? = some other ∧ known ≠ name := by
    intro j other known here owns
    obtain ⟨rfl, rfl⟩ | ⟨_, here⟩ := getElem?_set_cases here
    · exact .inl ⟨rfl, Option.some.inj (owns.symm.trans holds)⟩
    · refine .inr ⟨here, ?_⟩
      rintro rfl
      exact fresh (named.held j other known here owns).1
  refine ⟨?_, ?_, ?_, named.kept.trans (Finset.subset_insert _ _)⟩
  · intro j other known here owns
    obtain ⟨_, rfl⟩ | ⟨place, _⟩ := before here owns
    · exact ⟨Finset.mem_insert_self _ _, fun strange => fresh (named.kept strange)⟩
    · obtain ⟨member, strange⟩ := named.held j other known place owns
      exact ⟨Finset.mem_insert_of_mem member, strange⟩
  · intro j k left right known here there owns others
    obtain ⟨rfl, same⟩ | ⟨place, different⟩ := before here owns
    · obtain ⟨rfl, _⟩ | ⟨_, different⟩ := before there others
      · rfl
      · exact absurd same different
    · obtain ⟨_, same⟩ | ⟨beside, _⟩ := before there others
      · exact absurd same different
      · exact named.apart j k left right known place beside owns others
  · intro known member strange
    cases Finset.mem_insert.mp member with
    | inl same =>
        exact ⟨_, List.mem_of_getElem? (getElem?_set_found found _), by rw [same]; exact holds⟩
    | inr member =>
        obtain ⟨other, listed, owns⟩ := named.owned known member strange
        cases mem_set { semlock with stage } found listed with
        | inl it =>
            rw [it, free] at owns
            cases owns
        | inr stays => exact ⟨other, stays, owns⟩

theorem unlinks (named : Named foreign names semlocks) (found : semlocks[i]? = some semlock)
    (holds : semlock.stage.held = some name) (free : stage.held = none) :
    Named foreign (names.erase name) (semlocks.set i { semlock with stage }) := by
  obtain ⟨_, strange⟩ := named.held i semlock name found holds
  have before : ∀ {j : Nat} {other : NamedSemLock} {known : List Char},
      (semlocks.set i { semlock with stage })[j]? = some other →
        other.stage.held = some known → semlocks[j]? = some other ∧ known ≠ name := by
    intro j other known here owns
    obtain ⟨rfl, rfl⟩ | ⟨different, here⟩ := getElem?_set_cases here
    · cases free.symm.trans owns
    · refine ⟨here, ?_⟩
      rintro rfl
      exact different (named.apart j i other semlock known here found owns holds)
  refine ⟨?_, ?_, ?_, ?_⟩
  · intro j other known here owns
    obtain ⟨place, different⟩ := before here owns
    obtain ⟨member, strange⟩ := named.held j other known place owns
    exact ⟨Finset.mem_erase.mpr ⟨different, member⟩, strange⟩
  · intro j k left right known here there owns others
    exact named.apart j k left right known (before here owns).1 (before there others).1 owns others
  · intro known member strange
    obtain ⟨different, member⟩ := Finset.mem_erase.mp member
    obtain ⟨other, listed, owns⟩ := named.owned known member strange
    cases mem_set { semlock with stage } found listed with
    | inl it =>
        rw [it, holds] at owns
        exact absurd (Option.some.inj owns).symm different
    | inr stays => exact ⟨other, stays, owns⟩
  · intro known member
    refine Finset.mem_erase.mpr ⟨?_, named.kept member⟩
    rintro rfl
    exact strange member

theorem creates (named : Named foreign names semlocks) (free : semlock.stage.held = none) :
    Named foreign names (semlocks ++ [semlock]) := by
  have before : ∀ {j : Nat} {other : NamedSemLock} {known : List Char},
      (semlocks ++ [semlock])[j]? = some other → other.stage.held = some known →
        semlocks[j]? = some other := by
    intro j other known here owns
    obtain here | ⟨_, rfl⟩ := getElem?_concat_cases here
    · exact here
    · cases free.symm.trans owns
  refine ⟨?_, ?_, ?_, named.kept⟩
  · exact fun j other known here owns => named.held j other known (before here owns) owns
  · exact fun j k left right known here there owns others =>
      named.apart j k left right known (before here owns) (before there others) owns others
  · intro known member strange
    obtain ⟨other, listed, owns⟩ := named.owned known member strange
    exact ⟨other, List.mem_append_left _ listed, owns⟩

end Named

namespace SemaphoreNames

/-- What a step of a `SemLock` does. -/
inductive Turn (state : SemaphoreNames) (i : Nat) (semlock : NamedSemLock) :
    NamingAction → SemaphoreNames → Prop where
  | tries (left : Nat) (name : List Char) (stage : NamingStage)
      (here : semlock.stage = .trying (left + 1)) (goes : stage = .refused ∨ stage = .trying left) :
      Turn state i semlock (.open i name) (state.move i semlock stage)
  | opens (left : Nat) (name : List Char) (here : semlock.stage = .trying (left + 1))
      (fresh : name ∉ state.names) :
      Turn state i semlock (.open i name)
        ({ state with names := insert name state.names }.move i semlock (.opened name))
  | hides (name : List Char) (here : semlock.stage = .opened name) :
      Turn state i semlock (.proceed i)
        ({ state with names := state.names.erase name }.move i semlock .unnamed)
  | fails (name : List Char) (here : semlock.stage.held = some name)
      (absent : name ∉ state.names) :
      Turn state i semlock (.proceed i) (state.move i semlock .failed)
  | registers (name : List Char) (here : semlock.stage = .opened name)
      (sends : (TrackerCommand.mk .register name).message?.isSome) :
      Turn state i semlock (.proceed i)
        ((state.send ⟨.register, name⟩).move i semlock (.registered name))
  | raises (name : List Char) (here : semlock.stage = .opened name)
      (refused : (TrackerCommand.mk .register name).message?.isSome = false) :
      Turn state i semlock (.proceed i)
        ((state.send ⟨.register, name⟩).move i semlock (.unsent name))
  | unlinks (name : List Char) (here : semlock.stage = .registered name) :
      Turn state i semlock (.proceed i)
        ({ state with names := state.names.erase name }.move i semlock (.unlinked name))
  | unregisters (name : List Char) (here : semlock.stage = .unlinked name) :
      Turn state i semlock (.proceed i)
        ((state.send ⟨.unregister, name⟩).move i semlock .unregistered)

theorem proceed_turn (taken : state.proceed i semlock = some next) :
    Turn state i semlock (.proceed i) next := by
  unfold proceed at taken
  split at taken
  · rename_i name here
    split at taken
    · split at taken
      · cases taken
        exact .hides name here
      · rename_i absent
        cases taken
        exact .fails name (by rw [here]; rfl) absent
    · split at taken
      · cases taken
      · split at taken
        · rename_i sends
          cases taken
          exact .registers name here sends
        · rename_i refused
          cases taken
          exact .raises name here (Bool.eq_false_iff.mpr refused)
  · rename_i name here
    split at taken
    · cases taken
      exact .unlinks name here
    · rename_i absent
      cases taken
      exact .fails name (by rw [here]; rfl) absent
  · rename_i name here
    cases taken
    exact .unregisters name here
  · cases taken

theorem openName_turn (taken : state.openName i semlock name = some next) :
    Turn state i semlock (.open i name) next := by
  unfold openName at taken
  split at taken
  · rename_i left here
    split at taken
    · cases taken
      refine .tries left name _ here ?_
      split
      · exact .inl rfl
      · exact .inr rfl
    · rename_i fresh
      cases taken
      exact .opens left name here fresh
  · cases taken

theorem step_cases (taken : step state action = some next) :
    (∃ (i : Nat) (semlock : NamedSemLock), state.semlocks[i]? = some semlock ∧
        state.isAlive semlock.owner = true ∧ Turn state i semlock action next) ∨
      (∃ owner unlinkNow, state.isAlive owner = true ∧
        next = { state with semlocks := state.semlocks ++ [⟨owner, unlinkNow, .trying 100⟩] }) ∨
      (∃ process, state.isAlive process = true ∧
        (next = { state with alive := state.alive ++ [true] } ∨
          next = { state with alive := state.alive.set process false } ∨
          next = { state with running := true })) ∨
      (∃ command pipe, state.pipe = command :: pipe ∧
        next = { state with pipe, cache := command.apply state.cache }) ∨
      (state.alive.all (!·) = true ∧ state.pipe = [] ∧
        next = { state with names := state.names \ state.cache, done := true }) := by
  cases action with
  | create owner unlinkNow =>
      simp only [step] at taken
      split at taken
      · cases taken
        exact .inr (.inl ⟨owner, unlinkNow, ‹_›, rfl⟩)
      · cases taken
  | «open» i name =>
      simp only [step] at taken
      split at taken
      · cases taken
      · rename_i semlock found
        split at taken
        · exact .inl ⟨i, semlock, found, ‹_›, openName_turn taken⟩
        · cases taken
  | proceed i =>
      simp only [step] at taken
      split at taken
      · cases taken
      · rename_i semlock found
        split at taken
        · exact .inl ⟨i, semlock, found, ‹_›, proceed_turn taken⟩
        · cases taken
  | ensureRunning process =>
      simp only [step] at taken
      split at taken
      · rename_i ready
        cases taken
        exact .inr (.inr (.inl ⟨process, ready.1, .inr (.inr rfl)⟩))
      · cases taken
  | fork process =>
      simp only [step] at taken
      split at taken
      · cases taken
        exact .inr (.inr (.inl ⟨process, ‹_›, .inl rfl⟩))
      · cases taken
  | kill process =>
      simp only [step] at taken
      split at taken
      · cases taken
        exact .inr (.inr (.inl ⟨process, ‹_›, .inr (.inl rfl)⟩))
      · cases taken
  | track =>
      simp only [step] at taken
      split at taken
      · cases taken
      · rename_i command pipe read
        cases taken
        exact .inr (.inr (.inr (.inl ⟨command, pipe, read, rfl⟩)))
  | cleanUp =>
      simp only [step] at taken
      split at taken
      · rename_i finished
        cases taken
        exact .inr (.inr (.inr (.inr ⟨finished.1, finished.2.1, rfl⟩)))
      · cases taken

structure Sound (foreign : Finset (List Char)) (state : SemaphoreNames) : Prop where
  going : state.done = false
  named : Named foreign state.names state.semlocks
  commands : ∀ name ∈ foreign, name ∉ state.cache ∧ ∀ command ∈ state.pipe, command.name ≠ name
  unlinked : ∀ semlock ∈ state.semlocks, ∀ name, semlock.stage = .unlinked name → name ∉ foreign
  unfailed : ∀ semlock ∈ state.semlocks, semlock.stage ≠ .failed
  owners : ∀ semlock ∈ state.semlocks, semlock.owner < state.alive.length

theorem forall_set_mem {property : NamedSemLock → Prop} {new : NamedSemLock} (stored : property new)
    (kept : ∀ semlock ∈ semlocks, property semlock) :
    ∀ semlock ∈ semlocks.set i new, property semlock := by
  intro semlock member
  cases List.mem_or_eq_of_mem_set member with
  | inl old => exact kept semlock old
  | inr same => rw [same]; exact stored

theorem forall_concat {property : NamedSemLock → Prop} (new : property semlock)
    (old : ∀ semlock ∈ semlocks, property semlock) :
    ∀ other ∈ semlocks ++ [semlock], property other := by
  intro other member
  cases List.mem_append.mp member with
  | inl before => exact old other before
  | inr same => rw [List.mem_singleton.mp same]; exact new

theorem commands_send {command : TrackerCommand} (sound : state.Sound foreign)
    (strange : command.name ∉ foreign) : ∀ name ∈ foreign, name ∉ (state.send command).cache ∧
      ∀ sent ∈ (state.send command).pipe, sent.name ≠ name := by
  intro name member
  obtain ⟨unknown, others⟩ := sound.commands name member
  refine ⟨unknown, fun sent listed => ?_⟩
  cases List.mem_append.mp listed with
  | inl before => exact others sent before
  | inr new =>
      split at new
      · rw [List.mem_singleton.mp new]
        rintro rfl
        exact strange member
      · cases new

theorem Sound.turn (sound : state.Sound foreign) (found : state.semlocks[i]? = some semlock)
    (turn : Turn state i semlock action next) : next.Sound foreign := by
  have member := List.mem_of_getElem? found
  have owner := sound.owners semlock member
  have owners : ∀ stage, ∀ other ∈ state.semlocks.set i { semlock with stage },
      other.owner < state.alive.length := fun _ => forall_set_mem owner sound.owners
  have unlinked : ∀ stage, (∀ name, stage = .unlinked name → name ∉ foreign) →
      ∀ other ∈ state.semlocks.set i { semlock with stage }, ∀ name,
        other.stage = .unlinked name → name ∉ foreign :=
    fun _ stored => forall_set_mem stored sound.unlinked
  have unfailed : ∀ stage, stage ≠ .failed →
      ∀ other ∈ state.semlocks.set i { semlock with stage }, other.stage ≠ .failed :=
    fun _ stored => forall_set_mem stored sound.unfailed
  cases turn with
  | tries left name stage here goes =>
      have free : stage.held = none := by
        obtain rfl | rfl := goes <;> rfl
      refine ⟨sound.going, sound.named.stays found (free.trans (by rw [here]; rfl)),
        sound.commands, unlinked stage ?_, unfailed stage ?_, owners stage⟩
      · obtain rfl | rfl := goes <;> nofun
      · obtain rfl | rfl := goes <;> nofun
  | opens left name here fresh =>
      exact ⟨sound.going, sound.named.opens found (by rw [here]; rfl) fresh rfl, sound.commands,
        unlinked _ nofun, unfailed _ nofun, owners _⟩
  | hides name here =>
      exact ⟨sound.going, sound.named.unlinks found (by rw [here]; rfl) rfl, sound.commands,
        unlinked _ nofun, unfailed _ nofun, owners _⟩
  | fails name here absent => exact absurd (sound.named.held i semlock name found here).1 absent
  | registers name here sends =>
      have strange := (sound.named.held i semlock name found (by rw [here]; rfl)).2
      exact ⟨sound.going, sound.named.stays found (by rw [here]; rfl), commands_send sound strange,
        unlinked _ nofun, unfailed _ nofun, owners _⟩
  | raises name here refused =>
      have strange := (sound.named.held i semlock name found (by rw [here]; rfl)).2
      exact ⟨sound.going, sound.named.stays found (by rw [here]; rfl), commands_send sound strange,
        unlinked _ nofun, unfailed _ nofun, owners _⟩
  | unlinks name here =>
      have strange := (sound.named.held i semlock name found (by rw [here]; rfl)).2
      exact ⟨sound.going, sound.named.unlinks found (by rw [here]; rfl) rfl, sound.commands,
        unlinked _ (by rintro _ ⟨⟩; exact strange), unfailed _ nofun, owners _⟩
  | unregisters name here =>
      have strange := sound.unlinked semlock member name here
      exact ⟨sound.going, sound.named.stays found (by rw [here]; rfl), commands_send sound strange,
        unlinked _ nofun, unfailed _ nofun, owners _⟩

theorem lt_of_isAlive {process : Nat} (alive : state.isAlive process = true) :
    process < state.alive.length :=
  (List.getElem?_eq_some_iff.mp (eq_of_beq alive)).1

/-- Until the tracker unlinks what it knows of, when all processes are dead and it has read
everything -/
theorem Sound.step (sound : state.Sound foreign)
    (taken : SemaphoreNames.step state action = some next) :
    next.Sound foreign ∨ (state.alive.all (!·) = true ∧ state.pipe = [] ∧
      next = { state with names := state.names \ state.cache, done := true }) := by
  obtain ⟨i, semlock, found, _, turn⟩ | ⟨owner, unlinkNow, alive, rfl⟩ | ⟨process, _, goes⟩ |
    ⟨command, pipe, read, rfl⟩ | finished := step_cases taken
  · exact .inl (sound.turn found turn)
  · exact .inl ⟨sound.going, sound.named.creates rfl, sound.commands,
      forall_concat nofun sound.unlinked, forall_concat nofun sound.unfailed,
      forall_concat (lt_of_isAlive alive) sound.owners⟩
  · have longer : state.alive.length ≤ next.alive.length := by
      obtain rfl | rfl | rfl := goes
      · rw [List.length_append]
        exact Nat.le_add_right _ _
      · rw [List.length_set]
      · exact Nat.le_refl _
    refine .inl ?_
    obtain rfl | rfl | rfl := goes <;>
      exact ⟨sound.going, sound.named, sound.commands, sound.unlinked, sound.unfailed,
        fun semlock member => Nat.lt_of_lt_of_le (sound.owners semlock member) longer⟩
  · refine .inl ⟨sound.going, sound.named, fun name member => ?_, sound.unlinked, sound.unfailed,
      sound.owners⟩
    obtain ⟨unknown, others⟩ := sound.commands name member
    rw [read] at others
    obtain ⟨first, rest⟩ := List.forall_mem_cons.mp others
    exact ⟨fun known => unknown ((TrackerCommand.mem_apply_of_ne (Ne.symm first)).mp known), rest⟩
  · exact .inr finished

theorem sound_init (foreign : Finset (List Char)) : (init foreign).Sound foreign := by
  refine ⟨rfl, ⟨nofun, nofun, fun name member strange => absurd member strange, subset_refl _⟩, ?_,
    nofun, nofun, nofun⟩
  exact fun name _ => ⟨Finset.notMem_empty name, nofun⟩

/-- A tracker that is done has nobody left to serve. -/
theorem step_done (dead : state.alive.all (!·) = true) (empty : state.pipe = [])
    (done : state.done = true) : step state action = none := by
  have nobody : ∀ process, state.isAlive process = false := by
    intro process
    refine Bool.eq_false_iff.mpr fun alive => ?_
    have listed := List.mem_of_getElem? (eq_of_beq alive)
    have gone := List.all_eq_true.mp dead true listed
    cases gone
  cases action with
  | create owner unlinkNow => simp [step, nobody]
  | «open» i name =>
      simp only [step]
      split
      · rfl
      · simp [nobody]
  | proceed i =>
      simp only [step]
      split
      · rfl
      · simp [nobody]
  | ensureRunning process => simp [step, nobody]
  | fork process => simp [step, nobody]
  | kill process => simp [step, nobody]
  | track => simp [step, empty]
  | cleanUp => simp [step, done]

/-- What the tracker will know of when it has read all there is. -/
def known (state : SemaphoreNames) : Finset (List Char) :=
  state.pipe.foldl TrackerCommand.apply state.cache

structure Tracked (state : SemaphoreNames) : Prop where
  known : ∀ semlock ∈ state.semlocks, ∀ name, semlock.stage = .registered name →
    name ∈ state.known
  retired : ∀ semlock ∈ state.semlocks, ∀ name, semlock.stage = .unlinked name →
    state.isAlive semlock.owner = true → ∀ other ∈ state.semlocks, other.stage.held ≠ some name

theorem mem_known_send {command : TrackerCommand} (member : name ∈ state.known)
    (kept : name ≠ command.name ∨ command.verb = .register) :
    name ∈ (state.send command).known := by
  unfold known send
  split
  · rw [List.foldl_concat]
    obtain other | registers := kept
    · exact (TrackerCommand.mem_apply_of_ne other).mpr member
    · simp only [TrackerCommand.apply, registers]
      exact Finset.mem_insert_of_mem member
  · rw [List.append_nil]
    exact member

/-- A `SemLock` moves to a stage in which it is neither registered nor about to be
unregistered. -/
theorem Tracked.moved (tracked : state.Tracked) (i : Nat) (semlock : NamedSemLock)
    (names : Finset (List Char)) (stage : NamingStage)
    (plain : ∀ name, stage ≠ .registered name ∧ stage ≠ .unlinked name)
    (held : ∀ name, stage.held = some name → ∀ other ∈ state.semlocks,
      other.stage = .unlinked name → state.isAlive other.owner = false) :
    ({ state with names }.move i semlock stage).Tracked := by
  constructor
  · exact forall_set_mem (fun name here => absurd here (plain name).1) tracked.known
  · refine forall_set_mem (fun name here => absurd here (plain name).2) ?_
    intro other member name here alive
    refine forall_set_mem (fun holds => ?_) (tracked.retired other member name here alive)
    exact absurd ((held name holds other member here).symm.trans alive) nofun

theorem Tracked.turn (tracked : state.Tracked) (sound : state.Sound foreign)
    (found : state.semlocks[i]? = some semlock) (alive : state.isAlive semlock.owner = true)
    (unreused : state.Unreused action) (turn : Turn state i semlock action next) :
    next.Tracked := by
  have listed := List.mem_of_getElem? found
  have inherits : ∀ {stage : NamingStage}, stage.held = semlock.stage.held → ∀ name,
      stage.held = some name → ∀ other ∈ state.semlocks, other.stage = .unlinked name →
        state.isAlive other.owner = false := by
    intro stage same name holds other member here
    refine Bool.eq_false_iff.mpr fun lives => ?_
    exact tracked.retired other member name here lives semlock listed (same.symm.trans holds)
  cases turn with
  | tries left name stage here goes =>
      refine tracked.moved i semlock state.names stage (fun name => ?_) fun name holds => ?_
      · obtain rfl | rfl := goes <;> exact ⟨nofun, nofun⟩
      · obtain rfl | rfl := goes <;> cases holds
  | opens left name here fresh =>
      refine tracked.moved i semlock _ _ (fun name => ⟨nofun, nofun⟩) ?_
      rintro _ ⟨⟩ other member retired
      exact unreused other member retired
  | hides name here => exact tracked.moved i semlock _ _ (fun name => ⟨nofun, nofun⟩) nofun
  | fails name here absent =>
      exact tracked.moved i semlock state.names _ (fun name => ⟨nofun, nofun⟩) nofun
  | raises name here refused =>
      have begun : Tracked { state with running := true } := ⟨tracked.known, tracked.retired⟩
      have silent : state.send ⟨.register, name⟩ = { state with running := true } := by
        simp [send, refused]
      rw [silent]
      exact begun.moved i semlock state.names _ (fun name => ⟨nofun, nofun⟩)
        (inherits (by rw [here]; rfl))
  | registers name here sends =>
      constructor
      · refine forall_set_mem ?_ ?_
        · rintro _ ⟨⟩
          show name ∈ (state.send ⟨.register, name⟩).known
          unfold SemaphoreNames.known send
          rw [if_pos sends, List.foldl_concat]
          exact Finset.mem_insert_self _ _
        · intro other member name here
          exact mem_known_send (tracked.known other member name here) (.inr rfl)
      · refine forall_set_mem (fun name => nofun) ?_
        intro other member known retired lives
        refine forall_set_mem (fun holds => ?_) (tracked.retired other member known retired lives)
        have same : (NamingStage.registered name).held = semlock.stage.held := by rw [here]; rfl
        have dead := inherits same known holds other member retired
        exact absurd (dead.symm.trans lives) nofun
  | unlinks name here =>
      constructor
      · exact forall_set_mem (fun name => nofun) tracked.known
      · refine forall_set_mem ?_ ?_
        · rintro _ ⟨⟩ _ other member holds
          -- nobody else has had the name
          obtain ⟨j, there⟩ := List.getElem?_of_mem member
          obtain ⟨rfl, rfl⟩ | ⟨different, there⟩ := getElem?_set_cases there
          · cases holds
          · exact different (sound.named.apart j i other semlock name there found holds
              (by rw [here]; rfl))
        · intro other member known retired lives
          exact forall_set_mem nofun (tracked.retired other member known retired lives)
  | unregisters name here =>
      have retired := tracked.retired semlock listed name here alive
      constructor
      · refine forall_set_mem (fun name => nofun) ?_
        intro other member known registered
        refine mem_known_send (tracked.known other member known registered) (.inl ?_)
        rintro rfl
        exact retired other member (by rw [registered]; rfl)
      · refine forall_set_mem (fun name => nofun) ?_
        intro other member known retired lives
        exact forall_set_mem nofun (tracked.retired other member known retired lives)

theorem Tracked.step (tracked : state.Tracked) (sound : state.Sound foreign)
    (unreused : state.Unreused action) (taken : SemaphoreNames.step state action = some next)
    (going : next.done = false) : next.Tracked := by
  obtain ⟨i, semlock, found, alive, turn⟩ | ⟨owner, unlinkNow, alive, rfl⟩ |
    ⟨process, _, goes⟩ | ⟨command, pipe, read, rfl⟩ | ⟨_, _, rfl⟩ := step_cases taken
  · exact tracked.turn sound found alive unreused turn
  · exact ⟨forall_concat nofun tracked.known,
      forall_concat nofun fun semlock member name here lives =>
        forall_concat nofun (tracked.retired semlock member name here lives)⟩
  · have older : ∀ semlock ∈ state.semlocks, next.isAlive semlock.owner = true →
        state.isAlive semlock.owner = true := by
      intro semlock member lives
      have inside := sound.owners semlock member
      have here := eq_of_beq lives
      obtain rfl | rfl | rfl := goes
      · rw [List.getElem?_append_left inside] at here
        exact beq_iff_eq.mpr here
      · obtain ⟨_, impossible⟩ | ⟨_, before⟩ := getElem?_set_cases here
        · cases impossible
        · exact beq_iff_eq.mpr before
      · exact lives
    obtain rfl | rfl | rfl := goes <;>
      exact ⟨tracked.known, fun semlock member name here lives =>
        tracked.retired semlock member name here (older semlock member lives)⟩
  · refine ⟨fun semlock member name here => ?_, tracked.retired⟩
    have known := tracked.known semlock member name here
    unfold SemaphoreNames.known at known
    rw [read] at known
    exact known
  · cases going

/-- While the tracker has work, the name of a `SemLock` in use is there for it alone, and never has
`sem_unlink` failed. -/
theorem stands (ran : run step (init foreign) labels = some last) :
    (∀ semlock ∈ last.semlocks, semlock.stage ≠ .failed) ∧
      (last.done = false → ∀ (i : Nat) semlock name, last.semlocks[i]? = some semlock →
        semlock.stage = .registered name → name ∈ last.names ∧ name ∉ foreign ∧
          ∀ (j : Nat) other, last.semlocks[j]? = some other → other.stage.held = some name →
            j = i) := by
  have kept : ∀ state action next,
      state.Sound foreign ∨ state.done = true ∧ state.alive.all (!·) = true ∧ state.pipe = [] ∧
        (∀ semlock ∈ state.semlocks, semlock.stage ≠ .failed) →
      step state action = some next →
      next.Sound foreign ∨ next.done = true ∧ next.alive.all (!·) = true ∧ next.pipe = [] ∧
        ∀ semlock ∈ next.semlocks, semlock.stage ≠ .failed := by
    rintro state action next (sound | ⟨done, dead, empty, _⟩) taken
    · obtain sound | ⟨dead, empty, rfl⟩ := sound.step taken
      · exact .inl sound
      · exact .inr ⟨rfl, dead, empty, sound.unfailed⟩
    · rw [step_done dead empty done] at taken
      cases taken
  obtain sound | ⟨done, _, _, unfailed⟩ := invariant_run kept (.inl (sound_init foreign)) ran
  · refine ⟨sound.unfailed, fun _ i semlock name found here => ?_⟩
    have holds : semlock.stage.held = some name := by rw [here]; rfl
    obtain ⟨member, strange⟩ := sound.named.held i semlock name found holds
    exact ⟨member, strange, fun j other there owns =>
      sound.named.apart j i other semlock name there found owns holds⟩
  · exact ⟨unfailed, fun going => absurd (going.symm.trans done) nofun⟩

/-- When the tracker is done, no name is left over but that of a semaphore whose process died
before it could tell the tracker, or could not tell it. -/
theorem leaves_untold (ran : run step (init foreign) labels = some last)
    (along : Along step Unreused (init foreign) labels) (done : last.done = true) :
    foreign ⊆ last.names ∧ ∀ name ∈ last.names, name ∉ foreign →
      ∃ semlock ∈ last.semlocks, semlock.stage = .opened name ∨ semlock.stage = .unsent name := by
  have kept : Preserves step Unreused fun state =>
      state.Sound foreign ∧ state.Tracked ∨ state.done = true ∧ state.alive.all (!·) = true ∧
        state.pipe = [] ∧ foreign ⊆ state.names ∧ ∀ name ∈ state.names, name ∉ foreign →
          ∃ semlock ∈ state.semlocks,
            semlock.stage = .opened name ∨ semlock.stage = .unsent name := by
    rintro state action next (⟨sound, tracked⟩ | ⟨done, dead, empty, _⟩) unreused taken
    · obtain after | ⟨dead, empty, rfl⟩ := sound.step taken
      · exact .inl ⟨after, tracked.step sound unreused taken after.going⟩
      · refine .inr ⟨rfl, dead, empty, ?_, ?_⟩
        · intro name member
          exact Finset.mem_sdiff.mpr ⟨sound.named.kept member, (sound.commands name member).1⟩
        · intro name member strange
          obtain ⟨there, unknown⟩ := Finset.mem_sdiff.mp member
          obtain ⟨semlock, listed, holds⟩ := sound.named.owned name there strange
          refine ⟨semlock, listed, ?_⟩
          cases stage : semlock.stage with
          | registered name =>
              rw [stage] at holds
              cases holds
              have known := tracked.known semlock listed _ stage
              unfold SemaphoreNames.known at known
              rw [empty] at known
              exact absurd known unknown
          | opened name =>
              rw [stage] at holds
              cases holds
              exact .inl rfl
          | unsent name =>
              rw [stage] at holds
              cases holds
              exact .inr rfl
          | _ =>
              rw [stage] at holds
              cases holds
    · rw [step_done dead empty done] at taken
      cases taken
  have start : (init foreign).Sound foreign ∧ (init foreign).Tracked :=
    ⟨sound_init foreign, nofun, nofun⟩
  obtain ⟨sound, _⟩ | ⟨_, _, _, holds⟩ := invariant_along kept (.inl start) along ran
  · exact absurd (sound.going.symm.trans done) nofun
  · exact holds

/-- One process dies between `sem_open` and `register`, another one with a lock in use; the locks
that were given back before have left nothing. -/
def bereaved : List NamingAction :=
  [.ensureRunning 0, .fork 0, .create 0 false, .open 0 ['a'], .open 0 ['b'], .proceed 0,
    .create 1 false, .open 1 ['b'], .open 1 ['c'], .create 1 true, .open 2 ['d'], .proceed 2,
    .kill 1, .proceed 0, .proceed 0, .create 0 false, .open 3 ['b'], .proceed 3, .kill 0, .track,
    .track, .track, .cleanUp]

theorem stands_bereaved :
    ∃ last, run step (init {['a']}) (bereaved.take 18) = some last ∧ ['b'] ∈ last.names := by
  have ran : run step (init {['a']}) (bereaved.take 18) = some _ := rfl
  exact ⟨_, ran, ((stands ran).2 rfl 3 ⟨0, false, .registered ['b']⟩ ['b'] rfl rfl).1⟩

theorem leaves_untold_bereaved :
    ∃ last, run step (init {['a']}) bereaved = some last ∧ ∃ semlock ∈ last.semlocks,
      semlock.stage = .opened ['c'] ∨ semlock.stage = .unsent ['c'] := by
  have ran : run step (init {['a']}) bereaved = some _ := rfl
  exact ⟨_, ran, (leaves_untold ran (by decide) rfl).2 ['c'] (by decide) (by decide)⟩

end SemaphoreNames

end Billiard
