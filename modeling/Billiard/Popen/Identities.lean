import Billiard.Data.Tally
import Billiard.Data.Transition
import Mathlib.Data.List.Basic
import Mathlib.Logic.Relation

/-! The process objects of a tree of processes: their identities, names and keys.  A process that
is forked has all objects of its parent. -/

namespace Billiard

open Relation Transition Tally

/-- What `_config` holds -/
structure ProcessConfig where
  daemon : Option Bool
  authkey : List UInt8
deriving DecidableEq, Repr

/-- `popen` is the process that has been started, by its place in the tree; `imported` tells that
the object has been created while a spawned process imported the main module. -/
structure ProcessEntry where
  identity : List Nat
  name : List Char
  config : ProcessConfig
  parentPid : Option Nat
  popen : Option Nat
  imported : Bool
deriving DecidableEq, Repr

/-- What an object is created with -/
structure ProcessArgs where
  typeName : List Char
  name : List Char
  daemon : Option Bool
deriving DecidableEq, Repr

/-- A spawned process imports the main module, which creates objects. -/
inductive Launch where
  | fork
  | spawn (created : List ProcessArgs)
deriving DecidableEq, Repr

/-- `current` is `_current_process`, `count` is what `_process_counter` gives next, and `objects`
are the other process objects of this process.  `parent` is a history. -/
structure FamilyProcess where
  pid : Nat
  parent : Option Nat
  alive : Bool
  current : ProcessEntry
  count : Nat
  objects : List ProcessEntry
deriving DecidableEq, Repr

structure ProcessFamily where
  processes : List FamilyProcess
deriving DecidableEq, Repr

inductive EntryChange where
  | setName (name : List Char)
  | setDaemon (daemonic : Bool)
  | setAuthkey (authkey : List UInt8)
deriving DecidableEq, Repr

/-- Each process object is told by its place, and the current one by `none`. -/
inductive FamilyAction where
  | create (process : Nat) (args : ProcessArgs)
  | start (process object pid : Nat) (launch : Launch)
  | change (process : Nat) (object : Option Nat) (change : EntryChange)
  | exit (process : Nat)
deriving DecidableEq, Repr

/-- `type(self).__name__ + '-' + ':'.join(str(i) for i in self._identity)` -/
def defaultName (typeName : List Char) (identity : List Nat) : List Char :=
  typeName ++ '-' :: [':'].intercalate (identity.map (Nat.toDigits 10))

/-- The setters -/
def EntryChange.apply (entry : ProcessEntry) : EntryChange → Option ProcessEntry
  | .setName name => some { entry with name }
  | .setDaemon daemonic =>
      if entry.popen = none then
        some { entry with config := { entry.config with daemon := some daemonic } }
      else none
  | .setAuthkey authkey => some { entry with config := { entry.config with authkey } }

namespace FamilyProcess

/-- `__init__` -/
def newEntry (process : FamilyProcess) (args : ProcessArgs) : ProcessEntry :=
  let identity := process.current.identity ++ [process.count]
  let config := process.current.config
  { identity
    name := if args.name = [] then defaultName args.typeName identity else args.name
    config := { config with daemon := args.daemon <|> config.daemon }
    parentPid := some process.pid
    popen := none
    imported := false }

def create (process : FamilyProcess) (args : ProcessArgs) : FamilyProcess :=
  { process with
    count := process.count + 1
    objects := process.objects ++ [process.newEntry args] }

/-- `_MainProcess()`, with the name and the key that `prepare` sets -/
def mainProcess (pid : Nat) (name : List Char) (authkey : List UInt8) : FamilyProcess :=
  ⟨pid, none, true, ⟨[], name, ⟨none, authkey⟩, none, none, false⟩, 1, []⟩

/-- The objects that a spawned process has when it has imported the main module: `_bootstrap`,
which sets the current process and the counter, comes later. -/
def importMain (process : FamilyProcess) (entry : ProcessEntry) (pid : Nat)
    (created : List ProcessArgs) : List ProcessEntry :=
  let main := mainProcess pid entry.name process.current.config.authkey
  (created.foldl create main).objects.map fun object => { object with imported := true }

/-- The process that `start` makes, after `_bootstrap` -/
def child (process : FamilyProcess) (place object : Nat) (entry : ProcessEntry) (pid : Nat)
    (launch : Launch) : FamilyProcess where
  pid
  parent := some place
  alive := true
  current := entry
  count := 1
  objects := match launch with
    | .fork => process.current :: process.objects.eraseIdx object
    | .spawn created => process.importMain entry pid created

def change (process : FamilyProcess) (object : Option Nat) (change : EntryChange) :
    Option FamilyProcess :=
  match object with
  | none => (change.apply process.current).map fun current => { process with current }
  | some k =>
      match process.objects[k]? with
      | none => none
      | some entry =>
          (change.apply entry).map fun entry =>
            { process with objects := process.objects.set k entry }

end FamilyProcess

namespace ProcessFamily

def init (pid : Nat) (authkey : List UInt8) : ProcessFamily :=
  ⟨[.mainProcess pid "MainProcess".toList authkey]⟩

/-- No process that is alive has the pid. -/
def unused (family : ProcessFamily) (pid : Nat) : Bool :=
  family.processes.all fun process => !(process.alive && process.pid == pid)

/-- `start` raises, and nothing is done, for an object that has been started or that has been
created by another process. -/
def start (family : ProcessFamily) (i : Nat) (process : FamilyProcess) (k pid : Nat)
    (launch : Launch) : Option ProcessFamily :=
  match process.objects[k]? with
  | none => none
  | some entry =>
      if entry.popen = none ∧ entry.parentPid = some process.pid ∧ family.unused pid then
        let popen := family.processes.length
        let started := { process with objects := process.objects.set k { entry with popen } }
        some ⟨family.processes.set i started ++ [process.child i k entry pid launch]⟩
      else none

/-- The process that is to make a step, which has to be alive -/
def acting (family : ProcessFamily) (i : Nat) : Option FamilyProcess :=
  match family.processes[i]? with
  | none => none
  | some process => if process.alive then some process else none

def step (family : ProcessFamily) : FamilyAction → Option ProcessFamily
  | .create i args =>
      (family.acting i).map fun process => ⟨family.processes.set i (process.create args)⟩
  | .start i k pid launch =>
      (family.acting i).bind fun process => family.start i process k pid launch
  | .change i object change =>
      (family.acting i).bind fun process =>
        (process.change object change).map fun changed => ⟨family.processes.set i changed⟩
  | .exit i =>
      (family.acting i).map fun process =>
        ⟨family.processes.set i { process with alive := false }⟩

/-- No process that is forked gets the pid of one that has created an object it inherits, and
none is started from an object that the main module has created when it was imported. -/
def Fresh (family : ProcessFamily) : FamilyAction → Prop
  | .start i k pid launch => ∀ process ∈ family.acting i,
      (∀ entry ∈ process.objects[k]?, entry.imported = false) ∧
        (launch = .fork → ∀ entry ∈ process.current :: process.objects,
          entry.parentPid ≠ some pid)
  | _ => True

instance (family : ProcessFamily) (action : FamilyAction) : Decidable (family.Fresh action) := by
  unfold Fresh
  split <;> infer_instance

/-- Nobody gives a name to a process. -/
def Unnamed (family : ProcessFamily) : FamilyAction → Prop
  | .create _ args => args.name = []
  | .change _ _ (.setName _) => False
  | .start i k pid (.spawn created) =>
      (∀ args ∈ created, args.name = []) ∧ family.Fresh (.start i k pid (.spawn created))
  | action => family.Fresh action

instance (family : ProcessFamily) (action : FamilyAction) : Decidable (family.Unnamed action) := by
  unfold Unnamed
  split <;> infer_instance

/-- Nobody sets a key. -/
def Keyless : FamilyAction → Prop
  | .change _ _ (.setAuthkey _) => False
  | _ => True

end ProcessFamily

variable {family next last : ProcessFamily} {process other : FamilyProcess}
  {entry found : ProcessEntry} {action : FamilyAction} {labels : List FamilyAction}
  {i j k : Nat}

/-- The process has created the object since `_bootstrap`, or has the pid of the one that has. -/
def FamilyProcess.Owns (process : FamilyProcess) (entry : ProcessEntry) : Prop :=
  entry.parentPid = some process.pid ∧ entry.imported = false

/-- The objects that a process has created have identities of their own; `size` bounds the places
of the processes that have been started from them. -/
structure FamilyProcess.Orderly (size : Nat) (process : FamilyProcess) : Prop where
  own : ∀ entry ∈ process.objects, process.Owns entry →
    ∃ n < process.count, entry.identity = process.current.identity ++ [n]
  apart : ∀ (k l : Nat) entry other, process.objects[k]? = some entry →
    process.objects[l]? = some other → process.Owns entry → process.Owns other →
      entry.identity = other.identity → k = l
  children : ∀ entry ∈ process.objects, process.Owns entry →
    ∀ j, entry.popen = some j → j < size

namespace FamilyProcess.Orderly

variable {size : Nat}

theorem mono (orderly : process.Orderly size) : process.Orderly (size + 1) :=
  ⟨orderly.own, orderly.apart, fun entry listed owns j popen =>
    Nat.lt_succ_of_lt (orderly.children entry listed owns j popen)⟩

theorem set (orderly : process.Orderly size) (here : process.objects[k]? = some entry)
    (identity : found.identity = entry.identity)
    (creator : ∀ process : FamilyProcess, process.Owns found ↔ process.Owns entry)
    (child : process.Owns found → ∀ j, found.popen = some j → j < size) :
    FamilyProcess.Orderly size { process with objects := process.objects.set k found } := by
  have before : ∀ {l : Nat} {new : ProcessEntry}, (process.objects.set k found)[l]? = some new →
      ∃ old, process.objects[l]? = some old ∧ new.identity = old.identity ∧
        (process.Owns new → process.Owns old) := by
    intro l new there
    obtain ⟨rfl, rfl⟩ | ⟨_, there⟩ := getElem?_set_cases there
    · exact ⟨entry, here, identity, (creator process).mp⟩
    · exact ⟨new, there, rfl, id⟩
  refine ⟨fun new member owns => ?_, fun l m one two place beside owns others told => ?_,
    fun new member owns => ?_⟩
  · obtain ⟨l, place⟩ := List.getElem?_of_mem member
    obtain ⟨old, there, same, parent⟩ := before place
    rw [same]
    exact orderly.own old (List.mem_of_getElem? there) (parent owns)
  · obtain ⟨old, there, same, parent⟩ := before place
    obtain ⟨mate, away, equal, creator⟩ := before beside
    exact orderly.apart l m old mate there away (parent owns) (creator others)
      (same.symm.trans (told.trans equal))
  · obtain old | rfl := List.mem_or_eq_of_mem_set member
    · exact orderly.children new old owns
    · exact child owns

theorem create (orderly : process.Orderly size) (args : ProcessArgs) :
    (process.create args).Orderly size := by
  have fresh : ∀ entry ∈ process.objects, process.Owns entry →
      entry.identity ≠ process.current.identity ++ [process.count] := by
    intro entry listed owns told
    obtain ⟨n, low, same⟩ := orderly.own entry listed owns
    have equal := List.append_cancel_left (same.symm.trans told)
    exact Nat.ne_of_lt low (List.singleton_inj.mp equal)
  refine ⟨fun entry member owns => ?_, fun k l one two here there owns others told => ?_,
    fun entry member owns => ?_⟩
  · obtain listed | same := List.mem_append.mp member
    · obtain ⟨n, low, same⟩ := orderly.own entry listed owns
      exact ⟨n, Nat.lt_succ_of_lt low, same⟩
    · rw [List.mem_singleton.mp same]
      exact ⟨process.count, Nat.lt_succ_self _, rfl⟩
  · obtain here | ⟨rfl, rfl⟩ := getElem?_concat_cases here
    · obtain there | ⟨rfl, rfl⟩ := getElem?_concat_cases there
      · exact orderly.apart k l one two here there owns others told
      · exact absurd told (fresh one (List.mem_of_getElem? here) owns)
    · obtain there | ⟨rfl, rfl⟩ := getElem?_concat_cases there
      · exact absurd told.symm (fresh two (List.mem_of_getElem? there) others)
      · rfl
  · obtain listed | same := List.mem_append.mp member
    · exact orderly.children entry listed owns
    · rw [List.mem_singleton.mp same]
      exact nofun

end FamilyProcess.Orderly

/-- No setter changes what an object is. -/
theorem EntryChange.apply_same {change : EntryChange} (applied : change.apply entry = some found) :
    found.identity = entry.identity ∧
      (∀ process : FamilyProcess, process.Owns found ↔ process.Owns entry) ∧
        found.popen = entry.popen := by
  cases change with
  | setName name =>
      cases applied
      exact ⟨rfl, fun _ => Iff.rfl, rfl⟩
  | setAuthkey authkey =>
      cases applied
      exact ⟨rfl, fun _ => Iff.rfl, rfl⟩
  | setDaemon daemonic =>
      simp only [apply] at applied
      split at applied
      · cases applied
        exact ⟨rfl, fun _ => Iff.rfl, rfl⟩
      · cases applied

namespace ProcessFamily

/-- The process at `j` is the first one or has been started from an object that its parent has
created. -/
def Started (processes : List FamilyProcess) (j : Nat) (process : FamilyProcess) : Prop :=
  (j = 0 ∧ process.parent = none ∧ process.current.identity = []) ∨
    ∃ (i : Nat) (parent : FamilyProcess), processes[i]? = some parent ∧ i < j ∧
      process.parent = some i ∧ ∃ entry ∈ parent.objects, parent.Owns entry ∧
        entry.popen = some j ∧ entry.identity = process.current.identity

structure Sound (size : Nat) (processes : List FamilyProcess) : Prop where
  orderly : ∀ process ∈ processes, process.Orderly size
  started : ∀ (j : Nat) process, processes[j]? = some process → Started processes j process
  distinct : ∀ (i j : Nat) left right, processes[i]? = some left → processes[j]? = some right →
    left.current.identity = right.current.identity → i = j

/-- A process that goes on, with what it has started -/
structure Same (process other : FamilyProcess) : Prop where
  pid : other.pid = process.pid
  parent : other.parent = process.parent
  identity : other.current.identity = process.current.identity
  old : ∀ entry ∈ process.objects, ∀ j, entry.popen = some j →
    ∃ new ∈ other.objects, new.identity = entry.identity ∧
      (∀ process : FamilyProcess, process.Owns new ↔ process.Owns entry) ∧ new.popen = some j

theorem Started.set {processes : List FamilyProcess} {child : FamilyProcess}
    (started : Started processes j child) (found : processes[i]? = some process)
    (same : Same process other) : Started (processes.set i other) j child := by
  obtain first | ⟨k, parent, here, before, after, entry, listed, owns, popen, identity⟩ := started
  · exact .inl first
  · by_cases place : i = k
    · subst place
      cases found.symm.trans here
      obtain ⟨new, stays, told, creator, starts⟩ := same.old entry listed j popen
      refine .inr ⟨i, other, getElem?_set_found found _, before, after, new, stays, ?_, starts,
        told.trans identity⟩
      obtain ⟨parent, made⟩ := (creator process).mpr owns
      exact ⟨parent.trans (congrArg some same.pid.symm), made⟩
    · exact .inr ⟨k, parent, (List.getElem?_set_ne place).trans here, before, after, entry, listed,
        owns, popen, identity⟩

variable {size : Nat} {processes : List FamilyProcess}

theorem Sound.set (sound : Sound size processes) (found : processes[i]? = some process)
    (orderly : other.Orderly size) (same : Same process other) :
    Sound size (processes.set i other) := by
  have before : ∀ {j : Nat} {new : FamilyProcess}, (processes.set i other)[j]? = some new →
      ∃ old, processes[j]? = some old ∧ new.parent = old.parent ∧
        new.current.identity = old.current.identity := by
    intro j new here
    obtain ⟨rfl, rfl⟩ | ⟨_, here⟩ := getElem?_set_cases here
    · exact ⟨process, found, same.parent, same.identity⟩
    · exact ⟨new, here, rfl, rfl⟩
  refine ⟨fun new member => ?_, fun j new here => ?_, fun j k left right here there told => ?_⟩
  · obtain old | rfl := List.mem_or_eq_of_mem_set member
    · exact sound.orderly new old
    · exact orderly
  · obtain ⟨old, place, parent, identity⟩ := before here
    have started := (sound.started j old place).set found same
    unfold Started at started ⊢
    rw [parent, identity]
    exact started
  · obtain ⟨one, place, _, identity⟩ := before here
    obtain ⟨two, beside, _, others⟩ := before there
    exact sound.distinct j k one two place beside (identity.symm.trans (told.trans others))

theorem Started.append {child : FamilyProcess} (started : Started processes j child)
    (more : List FamilyProcess) : Started (processes ++ more) j child := by
  obtain first | ⟨i, parent, here, rest⟩ := started
  · exact .inl first
  · exact .inr ⟨i, parent, List.getElem?_append_left
      (List.getElem?_eq_some_iff.mp here).1 |>.trans here, rest⟩

theorem Sound.append (sound : Sound size processes) (orderly : other.Orderly size)
    (started : Started processes processes.length other)
    (fresh : ∀ process ∈ processes, process.current.identity ≠ other.current.identity) :
    Sound size (processes ++ [other]) := by
  refine ⟨fun new member => ?_, fun j new here => ?_, fun j k left right here there told => ?_⟩
  · obtain old | same := List.mem_append.mp member
    · exact sound.orderly new old
    · rw [List.mem_singleton.mp same]
      exact orderly
  · obtain here | ⟨rfl, rfl⟩ := getElem?_concat_cases here
    · exact (sound.started j new here).append _
    · exact started.append _
  · obtain left | ⟨rfl, rfl⟩ := getElem?_concat_cases here
    · obtain right | ⟨rfl, rfl⟩ := getElem?_concat_cases there
      · exact sound.distinct j k _ _ left right told
      · exact absurd told (fresh _ (List.mem_of_getElem? left))
    · obtain right | ⟨rfl, rfl⟩ := getElem?_concat_cases there
      · exact absurd told.symm (fresh _ (List.mem_of_getElem? right))
      · rfl

theorem Same.set (here : process.objects[k]? = some entry)
    (identity : found.identity = entry.identity)
    (creator : ∀ process : FamilyProcess, process.Owns found ↔ process.Owns entry)
    (child : ∀ j, entry.popen = some j → found.popen = some j) :
    Same process { process with objects := process.objects.set k found } := by
  refine ⟨rfl, rfl, rfl, fun old listed j popen => ?_⟩
  obtain ⟨l, there⟩ := List.getElem?_of_mem listed
  by_cases place : k = l
  · subst place
    cases here.symm.trans there
    exact ⟨found, List.mem_of_getElem? (getElem?_set_found here found), identity, creator,
      child j popen⟩
  · exact ⟨old, List.mem_of_getElem? ((List.getElem?_set_ne place).trans there), rfl,
      fun _ => Iff.rfl, popen⟩

theorem Same.create (process : FamilyProcess) (args : ProcessArgs) :
    Same process (process.create args) :=
  ⟨rfl, rfl, rfl, fun entry listed _ popen =>
    ⟨entry, List.mem_append_left _ listed, rfl, fun _ => Iff.rfl, popen⟩⟩

theorem change_kept (orderly : process.Orderly size) {object : Option Nat} {change : EntryChange}
    (changed : process.change object change = some other) :
    other.Orderly size ∧ Same process other := by
  cases object with
  | none =>
      obtain ⟨current, applied, rfl⟩ := Option.map_eq_some_iff.mp changed
      obtain ⟨identity, _, _⟩ := change.apply_same applied
      refine ⟨⟨?_, orderly.apart, orderly.children⟩, rfl, rfl, identity, ?_⟩
      · rw [identity]
        exact orderly.own
      · exact fun entry listed _ popen => ⟨entry, listed, rfl, fun _ => Iff.rfl, popen⟩
  | some k =>
      simp only [FamilyProcess.change] at changed
      split at changed
      · cases changed
      · rename_i entry here
        obtain ⟨new, applied, rfl⟩ := Option.map_eq_some_iff.mp changed
        obtain ⟨identity, creator, popen⟩ := change.apply_same applied
        refine ⟨orderly.set here identity creator fun owns j starts => ?_,
          Same.set here identity creator fun j starts => popen.trans starts⟩
        exact orderly.children entry (List.mem_of_getElem? here) ((creator process).mp owns) j
          (popen.symm.trans starts)

/-- No process has the identity of an object that has not been started by who created it. -/
theorem Sound.unstarted (sound : Sound size processes) (found : processes[i]? = some process)
    (here : process.objects[k]? = some entry) (owns : process.Owns entry)
    (unstarted : entry.popen = none) :
    ∀ other ∈ processes, other.current.identity ≠ entry.identity := by
  intro other member told
  obtain ⟨j, place⟩ := List.getElem?_of_mem member
  have orderly := sound.orderly process (List.mem_of_getElem? found)
  obtain ⟨n, _, identity⟩ := orderly.own entry (List.mem_of_getElem? here) owns
  obtain ⟨_, _, empty⟩ | ⟨l, parent, there, _, _, mate, listed, creates, popen, same⟩ :=
    sound.started j other place
  · rw [told, identity] at empty
    exact List.append_ne_nil_of_right_ne_nil _ (List.cons_ne_nil _ _) empty
  · obtain ⟨m, _, named⟩ :=
      (sound.orderly parent (List.mem_of_getElem? there)).own mate listed creates
    -- the parents have one identity, so they are one process
    have parents : parent.current.identity = process.current.identity := by
      have equal := named.symm.trans (same.trans (told.trans identity))
      exact (List.append_inj' equal rfl).1
    obtain rfl := sound.distinct l i parent process there found parents
    cases there.symm.trans found
    obtain ⟨o, beside⟩ := List.getElem?_of_mem listed
    obtain rfl := orderly.apart o k mate entry beside here creates owns (same.trans told)
    cases beside.symm.trans here
    cases unstarted.symm.trans popen

theorem inherited {pid : Nat} (member : found ∈ (process.child i k entry pid .fork).objects) :
    found ∈ process.current :: process.objects := by
  obtain rfl | rest := List.mem_cons.mp member
  · exact List.mem_cons_self ..
  · exact List.mem_cons_of_mem _ (List.mem_of_mem_eraseIdx rest)

theorem mem_foldl_create {created : List ProcessArgs}
    (member : found ∈ (created.foldl FamilyProcess.create process).objects) :
    found ∈ process.objects ∨ ∃ args ∈ created, ∃ before : FamilyProcess,
      before.current = process.current ∧ found = before.newEntry args := by
  induction created generalizing process with
  | nil => exact .inl member
  | cons args created ih =>
      obtain old | ⟨later, listed, before, same, rfl⟩ := ih member
      · obtain old | new := List.mem_append.mp old
        · exact .inl old
        · exact .inr ⟨args, List.mem_cons_self .., process, rfl, List.mem_singleton.mp new⟩
      · exact .inr ⟨later, List.mem_cons_of_mem _ listed, before, same, rfl⟩

theorem mem_importMain {pid : Nat} {created : List ProcessArgs}
    (member : found ∈ process.importMain entry pid created) :
    ∃ args ∈ created, ∃ before : FamilyProcess,
      before.current.config.authkey = process.current.config.authkey ∧
        found = { before.newEntry args with imported := true } := by
  obtain ⟨object, listed, rfl⟩ := List.mem_map.mp member
  obtain old | ⟨args, given, before, same, rfl⟩ := mem_foldl_create listed
  · cases old
  · exact ⟨args, given, before, congrArg (·.config.authkey) same, rfl⟩

/-- What a forked process inherits is not its own, and what a spawned one has imported neither. -/
theorem child_orderly {pid : Nat} {launch : Launch}
    (fresh : launch = .fork → ∀ entry ∈ process.current :: process.objects,
      entry.parentPid ≠ some pid) :
    (process.child i k entry pid launch).Orderly size := by
  have strange : ∀ old ∈ (process.child i k entry pid launch).objects,
      ¬(process.child i k entry pid launch).Owns old := by
    rintro old member ⟨parent, made⟩
    cases launch with
    | spawn created =>
        obtain ⟨object, _, rfl⟩ := List.mem_map.mp member
        cases made
    | fork => exact fresh rfl old (inherited member) parent
  exact ⟨fun old member owns => absurd owns (strange old member),
    fun l m one two here _ owns => absurd owns (strange one (List.mem_of_getElem? here)),
    fun old member owns => absurd owns (strange old member)⟩

theorem Sound.start (sound : Sound family.processes.length family.processes)
    (found : family.processes[i]? = some process) {pid : Nat} {launch : Launch}
    (made : ∀ entry ∈ process.objects[k]?, entry.imported = false)
    (fresh : launch = .fork → ∀ entry ∈ process.current :: process.objects,
      entry.parentPid ≠ some pid)
    (taken : family.start i process k pid launch = some next) :
    Sound next.processes.length next.processes := by
  unfold ProcessFamily.start at taken
  split at taken
  · cases taken
  · rename_i entry here
    split at taken
    · rename_i ready
      obtain ⟨unstarted, creator, _⟩ := ready
      have owns : process.Owns entry := ⟨creator, made entry here⟩
      cases taken
      have orderly := sound.orderly process (List.mem_of_getElem? found)
      have larger : Sound (family.processes.length + 1) family.processes :=
        ⟨fun old member => (sound.orderly old member).mono, sound.started, sound.distinct⟩
      let started := { process with
        objects := process.objects.set k { entry with popen := some family.processes.length } }
      have kept : Same process started :=
        Same.set here rfl (fun _ => Iff.rfl) fun j starts => by cases unstarted.symm.trans starts
      have settled : started.Orderly (family.processes.length + 1) :=
        orderly.mono.set here rfl (fun _ => Iff.rfl) fun _ _ same => by
          cases same
          exact Nat.lt_succ_self _
      have goes := larger.set found settled kept
      rw [List.length_append, List.length_set, List.length_singleton]
      refine goes.append (child_orderly fresh) ?_ ?_
      · rw [List.length_set]
        refine .inr ⟨i, started, getElem?_set_found found _,
          (List.getElem?_eq_some_iff.mp found).1, rfl, _,
          List.mem_of_getElem? (getElem?_set_found here _), owns, rfl, rfl⟩
      · intro old member
        obtain listed | rfl := List.mem_or_eq_of_mem_set member
        · exact sound.unstarted found here owns unstarted old listed
        · exact sound.unstarted found here owns unstarted process (List.mem_of_getElem? found)
    · cases taken

theorem acting_eq_some (found : family.acting i = some process) :
    family.processes[i]? = some process := by
  unfold acting at found
  split at found
  · cases found
  · rename_i process here
    split at found
    · cases found
      exact here
    · cases found

theorem Sound.step (sound : Sound family.processes.length family.processes)
    (fresh : family.Fresh action) (taken : step family action = some next) :
    Sound next.processes.length next.processes := by
  cases action with
  | create i args =>
      obtain ⟨process, acts, rfl⟩ := Option.map_eq_some_iff.mp taken
      have found := acting_eq_some acts
      have orderly := sound.orderly process (List.mem_of_getElem? found)
      rw [List.length_set]
      exact sound.set found (orderly.create args) (Same.create ..)
  | start i k pid launch =>
      obtain ⟨process, acts, taken⟩ := Option.bind_eq_some_iff.mp taken
      obtain ⟨made, strange⟩ := fresh process acts
      exact sound.start (acting_eq_some acts) made strange taken
  | change i object change =>
      obtain ⟨process, acts, taken⟩ := Option.bind_eq_some_iff.mp taken
      obtain ⟨other, changed, rfl⟩ := Option.map_eq_some_iff.mp taken
      have found := acting_eq_some acts
      obtain ⟨orderly, same⟩ :=
        change_kept (sound.orderly process (List.mem_of_getElem? found)) changed
      rw [List.length_set]
      exact sound.set found orderly same
  | exit i =>
      obtain ⟨process, acts, rfl⟩ := Option.map_eq_some_iff.mp taken
      have found := acting_eq_some acts
      obtain ⟨own, apart, children⟩ := sound.orderly process (List.mem_of_getElem? found)
      rw [List.length_set]
      exact sound.set found ⟨own, apart, children⟩
        ⟨rfl, rfl, rfl, fun entry listed _ popen =>
          ⟨entry, listed, rfl, fun _ => Iff.rfl, popen⟩⟩

theorem sound_init (pid : Nat) (authkey : List UInt8) :
    Sound (init pid authkey).processes.length (init pid authkey).processes := by
  have only : ∀ {j : Nat} {process : FamilyProcess}, (init pid authkey).processes[j]? =
      some process → j = 0 ∧ process = .mainProcess pid "MainProcess".toList authkey := by
    rintro (_ | j) process ⟨⟩
    exact ⟨rfl, rfl⟩
  refine ⟨fun process member => ?_, fun j process here => ?_, fun j k left right here there _ => ?_⟩
  · rw [List.mem_singleton.mp member]
    exact ⟨nofun, nofun, nofun⟩
  · obtain ⟨rfl, rfl⟩ := only here
    exact .inl ⟨rfl, rfl, rfl⟩
  · rw [(only here).1, (only there).1]

/-- A child has the identity of its parent and a number. -/
theorem Sound.parent (sound : Sound family.processes.length family.processes)
    (here : family.processes[j]? = some process) (of : process.parent = some i) :
    i < j ∧ ∃ parent n, family.processes[i]? = some parent ∧
      process.current.identity = parent.current.identity ++ [n] := by
  obtain ⟨_, none, _⟩ | ⟨k, parent, there, before, same, entry, listed, owns, _, identity⟩ :=
    sound.started j process here
  · cases none.symm.trans of
  · cases of.symm.trans same
    obtain ⟨n, _, named⟩ :=
      (sound.orderly parent (List.mem_of_getElem? there)).own entry listed owns
    exact ⟨before, parent, n, there, identity.symm.trans named⟩

variable {pid : Nat} {authkey : List UInt8}

/-- A process with the pid of its grandparent starts what that one has created. -/
example : ∃ last, run step (init 10 [7]) [.create 0 ⟨['W'], [], none⟩, .create 0 ⟨['W'], [], none⟩,
    .start 0 0 11 .fork, .start 0 1 12 (.spawn []), .exit 0, .create 1 ⟨['W'], [], none⟩,
    .start 1 2 10 .fork, .start 3 2 13 (.spawn [])] = some last ∧
      ¬(last.processes.map (·.current.identity)).Nodup :=
  ⟨_, rfl, by decide⟩

/-- A spawned process starts what the main module has created when it was imported. -/
example : ∃ last, run step (init 10 [7]) [.create 0 ⟨['W'], [], none⟩,
    .start 0 0 11 (.spawn [⟨['W'], [], none⟩]), .start 1 0 12 .fork] = some last ∧
      ¬(last.processes.map (·.current.identity)).Nodup :=
  ⟨_, rfl, by decide⟩

/-- What is true of all process objects in all processes -/
def Every (holds : ProcessEntry → Prop) (family : ProcessFamily) : Prop :=
  ∀ process ∈ family.processes, ∀ entry ∈ process.current :: process.objects, holds entry

theorem Every.set {holds : ProcessEntry → Prop} (every : Every holds ⟨processes⟩)
    (mine : ∀ entry ∈ other.current :: other.objects, holds entry) :
    Every holds ⟨processes.set i other⟩ := by
  intro process member
  obtain old | rfl := List.mem_or_eq_of_mem_set member
  · exact every process old
  · exact mine

theorem Every.step {holds : ProcessEntry → Prop} (every : Every holds family)
    (started : ∀ entry popen, holds entry → holds { entry with popen })
    (created : ∀ i args (process : FamilyProcess), action = .create i args →
      holds process.current → holds (process.newEntry args))
    (imported : ∀ i k pid created (process : FamilyProcess) (old : ProcessEntry),
      action = .start i k pid (.spawn created) → holds process.current →
        ∀ new ∈ process.importMain old pid created, holds new)
    (changed : ∀ i object (change : EntryChange) entry new, action = .change i object change →
      holds entry → change.apply entry = some new → holds new)
    (taken : ProcessFamily.step family action = some next) : Every holds next := by
  cases action with
  | create i args =>
      obtain ⟨process, acts, rfl⟩ := Option.map_eq_some_iff.mp taken
      have mine := every process (List.mem_of_getElem? (acting_eq_some acts))
      refine every.set fun entry member => ?_
      obtain rfl | member := List.mem_cons.mp member
      · exact mine _ (List.mem_cons_self ..)
      · obtain old | same := List.mem_append.mp member
        · exact mine entry (List.mem_cons_of_mem _ old)
        · rw [List.mem_singleton.mp same]
          exact created i args process rfl (mine _ (List.mem_cons_self ..))
  | start i k pid launch =>
      obtain ⟨process, acts, taken⟩ := Option.bind_eq_some_iff.mp taken
      have mine := every process (List.mem_of_getElem? (acting_eq_some acts))
      unfold ProcessFamily.start at taken
      split at taken
      · cases taken
      · rename_i entry here
        have own := mine entry (List.mem_cons_of_mem _ (List.mem_of_getElem? here))
        split at taken
        · cases taken
          intro new member
          obtain old | same := List.mem_append.mp member
          · refine every.set (fun entry member => ?_) new old
            obtain rfl | member := List.mem_cons.mp member
            · exact mine _ (List.mem_cons_self ..)
            · obtain stays | rfl := List.mem_or_eq_of_mem_set member
              · exact mine entry (List.mem_cons_of_mem _ stays)
              · exact started _ _ own
          · rw [List.mem_singleton.mp same]
            intro entry member
            obtain rfl | member := List.mem_cons.mp member
            · exact own
            · cases launch with
              | fork => exact mine entry (inherited member)
              | spawn objects =>
                  exact imported i k pid objects process _ rfl (mine _ (List.mem_cons_self ..))
                    entry member
        · cases taken
  | change i object change =>
      obtain ⟨process, acts, taken⟩ := Option.bind_eq_some_iff.mp taken
      obtain ⟨other, goes, rfl⟩ := Option.map_eq_some_iff.mp taken
      have mine := every process (List.mem_of_getElem? (acting_eq_some acts))
      refine every.set fun entry member => ?_
      cases object with
      | none =>
          obtain ⟨current, applied, rfl⟩ := Option.map_eq_some_iff.mp goes
          obtain rfl | member := List.mem_cons.mp member
          · exact changed i none change _ _ rfl (mine _ (List.mem_cons_self ..)) applied
          · exact mine entry (List.mem_cons_of_mem _ member)
      | some k =>
          simp only [FamilyProcess.change] at goes
          split at goes
          · cases goes
          · rename_i old here
            obtain ⟨new, applied, rfl⟩ := Option.map_eq_some_iff.mp goes
            obtain rfl | member := List.mem_cons.mp member
            · exact mine _ (List.mem_cons_self ..)
            · obtain stays | rfl := List.mem_or_eq_of_mem_set member
              · exact mine entry (List.mem_cons_of_mem _ stays)
              · exact changed i (some k) change old entry rfl
                  (mine old (List.mem_cons_of_mem _ (List.mem_of_getElem? here))) applied
  | exit i =>
      obtain ⟨process, acts, rfl⟩ := Option.map_eq_some_iff.mp taken
      exact every.set (every process (List.mem_of_getElem? (acting_eq_some acts)))

end ProcessFamily

namespace ProcessFamily

theorem Unnamed.fresh (unnamed : family.Unnamed action) : family.Fresh action := by
  unfold Unnamed at unnamed
  split at unnamed
  · trivial
  · trivial
  · exact unnamed.2
  · exact unnamed

/-- An object has the name that it gets where none is given. -/
def Named (entry : ProcessEntry) : Prop :=
  (entry.identity = [] ∧ entry.name = "MainProcess".toList) ∨
    entry.identity ≠ [] ∧ ∃ typeName, entry.name = defaultName typeName entry.identity

/-- Where nobody sets a key, all have the one of the first process. -/
theorem keys_agree (ran : run step (init pid authkey) labels = some last)
    (along : Along step (fun _ => Keyless) (init pid authkey) labels) :
    Every (·.config.authkey = authkey) last := by
  have kept : Preserves step (fun _ => Keyless) (Every (·.config.authkey = authkey)) := by
    intro family action next every keyless taken
    refine every.step (fun _ _ holds => holds) (fun _ _ _ _ holds => holds) ?_ ?_ taken
    · rintro i k pid created process old rfl holds new member
      obtain ⟨args, _, before, same, rfl⟩ := mem_importMain member
      exact same.trans holds
    rintro i object change entry new rfl holds applied
    cases change with
    | setName name =>
        cases applied
        exact holds
    | setAuthkey authkey => exact absurd keyless id
    | setDaemon daemonic =>
        simp only [EntryChange.apply] at applied
        split at applied
        · cases applied
          exact holds
        · cases applied
  refine invariant_along kept (fun process member entry listed => ?_) along ran
  rw [List.mem_singleton.mp member] at listed
  rw [List.mem_singleton.mp listed]
  rfl

end ProcessFamily

end Billiard
