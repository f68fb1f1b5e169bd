import Billiard.Data.History
import Billiard.Popen.Exitcode

/-! A process object and the `Popen` of the method `fork` it starts, in the process that
created it. -/

namespace Billiard

inductive ProcessError where
  | valueError
  | assertionError
  | attributeError
  | typeError
  | osError
deriving DecidableEq, Repr

inductive WaitFlag where
  | wnohang
  | block
deriving DecidableEq, Repr

/-- What `os.waitpid` answers; a call that a signal interrupts is made again. `failed` is
any other error, as when somebody else has reaped the child. -/
inductive WaitAnswer where
  | eintr (again : WaitAnswer)
  | failed
  | running
  | ended (sts : Nat)
deriving DecidableEq, Repr

inductive KillAnswer where
  | sent
  | noProcess
  | failed
deriving DecidableEq, Repr

/-- What the operating system answers in one call of an operation. -/
structure OsAnswers where
  forked : Bool
  ready : Bool
  waitpid : WaitFlag → WaitAnswer
  kill : KillAnswer
  shut : Bool

/-- What is done with the descriptor of a sentinel. -/
inductive SentinelUse where
  | waited (sentinel : Nat)
  | closed (sentinel : Nat)
deriving DecidableEq, Repr

def SentinelUse.sentinel : SentinelUse → Nat
  | .waited sentinel | .closed sentinel => sentinel

def SentinelUse.Lawful (before : List SentinelUse) (use : SentinelUse) : Prop :=
  .closed use.sentinel ∉ before

def Fork.wifexited (sts : Nat) : Bool := wtermsig sts == 0

/-- The loop of `poll` and what follows it. -/
def WaitAnswer.status : WaitAnswer → Except ProcessError (Option Int)
  | .eintr again => again.status
  | .failed | .running => .ok none
  | .ended sts =>
      if Fork.wifsignaled sts || Fork.wifexited sts then .ok (some (Fork.returncode sts))
      else .error .assertionError

structure ForkPopen where
  returncode : Option Int
  sentinel : Option Nat
deriving DecidableEq, Repr

/-- What a method of a `Popen` leaves, does with the sentinel and returns. -/
structure PopenEffect where
  popen : ForkPopen
  use : Option SentinelUse
  result : Except ProcessError (Option Int)

namespace ForkPopen

def poll (popen : ForkPopen) (os : OsAnswers) (flag : WaitFlag) : PopenEffect :=
  match popen.returncode with
  | some status => ⟨popen, none, .ok (some status)⟩
  | none =>
      match (os.waitpid flag).status with
      | .ok status => ⟨{ popen with returncode := status }, none, .ok status⟩
      | .error exc => ⟨popen, none, .error exc⟩

def wait (popen : ForkPopen) (os : OsAnswers) (timeout : Option Rat) : PopenEffect :=
  match popen.returncode with
  | some status => ⟨popen, none, .ok (some status)⟩
  | none =>
      match timeout with
      | none => popen.poll os .block
      | some timeout =>
          match popen.sentinel with
          | none => ⟨popen, none, .error .typeError⟩
          | some sentinel =>
              let flag := if timeout = 0 then .wnohang else .block
              if os.ready then { popen.poll os flag with use := some (.waited sentinel) }
              else ⟨popen, some (.waited sentinel), .ok none⟩

def terminate (popen : ForkPopen) (os : OsAnswers) : PopenEffect :=
  match popen.returncode, os.kill with
  | some _, _ | none, .sent | none, .noProcess => ⟨popen, none, .ok none⟩
  | none, .failed =>
      match popen.wait os (some (1 / 10)) with
      | ⟨popen, use, .ok none⟩ => ⟨popen, use, .error .osError⟩
      | effect => effect

def close (popen : ForkPopen) (os : OsAnswers) : PopenEffect :=
  match popen.sentinel with
  | none => ⟨popen, none, .ok none⟩
  | some sentinel =>
      let result := if os.shut then .ok none else .error .osError
      ⟨{ popen with sentinel := none }, some (.closed sentinel), result⟩

end ForkPopen

/-- `sentinel` is the attribute `_sentinel`, `listed` tells whether the object is in
`_children`. `launches` counts the descriptors it had, `uses` is what was done with them. -/
structure ProcessObject where
  popen : Option ForkPopen
  closed : Bool
  sentinel : Option Nat
  listed : Bool
  launches : Nat
  uses : List SentinelUse
deriving DecidableEq, Repr

/-- `activeChildren` is also what the start of another process does with this object. -/
inductive ProcessCall where
  | start
  | join (timeout : Option Rat)
  | isAlive
  | exitcode
  | activeChildren
  | terminate
  | close
deriving DecidableEq

inductive ProcessReply where
  | done
  | status (returncode : Option Int)
  | alive (alive : Bool)
  | children (listed : Bool)
deriving DecidableEq, Repr

namespace ProcessObject

def new : ProcessObject := ⟨none, false, none, false, 0, []⟩

def keep (process : ProcessObject) (effect : PopenEffect) : ProcessObject :=
  { process with popen := some effect.popen, uses := process.uses ++ effect.use.toList }

def start (process : ProcessObject) (os : OsAnswers) :
    ProcessObject × Except ProcessError ProcessReply :=
  if process.closed then (process, .error .valueError)
  else if process.popen.isSome then (process, .error .assertionError)
  else if os.forked then
    let sentinel := process.launches
    ({ process with
        popen := some ⟨none, some sentinel⟩, sentinel := some sentinel, listed := true,
        launches := process.launches + 1 }, .ok .done)
  else (process, .error .osError)

def close (process : ProcessObject) (os : OsAnswers) :
    ProcessObject × Except ProcessError ProcessReply :=
  match process.popen with
  | none => ({ process with closed := true }, .ok .done)
  | some popen =>
      let polled := popen.poll os .wnohang
      let process := process.keep polled
      match polled.result with
      | .error exc => (process, .error exc)
      | .ok none => (process, .error .valueError)
      | .ok (some _) =>
          let shut := polled.popen.close os
          let process := process.keep shut
          match shut.result, process.sentinel with
          | .error exc, _ => (process, .error exc)
          | .ok _, none => ({ process with popen := none }, .error .attributeError)
          | .ok _, some _ =>
              ({ process with popen := none, sentinel := none, listed := false, closed := true },
                .ok .done)

def terminate (process : ProcessObject) (os : OsAnswers) :
    ProcessObject × Except ProcessError ProcessReply :=
  if process.closed then (process, .error .valueError)
  else
    match process.popen with
    | none => (process, .error .attributeError)
    | some popen =>
        let effect := popen.terminate os
        (process.keep effect, effect.result.map fun _ => .done)

def join (process : ProcessObject) (os : OsAnswers) (timeout : Option Rat) :
    ProcessObject × Except ProcessError ProcessReply :=
  if process.closed then (process, .error .valueError)
  else
    match process.popen with
    | none => (process, .error .assertionError)
    | some popen =>
        let waited := popen.wait os timeout
        let process := process.keep waited
        match waited.result with
        | .error exc => (process, .error exc)
        | .ok none => (process, .ok .done)
        | .ok (some _) =>
            let shut := waited.popen.close os
            ({ process with listed := false }.keep shut, shut.result.map fun _ => .done)

def isAlive (process : ProcessObject) (os : OsAnswers) :
    ProcessObject × Except ProcessError ProcessReply :=
  if process.closed then (process, .error .valueError)
  else
    match process.popen with
    | none => (process, .ok (.alive false))
    | some popen =>
        let polled := popen.poll os .wnohang
        (process.keep polled, polled.result.map fun _ => .alive polled.popen.returncode.isNone)

def exitcode (process : ProcessObject) (os : OsAnswers) :
    ProcessObject × Except ProcessError ProcessReply :=
  if process.closed then (process, .error .valueError)
  else
    match process.popen with
    | none => (process, .ok (.status none))
    | some popen =>
        let polled := popen.poll os .wnohang
        (process.keep polled, polled.result.map .status)

/-- The turn of `_cleanup` for this object, and whether it is in the list returned. -/
def activeChildren (process : ProcessObject) (os : OsAnswers) :
    ProcessObject × Except ProcessError ProcessReply :=
  if process.listed then
    match process.popen with
    | none => (process, .error .attributeError)
    | some popen =>
        let polled := popen.poll os .wnohang
        let process := process.keep polled
        match polled.result with
        | .error exc => (process, .error exc)
        | .ok none => (process, .ok (.children true))
        | .ok (some _) => ({ process with listed := false }, .ok (.children false))
  else (process, .ok (.children false))

def step (process : ProcessObject) (os : OsAnswers) :
    ProcessCall → ProcessObject × Except ProcessError ProcessReply
  | .start => process.start os
  | .join timeout => process.join os timeout
  | .isAlive => process.isAlive os
  | .exitcode => process.exitcode os
  | .activeChildren => process.activeChildren os
  | .terminate => process.terminate os
  | .close => process.close os

/-- The object after any calls, each with its answers of the operating system. -/
def after (process : ProcessObject) (calls : List (ProcessCall × OsAnswers)) : ProcessObject :=
  calls.foldl (fun process call => (process.step call.2 call.1).1) process

def Knows (process : ProcessObject) (status : Int) : Prop :=
  ∃ popen, process.popen = some popen ∧ popen.returncode = some status

def Unknown (process : ProcessObject) (os : OsAnswers) : Prop :=
  ∃ popen, process.popen = some popen ∧ (popen.poll os .wnohang).result = .ok none

structure Sound (process : ProcessObject) : Prop where
  sentinel : History.Sound SentinelUse.Lawful process.uses
  waits : ∀ call os, (process.step os call).2 ≠ .error .typeError
  learned : ∀ os status, (process.step os .exitcode).2 = .ok (.status (some status)) →
    (process.step os .exitcode).1.Knows status
  known : ∀ status, process.Knows status → ∀ calls,
    (process.after calls).closed = true ∨
      (process.after calls).Knows status ∧
        ∀ os, ((process.after calls).step os .exitcode).2 = .ok (.status (some status))
  refused : ∀ os, (process.step os .close).2 = .error .valueError ↔ process.Unknown os
  usable : ∀ os, (process.step os .close).2 = .error .valueError →
    (process.step os .close).1 = process
  finished : ∀ os, (process.step os .close).2 = .ok .done → ∀ calls,
    let later := (process.step os .close).1.after calls
    (∀ call os, call ≠ .close → call ≠ .activeChildren →
      later.step os call = (later, .error .valueError)) ∧
      ∀ os, (later.step os .activeChildren).2 = .ok (.children false)

end ProcessObject

/-- What every method does to the `Popen` it is called on. -/
structure PopenEffect.Keeps (effect : PopenEffect) (popen : ForkPopen) : Prop where
  known : ∀ status, popen.returncode = some status → effect.popen.returncode = some status
  use : ∀ use, effect.use = some use → popen.sentinel = some use.sentinel
  sentinel :
    effect.popen.sentinel = popen.sentinel ∧ (∀ sentinel, effect.use ≠ some (.closed sentinel)) ∨
      effect.popen.sentinel = none ∧ effect.popen.returncode ≠ none

theorem WaitAnswer.status_error {answer : WaitAnswer} {exc : ProcessError}
    (raised : answer.status = .error exc) : exc = .assertionError := by
  induction answer with
  | eintr again ih => exact ih raised
  | failed => cases raised
  | running => cases raised
  | ended sts =>
      unfold status at raised
      split at raised
      · cases raised
      · cases raised
        rfl

namespace ForkPopen

variable (popen : ForkPopen) (os : OsAnswers)

@[simp] theorem poll_sentinel (flag : WaitFlag) :
    (popen.poll os flag).popen.sentinel = popen.sentinel := by
  unfold poll
  split
  · rfl
  · split <;> rfl

@[simp] theorem poll_use (flag : WaitFlag) : (popen.poll os flag).use = none := by
  unfold poll
  split
  · rfl
  · split <;> rfl

theorem poll_result (flag : WaitFlag) {status : Option Int}
    (polled : (popen.poll os flag).result = .ok status) :
    (popen.poll os flag).popen = { popen with returncode := status } := by
  unfold poll at polled ⊢
  split at polled
  · rename_i known
    cases polled
    rw [← known]
  · split at polled
    · cases polled
      rfl
    · cases polled

theorem poll_error {flag : WaitFlag} {exc : ProcessError}
    (raised : (popen.poll os flag).result = .error exc) : exc = .assertionError := by
  unfold poll at raised
  split at raised
  · cases raised
  · split at raised
    · cases raised
    · rename_i failed
      cases raised
      exact WaitAnswer.status_error failed

theorem poll_known {flag : WaitFlag} {status : Int} (known : popen.returncode = some status) :
    popen.poll os flag = ⟨popen, none, .ok (some status)⟩ := by
  simp [poll, known]

theorem poll_keeps (flag : WaitFlag) : (popen.poll os flag).Keeps popen where
  known status known := by rw [popen.poll_known os known, known]
  use use used := by rw [poll_use] at used; cases used
  sentinel := .inl ⟨popen.poll_sentinel os flag, by rw [poll_use]; exact nofun⟩

theorem wait_keeps (timeout : Option Rat) : (popen.wait os timeout).Keeps popen := by
  have idle : ∀ result, PopenEffect.Keeps ⟨popen, none, result⟩ popen :=
    fun _ => ⟨fun _ => id, nofun, .inl ⟨rfl, nofun⟩⟩
  unfold wait
  split
  · exact idle _
  · split
    · exact popen.poll_keeps os .block
    · rename_i unknown _ _
      split
      · exact idle _
      · rename_i sentinel open_
        have waited : ∀ use, some (SentinelUse.waited sentinel) = some use →
            popen.sentinel = some use.sentinel := by
          rintro use ⟨⟩
          exact open_
        dsimp only
        split
        · exact ⟨(popen.poll_keeps os _).known, waited, .inl ⟨popen.poll_sentinel os _, nofun⟩⟩
        · exact ⟨fun _ => id, waited, .inl ⟨rfl, nofun⟩⟩

/-- A wait that returns a status has stored it. -/
theorem wait_result {timeout : Option Rat} {status : Int}
    (waited : (popen.wait os timeout).result = .ok (some status)) :
    (popen.wait os timeout).popen.returncode = some status := by
  unfold wait at waited ⊢
  split at waited
  · rename_i known
    cases waited
    exact known
  · split at waited
    · rw [popen.poll_result os .block waited]
    · split at waited
      · cases waited
      · dsimp only at waited ⊢
        split at waited
        · rename_i ready
          rw [if_pos ready, popen.poll_result os _ waited]
        · cases waited

theorem wait_error {timeout : Option Rat} {exc : ProcessError}
    (raised : (popen.wait os timeout).result = .error exc) :
    exc = .assertionError ∨ exc = .typeError ∧ popen.returncode = none ∧ popen.sentinel = none := by
  unfold wait at raised
  split at raised
  · cases raised
  · rename_i unknown
    split at raised
    · exact .inl (popen.poll_error os raised)
    · split at raised
      · rename_i released
        cases raised
        exact .inr ⟨rfl, unknown, released⟩
      · dsimp only at raised
        split at raised
        · exact .inl (popen.poll_error os raised)
        · cases raised

theorem terminate_keeps : (popen.terminate os).Keeps popen := by
  unfold terminate
  split
  · exact ⟨fun _ => id, nofun, .inl ⟨rfl, nofun⟩⟩
  · exact ⟨fun _ => id, nofun, .inl ⟨rfl, nofun⟩⟩
  · exact ⟨fun _ => id, nofun, .inl ⟨rfl, nofun⟩⟩
  · have keeps := popen.wait_keeps os (some (1 / 10))
    split
    · rename_i waited
      rw [waited] at keeps
      exact ⟨keeps.known, keeps.use, keeps.sentinel⟩
    · exact keeps

theorem terminate_error {exc : ProcessError} (raised : (popen.terminate os).result = .error exc) :
    exc ≠ .typeError ∨ popen.returncode = none ∧ popen.sentinel = none := by
  unfold terminate at raised
  split at raised
  · cases raised
  · cases raised
  · cases raised
  · split at raised
    · cases raised
      exact .inl nofun
    · rcases popen.wait_error os raised with rfl | ⟨_, released⟩
      · exact .inl nofun
      · exact .inr released

theorem close_keeps (known : popen.returncode ≠ none) : (popen.close os).Keeps popen := by
  unfold close
  split
  · exact ⟨fun _ => id, nofun, .inl ⟨rfl, nofun⟩⟩
  · rename_i sentinel open_
    refine ⟨fun _ => id, ?_, .inr ⟨rfl, known⟩⟩
    rintro use ⟨⟩
    exact open_

theorem close_error {exc : ProcessError} (raised : (popen.close os).result = .error exc) :
    exc = .osError := by
  unfold close at raised
  split at raised
  · cases raised
  · dsimp only at raised
    split at raised
    · cases raised
    · cases raised
      rfl

end ForkPopen

namespace ProcessObject

/-- An open sentinel has not been closed, a released one is not needed any more. -/
structure Owned (process : ProcessObject) : Prop where
  lawful : History.Sound SentinelUse.Lawful process.uses
  past : ∀ use ∈ process.uses, use.sentinel < process.launches
  closed : process.closed = true → process.popen = none
  listed : process.popen = none → process.listed = false
  named : process.sentinel = none ↔ process.popen = none
  held : ∀ popen sentinel, process.popen = some popen → popen.sentinel = some sentinel →
    sentinel < process.launches ∧ .closed sentinel ∉ process.uses
  released : ∀ popen, process.popen = some popen → popen.sentinel = none → popen.returncode ≠ none

variable {process : ProcessObject} {popen : ForkPopen} {effect : PopenEffect}

theorem Owned.new : Owned new where
  lawful := History.sound_nil
  past := nofun
  closed := nofun
  listed _ := rfl
  named := iff_of_true rfl rfl
  held := nofun
  released := nofun

theorem Owned.keep (owned : process.Owned) (started : process.popen = some popen)
    (keeps : effect.Keeps popen) (listed : Bool) :
    { process.keep effect with listed }.Owned where
  lawful := by
    cases used : effect.use with
    | none =>
        simp only [ProcessObject.keep, used, Option.toList_none, List.append_nil]
        exact owned.lawful
    | some use =>
        simp only [ProcessObject.keep, used, Option.toList_some]
        exact History.sound_concat.mpr
          ⟨owned.lawful, (owned.held popen _ started (keeps.use use used)).2⟩
  past use member := by
    rcases List.mem_append.mp member with old | fresh
    · exact owned.past use old
    · exact (owned.held popen _ started (keeps.use use (Option.mem_toList.mp fresh))).1
  closed closed := by
    rw [owned.closed closed] at started
    cases started
  listed := nofun
  named := by
    have named := owned.named
    rw [started] at named
    exact iff_of_false (fun missing => nomatch named.mp missing) nofun
  held after sentinel same open_ := by
    cases same
    rcases keeps.sentinel with ⟨kept, unclosed⟩ | ⟨released, _⟩
    · obtain ⟨past, fresh⟩ := owned.held popen sentinel started (kept ▸ open_)
      refine ⟨past, fun member => ?_⟩
      rcases List.mem_append.mp member with old | fresh'
      · exact fresh old
      · exact unclosed sentinel (Option.mem_toList.mp fresh')
    · rw [released] at open_
      cases open_
  released after same released := by
    cases same
    rcases keeps.sentinel with ⟨kept, _⟩ | ⟨_, known⟩
    · intro unknown
      cases returned : popen.returncode with
      | none => exact owned.released popen started (kept ▸ released) returned
      | some status =>
          rw [keeps.known status returned] at unknown
          cases unknown
    · exact known

theorem Owned.launch (owned : process.Owned) (open_ : process.closed = false) :
    { process with
        popen := some ⟨none, some process.launches⟩, sentinel := some process.launches,
        listed := true, launches := process.launches + 1 }.Owned where
  lawful := owned.lawful
  past use member := Nat.lt_succ_of_lt (owned.past use member)
  closed closed := nomatch open_.symm.trans closed
  listed := nofun
  named := iff_of_false nofun nofun
  held popen sentinel same open_ := by
    cases same
    cases open_
    exact ⟨Nat.lt_succ_self _, fun member => Nat.lt_irrefl _ (owned.past _ member)⟩
  released popen same released := by
    cases same
    cases released

theorem Owned.finish (owned : process.Owned) :
    { process with popen := none, sentinel := none, listed := false, closed := true }.Owned where
  lawful := owned.lawful
  past := owned.past
  closed _ := rfl
  listed _ := rfl
  named := iff_of_true rfl rfl
  held := nofun
  released := nofun

inductive Moves (process : ProcessObject) : ProcessObject → Prop where
  | refl : Moves process process
  | launch (open_ : process.closed = false) (unstarted : process.popen = none) :
      Moves process { process with
        popen := some ⟨none, some process.launches⟩, sentinel := some process.launches,
        listed := true, launches := process.launches + 1 }
  | keep {next : ProcessObject} {popen : ForkPopen} {effect : PopenEffect}
      (moves : Moves process next) (started : next.popen = some popen)
      (keeps : effect.Keeps popen) (listed : Bool) :
      Moves process { next.keep effect with listed }
  | finish {next : ProcessObject} (moves : Moves process next) :
      Moves process { next with popen := none, sentinel := none, listed := false, closed := true }

theorem Moves.owned {next : ProcessObject} (moves : process.Moves next)
    (owned : process.Owned) : next.Owned := by
  induction moves with
  | refl => exact owned
  | launch open_ _ => exact owned.launch open_
  | keep _ started keeps listed ih => exact ih.keep started keeps listed
  | finish _ ih => exact ih.finish

theorem Moves.knows {next : ProcessObject} {status : Int} (moves : process.Moves next)
    (knows : process.Knows status) : next.closed = true ∨ next.Knows status := by
  induction moves with
  | refl => exact .inr knows
  | launch _ unstarted =>
      obtain ⟨popen, started, _⟩ := knows
      rw [unstarted] at started
      cases started
  | keep _ started keeps listed ih =>
      rcases ih with closed | ⟨popen, same, known⟩
      · exact .inl closed
      · rw [started] at same
        cases same
        exact .inr ⟨_, rfl, keeps.known status known⟩
  | finish => exact .inl rfl

theorem Moves.poll (started : process.popen = some popen) (os : OsAnswers) (flag : WaitFlag) :
    process.Moves (process.keep (popen.poll os flag)) :=
  Moves.refl.keep started (popen.poll_keeps os flag) process.listed

variable (os : OsAnswers)

theorem start_moves : process.Moves (process.start os).1 := by
  unfold start
  split
  · exact .refl
  · rename_i open_
    split
    · exact .refl
    · rename_i unstarted
      split
      · exact .launch (Bool.eq_false_iff.mpr open_) (Option.not_isSome_iff_eq_none.mp unstarted)
      · exact .refl

theorem terminate_moves : process.Moves (process.terminate os).1 := by
  unfold terminate
  split
  · exact .refl
  · split
    · exact .refl
    · rename_i popen started
      exact Moves.refl.keep started (popen.terminate_keeps os) process.listed

theorem join_moves (timeout : Option Rat) : process.Moves (process.join os timeout).1 := by
  unfold join
  split
  · exact .refl
  · split
    · exact .refl
    · rename_i popen started
      have waited : process.Moves (process.keep (popen.wait os timeout)) :=
        Moves.refl.keep started (popen.wait_keeps os timeout) process.listed
      dsimp only
      split
      · exact waited
      · exact waited
      · rename_i status returned
        have known : (popen.wait os timeout).popen.returncode ≠ none := by
          rw [popen.wait_result os returned]
          exact nofun
        exact waited.keep rfl (ForkPopen.close_keeps _ os known) false

theorem isAlive_moves : process.Moves (process.isAlive os).1 := by
  unfold isAlive
  split
  · exact .refl
  · split
    · exact .refl
    · rename_i popen started
      exact Moves.poll started os .wnohang

theorem exitcode_moves : process.Moves (process.exitcode os).1 := by
  unfold exitcode
  split
  · exact .refl
  · split
    · exact .refl
    · rename_i popen started
      exact Moves.poll started os .wnohang

theorem activeChildren_moves : process.Moves (process.activeChildren os).1 := by
  unfold activeChildren
  split
  · split
    · exact .refl
    · rename_i popen started
      dsimp only
      split
      · exact Moves.poll started os .wnohang
      · exact Moves.poll started os .wnohang
      · exact Moves.refl.keep started (popen.poll_keeps os .wnohang) false
  · exact .refl

theorem close_moves (owned : process.Owned) : process.Moves (process.close os).1 := by
  unfold close
  split
  · rename_i unstarted
    have same : { process with closed := true } =
        { process with popen := none, sentinel := none, listed := false, closed := true } := by
      rw [← unstarted, ← owned.listed unstarted, ← owned.named.mpr unstarted]
    rw [same]
    exact Moves.refl.finish
  · rename_i popen started
    have polled := Moves.poll started os .wnohang
    dsimp only
    split
    · exact polled
    · exact polled
    · rename_i status returned
      have known : (popen.poll os .wnohang).popen.returncode ≠ none := by
        rw [popen.poll_result os _ returned]
        exact nofun
      have shut := polled.keep rfl (ForkPopen.close_keeps _ os known) process.listed
      split
      · exact shut
      · rename_i missing
        rw [owned.named.mp missing] at started
        cases started
      · exact shut.finish

theorem step_moves (owned : process.Owned) (call : ProcessCall) :
    process.Moves (process.step os call).1 := by
  cases call with
  | start => exact start_moves os
  | join timeout => exact join_moves os timeout
  | isAlive => exact isAlive_moves os
  | exitcode => exact exitcode_moves os
  | activeChildren => exact activeChildren_moves os
  | terminate => exact terminate_moves os
  | close => exact close_moves os owned

/-- A closed object refuses every call but `close`, which does nothing, and is not listed. -/
theorem refused_of_closed (closed : process.closed = true) {call : ProcessCall}
    (other : call ≠ .close) (others : call ≠ .activeChildren) :
    process.step os call = (process, .error .valueError) := by
  cases call with
  | start => simp [step, start, closed]
  | join timeout => simp [step, join, closed]
  | isAlive => simp [step, isAlive, closed]
  | exitcode => simp [step, exitcode, closed]
  | activeChildren => exact absurd rfl others
  | terminate => simp [step, terminate, closed]
  | close => exact absurd rfl other

theorem children_of_closed (owned : process.Owned) (closed : process.closed = true) :
    process.step os .activeChildren = (process, .ok (.children false)) := by
  simp [step, activeChildren, owned.listed (owned.closed closed)]

theorem step_of_closed (owned : process.Owned) (closed : process.closed = true)
    (call : ProcessCall) : (process.step os call).1 = process := by
  by_cases children : call = .activeChildren
  · rw [children, children_of_closed os owned closed]
  · by_cases again : call = .close
    · have unstarted := owned.closed closed
      simp only [again, step, close, unstarted]
      rw [← unstarted, ← closed]
    · rw [refused_of_closed os closed again children]

theorem after_of_closed (owned : process.Owned) (closed : process.closed = true)
    (calls : List (ProcessCall × OsAnswers)) : process.after calls = process := by
  induction calls with
  | nil => rfl
  | cons call calls ih =>
      rw [after, List.foldl_cons, step_of_closed call.2 owned closed call.1]
      exact ih

theorem after_owned (owned : process.Owned) (calls : List (ProcessCall × OsAnswers)) :
    (process.after calls).Owned := by
  induction calls generalizing process with
  | nil => exact owned
  | cons call calls ih => exact ih ((step_moves call.2 owned call.1).owned owned)

theorem after_knows (owned : process.Owned) {status : Int} (knows : process.Knows status)
    (calls : List (ProcessCall × OsAnswers)) :
    (process.after calls).closed = true ∨ (process.after calls).Knows status := by
  induction calls generalizing process with
  | nil => exact .inr knows
  | cons call calls ih =>
      have moves := step_moves call.2 owned call.1
      have next := moves.owned owned
      rcases moves.knows knows with closed | knows
      · have same : process.after (call :: calls) = (process.step call.2 call.1).1 :=
          after_of_closed next closed calls
        rw [same]
        exact .inl closed
      · exact ih next knows

theorem exitcode_of_knows (owned : process.Owned) {status : Int} (knows : process.Knows status) :
    (process.exitcode os).2 = .ok (.status (some status)) := by
  obtain ⟨popen, started, known⟩ := knows
  have open_ : process.closed ≠ true := fun closed => by
    rw [owned.closed closed] at started
    cases started
  simp [exitcode, open_, started, popen.poll_known os known, Except.map]

theorem knows_of_exitcode {status : Int}
    (read : (process.exitcode os).2 = .ok (.status (some status))) :
    (process.exitcode os).1.Knows status := by
  unfold exitcode at read ⊢
  split at read
  · cases read
  · rename_i open_
    rw [if_neg open_]
    cases started : process.popen with
    | none =>
        rw [started] at read
        cases read
    | some popen =>
        rw [started] at read
        dsimp only at read ⊢
        cases polled : (popen.poll os .wnohang).result with
        | error exc =>
            rw [polled] at read
            cases read
        | ok known =>
            rw [polled] at read
            cases read
            exact ⟨_, rfl, by rw [popen.poll_result os _ polled]⟩

theorem close_of_unknown (unknown : process.Unknown os) :
    process.close os = (process, .error .valueError) := by
  obtain ⟨popen, started, polled⟩ := unknown
  have running : popen.returncode = none := by
    cases returned : popen.returncode with
    | none => rfl
    | some status =>
        rw [popen.poll_known os returned] at polled
        cases polled
  have same : (popen.poll os .wnohang).popen = popen := by
    rw [popen.poll_result os _ polled, ← running]
  have kept : process.keep (popen.poll os .wnohang) = process := by
    simp only [keep, same, popen.poll_use os, Option.toList_none, List.append_nil]
    rw [← started]
  simp only [close, started, polled, kept]

theorem close_of_not_unknown (known : ¬process.Unknown os) :
    (process.close os).2 = .ok .done ∧ (process.close os).1.closed = true ∨
      ∃ exc, (process.close os).2 = .error exc ∧ exc ≠ .valueError ∧ exc ≠ .typeError := by
  unfold close
  split
  · exact .inl ⟨rfl, rfl⟩
  · rename_i popen started
    dsimp only
    split
    · rename_i exc raised
      cases popen.poll_error os raised
      exact .inr ⟨_, rfl, nofun, nofun⟩
    · rename_i polled
      exact absurd ⟨popen, started, polled⟩ known
    · split
      · rename_i exc _ raised
        cases ForkPopen.close_error _ os raised
        exact .inr ⟨_, rfl, nofun, nofun⟩
      · exact .inr ⟨_, rfl, nofun, nofun⟩
      · exact .inl ⟨rfl, rfl⟩

theorem refused_iff : (process.close os).2 = .error .valueError ↔ process.Unknown os := by
  constructor
  · intro raised
    by_contra known
    rcases close_of_not_unknown os known with ⟨done, _⟩ | ⟨exc, failed, other, _⟩
    · rw [raised] at done
      cases done
    · rw [raised] at failed
      cases failed
      exact other rfl
  · intro unknown
    rw [close_of_unknown os unknown]

theorem closed_of_done (done : (process.close os).2 = .ok .done) :
    (process.close os).1.closed = true := by
  by_cases unknown : process.Unknown os
  · rw [close_of_unknown os unknown] at done
    cases done
  · rcases close_of_not_unknown os unknown with ⟨_, closed⟩ | ⟨exc, failed, _⟩
    · exact closed
    · rw [failed] at done
      cases done

theorem error_of_map {α β : Type} {result : Except ProcessError α} {reply : α → β}
    {exc : ProcessError} (raised : result.map reply = .error exc) : result = .error exc := by
  cases result with
  | error other =>
      cases raised
      rfl
  | ok value => cases raised

/-- No call waits on a sentinel that was released. -/
theorem step_waits (owned : process.Owned) (call : ProcessCall) :
    (process.step os call).2 ≠ .error .typeError := by
  have free : ∀ popen : ForkPopen, process.popen = some popen →
      ¬(popen.returncode = none ∧ popen.sentinel = none) :=
    fun popen started both => owned.released popen started both.2 both.1
  intro raised
  cases call with
  | start =>
      simp only [step, start] at raised
      split at raised
      · cases raised
      · split at raised
        · cases raised
        · split at raised
          · cases raised
          · cases raised
  | join timeout =>
      simp only [step, join] at raised
      split at raised
      · cases raised
      · split at raised
        · cases raised
        · rename_i popen started
          split at raised
          · rename_i exc failed
            cases raised
            rcases popen.wait_error os failed with same | ⟨_, both⟩
            · cases same
            · exact free popen started both
          · cases raised
          · cases ForkPopen.close_error _ os (error_of_map raised)
  | isAlive =>
      simp only [step, isAlive] at raised
      split at raised
      · cases raised
      · split at raised
        · cases raised
        · cases ForkPopen.poll_error _ os (error_of_map raised)
  | exitcode =>
      simp only [step, exitcode] at raised
      split at raised
      · cases raised
      · split at raised
        · cases raised
        · cases ForkPopen.poll_error _ os (error_of_map raised)
  | activeChildren =>
      simp only [step, activeChildren] at raised
      split at raised
      · split at raised
        · cases raised
        · split at raised
          · rename_i exc failed
            cases raised
            cases ForkPopen.poll_error _ os failed
          · cases raised
          · cases raised
      · cases raised
  | terminate =>
      simp only [step, terminate] at raised
      split at raised
      · cases raised
      · split at raised
        · cases raised
        · rename_i popen started
          rcases popen.terminate_error os (error_of_map raised) with other | both
          · exact other rfl
          · exact free popen started both
  | close =>
      by_cases unknown : process.Unknown os
      · rw [step, close_of_unknown os unknown] at raised
        cases raised
      · rcases close_of_not_unknown os unknown with ⟨done, _⟩ | ⟨exc, failed, _, other⟩
        · rw [step, done] at raised
          cases raised
        · rw [step, failed] at raised
          cases raised
          exact other rfl

end ProcessObject

open ProcessObject in
/-- After any calls, whatever the child does meanwhile. -/
theorem ProcessObject.sound_after (calls : List (ProcessCall × OsAnswers)) :
    (new.after calls).Sound := by
  have owned := after_owned Owned.new calls
  generalize new.after calls = process at owned
  refine ⟨owned.lawful, fun call os => step_waits os owned call,
    fun os status => knows_of_exitcode os, ?_, refused_iff, ?_, ?_⟩
  · intro status knows calls
    rcases after_knows owned knows calls with closed | later
    · exact .inl closed
    · exact .inr ⟨later, fun os => exitcode_of_knows os (after_owned owned calls) later⟩
  · intro os raised
    exact congrArg Prod.fst (close_of_unknown os ((refused_iff os).mp raised))
  · intro os done calls
    have next := (step_moves os owned .close).owned owned
    have closed := closed_of_done os done
    dsimp only
    rw [after_of_closed next closed calls]
    exact ⟨fun call os => refused_of_closed os closed,
      fun os => congrArg Prod.snd (children_of_closed os next closed)⟩

end Billiard
