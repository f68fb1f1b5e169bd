import Mathlib.Data.List.Defs
import Billiard.Pool.Supervision

/-! The loop of a worker process, from the requests that it polls to the messages
that it puts on the outqueue. -/

namespace Billiard

variable {α : Type u}

/-- What comes of one call of the `receive` of `_make_protected_receive`; a poll is
`interrupted` by a signal (`EINTR`) and `closed` by an end of file or another error. -/
inductive Poll (β : Type u) where
  | shutdown
  | empty
  | interrupted
  | closed
  | sentinel
  | message (request : β)
deriving DecidableEq, Repr

/-- What comes of `prepare_result(fun(*args, **kwargs))`; `exited` is a `SystemExit`
or a `KeyboardInterrupt`. -/
inductive Execution (α : Type u) where
  | returned (value : α)
  | raised (exc : String)
  | exited (exc : String)
deriving DecidableEq, Repr

/-- A job request, with what running it comes to: whether
`terminate_handler_fired()` holds and what `mem_rss()` says thereafter. -/
structure JobRequest (α : Type u) where
  task : Task
  timeAccepted : Nat
  execution : Execution α
  fired : Bool
  rss : Int
deriving DecidableEq, Repr

inductive WorkerMessage (α : Type u) where
  | ack (task : Task) (timeAccepted pid : Nat) (synqWFd : Option Nat)
  | ready (task : Task) (outcome : Outcome α) (inqWFd : Nat)
deriving DecidableEq, Repr

/-- `putError` is what `outq.put` raises, if it raises, and `repr` is that of the
value in an outcome. -/
structure WorkerSetting (α : Type u) where
  pid : Nat
  inqWFd : Nat
  synqWFd : Option Nat
  maxtasks : Option Nat
  maxMemoryPerChild : Option Int
  putError : WorkerMessage α → Option String
  repr : Outcome α → Except String String

/-- What `wait_for_syn` comes to; it `waits` when the polls end. -/
inductive Confirmation where
  | confirmed
  | refused
  | exits (status : Nat)
  | waits
deriving DecidableEq, Repr

inductive LoopEnd where
  | waiting
  | returned (status : Nat)
  | systemExit (status : Nat)
  | raised (exc : String)
deriving DecidableEq, Repr

/-- `inq` are the polls that are left. -/
structure LoopResult (α : Type u) where
  messages : List (WorkerMessage α)
  ending : LoopEnd
  completed : Nat
  inq : List (Poll (JobRequest α))
deriving DecidableEq, Repr

def exOk : Nat := 0

def exFailure : Nat := 1

def exRecycle : Nat := 0x9B

namespace Poll

/-- `receive` of `_make_protected_receive` -/
def receive : Poll β → Except Nat (Option β)
  | .shutdown => .error exOk
  | .empty | .interrupted => .ok none
  | .closed | .sentinel => .error exFailure
  | .message request => .ok (some request)

def request? : Poll β → Option β
  | .message request => some request
  | _ => none

/-- The sentinel, be it a message or the event, or an end of file. -/
def Ends : Poll β → Prop
  | .shutdown | .closed | .sentinel => True
  | .empty | .interrupted | .message _ => False

end Poll

namespace Execution

def outcome : Execution α → Outcome α
  | .returned value => .success value
  | .raised exc | .exited exc => .failure (.raised exc)

def exc? : Execution α → Option String
  | .returned _ => none
  | .raised exc | .exited exc => some exc

def exitExc : Execution α → Option String
  | .returned _ | .raised _ => none
  | .exited exc => some exc

end Execution

def maybeEncodingError (exc value : String) : ExceptionInfo :=
  .raised ("MaybeEncodingError(" ++ exc ++ ", " ++ value ++ ")")

def waitForSyn : List (Poll Response) → Confirmation × List (Poll Response)
  | [] => (.waits, [])
  | poll :: polls =>
      match poll.receive with
      | .error status => (.exits status, polls)
      | .ok none => waitForSyn polls
      | .ok (some .nack) => (.refused, polls)
      | .ok (some .ack) => (.confirmed, polls)

/-- A worker without a `synq` does not wait. -/
def confirm : Option (List (Poll Response)) → Confirmation × Option (List (Poll Response))
  | none => (.confirmed, none)
  | some polls => ((waitForSyn polls).1, some (waitForSyn polls).2)

namespace JobRequest

/-- The exception that leaves the job while `terminate_handler_fired()`. -/
def interruption (request : JobRequest α) : Option String :=
  if request.fired then request.execution.exc? else none

end JobRequest

def LoopResult.after (messages : List (WorkerMessage α)) (result : LoopResult α) :
    LoopResult α :=
  { result with messages := messages ++ result.messages }

namespace WorkerSetting

def ack (setting : WorkerSetting α) (request : JobRequest α) : WorkerMessage α :=
  .ack request.task request.timeAccepted setting.pid setting.synqWFd

def ready (setting : WorkerSetting α) (task : Task) (outcome : Outcome α) : WorkerMessage α :=
  .ready task outcome setting.inqWFd

def goesOn (setting : WorkerSetting α) (completed : Nat) : Bool :=
  match setting.maxtasks with
  | none => true
  | some maxtasks => maxtasks ≠ 0 && completed < maxtasks

def status (setting : WorkerSetting α) (completed : Nat) : Nat :=
  match setting.maxtasks with
  | none | some 0 => exOk
  | some maxtasks => if completed = maxtasks then exRecycle else exFailure

/-- The result that is put, the second time wrapped. -/
def report (setting : WorkerSetting α) (task : Task) (outcome : Outcome α) :
    Except String (Outcome α) :=
  match setting.putError (setting.ready task outcome) with
  | none => .ok outcome
  | some exc =>
      match setting.repr outcome with
      | .error exc => .error exc
      | .ok value =>
          let wrapped := .failure (maybeEncodingError exc value)
          match setting.putError (setting.ready task wrapped) with
          | none => .ok wrapped
          | some exc => .error exc

/-- `used_kb > 0 and used_kb > max_memory_per_child` -/
def overMemory (setting : WorkerSetting α) (rss : Int) : Bool :=
  let limit := setting.maxMemoryPerChild.getD 0
  0 < limit && 0 < rss && limit < rss

/-- From the end of a job that is not interrupted to the end of its round. -/
def afterReady (setting : WorkerSetting α) (request : JobRequest α) : Option LoopEnd :=
  match request.execution.exitExc with
  | some exc => some (.raised exc)
  | none => if setting.overMemory request.rss then some (.returned exRecycle) else none

/-- The rest of a round, once the job is confirmed: what it puts, what `completed`
becomes and whether the loop ends. -/
def runJob (setting : WorkerSetting α) (completed : Nat) (request : JobRequest α) :
    List (WorkerMessage α) × Nat × Option LoopEnd :=
  match request.interruption with
  | some exc => ([], completed, some (.raised exc))
  | none =>
      match setting.report request.task request.execution.outcome with
      | .error exc => ([], completed, some (.raised exc))
      | .ok outcome =>
          ([setting.ready request.task outcome], completed + 1, setting.afterReady request)

def workloop (setting : WorkerSetting α) :
    Nat → List (Poll (JobRequest α)) → Option (List (Poll Response)) → LoopResult α
  | completed, [], _ =>
      if setting.goesOn completed then ⟨[], .waiting, completed, []⟩
      else ⟨[], .returned (setting.status completed), completed, []⟩
  | completed, poll :: inq, synq =>
      if setting.goesOn completed then
        match poll.receive with
        | .error status => ⟨[], .systemExit status, completed, inq⟩
        | .ok none => workloop setting completed inq synq
        | .ok (some request) =>
            match setting.putError (setting.ack request) with
            | some exc => ⟨[], .raised exc, completed, inq⟩
            | none =>
                match confirm synq with
                | (.refused, synq) =>
                    (workloop setting completed inq synq).after [setting.ack request]
                | (.exits status, _) =>
                    ⟨[setting.ack request], .systemExit status, completed, inq⟩
                | (.waits, _) => ⟨[setting.ack request], .waiting, completed, inq⟩
                | (.confirmed, synq) =>
                    match setting.runJob completed request with
                    | (messages, completed, some ending) =>
                        ⟨setting.ack request :: messages, ending, completed, inq⟩
                    | (messages, completed, none) =>
                        (workloop setting completed inq synq).after
                          (setting.ack request :: messages)
      else ⟨[], .returned (setting.status completed), completed, poll :: inq⟩

end WorkerSetting

/-- A job that the loop took, with the confirmation that it got. -/
structure Taken (α : Type u) where
  request : JobRequest α
  confirmation : Confirmation
deriving DecidableEq, Repr

namespace Taken

def Finished (taken : Taken α) : Prop :=
  taken.confirmation = .confirmed ∧ taken.request.interruption = none

instance (taken : Taken α) : Decidable taken.Finished :=
  inferInstanceAs (Decidable (_ ∧ _))

def finished (jobs : List (Taken α)) : Nat := jobs.countP fun taken => decide taken.Finished

/-- No job is to be taken after this one; `before` jobs were finished before it. -/
def Ends (setting : WorkerSetting α) (before : Nat) (taken : Taken α) : Prop :=
  match taken.confirmation with
  | .refused => False
  | .exits _ | .waits => True
  | .confirmed =>
      taken.request.interruption.isSome ∨ taken.request.execution.exitExc.isSome ∨
        setting.maxtasks = some (before + 1) ∨ setting.overMemory taken.request.rss = true

end Taken

/-- The outcome that a `READY` carries: that of the job, or that it cannot be sent. -/
inductive Reports (setting : WorkerSetting α) (task : Task) (own : Outcome α) :
    Outcome α → Prop
  | own (sent : setting.putError (setting.ready task own) = none) : Reports setting task own own
  | wrapped (exc value : String)
      (refused : setting.putError (setting.ready task own) = some exc)
      (represented : setting.repr own = .ok value) :
      Reports setting task own (.failure (maybeEncodingError exc value))

inductive MessageBlock (setting : WorkerSetting α) (taken : Taken α) :
    List (WorkerMessage α) → Prop
  | alone (unfinished : ¬ taken.Finished) :
      MessageBlock setting taken [setting.ack taken.request]
  | answered (outcome : Outcome α) (finished : taken.Finished)
      (reports : Reports setting taken.request.task taken.request.execution.outcome outcome) :
      MessageBlock setting taken
        [setting.ack taken.request, setting.ready taken.request.task outcome]

/-- Everything that is put can be sent but for results of jobs, and these have a `repr` then. -/
structure Sendable (setting : WorkerSetting α) (inq : List (Poll (JobRequest α))) : Prop where
  ack : ∀ task timeAccepted,
    setting.putError (.ack task timeAccepted setting.pid setting.synqWFd) = none
  wrapped : ∀ task exc value,
    setting.putError (setting.ready task (.failure (maybeEncodingError exc value))) = none
  represented : ∀ request, .message request ∈ inq →
    setting.putError (setting.ready request.task request.execution.outcome) ≠ none →
      ∃ value, setting.repr request.execution.outcome = .ok value

def confirmations : Option (List (Poll Response)) → Nat → List Confirmation
  | _, 0 => []
  | synq, count + 1 => (confirm synq).1 :: confirmations (confirm synq).2 count

/-- How a run of the loop is accounted for by jobs, the blocks of messages about them
and the polls that were used. -/
structure LoopAccount (setting : WorkerSetting α) (completed : Nat)
    (inq : List (Poll (JobRequest α))) (synq : Option (List (Poll Response)))
    (result : LoopResult α) (jobs : List (Taken α)) (blocks : List (List (WorkerMessage α)))
    (used : List (Poll (JobRequest α))) : Prop where
  messages : result.messages = blocks.flatten
  blocks : List.Forall₂ (MessageBlock setting) jobs blocks
  polls : inq = used ++ result.inq
  requests : jobs.map Taken.request = used.filterMap Poll.request?
  confirmed : jobs.map Taken.confirmation = confirmations synq jobs.length
  last_poll : ∀ front poll back, used = front ++ poll :: back → poll.Ends → back = []
  last_job : ∀ front taken back, jobs = front ++ taken :: back →
    taken.Ends setting (completed + Taken.finished front) → back = []

theorem Sendable.tail {setting : WorkerSetting α} {poll : Poll (JobRequest α)}
    {inq : List (Poll (JobRequest α))} (sendable : Sendable setting (poll :: inq)) :
    Sendable setting inq where
  ack := sendable.ack
  wrapped := sendable.wrapped
  represented request listed := sendable.represented request (List.mem_cons_of_mem _ listed)

theorem Taken.finished_of {taken : Taken α} (done : taken.Finished) : finished [taken] = 1 := by
  simp [finished, done]

theorem Taken.finished_of_not {taken : Taken α} (not_done : ¬ taken.Finished) :
    finished [taken] = 0 := by
  simp [finished, not_done]

theorem Poll.receive_cases (poll : Poll β) :
    (∃ status, poll.receive = .error status ∧ poll.request? = none) ∨
      (poll.receive = .ok none ∧ poll.request? = none ∧ ¬ poll.Ends) ∨
      ∃ request, poll = .message request := by
  cases poll with
  | shutdown => exact .inl ⟨exOk, rfl, rfl⟩
  | closed => exact .inl ⟨exFailure, rfl, rfl⟩
  | sentinel => exact .inl ⟨exFailure, rfl, rfl⟩
  | empty => exact .inr (.inl ⟨rfl, rfl, id⟩)
  | interrupted => exact .inr (.inl ⟨rfl, rfl, id⟩)
  | message request => exact .inr (.inr ⟨request, rfl⟩)

namespace LoopAccount

variable {setting : WorkerSetting α} {completed : Nat} {poll : Poll (JobRequest α)}
variable {inq used : List (Poll (JobRequest α))} {synq : Option (List (Poll Response))}
variable {result : LoopResult α} {jobs : List (Taken α)}
variable {blocks : List (List (WorkerMessage α))}

theorem stop (ending : LoopEnd) :
    LoopAccount setting completed inq synq ⟨[], ending, completed, inq⟩ [] [] [] where
  messages := rfl
  blocks := .nil
  polls := rfl
  requests := rfl
  confirmed := by cases synq <;> rfl
  last_poll front poll back split := by simp at split
  last_job front taken back split := by simp at split

theorem leave (ending : LoopEnd) (idle : poll.request? = none) :
    LoopAccount setting completed (poll :: inq) synq ⟨[], ending, completed, inq⟩
      [] [] [poll] where
  messages := rfl
  blocks := .nil
  polls := rfl
  requests := by simp [idle]
  confirmed := by cases synq <;> rfl
  last_poll front other back split _ := by
    cases front with
    | nil => exact (List.cons.inj split).2.symm
    | cons first front => simp at split
  last_job front taken back split := by simp at split

theorem used_cons (account : LoopAccount setting completed inq synq result jobs blocks used)
    (goes_on : ¬ poll.Ends) (front : List (Poll (JobRequest α))) (other : Poll (JobRequest α))
    (back : List (Poll (JobRequest α))) (split : poll :: used = front ++ other :: back)
    (ends : other.Ends) : back = [] := by
  cases front with
  | nil =>
      obtain ⟨rfl, rfl⟩ := List.cons.inj split
      exact absurd ends goes_on
  | cons first front => exact account.last_poll front other back (List.cons.inj split).2 ends

theorem idle (account : LoopAccount setting completed inq synq result jobs blocks used)
    (no_request : poll.request? = none) (goes_on : ¬ poll.Ends) :
    LoopAccount setting completed (poll :: inq) synq result jobs blocks (poll :: used) where
  messages := account.messages
  blocks := account.blocks
  polls := congrArg (poll :: ·) account.polls
  requests := by simp [no_request, account.requests]
  confirmed := account.confirmed
  last_poll := account.used_cons goes_on
  last_job := account.last_job

theorem cons {taken : Taken α} {block : List (WorkerMessage α)}
    {rest : Option (List (Poll Response))}
    (account : LoopAccount setting (completed + Taken.finished [taken]) inq rest result
      jobs blocks used)
    (answer : confirm synq = (taken.confirmation, rest))
    (block_of : MessageBlock setting taken block)
    (ends : taken.Ends setting completed → jobs = []) :
    LoopAccount setting completed (.message taken.request :: inq) synq (result.after block)
      (taken :: jobs) (block :: blocks) (.message taken.request :: used) where
  messages := by simp [LoopResult.after, account.messages]
  blocks := .cons block_of account.blocks
  polls := congrArg (Poll.message taken.request :: ·) account.polls
  requests := by simp [Poll.request?, account.requests]
  confirmed := by
    show taken.confirmation :: jobs.map Taken.confirmation =
      (confirm synq).1 :: confirmations (confirm synq).2 jobs.length
    rw [answer, account.confirmed]
  last_poll := account.used_cons id
  last_job front other back split ended := by
    cases front with
    | nil =>
        obtain ⟨rfl, rfl⟩ := List.cons.inj split
        exact ends ended
    | cons first front =>
        obtain ⟨rfl, rest⟩ := List.cons.inj split
        apply account.last_job front other back rest
        have shifted : completed + Taken.finished [taken] + Taken.finished front =
            completed + Taken.finished (taken :: front) := by
          simp only [Taken.finished, List.countP_cons, List.countP_nil]
          omega
        rw [shifted]
        exact ended

theorem alone {rest : Option (List (Poll Response))}
    (account : LoopAccount setting completed inq rest result jobs blocks used) (taken : Taken α)
    (answer : confirm synq = (taken.confirmation, rest)) (unfinished : ¬ taken.Finished)
    (ends : taken.Ends setting completed → jobs = []) :
    LoopAccount setting completed (.message taken.request :: inq) synq
      (result.after [setting.ack taken.request]) (taken :: jobs)
      ([setting.ack taken.request] :: blocks) (.message taken.request :: used) := by
  have counted : completed + Taken.finished [taken] = completed := by
    rw [Taken.finished_of_not unfinished, Nat.add_zero]
  rw [← counted] at account
  exact account.cons answer (.alone unfinished) ends

theorem answered {rest : Option (List (Poll Response))} {outcome : Outcome α}
    (account : LoopAccount setting (completed + 1) inq rest result jobs blocks used)
    (taken : Taken α) (answer : confirm synq = (taken.confirmation, rest))
    (finished : taken.Finished)
    (reports : Reports setting taken.request.task taken.request.execution.outcome outcome)
    (ends : taken.Ends setting completed → jobs = []) :
    LoopAccount setting completed (.message taken.request :: inq) synq
      (result.after [setting.ack taken.request, setting.ready taken.request.task outcome])
      (taken :: jobs)
      ([setting.ack taken.request, setting.ready taken.request.task outcome] :: blocks)
      (.message taken.request :: used) := by
  have counted : completed + Taken.finished [taken] = completed + 1 := by
    rw [Taken.finished_of finished]
  rw [← counted] at account
  exact account.cons answer (.answered outcome finished reports) ends

end LoopAccount

namespace WorkerSetting

variable {setting : WorkerSetting α} {completed : Nat} {request : JobRequest α}
variable {inq : List (Poll (JobRequest α))} {synq : Option (List (Poll Response))}

theorem report_ok (sendable : Sendable setting inq) (listed : .message request ∈ inq) :
    ∃ outcome, setting.report request.task request.execution.outcome = .ok outcome ∧
      Reports setting request.task request.execution.outcome outcome := by
  unfold report
  cases refused : setting.putError (setting.ready request.task request.execution.outcome) with
  | none => exact ⟨_, rfl, .own refused⟩
  | some exc =>
      obtain ⟨value, represented⟩ :=
        sendable.represented request listed (by rw [refused]; exact nofun)
      simp only [represented, sendable.wrapped]
      exact ⟨_, rfl, .wrapped exc value refused represented⟩

theorem workloop_done (done : setting.goesOn completed = false) :
    setting.workloop completed inq synq =
      ⟨[], .returned (setting.status completed), completed, inq⟩ := by
  cases inq with
  | nil => simp [workloop, done]
  | cons poll inq => simp [workloop, done]

/-- A job that ran and did not stop the worker ends the loop only by its number. -/
theorem goesOn_of_ends {taken : Taken α} (confirmed : taken.confirmation = .confirmed)
    (undisturbed : taken.request.interruption = none)
    (stays : setting.afterReady taken.request = none)
    (ends : taken.Ends setting completed) : setting.goesOn (completed + 1) = false := by
  unfold afterReady at stays
  unfold Taken.Ends at ends
  rw [confirmed, undisturbed] at ends
  cases exits : taken.request.execution.exitExc with
  | some exc =>
      rw [exits] at stays
      cases stays
  | none =>
      rw [exits] at stays ends
      obtain interrupted | exited | last | exceeded := ends
      · cases interrupted
      · cases exited
      · simp [goesOn, last]
      · simp [exceeded] at stays

theorem runJob_cases (completed : Nat) (sendable : Sendable setting inq)
    (listed : .message request ∈ inq) :
    (∃ exc, request.interruption = some exc ∧
        setting.runJob completed request = ([], completed, some (.raised exc))) ∨
      ∃ outcome, request.interruption = none ∧
        Reports setting request.task request.execution.outcome outcome ∧
        setting.runJob completed request =
          ([setting.ready request.task outcome], completed + 1, setting.afterReady request) := by
  unfold runJob
  cases interrupted : request.interruption with
  | some exc => exact .inl ⟨exc, rfl, rfl⟩
  | none =>
      obtain ⟨outcome, reported, reports⟩ := report_ok sendable listed
      refine .inr ⟨outcome, rfl, reports, ?_⟩
      simp only [reported]

theorem exists_account_message (sendable : Sendable setting (.message request :: inq))
    (going : setting.goesOn completed = true)
    (accounts : ∀ completed synq, ∃ jobs blocks used, LoopAccount setting completed inq synq
      (setting.workloop completed inq synq) jobs blocks used) :
    ∃ jobs blocks used, LoopAccount setting completed (.message request :: inq) synq
      (setting.workloop completed (.message request :: inq) synq) jobs blocks used := by
  have acked : setting.putError (setting.ack request) = none := sendable.ack _ _
  simp only [workloop, going, if_true, Poll.receive, acked]
  cases answer : confirm synq with
  | mk confirmation rest =>
      cases confirmation with
      | refused =>
          obtain ⟨jobs, blocks, used, account⟩ := accounts completed rest
          exact ⟨_, _, _, account.alone ⟨request, .refused⟩ answer
            (fun finished => by cases finished.1) False.elim⟩
      | exits status =>
          exact ⟨_, _, _, (LoopAccount.stop (.systemExit status)).alone
            ⟨request, .exits status⟩ answer (fun finished => by cases finished.1)
            fun _ => rfl⟩
      | waits =>
          exact ⟨_, _, _, (LoopAccount.stop .waiting).alone ⟨request, .waits⟩ answer
            (fun finished => by cases finished.1) fun _ => rfl⟩
      | confirmed =>
          obtain ⟨exc, interrupted, ran⟩ | ⟨outcome, undisturbed, reports, ran⟩ :=
            runJob_cases completed sendable List.mem_cons_self
          · rw [ran]
            refine ⟨_, _, _, (LoopAccount.stop (.raised exc)).alone
              ⟨request, .confirmed⟩ answer ?_ fun _ => rfl⟩
            intro finished
            have undisturbed : request.interruption = none := finished.2
            rw [interrupted] at undisturbed
            cases undisturbed
          · rw [ran]
            cases stays : setting.afterReady request with
            | some ending =>
                exact ⟨_, _, _, (LoopAccount.stop ending).answered ⟨request, .confirmed⟩
                  answer ⟨rfl, undisturbed⟩ reports fun _ => rfl⟩
            | none =>
                cases next : setting.goesOn (completed + 1) with
                | false =>
                    simp only [workloop_done next]
                    exact ⟨_, _, _, (LoopAccount.stop _).answered ⟨request, .confirmed⟩
                      answer ⟨rfl, undisturbed⟩ reports fun _ => rfl⟩
                | true =>
                    obtain ⟨jobs, blocks, used, account⟩ := accounts (completed + 1) rest
                    refine ⟨_, _, _, account.answered ⟨request, .confirmed⟩ answer
                      ⟨rfl, undisturbed⟩ reports ?_⟩
                    intro ends
                    rw [goesOn_of_ends rfl undisturbed stays ends] at next
                    cases next

theorem exists_account (sendable : Sendable setting inq) (completed : Nat)
    (synq : Option (List (Poll Response))) :
    ∃ jobs blocks used, LoopAccount setting completed inq synq
      (setting.workloop completed inq synq) jobs blocks used := by
  induction inq generalizing completed synq with
  | nil =>
      unfold workloop
      split
      · exact ⟨[], [], [], .stop _⟩
      · exact ⟨[], [], [], .stop _⟩
  | cons poll inq ih =>
      cases going : setting.goesOn completed with
      | false =>
          rw [workloop_done going]
          exact ⟨[], [], [], .stop _⟩
      | true =>
          obtain ⟨status, left, idle⟩ | ⟨nothing, idle, goes_on⟩ | ⟨request, rfl⟩ :=
            poll.receive_cases
          · simp only [workloop, going, if_true, left]
            exact ⟨[], [], _, .leave _ idle⟩
          · simp only [workloop, going, if_true, nothing]
            obtain ⟨jobs, blocks, used, account⟩ := ih sendable.tail completed synq
            exact ⟨jobs, blocks, _, account.idle idle goes_on⟩
          · exact exists_account_message sendable going (ih sendable.tail)

/-- The messages of a worker are blocks, one for each job that it took. -/
theorem workloop_account (sendable : Sendable setting inq) :
    ∃ jobs blocks used, LoopAccount setting 0 inq synq (setting.workloop 0 inq synq)
      jobs blocks used :=
  exists_account sendable 0 synq

def superstitious : WorkerSetting Nat where
  pid := 100
  inqWFd := 5
  synqWFd := some 9
  maxtasks := some 3
  maxMemoryPerChild := none
  putError
    | .ready _ (.success 7) _ => some "PicklingError()"
    | _ => none
  repr
    | .success 7 => .ok "7"
    | _ => .error "RuntimeError()"

/-- One job gives seven, one is refused, and the event of the sentinel is set. -/
def threePolls : List (Poll (JobRequest Nat)) :=
  [.message ⟨⟨0, .none⟩, 40, .returned 7, false, 0⟩, .empty,
    .message ⟨⟨1, .none⟩, 41, .returned 8, false, 0⟩, .shutdown]

theorem workloop_account_superstitious :
    ∃ jobs blocks used, LoopAccount superstitious 0 threePolls
      (some [.message .ack, .message .nack])
      (superstitious.workloop 0 threePolls (some [.message .ack, .message .nack]))
      jobs blocks used := by
  apply workloop_account
  constructor
  case ack => exact fun _ _ => rfl
  case wrapped => exact fun _ _ _ => rfl
  case represented =>
    intro request listed refused
    obtain rfl | rfl : request = ⟨⟨0, .none⟩, 40, .returned 7, false, 0⟩ ∨
        request = ⟨⟨1, .none⟩, 41, .returned 8, false, 0⟩ := by simpa [threePolls] using listed
    · exact ⟨"7", rfl⟩
    · exact absurd rfl refused

example : (superstitious.workloop 0 threePolls (some [.message .ack, .message .nack])).messages =
    [.ack ⟨0, .none⟩ 40 100 (some 9),
      .ready ⟨0, .none⟩ (.failure (maybeEncodingError "PicklingError()" "7")) 5,
      .ack ⟨1, .none⟩ 41 100 (some 9)] := by decide

end WorkerSetting

end Billiard
