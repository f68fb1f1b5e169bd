import Billiard.Data.Transition
import Billiard.Managers.Server

/-! `Server.serve_client`: the thread that answers the requests of a connection.  What
other code does (unpickling, attributes, methods, registered callables, `str`, `repr`
and pickling) is told by the labels of its steps. -/

namespace Billiard

open Transition

/-- An `Exception`, as the handlers tell them apart. -/
inductive ServeError where
  | attributeError (text : String)
  | eofError (text : String)
  | exception (text : String)
deriving DecidableEq, Repr

/-- A request that could be unpacked.  No `ident` is one that cannot be a key, a name
that is not a string is like one that nothing exposes, and a call is `bare` without
arguments. -/
structure ProxyCall where
  ident : Option Nat
  methodname : Option String
  bare : Bool
deriving DecidableEq, Repr

/-- What `recv` gives, up to its unpacking. -/
inductive ProxyRequest where
  | undecodable (exc : ServeError)
  | malformed (exc : ServeError)
  | call (call : ProxyCall)
deriving DecidableEq, Repr

inductive ServerMessage where
  | error (exc : ServeError)
  | traceback (exc : ServeError)
  | proxy (exposed : List String) (typeid : String) (ident : Nat)
  | result (value : Object)
  | unserializable (text : String)
deriving DecidableEq, Repr

/-- The functions of `fallback_mapping`. -/
inductive Fallback where
  | str
  | repr
  | getvalue
deriving DecidableEq, Repr

/-- A method that is looked up, with the table `id_to_obj` in which its object was found. -/
structure MethodAccess where
  ident : Nat
  obj : Object
  methodname : String
  table : Dict Nat Hosted

inductive ServeStage where
  | polling
  | receiving
  | looking (call : ProxyCall)
  | getting (call : ProxyCall) (access : MethodAccess)
      (gettypeid : Option (List (String × String)))
  | calling (call : ProxyCall) (access : MethodAccess)
      (gettypeid : Option (List (String × String)))
  | creating (call : ProxyCall) (access : MethodAccess) (typeid : String) (res : Object)
  | fallingBack (operation : Fallback) (obj : Option Object)
  | sending (message : ServerMessage)
  | representing (message : ServerMessage)
  | sendingText (text : String)
  | returned
  | exited (status : Nat)

inductive ServeEvent where
  | received (request : ProxyRequest)
  | sent (message : ServerMessage)
deriving DecidableEq, Repr

/-- `stopped` is the `stop_event`, `closed` tells that the client has closed its end;
`events`, `invoked` and `fallbacks` are histories. -/
structure ServerThread where
  server : Server
  stopped : Bool
  closed : Bool
  stage : ServeStage
  events : List ServeEvent
  invoked : List MethodAccess
  fallbacks : List (Fallback × Option Object)

/-- `others` and `stop` are steps of other threads, `hangUp` is one of the client, which does
not leave before it has its response; `represent` fails also where the text is too long to be
sent. -/
inductive ServeStep where
  | others (server : Server)
  | stop
  | hangUp
  | poll
  | receive (request : ProxyRequest)
  | look (hashing : Option ServeError)
  | get (found : Except ServeError Unit)
  | invoke (res : Except ServeError Object)
  | create (built : Except ServeError (Object × List String × Option (List (String × String))))
  | fallBack (result : Except ServeError Object)
  | send (failure : Option ServeError)
  | represent (text : Except ServeError String)
  | sendText

def fallbackMapping (methodname : String) : Option Fallback :=
  if methodname = "__str__" then some .str
  else if methodname = "__repr__" then some .repr
  else if methodname = "#GETVALUE" then some .getvalue
  else none

/-- `create`, of which `stored` is what the registered callable and the registry give. -/
def Server.create (server : Server) (obj : Object) (exposed : List String)
    (methodToTypeid : Option (List (String × String))) : Server :=
  let enrolled := (server.store obj exposed methodToTypeid).enroll obj.id
  (enrolled.incref? obj.id).getD enrolled

namespace ServerThread

def init (server : Server) : ServerThread := ⟨server, false, false, .polling, [], [], []⟩

def goTo (thread : ServerThread) (stage : ServeStage) : ServerThread := { thread with stage }

/-- The handlers of the outer `try`; a request that was not unpacked has no call. -/
def handle (thread : ServerThread) (call : Option ProxyCall) (obj : Option Object) :
    ServeError → ServerThread
  | .attributeError text =>
      match call, call.bind ProxyCall.methodname with
      | some call, some methodname =>
          match fallbackMapping methodname with
          | some operation =>
              if call.bare then thread.goTo (.fallingBack operation obj)
              else thread.goTo (.sending (.traceback (.exception "TypeError")))
          | none => thread.goTo (.sending (.traceback (.exception "KeyError")))
      | _, _ => thread.goTo (.sending (.traceback (.attributeError text)))
  | .eofError _ => thread.goTo (.exited 0)
  | .exception text => thread.goTo (.sending (.traceback (.exception text)))

/-- `obj, exposed, gettypeid = id_to_obj[ident]` and the check of the name. -/
def look (thread : ServerThread) (call : ProxyCall) : ServerThread :=
  match call.ident with
  | none => thread.handle (some call) none (.exception "KeyError")
  | some ident =>
      match thread.server.idToObj ident with
      | none => thread.handle (some call) none (.exception "KeyError")
      | some .reserved => thread.handle (some call) none (.exception "ValueError")
      | some (.object obj exposed gettypeid) =>
          match call.methodname with
          | none => thread.handle (some call) (some obj) (.attributeError "not exposed")
          | some methodname =>
              if methodname ∈ exposed then
                thread.goTo (.getting call ⟨ident, obj, methodname, thread.server.idToObj⟩
                  gettypeid)
              else thread.handle (some call) (some obj) (.attributeError "not exposed")

/-- `gettypeid and gettypeid.get(methodname, None)`, where the empty string is no typeid. -/
def typeidOf (gettypeid : Option (List (String × String))) (methodname : String) :
    Option String :=
  (gettypeid.bind (·.lookup methodname)).filter (· ≠ "")

def respond (thread : ServerThread) (message : ServerMessage) : ServerThread :=
  { thread with stage := .polling, events := thread.events ++ [.sent message] }

def received (thread : ServerThread) (request : ProxyRequest) : ServerThread :=
  { thread with events := thread.events ++ [.received request] }

def called (thread : ServerThread) (access : MethodAccess) : ServerThread :=
  { thread with invoked := thread.invoked ++ [access] }

def step (thread : ServerThread) : ServeStep → Option ServerThread
  | .others server => some { thread with server }
  | .stop => some { thread with stopped := true }
  | .hangUp =>
      match thread.stage with
      | .receiving => some { thread with closed := true, stage := .exited 0 }
      | _ => none
  | .poll =>
      match thread.stage with
      | .polling => some (thread.goTo (if thread.stopped then .returned else .receiving))
      | _ => none
  | .receive request =>
      match thread.stage, request with
      | .receiving, .undecodable exc | .receiving, .malformed exc =>
          some ((thread.received request).handle none none exc)
      | .receiving, .call call => some ((thread.received request).goTo (.looking call))
      | _, _ => none
  | .look hashing =>
      match thread.stage, hashing with
      | .looking call, some exc => some (thread.handle (some call) none exc)
      | .looking call, none => some (thread.look call)
      | _, _ => none
  | .get found =>
      match thread.stage, found with
      | .getting call access _, .error exc =>
          some (thread.handle (some call) (some access.obj) exc)
      | .getting call access gettypeid, .ok () =>
          some (thread.goTo (.calling call access gettypeid))
      | _, _ => none
  | .invoke res =>
      match thread.stage, res with
      | .calling _ access _, .error exc =>
          some ((thread.called access).goTo (.sending (.error exc)))
      | .calling call access gettypeid, .ok res =>
          match typeidOf gettypeid access.methodname with
          | some typeid => some ((thread.called access).goTo (.creating call access typeid res))
          | none => some ((thread.called access).goTo (.sending (.result res)))
      | _, _ => none
  | .create built =>
      match thread.stage, built with
      | .creating call access _ _, .error exc =>
          some (thread.handle (some call) (some access.obj) exc)
      | .creating _ _ typeid _, .ok (obj, exposed, methodToTypeid) =>
          some { thread with
            server := thread.server.create obj exposed methodToTypeid
            stage := .sending (.proxy exposed typeid obj.id) }
      | _, _ => none
  | .fallBack result =>
      match thread.stage with
      | .fallingBack operation obj =>
          some { thread with
            fallbacks := thread.fallbacks ++ [(operation, obj)]
            stage := .sending (match result with
              | .error exc => .traceback exc
              | .ok value => .result value) }
      | _ => none
  | .send failure =>
      match thread.stage, failure with
      | .sending message, none => some (thread.respond message)
      | .sending message, some _ => some (thread.goTo (.representing message))
      | _, _ => none
  | .represent text =>
      match thread.stage, text with
      | .representing _, .ok text => some (thread.goTo (.sendingText text))
      | .representing _, .error _ => some (thread.goTo (.exited 1))
      | _, _ => none
  | .sendText =>
      match thread.stage with
      | .sendingText text => some (thread.respond (.unserializable text))
      | _ => none

end ServerThread

/-- Each request is followed by one response. -/
def Answered : List ServeEvent → Prop
  | [] => True
  | .received _ :: .sent _ :: events => Answered events
  | _ :: _ => False

/-- The last request waits for its response. -/
def Unanswered (events : List ServeEvent) : Prop :=
  ∃ front request, events = front ++ [.received request] ∧ Answered front

/-- How far the thread is from the response that it owes. -/
def ServeStage.rank : ServeStage → Nat
  | .looking _ => 8
  | .getting _ _ _ => 7
  | .calling _ _ _ => 6
  | .creating _ _ _ _ => 5
  | .fallingBack _ _ => 4
  | .sending _ => 3
  | .representing _ => 2
  | .sendingText _ => 1
  | .polling | .receiving | .returned | .exited _ => 0

/-- The method was in the exposed set stored under the ident. -/
def MethodAccess.Exposed (access : MethodAccess) : Prop :=
  ∃ exposed gettypeid, access.table access.ident = some (.object access.obj exposed gettypeid) ∧
    access.methodname ∈ exposed

def ServeStep.own : ServeStep → Bool
  | .others _ | .stop => false
  | _ => true

namespace ServerThread

end ServerThread

def ServeError.isEof : ServeError → Bool
  | .eofError _ => true
  | .attributeError _ | .exception _ => false

/-- No `EOFError` but in a method and a fallback, and no message without a `repr`. -/
def ServeStep.harmless : ServeStep → Bool
  | .receive (.undecodable exc) | .receive (.malformed exc) | .look (some exc)
  | .get (.error exc) | .create (.error exc) => !exc.isEof
  | .represent (.error _) => false
  | _ => true

theorem Answered.append {front back : List ServeEvent} (answered : Answered front)
    (more : Answered back) : Answered (front ++ back) := by
  fun_induction Answered front with
  | case1 => exact more
  | case2 request message events ih => exact ih answered
  | case3 => exact answered.elim

theorem Unanswered.respond {events : List ServeEvent} (unanswered : Unanswered events)
    (message : ServerMessage) : Answered (events ++ [.sent message]) := by
  obtain ⟨front, request, rfl, answered⟩ := unanswered
  rw [List.append_assoc]
  exact answered.append True.intro

def ServeStage.access? : ServeStage → Option MethodAccess
  | .getting _ access _ | .calling _ access _ | .creating _ access _ _ => some access
  | _ => none

namespace ServerThread

variable {thread next : ServerThread} {label : ServeStep}

theorem handle_goTo (thread : ServerThread) (call : Option ProxyCall) (obj : Option Object)
    {exc : ServeError} (not_eof : exc.isEof = false) : ∃ stage,
      thread.handle call obj exc = thread.goTo stage ∧ 0 < stage.rank ∧ stage.rank ≤ 4 ∧
        stage.access? = none := by
  have traceback (error : ServeError) : ∃ stage,
      thread.goTo (.sending (.traceback error)) = thread.goTo stage ∧ 0 < stage.rank ∧
        stage.rank ≤ 4 ∧ stage.access? = none := ⟨_, rfl, Nat.succ_pos _, Nat.le_succ 3, rfl⟩
  cases exc with
  | eofError text => cases not_eof
  | exception text => exact traceback _
  | attributeError text =>
      simp only [handle]
      split
      · split
        · split
          · exact ⟨_, rfl, Nat.succ_pos _, Nat.le_refl 4, rfl⟩
          · exact traceback _
        · exact traceback _
      · exact traceback _

theorem look_goTo (thread : ServerThread) (call : ProxyCall) : ∃ stage,
    thread.look call = thread.goTo stage ∧ 0 < stage.rank ∧ stage.rank < 8 ∧
      ∀ access ∈ stage.access?, access.Exposed := by
  have handled (obj : Option Object) (exc : ServeError) (not_eof : exc.isEof = false) :
      ∃ stage, thread.handle (some call) obj exc = thread.goTo stage ∧ 0 < stage.rank ∧
        stage.rank < 8 ∧ ∀ access ∈ stage.access?, access.Exposed := by
    obtain ⟨stage, same, busy, low, none_called⟩ := handle_goTo thread (some call) obj not_eof
    refine ⟨stage, same, busy, Nat.lt_of_le_of_lt low (by decide), ?_⟩
    rw [none_called]
    exact fun access listed => by cases listed
  unfold look
  split
  · exact handled _ _ rfl
  · split
    · exact handled _ _ rfl
    · exact handled _ _ rfl
    · rename_i ident _ obj exposed gettypeid found
      split
      · exact handled _ _ rfl
      · split
        · rename_i methodname _ listed
          refine ⟨_, rfl, Nat.succ_pos _, Nat.lt_succ_self _, ?_⟩
          intro access known
          cases known
          exact ⟨exposed, gettypeid, found, listed⟩
        · exact handled _ _ rfl

/-- What a step makes of the thread, by the response that the thread owes before and
after it. -/
inductive Turn (thread : ServerThread) (label : ServeStep) : ServerThread → Prop
  | aside (server : Server) (stopped : Bool) (others : label.own = false)
      (kept : thread.stopped = true → stopped = true) :
      Turn thread label { thread with server, stopped }
  | idle (stage : ServeStage) (closed : Bool) (was : thread.stage.rank = 0)
      (still : stage.rank = 0) (exits : ∀ status, stage = .exited status → closed = true)
      (returns : stage = .returned → thread.stopped = true) :
      Turn thread label { thread with stage, closed }
  | accept (request : ProxyRequest) (stage : ServeStage) (was : thread.stage.rank = 0)
      (busy : 0 < stage.rank) (uncalled : stage.access? = none) :
      Turn thread label ((thread.received request).goTo stage)
  | proceed (after : ServerThread) (still : 0 < after.stage.rank)
      (lower : after.stage.rank < thread.stage.rank) (events : after.events = thread.events)
      (invoked : ∀ access ∈ after.invoked,
        access ∈ thread.invoked ∨ access ∈ thread.stage.access?)
      (accessed : ∀ access ∈ after.stage.access?,
        access ∈ thread.stage.access? ∨ access.Exposed) :
      Turn thread label after
  | respond (message : ServerMessage) (busy : 0 < thread.stage.rank) :
      Turn thread label (thread.respond message)
  | abort (after : ServerThread) (harmful : label.harmless = false)
      (left : after.stage.rank = 0) : Turn thread label after

theorem Turn.goTo {stage : ServeStage} (still : 0 < stage.rank)
    (lower : stage.rank < thread.stage.rank)
    (accessed : ∀ access ∈ stage.access?, access ∈ thread.stage.access? ∨ access.Exposed) :
    Turn thread label (thread.goTo stage) :=
  .proceed _ still lower rfl (fun _ listed => .inl listed) accessed

/-- An end of file leaves the loop, whatever was being served. -/
theorem Turn.handleEof {caller : ServerThread} {call : Option ProxyCall} {obj : Option Object}
    {exc : ServeError} (eof : exc.isEof = true) (same : label.harmless = !exc.isEof) :
    Turn thread label (caller.handle call obj exc) := by
  cases exc with
  | eofError text => exact .abort _ same rfl
  | attributeError text => cases eof
  | exception text => cases eof

theorem Turn.handle {call : Option ProxyCall} {obj : Option Object} {exc : ServeError}
    (high : 4 < thread.stage.rank) (same : label.harmless = !exc.isEof) :
    Turn thread label (thread.handle call obj exc) := by
  cases eof : exc.isEof with
  | true => exact .handleEof eof same
  | false =>
      obtain ⟨stage, handled, busy, low, uncalled⟩ := handle_goTo thread call obj eof
      rw [handled]
      apply Turn.goTo busy (Nat.lt_of_le_of_lt low high)
      rw [uncalled]
      exact fun access listed => by cases listed

theorem Turn.refuse {request : ProxyRequest} {exc : ServeError}
    (was : thread.stage.rank = 0) (same : label.harmless = !exc.isEof) :
    Turn thread label ((thread.received request).handle none none exc) := by
  cases eof : exc.isEof with
  | true => exact .handleEof eof same
  | false =>
      obtain ⟨stage, handled, busy, _, uncalled⟩ :=
        handle_goTo (thread.received request) none none eof
      rw [handled]
      exact .accept request stage was busy uncalled

theorem turn_of_step (taken : thread.step label = some next) : Turn thread label next := by
  have uncalled {stage : ServeStage} (none_called : stage.access? = none) :
      ∀ access ∈ stage.access?, access ∈ thread.stage.access? ∨ access.Exposed := by
    rw [none_called]
    exact fun access listed => by cases listed
  cases label with
  | others server =>
      cases taken
      exact .aside server thread.stopped rfl id
  | stop =>
      cases taken
      exact .aside thread.server true rfl fun _ => rfl
  | hangUp =>
      simp only [step] at taken
      split at taken
      case h_1 here =>
        cases taken
        exact .idle (.exited 0) true (by rw [here]; rfl) rfl (fun _ _ => rfl)
          (fun left => by cases left)
      case h_2 => cases taken
  | poll =>
      simp only [step] at taken
      split at taken
      case h_1 here =>
        cases taken
        cases stopped : thread.stopped with
        | true =>
            exact .idle .returned thread.closed (by rw [here]; rfl) rfl
              (fun _ left => by cases left) (fun _ => stopped)
        | false =>
            exact .idle .receiving thread.closed (by rw [here]; rfl) rfl
              (fun _ left => by cases left) (fun left => by cases left)
      case h_2 => cases taken
  | receive request =>
      simp only [step] at taken
      split at taken
      case h_1 exc here =>
        cases taken
        exact .refuse (by rw [here]; rfl) rfl
      case h_2 exc here =>
        cases taken
        exact .refuse (by rw [here]; rfl) rfl
      case h_3 call here =>
        cases taken
        exact .accept _ (.looking call) (by rw [here]; rfl) (Nat.succ_pos _) rfl
      case h_4 => cases taken
  | look hashing =>
      simp only [step] at taken
      split at taken
      case h_1 call exc here =>
        cases taken
        exact .handle (by rw [here]; exact (by decide : 4 < 8)) rfl
      case h_2 call here =>
        cases taken
        obtain ⟨stage, same, busy, lower, exposed⟩ := look_goTo thread call
        rw [same]
        exact .goTo busy (by rw [here]; exact lower) fun access known => .inr (exposed access known)
      case h_3 => cases taken
  | get found =>
      simp only [step] at taken
      split at taken
      case h_1 here =>
        cases taken
        exact .handle (by rw [here]; exact (by decide : 4 < 7)) rfl
      case h_2 here =>
        cases taken
        refine .goTo (Nat.succ_pos _) (by rw [here]; exact Nat.lt_succ_self 6) ?_
        rw [here]
        exact fun access known => .inl known
      case h_3 => cases taken
  | invoke res =>
      simp only [step] at taken
      -- the method is the one that the stage has kept since it was looked up
      have invoked {access : MethodAccess} (here : thread.stage.access? = some access) :
          ∀ other ∈ thread.invoked ++ [access],
            other ∈ thread.invoked ∨ other ∈ thread.stage.access? := by
        intro other listed
        cases List.mem_append.mp listed with
        | inl before => exact .inl before
        | inr last => exact .inr (here.trans (congrArg some (List.mem_singleton.mp last).symm))
      split at taken
      case h_1 here =>
        cases taken
        exact .proceed _ (Nat.succ_pos _) (by rw [here]; exact (by decide : 3 < 6)) rfl
          (invoked (by rw [here]; rfl)) (uncalled rfl)
      case h_2 here =>
        split at taken
        · cases taken
          refine .proceed _ (Nat.succ_pos _) (by rw [here]; exact Nat.lt_succ_self 5) rfl
            (invoked (by rw [here]; rfl)) ?_
          rw [here]
          exact fun access known => .inl known
        · cases taken
          exact .proceed _ (Nat.succ_pos _) (by rw [here]; exact (by decide : 3 < 6)) rfl
            (invoked (by rw [here]; rfl)) (uncalled rfl)
      case h_3 => cases taken
  | create built =>
      simp only [step] at taken
      split at taken
      case h_1 here =>
        cases taken
        exact .handle (by rw [here]; exact (by decide : 4 < 5)) rfl
      case h_2 here =>
        cases taken
        exact .proceed _ (Nat.succ_pos _) (by rw [here]; exact (by decide : 3 < 5)) rfl
          (fun _ listed => .inl listed) (uncalled rfl)
      case h_3 => cases taken
  | fallBack result =>
      simp only [step] at taken
      split at taken
      case h_1 here =>
        cases taken
        exact .proceed _ (Nat.succ_pos _) (by rw [here]; exact Nat.lt_succ_self 3) rfl
          (fun _ listed => .inl listed) (uncalled rfl)
      case h_2 => cases taken
  | send failure =>
      simp only [step] at taken
      split at taken
      case h_1 here =>
        cases taken
        exact .respond _ (by rw [here]; exact Nat.succ_pos 2)
      case h_2 here =>
        cases taken
        exact .goTo (Nat.succ_pos _) (by rw [here]; exact Nat.lt_succ_self 2) (uncalled rfl)
      case h_3 => cases taken
  | represent text =>
      simp only [step] at taken
      split at taken
      case h_1 here =>
        cases taken
        exact .goTo (Nat.succ_pos _) (by rw [here]; exact Nat.lt_succ_self 1) (uncalled rfl)
      case h_2 =>
        cases taken
        exact .abort _ rfl rfl
      case h_3 => cases taken
  | sendText =>
      simp only [step] at taken
      split at taken
      case h_1 here =>
        cases taken
        exact .respond _ (by rw [here]; exact Nat.succ_pos 0)
      case h_2 => cases taken

theorem rank_lt (taken : thread.step label = some next) (own : label.own = true)
    (busy : 0 < thread.stage.rank) : next.stage.rank < thread.stage.rank := by
  cases turn_of_step taken with
  | aside server stopped others kept => cases own.symm.trans others
  | idle stage closed was => exact absurd was (Nat.ne_of_gt busy)
  | accept request stage was => exact absurd was (Nat.ne_of_gt busy)
  | proceed _ still lower => exact lower
  | respond message => exact busy
  | abort _ harmful left => exact left.symm ▸ busy

structure Invariant (thread : ServerThread) : Prop where
  answered : thread.stage.rank = 0 → Answered thread.events
  unanswered : 0 < thread.stage.rank → Unanswered thread.events
  exits : ∀ status, thread.stage = .exited status → thread.closed = true
  returns : thread.stage = .returned → thread.stopped = true
  exposed : ∀ access ∈ thread.invoked, access.Exposed
  accessed : ∀ access ∈ thread.stage.access?, access.Exposed

theorem ne_exited {stage : ServeStage} (busy : 0 < stage.rank) (status : Nat) :
    stage ≠ .exited status := by
  intro same
  subst same
  cases busy

theorem ne_returned {stage : ServeStage} (busy : 0 < stage.rank) : stage ≠ .returned := by
  intro same
  subst same
  cases busy

theorem no_access {stage : ServeStage} (none_called : stage.access? = none) :
    ∀ access ∈ stage.access?, access.Exposed := by
  rw [none_called]
  exact fun access listed => by cases listed

theorem access?_of_idle {stage : ServeStage} (idle : stage.rank = 0) : stage.access? = none := by
  cases stage <;> first | rfl | cases idle

theorem Invariant.accept (invariant : thread.Invariant) (was : thread.stage.rank = 0)
    (request : ProxyRequest) {stage : ServeStage} (busy : 0 < stage.rank)
    (uncalled : stage.access? = none) : ((thread.received request).goTo stage).Invariant where
  answered idle := absurd idle (Nat.ne_of_gt busy)
  unanswered _ := ⟨thread.events, request, rfl, invariant.answered was⟩
  exits status left := absurd left (ne_exited busy status)
  returns left := absurd left (ne_returned busy)
  exposed := invariant.exposed
  accessed := no_access uncalled

theorem Invariant.proceed (invariant : thread.Invariant) {after : ServerThread}
    (still : 0 < after.stage.rank) (lower : after.stage.rank < thread.stage.rank)
    (events : after.events = thread.events)
    (invoked : ∀ access ∈ after.invoked,
      access ∈ thread.invoked ∨ access ∈ thread.stage.access?)
    (accessed : ∀ access ∈ after.stage.access?,
      access ∈ thread.stage.access? ∨ access.Exposed) : after.Invariant where
  answered idle := absurd idle (Nat.ne_of_gt still)
  unanswered _ := events ▸ invariant.unanswered (Nat.zero_lt_of_lt lower)
  exits status here := absurd here (ne_exited still status)
  returns here := absurd here (ne_returned still)
  exposed access listed := (invoked access listed).elim (invariant.exposed access)
    (invariant.accessed access)
  accessed access known := (accessed access known).elim (invariant.accessed access) id

theorem Invariant.respond (invariant : thread.Invariant) (busy : 0 < thread.stage.rank)
    (message : ServerMessage) : (thread.respond message).Invariant where
  answered _ := (invariant.unanswered busy).respond message
  unanswered idle := absurd idle (Nat.lt_irrefl 0)
  exits status here := by cases here
  returns here := by cases here
  exposed := invariant.exposed
  accessed access here := by cases here

theorem Invariant.idle (invariant : thread.Invariant) (was : thread.stage.rank = 0)
    {stage : ServeStage} (still : stage.rank = 0) {closed : Bool}
    (exits : ∀ status, stage = .exited status → closed = true)
    (returns : stage = .returned → thread.stopped = true) :
    Invariant { thread with stage, closed } where
  answered _ := invariant.answered was
  unanswered busy := absurd still (Nat.ne_of_gt busy)
  exits := exits
  returns := returns
  exposed := invariant.exposed
  accessed := no_access (access?_of_idle still)

theorem init_invariant (server : Server) : (init server).Invariant where
  answered _ := True.intro
  unanswered busy := absurd busy (Nat.lt_irrefl 0)
  exits status here := by cases here
  returns here := by cases here
  exposed access listed := by cases listed
  accessed access here := by cases here

theorem step_invariant : Preserves step (fun _ label => label.harmless = true) Invariant := by
  intro thread label next invariant harmless taken
  cases turn_of_step taken with
  | aside server stopped others kept =>
      exact ⟨invariant.answered, invariant.unanswered, invariant.exits,
        fun left => kept (invariant.returns left), invariant.exposed, invariant.accessed⟩
  | idle stage closed was still exits returns => exact invariant.idle was still exits returns
  | accept request stage was busy uncalled => exact invariant.accept was request busy uncalled
  | proceed _ still lower events invoked accessed =>
      exact invariant.proceed still lower events invoked accessed
  | respond message busy => exact invariant.respond busy message
  | abort _ harmful left => cases harmless.symm.trans harmful

end ServerThread

end Billiard
