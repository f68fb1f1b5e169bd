import Billiard.Data.Tally
import Billiard.Data.Transition
import Mathlib.Data.Finset.Erase
import Mathlib.Data.Finset.Insert

/-! The fork servers of a tree of processes, from `ensure_running` to their end: the connections by
which they are asked for children, and who has the writing ends of their pipes and of those of the
children. -/

namespace Billiard

open Transition Tally

/-- `server` is the one it has the address and the writing end of, `origin` the request that it was
forked for, and `waits` tells that it is at `recvfds` in `_serve_one`.  `writers` are the requests
whose `child_w` it has, `line` it and the processes it was forked from by the method `fork`. -/
structure ServedProcess where
  alive : Bool
  server : Option Nat
  origin : Option Nat
  waits : Bool
  writers : Finset Nat
  inherited : List Nat
  line : List Nat
deriving DecidableEq

/-- A fork server; `backlog` are the connections that it has yet to accept. -/
structure ServerProcess where
  alive : Bool
  backlog : List Nat
deriving DecidableEq, Repr

/-- A call of `connect_to_new_process`: `sent` and `received` tell of the message with the
descriptors, `pid` and `code` are what the child has written. -/
structure ChildRequest where
  client : Nat
  server : Nat
  fds : List Nat
  sent : Bool
  child : Option Nat
  received : Bool
  pid : Option Nat
  code : Option Nat
deriving DecidableEq, Repr

structure ForkServers where
  servers : List ServerProcess
  processes : List ServedProcess
  requests : List ChildRequest
  refused : Nat
deriving DecidableEq

inductive ForkServerAction where
  | ensureRunning (process : Nat)
  | connect (process : Nat) (fds : List Nat)
  | sendfds (request : Nat)
  | close (request : Nat)
  | accept (server : Nat)
  | recvfds (request : Nat)
  | writePid (request : Nat)
  | writeCode (request code : Nat)
  | fork (process : Nat)
  | spawn (process : Nat)
  | exit (process : Nat)
  | leave (server : Nat)
deriving DecidableEq, Repr

namespace ForkServers

def init : ForkServers := ⟨[], [⟨true, none, none, false, ∅, [], [0]⟩], [], 0⟩

def isAlive (family : ForkServers) (p : Nat) : Bool := family.processes[p]?.any (·.alive)

/-- The message is under way as long as somebody can receive it, and has the descriptors then. -/
def inFlight (family : ForkServers) (request : ChildRequest) : Bool :=
  request.sent && !request.received && request.child.all family.isAlive

/-- The rest of `connect_to_new_process` up to `sendfds`; a listener that is gone refuses. -/
def connect (family : ForkServers) (p : Nat) (process : ServedProcess) (n : Nat)
    (fds : List Nat) : ForkServers :=
  match family.servers[n]? with
  | some ⟨true, backlog⟩ =>
      { family with
        servers := family.servers.set n ⟨true, backlog ++ [family.requests.length]⟩
        processes := family.processes.set p
          { process with writers := insert family.requests.length process.writers }
        requests := family.requests ++ [⟨p, n, fds, false, none, false, none, none⟩] }
  | _ => { family with refused := family.refused + 1 }

/-- A turn of the loop of `main` -/
def accept (family : ForkServers) (n : Nat) : Option ForkServers :=
  match family.servers[n]? with
  | some ⟨true, r :: backlog⟩ =>
      match family.requests[r]? with
      | none => none
      | some request =>
          some { family with
            servers := family.servers.set n ⟨true, backlog⟩
            processes := family.processes ++
              [⟨true, none, some r, true, ∅, [], [family.processes.length]⟩]
            requests := family.requests.set r
              { request with child := some family.processes.length } }
  | _ => none

/-- `_serve_one` up to where it has unpacked the descriptors -/
def recvfds (family : ForkServers) (r : Nat) (request : ChildRequest) : Option ForkServers :=
  match request.child with
  | none => none
  | some c =>
      match family.processes[c]? with
      | none => none
      | some process =>
          if process.alive = true ∧ process.waits = true ∧ request.sent = true then
            some { family with
              processes := family.processes.set c
                { process with
                  server := some request.server, waits := false, writers := {r}
                  inherited := request.fds }
              requests := family.requests.set r { request with received := true } }
          else none

/-- The system is done with the end of the pipe where nobody has its other end. -/
def abandoned (family : ForkServers) (n : Nat) : Bool :=
  (family.processes.all fun process => !(process.alive && process.server == some n)) &&
    family.requests.all fun request => !(request.server == n && family.inFlight request)

def step (family : ForkServers) : ForkServerAction → Option ForkServers
  | .ensureRunning p =>
      match family.processes[p]? with
      | none => none
      | some process =>
          if process.alive = true ∧ process.waits = false then
            match process.server with
            | some _ => some family
            | none =>
                some { family with
                  servers := family.servers ++ [⟨true, []⟩]
                  processes := family.processes.set p
                    { process with server := some family.servers.length } }
          else none
  | .connect p fds =>
      match family.processes[p]? with
      | none => none
      | some process =>
          if process.alive = true ∧ process.waits = false then
            match process.server with
            | none => none
            | some n =>
                if fds.length + 4 ≥ 256 then some family
                else some (family.connect p process n fds)
          else none
  | .sendfds r =>
      match family.requests[r]? with
      | none => none
      | some request =>
          match family.processes[request.client]? with
          | none => none
          | some process =>
              if process.alive = true ∧ r ∈ process.writers ∧ request.sent = false ∧
                  request.child.all family.isAlive = true then
                some { family with
                  requests := family.requests.set r { request with sent := true } }
              else none
  | .close r =>
      match family.requests[r]? with
      | none => none
      | some request =>
          match family.processes[request.client]? with
          | none => none
          | some process =>
              if process.alive = true ∧ r ∈ process.writers then
                some { family with
                  processes := family.processes.set request.client
                    { process with writers := process.writers.erase r } }
              else none
  | .accept n => family.accept n
  | .recvfds r =>
      match family.requests[r]? with
      | none => none
      | some request => family.recvfds r request
  | .writePid r =>
      match family.requests[r]? with
      | none => none
      | some request =>
          if request.received = true ∧ request.pid = none ∧
              request.child.any family.isAlive = true then
            some { family with
              requests := family.requests.set r { request with pid := request.child } }
          else none
  | .writeCode r code =>
      match family.requests[r]? with
      | none => none
      | some request =>
          if request.pid ≠ none ∧ request.code = none ∧
              request.child.any family.isAlive = true then
            some { family with
              requests := family.requests.set r { request with code := some code } }
          else none
  | .fork p =>
      match family.processes[p]? with
      | none => none
      | some process =>
          if process.alive = true ∧ process.waits = false then
            some { family with
              processes := family.processes ++
                [{ process with
                    origin := none, line := family.processes.length :: process.line }] }
          else none
  | .spawn p =>
      match family.processes[p]? with
      | none => none
      | some process =>
          if process.alive = true ∧ process.waits = false then
            some { family with
              processes := family.processes ++
                [⟨true, none, none, false, ∅, [], [family.processes.length]⟩] }
          else none
  | .exit p =>
      match family.processes[p]? with
      | none => none
      | some process =>
          some { family with
            processes := family.processes.set p { process with alive := false } }
  | .leave n =>
      match family.servers[n]? with
      | none => none
      | some server =>
          if server.alive = true ∧ family.abandoned n = true then
            some { family with servers := family.servers.set n { server with alive := false } }
          else none

/-- `Popen.poll` once the pid has been read: a code, or 255 at the end of the pipe. -/
def poll (family : ForkServers) (r : Nat) (request : ChildRequest) : Option Nat :=
  match request.code with
  | some code => some code
  | none =>
      if family.processes.any (fun process => process.alive && decide (r ∈ process.writers)) ||
          family.inFlight request then none
      else some 255

variable {family next last : ForkServers} {p r n : Nat} {process new : ServedProcess}
  {request changed : ChildRequest} {action : ForkServerAction} {labels : List ForkServerAction}

theorem isAlive_eq_true :
    family.isAlive p = true ↔ ∃ process, family.processes[p]? = some process ∧
      process.alive = true := by
  unfold isAlive
  rw [Option.any_eq_true]

theorem inFlight_eq_true :
    family.inFlight request = true ↔ request.sent = true ∧ request.received = false ∧
      ∀ c, request.child = some c → family.isAlive c = true := by
  unfold inFlight
  rw [Bool.and_eq_true, Bool.and_eq_true, Bool.not_eq_true', Option.all_eq_true, and_assoc]

def Serves (family : ForkServers) (n : Nat) : Prop :=
  ∃ backlog, family.servers[n]? = some ⟨true, backlog⟩

theorem Serves.set {m : Nat} (serves : family.Serves m) {old : List Nat}
    (place : family.servers[n]? = some ⟨true, old⟩) (new : List Nat) :
    ∃ backlog, (family.servers.set n ⟨true, new⟩)[m]? = some ⟨true, backlog⟩ := by
  obtain ⟨backlog, here⟩ := serves
  by_cases same : n = m
  · subst same
    exact ⟨new, getElem?_set_found place _⟩
  · exact ⟨backlog, (List.getElem?_set_ne same).trans here⟩

theorem abandoned_eq_true :
    family.abandoned n = true ↔
      (∀ process ∈ family.processes, process.alive = true → process.server ≠ some n) ∧
        ∀ request ∈ family.requests, request.server = n → family.inFlight request = false := by
  unfold abandoned
  simp only [Bool.and_eq_true, List.all_eq_true, Bool.not_eq_true', Bool.and_eq_false_imp,
    beq_eq_false_iff_ne, beq_iff_eq]

/-- What a step does, with what it finds. -/
inductive Turn (family : ForkServers) : ForkServerAction → ForkServers → Prop where
  | stays (action : ForkServerAction) : Turn family action family
  | starts (p : Nat) (process : ServedProcess) (found : family.processes[p]? = some process)
      (lonely : process.server = none) :
      Turn family (.ensureRunning p)
        { family with
          servers := family.servers ++ [⟨true, []⟩]
          processes := family.processes.set p
            { process with server := some family.servers.length } }
  | connects (p n : Nat) (process : ServedProcess) (fds : List Nat)
      (found : family.processes[p]? = some process) (alive : process.alive = true)
      (acts : process.waits = false) (uses : process.server = some n) :
      Turn family (.connect p fds) (family.connect p process n fds)
  | sends (r : Nat) (request : ChildRequest) (client : ServedProcess)
      (found : family.requests[r]? = some request)
      (place : family.processes[request.client]? = some client) (alive : client.alive = true)
      (unsent : request.sent = false) :
      Turn family (.sendfds r)
        { family with requests := family.requests.set r { request with sent := true } }
  | closes (r : Nat) (request : ChildRequest) (client : ServedProcess)
      (found : family.requests[r]? = some request)
      (place : family.processes[request.client]? = some client) :
      Turn family (.close r)
        { family with
          processes := family.processes.set request.client
            { client with writers := client.writers.erase r } }
  | accepts (n : Nat) (next : ForkServers) (taken : family.accept n = some next) :
      Turn family (.accept n) next
  | receives (r : Nat) (request : ChildRequest) (next : ForkServers)
      (found : family.requests[r]? = some request)
      (taken : family.recvfds r request = some next) : Turn family (.recvfds r) next
  | tellsPid (r : Nat) (request : ChildRequest) (found : family.requests[r]? = some request)
      (received : request.received = true) :
      Turn family (.writePid r)
        { family with requests := family.requests.set r { request with pid := request.child } }
  | tellsCode (r code : Nat) (request : ChildRequest)
      (found : family.requests[r]? = some request) :
      Turn family (.writeCode r code)
        { family with requests := family.requests.set r { request with code := some code } }
  | forks (p : Nat) (process : ServedProcess) (found : family.processes[p]? = some process)
      (acts : process.waits = false) :
      Turn family (.fork p)
        { family with
          processes := family.processes ++
            [{ process with origin := none, line := family.processes.length :: process.line }] }
  | spawns (p : Nat) :
      Turn family (.spawn p)
        { family with
          processes := family.processes ++
            [⟨true, none, none, false, ∅, [], [family.processes.length]⟩] }
  | exits (p : Nat) (process : ServedProcess) (found : family.processes[p]? = some process) :
      Turn family (.exit p)
        { family with processes := family.processes.set p { process with alive := false } }
  | leaves (n : Nat) (server : ServerProcess) (place : family.servers[n]? = some server)
      (gone : family.abandoned n = true) :
      Turn family (.leave n)
        { family with servers := family.servers.set n { server with alive := false } }

theorem step_turn (taken : step family action = some next) : Turn family action next := by
  cases action with
  | ensureRunning p =>
      simp only [step] at taken
      split at taken
      · cases taken
      · rename_i process found
        split at taken
        · split at taken
          · cases taken
            exact .stays _
          · cases taken
            exact .starts p process found ‹_›
        · cases taken
  | connect p fds =>
      simp only [step] at taken
      split at taken
      · cases taken
      · rename_i process found
        split at taken
        · rename_i acts
          split at taken
          · cases taken
          · rename_i n uses
            split at taken
            · cases taken
              exact .stays _
            · cases taken
              exact .connects p n process fds found acts.1 acts.2 uses
        · cases taken
  | sendfds r =>
      simp only [step] at taken
      split at taken
      · cases taken
      · rename_i request found
        split at taken
        · cases taken
        · rename_i client place
          split at taken
          · rename_i ready
            cases taken
            exact .sends r request client found place ready.1 ready.2.2.1
          · cases taken
  | close r =>
      simp only [step] at taken
      split at taken
      · cases taken
      · rename_i request found
        split at taken
        · cases taken
        · rename_i client place
          split at taken
          · cases taken
            exact .closes r request client found place
          · cases taken
  | accept n => exact .accepts n next taken
  | recvfds r =>
      simp only [step] at taken
      split at taken
      · cases taken
      · exact .receives r _ next ‹_› taken
  | writePid r =>
      simp only [step] at taken
      split at taken
      · cases taken
      · rename_i request found
        split at taken
        · rename_i ready
          cases taken
          exact .tellsPid r request found ready.1
        · cases taken
  | writeCode r code =>
      simp only [step] at taken
      split at taken
      · cases taken
      · split at taken
        · cases taken
          exact .tellsCode r code _ ‹_›
        · cases taken
  | fork p =>
      simp only [step] at taken
      split at taken
      · cases taken
      · rename_i process found
        split at taken
        · rename_i acts
          cases taken
          exact .forks p process found acts.2
        · cases taken
  | spawn p =>
      simp only [step] at taken
      split at taken
      · cases taken
      · split at taken
        · cases taken
          exact .spawns p
        · cases taken
  | exit p =>
      simp only [step] at taken
      split at taken
      · cases taken
      · cases taken
        exact .exits p _ ‹_›
  | leave n =>
      simp only [step] at taken
      split at taken
      · cases taken
      · rename_i server place
        split at taken
        · rename_i ready
          cases taken
          exact .leaves n server place ready.2
        · cases taken

structure Sound (family : ForkServers) : Prop where
  willing : family.refused = 0
  backlogged : ∀ (n : Nat) server, family.servers[n]? = some server → server.backlog.Nodup ∧
    ∀ r ∈ server.backlog, ∃ request, family.requests[r]? = some request ∧ request.server = n ∧
      request.child = none
  queued : ∀ (r : Nat) request, family.requests[r]? = some request → request.child = none →
    request.received = false ∧
      ∃ server, family.servers[request.server]? = some server ∧ r ∈ server.backlog
  running : ∀ (p : Nat) process n, family.processes[p]? = some process → process.alive = true →
    process.server = some n → family.Serves n
  flying : ∀ (r : Nat) request, family.requests[r]? = some request →
    family.inFlight request = true → family.Serves request.server
  children : ∀ (r : Nat) request c, family.requests[r]? = some request → request.child = some c →
    ∃ process, family.processes[c]? = some process ∧ process.origin = some r ∧
      process.waits = !request.received ∧
      (request.received = true → request.sent = true ∧ process.inherited = request.fds)
  launched : ∀ (r : Nat) request pid, family.requests[r]? = some request →
    request.pid = some pid → request.received = true ∧ request.child = some pid
  clients : ∀ request ∈ family.requests, ∃ process, family.processes[request.client]? =
    some process ∧ process.waits = false ∧ process.server = some request.server

theorem inFlight_of_alive {processes : List ServedProcess}
    (fewer : ∀ c, isAlive { family with processes } c = true → family.isAlive c = true)
    (flies : inFlight { family with processes } request = true) :
    family.inFlight request = true := by
  obtain ⟨sent, unread, alive⟩ := inFlight_eq_true.mp flies
  exact inFlight_eq_true.mpr ⟨sent, unread, fun c child => fewer c (alive c child)⟩

/-- A process that ends, asks or closes descriptors -/
theorem Sound.setProcess (sound : family.Sound) (found : family.processes[p]? = some process)
    (alive : new.alive = true → process.alive = true)
    (server : new.server = process.server ∨
      process.server = none ∧ ∃ n, new.server = some n ∧ family.Serves n)
    (origin : new.origin = process.origin) (waits : new.waits = process.waits)
    (inherited : new.inherited = process.inherited) :
    Sound { family with processes := family.processes.set p new } := by
  refine ⟨sound.willing, sound.backlogged, sound.queued, fun q member n here lives uses => ?_,
    fun s request here flies => sound.flying s request here (inFlight_of_alive ?_ flies),
    fun s request c here child => ?_, sound.launched, fun request member => ?_⟩
  · obtain ⟨rfl, rfl⟩ | ⟨_, here⟩ := getElem?_set_cases here
    · obtain same | ⟨_, m, other, serves⟩ := server
      · exact sound.running q process n found (alive lives) (same.symm.trans uses)
      · cases other.symm.trans uses
        exact serves
    · exact sound.running q member n here lives uses
  · intro c lives
    obtain ⟨member, here, living⟩ := isAlive_eq_true.mp lives
    obtain ⟨rfl, rfl⟩ | ⟨_, here⟩ := getElem?_set_cases here
    · exact isAlive_eq_true.mpr ⟨process, found, alive living⟩
    · exact isAlive_eq_true.mpr ⟨member, here, living⟩
  · obtain ⟨member, place, from_, waiting, got⟩ := sound.children s request c here child
    by_cases same : c = p
    · subst same
      cases found.symm.trans place
      exact ⟨new, getElem?_set_found found new, origin.trans from_, waits.trans waiting,
        fun received => ⟨(got received).1, inherited.trans (got received).2⟩⟩
    · exact ⟨member, (List.getElem?_set_ne (Ne.symm same)).trans place, from_, waiting, got⟩
  · obtain ⟨client, place, acts, uses⟩ := sound.clients request member
    by_cases same : p = request.client
    · subst same
      cases found.symm.trans place
      obtain kept | ⟨none, _⟩ := server
      · exact ⟨new, getElem?_set_found found new, waits.trans acts, kept.trans uses⟩
      · cases none.symm.trans uses
    · exact ⟨client, (List.getElem?_set_ne same).trans place, acts, uses⟩

theorem Sound.addProcess (sound : family.Sound)
    (server : ∀ n, new.server = some n → new.alive = true → family.Serves n) :
    Sound { family with processes := family.processes ++ [new] } := by
  refine ⟨sound.willing, sound.backlogged, sound.queued, fun q member n here lives uses => ?_,
    fun s request here flies => sound.flying s request here ?_,
    fun s request c here child => ?_, sound.launched, fun request member => ?_⟩
  · obtain here | ⟨_, rfl⟩ := getElem?_concat_cases here
    · exact sound.running q member n here lives uses
    · exact server n uses lives
  · obtain ⟨sent, unread, alive⟩ := inFlight_eq_true.mp flies
    refine inFlight_eq_true.mpr ⟨sent, unread, fun c child => ?_⟩
    obtain ⟨member, lives⟩ := isAlive_eq_true.mp (alive c child)
    obtain ⟨process, place, _⟩ := sound.children s request c here child
    have inside := (List.getElem?_eq_some_iff.mp place).1
    exact isAlive_eq_true.mpr ⟨member, (List.getElem?_append_left inside).symm.trans lives.1,
      lives.2⟩
  · obtain ⟨process, place, rest⟩ := sound.children s request c here child
    have inside := (List.getElem?_eq_some_iff.mp place).1
    exact ⟨process, (List.getElem?_append_left inside).trans place, rest⟩
  · obtain ⟨client, place, rest⟩ := sound.clients request member
    have inside := (List.getElem?_eq_some_iff.mp place).1
    exact ⟨client, (List.getElem?_append_left inside).trans place, rest⟩

/-- A request of which the server and the child stay the same -/
theorem Sound.setRequest (sound : family.Sound) (found : family.requests[r]? = some request)
    (client : changed.client = request.client) (server : changed.server = request.server)
    (child : changed.child = request.child)
    (received : changed.received = request.received) (fds : changed.fds = request.fds)
    (sent : changed.sent = request.sent ∨
      request.sent = false ∧ family.Serves request.server)
    (launched : ∀ pid, changed.pid = some pid →
      request.received = true ∧ request.child = some pid) :
    Sound { family with requests := family.requests.set r changed } := by
  refine ⟨sound.willing, fun n backlog here => ?_, fun s member here free => ?_, sound.running,
    fun s member here flies => ?_, fun s member c here own => ?_, fun s member pid here own => ?_,
    fun member listed => ?_⟩
  · obtain ⟨nodup, all⟩ := sound.backlogged n backlog here
    refine ⟨nodup, fun s listed => ?_⟩
    obtain ⟨member, place, home, free⟩ := all s listed
    by_cases same : s = r
    · subst same
      cases found.symm.trans place
      exact ⟨changed, getElem?_set_found found changed, server.trans home, child.trans free⟩
    · exact ⟨member, (List.getElem?_set_ne (Ne.symm same)).trans place, home, free⟩
  · obtain ⟨rfl, rfl⟩ | ⟨_, here⟩ := getElem?_set_cases here
    · rw [server, received]
      exact sound.queued s request found (child.symm.trans free)
    · exact sound.queued s member here free
  · obtain ⟨rfl, rfl⟩ | ⟨_, here⟩ := getElem?_set_cases here
    · rw [server]
      obtain same | ⟨_, serves⟩ := sent
      · obtain ⟨sends, unread, alive⟩ := inFlight_eq_true.mp flies
        refine sound.flying s request found (inFlight_eq_true.mpr ⟨same.symm.trans sends,
          received.symm.trans unread, fun c own => alive c (child.trans own)⟩)
      · exact serves
    · exact sound.flying s member here flies
  · obtain ⟨rfl, rfl⟩ | ⟨_, here⟩ := getElem?_set_cases here
    · obtain ⟨process, place, from_, waits, got⟩ :=
        sound.children s request c found (child.symm.trans own)
      refine ⟨process, place, from_, by rw [received]; exact waits, fun have_ => ?_⟩
      obtain ⟨sends, inherited⟩ := got (received.symm.trans have_)
      obtain same | ⟨unsent, _⟩ := sent
      · exact ⟨same.trans sends, inherited.trans fds.symm⟩
      · cases unsent.symm.trans sends
    · exact sound.children s member c here own
  · obtain ⟨rfl, rfl⟩ | ⟨_, here⟩ := getElem?_set_cases here
    · obtain ⟨got, own⟩ := launched pid own
      exact ⟨received.trans got, child.trans own⟩
    · exact sound.launched s member pid here own
  · obtain listed | rfl := List.mem_or_eq_of_mem_set listed
    · exact sound.clients member listed
    · rw [client, server]
      exact sound.clients request (List.mem_of_getElem? found)

theorem Sound.addServer (sound : family.Sound) :
    Sound { family with servers := family.servers ++ [⟨true, []⟩] } := by
  have stays : ∀ {m : Nat} {server : ServerProcess}, family.servers[m]? = some server →
      (family.servers ++ [⟨true, []⟩])[m]? = some server := fun here =>
    (List.getElem?_append_left (List.getElem?_eq_some_iff.mp here).1).trans here
  refine ⟨sound.willing, fun m server here => ?_, fun r request here free => ?_,
    fun p process m here lives uses => ?_, fun r request here flies => ?_, sound.children,
    sound.launched, sound.clients⟩
  · obtain here | ⟨_, rfl⟩ := getElem?_concat_cases here
    · exact sound.backlogged m server here
    · exact ⟨List.nodup_nil, fun r listed => absurd listed List.not_mem_nil⟩
  · obtain ⟨unread, server, place, listed⟩ := sound.queued r request here free
    exact ⟨unread, server, stays place, listed⟩
  · obtain ⟨backlog, place⟩ := sound.running p process m here lives uses
    exact ⟨backlog, stays place⟩
  · obtain ⟨backlog, place⟩ := sound.flying r request here flies
    exact ⟨backlog, stays place⟩

theorem Sound.addRequest (sound : family.Sound) {backlog : List Nat}
    (place : family.servers[n]? = some ⟨true, backlog⟩) {client : Nat}
    (found : family.processes[client]? = some process) (acts : process.waits = false)
    (uses : process.server = some n) (fds : List Nat) :
    Sound { family with
      servers := family.servers.set n ⟨true, backlog ++ [family.requests.length]⟩
      requests := family.requests ++ [⟨client, n, fds, false, none, false, none, none⟩] } := by
  have inside : ∀ {s : Nat} {member : ChildRequest}, family.requests[s]? = some member →
      s < family.requests.length := fun here => (List.getElem?_eq_some_iff.mp here).1
  have stays : ∀ {s : Nat} {member : ChildRequest}, family.requests[s]? = some member →
      (family.requests ++ [⟨client, n, fds, false, none, false, none, none⟩])[s]? = some member :=
    fun here => (List.getElem?_append_left (inside here)).trans here
  refine ⟨sound.willing, fun m server here => ?_, fun s member here free => ?_,
    fun q process m here lives uses => (sound.running q process m here lives uses).set place _,
    fun s member here flies => ?_, fun s member c here own => ?_, fun s member pid here own => ?_,
    fun member listed => ?_⟩
  · obtain ⟨rfl, rfl⟩ | ⟨_, here⟩ := getElem?_set_cases here
    · obtain ⟨nodup, all⟩ := sound.backlogged m _ place
      refine ⟨List.nodup_append.mpr ⟨nodup, List.nodup_singleton _, fun s listed t new same => ?_⟩,
        fun s listed => ?_⟩
      · obtain ⟨member, here, _⟩ := all s listed
        rw [same, List.mem_singleton.mp new] at here
        exact Nat.lt_irrefl _ (inside here)
      · obtain listed | new := List.mem_append.mp listed
        · obtain ⟨member, here, rest⟩ := all s listed
          exact ⟨member, stays here, rest⟩
        · rw [List.mem_singleton.mp new]
          exact ⟨_, List.getElem?_concat_length, rfl, rfl⟩
    · obtain ⟨nodup, all⟩ := sound.backlogged m server here
      refine ⟨nodup, fun s listed => ?_⟩
      obtain ⟨member, here, rest⟩ := all s listed
      exact ⟨member, stays here, rest⟩
  · obtain here | ⟨rfl, rfl⟩ := getElem?_concat_cases here
    · obtain ⟨unread, server, found, listed⟩ := sound.queued s member here free
      refine ⟨unread, ?_⟩
      by_cases same : n = member.server
      · rw [← same] at found ⊢
        cases place.symm.trans found
        exact ⟨_, getElem?_set_found place _, List.mem_append_left _ listed⟩
      · exact ⟨server, (List.getElem?_set_ne same).trans found, listed⟩
    · refine ⟨rfl, _, getElem?_set_found place _, ?_⟩
      exact List.mem_append_right _ (List.mem_singleton_self _)
  · obtain here | ⟨_, rfl⟩ := getElem?_concat_cases here
    · exact (sound.flying s member here flies).set place _
    · cases flies
  · obtain here | ⟨_, rfl⟩ := getElem?_concat_cases here
    · exact sound.children s member c here own
    · cases own
  · obtain here | ⟨_, rfl⟩ := getElem?_concat_cases here
    · exact sound.launched s member pid here own
    · cases own
  · obtain listed | new := List.mem_append.mp listed
    · exact sound.clients member listed
    · rw [List.mem_singleton.mp new]
      exact ⟨process, found, acts, uses⟩

theorem Sound.connect (sound : family.Sound) (found : family.processes[p]? = some process)
    (alive : process.alive = true) (acts : process.waits = false)
    (uses : process.server = some n) (fds : List Nat) :
    (family.connect p process n fds).Sound := by
  obtain ⟨backlog, place⟩ := sound.running p process n found alive uses
  simp only [ForkServers.connect, place]
  have moved : Sound { family with
      processes := family.processes.set p
        { process with writers := insert family.requests.length process.writers } } :=
    sound.setProcess found (fun lives => lives) (.inl rfl) rfl rfl rfl
  exact moved.addRequest place (getElem?_set_found found _) acts uses fds

theorem Sound.accept (sound : family.Sound) (taken : family.accept n = some next) :
    next.Sound := by
  unfold ForkServers.accept at taken
  split at taken
  · rename_i r backlog place
    split at taken
    · cases taken
    · rename_i request found
      cases taken
      obtain ⟨nodup, all⟩ := sound.backlogged n _ place
      obtain ⟨absent, nodup⟩ := List.nodup_cons.mp nodup
      have home : request.server = n ∧ request.child = none := by
        obtain ⟨member, here, rest⟩ := all r (List.mem_cons_self ..)
        cases found.symm.trans here
        exact rest
      have unread := (sound.queued r request found home.2).1
      refine ⟨sound.willing, fun m server here => ?_, fun s member here free => ?_,
        fun q member m here lives uses => ?_, fun s member here flies => ?_,
        fun s member c here own => ?_, fun s member pid here own => ?_, fun member listed => ?_⟩
      · have others : ∀ {list : List Nat}, list.Nodup → r ∉ list →
            (∀ s ∈ list, ∃ member, family.requests[s]? = some member ∧ member.server = m ∧
              member.child = none) → list.Nodup ∧ ∀ s ∈ list, ∃ member,
              (family.requests.set r { request with child := some family.processes.length })[s]? =
                some member ∧ member.server = m ∧ member.child = none := by
          intro list nodup absent all
          refine ⟨nodup, fun s listed => ?_⟩
          obtain ⟨member, here, rest⟩ := all s listed
          have different : r ≠ s := fun same => absent (same ▸ listed)
          exact ⟨member, (List.getElem?_set_ne different).trans here, rest⟩
        obtain ⟨rfl, rfl⟩ | ⟨different, here⟩ := getElem?_set_cases here
        · exact others nodup absent fun s listed => all s (List.mem_cons_of_mem _ listed)
        · obtain ⟨nodup, all⟩ := sound.backlogged m server here
          refine others nodup (fun listed => ?_) all
          obtain ⟨member, here, elsewhere, _⟩ := all r listed
          cases found.symm.trans here
          exact different (elsewhere.symm.trans home.1)
      · obtain ⟨rfl, rfl⟩ | ⟨different, here⟩ := getElem?_set_cases here
        · cases free
        · obtain ⟨unread, server, spot, listed⟩ := sound.queued s member here free
          refine ⟨unread, ?_⟩
          by_cases same : n = member.server
          · rw [← same] at spot ⊢
            cases place.symm.trans spot
            refine ⟨_, getElem?_set_found place _, ?_⟩
            exact (List.mem_cons.mp listed).resolve_left different
          · exact ⟨server, (List.getElem?_set_ne same).trans spot, listed⟩
      · obtain here | ⟨_, rfl⟩ := getElem?_concat_cases here
        · exact (sound.running q member m here lives uses).set place _
        · cases uses
      · obtain ⟨sent, fresh, alive⟩ := inFlight_eq_true.mp flies
        obtain ⟨rfl, rfl⟩ | ⟨_, here⟩ := getElem?_set_cases here
        · refine Serves.set (sound.flying s request found (inFlight_eq_true.mpr ⟨sent, fresh, ?_⟩))
            place _
          intro c own
          cases home.2.symm.trans own
        · refine Serves.set (sound.flying s member here (inFlight_eq_true.mpr ⟨sent, fresh, ?_⟩))
            place _
          intro c own
          obtain ⟨process, spot, _⟩ := sound.children s member c here own
          obtain ⟨same, there, lives⟩ := isAlive_eq_true.mp (alive c own)
          have inside := (List.getElem?_eq_some_iff.mp spot).1
          exact isAlive_eq_true.mpr ⟨same, (List.getElem?_append_left inside).symm.trans there,
            lives⟩
      · obtain ⟨rfl, rfl⟩ | ⟨_, here⟩ := getElem?_set_cases here
        · cases own
          refine ⟨_, List.getElem?_concat_length, rfl, ?_, fun read => ?_⟩
          · rw [show request.received = false from unread]
            rfl
          · cases unread.symm.trans read
        · obtain ⟨process, spot, rest⟩ := sound.children s member c here own
          have inside := (List.getElem?_eq_some_iff.mp spot).1
          exact ⟨process, (List.getElem?_append_left inside).trans spot, rest⟩
      · obtain ⟨rfl, rfl⟩ | ⟨_, here⟩ := getElem?_set_cases here
        · cases home.2.symm.trans (sound.launched s request pid found own).2
        · exact sound.launched s member pid here own
      · obtain ⟨client, spot, rest⟩ : ∃ client, family.processes[member.client]? = some client ∧
            client.waits = false ∧ client.server = some member.server := by
          obtain listed | rfl := List.mem_or_eq_of_mem_set listed
          · exact sound.clients member listed
          · exact sound.clients request (List.mem_of_getElem? found)
        have inside := (List.getElem?_eq_some_iff.mp spot).1
        exact ⟨client, (List.getElem?_append_left inside).trans spot, rest⟩
  · cases taken

theorem Sound.recvfds (sound : family.Sound) (found : family.requests[r]? = some request)
    (taken : family.recvfds r request = some next) : next.Sound := by
  unfold ForkServers.recvfds at taken
  split at taken
  · cases taken
  · rename_i c own
    split at taken
    · cases taken
    · rename_i process place
      split at taken
      · rename_i ready
        cases taken
        obtain ⟨lives, waits, sent⟩ := ready
        obtain ⟨unread, origin⟩ : request.received = false ∧ process.origin = some r := by
          obtain ⟨member, spot, origin, waiting, _⟩ := sound.children r request c found own
          cases place.symm.trans spot
          have fresh : (!request.received) = true := waiting.symm.trans waits
          rw [Bool.not_eq_true'] at fresh
          exact ⟨fresh, origin⟩
        have serves : family.Serves request.server := by
          refine sound.flying r request found (inFlight_eq_true.mpr ⟨sent, unread, ?_⟩)
          intro d child
          cases own.symm.trans child
          exact isAlive_eq_true.mpr ⟨process, place, lives⟩
        refine ⟨sound.willing, fun m server here => ?_, fun s member here free => ?_,
          fun q member m here living uses => ?_, fun s member here flies => ?_,
          fun s member d here child => ?_, fun s member pid here written => ?_,
          fun member listed => ?_⟩
        · obtain ⟨nodup, all⟩ := sound.backlogged m server here
          refine ⟨nodup, fun s listed => ?_⟩
          obtain ⟨member, spot, home, free⟩ := all s listed
          have different : r ≠ s := by
            rintro rfl
            cases found.symm.trans spot
            cases own.symm.trans free
          exact ⟨member, (List.getElem?_set_ne different).trans spot, home, free⟩
        · obtain ⟨rfl, rfl⟩ | ⟨_, here⟩ := getElem?_set_cases here
          · cases own.symm.trans free
          · exact sound.queued s member here free
        · obtain ⟨rfl, rfl⟩ | ⟨_, here⟩ := getElem?_set_cases here
          · cases uses
            exact serves
          · exact sound.running q member m here living uses
        · obtain ⟨sends, fresh, alive⟩ := inFlight_eq_true.mp flies
          obtain ⟨rfl, rfl⟩ | ⟨_, here⟩ := getElem?_set_cases here
          · exact serves
          · refine sound.flying s member here (inFlight_eq_true.mpr ⟨sends, fresh, ?_⟩)
            intro d child
            obtain ⟨one, there, living⟩ := isAlive_eq_true.mp (alive d child)
            obtain ⟨rfl, rfl⟩ | ⟨_, there⟩ := getElem?_set_cases there
            · exact isAlive_eq_true.mpr ⟨process, place, lives⟩
            · exact isAlive_eq_true.mpr ⟨one, there, living⟩
        · obtain ⟨rfl, rfl⟩ | ⟨different, here⟩ := getElem?_set_cases here
          · cases own.symm.trans child
            exact ⟨_, getElem?_set_found place _, origin, rfl, fun _ => ⟨sent, rfl⟩⟩
          · obtain ⟨one, there, from_, rest⟩ := sound.children s member d here child
            have elsewhere : c ≠ d := by
              rintro rfl
              cases place.symm.trans there
              exact different (Option.some.inj (from_.symm.trans origin))
            exact ⟨one, (List.getElem?_set_ne elsewhere).trans there, from_, rest⟩
        · obtain ⟨rfl, rfl⟩ | ⟨_, here⟩ := getElem?_set_cases here
          · cases unread.symm.trans (sound.launched s request pid found written).1
          · exact sound.launched s member pid here written
        · obtain ⟨client, spot, acts, uses⟩ :
              ∃ client, family.processes[member.client]? = some client ∧
                client.waits = false ∧ client.server = some member.server := by
            obtain listed | rfl := List.mem_or_eq_of_mem_set listed
            · exact sound.clients member listed
            · exact sound.clients request (List.mem_of_getElem? found)
          have elsewhere : c ≠ member.client := by
            intro same
            cases place.symm.trans (same ▸ spot)
            cases waits.symm.trans acts
          exact ⟨client, (List.getElem?_set_ne elsewhere).trans spot, acts, uses⟩
      · cases taken

theorem Sound.leave (sound : family.Sound) {server : ServerProcess}
    (place : family.servers[n]? = some server) (gone : family.abandoned n = true) :
    Sound { family with servers := family.servers.set n { server with alive := false } } := by
  obtain ⟨nobody, nothing⟩ := abandoned_eq_true.mp gone
  have serves : ∀ {m}, m ≠ n → family.Serves m → ∃ backlog,
      (family.servers.set n { server with alive := false })[m]? = some ⟨true, backlog⟩ :=
    fun different ⟨backlog, here⟩ =>
      ⟨backlog, (List.getElem?_set_ne (Ne.symm different)).trans here⟩
  refine ⟨sound.willing, fun m member here => ?_, fun r request here free => ?_,
    fun p process m here lives uses => serves ?_ (sound.running p process m here lives uses),
    fun r request here flies => serves ?_ (sound.flying r request here flies), sound.children,
    sound.launched, sound.clients⟩
  · obtain ⟨rfl, rfl⟩ | ⟨_, here⟩ := getElem?_set_cases here
    · exact sound.backlogged m server place
    · exact sound.backlogged m member here
  · obtain ⟨unread, member, spot, listed⟩ := sound.queued r request here free
    refine ⟨unread, ?_⟩
    by_cases same : n = request.server
    · subst same
      cases place.symm.trans spot
      exact ⟨_, getElem?_set_found place _, listed⟩
    · exact ⟨member, (List.getElem?_set_ne same).trans spot, listed⟩
  · rintro rfl
    exact nobody process (List.mem_of_getElem? here) lives uses
  · intro same
    have idle : family.inFlight request = false :=
      nothing request (List.mem_of_getElem? here) same
    cases idle.symm.trans flies

theorem Sound.step (sound : family.Sound) (taken : ForkServers.step family action = some next) :
    next.Sound := by
  cases step_turn taken with
  | stays => exact sound
  | starts p process found lonely =>
      refine sound.addServer.setProcess found (fun lives => lives) (.inr ⟨lonely, ?_⟩) rfl rfl rfl
      exact ⟨family.servers.length, rfl, [], List.getElem?_concat_length⟩
  | connects p n process fds found alive acts uses => exact sound.connect found alive acts uses fds
  | sends r request client found place alive unsent =>
      obtain ⟨member, spot, _, uses⟩ := sound.clients request (List.mem_of_getElem? found)
      cases place.symm.trans spot
      have serves := sound.running request.client client _ place alive uses
      exact sound.setRequest found rfl rfl rfl rfl rfl (.inr ⟨unsent, serves⟩)
        (sound.launched r request · found)
  | closes r request client found place =>
      exact sound.setProcess place (fun lives => lives) (.inl rfl) rfl rfl rfl
  | accepts n next taken => exact sound.accept taken
  | receives r request next found taken => exact sound.recvfds found taken
  | tellsPid r request found received =>
      exact sound.setRequest found rfl rfl rfl rfl rfl (.inl rfl) fun pid own => ⟨received, own⟩
  | tellsCode r code request found =>
      exact sound.setRequest found rfl rfl rfl rfl rfl (.inl rfl) (sound.launched r request · found)
  | forks p process found acts =>
      exact sound.addProcess fun n uses lives => sound.running p process n found lives uses
  | spawns p =>
      refine sound.addProcess fun n uses => ?_
      cases uses
  | exits p process found =>
      exact sound.setProcess found (fun lives => absurd lives Bool.false_ne_true) (.inl rfl) rfl rfl
        rfl
  | leaves n server place gone => exact sound.leave place gone

theorem sound_init : init.Sound := by
  have nothing : ∀ {α : Type} {i : Nat} {item : α}, ([] : List α)[i]? = some item → False := by
    intro α i item here
    cases here
  refine ⟨rfl, fun n server here => (nothing here).elim, fun r request here => (nothing here).elim,
    fun p process n here lives uses => ?_, fun r request here => (nothing here).elim,
    fun r request c here => (nothing here).elim, fun r request pid here => (nothing here).elim,
    fun request member => absurd member List.not_mem_nil⟩
  obtain rfl := List.mem_singleton.mp (List.mem_of_getElem? here)
  cases uses

/-- The child has received what was sent, or has ended before. -/
def Answered (family : ForkServers) (request : ChildRequest) : Prop :=
  request.received = true ∨ ∃ c, request.child = some c ∧ family.isAlive c = false

def bequest : List ForkServerAction :=
  [.ensureRunning 0, .connect 0 [7, 8], .sendfds 0, .close 0, .accept 0, .recvfds 0, .writePid 0,
    .fork 1, .connect 2 [9], .sendfds 1, .exit 0, .exit 1, .exit 2, .accept 0, .recvfds 1, .exit 3,
    .leave 0]

/-- `duplicate_for_child`: what it returns, and `_fds` -/
def duplicateForChild (fds : List Nat) (fd : Nat) : Nat × List Nat := (fds.length, fds ++ [fd])

/-- `_DupFd.detach` -/
def detach (inherited : List Nat) (ind : Nat) : Option Nat := inherited[ind]?

/-- A child serves one request, has the pid that its client reads and the descriptors that were sent
for it, under the numbers that `duplicate_for_child` gave to them. -/
theorem children_apart (ran : run step init labels = some last)
    (found : last.requests[r]? = some request) {c : Nat} (child : request.child = some c) :
    (∀ (s : Nat) other, last.requests[s]? = some other → other.child = some c → s = r) ∧
      (∀ pid, request.pid = some pid → pid = c) ∧
      (request.received = true → ∃ process, last.processes[c]? = some process ∧
        ∀ fds fd, (duplicateForChild fds fd).2 <+: request.fds →
          detach process.inherited (duplicateForChild fds fd).1 = some fd) := by
  have sound := invariant_run (fun _ _ _ => Sound.step) sound_init ran
  obtain ⟨process, place, origin, _, got⟩ := sound.children r request c found child
  refine ⟨fun s other here own => ?_, fun pid written => ?_, fun received =>
    ⟨process, place, fun fds fd first => ?_⟩⟩
  · obtain ⟨same, spot, from_, _⟩ := sound.children s other c here own
    cases place.symm.trans spot
    exact Option.some.inj (from_.symm.trans origin)
  · exact Option.some.inj ((sound.launched r request pid found written).2.symm.trans child)
  · obtain ⟨rest, all⟩ := first
    have longer : request.fds = fds ++ fd :: rest := all.symm.trans (List.append_cons ..).symm
    unfold detach duplicateForChild
    rw [(got received).2, longer, List.getElem?_append_right (Nat.le_refl _), Nat.sub_self]
    rfl

theorem children_apart_bequest :
    ∃ last request process, run step init bequest = some last ∧ last.requests[0]? = some request ∧
      last.processes[1]? = some process ∧ detach process.inherited 1 = some 8 := by
  have ran : run step init bequest = some _ := rfl
  obtain ⟨_, _, got⟩ := children_apart (r := 0) (c := 1) ran rfl rfl
  obtain ⟨process, place, gets⟩ := got rfl
  exact ⟨_, _, process, ran, rfl, place, gets [7] 8 (List.prefix_refl _)⟩

/-- No process forks in the middle of a call of `connect_to_new_process`. -/
def Undivided (family : ForkServers) : ForkServerAction → Prop
  | .fork p => ∀ process, family.processes[p]? = some process → ∀ r ∈ process.writers,
      ∀ request, family.requests[r]? = some request → request.client ≠ p
  | _ => True

instance (family : ForkServers) (action : ForkServerAction) :
    Decidable (family.Undivided action) := by
  unfold Undivided
  split
  · rename_i p
    refine decidable_of_iff ((family.processes[p]?.all fun process => decide (∀ r ∈ process.writers,
      (family.requests[r]?.all fun request => decide (request.client ≠ p)) = true)) = true) ?_
    simp only [Option.all_eq_true, decide_eq_true_eq]
  · exact isTrue trivial

/-- Who has the writing end of the status pipe of a child: its client, and it with the processes
forked from it. -/
structure Held (family : ForkServers) : Prop where
  own : ∀ (p : Nat) process, family.processes[p]? = some process → p ∈ process.line ∧
    ∀ q ∈ process.line, q ≤ p ∧
      (q ≠ p → ∃ parent, family.processes[q]? = some parent ∧ parent.waits = false)
  alone : ∀ (p : Nat) process, family.processes[p]? = some process → process.waits = true →
    process.line = [p]
  older : ∀ (r : Nat) request c, family.requests[r]? = some request → request.child = some c →
    request.client < c
  kept : ∀ (p r : Nat) process request c, family.processes[p]? = some process →
    family.requests[r]? = some request → request.child = some c → request.received = true →
      c ∈ process.line → r ∈ process.writers
  held : ∀ (p : Nat) process r, family.processes[p]? = some process → r ∈ process.writers →
    ∃ request, family.requests[r]? = some request ∧ (request.client = p ∨
      ∃ c, request.child = some c ∧ request.received = true ∧ c ∈ process.line)

theorem Held.withServers (holds : family.Held) (servers : List ServerProcess) :
    Held { family with servers } :=
  ⟨holds.own, holds.alone, holds.older, holds.kept, holds.held⟩

theorem Held.setProcess (holds : family.Held) (found : family.processes[p]? = some process)
    (line : new.line = process.line) (waits : new.waits = process.waits)
    (writers : ∀ s, (s ∈ new.writers ↔ s ∈ process.writers) ∨
      ∃ request, family.requests[s]? = some request ∧ request.client = p) :
    Held { family with processes := family.processes.set p new } := by
  have before : ∀ {q : Nat} {member : ServedProcess},
      (family.processes.set p new)[q]? = some member →
      ∃ old, family.processes[q]? = some old ∧ member.line = old.line ∧ member.waits = old.waits ∧
        ∀ s, (s ∈ member.writers ↔ s ∈ old.writers) ∨
          ∃ request, family.requests[s]? = some request ∧ request.client = q := by
    intro q member here
    obtain ⟨rfl, rfl⟩ | ⟨_, here⟩ := getElem?_set_cases here
    · exact ⟨process, found, line, waits, writers⟩
    · exact ⟨member, here, rfl, rfl, fun s => .inl Iff.rfl⟩
  refine ⟨fun q member here => ?_, fun q member here waiting => ?_, holds.older,
    fun q s member request c here asked child received below => ?_,
    fun q member s here listed => ?_⟩
  · obtain ⟨old, place, same, _⟩ := before here
    obtain ⟨self, above⟩ := holds.own q old place
    refine ⟨same ▸ self, fun c below => ?_⟩
    obtain ⟨low, ready⟩ := above c (same ▸ below)
    refine ⟨low, fun different => ?_⟩
    obtain ⟨parent, there, acts⟩ := ready different
    by_cases own : p = c
    · subst own
      cases found.symm.trans there
      exact ⟨new, getElem?_set_found found new, waits.trans acts⟩
    · exact ⟨parent, (List.getElem?_set_ne own).trans there, acts⟩
  · obtain ⟨old, place, same, still, _⟩ := before here
    exact same.trans (holds.alone q old place (still.symm.trans waiting))
  · obtain ⟨old, place, same, _, ends⟩ := before here
    have lower : c ∈ old.line := same ▸ below
    obtain both | ⟨other, there, client⟩ := ends s
    · exact both.mpr (holds.kept q s old request c place asked child received lower)
    · cases asked.symm.trans there
      have up := ((holds.own q old place).2 c lower).1
      have down := holds.older s request c asked child
      omega
  · obtain ⟨old, place, same, _, ends⟩ := before here
    obtain both | ⟨request, there, client⟩ := ends s
    · rw [same]
      exact holds.held q old s place (both.mp listed)
    · exact ⟨request, there, .inl client⟩

theorem Held.setRequest (holds : family.Held) (found : family.requests[r]? = some request)
    (client : changed.client = request.client) (child : changed.child = request.child)
    (received : changed.received = request.received) :
    Held { family with requests := family.requests.set r changed } := by
  have before : ∀ {s : Nat} {member : ChildRequest},
      (family.requests.set r changed)[s]? = some member → ∃ old, family.requests[s]? = some old ∧
        member.client = old.client ∧ member.child = old.child ∧ member.received = old.received := by
    intro s member here
    obtain ⟨rfl, rfl⟩ | ⟨_, here⟩ := getElem?_set_cases here
    · exact ⟨request, found, client, child, received⟩
    · exact ⟨member, here, rfl, rfl, rfl⟩
  refine ⟨holds.own, holds.alone, fun s member c here own => ?_,
    fun p s process member c place here own got below => ?_, fun p process s place listed => ?_⟩
  · obtain ⟨old, there, one, two, _⟩ := before here
    rw [one]
    exact holds.older s old c there (two.symm.trans own)
  · obtain ⟨old, there, _, two, three⟩ := before here
    exact holds.kept p s process old c place there (two.symm.trans own) (three.symm.trans got) below
  · obtain ⟨old, there, whose⟩ := holds.held p process s place listed
    by_cases same : r = s
    · subst same
      cases found.symm.trans there
      rw [← client, ← child, ← received] at whose
      exact ⟨changed, getElem?_set_found found changed, whose⟩
    · exact ⟨old, (List.getElem?_set_ne same).trans there, whose⟩

theorem Held.addRequest (holds : family.Held) (free : changed.child = none) :
    Held { family with requests := family.requests ++ [changed] } := by
  refine ⟨holds.own, holds.alone, fun s member c here own => ?_,
    fun p s process member c place here own got below => ?_, fun p process s place listed => ?_⟩
  · obtain here | ⟨_, rfl⟩ := getElem?_concat_cases here
    · exact holds.older s member c here own
    · cases free.symm.trans own
  · obtain here | ⟨_, rfl⟩ := getElem?_concat_cases here
    · exact holds.kept p s process member c place here own got below
    · cases free.symm.trans own
  · obtain ⟨old, there, whose⟩ := holds.held p process s place listed
    have inside := (List.getElem?_eq_some_iff.mp there).1
    exact ⟨old, (List.getElem?_append_left inside).trans there, whose⟩

/-- A new process, by itself or forked from another one -/
theorem Held.addProcess (holds : family.Held) (sound : family.Sound) {line : List Nat}
    (fresh : new.line = family.processes.length :: line) (waits : new.waits = true → line = [])
    (above : ∀ q ∈ line, ∃ parent, family.processes[q]? = some parent ∧ parent.waits = false)
    (kept : ∀ r request c, family.requests[r]? = some request → request.child = some c →
      request.received = true → c ∈ line → r ∈ new.writers)
    (held : ∀ r ∈ new.writers, ∃ request, family.requests[r]? = some request ∧
      ∃ c, request.child = some c ∧ request.received = true ∧ c ∈ line) :
    Held { family with processes := family.processes ++ [new] } := by
  have stays : ∀ {q : Nat} {old : ServedProcess}, family.processes[q]? = some old →
      (family.processes ++ [new])[q]? = some old := fun here =>
    (List.getElem?_append_left (List.getElem?_eq_some_iff.mp here).1).trans here
  refine ⟨fun q member here => ?_, fun q member here waiting => ?_, holds.older,
    fun q s member request c here asked child received below => ?_,
    fun q member s here listed => ?_⟩
  · obtain here | ⟨rfl, rfl⟩ := getElem?_concat_cases here
    · obtain ⟨self, above⟩ := holds.own q member here
      refine ⟨self, fun c below => ⟨(above c below).1, fun different => ?_⟩⟩
      obtain ⟨parent, there, acts⟩ := (above c below).2 different
      exact ⟨parent, stays there, acts⟩
    · rw [fresh]
      refine ⟨List.mem_cons_self .., fun c below => ?_⟩
      obtain rfl | below := List.mem_cons.mp below
      · exact ⟨Nat.le_refl _, fun different => absurd rfl different⟩
      · obtain ⟨parent, there, acts⟩ := above c below
        exact ⟨Nat.le_of_lt (List.getElem?_eq_some_iff.mp there).1,
          fun _ => ⟨parent, stays there, acts⟩⟩
  · obtain here | ⟨rfl, rfl⟩ := getElem?_concat_cases here
    · exact holds.alone q member here waiting
    · rw [fresh, waits waiting]
  · obtain here | ⟨_, rfl⟩ := getElem?_concat_cases here
    · exact holds.kept q s member request c here asked child received below
    · rw [fresh] at below
      obtain rfl | below := List.mem_cons.mp below
      · obtain ⟨process, place, _⟩ := sound.children s request _ asked child
        exact absurd (List.getElem?_eq_some_iff.mp place).1 (Nat.lt_irrefl _)
      · exact kept s request c asked child received below
  · obtain here | ⟨_, rfl⟩ := getElem?_concat_cases here
    · exact holds.held q member s here listed
    · obtain ⟨request, there, c, child, received, below⟩ := held s listed
      refine ⟨request, there, .inr ⟨c, child, received, ?_⟩⟩
      rw [fresh]
      exact List.mem_cons_of_mem _ below

theorem Held.setChild (holds : family.Held) (found : family.requests[r]? = some request)
    (free : request.child = none) (unread : request.received = false) {c : Nat}
    (older : request.client < c) :
    Held { family with requests := family.requests.set r { request with child := some c } } := by
  refine ⟨holds.own, holds.alone, fun s member d here own => ?_,
    fun p s process member d place here own got below => ?_, fun p process s place listed => ?_⟩
  · obtain ⟨rfl, rfl⟩ | ⟨_, here⟩ := getElem?_set_cases here
    · cases own
      exact older
    · exact holds.older s member d here own
  · obtain ⟨rfl, rfl⟩ | ⟨_, here⟩ := getElem?_set_cases here
    · cases unread.symm.trans got
    · exact holds.kept p s process member d place here own got below
  · obtain ⟨old, there, whose⟩ := holds.held p process s place listed
    by_cases same : r = s
    · subst same
      cases found.symm.trans there
      obtain client | ⟨d, own, _⟩ := whose
      · exact ⟨_, getElem?_set_found found _, .inl client⟩
      · cases free.symm.trans own
    · exact ⟨old, (List.getElem?_set_ne same).trans there, whose⟩

theorem Held.accept (holds : family.Held) (sound : family.Sound)
    (taken : family.accept n = some next) : next.Held := by
  unfold ForkServers.accept at taken
  split at taken
  · rename_i r backlog place
    split at taken
    · cases taken
    · rename_i request found
      cases taken
      have free : request.child = none := by
        obtain ⟨member, here, _, free⟩ := (sound.backlogged n _ place).2 r (List.mem_cons_self ..)
        cases found.symm.trans here
        exact free
      have older : request.client < family.processes.length := by
        obtain ⟨client, here, _⟩ := sound.clients request (List.mem_of_getElem? found)
        exact (List.getElem?_eq_some_iff.mp here).1
      have started : Held { family with
          processes := family.processes ++
            [⟨true, none, some r, true, ∅, [], [family.processes.length]⟩] } := by
        refine holds.addProcess sound rfl (fun _ => rfl) (fun q below => ?_)
          (fun _ _ c _ _ _ below => ?_) (fun s listed => ?_)
        · cases below
        · cases below
        · cases listed
      have unread := (sound.queued r request found free).1
      exact (started.setChild found free unread older).withServers _
  · cases taken

theorem Held.recvfds (holds : family.Held) (sound : family.Sound)
    (found : family.requests[r]? = some request) (taken : family.recvfds r request = some next) :
    next.Held := by
  unfold ForkServers.recvfds at taken
  split at taken
  · cases taken
  · rename_i c own
    split at taken
    · cases taken
    · rename_i process place
      split at taken
      · rename_i ready
        cases taken
        have origin : process.origin = some r := by
          obtain ⟨member, spot, origin, _⟩ := sound.children r request c found own
          cases place.symm.trans spot
          exact origin
        have line : process.line = [c] := holds.alone c process place ready.2.1
        -- nobody has been forked from the child yet
        have childless : ∀ {q : Nat} {member : ServedProcess}, family.processes[q]? = some member →
            q ≠ c → c ∉ member.line := by
          intro q member here different below
          obtain ⟨parent, spot, acts⟩ := ((holds.own q member here).2 c below).2 (Ne.symm different)
          cases place.symm.trans spot
          cases ready.2.1.symm.trans acts
        refine ⟨fun q member here => ?_, fun q member here waiting => ?_,
          fun s member d here child => ?_,
          fun q s member asked d here there child received below => ?_,
          fun q member s here listed => ?_⟩
        · have stays : ∀ {d : Nat}, (∃ parent, family.processes[d]? = some parent ∧
              parent.waits = false) → ∃ parent, (family.processes.set c
                { process with
                  server := some request.server, waits := false, writers := {r}
                  inherited := request.fds })[d]? = some parent ∧ parent.waits = false := by
            rintro d ⟨parent, spot, acts⟩
            by_cases same : c = d
            · subst same
              exact ⟨_, getElem?_set_found place _, rfl⟩
            · exact ⟨parent, (List.getElem?_set_ne same).trans spot, acts⟩
          obtain ⟨rfl, rfl⟩ | ⟨_, here⟩ := getElem?_set_cases here
          · obtain ⟨self, above⟩ := holds.own q process place
            refine ⟨self, fun d below => ⟨(above d below).1, fun other => ?_⟩⟩
            exact stays ((above d below).2 other)
          · obtain ⟨self, above⟩ := holds.own q member here
            refine ⟨self, fun d below => ⟨(above d below).1, fun other => ?_⟩⟩
            exact stays ((above d below).2 other)
        · obtain ⟨rfl, rfl⟩ | ⟨_, here⟩ := getElem?_set_cases here
          · cases waiting
          · exact holds.alone q member here waiting
        · obtain ⟨rfl, rfl⟩ | ⟨_, here⟩ := getElem?_set_cases here
          · exact holds.older s request d found child
          · exact holds.older s member d here child
        · obtain ⟨rfl, rfl⟩ | ⟨different, before⟩ := getElem?_set_cases here
          · have same : d = q := by
              have listed : d ∈ process.line := below
              rw [line] at listed
              exact List.mem_singleton.mp listed
            subst same
            obtain ⟨rfl, rfl⟩ | ⟨_, there⟩ := getElem?_set_cases there
            · exact Finset.mem_singleton_self _
            · obtain ⟨one, spot, from_, _⟩ := sound.children s asked d there child
              cases place.symm.trans spot
              rw [Option.some.inj (from_.symm.trans origin)]
              exact Finset.mem_singleton_self _
          · obtain ⟨rfl, rfl⟩ | ⟨_, there⟩ := getElem?_set_cases there
            · cases own.symm.trans child
              exact absurd below (childless before different)
            · exact holds.kept q s member asked d before there child received below
        · obtain ⟨rfl, rfl⟩ | ⟨_, here⟩ := getElem?_set_cases here
          · obtain rfl : s = r := Finset.mem_singleton.mp listed
            refine ⟨_, getElem?_set_found found _, .inr ⟨q, own, rfl, ?_⟩⟩
            exact (holds.own q process place).1
          · obtain ⟨old, there, whose⟩ := holds.held q member s here listed
            by_cases same : r = s
            · subst same
              cases found.symm.trans there
              refine ⟨_, getElem?_set_found found _, whose.imp_right ?_⟩
              exact fun ⟨d, child, _, below⟩ => ⟨d, child, rfl, below⟩
            · exact ⟨old, (List.getElem?_set_ne same).trans there, whose⟩
      · cases taken

theorem Held.connect (holds : family.Held) (found : family.processes[p]? = some process) (n : Nat)
    (fds : List Nat) : (family.connect p process n fds).Held := by
  unfold ForkServers.connect
  split
  · have asked : Held { family with
        requests := family.requests ++ [⟨p, n, fds, false, none, false, none, none⟩] } :=
      holds.addRequest rfl
    refine (asked.withServers _).setProcess found rfl rfl fun s => ?_
    by_cases same : s = family.requests.length
    · subst same
      exact .inr ⟨_, List.getElem?_concat_length, rfl⟩
    · exact .inl (Finset.mem_insert.trans (or_iff_right same))
  · exact ⟨holds.own, holds.alone, holds.older, holds.kept, holds.held⟩

theorem Held.fork (holds : family.Held) (sound : family.Sound)
    (found : family.processes[p]? = some process) (acts : process.waits = false)
    (whole : family.Undivided (.fork p)) :
    Held { family with
      processes := family.processes ++
        [{ process with origin := none, line := family.processes.length :: process.line }] } := by
  refine holds.addProcess sound rfl (fun waits => ?_) (fun q below => ?_)
    (fun r request c asked child received below =>
      holds.kept p r process request c found asked child received below)
    (fun r listed => ?_)
  · cases acts.symm.trans waits
  · obtain rfl | different := eq_or_ne q p
    · exact ⟨process, found, acts⟩
    · exact ((holds.own p process found).2 q below).2 different
  · obtain ⟨request, asked, client | child⟩ := holds.held p process r found listed
    · exact absurd client (whole process found r listed request asked)
    · exact ⟨request, asked, child⟩

theorem Held.step (holds : family.Held) (sound : family.Sound) (whole : family.Undivided action)
    (taken : ForkServers.step family action = some next) : next.Held := by
  cases step_turn taken with
  | stays => exact holds
  | starts p process found lonely =>
      exact (holds.withServers _).setProcess found rfl rfl fun s => .inl Iff.rfl
  | connects p n process fds found alive acts uses => exact holds.connect found n fds
  | sends r request client found => exact holds.setRequest found rfl rfl rfl
  | closes r request client found place =>
      refine holds.setProcess place rfl rfl fun s => ?_
      by_cases same : s = r
      · subst same
        exact .inr ⟨request, found, rfl⟩
      · exact .inl (Finset.mem_erase.trans (and_iff_right same))
  | accepts n next taken => exact holds.accept sound taken
  | receives r request next found taken => exact holds.recvfds sound found taken
  | tellsPid r request found => exact holds.setRequest found rfl rfl rfl
  | tellsCode r code request found => exact holds.setRequest found rfl rfl rfl
  | forks p process found acts => exact holds.fork sound found acts whole
  | spawns p =>
      refine holds.addProcess sound rfl (fun _ => rfl) (fun q below => ?_)
        (fun _ _ c _ _ _ below => ?_) (fun s listed => ?_)
      · cases below
      · cases below
      · cases listed
  | exits p process found => exact holds.setProcess found rfl rfl fun s => .inl Iff.rfl
  | leaves => exact holds.withServers _

theorem held_init : init.Held := by
  have first : ∀ {p : Nat} {process : ServedProcess}, init.processes[p]? = some process →
      p = 0 ∧ process = ⟨true, none, none, false, ∅, [], [0]⟩ := by
    rintro (_ | p) process ⟨⟩
    exact ⟨rfl, rfl⟩
  refine ⟨fun p process here => ?_, fun p process here waits => ?_, fun r request c here => ?_,
    fun p r process request c _ here => ?_, fun p process r here listed => ?_⟩
  · obtain ⟨rfl, rfl⟩ := first here
    refine ⟨List.mem_singleton_self 0, fun q below => ?_⟩
    obtain rfl := List.mem_singleton.mp below
    exact ⟨Nat.le_refl 0, fun different => absurd rfl different⟩
  · obtain ⟨rfl, rfl⟩ := first here
    rfl
  · cases here
  · cases here
  · obtain ⟨rfl, rfl⟩ := first here
    cases listed

theorem writer_iff :
    family.processes.any (fun process => process.alive && decide (r ∈ process.writers)) = true ↔
      ∃ process ∈ family.processes, process.alive = true ∧ r ∈ process.writers := by
  simp only [List.any_eq_true, Bool.and_eq_true, decide_eq_true_eq]

theorem Held.writers (holds : family.Held) (sound : family.Sound)
    (found : family.requests[r]? = some request) {pid : Nat} (written : request.pid = some pid)
    {client : ServedProcess} (place : family.processes[request.client]? = some client)
    (closed : client.alive = true → r ∉ client.writers) :
    (∃ process ∈ family.processes, process.alive = true ∧ r ∈ process.writers) ↔
      ∃ process ∈ family.processes, process.alive = true ∧ pid ∈ process.line := by
  obtain ⟨received, child⟩ := sound.launched r request pid found written
  constructor
  · rintro ⟨process, member, lives, writes⟩
    obtain ⟨p, here⟩ := List.getElem?_of_mem member
    obtain ⟨same, asked, rfl | ⟨c, own, _, below⟩⟩ := holds.held p process r here writes
    · cases found.symm.trans asked
      cases place.symm.trans here
      exact absurd writes (closed lives)
    · cases found.symm.trans asked
      cases child.symm.trans own
      exact ⟨process, member, lives, below⟩
  · rintro ⟨process, member, lives, below⟩
    obtain ⟨p, here⟩ := List.getElem?_of_mem member
    have writes := holds.kept p r process request pid here found child received below
    exact ⟨process, member, lives, writes⟩

/-- When the start is over, polling a process answers nothing as long as it has not written its
code and it or a process forked from it goes on. -/
theorem poll_tells (ran : run step init labels = some last)
    (along : Along step Undivided init labels) (found : last.requests[r]? = some request)
    {c : Nat} (written : request.pid = some c) {client : ServedProcess}
    (place : last.processes[request.client]? = some client)
    (closed : client.alive = true → r ∉ client.writers) :
    (last.poll r request = none ↔ request.code = none ∧
      ∃ process ∈ last.processes, process.alive = true ∧ c ∈ process.line) ∧
      ∀ status, last.poll r request = some status ↔ request.code = some status ∨
        request.code = none ∧ status = 255 ∧
          ∀ process ∈ last.processes, c ∈ process.line → process.alive = false := by
  have kept : Preserves step Undivided fun family => family.Sound ∧ family.Held :=
    fun family action next ⟨sound, holds⟩ whole taken =>
      ⟨sound.step taken, holds.step sound whole taken⟩
  obtain ⟨sound, holds⟩ := invariant_along kept ⟨sound_init, held_init⟩ along ran
  have writers := writer_iff.trans (holds.writers sound found written place closed)
  have landed : last.inFlight request = false := by
    rw [← Bool.not_eq_true, inFlight_eq_true, (sound.launched r request c found written).1]
    rintro ⟨_, unread, _⟩
    cases unread
  unfold poll
  cases code : request.code with
  | some code => simp
  | none =>
      dsimp only
      rw [landed, Bool.or_false]
      by_cases going : ∃ process ∈ last.processes, process.alive = true ∧ c ∈ process.line
      · rw [if_pos (writers.mpr going)]
        refine ⟨⟨fun _ => ⟨rfl, going⟩, fun _ => rfl⟩, fun status => ⟨fun same => ?_, ?_⟩⟩
        · cases same
        · rintro (own | ⟨_, _, ended⟩)
          · cases own
          · obtain ⟨process, member, lives, below⟩ := going
            cases lives.symm.trans (ended process member below)
      · rw [if_neg (fun writes => going (writers.mp writes))]
        have ended : ∀ process ∈ last.processes, c ∈ process.line → process.alive = false := by
          intro process member below
          by_contra lives
          exact going ⟨process, member, Bool.eq_true_of_not_eq_false lives, below⟩
        refine ⟨⟨fun same => ?_, fun open_ => absurd open_.2 going⟩,
          fun status => ⟨fun answered => ?_, ?_⟩⟩
        · cases same
        · cases answered
          exact .inr ⟨rfl, rfl, ended⟩
        · rintro (own | ⟨_, rfl, _⟩)
          · cases own
          · rfl

/-- A process that has been killed seems to run as long as one forked from it does. -/
def outlived : List ForkServerAction :=
  [.ensureRunning 0, .connect 0 [], .sendfds 0, .accept 0, .recvfds 0, .writePid 0, .close 0,
    .fork 1, .exit 1]

theorem poll_tells_outlived :
    ∃ last request, run step init outlived = some last ∧ last.requests[0]? = some request ∧
      last.isAlive 1 = false ∧ last.poll 0 request = none := by
  have ran : run step init outlived = some _ := rfl
  refine ⟨_, _, ran, rfl, rfl, ?_⟩
  refine (poll_tells (r := 0) (c := 1) ran (by decide) rfl rfl rfl (by decide)).1.mpr ⟨rfl, ?_⟩
  decide

/-- A fork of the client in the middle of the start makes it seem to run as well. -/
example : ∃ last request, run step init [.ensureRunning 0, .connect 0 [], .fork 0, .sendfds 0,
    .close 0, .accept 0, .recvfds 0, .writePid 0, .exit 2] = some last ∧
      last.requests[0]? = some request ∧ last.poll 0 request = none :=
  ⟨_, _, rfl, rfl, by decide⟩

end ForkServers

end Billiard
