import Billiard.Connection.Message
import Billiard.Data.Transition

/-! A connection over a named pipe of Windows: overlapped reads, and `wait` and `poll` between
them, while others write into the pipe. -/

namespace Billiard

open Transition

/-- An overlapped read and what has come of it; `moreData` leaves the rest of the message in the
pipe. -/
inductive Overlapped where
  | pending
  | success (buf : List UInt8)
  | moreData (buf : List UInt8)
  | brokenPipe
deriving DecidableEq, Repr

/-- Where the one who reads stands; `stopped` tells that a `KeyboardInterrupt` has come to a
receive, and `ovs` are the overlapped reads of no bytes that `wait` has to cancel. -/
inductive PipeCall where
  | idle
  | reading (maxsize : Option Nat) (ov : Overlapped) (stopped : Bool)
  | waiting (ovs : List Overlapped) (ready : Bool)
deriving DecidableEq, Repr

inductive PipeAnswer where
  | received (value : List UInt8)
  | ready (ready : Bool)
  | raised (error : ConnError)
  | interrupted
deriving DecidableEq, Repr

/-- `messages` are in the pipe, `connected` tells of its other end, and `sent`, `taken` and
`received` are histories: `taken` has also what a receive has read and not returned. -/
structure PipeConnection where
  conn : Connection
  gotEmptyMessage : Bool
  call : PipeCall
  answer : Option PipeAnswer
  messages : List (List UInt8)
  connected : Bool
  sent : List (List UInt8)
  taken : List (List UInt8)
  received : List (List UInt8)
deriving DecidableEq, Repr

/-- `wait` goes through the objects that it has been given; `list` is its part for the
connection, and `wake` its end.  `interrupt` is an exception in a call that waits, and
`keyboardInterrupt` one in a receive that `except Exception` does not catch. -/
inductive PipeConnectionAction where
  | send (message : List UInt8)
  | hangUp
  | recvBytes (maxlength : Option Int)
  | finish
  | interrupt
  | keyboardInterrupt
  | poll
  | wait
  | list
  | wake
  | close
deriving DecidableEq, Repr

/-- `ReadFile` with what is in the pipe; a read of no bytes leaves a message of no bytes there. -/
def readFile (size : Nat) (connected : Bool) :
    List (List UInt8) → Overlapped × List (List UInt8)
  | [] => (if connected then .pending else .brokenPipe, [])
  | message :: messages =>
      if size < message.length then (.moreData (message.take size), message.drop size :: messages)
      else if size = 0 then (.success [], message :: messages)
      else (.success message, messages)

namespace Overlapped

/-- A message that comes when `size` bytes are asked for, and what is left of it -/
def arrive (size : Nat) (message : List UInt8) : Overlapped × List (List UInt8) :=
  if size < message.length then (.moreData (message.take size), [message.drop size])
  else (.success message, [])

/-- A message that comes while `wait` reads no bytes; the first read to be pending takes it if
there is nothing in it. -/
def offer (message : List UInt8) : List Overlapped → List Overlapped × List (List UInt8)
  | [] => ([], [message])
  | .pending :: ovs =>
      if message = [] then (.success [] :: ovs, [])
      else (.moreData [] :: (offer message ovs).1, (offer message ovs).2)
  | ov :: ovs => (ov :: (offer message ovs).1, (offer message ovs).2)

def hangUp : Overlapped → Overlapped
  | .pending => .brokenPipe
  | ov => ov

def isSuccess : Overlapped → Bool
  | .success _ => true
  | .pending | .moreData _ | .brokenPipe => false

end Overlapped

def bsize : Option Nat → Nat
  | none => 128
  | some maxsize => min maxsize 128

/-- The messages in the pipe with those that the reads of a call have taken from it -/
def PipeCall.unread : PipeCall → List (List UInt8) → List (List UInt8)
  | .reading _ (.success buf) _, messages => buf :: messages
  | .reading _ (.moreData buf) _, messages => (buf ++ messages.headD []) :: messages.tail
  | .waiting ovs _, messages => List.replicate (ovs.countP Overlapped.isSuccess) [] ++ messages
  | .idle, messages | .reading _ .pending _, messages | .reading _ .brokenPipe _, messages =>
      messages

/-- `wait` has a read of the connection to cancel. -/
def PipeCall.isListed : PipeCall → Bool
  | .waiting ovs _ => !ovs.isEmpty
  | .idle | .reading _ _ _ => false

/-- The receive will drop what it reads. -/
def PipeCall.isStopped : PipeCall → Bool
  | .reading _ _ stopped => stopped
  | .idle | .waiting _ _ => false

namespace PipeConnection

def init (conn : Connection) : PipeConnection :=
  ⟨conn, false, .idle, none, [], true, [], [], []⟩

def reply (pipe : PipeConnection) (answer : PipeAnswer) : PipeConnection :=
  { pipe with call := .idle, answer := some answer }

def receive (pipe : PipeConnection) (value : List UInt8) : PipeConnection :=
  { pipe.reply (.received value) with
    taken := pipe.taken ++ [value]
    received := pipe.received ++ [value] }

/-- `_recv_bytes` with the message that it has read: the `finally` clause reads it also where a
`KeyboardInterrupt` is on its way, which is then raised. -/
def take (pipe : PipeConnection) (stopped : Bool) (value : List UInt8) : PipeConnection :=
  if stopped then { pipe.reply .interrupted with taken := pipe.taken ++ [value] }
  else pipe.receive value

/-- `WriteFile` at the other end -/
def send (pipe : PipeConnection) (message : List UInt8) : PipeConnection :=
  let sent := pipe.sent ++ [message]
  match pipe.call with
  | .reading maxsize .pending stopped =>
      let (ov, left) := Overlapped.arrive (bsize maxsize) message
      { pipe with call := .reading maxsize ov stopped, messages := pipe.messages ++ left, sent }
  | .waiting ovs ready =>
      let (ovs, left) := Overlapped.offer message ovs
      { pipe with call := .waiting ovs ready, messages := pipe.messages ++ left, sent }
  | _ => { pipe with messages := pipe.messages ++ [message], sent }

def hangUp (pipe : PipeConnection) : PipeConnection :=
  let call := match pipe.call with
    | .idle => .idle
    | .reading maxsize ov stopped => .reading maxsize ov.hangUp stopped
    | .waiting ovs ready => .waiting (ovs.map Overlapped.hangUp) ready
  { pipe with call, connected := false }

/-- `_recv_bytes` up to where it waits for its first read -/
def startRecv (pipe : PipeConnection) (maxsize : Option Nat) : PipeConnection :=
  if pipe.gotEmptyMessage then { pipe with gotEmptyMessage := false }.receive []
  else
    match readFile (bsize maxsize) pipe.connected pipe.messages with
    | (.brokenPipe, _) => pipe.reply (.raised .eofError)
    | (ov, messages) => { pipe with call := .reading maxsize ov false, answer := none, messages }

/-- `recv_bytes`; `recv` and `recv_bytes_into` call `_recv_bytes` with no `maxsize`. -/
def recvBytes (pipe : PipeConnection) (maxlength : Option Int) : PipeConnection :=
  match pipe.conn.checkClosed *> pipe.conn.checkReadable with
  | .error error => pipe.reply (.raised error)
  | .ok () =>
      if maxlength.any (· < 0) then pipe.reply (.raised (.valueError "negative maxlength"))
      else pipe.startRecv (maxlength.map Int.toNat)

/-- `_get_more_data` -/
def getMoreData (pipe : PipeConnection) (maxsize : Option Nat) (stopped : Bool)
    (buf : List UInt8) : Option PipeConnection :=
  match pipe.messages with
  | [] => none
  | left :: messages =>
      if maxsize.any (· < buf.length + left.length) then
        some ({ pipe with conn := pipe.conn.badMessageLength }.reply
          (.raised (.osError "bad message length")))
      else some ({ pipe with messages }.take stopped (buf ++ left))

def finish (pipe : PipeConnection) : Option PipeConnection :=
  match pipe.call with
  | .reading _ (.success buf) stopped => some (pipe.take stopped buf)
  | .reading maxsize (.moreData buf) stopped => pipe.getMoreData maxsize stopped buf
  | .reading _ .brokenPipe _ => some (pipe.reply (.raised .eofError))
  | _ => none

/-- What `wait` does when its wait is over, or interrupted -/
def endWait (pipe : PipeConnection) (ovs : List Overlapped) (answer : PipeAnswer) :
    PipeConnection :=
  { pipe.reply answer with
    gotEmptyMessage := pipe.gotEmptyMessage || ovs.any Overlapped.isSuccess }

def interrupt (pipe : PipeConnection) : Option PipeConnection :=
  match pipe.call with
  | .reading _ .pending false => some (pipe.reply .interrupted)
  | .waiting ovs _ => some (pipe.endWait ovs .interrupted)
  | _ => none

/-- The read is not cancelled, and `GetOverlappedResult` waits for it. -/
def keyboardInterrupt (pipe : PipeConnection) : Option PipeConnection :=
  match pipe.call with
  | .reading maxsize ov _ => some { pipe with call := .reading maxsize ov true }
  | _ => none

/-- What `wait` does with the connection -/
def list (pipe : PipeConnection) (ovs : List Overlapped) (ready : Bool) : PipeConnection :=
  match pipe.conn.checkClosed with
  | .error error => pipe.endWait ovs (.raised error)
  | .ok () =>
      match (readFile 0 pipe.connected pipe.messages).1 with
      | .pending => { pipe with call := .waiting (ovs ++ [.pending]) ready }
      | _ => { pipe with call := .waiting ovs true }

def startWait (pipe : PipeConnection) : PipeConnection :=
  { pipe with call := .waiting [] false, answer := none }

def wake (pipe : PipeConnection) : Option PipeConnection :=
  match pipe.call with
  | .waiting ovs ready => some (pipe.endWait ovs (.ready (ready || ovs.any (· ≠ .pending))))
  | _ => none

def poll (pipe : PipeConnection) : PipeConnection :=
  match pipe.conn.checkClosed *> pipe.conn.checkReadable with
  | .error error => pipe.reply (.raised error)
  | .ok () =>
      if pipe.gotEmptyMessage then pipe.reply (.ready true)
      else if pipe.messages = [] ∧ pipe.connected = false then
        pipe.reply (.raised (.osError "The pipe has been ended"))
      else if pipe.messages.any (· ≠ []) then pipe.reply (.ready true)
      else pipe.startWait.list [] false

def step (pipe : PipeConnection) (action : PipeConnectionAction) : Option PipeConnection :=
  match action, pipe.call with
  | .send message, _ =>
      if pipe.connected && pipe.conn.handle then some (pipe.send message) else none
  | .hangUp, _ => some pipe.hangUp
  | .recvBytes maxlength, .idle => some (pipe.recvBytes maxlength)
  | .finish, _ => pipe.finish
  | .interrupt, _ => pipe.interrupt
  | .keyboardInterrupt, _ => pipe.keyboardInterrupt
  | .poll, .idle => some pipe.poll
  | .wait, .idle => some pipe.startWait
  | .list, .waiting ovs ready => some (pipe.list ovs ready)
  | .wake, _ => pipe.wake
  | .close, .idle => some { pipe with conn := { pipe.conn with handle := false } }
  | _, _ => none

/-- What has been sent and is still to be received -/
def unread (pipe : PipeConnection) : List (List UInt8) :=
  (if pipe.gotEmptyMessage then [[]] else []) ++ pipe.call.unread pipe.messages

/-- No receive is stopped by a `KeyboardInterrupt`.  No message that has nothing in it is asked
for with `maxlength` zero while it is in the pipe, and no `wait` is told of the connection twice or
while it has kept such a message. -/
def Careful (pipe : PipeConnection) : PipeConnectionAction → Prop
  | .recvBytes maxlength => maxlength = some 0 → pipe.gotEmptyMessage = true ∨
      pipe.messages.head? ≠ some []
  | .list => pipe.gotEmptyMessage = false ∧ pipe.call.isListed = false
  | .keyboardInterrupt => False
  | _ => True

instance (pipe : PipeConnection) (action : PipeConnectionAction) :
    Decidable (pipe.Careful action) := by
  unfold Careful
  split <;> infer_instance

def usable (pipe : PipeConnection) : Bool := pipe.conn.handle && pipe.conn.readable

/-- What lets a receive go on -/
def Available (pipe : PipeConnection) : Prop :=
  pipe.gotEmptyMessage = true ∨ pipe.messages ≠ [] ∨ pipe.connected = false

end PipeConnection

variable {keeps : List UInt8 → Bool} {pipe next last : PipeConnection}
  {action : PipeConnectionAction} {labels : List PipeConnectionAction} {message : List UInt8}
  {messages : List (List UInt8)} {connected ready : Bool} {ov : Overlapped}
  {ovs : List Overlapped} {maxsize : Option Nat} {stopped : Bool}

namespace Overlapped

/-- What a read tells of the pipe -/
def Tells (messages : List (List UInt8)) (connected : Bool) : Overlapped → Prop
  | .pending => messages = [] ∧ connected = true
  | .success _ => True
  | .moreData _ => messages ≠ []
  | .brokenPipe => connected = false

theorem offer_taken (waits : .pending ∈ ovs) : (offer [] ovs).2 = [] ∧
    (offer [] ovs).1.length = ovs.length ∧
      (offer [] ovs).1.countP isSuccess = ovs.countP isSuccess + 1 ∧
        ∀ ov ∈ (offer [] ovs).1, ov ∈ ovs ∨ ov = .success [] := by
  induction ovs with
  | nil => cases waits
  | cons ov ovs ih =>
      by_cases first : ov = .pending
      · subst first
        refine ⟨rfl, rfl, by simp [offer, isSuccess, List.countP_cons], fun ov member => ?_⟩
        obtain rfl | member := List.mem_cons.mp member
        · exact .inr rfl
        · exact .inl (List.mem_cons_of_mem _ member)
      · obtain ⟨left, length, count, others⟩ :=
          ih ((List.mem_cons.mp waits).resolve_left (Ne.symm first))
        have goes : offer [] (ov :: ovs) = (ov :: (offer [] ovs).1, (offer [] ovs).2) := by
          cases ov with
          | pending => exact absurd rfl first
          | _ => rfl
        rw [goes]
        refine ⟨left, congrArg (· + 1) length, ?_, fun other member => ?_⟩
        · rw [List.countP_cons, List.countP_cons, count]
          omega
        · obtain rfl | member := List.mem_cons.mp member
          · exact .inl (List.mem_cons_self ..)
          · exact (others other member).imp_left (List.mem_cons_of_mem _)

theorem offer_left (rest : message ≠ [] ∨ .pending ∉ ovs) : (offer message ovs).2 = [message] ∧
    (offer message ovs).1.length = ovs.length ∧
      (offer message ovs).1.countP isSuccess = ovs.countP isSuccess ∧
        ∀ ov ∈ (offer message ovs).1, ov ∈ ovs ∧ ov ≠ .pending ∨ ov = .moreData [] := by
  induction ovs with
  | nil => exact ⟨rfl, rfl, rfl, fun ov member => absurd member List.not_mem_nil⟩
  | cons ov ovs ih =>
      obtain ⟨left, length, count, others⟩ :=
        ih (rest.imp_right fun absent member => absent (List.mem_cons_of_mem _ member))
      have goes : ∃ new, offer message (ov :: ovs) =
          (new :: (offer message ovs).1, (offer message ovs).2) ∧
            new.isSuccess = ov.isSuccess ∧ (new = ov ∧ ov ≠ .pending ∨ new = .moreData []) := by
        cases ov with
        | pending =>
            have full : message ≠ [] := rest.resolve_right fun absent =>
              absent (List.mem_cons_self ..)
            exact ⟨.moreData [], by rw [offer, if_neg full], rfl, .inr rfl⟩
        | success buf => exact ⟨.success buf, rfl, rfl, .inl ⟨rfl, by simp⟩⟩
        | moreData buf => exact ⟨.moreData buf, rfl, rfl, .inl ⟨rfl, by simp⟩⟩
        | brokenPipe => exact ⟨.brokenPipe, rfl, rfl, .inl ⟨rfl, by simp⟩⟩
      obtain ⟨new, goes, same, kind⟩ := goes
      rw [goes]
      refine ⟨left, congrArg (· + 1) length, ?_, fun other member => ?_⟩
      · rw [List.countP_cons, List.countP_cons, count, same]
      · obtain rfl | member := List.mem_cons.mp member
        · obtain ⟨rfl, done⟩ | rest := kind
          · exact .inl ⟨List.mem_cons_self .., done⟩
          · exact .inr rest
        · exact (others other member).imp_left fun ⟨old, done⟩ =>
            ⟨List.mem_cons_of_mem _ old, done⟩

theorem isSuccess_hangUp (ov : Overlapped) : ov.hangUp.isSuccess = ov.isSuccess := by
  cases ov <;> rfl

theorem Tells.hangUp (tells : ov.Tells messages connected) : ov.hangUp.Tells messages false := by
  cases ov with
  | pending => rfl
  | brokenPipe => rfl
  | success buf => exact tells
  | moreData buf => exact tells

/-- What is behind the first message tells nothing. -/
theorem Tells.grow (tells : ov.Tells messages connected) (done : ov ≠ .pending) :
    ov.Tells (messages ++ [message]) connected := by
  cases ov with
  | pending => exact absurd rfl done
  | moreData buf => exact List.append_ne_nil_of_left_ne_nil tells _
  | success buf => exact tells
  | brokenPipe => exact tells

end Overlapped

namespace PipeConnection

/-- Of the messages that `keeps` tells of, none is lost, and none is taken twice. -/
structure Sound (keeps : List UInt8 → Bool) (pipe : PipeConnection) : Prop where
  reads : ∀ maxsize ov stopped, pipe.call = .reading maxsize ov stopped →
    pipe.usable = true ∧ pipe.gotEmptyMessage = false ∧ ov.Tells pipe.messages pipe.connected
  waits : ∀ ovs ready, pipe.call = .waiting ovs ready →
    (∀ ov ∈ ovs, ov.Tells pipe.messages pipe.connected) ∧
      (ready = true → pipe.messages ≠ [] ∨ pipe.connected = false) ∧
        (keeps [] = true → ovs.length ≤ 1 ∧ (ovs ≠ [] → pipe.gotEmptyMessage = false))
  told : pipe.answer = some (.ready true) → pipe.Available
  stream : pipe.usable = true →
    pipe.sent.filter keeps = (pipe.taken ++ pipe.unread).filter keeps
  shut : pipe.taken.filter keeps <+: pipe.sent.filter keeps

theorem send_unread (sound : pipe.Sound keeps) (connected : pipe.connected = true) :
    (pipe.send message).unread = pipe.unread ++ [message] := by
  unfold send unread
  cases call : pipe.call with
  | idle => simp [PipeCall.unread]
  | reading maxsize ov stopped =>
      obtain ⟨_, _, tells⟩ := sound.reads maxsize ov stopped call
      cases ov with
      | pending =>
          have empty : pipe.messages = [] := tells.1
          by_cases large : bsize maxsize < message.length
          · simp [Overlapped.arrive, large, PipeCall.unread, empty]
          · simp [Overlapped.arrive, large, PipeCall.unread, empty]
      | success buf => simp [PipeCall.unread]
      | moreData buf =>
          obtain ⟨left, rest, parts⟩ := List.exists_cons_of_ne_nil tells
          simp [PipeCall.unread, parts]
      | brokenPipe => exact absurd (connected.symm.trans tells) (by decide)
  | waiting ovs ready =>
      obtain ⟨tells, _⟩ := sound.waits ovs ready call
      by_cases taken : message = [] ∧ .pending ∈ ovs
      · obtain ⟨rfl, pending⟩ := taken
        have empty : pipe.messages = [] := (tells .pending pending).1
        obtain ⟨left, _, count, _⟩ := Overlapped.offer_taken pending
        simp [PipeCall.unread, left, count, empty, List.replicate_succ']
      · obtain ⟨left, _, count, _⟩ := Overlapped.offer_left (not_and_or.mp taken)
        simp [PipeCall.unread, left, count]

/-- What a message that comes leaves as it is -/
theorem send_frame : (pipe.send message).conn = pipe.conn ∧
    (pipe.send message).gotEmptyMessage = pipe.gotEmptyMessage ∧
      (pipe.send message).answer = pipe.answer ∧
        (pipe.send message).connected = pipe.connected ∧
          (pipe.send message).taken = pipe.taken ∧
            (pipe.send message).sent = pipe.sent ++ [message] ∧
              ∃ left, (pipe.send message).messages = pipe.messages ++ left := by
  unfold send
  split <;> exact ⟨rfl, rfl, rfl, rfl, rfl, rfl, _, rfl⟩

theorem Sound.send_reads (sound : pipe.Sound keeps) (connected : pipe.connected = true)
    (here : (pipe.send message).call = .reading maxsize ov stopped) :
    pipe.usable = true ∧ pipe.gotEmptyMessage = false ∧
      ov.Tells (pipe.send message).messages pipe.connected := by
  cases call : pipe.call with
  | idle =>
      simp only [PipeConnection.send, call] at here
      cases here
  | waiting ovs ready =>
      simp only [PipeConnection.send, call] at here
      cases here
  | reading size old done =>
      obtain ⟨usable, flag, tells⟩ := sound.reads size old done call
      refine ⟨usable, flag, ?_⟩
      cases old with
      | pending =>
          simp only [PipeConnection.send, call, Overlapped.arrive] at here ⊢
          split at here
          · cases here
            simp [Overlapped.Tells, *]
          · cases here
            trivial
      | success buf =>
          simp only [PipeConnection.send, call] at here
          cases here
          trivial
      | moreData buf =>
          simp only [PipeConnection.send, call] at here ⊢
          cases here
          exact tells.grow nofun
      | brokenPipe => exact absurd (connected.symm.trans tells) (by decide)

theorem Sound.send_waits (sound : pipe.Sound keeps)
    (here : (pipe.send message).call = .waiting ovs ready) :
    (∀ ov ∈ ovs, ov.Tells (pipe.send message).messages pipe.connected) ∧
      ∃ old, pipe.call = .waiting old ready ∧ ovs.length = old.length := by
  cases call : pipe.call with
  | idle =>
      simp only [PipeConnection.send, call] at here
      cases here
  | reading size old done =>
      simp only [PipeConnection.send, call] at here
      cases old <;> cases here
  | waiting old done =>
      obtain ⟨tells, _⟩ := sound.waits old done call
      simp only [PipeConnection.send, call] at here ⊢
      cases here
      by_cases taken : message = [] ∧ .pending ∈ old
      · obtain ⟨rfl, pending⟩ := taken
        obtain ⟨left, length, _, others⟩ := Overlapped.offer_taken pending
        refine ⟨fun ov member => ?_, old, rfl, length⟩
        rw [left, List.append_nil]
        obtain listed | rfl := others ov member
        · exact tells ov listed
        · trivial
      · obtain ⟨left, length, _, others⟩ := Overlapped.offer_left (not_and_or.mp taken)
        refine ⟨fun ov member => ?_, old, rfl, length⟩
        rw [left]
        obtain ⟨listed, done⟩ | rfl := others ov member
        · exact (tells ov listed).grow done
        · exact List.append_ne_nil_of_right_ne_nil _ (List.cons_ne_nil _ _)

theorem Sound.send (sound : pipe.Sound keeps) (connected : pipe.connected = true) :
    (pipe.send message).Sound keeps := by
  obtain ⟨conn, flag, answer, open_, taken, sent, left, messages⟩ :=
    @send_frame pipe message
  have same : (pipe.send message).usable = pipe.usable := by
    unfold PipeConnection.usable
    rw [conn]
  have grows : pipe.messages ≠ [] → (pipe.send message).messages ≠ [] := by
    rw [messages]
    exact fun full => List.append_ne_nil_of_left_ne_nil full left
  constructor
  · intro maxsize ov stopped here
    rw [same, flag, open_]
    exact sound.send_reads connected here
  · intro ovs ready here
    obtain ⟨tells, old, before, length⟩ := sound.send_waits here
    obtain ⟨_, found, once⟩ := sound.waits old ready before
    rw [open_, flag, length]
    refine ⟨tells, fun yes => (found yes).imp_left grows, fun all => ?_⟩
    refine (once all).imp_right fun free listed => free ?_
    exact List.ne_nil_of_length_pos (length ▸ List.length_pos_iff.mpr listed)
  · intro told
    rw [answer] at told
    exact (sound.told told).imp flag.trans (.imp grows open_.trans)
  · intro usable
    rw [sent, taken, send_unread sound connected, ← List.append_assoc, List.filter_append,
      List.filter_append, sound.stream (same.symm.trans usable)]
  · rw [sent, taken, List.filter_append]
    exact sound.shut.trans (List.prefix_append ..)

theorem Sound.hangUp (sound : pipe.Sound keeps) : pipe.hangUp.Sound keeps := by
  have unread : pipe.hangUp.unread = pipe.unread := by
    unfold PipeConnection.hangUp PipeConnection.unread
    cases call : pipe.call with
    | idle => rfl
    | reading maxsize ov stopped => cases ov <;> rfl
    | waiting ovs ready =>
        simp [PipeCall.unread, List.countP_map, Function.comp_def, Overlapped.isSuccess_hangUp]
  constructor
  · intro maxsize ov stopped here
    cases call : pipe.call with
    | idle =>
        simp only [PipeConnection.hangUp, call] at here
        cases here
    | waiting ovs ready =>
        simp only [PipeConnection.hangUp, call] at here
        cases here
    | reading size old done =>
        simp only [PipeConnection.hangUp, call] at here
        cases here
        obtain ⟨usable, flag, tells⟩ := sound.reads maxsize old stopped call
        exact ⟨usable, flag, tells.hangUp⟩
  · intro ovs ready here
    cases call : pipe.call with
    | idle =>
        simp only [PipeConnection.hangUp, call] at here
        cases here
    | reading size old stopped =>
        simp only [PipeConnection.hangUp, call] at here
        cases here
    | waiting old done =>
        simp only [PipeConnection.hangUp, call] at here
        cases here
        obtain ⟨tells, _, once⟩ := sound.waits old ready call
        refine ⟨fun ov member => ?_, fun _ => .inr rfl, fun all => ?_⟩
        · obtain ⟨before, listed, rfl⟩ := List.mem_map.mp member
          exact (tells before listed).hangUp
        · rw [List.length_map]
          refine (once all).imp_right fun free listed => free fun empty => listed ?_
          rw [empty]
          rfl
  · exact fun _ => .inr (.inr rfl)
  · rw [unread]
    exact sound.stream
  · exact sound.shut

/-- A call that has come to its end -/
theorem sound_of_idle (idle : next.call = .idle)
    (told : next.answer = some (.ready true) → next.Available)
    (stream : next.usable = true →
      next.sent.filter keeps = (next.taken ++ next.unread).filter keeps)
    (shut : next.taken.filter keeps <+: next.sent.filter keeps) : next.Sound keeps := by
  refine ⟨fun maxsize ov stopped here => ?_, fun ovs ready here => ?_, told, stream, shut⟩
  · cases idle.symm.trans here
  · cases idle.symm.trans here

theorem Sound.reply (sound : pipe.Sound keeps)
    (nothing : pipe.call.unread pipe.messages = pipe.messages) {answer : PipeAnswer}
    (told : answer = .ready true → pipe.Available) : (pipe.reply answer).Sound keeps := by
  refine sound_of_idle rfl (fun same => told (Option.some.inj same)) (fun usable => ?_) sound.shut
  have stream := sound.stream usable
  unfold unread at stream ⊢
  rw [nothing] at stream
  exact stream

theorem Sound.take (sound : pipe.Sound keeps) (usable : pipe.usable = true) (flag : Bool)
    (messages : List (List UInt8)) {value : List UInt8}
    (ahead : (value :: ((if flag then [[]] else []) ++ messages)).filter keeps =
      pipe.unread.filter keeps) :
    ({ pipe with gotEmptyMessage := flag, messages }.take stopped value).Sound keeps := by
  have stream : pipe.sent.filter keeps = (pipe.taken ++ [value]).filter keeps ++
      ((if flag then [[]] else []) ++ messages).filter keeps := by
    rw [sound.stream usable, List.filter_append, ← ahead, ← List.filter_append,
      ← List.filter_append, List.append_assoc, List.singleton_append]
  cases stopped with
  | false =>
      refine sound_of_idle rfl nofun (fun _ => ?_) ⟨_, stream.symm⟩
      rw [List.filter_append]
      exact stream
  | true =>
      refine sound_of_idle rfl nofun (fun _ => ?_) ⟨_, stream.symm⟩
      rw [List.filter_append]
      exact stream

theorem Sound.endWait (sound : pipe.Sound keeps) (here : pipe.call = .waiting ovs ready)
    {answer : PipeAnswer} (told : answer = .ready true → (pipe.endWait ovs answer).Available) :
    (pipe.endWait ovs answer).Sound keeps := by
  refine sound_of_idle rfl (fun same => told (Option.some.inj same)) (fun usable => ?_) sound.shut
  have same : (pipe.endWait ovs answer).unread.filter keeps = pipe.unread.filter keeps := by
    by_cases all : keeps [] = true
    · obtain ⟨short, free⟩ := (sound.waits ovs ready here).2.2 all
      match ovs, short with
      | [], _ => simp [unread, PipeConnection.endWait, PipeConnection.reply, here, PipeCall.unread]
      | [ov], _ =>
          have flag := free (List.cons_ne_nil _ _)
          cases ov <;> simp [unread, PipeConnection.endWait, PipeConnection.reply, here, flag,
            PipeCall.unread, Overlapped.isSuccess]
    · have none : ∀ flag : Bool, (if flag then [[]] else []).filter keeps = [] := by
        rintro (_ | _) <;> simp [all]
      simp [unread, PipeConnection.endWait, PipeConnection.reply, here, PipeCall.unread, none, all]
  have stream := sound.stream usable
  rw [List.filter_append] at stream ⊢
  rw [same]
  exact stream

theorem Sound.startWait (sound : pipe.Sound keeps) (idle : pipe.call = .idle) :
    pipe.startWait.Sound keeps := by
  refine ⟨nofun, ?_, nofun, fun usable => ?_, sound.shut⟩
  · rintro _ _ ⟨⟩
    exact ⟨nofun, nofun, fun _ => ⟨Nat.zero_le 1, fun listed => absurd rfl listed⟩⟩
  · have stream := sound.stream usable
    unfold unread at stream
    rw [idle] at stream
    exact stream

theorem readFile_pending (size : Nat) (messages : List (List UInt8)) (connected : Bool) :
    (readFile size connected messages).1 = .pending ∧ messages = [] ∧ connected = true ∨
      (readFile size connected messages).1 ≠ .pending ∧ (messages ≠ [] ∨ connected = false) := by
  cases messages with
  | nil => cases connected <;> simp [readFile]
  | cons message messages =>
      refine .inr ⟨?_, .inl (List.cons_ne_nil _ _)⟩
      simp only [readFile]
      split
      · exact nofun
      · split <;> exact nofun

theorem Sound.list (sound : pipe.Sound keeps) (here : pipe.call = .waiting ovs ready)
    (careful : keeps [] = true → pipe.gotEmptyMessage = false ∧ ovs = []) :
    (pipe.list ovs ready).Sound keeps := by
  obtain ⟨tells, found, once⟩ := sound.waits ovs ready here
  have stream := sound.stream
  unfold unread at stream
  rw [here] at stream
  unfold PipeConnection.list
  split
  · exact sound.endWait here nofun
  · obtain ⟨pending, empty, connected⟩ | ⟨done, available⟩ :=
      readFile_pending 0 pipe.messages pipe.connected
    · rw [pending]
      refine ⟨nofun, ?_, sound.told, fun usable => ?_, sound.shut⟩
      · rintro _ _ ⟨⟩
        refine ⟨fun ov member => ?_, found, fun all => ?_⟩
        · obtain listed | same := List.mem_append.mp member
          · exact tells ov listed
          · rw [List.mem_singleton.mp same]
            exact ⟨empty, connected⟩
        · obtain ⟨flag, rfl⟩ := careful all
          exact ⟨Nat.le_refl 1, fun _ => flag⟩
      · rw [stream usable]
        simp [unread, PipeCall.unread, List.countP_append, Overlapped.isSuccess]
    · split
      · rename_i pending
        exact absurd pending done
      · refine ⟨nofun, ?_, sound.told, stream, sound.shut⟩
        rintro _ _ ⟨⟩
        exact ⟨tells, fun _ => available, once⟩

theorem Sound.wake (sound : pipe.Sound keeps) (taken : pipe.wake = some next) :
    next.Sound keeps := by
  unfold PipeConnection.wake at taken
  split at taken
  · rename_i ovs ready here
    cases taken
    obtain ⟨tells, found, _⟩ := sound.waits ovs ready here
    refine sound.endWait here fun yes => ?_
    obtain yes | some_ := Bool.or_eq_true_iff.mp (PipeAnswer.ready.inj yes)
    · exact .inr (found yes)
    · obtain ⟨ov, listed, done⟩ := List.any_eq_true.mp some_
      have told := tells ov listed
      cases ov with
      | pending => simp at done
      | success buf =>
          exact .inl (Bool.or_eq_true_iff.mpr (.inr (List.any_eq_true.mpr ⟨_, listed, rfl⟩)))
      | moreData buf => exact .inr (.inl told)
      | brokenPipe => exact .inr (.inr told)
  · cases taken

theorem Sound.keyboardInterrupt (sound : pipe.Sound keeps)
    (taken : pipe.keyboardInterrupt = some next) : next.Sound keeps := by
  unfold PipeConnection.keyboardInterrupt at taken
  split at taken
  · rename_i maxsize ov stopped here
    cases taken
    have unread : (PipeCall.reading maxsize ov true).unread pipe.messages =
        pipe.call.unread pipe.messages := by
      rw [here]
      cases ov <;> rfl
    refine ⟨?_, nofun, sound.told, fun usable => ?_, sound.shut⟩
    · rintro _ _ _ ⟨⟩
      exact sound.reads maxsize ov stopped here
    · have stream := sound.stream usable
      unfold PipeConnection.unread at stream ⊢
      rw [unread]
      exact stream
  · cases taken

theorem Sound.interrupt (sound : pipe.Sound keeps) (taken : pipe.interrupt = some next) :
    next.Sound keeps := by
  unfold PipeConnection.interrupt at taken
  split at taken
  · rename_i here
    cases taken
    exact sound.reply (by rw [here]; rfl) nofun
  · rename_i ovs ready here
    cases taken
    exact sound.endWait here nofun
  · cases taken

/-- A read takes what it takes from the first message, unless it asks for no bytes and there are
none. -/
theorem readFile_tells (size : Nat) (maxsize : Option Nat) (messages : List (List UInt8))
    (connected : Bool) :
    (readFile size connected messages).1.Tells (readFile size connected messages).2 connected ∧
      ((PipeCall.reading maxsize (readFile size connected messages).1 false).unread
          (readFile size connected messages).2 = messages ∨
        size = 0 ∧ messages.head? = some [] ∧
          (PipeCall.reading maxsize (readFile size connected messages).1 false).unread
            (readFile size connected messages).2 = [] :: messages) := by
  cases messages with
  | nil =>
      cases connected with
      | true => exact ⟨⟨rfl, rfl⟩, .inl rfl⟩
      | false => exact ⟨rfl, .inl rfl⟩
  | cons message messages =>
      simp only [readFile]
      split
      · exact ⟨List.cons_ne_nil _ _, .inl (by simp [PipeCall.unread])⟩
      · rename_i short
        split
        · rename_i zero
          subst zero
          have empty : message = [] := List.length_eq_zero_iff.mp (by omega)
          subst empty
          exact ⟨trivial, .inr ⟨rfl, rfl, rfl⟩⟩
        · exact ⟨trivial, .inl rfl⟩

theorem Sound.startRecv (sound : pipe.Sound keeps) (idle : pipe.call = .idle)
    (usable : pipe.usable = true)
    (careful : keeps [] = true → bsize maxsize = 0 →
      pipe.gotEmptyMessage = true ∨ pipe.messages.head? ≠ some []) :
    (pipe.startRecv maxsize).Sound keeps := by
  have unread : pipe.unread = (if pipe.gotEmptyMessage then [[]] else []) ++ pipe.messages := by
    unfold unread
    rw [idle]
    rfl
  unfold PipeConnection.startRecv
  split
  · rename_i flag
    exact @Sound.take _ _ false sound usable false pipe.messages _ (by rw [unread, flag]; rfl)
  · rename_i flag
    have flag := Bool.eq_false_iff.mpr flag
    have stream := sound.stream usable
    rw [unread, flag] at stream
    -- what is read is as before, but for what `PipeCall.unread` tells of it
    have reads : ∀ ov messages, ov.Tells messages pipe.connected →
        ((PipeCall.reading maxsize ov false).unread messages).filter keeps =
            pipe.messages.filter keeps →
          Sound keeps
            { pipe with call := .reading maxsize ov false, answer := none, messages } := by
      intro ov messages tells same
      refine ⟨?_, nofun, nofun, fun _ => ?_, sound.shut⟩
      · rintro _ _ _ ⟨⟩
        exact ⟨usable, flag, tells⟩
      · unfold PipeConnection.unread
        rw [flag, List.filter_append]
        refine stream.trans (List.filter_append ..|>.trans ?_)
        exact congrArg (_ ++ ·) same.symm
    obtain ⟨tells, same⟩ := readFile_tells (bsize maxsize) maxsize pipe.messages pipe.connected
    split
    · exact sound.reply (by rw [idle]; rfl) nofun
    · rename_i ov messages _ found
      rw [found] at tells same
      refine reads ov messages tells ?_
      obtain same | ⟨zero, first, same⟩ := same
      · rw [same]
      · rw [same]
        refine List.filter_cons_of_neg fun all => ?_
        obtain got | other := careful all zero
        · exact Bool.false_ne_true (flag.symm.trans got)
        · exact other first

theorem Sound.getMoreData (sound : pipe.Sound keeps) {buf : List UInt8}
    (here : pipe.call = .reading maxsize (.moreData buf) stopped)
    (taken : pipe.getMoreData maxsize stopped buf = some next) : next.Sound keeps := by
  obtain ⟨usable, flag, _⟩ := sound.reads maxsize _ stopped here
  unfold PipeConnection.getMoreData at taken
  split at taken
  · cases taken
  · rename_i left messages parts
    split at taken
    · cases taken
      refine sound_of_idle rfl nofun (fun still => ?_) sound.shut
      unfold PipeConnection.usable Connection.badMessageLength at still
      split at still <;> simp [PipeConnection.reply] at still
    · cases taken
      refine sound.take usable pipe.gotEmptyMessage messages ?_
      simp [unread, flag, here, PipeCall.unread, parts]

theorem Sound.finish (sound : pipe.Sound keeps) (taken : pipe.finish = some next) :
    next.Sound keeps := by
  unfold PipeConnection.finish at taken
  split at taken
  · rename_i maxsize buf stopped here
    cases taken
    obtain ⟨usable, flag, _⟩ := sound.reads maxsize _ stopped here
    refine sound.take usable pipe.gotEmptyMessage pipe.messages ?_
    simp [unread, flag, here, PipeCall.unread]
  · rename_i maxsize buf stopped here
    exact sound.getMoreData here taken
  · rename_i here
    cases taken
    exact sound.reply (by rw [here]; rfl) nofun
  · cases taken

theorem usable_of_checked
    (checked : pipe.conn.checkClosed *> pipe.conn.checkReadable = .ok ()) :
    pipe.usable = true := by
  unfold Connection.checkClosed Connection.checkReadable at checked
  unfold usable
  split at checked
  · rename_i handle
    split at checked
    · rename_i readable
      rw [handle, readable]
      rfl
    · cases checked
  · cases checked

theorem Sound.recvBytes (sound : pipe.Sound keeps) (idle : pipe.call = .idle)
    {maxlength : Option Int}
    (careful : keeps [] = true → pipe.Careful (.recvBytes maxlength)) :
    (pipe.recvBytes maxlength).Sound keeps := by
  have nothing : pipe.call.unread pipe.messages = pipe.messages := by rw [idle]; rfl
  unfold PipeConnection.recvBytes
  split
  · exact sound.reply nothing nofun
  · rename_i checked
    split
    · exact sound.reply nothing nofun
    · rename_i positive
      refine sound.startRecv idle (usable_of_checked checked) fun all zero => careful all ?_
      cases maxlength with
      | none => cases zero
      | some maxlength =>
          simp only [Option.any_some, decide_eq_true_eq] at positive
          simp only [Option.map_some, bsize] at zero
          exact congrArg some (by omega)

theorem Sound.poll (sound : pipe.Sound keeps) (idle : pipe.call = .idle) :
    pipe.poll.Sound keeps := by
  have nothing : pipe.call.unread pipe.messages = pipe.messages := by rw [idle]; rfl
  unfold PipeConnection.poll
  split
  · exact sound.reply nothing nofun
  · split
    · rename_i flag
      exact sound.reply nothing fun _ => .inl flag
    · rename_i flag
      split
      · exact sound.reply nothing nofun
      · split
        · rename_i full
          refine sound.reply nothing fun _ => .inr (.inl fun empty => ?_)
          rw [empty] at full
          cases full
        · exact (sound.startWait idle).list rfl fun _ => ⟨Bool.eq_false_iff.mpr flag, rfl⟩

theorem Sound.close (sound : pipe.Sound keeps) (idle : pipe.call = .idle) :
    Sound keeps { pipe with conn := { pipe.conn with handle := false } } :=
  sound_of_idle idle sound.told nofun sound.shut

theorem Sound.step (sound : pipe.Sound keeps)
    (careful : keeps [] = true → pipe.Careful action)
    (taken : PipeConnection.step pipe action = some next) : next.Sound keeps := by
  unfold PipeConnection.step at taken
  split at taken
  · split at taken
    · rename_i reaches
      cases taken
      exact sound.send (Bool.and_eq_true_iff.mp reaches).1
    · cases taken
  · cases taken
    exact sound.hangUp
  · rename_i idle
    cases taken
    exact sound.recvBytes idle careful
  · exact sound.finish taken
  · exact sound.interrupt taken
  · exact sound.keyboardInterrupt taken
  · rename_i idle
    cases taken
    exact sound.poll idle
  · rename_i idle
    cases taken
    exact sound.startWait idle
  · rename_i ovs ready here
    cases taken
    refine sound.list here fun all => ?_
    obtain ⟨flag, once⟩ := careful all
    rw [here] at once
    exact ⟨flag, by simpa [PipeCall.isListed] using once⟩
  · exact sound.wake taken
  · rename_i idle
    cases taken
    exact sound.close idle
  · cases taken

theorem sound_init (keeps : List UInt8 → Bool) (conn : Connection) : (init conn).Sound keeps :=
  sound_of_idle rfl nofun (fun _ => rfl) (List.prefix_refl _)

/-- What is received has been taken, and all that has been taken is received, if `heeds`: that no
receive is stopped. -/
structure Recorded (heeds : Prop) (pipe : PipeConnection) : Prop where
  part : pipe.received.Sublist pipe.taken
  whole : heeds → pipe.received = pipe.taken ∧ pipe.call.isStopped = false

variable {heeds : Prop}

theorem Recorded.frame (recorded : pipe.Recorded heeds) (taken : next.taken = pipe.taken)
    (received : next.received = pipe.received)
    (going : pipe.call.isStopped = false → next.call.isStopped = false) :
    next.Recorded heeds := by
  refine ⟨?_, fun heeded => ?_⟩
  · rw [taken, received]
    exact recorded.part
  · rw [taken, received]
    exact (recorded.whole heeded).imp_right going

theorem Recorded.receive (recorded : pipe.Recorded heeds) (value : List UInt8) :
    (pipe.receive value).Recorded heeds := by
  refine ⟨recorded.part.append (List.Sublist.refl [value]), fun heeded => ⟨?_, rfl⟩⟩
  exact congrArg (· ++ [value]) (recorded.whole heeded).1

theorem Recorded.take (recorded : pipe.Recorded heeds) (value : List UInt8)
    (going : pipe.call.isStopped = false → stopped = false) :
    (pipe.take stopped value).Recorded heeds := by
  cases stopped with
  | false => exact recorded.receive value
  | true =>
      refine ⟨recorded.part.trans (List.sublist_append_left ..), fun heeded => ?_⟩
      cases going (recorded.whole heeded).2

theorem Recorded.send (recorded : pipe.Recorded heeds) :
    (pipe.send message).Recorded heeds := by
  unfold PipeConnection.send
  split
  · rename_i here
    refine recorded.frame rfl rfl fun going => ?_
    rwa [here] at going
  · exact recorded.frame rfl rfl fun _ => rfl
  · exact recorded.frame rfl rfl id

theorem Recorded.hangUp (recorded : pipe.Recorded heeds) : pipe.hangUp.Recorded heeds := by
  refine recorded.frame rfl rfl fun going => ?_
  unfold PipeConnection.hangUp
  cases call : pipe.call with
  | reading maxsize ov stopped => rwa [call] at going
  | idle => rfl
  | waiting ovs ready => rfl

theorem Recorded.recvBytes (recorded : pipe.Recorded heeds) (maxlength : Option Int) :
    (pipe.recvBytes maxlength).Recorded heeds := by
  unfold PipeConnection.recvBytes
  split
  · exact recorded.frame rfl rfl fun _ => rfl
  · split
    · exact recorded.frame rfl rfl fun _ => rfl
    · unfold startRecv
      split
      · have unset : Recorded heeds { pipe with gotEmptyMessage := false } :=
          recorded.frame rfl rfl id
        exact unset.receive []
      · split
        · exact recorded.frame rfl rfl fun _ => rfl
        · exact recorded.frame rfl rfl fun _ => rfl

theorem Recorded.finish (recorded : pipe.Recorded heeds) (taken : pipe.finish = some next) :
    next.Recorded heeds := by
  unfold PipeConnection.finish at taken
  split at taken
  · rename_i maxsize buf stopped here
    cases taken
    refine recorded.take buf fun going => ?_
    rwa [here] at going
  · rename_i maxsize buf stopped here
    unfold PipeConnection.getMoreData at taken
    split at taken
    · cases taken
    · rename_i left messages _
      split at taken
      · cases taken
        exact recorded.frame rfl rfl fun _ => rfl
      · cases taken
        have rest : Recorded heeds { pipe with messages } := recorded.frame rfl rfl id
        refine rest.take (buf ++ left) fun going => ?_
        rwa [here] at going
  · cases taken
    exact recorded.frame rfl rfl fun _ => rfl
  · cases taken

theorem Recorded.list (recorded : pipe.Recorded heeds) (ovs : List Overlapped) (ready : Bool) :
    (pipe.list ovs ready).Recorded heeds := by
  unfold PipeConnection.list
  split
  · exact recorded.frame rfl rfl fun _ => rfl
  · split <;> exact recorded.frame rfl rfl fun _ => rfl

theorem Recorded.poll (recorded : pipe.Recorded heeds) : pipe.poll.Recorded heeds := by
  have replied : ∀ answer, (pipe.reply answer).Recorded heeds :=
    fun answer => recorded.frame rfl rfl fun _ => rfl
  unfold PipeConnection.poll
  split
  · exact replied _
  · split
    · exact replied _
    · split
      · exact replied _
      · split
        · exact replied _
        · have started : pipe.startWait.Recorded heeds := recorded.frame rfl rfl fun _ => rfl
          exact started.list [] false

theorem Recorded.step (recorded : pipe.Recorded heeds)
    (heeded : heeds → action ≠ .keyboardInterrupt)
    (taken : PipeConnection.step pipe action = some next) : next.Recorded heeds := by
  unfold PipeConnection.step at taken
  split at taken
  · split at taken
    · cases taken
      exact recorded.send
    · cases taken
  · cases taken
    exact recorded.hangUp
  · cases taken
    exact recorded.recvBytes _
  · exact recorded.finish taken
  · unfold PipeConnection.interrupt at taken
    split at taken
    · cases taken
      exact recorded.frame rfl rfl fun _ => rfl
    · cases taken
      exact recorded.frame rfl rfl fun _ => rfl
    · cases taken
  · unfold PipeConnection.keyboardInterrupt at taken
    split at taken
    · cases taken
      exact ⟨recorded.part, fun all => absurd rfl (heeded all)⟩
    · cases taken
  · cases taken
    exact recorded.poll
  · cases taken
    exact recorded.frame rfl rfl fun _ => rfl
  · cases taken
    exact recorded.list _ _
  · unfold PipeConnection.wake at taken
    split at taken
    · cases taken
      exact recorded.frame rfl rfl fun _ => rfl
    · cases taken
  · cases taken
    exact recorded.frame rfl rfl id
  · cases taken

theorem recorded_init (heeds : Prop) (conn : Connection) : (init conn).Recorded heeds :=
  ⟨List.Sublist.refl _, fun _ => ⟨rfl, rfl⟩⟩

variable {conn : Connection}

theorem received_eq_taken {condition : PipeConnection → PipeConnectionAction → Prop}
    (heeded : ∀ pipe action, condition pipe action → action ≠ .keyboardInterrupt)
    (ran : run step (init conn) labels = some last)
    (along : Along step condition (init conn) labels) : last.received = last.taken := by
  have kept : Preserves step condition fun pipe => pipe.Recorded True := by
    intro pipe action next recorded met taken
    exact recorded.step (fun _ => heeded pipe action met) taken
  exact ((invariant_along kept (recorded_init True conn) along ran).whole trivial).1

/-- Messages with something in them are received at most once each and in order, whatever is
called; none is lost where no receive is stopped by a `KeyboardInterrupt`. -/
theorem receives_full (ran : run step (init conn) labels = some last) :
    (last.received.filter (· ≠ [])).Sublist (last.sent.filter (· ≠ [])) ∧
      (Along step (fun _ action => action ≠ .keyboardInterrupt) (init conn) labels →
        last.received.filter (· ≠ []) <+: last.sent.filter (· ≠ []) ∧
          (last.usable = true →
            last.sent.filter (· ≠ []) = (last.received ++ last.unread).filter (· ≠ []))) := by
  have kept : ∀ pipe action next, pipe.Sound (· ≠ []) ∧ pipe.Recorded False →
      step pipe action = some next → next.Sound (· ≠ []) ∧ next.Recorded False := by
    rintro pipe action next ⟨sound, recorded⟩ taken
    exact ⟨sound.step (fun all => absurd all (by decide)) taken, recorded.step nofun taken⟩
  obtain ⟨sound, recorded⟩ :=
    invariant_run kept ⟨sound_init _ conn, recorded_init False conn⟩ ran
  refine ⟨(recorded.part.filter _).trans sound.shut.sublist, fun along => ?_⟩
  rw [received_eq_taken (fun _ _ => id) ran along]
  exact ⟨sound.shut, sound.stream⟩

/-- A second message with nothing in it is taken while the first one is kept. -/
def careless : List PipeConnectionAction :=
  [.wait, .list, .send [], .wake, .wait, .list, .send [], .wake, .send [7], .recvBytes none,
    .recvBytes none, .finish]

theorem receives_full_careless :
    ∃ last, run step (init ⟨true, true, true⟩) careless = some last ∧
      last.sent.filter (· ≠ []) = (last.received ++ last.unread).filter (· ≠ []) := by
  have ran : run step (init ⟨true, true, true⟩) careless = some _ := rfl
  exact ⟨_, ran, ((receives_full ran).2 (by decide)).2 rfl⟩

example : ∃ last, run step (init ⟨true, true, true⟩)
    [.recvBytes none, .keyboardInterrupt, .send [1], .send [2], .finish, .recvBytes none,
      .finish] = some last ∧ last.sent = [[1], [2]] ∧ last.received = [[2]] :=
  ⟨_, rfl, by decide, by decide⟩

example : ∃ last, run step (init ⟨true, true, true⟩) careless = some last ∧
    ¬last.received <+: last.sent := ⟨_, rfl, by decide⟩

example : ∃ last, run step (init ⟨true, true, true⟩)
    [.send [], .recvBytes (some 0), .finish, .recvBytes (some 0), .finish] = some last ∧
      ¬last.received <+: last.sent := ⟨_, rfl, by decide⟩

/-- Messages that are there before they are asked for, that a receive waits for and that `poll`
takes, and one that is too long -/
def exchange : List PipeConnectionAction :=
  [.send [9, 9], .poll, .recvBytes none, .send [1], .finish, .wait, .list, .wake,
    .recvBytes (some 1), .finish, .recvBytes none, .send [2, 3], .finish, .poll, .send [], .wake,
    .recvBytes (some 0), .poll, .wake, .recvBytes (some 1), .send [4, 5]]

/-- A receive with something to go on with does not wait. -/
theorem Available.recvBytes (available : pipe.Available) (maxlength : Option Int) :
    (pipe.recvBytes maxlength).call ≠ .reading maxsize .pending stopped := by
  unfold PipeConnection.recvBytes
  split
  · exact nofun
  · split
    · exact nofun
    · unfold startRecv
      split
      · exact nofun
      · rename_i flag
        obtain ⟨_, empty, connected⟩ | ⟨done, _⟩ :=
          readFile_pending (bsize (maxlength.map Int.toNat)) pipe.messages pipe.connected
        · obtain got | full | ended := available
          · exact absurd got flag
          · exact absurd empty full
          · exact absurd (connected.symm.trans ended) (by decide)
        · split
          · exact nofun
          · rename_i ov messages _ found
            rw [found] at done
            intro same
            cases same
            exact done rfl

end PipeConnection

end Billiard
