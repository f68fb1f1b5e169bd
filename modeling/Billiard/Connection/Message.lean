import Mathlib.Algebra.Ring.Int.Defs
import Billiard.Connection.Transfer
import Billiard.Data.BigEndian

/-! The methods `send_bytes` and `recv_bytes` of `connection.py`: messages with a
header that tells their length. -/

namespace Billiard

/-- `struct.pack("!i", n)` for a length -/
def packInt (n : Nat) : Option (List UInt8) :=
  if n < 2 ^ 31 then some (BigEndian.encode 4 n) else none

/-- `struct.unpack("!i", header)` -/
def unpackInt (header : List UInt8) : Int :=
  let n := BigEndian.decode header
  if n < 2 ^ 31 then n else n - 2 ^ 32

/-- `handle` tells that the handle is not `None`. -/
structure Connection where
  handle : Bool
  readable : Bool
  writable : Bool
deriving DecidableEq, Repr

/-- What `memoryview(buf)` shows of a buffer: its elements have one size. -/
structure Buffer where
  itemsize : Nat
  view : View
  elementSize : Nat
  uniform : ∀ element ∈ view, element.length = elementSize

/-- `memoryview(bytes(m))` when the items are longer than a byte -/
def Buffer.bytewise (buffer : Buffer) : View :=
  if buffer.itemsize > 1 then .ofBytes buffer.view.tobytes else buffer.view

/-- The arguments of `send_bytes`. -/
structure Payload where
  buffer : Buffer
  offset : Int
  size : Option Int

namespace Payload

/-- The part of the buffer that `send_bytes` hands to `_send_bytes`. -/
def select (payload : Payload) : Except ConnError View :=
  let m := payload.buffer.bytewise
  let n : Int := m.length
  let offset := payload.offset
  if offset < 0 then .error (.valueError "offset is negative")
  else if n < offset then .error (.valueError "buffer length < offset")
  else
    match payload.size with
    | none => .ok ((m.drop offset.toNat).take (n - offset).toNat)
    | some size =>
        if size < 0 then .error (.valueError "size is negative")
        else if offset + size > n then .error (.valueError "buffer length < offset + size")
        else .ok ((m.drop offset.toNat).take size.toNat)

/-- The bytes that `offset` and `size` select from the bytes of the buffer. -/
def selected (payload : Payload) : List UInt8 :=
  let bytes := payload.buffer.view.tobytes.drop payload.offset.toNat
  match payload.size with
  | none => bytes
  | some size => bytes.take size.toNat

end Payload

/-- `_send_bytes` -/
def sendMessage (buf : View) (calls : List Syscall) : Sent :=
  match packInt buf.length with
  | none => ⟨[], .raised .structError, calls⟩
  | some header =>
      if buf.length > 16384 then
        let first := send (.ofBytes header) calls
        if first.status = .returned then
          let second := send buf first.rest
          { second with written := first.written ++ second.written }
        else first
      else send (.ofBytes (header ++ buf.tobytes)) calls

/-- `_recv_bytes`, and whether it returns `None` -/
def recvMessage (maxsize : Option Int) (channel : Channel) (calls : List Syscall) :
    Received × Bool :=
  let header := recv 4 channel calls
  if header.status = .returned then
    let size := unpackInt header.value
    if maxsize.any (size > ·) then (header, true)
    else (recv size header.channel header.rest, false)
  else (header, false)

namespace Connection

def checkClosed (conn : Connection) : Except ConnError Unit :=
  if conn.handle then .ok () else .error (.osError "handle is closed")

def checkReadable (conn : Connection) : Except ConnError Unit :=
  if conn.readable then .ok () else .error (.osError "connection is write-only")

def checkWritable (conn : Connection) : Except ConnError Unit :=
  if conn.writable then .ok () else .error (.osError "connection is read-only")

/-- `_bad_message_length`, up to the exception it raises -/
def badMessageLength (conn : Connection) : Connection :=
  if conn.writable then { conn with readable := false } else { conn with handle := false }

def sendBytes (conn : Connection) (payload : Payload) (calls : List Syscall) : Sent :=
  match conn.checkClosed *> conn.checkWritable *> payload.select with
  | .error error => ⟨[], .raised error, calls⟩
  | .ok buf => sendMessage buf calls

def recvBytes (conn : Connection) (maxlength : Option Int) (channel : Channel)
    (calls : List Syscall) : Connection × Received :=
  match conn.checkClosed *> conn.checkReadable with
  | .error error => (conn, ⟨[], .raised error, channel, calls⟩)
  | .ok () =>
      if maxlength.any (· < 0) then
        (conn, ⟨[], .raised (.valueError "negative maxlength"), channel, calls⟩)
      else
        match recvMessage maxlength channel calls with
        | (received, true) =>
            (conn.badMessageLength,
              { received with status := .raised (.osError "bad message length") })
        | (received, false) => (conn, received)

/-- Calls of `send_bytes`, one after the other, as long as they return. -/
def sendAll (conn : Connection) : List Payload → List Syscall → Sent
  | [], calls => ⟨[], .returned, calls⟩
  | payload :: payloads, calls =>
      let first := conn.sendBytes payload calls
      if first.status = .returned then
        let second := conn.sendAll payloads first.rest
        { second with written := first.written ++ second.written }
      else first

/-- What calls of `recv_bytes` return, one after the other. -/
structure Inbox where
  values : List (List UInt8)
  status : Status
  channel : Channel
deriving DecidableEq

def recvAll (conn : Connection) : Nat → Channel → List Syscall → Inbox
  | 0, channel, _ => ⟨[], .returned, channel⟩
  | count + 1, channel, calls =>
      let (conn, received) := conn.recvBytes none channel calls
      if received.status = .returned then
        let inbox := conn.recvAll count received.channel received.rest
        { inbox with values := received.value :: inbox.values }
      else ⟨[], received.status, received.channel⟩

end Connection

def frame (bytes : List UInt8) : List UInt8 := BigEndian.encode 4 bytes.length ++ bytes

@[simp] theorem length_frame (bytes : List UInt8) : (frame bytes).length = 4 + bytes.length := by
  simp [frame]

theorem unpackInt_encode {n : Nat} (short : n < 2 ^ 31) :
    unpackInt (BigEndian.encode 4 n) = n := by
  have decoded : BigEndian.decode (BigEndian.encode 4 n) = n :=
    BigEndian.decode_encode (Nat.lt_trans short (by decide))
  simp only [unpackInt, decoded, if_pos short]

theorem frame_ne_nil (bytes : List UInt8) : frame bytes ≠ [] := by
  apply List.ne_nil_of_length_pos
  rw [length_frame]
  omega

theorem sendMessage_sends {bytes : List UInt8} {calls : List Syscall}
    (short : bytes.length < 2 ^ 31) (uninjured : Uninjured calls) :
    Sends (frame bytes) calls (sendMessage (.ofBytes bytes) calls) := by
  have header : packInt (View.ofBytes bytes).length = some (BigEndian.encode 4 bytes.length) := by
    rw [View.length_ofBytes]
    exact if_pos short
  simp only [sendMessage, header]
  split
  · rename_i large
    have first := send_sends (BigEndian.encode 4 bytes.length) (by simp [BigEndian.encode])
      uninjured
    have some_ : bytes ≠ [] := by
      intro empty
      simp [empty] at large
    split
    · rename_i returned
      exact first.append returned (send_sends _ some_ (uninjured.suffix first.rest))
    · rename_i stopped
      exact first.stop bytes stopped
  · rw [View.tobytes_ofBytes]
    exact send_sends _ (frame_ne_nil bytes) uninjured

/-- `_recv_bytes` takes the next message off an open channel, or waits for it. -/
structure ReceivesMessage (bytes : List UInt8) (channel : Channel) (calls : List Syscall)
    (received : Received) : Prop where
  outcome : received.status = .returned ∧ received.value = bytes ∧
      (∃ tail, channel.bytes = frame bytes ++ tail ∧
        received.channel = { channel with bytes := tail }) ∨
    received.status = .waiting ∧
      ((frame bytes).length ≤ channel.bytes.length → transfers calls < (frame bytes).length)
  rest : received.rest <:+ calls
  cost : received.status = .returned →
    transfers calls ≤ transfers received.rest + (frame bytes).length

theorem recvMessage_receives {bytes more : List UInt8} {channel : Channel} {calls : List Syscall}
    (short : bytes.length < 2 ^ 31) (uninjured : Uninjured calls)
    (open_ : channel.closed = false) (due : channel.bytes <+: frame bytes ++ more) :
    ∃ received, recvMessage none channel calls = (received, false) ∧
      ReceivesMessage bytes channel calls received := by
  have header : Receives 4 channel calls [] (recv 4 channel calls) :=
    recv_receives _ uninjured open_
  cases header.outcome with
  | inr waiting =>
      obtain ⟨waiting, few⟩ := waiting
      have stopped : (recv 4 channel calls).status ≠ .returned := by
        intro returned
        cases returned.symm.trans waiting
      refine ⟨recv 4 channel calls, by simp [recvMessage, stopped], .inr ⟨waiting, ?_⟩,
        header.rest, fun returned => absurd returned stopped⟩
      intro whole
      rw [length_frame] at whole ⊢
      have few := few (by omega)
      omega
  | inl done =>
      obtain ⟨returned, enough, value, left⟩ := done
      obtain ⟨missing, due⟩ := due
      have bytesEq : channel.bytes.take 4 = BigEndian.encode 4 bytes.length := by
        have same := congrArg (List.take 4) due
        rw [List.take_append_of_le_length enough, frame, List.append_assoc,
          List.take_append_of_le_length (by simp)] at same
        rw [same]
        exact List.take_of_length_le (by simp)
      have behind : channel.bytes.drop 4 ++ missing = bytes ++ more := by
        have same := congrArg (List.drop 4) due
        rw [List.drop_append_of_le_length enough, frame, List.append_assoc,
          List.drop_append_of_le_length (by simp)] at same
        rw [same, List.drop_of_length_le (by simp), List.nil_append]
      have size : unpackInt (recv 4 channel calls).value = bytes.length := by
        rw [value, List.nil_append, bytesEq]
        exact unpackInt_encode short
      have open_ : (recv 4 channel calls).channel.closed = false := by rw [left]; exact open_
      have body := recv_receives bytes.length (uninjured.suffix header.rest) open_
      have result : recvMessage none channel calls =
          (recv bytes.length (recv 4 channel calls).channel (recv 4 channel calls).rest,
            false) := by
        simp [recvMessage, returned, size]
      have cost := header.cost returned
      refine ⟨_, result, ?_, body.rest.trans header.rest, ?_⟩
      · cases body.outcome with
        | inl done =>
            obtain ⟨returned, enough, value, last⟩ := done
            refine .inl ⟨returned, ?_, channel.bytes.drop (4 + bytes.length), ?_, ?_⟩
            · rw [value, left, List.nil_append]
              have same := congrArg (List.take bytes.length) behind
              rw [left] at enough
              rwa [List.take_append_of_le_length enough, List.take_left] at same
            · have same := congrArg (List.take (4 + bytes.length)) due
              rw [left, List.length_drop] at enough
              rw [List.take_append_of_le_length (by omega), ← length_frame, List.take_left] at same
              have split := List.take_append_drop (frame bytes).length channel.bytes
              rw [same] at split
              rw [← length_frame, split]
            · rw [last, left, List.drop_drop]
        | inr partly =>
            refine .inr ⟨partly.1, ?_⟩
            intro whole
            rw [length_frame] at whole ⊢
            have few := partly.2 (by
              rw [left, List.length_drop]
              omega)
            omega
      · intro done
        have more := body.cost done
        rw [length_frame]
        omega

theorem checked_of_readable {conn : Connection}
    (readable : conn.handle = true ∧ conn.readable = true) :
    (conn.checkClosed *> conn.checkReadable) = .ok () := by
  simp only [Connection.checkClosed, Connection.checkReadable, readable, if_true]
  rfl

theorem recvBytes_of_readable {conn : Connection}
    (readable : conn.handle = true ∧ conn.readable = true) {channel : Channel}
    {calls : List Syscall} {received : Received}
    (result : recvMessage none channel calls = (received, false)) :
    conn.recvBytes none channel calls = (conn, received) := by
  simp [Connection.recvBytes, checked_of_readable readable, result]

theorem recvAll_receives {conn : Connection} (readable : conn.handle = true ∧ conn.readable = true)
    {messages : List (List UInt8)} (short : ∀ bytes ∈ messages, bytes.length < 2 ^ 31)
    (channel : Channel) {calls : List Syscall} (uninjured : Uninjured calls)
    (open_ : channel.closed = false) (due : channel.bytes <+: (messages.map frame).flatten) :
    let inbox := conn.recvAll messages.length channel calls
    inbox.values <+: messages ∧ (inbox.status = .returned ∨ inbox.status = .waiting) ∧
      (channel.bytes = (messages.map frame).flatten → channel.bytes.length ≤ transfers calls →
        inbox.status = .returned ∧ inbox.values = messages ∧ inbox.channel.bytes = []) := by
  induction messages generalizing channel calls with
  | nil =>
      refine ⟨List.prefix_rfl, .inl rfl, fun all _ => ⟨rfl, rfl, all⟩⟩
  | cons bytes messages ih =>
      obtain ⟨first, short⟩ := List.forall_mem_cons.mp short
      rw [List.map_cons, List.flatten_cons] at due ⊢
      obtain ⟨received, result, receives⟩ :=
        recvMessage_receives first uninjured open_ due
      have step := recvBytes_of_readable readable result
      simp only [List.length_cons, Connection.recvAll, step]
      cases receives.outcome with
      | inr partly =>
          obtain ⟨waiting, few⟩ := partly
          have stopped : received.status ≠ .returned := fun returned =>
            absurd (returned.symm.trans waiting) nofun
          rw [if_neg stopped]
          refine ⟨List.nil_prefix, .inr waiting, ?_⟩
          intro all enough
          have few := few (by simp [all])
          rw [all, List.length_append] at enough
          omega
      | inl done =>
          obtain ⟨returned, value, tail, split, left⟩ := done
          rw [if_pos returned]
          have open_ : received.channel.closed = false := by rw [left]; exact open_
          have due : received.channel.bytes <+: (messages.map frame).flatten := by
            rw [left]
            exact (List.prefix_append_right_inj (frame bytes)).mp (split ▸ due)
          obtain ⟨values, status, complete⟩ :=
            ih short _ (uninjured.suffix receives.rest) open_ due
          refine ⟨?_, status, ?_⟩
          · rw [value]
            exact List.cons_prefix_cons.mpr ⟨rfl, values⟩
          · intro all enough
            have cost := receives.cost returned
            have rest : tail = (messages.map frame).flatten :=
              List.append_cancel_left (split.symm.trans all)
            obtain ⟨done, values, empty⟩ := complete (by rw [left]; exact rest) (by
              rw [split, List.length_append] at enough
              rw [left]
              simp only
              omega)
            exact ⟨done, by rw [value, values], empty⟩

namespace Payload

/-- The items of the buffer are longer than a byte, or its rows are single bytes, or nothing is
selected: a size of zero, or what is behind the last of the rows that have no bytes. -/
def Plain (payload : Payload) : Prop :=
  payload.buffer.itemsize > 1 ∨ (∀ element ∈ payload.buffer.view, element.length = 1) ∨
    payload.size = some 0 ∨ payload.size = none ∧
      payload.offset = payload.buffer.view.length ∧ payload.buffer.view.tobytes = []

/-- The elements that `send_bytes` selects are single bytes, and they are the
bytes of the range. -/
def Intact (payload : Payload) : Prop :=
  ∀ view, payload.select = .ok view →
    (∀ element ∈ view, element.length = 1) ∧ view.tobytes = payload.selected

def stream (payloads : List Payload) : List UInt8 :=
  ((payloads.map selected).map frame).flatten

end Payload

theorem View.eq_ofBytes {view : View} (single : ∀ element ∈ view, element.length = 1) :
    view = .ofBytes view.tobytes := by
  induction view with
  | nil => rfl
  | cons element view ih =>
      obtain ⟨one, others⟩ := List.forall_mem_cons.mp single
      obtain ⟨byte, rfl⟩ := List.length_eq_one_iff.mp one
      rw [View.tobytes, List.flatten_cons, List.singleton_append, View.ofBytes, List.map_cons]
      exact congrArg _ (ih others)

namespace Connection

variable {sender receiver : Connection}

/-- Whatever the system calls do, the receiver gets the messages one by one, and
all of them once there have been enough calls. -/
def Transferred (sender receiver : Connection) (payloads : List Payload) : Prop :=
  ∀ writes reads, Uninjured writes → Uninjured reads →
    let sent := sender.sendAll payloads writes
    let inbox := receiver.recvAll payloads.length ⟨sent.written, false⟩ reads
    (sent.status = .returned ∨ sent.status = .waiting) ∧
      (inbox.status = .returned ∨ inbox.status = .waiting) ∧
      inbox.values <+: payloads.map Payload.selected ∧
      ((Payload.stream payloads).length ≤ transfers writes → sent.status = .returned) ∧
      (sent.status = .returned → (Payload.stream payloads).length ≤ transfers reads →
        inbox.values = payloads.map Payload.selected ∧ inbox.channel.bytes = [])

theorem sendBytes_of_select (writable : sender.handle = true ∧ sender.writable = true)
    {payload : Payload} {view : View} (selects : payload.select = .ok view)
    (calls : List Syscall) : sender.sendBytes payload calls = sendMessage view calls := by
  have checked : (sender.checkClosed *> sender.checkWritable *> payload.select) = .ok view := by
    simp only [checkClosed, checkWritable, writable, if_true, selects]
    rfl
  simp [sendBytes, checked]

theorem sendAll_sends (writable : sender.handle = true ∧ sender.writable = true)
    {payloads : List Payload} (accepted : ∀ payload ∈ payloads, ∃ view, payload.select = .ok view)
    (short : ∀ payload ∈ payloads, payload.selected.length < 2 ^ 31)
    (intact : ∀ payload ∈ payloads, payload.Intact) {calls : List Syscall}
    (uninjured : Uninjured calls) :
    Sends (Payload.stream payloads) calls (sender.sendAll payloads calls) := by
  induction payloads generalizing calls with
  | nil => exact ⟨.inl ⟨rfl, rfl⟩, List.suffix_rfl, fun _ => Nat.le_refl _⟩
  | cons payload payloads ih =>
      obtain ⟨⟨view, selects⟩, accepted⟩ := List.forall_mem_cons.mp accepted
      obtain ⟨fits, short⟩ := List.forall_mem_cons.mp short
      obtain ⟨bytewise, intact⟩ := List.forall_mem_cons.mp intact
      obtain ⟨single, same⟩ := bytewise view selects
      have bytes := View.eq_ofBytes single
      rw [same] at bytes
      have first := sendMessage_sends fits uninjured
      rw [← bytes, ← sendBytes_of_select writable selects] at first
      unfold sendAll
      simp only
      split
      · rename_i returned
        exact first.append returned (ih accepted short intact (uninjured.suffix first.rest))
      · rename_i stopped
        exact first.stop _ stopped

theorem transferred_of_intact (writable : sender.handle = true ∧ sender.writable = true)
    (readable : receiver.handle = true ∧ receiver.readable = true)
    {payloads : List Payload} (accepted : ∀ payload ∈ payloads, ∃ view, payload.select = .ok view)
    (short : ∀ payload ∈ payloads, payload.selected.length < 2 ^ 31)
    (intact : ∀ payload ∈ payloads, payload.Intact) : Transferred sender receiver payloads := by
  intro writes reads fine alsoFine
  have sends := sendAll_sends writable accepted short intact fine
  have written : (sender.sendAll payloads writes).written <+: Payload.stream payloads := by
    cases sends.outcome with
    | inl done => exact done.2 ▸ List.prefix_rfl
    | inr partly => exact partly.2.1
  have sizes : ∀ bytes ∈ payloads.map Payload.selected, bytes.length < 2 ^ 31 := by
    intro bytes member
    obtain ⟨payload, listed, rfl⟩ := List.mem_map.mp member
    exact short payload listed
  obtain ⟨values, status, complete⟩ := recvAll_receives readable sizes
    ⟨(sender.sendAll payloads writes).written, false⟩ alsoFine rfl written
  rw [List.length_map] at values status complete
  refine ⟨?_, status, values, ?_, ?_⟩
  · exact sends.outcome.imp And.left And.left
  · intro enough
    cases sends.outcome with
    | inl done => exact done.1
    | inr partly => exact absurd enough (Nat.not_le_of_lt partly.2.2)
  · intro returned enough
    have all : (sender.sendAll payloads writes).written = Payload.stream payloads := by
      cases sends.outcome with
      | inl done => exact done.2
      | inr partly => cases returned.symm.trans partly.1
    exact (complete all (all ▸ enough)).2

theorem uniform_bytewise (buffer : Buffer) :
    ∃ size, ∀ element ∈ buffer.bytewise, element.length = size := by
  unfold Buffer.bytewise
  split
  · refine ⟨1, ?_⟩
    intro element member
    obtain ⟨byte, _, rfl⟩ := List.mem_map.mp member
    rfl
  · exact ⟨_, buffer.uniform⟩

/-- The two ways to ask for a part of a buffer -/
theorem select_cases {payload : Payload} {view : View} (selects : payload.select = .ok view) :
    (payload.size = none ∧ payload.offset ≤ payload.buffer.bytewise.length ∧
        view = payload.buffer.bytewise.drop payload.offset.toNat) ∨
      ∃ size : Nat, payload.size = some (size : Int) ∧
        payload.offset.toNat + size ≤ payload.buffer.bytewise.length ∧
          view = (payload.buffer.bytewise.drop payload.offset.toNat).take size := by
  simp only [Payload.select] at selects
  split at selects
  · cases selects
  split at selects
  · cases selects
  rename_i positive inside
  split at selects
  · rename_i whole
    cases selects
    refine .inl ⟨whole, by omega, List.take_of_length_le ?_⟩
    rw [List.length_drop]
    omega
  · rename_i size part
    split at selects
    · cases selects
    split at selects
    · cases selects
    · cases selects
      exact .inr ⟨size.toNat, by rw [part]; congr; omega, by omega, rfl⟩

theorem uniform_of_select {payload : Payload} {view : View} (selects : payload.select = .ok view) :
    ∃ size, ∀ element ∈ view, element.length = size := by
  obtain ⟨size, whole⟩ := uniform_bytewise payload.buffer
  refine ⟨size, fun element member => whole element ?_⟩
  obtain ⟨_, _, rfl⟩ | ⟨_, _, _, rfl⟩ := select_cases selects
  · exact List.mem_of_mem_drop member
  · exact List.mem_of_mem_drop (List.mem_of_mem_take member)

theorem length_tobytes {view : View} {size : Nat}
    (uniform : ∀ element ∈ view, element.length = size) :
    view.tobytes.length = view.length * size := by
  induction view with
  | nil => simp [View.tobytes]
  | cons element view ih =>
      obtain ⟨first, others⟩ := List.forall_mem_cons.mp uniform
      rw [View.tobytes, List.flatten_cons, List.length_append, first, ← View.tobytes, ih others,
        List.length_cons, Nat.add_mul, Nat.one_mul, Nat.add_comm]

/-- The loop of `_send` does not end once its count is wrong and its bytes are gone. -/
theorem sendLoop_stuck {remaining : Int} {view : View} {calls : List Syscall}
    (wrong : remaining ≠ 0) (gone : view.tobytes = []) :
    (sendLoop remaining view calls).status ≠ .returned := by
  induction calls with
  | nil => nofun
  | cons call calls ih =>
      cases call with
      | eintr => exact ih
      | failed => nofun
      | moved n => simpa [sendLoop, gone, wrong] using ih

theorem sendLoop_whole {view : View} {size n : Nat} {calls : List Syscall}
    (uniform : ∀ element ∈ view, element.length = size) (enough : view.tobytes.length ≤ n)
    (returned : (sendLoop view.length view (.moved n :: calls)).status = .returned) :
    (sendLoop view.length view (.moved n :: calls)).written = view.tobytes := by
  have whole : view.tobytes.take (max 1 n) = view.tobytes := List.take_of_length_le (by omega)
  simp only [sendLoop, whole] at returned ⊢
  cases Int.decEq (view.length - view.tobytes.length) 0 with
  | isTrue done => rw [if_pos done]
  | isFalse wrong =>
      rw [if_neg wrong] at returned
      have gone : View.tobytes (view.drop view.tobytes.length) = [] := by
        have dropped : ∀ element ∈ view.drop view.tobytes.length, element.length = size :=
          fun element member => uniform element (List.mem_of_mem_drop member)
        apply List.eq_nil_of_length_eq_zero
        rw [length_tobytes dropped, List.length_drop, length_tobytes uniform]
        cases size with
        | zero => rfl
        | succ size =>
            have gone : view.length - view.length * (size + 1) = 0 :=
              Nat.sub_eq_zero_of_le (Nat.le_mul_of_pos_right _ (Nat.succ_pos size))
            rw [gone, Nat.zero_mul]
      exact absurd returned (sendLoop_stuck wrong gone)

/-- When `_send_bytes` returns after calls that transfer all they can, the header
counts the elements, and the bytes follow. -/
theorem sendMessage_returned {view : View} {size count n : Nat}
    (uniform : ∀ element ∈ view, element.length = size) (enough : view.tobytes.length ≤ n)
    (returned : (sendMessage view (List.replicate count (.moved n))).status = .returned) :
    view.length < 2 ^ 31 ∧ (sendMessage view (List.replicate count (.moved n))).written =
      BigEndian.encode 4 view.length ++ view.tobytes := by
  have fine : ∀ count, Uninjured (List.replicate count (.moved n)) :=
    fun count => uninjured_replicate count n
  cases header : packInt view.length with
  | none => simp [sendMessage, header] at returned
  | some encoded =>
      simp only [packInt, Option.ite_none_right_eq_some, Option.some.injEq] at header
      obtain ⟨short, rfl⟩ := header
      refine ⟨short, ?_⟩
      simp only [sendMessage, packInt, if_pos short] at returned ⊢
      split
      · rename_i large
        rw [if_pos large] at returned
        have first := send_sends (BigEndian.encode 4 view.length)
          (by simp [BigEndian.encode]) (fine count)
        generalize send (.ofBytes (BigEndian.encode 4 view.length))
          (List.replicate count (.moved n)) = sent at first returned ⊢
        have done : sent.status = .returned := by
          apply Decidable.byContradiction
          intro stopped
          rw [if_neg stopped] at returned
          exact stopped returned
        rw [if_pos done] at returned ⊢
        have written : sent.written = BigEndian.encode 4 view.length := by
          cases first.outcome with
          | inl whole => exact whole.2
          | inr partly => cases done.symm.trans partly.1
        have rest := (List.suffix_replicate_iff.mp first.rest).2
        cases left : sent.rest.length with
        | zero =>
            rw [rest, left] at returned
            cases returned
        | succ left_ =>
            rw [left, List.replicate_succ] at rest
            simp only [rest, written, send] at returned ⊢
            rw [sendLoop_whole uniform enough returned]
      · rename_i small
        rw [if_neg small] at returned
        have sends := send_sends (BigEndian.encode 4 view.length ++ view.tobytes)
          (by simp [BigEndian.encode]) (fine count)
        cases sends.outcome with
        | inl done => exact done.2
        | inr partly => cases returned.symm.trans partly.1

theorem recvAll_one (readable : receiver.handle = true ∧ receiver.readable = true)
    {bytes value : List UInt8} {size : Nat} {reads : List Syscall}
    (fine : Uninjured reads) (short : size < 2 ^ 31)
    (values : (receiver.recvAll 1 ⟨BigEndian.encode 4 size ++ bytes, false⟩ reads).values = [value])
    (empty : (receiver.recvAll 1 ⟨BigEndian.encode 4 size ++ bytes, false⟩ reads).channel.bytes =
      []) :
    bytes = value ∧ bytes.length = size := by
  have header : Receives 4 ⟨BigEndian.encode 4 size ++ bytes, false⟩ reads []
      (recv 4 ⟨BigEndian.encode 4 size ++ bytes, false⟩ reads) := recv_receives _ fine rfl
  simp only [recvAll, recvBytes, checked_of_readable readable, Option.any_none, recvMessage]
    at values empty
  generalize recv 4 ⟨BigEndian.encode 4 size ++ bytes, false⟩ reads = first at *
  cases header.outcome with
  | inr waiting => simp [waiting.1] at values
  | inl done =>
      obtain ⟨returned, _, encoded, left⟩ := done
      have encoded : first.value = BigEndian.encode 4 size := by
        rw [encoded, List.nil_append]
        exact List.take_left' (BigEndian.length_encode 4 size)
      have left : first.channel = ⟨bytes, false⟩ := by
        rw [left]
        exact congrArg (Channel.mk · false) (List.drop_left' (BigEndian.length_encode 4 size))
      have body :
          Receives size ⟨bytes, false⟩ first.rest [] (recv size ⟨bytes, false⟩ first.rest) :=
        recv_receives _ (fine.suffix header.rest) rfl
      simp only [returned, if_true, encoded, unpackInt_encode short, left] at values empty
      generalize recv size ⟨bytes, false⟩ first.rest = last at *
      cases body.outcome with
      | inr waiting => simp [waiting.1] at values
      | inl done =>
          obtain ⟨returned, enough, taken, dropped⟩ := done
          simp only [returned, Bool.false_eq_true, if_false, if_true, taken, dropped,
            List.nil_append, List.cons.injEq, and_true] at values empty
          have length : bytes.length = size :=
            Nat.le_antisymm (List.drop_eq_nil_iff.mp empty) enough
          exact ⟨(List.take_of_length_le (Nat.le_of_eq length)).symm.trans values, length⟩

theorem intact_of_transferred (writable : sender.handle = true ∧ sender.writable = true)
    (readable : receiver.handle = true ∧ receiver.readable = true)
    {payload : Payload} (transferred : Transferred sender receiver [payload]) : payload.Intact := by
  intro view selects
  obtain ⟨size, uniform⟩ := uniform_of_select selects
  obtain ⟨n, all, whole⟩ : ∃ n, (Payload.stream [payload]).length ≤ n ∧ view.tobytes.length ≤ n :=
    ⟨max _ _, Nat.le_max_left _ _, Nat.le_max_right _ _⟩
  have fine := uninjured_replicate n n
  have enough : (Payload.stream [payload]).length ≤ transfers (List.replicate n (.moved n)) := by
    rw [transfers_replicate]
    exact all
  obtain ⟨_, _, _, returned, received⟩ := transferred _ _ fine fine
  have returned := returned enough
  obtain ⟨values, empty⟩ := received returned enough
  simp only [sendAll, sendBytes_of_select writable selects] at returned values empty
  have done : (sendMessage view (List.replicate n (.moved n))).status = .returned := by
    apply Decidable.byContradiction
    intro stopped
    rw [if_neg stopped] at returned
    exact stopped returned
  obtain ⟨short, written⟩ := sendMessage_returned uniform whole done
  rw [if_pos done] at values empty
  simp only [written, List.append_nil, List.length_singleton, List.map_singleton] at values empty
  obtain ⟨same, length⟩ := recvAll_one readable fine short values empty
  refine ⟨?_, same⟩
  intro element member
  rw [uniform element member]
  rw [length_tobytes uniform] at length
  have some_ : 0 < view.length := List.length_pos_of_mem member
  exact Nat.eq_of_mul_eq_mul_left some_ (length.trans (Nat.mul_one _).symm)

theorem intact_of_single {payload : Payload}
    (single : payload.buffer.itemsize > 1 ∨
      ∀ element ∈ payload.buffer.view, element.length = 1) : payload.Intact := by
  have bytewise : payload.buffer.bytewise = .ofBytes payload.buffer.view.tobytes := by
    unfold Buffer.bytewise
    split
    · rfl
    · rename_i narrow
      exact View.eq_ofBytes (single.resolve_left narrow)
  have part : ∀ bytes : List UInt8, (∀ element ∈ View.ofBytes bytes, element.length = 1) ∧
      (View.ofBytes bytes).tobytes = bytes := by
    intro bytes
    refine ⟨?_, View.tobytes_ofBytes bytes⟩
    intro element member
    obtain ⟨byte, _, rfl⟩ := List.mem_map.mp member
    rfl
  intro view selects
  unfold Payload.selected
  obtain ⟨whole, _, rfl⟩ | ⟨size, some_, _, rfl⟩ := select_cases selects
  · rw [bytewise, View.drop_ofBytes, whole]
    exact part _
  · rw [bytewise, View.drop_ofBytes, some_]
    exact (List.map_take ..) ▸ part _

theorem intact_of_empty {payload : Payload} (selects : payload.select = .ok [])
    (nothing : payload.selected = []) : payload.Intact := by
  intro view same
  cases selects.symm.trans same
  exact ⟨nofun, nothing.symm⟩

/-- Nothing is selected where nothing was asked for, or where there is nothing. -/
theorem plain_of_empty {payload : Payload}
    (bytewise : payload.buffer.bytewise = payload.buffer.view)
    (selects : payload.select = .ok []) (nothing : payload.selected = []) : payload.Plain := by
  have uniform := payload.buffer.uniform
  have bytes := length_tobytes uniform
  unfold Payload.selected at nothing
  obtain ⟨whole, inside, gone⟩ | ⟨size, some_, inside, gone⟩ := select_cases selects
  · rw [whole] at nothing
    have few := List.drop_eq_nil_iff.mp nothing
    have behind := List.drop_eq_nil_iff.mp gone.symm
    rw [bytewise] at inside behind
    cases rows : payload.buffer.view with
    | nil => exact .inr (.inl (by rw [rows]; exact nofun))
    | cons row rest =>
        have filled : 0 < payload.buffer.view.length := by simp [rows]
        have ends : payload.offset = payload.buffer.view.length := by omega
        have most : payload.buffer.view.length * payload.buffer.elementSize ≤
            payload.buffer.view.length * 1 := by omega
        have least := Nat.le_of_mul_le_mul_left most filled
        obtain zero | one : payload.buffer.elementSize = 0 ∨ payload.buffer.elementSize = 1 := by
          omega
        · refine .inr (.inr (.inr ⟨whole, ends, List.length_eq_zero_iff.mp ?_⟩))
          rw [bytes, zero, Nat.mul_zero]
        · exact .inr (.inl fun element listed => (uniform element listed).trans one)
  · have none : size = 0 := by
      have length := congrArg List.length gone
      simp only [List.length_nil, List.length_take, List.length_drop] at length
      omega
    exact .inr (.inr (.inl (by rw [some_, none]; rfl)))

theorem intact_iff_plain {payload : Payload} {view : View}
    (selects : payload.select = .ok view) : payload.Intact ↔ payload.Plain := by
  by_cases wide : payload.buffer.itemsize > 1
  · exact iff_of_true (intact_of_single (.inl wide)) (.inl wide)
  have bytewise : payload.buffer.bytewise = payload.buffer.view := if_neg wide
  have listed : ∀ row ∈ view, row ∈ payload.buffer.view := by
    intro row member
    rw [← bytewise]
    obtain ⟨_, _, rfl⟩ | ⟨_, _, _, rfl⟩ := select_cases selects
    · exact List.mem_of_mem_drop member
    · exact List.mem_of_mem_drop (List.mem_of_mem_take member)
  constructor
  · intro intact
    obtain ⟨single, same⟩ := intact view selects
    cases view with
    | nil => exact plain_of_empty bytewise selects same.symm
    | cons row view =>
        -- a row that is selected tells the length of all of them
        have first : row ∈ row :: view := List.mem_cons_self ..
        have uniform := payload.buffer.uniform
        have size := (uniform row (listed row first)).symm.trans (single row first)
        exact .inr (.inl fun element member => (uniform element member).trans size)
  · rintro (wide | single | zero | ⟨whole, last, empty⟩)
    · exact intact_of_single (.inl wide)
    · exact intact_of_single (.inr single)
    · obtain ⟨whole, _, _⟩ | ⟨size, some_, _, rfl⟩ := select_cases selects
      · cases whole.symm.trans zero
      · obtain rfl : size = 0 := Int.ofNat.inj (Option.some.inj (some_.symm.trans zero))
        refine intact_of_empty selects ?_
        simp [Payload.selected, zero]
    · obtain ⟨_, _, rfl⟩ | ⟨size, some_, _, _⟩ := select_cases selects
      · have gone : payload.buffer.bytewise.drop payload.offset.toNat = [] := by
          rw [bytewise, last]
          exact List.drop_length
        rw [gone] at selects
        refine intact_of_empty selects ?_
        simp [Payload.selected, whole, empty]
      · cases whole.symm.trans some_

/-- A rejected message is not written, not even in part, and the messages of a
kind are transferred, whatever the system calls do, exactly when they are plain. -/
theorem transferred_iff (writable : sender.handle = true ∧ sender.writable = true)
    (readable : receiver.handle = true ∧ receiver.readable = true) (kind : Payload → Prop)
    (accepted : ∀ payload, kind payload → ∃ view, payload.select = .ok view)
    (short : ∀ payload, kind payload → payload.selected.length < 2 ^ 31) :
    (∀ payload error calls, payload.select = .error error →
      sender.sendBytes payload calls = ⟨[], .raised error, calls⟩) ∧
    ((∀ payloads, (∀ payload ∈ payloads, kind payload) → Transferred sender receiver payloads) ↔
      ∀ payload, kind payload → payload.Plain) := by
  constructor
  · intro payload error calls rejected
    have checked :
        (sender.checkClosed *> sender.checkWritable *> payload.select) = .error error := by
      simp only [checkClosed, checkWritable, writable, if_true, rejected]
      rfl
    simp only [sendBytes, checked]
  · constructor
    · intro all payload listed
      obtain ⟨view, selects⟩ := accepted payload listed
      exact (intact_iff_plain selects).mp (intact_of_transferred writable readable
        (all [payload] (List.forall_mem_singleton.mpr listed)))
    · intro plain payloads listed
      refine transferred_of_intact writable readable
        (fun payload member => accepted payload (listed payload member))
        (fun payload member => short payload (listed payload member)) fun payload member => ?_
      obtain ⟨view, selects⟩ := accepted payload (listed payload member)
      exact (intact_iff_plain selects).mpr (plain payload (listed payload member))

/-- Two bytes of a buffer with two-byte items. -/
theorem transferred_wideItems :
    ∃ payload : Payload, payload.select = .ok [[2], [3]] ∧
      ∀ count,
        Transferred ⟨true, true, true⟩ ⟨true, true, true⟩ (List.replicate count payload) := by
  let payload : Payload := ⟨⟨2, [[1, 2], [3, 4]], 2, by decide⟩, 1, some 2⟩
  have selects : payload.select = .ok [[2], [3]] := rfl
  refine ⟨payload, selects, ?_⟩
  intro count
  apply (transferred_iff ⟨rfl, rfl⟩ ⟨rfl, rfl⟩ (· = payload) ?_ ?_).2.mpr ?_
  · exact fun _ => List.eq_of_mem_replicate
  · rintro _ rfl
    exact ⟨_, selects⟩
  · rintro _ rfl
    exact (by decide : payload.selected.length < 2 ^ 31)
  · rintro _ rfl
    exact .inl (by decide)

/-- The header of a two-dimensional buffer of bytes counts its rows. -/
theorem not_transferred :
    ∃ payload : Payload, payload.buffer.itemsize = 1 ∧ payload.select = .ok [[1, 2, 3], [4, 5, 6]] ∧
      ¬Transferred ⟨true, true, true⟩ ⟨true, true, true⟩ [payload] := by
  refine ⟨⟨⟨1, [[1, 2, 3], [4, 5, 6]], 3, by decide⟩, 0, none⟩, rfl, rfl, ?_⟩
  intro transferred
  obtain ⟨_, _, values, _⟩ := transferred [.moved 100] [.moved 100, .moved 100]
    (by simp [Uninjured]) (by simp [Uninjured])
  exact absurd values (by decide)

end Connection

end Billiard
