import Billiard.Connection.RecvInto

/-! What `recv_bytes` takes off any stream of bytes, and what is left to later receives
after it has refused a message. -/

namespace Billiard

def Status.isRaised : Status → Bool
  | .raised _ => true
  | .returned | .waiting => false

def IntoStatus.isRaised : IntoStatus → Bool
  | .raised _ => true
  | .returned _ | .waiting => false

/-- A call of a method that receives. -/
inductive ReceiveCall where
  | recv
  | recvBytes (maxlength : Option Int)
  | recvBytesInto (buffer : ItemBuffer) (offset : Int)

/-- The connection and the channel after a call, and whether the call has raised. -/
structure Receipt where
  conn : Connection
  channel : Channel
  raised : Bool

namespace Connection

/-- `recv`, up to the unpickling of the message. -/
def recvObject (conn : Connection) (channel : Channel) (calls : List Syscall) : Received :=
  match conn.checkClosed *> conn.checkReadable with
  | .error error => ⟨[], .raised error, channel, calls⟩
  | .ok () => (recvMessage none channel calls).1

def receive (conn : Connection) (channel : Channel) (calls : List Syscall) :
    ReceiveCall → Receipt
  | .recv =>
      let received := conn.recvObject channel calls
      ⟨conn, received.channel, received.status.isRaised⟩
  | .recvBytes maxlength =>
      let (after, received) := conn.recvBytes maxlength channel calls
      ⟨after, received.channel, received.status.isRaised⟩
  | .recvBytesInto buffer offset =>
      let received := conn.recvBytesInto buffer offset channel calls
      ⟨conn, received.channel, received.status.isRaised⟩

/-- Receives one after the other, each with its own system calls. -/
def receives (conn : Connection) (channel : Channel) :
    List (ReceiveCall × List Syscall) → List Receipt
  | [] => []
  | (call, calls) :: rest =>
      let receipt := conn.receive channel calls call
      receipt :: receipt.conn.receives receipt.channel rest

/-- The bytes that `recv_bytes` has taken are those that `_send_bytes` writes for its
result. -/
def TakesFrame (conn : Connection) (maxlength : Option Int) (channel : Channel) : Prop :=
  ∀ calls, let received := (conn.recvBytes maxlength channel calls).2
    received.status = .returned → received.value.length < 2 ^ 31 ∧
      channel.bytes = frame received.value ++ received.channel.bytes

/-- Behind a refusal every receive raises and takes nothing. -/
def RefusesForGood (conn : Connection) (maxlength : Option Int) (channel : Channel) : Prop :=
  ∀ calls, let (after, received) := conn.recvBytes maxlength channel calls
    received.status = .raised (.osError "bad message length") →
      ∀ later, ∀ receipt ∈ after.receives received.channel later,
        receipt.raised = true ∧ receipt.channel = received.channel

/-- A message is asked for, and the header that comes next tells a negative size. -/
def SignedAhead (conn : Connection) (maxlength : Option Int) (channel : Channel) : Prop :=
  (conn.handle = true ∧ conn.readable = true) ∧ maxlength.any (· < 0) = false ∧
    4 ≤ channel.bytes.length ∧ 2 ^ 31 ≤ BigEndian.decode (channel.bytes.take 4)

end Connection

theorem recvLoop_returned {total : Int} {size : Nat} {buf : List UInt8} {channel : Channel}
    {calls : List Syscall}
    (returned : (recvLoop total size buf channel calls).status = .returned) :
    size ≤ channel.bytes.length ∧
      (recvLoop total size buf channel calls).value = buf ++ channel.bytes.take size ∧
      (recvLoop total size buf channel calls).channel.bytes = channel.bytes.drop size := by
  induction calls generalizing size buf channel with
  | nil =>
      cases size with
      | zero => simp [recvLoop]
      | succ less =>
          have positive : ¬((less + 1 : Nat) : Int) ≤ 0 := by omega
          rw [recvLoop, if_neg positive] at returned
          cases returned
  | cons call calls ih =>
      cases size with
      | zero =>
          unfold recvLoop
          simp
      | succ less =>
          have positive : ¬((less + 1 : Nat) : Int) ≤ 0 := by omega
          unfold recvLoop at returned ⊢
          rw [if_neg positive] at returned ⊢
          cases call with
          | eintr => exact ih returned
          | failed => cases returned
          | moved n =>
              cases bytes : channel.bytes with
              | nil =>
                  simp only [bytes] at returned
                  split at returned
                  · cases returned
                  · split at returned <;> cases returned
              | cons byte rest =>
                  simp only [bytes, Int.toNat_natCast] at returned ⊢
                  obtain ⟨chunk, tail, left, taken, dropped, some_, split, size⟩ :=
                    exists_chunk (List.cons_ne_nil byte rest) n less
                  have remaining : ((less + 1 : Nat) : Int) - chunk.length = left := by omega
                  rw [taken, dropped, remaining] at returned ⊢
                  obtain ⟨enough, value, last⟩ := ih returned
                  rw [value, last, size, split]
                  refine ⟨?_, ?_, ?_⟩
                  · rw [List.length_append]
                    exact Nat.add_le_add_left enough _
                  · rw [List.take_length_add_append, List.append_assoc]
                  · rw [List.drop_length_add_append]

theorem recv_returned {size : Nat} {channel : Channel} {calls : List Syscall}
    (returned : (recv size channel calls).status = .returned) :
    size ≤ channel.bytes.length ∧ (recv size channel calls).value = channel.bytes.take size ∧
      (recv size channel calls).channel.bytes = channel.bytes.drop size :=
  recvLoop_returned returned

theorem header_returned {channel : Channel} {calls : List Syscall}
    (returned : (recv 4 channel calls).status = .returned) :
    4 ≤ channel.bytes.length ∧ (recv 4 channel calls).value = channel.bytes.take 4 ∧
      (recv 4 channel calls).channel.bytes = channel.bytes.drop 4 :=
  @recv_returned 4 channel calls returned

theorem recvLoop_not_refused {size remaining : Int} {buf : List UInt8} {channel : Channel}
    {calls : List Syscall} :
    (recvLoop size remaining buf channel calls).status ≠
      .raised (.osError "bad message length") := by
  fun_induction recvLoop size remaining buf channel calls with
  | case1 => exact Status.noConfusion
  | case2 => exact Status.noConfusion
  | case3 _ _ _ _ _ ih => exact ih
  | case4 => simp
  | case5 => exact Status.noConfusion
  | case6 => simp
  | case7 => simp
  | case8 => assumption

theorem recvMessage_not_refused {maxsize : Option Int} {channel : Channel}
    {calls : List Syscall} {received : Received}
    (result : recvMessage maxsize channel calls = (received, false)) :
    received.status ≠ .raised (.osError "bad message length") := by
  simp only [recvMessage] at result
  split at result
  · split at result
    · cases result
    · cases result
      exact recvLoop_not_refused
  · cases result
    exact recvLoop_not_refused

/-- A negative size is received at once, without a byte. -/
theorem recv_negative {size : Int} (negative : size ≤ 0) (channel : Channel)
    (calls : List Syscall) : recv size channel calls = ⟨[], .returned, channel, calls⟩ := by
  unfold recv recvLoop
  rw [if_pos negative]

theorem recvMessage_returned {maxsize : Option Int} {channel : Channel} {calls : List Syscall}
    {received : Received} (result : recvMessage maxsize channel calls = (received, false))
    (returned : received.status = .returned) :
    4 ≤ channel.bytes.length ∧
      (BigEndian.decode (channel.bytes.take 4) < 2 ^ 31 →
        received.value.length < 2 ^ 31 ∧
          channel.bytes = frame received.value ++ received.channel.bytes) := by
  simp only [recvMessage] at result
  split at result
  case isTrue header =>
    obtain ⟨whole, value, left⟩ := header_returned header
    refine ⟨whole, fun small => ?_⟩
    split at result
    case isTrue => cases result
    case isFalse =>
      cases result
      have size : unpackInt (recv 4 channel calls).value =
          (BigEndian.decode (channel.bytes.take 4) : Nat) := by
        rw [unpackInt, value]
        exact if_pos small
      rw [size] at returned ⊢
      obtain ⟨enough, body, rest⟩ := recv_returned returned
      rw [left] at enough body rest
      have length : ((channel.bytes.drop 4).take
          (BigEndian.decode (channel.bytes.take 4))).length =
          BigEndian.decode (channel.bytes.take 4) := List.length_take_of_le enough
      have four : (channel.bytes.take 4).length = 4 := List.length_take_of_le whole
      have header := BigEndian.encode_decode (channel.bytes.take 4)
      rw [four] at header
      rw [body, rest, frame, length, header, List.append_assoc, List.take_append_drop,
        List.take_append_drop]
      exact ⟨small, rfl⟩
  case isFalse stopped =>
    cases result
    exact absurd returned stopped

namespace Connection

variable {conn : Connection} {maxlength : Option Int} {channel : Channel}

theorem readable_of_checked (checked : (conn.checkClosed *> conn.checkReadable) = .ok ()) :
    conn.handle = true ∧ conn.readable = true := by
  cases handle : conn.handle with
  | false =>
      simp only [checkClosed, handle] at checked
      cases checked
  | true =>
      cases readable : conn.readable with
      | false =>
          simp only [checkClosed, checkReadable, handle, readable] at checked
          cases checked
      | true => exact ⟨rfl, rfl⟩

theorem recvBytes_returned {calls : List Syscall}
    (returned : (conn.recvBytes maxlength channel calls).2.status = .returned) :
    (conn.handle = true ∧ conn.readable = true) ∧ maxlength.any (· < 0) = false ∧
      recvMessage maxlength channel calls =
        ((conn.recvBytes maxlength channel calls).2, false) := by
  unfold recvBytes at returned ⊢
  split at returned
  case h_1 => cases returned
  case h_2 checked =>
    refine ⟨readable_of_checked checked, ?_⟩
    split at returned
    case isTrue => cases returned
    case isFalse asked =>
      refine ⟨Bool.eq_false_iff.mpr asked, ?_⟩
      split at returned
      case h_1 => cases returned
      case h_2 received result => simp only [asked, result, Bool.false_eq_true, if_false]

theorem takesFrame_iff : conn.TakesFrame maxlength channel ↔
    ¬ conn.SignedAhead maxlength channel := by
  constructor
  · rintro takes ⟨readable, asked, whole, large⟩
    obtain ⟨rest, _, _, header⟩ := recv_settled 4 channel (uninjured_replicate 4 1)
      (.inl whole) (by rw [transfers_replicate]; omega)
    rw [settled, if_pos whole] at header
    -- what is received is the empty message, and its frame is not this header
    have negative : unpackInt (channel.bytes.take 4) ≤ 0 := by
      have small := BigEndian.decode_lt (channel.bytes.take 4)
      rw [List.length_take_of_le whole] at small
      rw [unpackInt, if_neg (Nat.not_lt_of_le large)]
      omega
    have unlimited : maxlength.any (unpackInt (channel.bytes.take 4) > ·) = false := by
      cases maxlength with
      | none => rfl
      | some limit =>
          have positive : ¬ limit < 0 := of_decide_eq_false asked
          exact decide_eq_false (by omega)
    have message : recvMessage maxlength channel (List.replicate 4 (.moved 1)) =
        (⟨[], .returned, { channel with bytes := channel.bytes.drop 4 }, rest⟩, false) := by
      have taken : recv 4 channel (List.replicate 4 (.moved 1)) =
          ⟨channel.bytes.take 4, .returned,
            { channel with bytes := channel.bytes.drop 4 }, rest⟩ := header
      simp only [recvMessage, taken, if_true, unlimited, recv_negative negative,
        Bool.false_eq_true, if_false]
    have received : (conn.recvBytes maxlength channel (List.replicate 4 (.moved 1))).2 =
        ⟨[], .returned, { channel with bytes := channel.bytes.drop 4 }, rest⟩ := by
      simp only [recvBytes, checked_of_readable readable, asked, message, Bool.false_eq_true,
        if_false]
    have frames := (takes (List.replicate 4 (.moved 1)) (by rw [received])).2
    rw [received] at frames
    have zero : channel.bytes.take 4 = frame [] :=
      (congrArg (List.take 4) frames).trans (List.take_left' (length_frame []))
    rw [zero] at large
    exact absurd large (by decide)
  · intro unsigned calls received returned
    obtain ⟨readable, asked, result⟩ := recvBytes_returned returned
    obtain ⟨whole, frames⟩ := recvMessage_returned result returned
    exact frames (Nat.lt_of_not_le fun large => unsigned ⟨readable, asked, whole, large⟩)

/-- The connection is closed, or not readable. -/
def Shut (conn : Connection) : Prop :=
  ∃ error, (conn.checkClosed *> conn.checkReadable) = .error error

theorem badMessageLength_shut (conn : Connection) : conn.badMessageLength.Shut := by
  unfold badMessageLength
  cases writable : conn.writable with
  | false => exact ⟨_, rfl⟩
  | true =>
      cases handle : conn.handle with
      | false =>
          refine ⟨.osError "handle is closed", ?_⟩
          simp only [checkClosed, if_true]
          rfl
      | true =>
          refine ⟨.osError "connection is write-only", ?_⟩
          simp only [checkClosed, checkReadable, if_true]
          rfl

theorem shut_of_refused {calls : List Syscall}
    (refused : (conn.recvBytes maxlength channel calls).2.status =
      .raised (.osError "bad message length")) :
    (conn.recvBytes maxlength channel calls).1.Shut := by
  unfold recvBytes at refused ⊢
  split at refused
  case h_1 error checked => exact ⟨error, checked⟩
  case h_2 =>
    split at refused
    case isTrue => simp at refused
    case isFalse asked =>
      rw [if_neg asked]
      split at refused
      case h_1 =>
        simp only
        exact badMessageLength_shut conn
      case h_2 received result => exact absurd refused (recvMessage_not_refused result)

theorem Shut.receive (shut : conn.Shut) (channel : Channel) (calls : List Syscall)
    (call : ReceiveCall) : conn.receive channel calls call = ⟨conn, channel, true⟩ := by
  obtain ⟨error, checked⟩ := shut
  cases call with
  | recv => simp only [Connection.receive, recvObject, checked, Status.isRaised]
  | recvBytes maxlength => simp only [Connection.receive, recvBytes, checked, Status.isRaised]
  | recvBytesInto buffer offset =>
      simp only [Connection.receive, recvBytesInto, checked, IntoStatus.isRaised]

theorem Shut.receives (shut : conn.Shut) (channel : Channel)
    (later : List (ReceiveCall × List Syscall)) :
    ∀ receipt ∈ conn.receives channel later,
      receipt.raised = true ∧ receipt.channel = channel := by
  induction later with
  | nil => exact fun receipt listed => absurd listed List.not_mem_nil
  | cons call later ih =>
      intro receipt listed
      simp only [Connection.receives, shut.receive, List.mem_cons] at listed
      cases listed with
      | inl same =>
          subst same
          exact ⟨rfl, rfl⟩
      | inr rest => exact ih receipt rest

theorem refusesForGood (conn : Connection) (maxlength : Option Int) (channel : Channel) :
    conn.RefusesForGood maxlength channel :=
  fun _ refused later => (shut_of_refused refused).receives _ later

/-- Every frame that is returned is taken whole, and every one that is refused is lost for
good, exactly where no header with its sign bit set is received. -/
theorem recvBytes_iff (conn : Connection) (maxlength : Option Int) (channel : Channel) :
    conn.TakesFrame maxlength channel ∧ conn.RefusesForGood maxlength channel ↔
      ¬ conn.SignedAhead maxlength channel := by
  rw [takesFrame_iff]
  exact and_iff_left (refusesForGood conn maxlength channel)

/-- The header tells -1 bytes, and an empty message is returned. -/
theorem not_takesFrame : ¬ ∀ (conn : Connection) (maxlength : Option Int) (channel : Channel),
    conn.TakesFrame maxlength channel ∧ conn.RefusesForGood maxlength channel := by
  intro claimed
  have takes := (claimed ⟨true, true, true⟩ (some 10)
    ⟨[255, 255, 255, 255, 0, 0, 0, 0], false⟩).1 [.moved 4]
  exact absurd (takes (by decide)) (by decide)

end Connection

end Billiard
