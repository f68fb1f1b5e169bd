import Billiard.Connection.EndOfFile

/-! The method `recv_bytes_into` of `connection.py`, which turns byte positions of
a buffer into positions of its items. -/

namespace Billiard

def overwrite (bytes : List UInt8) (offset : Nat) (new : List UInt8) : List UInt8 :=
  bytes.take offset ++ new ++ bytes.drop (offset + new.length)

theorem length_overwrite {bytes new : List UInt8} {offset : Nat}
    (fits : offset + new.length ≤ bytes.length) :
    (overwrite bytes offset new).length = bytes.length := by
  simp only [overwrite, List.length_append, List.length_take, List.length_drop]
  omega

/-- A contiguous writable buffer with one dimension. -/
structure ItemBuffer where
  itemsize : Nat
  count : Nat
  bytes : List UInt8
  sized : bytes.length = itemsize * count
deriving DecidableEq

/-- `result.readinto(m[start:stop])`; a slice consists of whole items. -/
def ItemBuffer.readinto (buffer : ItemBuffer) (start stop : Nat) (message : List UInt8) :
    ItemBuffer :=
  let start := min start buffer.count
  let stop := min stop buffer.count
  let new := message.take ((stop - start) * buffer.itemsize)
  { buffer with
    bytes := overwrite buffer.bytes (start * buffer.itemsize) new
    sized := by
      have items : (start + (stop - start)) * buffer.itemsize ≤ buffer.count * buffer.itemsize :=
        Nat.mul_le_mul_right _ (by omega)
      have taken : new.length ≤ (stop - start) * buffer.itemsize := List.length_take_le _ _
      rw [Nat.add_mul, Nat.mul_comm buffer.count, ← buffer.sized] at items
      rw [length_overwrite (by omega), buffer.sized] }

namespace ItemBuffer

variable {buffer : ItemBuffer} {offset : Nat} {message : List UInt8}

end ItemBuffer

inductive IntoError where
  | connection (error : ConnError)
  | bufferTooShort (message : List UInt8)
  | zeroDivisionError
deriving DecidableEq, Repr

inductive IntoStatus where
  | returned (size : Nat)
  | raised (error : IntoError)
  | waiting
deriving DecidableEq, Repr

structure ReceivedInto where
  buffer : ItemBuffer
  status : IntoStatus
  channel : Channel
  rest : List Syscall
deriving DecidableEq

namespace Connection

/-- The part of `recv_bytes_into` that follows `_recv_bytes`. -/
def storeInto (buffer : ItemBuffer) (offset : Nat) (message : List UInt8) :
    ItemBuffer × IntoStatus :=
  let size := message.length
  if buffer.itemsize * buffer.count < offset + size then
    (buffer, .raised (.bufferTooShort message))
  else if buffer.itemsize = 0 then (buffer, .raised .zeroDivisionError)
  else
    (buffer.readinto (offset / buffer.itemsize) ((offset + size) / buffer.itemsize) message,
      .returned size)

def recvBytesInto (conn : Connection) (buffer : ItemBuffer) (offset : Int) (channel : Channel)
    (calls : List Syscall) : ReceivedInto :=
  match conn.checkClosed *> conn.checkReadable with
  | .error error => ⟨buffer, .raised (.connection error), channel, calls⟩
  | .ok () =>
      let bytesize : Int := buffer.itemsize * buffer.count
      if offset < 0 then
        ⟨buffer, .raised (.connection (.valueError "negative offset")), channel, calls⟩
      else if offset > bytesize then
        ⟨buffer, .raised (.connection (.valueError "offset too large")), channel, calls⟩
      else
        let received := (recvMessage none channel calls).1
        match received.status with
        | .waiting => ⟨buffer, .waiting, received.channel, received.rest⟩
        | .raised error => ⟨buffer, .raised (.connection error), received.channel, received.rest⟩
        | .returned =>
            let (buffer, status) := storeInto buffer offset.toNat received.value
            ⟨buffer, status, received.channel, received.rest⟩

variable {conn : Connection} {buffer : ItemBuffer} {offset : Nat} {message : List UInt8}

end Connection

end Billiard
