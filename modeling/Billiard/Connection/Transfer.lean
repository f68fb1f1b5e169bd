/-! The loops `Connection._send` and `Connection._recv` of `connection.py`, over
system calls that are interrupted or transfer only a part. -/

namespace Billiard

/-- A `memoryview` by its elements along the first dimension: `len` counts these. -/
abbrev View := List (List UInt8)

namespace View

def tobytes (view : View) : List UInt8 := view.flatten

def ofBytes (bytes : List UInt8) : View := bytes.map ([·])

@[simp] theorem length_ofBytes (bytes : List UInt8) : (ofBytes bytes).length = bytes.length :=
  List.length_map _

@[simp] theorem tobytes_ofBytes (bytes : List UInt8) : (ofBytes bytes).tobytes = bytes := by
  induction bytes with
  | nil => rfl
  | cons byte bytes ih => simpa [ofBytes, tobytes] using ih

theorem drop_ofBytes (n : Nat) (bytes : List UInt8) :
    (ofBytes bytes).drop n = ofBytes (bytes.drop n) := (List.map_drop ..).symm

end View

/-- What a call of `os.write` or `os.read` does: it is interrupted, fails, or
transfers at most `n` bytes (but some, if it can). -/
inductive Syscall where
  | eintr
  | failed
  | moved (n : Nat)
deriving DecidableEq, Repr

inductive ConnError where
  | eofError
  | osError (text : String)
  | valueError (text : String)
  | structError
deriving DecidableEq, Repr

/-- `waiting` is a call that is still blocked or has yet to be made. -/
inductive Status where
  | returned
  | raised (error : ConnError)
  | waiting
deriving DecidableEq, Repr

/-- `rest` are the system calls that have not been made. -/
structure Sent where
  written : List UInt8
  status : Status
  rest : List Syscall
deriving DecidableEq, Repr

structure Channel where
  bytes : List UInt8
  closed : Bool
deriving DecidableEq, Repr

structure Received where
  value : List UInt8
  status : Status
  channel : Channel
  rest : List Syscall
deriving DecidableEq, Repr

/-- The loop of `_send`; `remaining` is what it believes is left. -/
def sendLoop : Int → View → List Syscall → Sent
  | _, _, [] => ⟨[], .waiting, []⟩
  | remaining, buf, .eintr :: calls => sendLoop remaining buf calls
  | _, _, .failed :: calls => ⟨[], .raised (.osError "write"), calls⟩
  | remaining, buf, .moved n :: calls =>
      let chunk := buf.tobytes.take (max 1 n)
      let remaining := remaining - chunk.length
      if remaining = 0 then ⟨chunk, .returned, calls⟩
      else
        let sent := sendLoop remaining (buf.drop chunk.length) calls
        { sent with written := chunk ++ sent.written }

def send (buf : View) (calls : List Syscall) : Sent := sendLoop buf.length buf calls

/-- The loop of `_recv`; nothing to read is the end of a closed channel. -/
def recvLoop (size : Int) (remaining : Int) (buf : List UInt8) (channel : Channel)
    (calls : List Syscall) : Received :=
  if remaining ≤ 0 then ⟨buf, .returned, channel, calls⟩
  else match calls with
  | [] => ⟨buf, .waiting, channel, []⟩
  | .eintr :: calls => recvLoop size remaining buf channel calls
  | .failed :: calls => ⟨buf, .raised (.osError "read"), channel, calls⟩
  | .moved n :: calls =>
      match channel.bytes with
      | [] =>
          if !channel.closed then ⟨buf, .waiting, channel, calls⟩
          else if remaining = size then ⟨buf, .raised .eofError, channel, calls⟩
          else ⟨buf, .raised (.osError "got end of file during message"), channel, calls⟩
      | bytes =>
          let chunk := bytes.take (min (max 1 n) remaining.toNat)
          recvLoop size (remaining - chunk.length) (buf ++ chunk)
            { channel with bytes := bytes.drop chunk.length } calls

def recv (size : Int) (channel : Channel) (calls : List Syscall) : Received :=
  recvLoop size size [] channel calls

def transfers (calls : List Syscall) : Nat := calls.countP fun
  | .moved _ => true
  | .eintr | .failed => false

/-- No call fails otherwise than by an interruption. -/
def Uninjured (calls : List Syscall) : Prop := ∀ call ∈ calls, call ≠ .failed

theorem Uninjured.suffix {calls rest : List Syscall} (uninjured : Uninjured calls)
    (suffix : rest <:+ calls) : Uninjured rest :=
  fun call member => uninjured call (suffix.subset member)

theorem uninjured_replicate (count n : Nat) : Uninjured (List.replicate count (.moved n)) := by
  intro call member
  rw [List.eq_of_mem_replicate member]
  nofun

@[simp] theorem transfers_replicate (count n : Nat) :
    transfers (List.replicate count (.moved n)) = count := by
  simp only [transfers, List.countP_replicate, if_true]

/-- The calls write `bytes`, or a prefix of them while they do not suffice. -/
structure Sends (bytes : List UInt8) (calls : List Syscall) (sent : Sent) : Prop where
  outcome : sent.status = .returned ∧ sent.written = bytes ∨
    sent.status = .waiting ∧ sent.written <+: bytes ∧ transfers calls < bytes.length
  rest : sent.rest <:+ calls
  cost : sent.status = .returned → transfers calls ≤ transfers sent.rest + bytes.length

theorem Sends.eintr {bytes : List UInt8} {calls : List Syscall} {sent : Sent}
    (sends : Sends bytes calls sent) : Sends bytes (.eintr :: calls) sent :=
  { sends with rest := sends.rest.trans (List.suffix_cons _ _) }

theorem Sends.moved {chunk bytes : List UInt8} {calls : List Syscall} {sent : Sent} {n : Nat}
    (some_ : chunk ≠ []) (sends : Sends bytes calls sent) :
    Sends (chunk ++ bytes) (.moved n :: calls) { sent with written := chunk ++ sent.written } := by
  have positive : 0 < chunk.length := List.length_pos_iff.mpr some_
  have more : transfers (.moved n :: calls) = transfers calls + 1 := by simp [transfers]
  refine ⟨?_, sends.rest.trans (List.suffix_cons _ _), ?_⟩
  · cases sends.outcome with
    | inl done => exact .inl ⟨done.1, by rw [done.2]⟩
    | inr partly =>
        obtain ⟨waiting, written, few⟩ := partly
        refine .inr ⟨waiting, (List.prefix_append_right_inj chunk).mpr written, ?_⟩
        rw [more, List.length_append]
        omega
  · intro returned
    have cost := sends.cost returned
    rw [more, List.length_append]
    simp only
    omega

theorem sendLoop_sends {bytes : List UInt8} {calls : List Syscall} (some_ : bytes ≠ [])
    (uninjured : Uninjured calls) :
    Sends bytes calls (sendLoop bytes.length (.ofBytes bytes) calls) := by
  have positive : 0 < bytes.length := List.length_pos_iff.mpr some_
  induction calls generalizing bytes with
  | nil =>
      refine ⟨.inr ⟨rfl, List.nil_prefix, positive⟩, List.suffix_rfl, nofun⟩
  | cons call calls ih =>
      obtain ⟨fine, others⟩ := List.forall_mem_cons.mp uninjured
      cases call with
      | eintr => exact (ih some_ others positive).eintr
      | failed => exact absurd rfl fine
      | moved n =>
          have chunk : bytes.take (max 1 n) ≠ [] := by simp [some_]
          simp only [sendLoop, View.tobytes_ofBytes, View.drop_ofBytes]
          cases Nat.lt_or_ge (max 1 n) bytes.length with
          | inr whole =>
              rw [List.take_of_length_le whole, if_pos (Int.sub_self _)]
              refine ⟨.inl ⟨rfl, rfl⟩, List.suffix_cons _ _, fun _ => ?_⟩
              simp only [transfers, List.countP_cons_of_pos]
              omega
          | inl part =>
              have length : (bytes.take (max 1 n)).length = max 1 n := by
                rw [List.length_take, Nat.min_eq_left (Nat.le_of_lt part)]
              have left :
                  (bytes.length : Int) - (max 1 n : Nat) = (bytes.drop (max 1 n)).length := by
                rw [List.length_drop]
                omega
              have more : (bytes.drop (max 1 n)).length ≠ 0 := by
                rw [List.length_drop]
                omega
              rw [length, left, if_neg (by simpa using more)]
              have rest := ih (List.ne_nil_of_length_pos (Nat.pos_of_ne_zero more)) others
                (Nat.pos_of_ne_zero more)
              have sends := rest.moved (n := n) chunk
              rw [List.take_append_drop] at sends
              exact sends

theorem send_sends (bytes : List UInt8) {calls : List Syscall} (some_ : bytes ≠ [])
    (uninjured : Uninjured calls) : Sends bytes calls (send (.ofBytes bytes) calls) := by
  rw [send, View.length_ofBytes]
  exact sendLoop_sends some_ uninjured

theorem Sends.append {front back : List UInt8} {calls : List Syscall} {first second : Sent}
    (sends : Sends front calls first) (returned : first.status = .returned)
    (next : Sends back first.rest second) :
    Sends (front ++ back) calls { second with written := first.written ++ second.written } := by
  have written : first.written = front := by
    cases sends.outcome with
    | inl done => exact done.2
    | inr partly => exact absurd (returned.symm.trans partly.1) nofun
  have cost := sends.cost returned
  refine ⟨?_, next.rest.trans sends.rest, ?_⟩
  · rw [written]
    cases next.outcome with
    | inl done => exact .inl ⟨done.1, by rw [done.2]⟩
    | inr partly =>
        obtain ⟨waiting, some_, few⟩ := partly
        refine .inr ⟨waiting, (List.prefix_append_right_inj front).mpr some_, ?_⟩
        rw [List.length_append]
        omega
  · intro done
    have more := next.cost done
    rw [List.length_append]
    simp only
    omega

theorem Sends.stop {front : List UInt8} (back : List UInt8) {calls : List Syscall} {sent : Sent}
    (sends : Sends front calls sent) (stopped : sent.status ≠ .returned) :
    Sends (front ++ back) calls sent := by
  refine ⟨.inr ?_, sends.rest, fun returned => absurd returned stopped⟩
  cases sends.outcome with
  | inl done => exact absurd done.1 stopped
  | inr partly =>
      obtain ⟨waiting, written, few⟩ := partly
      refine ⟨waiting, written.trans (List.prefix_append _ _), ?_⟩
      rw [List.length_append]
      omega

/-- The loop of `_recv` reads its bytes off an open channel, or waits. -/
structure Receives (size : Nat) (channel : Channel) (calls : List Syscall) (buf : List UInt8)
    (received : Received) : Prop where
  outcome : received.status = .returned ∧ size ≤ channel.bytes.length ∧
      received.value = buf ++ channel.bytes.take size ∧
      received.channel = { channel with bytes := channel.bytes.drop size } ∨
    received.status = .waiting ∧ (size ≤ channel.bytes.length → transfers calls < size)
  rest : received.rest <:+ calls
  cost : received.status = .returned → transfers calls ≤ transfers received.rest + size

theorem Receives.eintr {size : Nat} {channel : Channel} {calls : List Syscall}
    {buf : List UInt8} {received : Received}
    (receives : Receives size channel calls buf received) :
    Receives size channel (.eintr :: calls) buf received :=
  { receives with rest := receives.rest.trans (List.suffix_cons _ _) }

theorem Receives.moved {size n : Nat} {channel : Channel} {calls : List Syscall}
    {buf chunk bytes : List UInt8} {received : Received} (some_ : chunk ≠ [])
    (same : channel.bytes = chunk ++ bytes)
    (receives : Receives size { channel with bytes } calls (buf ++ chunk) received) :
    Receives (chunk.length + size) channel (.moved n :: calls) buf received := by
  have positive : 0 < chunk.length := List.length_pos_iff.mpr some_
  have more : transfers (.moved n :: calls) = transfers calls + 1 := by simp [transfers]
  refine ⟨?_, receives.rest.trans (List.suffix_cons _ _), ?_⟩
  · cases receives.outcome with
    | inl done =>
        obtain ⟨returned, enough, value, left⟩ := done
        refine .inl ⟨returned, ?_, ?_, ?_⟩
        · rw [same, List.length_append]
          exact Nat.add_le_add_left enough _
        · rw [value, same, List.take_length_add_append, List.append_assoc]
        · rw [left, same, List.drop_length_add_append]
    | inr partly =>
        refine .inr ⟨partly.1, ?_⟩
        intro enough
        rw [same, List.length_append] at enough
        have few := partly.2 (Nat.le_of_add_le_add_left enough)
        rw [more]
        omega
  · intro returned
    have cost := receives.cost returned
    rw [more]
    omega

/-- The chunk that one call of `os.read` takes off a channel with bytes in it. -/
theorem exists_chunk {bytes : List UInt8} (some_ : bytes ≠ []) (n less : Nat) :
    ∃ chunk tail left, bytes.take (min (max 1 n) (less + 1)) = chunk ∧
      bytes.drop chunk.length = tail ∧ chunk ≠ [] ∧ bytes = chunk ++ tail ∧
      less + 1 = chunk.length + left := by
  have split := List.prefix_iff_eq_append.mp (List.take_prefix (min (max 1 n) (less + 1)) bytes)
  have short := List.length_take_le (min (max 1 n) (less + 1)) bytes
  obtain ⟨left, size⟩ : ∃ left, less + 1 =
      (bytes.take (min (max 1 n) (less + 1))).length + left :=
    Nat.exists_eq_add_of_le (Nat.le_trans short (Nat.min_le_right _ _))
  refine ⟨_, _, left, rfl, rfl, ?_, split.symm, size⟩
  intro nothing
  cases List.take_eq_nil_iff.mp nothing with
  | inl zero => omega
  | inr empty => exact some_ empty

theorem recvLoop_receives (total : Int) {size : Nat} {channel : Channel} {calls : List Syscall}
    (buf : List UInt8) (uninjured : Uninjured calls) (open_ : channel.closed = false) :
    Receives size channel calls buf (recvLoop total size buf channel calls) := by
  induction calls generalizing size channel buf with
  | nil =>
      cases size with
      | zero => exact ⟨.inl ⟨rfl, Nat.zero_le _, by simp [recvLoop], by simp [recvLoop]⟩,
          List.suffix_rfl, fun _ => Nat.le_refl _⟩
      | succ less =>
          have positive : ¬((less + 1 : Nat) : Int) ≤ 0 := by omega
          unfold recvLoop
          rw [if_neg positive]
          exact ⟨.inr ⟨rfl, fun _ => Nat.succ_pos less⟩, List.suffix_rfl, nofun⟩
  | cons call calls ih =>
      obtain ⟨fine, others⟩ := List.forall_mem_cons.mp uninjured
      cases size with
      | zero =>
          unfold recvLoop
          exact ⟨.inl ⟨rfl, Nat.zero_le _, by simp, by simp⟩, List.suffix_rfl,
            fun _ => Nat.le_refl _⟩
      | succ less =>
          have positive : ¬((less + 1 : Nat) : Int) ≤ 0 := by omega
          unfold recvLoop
          rw [if_neg positive]
          cases call with
          | eintr => exact (ih buf others open_).eintr
          | failed => exact absurd rfl fine
          | moved n =>
              cases bytes : channel.bytes with
              | nil =>
                  simp only [open_]
                  refine ⟨.inr ⟨rfl, ?_⟩, List.suffix_cons _ _, nofun⟩
                  simp [bytes]
              | cons byte rest =>
                  simp only [Int.toNat_natCast]
                  obtain ⟨chunk, tail, left, taken, dropped, some_, split, size⟩ :=
                    exists_chunk (List.cons_ne_nil byte rest) n less
                  have remaining : ((less + 1 : Nat) : Int) - chunk.length = left := by omega
                  rw [taken, dropped, remaining, size]
                  apply Receives.moved some_ (bytes.trans split)
                  exact ih (buf ++ chunk) others open_

theorem recv_receives (size : Nat) {channel : Channel} {calls : List Syscall}
    (uninjured : Uninjured calls) (open_ : channel.closed = false) :
    Receives size channel calls [] (recv size channel calls) :=
  recvLoop_receives size [] uninjured open_

end Billiard
