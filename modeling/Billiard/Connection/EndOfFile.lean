import Billiard.Connection.Message

/-! What `recv_bytes` does at the end of a closed channel. -/

namespace Billiard

/-- What the loop of `_recv` comes to when it need not wait for the channel. -/
def settled (total size : Nat) (buf : List UInt8) (channel : Channel) (rest : List Syscall) :
    Received :=
  if size ≤ channel.bytes.length then
    ⟨buf ++ channel.bytes.take size, .returned,
      { channel with bytes := channel.bytes.drop size }, rest⟩
  else
    ⟨buf ++ channel.bytes, .raised (if channel.bytes = [] ∧ size = total then .eofError
      else .osError "got end of file during message"), { channel with bytes := [] }, rest⟩

theorem settled_zero (total : Nat) (buf : List UInt8) (channel : Channel)
    (rest : List Syscall) : settled total 0 buf channel rest = ⟨buf, .returned, channel, rest⟩ := by
  simp [settled]

theorem settled_end {total size : Nat} (buf : List UInt8) {channel : Channel}
    {rest : List Syscall} (bytes : channel.bytes = []) (more : 0 < size) :
    settled total size buf channel rest =
      ⟨buf, .raised (if size = total then .eofError
        else .osError "got end of file during message"), channel, rest⟩ := by
  have short : ¬size ≤ channel.bytes.length := by
    rw [bytes, List.length_nil]
    omega
  have same : ({ channel with bytes := [] } : Channel) = channel := by rw [← bytes]
  rw [settled, if_neg short, same]
  simp only [bytes, List.append_nil, true_and]

theorem settled_chunk {total left : Nat} {buf chunk bytes : List UInt8} {channel : Channel}
    {rest : List Syscall} (some_ : chunk ≠ []) (within : chunk.length + left ≤ total)
    (same : channel.bytes = chunk ++ bytes) :
    settled total left (buf ++ chunk) { channel with bytes } rest =
      settled total (chunk.length + left) buf channel rest := by
  have positive : 0 < chunk.length := List.length_pos_iff.mpr some_
  by_cases whole : left ≤ bytes.length
  · have enough : chunk.length + left ≤ channel.bytes.length := by
      rw [same, List.length_append]
      omega
    rw [settled, settled, if_pos whole, if_pos enough]
    simp only [same, List.take_length_add_append, List.drop_length_add_append, List.append_assoc]
  · have short : ¬chunk.length + left ≤ channel.bytes.length := by
      rw [same, List.length_append]
      omega
    have begun : ¬(channel.bytes = [] ∧ chunk.length + left = total) := by
      simp [same, some_]
    have later : ¬(bytes = [] ∧ left = total) := by
      rintro ⟨_, rfl⟩
      omega
    rw [settled, settled, if_neg whole, if_neg short, if_neg begun, if_neg later]
    simp only [same, List.append_assoc]

/-- Enough bytes are in the channel, or the channel ends: the loop does not wait. -/
theorem recvLoop_settled {total size : Nat} {channel : Channel} {calls : List Syscall}
    (buf : List UInt8) (uninjured : Uninjured calls) (within : size ≤ total)
    (settles : size ≤ channel.bytes.length ∨ channel.closed = true)
    (enough : min size (channel.bytes.length + 1) ≤ transfers calls) :
    ∃ rest, rest <:+ calls ∧
      transfers calls ≤ transfers rest + min size (channel.bytes.length + 1) ∧
      recvLoop total size buf channel calls = settled total size buf channel rest := by
  induction calls generalizing size channel buf with
  | nil =>
      have zero : size = 0 := by
        simp only [transfers, List.countP_nil] at enough
        omega
      subst zero
      exact ⟨[], List.suffix_rfl, Nat.le_add_right _ _, by simp [recvLoop, settled_zero]⟩
  | cons call calls ih =>
      obtain ⟨fine, others⟩ := List.forall_mem_cons.mp uninjured
      cases size with
      | zero =>
          refine ⟨call :: calls, List.suffix_rfl, Nat.le_add_right _ _, ?_⟩
          rw [settled_zero]
          unfold recvLoop
          simp
      | succ less =>
          have positive : ¬((less + 1 : Nat) : Int) ≤ 0 := by omega
          unfold recvLoop
          rw [if_neg positive]
          cases call with
          | eintr =>
              obtain ⟨rest, suffix, cost, ran⟩ := ih buf others within settles enough
              exact ⟨rest, suffix.trans (List.suffix_cons _ _), cost, ran⟩
          | failed => exact absurd rfl fine
          | moved n =>
              have more : transfers (.moved n :: calls) = transfers calls + 1 := by
                simp [transfers]
              cases bytes : channel.bytes with
              | nil =>
                  have ends : channel.closed = true := by
                    rw [bytes] at settles
                    exact settles.resolve_left (by simp)
                  refine ⟨calls, List.suffix_cons _ _, ?_, ?_⟩
                  · rw [more, List.length_nil]
                    omega
                  · rw [settled_end buf bytes (Nat.succ_pos less)]
                    simp only [ends, Bool.not_true, Bool.false_eq_true, if_false, Nat.cast_inj]
                    split <;> rfl
              | cons byte rest =>
                  simp only [Int.toNat_natCast]
                  obtain ⟨chunk, tail, left, taken, dropped, some_, split, size⟩ :=
                    exists_chunk (List.cons_ne_nil byte rest) n less
                  have remaining : ((less + 1 : Nat) : Int) - chunk.length = left := by omega
                  have positive : 0 < chunk.length := List.length_pos_iff.mpr some_
                  have known : channel.bytes.length = (byte :: rest).length :=
                    congrArg List.length bytes
                  have length : (byte :: rest).length = chunk.length + tail.length := by
                    rw [split, List.length_append]
                  rw [taken, dropped, remaining]
                  rw [size] at within ⊢
                  have settles : left ≤ tail.length ∨ channel.closed = true :=
                    settles.imp_left fun whole => by omega
                  obtain ⟨last, suffix, cost, ran⟩ :=
                    @ih left { channel with bytes := tail } (buf ++ chunk) others (by omega)
                      settles (by simp only; omega)
                  refine ⟨last, suffix.trans (List.suffix_cons _ _), ?_, ?_⟩
                  · simp only at cost
                    omega
                  · rw [← settled_chunk some_ within (bytes.trans split)]
                    exact ran

theorem recv_settled (size : Nat) (channel : Channel) {calls : List Syscall}
    (uninjured : Uninjured calls)
    (settles : size ≤ channel.bytes.length ∨ channel.closed = true)
    (enough : min size (channel.bytes.length + 1) ≤ transfers calls) :
    ∃ rest, rest <:+ calls ∧
      transfers calls ≤ transfers rest + min size (channel.bytes.length + 1) ∧
      recv size channel calls = settled size size [] channel rest :=
  recvLoop_settled [] uninjured (Nat.le_refl size) settles enough

theorem recvMessage_header (tail : List UInt8) (closed : Bool) {size : Nat}
    {calls : List Syscall} (short : size < 2 ^ 31) (uninjured : Uninjured calls)
    (enough : 4 ≤ transfers calls) :
    ∃ rest, rest <:+ calls ∧ transfers calls ≤ transfers rest + 4 ∧
      recvMessage none ⟨BigEndian.encode 4 size ++ tail, closed⟩ calls =
        (recv size ⟨tail, closed⟩ rest, false) := by
  have length : (BigEndian.encode 4 size).length = 4 := BigEndian.length_encode 4 size
  have whole : 4 ≤ (BigEndian.encode 4 size ++ tail).length := by
    rw [List.length_append, length]
    omega
  obtain ⟨rest, suffix, cost, ran⟩ := recv_settled 4
    ⟨BigEndian.encode 4 size ++ tail, closed⟩ uninjured (.inl whole) (by omega)
  refine ⟨rest, suffix, by omega, ?_⟩
  rw [settled, if_pos whole] at ran
  simp only [List.take_left' length, List.drop_left' length, List.nil_append] at ran
  have header : recv 4 ⟨BigEndian.encode 4 size ++ tail, closed⟩ calls =
      ⟨BigEndian.encode 4 size, .returned, ⟨tail, closed⟩, rest⟩ := ran
  simp only [recvMessage, header, if_true, unpackInt_encode short, Option.any_none,
    Bool.false_eq_true, if_false]

theorem recvMessage_whole (tail : List UInt8) (closed : Bool) {bytes : List UInt8}
    {calls : List Syscall} (short : bytes.length < 2 ^ 31) (uninjured : Uninjured calls)
    (enough : (frame bytes).length ≤ transfers calls) :
    ∃ rest, rest <:+ calls ∧ transfers calls ≤ transfers rest + (frame bytes).length ∧
      recvMessage none ⟨frame bytes ++ tail, closed⟩ calls =
        (⟨bytes, .returned, ⟨tail, closed⟩, rest⟩, false) := by
  rw [length_frame] at enough ⊢
  obtain ⟨middle, front, cost, header⟩ := recvMessage_header (bytes ++ tail) closed short
    uninjured (by omega)
  have whole : bytes.length ≤ (bytes ++ tail).length := by
    rw [List.length_append]
    omega
  obtain ⟨rest, back, more, ran⟩ := recv_settled bytes.length ⟨bytes ++ tail, closed⟩
    (uninjured.suffix front) (.inl whole) (by omega)
  refine ⟨rest, back.trans front, by omega, ?_⟩
  rw [settled, if_pos whole] at ran
  rw [frame, List.append_assoc, header, ran]
  simp only [List.nil_append, List.take_left, List.drop_left]

/-- `cut` is what the sender wrote of a frame before the channel was closed. -/
theorem recvMessage_cut {bytes cut : List UInt8} {calls : List Syscall}
    (short : bytes.length < 2 ^ 31) (begun : cut <+: frame bytes)
    (proper : cut.length < (frame bytes).length) (uninjured : Uninjured calls)
    (enough : cut.length < transfers calls) :
    ∃ value rest, recvMessage none ⟨cut, true⟩ calls =
      (⟨value, .raised (if cut = [] ∨ cut.length = 4 then .eofError
        else .osError "got end of file during message"), ⟨[], true⟩, rest⟩, false) := by
  have length : (BigEndian.encode 4 bytes.length).length = 4 := BigEndian.length_encode 4 _
  rw [length_frame] at proper
  by_cases header : 4 ≤ cut.length
  · obtain ⟨tail, rfl⟩ : ∃ tail, cut = BigEndian.encode 4 bytes.length ++ tail := by
      have head := List.prefix_of_prefix_length_le (List.prefix_append _ bytes) begun
        (by rw [length]; exact header)
      obtain ⟨tail, same⟩ := head
      exact ⟨tail, same.symm⟩
    rw [List.length_append, length] at enough proper
    obtain ⟨middle, front, cost, ran⟩ :=
      recvMessage_header tail true short uninjured (by omega)
    obtain ⟨rest, _, _, body⟩ := recv_settled bytes.length ⟨tail, true⟩
      (uninjured.suffix front) (.inr rfl) (by simp only; omega)
    have missing : ¬bytes.length ≤ tail.length := by omega
    rw [settled, if_neg missing] at body
    have ends : (BigEndian.encode 4 bytes.length ++ tail = [] ∨
        (BigEndian.encode 4 bytes.length ++ tail).length = 4) ↔ tail = [] := by
      rw [← List.length_eq_zero_iff, ← List.length_eq_zero_iff, List.length_append, length]
      omega
    refine ⟨tail, rest, ?_⟩
    rw [ran, body]
    simp only [List.nil_append, and_true, ends]
  · obtain ⟨rest, _, _, ran⟩ := recv_settled 4 ⟨cut, true⟩ uninjured (.inr rfl)
      (by simp only; omega)
    rw [settled, if_neg header] at ran
    have ends : (cut = [] ∨ cut.length = 4) ↔ cut = [] := or_iff_left (by omega)
    have failed : recv 4 ⟨cut, true⟩ calls = ⟨cut, .raised (if cut = [] then .eofError
        else .osError "got end of file during message"), ⟨[], true⟩, rest⟩ := by
      simpa using ran
    refine ⟨cut, rest, ?_⟩
    simp only [recvMessage, failed, reduceCtorEq, if_false, ends]

namespace Connection

variable {conn : Connection}

/-- Every whole message is returned; the call after them meets the cut. -/
theorem recvAll_cut (readable : conn.handle = true ∧ conn.readable = true)
    {messages : List (List UInt8)} (short : ∀ bytes ∈ messages, bytes.length < 2 ^ 31)
    {last cut : List UInt8} (fits : last.length < 2 ^ 31) (begun : cut <+: frame last)
    (proper : cut.length < (frame last).length) {calls : List Syscall}
    (uninjured : Uninjured calls)
    (enough : ((messages.map frame).flatten ++ cut).length < transfers calls) :
    conn.recvAll (messages.length + 1) ⟨(messages.map frame).flatten ++ cut, true⟩ calls =
      ⟨messages, .raised (if cut = [] ∨ cut.length = 4 then .eofError
        else .osError "got end of file during message"), ⟨[], true⟩⟩ := by
  induction messages generalizing calls with
  | nil =>
      obtain ⟨value, rest, ran⟩ := recvMessage_cut fits begun proper uninjured enough
      have step := recvBytes_of_readable readable ran
      simp only [List.map_nil, List.flatten_nil, List.nil_append, List.length_nil, recvAll, step,
        reduceCtorEq, if_false]
  | cons bytes messages ih =>
      obtain ⟨first, others⟩ := List.forall_mem_cons.mp short
      rw [List.map_cons, List.flatten_cons, List.append_assoc, List.length_append] at enough
      obtain ⟨rest, suffix, cost, ran⟩ :=
        recvMessage_whole ((messages.map frame).flatten ++ cut) true first uninjured (by omega)
      have step := recvBytes_of_readable readable ran
      have next := ih others (uninjured.suffix suffix) (by omega)
      rw [List.map_cons, List.flatten_cons, List.append_assoc, List.length_cons, recvAll, step]
      simp only [if_true, next]

/-- A clean end is told from a cut message, except right behind the header. -/
theorem recvAll_endOfFile_iff (readable : conn.handle = true ∧ conn.readable = true)
    {messages : List (List UInt8)} (short : ∀ bytes ∈ messages, bytes.length < 2 ^ 31)
    {last cut : List UInt8} (fits : last.length < 2 ^ 31) (begun : cut <+: frame last)
    (proper : cut.length < (frame last).length) {calls : List Syscall}
    (uninjured : Uninjured calls)
    (enough : ((messages.map frame).flatten ++ cut).length < transfers calls) :
    conn.recvAll (messages.length + 1) ⟨(messages.map frame).flatten ++ cut, true⟩ calls =
        ⟨messages, .raised (if cut = [] then .eofError
          else .osError "got end of file during message"), ⟨[], true⟩⟩ ↔
      cut.length ≠ 4 := by
  rw [recvAll_cut readable short fits begun proper uninjured enough]
  by_cases header : cut.length = 4
  · have some_ : cut ≠ [] := by
      rintro rfl
      cases header
    simp [header, some_]
  · simp [header]

theorem recvAll_endOfFile_payload :
    recvAll ⟨true, true, true⟩ 2 ⟨[0, 0, 0, 1, 7] ++ [0, 0, 0, 3, 1], true⟩
        (List.replicate 11 (.moved 1)) =
      ⟨[[7]], .raised (.osError "got end of file during message"), ⟨[], true⟩⟩ := by
  have short : ∀ bytes ∈ [([7] : List UInt8)], bytes.length < 2 ^ 31 := by decide
  have readable : (⟨true, true, true⟩ : Connection).handle = true ∧
      (⟨true, true, true⟩ : Connection).readable = true := ⟨rfl, rfl⟩
  have begun : ([0, 0, 0, 3, 1] : List UInt8) <+: frame [1, 2, 3] := by decide
  exact (recvAll_endOfFile_iff readable short (by decide) begun (by decide)
    (uninjured_replicate 11 1) (by decide)).mpr (by decide)

/-- Only the header of the second message arrives, and the end counts as clean. -/
theorem not_recvAll_endOfFile :
    recvAll ⟨true, true, true⟩ 2 ⟨[0, 0, 0, 1, 7] ++ [0, 0, 0, 3], true⟩
        (List.replicate 11 (.moved 1)) =
      ⟨[[7]], .raised .eofError, ⟨[], true⟩⟩ ∧
      [0, 0, 0, 3] <+: frame [1, 2, 3] ∧ ([0, 0, 0, 3] : List UInt8) ≠ [] := by
  decide +kernel

end Connection

end Billiard
