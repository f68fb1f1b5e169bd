import Billiard.Connection.Message
import Billiard.Data.Tally
import Billiard.Data.Transition

/-! A `SimpleQueue`: a pipe between any number of processes, with a lock for each of its ends.  A
system call on the pipe moves a part of a message. -/

namespace Billiard

open Transition

inductive PayloadOutcome where
  | returned
  | received (value : List UInt8)
  | raised (error : ConnError)
deriving DecidableEq, Repr

/-- Where a party stands; `later` is what `_send_bytes` writes after `buf`, and a party that has
been killed keeps its locks. -/
inductive PipePoint where
  | outside (outcome : PayloadOutcome)
  | lockingWrite (value : List UInt8)
  | sending (buf : List UInt8) (later : List (List UInt8))
  | unlockingWrite (outcome : PayloadOutcome)
  | lockingRead
  | readingHeader (got : List UInt8)
  | readingBody (header got : List UInt8)
  | unlockingRead (outcome : PayloadOutcome)
  | killed (point : PipePoint)
deriving DecidableEq, Repr

/-- `frames` and `received` are histories: the messages that somebody has begun to write, and
those that somebody has read. -/
structure SimpleQueue where
  pipe : List UInt8
  eof : Bool
  readLock : Option Nat
  writeLock : Option Nat
  parties : List PipePoint
  frames : List (List UInt8)
  received : List (List UInt8)
deriving DecidableEq, Repr

/-- `n` is what the system makes of the next call of `os.read` or `os.write`; it never moves less
than one byte. -/
inductive PipeAction where
  | put (value : List UInt8)
  | get
  | advance (n : Nat)
  | kill
  | closeWriters
deriving DecidableEq, Repr

namespace PipePoint

/-- The party has `_wlock`. -/
def writes : PipePoint → Bool
  | .sending .. | .unlockingWrite _ => true
  | .killed point => point.writes
  | _ => false

/-- The party has `_rlock`. -/
def reads : PipePoint → Bool
  | .readingHeader _ | .readingBody .. | .unlockingRead _ => true
  | .killed point => point.reads
  | _ => false

/-- What the party has yet to write of the message it has begun. -/
def unsent : PipePoint → List UInt8
  | .sending buf later => buf ++ later.flatten
  | .killed point => point.unsent
  | _ => []

/-- What the party has read of a message. -/
def taken : PipePoint → List UInt8
  | .readingHeader got => got
  | .readingBody header got => header ++ got
  | .killed point => point.taken
  | _ => []

def isKilled : PipePoint → Bool
  | .killed _ => true
  | _ => false

/-- The party is in a system call on the writing end. -/
def isSending : PipePoint → Bool
  | .sending .. => true
  | _ => false

end PipePoint

/-- The buffers that `_send_bytes` writes, one after the other. -/
def buffers (value : List UInt8) : Option (List UInt8 × List (List UInt8)) :=
  (packInt value.length).map fun header =>
    if value.length > 16384 then (header, [value]) else (header ++ value, [])

namespace SimpleQueue

def init (parties : Nat) : SimpleQueue :=
  ⟨[], false, none, none, List.replicate parties (.outside .returned), [], []⟩

def move (queue : SimpleQueue) (party : Nat) (point : PipePoint) : SimpleQueue :=
  { queue with parties := queue.parties.set party point }

/-- What `_recv` raises when the writing ends are closed. -/
def endError (got : List UInt8) : ConnError :=
  if got = [] then .eofError else .osError "got end of file during message"

/-- One `os.read` of at most `remaining` bytes into `got`, and what is done with it; `next` is
where the party goes with what it has then. -/
def read (queue : SimpleQueue) (party n remaining : Nat) (got : List UInt8)
    (next : List UInt8 → PipePoint) : Option SimpleQueue :=
  match queue.pipe with
  | [] =>
      if queue.eof then some (queue.move party (.unlockingRead (.raised (endError got))))
      else none
  | pipe =>
      let chunk := pipe.take (min (max 1 n) remaining)
      some ({ queue with pipe := pipe.drop chunk.length }.move party (next (got ++ chunk)))

/-- The next operation of a party: it takes or gives back a lock, or makes a system call.  Nothing
is read once `remaining` has come down to zero.  The pipe takes a part of any write while it has
room for a byte; a write of at most `PIPE_BUF` bytes may find it full before that, as long as there
is no room for all of it. -/
def advance (capacity : Nat) (queue : SimpleQueue) (party n : Nat) :
    PipePoint → Option SimpleQueue
  | .outside _ | .killed _ => none
  | .lockingWrite value =>
      if queue.writeLock ≠ none then none
      else
        let locked := { queue with writeLock := some party }
        if queue.eof then
          some (locked.move party (.unlockingWrite (.raised (.osError "handle is closed"))))
        else
          match buffers value with
          | none => some (locked.move party (.unlockingWrite (.raised .structError)))
          | some (buf, later) =>
              some ({ locked with frames := queue.frames ++ [value] }.move party
                (.sending buf later))
  | .sending buf later =>
      if queue.pipe.length < capacity then
        let chunk := buf.take (min (max 1 n) (capacity - queue.pipe.length))
        let written := { queue with pipe := queue.pipe ++ chunk }
        match buf.drop chunk.length, later with
        | [], [] => some (written.move party (.unlockingWrite .returned))
        | [], buf :: later => some (written.move party (.sending buf later))
        | left, later => some (written.move party (.sending left later))
      else none
  | .unlockingWrite outcome =>
      some ({ queue with writeLock := none }.move party (.outside outcome))
  | .lockingRead =>
      if queue.readLock ≠ none then none
      else some ({ queue with readLock := some party }.move party (.readingHeader []))
  | .readingHeader got =>
      if got.length < 4 then queue.read party n (4 - got.length) got .readingHeader
      else some (queue.move party (.readingBody got []))
  | .readingBody header got =>
      if got.length < unpackInt header then
        queue.read party n ((unpackInt header).toNat - got.length) got (.readingBody header)
      else
        some ({ queue with received := queue.received ++ [got] }.move party
          (.unlockingRead (.received got)))
  | .unlockingRead outcome =>
      some ({ queue with readLock := none }.move party (.outside outcome))

def step (capacity : Nat) (queue : SimpleQueue) (label : Nat × PipeAction) :
    Option SimpleQueue :=
  let (party, action) := label
  match queue.parties[party]? with
  | none => none
  | some point =>
      match action, point with
      | .put value, .outside _ => some (queue.move party (.lockingWrite value))
      | .get, .outside _ => some (queue.move party .lockingRead)
      | .advance n, point => queue.advance capacity party n point
      | .kill, .killed _ => none
      | .kill, point => some (queue.move party (.killed point))
      | .closeWriters, _ =>
          if queue.parties.any PipePoint.isSending then none else some { queue with eof := true }
      | _, _ => none

/-- The part of the party that has a lock. -/
def share (lock : Option Nat) (part : PipePoint → List UInt8) (parties : List PipePoint) :
    List UInt8 :=
  ((lock.bind fun party => parties[party]?).map part).getD []

def unsent (queue : SimpleQueue) : List UInt8 :=
  share queue.writeLock PipePoint.unsent queue.parties

def taken (queue : SimpleQueue) : List UInt8 :=
  share queue.readLock PipePoint.taken queue.parties

end SimpleQueue

namespace PipePoint

theorem unsent_of_not_writes {point : PipePoint} (idle : point.writes = false) :
    point.unsent = [] := by
  induction point with
  | sending buf later => cases idle
  | killed point ih => exact ih idle
  | _ => rfl

theorem taken_of_not_reads {point : PipePoint} (idle : point.reads = false) :
    point.taken = [] := by
  induction point with
  | readingHeader got => cases idle
  | readingBody header got => cases idle
  | killed point ih => exact ih idle
  | _ => rfl

theorem isSending_of_not_writes {point : PipePoint} (idle : point.writes = false) :
    point.isSending = false := by
  cases point with
  | sending buf later => cases idle
  | _ => rfl

/-- The party is in a `_recv` that has `got` and needs more. -/
def Unfinished (point : PipePoint) (got : List UInt8) : Prop :=
  point = .readingHeader got ∧ got.length < 4 ∨
    ∃ header, point = .readingBody header got ∧ got.length < unpackInt header

/-- The party has not been told of an end of the stream other than the true one. -/
def Honest (complete : Prop) : PipePoint → Prop
  | .unlockingRead (.raised error) => error = .eofError ∧ complete
  | .unlockingWrite (.raised error) =>
      error = .structError ∨ error = .osError "handle is closed"
  | .outside (.raised error) =>
      error = .eofError ∧ complete ∨ error = .structError ∨ error = .osError "handle is closed"
  | .killed point => point.Honest complete
  | _ => True

theorem Unfinished.quiet {point : PipePoint} {got : List UInt8}
    (unfinished : point.Unfinished got) :
    point.reads = true ∧ point.writes = false := by
  obtain ⟨rfl, _⟩ | ⟨_, rfl, _⟩ := unfinished <;> exact ⟨rfl, rfl⟩

/-- How far a party can be in what it does. -/
def Shaped : PipePoint → Prop
  | .sending buf later => buf ≠ [] ∧ ∀ more ∈ later, more ≠ []
  | .readingHeader got => got.length ≤ 4
  | .readingBody header got => header.length = 4 ∧ got.length ≤ (unpackInt header).toNat
  | _ => True

end PipePoint

theorem buffers_eq_some {value buf : List UInt8} {later : List (List UInt8)}
    (some_ : buffers value = some (buf, later)) :
    value.length < 2 ^ 31 ∧ buf ++ later.flatten = frame value ∧ buf ≠ [] ∧
      ∀ more ∈ later, more ≠ [] := by
  obtain ⟨header, packed, shape⟩ := Option.map_eq_some_iff.mp some_
  unfold packInt at packed
  split at packed
  · rename_i short
    cases packed
    have header : BigEndian.encode 4 value.length ≠ [] := by simp [BigEndian.encode]
    split at shape
    · rename_i large
      cases shape
      refine ⟨short, by simp [frame], header, ?_⟩
      intro more member
      rw [List.mem_singleton.mp member]
      exact List.ne_nil_of_length_pos (by omega)
    · cases shape
      exact ⟨short, by simp [frame], by simp [header],
        fun _ member => absurd member List.not_mem_nil⟩
  · cases packed

namespace SimpleQueue

variable {capacity party n : Nat} {queue next last : SimpleQueue} {point : PipePoint}
  {action : PipeAction} {labels : List (Nat × PipeAction)}

/-- What a step of a party does to the pipe and to its part of it. -/
inductive Turn (capacity : Nat) (queue : SimpleQueue) (party : Nat) (old : PipePoint) :
    PipeAction → SimpleQueue → Prop where
  | stays {action : PipeAction} (new : PipePoint) (writes : new.writes = old.writes)
      (reads : new.reads = old.reads) (unsent : new.unsent = old.unsent)
      (taken : new.taken = old.taken) (shaped : old.Shaped → new.Shaped)
      (calm : new.isSending = false) (alive : new.isKilled = false)
      (honest : ∀ complete, new.Honest complete) :
      Turn capacity queue party old action (queue.move party new)
  | kills : Turn capacity queue party old .kill (queue.move party (.killed old))
  | refuses {action : PipeAction} (error : ConnError) (value : List UInt8)
      (here : old = .lockingWrite value) (free : queue.writeLock = none)
      (reason : error = .structError ∨ error = .osError "handle is closed") :
      Turn capacity queue party old action
        ({ queue with writeLock := some party }.move party (.unlockingWrite (.raised error)))
  | begins {action : PipeAction} (value buf : List UInt8) (later : List (List UInt8))
      (here : old = .lockingWrite value) (free : queue.writeLock = none)
      (going : queue.eof = false) (written : buffers value = some (buf, later)) :
      Turn capacity queue party old action
        ({ queue with writeLock := some party, frames := queue.frames ++ [value] }.move party
          (.sending buf later))
  | writes {action : PipeAction} (buf chunk : List UInt8) (later : List (List UInt8))
      (new : PipePoint) (here : old = .sending buf later)
      (goes : new.writes = true ∧ new.reads = false ∧ new.isKilled = false)
      (unsent : chunk ++ new.unsent = buf ++ later.flatten) (shaped : old.Shaped → new.Shaped)
      (honest : ∀ complete, new.Honest complete) :
      Turn capacity queue party old action
        ({ queue with pipe := queue.pipe ++ chunk }.move party new)
  | unlocksWrite {action : PipeAction} (outcome : PayloadOutcome)
      (here : old = .unlockingWrite outcome) :
      Turn capacity queue party old action
        ({ queue with writeLock := none }.move party (.outside outcome))
  | locksRead {action : PipeAction} (here : old = .lockingRead) (free : queue.readLock = none) :
      Turn capacity queue party old action
        ({ queue with readLock := some party }.move party (.readingHeader []))
  | reads {action : PipeAction} (chunk pipe : List UInt8) (new : PipePoint)
      (reads : old.reads = true)
      (goes : new.reads = true ∧ new.writes = false ∧ old.writes = false ∧ new.isKilled = false)
      (bytes : queue.pipe = chunk ++ pipe) (taken : new.taken = old.taken ++ chunk)
      (shaped : old.Shaped → new.Shaped) (honest : ∀ complete, new.Honest complete) :
      Turn capacity queue party old action ({ queue with pipe }.move party new)
  | ends {action : PipeAction} (got : List UInt8) (eof : queue.eof = true)
      (empty : queue.pipe = []) (unfinished : old.Unfinished got) :
      Turn capacity queue party old action
        (queue.move party (.unlockingRead (.raised (endError got))))
  | receives {action : PipeAction} (header got : List UInt8) (here : old = .readingBody header got)
      (whole : unpackInt header ≤ got.length) :
      Turn capacity queue party old action
        ({ queue with received := queue.received ++ [got] }.move party
          (.unlockingRead (.received got)))
  | unlocksRead {action : PipeAction} (outcome : PayloadOutcome)
      (here : old = .unlockingRead outcome) :
      Turn capacity queue party old action
        ({ queue with readLock := none }.move party (.outside outcome))
  | closes {action : PipeAction} (calm : ∀ point ∈ queue.parties, point.isSending = false) :
      Turn capacity queue party old action { queue with eof := true }

theorem read_turn {got : List UInt8} {remaining : Nat} {new : List UInt8 → PipePoint}
    (read : queue.read party n remaining got new = some next) (reads : point.reads = true)
    (writes : point.writes = false) (goes : ∀ got, (new got).reads = true ∧
      (new got).writes = false ∧ (new got).isKilled = false)
    (taken : ∀ chunk, (new (got ++ chunk)).taken = point.taken ++ chunk)
    (shaped : ∀ chunk : List UInt8, chunk.length ≤ remaining → point.Shaped →
      (new (got ++ chunk)).Shaped)
    (honest : ∀ got complete, (new got).Honest complete) (unfinished : point.Unfinished got) :
    Turn capacity queue party point action next := by
  unfold SimpleQueue.read at read
  split at read
  · rename_i empty
    split at read
    · rename_i eof
      cases read
      exact .ends _ eof empty unfinished
    · cases read
  · cases read
    have split := List.prefix_iff_eq_append.mp
      (List.take_prefix (min (max 1 n) remaining) queue.pipe)
    have short : (queue.pipe.take (min (max 1 n) remaining)).length ≤ remaining :=
      Nat.le_trans (List.length_take_le _ _) (Nat.min_le_right _ _)
    exact .reads _ _ _ reads ⟨(goes _).1, (goes _).2.1, writes, (goes _).2.2⟩ split.symm (taken _)
      (shaped _ short) (honest _)

theorem advance_turn (taken : queue.advance capacity party n point = some next) :
    Turn capacity queue party point action next := by
  cases point with
  | outside outcome => cases taken
  | killed inner => cases taken
  | lockingWrite value =>
      simp only [advance] at taken
      split at taken
      · cases taken
      · rename_i free
        have free : queue.writeLock = none := Decidable.not_not.mp free
        split at taken
        · cases taken
          exact .refuses _ value rfl free (.inr rfl)
        · rename_i going
          split at taken
          · cases taken
            exact .refuses _ value rfl free (.inl rfl)
          · rename_i buf later written
            cases taken
            exact .begins value buf later rfl free (by simpa using going) written
  | sending buf later =>
      simp only [advance] at taken
      split at taken
      · have split := List.prefix_iff_eq_append.mp
          (List.take_prefix (min (max 1 n) (capacity - queue.pipe.length)) buf)
        split at taken
        · rename_i done
          cases taken
          rw [done, List.append_nil] at split
          exact .writes buf _ [] _ rfl ⟨rfl, rfl, rfl⟩ (by simp [PipePoint.unsent, split])
            (fun _ => trivial) fun _ => trivial
        · rename_i buf' later done
          cases taken
          rw [done, List.append_nil] at split
          refine .writes buf _ (buf' :: later) _ rfl ⟨rfl, rfl, rfl⟩
            (by simp [PipePoint.unsent, split]) ?_ fun _ => trivial
          rintro ⟨_, others⟩
          exact List.forall_mem_cons.mp others
        · rename_i rest _ _ some_ none_
          cases taken
          refine .writes buf _ _ _ rfl ⟨rfl, rfl, rfl⟩ ?_ ?_ fun _ => trivial
          · rw [PipePoint.unsent, ← List.append_assoc, split]
          · rintro ⟨_, others⟩
            refine ⟨fun done => ?_, others⟩
            cases rest with
            | nil => exact some_ done rfl
            | cons buf rest => exact none_ buf rest done rfl
      · cases taken
  | unlockingWrite outcome =>
      cases taken
      exact .unlocksWrite outcome rfl
  | lockingRead =>
      simp only [advance] at taken
      split at taken
      · cases taken
      · rename_i free
        cases taken
        exact .locksRead rfl (Decidable.not_not.mp free)
  | readingHeader got =>
      simp only [advance] at taken
      split at taken
      · rename_i partly
        refine read_turn taken rfl rfl (fun _ => ⟨rfl, rfl, rfl⟩) (fun _ => rfl) ?_
          (fun _ _ => trivial) (.inl ⟨rfl, partly⟩)
        intro chunk short _
        simp only [PipePoint.Shaped, List.length_append]
        omega
      · rename_i whole
        cases taken
        refine .stays _ rfl rfl rfl (by simp [PipePoint.taken]) ?_ rfl rfl fun _ => trivial
        intro shaped
        have shaped : got.length ≤ 4 := shaped
        exact ⟨by omega, Nat.zero_le _⟩
  | readingBody header got =>
      simp only [advance] at taken
      split at taken
      · rename_i partly
        refine read_turn taken rfl rfl (fun _ => ⟨rfl, rfl, rfl⟩)
          (fun _ => (List.append_assoc ..).symm) ?_ (fun _ _ => trivial)
            (.inr ⟨header, rfl, partly⟩)
        rintro chunk short ⟨four, _⟩
        refine ⟨four, ?_⟩
        rw [List.length_append]
        omega
      · rename_i whole
        cases taken
        exact .receives header got rfl (by omega)
  | unlockingRead outcome =>
      cases taken
      exact .unlocksRead outcome rfl

theorem step_turn (taken : step capacity queue (party, action) = some next) :
    ∃ point, queue.parties[party]? = some point ∧
      Turn capacity queue party point action next := by
  unfold step at taken
  simp only at taken
  split at taken
  · cases taken
  · rename_i point found
    refine ⟨point, found, ?_⟩
    split at taken
    · cases taken
      exact .stays _ rfl rfl rfl rfl (fun _ => trivial) rfl rfl fun _ => trivial
    · cases taken
      exact .stays _ rfl rfl rfl rfl (fun _ => trivial) rfl rfl fun _ => trivial
    · exact advance_turn taken
    · cases taken
    · cases taken
      exact .kills
    · split at taken
      · cases taken
      · rename_i calm
        cases taken
        refine .closes ?_
        simpa using calm
    · cases taken

section Share

variable {lock : Option Nat} {parties : List PipePoint} {old : PipePoint}

theorem share_none (part : PipePoint → List UInt8) (parties : List PipePoint) :
    share none part parties = [] := rfl

theorem share_self (found : parties[party]? = some old) (part : PipePoint → List UInt8) :
    share (some party) part parties = part old := by
  simp [share, found]

theorem share_set (found : parties[party]? = some old) (part : PipePoint → List UInt8)
    (new : PipePoint) : share (some party) part (parties.set party new) = part new :=
  share_self (Tally.getElem?_set_found found new) part

theorem share_kept (found : parties[party]? = some old) (part : PipePoint → List UInt8)
    (new : PipePoint) (same : part new = part old) :
    share lock part (parties.set party new) = share lock part parties := by
  cases lock with
  | none => rfl
  | some other =>
      by_cases own : other = party
      · subst own
        rw [share_set found, share_self found, same]
      · simp [share, List.getElem?_set_ne (Ne.symm own)]

end Share

/-- What is on its way is what has been sent and not been received. -/
def Streams (queue : SimpleQueue) : Prop :=
  queue.frames.flatMap frame =
    queue.received.flatMap frame ++ (queue.taken ++ (queue.pipe ++ queue.unsent))

/-- No more can be received. -/
def Drained (queue : SimpleQueue) : Prop :=
  queue.eof = true ∧ queue.pipe = [] ∧ queue.taken = []

structure Invariant (queue : SimpleQueue) : Prop where
  writer : ∀ (party : Nat) point, queue.parties[party]? = some point →
    (point.writes = true ↔ queue.writeLock = some party)
  reader : ∀ (party : Nat) point, queue.parties[party]? = some point →
    (point.reads = true ↔ queue.readLock = some party)
  shaped : ∀ (party : Nat) point, queue.parties[party]? = some point → point.Shaped
  calm : queue.eof = true → ∀ point ∈ queue.parties, point.isSending = false
  short : ∀ value ∈ queue.frames, value.length < 2 ^ 31
  order : queue.received <+: queue.frames
  stream : queue.Streams ∨ queue.Drained

/-- A lock stays with the parties that `flag` tells to have it. -/
theorem holder_set {flag : PipePoint → Bool} {lock after : Option Nat} {parties : List PipePoint}
    {new : PipePoint}
    (holds : ∀ (other : Nat) point, parties[other]? = some point →
      (flag point = true ↔ lock = some other))
    (mine : flag new = true ↔ after = some party)
    (others : ∀ other, other ≠ party → (after = some other ↔ lock = some other)) :
    ∀ (other : Nat) point, (parties.set party new)[other]? = some point →
      (flag point = true ↔ after = some other) := by
  intro other point here
  obtain ⟨rfl, rfl⟩ | ⟨different, before⟩ := Tally.getElem?_set_cases here
  · exact mine
  · exact (holds other point before).trans (others other different).symm

theorem holder_kept {flag : PipePoint → Bool} {lock : Option Nat} {parties : List PipePoint}
    {old : PipePoint}
    (holds : ∀ (other : Nat) point, parties[other]? = some point →
      (flag point = true ↔ lock = some other))
    (found : parties[party]? = some old) (new : PipePoint) (same : flag new = flag old) :
    ∀ (other : Nat) point, (parties.set party new)[other]? = some point →
      (flag point = true ↔ lock = some other) :=
  holder_set holds (by rw [same]; exact holds party old found) fun _ _ => Iff.rfl

theorem holder_locked {flag : PipePoint → Bool} {lock : Option Nat} {parties : List PipePoint}
    (holds : ∀ (other : Nat) point, parties[other]? = some point →
      (flag point = true ↔ lock = some other))
    (free : lock = none) (new : PipePoint) (mine : flag new = true) :
    ∀ (other : Nat) point, (parties.set party new)[other]? = some point →
      (flag point = true ↔ some party = some other) := by
  refine holder_set holds (by simp [mine]) fun other different => ?_
  simp [free, Ne.symm different]

theorem holder_unlocked {flag : PipePoint → Bool} {lock : Option Nat} {parties : List PipePoint}
    (holds : ∀ (other : Nat) point, parties[other]? = some point →
      (flag point = true ↔ lock = some other))
    (held : lock = some party) (new : PipePoint) (gone : flag new = false) :
    ∀ (other : Nat) point, (parties.set party new)[other]? = some point →
      (flag point = true ↔ none = some other) := by
  refine holder_set holds (by simp [gone]) fun other different => ?_
  simp [held, Ne.symm different]

theorem calm_set {parties : List PipePoint} {new : PipePoint} (calm : new.isSending = false)
    (others : ∀ point ∈ parties, point.isSending = false) :
    ∀ point ∈ parties.set party new, point.isSending = false := by
  intro point member
  cases List.mem_or_eq_of_mem_set member with
  | inl old => exact others point old
  | inr same => rw [same]; exact calm

/-- What a reader has when it has as many bytes as the header says is the next message. -/
theorem frames_of_whole {frames received : List (List UInt8)} {header got more : List UInt8}
    (short : ∀ value ∈ frames, value.length < 2 ^ 31) (order : received <+: frames)
    (four : header.length = 4) (some_ : got.length ≤ (unpackInt header).toNat)
    (whole : unpackInt header ≤ got.length)
    (stream : frames.flatMap frame = received.flatMap frame ++ (header ++ got ++ more)) :
    header ++ got = frame got ∧ received ++ [got] <+: frames := by
  obtain ⟨rest, same⟩ := order
  have behind : rest.flatMap frame = header ++ (got ++ more) := by
    rw [← same, List.flatMap_append] at stream
    rw [← List.append_assoc]
    exact List.append_cancel_left stream
  cases rest with
  | nil =>
      have none_ : header = [] := (List.append_eq_nil_iff.mp behind.symm).1
      rw [none_] at four
      cases four
  | cons value rest =>
      have small : value.length < 2 ^ 31 :=
        short value (same ▸ List.mem_append_right _ List.mem_cons_self)
      rw [List.flatMap_cons, frame, List.append_assoc] at behind
      obtain ⟨front, back⟩ := List.append_inj behind (by rw [four, BigEndian.length_encode])
      have size : unpackInt header = value.length := by rw [← front, unpackInt_encode small]
      have length : value.length = got.length := by omega
      obtain ⟨equal, _⟩ := List.append_inj back length
      rw [← front, equal]
      exact ⟨rfl, rest, by rw [← same, equal, List.append_assoc]; rfl⟩

/-- Only an end of the stream in the middle of a message takes away anything unread. -/
theorem Turn.streams (turn : Turn capacity queue party point action next)
    (found : queue.parties[party]? = some point) (invariant : queue.Invariant)
    (stream : queue.Streams) :
    next.Streams ∨ ∃ got, queue.eof = true ∧ queue.pipe = [] ∧ point.Unfinished got ∧
      next = queue.move party (.unlockingRead (.raised (endError got))) := by
  have owner := invariant.writer party point found
  have holder := invariant.reader party point found
  unfold Streams SimpleQueue.taken SimpleQueue.unsent at *
  cases turn with
  | stays new writes reads unsent taken shape calm alive honest =>
      left
      simp only [move]
      rw [share_kept found _ new taken, share_kept found _ new unsent]
      exact stream
  | kills =>
      left
      simp only [move]
      rw [share_kept found PipePoint.taken (.killed point) rfl,
        share_kept found PipePoint.unsent (.killed point) rfl]
      exact stream
  | refuses error value here free reason =>
      subst here
      left
      simp only [move, free, share_none] at stream ⊢
      rw [share_kept found PipePoint.taken (.unlockingWrite (.raised error)) rfl, share_set found]
      exact stream
  | begins value buf later here free going written =>
      subst here
      left
      simp only [move, free, share_none] at stream ⊢
      rw [share_kept found PipePoint.taken (.sending buf later) rfl, share_set found,
        PipePoint.unsent, (buffers_eq_some written).2.1, List.flatMap_append, stream]
      simp
  | writes buf chunk later new here goes unsent shape honest =>
      subst here
      left
      simp only [move, owner.mp rfl, share_self found, share_set found] at stream ⊢
      rw [share_kept found PipePoint.taken new (PipePoint.taken_of_not_reads goes.2.1), stream,
        List.append_assoc queue.pipe, unsent]
      rfl
  | unlocksWrite outcome here =>
      subst here
      left
      simp only [move, owner.mp rfl, share_none, share_self found] at stream ⊢
      rw [share_kept found PipePoint.taken (.outside outcome) rfl]
      exact stream
  | locksRead here free =>
      subst here
      left
      simp only [move, free, share_none] at stream ⊢
      rw [share_kept found PipePoint.unsent (.readingHeader []) rfl, share_set found]
      exact stream
  | reads chunk pipe new reads goes bytes taken shape honest =>
      have unsent : new.unsent = point.unsent := by
        rw [PipePoint.unsent_of_not_writes goes.2.1, PipePoint.unsent_of_not_writes goes.2.2.1]
      left
      simp only [move, holder.mp reads, share_self found, share_set found, bytes] at stream ⊢
      rw [share_kept found PipePoint.unsent new unsent, taken, stream]
      simp only [List.append_assoc]
  | ends got eof empty unfinished => exact .inr ⟨got, eof, empty, unfinished, rfl⟩
  | receives header got here whole =>
      subst here
      left
      have shaped := invariant.shaped party _ found
      simp only [move, holder.mp rfl, share_self found, share_set found] at stream ⊢
      have whole := (frames_of_whole invariant.short invariant.order shaped.1 shaped.2 whole
        stream).1
      rw [share_kept found PipePoint.unsent (.unlockingRead (.received got)) rfl, stream,
        List.flatMap_append, PipePoint.taken, whole]
      simp [PipePoint.taken]
  | unlocksRead outcome here =>
      subst here
      left
      simp only [move, holder.mp rfl, share_none, share_self found] at stream ⊢
      rw [share_kept found PipePoint.unsent (.outside outcome) rfl]
      exact stream
  | closes calm => exact .inl stream

theorem Turn.drained (turn : Turn capacity queue party point action next)
    (found : queue.parties[party]? = some point) (invariant : queue.Invariant)
    (drained : queue.Drained) : next.Drained := by
  have holder := invariant.reader party point found
  obtain ⟨eof, empty, nothing⟩ := drained
  unfold Drained
  simp only [SimpleQueue.taken] at nothing ⊢
  cases turn with
  | stays new writes reads unsent taken shape calm alive honest =>
      exact ⟨eof, empty, (share_kept found _ new taken).trans nothing⟩
  | kills =>
      exact ⟨eof, empty, (share_kept found PipePoint.taken (.killed point) rfl).trans nothing⟩
  | refuses error value here free reason =>
      subst here
      exact ⟨eof, empty, (share_kept found PipePoint.taken (.unlockingWrite _) rfl).trans nothing⟩
  | begins value buf later here free going written => exact absurd (going.symm.trans eof) nofun
  | writes buf chunk later new here goes unsent shape honest =>
      have quiet := invariant.calm eof point (List.mem_of_getElem? found)
      rw [here] at quiet
      cases quiet
  | unlocksWrite outcome here =>
      subst here
      exact ⟨eof, empty, (share_kept found PipePoint.taken (.outside outcome) rfl).trans nothing⟩
  | locksRead here free => exact ⟨eof, empty, share_set found PipePoint.taken (.readingHeader [])⟩
  | reads chunk pipe new reads goes bytes taken shape honest =>
      rw [holder.mp reads, share_self found] at nothing
      obtain ⟨rfl, rfl⟩ := List.append_eq_nil_iff.mp (bytes.symm.trans empty)
      refine ⟨eof, rfl, ?_⟩
      simp only [move, holder.mp reads]
      rw [share_set found, taken, nothing]
      rfl
  | ends got _ _ unfinished =>
      refine ⟨eof, empty, ?_⟩
      simp only [move, holder.mp unfinished.quiet.1]
      exact share_set found PipePoint.taken _
  | receives header got here whole =>
      subst here
      have four : header.length = 4 := (invariant.shaped party _ found).1
      rw [holder.mp rfl, share_self found] at nothing
      rw [(List.append_eq_nil_iff.mp nothing).1] at four
      cases four
  | unlocksRead outcome here => exact ⟨eof, empty, rfl⟩
  | closes calm => exact ⟨rfl, empty, nothing⟩

theorem Turn.stream (turn : Turn capacity queue party point action next)
    (found : queue.parties[party]? = some point) (invariant : queue.Invariant) :
    next.Streams ∨ next.Drained := by
  cases invariant.stream with
  | inr drained => exact .inr (turn.drained found invariant drained)
  | inl stream =>
      obtain kept | ⟨got, eof, empty, unfinished, rfl⟩ := turn.streams found invariant stream
      · exact .inl kept
      · refine .inr ⟨eof, empty, ?_⟩
        have mine := (invariant.reader party point found).mp unfinished.quiet.1
        simp only [SimpleQueue.taken, move, mine]
        exact share_set found PipePoint.taken _

theorem Turn.invariant (turn : Turn capacity queue party point action next)
    (found : queue.parties[party]? = some point) (invariant : queue.Invariant) :
    next.Invariant := by
  have stream := turn.stream found invariant
  have shaped := invariant.shaped party point found
  have aside := fun (other : Nat) point (_ : other ≠ party) => invariant.shaped other point
  have writer : ∀ new : PipePoint, new.writes = point.writes → _ :=
    holder_kept invariant.writer found
  have reader : ∀ new : PipePoint, new.reads = point.reads → _ :=
    holder_kept invariant.reader found
  have calm : ∀ new : PipePoint, new.isSending = false → queue.eof = true →
      ∀ other ∈ queue.parties.set party new, other.isSending = false :=
    fun new quiet eof => calm_set quiet (invariant.calm eof)
  cases turn with
  | stays new writes reads unsent taken shape quiet alive honest =>
      exact ⟨writer new writes, reader new reads, Tally.forall_set (shape shaped) aside,
        calm new quiet, invariant.short, invariant.order, stream⟩
  | kills =>
      exact ⟨writer (.killed point) rfl, reader (.killed point) rfl, Tally.forall_set trivial aside,
        calm (.killed point) rfl, invariant.short, invariant.order, stream⟩
  | refuses error value here free reason =>
      subst here
      exact ⟨holder_locked invariant.writer free (.unlockingWrite _) rfl,
        reader (.unlockingWrite _) rfl, Tally.forall_set trivial aside,
        calm (.unlockingWrite _) rfl, invariant.short, invariant.order, stream⟩
  | begins value buf later here free going written =>
      subst here
      obtain ⟨short, _, shape⟩ := buffers_eq_some written
      refine ⟨holder_locked invariant.writer free (.sending buf later) rfl,
        reader (.sending buf later) rfl, Tally.forall_set shape aside,
        fun eof => absurd (going.symm.trans eof) nofun, ?_,
        invariant.order.trans (List.prefix_append _ _), stream⟩
      intro other member
      cases List.mem_append.mp member with
      | inl old => exact invariant.short other old
      | inr new => rw [List.mem_singleton.mp new]; exact short
  | writes buf chunk later new here goes unsent shape honest =>
      subst here
      refine ⟨writer new goes.1, reader new goes.2.1, Tally.forall_set (shape shaped) aside,
        fun eof => ?_, invariant.short, invariant.order, stream⟩
      exact absurd (invariant.calm eof _ (List.mem_of_getElem? found)) nofun
  | unlocksWrite outcome here =>
      subst here
      have mine := (invariant.writer party _ found).mp rfl
      exact ⟨holder_unlocked invariant.writer mine (.outside outcome) rfl,
        reader (.outside outcome) rfl, Tally.forall_set trivial aside, calm (.outside outcome) rfl,
        invariant.short, invariant.order, stream⟩
  | locksRead here free =>
      subst here
      exact ⟨writer (.readingHeader []) rfl,
        holder_locked invariant.reader free (.readingHeader []) rfl,
        Tally.forall_set (Nat.zero_le 4) aside, calm (.readingHeader []) rfl, invariant.short,
        invariant.order, stream⟩
  | reads chunk pipe new reads goes bytes taken shape honest =>
      exact ⟨writer new (goes.2.1.trans goes.2.2.1.symm), reader new (goes.1.trans reads.symm),
        Tally.forall_set (shape shaped) aside,
        calm new (PipePoint.isSending_of_not_writes goes.2.1), invariant.short, invariant.order,
        stream⟩
  | ends got eof empty unfinished =>
      exact ⟨writer (.unlockingRead _) unfinished.quiet.2.symm,
        reader (.unlockingRead _) unfinished.quiet.1.symm, Tally.forall_set trivial aside,
        calm (.unlockingRead _) rfl, invariant.short, invariant.order, stream⟩
  | receives header got here whole =>
      subst here
      refine ⟨writer (.unlockingRead _) rfl, reader (.unlockingRead _) rfl,
        Tally.forall_set trivial aside, calm (.unlockingRead _) rfl, invariant.short, ?_, stream⟩
      have mine := (invariant.reader party _ found).mp rfl
      cases invariant.stream with
      | inr drained =>
          have nothing := drained.2.2
          rw [SimpleQueue.taken, mine, share_self found] at nothing
          have four : header.length = 4 := shaped.1
          rw [(List.append_eq_nil_iff.mp nothing).1] at four
          cases four
      | inl before =>
          rw [Streams, SimpleQueue.taken, mine, share_self found] at before
          exact (frames_of_whole invariant.short invariant.order shaped.1 shaped.2 whole before).2
  | unlocksRead outcome here =>
      subst here
      have mine := (invariant.reader party _ found).mp rfl
      exact ⟨writer (.outside outcome) rfl,
        holder_unlocked invariant.reader mine (.outside outcome) rfl,
        Tally.forall_set trivial aside, calm (.outside outcome) rfl, invariant.short,
        invariant.order, stream⟩
  | closes quiet =>
      exact ⟨invariant.writer, invariant.reader, invariant.shaped, fun _ => quiet,
        invariant.short, invariant.order, stream⟩

theorem invariant_init (parties : Nat) : (init parties).Invariant := by
  have outside : ∀ {party : Nat} {point}, (init parties).parties[party]? = some point →
      point = .outside .returned :=
    fun found => List.eq_of_mem_replicate (List.mem_of_getElem? found)
  refine ⟨?_, ?_, ?_, nofun, nofun, List.prefix_rfl, .inl rfl⟩
  · intro party point found
    rw [outside found]
    exact ⟨nofun, nofun⟩
  · intro party point found
    rw [outside found]
    exact ⟨nofun, nofun⟩
  · intro party point found
    rw [outside found]
    trivial

theorem invariant_of_run {parties : Nat}
    (ran : run (step capacity) (init parties) labels = some last) : last.Invariant := by
  refine invariant_run ?_ (invariant_init parties) ran
  rintro queue ⟨party, action⟩ next invariant taken
  obtain ⟨point, found, turn⟩ := step_turn taken
  exact turn.invariant found invariant

/-- A message that does not fit into the pipe, read by another process while it is written. -/
def conversation : List (Nat × PipeAction) :=
  [(1, .get), (1, .advance 1), (0, .put [7, 9]), (0, .advance 1), (0, .advance 9),
    (1, .advance 3), (0, .advance 9), (1, .advance 1), (1, .advance 1), (1, .advance 1)]

/-- However the processes and their system calls take turns, and whoever is killed, messages are
received as they were sent, in the order in which the lock was taken for them, and what has been
sent of the others is still there. -/
theorem keeps_order {parties : Nat}
    (ran : run (step capacity) (init parties) labels = some last) :
    last.received <+: last.frames ∧
      (last.eof = false → ∃ left, last.frames = last.received ++ left ∧
        left.flatMap frame = last.taken ++ last.pipe ++ last.unsent) := by
  have invariant := invariant_of_run ran
  refine ⟨invariant.order, fun going => ?_⟩
  obtain ⟨left, same⟩ := invariant.order
  refine ⟨left, same.symm, ?_⟩
  cases invariant.stream with
  | inr drained => exact absurd (going.symm.trans drained.1) nofun
  | inl stream =>
      rw [Streams, ← same, List.flatMap_append] at stream
      rw [List.append_assoc]
      exact List.append_cancel_left stream

theorem keeps_order_conversation :
    ∃ last, run (step 4) (init 2) conversation = some last ∧ last.received <+: [[7, 9]] := by
  have ran : run (step 4) (init 2) conversation = some _ := rfl
  exact ⟨_, ran, (keeps_order ran).1⟩

end SimpleQueue

end Billiard
