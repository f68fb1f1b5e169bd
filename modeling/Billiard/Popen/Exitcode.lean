import Mathlib.Algebra.Ring.Int.Defs
import Billiard.Data.BigEndian

/-! The exit status of a child, as its parent reads it when the child was started
by the method `fork` or by the method `forkserver`. -/

namespace Billiard

/-- How a child ends: `_bootstrap` returns a status, or a pool worker calls
`os._exit` with one in `Worker._do_exit`. -/
inductive ChildExit where
  | returned (code : Int32)
  | exited (code : Int32)
deriving DecidableEq

def ChildExit.code : ChildExit → Int32
  | .returned code | .exited code => code

inductive WaitCall where
  | eintr
  | failed
  | running
  | ended
deriving DecidableEq, Repr

namespace Fork

/-- The status word of a process that called `os._exit`. -/
def statusWord (code : Int32) : Nat := (code.toInt % 256).toNat * 256

def wtermsig (sts : Nat) : Nat := sts % 128

def wifsignaled (sts : Nat) : Bool := wtermsig sts != 0 && wtermsig sts != 127

def wexitstatus (sts : Nat) : Nat := sts / 256 % 256

def returncode (sts : Nat) : Int :=
  if wifsignaled sts then -(wtermsig sts : Int) else wexitstatus sts

/-- The loop of `poll` over the calls of `os.waitpid`; both ways of leaving the
child end in `os._exit`. -/
def waitpid (child : ChildExit) : List WaitCall → Option Int
  | [] => none
  | .eintr :: calls => waitpid child calls
  | .failed :: _ | .running :: _ => none
  | .ended :: _ => some (returncode (statusWord child.code))

/-- `poll` stores what it returns. -/
def poll (child : ChildExit) (returncode : Option Int) (calls : List WaitCall) : Option Int :=
  returncode.or (waitpid child calls)

def exitcode (child : ChildExit) (polls : List (List WaitCall)) : Option Int :=
  polls.foldl (poll child) none

end Fork

namespace Forkserver

/-- The size of `UNSIGNED_STRUCT` -/
def unsignedSize : Nat := 8

/-- `UNSIGNED_STRUCT.pack`, the lowest byte first. -/
def pack (n : Int) : Option (List UInt8) :=
  if 0 ≤ n ∧ n < 256 ^ unsignedSize then some (BigEndian.encode unsignedSize n.toNat).reverse
  else none

def unpack (data : List UInt8) : Nat := BigEndian.decode data.reverse

/-- The loop of `write_unsigned`: `grain` tells how much `os.write` takes of what
is left. -/
def writeLoop (grain : Nat → Nat) (msg : List UInt8) : List UInt8 :=
  match msg with
  | [] => []
  | byte :: rest =>
      let nbytes := max 1 (grain msg.length)
      (byte :: rest).take nbytes ++ writeLoop grain ((byte :: rest).drop nbytes)
termination_by msg.length
decreasing_by
  simp only [List.length_drop, List.length_cons]
  omega

def writeUnsigned (grain : Nat → Nat) (n : Int) : Option (List UInt8) :=
  (pack n).map (writeLoop grain)

/-- The loop of `read_unsigned`; nothing to read is the end of the pipe. -/
def readLoop (grain : Nat → Nat) (data : List UInt8) (pipe : List UInt8) (left : Nat) :
    Option (List UInt8 × List UInt8) :=
  if left = 0 then some (data, pipe)
  else
    match pipe with
    | [] => none
    | byte :: rest =>
        let n := min (max 1 (grain left)) left
        readLoop grain (data ++ (byte :: rest).take n) ((byte :: rest).drop n)
          (left - ((byte :: rest).take n).length)
termination_by left
decreasing_by
  simp only [List.length_take, List.length_cons]
  omega

def readUnsigned (grain : Nat → Nat) (pipe : List UInt8) : Option (Nat × List UInt8) :=
  (readLoop grain [] pipe unsignedSize).map fun read => (unpack read.1, read.2)

/-- The end of `_serve_one`, where `os._exit` does not get. -/
def writeStatus (grain : Nat → Nat) : ChildExit → List UInt8
  | .returned code => (writeUnsigned grain code.toInt).getD []
  | .exited _ => []

/-- What the child has written to the pipe when it is gone. -/
def serveOne (grain : Nat → Nat) (pid : UInt32) (child : ChildExit) : List UInt8 :=
  (writeUnsigned grain pid.toNat).getD [] ++ writeStatus grain child

structure Popen where
  pid : Nat
  returncode : Option Int
  pipe : List UInt8
deriving DecidableEq

def launch (grain : Nat → Nat) (pipe : List UInt8) : Option Popen :=
  (readUnsigned grain pipe).map fun read => ⟨read.1, none, read.2⟩

/-- A poll that finds nothing to read, or the status or the end of the pipe. -/
inductive StatusPoll where
  | idle
  | ready (grain : Nat → Nat)

def Popen.poll (popen : Popen) (call : StatusPoll) : Popen :=
  match popen.returncode, call with
  | some _, _ | none, .idle => popen
  | none, .ready grain =>
      match readUnsigned grain popen.pipe with
      | some (code, pipe) => { popen with returncode := some code, pipe }
      | none => { popen with returncode := some 255, pipe := [] }

def exitcode (write launched : Nat → Nat) (pid : UInt32) (child : ChildExit)
    (polls : List StatusPoll) : Option Int :=
  (launch launched (serveOne write pid child)).bind fun popen =>
    (polls.foldl Popen.poll popen).returncode

end Forkserver

/-- Whenever the parent reads an exit status of the child from both, it is the same. -/
def ExitcodesAgree (child : ChildExit) : Prop :=
  ∀ waits write launched pid polls forked served,
    Fork.exitcode child waits = some forked →
      Forkserver.exitcode write launched pid child polls = some served → forked = served

/-- The status survives the pipe, or looks like that of a child that wrote none. -/
def ChildExit.Reported : ChildExit → Prop
  | .returned code =>
      0 ≤ code.toInt ∧ code.toInt ≤ 255 ∨ code.toInt < 0 ∧ code.toInt % 256 = 255
  | .exited code => code.toInt % 256 = 255

namespace Fork

/-- The operating system reports the low 8 bits. -/
theorem returncode_statusWord (code : Int32) :
    returncode (statusWord code) = code.toInt % 256 := by
  have low : 0 ≤ code.toInt % 256 ∧ code.toInt % 256 < 256 := by omega
  have unsignaled : wifsignaled (statusWord code) = false := by
    have term : wtermsig (statusWord code) = 0 := by
      unfold wtermsig statusWord
      omega
    simp [wifsignaled, term]
  rw [returncode, unsignaled, if_neg (by decide), wexitstatus, statusWord]
  omega

theorem waitpid_eq_some {child : ChildExit} {calls : List WaitCall} {status : Int}
    (waited : waitpid child calls = some status) : status = child.code.toInt % 256 := by
  induction calls with
  | nil => cases waited
  | cons call calls ih =>
      cases call with
      | eintr => exact ih waited
      | failed => cases waited
      | running => cases waited
      | ended =>
          cases waited
          exact returncode_statusWord child.code

theorem exitcode_eq_some {child : ChildExit} {polls : List (List WaitCall)} {status : Int}
    (read : exitcode child polls = some status) : status = child.code.toInt % 256 := by
  have stored : ∀ (polls : List (List WaitCall)) (returncode : Option Int),
      (∀ status, returncode = some status → status = child.code.toInt % 256) →
      ∀ status, polls.foldl (poll child) returncode = some status →
        status = child.code.toInt % 256 := by
    intro polls
    induction polls with
    | nil => exact fun _ known => known
    | cons calls polls ih =>
        intro returncode known
        apply ih
        intro status polled
        cases returncode with
        | none => exact waitpid_eq_some polled
        | some old => exact known status polled
  exact stored polls none nofun status read

end Fork

namespace Forkserver

theorem writeLoop_eq (grain : Nat → Nat) (msg : List UInt8) : writeLoop grain msg = msg := by
  fun_induction writeLoop grain msg with
  | case1 => rfl
  | case2 byte rest nbytes ih =>
      dsimp only
      rw [ih, List.take_append_drop]

theorem readLoop_eq {grain : Nat → Nat} {data pipe : List UInt8} {left : Nat}
    (enough : left ≤ pipe.length) :
    readLoop grain data pipe left = some (data ++ pipe.take left, pipe.drop left) := by
  fun_induction readLoop grain data pipe left with
  | case1 data pipe => simp
  | case2 data left more => exact absurd (Nat.le_zero.mp enough) more
  | case3 data left more byte rest n ih =>
      have part : n ≤ left := Nat.min_le_right _ _
      have length : ((byte :: rest).take n).length = n := by
        rw [List.length_take, Nat.min_eq_left (Nat.le_trans part enough)]
      have left_ : n + (left - n) = left := Nat.add_sub_cancel' part
      rw [ih (by rw [length, List.length_drop]; exact Nat.sub_le_sub_right enough n), length,
        List.append_assoc, ← List.take_add, List.drop_drop, left_]

theorem readLoop_short {grain : Nat → Nat} {data pipe : List UInt8} {left : Nat}
    (short : pipe.length < left) : readLoop grain data pipe left = none := by
  fun_induction readLoop grain data pipe left with
  | case1 data pipe => cases short
  | case2 data left more => rfl
  | case3 data left more byte rest n ih =>
      apply ih
      rw [List.length_take, List.length_drop]
      omega

theorem unpack_pack {n : Int} {data : List UInt8} (packed : pack n = some data) :
    data.length = unsignedSize ∧ (unpack data : Int) = n := by
  unfold pack at packed
  split at packed
  · rename_i fits
    cases packed
    have natural : (n.toNat : Int) = n := Int.toNat_of_nonneg fits.1
    have small : n.toNat < 256 ^ unsignedSize := by
      have below := fits.2
      rw [← natural] at below
      exact_mod_cast below
    refine ⟨by rw [List.length_reverse, BigEndian.length_encode], ?_⟩
    rw [unpack, List.reverse_reverse, BigEndian.decode_encode small, natural]
  · cases packed

theorem readUnsigned_written (grain : Nat → Nat) {write : Nat → Nat} {n : Int} {data : List UInt8}
    (rest : List UInt8) (written : writeUnsigned write n = some data) :
    ∃ value : Nat, (value : Int) = n ∧ readUnsigned grain (data ++ rest) = some (value, rest) := by
  obtain ⟨msg, packed, same⟩ := Option.map_eq_some_iff.mp written
  rw [writeLoop_eq] at same
  subst same
  obtain ⟨length, value⟩ := unpack_pack packed
  refine ⟨unpack msg, value, ?_⟩
  rw [readUnsigned, readLoop_eq (by rw [List.length_append, length]; exact Nat.le_add_right _ _),
    ← length, List.take_left, List.drop_left]
  rfl

theorem readUnsigned_empty (grain : Nat → Nat) : readUnsigned grain [] = none := by
  rw [readUnsigned, readLoop_short (by decide)]
  rfl

theorem writeUnsigned_of_fits (write : Nat → Nat) {n : Int} (natural : 0 ≤ n)
    (small : n < 256 ^ unsignedSize) : ∃ data, writeUnsigned write n = some data := by
  rw [writeUnsigned, pack, if_pos ⟨natural, small⟩]
  exact ⟨_, rfl⟩

theorem writeUnsigned_of_neg {write : Nat → Nat} {n : Int} (negative : n < 0) :
    writeUnsigned write n = none := by
  rw [writeUnsigned, pack, if_neg fun fits => absurd fits.1 (Int.not_le.mpr negative)]
  rfl

/-- What the parent reads from the pipe as the status. -/
def served : ChildExit → Int
  | .returned code => if 0 ≤ code.toInt then code.toInt else 255
  | .exited _ => 255

/-- The parent has read the status, or it is still in the pipe. -/
structure Reads (popen : Popen) (child : ChildExit) : Prop where
  known : ∀ status, popen.returncode = some status → status = served child
  unknown : popen.returncode = none → ∀ grain,
    (popen.poll (.ready grain)).returncode = some (served child)

theorem Reads.poll {popen : Popen} {child : ChildExit} (reads : Reads popen child)
    (call : StatusPoll) : Reads (popen.poll call) child := by
  cases returned : popen.returncode with
  | some status =>
      have same : popen.poll call = popen := by
        unfold Popen.poll
        rw [returned]
      rw [same]
      exact reads
  | none =>
      cases call with
      | idle =>
          have same : popen.poll .idle = popen := by
            unfold Popen.poll
            rw [returned]
          rw [same]
          exact reads
      | ready grain =>
          have read := reads.unknown returned grain
          refine ⟨fun status known => ?_, fun unknown => ?_⟩
          · rw [read] at known
            exact (Option.some.inj known).symm
          · rw [read] at unknown
            cases unknown

theorem poll_written {popen : Popen} {write grain : Nat → Nat} {n : Int}
    (open_ : popen.returncode = none) (written : writeUnsigned write n = some popen.pipe) :
    (popen.poll (.ready grain)).returncode = some n := by
  obtain ⟨value, same, read⟩ := readUnsigned_written grain [] written
  rw [List.append_nil] at read
  simp [Popen.poll, open_, read, same]

theorem poll_empty {popen : Popen} {grain : Nat → Nat} (open_ : popen.returncode = none)
    (empty : popen.pipe = []) : (popen.poll (.ready grain)).returncode = some 255 := by
  simp [Popen.poll, open_, empty, readUnsigned_empty]

theorem launch_reads (write launched : Nat → Nat) (pid : UInt32) (child : ChildExit) :
    ∃ popen, launch launched (serveOne write pid child) = some popen ∧
      popen.returncode = none ∧ Reads popen child := by
  have size : (256 : Int) ^ unsignedSize = 18446744073709551616 := by decide
  have small : (pid.toNat : Int) < 256 ^ unsignedSize := by
    have bound := pid.toNat_lt
    omega
  obtain ⟨data, written⟩ :=
    writeUnsigned_of_fits write (Int.natCast_nonneg pid.toNat) small
  have launched : ∀ status, ∃ value, launch launched (data ++ status) =
      some ⟨value, none, status⟩ := by
    intro status
    obtain ⟨value, _, read⟩ := readUnsigned_written launched status written
    exact ⟨value, by rw [launch, read]; rfl⟩
  have reads : ∀ value status, (∀ grain,
      (Popen.poll ⟨value, none, status⟩ (.ready grain)).returncode = some (served child)) →
      Reads ⟨value, none, status⟩ child := fun value status polled =>
    ⟨nofun, fun _ => polled⟩
  unfold serveOne
  rw [written, Option.getD_some]
  cases child with
  | returned code =>
      by_cases natural : 0 ≤ code.toInt
      · have bound := code.toInt_lt
        obtain ⟨status, wrote⟩ := writeUnsigned_of_fits write natural (by omega)
        obtain ⟨value, started⟩ := launched status
        rw [writeStatus, wrote]
        refine ⟨_, started, rfl, reads value status fun grain => ?_⟩
        rw [poll_written rfl wrote, served, if_pos natural]
      · obtain ⟨value, started⟩ := launched []
        rw [writeStatus, writeUnsigned_of_neg (Int.not_le.mp natural)]
        refine ⟨_, started, rfl, reads value [] fun grain => ?_⟩
        rw [poll_empty rfl rfl, served, if_neg natural]
  | exited code =>
      obtain ⟨value, started⟩ := launched []
      exact ⟨_, started, rfl, reads value [] fun grain => poll_empty rfl rfl⟩

theorem exitcode_eq_some {write launched : Nat → Nat} {pid : UInt32} {child : ChildExit}
    {polls : List StatusPoll} {status : Int}
    (read : exitcode write launched pid child polls = some status) : status = served child := by
  obtain ⟨popen, started, _, reads⟩ := launch_reads write launched pid child
  rw [exitcode, started, Option.bind_some] at read
  have kept : ∀ (polls : List StatusPoll) (popen : Popen), Reads popen child →
      Reads (polls.foldl Popen.poll popen) child := by
    intro polls
    induction polls with
    | nil => exact fun _ reads => reads
    | cons call polls ih => exact fun popen reads => ih _ (reads.poll call)
  exact (kept polls popen reads).known status read

end Forkserver

theorem served_of_agree {child : ChildExit} (agree : ExitcodesAgree child) :
    Forkserver.served child = child.code.toInt % 256 := by
  obtain ⟨popen, started, open_, reads⟩ :=
    Forkserver.launch_reads (fun _ => 1) (fun _ => 1) 1 child
  have forked : Fork.exitcode child [[.ended]] = some (child.code.toInt % 256) :=
    congrArg some (Fork.returncode_statusWord child.code)
  have served : Forkserver.exitcode (fun _ => 1) (fun _ => 1) 1 child [.ready fun _ => 1] =
      some (Forkserver.served child) := by
    rw [Forkserver.exitcode, started]
    exact reads.unknown open_ _
  exact (agree _ _ _ _ _ _ _ forked served).symm

/-- The two start methods report the same status exactly when it fits in a byte
or looks like that of a child that wrote none. -/
theorem exitcodesAgree_iff (child : ChildExit) : ExitcodesAgree child ↔ child.Reported := by
  have reported : Forkserver.served child = child.code.toInt % 256 ↔ child.Reported := by
    cases child with
    | returned code =>
        simp only [Forkserver.served, ChildExit.code, ChildExit.Reported]
        split <;> omega
    | exited code =>
        simp only [Forkserver.served, ChildExit.code, ChildExit.Reported]
        omega
  rw [← reported]
  constructor
  · exact served_of_agree
  · intro same waits write launched pid polls forked served waited polled
    rw [Fork.exitcode_eq_some waited, Forkserver.exitcode_eq_some polled, same]

/-- A pool worker that leaves with `EX_OK`. -/
theorem not_exitcodesAgree : ¬ExitcodesAgree (.exited 0) :=
  fun agree => absurd (served_of_agree agree) (by decide)

end Billiard
