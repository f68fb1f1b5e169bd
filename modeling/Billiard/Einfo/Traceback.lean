import Billiard.Data.Dict

/-! `Traceback`: a copy of a traceback that can be pickled, of no more frames than
`max_frames` allows. -/

namespace Billiard

/-- A value in a dict of a frame; what is neither `None` nor a string is told apart by a
number. -/
inductive PyValue where
  | none
  | str (text : String)
  | other (number : Nat)
deriving DecidableEq, Repr

/-- The line and the column where an instruction starts, and where it ends. -/
abbrev CodePosition := Option Nat × Option Nat × Option Nat × Option Nat

/-- What a code object has from Python 3.11 on. -/
structure CodeDetail where
  coQualname : String
  coPositions : List CodePosition

structure CodeType where
  coFilename : String
  coName : String
  coArgcount : Nat
  coFirstlineno : Int
  coFlags : Nat
  coNames : List String
  coNlocals : Nat
  coStacksize : Nat
  detail : Option CodeDetail

structure FrameType where
  fGlobals : Dict String PyValue
  fLocals : Dict String PyValue
  fCode : CodeType
  fLineno : Option Int
  fLasti : Int

/-- A traceback is a list of these, in the order of `tb_next`; the empty list is `None`. -/
structure TracebackType where
  tbFrame : FrameType
  tbLineno : Option Int
  tbLasti : Int

structure Code extends CodeType where
  coCellvars : List String
  coFreevars : List String
  coCode : List UInt8
  coLnotab : List UInt8
  coVarnames : List String

def Code.init (code : CodeType) : Code :=
  { code with coCellvars := [], coFreevars := [], coCode := [], coLnotab := [], coVarnames := [] }

structure Frame where
  fBuiltins : Dict String PyValue
  fGlobals : Dict String PyValue
  fLocals : Dict String PyValue
  fBack : PyValue
  fTrace : PyValue
  fExcTraceback : PyValue
  fExcType : PyValue
  fExcValue : PyValue
  fCode : Code
  fLineno : Option Int
  fLasti : Int
  fRestricted : Bool

def Frame.init (frame : FrameType) : Frame where
  fBuiltins := .empty
  fGlobals := ((Dict.empty.set "__file__" ((frame.fGlobals "__file__").getD (.str "__main__"))).set
    "__name__" ((frame.fGlobals "__name__").getD .none)).set "__loader__" .none
  fLocals :=
    match frame.fLocals "__traceback_hide__" with
    | some hide => Dict.empty.set "__traceback_hide__" hide
    | none => .empty
  fBack := .none
  fTrace := .none
  fExcTraceback := .none
  fExcType := .none
  fExcValue := .none
  fCode := .init frame.fCode
  fLineno := frame.fLineno
  fLasti := frame.fLasti
  fRestricted := false

structure TruncatedCode where
  coFilename : String
  coName : String

structure TruncatedFrame where
  fGlobals : Dict String PyValue
  fFileno : PyValue
  fCode : TruncatedCode

structure Truncated where
  tbLineno : Int
  tbFrame : TruncatedFrame
  tbNext : PyValue
  tbLasti : Int

def Truncated.init : Truncated where
  tbLineno := -1
  tbFrame := {
    fGlobals := ((Dict.empty.set "__file__" (.str "")).set "__name__" (.str "")).set
      "__loader__" .none
    fFileno := .none
    fCode := ⟨"...", "[rest of traceback truncated]"⟩ }
  tbNext := .none
  tbLasti := 0

inductive TracebackError where
  | recursionError
  | attributeError
deriving DecidableEq, Repr

/-- What `tb_next` can be when it is not `None`. -/
inductive Traceback where
  | made (tbFrame : Frame) (tbLineno : Option Int) (tbLasti : Int) (tbNext : Option Traceback)
  | truncated (marker : Truncated)

/-- An object of a chain, as it is printed. -/
inductive TracebackLink where
  | entry (tbLineno : Option Int) (tbLasti : Int) (coName : String)
  | truncated (marker : Truncated)

def TracebackType.link (tb : TracebackType) : TracebackLink :=
  .entry tb.tbLineno tb.tbLasti tb.tbFrame.fCode.coName

namespace Traceback

/-- `DEFAULT_MAX_FRAMES` -/
def defaultMaxFrames (recursionlimit : Nat) : Nat := recursionlimit / 8

/-- `stack` is for how many nested calls of `__init__` the interpreter has room. -/
def init (maxFrames : Int) : (stack : Nat) → List TracebackType → (depth : Nat) →
    Except TracebackError Traceback
  | 0, _, _ => .error .recursionError
  | _ + 1, [], _ => .error .attributeError
  | _ + 1, [tb], _ => .ok (.made (.init tb.tbFrame) tb.tbLineno tb.tbLasti none)
  | stack + 1, tb :: next :: rest, depth =>
      if depth ≤ maxFrames then
        match init maxFrames stack (next :: rest) (depth + 1) with
        | .error exc => .error exc
        | .ok tbNext => .ok (.made (.init tb.tbFrame) tb.tbLineno tb.tbLasti (some tbNext))
      else
        .ok (.made (.init tb.tbFrame) tb.tbLineno tb.tbLasti (some (.truncated .init)))

def links : Traceback → List TracebackLink
  | .truncated marker => [.truncated marker]
  | .made tbFrame tbLineno tbLasti none => [.entry tbLineno tbLasti tbFrame.fCode.coName]
  | .made tbFrame tbLineno tbLasti (some tbNext) =>
      .entry tbLineno tbLasti tbFrame.fCode.coName :: tbNext.links

/-- Copies of the nodes, with an ending for the `tb_next` of the last one. -/
def linked (ending : Option Traceback) (tb : List TracebackType) : Option Traceback :=
  tb.foldr (fun node tbNext =>
    some (.made (.init node.tbFrame) node.tbLineno node.tbLasti tbNext)) ending

/-- The first frame and at most `more` others. -/
def cut (more : Nat) (tb : TracebackType) (rest : List TracebackType) : Traceback :=
  .made (.init tb.tbFrame) tb.tbLineno tb.tbLasti
    (linked (if more < rest.length then some (.truncated .init) else none) (rest.take more))

variable (tb next : TracebackType) (rest : List TracebackType)

theorem cut_nil (more : Nat) :
    cut more tb [] = .made (.init tb.tbFrame) tb.tbLineno tb.tbLasti none := by
  simp [cut, linked]

theorem cut_zero :
    cut 0 tb (next :: rest) =
      .made (.init tb.tbFrame) tb.tbLineno tb.tbLasti (some (.truncated .init)) := by
  simp [cut, linked]

theorem cut_succ (more : Nat) :
    cut (more + 1) tb (next :: rest) =
      .made (.init tb.tbFrame) tb.tbLineno tb.tbLasti (some (cut more next rest)) := by
  simp [cut, linked]

/-- From a depth on, `max_frames` leaves one frame more than it is deeper, and the stack has to
have room for as many calls as there are frames. -/
theorem init_eq (maxFrames : Int) (stack depth : Nat) :
    init maxFrames stack (tb :: rest) depth =
      if min rest.length (maxFrames + 1 - depth).toNat < stack then
        .ok (cut (maxFrames + 1 - depth).toNat tb rest)
      else .error .recursionError := by
  induction stack generalizing tb rest depth with
  | zero => rfl
  | succ stack ih =>
      cases rest with
      | nil =>
          rw [cut_nil, if_pos (by simp)]
          rfl
      | cons next rest =>
          rw [init]
          by_cases deeper : depth ≤ maxFrames
          · have more : (maxFrames + 1 - depth).toNat =
                (maxFrames + 1 - (depth + 1 : Nat)).toNat + 1 := by omega
            rw [if_pos deeper, ih, more, cut_succ, List.length_cons, Nat.add_min_add_right]
            by_cases enough : min rest.length (maxFrames + 1 - (depth + 1 : Nat)).toNat < stack
            · rw [if_pos enough, if_pos (Nat.succ_lt_succ enough)]
            · rw [if_neg enough, if_neg (mt Nat.lt_of_succ_lt_succ enough)]
          · have more : (maxFrames + 1 - depth).toNat = 0 := by omega
            rw [if_neg deeper, more, cut_zero, Nat.min_zero, if_pos (Nat.succ_pos stack)]

@[simp] theorem links_made (tbFrame : Frame) (tbLineno : Option Int) (tbLasti : Int)
    (tbNext : Option Traceback) :
    (made tbFrame tbLineno tbLasti tbNext).links =
      .entry tbLineno tbLasti tbFrame.fCode.coName :: tbNext.elim [] links := by
  cases tbNext with
  | none => rw [links, Option.elim_none]
  | some tbNext => rw [links, Option.elim_some]

theorem links_linked (ending : Option Traceback) (tb : List TracebackType) :
    (linked ending tb).elim [] links = tb.map TracebackType.link ++ ending.elim [] links := by
  induction tb with
  | nil => rfl
  | cons node tb ih =>
      rw [List.map_cons, List.cons_append, ← ih]
      exact links_made _ _ _ _

theorem links_cut (more : Nat) :
    (cut more tb rest).links =
      ((tb :: rest).take (more + 1)).map TracebackType.link ++
        if more < rest.length then [.truncated .init] else [] := by
  rw [cut, links_made, links_linked, List.take_succ_cons, List.map_cons, List.cons_append]
  split
  · rfl
  · rfl

theorem init_start (maxFrames stack : Nat) :
    init maxFrames stack (tb :: rest) 0 =
      if min (rest.length + 1) (maxFrames + 2) ≤ stack then .ok (cut (maxFrames + 1) tb rest)
      else .error .recursionError := by
  have more : ((maxFrames : Int) + 1 - (0 : Nat)).toNat = maxFrames + 1 := by omega
  rw [init_eq, more, Nat.add_min_add_right rest.length (maxFrames + 1) 1]
  rfl

/-- The default takes an eighth of the recursion limit and two calls, however many frames the
traceback has. -/
theorem exists_init_default (recursionlimit stack : Nat)
    (room : defaultMaxFrames recursionlimit + 2 ≤ stack) :
    ∃ built, init (defaultMaxFrames recursionlimit) stack (tb :: rest) 0 = .ok built ∧
      built.links.length ≤ defaultMaxFrames recursionlimit + 3 := by
  refine ⟨cut (defaultMaxFrames recursionlimit + 1) tb rest, ?_, ?_⟩
  · rw [init_start, if_pos (Nat.le_trans (Nat.min_le_right _ _) room)]
  · have copied := List.length_take_le (defaultMaxFrames recursionlimit + 1 + 1) (tb :: rest)
    rw [links_cut, List.length_append, List.length_map]
    split
    · rw [List.length_singleton]
      omega
    · rw [List.length_nil]
      omega

/-- The first `max_frames + 2` entries are copied, and a marker follows them if there are more;
the calls of `__init__` are nested as deep as entries are copied. -/
theorem init_truncates {tb : List TracebackType} (some_ : tb ≠ []) (maxFrames : Nat) :
    ∃ built,
      (∀ stack, init maxFrames stack tb 0 =
        if min tb.length (maxFrames + 2) ≤ stack then .ok built else .error .recursionError) ∧
      built.links =
        (tb.take (min tb.length (maxFrames + 2))).map TracebackType.link ++
          if maxFrames + 2 < tb.length then [.truncated .init] else [] := by
  obtain ⟨node, rest, rfl⟩ := List.exists_cons_of_ne_nil some_
  refine ⟨cut (maxFrames + 1) node rest, init_start node rest maxFrames, ?_⟩
  have beyond : maxFrames + 1 < rest.length ↔ maxFrames + 2 < (node :: rest).length := by
    rw [List.length_cons]
    omega
  rw [links_cut, Nat.min_comm, ← List.take_eq_take_min]
  simp only [beyond]

/-- Four nested calls, each in a function of its own. -/
def fourCalls : List TracebackType :=
  [("apply", 12), ("run", 30), ("parse", 7), ("fail", 2)].map fun (coName, tbLineno) =>
    { tbFrame := {
        fGlobals := .empty
        fLocals := .empty
        fCode := ⟨"task.py", coName, 0, 1, 0, [], 0, 1, none⟩
        fLineno := some tbLineno
        fLasti := 4 }
      tbLineno := some tbLineno
      tbLasti := 4 }

theorem init_truncates_fourCalls :
    ∃ built,
      (∀ stack, init (1 : Nat) stack fourCalls 0 =
        if 3 ≤ stack then .ok built else .error .recursionError) ∧
      built.links =
        [.entry (some 12) 4 "apply", .entry (some 30) 4 "run", .entry (some 7) 4 "parse",
          .truncated .init] :=
  init_truncates (List.cons_ne_nil _ _) 1

end Traceback

end Billiard
