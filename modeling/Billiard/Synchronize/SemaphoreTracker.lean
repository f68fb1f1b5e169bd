import Mathlib.Data.Finset.Erase
import Mathlib.Data.Finset.Insert
import Mathlib.Data.List.DropRight
import Billiard.Data.Lines
import Billiard.Data.Transition

/-! The pipe of `semaphore_tracker.py`: what processes write and what `main` makes of it.
Bytes are told by their ASCII characters, and a `str` is a list of characters. -/

namespace Billiard

open Transition

inductive TrackerVerb where
  | register
  | unregister
deriving DecidableEq, Repr

structure TrackerCommand where
  verb : TrackerVerb
  name : List Char
deriving DecidableEq, Repr

def TrackerVerb.text : TrackerVerb → List Char
  | .register => "REGISTER".toList
  | .unregister => "UNREGISTER".toList

namespace TrackerCommand

/-- `'{0}:{1}\n'.format(cmd, name)`, but for its last character. -/
def body (command : TrackerCommand) : List Char := command.verb.text ++ ':' :: command.name

def text (command : TrackerCommand) : List Char := command.body ++ ['\n']

/-- What `_send` writes, unless `encode` or the test of the name raises. -/
def message? (command : TrackerCommand) : Option (List Char) :=
  if command.text.all (·.toNat < 128) && command.name.length ≤ 512 then some command.text
  else none

end TrackerCommand

/-- A thread that calls `register` and `unregister`; `writing` is the command of a write that
is not complete, with the rest of its message. -/
structure TrackerWriter where
  writing : Option (TrackerCommand × List Char)
  calls : List TrackerCommand
deriving DecidableEq, Repr

/-- `sent` are the commands whose messages are complete, in the order of the pipe. -/
structure TrackerPipe where
  writers : List TrackerWriter
  pipe : List Char
  sent : List TrackerCommand
deriving DecidableEq, Repr

namespace TrackerPipe

def init (programs : List (List TrackerCommand)) : TrackerPipe :=
  ⟨programs.map (⟨none, ·⟩), [], []⟩

def become (state : TrackerPipe) (number : Nat) (writer : TrackerWriter) : TrackerPipe :=
  { state with writers := state.writers.set number writer }

def put (state : TrackerPipe) (number : Nat) (calls : List TrackerCommand)
    (command : TrackerCommand) (rest : List Char) (count : Nat) : Option TrackerPipe :=
  if count = 0 ∨ rest.length < count then none
  else if count = rest.length then
    some { state.become number ⟨none, calls⟩ with
      pipe := state.pipe ++ rest
      sent := state.sent ++ [command] }
  else
    some { state.become number ⟨some (command, rest.drop count), calls⟩ with
      pipe := state.pipe ++ rest.take count }

/-- A writer begins a call or goes on with one.  A message of at most 512 bytes is written at
once, and a call that raises writes nothing. -/
def step (state : TrackerPipe) : Nat × Nat → Option TrackerPipe
  | (number, count) =>
      match state.writers[number]? with
      | none | some ⟨none, []⟩ => none
      | some ⟨some (command, rest), calls⟩ => state.put number calls command rest count
      | some ⟨none, command :: calls⟩ =>
          match command.message? with
          | none => some (state.become number ⟨none, calls⟩)
          | some message =>
              if message.length ≤ 512 ∧ count ≠ message.length then none
              else state.put number calls command message count

end TrackerPipe

/-- What `bytes.strip` takes away. -/
def isSpace (c : Char) : Bool := c ∈ [' ', '\t', '\n', '\r', '\x0b', '\x0c']

def strip (line : List Char) : List Char := (line.dropWhile isSpace).rdropWhile isSpace

/-- The body of the loop up to the set, if it raises nothing. -/
def parseCommand (line : List Char) : Option TrackerCommand :=
  match (strip line).splitOn ':' with
  | [cmd, name] =>
      if cmd = TrackerVerb.register.text then some ⟨.register, name⟩
      else if cmd = TrackerVerb.unregister.text then some ⟨.unregister, name⟩
      else none
  | _ => none

/-- `cache.remove` on a name that is not there raises, and nothing changes. -/
def TrackerCommand.apply (cache : Finset (List Char)) (command : TrackerCommand) :
    Finset (List Char) :=
  match command.verb with
  | .register => insert command.name cache
  | .unregister => cache.erase command.name

/-- The commands that `main` decodes. -/
def decoded (pipe : List Char) : List TrackerCommand :=
  (Lines.lines '\n' pipe).filterMap parseCommand

def handleLine (cache : Finset (List Char)) (line : List Char) : Finset (List Char) :=
  match parseCommand line with
  | none => cache
  | some command => command.apply cache

/-- The names that `main` unlinks at the end of the pipe. -/
def unlinked (pipe : List Char) : Finset (List Char) :=
  (Lines.lines '\n' pipe).foldl handleLine ∅

def lastVerb (sent : List TrackerCommand) (name : List Char) : Option TrackerVerb :=
  ((sent.filter (·.name = name)).getLast?).map TrackerCommand.verb

/-- A name that the separators and `strip` leave as it is. -/
structure TrackerCommand.Plain (command : TrackerCommand) : Prop where
  one_line : '\n' ∉ command.name
  one_part : ':' ∉ command.name
  ends : ∀ last ∈ command.name.getLast?, isSpace last = false

namespace TrackerPipe

def Idle (state : TrackerPipe) : Prop := ∀ writer ∈ state.writers, writer.writing = none

instance Idle.decidable (state : TrackerPipe) : Decidable state.Idle :=
  inferInstanceAs (Decidable (∀ writer ∈ state.writers, writer.writing = none))

/-- What `main` makes of the pipe at its end. -/
structure Tracked (state : TrackerPipe) : Prop where
  decodes : decoded state.pipe = state.sent
  unlinks : ∀ name, name ∈ unlinked state.pipe ↔ lastVerb state.sent name = some .register

def Alone (state : TrackerPipe) (number : Nat) : Prop :=
  ∀ (other : Nat) (writer : TrackerWriter), state.writers[other]? = some writer →
    other ≠ number → writer.writing = none

/-- Nobody writes while a message of somebody else is in the middle of its way. -/
def Undivided (state : TrackerPipe) (label : Nat × Nat) : Prop := state.Alone label.1

end TrackerPipe

theorem not_mem_strip {line : List Char} (listed : ∃ text, '\n' ∉ text ∧
    (line = text ∨ line = text ++ ['\n'])) : '\n' ∉ strip line := by
  obtain ⟨text, whole, ends⟩ := listed
  have inner {rest : List Char} (suffix : rest <:+ text) :
      '\n' ∉ rest.rdropWhile isSpace :=
    fun member => whole (suffix.subset ((List.rdropWhile_prefix isSpace rest).subset member))
  rcases ends with rfl | rfl
  · exact inner (List.dropWhile_suffix isSpace)
  · rw [strip, List.dropWhile_append]
    split
    · rw [List.dropWhile_cons_of_pos (by decide)]
      exact List.not_mem_nil
    · rw [List.rdropWhile_concat_pos isSpace _ _ (by decide)]
      exact inner (List.dropWhile_suffix isSpace)

theorem strip_body {command : TrackerCommand} (plain : command.Plain) :
    strip command.text = command.body := by
  have begins : (command.body ++ ['\n']).dropWhile isSpace = command.body ++ ['\n'] := by
    cases verb : command.verb with
    | register => simp only [TrackerCommand.body, verb]; rfl
    | unregister => simp only [TrackerCommand.body, verb]; rfl
  rw [strip, TrackerCommand.text, begins, List.rdropWhile_concat_pos isSpace _ _ (by decide),
    List.rdropWhile_eq_self_iff]
  intro some_
  cases name : command.name with
  | nil => simp [TrackerCommand.body, name, isSpace]
  | cons first name_ =>
      have last : command.body.getLast some_ = command.name.getLast (by simp [name]) := by
        simp [TrackerCommand.body, name]
      rw [last]
      exact Bool.eq_false_iff.mp (plain.ends _ (List.getLast_mem_getLast? _))

theorem parseCommand_text {command : TrackerCommand} (plain : command.Plain) :
    parseCommand command.text = some command := by
  have split : (strip command.text).splitOn ':' = [command.verb.text, command.name] := by
    have verb : ':' ∉ command.verb.text := by
      cases command.verb <;> decide
    rw [strip_body plain, TrackerCommand.body, List.splitOn_append_cons_self_of_not_mem verb,
      List.splitOn_eq_singleton plain.one_part]
  obtain ⟨verb, name⟩ := command
  rw [parseCommand, split]
  cases verb with
  | register => rfl
  | unregister => rfl

theorem plain_of_parseCommand {line : List Char} {command : TrackerCommand}
    (listed : ∃ text, '\n' ∉ text ∧ (line = text ∨ line = text ++ ['\n']))
    (parsed : parseCommand line = some command) : command.Plain := by
  unfold parseCommand at parsed
  split at parsed
  case h_2 => cases parsed
  case h_1 cmd name split =>
    have whole : strip line = cmd ++ ':' :: name := by
      have joined : [':'].intercalate ((strip line).splitOn ':') = strip line :=
        List.intercalate_splitOn ':'
      rw [split] at joined
      simpa using joined.symm
    have named : command.name = name := by
      split at parsed
      · cases parsed
        rfl
      · split at parsed
        · cases parsed
          rfl
        · cases parsed
    refine ⟨?_, ?_, ?_⟩
    · have unbroken := not_mem_strip listed
      rw [whole, List.mem_append, List.mem_cons, not_or, not_or] at unbroken
      exact named ▸ unbroken.2.2
    · -- a second separator would have split the name
      intro again
      rw [named] at again
      obtain ⟨front, back, rfl⟩ := List.append_of_mem again
      rw [whole, List.splitOn_append_cons_self, List.splitOn_append_cons_self] at split
      have parts := congrArg List.length split
      have first := List.length_pos_of_ne_nil (List.splitOn_ne_nil ':' cmd)
      have second := List.length_pos_of_ne_nil (List.splitOn_ne_nil ':' front)
      have third := List.length_pos_of_ne_nil (List.splitOn_ne_nil ':' back)
      simp only [List.length_append, List.length_cons, List.length_nil] at parts
      omega
    · intro last final
      rw [named] at final
      have some_ : strip line ≠ [] := by simp [whole]
      have same : (strip line).getLast some_ = last := by
        apply Option.some.inj
        rw [← List.getLast?_eq_some_getLast, whole, List.getLast?_append, List.getLast?_cons, final]
        rfl
      rw [← same]
      exact Bool.eq_false_iff.mpr (List.rdropWhile_last_not isSpace _ some_)

theorem plain_of_decoded {pipe : List Char} {command : TrackerCommand}
    (listed : command ∈ decoded pipe) : command.Plain := by
  obtain ⟨line, member, parsed⟩ := List.mem_filterMap.mp listed
  exact plain_of_parseCommand (Lines.eq_of_mem_lines member) parsed

theorem TrackerCommand.Plain.not_mem_body {command : TrackerCommand} (plain : command.Plain) :
    '\n' ∉ command.body := by
  have verb : '\n' ∉ command.verb.text := by
    cases command.verb <;> decide
  simp [TrackerCommand.body, verb, plain.one_line]

theorem decoded_flatten {sent : List TrackerCommand} (plain : ∀ command ∈ sent, command.Plain) :
    decoded (sent.map TrackerCommand.text).flatten = sent := by
  have texts : sent.map TrackerCommand.text =
      (sent.map TrackerCommand.body).map (· ++ ['\n']) := by
    rw [List.map_map]
    rfl
  have whole : ∀ body ∈ sent.map TrackerCommand.body, '\n' ∉ body := by
    intro body listed
    obtain ⟨command, member, rfl⟩ := List.mem_map.mp listed
    exact (plain command member).not_mem_body
  rw [decoded, texts, Lines.lines_flatten whole, ← texts, List.filterMap_map]
  refine (List.filterMap_congr fun command member => ?_).trans List.filterMap_some
  exact parseCommand_text (plain command member)

theorem unlinked_eq (pipe : List Char) :
    unlinked pipe = (decoded pipe).foldl TrackerCommand.apply ∅ := by
  rw [decoded, List.foldl_filterMap, unlinked]
  congr 1
  funext cache line
  unfold handleLine
  cases parseCommand line with
  | none => rfl
  | some command => rfl

theorem lastVerb_concat (sent : List TrackerCommand) (last : TrackerCommand) (name : List Char) :
    lastVerb (sent ++ [last]) name =
      if last.name = name then some last.verb else lastVerb sent name := by
  by_cases same : last.name = name
  · simp [lastVerb, same]
  · simp [lastVerb, same]

theorem mem_foldl_apply (sent : List TrackerCommand) (name : List Char) :
    name ∈ sent.foldl TrackerCommand.apply ∅ ↔ lastVerb sent name = some .register := by
  induction sent using List.reverseRecOn with
  | nil => simp [lastVerb]
  | append_singleton sent last ih =>
      rw [List.foldl_concat, lastVerb_concat]
      obtain ⟨verb, other⟩ := last
      by_cases same : other = name
      · cases verb <;> simp [TrackerCommand.apply, same]
      · cases verb <;> simp [TrackerCommand.apply, same, Ne.symm same, ih]

namespace TrackerPipe

theorem tracked_iff_decodes {state : TrackerPipe} :
    state.Tracked ↔ decoded state.pipe = state.sent := by
  refine ⟨Tracked.decodes, fun decodes => ⟨decodes, fun name => ?_⟩⟩
  rw [unlinked_eq, decodes]
  exact mem_foldl_apply state.sent name

/-- Whole messages in the order of `sent`, and behind them what one writer has begun. -/
def Invariant (state : TrackerPipe) : Prop :=
  ∃ front, state.pipe = (state.sent.map TrackerCommand.text).flatten ++ front ∧
    (front = [] ∧ state.Idle ∨
      ∃ (number : Nat) (command : TrackerCommand) (rest : List Char)
        (calls : List TrackerCommand),
        state.writers[number]? = some ⟨some (command, rest), calls⟩ ∧
          command.text = front ++ rest ∧ state.Alone number)

variable {state next : TrackerPipe} {number : Nat}

theorem Alone.idle (alone : state.Alone number) {calls : List TrackerCommand}
    (found : state.writers[number]? = some ⟨none, calls⟩) : state.Idle := by
  intro writer listed
  obtain ⟨other, here⟩ := List.mem_iff_getElem?.mp listed
  by_cases same : other = number
  · subst same
    cases found.symm.trans here
    rfl
  · exact alone other writer here same

theorem Alone.become (alone : state.Alone number) (writer : TrackerWriter) :
    (state.become number writer).Alone number := by
  intro other found here different
  rw [TrackerPipe.become, List.getElem?_set_ne (Ne.symm different)] at here
  exact alone other found here different

theorem become_found {writer : TrackerWriter} (found : state.writers[number]? = some writer)
    (new : TrackerWriter) : (state.become number new).writers[number]? = some new :=
  List.getElem?_set_self (List.getElem?_eq_some_iff.mp found).1

theorem put_invariant {front rest : List Char} {command : TrackerCommand}
    {calls : List TrackerCommand} {count : Nat} {writer : TrackerWriter}
    (pipe : state.pipe = (state.sent.map TrackerCommand.text).flatten ++ front)
    (found : state.writers[number]? = some writer) (text : command.text = front ++ rest)
    (alone : state.Alone number)
    (taken : state.put number calls command rest count = some next) : next.Invariant := by
  unfold put at taken
  split at taken
  case isTrue => cases taken
  case isFalse =>
    split at taken
    case isTrue =>
      cases taken
      refine ⟨[], by simp [pipe, text], .inl ⟨rfl, ?_⟩⟩
      exact (alone.become _).idle (become_found found _)
    case isFalse =>
      cases taken
      refine ⟨front ++ rest.take count, by simp [pipe, become], .inr ⟨number, command,
        rest.drop count, calls, become_found found _, ?_, alone.become _⟩⟩
      rw [text, List.append_assoc, List.take_append_drop]

theorem message?_text {command : TrackerCommand} {message : List Char}
    (accepted : command.message? = some message) : message = command.text := by
  unfold TrackerCommand.message? at accepted
  split at accepted
  · exact (Option.some.inj accepted).symm
  · cases accepted

theorem step_invariant : Preserves step Undivided Invariant := by
  rintro state ⟨number, count⟩ next ⟨front, pipe, shape⟩ alone taken
  have alone : state.Alone number := alone
  simp only [step] at taken
  split at taken
  case h_1 => cases taken
  case h_2 => cases taken
  case h_3 command rest calls found =>
    -- the message in the middle of its way is the one that goes on
    rcases shape with ⟨_, idle⟩ | ⟨other, begun, left, later, here, text, others⟩
    · have writer := idle _ (List.mem_of_getElem? found)
      cases writer
    · have same : number = other := by
        by_contra different
        cases others number _ found different
      subst same
      cases found.symm.trans here
      exact put_invariant pipe found text alone taken
  case h_4 command calls found =>
    have idle := alone.idle found
    have whole : front = [] := by
      rcases shape with ⟨nothing, _⟩ | ⟨other, begun, left, later, here, _⟩
      · exact nothing
      · cases idle _ (List.mem_of_getElem? here)
    split at taken
    case h_1 =>
      cases taken
      exact ⟨front, pipe, .inl ⟨whole, (alone.become _).idle (become_found found _)⟩⟩
    case h_2 message accepted =>
      split at taken
      case isTrue => cases taken
      case isFalse =>
        rw [message?_text accepted] at taken
        exact put_invariant pipe found (by rw [whole]; rfl) alone taken

theorem init_invariant (programs : List (List TrackerCommand)) : (init programs).Invariant := by
  refine ⟨[], rfl, .inl ⟨rfl, fun writer listed => ?_⟩⟩
  obtain ⟨calls, _, rfl⟩ := List.mem_map.mp listed
  rfl

theorem Invariant.pipe_eq (invariant : state.Invariant) (idle : state.Idle) :
    state.pipe = (state.sent.map TrackerCommand.text).flatten := by
  obtain ⟨front, pipe, ⟨nothing, _⟩ | ⟨number, command, rest, calls, here, _⟩⟩ := invariant
  · rw [pipe, nothing, List.append_nil]
  · cases idle _ (List.mem_of_getElem? here)

/-- All messages are at most as long as what is written at once, and nobody is in the middle of
one. -/
structure Short (state : TrackerPipe) : Prop where
  idle : state.Idle
  calls : ∀ writer ∈ state.writers, ∀ command ∈ writer.calls, command.text.length ≤ 512

theorem Short.become (short : state.Short) {command : TrackerCommand}
    {calls : List TrackerCommand}
    (found : state.writers[number]? = some ⟨none, command :: calls⟩) :
    (state.become number ⟨none, calls⟩).Short := by
  refine ⟨fun writer listed => ?_, fun writer listed => ?_⟩
  · rcases List.mem_or_eq_of_mem_set listed with before | same
    · exact short.idle writer before
    · rw [same]
  · rcases List.mem_or_eq_of_mem_set listed with before | same
    · exact short.calls writer before
    · subst same
      exact fun other later => short.calls _ (List.mem_of_getElem? found) other
        (List.mem_cons_of_mem command later)

theorem step_short : Preserves step (fun _ _ => True) Short := by
  rintro state ⟨number, count⟩ next short _ taken
  simp only [step] at taken
  split at taken
  case h_1 => cases taken
  case h_2 => cases taken
  case h_3 found => cases short.idle _ (List.mem_of_getElem? found)
  case h_4 command calls found =>
    have become := short.become found
    split at taken
    case h_1 =>
      cases taken
      exact become
    case h_2 message accepted =>
      have length := short.calls _ (List.mem_of_getElem? found) command List.mem_cons_self
      rw [← message?_text accepted] at length
      split at taken
      case isTrue => cases taken
      case isFalse whole =>
        have all : count = message.length := by
          by_contra part
          exact whole ⟨length, part⟩
        unfold put at taken
        split at taken
        case isTrue => cases taken
        case isFalse =>
          cases taken
          exact ⟨become.idle, become.calls⟩

/-- A name of 500 characters has a message that is written at once. -/
theorem undivided_of_short {programs : List (List TrackerCommand)}
    (short : ∀ calls ∈ programs, ∀ command ∈ calls, command.text.length ≤ 512)
    (labels : List (Nat × Nat)) : Along step Undivided (init programs) labels := by
  refine along_of_invariant step_short (fun state label short _ => ?_) ?_
    (along_true (init programs) labels)
  · exact fun other writer found _ => short.idle writer (List.mem_of_getElem? found)
  · refine ⟨fun writer listed => ?_, fun writer listed => ?_⟩
    · obtain ⟨calls, _, rfl⟩ := List.mem_map.mp listed
      rfl
    · obtain ⟨calls, member, rfl⟩ := List.mem_map.mp listed
      exact short calls member

/-- Where no message is divided by another, what was sent is what is decoded, exactly if
its names are plain. -/
theorem tracked_iff {programs : List (List TrackerCommand)} {labels : List (Nat × Nat)}
    {last : TrackerPipe} (undivided : Along step Undivided (init programs) labels)
    (ran : run step (init programs) labels = some last) (idle : last.Idle) :
    last.Tracked ↔ ∀ command ∈ last.sent, command.Plain := by
  have invariant := invariant_along step_invariant (init_invariant programs) undivided ran
  rw [tracked_iff_decodes]
  constructor
  · intro decodes command listed
    rw [← decodes] at listed
    exact plain_of_decoded listed
  · intro plain
    rw [invariant.pipe_eq idle]
    exact decoded_flatten plain

def twoPrograms : List (List TrackerCommand) :=
  [[⟨.register, "/mp-a".toList⟩, ⟨.unregister, "/mp-a".toList⟩], [⟨.register, "/mp-b".toList⟩]]

theorem tracked_twoPrograms : ∃ last,
    run step (init twoPrograms) [(0, 15), (1, 15), (0, 17)] = some last ∧ last.Tracked := by
  have short : ∀ calls ∈ twoPrograms, ∀ command ∈ calls, command.text.length ≤ 512 := by decide
  obtain ⟨last, ran, idle, sent⟩ : ∃ last,
      run step (init twoPrograms) [(0, 15), (1, 15), (0, 17)] = some last ∧ last.Idle ∧
        last.sent = [⟨.register, "/mp-a".toList⟩, ⟨.register, "/mp-b".toList⟩,
          ⟨.unregister, "/mp-a".toList⟩] := ⟨_, rfl, by decide, rfl⟩
  have plain : ∀ command ∈ last.sent, command.Plain := by
    intro command listed
    rw [sent] at listed
    rcases List.mem_cons.mp listed with rfl | listed
    · exact ⟨by decide, by decide, by rintro _ ⟨⟩; rfl⟩
    · rcases List.mem_cons.mp listed with rfl | listed
      · exact ⟨by decide, by decide, by rintro _ ⟨⟩; rfl⟩
      · rw [List.mem_singleton.mp listed]
        exact ⟨by decide, by decide, by rintro _ ⟨⟩; rfl⟩
  exact ⟨last, ran, (tracked_iff (undivided_of_short short _) ran idle).mpr plain⟩

/-- The message is short, but the name has a separator in it. -/
theorem not_tracked : ¬ ∀ (programs : List (List TrackerCommand)) (labels : List (Nat × Nat))
    (last : TrackerPipe), run step (init programs) labels = some last → last.Idle →
    last.Tracked := by
  intro claimed
  obtain ⟨last, ran, idle, lost⟩ : ∃ last,
      run step (init [[⟨.register, "a:b".toList⟩]]) [(0, 13)] = some last ∧ last.Idle ∧
        decoded last.pipe ≠ last.sent := ⟨_, rfl, by decide, by decide⟩
  exact lost (claimed _ _ last ran idle).decodes

end TrackerPipe

end Billiard
