import Billiard.Queues.SimpleQueue

/-! What the parties of a `SimpleQueue` are told, and when they can go on: neither depends on who
else is in a call. -/

namespace Billiard

open Transition

variable {capacity party n : Nat} {queue next last : SimpleQueue} {point : PipePoint}
  {action : PipeAction} {labels : List (Nat × PipeAction)}

namespace SimpleQueue

/-- No party was killed in the middle of a message it was writing. -/
def Whole (queue : SimpleQueue) : Prop :=
  ∀ point ∈ queue.parties, point.isKilled = true → point.unsent = []

/-- All that was sent has been received, and nothing more will be sent. -/
def Complete (queue : SimpleQueue) : Prop :=
  queue.eof = true ∧ queue.pipe = [] ∧ queue.received = queue.frames

/-- While no writer is killed in the middle of a message. -/
structure Honesty (queue : SimpleQueue) : Prop where
  whole : queue.Whole
  stream : queue.Streams
  honest : ∀ point ∈ queue.parties, point.Honest queue.Complete

theorem Honest_mono {complete later : Prop} (more : complete → later) {point : PipePoint}
    (honest : point.Honest complete) : point.Honest later := by
  induction point with
  | outside outcome =>
      cases outcome with
      | raised error => exact honest.imp_left (And.imp_right more)
      | _ => trivial
  | unlockingWrite outcome =>
      cases outcome with
      | raised error => exact honest
      | _ => trivial
  | unlockingRead outcome =>
      cases outcome with
      | raised error => exact ⟨honest.1, more honest.2⟩
      | _ => trivial
  | killed point ih => exact ih honest
  | _ => trivial

/-- Once the writing ends are closed, nobody has anything left to write. -/
theorem Whole.unsent_eq (whole : queue.Whole) (invariant : queue.Invariant)
    (eof : queue.eof = true) : queue.unsent = [] := by
  unfold SimpleQueue.unsent share
  cases held : queue.writeLock.bind fun party => queue.parties[party]? with
  | none => rfl
  | some point =>
      obtain ⟨party, _, found⟩ := Option.bind_eq_some_iff.mp held
      have member := List.mem_of_getElem? found
      have quiet := invariant.calm eof point member
      have spared := whole point member
      cases point with
      | sending buf later => cases quiet
      | killed point => exact spared rfl
      | _ => rfl

/-- When nothing is on its way, who needs more in a `_recv` has received everything. -/
theorem Streams.all_received (stream : queue.Streams) (invariant : queue.Invariant)
    (found : queue.parties[party]? = some point) (nobody : queue.unsent = [])
    (empty : queue.pipe = []) {got : List UInt8} (unfinished : point.Unfinished got) :
    got = [] ∧ point.taken = [] ∧ queue.received = queue.frames := by
  have mine := (invariant.reader party point found).mp unfinished.quiet.1
  have shaped := invariant.shaped party point found
  obtain ⟨rest, same⟩ := invariant.order
  rw [Streams, nobody, empty, SimpleQueue.taken, mine, share_self found, ← same,
    List.flatMap_append, List.append_nil, List.append_nil] at stream
  have stream := List.append_cancel_left stream
  cases rest with
  | nil =>
      have nothing : point.taken = [] := stream.symm
      rw [List.append_nil] at same
      obtain ⟨rfl, _⟩ | ⟨header, rfl, _⟩ := unfinished
      · exact ⟨nothing, nothing, same⟩
      · exact ⟨(List.append_eq_nil_iff.mp nothing).2, nothing, same⟩
  | cons value rest =>
      have small : value.length < 2 ^ 31 :=
        invariant.short value (same ▸ List.mem_append_right _ List.mem_cons_self)
      have long := congrArg List.length stream
      rw [List.flatMap_cons, List.length_append, length_frame] at long
      obtain ⟨rfl, few⟩ | ⟨header, rfl, few⟩ := unfinished
      · have taken : (PipePoint.readingHeader got).taken.length = got.length := rfl
        omega
      · have taken : (PipePoint.readingBody header got).taken.length =
            header.length + got.length := List.length_append
        have four : header.length = 4 := shaped.1
        have front := congrArg (List.take 4) stream
        rw [List.flatMap_cons, frame, List.append_assoc,
          List.take_left' (BigEndian.length_encode ..), PipePoint.taken,
          List.take_left' four] at front
        rw [← front, unpackInt_encode small] at few
        omega

theorem Honesty.complete (honesty : queue.Honesty) (invariant : queue.Invariant)
    (found : queue.parties[party]? = some point) (eof : queue.eof = true)
    (empty : queue.pipe = []) {got : List UInt8} (unfinished : point.Unfinished got) :
    got = [] ∧ point.taken = [] ∧ queue.Complete := by
  obtain ⟨start, nothing, all⟩ := honesty.stream.all_received invariant found
    (honesty.whole.unsent_eq invariant eof) empty unfinished
  exact ⟨start, nothing, eof, empty, all⟩

theorem Complete.drained (complete : queue.Complete) (invariant : queue.Invariant) :
    queue.Drained := by
  obtain ⟨eof, empty, all⟩ := complete
  cases invariant.stream with
  | inr drained => exact drained
  | inl stream =>
      rw [Streams, all] at stream
      have nothing := List.self_eq_append_right.mp stream
      exact ⟨eof, empty, (List.append_eq_nil_iff.mp nothing).1⟩

theorem Turn.complete (turn : Turn capacity queue party point action next)
    (found : queue.parties[party]? = some point) (invariant : queue.Invariant)
    (complete : queue.Complete) : next.Complete := by
  have drained := complete.drained invariant
  obtain ⟨eof, empty, _⟩ := turn.drained found invariant drained
  refine ⟨eof, empty, ?_⟩
  obtain ⟨_, _, all⟩ := complete
  cases turn with
  | begins value buf later here free going written =>
      exact absurd (going.symm.trans drained.1) nofun
  | receives header got here whole =>
      subst here
      have four : header.length = 4 := (invariant.shaped party _ found).1
      have nothing := drained.2.2
      rw [SimpleQueue.taken, (invariant.reader party _ found).mp rfl, share_self found] at nothing
      rw [(List.append_eq_nil_iff.mp nothing).1] at four
      cases four
  | _ => exact all

theorem honest_set {parties : List PipePoint} {complete later : Prop} {new : PipePoint}
    (all : ∀ point ∈ parties, point.Honest complete) (more : complete → later)
    (mine : new.Honest later) : ∀ point ∈ parties.set party new, point.Honest later := by
  intro point member
  cases List.mem_or_eq_of_mem_set member with
  | inl old => exact Honest_mono more (all point old)
  | inr same => rw [same]; exact mine

theorem whole_set {parties : List PipePoint} {new : PipePoint}
    (all : ∀ point ∈ parties, point.isKilled = true → point.unsent = [])
    (mine : new.isKilled = true → new.unsent = []) :
    ∀ point ∈ parties.set party new, point.isKilled = true → point.unsent = [] := by
  intro point member
  cases List.mem_or_eq_of_mem_set member with
  | inl old => exact all point old
  | inr same => rw [same]; exact mine

theorem whole_calm {parties : List PipePoint} {new : PipePoint}
    (all : ∀ point ∈ parties, point.isKilled = true → point.unsent = [])
    (calm : new.isKilled = false) :
    ∀ point ∈ parties.set party new, point.isKilled = true → point.unsent = [] :=
  whole_set all fun killed => absurd (calm.symm.trans killed) Bool.false_ne_true

theorem Turn.honesty (turn : Turn capacity queue party point action next)
    (found : queue.parties[party]? = some point) (invariant : queue.Invariant)
    (spared : action = .kill → point.unsent = []) (honesty : queue.Honesty) : next.Honesty := by
  have member := List.mem_of_getElem? found
  have own := honesty.honest point member
  have more := turn.complete found invariant
  have stream : next.Streams := by
    obtain kept | ⟨got, eof, empty, unfinished, rfl⟩ :=
      turn.streams found invariant honesty.stream
    · exact kept
    · have mine := (invariant.reader party point found).mp unfinished.quiet.1
      obtain ⟨_, nothing, _⟩ := honesty.complete invariant found eof empty unfinished
      have before := honesty.stream
      unfold Streams SimpleQueue.taken SimpleQueue.unsent at before ⊢
      simp only [move, mine, share_self found, share_set found, nothing] at before ⊢
      rw [share_kept found PipePoint.unsent (.unlockingRead _)
        (PipePoint.unsent_of_not_writes unfinished.quiet.2).symm]
      exact before
  cases turn with
  | stays new writes reads unsent taken shape calm alive honest =>
      exact ⟨whole_calm honesty.whole alive, stream,
        honest_set honesty.honest more (honest _)⟩
  | kills =>
      exact ⟨whole_set honesty.whole fun _ => spared rfl, stream,
        honest_set honesty.honest more (Honest_mono more own)⟩
  | refuses error value here free reason =>
      exact ⟨whole_calm honesty.whole rfl, stream, honest_set honesty.honest more reason⟩
  | begins value buf later here free going written =>
      exact ⟨whole_calm honesty.whole rfl, stream, honest_set honesty.honest more trivial⟩
  | writes buf chunk later new here goes unsent shape honest =>
      exact ⟨whole_calm honesty.whole goes.2.2, stream,
        honest_set honesty.honest more (honest _)⟩
  | unlocksWrite outcome here =>
      subst here
      refine ⟨whole_calm honesty.whole rfl, stream, honest_set honesty.honest more ?_⟩
      cases outcome with
      | raised error => exact .inr own
      | _ => trivial
  | locksRead here free =>
      exact ⟨whole_calm honesty.whole rfl, stream, honest_set honesty.honest more trivial⟩
  | reads chunk pipe new reads goes bytes taken shape honest =>
      exact ⟨whole_calm honesty.whole goes.2.2.2, stream,
        honest_set honesty.honest more (honest _)⟩
  | ends got eof empty unfinished =>
      obtain ⟨rfl, _, complete⟩ := honesty.complete invariant found eof empty unfinished
      exact ⟨whole_calm honesty.whole rfl, stream,
        honest_set honesty.honest more ⟨rfl, more complete⟩⟩
  | receives header got here whole =>
      exact ⟨whole_calm honesty.whole rfl, stream, honest_set honesty.honest more trivial⟩
  | unlocksRead outcome here =>
      subst here
      refine ⟨whole_calm honesty.whole rfl, stream, honest_set honesty.honest more ?_⟩
      cases outcome with
      | raised error => exact .inl (Honest_mono more own)
      | _ => trivial
  | closes calm =>
      exact ⟨honesty.whole, stream,
        fun point member => Honest_mono more (honesty.honest point member)⟩

/-- Nobody is killed in the middle of a message it is writing. -/
def Spared (queue : SimpleQueue) (label : Nat × PipeAction) : Prop :=
  label.2 = .kill → ∀ point, queue.parties[label.1]? = some point → point.unsent = []

instance (queue : SimpleQueue) (label : Nat × PipeAction) : Decidable (Spared queue label) :=
  decidable_of_iff
    (label.2 = .kill → (queue.parties[label.1]?.all fun point => point.unsent = []) = true)
    (by simp only [Spared, Option.all_eq_true, decide_eq_true_eq])

theorem honesty_of_run {parties : Nat}
    (ran : run (step capacity) (init parties) labels = some last)
    (along : Along (step capacity) Spared (init parties) labels) : last.Honesty := by
  have kept : Preserves (step capacity) Spared fun queue => queue.Invariant ∧ queue.Honesty := by
    rintro queue ⟨party, action⟩ next ⟨invariant, honesty⟩ spared taken
    obtain ⟨point, found, turn⟩ := step_turn taken
    exact ⟨turn.invariant found invariant,
      turn.honesty found invariant (fun called => spared called point found) honesty⟩
  have start : (init parties).Honesty := by
    have outside : ∀ point ∈ (init parties).parties, point = .outside .returned :=
      fun point => List.eq_of_mem_replicate
    refine ⟨fun point member => ?_, rfl, fun point member => ?_⟩
    · rw [outside point member]
      nofun
    · rw [outside point member]
      trivial
  exact (invariant_along kept ⟨invariant_init parties, start⟩ along ran).2

theorem buffers_eq_none {value : List UInt8} (none_ : buffers value = none) :
    2 ^ 31 ≤ value.length := by
  have packed := Option.map_eq_none_iff.mp none_
  unfold packInt at packed
  split at packed
  · cases packed
  · exact Nat.le_of_not_lt ‹_›

/-- Where a party is after one `os.read`. -/
theorem read_point {remaining : Nat} {got : List UInt8} {new : List UInt8 → PipePoint}
    (found : queue.parties[party]? = some point)
    (read : queue.read party n remaining got new = some next) :
    next.parties[party]? = some (.unlockingRead (.raised (endError got))) ∨
      ∃ got, next.parties[party]? = some (new got) := by
  unfold SimpleQueue.read at read
  split at read
  · split at read
    · cases read
      exact .inl (Tally.getElem?_set_found found _)
    · cases read
  · cases read
    exact .inr ⟨_, Tally.getElem?_set_found found _⟩

/-- Where a step of a party can lead, as far as something is raised. -/
inductive Leads (queue : SimpleQueue) : PipePoint → PipePoint → Prop where
  | closed (value : List UInt8) (eof : queue.eof = true) :
      Leads queue (.lockingWrite value) (.unlockingWrite (.raised (.osError "handle is closed")))
  | tooLong (value : List UInt8) (long : 2 ^ 31 ≤ value.length) :
      Leads queue (.lockingWrite value) (.unlockingWrite (.raised .structError))
  | unlocksWrite (outcome : PayloadOutcome) :
      Leads queue (.unlockingWrite outcome) (.outside outcome)
  | unlocksRead (outcome : PayloadOutcome) :
      Leads queue (.unlockingRead outcome) (.outside outcome)
  | goes (old new : PipePoint) (calm : ∀ error, new ≠ .unlockingWrite (.raised error) ∧
      new ≠ .outside (.raised error)) : Leads queue old new

theorem advance_leads (advanced : queue.advance capacity party n point = some next)
    (found : queue.parties[party]? = some point) :
    ∃ new, next.parties[party]? = some new ∧ Leads queue point new := by
  have lands : ∀ new : PipePoint, (queue.parties.set party new)[party]? = some new :=
    Tally.getElem?_set_found found
  cases point with
  | outside outcome => cases advanced
  | killed inner => cases advanced
  | lockingWrite value =>
      simp only [advance] at advanced
      split at advanced
      · cases advanced
      · split at advanced
        · rename_i eof
          cases advanced
          exact ⟨_, lands _, .closed value eof⟩
        · split at advanced
          · rename_i long
            cases advanced
            exact ⟨_, lands _, .tooLong value (buffers_eq_none long)⟩
          · cases advanced
            exact ⟨_, lands _, .goes _ _ fun _ => ⟨by simp, by simp⟩⟩
  | sending buf later =>
      simp only [advance] at advanced
      split at advanced
      · split at advanced <;> cases advanced <;>
          exact ⟨_, lands _, .goes _ _ fun _ => ⟨by simp, by simp⟩⟩
      · cases advanced
  | unlockingWrite outcome =>
      cases advanced
      exact ⟨_, lands _, .unlocksWrite outcome⟩
  | lockingRead =>
      simp only [advance] at advanced
      split at advanced <;> cases advanced
      exact ⟨_, lands _, .goes _ _ fun _ => ⟨by simp, by simp⟩⟩
  | readingHeader got =>
      simp only [advance] at advanced
      split at advanced
      · obtain here | ⟨_, here⟩ := read_point found advanced <;>
          exact ⟨_, here, .goes _ _ fun _ => ⟨by simp, by simp⟩⟩
      · cases advanced
        exact ⟨_, lands _, .goes _ _ fun _ => ⟨by simp, by simp⟩⟩
  | readingBody header got =>
      simp only [advance] at advanced
      split at advanced
      · obtain here | ⟨_, here⟩ := read_point found advanced <;>
          exact ⟨_, here, .goes _ _ fun _ => ⟨by simp, by simp⟩⟩
      · cases advanced
        exact ⟨_, lands _, .goes _ _ fun _ => ⟨by simp, by simp⟩⟩
  | unlockingRead outcome =>
      cases advanced
      exact ⟨_, lands _, .unlocksRead outcome⟩

theorem leads_of_step {new : PipePoint}
    (taken : step capacity queue (party, .advance n) = some next)
    (here : next.parties[party]? = some new) :
    ∃ point, queue.parties[party]? = some point ∧ Leads queue point new := by
  unfold step at taken
  simp only at taken
  split at taken
  · cases taken
  · rename_i point found
    obtain ⟨_, there, leads⟩ := advance_leads taken found
    cases here.symm.trans there
    exact ⟨point, found, leads⟩

/-- What a call raises tells the truth.  A `get` raises only when every message that was sent has
been received and no more can come, and never in the middle of a message; a `put` raises only for a
message too long for its header or a closed handle, and not what a `get` raises. -/
theorem raises_honestly {parties : Nat}
    (ran : run (step capacity) (init parties) labels = some last)
    (along : Along (step capacity) Spared (init parties) labels) :
    (∀ error, PipePoint.unlockingRead (.raised error) ∈ last.parties →
      error = .eofError ∧ last.eof = true ∧ last.pipe = [] ∧ last.received = last.frames) ∧
    (∀ party n next error, step capacity last (party, .advance n) = some next →
      next.parties[party]? = some (.unlockingWrite (.raised error)) →
      ∃ value, last.parties[party]? = some (.lockingWrite value) ∧
        (error = .structError ∧ 2 ^ 31 ≤ value.length ∨
          error = .osError "handle is closed" ∧ last.eof = true)) ∧
    ∀ party n next error, step capacity last (party, .advance n) = some next →
      next.parties[party]? = some (.outside (.raised error)) →
      last.parties[party]? = some (.unlockingRead (.raised error)) ∨
        last.parties[party]? = some (.unlockingWrite (.raised error)) := by
  refine ⟨?_, ?_, ?_⟩
  · intro error raised
    obtain ⟨rfl, eof, empty, all⟩ := (honesty_of_run ran along).honest _ raised
    exact ⟨rfl, eof, empty, all⟩
  · intro party n next error taken raised
    obtain ⟨_, found, leads⟩ := leads_of_step taken raised
    cases leads with
    | closed value eof => exact ⟨value, found, .inr ⟨rfl, eof⟩⟩
    | tooLong value long => exact ⟨value, found, .inl ⟨rfl, long⟩⟩
    | goes _ _ calm => exact absurd rfl (calm error).1
  · intro party n next error taken raised
    obtain ⟨_, found, leads⟩ := leads_of_step taken raised
    cases leads with
    | unlocksWrite outcome => exact .inr found
    | unlocksRead outcome => exact .inl found
    | goes _ _ calm => exact absurd rfl (calm error).2

/-- The reader dies of a signal when it has the message, and another one reads on to the end. -/
def outlived : List (Nat × PipeAction) :=
  conversation ++ [(1, .advance 0), (1, .advance 0), (1, .advance 0), (1, .kill), (0, .advance 0),
    (0, .closeWriters), (0, .get), (0, .advance 0), (0, .advance 0), (0, .advance 0)]

theorem raises_honestly_outlived :
    ∃ last, run (step 4) (init 2) outlived.dropLast = some last ∧
      last.parties[0]? = some (.unlockingRead (.raised .eofError)) ∧
      last.received = last.frames := by
  have ran : run (step 4) (init 2) outlived.dropLast = some _ := rfl
  exact ⟨_, ran, rfl, ((raises_honestly ran (by decide)).1 .eofError (by decide)).2.2.2⟩

end SimpleQueue

namespace PipePoint

/-- The party is in `send_payload`. -/
def inPut : PipePoint → Bool
  | .lockingWrite _ | .sending .. | .unlockingWrite _ => true
  | _ => false

/-- The party is in `get_payload`. -/
def inGet : PipePoint → Bool
  | .lockingRead | .readingHeader _ | .readingBody .. | .unlockingRead _ => true
  | _ => false

end PipePoint

namespace SimpleQueue

/-- Why a party cannot go on. -/
def Blocked (capacity : Nat) (queue : SimpleQueue) : PipePoint → Prop
  | .lockingWrite _ => queue.writeLock ≠ none
  | .sending .. => capacity ≤ queue.pipe.length
  | .lockingRead => queue.readLock ≠ none
  | .readingHeader got => queue.pipe = [] ∧ got.length < 4
  | .readingBody header got => queue.pipe = [] ∧ got.length < unpackInt header
  | .unlockingWrite _ | .unlockingRead _ => False
  | .outside _ | .killed _ => True

theorem read_eq_none {remaining : Nat} {got : List UInt8} {new : List UInt8 → PipePoint}
    (stuck : queue.read party n remaining got new = none) : queue.pipe = [] := by
  unfold SimpleQueue.read at stuck
  split at stuck
  · assumption
  · cases stuck

theorem blocked_of_stuck (stuck : queue.advance capacity party n point = none) :
    Blocked capacity queue point := by
  cases point with
  | outside outcome => trivial
  | killed point => trivial
  | lockingWrite value =>
      simp only [advance] at stuck
      split at stuck
      · assumption
      · split at stuck
        · cases stuck
        · split at stuck <;> cases stuck
  | sending buf later =>
      simp only [advance] at stuck
      split at stuck
      · split at stuck <;> cases stuck
      · exact Nat.le_of_not_lt ‹_›
  | unlockingWrite outcome => cases stuck
  | lockingRead =>
      simp only [advance] at stuck
      split at stuck
      · assumption
      · cases stuck
  | readingHeader got =>
      simp only [advance] at stuck
      split at stuck
      · exact ⟨read_eq_none stuck, ‹_›⟩
      · cases stuck
  | readingBody header got =>
      simp only [advance] at stuck
      split at stuck
      · exact ⟨read_eq_none stuck, ‹_›⟩
      · cases stuck
  | unlockingRead outcome => cases stuck

/-- The parties that have a lock are there. -/
def Owned (queue : SimpleQueue) : Prop :=
  ∀ party, queue.writeLock = some party ∨ queue.readLock = some party →
    ∃ point, queue.parties[party]? = some point

theorem Turn.owned (turn : Turn capacity queue party point action next)
    (found : queue.parties[party]? = some point) (owned : queue.Owned) : next.Owned := by
  intro other holds
  have there : ∀ new : PipePoint, other = party ∨ (∃ point, queue.parties[other]? = some point) →
      ∃ point, (queue.parties.set party new)[other]? = some point := by
    intro new place
    by_cases same : other = party
    · exact ⟨new, by rw [same]; exact Tally.getElem?_set_found found new⟩
    · rw [List.getElem?_set_ne (Ne.symm same)]
      exact place.resolve_left same
  have mine : some party = some other → other = party := fun same => (Option.some.inj same).symm
  cases turn with
  | refuses error value here free reason =>
      exact there _ (holds.imp mine fun held => owned other (.inr held))
  | begins value buf later here free going written =>
      exact there _ (holds.imp mine fun held => owned other (.inr held))
  | unlocksWrite outcome here => exact there _ (.inr (owned other (holds.imp_left nofun)))
  | locksRead here free =>
      exact there _ (holds.symm.imp mine fun held => owned other (.inl held))
  | unlocksRead outcome here => exact there _ (.inr (owned other (holds.imp_right nofun)))
  | closes calm => exact owned other holds
  | _ => exact there _ (.inr (owned other holds))

theorem owned_of_run {parties : Nat}
    (ran : run (step capacity) (init parties) labels = some last) : last.Owned := by
  refine invariant_run ?_ ?_ ran
  · rintro queue ⟨party, action⟩ next owned taken
    obtain ⟨point, found, turn⟩ := step_turn taken
    exact turn.owned found owned
  · rintro party (held | held) <;> cases held

/-- Nobody is killed. -/
def Unharmed (_ : SimpleQueue) (label : Nat × PipeAction) : Prop := label.2 ≠ .kill

instance (queue : SimpleQueue) (label : Nat × PipeAction) : Decidable (queue.Unharmed label) :=
  inferInstanceAs (Decidable (_ ≠ _))

def Alive (queue : SimpleQueue) : Prop := ∀ point ∈ queue.parties, point.isKilled = false

theorem Turn.alive (turn : Turn capacity queue party point action next)
    (unharmed : action ≠ .kill) (alive : queue.Alive) : next.Alive := by
  have stored : ∀ {new : PipePoint}, new.isKilled = false →
      ∀ point ∈ queue.parties.set party new, point.isKilled = false := by
    intro new living point member
    cases List.mem_or_eq_of_mem_set member with
    | inl old => exact alive point old
    | inr same => rw [same]; exact living
  cases turn with
  | kills => exact absurd rfl unharmed
  | stays new writes reads unsent taken shape calm living honest => exact stored living
  | writes buf chunk later new here goes unsent shape honest => exact stored goes.2.2
  | reads chunk pipe new reads goes bytes taken shape honest => exact stored goes.2.2.2
  | closes calm => exact alive
  | _ => exact stored rfl

theorem alive_of_run {parties : Nat}
    (ran : run (step capacity) (init parties) labels = some last)
    (along : Along (step capacity) Unharmed (init parties) labels) : last.Alive := by
  have kept : Preserves (step capacity) Unharmed Alive := by
    rintro queue ⟨party, action⟩ next alive unharmed taken
    obtain ⟨point, found, turn⟩ := step_turn taken
    exact turn.alive unharmed alive
  refine invariant_along kept (fun point member => ?_) along ran
  rw [List.eq_of_mem_replicate member]
  rfl

/-- Nobody can go on with a call. -/
def Stuck (capacity : Nat) (queue : SimpleQueue) : Prop :=
  ∀ party n, step capacity queue (party, .advance n) = none

theorem Stuck.blocked (stuck : queue.Stuck capacity) (found : queue.parties[party]? = some point) :
    Blocked capacity queue point := by
  have advance := stuck party 0
  simp only [step, found] at advance
  exact blocked_of_stuck advance

/-- Who waits for `_wlock` waits for one who waits for room in the pipe. -/
theorem Stuck.full (stuck : queue.Stuck capacity) (invariant : queue.Invariant)
    (owned : queue.Owned) (alive : queue.Alive) (member : point ∈ queue.parties)
    (put : point.inPut = true) : capacity ≤ queue.pipe.length := by
  obtain ⟨party, found⟩ := List.getElem?_of_mem member
  have blocked := stuck.blocked found
  cases point with
  | lockingWrite value =>
      obtain ⟨holder, held⟩ := Option.ne_none_iff_exists'.mp blocked
      obtain ⟨point, there⟩ := owned holder (.inl held)
      have writes := (invariant.writer holder point there).mpr held
      have waits := stuck.blocked there
      have living := alive point (List.mem_of_getElem? there)
      cases point with
      | sending buf later => exact waits
      | unlockingWrite outcome => exact waits.elim
      | killed point => cases living
      | _ => cases writes
  | sending buf later => exact blocked
  | unlockingWrite outcome => exact blocked.elim
  | _ => cases put

/-- Who waits for `_rlock` waits for one who waits for bytes in the pipe. -/
theorem Stuck.empty (stuck : queue.Stuck capacity) (invariant : queue.Invariant)
    (owned : queue.Owned) (alive : queue.Alive) (member : point ∈ queue.parties)
    (get : point.inGet = true) :
    queue.pipe = [] ∧ ∃ (party : Nat) (point : PipePoint) (got : List UInt8),
      queue.parties[party]? = some point ∧ point.Unfinished got := by
  obtain ⟨party, found⟩ := List.getElem?_of_mem member
  have blocked := stuck.blocked found
  cases point with
  | lockingRead =>
      obtain ⟨holder, held⟩ := Option.ne_none_iff_exists'.mp blocked
      obtain ⟨point, there⟩ := owned holder (.inr held)
      have reads := (invariant.reader holder point there).mpr held
      have waits := stuck.blocked there
      have living := alive point (List.mem_of_getElem? there)
      cases point with
      | readingHeader got => exact ⟨waits.1, holder, _, got, there, .inl ⟨rfl, waits.2⟩⟩
      | readingBody header got =>
          exact ⟨waits.1, holder, _, got, there, .inr ⟨header, rfl, waits.2⟩⟩
      | unlockingRead outcome => exact waits.elim
      | killed point => cases living
      | _ => cases reads
  | readingHeader got => exact ⟨blocked.1, party, _, got, found, .inl ⟨rfl, blocked.2⟩⟩
  | readingBody header got =>
      exact ⟨blocked.1, party, _, got, found, .inr ⟨header, rfl, blocked.2⟩⟩
  | unlockingRead outcome => exact blocked.elim
  | _ => cases get

theorem unsent_of_no_put (invariant : queue.Invariant) (owned : queue.Owned)
    (alive : queue.Alive) (nobody : ∀ point ∈ queue.parties, point.inPut = false) :
    queue.unsent = [] := by
  unfold SimpleQueue.unsent
  cases held : queue.writeLock with
  | none => rfl
  | some holder =>
      obtain ⟨point, there⟩ := owned holder (.inl held)
      have writes := (invariant.writer holder point there).mpr held
      have member := List.mem_of_getElem? there
      have out := nobody point member
      have living := alive point member
      cases point with
      | sending buf later => cases out
      | unlockingWrite outcome => cases out
      | killed point => cases living
      | _ => cases writes

/-- The locks never keep anybody waiting: as long as nobody is killed, calls come to a standstill
only if they are puts with the pipe full, or gets with every message received. -/
theorem waits_only_for_the_pipe {parties : Nat} (positive : 0 < capacity)
    (ran : run (step capacity) (init parties) labels = some last)
    (along : Along (step capacity) Unharmed (init parties) labels) (stuck : last.Stuck capacity) :
    (∀ point ∈ last.parties, point.inPut = true →
        capacity ≤ last.pipe.length ∧ ∀ other ∈ last.parties, other.inGet = false) ∧
      ∀ point ∈ last.parties, point.inGet = true →
        last.received = last.frames ∧ ∀ other ∈ last.parties, other.inPut = false := by
  have invariant := invariant_of_run ran
  have owned := owned_of_run ran
  have alive := alive_of_run ran along
  have apart : ∀ point ∈ last.parties, ∀ other ∈ last.parties, point.inPut = true →
      other.inGet = true → False := by
    intro point member other beside put get
    have full := stuck.full invariant owned alive member put
    rw [(stuck.empty invariant owned alive beside get).1] at full
    exact Nat.not_lt.mpr full positive
  constructor
  · intro point member put
    refine ⟨stuck.full invariant owned alive member put, fun other beside => ?_⟩
    exact Bool.eq_false_iff.mpr fun get => apart point member other beside put get
  · intro point member get
    have nobody : ∀ other ∈ last.parties, other.inPut = false := fun other beside =>
      Bool.eq_false_iff.mpr fun put => apart other beside point member put get
    obtain ⟨empty, party, reader, got, found, unfinished⟩ :=
      stuck.empty invariant owned alive member get
    have spared : Along (step capacity) Spared (init parties) labels := by
      have kept : Preserves (step capacity) Unharmed fun _ => True := fun _ _ _ _ _ _ => trivial
      exact along_of_invariant kept (fun _ _ _ unharmed called => absurd called unharmed) trivial
        along
    have stream := (honesty_of_run ran spared).stream
    exact ⟨(stream.all_received invariant found
      (unsent_of_no_put invariant owned alive nobody) empty unfinished).2.2, nobody⟩

/-- Two writers, one of them in the middle of its message, and nobody to read it. -/
def crowded : List (Nat × PipeAction) :=
  [(0, .put [7, 9]), (1, .put [8]), (0, .advance 0), (0, .advance 9)]

theorem waits_only_for_the_pipe_crowded :
    ∃ last, run (step 4) (init 2) crowded = some last ∧ 4 ≤ last.pipe.length := by
  have ran : run (step 4) (init 2) crowded = some _ := rfl
  refine ⟨_, ran, ?_⟩
  refine ((waits_only_for_the_pipe (by decide) ran (by decide) ?_).1
    (.sending [7, 9] []) (by decide) rfl).1
  rintro (_ | _ | party) n <;> rfl

end SimpleQueue

end Billiard
