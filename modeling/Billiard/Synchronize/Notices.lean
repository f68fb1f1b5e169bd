import Mathlib.Logic.Function.Basic
import Billiard.Synchronize.Sleepers

/-! What the notifications of a condition do to its waits, read off a record that is
kept beside the condition and that none of its operations reads. -/

namespace Billiard

open Transition

/-- The condition when a notification returns; `asleep` are the waits that are still
asleep, `waits` is the number of those begun so far. -/
structure NoticeRecordEnd where
  condition : Condition
  waits : Nat
  asleep : List Nat

/-- A notification: the waits that were asleep when it was called, and those that
acquired `_wait_semaphore` when one of its posts was there to be acquired. -/
structure NoticeRecord where
  call : Notification
  sleepers : List Nat
  woken : List Nat
  returned : Option NoticeRecordEnd

/-- The waits and the notifications are numbered as they begin; `wait` and `notice` give
the last one of each party, `posts` the notifications of the posts that nobody has
acquired, and `answered` the waits that have returned `True`. -/
structure Chronicle where
  use : ConditionUse
  waits : Nat
  wait : Nat → Nat
  notices : List NoticeRecord
  notice : Nat → Nat
  posts : List Nat
  answered : List Nat

namespace Point

def call? : Point → Option Notification
  | .outside _ | .unlocking .. | .sleeping .. | .woken .. | .relocking .. => none
  | .draining call | .matching call => some call
  | .notifyPicking | .notifyPosting | .notifyAwaiting | .notifyRezeroing => some .notify
  | .allPicking _ | .allPosting _ | .allAwaiting .. | .allRezeroing => some .notifyAll

end Point

namespace Chronicle

def init (parties : Nat) : Chronicle where
  use := .init parties
  waits := 0
  wait := fun _ => 0
  notices := []
  notice := fun _ => 0
  posts := []
  answered := []

/-- The waits that are asleep in `_wait_semaphore.acquire`. -/
def asleep (wait : Nat → Nat) (parties : List Point) : List Nat :=
  (parties.zipIdx.filter fun entry => entry.1.asleep = 1).map fun entry => wait entry.2

/-- The posts that are there after a step of the party, which leaves `waitSemaphore`. -/
def postsAfter (chronicle : Chronicle) (party waitSemaphore : Nat) : List Nat :=
  if chronicle.use.condition.waitSemaphore < waitSemaphore then
    chronicle.posts ++ [chronicle.notice party]
  else chronicle.posts.take waitSemaphore

def record (chronicle : Chronicle) (party : Nat) (old new : Point) (next : ConditionUse) :
    Chronicle :=
  let posts := chronicle.postsAfter party next.condition.waitSemaphore
  match old.call?, new.call? with
  | none, some call => { chronicle with
      use := next
      posts
      notices := chronicle.notices ++
        [⟨call, asleep chronicle.wait chronicle.use.parties, [], none⟩]
      notice := Function.update chronicle.notice party chronicle.notices.length }
  | some _, none => { chronicle with
      use := next
      posts
      notices := chronicle.notices.mapIdx fun number notice =>
        if number = chronicle.notice party then
          { notice with
            returned := some ⟨next.condition, chronicle.waits,
              asleep chronicle.wait next.parties⟩ }
        else notice }
  | _, _ =>
      match old, new with
      | .outside _, .unlocking .. => { chronicle with
          use := next
          posts
          waits := chronicle.waits + 1
          wait := Function.update chronicle.wait party chronicle.waits }
      | .sleeping .., .woken _ true => { chronicle with
          use := next
          posts
          notices := chronicle.notices.mapIdx fun number notice =>
            if number ∈ chronicle.posts then
              { notice with woken := notice.woken ++ [chronicle.wait party] }
            else notice }
      | .relocking .., .outside (.returned (some true)) => { chronicle with
          use := next
          posts
          answered := chronicle.answered ++ [chronicle.wait party] }
      | _, _ => { chronicle with use := next, posts }

variable (kind : LockKind) (maxvalue : Nat)

def step (chronicle : Chronicle) (label : Nat × PartyAction) : Option Chronicle :=
  match chronicle.use.step kind maxvalue label with
  | none => none
  | some next =>
      match chronicle.use.parties[label.1]?, next.parties[label.1]? with
      | some old, some new => some (chronicle.record label.1 old new next)
      | _, _ => none

end Chronicle

namespace Point

/-- The party is in `wait`. -/
def waits : Point → Bool
  | .unlocking .. | .sleeping .. | .woken .. | .relocking .. => true
  | _ => false

/-- The wait of the party has acquired `_wait_semaphore`. -/
def told : Point → Bool
  | .woken _ result | .relocking _ _ result => result
  | _ => false

/-- A party that has been through the loop of `notify_all` over the sleepers. -/
def emptied : Point → Bool
  | .allAwaiting .. | .allRezeroing => true
  | _ => false

/-- The posts that a call of `notify` has made when it stands at the point. -/
def posted : Point → Nat
  | .notifyAwaiting | .notifyRezeroing => 1
  | _ => 0

theorem notifying_iff {point : Point} :
    point.notifying = true ↔ ∃ call, point.call? = some call := by
  cases point <;> simp [notifying, call?]

theorem call?_eq_none {point : Point} : point.call? = none ↔ point.notifying = false := by
  cases point <;> simp [notifying, call?]

/-- What an operation of a notification does to the posts and to `_sleeping_count`. -/
structure Turn (before : Condition) (announced : Nat) (old : Point) (after : Condition)
    (new : Point) : Prop where
  same : ∀ call, new.call? = some call → old.call? = some call
  posts : new.call? = some .notify →
    after.waitSemaphore + old.posted ≤ before.waitSemaphore + new.posted
  few : after.waitSemaphore ≤ before.waitSemaphore + 1
  emptied : new.emptied = true → after.sleepingCount = 0
  finished : new.call? = none → after.waitSemaphore = 0 ∧
    (old.call? = some .notifyAll →
      after.sleepingCount = 0 ∧ after.wokenCount = 0 ∧ announced = 0)

variable {condition after : Condition} {announced woken party maxvalue : Nat}
  {point new : Point} {kind : LockKind}

theorem Phase.turn (phase : point.Phase condition announced woken)
    (notifies : point.notifying = true) (room : point.Room maxvalue condition)
    (emptied : point.emptied = true → condition.sleepingCount = 0)
    (taken : point.advance kind maxvalue condition party = some (after, new)) :
    Turn condition announced point after new := by
  obtain ⟨lock, sleepingCount, wokenCount, waitSemaphore⟩ := condition
  cases point with
  | outside outcome => cases notifies
  | unlocking timed count i => cases notifies
  | sleeping timed count => cases notifies
  | woken count result => cases notifies
  | relocking count i result => cases notifies
  | draining call =>
      cases wokenCount with
      | zero =>
          cases taken
          cases call <;> constructor <;> simp [call?, posted, Point.emptied, picking]
      | succ wokenCount =>
          cases taken
          constructor <;> simp [call?, posted, Point.emptied]
  | matching call =>
      cases sleepingCount with
      | zero =>
          simp only [Phase] at phase
          omega
      | succ sleepingCount =>
          cases taken
          constructor <;> simp [call?, posted, Point.emptied]
  | notifyPicking =>
      cases sleepingCount with
      | zero =>
          cases taken
          have unposted : waitSemaphore = 0 := phase.1
          constructor <;> simp [call?, Point.emptied, returned, unposted]
      | succ sleepingCount =>
          cases taken
          constructor <;> simp [call?, posted, Point.emptied]
  | notifyPosting =>
      have below : waitSemaphore < maxvalue := room
      simp only [Point.advance, Semaphore.release_of_lt below] at taken
      cases taken
      constructor <;> simp [call?, posted, Point.emptied]
  | notifyAwaiting =>
      cases wokenCount with
      | zero => cases taken
      | succ wokenCount =>
          cases taken
          constructor <;> simp [call?, posted, Point.emptied]
  | notifyRezeroing =>
      cases waitSemaphore with
      | zero =>
          cases taken
          constructor <;> simp [call?, posted, Point.emptied, returned]
      | succ waitSemaphore =>
          cases taken
          simp only [Phase] at phase
          have single : waitSemaphore = 0 := by omega
          constructor <;> simp [call?, posted, Point.emptied, returned, single]
  | allPicking sleepers =>
      cases sleepingCount with
      | zero =>
          cases sleepers with
          | zero =>
              cases taken
              simp only [Phase] at phase
              constructor <;> simp [call?, Point.emptied, returned]
              omega
          | succ sleepers =>
              cases taken
              constructor <;> simp [call?]
      | succ sleepingCount =>
          cases taken
          constructor <;> simp [call?, Point.emptied]
  | allPosting sleepers =>
      have below : waitSemaphore < maxvalue := room
      simp only [Point.advance, Semaphore.release_of_lt below] at taken
      cases taken
      constructor <;> simp [call?, Point.emptied]
  | allAwaiting sleepers i =>
      have none_left : sleepingCount = 0 := emptied rfl
      cases wokenCount with
      | zero => cases taken
      | succ wokenCount =>
          cases Nat.decLt (i + 1) sleepers with
          | isTrue more =>
              simp only [Point.advance, Semaphore.acquire_succ, more, if_true] at taken
              cases taken
              constructor <;> simp [call?, none_left]
          | isFalse last =>
              simp only [Point.advance, Semaphore.acquire_succ, last, if_false] at taken
              cases taken
              constructor <;> simp [call?, none_left]
  | allRezeroing =>
      have none_left : sleepingCount = 0 := emptied rfl
      simp only [Phase] at phase
      cases waitSemaphore with
      | zero =>
          cases taken
          constructor <;> simp [call?, Point.emptied, returned]
          omega
      | succ waitSemaphore =>
          cases taken
          constructor <;> simp [call?, none_left]
          omega

theorem notifying_of_emptied {point : Point} (emptied : point.emptied = true) :
    point.notifying = true := by
  cases point <;> first | rfl | cases emptied

end Point

/-- A notification as it may stand in the record. -/
structure NoticeRecord.Kept (waits : Nat) (notice : NoticeRecord) : Prop where
  woken : ∀ wait ∈ notice.woken, wait < waits
  single : notice.call = .notify → notice.woken.length ≤ 1
  timely : ∀ last, notice.returned = some last →
    last.waits ≤ waits ∧ ∀ wait ∈ notice.woken, wait < last.waits
  emptied : notice.call = .notifyAll → ∀ last, notice.returned = some last →
    last.condition.sleepingCount = 0 ∧ last.condition.wokenCount = 0 ∧
      last.condition.waitSemaphore = 0 ∧ last.asleep = []

namespace Chronicle

open Point

/-- A notification that has not returned, while `posts` posts are there. -/
def InProgress (notices : List NoticeRecord) (number posts posted : Nat) (call : Notification) :
    Prop :=
  ∃ notice, notices[number]? = some notice ∧ notice.call = call ∧
    notice.returned = none ∧ (call = .notify → notice.woken.length + posts ≤ posted)

/-- Some notification has woken the wait. -/
def Heard (notices : List NoticeRecord) (wait : Nat) : Prop :=
  ∃ notice ∈ notices, wait ∈ notice.woken

structure Chronicled (chronicle : Chronicle) : Prop where
  accounted : chronicle.use.Invariant
  emptied : ∀ (party : Nat) (point : Point), chronicle.use.parties[party]? = some point →
    point.emptied = true → chronicle.use.condition.sleepingCount = 0
  posts : chronicle.posts.length = chronicle.use.condition.waitSemaphore
  posters : ∀ number ∈ chronicle.posts, ∃ party point,
    chronicle.use.parties[party]? = some point ∧ point.notifying = true ∧
      chronicle.notice party = number
  progress : ∀ (party : Nat) (point : Point) (call : Notification),
    chronicle.use.parties[party]? = some point → point.call? = some call →
      InProgress chronicle.notices (chronicle.notice party)
        chronicle.use.condition.waitSemaphore point.posted call
  notices : ∀ notice ∈ chronicle.notices, notice.Kept chronicle.waits
  begun : ∀ (party : Nat) (point : Point), chronicle.use.parties[party]? = some point →
    point.waits = true → chronicle.wait party < chronicle.waits
  heard : ∀ (party : Nat) (point : Point), chronicle.use.parties[party]? = some point →
    point.told = true → Heard chronicle.notices (chronicle.wait party)
  answered : ∀ wait ∈ chronicle.answered, Heard chronicle.notices wait

variable {chronicle : Chronicle} {party other : Nat} {old new point : Point}
  {condition : Condition}

theorem Chronicled.sole (chronicled : chronicle.Chronicled)
    (present : chronicle.use.parties[other]? = some point) (notifies : point.notifying = true)
    (mine : SemLock.isMine chronicle.use.condition.lock party = true) : other = party := by
  have held := (chronicled.accounted.fits other point present).mine notifies
  apply Decidable.byContradiction
  intro ne
  rw [SemLock.isMine_of_ne mine ne] at held
  cases held

/-- A step of a party that neither was nor is in a notification, and posts nothing. -/
theorem Chronicled.rest (chronicled : chronicle.Chronicled)
    (found : chronicle.use.parties[party]? = some old) (quiet : old.notifying = false)
    (still : new.notifying = false)
    (accounted : ConditionUse.Invariant ⟨condition, chronicle.use.parties.set party new⟩)
    (same : condition.waitSemaphore = chronicle.use.condition.waitSemaphore)
    (sleepers : condition.sleepingCount = chronicle.use.condition.sleepingCount ∨
      SemLock.isMine chronicle.use.condition.lock party = true)
    (begun : new.waits = true → chronicle.wait party < chronicle.waits)
    (heard : new.told = true → Heard chronicle.notices (chronicle.wait party)) :
    Chronicled { chronicle with use := ⟨condition, chronicle.use.parties.set party new⟩ } := by
  refine ⟨accounted, ?_, ?_, ?_, ?_, chronicled.notices, ?_, ?_, chronicled.answered⟩
  · intro other point present emptied
    have notifies := notifying_of_emptied emptied
    cases Tally.getElem?_set_cases present with
    | inl self =>
        rw [self.2, still] at notifies
        cases notifies
    | inr kept =>
        cases sleepers with
        | inl same => exact same.trans (chronicled.emptied other point kept.2 emptied)
        | inr mine => exact absurd (chronicled.sole kept.2 notifies mine) kept.1
  · exact chronicled.posts.trans same.symm
  · intro number posted
    obtain ⟨poster, point, present, notifies, made⟩ := chronicled.posters number posted
    have ne : poster ≠ party := by
      intro self
      rw [self, found] at present
      cases present
      rw [quiet] at notifies
      cases notifies
    refine ⟨poster, point, ?_, notifies, made⟩
    exact (List.getElem?_set_ne (Ne.symm ne)).trans present
  · intro other point call present calls
    cases Tally.getElem?_set_cases present with
    | inl self =>
        rw [self.2, call?_eq_none.mpr still] at calls
        cases calls
    | inr kept =>
        have progress := chronicled.progress other point call kept.2 calls
        rw [← same] at progress
        exact progress
  · exact Tally.forall_set begun fun other point _ kept => chronicled.begun other point kept
  · exact Tally.forall_set heard fun other point _ kept => chronicled.heard other point kept

/-- A step of the owner of the lock into, in, or out of a notification. -/
theorem Chronicled.own {posts : List Nat} (chronicled : chronicle.Chronicled)
    (found : chronicle.use.parties[party]? = some old)
    (mine : SemLock.isMine chronicle.use.condition.lock party = true)
    (accounted : ConditionUse.Invariant ⟨condition, chronicle.use.parties.set party new⟩)
    (length : posts.length = condition.waitSemaphore)
    (posters : ∀ number ∈ posts, new.notifying = true ∧ number = chronicle.notice party)
    (progress : ∀ call, new.call? = some call → InProgress chronicle.notices
      (chronicle.notice party) condition.waitSemaphore new.posted call)
    (emptied : new.emptied = true → condition.sleepingCount = 0)
    (unwaiting : new.waits = false) (untold : new.told = false) :
    Chronicled { chronicle with
      use := ⟨condition, chronicle.use.parties.set party new⟩
      posts } := by
  have alone : ∀ {other point}, (chronicle.use.parties.set party new)[other]? = some point →
      Point.notifying point = true → other = party ∧ point = new := by
    intro other point present notifies
    cases Tally.getElem?_set_cases present with
    | inl self => exact self
    | inr kept => exact absurd (chronicled.sole kept.2 notifies mine) kept.1
  refine ⟨accounted, ?_, length, ?_, ?_, chronicled.notices, ?_, ?_, chronicled.answered⟩
  · intro other point present empty
    obtain ⟨_, rfl⟩ := alone present (notifying_of_emptied empty)
    exact emptied empty
  · intro number posted
    obtain ⟨notifies, made⟩ := posters number posted
    exact ⟨party, new, Tally.getElem?_set_found found new, notifies, made.symm⟩
  · intro other point call present calls
    obtain ⟨rfl, rfl⟩ := alone present (notifying_iff.mpr ⟨call, calls⟩)
    exact progress call calls
  · refine Tally.forall_set (fun waits => ?_) fun other point _ kept =>
      chronicled.begun other point kept
    rw [unwaiting] at waits
    cases waits
  · refine Tally.forall_set (fun told => ?_) fun other point _ kept =>
      chronicled.heard other point kept
    rw [untold] at told
    cases told

theorem Heard.append {notices : List NoticeRecord} {wait : Nat} (heard : Heard notices wait)
    (notice : NoticeRecord) : Heard (notices ++ [notice]) wait := by
  obtain ⟨earlier, listed, woken⟩ := heard
  exact ⟨earlier, List.mem_append_left _ listed, woken⟩

theorem mem_mapIdx {notices : List NoticeRecord} {mark : Nat → NoticeRecord → NoticeRecord}
    {later : NoticeRecord} (listed : later ∈ notices.mapIdx mark) :
    ∃ number notice, notices[number]? = some notice ∧ later = mark number notice := by
  obtain ⟨number, present⟩ := List.getElem?_of_mem listed
  rw [List.getElem?_mapIdx] at present
  obtain ⟨notice, found, marked⟩ := Option.map_eq_some_iff.mp present
  exact ⟨number, notice, found, marked.symm⟩

theorem Heard.mapIdx {notices : List NoticeRecord} {wait : Nat} (heard : Heard notices wait)
    {mark : Nat → NoticeRecord → NoticeRecord}
    (kept : ∀ number notice, notice.woken ⊆ (mark number notice).woken) :
    Heard (notices.mapIdx mark) wait := by
  obtain ⟨notice, listed, woken⟩ := heard
  obtain ⟨number, found⟩ := List.getElem?_of_mem listed
  refine ⟨mark number notice, ?_, kept number notice woken⟩
  apply List.mem_of_getElem?
  rw [List.getElem?_mapIdx, found]
  rfl

theorem Chronicled.call (chronicled : chronicle.Chronicled)
    (found : chronicle.use.parties[party]? = some old) (quiet : old.notifying = false)
    (mine : SemLock.isMine chronicle.use.condition.lock party = true)
    (unposted : chronicle.use.condition.waitSemaphore = 0) (call : Notification)
    (sleepers : List Nat) :
    Chronicled { chronicle with
      notices := chronicle.notices ++ [⟨call, sleepers, [], none⟩]
      notice := Function.update chronicle.notice party chronicle.notices.length } := by
  refine ⟨chronicled.accounted, chronicled.emptied, chronicled.posts, ?_, ?_, ?_,
    chronicled.begun, ?_, ?_⟩
  · intro number posted
    have length := chronicled.posts
    rw [unposted, List.length_eq_zero_iff] at length
    rw [length] at posted
    cases posted
  · intro other point notification present calls
    have notifies := notifying_iff.mpr ⟨notification, calls⟩
    rw [chronicled.sole present notifies mine, found] at present
    cases present
    rw [quiet] at notifies
    cases notifies
  · intro notice listed
    cases List.mem_append.mp listed with
    | inl old => exact chronicled.notices notice old
    | inr new =>
        rw [List.mem_singleton.mp new]
        exact ⟨by simp, by simp, by simp, by simp⟩
  · exact fun other point present told => (chronicled.heard other point present told).append _
  · exact fun wait answered => (chronicled.answered wait answered).append _

theorem Chronicled.close {last : NoticeRecordEnd} (chronicled : chronicle.Chronicled)
    (quiet : chronicle.use.Quiet) (waits : last.waits = chronicle.waits)
    (empty : ∀ notice, chronicle.notices[chronicle.notice party]? = some notice →
      notice.call = .notifyAll → last.condition.sleepingCount = 0 ∧
        last.condition.wokenCount = 0 ∧ last.condition.waitSemaphore = 0 ∧ last.asleep = []) :
    Chronicled { chronicle with
      notices := chronicle.notices.mapIdx fun number notice =>
        if number = chronicle.notice party then { notice with returned := some last }
        else notice } := by
  have kept : ∀ (number : Nat) (notice : NoticeRecord), notice.woken ⊆ (if number =
      chronicle.notice party then { notice with returned := some last } else notice).woken := by
    intro number notice
    split <;> exact List.Subset.refl _
  refine ⟨chronicled.accounted, chronicled.emptied, chronicled.posts, chronicled.posters, ?_, ?_,
    chronicled.begun, ?_, ?_⟩
  · intro other point call present calls
    have still := quiet point (List.mem_of_getElem? present)
    rw [notifying_iff.mpr ⟨call, calls⟩] at still
    cases still
  · intro later listed
    obtain ⟨number, notice, found, rfl⟩ := mem_mapIdx listed
    have before := chronicled.notices notice (List.mem_of_getElem? found)
    split
    · rename_i same
      refine ⟨before.woken, before.single, ?_, ?_⟩
      · intro final returned
        cases returned
        rw [waits]
        exact ⟨Nat.le_refl _, before.woken⟩
      · intro all final returned
        cases returned
        exact empty notice (same ▸ found) all
    · exact before
  · exact fun other point present told => (chronicled.heard other point present told).mapIdx kept
  · exact fun wait answered => (chronicled.answered wait answered).mapIdx kept

theorem Chronicled.wake {timed : Bool} {count waitSemaphore : Nat}
    (chronicled : chronicle.Chronicled)
    (found : chronicle.use.parties[party]? = some (.sleeping timed count))
    (posted : chronicle.use.condition.waitSemaphore = waitSemaphore + 1)
    (accounted : ConditionUse.Invariant ⟨{ chronicle.use.condition with waitSemaphore },
      chronicle.use.parties.set party (.woken count true)⟩) :
    Chronicled { chronicle with
      use := ⟨{ chronicle.use.condition with waitSemaphore },
        chronicle.use.parties.set party (.woken count true)⟩
      posts := chronicle.posts.take waitSemaphore
      notices := chronicle.notices.mapIdx fun number notice =>
        if number ∈ chronicle.posts then
          { notice with woken := notice.woken ++ [chronicle.wait party] }
        else notice } := by
  have begun := chronicled.begun party _ found rfl
  have length := chronicled.posts
  have kept : ∀ (number : Nat) (notice : NoticeRecord), notice.woken ⊆
      (if number ∈ chronicle.posts then
        { notice with woken := notice.woken ++ [chronicle.wait party] } else notice).woken := by
    intro number notice
    split
    · exact List.subset_append_left _ _
    · exact List.Subset.refl _
  -- every post that is there was made by a notification still in progress
  have source : ∀ number ∈ chronicle.posts, ∃ call notice,
      chronicle.notices[number]? = some notice ∧ notice.call = call ∧
      notice.returned = none ∧ (call = .notify → notice.woken.length = 0) := by
    intro number member
    obtain ⟨poster, point, present, notifies, made⟩ := chronicled.posters number member
    obtain ⟨call, calls⟩ := notifying_iff.mp notifies
    obtain ⟨notice, listed, same, open_, few⟩ := chronicled.progress poster point call present calls
    refine ⟨call, notice, made ▸ listed, same, open_, ?_⟩
    intro single
    have bound := few single
    have most : point.posted ≤ 1 := by cases point <;> simp [Point.posted]
    omega
  refine ⟨accounted, ?_, ?_, ?_, ?_, ?_, ?_, ?_, ?_⟩
  · refine Tally.forall_set (fun emptied => ?_) fun other point _ kept =>
      chronicled.emptied other point kept
    cases emptied
  · rw [List.length_take, length, posted]
    exact Nat.min_eq_left (Nat.le_succ waitSemaphore)
  · intro number member
    obtain ⟨poster, point, present, notifies, made⟩ :=
      chronicled.posters number (List.mem_of_mem_take member)
    have ne : poster ≠ party := by
      intro self
      rw [self, found] at present
      cases present
      cases notifies
    exact ⟨poster, point, (List.getElem?_set_ne (Ne.symm ne)).trans present, notifies, made⟩
  · intro other point call present calls
    cases Tally.getElem?_set_cases present with
    | inl self =>
        rw [self.2] at calls
        cases calls
    | inr kept =>
        obtain ⟨notice, listed, same, open_, few⟩ :=
          chronicled.progress other point call kept.2 calls
        unfold InProgress
        rw [List.getElem?_mapIdx, listed]
        refine ⟨_, rfl, ?_⟩
        split
        · refine ⟨same, open_, fun single => ?_⟩
          have bound := few single
          rw [List.length_append, List.length_singleton]
          dsimp only
          omega
        · refine ⟨same, open_, fun single => ?_⟩
          have bound := few single
          dsimp only
          omega
  · intro later listed
    obtain ⟨number, notice, present, rfl⟩ := mem_mapIdx listed
    have before := chronicled.notices notice (List.mem_of_getElem? present)
    split
    · rename_i member
      obtain ⟨call, same, listed, calls, open_, fresh⟩ := source number member
      rw [present] at listed
      cases listed
      constructor
      · intro wait woken
        cases List.mem_append.mp woken with
        | inl old => exact before.woken wait old
        | inr new =>
            rw [List.mem_singleton.mp new]
            exact begun
      · intro single
        rw [List.length_append, fresh (calls ▸ single)]
        exact Nat.le_refl 1
      · intro last returned
        rw [open_] at returned
        cases returned
      · intro _ last returned
        rw [open_] at returned
        cases returned
    · exact before
  · exact Tally.forall_set (fun _ => begun) fun other point _ kept =>
      chronicled.begun other point kept
  · intro other point present told
    cases Tally.getElem?_set_cases present with
    | inl self =>
        cases posts : chronicle.posts with
        | nil =>
            rw [posts, posted] at length
            cases length
        | cons number rest =>
            obtain ⟨_, notice, listed, _⟩ := source number (by simp [posts])
            refine ⟨{ notice with woken := notice.woken ++ [chronicle.wait party] }, ?_, ?_⟩
            · apply List.mem_of_getElem?
              rw [List.getElem?_mapIdx, listed, Option.map_some, if_pos (List.mem_cons_self ..)]
            · rw [self.1]
              exact List.mem_append_right _ (List.mem_singleton_self _)
    | inr old => exact (chronicled.heard other point old.2 told).mapIdx kept
  · exact fun wait answered => (chronicled.answered wait answered).mapIdx kept

theorem postsAfter_same (chronicled : chronicle.Chronicled) {waitSemaphore : Nat}
    (same : waitSemaphore = chronicle.use.condition.waitSemaphore) :
    chronicle.postsAfter party waitSemaphore = chronicle.posts := by
  rw [postsAfter, if_neg (by omega), same, ← chronicled.posts, List.take_length]

theorem length_postsAfter (chronicled : chronicle.Chronicled) {waitSemaphore : Nat}
    (few : waitSemaphore ≤ chronicle.use.condition.waitSemaphore + 1) :
    (chronicle.postsAfter party waitSemaphore).length = waitSemaphore := by
  have length := chronicled.posts
  unfold postsAfter
  split
  · rw [List.length_append, List.length_singleton]
    omega
  · rw [List.length_take]
    omega

/-- The owner of the lock posts in its own name, and every other post is its own too. -/
theorem mem_postsAfter (chronicled : chronicle.Chronicled)
    (mine : SemLock.isMine chronicle.use.condition.lock party = true) {waitSemaphore number : Nat}
    (member : number ∈ chronicle.postsAfter party waitSemaphore) :
    number = chronicle.notice party := by
  have own : number ∈ chronicle.posts → number = chronicle.notice party := by
    intro member
    obtain ⟨poster, point, present, notifies, made⟩ := chronicled.posters number member
    rw [← made, chronicled.sole present notifies mine]
  unfold postsAfter at member
  split at member
  · cases List.mem_append.mp member with
    | inl old => exact own old
    | inr new => exact List.mem_singleton.mp new
  · exact own (List.mem_of_mem_take member)

theorem asleep_eq_nil {parties : List Point} (nobody : tally Point.announced parties = 0)
    (wait : Nat → Nat) : asleep wait parties = [] := by
  unfold asleep
  rw [List.map_eq_nil_iff, List.filter_eq_nil_iff]
  intro entry listed sleeps
  have silent := Tally.weight_eq_zero nobody (List.fst_mem_of_mem_zipIdx listed)
  generalize entry.1 = point at sleeps silent
  cases point <;> first | (cases silent; done) | cases sleeps

variable {kind : LockKind} {maxvalue : Nat}

/-- A step of a party that neither was nor is in a notification, as it is written down. -/
theorem Chronicled.record_rest (chronicled : chronicle.Chronicled)
    (found : chronicle.use.parties[party]? = some old) (quiet : old.notifying = false)
    (still : new.notifying = false)
    (accounted : ConditionUse.Invariant ⟨condition, chronicle.use.parties.set party new⟩)
    (same : condition.waitSemaphore = chronicle.use.condition.waitSemaphore)
    (sleepers : condition.sleepingCount = chronicle.use.condition.sleepingCount ∨
      SemLock.isMine chronicle.use.condition.lock party = true)
    (begun : new.waits = true → chronicle.wait party < chronicle.waits)
    (heard : new.told = true → Heard chronicle.notices (chronicle.wait party))
    (plain : chronicle.record party old new ⟨condition, chronicle.use.parties.set party new⟩ =
      { chronicle with
        use := ⟨condition, chronicle.use.parties.set party new⟩
        posts := chronicle.postsAfter party condition.waitSemaphore }) :
    (chronicle.record party old new
      ⟨condition, chronicle.use.parties.set party new⟩).Chronicled := by
  rw [plain, postsAfter_same chronicled same]
  exact chronicled.rest found quiet still accounted same sleepers begun heard

theorem Chronicled.record_idle (chronicled : chronicle.Chronicled)
    (found : chronicle.use.parties[party]? = some old) (quiet : old.notifying = false)
    (idle : new.notifying = false ∧ new.waits = false ∧ new.told = false)
    (accounted : ConditionUse.Invariant ⟨condition, chronicle.use.parties.set party new⟩)
    (same : condition.waitSemaphore = chronicle.use.condition.waitSemaphore)
    (sleepers : condition.sleepingCount = chronicle.use.condition.sleepingCount)
    (plain : chronicle.record party old new ⟨condition, chronicle.use.parties.set party new⟩ =
      { chronicle with
        use := ⟨condition, chronicle.use.parties.set party new⟩
        posts := chronicle.postsAfter party condition.waitSemaphore }) :
    (chronicle.record party old new
      ⟨condition, chronicle.use.parties.set party new⟩).Chronicled :=
  chronicled.record_rest found quiet idle.1 accounted same (.inl sleepers)
    (fun waits => absurd waits (ne_true_of_eq_false idle.2.1))
    (fun told => absurd told (ne_true_of_eq_false idle.2.2)) plain

theorem Chronicled.advance_own (chronicled : chronicle.Chronicled)
    (found : chronicle.use.parties[party]? = some old) (notifies : old.notifying = true)
    (room : old.Room maxvalue chronicle.use.condition)
    (accounted : ConditionUse.Invariant ⟨condition, chronicle.use.parties.set party new⟩)
    (taken : old.advance kind maxvalue chronicle.use.condition party = some (condition, new)) :
    (chronicle.record party old new
      ⟨condition, chronicle.use.parties.set party new⟩).Chronicled := by
  have mine := (chronicled.accounted.fits party old found).mine notifies
  have phase := chronicled.accounted.phase_of_mine found mine
  have turn := phase.turn notifies room (chronicled.emptied party old found) taken
  obtain ⟨_, stays, _⟩ := phase.advance notifies room taken
  obtain ⟨call, calls⟩ := notifying_iff.mp notifies
  obtain ⟨notice, listed, same, open_, few⟩ := chronicled.progress party old call found calls
  have unwaiting : new.waits = false ∧ new.told = false := by
    cases stays with
    | inl notifies => cases new <;> first | exact ⟨rfl, rfl⟩ | cases notifies
    | inr returned =>
        rw [returned]
        exact ⟨rfl, rfl⟩
  have length : (chronicle.postsAfter party condition.waitSemaphore).length =
      condition.waitSemaphore := length_postsAfter chronicled turn.few
  have posters : ∀ number ∈ chronicle.postsAfter party condition.waitSemaphore,
      new.notifying = true ∧ number = chronicle.notice party := by
    intro number member
    refine ⟨?_, mem_postsAfter chronicled mine member⟩
    cases stays with
    | inl notifies => exact notifies
    | inr returned =>
        have unposted := (turn.finished (by rw [returned]; rfl)).1
        rw [unposted, List.length_eq_zero_iff] at length
        rw [unposted, length] at member
        cases member
  have progress : ∀ call, new.call? = some call → InProgress chronicle.notices
      (chronicle.notice party) condition.waitSemaphore new.posted call := by
    intro continued continues
    have started := turn.same continued continues
    rw [calls] at started
    cases started
    refine ⟨notice, listed, same, open_, fun single => ?_⟩
    have before := few single
    have after := turn.posts (single ▸ continues)
    omega
  have moved := chronicled.own found mine accounted length posters progress turn.emptied
    unwaiting.1 unwaiting.2
  cases stays with
  | inl continues =>
      obtain ⟨continued, continues⟩ := notifying_iff.mp continues
      have plain : chronicle.record party old new ⟨condition, chronicle.use.parties.set party new⟩ =
          { chronicle with
            use := ⟨condition, chronicle.use.parties.set party new⟩
            posts := chronicle.postsAfter party condition.waitSemaphore } := by
        unfold record
        rw [calls, continues]
        cases old <;> first | rfl | cases calls
      rw [plain]
      exact moved
  | inr returned =>
      have left : new.call? = none := by
        rw [returned]
        rfl
      have closed : chronicle.record party old new
          ⟨condition, chronicle.use.parties.set party new⟩ = { chronicle with
            use := ⟨condition, chronicle.use.parties.set party new⟩
            posts := chronicle.postsAfter party condition.waitSemaphore
            notices := chronicle.notices.mapIdx fun number notice =>
              if number = chronicle.notice party then
                { notice with
                  returned := some ⟨condition, chronicle.waits,
                    asleep chronicle.wait (chronicle.use.parties.set party new)⟩ }
              else notice } := by
        unfold record
        rw [calls, left]
      rw [closed]
      apply moved.close
      · intro point member
        obtain ⟨other, present⟩ := List.getElem?_of_mem member
        cases Tally.getElem?_set_cases present with
        | inl self =>
            rw [self.2]
            exact call?_eq_none.mp left
        | inr kept =>
            cases busy : point.notifying with
            | false => rfl
            | true => exact absurd (chronicled.sole kept.2 busy mine) kept.1
      · rfl
      · intro ended present all
        have equal := present.symm.trans listed
        cases equal
        obtain ⟨unposted, empty⟩ := turn.finished left
        rw [same] at all
        obtain ⟨sleeping, woken, nobody⟩ := empty (all ▸ calls)
        have still : tally Point.announced (chronicle.use.parties.set party new) = 0 := by
          have totals := Tally.tally_set Point.announced found new
          have silent : new.announced = 0 := by
            rw [returned]
            rfl
          have before : tally Point.announced chronicle.use.parties = 0 := nobody
          omega
        exact ⟨sleeping, woken, unposted, asleep_eq_nil still _⟩

theorem Chronicled.begin (chronicled : chronicle.Chronicled)
    (found : chronicle.use.parties[party]? = some old) (unwaiting : old.waits = false)
    (untold : old.told = false) :
    Chronicled { chronicle with
      waits := chronicle.waits + 1
      wait := Function.update chronicle.wait party chronicle.waits } := by
  refine ⟨chronicled.accounted, chronicled.emptied, chronicled.posts, chronicled.posters,
    chronicled.progress, ?_, ?_, ?_, chronicled.answered⟩
  · intro notice listed
    have before := chronicled.notices notice listed
    refine ⟨?_, before.single, ?_, before.emptied⟩
    · exact fun wait woken => Nat.lt_succ_of_lt (before.woken wait woken)
    · intro last returned
      obtain ⟨earlier, woken⟩ := before.timely last returned
      exact ⟨Nat.le_succ_of_le earlier, woken⟩
  · intro other point present waits
    have ne : other ≠ party := by
      intro same
      rw [same, found] at present
      cases present
      rw [unwaiting] at waits
      cases waits
    dsimp only
    rw [Function.update_of_ne ne]
    exact Nat.lt_succ_of_lt (chronicled.begun other point present waits)
  · intro other point present told
    have ne : other ≠ party := by
      intro same
      rw [same, found] at present
      cases present
      rw [untold] at told
      cases told
    dsimp only
    rw [Function.update_of_ne ne]
    exact chronicled.heard other point present told

theorem Chronicled.answer {wait : Nat} (chronicled : chronicle.Chronicled)
    (heard : Heard chronicle.notices wait) :
    Chronicled { chronicle with answered := chronicle.answered ++ [wait] } := by
  refine { chronicled with answered := ?_ }
  intro other listed
  cases List.mem_append.mp listed with
  | inl old => exact chronicled.answered other old
  | inr new =>
      rw [List.mem_singleton.mp new]
      exact heard

theorem Chronicled.wait {outcome : MethodOutcome} {timed : Bool}
    (chronicled : chronicle.Chronicled)
    (found : chronicle.use.parties[party]? = some (.outside outcome))
    (accounted : ConditionUse.Invariant ⟨condition, chronicle.use.parties.set party new⟩)
    (called : Point.wait maxvalue chronicle.use.condition party timed = (condition, new)) :
    (chronicle.record party (.outside outcome) new
      ⟨condition, chronicle.use.parties.set party new⟩).Chronicled := by
  cases mine : SemLock.isMine chronicle.use.condition.lock party with
  | true =>
      obtain ⟨again, held⟩ := SemLock.isMine_iff.mp mine
      simp only [Point.wait, held, if_true] at called
      split at called
      · cases called
        exact chronicled.record_idle found rfl ⟨rfl, rfl, rfl⟩ accounted rfl rfl rfl
      · cases called
        simp only [record, call?, postsAfter_same chronicled rfl]
        refine (chronicled.begin found rfl rfl).rest found rfl rfl accounted rfl (.inr mine) ?_
          Bool.false_ne_true.elim
        intro _
        dsimp only
        rw [Function.update_self]
        exact Nat.lt_succ_self _
  | false =>
      have refused : (condition, new) = (chronicle.use.condition,
          raised (.sem (.assertionError "must acquire() condition before using wait()"))) := by
        rw [← called]
        unfold Point.wait
        cases held : chronicle.use.condition.lock with
        | none => rfl
        | some hold =>
            have ne : hold.owner ≠ party := by simpa [held, SemLock.isMine] using mine
            simp only [ne, if_false]
      cases refused
      exact chronicled.record_idle found rfl ⟨rfl, rfl, rfl⟩ accounted rfl rfl rfl

theorem Chronicled.notification {outcome : MethodOutcome} {call : Notification}
    (chronicled : chronicle.Chronicled)
    (found : chronicle.use.parties[party]? = some (.outside outcome))
    (accounted : ConditionUse.Invariant ⟨condition, chronicle.use.parties.set party new⟩)
    (called : Point.notification chronicle.use.condition party call = (condition, new)) :
    (chronicle.record party (.outside outcome) new
      ⟨condition, chronicle.use.parties.set party new⟩).Chronicled := by
  cases mine : SemLock.isMine chronicle.use.condition.lock party with
  | true =>
      have unposted : chronicle.use.condition.waitSemaphore = 0 :=
        (chronicled.accounted.phase_of_mine found mine).1
      have length := chronicled.posts
      simp only [Point.notification, mine, if_true, unposted, Semaphore.acquire_zero] at called
      cases called
      simp only [record, call?, postsAfter_same chronicled rfl]
      have opened := chronicled.call found rfl mine unposted call
        (asleep chronicle.wait chronicle.use.parties)
      refine opened.own found mine accounted length ?_ ?_ Bool.false_ne_true.elim rfl rfl
      · intro number member
        rw [unposted, List.length_eq_zero_iff] at length
        rw [length] at member
        cases member
      · intro continued calls
        cases calls
        refine ⟨⟨call, asleep chronicle.wait chronicle.use.parties, [], none⟩, ?_, rfl, rfl, ?_⟩
        · dsimp only
          rw [Function.update_self, List.getElem?_concat_length]
        · intro _
          rw [unposted]
          exact Nat.le_refl 0
  | false =>
      simp only [Point.notification, mine, Bool.false_eq_true, if_false] at called
      cases called
      exact chronicled.record_idle found rfl ⟨rfl, rfl, rfl⟩ accounted rfl rfl rfl

theorem Chronicled.advance (chronicled : chronicle.Chronicled)
    (found : chronicle.use.parties[party]? = some old)
    (room : old.Room maxvalue chronicle.use.condition)
    (accounted : ConditionUse.Invariant ⟨condition, chronicle.use.parties.set party new⟩)
    (taken : old.advance kind maxvalue chronicle.use.condition party = some (condition, new)) :
    (chronicle.record party old new
      ⟨condition, chronicle.use.parties.set party new⟩).Chronicled := by
  cases notifies : old.notifying with
  | true => exact chronicled.advance_own found notifies room accounted taken
  | false =>
      have begun := chronicled.begun party old found
      have heard := chronicled.heard party old found
      cases old with
      | outside outcome => cases taken
      | unlocking timed count i =>
          simp only [Point.advance] at taken
          split at taken
          · cases taken
            exact chronicled.record_idle found rfl ⟨rfl, rfl, rfl⟩ accounted rfl rfl rfl
          · cases taken
            cases Nat.decLt (i + 1) count with
            | isTrue more =>
                simp only [more, if_true] at accounted ⊢
                exact chronicled.record_rest found rfl rfl accounted rfl (.inl rfl)
                  (fun _ => begun rfl) Bool.false_ne_true.elim rfl
            | isFalse last =>
                simp only [last, if_false] at accounted ⊢
                exact chronicled.record_rest found rfl rfl accounted rfl (.inl rfl)
                  (fun _ => begun rfl) Bool.false_ne_true.elim rfl
      | sleeping timed count =>
          cases posted : chronicle.use.condition.waitSemaphore with
          | zero =>
              simp only [Point.advance, posted, Semaphore.acquire_zero] at taken
              cases taken
          | succ waitSemaphore =>
              simp only [Point.advance, posted, Semaphore.acquire_succ] at taken
              cases taken
              have fewer : chronicle.postsAfter party waitSemaphore =
                  chronicle.posts.take waitSemaphore := if_neg (by omega)
              simp only [record, call?, fewer]
              exact chronicled.wake found posted accounted
      | woken count result =>
          have below : chronicle.use.condition.wokenCount < maxvalue := room
          simp only [Point.advance, Semaphore.release_of_lt below] at taken
          cases taken
          exact chronicled.record_rest found rfl rfl accounted rfl (.inl rfl)
            (fun _ => begun rfl) heard rfl
      | relocking count i result =>
          cases acquired : SemLock.acquire kind chronicle.use.condition.lock party with
          | none =>
              simp only [Point.advance, acquired] at taken
              cases taken
          | some hold =>
              simp only [Point.advance, acquired] at taken
              cases taken
              cases Nat.decLt (i + 1) count with
              | isTrue more =>
                  simp only [more, if_true] at accounted ⊢
                  exact chronicled.record_rest found rfl rfl accounted rfl (.inl rfl)
                    (fun _ => begun rfl) heard rfl
              | isFalse last =>
                  simp only [last, if_false] at accounted ⊢
                  cases result with
                  | false =>
                      exact chronicled.record_idle found rfl ⟨rfl, rfl, rfl⟩ accounted rfl rfl rfl
                  | true =>
                      simp only [record, call?, Point.returned, postsAfter_same chronicled rfl]
                      exact (chronicled.rest found rfl rfl accounted rfl (.inl rfl)
                        Bool.false_ne_true.elim Bool.false_ne_true.elim).answer (heard rfl)
      | _ => cases notifies

theorem Chronicled.step {next : Chronicle} {action : PartyAction}
    (chronicled : chronicle.Chronicled) (spare : chronicle.use.Spare maxvalue)
    (taken : chronicle.step kind maxvalue (party, action) = some next) : next.Chronicled := by
  unfold Chronicle.step at taken
  cases stepped : chronicle.use.step kind maxvalue (party, action) with
  | none =>
      rw [stepped] at taken
      cases taken
  | some use =>
      have room {point : Point} (found : chronicle.use.parties[party]? = some point) :
          point.Room maxvalue chronicle.use.condition := spare.room chronicled.accounted found
      have accounted := chronicled.accounted.step (fun _ => room) stepped
      obtain ⟨old, new, found, acted, parties⟩ := ConditionUse.step_cases stepped
      obtain ⟨condition, _⟩ := use
      cases parties
      rw [stepped] at taken
      simp only [found, Tally.getElem?_set_found found _, Option.some.injEq] at taken
      rw [← taken]
      unfold Point.act at acted
      split at acted
      · split at acted
        · cases acted
        · cases acted
          exact chronicled.record_idle found rfl ⟨rfl, rfl, rfl⟩ accounted rfl rfl rfl
      · split at acted
        · cases acted
        · cases acted
          exact chronicled.record_idle found rfl ⟨rfl, rfl, rfl⟩ accounted rfl rfl rfl
      · exact chronicled.wait found accounted (Option.some.inj acted)
      · exact chronicled.notification found accounted (Option.some.inj acted)
      · exact chronicled.advance found (room found) accounted acted
      · cases acted
        have begun := chronicled.begun party _ found rfl
        exact chronicled.record_rest found rfl rfl accounted rfl (.inl rfl) (fun _ => begun)
          Bool.false_ne_true.elim rfl
      · cases acted

theorem chronicled_init (parties : Nat) : (init parties).Chronicled := by
  have outside : ∀ (party : Nat) (point : Point), (init parties).use.parties[party]? = some point →
      point = .returned none := fun party point found =>
    (List.mem_replicate.mp (List.mem_of_getElem? found)).2
  refine ⟨ConditionUse.invariant_init parties, ?_, rfl, nofun, ?_, nofun, ?_, ?_, nofun⟩
  · intro party point found emptied
    rw [outside party point found] at emptied
    cases emptied
  · intro party point call found calls
    rw [outside party point found] at calls
    cases calls
  · intro party point found waits
    rw [outside party point found] at waits
    cases waits
  · intro party point found told
    rw [outside party point found] at told
    cases told

/-- What is promised of the notifications that have been called so far. -/
structure Settled (chronicle : Chronicle) : Prop where
  emptied : ∀ notice ∈ chronicle.notices, notice.call = .notifyAll →
    ∀ last, notice.returned = some last →
      last.condition.sleepingCount = 0 ∧ last.condition.wokenCount = 0 ∧
        last.condition.waitSemaphore = 0 ∧ ∀ wait ∈ notice.sleepers, wait ∉ last.asleep
  single : ∀ notice ∈ chronicle.notices, notice.call = .notify → notice.woken.length ≤ 1
  timely : ∀ notice ∈ chronicle.notices, ∀ last, notice.returned = some last →
    ∀ wait ∈ notice.woken, wait < last.waits
  /-- Every wait that has returned `True` was woken by one of them. -/
  answered : ∀ wait ∈ chronicle.answered, ∃ notice ∈ chronicle.notices, wait ∈ notice.woken

theorem Chronicled.settled (chronicled : chronicle.Chronicled) : chronicle.Settled where
  emptied := by
    intro notice listed all last returned
    obtain ⟨sleeping, woken, posts, nobody⟩ :=
      (chronicled.notices notice listed).emptied all last returned
    refine ⟨sleeping, woken, posts, fun wait _ asleep => ?_⟩
    rw [nobody] at asleep
    cases asleep
  single := fun notice listed => (chronicled.notices notice listed).single
  timely := fun notice listed last returned =>
    ((chronicled.notices notice listed).timely last returned).2
  answered := chronicled.answered

theorem record_use (use : ConditionUse) : (chronicle.record party old new use).use = use := by
  unfold record
  split <;> first | rfl | (split <;> rfl)

theorem use_of_step {next : Chronicle} {label : Nat × PartyAction}
    (taken : chronicle.step kind maxvalue label = some next) :
    chronicle.use.step kind maxvalue label = some next.use := by
  unfold Chronicle.step at taken
  split at taken
  · cases taken
  · rename_i use stepped
    split at taken
    · cases taken
      rw [record_use]
      exact stepped
    · cases taken

theorem run_record {chronicle : Chronicle} {labels : List (Nat × PartyAction)}
    {last : ConditionUse}
    (ran : run (ConditionUse.step kind maxvalue) chronicle.use labels = some last) :
    ∃ recorded, run (Chronicle.step kind maxvalue) chronicle labels = some recorded ∧
      recorded.use = last := by
  induction labels generalizing chronicle with
  | nil =>
      cases ran
      exact ⟨chronicle, rfl, rfl⟩
  | cons label labels ih =>
      obtain ⟨use, stepped, rest⟩ := run_cons_eq_some.mp ran
      obtain ⟨old, new, found, _, parties⟩ := ConditionUse.step_cases stepped
      have present : use.parties[label.1]? = some new := by
        rw [parties]
        exact Tally.getElem?_set_found found _
      have recorded : (chronicle.record label.1 old new use).use = use := record_use use
      have taken : chronicle.step kind maxvalue label =
          some (chronicle.record label.1 old new use) := by
        simp only [Chronicle.step, stepped, found, present]
      rw [← recorded] at rest
      obtain ⟨final, ran, same⟩ := ih rest
      exact ⟨final, run_cons_eq_some.mpr ⟨_, taken, ran⟩, same⟩

/-- Every run of a condition settles its notifications as it should: `notify_all` leaves
no sleeper and no token behind, `notify` wakes one wait at most, and none that began
after it returned. -/
theorem notifications_settled {parties : Nat} {labels : List (Nat × PartyAction)}
    {last : Chronicle}
    (ran : run (Chronicle.step kind maxvalue) (init parties) labels = some last) :
    last.Settled := by
  have kept (chronicle : Chronicle) (label : Nat × PartyAction) (next : Chronicle)
      (holds : chronicle.Chronicled ∧ chronicle.use.Spare maxvalue)
      (taken : chronicle.step kind maxvalue label = some next) :
      next.Chronicled ∧ next.use.Spare maxvalue :=
    ⟨holds.1.step holds.2 taken, holds.2.step holds.1.accounted (use_of_step taken)⟩
  have start := And.intro (chronicled_init parties) (ConditionUse.spare_init parties maxvalue)
  exact (invariant_run kept start ran).1.settled

/-- A wait that `notify` wakes, and that has returned `True` at the end. -/
theorem notifications_settled_woken :
    ∃ labels last, run (Chronicle.step .recursiveMutex 10) (init 2) labels = some last ∧
      last.answered = [0] ∧ last.notices.map NoticeRecord.woken = [[0]] ∧ last.Settled := by
  let labels : List (Nat × PartyAction) :=
    [(0, .acquire), (0, .wait false), (0, .advance), (1, .acquire), (1, .notification .notify),
      (1, .advance), (1, .advance), (1, .advance), (0, .advance), (0, .advance), (1, .advance),
      (1, .advance), (1, .release), (0, .advance)]
  have ran : run (Chronicle.step .recursiveMutex 10) (init 2) labels = some _ := rfl
  exact ⟨labels, _, ran, rfl, rfl, notifications_settled ran⟩

end Chronicle

end Billiard
