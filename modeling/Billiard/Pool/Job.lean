import Billiard.Pool.MapResult
import Billiard.Pool.IMapIterator

/-! The jobs of all kinds, as the parent's threads find them in the cache. -/

namespace Billiard

inductive Job (α : Type u) where
  | apply (result : ApplyResult α)
  | map (result : MapResult α)
  | imap (it : IMapIterator α)
  | imapUnordered (it : IMapIterator α)

namespace Job

def cached : Job α → Bool
  | .apply result => result.cached
  | .map result => result.cached
  | .imap it | .imapUnordered it => it.cached

def ready : Job α → Bool
  | .apply result => result.ready
  | .map result => result.ready
  | .imap it | .imapUnordered it => it.ready

def workerPids : Job α → List Nat
  | .apply result => result.workerPids
  | .map result => result.workerPids
  | .imap it | .imapUnordered it => it.workerPids

def workerLost : Job α → Option (Nat × Int)
  | .apply result => result.workerLost
  | .map result => result.workerLost
  | .imap it | .imapUnordered it => it.workerLost

def lostWorkerTimeout : Job α → Nat
  | .apply result => result.lostWorkerTimeout
  | .map result => result.lostWorkerTimeout
  | .imap it | .imapUnordered it => it.lostWorkerTimeout

/-- `job._worker_lost = (now, exitcode)` -/
def setWorkerLost (job : Job α) (now : Nat) (exitcode : Int) : Job α :=
  match job with
  | .apply result => .apply { result with workerLost := some (now, exitcode) }
  | .map result => .map { result with workerLost := some (now, exitcode) }
  | .imap it => .imap { it with workerLost := some (now, exitcode) }
  | .imapUnordered it => .imapUnordered { it with workerLost := some (now, exitcode) }

/-- `_set`; the result of a task of a map is iterated over. -/
def set (iter : α → List α) (job : Job α) (i : Index) (outcome : Outcome α) :
    Job α × Option Raised :=
  match job with
  | .apply result => (result.set outcome).map .apply id
  | .map result =>
      match i, outcome with
      | .position i, outcome => (result.set i (outcome.map iter)).map .map id
      | _, .failure info => (result.set 0 (.failure info)).map .map id
      | _, .success _ => (job, some .typeError)
  | .imap it => (it.set i outcome).map .imap id
  | .imapUnordered it => (it.setUnordered outcome).map .imapUnordered id

def ack (job : Job α) (i : Index) (timeAccepted pid : Nat) (synqWFd : Option Nat) :
    Job α × Option Raised :=
  match job with
  | .apply result => (result.ack timeAccepted pid synqWFd).map .apply id
  | .map result =>
      match i with
      | .position i => (.map (result.ack i timeAccepted pid), none)
      | _ => (job, some .typeError)
  | .imap it => (.imap (it.ack pid), none)
  | .imapUnordered it => (.imapUnordered (it.ack pid), none)

/-- `_set_length`, which only the iterators have. -/
def setLength (job : Job α) (length : Nat) : Job α × Option Raised :=
  match job with
  | .apply _ | .map _ => (job, some .attributeError)
  | .imap it => (it.setLength length).map .imap id
  | .imapUnordered it => (it.setLength length).map .imapUnordered id

/-- `_set_terminated`, which the iterators do not have. -/
def setTerminated (iter : α → List α) (job : Job α) (signum : Int) : Job α × Option Raised :=
  match job with
  | .apply _ | .map _ => job.set iter .none (.failure (.terminated (-signum)))
  | .imap _ | .imapUnordered _ => (job, some .attributeError)

def isApply : Job α → Bool
  | .apply _ => true
  | .map _ | .imap _ | .imapUnordered _ => false

/-- `after` is `before` up to its progress: the record of its workers and of a
loss stay, a job that is ready or out of the cache remains so, and only a ready
job leaves the cache. -/
structure Progress (before after : Job α) : Prop where
  workerPids : after.workerPids = before.workerPids
  workerLost : after.workerLost = before.workerLost
  isApply : after.isApply = before.isApply
  cached : after.cached = true → before.cached = true
  ready : before.ready = true → after.ready = true
  closed : after.cached = false → before.cached = false ∨ after.ready = true

theorem Progress.refl (job : Job α) : Progress job job := ⟨rfl, rfl, rfl, id, id, .inl⟩

theorem progress_imap {before after : IMapIterator α}
    (delivered : IMapIterator.Delivered before after) :
    Progress (.imap before) (.imap after) := by
  obtain ⟨_, _, _, _, _, _, rfl, cached, ready, closed⟩ := delivered
  exact ⟨rfl, rfl, rfl, cached, ready, closed⟩

theorem progress_imapUnordered {before after : IMapIterator α}
    (delivered : IMapIterator.Delivered before after) :
    Progress (.imapUnordered before) (.imapUnordered after) := by
  obtain ⟨_, _, _, _, _, _, rfl, cached, ready, closed⟩ := delivered
  exact ⟨rfl, rfl, rfl, cached, ready, closed⟩

theorem progress_set (iter : α → List α) (job : Job α) (i : Index) (outcome : Outcome α) :
    Progress job (job.set iter i outcome).1 := by
  have mapped : ∀ (result : MapResult α) (i : Nat) (outcome : Outcome (List α)),
      Progress (.map result) (.map (result.set i outcome).1) := by
    intro result i outcome
    obtain ⟨cached, event, success, value, numberLeft, calls, after, kept, stays, closed⟩ :=
      result.set_spec i outcome
    rw [after]
    exact ⟨rfl, rfl, rfl, kept, stays, closed⟩
  cases job with
  | apply result =>
      obtain ⟨calls, after, _⟩ := result.set_spec outcome
      have same : ((Job.apply result).set iter i outcome).1 = .apply { result with
          outcome := some outcome
          cached := result.cached && !result.accepted
          calls } := congrArg Job.apply after
      rw [same]
      exact ⟨rfl, rfl, rfl, fun both => (Bool.and_eq_true _ _ ▸ both).1, fun _ => rfl,
        fun _ => .inr rfl⟩
  | map result =>
      cases i with
      | position i => exact mapped result i (outcome.map iter)
      | none | body =>
          cases outcome with
          | success value => exact Progress.refl _
          | failure info => exact mapped result 0 (.failure info)
  | imap it => exact progress_imap (it.delivered_set i outcome)
  | imapUnordered it => exact progress_imapUnordered (it.delivered_setUnordered outcome)

theorem progress_setLength (job : Job α) (length : Nat) :
    Progress job (job.setLength length).1 := by
  cases job with
  | apply result => exact Progress.refl _
  | map result => exact Progress.refl _
  | imap it => exact { progress_imap (it.delivered_setLength length) with }
  | imapUnordered it => exact { progress_imapUnordered (it.delivered_setLength length) with }

theorem apply_ready_set (iter : α → List α) {job : Job α} (isApply : job.isApply = true)
    (i : Index) (outcome : Outcome α) : (job.set iter i outcome).1.ready = true := by
  cases job with
  | apply result =>
      obtain ⟨calls, after, _⟩ := result.set_spec outcome
      simp [set, ready, ApplyResult.ready, after]
  | map result => cases isApply
  | imap it => cases isApply
  | imapUnordered it => cases isApply

theorem progress_setTerminated (iter : α → List α) (job : Job α) (signum : Int) :
    Progress job (job.setTerminated iter signum).1 := by
  cases job with
  | apply result => exact progress_set iter _ _ _
  | map result => exact progress_set iter _ _ _
  | imap it => exact Progress.refl _
  | imapUnordered it => exact Progress.refl _

theorem apply_ready_setTerminated (iter : α → List α) {job : Job α}
    (isApply : job.isApply = true) (signum : Int) :
    (job.setTerminated iter signum).1.ready = true := by
  cases job with
  | apply result => exact apply_ready_set iter isApply _ _
  | map result => cases isApply
  | imap it => cases isApply
  | imapUnordered it => cases isApply

@[simp] theorem workerLost_setWorkerLost (job : Job α) (now : Nat) (exitcode : Int) :
    (job.setWorkerLost now exitcode).workerLost = some (now, exitcode) := by
  cases job <;> rfl

@[simp] theorem workerPids_setWorkerLost (job : Job α) (now : Nat) (exitcode : Int) :
    (job.setWorkerLost now exitcode).workerPids = job.workerPids := by
  cases job <;> rfl

@[simp] theorem ready_setWorkerLost (job : Job α) (now : Nat) (exitcode : Int) :
    (job.setWorkerLost now exitcode).ready = job.ready := by
  cases job <;> rfl

@[simp] theorem cached_setWorkerLost (job : Job α) (now : Nat) (exitcode : Int) :
    (job.setWorkerLost now exitcode).cached = job.cached := by
  cases job <;> rfl

@[simp] theorem isApply_setWorkerLost (job : Job α) (now : Nat) (exitcode : Int) :
    (job.setWorkerLost now exitcode).isApply = job.isApply := by
  cases job <;> rfl

/-- What `_ack` changes: it may record the worker and drop a ready job. -/
structure Acked (pid : Nat) (before after : Job α) : Prop where
  workerPids : ∀ recorded ∈ after.workerPids, recorded ∈ before.workerPids ∨ recorded = pid
  workerLost : after.workerLost = before.workerLost
  isApply : after.isApply = before.isApply
  ready : after.ready = before.ready
  cached : after.cached = true → before.cached = true
  kept : before.cached = true → before.ready = false → after.cached = true

theorem acked (job : Job α) (i : Index) (timeAccepted pid : Nat) (synqWFd : Option Nat) :
    Acked pid job (job.ack i timeAccepted pid synqWFd).1 := by
  have unchanged : Acked pid job job :=
    ⟨fun _ member => .inl member, rfl, rfl, rfl, id, fun kept _ => kept⟩
  have iterator : ∀ it : IMapIterator α, ∀ recorded ∈ (it.ack pid).workerPids,
      recorded ∈ it.workerPids ∨ recorded = pid := by
    intro it recorded member
    simpa [IMapIterator.ack] using member
  cases job with
  | apply result =>
      obtain ⟨workerPid, time, cached, ⟨calls, after, _⟩, assigned, kept, stays⟩ :=
        result.ack_spec timeAccepted pid synqWFd
      have same : ((Job.apply result).ack i timeAccepted pid synqWFd).1 =
          .apply { result with accepted := true, timeAccepted := time, workerPid, cached, calls } :=
        congrArg Job.apply after
      rw [same]
      refine ⟨?_, rfl, rfl, rfl, kept, stays⟩
      intro recorded member
      cases assigned with
      | inl old => exact .inl (by simpa [workerPids, ApplyResult.workerPids, old] using member)
      | inr new =>
          simp only [workerPids, ApplyResult.workerPids, new] at member
          split at member
          · cases member
          · exact .inr (List.mem_singleton.mp member)
  | map result =>
      cases i with
      | position i =>
          refine ⟨fun _ member => MapResult.mem_workerPids_ack member, rfl, rfl, rfl, ?_, ?_⟩
          · exact fun both => (Bool.and_eq_true _ _ ▸ both).1
          · exact fun kept unready => by
              simp only [cached, ready] at kept unready
              simp [ack, cached, MapResult.ack, kept, unready]
      | none => exact unchanged
      | body => exact unchanged
  | imap it => exact ⟨iterator it, rfl, rfl, rfl, id, fun kept _ => kept⟩
  | imapUnordered it => exact ⟨iterator it, rfl, rfl, rfl, id, fun kept _ => kept⟩

end Job

end Billiard
