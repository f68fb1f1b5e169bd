import Billiard.Data.Chunk
import Billiard.Pool.ApplyResult

/-! The class `MapResult` of `pool.py`. -/

namespace Billiard

open Chunk

/-- `_value` is a list until a failure replaces it. -/
structure MapResult (α : Type u) where
  job : Nat
  cached : Bool
  event : Bool
  success : Bool
  length : Nat
  value : Except ExceptionInfo (List (Option α))
  accepted : List Bool
  workerPid : List (Option Nat)
  timeAccepted : List (Option Nat)
  chunksize : Nat
  numberLeft : Int
  callback : Option Callback
  errorCallback : Option Callback
  lostWorkerTimeout : Nat
  workerLost : Option (Nat × Int)
  calls : List (Call (List (Option α)))

namespace MapResult

/-- `MapResult.__init__`; an empty iterable comes with `chunksize = 0`. -/
def init (job chunksize length : Nat) (callback errorCallback : Option Callback) :
    MapResult α where
  job
  cached := chunksize != 0
  event := chunksize == 0
  success := true
  length
  value := .ok (List.replicate length none)
  accepted := List.replicate length false
  workerPid := List.replicate length none
  timeAccepted := List.replicate length none
  chunksize
  numberLeft :=
    if chunksize = 0 then 0
    else length / chunksize + (if length % chunksize = 0 then 0 else 1)
  callback
  errorCallback
  lostWorkerTimeout := lostWorkerTimeoutDefault
  workerLost := none
  calls := []

def ready (result : MapResult α) : Bool := result.event

/-- A call of a callback outside `safe_apply_callback`. -/
def applyCallback (result : MapResult α) (callback : Option Callback)
    (call : Call (List (Option α))) : MapResult α × Option Raised :=
  match callback with
  | none => (result, none)
  | some .returns => ({ result with calls := result.calls ++ [call] }, none)
  | some _ => ({ result with calls := result.calls ++ [call] }, some .callbackError)

/-- The end of `_set`: `_accepted` is a list, true unless it is empty. -/
def finish (result : MapResult α) : MapResult α :=
  { result with cached := result.cached && result.accepted.isEmpty, event := true }

/-- `_set` for the chunk `i` -/
def set (result : MapResult α) (i : Nat) (outcome : Outcome (List α)) :
    MapResult α × Option Raised :=
  match outcome, result.value with
  | .success _, .error _ => (result, some .typeError)
  | .success items, .ok values =>
      let values := sliceAssign values (i * result.chunksize) ((i + 1) * result.chunksize)
        (items.map some)
      let result := { result with value := .ok values, numberLeft := result.numberLeft - 1 }
      if result.numberLeft = 0 then
        match result.applyCallback result.callback (.callback values) with
        | (result, some exc) => (result, some exc)
        | (result, none) => (result.finish, none)
      else (result, none)
  | .failure info, _ =>
      let result := { result with success := false, value := .error info }
      match result.applyCallback result.errorCallback (.errorCallback info) with
      | (result, some exc) => (result, some exc)
      | (result, none) => (result.finish, none)

/-- `values[j] = value` for every `j` of the chunk `i` -/
def fillChunk (result : MapResult α) (i : Nat) (values : List β) (value : β) : List β :=
  let start := i * result.chunksize
  let stop := min ((i + 1) * result.chunksize) result.length
  values.mapIdx fun j old => if start ≤ j ∧ j < stop then value else old

def ack (result : MapResult α) (i timeAccepted pid : Nat) : MapResult α :=
  { result with
    accepted := result.fillChunk i result.accepted true
    workerPid := result.fillChunk i result.workerPid (some pid)
    timeAccepted := result.fillChunk i result.timeAccepted (some timeAccepted)
    cached := result.cached && !result.ready }

def workerPids (result : MapResult α) : List Nat :=
  (result.workerPid.filterMap id).filter (· ≠ 0)

theorem applyCallback_spec (result : MapResult α) (callback : Option Callback)
    (call : Call (List (Option α))) :
    ∃ calls, (result.applyCallback callback call).1 = { result with calls } := by
  unfold applyCallback
  split <;> exact ⟨_, rfl⟩

theorem set_spec (result : MapResult α) (i : Nat) (outcome : Outcome (List α)) :
    ∃ cached event success value numberLeft calls,
      (result.set i outcome).1 =
        { result with cached, event, success, value, numberLeft, calls } ∧
      (cached = true → result.cached = true) ∧ (result.event = true → event = true) ∧
      (cached = false → result.cached = false ∨ event = true) := by
  have finished : ∀ (prior : MapResult α) (callback : Option Callback)
      (call : Call (List (Option α))),
      ∃ cached event calls,
        (match prior.applyCallback callback call with
          | (after, some exc) => (after, some exc)
          | (after, none) => (after.finish, none)).1 = { prior with cached, event, calls } ∧
        (cached = true → prior.cached = true) ∧ (prior.event = true → event = true) ∧
        (cached = false → prior.cached = false ∨ event = true) := by
    intro prior callback call
    obtain ⟨calls, called⟩ := prior.applyCallback_spec callback call
    cases ran : prior.applyCallback callback call with
    | mk after raised =>
        rw [ran] at called
        cases raised with
        | some exc => exact ⟨prior.cached, prior.event, calls, called, id, id, .inl⟩
        | none =>
            refine ⟨prior.cached && prior.accepted.isEmpty, true, calls, ?_, ?_, fun _ => rfl,
              fun _ => .inr rfl⟩
            · simp only at called
              simp [finish, called]
            · exact fun both => (Bool.and_eq_true _ _ ▸ both).1
  unfold set
  split
  · exact ⟨_, _, _, _, _, _, rfl, id, id, .inl⟩
  · rename_i items values _
    simp only
    split
    · obtain ⟨cached, event, calls, after, kept, stays⟩ := finished
        { result with
          value := .ok (sliceAssign values (i * result.chunksize) ((i + 1) * result.chunksize)
            (items.map some))
          numberLeft := result.numberLeft - 1 } result.callback _
      exact ⟨cached, event, _, _, _, calls, after, kept, stays⟩
    · exact ⟨_, _, _, _, _, _, rfl, id, id, .inl⟩
  · rename_i info
    obtain ⟨cached, event, calls, after, kept, stays⟩ := finished
      { result with success := false, value := .error info } result.errorCallback
      (.errorCallback info)
    exact ⟨cached, event, _, _, _, calls, after, kept, stays⟩

/-- The last chunk of a result whose callback raises -/
theorem set_raises {result : MapResult α} {values : List (Option α)} (i : Nat) (items : List α)
    (ok : result.value = .ok values) (last : result.numberLeft - 1 = 0)
    (raising : ¬(result.callback = none ∨ result.callback = some .returns)) :
    ∃ after exc, result.set i (.success items) = (after, some exc) ∧
      after.event = result.event := by
  unfold set
  rw [ok]
  simp only [last, if_true]
  cases callback : result.callback with
  | none => exact absurd (.inl callback) raising
  | some how =>
      cases how with
      | returns => exact absurd (.inr callback) raising
      | raises | propagates => exact ⟨_, _, rfl, rfl⟩

theorem event_setFailure {result : MapResult α} {i : Nat} {info : ExceptionInfo}
    (returned : (result.set i (.failure info)).2 = none) :
    (result.set i (.failure info)).1.event = true := by
  simp only [set] at returned ⊢
  split at returned
  · cases returned
  · rfl

theorem mem_workerPids_ack {result : MapResult α} {i timeAccepted pid recorded : Nat}
    (member : recorded ∈ (result.ack i timeAccepted pid).workerPids) :
    recorded ∈ result.workerPids ∨ recorded = pid := by
  simp only [workerPids, ack, fillChunk, List.mem_filter,
    List.mem_filterMap, List.mem_mapIdx, id] at member ⊢
  obtain ⟨⟨_, ⟨j, inside, rfl⟩, filled⟩, positive⟩ := member
  split at filled
  · exact .inr (Option.some.inj filled).symm
  · exact .inl ⟨⟨_, List.getElem_mem inside, filled⟩, positive⟩

end MapResult

end Billiard
