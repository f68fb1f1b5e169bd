import Billiard.Managers.Creation

/-! `BaseProxy._callmethod` with a result that the server has wrapped: the reference that
`create` has counted is given back by the client. -/

namespace Billiard

/-- How a proxy came into its process: made by a method of a manager, whose registry has
these typeids, or by `RebuildProxy`, by a fork, or as a result of another proxy. -/
inductive Origin where
  | made (typeids : List String)
  | unpickled
  | inherited (origin : Origin)
  | wrapped (origin : Origin)
deriving DecidableEq, Repr

/-- `self._manager`, told by the typeids of its registry. -/
def Origin.manager? : Origin → Option (List String)
  | .made typeids => some typeids
  | .unpickled => none
  -- `_after_fork` drops the manager
  | .inherited _ => none
  | .wrapped origin => origin.manager?

/-- What becomes of a call of `dispatch`: if it raises, the server may have met the request. -/
inductive Dispatched where
  | done
  | unsent
  | unanswered
deriving DecidableEq, Repr

/-- What may go wrong in `_callmethod`: the response is lost or not serializable, or the
proxy type raises before its `_incref`; `finalizer` is the `_decref` of a proxy that is
dropped. -/
structure Fortune where
  responds : Bool
  constructs : Bool
  incref : Dispatched
  decref : Dispatched
  finalizer : Dispatched
deriving DecidableEq, Repr

structure CallEnd where
  server : Server
  returned : Bool

namespace Server

def increfed (server : Server) (ident : Nat) : Server := (server.incref? ident).getD server

def dispatch (server : Server) (met : Server → Server) : Dispatched → Server
  | .unsent => server
  | .done | .unanswered => met server

/-- `_callmethod` on the client, from the response `#PROXY` on. -/
def callmethod (server : Server) (origin : Origin) (typeid : String) (ident : Nat)
    (fortune : Fortune) : CallEnd :=
  if !fortune.responds then ⟨server, false⟩
  else
    match origin.manager? with
    | none => ⟨server, false⟩
    | some typeids =>
        if typeid ∉ typeids || !fortune.constructs then ⟨server, false⟩
        else
          let increfed := server.dispatch (increfed · ident) fortune.incref
          if fortune.incref ≠ .done then ⟨increfed, false⟩
          else
            let decrefed := increfed.dispatch (decref · ident) fortune.decref
            if fortune.decref = .done then ⟨decrefed, true⟩
            -- the proxy is dropped with the frame
            else ⟨decrefed.dispatch (decref · ident) fortune.finalizer, false⟩

/-- `create` for the result of a method, and what the client makes of it. -/
def wrap (server : Server) (origin : Origin) (typeid : String) (made : Creation)
    (fortune : Fortune) : CallEnd :=
  (server.create made.obj made.exposed made.methodToTypeid).callmethod origin typeid
    made.obj.id fortune

/-- The count of an object, which is disposed of without references. -/
def Counts (server : Server) (ident : Nat) : Nat → Prop
  | 0 => server.idToRefcount ident = none ∧ server.idToObj ident = none
  | count + 1 =>
      server.idToRefcount ident = some (count + 1) ∧ (server.idToObj ident).isSome = true

/-- The reference of `create` is gone, and a proxy has its own if one is returned. -/
def Balanced (live : Nat) (made : Creation) (after : CallEnd) : Prop :=
  after.server.Counts made.obj.id (live + if after.returned then 1 else 0)

end Server

/-- The client has a manager that knows the typeid, and the server meets its requests. -/
def Fortune.Suffices (fortune : Fortune) (origin : Origin) (typeid : String) : Prop :=
  fortune.responds = true ∧ (∃ typeids, origin.manager? = some typeids ∧ typeid ∈ typeids) ∧
    fortune.constructs = true ∧ fortune.incref = .done ∧
      (fortune.decref = .done ∨ fortune.decref = .unanswered ∧ fortune.finalizer ≠ .unsent)

namespace Server

variable {server : Server} {ident count other : Nat}

theorem Counts.unique (one : server.Counts ident count) (two : server.Counts ident other) :
    count = other := by
  cases count with
  | zero =>
      cases other with
      | zero => rfl
      | succ other => cases one.1.symm.trans two.1
  | succ count =>
      cases other with
      | zero => cases one.1.symm.trans two.1
      | succ other => exact Option.some.inj (one.1.symm.trans two.1)

theorem Counts.create {obj : Object} (counts : server.Counts obj.id count)
    (exposed : List String) (methodToTypeid : Option (List (String × String))) :
    (server.create obj exposed methodToTypeid).Counts obj.id (count + 1) := by
  have enrolled : ((server.store obj exposed methodToTypeid).enroll obj.id).idToRefcount obj.id =
      some count := by
    rw [enroll_apply, if_pos rfl, store_idToRefcount]
    cases count with
    | zero => rw [counts.1]; rfl
    | succ count => rw [counts.1]; rfl
  constructor
  · simp only [Server.create, incref?, enrolled, Option.map_some, Option.getD_some]
    rw [setCount_apply, if_pos rfl]
  · rw [create_idToObj, Dict.set_apply, if_pos rfl]
    rfl

theorem Counts.incref (counts : server.Counts ident (count + 1)) :
    (server.increfed ident).Counts ident (count + 2) := by
  have same : server.increfed ident = server.setCount ident (count + 2) := by
    rw [increfed, incref?, counts.1]
    rfl
  rw [same]
  exact ⟨by rw [setCount_apply, if_pos rfl], counts.2⟩

theorem Counts.decref (counts : server.Counts ident (count + 1)) :
    (server.decref ident).Counts ident count := by
  unfold Server.decref
  rw [counts.1]
  cases count with
  | zero =>
      obtain ⟨hosted, found⟩ := Option.isSome_iff_exists.mp counts.2
      have unlinked : (server.setCount ident 0).unlink? ident =
          some { server.setCount ident 0 with idToObj := server.idToObj.erase ident } := by
        rw [unlink?, setCount_idToObj, Dict.del?_of_some found]
        rfl
      simp only [if_true, unlinked, unlist?]
      have listed : (server.setCount ident 0).idToRefcount ident = some 0 := by
        rw [setCount_apply, if_pos rfl]
      rw [Dict.del?_of_some listed]
      exact ⟨by simp [Dict.erase_apply], by simp [Dict.erase_apply]⟩
  | succ count =>
      simp only [Nat.succ_ne_zero, if_false]
      exact ⟨by rw [setCount_apply, if_pos rfl], counts.2⟩

theorem Counts.iff_eq (counts : server.Counts ident count) :
    server.Counts ident other ↔ other = count :=
  ⟨fun also => also.unique counts, fun same => same ▸ counts⟩

/-- The reference of `create` is left to be given back. -/
theorem callmethod_balanced_iff {live : Nat} (counts : server.Counts ident (live + 1))
    (origin : Origin) (typeid : String) (fortune : Fortune) :
    ((server.callmethod origin typeid ident fortune).server.Counts ident
        (live + if (server.callmethod origin typeid ident fortune).returned then 1 else 0)) ↔
      fortune.Suffices origin typeid := by
  obtain ⟨responds, constructs, incref, decref, finalizer⟩ := fortune
  have leaked : ¬ server.Counts ident (live + 0) := by
    rw [counts.iff_eq]
    omega
  have twice := counts.incref
  have once := twice.decref
  have gone := once.decref
  unfold callmethod Fortune.Suffices
  cases responds with
  | false => simpa using leaked
  | true =>
      cases manager : origin.manager? with
      | none => simpa using leaked
      | some typeids =>
          by_cases known : typeid ∈ typeids
          · cases constructs with
            | false => simpa using leaked
            | true =>
                cases incref with
                | unsent => simpa [known, dispatch] using leaked
                | unanswered =>
                    simp [known, dispatch, twice.iff_eq]
                | done =>
                    cases decref with
                    | done => simpa [known, dispatch] using once
                    | unsent =>
                        cases finalizer <;>
                          simp [known, dispatch, twice.iff_eq, once.iff_eq]
                    | unanswered =>
                        cases finalizer with
                        | unsent => simp [known, dispatch, once.iff_eq]
                        | done => simpa [known, dispatch] using gone
                        | unanswered => simpa [known, dispatch] using gone
          · simpa [known] using leaked

/-- The count of a result is that of its proxies exactly if its client can make a proxy of
it and can give the reference of `create` back. -/
theorem balanced_iff {live : Nat} {made : Creation}
    (counts : server.Counts made.obj.id live) (origin : Origin) (typeid : String)
    (fortune : Fortune) :
    Balanced live made (server.wrap origin typeid made fortune) ↔
      fortune.Suffices origin typeid :=
  callmethod_balanced_iff (counts.create made.exposed made.methodToTypeid) origin typeid fortune

theorem balanced_nothingFails :
    Balanced 0 ⟨⟨8, 1⟩, ["__next__"], none⟩
      (init.wrap (.made ["list", "Iterator"]) "Iterator" ⟨⟨8, 1⟩, ["__next__"], none⟩
        ⟨true, true, .done, .done, .done⟩) := by
  have counts : init.Counts (⟨8, 1⟩ : Object).id 0 := ⟨rfl, rfl⟩
  exact (balanced_iff counts _ _ _).mpr
    ⟨rfl, ⟨_, rfl, by decide⟩, rfl, rfl, .inl rfl⟩

/-- A proxy that was unpickled has no manager, and the result stays with the count 1. -/
theorem not_balanced : ¬ ∀ (server : Server) (made : Creation) (origin : Origin)
    (typeid : String) (fortune : Fortune), server.Counts made.obj.id 0 →
    Balanced 0 made (server.wrap origin typeid made fortune) := by
  intro claimed
  have gone := claimed init ⟨⟨8, 1⟩, ["__next__"], none⟩ .unpickled "Iterator"
    ⟨true, true, .done, .done, .done⟩ ⟨rfl, rfl⟩
  cases gone.1

end Server

end Billiard
