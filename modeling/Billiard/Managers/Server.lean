import Billiard.Data.Dict

/-! The tables of a manager's server, statement by statement. -/

namespace Billiard

/-- A Python object.  Its `id` is used again when it is gone, its serial is not. -/
structure Object where
  id : Nat
  serial : Nat
deriving DecidableEq, Repr

/-- A value of `id_to_obj`; the one that is reserved is `(None, ())`. -/
inductive Hosted where
  | reserved
  | object (obj : Object) (exposed : List String)
      (methodToTypeid : Option (List (String × String)))
deriving DecidableEq, Repr

/-- The keys are the numbers that `'%x' % id(obj)` writes; zero is the key `'0'`. -/
structure Server where
  idToObj : Dict Nat Hosted
  idToRefcount : Dict Nat Nat

namespace Server

def init : Server := ⟨Dict.empty.set 0 .reserved, Dict.empty⟩

def objectAt (server : Server) (ident : Nat) : Option Object :=
  match server.idToObj ident with
  | some (.object obj _ _) => some obj
  | some .reserved | none => none

/-- `self.id_to_obj[ident] = (obj, set(exposed), method_to_typeid)` -/
def store (server : Server) (obj : Object) (exposed : List String)
    (methodToTypeid : Option (List (String × String))) : Server :=
  { server with idToObj := server.idToObj.set obj.id (.object obj exposed methodToTypeid) }

def setCount (server : Server) (ident count : Nat) : Server :=
  { server with idToRefcount := server.idToRefcount.set ident count }

/-- `if ident not in self.id_to_refcount: self.id_to_refcount[ident] = 0` -/
def enroll (server : Server) (ident : Nat) : Server :=
  match server.idToRefcount ident with
  | some _ => server
  | none => server.setCount ident 0

/-- `self.id_to_refcount[ident] += 1` -/
def incref? (server : Server) (ident : Nat) : Option Server :=
  (server.idToRefcount ident).map fun count => server.setCount ident (count + 1)

/-- `self.id_to_refcount[ident] -= 1` -/
def subtract? (server : Server) (ident : Nat) : Option Server :=
  (server.idToRefcount ident).map fun count => server.setCount ident (count - 1)

/-- `del self.id_to_obj[ident]` -/
def unlink? (server : Server) (ident : Nat) : Option Server :=
  (server.idToObj.del? ident).map fun idToObj => { server with idToObj }

/-- `del self.id_to_refcount[ident]` -/
def unlist? (server : Server) (ident : Nat) : Option Server :=
  (server.idToRefcount.del? ident).map fun idToRefcount => { server with idToRefcount }

variable {server : Server} {ident other count : Nat}

@[simp] theorem setCount_idToObj : (server.setCount ident count).idToObj = server.idToObj := rfl

@[simp] theorem setCount_objectAt : (server.setCount ident count).objectAt other =
    server.objectAt other := rfl

theorem setCount_apply : (server.setCount ident count).idToRefcount other =
    if other = ident then some count else server.idToRefcount other :=
  Dict.set_apply _ _ _ _

@[simp] theorem enroll_idToObj : (server.enroll ident).idToObj = server.idToObj := by
  unfold enroll
  split
  · rfl
  · rfl

@[simp] theorem enroll_objectAt : (server.enroll ident).objectAt other =
    server.objectAt other := by
  simp [objectAt]

theorem enroll_apply : (server.enroll ident).idToRefcount other =
    if other = ident then some ((server.idToRefcount ident).getD 0)
      else server.idToRefcount other := by
  unfold enroll
  cases found : server.idToRefcount ident with
  | some count =>
      by_cases same : other = ident
      · simp [same, found]
      · simp [same]
  | none => simp [setCount_apply]

@[simp] theorem store_idToRefcount (obj : Object) (exposed : List String)
    (methodToTypeid : Option (List (String × String))) :
    (server.store obj exposed methodToTypeid).idToRefcount = server.idToRefcount := rfl

theorem store_objectAt (obj : Object) (exposed : List String)
    (methodToTypeid : Option (List (String × String))) :
    (server.store obj exposed methodToTypeid).objectAt other =
      if other = obj.id then some obj else server.objectAt other := by
  by_cases same : other = obj.id
  · simp [objectAt, store, Dict.set_apply, same]
  · simp [objectAt, store, Dict.set_apply, same]

end Server

end Billiard
