import Billiard.Managers.ServeClient

/-! `Server.create` with the registry, and what it leaves of the interfaces that are stored. -/

namespace Billiard

open Transition

/-- A value of the registry, but for its `proxytype`; no callable is `None`. -/
structure Registration where
  hasCallable : Bool
  exposed : Option (List String)
  methodToTypeid : Option (List (String × String))
deriving DecidableEq, Repr

/-- A call of `create`: `called` and `publicMethods` are what the registered callable and
`public_methods` give, if they are called. -/
structure CreateRequest where
  typeid : String
  args : List Object
  hasKwds : Bool
  called : Except ServeError Object
  publicMethods : Object → Except ServeError (List String)

/-- What `create` stores under the ident of an object. -/
structure Creation where
  obj : Object
  exposed : List String
  methodToTypeid : Option (List (String × String))
deriving DecidableEq, Repr

namespace CreateRequest

/-- `callable(*args, **kwds)`, or the one argument where there is no callable. -/
def object (request : CreateRequest) (registration : Registration) : Except ServeError Object :=
  if registration.hasCallable then request.called
  else
    match request.args, request.hasKwds with
    | [obj], false => .ok obj
    | _, _ => .error (.exception "AssertionError")

def names (request : CreateRequest) (registration : Registration) (obj : Object) :
    Except ServeError (List String) :=
  match registration.exposed with
  | some exposed => .ok exposed
  | none => request.publicMethods obj

/-- `create`, up to the first change of the tables. -/
def creation (request : CreateRequest) (registry : Dict String Registration) :
    Except ServeError Creation :=
  match registry request.typeid with
  | none => .error (.exception "KeyError")
  | some registration =>
      match request.object registration with
      | .error exc => .error exc
      | .ok obj =>
          match request.names registration obj with
          | .error exc => .error exc
          | .ok exposed =>
              let more := (registration.methodToTypeid.getD []).map Prod.fst
              .ok ⟨obj, exposed ++ more, registration.methodToTypeid⟩

end CreateRequest

inductive ServerRequest where
  | create (request : CreateRequest)
  | incref (ident : Nat)
  | decref (ident : Nat)

namespace Server

def decref (server : Server) (ident : Nat) : Server :=
  match server.idToRefcount ident with
  | none | some 0 => server
  | some (count + 1) =>
      let server := server.setCount ident count
      if count = 0 then
        match server.unlink? ident with
        | none => server
        | some server => (server.unlist? ident).getD server
      else server

/-- A request that raises has changed nothing. -/
def request (registry : Dict String Registration) (server : Server) :
    ServerRequest → Option Server
  | .create request =>
      match request.creation registry with
      | .error _ => some server
      | .ok made => some (server.create made.obj made.exposed made.methodToTypeid)
  | .incref ident => some ((server.incref? ident).getD server)
  | .decref ident => some (server.decref ident)

end Server

/-- The same exposed set and the same mapping. -/
def Hosted.SameInterface : Hosted → Hosted → Prop
  | .reserved, .reserved => True
  | .object _ exposed table, .object _ otherExposed otherTable =>
      (∀ name, name ∈ otherExposed ↔ name ∈ exposed) ∧ otherTable.isSome = table.isSome ∧
        ∀ name, (otherTable.getD []).lookup name = (table.getD []).lookup name
  | .reserved, .object _ _ _ | .object _ _ _, .reserved => False

/-- Every interface that was stored is stored still. -/
def Server.Keeps (before after : Server) : Prop :=
  ∀ ident stored, before.idToObj ident = some stored →
    ∃ now, after.idToObj ident = some now ∧ stored.SameInterface now

/-- The object to be created is not shared, or only with the interface it is created with. -/
def Server.Unshared (server : Server) (registry : Dict String Registration)
    (request : CreateRequest) : Prop :=
  ∀ made, request.creation registry = .ok made →
    ∀ stored, server.idToObj made.obj.id = some stored →
      stored.SameInterface (.object made.obj made.exposed made.methodToTypeid)

theorem Hosted.sameInterface_refl (hosted : Hosted) : hosted.SameInterface hosted := by
  cases hosted with
  | reserved => exact True.intro
  | object => exact ⟨fun _ => Iff.rfl, rfl, fun _ => rfl⟩

namespace Server

variable {server : Server} {registry : Dict String Registration}

theorem Keeps.refl (server : Server) : server.Keeps server :=
  fun _ stored found => ⟨stored, found, stored.sameInterface_refl⟩

@[simp] theorem create_idToObj (server : Server) (obj : Object) (exposed : List String)
    (methodToTypeid : Option (List (String × String))) :
    (server.create obj exposed methodToTypeid).idToObj =
      server.idToObj.set obj.id (.object obj exposed methodToTypeid) := by
  simp only [create, incref?]
  cases (enroll (server.store obj exposed methodToTypeid) obj.id).idToRefcount obj.id with
  | none => simp [store]
  | some count => simp [store]

theorem keeps_create_iff (server : Server) (obj : Object) (exposed : List String)
    (methodToTypeid : Option (List (String × String))) :
    server.Keeps (server.create obj exposed methodToTypeid) ↔
      ∀ stored, server.idToObj obj.id = some stored →
        stored.SameInterface (.object obj exposed methodToTypeid) := by
  constructor
  · intro keeps stored found
    obtain ⟨now, held, same⟩ := keeps obj.id stored found
    rw [create_idToObj, Dict.set_apply, if_pos rfl] at held
    cases held
    exact same
  · intro same ident stored found
    rw [create_idToObj]
    by_cases own : ident = obj.id
    · subst own
      exact ⟨_, by rw [Dict.set_apply, if_pos rfl], same stored found⟩
    · exact ⟨stored, by rw [Dict.set_apply, if_neg own, found], stored.sameInterface_refl⟩

/-- What is claimed of a request in the state that it finds. -/
def CreateKeeps (registry : Dict String Registration) (server : Server) : ServerRequest → Prop
  | .create request =>
      ∀ next, server.request registry (.create request) = some next → server.Keeps next
  | .incref _ | .decref _ => True

def CreateUnshared (registry : Dict String Registration) (server : Server) :
    ServerRequest → Prop
  | .create request => server.Unshared registry request
  | .incref _ | .decref _ => True

theorem createKeeps_iff (server : Server) (label : ServerRequest) :
    server.CreateKeeps registry label ↔ server.CreateUnshared registry label := by
  cases label with
  | create call =>
      simp only [CreateKeeps, CreateUnshared, Unshared, request]
      cases call.creation registry with
      | error exc => simp [Keeps.refl]
      | ok made =>
          simp only [Option.some.injEq, forall_eq', Except.ok.injEq]
          exact keeps_create_iff server made.obj made.exposed made.methodToTypeid
  | incref => exact Iff.rfl
  | decref => exact Iff.rfl

/-- In every run the interfaces stay as they are exactly if no object is created that is
shared with another interface. -/
theorem createKeeps_along_iff (registry : Dict String Registration) (server : Server)
    (requests : List ServerRequest) :
    Along (request registry) (CreateKeeps registry) server requests ↔
      Along (request registry) (CreateUnshared registry) server requests := by
  have kept : Preserves (request registry) (CreateUnshared registry) fun _ => True :=
    fun _ _ _ _ _ _ => True.intro
  exact along_congr kept (fun server label _ => createKeeps_iff server label) True.intro

/-- Two types of one object, such as a list and a view of it. -/
def twoTypes : Dict String Registration :=
  (Dict.empty.set "list" ⟨true, some ["append", "pop"], none⟩).set "view"
    ⟨true, some ["__len__"], none⟩

def createSeven (typeid : String) : ServerRequest :=
  .create ⟨typeid, [], false, .ok ⟨7, 0⟩, fun _ => .ok []⟩

theorem not_createKeeps_along : ¬ ∀ (registry : Dict String Registration)
    (requests : List ServerRequest),
    Along (request registry) (CreateKeeps registry) init requests := by
  intro claimed
  have second := ((claimed twoTypes [createSeven "list", createSeven "view"]).2 _ rfl).1 _ rfl
  -- the proxies of the list can append no more
  obtain ⟨now, held, same⟩ := second 7 (.object ⟨7, 0⟩ ["append", "pop"] none) (by decide)
  have view : now = .object ⟨7, 0⟩ ["__len__"] none :=
    Option.some.inj (held.symm.trans (by decide))
  rw [view] at same
  exact absurd ((same.1 "append").mpr (by decide)) (by decide)

end Server

end Billiard
