import Billiard.Data.Tally
import Billiard.Data.Transition
import Billiard.Managers.Server

/-! The reference counts of a manager's server, driven by the proxies of its clients. -/

namespace Billiard

open Transition

/-- A proxy, from the call of `create` or the copying of its token on.  A proxy whose
object is known holds a reference that the server has counted: the one of `create` while
it is `created`, its own while it is `live`, both while it is `settling`.  A reference is
`leaked` when its client dies or finds the manager stopped. -/
inductive Proxy where
  | creating
  | created (ident : Nat) (obj : Option Object)
  | settling (ident : Nat) (obj : Option Object)
  | copied (ident : Nat)
  | live (ident : Nat) (obj : Option Object)
  | leaving (ident : Nat)
  | leaked (ident : Nat)
  | gone
deriving DecidableEq, Repr, Inhabited

/-- Where the thread that holds the mutex stands, for which proxy. -/
inductive Section where
  | creating (number : Nat)
  | stored (number ident : Nat)
  | enrolled (number ident : Nat)
  | increfing (number ident : Nat)
  | decrefing (number ident : Nat)
  | asserted (number ident : Nat)
  | subtracted (number ident : Nat)
  | unlinked (number ident : Nat)
deriving DecidableEq, Repr

/-- What goes wrong in `decref`, or in the `incref` that `create` calls. -/
inductive Fault where
  | assertionError
  | keyError
deriving DecidableEq, Repr

/-- `faults` is a history. -/
structure Manager where
  server : Server
  proxies : List Proxy
  holder : Option Section
  faults : List Fault

/-- `create` and `copy` are the beginnings of a proxy: a call of `_create` or a result that
becomes a proxy, and a fork or an unpickling.  `construct` is the end of the registered
callable, with what `create` stores unless an exception is raised. -/
inductive ManagerStep where
  | create
  | copy (ident : Nat)
  | finalize (number : Nat)
  | abandon (number : Nat)
  | acquire (number : Nat)
  | construct (built : Option (Object × List String × Option (List (String × String))))
  | advance
deriving DecidableEq

namespace Proxy

def request (number : Nat) : Proxy → Option Section
  | .creating => some (.creating number)
  | .created ident _ | .copied ident => some (.increfing number ident)
  | .settling ident _ | .leaving ident => some (.decrefing number ident)
  | .live _ _ | .leaked _ | .gone => none

/-- After the `incref` that a proxy makes for itself. -/
def increfed (obj : Option Object) : Proxy → Proxy
  | .created ident known => .settling ident known
  | .copied ident => .live ident obj
  | proxy => proxy

/-- After an `incref` that failed; what `create` has counted stays. -/
def orphaned : Proxy → Proxy
  | .created ident _ => .leaked ident
  | .copied _ => .gone
  | proxy => proxy

/-- After a `decref`, whether or not it succeeds. -/
def decrefed : Proxy → Proxy
  | .settling ident obj => .live ident obj
  | .leaving _ => .gone
  | proxy => proxy

/-- The references to an object that are those of a proxy that exists. -/
def holding (ident : Nat) : Proxy → Nat
  | .settling other _ | .live other _ => if other = ident then 1 else 0
  | _ => 0

/-- The references that are to be given back, or that never will be. -/
def owing (ident : Nat) : Proxy → Nat
  | .created other _ | .settling other _ | .leaving other | .leaked other =>
      if other = ident then 1 else 0
  | .creating | .copied _ | .live _ _ | .gone => 0

def weight (ident : Nat) (proxy : Proxy) : Nat := proxy.holding ident + proxy.owing ident

/-- The object that a proxy, or the client that is about to make one, relies on. -/
def referent : Proxy → Option (Nat × Option Object)
  | .created ident obj | .settling ident obj | .live ident obj => some (ident, obj)
  | .creating | .copied _ | .leaving _ | .leaked _ | .gone => none

end Proxy

def Section.number : Section → Nat
  | .creating number | .stored number _ | .enrolled number _ | .increfing number _
  | .decrefing number _ | .asserted number _ | .subtracted number _ | .unlinked number _ => number

namespace Manager

def init : Manager := ⟨.init, [], none, []⟩

/-- The thread leaves the mutex and answers. -/
def release (manager : Manager) (number : Nat) (after : Proxy → Proxy) : Manager :=
  { manager with proxies := manager.proxies.modify number after, holder := none }

def fail (manager : Manager) (fault : Fault) : Manager :=
  { manager with faults := manager.faults ++ [fault] }

def advance (manager : Manager) : Section → Option Manager
  | .creating _ => none
  | .stored number ident =>
      some { manager with
        server := manager.server.enroll ident
        holder := some (.enrolled number ident) }
  | .enrolled number ident =>
      match manager.server.incref? ident with
      | some server =>
          some ({ manager with server }.release number
            fun _ => .created ident (server.objectAt ident))
      | none => some ((manager.fail .keyError).release number fun _ => .gone)
  | .increfing number ident =>
      match manager.server.incref? ident with
      | some server =>
          some ({ manager with server }.release number (.increfed (server.objectAt ident)))
      | none => some (manager.release number .orphaned)
  | .decrefing number ident =>
      match manager.server.idToRefcount ident with
      | some count =>
          if 1 ≤ count then some { manager with holder := some (.asserted number ident) }
          else some ((manager.fail .assertionError).release number .decrefed)
      | none => some ((manager.fail .keyError).release number .decrefed)
  | .asserted number ident =>
      match manager.server.subtract? ident with
      | some server => some { manager with server, holder := some (.subtracted number ident) }
      | none => some ((manager.fail .keyError).release number .decrefed)
  | .subtracted number ident =>
      match manager.server.idToRefcount ident with
      | some 0 =>
          match manager.server.unlink? ident with
          | some server => some { manager with server, holder := some (.unlinked number ident) }
          | none => some ((manager.fail .keyError).release number .decrefed)
      | some (_ + 1) => some (manager.release number .decrefed)
      | none => some ((manager.fail .keyError).release number .decrefed)
  | .unlinked number ident =>
      match manager.server.unlist? ident with
      | some server => some ({ manager with server }.release number .decrefed)
      | none => some ((manager.fail .keyError).release number .decrefed)

/-- Nothing new can have the id of an object that the server keeps. -/
def mayBe (manager : Manager) (obj : Object) : Bool :=
  obj.id ≠ 0 && (manager.server.objectAt obj.id).all (· = obj)

def step (manager : Manager) : ManagerStep → Option Manager
  | .create => some { manager with proxies := manager.proxies ++ [.creating] }
  | .copy ident => some { manager with proxies := manager.proxies ++ [.copied ident] }
  | .finalize number =>
      match manager.proxies[number]? with
      | some (.live ident _) =>
          some { manager with proxies := manager.proxies.set number (.leaving ident) }
      | _ => none
  | .abandon number =>
      if manager.holder.any (·.number = number) then none else
      match manager.proxies[number]? with
      | some (.created ident _) | some (.live ident _) | some (.leaving ident) =>
          some { manager with proxies := manager.proxies.set number (.leaked ident) }
      | some (.settling ident obj) =>
          -- only the reference of `create` is lost
          some { manager with
            proxies := manager.proxies.set number (.live ident obj) ++ [.leaked ident] }
      | _ => none
  | .acquire number =>
      match manager.holder with
      | some _ => none
      | none =>
          match manager.proxies[number]?.bind (Proxy.request number) with
          | some holder => some { manager with holder := some holder }
          | none => none
  | .construct built =>
      match manager.holder with
      | some (.creating number) =>
          match built with
          | none => some (manager.release number fun _ => .gone)
          | some (obj, exposed, methodToTypeid) =>
              if manager.mayBe obj then
                some { manager with
                  server := manager.server.store obj exposed methodToTypeid
                  holder := some (.stored number obj.id) }
              else none
      | _ => none
  | .advance =>
      match manager.holder with
      | some holder => manager.advance holder
      | none => none

/-- The tables outside the mutex, the faults of `decref`, and the proxies at all times. -/
structure Sound (manager : Manager) : Prop where
  keys : manager.holder = none → ∀ ident,
    (manager.server.idToRefcount ident).isSome ↔
      ident ≠ 0 ∧ (manager.server.idToObj ident).isSome
  positive : manager.holder = none → ∀ ident count,
    manager.server.idToRefcount ident = some count → 1 ≤ count
  faultless : manager.faults = []
  counted : ∀ ident, tally (Proxy.holding ident) manager.proxies ≤
    (manager.server.idToRefcount ident).getD 0
  kept : ∀ proxy ∈ manager.proxies, ∀ ident obj, proxy.referent = some (ident, obj) →
    obj.isSome ∧ manager.server.objectAt ident = obj

end Manager

/-- The server outside the mutex, in which every count is that of the references. -/
structure Settled (server : Server) (proxies : List Proxy) : Prop where
  keys : ∀ ident, (server.idToRefcount ident).isSome ↔
    ident ≠ 0 ∧ (server.idToObj ident).isSome
  hosted : ∀ ident, ident ≠ 0 → server.idToObj ident ≠ some .reserved
  positive : ∀ ident, server.idToRefcount ident ≠ some 0
  counts : ∀ ident, (server.idToRefcount ident).getD 0 = tally (Proxy.weight ident) proxies
  kept : ∀ proxy ∈ proxies, ∀ ident obj, proxy.referent = some (ident, obj) →
    obj.isSome ∧ server.objectAt ident = obj

/-- What the thread in the mutex has made of the server that it found. -/
def Progress (before server : Server) (proxies : List Proxy) : Option Section → Prop
  | none => server = before
  | some (.creating number) => server = before ∧ proxies[number]? = some .creating
  | some (.stored number ident) => ∃ obj exposed methodToTypeid,
      obj.id = ident ∧ ident ≠ 0 ∧ (before.objectAt ident).all (· = obj) ∧
        server = before.store obj exposed methodToTypeid ∧ proxies[number]? = some .creating
  | some (.enrolled number ident) => ∃ obj exposed methodToTypeid,
      obj.id = ident ∧ ident ≠ 0 ∧ (before.objectAt ident).all (· = obj) ∧
        server = (before.store obj exposed methodToTypeid).enroll ident ∧
        proxies[number]? = some .creating
  | some (.increfing number ident) =>
      server = before ∧ ∃ proxy, proxies[number]? = some proxy ∧
        proxy.request number = some (.increfing number ident)
  | some (.decrefing number ident) | some (.asserted number ident) =>
      server = before ∧ ∃ proxy, proxies[number]? = some proxy ∧
        proxy.request number = some (.decrefing number ident)
  | some (.subtracted number ident) => ∃ count,
      before.idToRefcount ident = some (count + 1) ∧ server = before.setCount ident count ∧
        ∃ proxy, proxies[number]? = some proxy ∧
          proxy.request number = some (.decrefing number ident)
  | some (.unlinked number ident) =>
      before.idToRefcount ident = some 1 ∧
        server = { before.setCount ident 0 with idToObj := before.idToObj.erase ident } ∧
        ∃ proxy, proxies[number]? = some proxy ∧
          proxy.request number = some (.decrefing number ident)

structure Manager.Invariant (manager : Manager) : Prop where
  faultless : manager.faults = []
  progress : ∃ before, Settled before manager.proxies ∧
    Progress before manager.server manager.proxies manager.holder

namespace Proxy

variable {proxy : Proxy} {number ident : Nat}

theorem weight_pos {obj : Option Object} (refers : proxy.referent = some (ident, obj)) :
    1 ≤ proxy.weight ident := by
  cases proxy <;> cases refers <;> simp [weight, holding, owing]

theorem increfed_weight (asks : proxy.request number = some (.increfing number ident))
    (obj : Option Object) (other : Nat) :
    (proxy.increfed obj).weight other = proxy.weight other + if other = ident then 1 else 0 := by
  cases proxy <;> cases asks <;> simp [increfed, weight, holding, owing, eq_comm]

theorem decrefed_weight (asks : proxy.request number = some (.decrefing number ident))
    (other : Nat) :
    proxy.weight other = proxy.decrefed.weight other + if other = ident then 1 else 0 := by
  cases proxy <;> cases asks <;> simp [decrefed, weight, holding, owing, eq_comm]

theorem owing_pos (asks : proxy.request number = some (.decrefing number ident)) :
    1 ≤ proxy.owing ident := by
  cases proxy <;> cases asks <;> simp [owing]

theorem decrefed_referent (asks : proxy.request number = some (.decrefing number ident))
    {obj : Option Object} {other : Nat} (refers : proxy.decrefed.referent = some (other, obj)) :
    proxy.referent = some (other, obj) := by
  cases proxy <;> cases asks <;> cases refers
  rfl

end Proxy

namespace Settled

variable {server : Server} {proxies : List Proxy} {number ident : Nat} {old new : Proxy}

theorem replace {after : Server} (settled : Settled server proxies)
    (found : proxies[number]? = some old)
    (keys : ∀ ident, (after.idToRefcount ident).isSome ↔
      ident ≠ 0 ∧ (after.idToObj ident).isSome)
    (hosted : ∀ ident, ident ≠ 0 → after.idToObj ident ≠ some .reserved)
    (positive : ∀ ident, after.idToRefcount ident ≠ some 0)
    (counts : ∀ ident, (after.idToRefcount ident).getD 0 + old.weight ident =
      (server.idToRefcount ident).getD 0 + new.weight ident)
    (kept : ∀ proxy ∈ proxies, ∀ ident obj, proxy.referent = some (ident, obj) →
      after.objectAt ident = server.objectAt ident)
    (referent : ∀ ident obj, new.referent = some (ident, obj) →
      obj.isSome ∧ after.objectAt ident = obj) :
    Settled after (proxies.set number new) where
  keys := keys
  hosted := hosted
  positive := positive
  counts ident := by
    have replaced := Tally.tally_set (Proxy.weight ident) found new
    have before := settled.counts ident
    have change := counts ident
    omega
  kept proxy listed ident obj refers := by
    cases List.mem_or_eq_of_mem_set listed with
    | inl member =>
        obtain ⟨known, stored⟩ := settled.kept proxy member ident obj refers
        exact ⟨known, (kept proxy member ident obj refers).trans stored⟩
    | inr same =>
        subst same
        exact referent ident obj refers

theorem recount {after : List Proxy} (settled : Settled server proxies)
    (counts : ∀ ident, tally (Proxy.weight ident) after = tally (Proxy.weight ident) proxies)
    (kept : ∀ proxy ∈ after, ∀ ident obj, proxy.referent = some (ident, obj) →
      ∃ other ∈ proxies, other.referent = some (ident, obj)) : Settled server after where
  keys := settled.keys
  hosted := settled.hosted
  positive := settled.positive
  counts ident := (settled.counts ident).trans (counts ident).symm
  kept proxy listed ident obj refers := by
    obtain ⟨other, member, same⟩ := kept proxy listed ident obj refers
    exact settled.kept other member ident obj same

theorem append (settled : Settled server proxies) (weightless : ∀ ident, new.weight ident = 0)
    (referent : new.referent = none) : Settled server (proxies ++ [new]) := by
  apply settled.recount
  case counts =>
    intro ident
    simp [weightless]
  case kept =>
    intro proxy listed ident obj refers
    cases List.mem_append.mp listed with
    | inl member => exact ⟨proxy, member, refers⟩
    | inr last =>
        rw [List.mem_singleton.mp last, referent] at refers
        cases refers

theorem change (settled : Settled server proxies) (found : proxies[number]? = some old)
    (weight : ∀ ident, new.weight ident = old.weight ident) (referent : new.referent = none) :
    Settled server (proxies.set number new) := by
  apply settled.recount
  case counts =>
    intro ident
    have replaced := Tally.tally_set (Proxy.weight ident) found new
    rw [weight ident] at replaced
    omega
  case kept =>
    intro proxy listed ident obj refers
    cases List.mem_or_eq_of_mem_set listed with
    | inl member => exact ⟨proxy, member, refers⟩
    | inr same =>
        rw [same, referent] at refers
        cases refers

/-- The reference of `create` is lost, and the proxy has its own. -/
theorem lose (settled : Settled server proxies) {obj : Option Object}
    (found : proxies[number]? = some (.settling ident obj)) :
    Settled server (proxies.set number (.live ident obj) ++ [.leaked ident]) := by
  apply settled.recount
  case counts =>
    intro other
    have replaced := Tally.tally_set (Proxy.weight other) found (.live ident obj)
    simp only [Tally.tally_append, Tally.tally_cons, Tally.tally_nil]
    simp only [Proxy.weight, Proxy.holding, Proxy.owing] at replaced ⊢
    omega
  case kept =>
    intro proxy listed other known refers
    cases List.mem_append.mp listed with
    | inl inside =>
        cases List.mem_or_eq_of_mem_set inside with
        | inl member => exact ⟨proxy, member, refers⟩
        | inr same =>
            subst same
            exact ⟨_, List.mem_of_getElem? found, refers⟩
    | inr last =>
        rw [List.mem_singleton.mp last] at refers
        cases refers

theorem objectAt_isSome (settled : Settled server proxies) {count : Nat}
    (counted : server.idToRefcount ident = some count) : (server.objectAt ident).isSome = true := by
  obtain ⟨nonzero, listed⟩ := (settled.keys ident).mp (by rw [counted]; rfl)
  obtain ⟨hosted, found⟩ := Option.isSome_iff_exists.mp listed
  have proper := settled.hosted ident nonzero
  unfold Server.objectAt
  cases hosted with
  | reserved => exact absurd found proper
  | object obj exposed methodToTypeid => simp [found]

theorem holding_add_owing (settled : Settled server proxies) (ident : Nat) :
    tally (Proxy.holding ident) proxies + tally (Proxy.owing ident) proxies =
      (server.idToRefcount ident).getD 0 := by
  rw [settled.counts ident, ← Tally.tally_add]
  rfl

theorem holding_lt (settled : Settled server proxies) (found : proxies[number]? = some old)
    (asks : old.request number = some (.decrefing number ident)) :
    tally (Proxy.holding ident) proxies < (server.idToRefcount ident).getD 0 := by
  have both := settled.holding_add_owing ident
  have owes : tally (Proxy.owing ident) proxies ≠ 0 := by
    intro nothing
    have weightless := Tally.weight_eq_zero nothing (List.mem_of_getElem? found)
    have owing := Proxy.owing_pos asks
    omega
  omega

theorem store_objectAt (settled : Settled server proxies) {obj : Object}
    (same : (server.objectAt obj.id).all (· = obj)) {exposed : List String}
    {methodToTypeid : Option (List (String × String))} {proxy : Proxy} (member : proxy ∈ proxies)
    {stored : Option Object} (refers : proxy.referent = some (ident, stored)) :
    (server.store obj exposed methodToTypeid).objectAt ident = stored := by
  obtain ⟨known, at_ident⟩ := settled.kept proxy member ident stored refers
  rw [Server.store_objectAt]
  split
  case isFalse => exact at_ident
  case isTrue here =>
    subst here
    obtain ⟨existing, rfl⟩ := Option.isSome_iff_exists.mp known
    rw [at_ident] at same
    rw [show existing = obj by simpa using same]

theorem create (settled : Settled server proxies) (found : proxies[number]? = some .creating)
    {obj : Object} (nonzero : obj.id ≠ 0) (same : (server.objectAt obj.id).all (· = obj))
    (exposed : List String) (methodToTypeid : Option (List (String × String))) :
    Settled (((server.store obj exposed methodToTypeid).enroll obj.id).setCount obj.id
        ((server.idToRefcount obj.id).getD 0 + 1))
      (proxies.set number (.created obj.id (some obj))) := by
  apply settled.replace found
  case keys =>
    intro ident
    by_cases here : ident = obj.id
    · simp [Server.setCount_apply, Server.store, Dict.set_apply, here, nonzero]
    · simp [Server.setCount_apply, Server.enroll_apply, Server.store, Dict.set_apply, here,
        settled.keys ident]
  case hosted =>
    intro ident other
    by_cases here : ident = obj.id
    · simp [Server.store, Dict.set_apply, here]
    · simp [Server.store, Dict.set_apply, here, settled.hosted ident other]
  case positive =>
    intro ident
    by_cases here : ident = obj.id
    · simp [Server.setCount_apply, here]
    · simp [Server.setCount_apply, Server.enroll_apply, here, settled.positive ident]
  case counts =>
    intro ident
    by_cases here : ident = obj.id
    · simp [Server.setCount_apply, Proxy.weight, Proxy.holding, Proxy.owing, here]
    · simp [Server.setCount_apply, Server.enroll_apply, Proxy.weight, Proxy.holding, Proxy.owing,
        here, Ne.symm here]
  case kept =>
    intro proxy member ident stored refers
    simp only [Server.setCount_objectAt, Server.enroll_objectAt]
    rw [settled.store_objectAt same member refers]
    exact (settled.kept proxy member ident stored refers).2.symm
  case referent =>
    intro ident stored refers
    cases refers
    simp [Server.store_objectAt]

theorem keys_setCount (settled : Settled server proxies) {count : Nat}
    (counted : server.idToRefcount ident = some count) (after other : Nat) :
    ((server.setCount ident after).idToRefcount other).isSome ↔
      other ≠ 0 ∧ ((server.setCount ident after).idToObj other).isSome := by
  by_cases here : other = ident
  · simp [Server.setCount_apply, here, (settled.keys ident).mp (by rw [counted]; rfl)]
  · simp [Server.setCount_apply, here, settled.keys other]

theorem positive_setCount (settled : Settled server proxies) (ident after other : Nat) :
    (server.setCount ident (after + 1)).idToRefcount other ≠ some 0 := by
  by_cases here : other = ident
  · simp [Server.setCount_apply, here]
  · simp [Server.setCount_apply, here, settled.positive other]

/-- The count of one object changes as much as what a proxy has of it. -/
theorem setCount (settled : Settled server proxies) (found : proxies[number]? = some old)
    {count after : Nat} (counted : server.idToRefcount ident = some count)
    (weight : after + 1 + old.weight ident = count + new.weight ident)
    (others : ∀ other, other ≠ ident → new.weight other = old.weight other)
    (referent : ∀ other obj, new.referent = some (other, obj) →
      obj.isSome ∧ server.objectAt other = obj) :
    Settled (server.setCount ident (after + 1)) (proxies.set number new) := by
  apply settled.replace found
  case keys => exact settled.keys_setCount counted _
  case hosted => exact settled.hosted
  case positive => exact settled.positive_setCount ident after
  case counts =>
    intro other
    by_cases here : other = ident
    · simpa [Server.setCount_apply, here, counted] using weight
    · simp [Server.setCount_apply, here, others other here]
  case kept => exact fun _ _ _ _ _ => rfl
  case referent => exact referent

theorem incref (settled : Settled server proxies) (found : proxies[number]? = some old)
    {count : Nat} (counted : server.idToRefcount ident = some count)
    (asks : old.request number = some (.increfing number ident)) :
    Settled (server.setCount ident (count + 1))
      (proxies.set number (old.increfed (server.objectAt ident))) := by
  have weight := Proxy.increfed_weight asks (server.objectAt ident)
  apply settled.setCount found counted
  · rw [weight, if_pos rfl]
    omega
  · intro other different
    rw [weight, if_neg different, Nat.add_zero]
  · intro other stored refers
    cases old <;> cases asks <;> cases refers
    · exact settled.kept _ (List.mem_of_getElem? found) _ _ rfl
    · exact ⟨settled.objectAt_isSome counted, rfl⟩

theorem orphan (settled : Settled server proxies) (found : proxies[number]? = some old)
    (asks : old.request number = some (.increfing number ident)) :
    Settled server (proxies.set number old.orphaned) := by
  apply settled.change found
  case weight =>
    intro other
    cases old <;> cases asks <;>
      simp [Proxy.orphaned, Proxy.weight, Proxy.holding, Proxy.owing]
  case referent => cases old <;> cases asks <;> rfl

theorem decref (settled : Settled server proxies) (found : proxies[number]? = some old)
    {count : Nat} (counted : server.idToRefcount ident = some (count + 2))
    (asks : old.request number = some (.decrefing number ident)) :
    Settled (server.setCount ident (count + 1)) (proxies.set number old.decrefed) := by
  have weight := Proxy.decrefed_weight asks
  apply settled.setCount found counted
  · rw [weight, if_pos rfl]
    omega
  · intro other different
    rw [weight other, if_neg different, Nat.add_zero]
  · intro other stored refers
    exact settled.kept _ (List.mem_of_getElem? found) _ _ (Proxy.decrefed_referent asks refers)

theorem count_pos (settled : Settled server proxies) (found : proxies[number]? = some old)
    (asks : old.request number = some (.decrefing number ident)) :
    ∃ count, server.idToRefcount ident = some (count + 1) := by
  have given_back := Proxy.decrefed_weight asks ident
  rw [if_pos rfl] at given_back
  have counts := settled.counts ident
  cases counted : server.idToRefcount ident with
  | none =>
      rw [counted] at counts
      have weightless := Tally.weight_eq_zero counts.symm (List.mem_of_getElem? found)
      omega
  | some count =>
      cases count with
      | zero => exact absurd counted (settled.positive ident)
      | succ count => exact ⟨count, rfl⟩

/-- Nobody relies on an object of which the last reference is given back. -/
theorem ne_of_last (settled : Settled server proxies) (found : proxies[number]? = some old)
    (counted : server.idToRefcount ident = some 1)
    (asks : old.request number = some (.decrefing number ident)) {proxy : Proxy}
    (member : proxy ∈ proxies) {other : Nat} {obj : Option Object}
    (refers : proxy.referent = some (other, obj)) : other ≠ ident := by
  intro same
  subst same
  have replaced := Tally.tally_set (Proxy.weight other) found old.decrefed
  have counts := settled.counts other
  have given_back := Proxy.decrefed_weight asks other
  rw [if_pos rfl] at given_back
  rw [counted, Option.getD_some] at counts
  have nothing : tally (Proxy.weight other) (proxies.set number old.decrefed) = 0 := by omega
  obtain ⟨i, here⟩ := List.getElem?_of_mem member
  by_cases own : number = i
  · subst own
    rw [found] at here
    cases here
    have listed : old.decrefed ∈ proxies.set number old.decrefed :=
      List.mem_set (List.getElem?_eq_some_iff.mp found).1 _
    have weightless := Tally.weight_eq_zero nothing listed
    cases old <;> cases asks <;> cases refers
    simp [Proxy.decrefed, Proxy.weight, Proxy.holding] at weightless
  · have listed : proxy ∈ proxies.set number old.decrefed :=
      List.mem_of_getElem? ((List.getElem?_set_ne own).trans here)
    have weightless := Tally.weight_eq_zero nothing listed
    have weight := Proxy.weight_pos refers
    omega

theorem dispose (settled : Settled server proxies) (found : proxies[number]? = some old)
    (counted : server.idToRefcount ident = some 1)
    (asks : old.request number = some (.decrefing number ident)) :
    Settled ⟨server.idToObj.erase ident, (server.idToRefcount.set ident 0).erase ident⟩
      (proxies.set number old.decrefed) := by
  apply settled.replace found
  case keys =>
    intro other
    by_cases here : other = ident
    · simp [Dict.erase_apply, here]
    · simp [Dict.erase_apply, Dict.set_apply, here, settled.keys other]
  case hosted =>
    intro other nonzero
    by_cases here : other = ident
    · simp [Dict.erase_apply, here]
    · simp [Dict.erase_apply, here, settled.hosted other nonzero]
  case positive =>
    intro other
    by_cases here : other = ident
    · simp [Dict.erase_apply, here]
    · simp [Dict.erase_apply, Dict.set_apply, here, settled.positive other]
  case counts =>
    intro other
    rw [Proxy.decrefed_weight asks other]
    by_cases here : other = ident
    · simp [Dict.erase_apply, here, counted]
      omega
    · simp [Dict.erase_apply, Dict.set_apply, here]
  case kept =>
    intro proxy member other obj refers
    have here : other ≠ ident := settled.ne_of_last found counted asks member refers
    simp [Server.objectAt, Dict.erase_apply, here]
  case referent =>
    intro other obj refers
    have member := List.mem_of_getElem? found
    have refers_before := Proxy.decrefed_referent asks refers
    have here : other ≠ ident := settled.ne_of_last found counted asks member refers_before
    obtain ⟨known, stored⟩ := settled.kept old member other obj refers_before
    refine ⟨known, ?_⟩
    rw [← stored]
    simp [Server.objectAt, Dict.erase_apply, here]

end Settled

namespace Progress

variable {before server : Server} {proxies : List Proxy} {holder : Option Section}

/-- The proxy for which the thread in the mutex works waits for its answer. -/
theorem waits {place : Section} (progress : Progress before server proxies (some place)) :
    ∃ proxy, proxies[place.number]? = some proxy ∧ (proxy.request place.number).isSome = true := by
  cases place with
  | creating number => exact ⟨.creating, progress.2, rfl⟩
  | stored number ident =>
      obtain ⟨_, _, _, _, _, _, _, found⟩ := progress
      exact ⟨.creating, found, rfl⟩
  | enrolled number ident =>
      obtain ⟨_, _, _, _, _, _, _, found⟩ := progress
      exact ⟨.creating, found, rfl⟩
  | increfing number ident =>
      obtain ⟨_, proxy, found, asks⟩ := progress
      exact ⟨proxy, found, Option.isSome_iff_exists.mpr ⟨_, asks⟩⟩
  | decrefing number ident =>
      obtain ⟨_, proxy, found, asks⟩ := progress
      exact ⟨proxy, found, Option.isSome_iff_exists.mpr ⟨_, asks⟩⟩
  | asserted number ident =>
      obtain ⟨_, proxy, found, asks⟩ := progress
      exact ⟨proxy, found, Option.isSome_iff_exists.mpr ⟨_, asks⟩⟩
  | subtracted number ident =>
      obtain ⟨_, _, _, proxy, found, asks⟩ := progress
      exact ⟨proxy, found, Option.isSome_iff_exists.mpr ⟨_, asks⟩⟩
  | unlinked number ident =>
      obtain ⟨_, _, proxy, found, asks⟩ := progress
      exact ⟨proxy, found, Option.isSome_iff_exists.mpr ⟨_, asks⟩⟩

theorem congr {after : List Proxy} (progress : Progress before server proxies holder)
    (same : ∀ place ∈ holder, after[place.number]? = proxies[place.number]?) :
    Progress before server after holder := by
  cases holder with
  | none => exact progress
  | some place =>
      have unchanged := same place rfl
      cases place <;> simp only [Section.number] at unchanged <;>
        simpa only [Progress, unchanged] using progress

theorem append (progress : Progress before server proxies holder) (more : List Proxy) :
    Progress before server (proxies ++ more) holder := by
  apply progress.congr
  intro place held
  cases held
  obtain ⟨proxy, found, _⟩ := progress.waits
  exact List.getElem?_append_left (List.getElem?_eq_some_iff.mp found).1

theorem set (progress : Progress before server proxies holder) {number : Nat}
    (elsewhere : ∀ place ∈ holder, place.number ≠ number) (proxy : Proxy) :
    Progress before server (proxies.set number proxy) holder := by
  apply progress.congr
  intro place held
  exact List.getElem?_set_ne (Ne.symm (elsewhere place held))

theorem counted (progress : Progress before server proxies holder)
    (settled : Settled before proxies) (ident : Nat) :
    tally (Proxy.holding ident) proxies ≤ (server.idToRefcount ident).getD 0 := by
  have both := settled.holding_add_owing ident
  have unchanged (same : server.idToRefcount = before.idToRefcount) :
      tally (Proxy.holding ident) proxies ≤ (server.idToRefcount ident).getD 0 := by
    rw [same]
    omega
  cases holder with
  | none => exact unchanged (congrArg Server.idToRefcount progress)
  | some place =>
      cases place with
      | creating number => exact unchanged (congrArg Server.idToRefcount progress.1)
      | increfing number other => exact unchanged (congrArg Server.idToRefcount progress.1)
      | decrefing number other => exact unchanged (congrArg Server.idToRefcount progress.1)
      | asserted number other => exact unchanged (congrArg Server.idToRefcount progress.1)
      | stored number other =>
          obtain ⟨_, _, _, _, _, _, rfl, _⟩ := progress
          exact unchanged rfl
      | enrolled number other =>
          obtain ⟨_, _, _, _, _, _, rfl, _⟩ := progress
          by_cases here : ident = other
          · subst here
            simp only [Server.enroll_apply, Server.store_idToRefcount, if_true, Option.getD_some]
            omega
          · simp only [Server.enroll_apply, Server.store_idToRefcount, here, if_false]
            omega
      | subtracted number other =>
          obtain ⟨count, counted, rfl, proxy, found, asks⟩ := progress
          by_cases here : ident = other
          · subst here
            have less := settled.holding_lt found asks
            rw [counted, Option.getD_some] at less
            simp only [Server.setCount_apply, if_true, Option.getD_some]
            omega
          · simp only [Server.setCount_apply, here, if_false]
            omega
      | unlinked number other =>
          obtain ⟨counted, rfl, proxy, found, asks⟩ := progress
          by_cases here : ident = other
          · subst here
            have less := settled.holding_lt found asks
            rw [counted, Option.getD_some] at less
            omega
          · simp only [Server.setCount_apply, here, if_false]
            omega

theorem kept (progress : Progress before server proxies holder)
    (settled : Settled before proxies) {proxy : Proxy} (member : proxy ∈ proxies) {ident : Nat}
    {obj : Option Object} (refers : proxy.referent = some (ident, obj)) :
    server.objectAt ident = obj := by
  have stored := (settled.kept proxy member ident obj refers).2
  cases holder with
  | none =>
      rw [show server = before from progress]
      exact stored
  | some place =>
      cases place with
      | creating number => exact progress.1 ▸ stored
      | increfing number other => exact progress.1 ▸ stored
      | decrefing number other => exact progress.1 ▸ stored
      | asserted number other => exact progress.1 ▸ stored
      | stored number other =>
          obtain ⟨new, _, _, rfl, _, same, rfl, _⟩ := progress
          exact settled.store_objectAt same member refers
      | enrolled number other =>
          obtain ⟨new, _, _, rfl, _, same, rfl, _⟩ := progress
          rw [Server.enroll_objectAt]
          exact settled.store_objectAt same member refers
      | subtracted number other =>
          obtain ⟨count, _, rfl, _⟩ := progress
          exact stored
      | unlinked number other =>
          obtain ⟨counted, rfl, old, found, asks⟩ := progress
          have here : ident ≠ other := settled.ne_of_last found counted asks member refers
          rw [← stored]
          simp [Server.objectAt, Dict.erase_apply, here]

end Progress

namespace Manager

variable {manager next : Manager}

theorem Invariant.clients (invariant : manager.Invariant) (proxies : List Proxy)
    (settled : ∀ before, Settled before manager.proxies → Settled before proxies)
    (progress : ∀ before, Progress before manager.server manager.proxies manager.holder →
      Progress before manager.server proxies manager.holder) :
    Invariant { manager with proxies } := by
  obtain ⟨before, was_settled, was_progress⟩ := invariant.progress
  exact ⟨invariant.faultless, before, settled before was_settled, progress before was_progress⟩

theorem Invariant.leave (invariant : manager.Invariant) {number : Nat} {proxy : Proxy}
    (found : manager.proxies[number]? = some proxy) {server : Server} {after : Proxy → Proxy}
    (settled : Settled server (manager.proxies.set number (after proxy))) :
    Invariant ({ manager with server }.release number after) := by
  refine ⟨invariant.faultless, server, ?_, rfl⟩
  simp only [release, List.modify_eq_set, found, Option.getD_some]
  exact settled

theorem Invariant.advance (invariant : manager.Invariant) {place : Section}
    (held : manager.holder = some place) (taken : manager.advance place = some next) :
    next.Invariant := by
  obtain ⟨before, settled, progress⟩ := invariant.progress
  rw [held] at progress
  cases place with
  | creating number => cases taken
  | stored number ident =>
      cases taken
      obtain ⟨obj, exposed, methodToTypeid, same_id, nonzero, same, stored, found⟩ := progress
      refine ⟨invariant.faultless, before, settled, obj, exposed, methodToTypeid, same_id, nonzero,
        same, ?_, found⟩
      rw [stored]
  | enrolled number ident =>
      obtain ⟨obj, exposed, methodToTypeid, rfl, nonzero, same, stored, found⟩ := progress
      have created := settled.create found nonzero same exposed methodToTypeid
      have counted : manager.server.incref? obj.id = some (manager.server.setCount obj.id
          ((before.idToRefcount obj.id).getD 0 + 1)) := by
        simp [Server.incref?, stored, Server.enroll_apply]
      have at_id : manager.server.objectAt obj.id = some obj := by
        simp [stored, Server.store_objectAt]
      simp only [Manager.advance, counted, Server.setCount_objectAt, at_id] at taken
      cases taken
      apply invariant.leave found
      rw [stored]
      exact created
  | increfing number ident =>
      obtain ⟨same, proxy, found, asks⟩ := progress
      rw [← same] at settled
      simp only [Manager.advance, Server.incref?] at taken
      cases counted : manager.server.idToRefcount ident with
      | none =>
          rw [counted] at taken
          cases taken
          exact invariant.leave found (settled.orphan found asks)
      | some count =>
          rw [counted] at taken
          cases taken
          exact invariant.leave found (settled.incref found counted asks)
  | decrefing number ident =>
      obtain ⟨same, proxy, found, asks⟩ := progress
      rw [← same] at settled
      obtain ⟨count, counted⟩ := settled.count_pos found asks
      simp only [Manager.advance, counted, Nat.le_add_left, if_true] at taken
      cases taken
      exact ⟨invariant.faultless, manager.server, settled, rfl, proxy, found, asks⟩
  | asserted number ident =>
      obtain ⟨same, proxy, found, asks⟩ := progress
      rw [← same] at settled
      obtain ⟨count, counted⟩ := settled.count_pos found asks
      simp only [Manager.advance, Server.subtract?, counted, Option.map_some] at taken
      cases taken
      exact ⟨invariant.faultless, manager.server, settled, count, counted, rfl, proxy, found, asks⟩
  | subtracted number ident =>
      obtain ⟨count, counted, same, proxy, found, asks⟩ := progress
      have left : manager.server.idToRefcount ident = some count := by
        simp [same, Server.setCount_apply]
      simp only [Manager.advance, left] at taken
      cases count with
      | zero =>
          obtain ⟨nonzero, listed⟩ := (settled.keys ident).mp (by rw [counted]; rfl)
          obtain ⟨hosted, here⟩ := Option.isSome_iff_exists.mp listed
          have unlinked : manager.server.unlink? ident =
              some { before.setCount ident 0 with idToObj := before.idToObj.erase ident } := by
            simp [Server.unlink?, same, Dict.del?_of_some here, Server.setCount]
          simp only [unlinked] at taken
          cases taken
          exact ⟨invariant.faultless, before, settled, counted, rfl, proxy, found, asks⟩
      | succ count =>
          cases taken
          apply invariant.leave found
          rw [same]
          exact settled.decref found counted asks
  | unlinked number ident =>
      obtain ⟨counted, same, proxy, found, asks⟩ := progress
      have left : manager.server.idToRefcount ident = some 0 := by
        simp [same, Server.setCount_apply]
      simp only [Manager.advance, Server.unlist?, Dict.del?_of_some left, Option.map_some] at taken
      cases taken
      apply invariant.leave found
      rw [same]
      exact settled.dispose found counted asks

theorem invariant_init : init.Invariant := by
  refine ⟨rfl, .init, ?_, rfl⟩
  constructor
  case keys =>
    intro ident
    by_cases zero : ident = 0
    · simp [Server.init, Dict.empty, zero]
    · simp [Server.init, Dict.empty, Dict.set_apply, zero]
  case hosted =>
    intro ident nonzero
    simp [Server.init, Dict.empty, Dict.set_apply, nonzero]
  case positive => exact fun ident => by simp [Server.init, Dict.empty]
  case counts => exact fun ident => rfl
  case kept => exact fun proxy listed => by cases listed

theorem Invariant.elsewhere (invariant : manager.Invariant) {number : Nat} {proxy : Proxy}
    (found : manager.proxies[number]? = some proxy) (silent : proxy.request number = none) :
    ∀ place ∈ manager.holder, place.number ≠ number := by
  intro place held here
  obtain ⟨before, _, progress⟩ := invariant.progress
  rw [Option.mem_def.mp held] at progress
  obtain ⟨other, found_other, asks⟩ := progress.waits
  rw [here, found] at found_other
  cases found_other
  rw [here, silent] at asks
  cases asks

theorem Invariant.change (invariant : manager.Invariant) {number : Nat} {old new : Proxy}
    (found : manager.proxies[number]? = some old)
    (elsewhere : ∀ place ∈ manager.holder, place.number ≠ number)
    (weight : ∀ ident, new.weight ident = old.weight ident) (referent : new.referent = none) :
    Invariant { manager with proxies := manager.proxies.set number new } := by
  apply invariant.clients
  case settled => exact fun before settled => settled.change found weight referent
  case progress => exact fun before progress => progress.set elsewhere new

theorem Invariant.append (invariant : manager.Invariant) {new : Proxy}
    (weightless : ∀ ident, new.weight ident = 0) (referent : new.referent = none) :
    Invariant { manager with proxies := manager.proxies ++ [new] } := by
  apply invariant.clients
  case settled => exact fun before settled => settled.append weightless referent
  case progress => exact fun before progress => progress.append [new]

theorem Invariant.finalize (invariant : manager.Invariant) {number : Nat}
    (taken : manager.step (.finalize number) = some next) : next.Invariant := by
  simp only [step] at taken
  split at taken
  case h_2 => cases taken
  case h_1 ident obj found =>
    cases taken
    apply invariant.change found (invariant.elsewhere found rfl)
    case weight => simp [Proxy.weight, Proxy.holding, Proxy.owing]
    case referent => rfl

theorem Invariant.abandon (invariant : manager.Invariant) {number : Nat}
    (taken : manager.step (.abandon number) = some next) : next.Invariant := by
  simp only [step] at taken
  split at taken
  case isTrue => cases taken
  case isFalse idle =>
    have elsewhere : ∀ place ∈ manager.holder, place.number ≠ number := by
      intro place held here
      rw [Option.mem_def.mp held] at idle
      simp [here] at idle
    split at taken
    case h_1 ident obj found =>
      cases taken
      exact invariant.change found elsewhere (fun _ => rfl) rfl
    case h_2 ident obj found =>
      cases taken
      apply invariant.change found elsewhere
      case weight => simp [Proxy.weight, Proxy.holding, Proxy.owing]
      case referent => rfl
    case h_3 ident found =>
      cases taken
      exact invariant.change found elsewhere (fun _ => rfl) rfl
    case h_4 ident obj found =>
      cases taken
      apply invariant.clients
      case settled => exact fun before settled => settled.lose found
      case progress => exact fun before progress => (progress.set elsewhere _).append _
    case h_5 => cases taken

theorem Invariant.acquire (invariant : manager.Invariant) {number : Nat}
    (taken : manager.step (.acquire number) = some next) : next.Invariant := by
  obtain ⟨before, settled, progress⟩ := invariant.progress
  simp only [step] at taken
  cases free : manager.holder with
  | some place =>
      rw [free] at taken
      cases taken
  | none =>
      simp only [free] at taken progress
      cases asks : manager.proxies[number]?.bind (Proxy.request number) with
      | none =>
          rw [asks] at taken
          cases taken
      | some place =>
          rw [asks] at taken
          cases taken
          refine ⟨invariant.faultless, before, settled, ?_⟩
          obtain ⟨proxy, found, requested⟩ := Option.bind_eq_some_iff.mp asks
          cases proxy <;> cases requested
          · exact ⟨progress, found⟩
          · exact ⟨progress, _, found, rfl⟩
          · exact ⟨progress, _, found, rfl⟩
          · exact ⟨progress, _, found, rfl⟩
          · exact ⟨progress, _, found, rfl⟩

theorem Invariant.construct (invariant : manager.Invariant)
    {built : Option (Object × List String × Option (List (String × String)))}
    (taken : manager.step (.construct built) = some next) : next.Invariant := by
  obtain ⟨before, settled, progress⟩ := invariant.progress
  simp only [step] at taken
  split at taken
  case h_2 => cases taken
  case h_1 number held =>
    rw [held] at progress
    obtain ⟨same, found⟩ := progress
    cases built with
    | none =>
        cases taken
        apply invariant.leave found
        rw [same]
        exact settled.change found (fun _ => rfl) rfl
    | some built =>
        obtain ⟨obj, exposed, methodToTypeid⟩ := built
        simp only at taken
        split at taken
        case isFalse => cases taken
        case isTrue fresh =>
          cases taken
          simp only [mayBe, same, Bool.and_eq_true, decide_eq_true_eq] at fresh
          refine ⟨invariant.faultless, before, settled, obj, exposed, methodToTypeid, rfl,
            fresh.1, fresh.2, ?_, found⟩
          rw [same]

theorem step_invariant (manager : Manager) (label : ManagerStep) (next : Manager)
    (invariant : manager.Invariant) (taken : manager.step label = some next) :
    next.Invariant := by
  cases label with
  | create =>
      cases taken
      exact invariant.append (fun _ => rfl) rfl
  | copy ident =>
      cases taken
      exact invariant.append (fun _ => rfl) rfl
  | finalize number => exact invariant.finalize taken
  | abandon number => exact invariant.abandon taken
  | acquire number => exact invariant.acquire taken
  | construct built => exact invariant.construct taken
  | advance =>
      simp only [step] at taken
      split at taken
      case h_1 place held => exact invariant.advance held taken
      case h_2 => cases taken

theorem Invariant.sound (invariant : manager.Invariant) : manager.Sound := by
  obtain ⟨before, settled, progress⟩ := invariant.progress
  constructor
  case keys =>
    intro free
    rw [free] at progress
    rw [show manager.server = before from progress]
    exact settled.keys
  case positive =>
    intro free ident count counted
    rw [free] at progress
    rw [show manager.server = before from progress] at counted
    have positive := settled.positive ident
    rw [counted] at positive
    exact Nat.pos_of_ne_zero fun zero => positive (congrArg some zero)
  case faultless => exact invariant.faultless
  case counted => exact progress.counted settled
  case kept =>
    intro proxy member ident obj refers
    exact ⟨(settled.kept proxy member ident obj refers).1, progress.kept settled member refers⟩

/-- However the clients' requests interleave, and whatever they do between them. -/
theorem sound_run {steps : List ManagerStep} {last : Manager}
    (ran : run step init steps = some last) : last.Sound :=
  (invariant_run step_invariant invariant_init ran).sound

/-- A proxy is made and copied while the reference of `create` is handed over; then both
are finalized, the second of them with the object. -/
def handOverSteps : List ManagerStep :=
  [.create, .acquire 0, .construct (some (⟨7, 0⟩, ["append"], none)), .advance, .advance,
    .copy 7, .acquire 0, .advance, .acquire 1, .advance,
    .acquire 0, .advance, .advance, .advance,
    .finalize 0, .acquire 0, .advance, .advance, .advance,
    .finalize 1, .acquire 1, .advance, .advance, .advance, .advance]

theorem sound_run_handOverSteps : ∃ last, run step init handOverSteps = some last ∧ last.Sound := by
  have runs : (run step init handOverSteps).isSome = true := by decide
  obtain ⟨last, ran⟩ := Option.isSome_iff_exists.mp runs
  exact ⟨last, ran, sound_run ran⟩

end Manager

end Billiard
