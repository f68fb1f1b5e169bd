import Billiard.Data.Custody
import Billiard.Data.Transition

/-! The resource sharer: the callers of `register` and `stop`, and the thread that serves the
clients.  A resource is the number of the call that registered it. -/

namespace Billiard

open Transition

structure ShareIdent where
  address : Nat
  key : Nat
deriving DecidableEq, Repr

/-- The message of a client; what does not unpack or cannot be a key is malformed. -/
inductive ShareRequest where
  | none
  | malformed
  | resource (key destinationPid : Nat)
deriving DecidableEq, Repr

inductive ShareThread where
  | absent
  | accepting
  | sending (ident : ShareIdent) (destinationPid resource : Nat)
  | closing (resource : Nat)
deriving DecidableEq, Repr

/-- Where the call of `stop` that holds the lock is. -/
inductive StopPhase where
  | free
  | connecting
  | joining
  | draining (left : List (Nat × Nat))
deriving DecidableEq, Repr

structure ShareDelivery where
  ident : ShareIdent
  destinationPid : Nat
  resource : Nat
deriving DecidableEq, Repr

/-- `issued` are the identifiers that `register` returned, `sent` and `closed` the calls of the
functions of the resources.  A `stop` that returns leaves in `returned` how many resources
were registered by then, and which were closed. -/
structure ResourceSharer where
  key : Nat
  cache : List (Nat × Nat)
  address : Option Nat
  thread : ShareThread
  lock : StopPhase
  issued : List ShareIdent
  sent : List ShareDelivery
  closed : List Nat
  returned : List (Nat × List Nat)
deriving DecidableEq, Repr

/-- `connect` is the client of `stop` with its `None`, `join` what follows the wait for the
thread, `drain` a turn of the loop of `stop`. -/
inductive ShareStep where
  | register (address : Nat)
  | request (address : Nat) (request : ShareRequest)
  | send
  | close (raises : Bool)
  | stop
  | connect (received raises : Bool)
  | join (raises : Bool)
  | drain (raises : Bool)
  | finish
deriving DecidableEq, Repr

namespace ResourceSharer

def new : ResourceSharer := ⟨0, [], none, .absent, .free, [], [], [], []⟩

/-- `_cache[key] = resource` -/
def store (cache : List (Nat × Nat)) (key resource : Nat) : List (Nat × Nat) :=
  if cache.any (·.1 == key) then
    cache.map fun entry => if entry.1 = key then (key, resource) else entry
  else cache ++ [(key, resource)]

/-- The rest of `register`, with a listener at `address`. -/
def issue (sharer : ResourceSharer) (address : Nat) : ResourceSharer :=
  let key := sharer.key + 1
  { sharer with
    key
    cache := store sharer.cache key sharer.issued.length
    issued := sharer.issued ++ [⟨address, key⟩] }

/-- `address` is what a listener gets that is started. -/
def register (sharer : ResourceSharer) (address : Nat) : ResourceSharer :=
  match sharer.address with
  | none => { sharer with address := some address, thread := .accepting }.issue address
  | some current => sharer.issue current

/-- A turn of `_serve`, up to the call of `send`. -/
def serve (sharer : ResourceSharer) (address : Nat) : ShareRequest → ResourceSharer
  | .none => { sharer with thread := .absent }
  | .malformed => sharer
  | .resource key destinationPid =>
      match sharer.cache.find? (·.1 == key) with
      | none => sharer
      | some entry =>
          { sharer with
            cache := sharer.cache.eraseP (·.1 == key)
            thread := .sending ⟨address, key⟩ destinationPid entry.2 }

def stopped (sharer : ResourceSharer) : ResourceSharer :=
  { sharer with
    lock := .free, returned := sharer.returned ++ [(sharer.issued.length, sharer.closed)] }

def step (sharer : ResourceSharer) : ShareStep → Option ResourceSharer
  | .register address => if sharer.lock = .free then some (sharer.register address) else none
  | .request address request =>
      if sharer.thread = .accepting ∧ sharer.address = some address then
        some (sharer.serve address request)
      else none
  | .send =>
      match sharer.thread with
      | .sending ident destinationPid resource =>
          -- whether it raises or not, `close` is next
          some { sharer with
            thread := .closing resource
            sent := sharer.sent ++ [⟨ident, destinationPid, resource⟩] }
      | _ => none
  | .close _ =>
      match sharer.thread with
      | .closing resource =>
          some { sharer with thread := .accepting, closed := sharer.closed ++ [resource] }
      | _ => none
  | .stop =>
      if sharer.lock = .free then
        match sharer.address with
        | none => some sharer.stopped
        | some _ => some { sharer with lock := .connecting }
      else none
  | .connect received raises =>
      if sharer.lock = .connecting ∧
          (sharer.thread = .accepting ∨ received = false ∧ raises = true) then
        some { sharer with
          lock := if raises then .free else .joining
          thread := if received then .absent else sharer.thread }
      else none
  | .join raises =>
      if sharer.lock = .joining ∧ sharer.thread = .absent then
        if raises then some { sharer with lock := .free }
        else some { sharer with lock := .draining sharer.cache, address := none }
      else none
  | .drain raises =>
      match sharer.lock with
      | .draining (entry :: left) =>
          some { sharer with
            lock := if raises then .free else .draining left
            closed := sharer.closed ++ [entry.2] }
      | _ => none
  | .finish =>
      if sharer.lock = .draining [] then some { sharer with cache := [] }.stopped else none

/-- What is promised for every resource that was ever registered. -/
structure Sound (sharer : ResourceSharer) : Prop where
  sent : (sharer.sent.map ShareDelivery.resource).Nodup
  closed : sharer.closed.Nodup
  returned : ∀ stop ∈ sharer.returned, ∀ resource < stop.1, stop.2.count resource = 1
  issued : sharer.issued.Nodup
  yields : ∀ delivery ∈ sharer.sent, sharer.issued[delivery.resource]? = some delivery.ident

end ResourceSharer

namespace ShareThread

/-- The resource that the thread has taken out of the cache. -/
def held : ShareThread → List Nat
  | .absent | .accepting => []
  | .sending _ _ resource | .closing resource => [resource]

end ShareThread

/-- The entries that nobody has taken yet. -/
def StopPhase.left (cache : List (Nat × Nat)) : StopPhase → List (Nat × Nat)
  | .draining left => left
  | .free | .connecting | .joining => cache

namespace ResourceSharer

variable {sharer next : ResourceSharer}

/-- Each resource is closed, with the thread or left. -/
structure Conserved (sharer : ResourceSharer) : Prop where
  custody : Custody.Kept
    (sharer.closed ++ sharer.thread.held ++ (sharer.lock.left sharer.cache).map Prod.snd)
    sharer.issued.length
  key : sharer.key = sharer.issued.length
  keys : ∀ resource ident, sharer.issued[resource]? = some ident → ident.key = resource + 1
  numbered : ∀ entry ∈ sharer.cache, entry.1 ≤ sharer.key
  cached : (∀ left, sharer.lock ≠ .draining left) → ∀ entry ∈ sharer.cache,
    ∃ address, sharer.address = some address ∧
      sharer.issued[entry.2]? = some ⟨address, entry.1⟩
  draining : ∀ left, sharer.lock = .draining left → sharer.address = none ∧
    ∃ done, sharer.cache = done ++ left ∧ ∀ entry ∈ done, entry.2 ∈ sharer.closed
  idle : sharer.address = none → sharer.thread = .absent
  sending : ∀ ident destinationPid resource,
    sharer.thread = .sending ident destinationPid resource → sharer.issued[resource]? = some ident
  sent : (sharer.sent.map ShareDelivery.resource).Nodup
  taken : ∀ delivery ∈ sharer.sent,
    delivery.resource ∈ sharer.closed ∨ sharer.thread = .closing delivery.resource
  yields : ∀ delivery ∈ sharer.sent, sharer.issued[delivery.resource]? = some delivery.ident
  returned : ∀ stop ∈ sharer.returned, ∀ resource < stop.1, stop.2.count resource = 1

theorem Conserved.new : Conserved new where
  custody := Custody.kept_nil
  key := rfl
  keys := nofun
  numbered := nofun
  cached _ := nofun
  draining := nofun
  idle _ := rfl
  sending := nofun
  sent := List.nodup_nil
  taken := nofun
  yields := nofun
  returned := nofun

theorem nodup_issued (keys : ∀ resource ident,
    sharer.issued[resource]? = some ident → ident.key = resource + 1) : sharer.issued.Nodup := by
  refine List.pairwise_iff_getElem.mpr fun i j first second before same => ?_
  have one := keys i _ (List.getElem?_eq_getElem first)
  have two := keys j _ (List.getElem?_eq_getElem second)
  rw [same] at one
  omega

theorem Conserved.sound (conserved : sharer.Conserved) : sharer.Sound where
  sent := conserved.sent
  closed := (List.nodup_append.mp (List.nodup_append.mp conserved.custody.nodup).1).1
  returned := conserved.returned
  issued := nodup_issued conserved.keys
  yields := conserved.yields

theorem left_eq {lock : StopPhase} (undrained : ∀ left, lock ≠ .draining left)
    (cache : List (Nat × Nat)) : lock.left cache = cache := by
  cases lock with
  | draining left => exact absurd rfl (undrained left)
  | free => rfl
  | connecting => rfl
  | joining => rfl

theorem store_of_fresh {cache : List (Nat × Nat)} {key resource : Nat}
    (fresh : ∀ entry ∈ cache, entry.1 ≠ key) :
    store cache key resource = cache ++ [(key, resource)] := by
  rw [store, if_neg]
  intro found
  obtain ⟨entry, member, same⟩ := List.any_eq_true.mp found
  exact fresh entry member (beq_iff_eq.mp same)

theorem getElem?_issued {issued : List ShareIdent} {fresh ident : ShareIdent} {resource : Nat}
    (found : issued[resource]? = some ident) : (issued ++ [fresh])[resource]? = some ident := by
  obtain ⟨inside, _⟩ := List.getElem?_eq_some_iff.mp found
  rwa [List.getElem?_append_left inside]

theorem Conserved.fresh (conserved : sharer.Conserved) :
    ∀ entry ∈ sharer.cache, entry.1 ≠ sharer.key + 1 := fun entry member same =>
  absurd (conserved.numbered entry member) (by omega)

theorem Conserved.issue (conserved : sharer.Conserved) (free : sharer.lock = .free) {current : Nat}
    (listening : sharer.address = some current) : (sharer.issue current).Conserved := by
  have undrained : ∀ left, sharer.lock ≠ .draining left := fun left draining =>
    nomatch free.symm.trans draining
  rw [ResourceSharer.issue, store_of_fresh conserved.fresh]
  have custody := conserved.custody
  rw [left_eq undrained] at custody
  have last : (sharer.issued ++ [⟨current, sharer.key + 1⟩])[sharer.issued.length]? =
      some ⟨current, sharer.key + 1⟩ := List.getElem?_concat_length
  exact {
    custody := by
      rw [left_eq undrained, List.map_append, ← List.append_assoc, List.length_append]
      exact custody.issue
    key := by rw [List.length_append, conserved.key]; rfl
    keys := by
      intro resource ident found
      by_cases old : resource < sharer.issued.length
      · rw [List.getElem?_append_left old] at found
        exact conserved.keys resource ident found
      · obtain ⟨inside, _⟩ := List.getElem?_eq_some_iff.mp found
        rw [List.length_append, List.length_singleton] at inside
        have same : resource = sharer.issued.length := by omega
        rw [same, last] at found
        cases found
        rw [conserved.key, same]
    numbered := by
      intro entry member
      rcases List.mem_append.mp member with old | new
      · exact Nat.le_succ_of_le (conserved.numbered entry old)
      · cases List.mem_singleton.mp new
        exact Nat.le_refl _
    cached := by
      intro _ entry member
      rcases List.mem_append.mp member with old | new
      · obtain ⟨address, same, issued⟩ := conserved.cached undrained entry old
        exact ⟨address, same, getElem?_issued issued⟩
      · cases List.mem_singleton.mp new
        exact ⟨current, listening, last⟩
    draining := fun left draining => absurd draining (undrained left)
    idle := conserved.idle
    sending := fun ident destinationPid resource sending =>
      getElem?_issued (conserved.sending ident destinationPid resource sending)
    sent := conserved.sent
    taken := conserved.taken
    yields := fun delivery member => getElem?_issued (conserved.yields delivery member)
    returned := conserved.returned }

theorem Conserved.cache_eq_nil (conserved : sharer.Conserved) (free : sharer.lock = .free)
    (unheard : sharer.address = none) : sharer.cache = [] := by
  refine List.eq_nil_iff_forall_not_mem.mpr fun entry member => ?_
  obtain ⟨_, listening, _⟩ := conserved.cached
    (fun left draining => nomatch free.symm.trans draining) entry member
  cases unheard.symm.trans listening

/-- Until the thread is about to close one, whatever was sent is closed. -/
theorem Conserved.closed_of_sent (conserved : sharer.Conserved)
    (other : ∀ resource, sharer.thread ≠ .closing resource) :
    ∀ delivery ∈ sharer.sent, delivery.resource ∈ sharer.closed := fun delivery member =>
  (conserved.taken delivery member).resolve_right (other delivery.resource)

theorem Conserved.register (conserved : sharer.Conserved) (free : sharer.lock = .free)
    (address : Nat) : (sharer.register address).Conserved := by
  cases listening : sharer.address with
  | some current =>
      rw [ResourceSharer.register, listening]
      exact conserved.issue free listening
  | none =>
      have absent := conserved.idle listening
      have empty := conserved.cache_eq_nil free listening
      have started : { sharer with address := some address, thread := .accepting }.Conserved := {
        conserved with
        custody := by
          have custody := conserved.custody
          rw [absent] at custody
          exact custody
        cached := fun _ entry member => by
          dsimp only at member
          rw [empty] at member
          cases member
        draining := fun left draining => nomatch free.symm.trans draining
        idle := nofun
        sending := nofun
        taken := fun delivery member =>
          .inl (conserved.closed_of_sent (by rw [absent]; exact nofun) delivery member) }
      rw [ResourceSharer.register, listening]
      exact started.issue free rfl

theorem eraseP_of_find? {p : α → Bool} {entries : List α} {entry : α}
    (found : entries.find? p = some entry) :
    ∃ front back, entries = front ++ entry :: back ∧ entries.eraseP p = front ++ back := by
  obtain ⟨meets, front, back, same, before⟩ := List.find?_eq_some_iff_append.mp found
  have others : ∀ other ∈ front, ¬p other := fun other member => by
    simpa using before other member
  refine ⟨front, back, same, ?_⟩
  rw [same, List.eraseP_append_right _ others, List.eraseP_cons_of_pos meets]

theorem Conserved.undrained (conserved : sharer.Conserved) (accepting : sharer.thread ≠ .absent) :
    ∀ left, sharer.lock ≠ .draining left := fun left draining =>
  accepting (conserved.idle (conserved.draining left draining).1)

theorem Conserved.serve (conserved : sharer.Conserved) (accepting : sharer.thread = .accepting)
    {address : Nat} (listening : sharer.address = some address) (request : ShareRequest) :
    (sharer.serve address request).Conserved := by
  have undrained := conserved.undrained (by rw [accepting]; exact nofun)
  have taken := conserved.closed_of_sent (by rw [accepting]; exact nofun)
  have custody := conserved.custody
  rw [accepting] at custody
  unfold ResourceSharer.serve
  split
  · exact {
      conserved with
      custody := custody
      idle := fun _ => rfl
      sending := nofun
      taken := fun delivery member => .inl (taken delivery member) }
  · exact conserved
  · rename_i key destinationPid
    split
    · exact conserved
    · rename_i entry found
      have meets := List.find?_some found
      have same : entry.1 = key := beq_iff_eq.mp meets
      obtain ⟨other, listens, issued⟩ :=
        conserved.cached undrained entry (List.mem_of_find?_eq_some found)
      cases listening.symm.trans listens
      obtain ⟨front, back, whole, rest⟩ := eraseP_of_find? found
      rw [left_eq undrained, whole] at custody
      have kept : ∀ other ∈ front ++ back, other ∈ sharer.cache := by
        rw [whole]
        exact fun _ => ((List.sublist_cons_self entry back).append_left front).mem
      rw [rest]
      exact {
        conserved with
        custody := by
          rw [left_eq undrained]
          refine custody.move ?_
          simp only [ShareThread.held, List.append_nil, List.map_append, List.map_cons,
            List.append_assoc, List.singleton_append]
          exact (List.perm_middle.symm).append_left sharer.closed
        numbered := fun other member => conserved.numbered other (kept other member)
        cached := fun _ other member => conserved.cached undrained other (kept other member)
        draining := fun left draining => absurd draining (undrained left)
        idle := fun unheard => nomatch listening.symm.trans unheard
        sending := by
          rintro _ _ _ ⟨⟩
          rw [← same]
          exact issued
        taken := fun delivery member => .inl (taken delivery member) }

theorem Conserved.send (conserved : sharer.Conserved) {ident : ShareIdent}
    {destinationPid resource : Nat}
    (sending : sharer.thread = .sending ident destinationPid resource) :
    Conserved { sharer with
      thread := .closing resource
      sent := sharer.sent ++ [⟨ident, destinationPid, resource⟩] } := by
  have custody := conserved.custody
  rw [sending] at custody
  have taken := conserved.closed_of_sent (by rw [sending]; exact nofun)
  have unclosed : resource ∉ sharer.closed := fun member =>
    (List.nodup_append.mp (List.nodup_append.mp custody.nodup).1).2.2 resource member resource
      List.mem_cons_self rfl
  exact {
    conserved with
    custody := custody
    idle := fun unheard => nomatch sending.symm.trans (conserved.idle unheard)
    sending := nofun
    sent := by
      rw [List.map_append, List.map_singleton]
      refine List.nodup_append.mpr ⟨conserved.sent, List.pairwise_singleton _ _, ?_⟩
      rintro other member _ same rfl
      cases List.mem_singleton.mp same
      obtain ⟨delivery, sent, rfl⟩ := List.mem_map.mp member
      exact unclosed (taken delivery sent)
    taken := by
      intro delivery member
      rcases List.mem_append.mp member with old | new
      · exact .inl (taken delivery old)
      · cases List.mem_singleton.mp new
        exact .inr rfl
    yields := by
      intro delivery member
      rcases List.mem_append.mp member with old | new
      · exact conserved.yields delivery old
      · cases List.mem_singleton.mp new
        exact conserved.sending _ _ _ sending }

theorem Conserved.close (conserved : sharer.Conserved) {resource : Nat}
    (closing : sharer.thread = .closing resource) :
    { sharer with thread := .accepting, closed := sharer.closed ++ [resource] }.Conserved := by
  have custody := conserved.custody
  have undrained := conserved.undrained (by rw [closing]; exact nofun)
  rw [closing] at custody
  exact {
    conserved with
    custody := by
      rw [ShareThread.held, List.append_nil]
      exact custody
    draining := fun left draining => absurd draining (undrained left)
    idle := fun unheard => nomatch closing.symm.trans (conserved.idle unheard)
    sending := nofun
    taken := by
      intro delivery member
      refine .inl (List.mem_append.mpr ?_)
      rcases conserved.taken delivery member with closed | same
      · exact .inl closed
      · rw [closing] at same
        cases same
        exact .inr List.mem_cons_self }

theorem Conserved.stopped (conserved : sharer.Conserved) (idle : sharer.thread = .absent)
    (nothing : sharer.lock.left sharer.cache = []) :
    { sharer with cache := [] }.stopped.Conserved := by
  have custody := conserved.custody
  rw [idle, nothing, ShareThread.held, List.append_nil, List.map_nil, List.append_nil] at custody
  exact {
    conserved with
    custody := by
      simpa [ResourceSharer.stopped, idle, ShareThread.held, StopPhase.left] using custody
    numbered := nofun
    cached := fun _ => nofun
    draining := nofun
    returned := by
      intro stop member
      rcases List.mem_append.mp member with old | new
      · exact conserved.returned stop old
      · cases List.mem_singleton.mp new
        exact fun resource old => custody.count old }

/-- The lock goes from one call of `stop` to the next phase, or is released. -/
theorem Conserved.relock (conserved : sharer.Conserved)
    (undrained : ∀ left, sharer.lock ≠ .draining left) {lock : StopPhase}
    (unlocked : ∀ left, lock ≠ .draining left) : { sharer with lock }.Conserved := {
  conserved with
  custody := by
    rw [left_eq unlocked, ← left_eq undrained sharer.cache]
    exact conserved.custody
  cached := fun _ => conserved.cached undrained
  draining := fun left draining => absurd draining (unlocked left) }

theorem Conserved.leave (conserved : sharer.Conserved) (accepting : sharer.thread = .accepting) :
    { sharer with thread := .absent }.Conserved := {
  conserved with
  custody := by
    have custody := conserved.custody
    rw [accepting] at custody
    exact custody
  idle := fun _ => rfl
  sending := nofun
  taken := fun delivery member =>
    .inl (conserved.closed_of_sent (by rw [accepting]; exact nofun) delivery member) }

theorem Conserved.drain (conserved : sharer.Conserved) {entry : Nat × Nat}
    {left : List (Nat × Nat)} (draining : sharer.lock = .draining (entry :: left)) :
    { sharer with lock := .draining left, closed := sharer.closed ++ [entry.2] }.Conserved := by
  obtain ⟨unheard, done, whole, closed⟩ := conserved.draining _ draining
  have custody := conserved.custody
  rw [conserved.idle unheard, draining] at custody
  exact {
    conserved with
    custody := by
      rw [conserved.idle unheard]
      simpa [ShareThread.held, StopPhase.left] using custody
    cached := fun undrained => absurd rfl (undrained left)
    draining := by
      rintro _ ⟨⟩
      refine ⟨unheard, done ++ [entry], by rw [whole, List.append_assoc]; rfl, ?_⟩
      intro other member
      rcases List.mem_append.mp member with old | new
      · exact List.mem_append_left _ (closed other old)
      · cases List.mem_singleton.mp new
        exact List.mem_append_right _ List.mem_cons_self
    taken := fun delivery member =>
      (conserved.taken delivery member).imp_left (List.mem_append_left _) }

theorem Conserved.step {label : ShareStep} (conserved : sharer.Conserved)
    (returns : label ≠ .drain true) (taken : sharer.step label = some next) : next.Conserved := by
  cases label with
  | register address =>
      obtain ⟨free, same⟩ := Option.ite_none_right_eq_some.mp taken
      cases same
      exact conserved.register free address
  | request address request =>
      obtain ⟨⟨accepting, listening⟩, same⟩ := Option.ite_none_right_eq_some.mp taken
      cases same
      exact conserved.serve accepting listening request
  | send =>
      simp only [ResourceSharer.step] at taken
      split at taken
      · rename_i sending
        cases taken
        exact conserved.send sending
      · cases taken
  | close raises =>
      simp only [ResourceSharer.step] at taken
      split at taken
      · rename_i closing
        cases taken
        exact conserved.close closing
      · cases taken
  | stop =>
      obtain ⟨free, rest⟩ := Option.ite_none_right_eq_some.mp taken
      split at rest
      · rename_i unheard
        cases rest
        have empty := conserved.cache_eq_nil free unheard
        have stopped := conserved.stopped (conserved.idle unheard) (by rw [free, empty]; rfl)
        rw [← empty] at stopped
        exact stopped
      · cases rest
        exact conserved.relock (fun left draining => nomatch free.symm.trans draining) nofun
  | connect received raises =>
      obtain ⟨⟨connecting, heard⟩, same⟩ := Option.ite_none_right_eq_some.mp taken
      have undrained : ∀ left, sharer.lock ≠ .draining left := fun left draining =>
        nomatch connecting.symm.trans draining
      have unlocked : ∀ left, (if raises then StopPhase.free else .joining) ≠ .draining left := by
        cases raises <;> exact nofun
      cases same
      cases received with
      | false => exact conserved.relock undrained unlocked
      | true =>
          have accepting := heard.resolve_right fun absent => nomatch absent.1
          exact (conserved.leave accepting).relock undrained unlocked
  | join raises =>
      obtain ⟨⟨joining, absent⟩, rest⟩ := Option.ite_none_right_eq_some.mp taken
      have undrained : ∀ left, sharer.lock ≠ .draining left := fun left draining =>
        nomatch joining.symm.trans draining
      cases raises with
      | true =>
          cases rest
          exact conserved.relock undrained nofun
      | false =>
          cases rest
          exact {
            conserved with
            custody := by
              have custody := conserved.custody
              rw [left_eq undrained] at custody
              exact custody
            cached := fun undrained => absurd rfl (undrained sharer.cache)
            draining := by
              rintro _ ⟨⟩
              exact ⟨rfl, [], rfl, nofun⟩
            idle := fun _ => absent }
  | drain raises =>
      cases raises with
      | true => exact absurd rfl returns
      | false =>
          simp only [ResourceSharer.step] at taken
          split at taken
          · rename_i entry left draining
            cases taken
            exact conserved.drain draining
          · cases taken
  | finish =>
      obtain ⟨finished, same⟩ := Option.ite_none_right_eq_some.mp taken
      cases same
      obtain ⟨unheard, _⟩ := conserved.draining [] finished
      exact conserved.stopped (conserved.idle unheard) (by rw [finished]; rfl)

/-- What is still in the cache when nothing listens is closed by the next `stop` that has
something to stop. -/
theorem closed_by_next_stop {first : Nat × Nat} {rest : List (Nat × Nat)}
    (free : sharer.lock = .free) (unheard : sharer.address = none)
    (cached : sharer.cache = first :: rest)
    (fresh : ∀ entry ∈ sharer.cache, entry.1 ≠ sharer.key + 1) :
    ∃ more final, run step sharer more = some final ∧
      final.closed = sharer.closed ++ [first.2] := by
  have store : ∀ resource, store (first :: rest) (sharer.key + 1) resource =
      first :: rest ++ [(sharer.key + 1, resource)] := by
    rw [← cached]
    exact fun _ => store_of_fresh fresh
  refine ⟨[.register 0, .stop, .connect true false, .join false, .drain false], ?_⟩
  simp [run, step, register, issue, free, unheard, cached, store]

/-- A close that raises leaves its resource in the cache. -/
theorem unsound_of_drain_raises (conserved : sharer.Conserved)
    (taken : sharer.step (.drain true) = some next) :
    ∃ more final, run step next more = some final ∧ ¬final.Sound := by
  simp only [step] at taken
  split at taken
  · rename_i entry left draining
    obtain ⟨unheard, done, whole, closed⟩ := conserved.draining _ draining
    obtain ⟨first, rest, cached, again⟩ : ∃ first rest, sharer.cache = first :: rest ∧
        first.2 ∈ sharer.closed ++ [entry.2] := by
      rw [whole]
      cases done with
      | nil => exact ⟨entry, left, rfl, List.mem_append_right _ List.mem_cons_self⟩
      | cons first done =>
          exact ⟨first, done ++ entry :: left, rfl,
            List.mem_append_left _ (closed first List.mem_cons_self)⟩
    have same := Option.some.inj taken
    have free : next.lock = .free := by rw [← same]; rfl
    obtain ⟨more, final, ran, twice⟩ := closed_by_next_stop free
      (by rw [← same]; exact unheard) (by rw [← same]; exact cached)
      (by rw [← same]; exact conserved.fresh)
    refine ⟨more, final, ran, fun sound => ?_⟩
    have distinct := sound.closed
    rw [twice, ← same] at distinct
    exact (List.nodup_append.mp distinct).2.2 first.2 again first.2 List.mem_cons_self rfl
  · cases taken

theorem conserved_of_run {labels : List ShareStep} (conserved : sharer.Conserved)
    (returns : .drain true ∉ labels) (ran : run step sharer labels = some next) :
    next.Conserved := by
  induction labels generalizing sharer with
  | nil =>
      cases ran
      exact conserved
  | cons label labels ih =>
      obtain ⟨middle, taken, rest⟩ := run_cons_eq_some.mp ran
      rw [List.mem_cons, not_or] at returns
      exact ih (conserved.step (Ne.symm returns.1) taken) returns.2 rest

/-- As long as no close raises in the loop of `stop`, every resource is sent and closed at most
once, and closed when a `stop` returns.  After one that did, something can be closed twice. -/
theorem sound_until_drain_raises {labels : List ShareStep} {last : ResourceSharer}
    (ran : run step new labels = some last) (returns : .drain true ∉ labels) :
    last.Sound ∧ ∀ next, step last (.drain true) = some next →
      ∃ more final, run step next more = some final ∧ ¬final.Sound := by
  have conserved := conserved_of_run Conserved.new returns ran
  exact ⟨conserved.sound, fun next taken => unsound_of_drain_raises conserved taken⟩

def askedTwice : List ShareStep :=
  [.register 7, .register 0, .request 7 (.resource 1 40), .send, .close false,
    .request 7 (.resource 1 41), .stop, .connect true false, .join false, .drain false, .finish,
    .register 8]

theorem sound_askedTwice : ∃ last, run step new askedTwice = some last ∧ last.Sound := by
  have returns : .drain true ∉ askedTwice := by decide
  exact ⟨_, rfl, (sound_until_drain_raises rfl returns).1⟩

/-- The first close raises, and the second call of `stop` returns with the second resource
open. -/
theorem not_sound_after_drain : ¬∀ labels last, run step new labels = some last → last.Sound := by
  intro always
  have sound := always [.register 7, .register 0, .stop, .connect true false, .join false,
    .drain true, .stop] _ rfl
  exact absurd (sound.returned (2, [0]) List.mem_cons_self 1 (by decide)) (by decide)

end ResourceSharer

end Billiard
