import Billiard.Data.Dict
import Billiard.Data.Tally
import Billiard.Data.Transition
import Mathlib.Data.Finset.Erase
import Mathlib.Data.Finset.Insert

/-! The connections over which the proxies of a thread call their referents: one for each thread
and each address of a manager, which a forked process does not take over. -/

namespace Billiard

open Transition Tally

/-- A connection from both its ends: the requests that the server has yet to answer and the
responses that the client has yet to receive, each told by the number of its call. -/
structure ProxyLink where
  requests : List Nat
  responses : List Nat
  closed : Bool
deriving DecidableEq, Repr

/-- A call of `_callmethod` that waits for its response; `clean` tells that nothing was to come
over the connection when it was made. -/
structure PendingCall where
  link : Nat
  number : Nat
  clean : Bool
deriving DecidableEq, Repr

/-- `tls` has the connections of the thread, by the addresses of the managers. -/
structure ClientThread where
  process : Nat
  tls : Dict Nat Nat
  call : Option PendingCall

/-- What a call has returned with: the response to the call `response`. -/
structure CallAnswer where
  number : Nat
  response : Nat
  clean : Bool
deriving DecidableEq, Repr

/-- `idsets` are those of the processes, by the addresses of the managers.  `calls` and `answers`
are histories. -/
structure ProxyClients where
  links : List ProxyLink
  threads : List ClientThread
  idsets : List (Nat → Finset Nat)
  calls : Nat
  answers : List CallAnswer

inductive ProxyAction where
  | connect (thread address : Nat)
  | call (thread address : Nat)
  | serve (link : Nat)
  | receive (thread : Nat)
  | interrupt (thread : Nat)
  | incref (thread address ident : Nat)
  | decref (thread address ident : Nat)
  | startThread (thread : Nat)
  | fork (thread : Nat)
deriving DecidableEq, Repr

namespace ProxyLink

/-- What the client has yet to receive for what it has sent, in this order -/
def outstanding (link : ProxyLink) : List Nat := link.responses ++ link.requests

end ProxyLink

namespace ProxyClients

def init : ProxyClients := ⟨[], [⟨0, Dict.empty, none⟩], [fun _ => ∅], 0, []⟩

def setThread (clients : ProxyClients) (t : Nat) (thread : ClientThread) : ProxyClients :=
  { clients with threads := clients.threads.set t thread }

def setLink (clients : ProxyClients) (c : Nat) (link : ProxyLink) : ProxyClients :=
  { clients with links := clients.links.set c link }

/-- `_connect`, with its exchange that asks for `accept_connection` -/
def connect (clients : ProxyClients) (t : Nat) (thread : ClientThread) (address : Nat) :
    ProxyClients :=
  { clients.setThread t { thread with tls := thread.tls.set address clients.links.length } with
    links := clients.links ++ [⟨[], [], false⟩] }

/-- `_callmethod` up to where it waits for the response; without a connection it calls `_connect`
first. -/
def call (clients : ProxyClients) (t : Nat) (thread : ClientThread) (address : Nat) :
    Option ProxyClients :=
  match thread.call, thread.tls address with
  | none, some c =>
      match clients.links[c]? with
      | none => none
      | some link =>
          let pending : PendingCall := ⟨c, clients.calls, link.outstanding.isEmpty⟩
          some { (clients.setThread t { thread with call := some pending }).setLink c
              { link with requests := link.requests ++ [clients.calls] } with
            calls := clients.calls + 1 }
  | _, _ => none

/-- The thread of the server that serves the connection answers the first request. -/
def serve (clients : ProxyClients) (c : Nat) : Option ProxyClients :=
  match clients.links[c]? with
  | some ⟨number :: requests, responses, closed⟩ =>
      some (clients.setLink c ⟨requests, responses ++ [number], closed⟩)
  | _ => none

/-- `conn.recv()` and what `_callmethod` makes of it -/
def receive (clients : ProxyClients) (t : Nat) (thread : ClientThread) : Option ProxyClients :=
  match thread.call with
  | none => none
  | some pending =>
      match clients.links[pending.link]? with
      | some ⟨requests, response :: responses, false⟩ =>
          some { (clients.setThread t { thread with call := none }).setLink pending.link
              ⟨requests, responses, false⟩ with
            answers := clients.answers ++ [⟨pending.number, response, pending.clean⟩] }
      | _ => none

/-- `_decref` for a proxy of the process, in any of its threads, and in the middle of a call when
the proxy is collected then -/
def decref (clients : ProxyClients) (t : Nat) (thread : ClientThread) (address ident : Nat) :
    Option ProxyClients :=
  match clients.idsets[thread.process]? with
  | none => none
  | some idset =>
      let left := (idset address).erase ident
      let clients := { clients with
        idsets := clients.idsets.set thread.process (Function.update idset address left) }
      match thread.tls address with
      | none => some clients
      | some c =>
          if left = ∅ then
            match clients.links[c]? with
            | none => none
            | some link =>
                some ((clients.setThread t { thread with tls := thread.tls.erase address }).setLink
                  c { link with closed := true })
          else some clients

def step (clients : ProxyClients) : ProxyAction → Option ProxyClients
  | .serve c => clients.serve c
  | .connect t address =>
      match clients.threads[t]? with
      | none => none
      | some thread =>
          if thread.call = none ∧ thread.tls address = none then
            some (clients.connect t thread address)
          else none
  | .call t address =>
      match clients.threads[t]? with
      | none => none
      | some thread => clients.call t thread address
  | .receive t =>
      match clients.threads[t]? with
      | none => none
      | some thread => clients.receive t thread
  | .interrupt t =>
      match clients.threads[t]? with
      | none => none
      | some thread => some (clients.setThread t { thread with call := none })
  | .incref t address ident =>
      match clients.threads[t]? with
      | none => none
      | some thread =>
          match clients.idsets[thread.process]? with
          | none => none
          | some idset =>
              some { clients with
                idsets := clients.idsets.set thread.process
                  (Function.update idset address (insert ident (idset address))) }
  | .decref t address ident =>
      match clients.threads[t]? with
      | none => none
      | some thread => clients.decref t thread address ident
  | .startThread t =>
      match clients.threads[t]? with
      | none => none
      | some thread =>
          some { clients with threads := clients.threads ++ [⟨thread.process, Dict.empty, none⟩] }
  | .fork t =>
      match clients.threads[t]? with
      | none => none
      | some _ =>
          some { clients with
            threads := clients.threads ++ [⟨clients.idsets.length, Dict.empty, none⟩]
            idsets := clients.idsets ++ [fun _ => ∅] }

/-- No call is given up while it waits for its response. -/
def Uninterrupted (clients : ProxyClients) : ProxyAction → Prop
  | .interrupt t => ∀ thread, clients.threads[t]? = some thread → thread.call = none
  | _ => True

instance (clients : ProxyClients) (action : ProxyAction) :
    Decidable (clients.Uninterrupted action) := by
  unfold Uninterrupted
  split
  · rename_i t
    exact decidable_of_iff ((clients.threads[t]?.all fun thread => thread.call.isNone) = true)
      (by simp only [Option.all_eq_true, Option.isNone_iff_eq_none])
  · exact isTrue trivial

end ProxyClients

variable {clients next last : ProxyClients} {t c : Nat} {thread new : ClientThread}
  {link changed : ProxyLink} {pending : PendingCall} {action : ProxyAction}
  {labels : List ProxyAction}

namespace ClientThread

/-- The thread has the connection or waits for a response over it. -/
def Uses (thread : ClientThread) (c : Nat) : Prop :=
  (∃ address, thread.tls address = some c) ∨
    ∃ pending, thread.call = some pending ∧ pending.link = c

end ClientThread

/-- The response to the call is the last one to come, and the only one where the call is clean. -/
def PendingCall.Fits (pending : PendingCall) (link : ProxyLink) : Prop :=
  ∃ stale, link.outstanding = stale ++ [pending.number] ∧ pending.number ∉ stale ∧
    (pending.clean = true ↔ stale = [])

namespace ProxyClients

/-- What a step does, with what it finds. -/
inductive Turn (clients : ProxyClients) : ProxyAction → ProxyClients → Prop where
  | connects (t address : Nat) (thread : ClientThread)
      (found : clients.threads[t]? = some thread) (idle : thread.call = none) :
      Turn clients (.connect t address) (clients.connect t thread address)
  | calls (t address : Nat) (thread : ClientThread) (next : ProxyClients)
      (found : clients.threads[t]? = some thread)
      (taken : clients.call t thread address = some next) : Turn clients (.call t address) next
  | serves (c : Nat) (next : ProxyClients) (taken : clients.serve c = some next) :
      Turn clients (.serve c) next
  | receives (t : Nat) (thread : ClientThread) (next : ProxyClients)
      (found : clients.threads[t]? = some thread) (taken : clients.receive t thread = some next) :
      Turn clients (.receive t) next
  | interrupts (t : Nat) (thread : ClientThread) (found : clients.threads[t]? = some thread) :
      Turn clients (.interrupt t) (clients.setThread t { thread with call := none })
  | counts (action : ProxyAction) (idsets : List (Nat → Finset Nat)) :
      Turn clients action { clients with idsets }
  | parts (t address ident : Nat) (thread : ClientThread) (idsets : List (Nat → Finset Nat))
      (c : Nat) (link : ProxyLink) (found : clients.threads[t]? = some thread)
      (linked : clients.links[c]? = some link) :
      Turn clients (.decref t address ident)
        ((setThread { clients with idsets } t
          { thread with tls := thread.tls.erase address }).setLink c { link with closed := true })
  | starts (t process : Nat) :
      Turn clients (.startThread t)
        { clients with threads := clients.threads ++ [⟨process, Dict.empty, none⟩] }
  | forks (t process : Nat) (idsets : List (Nat → Finset Nat)) :
      Turn clients (.fork t)
        { clients with threads := clients.threads ++ [⟨process, Dict.empty, none⟩], idsets }

theorem decref_turn {address ident : Nat} (found : clients.threads[t]? = some thread)
    (taken : clients.decref t thread address ident = some next) :
    Turn clients (.decref t address ident) next := by
  unfold decref at taken
  split at taken
  · cases taken
  · split at taken
    · cases taken
      exact .counts _ _
    · dsimp only at taken
      split at taken
      · split at taken
        · cases taken
        · cases taken
          exact .parts t address ident thread _ _ _ found ‹_›
      · cases taken
        exact .counts _ _

theorem step_turn (taken : step clients action = some next) : Turn clients action next := by
  cases action with
  | serve c => exact .serves c next taken
  | connect t address =>
      simp only [step] at taken
      split at taken
      · cases taken
      · rename_i thread found
        split at taken
        · rename_i usable
          cases taken
          exact .connects t address thread found usable.1
        · cases taken
  | call t address =>
      simp only [step] at taken
      split at taken
      · cases taken
      · exact .calls t address _ next ‹_› taken
  | receive t =>
      simp only [step] at taken
      split at taken
      · cases taken
      · exact .receives t _ next ‹_› taken
  | interrupt t =>
      simp only [step] at taken
      split at taken
      · cases taken
      · cases taken
        exact .interrupts t _ ‹_›
  | incref t address ident =>
      simp only [step] at taken
      split at taken
      · cases taken
      · split at taken
        · cases taken
        · cases taken
          exact .counts _ _
  | decref t address ident =>
      simp only [step] at taken
      split at taken
      · cases taken
      · exact decref_turn ‹_› taken
  | startThread t =>
      simp only [step] at taken
      split at taken
      · cases taken
      · cases taken
        exact .starts t _
  | fork t =>
      simp only [step] at taken
      split at taken
      · cases taken
      · cases taken
        exact .forks t _ _

structure Sound (clients : ProxyClients) : Prop where
  bounded : ∀ (t : Nat) thread, clients.threads[t]? = some thread →
    ∀ c, thread.Uses c → c < clients.links.length
  apart : ∀ (s t : Nat) left right, clients.threads[s]? = some left →
    clients.threads[t]? = some right → ∀ c, left.Uses c → right.Uses c → s = t
  fits : ∀ (t : Nat) thread pending link, clients.threads[t]? = some thread →
    thread.call = some pending → clients.links[pending.link]? = some link → pending.Fits link
  counted : ∀ link ∈ clients.links, ∀ n ∈ link.outstanding, n < clients.calls
  answered : ∀ answer ∈ clients.answers, answer.response = answer.number ↔ answer.clean = true

/-- A thread that gives up connections, or its call -/
theorem Sound.leave (sound : clients.Sound) (found : clients.threads[t]? = some thread)
    (fewer : ∀ c, new.Uses c → thread.Uses c) (call : new.call = none ∨ new.call = thread.call) :
    (clients.setThread t new).Sound := by
  have before : ∀ {s : Nat} {member : ClientThread}, (clients.threads.set t new)[s]? = some member →
      ∃ old, clients.threads[s]? = some old ∧ (∀ c, member.Uses c → old.Uses c) ∧
        (member.call = none ∨ member.call = old.call) := by
    intro s member here
    obtain ⟨rfl, rfl⟩ | ⟨_, here⟩ := getElem?_set_cases here
    · exact ⟨thread, found, fewer, call⟩
    · exact ⟨member, here, fun _ uses => uses, .inr rfl⟩
  refine ⟨fun s member here c uses => ?_, fun r s left right here there c uses others => ?_,
    fun s member pending link here waits linked => ?_, sound.counted, sound.answered⟩
  · obtain ⟨old, place, fewer, _⟩ := before here
    exact sound.bounded s old place c (fewer c uses)
  · obtain ⟨one, place, fewer, _⟩ := before here
    obtain ⟨two, beside, less, _⟩ := before there
    exact sound.apart r s one two place beside c (fewer c uses) (less c others)
  · obtain ⟨old, place, _, none | same⟩ := before here
    · cases none.symm.trans waits
    · exact sound.fits s old pending link place (same.symm.trans waits) linked

/-- A connection over which nothing comes or goes but from the server's hands to the client's -/
theorem Sound.relink (sound : clients.Sound) (linked : clients.links[c]? = some link)
    (same : changed.outstanding = link.outstanding) : (clients.setLink c changed).Sound := by
  have before : ∀ {d : Nat} {member : ProxyLink}, (clients.links.set c changed)[d]? = some member →
      ∃ old, clients.links[d]? = some old ∧ member.outstanding = old.outstanding := by
    intro d member here
    obtain ⟨rfl, rfl⟩ | ⟨_, here⟩ := getElem?_set_cases here
    · exact ⟨link, linked, same⟩
    · exact ⟨member, here, rfl⟩
  refine ⟨fun s member here d uses => ?_, sound.apart,
    fun s member pending now here waits linked => ?_, fun member listed n outstanding => ?_,
    sound.answered⟩
  · exact Nat.lt_of_lt_of_eq (sound.bounded s member here d uses) List.length_set.symm
  · obtain ⟨old, place, kept⟩ := before linked
    obtain ⟨stale, all, fresh, clean⟩ := sound.fits s member pending old here waits place
    exact ⟨stale, kept.trans all, fresh, clean⟩
  · obtain ⟨d, here⟩ := List.getElem?_of_mem listed
    obtain ⟨old, place, kept⟩ := before here
    rw [kept] at outstanding
    exact sound.counted old (List.mem_of_getElem? place) n outstanding

/-- A thread that sends or receives over a connection of its own -/
theorem Sound.exchange (sound : clients.Sound) (found : clients.threads[t]? = some thread)
    (linked : clients.links[c]? = some link) (uses : thread.Uses c)
    (fewer : ∀ d, new.Uses d → thread.Uses d)
    (fits : ∀ pending, new.call = some pending → pending.link = c ∧ pending.Fits changed)
    {calls : Nat} (more : clients.calls ≤ calls) (counted : ∀ n ∈ changed.outstanding, n < calls)
    {answers : List CallAnswer}
    (answered : ∀ answer ∈ answers, answer.response = answer.number ↔ answer.clean = true) :
    Sound { (clients.setThread t new).setLink c changed with calls, answers } := by
  have before : ∀ {s : Nat} {member : ClientThread}, (clients.threads.set t new)[s]? = some member →
      ∃ old, clients.threads[s]? = some old ∧ ∀ c, member.Uses c → old.Uses c := by
    intro s member here
    obtain ⟨rfl, rfl⟩ | ⟨_, here⟩ := getElem?_set_cases here
    · exact ⟨thread, found, fewer⟩
    · exact ⟨member, here, fun _ uses => uses⟩
  refine ⟨fun s member here d uses => ?_, fun r s left right here there d uses others => ?_,
    fun s member pending now here waits place => ?_, fun member listed n outstanding => ?_,
    answered⟩
  · obtain ⟨old, place, fewer⟩ := before here
    exact Nat.lt_of_lt_of_eq (sound.bounded s old place d (fewer d uses)) List.length_set.symm
  · obtain ⟨one, place, fewer⟩ := before here
    obtain ⟨two, beside, less⟩ := before there
    exact sound.apart r s one two place beside d (fewer d uses) (less d others)
  · obtain ⟨rfl, rfl⟩ | ⟨different, here⟩ := getElem?_set_cases here
    · obtain ⟨rfl, settled⟩ := fits pending waits
      cases (getElem?_set_found linked changed).symm.trans place
      exact settled
    · obtain ⟨same, _⟩ | ⟨_, linked⟩ := getElem?_set_cases place
      · exact absurd (sound.apart s t member thread here found c (.inr ⟨pending, waits, same⟩) uses)
          different
      · exact sound.fits s member pending now here waits linked
  · obtain old | rfl := List.mem_or_eq_of_mem_set listed
    · exact Nat.lt_of_lt_of_le (sound.counted member old n outstanding) more
    · exact counted n outstanding

theorem Sound.connect (sound : clients.Sound) (found : clients.threads[t]? = some thread)
    (address : Nat) : (clients.connect t thread address).Sound := by
  let new : ClientThread :=
    { thread with tls := thread.tls.set address clients.links.length }
  have uses : ∀ c, new.Uses c → thread.Uses c ∨ c = clients.links.length := by
    rintro c (⟨other, owns⟩ | waits)
    · obtain ⟨_, same⟩ | ⟨_, owns⟩ := Dict.set_eq_some.mp owns
      · exact .inr same.symm
      · exact .inl (.inl ⟨other, owns⟩)
    · exact .inl (.inr waits)
  have before : ∀ {s : Nat} {member : ClientThread}, (clients.threads.set t new)[s]? = some member →
      ∃ old, clients.threads[s]? = some old ∧ member.call = old.call ∧
        ∀ c, member.Uses c → old.Uses c ∨ c = clients.links.length ∧ s = t := by
    intro s member here
    obtain ⟨rfl, rfl⟩ | ⟨_, here⟩ := getElem?_set_cases here
    · exact ⟨thread, found, rfl, fun c owns => (uses c owns).imp_right fun same => ⟨same, rfl⟩⟩
    · exact ⟨member, here, rfl, fun c owns => .inl owns⟩
  have low : ∀ {s : Nat} {old : ClientThread} {c : Nat}, clients.threads[s]? = some old →
      old.Uses c → c ≠ clients.links.length := fun here uses =>
    Nat.ne_of_lt (sound.bounded _ _ here _ uses)
  refine ⟨fun s member here c owns => ?_, fun r s left right here there c one two => ?_,
    fun s member pending link here waits linked => ?_, fun link member n listed => ?_,
    sound.answered⟩
  · obtain ⟨old, place, _, kept⟩ := before here
    have longer : (clients.connect t thread address).links.length = clients.links.length + 1 :=
      List.length_append
    rw [longer]
    obtain owns | ⟨rfl, _⟩ := kept c owns
    · exact Nat.lt_succ_of_lt (sound.bounded s old place c owns)
    · exact Nat.lt_succ_self _
  · obtain ⟨old, place, _, kept⟩ := before here
    obtain ⟨other, beside, _, keeps⟩ := before there
    obtain one | ⟨same, rfl⟩ := kept c one
    · obtain two | ⟨same, _⟩ := keeps c two
      · exact sound.apart r s old other place beside c one two
      · exact absurd same (low place one)
    · obtain two | ⟨_, rfl⟩ := keeps c two
      · exact absurd same (low beside two)
      · rfl
  · obtain ⟨old, place, same, _⟩ := before here
    obtain linked | ⟨end_, rfl⟩ := getElem?_concat_cases linked
    · exact sound.fits s old pending link place (same.symm.trans waits) linked
    · exact absurd end_ (low place (.inr ⟨pending, same.symm.trans waits, rfl⟩))
  · obtain old | same := List.mem_append.mp member
    · exact sound.counted link old n listed
    · rw [List.mem_singleton.mp same] at listed
      cases listed

/-- A new thread has no connections. -/
theorem Sound.start (sound : clients.Sound) (process : Nat) :
    Sound { clients with threads := clients.threads ++ [⟨process, Dict.empty, none⟩] } := by
  have nothing : ∀ {c}, ¬ClientThread.Uses ⟨process, Dict.empty, none⟩ c := by
    rintro c (⟨address, owns⟩ | ⟨pending, waits, _⟩)
    · cases owns
    · cases waits
  refine ⟨fun s member here c uses => ?_, fun r s left right here there c uses others => ?_,
    fun s member pending link here waits linked => ?_, sound.counted, sound.answered⟩
  · obtain here | ⟨_, rfl⟩ := getElem?_concat_cases here
    · exact sound.bounded s member here c uses
    · exact absurd uses nothing
  · obtain here | ⟨_, rfl⟩ := getElem?_concat_cases here
    · obtain there | ⟨_, rfl⟩ := getElem?_concat_cases there
      · exact sound.apart r s left right here there c uses others
      · exact absurd others nothing
    · exact absurd uses nothing
  · obtain here | ⟨_, rfl⟩ := getElem?_concat_cases here
    · exact sound.fits s member pending link here waits linked
    · cases waits

theorem Sound.call (sound : clients.Sound) (found : clients.threads[t]? = some thread)
    {address : Nat} (taken : clients.call t thread address = some next) : next.Sound := by
  unfold ProxyClients.call at taken
  split at taken
  · rename_i c idle owns
    split at taken
    · cases taken
    · rename_i link linked
      cases taken
      have fresh : clients.calls ∉ link.outstanding := fun listed =>
        Nat.lt_irrefl _ (sound.counted link (List.mem_of_getElem? linked) _ listed)
      refine sound.exchange found linked (.inl ⟨address, owns⟩) ?_ ?_ (Nat.le_succ _) ?_
        sound.answered
      · rintro d (mine | ⟨pending, waits, rfl⟩)
        · exact .inl mine
        · cases waits
          exact .inl ⟨address, owns⟩
      · rintro pending ⟨⟩
        refine ⟨rfl, link.outstanding, (List.append_assoc ..).symm, fresh, ?_⟩
        exact List.isEmpty_iff
      · intro n listed
        unfold ProxyLink.outstanding at listed
        rw [← List.append_assoc] at listed
        obtain old | same := List.mem_append.mp listed
        · exact Nat.lt_succ_of_lt (sound.counted link (List.mem_of_getElem? linked) n old)
        · rw [List.mem_singleton.mp same]
          exact Nat.lt_succ_self _
  · cases taken

theorem Sound.serve (sound : clients.Sound) (taken : clients.serve c = some next) :
    next.Sound := by
  unfold ProxyClients.serve at taken
  split at taken
  · rename_i number requests responses closed linked
    cases taken
    exact sound.relink linked (List.append_cons ..).symm
  · cases taken

theorem Sound.receive (sound : clients.Sound) (found : clients.threads[t]? = some thread)
    (taken : clients.receive t thread = some next) : next.Sound := by
  unfold ProxyClients.receive at taken
  split at taken
  · cases taken
  · rename_i pending waits
    split at taken
    · rename_i requests response responses linked
      cases taken
      obtain ⟨stale, all, fresh, clean⟩ := sound.fits t thread pending _ found waits linked
      refine sound.exchange found linked (.inr ⟨pending, waits, rfl⟩) ?_ ?_ (Nat.le_refl _) ?_ ?_
      · rintro d (mine | ⟨_, none, _⟩)
        · exact .inl mine
        · cases none
      · rintro _ ⟨⟩
      · intro n listed
        exact sound.counted _ (List.mem_of_getElem? linked) n (List.mem_cons_of_mem _ listed)
      · intro answer member
        obtain old | same := List.mem_append.mp member
        · exact sound.answered answer old
        · rw [List.mem_singleton.mp same, clean]
          -- the first response to come is the own one exactly if there is no other
          cases stale with
          | nil => exact ⟨fun _ => rfl, fun _ => (List.cons.inj all).1⟩
          | cons first stale =>
              obtain ⟨rfl, _⟩ := List.cons.inj all
              refine ⟨fun same => absurd ?_ fresh, nofun⟩
              have own : response = pending.number := same
              rw [← own]
              exact List.mem_cons_self ..
    · cases taken

theorem Sound.withIdsets (sound : clients.Sound) (idsets : List (Nat → Finset Nat)) :
    Sound { clients with idsets } :=
  ⟨sound.bounded, sound.apart, sound.fits, sound.counted, sound.answered⟩

theorem Sound.step (sound : clients.Sound) (taken : ProxyClients.step clients action = some next) :
    next.Sound := by
  cases step_turn taken with
  | connects t address thread found idle => exact sound.connect found address
  | calls t address thread next found taken => exact sound.call found taken
  | serves c next taken => exact sound.serve taken
  | receives t thread next found taken => exact sound.receive found taken
  | interrupts t thread found =>
      refine sound.leave found ?_ (.inl rfl)
      rintro c (owns | ⟨_, none, _⟩)
      · exact .inl owns
      · cases none
  | counts action idsets => exact sound.withIdsets idsets
  | parts t address ident thread idsets c link found linked =>
      refine Sound.relink (Sound.leave (sound.withIdsets _) found ?_ (.inr rfl)) linked rfl
      rintro d (⟨other, owns⟩ | waits)
      · exact .inl ⟨other, (Dict.erase_eq_some.mp owns).2⟩
      · exact .inr waits
  | starts t process => exact sound.start process
  | forks t process idsets => exact (sound.withIdsets idsets).start process

theorem sound_init : init.Sound := by
  have nothing : ∀ {t : Nat} {thread}, init.threads[t]? = some thread →
      thread = ⟨0, Dict.empty, none⟩ := by
    rintro (_ | t) thread ⟨⟩
    rfl
  have free : ∀ {t : Nat} {thread}, init.threads[t]? = some thread → ∀ {c}, ¬thread.Uses c := by
    rintro t thread found c uses
    rw [nothing found] at uses
    obtain ⟨_, owns⟩ | ⟨_, waits, _⟩ := uses
    · cases owns
    · cases waits
  refine ⟨fun t thread found c uses => absurd uses (free found),
    fun s t left right found _ c uses _ => absurd uses (free found),
    fun t thread pending link found waits linked => ?_, nofun, nofun⟩
  rw [nothing found] at waits
  cases waits

/-- A call returns with the response to itself exactly if nothing was to come over its connection
when it was made, and no two threads have one connection. -/
theorem responses_fit (ran : run step init labels = some last) :
    (∀ answer ∈ last.answers, answer.response = answer.number ↔ answer.clean = true) ∧
      ∀ (s t : Nat) left right, last.threads[s]? = some left → last.threads[t]? = some right →
        ∀ (one two : Nat) c, left.tls one = some c → right.tls two = some c → s = t := by
  have sound := invariant_run (fun _ _ _ => Sound.step) sound_init ran
  exact ⟨sound.answered, fun s t left right here there one two c owns others =>
    sound.apart s t left right here there c (.inl ⟨one, owns⟩) (.inl ⟨two, others⟩)⟩

def quarrel : List ProxyAction :=
  [.connect 0 5, .call 0 5, .startThread 0, .connect 1 5, .call 1 5, .serve 0, .interrupt 0,
    .call 0 5, .receive 0, .serve 1, .receive 1, .fork 1]

/-- The thread that has given up a call gets the response to that one for its next call. -/
theorem responses_fit_quarrel :
    ∃ last, run step init quarrel = some last ∧
      last.answers = [⟨2, 0, false⟩, ⟨1, 1, true⟩] ∧
      (∀ answer ∈ last.answers, answer.response = answer.number ↔ answer.clean = true) := by
  have ran : run step init quarrel = some _ := rfl
  exact ⟨_, ran, rfl, (responses_fit ran).1⟩

/-- Nothing is to come over a connection but the response to the call that waits for it. -/
structure Settled (clients : ProxyClients) : Prop where
  idle : ∀ (t : Nat) thread c link, clients.threads[t]? = some thread →
    (∃ address, thread.tls address = some c) → clients.links[c]? = some link →
      link.outstanding = [] ∨ ∃ pending, thread.call = some pending ∧ pending.link = c
  waiting : ∀ (t : Nat) thread pending, clients.threads[t]? = some thread →
    thread.call = some pending → pending.clean = true
  answered : ∀ answer ∈ clients.answers, answer.clean = true

theorem Settled.relink (settled : clients.Settled) (linked : clients.links[c]? = some link)
    (same : changed.outstanding = link.outstanding) : (clients.setLink c changed).Settled := by
  refine ⟨fun s member d here found owns linked => ?_, settled.waiting, settled.answered⟩
  obtain ⟨rfl, rfl⟩ | ⟨_, linked⟩ := getElem?_set_cases linked
  · rw [same]
    exact settled.idle s member d link found owns ‹_›
  · exact settled.idle s member d here found owns linked

/-- A thread that gives up connections -/
theorem Settled.leave (settled : clients.Settled) (found : clients.threads[t]? = some thread)
    (fewer : ∀ address c, new.tls address = some c → thread.tls address = some c)
    (call : new.call = thread.call) : (clients.setThread t new).Settled := by
  refine ⟨fun s member d here place owns linked => ?_, fun s member pending place waits => ?_,
    settled.answered⟩
  · obtain ⟨rfl, rfl⟩ | ⟨_, place⟩ := getElem?_set_cases place
    · obtain ⟨address, owns⟩ := owns
      rw [call]
      exact settled.idle s thread d here found ⟨address, fewer address d owns⟩ linked
    · exact settled.idle s member d here place owns linked
  · obtain ⟨rfl, rfl⟩ | ⟨_, place⟩ := getElem?_set_cases place
    · exact settled.waiting s thread pending found (call.symm.trans waits)
    · exact settled.waiting s member pending place waits

theorem Settled.start (settled : clients.Settled) (process : Nat) :
    Settled { clients with threads := clients.threads ++ [⟨process, Dict.empty, none⟩] } := by
  refine ⟨fun s member d here place owns linked => ?_, fun s member pending place waits => ?_,
    settled.answered⟩
  · obtain place | ⟨_, rfl⟩ := getElem?_concat_cases place
    · exact settled.idle s member d here place owns linked
    · obtain ⟨_, owns⟩ := owns
      cases owns
  · obtain place | ⟨_, rfl⟩ := getElem?_concat_cases place
    · exact settled.waiting s member pending place waits
    · cases waits

theorem Settled.connect (settled : clients.Settled)
    (found : clients.threads[t]? = some thread) (quiet : thread.call = none) (address : Nat) :
    (clients.connect t thread address).Settled := by
  refine ⟨fun s member d here place owns linked => ?_, fun s member pending place waits => ?_,
    settled.answered⟩
  · obtain before | ⟨_, rfl⟩ := getElem?_concat_cases linked
    · have old : d < clients.links.length := (List.getElem?_eq_some_iff.mp before).1
      obtain ⟨rfl, rfl⟩ | ⟨_, place⟩ := getElem?_set_cases place
      · obtain ⟨other, owns⟩ := owns
        obtain ⟨_, same⟩ | ⟨_, owns⟩ := Dict.set_eq_some.mp owns
        · exact absurd same.symm (Nat.ne_of_lt old)
        · exact settled.idle s thread d here found ⟨other, owns⟩ before
      · exact settled.idle s member d here place owns before
    · exact .inl rfl
  · obtain ⟨rfl, rfl⟩ | ⟨_, place⟩ := getElem?_set_cases place
    · cases quiet.symm.trans waits
    · exact settled.waiting s member pending place waits

theorem Settled.call (settled : clients.Settled) (sound : clients.Sound)
    (found : clients.threads[t]? = some thread) {address : Nat}
    (taken : clients.call t thread address = some next) : next.Settled := by
  unfold ProxyClients.call at taken
  split at taken
  · rename_i c quiet owns
    split at taken
    · cases taken
    · rename_i link linked
      cases taken
      refine ⟨fun s member d here place mine linked => ?_, fun s member pending place waits => ?_,
        settled.answered⟩
      · obtain ⟨rfl, rfl⟩ | ⟨different, before⟩ := getElem?_set_cases place
        · obtain ⟨rfl, _⟩ | ⟨_, linked⟩ := getElem?_set_cases linked
          · exact .inr ⟨_, rfl, rfl⟩
          · obtain none | ⟨_, waits, _⟩ := settled.idle s thread d here found mine linked
            · exact .inl none
            · cases quiet.symm.trans waits
        · obtain ⟨rfl, _⟩ | ⟨_, linked⟩ := getElem?_set_cases linked
          · exact absurd (sound.apart s t member thread before found d (.inl mine)
              (.inl ⟨address, owns⟩)) different
          · exact settled.idle s member d here before mine linked
      · obtain ⟨rfl, rfl⟩ | ⟨_, place⟩ := getElem?_set_cases place
        · cases waits
          obtain none | ⟨_, waits, _⟩ := settled.idle s thread c link found ⟨address, owns⟩ linked
          · exact List.isEmpty_iff.mpr none
          · cases quiet.symm.trans waits
        · exact settled.waiting s member pending place waits
  · cases taken

theorem Settled.receive (settled : clients.Settled) (sound : clients.Sound)
    (found : clients.threads[t]? = some thread)
    (taken : clients.receive t thread = some next) : next.Settled := by
  unfold ProxyClients.receive at taken
  split at taken
  · cases taken
  · rename_i pending waits
    split at taken
    · rename_i requests response responses linked
      cases taken
      have clean : pending.clean = true := settled.waiting t thread pending found waits
      have alone : responses ++ requests = [] := by
        obtain ⟨stale, all, _, only⟩ := sound.fits t thread pending _ found waits linked
        rw [only.mp clean] at all
        exact (List.cons.inj all).2
      refine ⟨fun s member d here place mine linked => ?_, fun s member other place waits => ?_,
        fun answer member => ?_⟩
      · obtain ⟨rfl, rfl⟩ | ⟨_, linked⟩ := getElem?_set_cases linked
        · exact .inl alone
        · obtain ⟨rfl, rfl⟩ | ⟨_, place⟩ := getElem?_set_cases place
          · obtain none | ⟨_, same, rfl⟩ := settled.idle s thread d here found mine linked
            · exact .inl none
            · cases waits.symm.trans same
              exact absurd rfl ‹_›
          · exact settled.idle s member d here place mine linked
      · obtain ⟨rfl, rfl⟩ | ⟨_, place⟩ := getElem?_set_cases place
        · cases waits
        · exact settled.waiting s member other place waits
      · obtain old | same := List.mem_append.mp member
        · exact settled.answered answer old
        · rw [List.mem_singleton.mp same]
          exact clean
    · cases taken

theorem Settled.withIdsets (settled : clients.Settled) (idsets : List (Nat → Finset Nat)) :
    Settled { clients with idsets } :=
  ⟨settled.idle, settled.waiting, settled.answered⟩

theorem Settled.serve (settled : clients.Settled) (taken : clients.serve c = some next) :
    next.Settled := by
  unfold ProxyClients.serve at taken
  split at taken
  · rename_i number requests responses closed linked
    cases taken
    exact settled.relink linked (List.append_cons ..).symm
  · cases taken

theorem Settled.step (settled : clients.Settled) (sound : clients.Sound)
    (calm : clients.Uninterrupted action) (taken : ProxyClients.step clients action = some next) :
    next.Settled := by
  cases step_turn taken with
  | connects t address thread found idle => exact settled.connect found idle address
  | calls t address thread next found taken => exact settled.call sound found taken
  | serves c next taken => exact settled.serve taken
  | receives t thread next found taken => exact settled.receive sound found taken
  | interrupts t thread found =>
      exact settled.leave found (fun _ _ owns => owns) (calm thread found).symm
  | counts action idsets => exact settled.withIdsets idsets
  | parts t address ident thread idsets c link found linked =>
      refine Settled.relink (Settled.leave (settled.withIdsets _) found ?_ rfl) linked rfl
      exact fun other d owns => (Dict.erase_eq_some.mp owns).2
  | starts t process => exact settled.start process
  | forks t process idsets => exact (settled.withIdsets idsets).start process

theorem settled_init : init.Settled := by
  have nothing : ∀ {t : Nat} {thread}, init.threads[t]? = some thread →
      thread = ⟨0, Dict.empty, none⟩ := by
    rintro (_ | t) thread ⟨⟩
    rfl
  refine ⟨fun t thread c link found owns => ?_, fun t thread pending found waits => ?_, nofun⟩
  · rw [nothing found] at owns
    obtain ⟨_, owns⟩ := owns
    cases owns
  · rw [nothing found] at waits
    cases waits

/-- Where no call is given up, every call returns with the response to itself, and the connections
of a thread that waits for nothing are free. -/
theorem answers_own (ran : run step init labels = some last)
    (along : Along step Uninterrupted init labels) :
    (∀ answer ∈ last.answers, answer.response = answer.number) ∧
      ∀ (t : Nat) thread address c link, last.threads[t]? = some thread → thread.call = none →
        thread.tls address = some c → last.links[c]? = some link → link.outstanding = [] := by
  have kept : Preserves step Uninterrupted fun clients => clients.Sound ∧ clients.Settled :=
    fun clients action next ⟨sound, settled⟩ calm taken =>
      ⟨sound.step taken, settled.step sound calm taken⟩
  obtain ⟨sound, settled⟩ := invariant_along kept ⟨sound_init, settled_init⟩ along ran
  refine ⟨fun answer member => ?_, fun t thread address c link found quiet owns linked => ?_⟩
  · exact (sound.answered answer member).mpr (settled.answered answer member)
  · obtain none | ⟨_, waits, _⟩ := settled.idle t thread c link found ⟨address, owns⟩ linked
    · exact none
    · cases quiet.symm.trans waits

def conversation : List ProxyAction :=
  [.incref 0 5 1, .connect 0 5, .call 0 5, .startThread 0, .connect 1 5, .call 1 5, .serve 1,
    .serve 0, .receive 0, .fork 0, .incref 2 5 1, .connect 2 5, .call 2 5, .decref 0 5 1,
    .receive 1, .serve 2, .receive 2]

theorem answers_own_conversation :
    ∃ last, run step init conversation = some last ∧ last.answers.length = 3 ∧
      ∀ answer ∈ last.answers, answer.response = answer.number := by
  have ran : run step init conversation = some _ := rfl
  exact ⟨_, ran, rfl, (answers_own ran (by decide)).1⟩

end ProxyClients

end Billiard
