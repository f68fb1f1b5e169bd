import Billiard.Data.Tally
import Billiard.Data.Transition

/-! The authentication of `Listener.accept` and `Client`: sessions that share a
key, over a network that an attacker controls. -/

namespace Billiard

open Transition

/-- A byte on the network.  Those of a challenge and those of a digest made with
the key are told apart from all others, and from each other by what they are of. -/
inductive Symbol where
  | byte (value : UInt8)
  | random (session i : Nat)
  | digest (payload : List Symbol) (i : Nat)

namespace Symbol

mutual

def decEq : (first second : Symbol) → Decidable (first = second)
  | .byte a, .byte b => decidable_of_iff (a = b) (by simp)
  | .random s i, .random t j => decidable_of_iff (s = t ∧ i = j) (by simp)
  | .digest p i, .digest q j =>
      have := decEqList p q
      decidable_of_iff (p = q ∧ i = j) (by simp)
  | .byte _, .random _ _ | .byte _, .digest _ _ | .random _ _, .byte _
  | .random _ _, .digest _ _ | .digest _ _, .byte _ | .digest _ _, .random _ _ =>
      isFalse (by simp)

def decEqList : (first second : List Symbol) → Decidable (first = second)
  | [], [] => isTrue rfl
  | a :: as, b :: bs =>
      have := decEq a b
      have := decEqList as bs
      decidable_of_iff (a = b ∧ as = bs) (by simp)
  | [], _ :: _ | _ :: _, [] => isFalse (by simp)

end

instance : DecidableEq Symbol := decEq

end Symbol

abbrev Text := List Symbol

namespace Challenge

def messageLength : Nat := 20

def digestSize : Nat := 16

def maxsize : Nat := 256

def literal (bytes : List UInt8) : Text := bytes.map .byte

/-- `CHALLENGE` -/
def challenge : Text := literal [35, 67, 72, 65, 76, 76, 69, 78, 71, 69, 35]

/-- `WELCOME` -/
def welcome : Text := literal [35, 87, 69, 76, 67, 79, 77, 69, 35]

/-- `FAILURE` -/
def failure : Text := literal [35, 70, 65, 73, 76, 85, 82, 69, 35]

/-- `os.urandom(MESSAGE_LENGTH)`, once in each session. -/
def message (session : Nat) : Text := (List.range messageLength).map (.random session)

/-- `hmac.new(authkey, payload, 'md5').digest()` -/
def hmac (payload : Text) : Text := (List.range digestSize).map (.digest payload)

end Challenge

open Challenge

inductive Role where
  | client
  | listener
deriving DecidableEq, Repr

/-- What a session waits for: a client answers a challenge and then delivers its
own, a listener does so the other way round. -/
inductive Stage where
  | challenge
  | welcome
  | digest
  | completed
  | failed
deriving DecidableEq, Repr

/-- `accepted` is the response that `deliver_challenge` has accepted. -/
structure Handshake where
  role : Role
  stage : Stage
  accepted : Option Text
deriving DecidableEq

/-- A digest computed in `answer_challenge`. -/
structure Answer where
  session : Nat
  payload : Text
deriving DecidableEq

/-- `sent` is everything that the sessions have sent, `answers` a history. -/
structure Network where
  sessions : List Handshake
  sent : List Text
  answers : List Answer
deriving DecidableEq

/-- What the attacker has a session do. -/
inductive NetworkStep where
  | start (role : Role)
  | deliver (session : Nat) (text : Text)
  | hangUp (session : Nat)
deriving DecidableEq

namespace Handshake

def start : Role → Handshake
  | .client => ⟨.client, .challenge, none⟩
  | .listener => ⟨.listener, .digest, none⟩

def fail (session : Handshake) : Handshake := { session with stage := .failed }

/-- What a session does with the message that it has waited for: its new state,
what it sends and the payload that it answers. -/
def receive (number : Nat) (session : Handshake) (text : Text) :
    Option (Handshake × List Text × List Text) :=
  match session.stage with
  | .completed | .failed => none
  | .challenge =>
      if maxsize < text.length then some (session.fail, [], [])
      else if text.take challenge.length = challenge then
        let payload := text.drop challenge.length
        some ({ session with stage := .welcome }, [hmac payload], [payload])
      else some (session.fail, [], [])
  | .welcome =>
      if text = welcome then
        match session.role with
        | .client => some ({ session with stage := .digest }, [challenge ++ message number], [])
        | .listener => some ({ session with stage := .completed }, [], [])
      else some (session.fail, [], [])
  | .digest =>
      if maxsize < text.length then some (session.fail, [], [])
      else if text = hmac (message number) then
        match session.role with
        | .client =>
            some ({ session with stage := .completed, accepted := some text }, [welcome], [])
        | .listener =>
            some ({ session with stage := .challenge, accepted := some text }, [welcome], [])
      else some (session.fail, [Challenge.failure], [])

end Handshake

namespace Network

def init : Network := ⟨[], [], []⟩

def role (network : Network) (number : Nat) : Option Role :=
  network.sessions[number]?.map Handshake.role

/-- The attacker makes up bytes and copies those that it has seen. -/
def known (network : Network) : Symbol → Bool
  | .byte _ => true
  | symbol => network.sent.any (·.contains symbol)

def step (network : Network) : NetworkStep → Option Network
  | .start role =>
      -- a listener delivers its challenge at once
      some { network with
        sessions := network.sessions ++ [.start role]
        sent := match role with
          | .client => network.sent
          | .listener => network.sent ++ [challenge ++ message network.sessions.length] }
  | .deliver number text =>
      if text.all network.known then
        match network.sessions[number]? with
        | none => none
        | some session =>
            (session.receive number text).map fun (session, sent, payloads) =>
              { sessions := network.sessions.set number session
                sent := network.sent ++ sent
                answers := network.answers ++ payloads.map fun payload => ⟨number, payload⟩ }
      else none
  | .hangUp number =>
      network.sessions[number]?.map fun session =>
        { network with sessions := network.sessions.set number session.fail }

/-- The digests that the clients have accepted were computed by listeners only. -/
def Authentic (network : Network) : Prop :=
  ∀ (number : Nat) (session : Handshake), network.sessions[number]? = some session →
    session.role = .client → session.stage = .completed →
    ∃ digest, session.accepted = some digest ∧
      (∃ answer ∈ network.answers, hmac answer.payload = digest) ∧
      ∀ answer ∈ network.answers, hmac answer.payload = digest →
        network.role answer.session = some .listener

/-- The attacker does not have a client answer the challenge of a client. -/
def Unreflected (network : Network) : NetworkStep → Prop
  | .deliver number text =>
      ∀ session ∈ network.sessions[number]?, session.role = .client → session.stage = .challenge →
        ∀ other < network.sessions.length, network.role other = some .client →
          text ≠ challenge ++ message other
  | .start _ | .hangUp _ => True

instance (network : Network) : DecidablePred network.Unreflected
  | .deliver number text => inferInstanceAs (Decidable (∀ session ∈ network.sessions[number]?,
      session.role = .client → session.stage = .challenge → ∀ other < network.sessions.length,
        network.role other = some .client → text ≠ challenge ++ message other))
  | .start _ | .hangUp _ => inferInstanceAs (Decidable True)

/-- Where a symbol on the network comes from. -/
def Grounded (network : Network) : Symbol → Prop
  | .byte _ => True
  | .random number _ => number < network.sessions.length
  | .digest payload _ => ∃ answer ∈ network.answers, answer.payload = payload

structure Invariant (network : Network) : Prop where
  sent : ∀ text ∈ network.sent, ∀ symbol ∈ text, network.Grounded symbol
  payloads : ∀ answer ∈ network.answers, ∀ symbol ∈ answer.payload, network.Grounded symbol
  accepted : ∀ (number : Nat) (session : Handshake), network.sessions[number]? = some session →
    ∀ digest, session.accepted = some digest →
      digest = hmac (message number) ∧ ∃ answer ∈ network.answers, answer.payload = message number
  completed : ∀ (number : Nat) (session : Handshake), network.sessions[number]? = some session →
    session.role = .client → session.stage = .completed → session.accepted.isSome = true
  unreflected : ∀ answer ∈ network.answers, network.role answer.session = some .listener ∨
    ∀ other, network.role other = some .client → answer.payload ≠ message other

end Network

theorem Challenge.hmac_injective {first second : Text} (same : hmac first = hmac second) :
    first = second := by
  have equal := List.map_inj_left.mp same 0 (by decide)
  exact (Symbol.digest.inj equal).1

theorem Challenge.mem_hmac {payload : Text} {symbol : Symbol} (member : symbol ∈ hmac payload) :
    ∃ i, symbol = .digest payload i := by
  obtain ⟨i, _, rfl⟩ := List.mem_map.mp member
  exact ⟨i, rfl⟩

theorem Challenge.mem_message {number : Nat} {symbol : Symbol} (member : symbol ∈ message number) :
    ∃ i, symbol = .random number i := by
  obtain ⟨i, _, rfl⟩ := List.mem_map.mp member
  exact ⟨i, rfl⟩

theorem Challenge.mem_literal {bytes : List UInt8} {symbol : Symbol}
    (member : symbol ∈ literal bytes) : ∃ value, symbol = .byte value := by
  obtain ⟨value, _, rfl⟩ := List.mem_map.mp member
  exact ⟨value, rfl⟩

theorem Handshake.receive_cases {number : Nat} {session next : Handshake} {text : Text}
    {sent payloads : List Text}
    (received : session.receive number text = some (next, sent, payloads)) :
    next.role = session.role ∧
      ((session.stage = .challenge ∧ ∃ payload, text = challenge ++ payload ∧
          next = { session with stage := .welcome } ∧ sent = [hmac payload] ∧
          payloads = [payload]) ∨
        (text = hmac (message number) ∧ next.accepted = some text ∧ sent = [welcome] ∧
          payloads = []) ∨
        (next.accepted = session.accepted ∧ (next.stage = .completed → next.role = .listener) ∧
          payloads = [] ∧ (sent = [] ∨ sent = [Challenge.failure] ∨
            sent = [challenge ++ message number]))) := by
  unfold receive at received
  cases stage : session.stage with
  | completed =>
      rw [stage] at received
      cases received
  | failed =>
      rw [stage] at received
      cases received
  | challenge =>
      simp only [stage] at received
      split at received
      · cases received
        exact ⟨rfl, .inr (.inr ⟨rfl, nofun, rfl, .inl rfl⟩)⟩
      · split at received
        · rename_i starts
          cases received
          refine ⟨rfl, .inl ⟨rfl, text.drop challenge.length, ?_, rfl, rfl, rfl⟩⟩
          calc text = text.take challenge.length ++ text.drop challenge.length :=
                (List.take_append_drop _ _).symm
            _ = challenge ++ text.drop challenge.length := by rw [starts]
        · cases received
          exact ⟨rfl, .inr (.inr ⟨rfl, nofun, rfl, .inl rfl⟩)⟩
  | welcome =>
      simp only [stage] at received
      split at received
      · split at received
        · cases received
          exact ⟨rfl, .inr (.inr ⟨rfl, nofun, rfl, .inr (.inr rfl)⟩)⟩
        · rename_i listens
          cases received
          exact ⟨rfl, .inr (.inr ⟨rfl, fun _ => listens, rfl, .inl rfl⟩)⟩
      · cases received
        exact ⟨rfl, .inr (.inr ⟨rfl, nofun, rfl, .inl rfl⟩)⟩
  | digest =>
      simp only [stage] at received
      split at received
      · cases received
        exact ⟨rfl, .inr (.inr ⟨rfl, nofun, rfl, .inl rfl⟩)⟩
      · split at received
        · rename_i matches_
          split at received
          · cases received
            exact ⟨rfl, .inr (.inl ⟨matches_, rfl, rfl, rfl⟩)⟩
          · cases received
            exact ⟨rfl, .inr (.inl ⟨matches_, rfl, rfl, rfl⟩)⟩
        · cases received
          exact ⟨rfl, .inr (.inr ⟨rfl, nofun, rfl, .inr (.inl rfl)⟩)⟩

namespace Network

variable {network next : Network}

theorem invariant_init : init.Invariant where
  sent text listed := by cases listed
  payloads answer listed := by cases listed
  accepted number session found := by cases found
  completed number session found := by cases found
  unreflected answer listed := by cases listed

theorem Grounded.mono {symbol : Symbol} (grounded : network.Grounded symbol)
    (sessions : network.sessions.length ≤ next.sessions.length)
    (answers : ∀ answer ∈ network.answers, answer ∈ next.answers) : next.Grounded symbol := by
  cases symbol with
  | byte value => exact True.intro
  | random number i => exact Nat.lt_of_lt_of_le grounded sessions
  | digest payload i =>
      obtain ⟨answer, listed, same⟩ := grounded
      exact ⟨answer, answers answer listed, same⟩

theorem Invariant.grounded (invariant : network.Invariant) {text : Text}
    (made : text.all network.known = true) {symbol : Symbol} (member : symbol ∈ text) :
    network.Grounded symbol := by
  have known := List.all_eq_true.mp made symbol member
  have seen : network.sent.any (·.contains symbol) = true → network.Grounded symbol := by
    intro seen
    obtain ⟨text, sent, contains⟩ := List.any_eq_true.mp seen
    exact invariant.sent text sent symbol (List.contains_iff_mem.mp contains)
  cases symbol with
  | byte value => exact True.intro
  | random number i => exact seen known
  | digest payload i => exact seen known

/-- The challenge of a session that has not started is not on the network. -/
theorem ne_message_of_grounded {payload : Text} {other : Nat}
    (grounded : ∀ symbol ∈ payload, network.Grounded symbol)
    (later : network.sessions.length ≤ other) : payload ≠ message other := by
  intro same
  subst same
  have started : other < network.sessions.length :=
    grounded (.random other 0) (List.mem_map.mpr ⟨0, by decide, rfl⟩)
  exact Nat.not_lt_of_le later started

theorem lt_of_role {number : Nat} {acts : Role} (found : network.role number = some acts) :
    number < network.sessions.length := by
  obtain ⟨session, here, _⟩ := Option.map_eq_some_iff.mp found
  exact (List.getElem?_eq_some_iff.mp here).1

/-- Sessions keep their roles, so what is new is a challenge, or an answer that no
client gives to a client. -/
theorem Invariant.grow (invariant : network.Invariant)
    (sessions : network.sessions.length ≤ next.sessions.length)
    (roles : ∀ number, number < network.sessions.length → next.role number = network.role number)
    (kept : ∀ answer ∈ network.answers, answer ∈ next.answers)
    (sent : ∀ text ∈ next.sent, text ∈ network.sent ∨ ∀ symbol ∈ text, next.Grounded symbol)
    (accepted : ∀ (number : Nat) (session : Handshake), next.sessions[number]? = some session →
      ∀ digest, session.accepted = some digest →
        digest = hmac (message number) ∧
          ∃ answer ∈ network.answers, answer.payload = message number)
    (completed : ∀ (number : Nat) (session : Handshake), next.sessions[number]? = some session →
      session.role = .client → session.stage = .completed → session.accepted.isSome = true)
    (answers : ∀ answer ∈ next.answers, answer ∈ network.answers ∨
      (∀ symbol ∈ answer.payload, network.Grounded symbol) ∧
        (network.role answer.session = some .listener ∨
          ∀ other, network.role other = some .client → answer.payload ≠ message other)) :
    next.Invariant := by
  have older : ∀ answer ∈ next.answers, (∀ symbol ∈ answer.payload, network.Grounded symbol) ∧
      (network.role answer.session = some .listener ∨
        ∀ other, network.role other = some .client → answer.payload ≠ message other) := by
    intro answer listed
    cases answers answer listed with
    | inl old => exact ⟨invariant.payloads answer old, invariant.unreflected answer old⟩
    | inr fresh => exact fresh
  constructor
  case sent =>
    intro text listed symbol member
    cases sent text listed with
    | inl old => exact (invariant.sent text old symbol member).mono sessions kept
    | inr fresh => exact fresh symbol member
  case payloads =>
    intro answer listed symbol member
    exact ((older answer listed).1 symbol member).mono sessions kept
  case accepted =>
    intro number session found digest has
    obtain ⟨same, answer, listed, payload⟩ := accepted number session found digest has
    exact ⟨same, answer, kept answer listed, payload⟩
  case completed => exact completed
  case unreflected =>
    intro answer listed
    obtain ⟨grounded, by_listener | unreflected⟩ := older answer listed
    · left
      rw [roles answer.session (lt_of_role by_listener)]
      exact by_listener
    · right
      intro other client
      by_cases here : other < network.sessions.length
      · rw [roles other here] at client
        exact unreflected other client
      · exact ne_message_of_grounded grounded (Nat.le_of_not_lt here)

theorem role_set {number other : Nat} {before after : Handshake} {sent : List Text}
    {answers : List Answer} (found : network.sessions[number]? = some before)
    (same : after.role = before.role) :
    role ⟨network.sessions.set number after, sent, answers⟩ other = network.role other := by
  obtain ⟨inside, is_before⟩ := List.getElem?_eq_some_iff.mp found
  by_cases here : number = other
  · subst here
    simp [role, inside, same, is_before]
  · simp [role, here]

theorem Invariant.start (invariant : network.Invariant) (role : Role)
    (taken : network.step (.start role) = some next) : next.Invariant := by
  cases taken
  have sessions_le :
      network.sessions.length ≤ (network.sessions ++ [Handshake.start role]).length := by
    simp
  have cases_of : ∀ (number : Nat) (session : Handshake),
      (network.sessions ++ [Handshake.start role])[number]? = some session →
        network.sessions[number]? = some session ∨ session = .start role := by
    intro number session found
    by_cases here : number < network.sessions.length
    · rw [List.getElem?_append_left here] at found
      exact .inl found
    · rw [List.getElem?_append_right (Nat.le_of_not_lt here)] at found
      exact .inr (List.mem_singleton.mp (List.mem_of_getElem? found))
  apply invariant.grow sessions_le
  case roles =>
    intro number here
    simp only [Network.role]
    rw [List.getElem?_append_left here]
  case kept => exact fun _ listed => listed
  case sent =>
    intro text listed
    cases role with
    | client => exact .inl listed
    | listener =>
        obtain old | rfl := (List.mem_append.mp listed).imp_right List.mem_singleton.mp
        · exact .inl old
        · right
          intro symbol member
          cases List.mem_append.mp member with
          | inl fixed =>
              obtain ⟨value, rfl⟩ := mem_literal fixed
              exact True.intro
          | inr own =>
              obtain ⟨i, rfl⟩ := mem_message own
              show network.sessions.length < (network.sessions ++ [_]).length
              simp
  case accepted =>
    intro number session found digest has
    cases cases_of number session found with
    | inl old => exact invariant.accepted number session old digest has
    | inr fresh =>
        subst fresh
        cases role <;> cases has
  case completed =>
    intro number session found client completed
    cases cases_of number session found with
    | inl old => exact invariant.completed number session old client completed
    | inr fresh =>
        subst fresh
        cases role <;> cases completed
  case answers => exact fun _ listed => .inl listed

theorem Invariant.move (invariant : network.Invariant) {number : Nat} {before after : Handshake}
    {sent : List Text} {payloads : List Text}
    (found : network.sessions[number]? = some before) (same : after.role = before.role)
    (grounded_sent : ∀ text ∈ sent, ∀ symbol ∈ text,
      (⟨network.sessions.set number after, network.sent ++ sent,
        network.answers ++ payloads.map fun payload => ⟨number, payload⟩⟩ :
          Network).Grounded symbol)
    (accepted : after.accepted = before.accepted ∨
      after.accepted = some (hmac (message number)) ∧
        ∃ answer ∈ network.answers, answer.payload = message number)
    (completed : after.stage = .completed → after.role = .listener ∨ after.accepted.isSome = true)
    (answered : ∀ payload ∈ payloads, (∀ symbol ∈ payload, network.Grounded symbol) ∧
      (before.role = .client →
        ∀ other, network.role other = some .client → payload ≠ message other)) :
    (⟨network.sessions.set number after, network.sent ++ sent,
      network.answers ++ payloads.map fun payload => ⟨number, payload⟩⟩ : Network).Invariant := by
  apply invariant.grow
  case sessions => exact Nat.le_of_eq List.length_set.symm
  case roles => exact fun _ _ => role_set found same
  case kept => exact fun answer listed => List.mem_append_left _ listed
  case sent =>
    intro text listed
    exact (List.mem_append.mp listed).imp_right (grounded_sent text)
  case accepted =>
    refine Tally.forall_set (fun digest has => ?_) fun other session _ old =>
      invariant.accepted other session old
    obtain unchanged | ⟨new, answer⟩ := accepted
    · rw [unchanged] at has
      exact invariant.accepted number before found digest has
    · rw [new] at has
      exact ⟨(Option.some.inj has).symm, answer⟩
  case completed =>
    refine Tally.forall_set (fun client stage => ?_) fun other session _ old =>
      invariant.completed other session old
    cases completed stage with
    | inl listens =>
        rw [client] at listens
        cases listens
    | inr has => exact has
  case answers =>
    intro answer listed
    cases List.mem_append.mp listed with
    | inl old => exact .inl old
    | inr new =>
        obtain ⟨payload, given, rfl⟩ := List.mem_map.mp new
        obtain ⟨grounded, unreflected⟩ := answered payload given
        refine .inr ⟨grounded, ?_⟩
        cases acts : before.role with
        | client => exact .inr (unreflected acts)
        | listener =>
            left
            show (network.sessions[number]?).map Handshake.role = some .listener
            rw [found]
            exact congrArg some acts

theorem grounded_literal {bytes : List UInt8} :
    ∀ symbol ∈ literal bytes, network.Grounded symbol := by
  intro symbol member
  obtain ⟨value, rfl⟩ := mem_literal member
  exact True.intro

theorem Invariant.deliver (invariant : network.Invariant) {number : Nat} {text : Text}
    (unreflected : network.Unreflected (.deliver number text))
    (taken : network.step (.deliver number text) = some next) : next.Invariant := by
  simp only [step] at taken
  split at taken
  case isFalse => cases taken
  case isTrue made =>
    cases found : network.sessions[number]? with
    | none =>
        rw [found] at taken
        cases taken
    | some session =>
        rw [found] at taken
        obtain ⟨⟨after, sent, payloads⟩, received, rfl⟩ := Option.map_eq_some_iff.mp taken
        obtain ⟨same, answers | accepts | neither⟩ := Handshake.receive_cases received
        · obtain ⟨stage, payload, rfl, rfl, rfl, rfl⟩ := answers
          apply invariant.move found same
          case grounded_sent =>
            intro text listed symbol member
            rw [List.mem_singleton.mp listed] at member
            obtain ⟨i, rfl⟩ := mem_hmac member
            exact ⟨⟨number, payload⟩, List.mem_append_right _ (List.mem_singleton.mpr rfl), rfl⟩
          case accepted => exact .inl rfl
          case completed => intro stage; cases stage
          case answered =>
            intro other listed
            rw [List.mem_singleton.mp listed]
            constructor
            · intro symbol member
              exact invariant.grounded made (List.mem_append_right _ member)
            · intro client other challenger reflected
              apply unreflected session found client stage other (lt_of_role challenger) challenger
              rw [reflected]
        · obtain ⟨rfl, new, rfl, rfl⟩ := accepts
          -- the digest is on the network, so that somebody has computed it
          have computed : network.Grounded (.digest (message number) 0) :=
            invariant.grounded made (List.mem_map.mpr ⟨0, by decide, rfl⟩)
          apply invariant.move found same
          case grounded_sent =>
            intro text listed symbol member
            rw [List.mem_singleton.mp listed] at member
            exact grounded_literal symbol member
          case accepted => exact .inr ⟨new, computed⟩
          case completed => exact fun _ => .inr (by rw [new]; rfl)
          case answered => exact fun _ listed => by cases listed
        · obtain ⟨unchanged, listens, rfl, sends⟩ := neither
          apply invariant.move found same
          case grounded_sent =>
            intro text listed symbol member
            obtain rfl | rfl | rfl := sends
            · cases listed
            · rw [List.mem_singleton.mp listed] at member
              exact grounded_literal symbol member
            · rw [List.mem_singleton.mp listed] at member
              cases List.mem_append.mp member with
              | inl fixed => exact grounded_literal symbol fixed
              | inr own =>
                  obtain ⟨i, rfl⟩ := mem_message own
                  show number < (network.sessions.set number after).length
                  rw [List.length_set]
                  exact (List.getElem?_eq_some_iff.mp found).1
          case accepted => exact .inl unchanged
          case completed => exact fun stage => .inl (listens stage)
          case answered => exact fun _ listed => by cases listed

theorem Invariant.hangUp (invariant : network.Invariant) {number : Nat}
    (taken : network.step (.hangUp number) = some next) : next.Invariant := by
  obtain ⟨session, found, rfl⟩ := Option.map_eq_some_iff.mp taken
  have moved : Invariant ⟨network.sessions.set number session.fail, network.sent ++ [],
      network.answers ++ ([] : List Text).map fun payload => ⟨number, payload⟩⟩ := by
    apply invariant.move found
    case same => rfl
    case grounded_sent => exact fun _ listed => by cases listed
    case accepted => exact .inl rfl
    case completed => intro stage; cases stage
    case answered => exact fun _ listed => by cases listed
  simp only [List.map_nil, List.append_nil] at moved
  exact moved

theorem step_invariant : Preserves step Unreflected Invariant := by
  intro network label next invariant unreflected taken
  cases label with
  | start role => exact invariant.start role taken
  | deliver number text => exact invariant.deliver unreflected taken
  | hangUp number => exact invariant.hangUp taken

theorem Invariant.authentic (invariant : network.Invariant) : network.Authentic := by
  intro number session found client completed
  have has := invariant.completed number session found client completed
  obtain ⟨digest, accepted⟩ := Option.isSome_iff_exists.mp has
  obtain ⟨rfl, answer, listed, payload⟩ := invariant.accepted number session found digest accepted
  refine ⟨_, accepted, ⟨answer, listed, by rw [payload]⟩, ?_⟩
  intro other listed_other same
  have own : other.payload = message number := hmac_injective same
  obtain by_listener | unreflected := invariant.unreflected other listed_other
  · exact by_listener
  · have challenger : network.role number = some .client := by
      simp [role, found, client]
    exact absurd own (unreflected number challenger)

/-- Whatever the attacker sends, as long as it has no client answer the challenge
of another client. -/
theorem authentic_along {steps : List NetworkStep} {last : Network}
    (unreflected : Along step Unreflected init steps)
    (ran : run step init steps = some last) : last.Authentic :=
  (invariant_along step_invariant invariant_init unreflected ran).authentic

/-- A listener and a client, all of whose messages arrive. -/
def honestSteps : List NetworkStep :=
  [.start .listener, .start .client, .deliver 1 (challenge ++ message 0),
    .deliver 0 (hmac (message 0)), .deliver 1 welcome, .deliver 0 (challenge ++ message 1),
    .deliver 1 (hmac (message 1)), .deliver 0 welcome]

theorem authentic_along_honestSteps :
    ∃ last, run step init honestSteps = some last ∧ last.Authentic := by
  have runs : (run step init honestSteps).isSome = true := by decide
  obtain ⟨last, ran⟩ := Option.isSome_iff_exists.mp runs
  exact ⟨last, ran, authentic_along (by decide) ran⟩

/-- Two clients and no listener: the second answers the challenge of the first. -/
def reflectedSteps : List NetworkStep :=
  [.start .client, .start .client, .deliver 0 challenge, .deliver 0 welcome,
    .deliver 1 (challenge ++ message 0), .deliver 0 (hmac (message 0))]

def reflected : Network where
  sessions := [⟨.client, .completed, some (hmac (message 0))⟩, ⟨.client, .welcome, none⟩]
  sent := [hmac [], challenge ++ message 0, hmac (message 0), welcome]
  answers := [⟨0, []⟩, ⟨1, message 0⟩]

theorem not_authentic :
    ¬ ∀ (steps : List NetworkStep) (last : Network),
      run step init steps = some last → last.Authentic := by
  intro claimed
  have ran : run step init reflectedSteps = some reflected := by decide
  obtain ⟨digest, accepted, _, by_listener⟩ := claimed reflectedSteps reflected ran 0 _ rfl rfl rfl
  cases accepted
  have listens : reflected.role 1 = some .listener := by_listener ⟨1, message 0⟩ (by decide) rfl
  exact absurd listens (by decide)

end Network

end Billiard
