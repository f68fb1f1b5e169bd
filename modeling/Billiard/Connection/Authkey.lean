import Billiard.Connection.Challenge

/-! The two ends of one connection: `Listener.accept` and `Client`, each with the
authkey that it was given, over a channel that loses nothing. -/

namespace Billiard

open Transition

abbrev Bytes := List UInt8

namespace Authkey

def challenge : Bytes := [35, 67, 72, 65, 76, 76, 69, 78, 71, 69, 35]

def welcome : Bytes := [35, 87, 69, 76, 67, 79, 77, 69, 35]

def failure : Bytes := [35, 70, 65, 73, 76, 85, 82, 69, 35]

end Authkey

inductive AuthError where
  | authenticationError (text : String)
  | assertionError
  | badMessageLength
deriving DecidableEq, Repr

/-- Before which operation on the connection an end stands. -/
inductive AuthPoint where
  | sendChallenge
  | recvDigest
  | sendVerdict (accepted : Bool)
  | recvChallenge
  | sendDigest (payload : Bytes)
  | recvVerdict
  | connected
  | raised (error : AuthError)
deriving DecidableEq, Repr

/-- The messages on their way are those that the other end has sent. -/
structure AuthSession where
  listener : AuthPoint
  client : AuthPoint
  toListener : List Bytes
  toClient : List Bytes
deriving DecidableEq, Repr

/-- What an end is given: its key, and the bytes that `os.urandom` makes for it. -/
structure Credentials where
  authkey : Bytes
  random : Bytes
  size : random.length = Challenge.messageLength

/-- `hmac.new(key, payload, 'md5').digest()` -/
structure KeyedHash where
  digest : Bytes → Bytes → Bytes
  size : ∀ key payload, (digest key payload).length = Challenge.digestSize

namespace AuthPoint

/-- `if self._authkey:` -/
def accept : Option Bytes → AuthPoint
  | none | some [] => .connected
  | some (_ :: _) => .sendChallenge

/-- `if authkey is not None:` -/
def connect : Option Bytes → AuthPoint
  | none => .connected
  | some _ => .recvChallenge

def receiving : AuthPoint → Bool
  | .recvDigest | .recvChallenge | .recvVerdict => true
  | _ => false

/-- A listener goes on to answer a challenge, a client has its connection. -/
def delivered : Role → AuthPoint
  | .listener => .recvChallenge
  | .client => .connected

def answered : Role → AuthPoint
  | .listener => .connected
  | .client => .sendChallenge

/-- `recv_bytes(256)` -/
def receive (inbox : List Bytes) (handle : Bytes → AuthPoint) :
    Option (AuthPoint × List Bytes × List Bytes) :=
  match inbox with
  | [] => none
  | message :: inbox =>
      some (if Challenge.maxsize < message.length then .raised .badMessageLength
        else handle message, inbox, [])

/-- The next operation of an end: where it stands then, what is left of its inbox, and
what it sends. -/
def advance (hmac : KeyedHash) (role : Role) (own : Credentials)
    (inbox : List Bytes) : AuthPoint → Option (AuthPoint × List Bytes × List Bytes)
  | .sendChallenge => some (.recvDigest, inbox, [Authkey.challenge ++ own.random])
  | .recvDigest => receive inbox fun response =>
      .sendVerdict (response == hmac.digest own.authkey own.random)
  | .sendVerdict true => some (delivered role, inbox, [Authkey.welcome])
  | .sendVerdict false =>
      some (.raised (.authenticationError "digest received was wrong"), inbox, [Authkey.failure])
  | .recvChallenge => receive inbox fun message =>
      if message.take Authkey.challenge.length = Authkey.challenge then
        .sendDigest (message.drop Authkey.challenge.length)
      else .raised .assertionError
  | .sendDigest payload => some (.recvVerdict, inbox, [hmac.digest own.authkey payload])
  | .recvVerdict => receive inbox fun response =>
      if response = Authkey.welcome then answered role
      else .raised (.authenticationError "digest sent was rejected")
  | .connected | .raised _ => none

end AuthPoint

namespace AuthSession

def start (listener client : Option Bytes) : AuthSession :=
  ⟨.accept listener, .connect client, [], []⟩

variable (hmac : KeyedHash) (listener client : Credentials)

def step (session : AuthSession) : Role → Option AuthSession
  | .listener =>
      (session.listener.advance hmac .listener listener session.toListener).map
        fun (point, inbox, sent) =>
          { session with
            listener := point
            toListener := inbox
            toClient := session.toClient ++ sent }
  | .client =>
      (session.client.advance hmac .client client session.toClient).map
        fun (point, inbox, sent) =>
          { session with
            client := point
            toClient := inbox
            toListener := session.toListener ++ sent }

def listenerWaits (session : AuthSession) : Bool :=
  session.listener.receiving && session.toListener.isEmpty

def clientWaits (session : AuthSession) : Bool :=
  session.client.receiving && session.toClient.isEmpty

/-- Both ends have a connection if their keys agree, and both raise if not. -/
def Outcome (session : AuthSession) : Prop :=
  if listener.authkey = client.authkey then
    session.listener = .connected ∧ session.client = .connected
  else
    (∃ text, session.listener = .raised (.authenticationError text)) ∧
      ∃ text, session.client = .raised (.authenticationError text)

def Together (session : AuthSession) : Prop :=
  ¬(session.listener = .connected ∧ session.clientWaits = true) ∧
    ¬(session.client = .connected ∧ session.listenerWaits = true)

/-- Every run comes to its end, and then both ends have come to the same. -/
structure Agrees : Prop where
  ends : ∃ bound, ∀ labels session,
    run (step hmac listener client) (start (some listener.authkey) (some client.authkey))
      labels = some session → labels.length ≤ bound
  settled : ∀ session, Reachable (step hmac listener client)
    (start (some listener.authkey) (some client.authkey)) session →
      (∀ role, step hmac listener client session role = none) →
      session.Outcome listener client
  together : ∀ session, Reachable (step hmac listener client)
    (start (some listener.authkey) (some client.authkey)) session → session.Together

section Ends

variable {hmac : KeyedHash} {listener client : Credentials}

theorem receive_short {message : Bytes} (short : message.length ≤ 256) (inbox : List Bytes)
    (handle : Bytes → AuthPoint) :
    AuthPoint.receive (message :: inbox) handle = some (handle message, inbox, []) := by
  have within : ¬Challenge.maxsize < message.length := Nat.not_lt.mpr short
  simp [AuthPoint.receive, within]

theorem only_listener {session next : AuthSession}
    (taken : step hmac listener client session .listener = some next)
    (blocked : step hmac listener client session .client = none) :
    Only (step hmac listener client) session next := by
  refine ⟨⟨.listener, taken⟩, ?_⟩
  intro role other moved
  cases role with
  | listener => exact Option.some.inj (moved.symm.trans taken)
  | client =>
      rw [blocked] at moved
      cases moved

theorem only_client {session next : AuthSession}
    (blocked : step hmac listener client session .listener = none)
    (taken : step hmac listener client session .client = some next) :
    Only (step hmac listener client) session next := by
  refine ⟨⟨.client, taken⟩, ?_⟩
  intro role other moved
  cases role with
  | listener =>
      rw [blocked] at moved
      cases moved
  | client => exact Option.some.inj (moved.symm.trans taken)

/-- Up to the verdict of the listener; then the two ends go different ways. -/
def opening (hmac : KeyedHash) (listener client : Credentials) : List AuthSession :=
  [⟨.sendChallenge, .recvChallenge, [], []⟩,
    ⟨.recvDigest, .recvChallenge, [], [Authkey.challenge ++ listener.random]⟩,
    ⟨.recvDigest, .sendDigest listener.random, [], []⟩,
    ⟨.recvDigest, .recvVerdict, [hmac.digest client.authkey listener.random], []⟩]

def welcomed (hmac : KeyedHash) (listener client : Credentials) : List AuthSession :=
  [⟨.sendVerdict true, .recvVerdict, [], []⟩,
    ⟨.recvChallenge, .recvVerdict, [], [Authkey.welcome]⟩,
    ⟨.recvChallenge, .sendChallenge, [], []⟩,
    ⟨.recvChallenge, .recvDigest, [Authkey.challenge ++ client.random], []⟩,
    ⟨.sendDigest client.random, .recvDigest, [], []⟩,
    ⟨.recvVerdict, .recvDigest, [], [hmac.digest listener.authkey client.random]⟩,
    ⟨.recvVerdict, .sendVerdict true, [], []⟩,
    ⟨.recvVerdict, .connected, [Authkey.welcome], []⟩,
    ⟨.connected, .connected, [], []⟩]

def rejected : List AuthSession :=
  [⟨.sendVerdict false, .recvVerdict, [], []⟩,
    ⟨.raised (.authenticationError "digest received was wrong"), .recvVerdict, [],
      [Authkey.failure]⟩,
    ⟨.raised (.authenticationError "digest received was wrong"),
      .raised (.authenticationError "digest sent was rejected"), [], []⟩]

theorem corridor_welcomed (same : listener.authkey = client.authkey) :
    Corridor (step hmac listener client) (welcomed hmac listener client) := by
  have challenged : (Authkey.challenge ++ client.random).length ≤ 256 := by
    simp [Authkey.challenge, client.size, Challenge.messageLength]
  have digested : (hmac.digest client.authkey client.random).length ≤ 256 := by
    simp [hmac.size, Challenge.digestSize]
  have greeted : Authkey.welcome.length ≤ 256 := by decide
  refine ⟨only_listener rfl rfl, only_client rfl ?_, only_client rfl rfl, only_listener ?_ rfl,
    only_listener rfl rfl, only_client rfl ?_, only_client rfl rfl, only_listener ?_ rfl, ?_⟩
  · simp [step, AuthPoint.advance, receive_short greeted, AuthPoint.answered]
  · simp [step, AuthPoint.advance, receive_short challenged]
  · simp [step, AuthPoint.advance, same, receive_short digested]
  · simp [step, AuthPoint.advance, receive_short greeted, AuthPoint.answered]
  · rintro (_ | _) <;> rfl

theorem corridor_rejected : Corridor (step hmac listener client) rejected := by
  refine ⟨only_listener rfl rfl, only_client rfl rfl, ?_⟩
  rintro (_ | _) <;> rfl

theorem corridor_opening {next : AuthSession} {rest : List AuthSession}
    (verdict : next = ⟨.sendVerdict (hmac.digest client.authkey listener.random ==
      hmac.digest listener.authkey listener.random), .recvVerdict, [], []⟩)
    (corridor : Corridor (step hmac listener client) (next :: rest)) :
    Corridor (step hmac listener client) (opening hmac listener client ++ next :: rest) := by
  have challenged : (Authkey.challenge ++ listener.random).length ≤ 256 := by
    simp [Authkey.challenge, listener.size, Challenge.messageLength]
  have digested : (hmac.digest client.authkey listener.random).length ≤ 256 := by
    simp [hmac.size, Challenge.digestSize]
  refine ⟨only_listener rfl rfl, only_client rfl ?_, only_client rfl rfl, only_listener ?_ rfl,
    corridor⟩
  · simp [step, AuthPoint.advance, receive_short challenged]
  · simp [step, AuthPoint.advance, receive_short digested, verdict]

theorem agrees_of_corridor {first : AuthSession} {rest : List AuthSession}
    (begins : start (some listener.authkey) (some client.authkey) = first)
    (corridor : Corridor (step hmac listener client) (first :: rest))
    (settled : ∀ last, (first :: rest).getLast? = some last → last.Outcome listener client)
    (together : ∀ session ∈ first :: rest, session.Together) : Agrees hmac listener client := by
  subst begins
  exact {
    ends := ⟨rest.length, fun _ _ ran => (run_corridor corridor ran).2.1⟩
    settled := fun session ⟨_, ran⟩ stuck =>
      settled session ((run_corridor corridor ran).2.2 stuck)
    together := fun session ⟨_, ran⟩ => together session (run_corridor corridor ran).1 }

theorem start_of_key (key : Bytes) (present : listener.authkey ≠ []) :
    start (some listener.authkey) (some key) = ⟨.sendChallenge, .recvChallenge, [], []⟩ := by
  cases given : listener.authkey with
  | nil => exact absurd given present
  | cons byte bytes => rfl

/-- The two ends come to the same exactly when the key of the listener is not empty. -/
theorem agrees_iff
    (separates : listener.authkey ≠ client.authkey →
      hmac.digest listener.authkey listener.random ≠ hmac.digest client.authkey listener.random) :
    Agrees hmac listener client ↔ listener.authkey ≠ [] := by
  constructor
  · intro agrees empty
    apply (agrees.together _ (Reachable.refl _)).1
    rw [empty]
    exact ⟨rfl, rfl⟩
  · intro present
    have begins := start_of_key client.authkey present
    by_cases same : listener.authkey = client.authkey
    · have verdict : (⟨.sendVerdict true, .recvVerdict, [], []⟩ : AuthSession) =
          ⟨.sendVerdict (hmac.digest client.authkey listener.random ==
            hmac.digest listener.authkey listener.random), .recvVerdict, [], []⟩ := by
        rw [same, beq_self_eq_true]
      refine agrees_of_corridor begins (corridor_opening verdict (corridor_welcomed same)) ?_ ?_
      · rintro _ ⟨⟩
        simp [Outcome, same]
      · simp [Together, clientWaits, listenerWaits, AuthPoint.receiving]
    · have differs : (hmac.digest client.authkey listener.random ==
          hmac.digest listener.authkey listener.random) = false :=
        beq_eq_false_iff_ne.mpr (separates same).symm
      have verdict : (⟨.sendVerdict false, .recvVerdict, [], []⟩ : AuthSession) =
          ⟨.sendVerdict (hmac.digest client.authkey listener.random ==
            hmac.digest listener.authkey listener.random), .recvVerdict, [], []⟩ := by
        rw [differs]
      refine agrees_of_corridor begins (corridor_opening verdict corridor_rejected) ?_ ?_
      · rintro _ ⟨⟩
        simp [Outcome, same]
      · simp [Together, clientWaits, listenerWaits, AuthPoint.receiving]

/-- HMAC-MD5 of the bytes from 0 to 19 under the keys `kL` and `kC` and the empty key. -/
def recordedHmac : KeyedHash where
  digest key _ :=
    if key = [107, 76] then
      [127, 36, 202, 99, 133, 90, 49, 34, 36, 36, 219, 62, 120, 138, 102, 174]
    else if key = [107, 67] then
      [10, 47, 138, 120, 136, 107, 134, 167, 231, 37, 224, 255, 255, 52, 193, 210]
    else [238, 231, 232, 200, 250, 109, 152, 165, 157, 118, 196, 76, 231, 1, 133, 72]
  size key payload := by
    split
    · rfl
    · split <;> rfl

def counting (authkey : Bytes) : Credentials where
  authkey
  random := (List.range 20).map UInt8.ofNat
  size := rfl

theorem agrees_iff_different :
    (Agrees recordedHmac (counting [107, 76]) (counting [107, 67]) ↔ [107, 76] ≠ ([] : Bytes)) ∧
      Agrees recordedHmac (counting [107, 76]) (counting [107, 67]) := by
  have separates : (counting [107, 76]).authkey ≠ (counting [107, 67]).authkey →
      recordedHmac.digest [107, 76] (counting [107, 76]).random ≠
        recordedHmac.digest [107, 67] (counting [107, 76]).random := fun _ => by decide
  exact ⟨agrees_iff separates, (agrees_iff separates).mpr (by decide)⟩

/-- With the empty key on both ends, the listener accepts at once, and the client waits for a
challenge. -/
theorem not_agrees_empty : ¬Agrees recordedHmac (counting []) (counting []) :=
  fun agrees => (agrees.together _ (Reachable.refl _)).1 ⟨rfl, rfl⟩

end Ends

end AuthSession

end Billiard
