import Mathlib.Tactic.Common
import SecureComm.Sessions

/-!
# One session over two channels

The session as its designers think of it: two programs and a channel for each
direction, shared with nobody.  Opening and unlinking do nothing to a channel, and
which channel a call is about is fixed by the function that makes it.

This is the model the protocol is proved on; that the sessions over the kernel's
name space behave like it is a theorem of its own.
-/

namespace SecureComm

open Interaction

section Channels

variable {ι : Type} {B : Botan}

/-- The messages waiting in each direction. -/
abbrev Channels (ι : Type) (B : Botan) : Type := QueueName → List (Entry ι B)

/-- Unbounded FIFO channels. -/
def channelService (ι : Type) (B : Botan) : QueueService ι B (Channels ι B) where
  opens ch _ _ _ ch' := ch' = ch
  sends ch site _ e ch' := ch' = Function.update ch site.queue (ch site.queue ++ [e])
  receives ch site _ e ch' :=
    ∃ rest, ch site.queue = e :: rest ∧ ch' = Function.update ch site.queue rest
  unlinks ch _ ch' := ch' = ch

/-- A state of one session. -/
structure Session (ι : Type) (B : Botan) where
  chan : Channels ι B
  sender : SenderPoint B
  receiver : ReceiverPoint B
  senderLog : List (Rec ι B)
  receiverLog : List (Rec ι B)

/-- Nothing has been sent, and nobody has moved. -/
def Session.start (ι : Type) (B : Botan) : Session ι B :=
  ⟨fun _ => [], .openSR, .openRS, [], []⟩

/-- One of the programs makes its call, or a third party rewrites what waits for the
receiver. -/
inductive Session.Step (cfg : Config) (P : Policy ι B) (k : ι) :
    Session ι B → Session ι B → Prop
  | sender {s : Session ι B} {e : Event (Op B) Op.Resp} {pt : SenderPoint B}
      {ch : Channels ι B} {recs : List (Rec ι B)}
      (step : Machine.Step (SenderPoint.next cfg) s.sender e pt)
      (answer : Answered (channelService ι B) P k .sender s.chan e.1 e.2 ch recs) :
      Step cfg P k s
        { s with chan := ch, sender := pt, senderLog := s.senderLog ++ recs }
  | receiver {s : Session ι B} {e : Event (Op B) Op.Resp} {pt : ReceiverPoint B}
      {ch : Channels ι B} {recs : List (Rec ι B)}
      (step : Machine.Step (ReceiverPoint.next cfg) s.receiver e pt)
      (answer : Answered (channelService ι B) P k .receiver s.chan e.1 e.2 ch recs) :
      Step cfg P k s
        { s with chan := ch, receiver := pt, receiverLog := s.receiverLog ++ recs }
  | intrude {s : Session ι B} {msgs : List (Entry ι B)}
      (h : P.intrudes s.senderLog s.receiverLog (s.chan .senderToReceiver) msgs) :
      Step cfg P k s
        { s with chan := Function.update s.chan .senderToReceiver msgs }

/-- The states of a session. -/
def Session.Reachable (cfg : Config) (P : Policy ι B) (k : ι) (s : Session ι B) : Prop :=
  Relation.ReflTransGen (Session.Step cfg P k) (Session.start ι B) s

/-! ## Moves

Every step of a session, with what it needs and what it does, once and for all: the
invariants below are proved by cases on a move. -/

/-- A step of the sender, from one point and channel state to another. -/
inductive SenderMove (cfg : Config) (P : Policy ι B) (k : ι) (ch : Channels ι B) :
    SenderPoint B → SenderPoint B → Channels ι B → List (Rec ι B) → Prop
  | openSR (o : ℕ) :
      SenderMove cfg P k ch .openSR (.openRS o) ch [.opened .senderToReceiver o]
  | openSRFails (h : P.fails .sender (.mqOpen .senderToReceiver (queueAttr cfg))) :
      SenderMove cfg P k ch .openSR (.openFailed .senderToReceiver) ch []
  | openRS (sr o : ℕ) :
      SenderMove cfg P k ch (.openRS sr) (.rng sr o) ch [.opened .receiverToSender o]
  | openRSFails (sr : ℕ) (h : P.fails .sender (.mqOpen .receiverToSender (queueAttr cfg))) :
      SenderMove cfg P k ch (.openRS sr) (.openFailed .receiverToSender) ch []
  | rng (sr rs : ℕ) : SenderMove cfg P k ch (.rng sr rs) (.keygen sr rs) ch []
  | rngThrows (sr rs : ℕ) (e : Exn) (h : P.botan .sender .autoSeededRng (.error e)) :
      SenderMove cfg P k ch (.rng sr rs) (.threw [] e) ch []
  | keygen (sr rs : ℕ) (sk : B.Priv) (h : P.botan .sender (.rsaPrivateKey 2048) (.ok sk)) :
      SenderMove cfg P k ch (.keygen sr rs) (.randomize sr rs sk) ch []
  | keygenThrows (sr rs : ℕ) (e : Exn)
      (h : P.botan .sender (.rsaPrivateKey 2048) (.error e)) :
      SenderMove cfg P k ch (.keygen sr rs) (.threw [] e) ch []
  | randomize (sr rs : ℕ) (sk : B.Priv)
      (bytes : {bytes : List B.Byte // bytes.length = kSymKeySize})
      (h : P.botan .sender (.randomize kSymKeySize) (.ok bytes)) :
      SenderMove cfg P k ch (.randomize sr rs sk)
        (.run ⟨sr, rs, sk, bytes.val⟩ (.start ⟨sr, rs, sk, bytes.val⟩)) ch []
  | randomizeThrows (sr rs : ℕ) (sk : B.Priv) (key : List B.Byte) (e : Exn)
      (h : P.botan .sender (.randomize kSymKeySize) (.error e)) :
      SenderMove cfg P k ch (.randomize sr rs sk) (.threw key e) ch []
  | sendKey (v : SenderVars B)
      (fits : (B.subjectPublicKey (B.publicKey v.privateKey)).length ≤ kMessageSize) :
      SenderMove cfg P k ch (.run v .sendKey) (.run v .recvKey)
        (Function.update ch .senderToReceiver
          (ch .senderToReceiver ++ [⟨some (k, .sendPublicKey), ⟨_, fits⟩⟩]))
        [.sent .sendPublicKey ⟨_, fits⟩]
  | sendKeyFails (v : SenderVars B)
      (h : P.fails .sender (.mqSend .sendPublicKey (some v.sr)
        (B.subjectPublicKey (B.publicKey v.privateKey)))) :
      SenderMove cfg P k ch (.run v .sendKey) (.run v .sendKeyFailed) ch []
  | sendKeyEnter (v : SenderVars B) :
      SenderMove cfg P k ch (.run v .sendKeyFailed) (.run v .recvKey) ch []
  | recvKey (v : SenderVars B) (e : Entry ι B) (rest : List (Entry ι B))
      (waits : ch .receiverToSender = e :: rest) :
      SenderMove cfg P k ch (.run v .recvKey) (.run v (.rngKey e.bytes))
        (Function.update ch .receiverToSender rest) [.read .receiveSymmetricKey e]
  | recvKeyFails (v : SenderVars B)
      (h : P.fails .sender (.mqReceive .receiveSymmetricKey (some v.rs))) :
      SenderMove cfg P k ch (.run v .recvKey) (.run v .recvKeyFailed) ch []
  | recvKeyEnter (v : SenderVars B) :
      SenderMove cfg P k ch (.run v .recvKeyFailed) (.run v .setKey) ch []
  | rngKey (v : SenderVars B) (m : Message B) :
      SenderMove cfg P k ch (.run v (.rngKey m)) (.run v (.decrypt m)) ch []
  | rngKeyThrows (v : SenderVars B) (m : Message B) (e : Exn)
      (h : P.botan .sender .autoSeededRng (.error e)) :
      SenderMove cfg P k ch (.run v (.rngKey m)) (.threw v.key e) ch []
  | decrypt (v : SenderVars B) (m : Message B) (key : List B.Byte)
      (h : P.botan .sender (.decrypt v.privateKey m.val) (.ok key)) :
      SenderMove cfg P k ch (.run v (.decrypt m)) (.run { v with key := key } .setKey) ch []
  | decryptThrows (v : SenderVars B) (m : Message B) (e : Exn)
      (h : P.botan .sender (.decrypt v.privateKey m.val) (.error e)) :
      SenderMove cfg P k ch (.run v (.decrypt m)) (.threw v.key e) ch []
  | setKey (v : SenderVars B) (h : P.botan .sender (.setKey v.key) (.ok ())) :
      SenderMove cfg P k ch (.run v .setKey) (.run v (.loop cfg.numMessagesToSend 0)) ch []
  | setKeyThrows (v : SenderVars B) (e : Exn)
      (h : P.botan .sender (.setKey v.key) (.error e)) :
      SenderMove cfg P k ch (.run v .setKey) (.threw v.key e) ch []
  | frame (v : SenderVars B) (i n : ℕ) :
      SenderMove cfg P k ch (.run v (.frame i n)) (.run v (.loop n (i + 1)))
        (Function.update ch .senderToReceiver (ch .senderToReceiver ++
          [⟨some (k, .sendPeriodicMessage), ⟨_, length_frameBytes_le v.key i⟩⟩]))
        [.sent .sendPeriodicMessage ⟨_, length_frameBytes_le v.key i⟩]
  | frameFails (v : SenderVars B) (i n : ℕ)
      (h : P.fails .sender (.mqSend .sendPeriodicMessage (some v.sr) (frameBytes v.key i))) :
      SenderMove cfg P k ch (.run v (.frame i n)) (.run v (.closeSR kNOT_OK)) ch []
  | closeSR (v : SenderVars B) (status : ℕ) :
      SenderMove cfg P k ch (.run v (.closeSR status)) (.run v (.closeRS status)) ch []
  | closeRS (v : SenderVars B) (status : ℕ) :
      SenderMove cfg P k ch (.run v (.closeRS status)) (.run v (.enter status)) ch []
  | enter (v : SenderVars B) (status : ℕ) (h : P.enter) :
      SenderMove cfg P k ch (.run v (.enter status)) (.run v (.unlinkRS status)) ch []
  | unlinkRS (v : SenderVars B) (status : ℕ) :
      SenderMove cfg P k ch (.run v (.unlinkRS status)) (.run v (.unlinkSR status)) ch []
  | unlinkSR (v : SenderVars B) (status : ℕ) :
      SenderMove cfg P k ch (.run v (.unlinkSR status)) (.run v (.returned status)) ch []

/-- A step of the receiver. -/
inductive ReceiverMove (cfg : Config) (P : Policy ι B) (k : ι) (ch : Channels ι B) :
    ReceiverPoint B → ReceiverPoint B → Channels ι B → List (Rec ι B) → Prop
  | openRS (o : ℕ) :
      ReceiverMove cfg P k ch .openRS (.openSR o) ch [.opened .receiverToSender o]
  | openRSFails (h : P.fails .receiver (.mqOpen .receiverToSender (queueAttr cfg))) :
      ReceiverMove cfg P k ch .openRS (.openFailed .receiverToSender) ch []
  | openSR (rs o : ℕ) :
      ReceiverMove cfg P k ch (.openSR rs) (.run (.start o rs) .recvKey) ch
        [.opened .senderToReceiver o]
  | openSRFails (rs : ℕ)
      (h : P.fails .receiver (.mqOpen .senderToReceiver (queueAttr cfg))) :
      ReceiverMove cfg P k ch (.openSR rs) (.openFailed .senderToReceiver) ch []
  | recvKey (v : ReceiverVars B) (e : Entry ι B) (rest : List (Entry ι B))
      (waits : ch .senderToReceiver = e :: rest) :
      ReceiverMove cfg P k ch (.run v .recvKey) (.run v (.loadKey e.bytes))
        (Function.update ch .senderToReceiver rest) [.read .getPublicKey e]
  | recvKeyFails (v : ReceiverVars B)
      (h : P.fails .receiver (.mqReceive .getPublicKey (some v.sr))) :
      ReceiverMove cfg P k ch (.run v .recvKey) (.run v .rng) ch []
  | loadKey (v : ReceiverVars B) (m : Message B) (key : PublicKey B.Pub)
      (h : P.botan .receiver (.loadKey m.val) (.ok key)) :
      ReceiverMove cfg P k ch (.run v (.loadKey m))
        (.run { v with publicKey := some key } .rng) ch []
  | loadKeyThrows (v : ReceiverVars B) (m : Message B) (e : Exn)
      (h : P.botan .receiver (.loadKey m.val) (.error e)) :
      ReceiverMove cfg P k ch (.run v (.loadKey m)) (.threw v e) ch []
  | rng (v : ReceiverVars B) :
      ReceiverMove cfg P k ch (.run v .rng) (.run v .randomize) ch []
  | rngThrows (v : ReceiverVars B) (e : Exn)
      (h : P.botan .receiver .autoSeededRng (.error e)) :
      ReceiverMove cfg P k ch (.run v .rng) (.threw v e) ch []
  | randomize (v : ReceiverVars B) (bytes : {bytes : List B.Byte // bytes.length = v.key.length})
      (h : P.botan .receiver (.randomize v.key.length) (.ok bytes)) :
      ReceiverMove cfg P k ch (.run v .randomize)
        (.run { v with key := bytes.val } (.deref v.publicKey)) ch []
  | randomizeThrows (v : ReceiverVars B) (e : Exn)
      (h : P.botan .receiver (.randomize v.key.length) (.error e)) :
      ReceiverMove cfg P k ch (.run v .randomize) (.threw v e) ch []
  | encrypt (v : ReceiverVars B) (pk : B.Pub) (c : List B.Byte)
      (h : P.botan .receiver (.encrypt pk v.key) (.ok c)) :
      ReceiverMove cfg P k ch (.run v (.encrypt pk)) (.run v (.sendKey c)) ch []
  | encryptThrows (v : ReceiverVars B) (pk : B.Pub) (e : Exn)
      (h : P.botan .receiver (.encrypt pk v.key) (.error e)) :
      ReceiverMove cfg P k ch (.run v (.encrypt pk)) (.threw v e) ch []
  | sendKey (v : ReceiverVars B) (c : List B.Byte) (fits : c.length ≤ kMessageSize) :
      ReceiverMove cfg P k ch (.run v (.sendKey c)) (.run v .setKey)
        (Function.update ch .receiverToSender
          (ch .receiverToSender ++ [⟨some (k, .sendSymmetricKey), ⟨c, fits⟩⟩]))
        [.sent .sendSymmetricKey ⟨c, fits⟩]
  | sendKeyFails (v : ReceiverVars B) (c : List B.Byte)
      (h : P.fails .receiver (.mqSend .sendSymmetricKey (some v.rs) c)) :
      ReceiverMove cfg P k ch (.run v (.sendKey c)) (.run v .setKey) ch []
  | setKey (v : ReceiverVars B) (h : P.botan .receiver (.setKey v.key) (.ok ())) :
      ReceiverMove cfg P k ch (.run v .setKey) (.run v (.loop (initialBuffer B))) ch []
  | setKeyThrows (v : ReceiverVars B) (e : Exn)
      (h : P.botan .receiver (.setKey v.key) (.error e)) :
      ReceiverMove cfg P k ch (.run v .setKey) (.threw v e) ch []
  | receive (v : ReceiverVars B) (buffer : List B.Byte) (e : Entry ι B)
      (rest : List (Entry ι B)) (waits : ch .senderToReceiver = e :: rest) :
      ReceiverMove cfg P k ch (.run v (.loop buffer)) (.receive v buffer e.bytes)
        (Function.update ch .senderToReceiver rest) [.read .receivePeriodicMessages e]
  | receiveFails (v : ReceiverVars B) (buffer : List B.Byte)
      (h : P.fails .receiver (.mqReceive .receivePeriodicMessages (some v.sr))) :
      ReceiverMove cfg P k ch (.run v (.loop buffer)) (.run v (.enter kOK)) ch []
  | enter (v : ReceiverVars B) (status : ℕ) (h : P.enter) :
      ReceiverMove cfg P k ch (.run v (.enter status)) (.run v (.closeRS status)) ch []
  | closeRS (v : ReceiverVars B) (status : ℕ) :
      ReceiverMove cfg P k ch (.run v (.closeRS status)) (.run v (.closeSR status)) ch []
  | closeSR (v : ReceiverVars B) (status : ℕ) :
      ReceiverMove cfg P k ch (.run v (.closeSR status)) (.run v (.returned status)) ch []

section Inversion

variable {cfg : Config} {P : Policy ι B} {k : ι}

/-- What the sender does from the phase switch on is a move. -/
theorem senderMove_of_run {v : SenderVars B} {pc : SenderPc B} {e : Event (Op B) Op.Resp}
    {pt : SenderPoint B} {ch ch' : Channels ι B} {recs : List (Rec ι B)}
    (step : Machine.Step (SenderPoint.next cfg) (.run v pc) e pt)
    (answer : Answered (channelService ι B) P k .sender ch e.1 e.2 ch' recs) :
    SenderMove cfg P k ch (.run v pc) pt ch' recs := by
  obtain ⟨op, r⟩ := e
  obtain ⟨next, waiting, rfl⟩ := step
  -- the point fixes the call, the environment its answer, and both the move
  cases pc with
  | sendKey =>
      cases waiting
      cases answer with
      | mqSend fits h => cases h; exact .sendKey v fits
      | mqSendFails h => exact .sendKeyFails v h
      | botan is h => cases is
  | sendKeyFailed =>
      cases waiting
      cases answer with
      | cinGet h => exact .sendKeyEnter v
      | botan is h => cases is
  | recvKey =>
      cases waiting
      cases answer with
      | mqReceive h =>
          obtain ⟨rest, waits, rfl⟩ := h
          exact .recvKey v _ rest waits
      | mqReceiveFails h => exact .recvKeyFails v h
      | botan is h => cases is
  | recvKeyFailed =>
      cases waiting
      cases answer with
      | cinGet h => exact .recvKeyEnter v
      | botan is h => cases is
  | rngKey m =>
      cases waiting
      cases answer with
      | botan is h =>
          cases r with
          | ok _ => exact .rngKey v m
          | error e => exact .rngKeyThrows v m e h
  | decrypt m =>
      cases waiting
      cases answer with
      | botan is h =>
          cases r with
          | ok key => exact .decrypt v m key h
          | error e => exact .decryptThrows v m e h
  | setKey =>
      cases waiting
      cases answer with
      | botan is h =>
          cases r with
          | ok _ => exact .setKey v h
          | error e => exact .setKeyThrows v e h
  | frame i n =>
      cases waiting
      cases answer with
      | mqSend fits h => cases h; exact .frame v i n
      | mqSendFails h => exact .frameFails v i n h
      | botan is h => cases is
  | closeSR status =>
      cases waiting
      cases answer with
      | mqClose => exact .closeSR v status
      | botan is h => cases is
  | closeRS status =>
      cases waiting
      cases answer with
      | mqClose => exact .closeRS v status
      | botan is h => cases is
  | enter status =>
      cases waiting
      cases answer with
      | cinGet h => exact .enter v status h
      | botan is h => cases is
  | unlinkRS status =>
      cases waiting
      cases answer with
      | mqUnlink h => cases h; exact .unlinkRS v status
      | botan is h => cases is
  | unlinkSR status =>
      cases waiting
      cases answer with
      | mqUnlink h => cases h; exact .unlinkSR v status
      | botan is h => cases is
  | returned status => cases waiting

/-- **What the sender does is a move.** -/
theorem senderMove_of_step {pt pt' : SenderPoint B} {e : Event (Op B) Op.Resp}
    {ch ch' : Channels ι B} {recs : List (Rec ι B)}
    (step : Machine.Step (SenderPoint.next cfg) pt e pt')
    (answer : Answered (channelService ι B) P k .sender ch e.1 e.2 ch' recs) :
    SenderMove cfg P k ch pt pt' ch' recs := by
  obtain ⟨op, r⟩ := e
  obtain ⟨next, waiting, rfl⟩ := step
  cases pt with
  | run v pc => exact senderMove_of_run ⟨next, waiting, rfl⟩ answer
  | openSR =>
      cases waiting
      cases answer with
      | mqOpen h => cases h; exact .openSR _
      | mqOpenFails h => exact .openSRFails h
      | botan is h => cases is
  | openRS sr =>
      cases waiting
      cases answer with
      | mqOpen h => cases h; exact .openRS sr _
      | mqOpenFails h => exact .openRSFails sr h
      | botan is h => cases is
  | rng sr rs =>
      cases waiting
      cases answer with
      | botan is h =>
          cases r with
          | ok _ => exact .rng sr rs
          | error e => exact .rngThrows sr rs e h
  | keygen sr rs =>
      cases waiting
      cases answer with
      | botan is h =>
          cases r with
          | ok sk => exact .keygen sr rs sk h
          | error e => exact .keygenThrows sr rs e h
  | randomize sr rs sk =>
      cases waiting
      cases answer with
      | botan is h =>
          cases r with
          | ok bytes => exact .randomize sr rs sk bytes h
          | error e => exact .randomizeThrows sr rs sk _ e h
  | openFailed name => cases waiting
  | threw key e => cases waiting

/-- What the receiver does from the phase switch on is a move. -/
theorem receiverMove_of_run {v : ReceiverVars B} {pc : ReceiverPc B}
    {e : Event (Op B) Op.Resp} {pt : ReceiverPoint B} {ch ch' : Channels ι B}
    {recs : List (Rec ι B)}
    (step : Machine.Step (ReceiverPoint.next cfg) (.run v pc) e pt)
    (answer : Answered (channelService ι B) P k .receiver ch e.1 e.2 ch' recs) :
    ReceiverMove cfg P k ch (.run v pc) pt ch' recs := by
  obtain ⟨op, r⟩ := e
  obtain ⟨next, waiting, rfl⟩ := step
  -- as for the sender: point and answer leave one move each
  cases pc with
  | recvKey =>
      cases waiting
      cases answer with
      | mqReceive h =>
          obtain ⟨rest, waits, rfl⟩ := h
          exact .recvKey v _ rest waits
      | mqReceiveFails h => exact .recvKeyFails v h
      | botan is h => cases is
  | loadKey m =>
      cases waiting
      cases answer with
      | botan is h =>
          cases r with
          | ok key => exact .loadKey v m key h
          | error e => exact .loadKeyThrows v m e h
  | rng =>
      cases waiting
      cases answer with
      | botan is h =>
          cases r with
          | ok _ => exact .rng v
          | error e => exact .rngThrows v e h
  | randomize =>
      cases waiting
      cases answer with
      | botan is h =>
          cases r with
          | ok bytes => exact .randomize v bytes h
          | error e => exact .randomizeThrows v e h
  | encrypt pk =>
      cases waiting
      cases answer with
      | botan is h =>
          cases r with
          | ok c => exact .encrypt v pk c h
          | error e => exact .encryptThrows v pk e h
  | sendKey c =>
      cases waiting
      cases answer with
      | mqSend fits h => cases h; exact .sendKey v c fits
      | mqSendFails h => exact .sendKeyFails v c h
      | botan is h => cases is
  | setKey =>
      cases waiting
      cases answer with
      | botan is h =>
          cases r with
          | ok _ => exact .setKey v h
          | error e => exact .setKeyThrows v e h
  | loop buffer =>
      cases waiting
      cases answer with
      | mqReceive h =>
          obtain ⟨rest, waits, rfl⟩ := h
          exact .receive v buffer _ rest waits
      | mqReceiveFails h => exact .receiveFails v buffer h
      | botan is h => cases is
  | enter status =>
      cases waiting
      cases answer with
      | cinGet h => exact .enter v status h
      | botan is h => cases is
  | closeRS status =>
      cases waiting
      cases answer with
      | mqClose => exact .closeRS v status
      | botan is h => cases is
  | closeSR status =>
      cases waiting
      cases answer with
      | mqClose => exact .closeSR v status
      | botan is h => cases is
  | returned status => cases waiting
  | crashed f => cases waiting

/-- **What the receiver does is a move.** -/
theorem receiverMove_of_step {pt pt' : ReceiverPoint B} {e : Event (Op B) Op.Resp}
    {ch ch' : Channels ι B} {recs : List (Rec ι B)}
    (step : Machine.Step (ReceiverPoint.next cfg) pt e pt')
    (answer : Answered (channelService ι B) P k .receiver ch e.1 e.2 ch' recs) :
    ReceiverMove cfg P k ch pt pt' ch' recs := by
  obtain ⟨op, r⟩ := e
  obtain ⟨next, waiting, rfl⟩ := step
  cases pt with
  | run v pc => exact receiverMove_of_run ⟨next, waiting, rfl⟩ answer
  | openRS =>
      cases waiting
      cases answer with
      | mqOpen h => cases h; exact .openRS _
      | mqOpenFails h => exact .openRSFails h
      | botan is h => cases is
  | openSR rs =>
      cases waiting
      cases answer with
      | mqOpen h => cases h; exact .openSR rs _
      | mqOpenFails h => exact .openSRFails rs h
      | botan is h => cases is
  | openFailed name => cases waiting
  | threw v e => cases waiting

end Inversion

/-! ## What keeps sessions apart -/

/-- No open fails, and neither does the sender's receive of the symmetric key. -/
structure Policy.Isolating (P : Policy ι B) : Prop where
  opens : ∀ role name attr, ¬ P.fails role (.mqOpen name attr)
  keyArrives : ∀ mq, ¬ P.fails .sender (.mqReceive .receiveSymmetricKey mq)

/-- The sender has got past its receive of the symmetric key. -/
def SenderPoint.Keyed : SenderPoint B → Prop
  | .run _ .sendKey => False
  | .run _ .sendKeyFailed => False
  | .run _ .recvKey => False
  | .run _ _ => True
  | _ => False

/-- The receiver has opened both queues. -/
def ReceiverPoint.Opened : ReceiverPoint B → Prop
  | .run _ _ => True
  | .threw _ _ => True
  | _ => False

@[simp] theorem ReceiverPoint.opened_run (v : ReceiverVars B) (pc : ReceiverPc B) :
    (ReceiverPoint.run v pc).Opened := trivial

@[simp] theorem ReceiverPoint.opened_receive (v : ReceiverVars B) (buffer : List B.Byte)
    (m : Message B) : (ReceiverPoint.receive v buffer m).Opened := by
  unfold ReceiverPoint.receive
  split_ifs <;> trivial

section Order

variable {cfg : Config} {P : Policy ι B} {k : ι} {ch ch' : Channels ι B}
  {recs : List (Rec ι B)}

/-- The sender gets its key from the channel, and from nowhere else. -/
theorem SenderMove.keyed (iso : P.Isolating) {pt pt' : SenderPoint B}
    (move : SenderMove cfg P k ch pt pt' ch' recs) (keyed : pt'.Keyed) :
    pt.Keyed ∨ ch .receiverToSender ≠ [] := by
  cases move with
  | recvKey v e rest waits => exact .inr (by simp [waits])
  | recvKeyFails v h => exact absurd h (iso.keyArrives _)
  | randomize sr rs sk bytes h =>
      simp only [SenderPc.start] at keyed
      split_ifs at keyed <;> exact keyed.elim
  | _ => first | exact .inl trivial | exact keyed.elim

/-- The sender puts nothing into the key channel. -/
theorem SenderMove.keyChannel {pt pt' : SenderPoint B}
    (move : SenderMove cfg P k ch pt pt' ch' recs) (waits : ch' .receiverToSender ≠ []) :
    ch .receiverToSender ≠ [] := by
  cases move with
  | recvKey v e rest full => simp [full]
  | sendKey v fits => simpa using waits
  | frame v i n => simpa using waits
  | _ => exact waits

theorem SenderMove.notFailed (iso : P.Isolating) {pt pt' : SenderPoint B}
    (move : SenderMove cfg P k ch pt pt' ch' recs) (name : QueueName) :
    pt' ≠ .openFailed name := by
  cases move with
  | openSRFails h => exact absurd h (iso.opens _ _ _)
  | openRSFails sr h => exact absurd h (iso.opens _ _ _)
  | _ => nofun

/-- The receiver keeps its queues open. -/
theorem ReceiverMove.opened {pt pt' : ReceiverPoint B}
    (move : ReceiverMove cfg P k ch pt pt' ch' recs) (opened : pt.Opened) : pt'.Opened := by
  cases move with
  | receive v buffer e rest waits => simp
  | openRS o => exact opened.elim
  | openRSFails h => exact opened.elim
  | openSRFails rs h => exact opened.elim
  | _ => trivial

/-- Only a receiver with both queues open puts something into the key channel. -/
theorem ReceiverMove.keyChannel {pt pt' : ReceiverPoint B}
    (move : ReceiverMove cfg P k ch pt pt' ch' recs) (waits : ch' .receiverToSender ≠ []) :
    ch .receiverToSender ≠ [] ∨ pt'.Opened := by
  cases move with
  | sendKey v c fits => exact .inr trivial
  | recvKey v e rest full => exact .inr trivial
  | receive v buffer e rest full => exact .inr (by simp)
  | _ => exact .inl waits

theorem ReceiverMove.notFailed (iso : P.Isolating) {pt pt' : ReceiverPoint B}
    (move : ReceiverMove cfg P k ch pt pt' ch' recs) (name : QueueName) :
    pt' ≠ .openFailed name := by
  cases move with
  | openRSFails h => exact absurd h (iso.opens _ _ _)
  | openSRFails rs h => exact absurd h (iso.opens _ _ _)
  | receive v buffer e rest waits =>
      simp only [ReceiverPoint.receive]
      split_ifs <;> nofun
  | _ => nofun

/-- When the sender has the key, its receiver has both queues open, so that the
sender's destructors come after every open of the session. -/
structure Session.Ordered (s : Session ι B) : Prop where
  senderOpened : ∀ name, s.sender ≠ .openFailed name
  receiverOpened : ∀ name, s.receiver ≠ .openFailed name
  keyWaits : s.chan .receiverToSender ≠ [] → s.receiver.Opened
  keyed : s.sender.Keyed → s.receiver.Opened

theorem Session.Ordered.start : (Session.start ι B).Ordered where
  senderOpened _ := nofun
  receiverOpened _ := nofun
  keyWaits waits := absurd rfl waits
  keyed h := h.elim

theorem Session.Ordered.step (iso : P.Isolating) {s s' : Session ι B} (h : s.Ordered)
    (step : Session.Step cfg P k s s') : s'.Ordered := by
  cases step with
  | sender step answer =>
      have move := senderMove_of_step step answer
      refine ⟨move.notFailed iso, h.receiverOpened, ?_, ?_⟩
      · intro waits
        exact h.keyWaits (move.keyChannel waits)
      · intro keyed
        obtain before | waits := move.keyed iso keyed
        · exact h.keyed before
        · exact h.keyWaits waits
  | receiver step answer =>
      have move := receiverMove_of_step step answer
      refine ⟨h.senderOpened, move.notFailed iso, ?_, ?_⟩
      · intro waits
        obtain before | opened := move.keyChannel waits
        · exact move.opened (h.keyWaits before)
        · exact opened
      · intro keyed
        exact move.opened (h.keyed keyed)
  | intrude intrudes =>
      exact ⟨h.senderOpened, h.receiverOpened, fun waits => h.keyWaits (by simpa using waits),
        h.keyed⟩

/-- **A session opens before it unlinks.** -/
theorem Session.Reachable.ordered (iso : P.Isolating) {s : Session ι B}
    (reach : s.Reachable cfg P k) : s.Ordered :=
  invariant reach Session.Ordered.start fun _ _ _ h step => h.step iso step

end Order

end Channels

end SecureComm
