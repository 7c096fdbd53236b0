import Mathlib.Data.List.Range
import SecureComm.BotanLaws
import SecureComm.Channels

/-!
# The phases of an honest session

With no failing queue call and no third party, a session over channels goes through
five phases, whichever program runs first and however their steps interleave:

* `start`: nothing has been sent;
* `keySent`: the public key waits for the receiver;
* `answering`: the receiver has taken it and makes the encrypted key;
* `answered`: the encrypted key waits for the sender;
* `streaming`: the sender has taken it; the frames sent are the frames read followed
  by the frames waiting.

`Session.Phase` is that joint invariant of both program counters, both channels, both
keys and both records.  What a program does within a phase is a lemma about its moves
from a class of points, so that a phase is preserved by two short case analyses.
-/

namespace SecureComm

open Interaction

section HonestSession

variable {ι : Type} {B : Botan}

/-- No queue call fails, Botan answers as it does with these draws, and there is no
third party. -/
def Policy.honest (ι : Type) (d : Draws B) (enter : Prop) : Policy ι B where
  fails _ _ := False
  botan := d.answers
  enter := enter
  intrudes _ _ _ _ := False

theorem Policy.honest_isolating (d : Draws B) (enter : Prop) :
    (Policy.honest ι d enter).Isolating where
  opens _ _ _ := id
  keyArrives _ := id

/-- What a session sends, given its draws: the two handshake messages, of which
`cipher` is the encrypted session key. -/
structure Script (d : Draws B) where
  lawful : B.Lawful
  cipher : Message B
  encrypted : B.encrypt (B.publicKey d.privateKey) d.seed d.sessionKey.val = .ok cipher.val

/-- Every lawful Botan has one. -/
theorem exists_script (lawful : B.Lawful) (d : Draws B) : Nonempty (Script d) := by
  obtain ⟨c, encrypted, fits⟩ := lawful.encrypt_ok (B.publicKey d.privateKey) d.seed
    d.sessionKey.val d.sessionKey.property
  exact ⟨lawful, ⟨c, fits⟩, encrypted⟩

namespace Script

variable {d : Draws B} (σ : Script d)

/-- The public key as it is sent. -/
def publicKey : Message B :=
  ⟨B.subjectPublicKey (B.publicKey d.privateKey),
    σ.lawful.subjectPublicKey_length (B.publicKey d.privateKey)⟩

/-- Frame `i` of the session. -/
def frame (_ : Script d) (i : ℕ) : Message B :=
  ⟨frameBytes d.sessionKey.val i, length_frameBytes_le d.sessionKey.val i⟩

/-- The messages as they wait in a channel. -/
def publicKeyEntry (k : ι) : Entry ι B := ⟨some (k, .sendPublicKey), σ.publicKey⟩

def cipherEntry (k : ι) : Entry ι B := ⟨some (k, .sendSymmetricKey), σ.cipher⟩

def frameEntry (k : ι) (i : ℕ) : Entry ι B := ⟨some (k, .sendPeriodicMessage), σ.frame i⟩

theorem decrypt_cipher : B.decrypt d.privateKey σ.cipher.val = .ok d.sessionKey.val :=
  σ.lawful.decrypt_encrypt _ _ _ _ σ.encrypted

/-- The receiver accepts every frame of the session. -/
theorem frame_matches (i : ℕ) : TagMatches d.sessionKey.val (σ.frame i).val := by
  obtain ⟨payload, tag⟩ := frameBytes_split d.sessionKey.val i
  simp only [frame, TagMatches, tagOf, payloadOf, payload, tag]

theorem receive_frame (v : ReceiverVars B) (key : v.key = d.sessionKey.val)
    (buffer : List B.Byte) (i : ℕ) :
    ReceiverPoint.receive v buffer (σ.frame i) =
      .run { v with compared := v.compared ++ [((σ.frame i).val, true)] }
        (.loop (receiveInto buffer (σ.frame i))) := by
  have size : (σ.frame i).val.length = kBufferSize + kCmacSize := length_frameBytes _ i
  have accepted := σ.frame_matches i
  simp [ReceiverPoint.receive, size, key, accepted, kBufferSize, kCmacSize]

end Script

/-- Draws of the sample. -/
def sampleDraws : Draws sampleBotan where
  privateKey := samplePrivateKey
  localKey := ⟨Sample.localKey, rfl⟩
  sessionKey := ⟨sampleKey, rfl⟩
  seed := (0 : UInt8)

/-- The script of a sample session. -/
def sampleScript : Script sampleDraws :=
  ⟨sampleBotan_lawful, sampleCiphertext, Sample.encrypt_sessionKey⟩

/-- Draws for many sample sessions, each with a session key of its own. -/
def numberedDraws (k : ℕ) : Draws sampleBotan :=
  { sampleDraws with
    sessionKey := ⟨List.replicate kSymKeySize (UInt8.ofNat k), List.length_replicate⟩ }

/-- A record of a message sent or read, rather than of an open. -/
def Rec.isExchange : Rec ι B → Bool
  | .opened _ _ => false
  | _ => true

/-- The messages sent and read, in order. -/
def exchanges (log : List (Rec ι B)) : List (Rec ι B) := log.filter Rec.isExchange

@[simp] theorem exchanges_nil : exchanges ([] : List (Rec ι B)) = [] := rfl

@[simp] theorem exchanges_append (log log' : List (Rec ι B)) :
    exchanges (log ++ log') = exchanges log ++ exchanges log' := List.filter_append ..

@[simp] theorem exchanges_opened (name : QueueName) (o : ℕ) :
    exchanges [(.opened name o : Rec ι B)] = [] := rfl

@[simp] theorem exchanges_sent (site : Site) (m : Message B) :
    exchanges [(.sent site m : Rec ι B)] = [.sent site m] := rfl

@[simp] theorem exchanges_read (site : Site) (e : Entry ι B) :
    exchanges [(.read site e : Rec ι B)] = [.read site e] := rfl

theorem mem_exchanges {log : List (Rec ι B)} {site : Site} {e : Entry ι B} :
    .read site e ∈ exchanges log ↔ .read site e ∈ log := by
  simp [exchanges, Rec.isExchange]

/-! ## The points of a phase -/

section Classes

variable (d : Draws B)

/-- The sender before it has sent its public key. -/
def SenderPoint.Starting : SenderPoint B → Prop
  | .openSR => True
  | .openRS _ => True
  | .rng _ _ => True
  | .keygen _ _ => True
  | .randomize _ _ sk => sk = d.privateKey
  | .run v .sendKey => v.privateKey = d.privateKey
  | _ => False

/-- The sender waiting for the symmetric key. -/
def SenderPoint.Waiting : SenderPoint B → Prop
  | .run v .recvKey => v.privateKey = d.privateKey
  | _ => False

/-- The sender unwrapping the message `c`. -/
def SenderPoint.Installing (c : Message B) : SenderPoint B → Prop
  | .run v (.rngKey m) => v.privateKey = d.privateKey ∧ m = c
  | .run v (.decrypt m) => v.privateKey = d.privateKey ∧ m = c
  | _ => False

/-- The sender with the session key, `i` of `N` frames sent. -/
def SenderPoint.Streaming (N i : ℕ) : SenderPoint B → Prop
  | .run v .setKey => v.key = d.sessionKey.val ∧ i = 0
  | .run v (.frame j n) => v.key = d.sessionKey.val ∧ i = j ∧ i + n + 1 = N
  | .run v (.closeSR _) => v.key = d.sessionKey.val ∧ i = N
  | .run v (.closeRS _) => v.key = d.sessionKey.val ∧ i = N
  | .run v (.enter _) => v.key = d.sessionKey.val ∧ i = N
  | .run v (.unlinkRS _) => v.key = d.sessionKey.val ∧ i = N
  | .run v (.unlinkSR _) => v.key = d.sessionKey.val ∧ i = N
  | .run v (.returned _) => v.key = d.sessionKey.val ∧ i = N
  | _ => False

/-- The receiver before it has read the public key. -/
def ReceiverPoint.Starting : ReceiverPoint B → Prop
  | .openRS => True
  | .openSR _ => True
  | .run v .recvKey => v.publicKey = none ∧ v.key.length = kSymKeySize ∧ v.compared = []
  | _ => False

/-- The receiver making the encrypted key. -/
def ReceiverPoint.Answering (pk c : Message B) : ReceiverPoint B → Prop
  | .run v (.loadKey m) => m = pk ∧ v.key.length = kSymKeySize ∧ v.compared = []
  | .run v .rng => v.publicKey = some (.rsa (B.publicKey d.privateKey)) ∧
      v.key.length = kSymKeySize ∧ v.compared = []
  | .run v .randomize => v.publicKey = some (.rsa (B.publicKey d.privateKey)) ∧
      v.key.length = kSymKeySize ∧ v.compared = []
  | .run v (.encrypt key) => key = B.publicKey d.privateKey ∧
      v.key = d.sessionKey.val ∧ v.compared = []
  | .run v (.sendKey m) => m = c.val ∧ v.key = d.sessionKey.val ∧ v.compared = []
  | _ => False

/-- The receiver with the session key, `j` frames read and found to match. -/
def ReceiverPoint.Listening (frame : ℕ → Message B) (j : ℕ) : ReceiverPoint B → Prop
  | .run v .setKey => v.key = d.sessionKey.val ∧ v.compared = [] ∧ j = 0
  | .run v (.loop _) => v.key = d.sessionKey.val ∧
      v.compared = (List.range j).map fun i => ((frame i).val, true)
  | _ => False

end Classes

/-! ## What a program does within a phase -/

section Moves

variable {cfg : Config} {d : Draws B} (σ : Script d) {enter : Prop} {k : ι}
  {ch ch' : Channels ι B} {recs : List (Rec ι B)}

include σ in
theorem SenderMove.of_starting {pt pt' : SenderPoint B}
    (move : SenderMove cfg (Policy.honest ι d enter) k ch pt pt' ch' recs)
    (here : pt.Starting d) :
    (pt'.Starting d ∧ ch' = ch ∧ exchanges recs = []) ∨
      (pt'.Waiting d ∧ recs = [.sent .sendPublicKey σ.publicKey] ∧
        ch' = Function.update ch .senderToReceiver
          (ch .senderToReceiver ++ [σ.publicKeyEntry k])) := by
  cases move with
  | openSR o => exact .inl ⟨trivial, rfl, rfl⟩
  | openRS sr o => exact .inl ⟨trivial, rfl, rfl⟩
  | rng sr rs => exact .inl ⟨trivial, rfl, rfl⟩
  | keygen sr rs sk h => cases h; exact .inl ⟨rfl, rfl, rfl⟩
  | randomize sr rs sk bytes h =>
      obtain rfl : sk = d.privateKey := here
      rw [SenderPc.start_of_le (σ.lawful.subjectPublicKey_length _)]
      exact .inl ⟨rfl, rfl, rfl⟩
  | sendKey v fits =>
      have sk : v.privateKey = d.privateKey := here
      refine .inr ⟨sk, ?_, ?_⟩ <;>
        simp only [Script.publicKey, Script.publicKeyEntry, sk]
  -- no call fails here, and Botan does not throw
  | openSRFails h => exact h.elim
  | openRSFails sr h => exact h.elim
  | rngThrows sr rs e h => cases h
  | keygenThrows sr rs e h => cases h
  | randomizeThrows sr rs sk key e h => obtain ⟨bytes, h, -⟩ := h; cases h
  | sendKeyFails v h => exact h.elim
  | _ => exact here.elim

theorem SenderMove.of_waiting {pt pt' : SenderPoint B}
    (move : SenderMove cfg (Policy.honest ι d enter) k ch pt pt' ch' recs)
    (here : pt.Waiting d) :
    ∃ e rest, ch .receiverToSender = e :: rest ∧ pt'.Installing d e.bytes ∧
      recs = [.read .receiveSymmetricKey e] ∧
      ch' = Function.update ch .receiverToSender rest := by
  cases move with
  | recvKey v e rest waits => exact ⟨e, rest, waits, ⟨here, rfl⟩, rfl, rfl⟩
  | recvKeyFails v h => exact h.elim
  | _ => exact here.elim

/-- The key the sender installs is the session key. -/
theorem SenderMove.of_installing {pt pt' : SenderPoint B}
    (move : SenderMove cfg (Policy.honest ι d enter) k ch pt pt' ch' recs)
    (here : pt.Installing d σ.cipher) :
    (pt'.Installing d σ.cipher ∨ pt'.Streaming d cfg.numMessagesToSend 0) ∧
      ch' = ch ∧ recs = [] := by
  cases move with
  | rngKey v m => exact ⟨.inl here, rfl, rfl⟩
  | decrypt v m key h =>
      obtain ⟨sk, rfl⟩ := here
      have value : Except.ok key = B.decrypt v.privateKey σ.cipher.val := h
      rw [sk, σ.decrypt_cipher] at value
      cases value
      exact ⟨.inr ⟨rfl, rfl⟩, rfl, rfl⟩
  | decryptThrows v m e h =>
      obtain ⟨sk, rfl⟩ := here
      -- the encrypted key does decrypt
      have value : Except.error e = B.decrypt v.privateKey σ.cipher.val := h
      rw [sk, σ.decrypt_cipher] at value
      cases value
  | rngKeyThrows v m e h => cases h
  | _ => exact here.elim

theorem SenderPoint.streaming_loop {v : SenderVars B} (key : v.key = d.sessionKey.val)
    {N n i : ℕ} (count : i + n = N) :
    (SenderPoint.run v (.loop n i)).Streaming d N i := by
  cases n with
  | zero => exact ⟨key, count⟩
  | succ n => exact ⟨key, rfl, by omega⟩

theorem SenderMove.of_streaming {pt pt' : SenderPoint B}
    (move : SenderMove cfg (Policy.honest ι d enter) k ch pt pt' ch' recs) {i : ℕ}
    (here : pt.Streaming d cfg.numMessagesToSend i) :
    (pt'.Streaming d cfg.numMessagesToSend i ∧ ch' = ch ∧ recs = []) ∨
      (pt'.Streaming d cfg.numMessagesToSend (i + 1) ∧
        recs = [.sent .sendPeriodicMessage (σ.frame i)] ∧
        ch' = Function.update ch .senderToReceiver
          (ch .senderToReceiver ++ [σ.frameEntry k i])) := by
  cases move with
  | setKey v h =>
      obtain ⟨key, rfl⟩ := here
      exact .inl ⟨SenderPoint.streaming_loop key (by omega), rfl, rfl⟩
  | frame v j n =>
      obtain ⟨key, rfl, count⟩ := here
      refine .inr ⟨SenderPoint.streaming_loop key (by omega), ?_, ?_⟩ <;>
        simp only [Script.frame, Script.frameEntry, key]
  | closeSR v status => exact .inl ⟨here, rfl, rfl⟩
  | closeRS v status => exact .inl ⟨here, rfl, rfl⟩
  | enter v status h => exact .inl ⟨here, rfl, rfl⟩
  | unlinkRS v status => exact .inl ⟨here, rfl, rfl⟩
  | unlinkSR v status => exact .inl ⟨here, rfl, rfl⟩
  | setKeyThrows v e h =>
      obtain ⟨key, rfl⟩ := here
      -- `set_key` refuses only keys of another length
      have value : Except.error e = if v.key.length = kSymKeySize then _ else _ := h
      rw [key, if_pos d.sessionKey.property] at value
      cases value
  | frameFails v j n h => exact h.elim
  | _ => exact here.elim

theorem ReceiverMove.of_starting {pt pt' : ReceiverPoint B}
    (move : ReceiverMove cfg (Policy.honest ι d enter) k ch pt pt' ch' recs)
    (here : pt.Starting) :
    (pt'.Starting ∧ ch' = ch ∧ exchanges recs = []) ∨
      ∃ e rest, ch .senderToReceiver = e :: rest ∧
        (e.bytes = σ.publicKey → pt'.Answering d σ.publicKey σ.cipher) ∧
        recs = [.read .getPublicKey e] ∧
        ch' = Function.update ch .senderToReceiver rest := by
  cases move with
  | openRS o => exact .inl ⟨trivial, rfl, rfl⟩
  | openSR rs o =>
      exact .inl ⟨⟨rfl, by simp [ReceiverVars.start], rfl⟩, rfl, rfl⟩
  | recvKey v e rest waits =>
      exact .inr ⟨e, rest, waits, fun same => ⟨same, here.2⟩, rfl, rfl⟩
  | openRSFails h => exact h.elim
  | openSRFails rs h => exact h.elim
  | recvKeyFails v h => exact h.elim
  | _ => exact here.elim

theorem ReceiverMove.of_answering {pt pt' : ReceiverPoint B}
    (move : ReceiverMove cfg (Policy.honest ι d enter) k ch pt pt' ch' recs)
    (here : pt.Answering d σ.publicKey σ.cipher) :
    (pt'.Answering d σ.publicKey σ.cipher ∧ ch' = ch ∧ recs = []) ∨
      (pt'.Listening d σ.frame 0 ∧ recs = [.sent .sendSymmetricKey σ.cipher] ∧
        ch' = Function.update ch .receiverToSender
          (ch .receiverToSender ++ [σ.cipherEntry k])) := by
  cases move with
  | loadKey v m key h =>
      obtain ⟨rfl, size, none⟩ := here
      have value : Except.ok key = B.loadKey σ.publicKey.val := h
      rw [Script.publicKey, σ.lawful.loadKey_subjectPublicKey] at value
      cases value
      exact .inl ⟨⟨rfl, size, none⟩, rfl, rfl⟩
  | rng v => exact .inl ⟨here, rfl, rfl⟩
  | randomize v bytes h =>
      obtain ⟨pk, size, none⟩ := here
      obtain ⟨bytes', is, value⟩ := h
      cases is
      rw [pk]
      exact .inl ⟨⟨rfl, value, none⟩, rfl, rfl⟩
  | encrypt v pk c h =>
      obtain ⟨rfl, key, none⟩ := here
      have value : Except.ok c = B.encrypt (B.publicKey d.privateKey) d.seed v.key := h
      rw [key, σ.encrypted] at value
      cases value
      exact .inl ⟨⟨rfl, key, none⟩, rfl, rfl⟩
  | sendKey v c fits =>
      obtain ⟨rfl, key, none⟩ := here
      exact .inr ⟨⟨key, none, rfl⟩, rfl, rfl⟩
  | loadKeyThrows v m e h =>
      obtain ⟨rfl, -⟩ := here
      have value : Except.error e = B.loadKey σ.publicKey.val := h
      rw [Script.publicKey, σ.lawful.loadKey_subjectPublicKey] at value
      cases value
  | encryptThrows v pk e h =>
      obtain ⟨rfl, key, -⟩ := here
      have value : Except.error e = B.encrypt (B.publicKey d.privateKey) d.seed v.key := h
      rw [key, σ.encrypted] at value
      cases value
  | rngThrows v e h => cases h
  | randomizeThrows v e h => obtain ⟨bytes, h, -⟩ := h; cases h
  | sendKeyFails v c h => exact h.elim
  | _ => exact here.elim

theorem ReceiverMove.of_listening {pt pt' : ReceiverPoint B}
    (move : ReceiverMove cfg (Policy.honest ι d enter) k ch pt pt' ch' recs) {j : ℕ}
    (here : pt.Listening d σ.frame j) :
    (pt'.Listening d σ.frame j ∧ ch' = ch ∧ recs = []) ∨
      ∃ e rest, ch .senderToReceiver = e :: rest ∧
        (e.bytes = σ.frame j → pt'.Listening d σ.frame (j + 1)) ∧
        recs = [.read .receivePeriodicMessages e] ∧
        ch' = Function.update ch .senderToReceiver rest := by
  cases move with
  | setKey v h =>
      obtain ⟨key, none, rfl⟩ := here
      exact .inl ⟨⟨key, by simp [none]⟩, rfl, rfl⟩
  | receive v buffer e rest waits =>
      obtain ⟨key, compared⟩ := here
      refine .inr ⟨e, rest, waits, fun same => ?_, rfl, rfl⟩
      rw [same, σ.receive_frame v key]
      exact ⟨key, by simp [compared, List.range_succ]⟩
  | setKeyThrows v e h =>
      obtain ⟨key, -⟩ := here
      have value : Except.error e = if v.key.length = kSymKeySize then _ else _ := h
      rw [key, if_pos d.sessionKey.property] at value
      cases value
  | receiveFails v buffer h => exact h.elim
  | _ => exact here.elim

end Moves

/-! ## The phases -/

section Phases

variable {d : Draws B}

/-- What the sender has exchanged when it has taken the key and sent `i` frames. -/
def Script.senderRecs (σ : Script d) (k : ι) (i : ℕ) : List (Rec ι B) :=
  [.sent .sendPublicKey σ.publicKey, .read .receiveSymmetricKey (σ.cipherEntry k)] ++
    (List.range i).map fun i => .sent .sendPeriodicMessage (σ.frame i)

/-- What the receiver has exchanged when it has sent the key and read `j` frames. -/
def Script.receiverRecs (σ : Script d) (k : ι) (j : ℕ) : List (Rec ι B) :=
  [.read .getPublicKey (σ.publicKeyEntry k), .sent .sendSymmetricKey σ.cipher] ++
    (List.range j).map fun i => .read .receivePeriodicMessages (σ.frameEntry k i)

/-- **The invariant of an honest session.** -/
inductive Session.Phase (N : ℕ) (σ : Script d) (k : ι) (s : Session ι B) : Prop
  | start (sender : s.sender.Starting d) (receiver : s.receiver.Starting)
      (sr : s.chan .senderToReceiver = []) (rs : s.chan .receiverToSender = [])
      (sl : exchanges s.senderLog = []) (rl : exchanges s.receiverLog = [])
  | keySent (sender : s.sender.Waiting d) (receiver : s.receiver.Starting)
      (sr : s.chan .senderToReceiver = [σ.publicKeyEntry k])
      (rs : s.chan .receiverToSender = [])
      (sl : exchanges s.senderLog = [.sent .sendPublicKey σ.publicKey])
      (rl : exchanges s.receiverLog = [])
  | answering (sender : s.sender.Waiting d)
      (receiver : s.receiver.Answering d σ.publicKey σ.cipher)
      (sr : s.chan .senderToReceiver = []) (rs : s.chan .receiverToSender = [])
      (sl : exchanges s.senderLog = [.sent .sendPublicKey σ.publicKey])
      (rl : exchanges s.receiverLog = [.read .getPublicKey (σ.publicKeyEntry k)])
  | answered (sender : s.sender.Waiting d) (receiver : s.receiver.Listening d σ.frame 0)
      (sr : s.chan .senderToReceiver = [])
      (rs : s.chan .receiverToSender = [σ.cipherEntry k])
      (sl : exchanges s.senderLog = [.sent .sendPublicKey σ.publicKey])
      (rl : exchanges s.receiverLog = σ.receiverRecs k 0)
  | streaming (j n : ℕ)
      (sender : s.sender.Installing d σ.cipher ∧ j + n = 0 ∨ s.sender.Streaming d N (j + n))
      (receiver : s.receiver.Listening d σ.frame j)
      (sr : s.chan .senderToReceiver = (List.range' j n).map (σ.frameEntry k))
      (rs : s.chan .receiverToSender = [])
      (sl : exchanges s.senderLog = σ.senderRecs k (j + n))
      (rl : exchanges s.receiverLog = σ.receiverRecs k j)

variable {cfg : Config} (σ : Script d) {enter : Prop} {k : ι} {s s' : Session ι B}

/-- The sender keeps the invariant. -/
theorem Session.Phase.sender_step (h : s.Phase cfg.numMessagesToSend σ k)
    {pt : SenderPoint B} {ch : Channels ι B} {recs : List (Rec ι B)}
    (move : SenderMove cfg (Policy.honest ι d enter) k s.chan s.sender pt ch recs) :
    Session.Phase cfg.numMessagesToSend σ k
      { s with chan := ch, sender := pt, senderLog := s.senderLog ++ recs } := by
  cases h with
  | start sender receiver sr rs sl rl =>
      obtain ⟨still, rfl, none⟩ | ⟨sent, rfl, rfl⟩ := move.of_starting σ sender
      · exact .start still receiver sr rs (by simp [sl, none]) rl
      · exact .keySent sent receiver (by simp [sr]) (by simpa using rs) (by simp [sl]) rl
  | keySent sender receiver sr rs sl rl =>
      -- the reply has not been sent yet, so there is nothing to read
      obtain ⟨e, rest, waits, -⟩ := move.of_waiting sender
      simp [rs] at waits
  | answering sender receiver sr rs sl rl =>
      obtain ⟨e, rest, waits, -⟩ := move.of_waiting sender
      simp [rs] at waits
  | answered sender receiver sr rs sl rl =>
      obtain ⟨e, rest, waits, installing, rfl, rfl⟩ := move.of_waiting sender
      obtain ⟨rfl, rfl⟩ : e = σ.cipherEntry k ∧ rest = [] := by simpa [rs, eq_comm] using waits
      exact .streaming 0 0 (.inl ⟨installing, rfl⟩) receiver (by simpa using sr) (by simp)
        (by simp [sl, Script.senderRecs]) rl
  | streaming j n sender receiver sr rs sl rl =>
      rcases sender with ⟨installing, count⟩ | streaming
      · obtain ⟨installing' | streaming, rfl, rfl⟩ := move.of_installing σ installing
        · exact .streaming j n (.inl ⟨installing', count⟩) receiver sr rs (by simpa using sl) rl
        · exact .streaming j n (.inr (by rwa [count])) receiver sr rs (by simpa using sl) rl
      · obtain ⟨still, rfl, rfl⟩ | ⟨next, rfl, rfl⟩ := move.of_streaming σ streaming
        · exact .streaming j n (.inr still) receiver sr rs (by simpa using sl) rl
        · exact .streaming j (n + 1) (.inr next) receiver
            (by simp [sr, List.range'_1_concat]) (by simpa using rs)
            (by simp [sl, Script.senderRecs, ← Nat.add_assoc, List.range_succ]) rl

/-- The receiver keeps the invariant. -/
theorem Session.Phase.receiver_step (h : s.Phase cfg.numMessagesToSend σ k)
    {pt : ReceiverPoint B} {ch : Channels ι B} {recs : List (Rec ι B)}
    (move : ReceiverMove cfg (Policy.honest ι d enter) k s.chan s.receiver pt ch recs) :
    Session.Phase cfg.numMessagesToSend σ k
      { s with chan := ch, receiver := pt, receiverLog := s.receiverLog ++ recs } := by
  cases h with
  | start sender receiver sr rs sl rl =>
      obtain ⟨still, rfl, none⟩ | ⟨e, rest, waits, -⟩ := move.of_starting σ receiver
      · exact .start sender still sr rs sl (by simp [rl, none])
      · simp [sr] at waits
  | keySent sender receiver sr rs sl rl =>
      obtain ⟨still, rfl, none⟩ | ⟨e, rest, waits, answering, rfl, rfl⟩ :=
        move.of_starting σ receiver
      · exact .keySent sender still sr rs sl (by simp [rl, none])
      · obtain ⟨rfl, rfl⟩ : e = σ.publicKeyEntry k ∧ rest = [] := by
          simpa [sr, eq_comm] using waits
        exact .answering sender (answering rfl) (by simp) (by simpa using rs) sl
          (by simp [rl])
  | answering sender receiver sr rs sl rl =>
      obtain ⟨still, rfl, rfl⟩ | ⟨answered, rfl, rfl⟩ := move.of_answering σ receiver
      · exact .answering sender still sr rs sl (by simpa using rl)
      · exact .answered sender answered (by simpa using sr) (by simp [rs]) sl
          (by simp [rl, Script.receiverRecs])
  | answered sender receiver sr rs sl rl =>
      obtain ⟨still, rfl, rfl⟩ | ⟨e, rest, waits, -⟩ := move.of_listening σ receiver
      · exact .answered sender still sr rs sl (by simpa using rl)
      · simp [sr] at waits
  | streaming j n sender receiver sr rs sl rl =>
      obtain ⟨still, rfl, rfl⟩ | ⟨e, rest, waits, next, rfl, rfl⟩ :=
        move.of_listening σ receiver
      · exact .streaming j n sender still sr rs sl (by simpa using rl)
      · cases n with
        | zero => simp [sr] at waits
        | succ n =>
            obtain ⟨rfl, rfl⟩ : e = σ.frameEntry k j ∧
                rest = (List.range' (j + 1) n).map (σ.frameEntry k) := by
              simpa [sr, List.range'_succ, eq_comm] using waits
            -- the first frame that waits is the one to be read
            have count : j + (n + 1) = j + 1 + n := by omega
            refine .streaming (j + 1) n (by rwa [← count]) (next rfl) (by simp)
              (by simpa using rs) (by rwa [← count]) ?_
            simp [rl, Script.receiverRecs, List.range_succ]

/-- **An honest session is always in one of its phases.** -/
theorem Session.Reachable.phase
    (reach : s.Reachable cfg (Policy.honest ι d enter) k) :
    s.Phase cfg.numMessagesToSend σ k :=
  invariant reach (I := Session.Phase cfg.numMessagesToSend σ k)
    (.start trivial trivial rfl rfl rfl rfl) fun s s' _ h step => by
      cases step with
      | sender step answer => exact h.sender_step σ (senderMove_of_step step answer)
      | receiver step answer => exact h.receiver_step σ (receiverMove_of_step step answer)
      | intrude intrudes => exact intrudes.elim

end Phases

end HonestSession

end SecureComm
