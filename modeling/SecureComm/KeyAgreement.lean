import Mathlib.Tactic.Common
import SecureComm.Delivery

/-!
# Key agreement when queue calls fail

Any send and any receive of either program may now return -1.  The phases of an honest
session are gone: programs fall through, skip messages, and one may leave while the other
waits.  What is left is an invariant of where each message can be (`Session.Agreeing`),
and it is enough for the key: as long as the receive in `receive_symmetric_key` does not
fail, no frame is tagged before the sender has unwrapped the key the receiver made.

When that receive does fail, `receive_symmetric_key` gives up with `kNOT_OK`, the phase
switch falls through, and the frames go out under the key the sender drew for itself.
-/

namespace SecureComm

open Interaction MessageQueue

section KeyAgreement

variable {ι : Type} {B : Botan}

/-- Every send and receive can fail; `keyFails` says whether the receive of the
symmetric key can. -/
def Policy.flaky (ι : Type) (d : Draws B) (keyFails : Prop) : Policy ι B where
  fails _
    | .mqSend _ _ _ => True
    | .mqReceive .receiveSymmetricKey _ => keyFails
    | .mqReceive _ _ => True
    | _ => False
  botan := d.answers
  enter := True
  intrudes _ _ _ _ := False

theorem Policy.flaky_honours (ι : Type) (d : Draws B) (keyFails : Prop) :
    (Policy.flaky ι d keyFails).Honours d := fun _ _ _ answers => answers

theorem Policy.flaky_isolating (d : Draws B) : (Policy.flaky ι d False).Isolating where
  opens _ _ _ := id
  keyArrives _ := id

/-! ## Where the messages can be -/

section Classes

variable {d : Draws B} (σ : Script d)

/-- What the sender holds from the phase switch on. -/
def SenderPc.Agrees (key : List B.Byte) : SenderPc B → Prop
  | .sendKey => True
  | .sendKeyFailed => True
  | .recvKey => True
  | .recvKeyFailed => False
  | .rngKey m => m = σ.cipher
  | .decrypt m => m = σ.cipher
  | _ => key = d.sessionKey.val

/-- What the sender holds: its private key, then the encrypted session key, then the
session key. -/
def SenderPoint.Agrees : SenderPoint B → Prop
  | .randomize _ _ sk => sk = d.privateKey
  | .run v pc => v.privateKey = d.privateKey ∧ pc.Agrees σ v.key
  | _ => True

/-- What the receiver holds from the phase switch on; a failed receive leaves it without
a public key. -/
def ReceiverPc.Agrees (v : ReceiverVars B) : ReceiverPc B → Prop
  | .recvKey => v.publicKey = none
  | .loadKey m => m = σ.publicKey
  | .rng => v.publicKey = none ∨ v.publicKey = some (.rsa (B.publicKey d.privateKey))
  | .randomize => v.publicKey = none ∨ v.publicKey = some (.rsa (B.publicKey d.privateKey))
  | .encrypt key => key = B.publicKey d.privateKey ∧ v.key = d.sessionKey.val
  | .sendKey encryptedKey => encryptedKey = σ.cipher.val ∧ v.key = d.sessionKey.val
  | _ => v.key = d.sessionKey.val

def ReceiverPoint.Agrees : ReceiverPoint B → Prop
  | .run v pc => pc.Agrees σ v
  | _ => True

/-- The receiver has not tried to read the public key. -/
def ReceiverPoint.Unread : ReceiverPoint B → Prop
  | .openRS => True
  | .openSR _ => True
  | .run _ .recvKey => True
  | _ => False

/-- The receiver has tried to send the encrypted key. -/
def ReceiverPoint.Replied : ReceiverPoint B → Prop
  | .run _ .setKey => True
  | .run _ (.loop _) => True
  | .run _ (.enter _) => True
  | .run _ (.closeRS _) => True
  | .run _ (.closeSR _) => True
  | .run _ (.returned _) => True
  | .run _ (.crashed _) => True
  | _ => False

theorem ReceiverPoint.not_unread_of_replied {pt : ReceiverPoint B} (replied : pt.Replied) :
    ¬ pt.Unread := by
  cases pt with
  | run v pc => cases pc <;> first | exact id | exact replied.elim
  | _ => exact replied.elim

end Classes

/-! ## What a step does -/

section Moves

variable {cfg : Config} {d : Draws B} (σ : Script d) {k : ι} {ch ch' : Channels ι B}
  {recs : List (Rec ι B)}

theorem SenderPc.agrees_loop (n i : ℕ) :
    (SenderPc.loop n i).Agrees σ d.sessionKey.val := by
  cases n <;> rfl

/-- The sender does nothing to the channels, sends its public key, takes the encrypted
key, or, once it has the session key, sends a frame. -/
inductive SenderDoes (k : ι) (ch : Channels ι B) (pt pt' : SenderPoint B) :
    Channels ι B → List (Rec ι B) → Prop
  | quiet {recs : List (Rec ι B)} (keyed : pt'.Keyed → pt.Keyed)
      (none : exchanges recs = []) : SenderDoes k ch pt pt' ch recs
  | sendsKey (keyed : ¬ pt'.Keyed) :
      SenderDoes k ch pt pt'
        (Function.update ch .senderToReceiver (ch .senderToReceiver ++ [σ.publicKeyEntry k]))
        [.sent .sendPublicKey σ.publicKey]
  | readsKey (e : Entry ι B) (rest : List (Entry ι B)) (keyed : pt'.Keyed)
      (waits : ch .receiverToSender = e :: rest) :
      SenderDoes k ch pt pt' (Function.update ch .receiverToSender rest)
        [.read .receiveSymmetricKey e]
  | sendsFrame (i : ℕ) (keyed : pt.Keyed) :
      SenderDoes k ch pt pt'
        (Function.update ch .senderToReceiver (ch .senderToReceiver ++ [σ.frameEntry k i]))
        [.sent .sendPeriodicMessage (σ.frame i)]

/-- **What the sender does when calls fail.** -/
theorem SenderMove.does {pt pt' : SenderPoint B}
    (move : SenderMove cfg (Policy.flaky ι d False) k ch pt pt' ch' recs)
    (here : pt.Agrees σ) (waiting : ∀ e ∈ ch .receiverToSender, e.bytes = σ.cipher) :
    pt'.Agrees σ ∧ SenderDoes σ k ch pt pt' ch' recs := by
  cases move with
  | openSR o => exact ⟨trivial, .quiet id rfl⟩
  | openSRFails h => exact h.elim
  | openRS sr o => exact ⟨trivial, .quiet id rfl⟩
  | openRSFails sr h => exact h.elim
  | rng sr rs => exact ⟨trivial, .quiet id rfl⟩
  | rngThrows sr rs e h => exact ⟨trivial, .quiet id rfl⟩
  | keygen sr rs sk h => cases h; exact ⟨rfl, .quiet id rfl⟩
  | keygenThrows sr rs e h => exact ⟨trivial, .quiet id rfl⟩
  | randomize sr rs sk bytes h =>
      rw [SenderPc.start_of_le (σ.lawful.subjectPublicKey_length _)]
      exact ⟨⟨here, trivial⟩, .quiet id rfl⟩
  | randomizeThrows sr rs sk key e h => exact ⟨trivial, .quiet id rfl⟩
  | sendKey v fits =>
      obtain ⟨sr, rs, sk, key⟩ := v
      obtain ⟨rfl, -⟩ := here
      exact ⟨⟨rfl, trivial⟩, .sendsKey id⟩
  | sendKeyFails v h => exact ⟨⟨here.1, trivial⟩, .quiet id rfl⟩
  | sendKeyEnter v => exact ⟨⟨here.1, trivial⟩, .quiet id rfl⟩
  | recvKey v e rest waits =>
      have cipher := waiting e (by rw [waits]; exact List.mem_cons_self)
      exact ⟨⟨here.1, cipher⟩, .readsKey e rest trivial waits⟩
  -- the one receive that does not fail under this policy
  | recvKeyFails v h => exact h.elim
  | recvKeyEnter v => exact here.2.elim
  | rngKey v m => exact ⟨here, .quiet id rfl⟩
  | rngKeyThrows v m e h => exact ⟨trivial, .quiet False.elim rfl⟩
  | decrypt v m key h =>
      obtain ⟨sk, rfl⟩ := here
      -- the answer is the plaintext of the encrypted key
      have value : Except.ok key = B.decrypt v.privateKey σ.cipher.val := h
      rw [sk, σ.decrypt_cipher] at value
      cases value
      exact ⟨⟨sk, rfl⟩, .quiet id rfl⟩
  | decryptThrows v m e h => exact ⟨trivial, .quiet False.elim rfl⟩
  | setKey v h =>
      obtain ⟨sr, rs, sk, key⟩ := v
      obtain ⟨rfl, rfl⟩ := here
      exact ⟨⟨rfl, SenderPc.agrees_loop σ _ 0⟩, .quiet (fun _ => trivial) rfl⟩
  | setKeyThrows v e h => exact ⟨trivial, .quiet False.elim rfl⟩
  | frame v i n =>
      obtain ⟨sr, rs, sk, key⟩ := v
      obtain ⟨rfl, rfl⟩ := here
      exact ⟨⟨rfl, SenderPc.agrees_loop σ n (i + 1)⟩, .sendsFrame i trivial⟩
  | frameFails v i n h => exact ⟨here, .quiet id rfl⟩
  | closeSR v status => exact ⟨here, .quiet id rfl⟩
  | closeRS v status => exact ⟨here, .quiet id rfl⟩
  | enter v status h => exact ⟨here, .quiet id rfl⟩
  | unlinkRS v status => exact ⟨here, .quiet id rfl⟩
  | unlinkSR v status => exact ⟨here, .quiet id rfl⟩

/-- The receiver does nothing to the channels, reads what it takes for the public key,
sends the encrypted key, or takes a message in its loop. -/
inductive ReceiverDoes (k : ι) (ch : Channels ι B) (pt pt' : ReceiverPoint B) :
    Channels ι B → List (Rec ι B) → Prop
  | quiet {recs : List (Rec ι B)} (unread : pt'.Unread → pt.Unread)
      (none : exchanges recs = []) : ReceiverDoes k ch pt pt' ch recs
  | reads (site : Site) (e : Entry ι B) (rest : List (Entry ι B)) (read : ¬ pt'.Unread)
      (waits : ch .senderToReceiver = e :: rest) :
      ReceiverDoes k ch pt pt' (Function.update ch .senderToReceiver rest) [.read site e]
  | sendsCipher (replied : pt'.Replied) :
      ReceiverDoes k ch pt pt'
        (Function.update ch .receiverToSender (ch .receiverToSender ++ [σ.cipherEntry k]))
        [.sent .sendSymmetricKey σ.cipher]

theorem ReceiverPoint.agrees_receive {v : ReceiverVars B} (key : v.key = d.sessionKey.val)
    (buffer : List B.Byte) (m : Message B) : (ReceiverPoint.receive v buffer m).Agrees σ := by
  unfold ReceiverPoint.receive
  split_ifs <;> exact key

theorem ReceiverPoint.not_unread_receive (v : ReceiverVars B) (buffer : List B.Byte)
    (m : Message B) : ¬ (ReceiverPoint.receive v buffer m).Unread := by
  unfold ReceiverPoint.receive
  split_ifs <;> exact id

/-- **What the receiver does when calls fail.** -/
theorem ReceiverMove.does {pt pt' : ReceiverPoint B}
    (move : ReceiverMove cfg (Policy.flaky ι d False) k ch pt pt' ch' recs)
    (here : pt.Agrees σ)
    (waiting : pt.Unread → ∀ e ∈ ch .senderToReceiver, e.bytes = σ.publicKey) :
    pt'.Agrees σ ∧ ReceiverDoes σ k ch pt pt' ch' recs := by
  cases move with
  | openRS o => exact ⟨trivial, .quiet id rfl⟩
  | openRSFails h => exact h.elim
  | openSR rs o => exact ⟨rfl, .quiet id rfl⟩
  | openSRFails rs h => exact h.elim
  | recvKey v e rest waits =>
      have key := waiting trivial e (by rw [waits]; exact List.mem_cons_self)
      exact ⟨key, .reads _ e rest id waits⟩
  | recvKeyFails v h => exact ⟨.inl here, .quiet False.elim rfl⟩
  | loadKey v m key h =>
      obtain rfl : m = σ.publicKey := here
      have value : Except.ok key = B.loadKey σ.publicKey.val := h
      rw [Script.publicKey, σ.lawful.loadKey_subjectPublicKey] at value
      cases value
      exact ⟨.inr rfl, .quiet id rfl⟩
  | loadKeyThrows v m e h => exact ⟨trivial, .quiet id rfl⟩
  | rng v => exact ⟨here, .quiet id rfl⟩
  | rngThrows v e h => exact ⟨trivial, .quiet id rfl⟩
  | randomize v bytes h =>
      obtain ⟨bytes', is, value⟩ := h
      cases is
      -- without a key the dereference crashes, with the sender's it encrypts
      rcases here with unset | pk
      · rw [unset]
        exact ⟨value, .quiet id rfl⟩
      · rw [pk]
        exact ⟨⟨rfl, value⟩, .quiet id rfl⟩
  | randomizeThrows v e h => exact ⟨trivial, .quiet id rfl⟩
  | encrypt v pk c h =>
      obtain ⟨rfl, key⟩ := here
      have value : Except.ok c = B.encrypt (B.publicKey d.privateKey) d.seed v.key := h
      rw [key, σ.encrypted] at value
      cases value
      exact ⟨⟨rfl, key⟩, .quiet id rfl⟩
  | encryptThrows v pk e h => exact ⟨trivial, .quiet id rfl⟩
  | sendKey v c fits =>
      obtain ⟨rfl, key⟩ := here
      exact ⟨key, .sendsCipher trivial⟩
  | sendKeyFails v c h => exact ⟨here.2, .quiet id rfl⟩
  | setKey v h => exact ⟨here, .quiet id rfl⟩
  | setKeyThrows v e h => exact ⟨trivial, .quiet id rfl⟩
  | receive v buffer e rest waits =>
      exact ⟨ReceiverPoint.agrees_receive σ here buffer e.bytes,
        .reads _ e rest (ReceiverPoint.not_unread_receive v buffer e.bytes) waits⟩
  | receiveFails v buffer h => exact ⟨here, .quiet id rfl⟩
  | enter v status h => exact ⟨here, .quiet id rfl⟩
  | closeRS v status => exact ⟨here, .quiet id rfl⟩
  | closeSR v status => exact ⟨here, .quiet id rfl⟩

end Moves

/-! ## The invariant -/

section Invariant

variable {cfg : Config} {d : Draws B} (σ : Script d) {k : ι} {s s' : Session ι B}

/-- **Where the key can be** when calls fail: nothing but the public key waits for a
receiver that has not tried to read it, nothing but the encrypted key waits for the
sender, and a sender past its handshake has read that one. -/
structure Session.Agreeing (s : Session ι B) : Prop where
  sender : s.sender.Agrees σ
  receiver : s.receiver.Agrees σ
  forSender : ∀ e ∈ s.chan .receiverToSender, e.bytes = σ.cipher
  forReceiver : s.receiver.Unread → ∀ e ∈ s.chan .senderToReceiver, e.bytes = σ.publicKey
  unanswered : s.receiver.Unread → s.chan .receiverToSender = [] ∧ ¬ s.sender.Keyed
  answered : s.chan .receiverToSender ≠ [] ∨ s.sender.Keyed →
    .sent .sendSymmetricKey σ.cipher ∈ exchanges s.receiverLog
  delivered : s.sender.Keyed →
    ∃ e, .read .receiveSymmetricKey e ∈ exchanges s.senderLog
  frames : ∀ m, .sent .sendPeriodicMessage m ∈ exchanges s.senderLog →
    (∃ i, m = σ.frame i) ∧ (∃ e, .read .receiveSymmetricKey e ∈ exchanges s.senderLog) ∧
      .sent .sendSymmetricKey σ.cipher ∈ exchanges s.receiverLog

theorem Session.Agreeing.start : (Session.start ι B).Agreeing σ where
  sender := trivial
  receiver := trivial
  forSender := nofun
  forReceiver _ := nofun
  unanswered _ := ⟨rfl, id⟩
  answered some := some.elim (absurd rfl) False.elim
  delivered := False.elim
  frames := nofun

/-- The sender keeps it. -/
theorem Session.Agreeing.sender_step (h : s.Agreeing σ) {pt : SenderPoint B}
    {ch : Channels ι B} {recs : List (Rec ι B)}
    (move : SenderMove cfg (Policy.flaky ι d False) k s.chan s.sender pt ch recs) :
    Session.Agreeing σ
      { s with chan := ch, sender := pt, senderLog := s.senderLog ++ recs } := by
  obtain ⟨agrees, does⟩ := move.does σ h.sender h.forSender
  cases does with
  | quiet keyed none =>
      refine ⟨agrees, h.receiver, h.forSender, h.forReceiver, ?_, ?_, ?_, ?_⟩
      · intro unread
        exact ⟨(h.unanswered unread).1, fun now => (h.unanswered unread).2 (keyed now)⟩
      · intro some
        exact h.answered (some.imp id keyed)
      · intro now
        simpa [none] using h.delivered (keyed now)
      · simpa [none] using h.frames
  | sendsKey keyed =>
      -- one public key more waits, and its sender is not past the handshake
      refine ⟨agrees, h.receiver, by simpa using h.forSender, ?_, ?_, ?_, ?_, ?_⟩
      · intro unread e inside
        simp only [Function.update_self, List.mem_append, List.mem_singleton] at inside
        rcases inside with before | rfl
        · exact h.forReceiver unread e before
        · rfl
      · intro unread
        exact ⟨by simpa using (h.unanswered unread).1, keyed⟩
      · intro some
        exact h.answered (.inl (by simpa [keyed] using some))
      · intro now
        exact absurd now keyed
      · simpa using h.frames
  | readsKey e rest keyed waits =>
      -- what it reads was sent, so the receiver has answered
      have some : s.chan .receiverToSender ≠ [] := by rw [waits]; exact List.cons_ne_nil e rest
      have sent := h.answered (.inl some)
      refine ⟨agrees, h.receiver, ?_, by simpa using h.forReceiver, ?_, fun _ => sent,
        fun _ => ⟨e, by simp⟩, ?_⟩
      · intro e' inside
        simp only [Function.update_self] at inside
        exact h.forSender e' (by rw [waits]; exact List.mem_cons_of_mem e inside)
      · intro unread
        exact absurd (h.unanswered unread).1 some
      · intro m now
        obtain ⟨frame, read, -⟩ := h.frames m (by simpa using now)
        exact ⟨frame, ⟨e, by simp⟩, sent⟩
  | sendsFrame i keyed =>
      -- a frame comes from a sender that has read the encrypted key
      obtain ⟨e, read⟩ := h.delivered keyed
      have sent := h.answered (.inr keyed)
      refine ⟨agrees, h.receiver, by simpa using h.forSender, ?_, ?_, fun _ => sent,
        fun _ => ⟨e, by simp [read]⟩, ?_⟩
      · intro unread
        exact absurd keyed (h.unanswered unread).2
      · intro unread
        exact absurd keyed (h.unanswered unread).2
      · intro m now
        refine ⟨?_, ⟨e, by simp [read]⟩, sent⟩
        rw [exchanges_append, List.mem_append] at now
        rcases now with before | here
        · exact (h.frames m before).1
        · exact ⟨i, by simpa using here⟩

/-- The receiver keeps it. -/
theorem Session.Agreeing.receiver_step (h : s.Agreeing σ) {pt : ReceiverPoint B}
    {ch : Channels ι B} {recs : List (Rec ι B)}
    (move : ReceiverMove cfg (Policy.flaky ι d False) k s.chan s.receiver pt ch recs) :
    Session.Agreeing σ
      { s with chan := ch, receiver := pt, receiverLog := s.receiverLog ++ recs } := by
  obtain ⟨agrees, does⟩ := move.does σ h.receiver h.forReceiver
  have grows : ∀ {r : Rec ι B}, r ∈ exchanges s.receiverLog →
      r ∈ exchanges (s.receiverLog ++ recs) := by
    intro r before
    rw [exchanges_append]
    exact List.mem_append_left _ before
  have frames : ∀ m, .sent .sendPeriodicMessage m ∈ exchanges s.senderLog →
      (∃ i, m = σ.frame i) ∧ (∃ e, .read .receiveSymmetricKey e ∈ exchanges s.senderLog) ∧
        .sent .sendSymmetricKey σ.cipher ∈ exchanges (s.receiverLog ++ recs) := by
    intro m now
    obtain ⟨frame, read, sent⟩ := h.frames m now
    exact ⟨frame, read, grows sent⟩
  cases does with
  | quiet unread none =>
      exact ⟨h.sender, agrees, h.forSender, fun now => h.forReceiver (unread now),
        fun now => h.unanswered (unread now), fun some => grows (h.answered some),
        h.delivered, frames⟩
  | reads site e rest read waits =>
      refine ⟨h.sender, agrees, by simpa using h.forSender, fun now => absurd now read,
        fun now => absurd now read, fun some => ?_, h.delivered, frames⟩
      exact grows (h.answered (by simpa using some))
  | sendsCipher replied =>
      -- what it adds is the encrypted key, after it has read a public key
      have read := ReceiverPoint.not_unread_of_replied replied
      refine ⟨h.sender, agrees, ?_, fun now => absurd now read, fun now => absurd now read,
        fun _ => by simp, h.delivered, frames⟩
      intro e inside
      simp only [Function.update_self, List.mem_append, List.mem_singleton] at inside
      rcases inside with before | rfl
      · exact h.forSender e before
      · rfl

/-- **A session agrees on its key**, whatever else fails. -/
theorem Session.Reachable.agreeing (reach : s.Reachable cfg (Policy.flaky ι d False) k) :
    s.Agreeing σ :=
  invariant reach (I := Session.Agreeing σ) (Session.Agreeing.start σ)
    fun s s' _ h step => by
      cases step with
      | sender step answer => exact h.sender_step σ (senderMove_of_step step answer)
      | receiver step answer => exact h.receiver_step σ (receiverMove_of_step step answer)
      | intrude intrudes => exact intrudes.elim

end Invariant

/-! ## One session over the kernel -/

section Worlds

variable {d : Draws B}

/-- **Key agreement.**  The frames sent carry tags under the session key, which the
receiver has sent and the sender has read; and a frame about to be sent is tagged under
that key, not one of the sender's own. -/
structure KeysAgree (d : Draws B) (w : SessionsWorld Unit B) : Prop where
  tagged : ∀ m, .sent .sendPeriodicMessage m ∈ w.log ((), .sender) →
    TagMatches d.sessionKey.val m.val
  delivered : ∀ m, .sent .sendPeriodicMessage m ∈ w.log ((), .sender) →
    (∃ e, .read .receiveSymmetricKey e ∈ w.log ((), .sender)) ∧
      ∃ c, .sent .sendSymmetricKey c ∈ w.log ((), .receiver) ∧
        B.encrypt (B.publicKey d.privateKey) d.seed d.sessionKey.val = .ok c.val
  authenticates : ∀ mq msg next,
    (w.procs ((), .sender)).next = some ⟨.mqSend .sendPeriodicMessage mq msg, next⟩ →
      (∃ e, .read .receiveSymmetricKey e ∈ w.log ((), .sender)) ∧
        (w.procs ((), .sender)).mem.symmetricKey = d.sessionKey.val ∧
          TagMatches d.sessionKey.val msg

theorem mem_exchanges_sent {log : List (Rec ι B)} {site : Site} {m : Message B} :
    .sent site m ∈ exchanges log ↔ .sent site m ∈ log := by
  simp [exchanges, Rec.isExchange]

/-- A sender about to send a frame holds the key it is tagged under. -/
theorem SenderPoint.frame_of_next {cfg : Config} {pt : SenderPoint B} {mq : Mqd}
    {msg : List B.Byte} {next : Bool → SenderPoint B}
    (waiting : pt.next cfg = some ⟨.mqSend .sendPeriodicMessage mq msg, next⟩) :
    pt.Keyed ∧ ∃ v i n, pt = .run v (.frame i n) ∧ msg = frameBytes v.key i := by
  cases pt with
  | run v pc =>
      cases pc with
      | frame i n => cases waiting; exact ⟨trivial, v, i, n, rfl, rfl⟩
      | _ => cases waiting
  | _ => cases waiting

/-- **Keys agree while the receive of the symmetric key does not fail**, over any queues
with nothing in them. -/
theorem keysAgree_of_keyArrives (lawful : B.Lawful) (d : Draws B) (cfg : Config)
    (κ : Kernel QueueName (Entry Unit B)) (empty : ∀ o, κ.queue o = [])
    (w : SessionsWorld Unit B)
    (reach : (sessions (Policy.flaky Unit d False)).Reachable (sessionsStart cfg κ) w) :
    KeysAgree d w := by
  obtain ⟨n, chain⟩ := exists_chain reach
  obtain ⟨s, -, h⟩ := exists_tracks (fun _ => Policy.flaky_isolating d) empty chain
  obtain ⟨σ⟩ := exists_script lawful d
  have agreeing := (h.reached ()).agreeing σ
  have frames : ∀ m, .sent .sendPeriodicMessage m ∈ w.log ((), .sender) →
      (∃ i, m = σ.frame i) ∧ (∃ e, .read .receiveSymmetricKey e ∈ w.log ((), .sender)) ∧
        .sent .sendSymmetricKey σ.cipher ∈ w.log ((), .receiver) := by
    intro m sent
    rw [h.senderLog, ← mem_exchanges_sent] at sent
    obtain ⟨frame, ⟨e, read⟩, answered⟩ := agreeing.frames m sent
    rw [mem_exchanges] at read
    rw [mem_exchanges_sent] at answered
    rw [h.senderLog, h.receiverLog]
    exact ⟨frame, ⟨e, read⟩, answered⟩
  refine ⟨?_, ?_, ?_⟩
  · intro m sent
    obtain ⟨⟨i, rfl⟩, -⟩ := frames m sent
    exact σ.frame_matches i
  · intro m sent
    obtain ⟨-, read, answered⟩ := frames m sent
    exact ⟨read, σ.cipher, answered, σ.encrypted⟩
  · intro mq msg next waiting
    obtain ⟨next', there⟩ := (senderMain_bisimulation cfg).waiting_left (h.sender ()) waiting
    obtain ⟨keyed, v, i, n, point, rfl⟩ := SenderPoint.frame_of_next there
    obtain ⟨e, read⟩ := agreeing.delivered keyed
    have key : v.key = d.sessionKey.val := by
      have agrees := agreeing.sender
      rw [point] at agrees
      exact agrees.2
    rw [mem_exchanges, ← h.senderLog] at read
    refine ⟨⟨e, read⟩, ?_, ?_⟩
    · rw [(h.sender ()).symmetricKey, point]
      exact key
    · rw [key]
      exact σ.frame_matches i

/-- In a sample session the first frame has gone through and the send of the second one
has failed. -/
theorem keysAgree_of_keyArrives_frameFails :
    ∃ w : SessionsWorld Unit sampleBotan, KeysAgree sampleDraws w ∧
      .sent .sendPeriodicMessage (sampleScript.frame 0) ∈ w.log ((), .sender) := by
  have honours := Policy.flaky_honours Unit sampleDraws False
  obtain ⟨buffer, reached⟩ := Stage.Reached.frames
    (P := fun _ => Policy.flaky Unit sampleDraws False) (k := ()) (i := 1) sampleScript honours
    (by decide) (fun _ => rfl) (fun _ => rfl) (alone_may _)
    (Stage.at_start .source (Kernel.empty _ _) ()) (by decide)
  obtain ⟨w, reach, here, -⟩ := reached.sender (alone_may _) rfl
    (.mqSendFails trivial)
  refine ⟨w, keysAgree_of_keyArrives sampleBotan_lawful sampleDraws .source (Kernel.empty _ _)
    (fun _ => rfl) w reach, ?_⟩
  rw [here.senderLog]
  simp [Script.stage, Script.senderRecs]

/-- **When the receive of the symmetric key fails, the sender uses its own key**: its first
frame is tagged under the key it drew for itself, the receiver not even having run. -/
theorem not_keysAgree_of_keyReceiveFails :
    ¬ ∀ w, (sessions (Policy.flaky Unit sampleDraws True)).Reachable
        (sessionsStart .source (Kernel.empty QueueName (Entry Unit sampleBotan))) w →
      KeysAgree sampleDraws w := by
  intro claim
  have turn := alone_may
    (sessionsStart .source (Kernel.empty QueueName (Entry Unit sampleBotan))).procs
  have honours := Policy.flaky_honours Unit sampleDraws True
  have sent := Stage.Reached.keySent (P := fun _ => Policy.flaky Unit sampleDraws True)
    sampleScript honours (by decide) (fun _ => rfl) (fun _ => rfl) turn
    (Stage.at_start .source (Kernel.empty _ _) ())
  -- the receive returns -1, and the operator presses Enter
  have failed := sent.sender turn rfl (.mqReceiveFails trivial)
  have fell := failed.sender turn rfl (.cinGet trivial)
  have keyed := fell.sender turn rfl
    (.botan rfl (honours.setKey .sender sampleDraws.localKey.property))
  obtain ⟨w, reach, here, -⟩ := keyed.sender turn rfl
    (.mqSend (length_frameBytes_le sampleDraws.localKey.val 0)
      ⟨0, Nat.zero_lt_two, rfl, by decide, rfl⟩)
  have tagged := (claim w reach).tagged ⟨frameBytes sampleDraws.localKey.val 0,
    length_frameBytes_le sampleDraws.localKey.val 0⟩ (by
      rw [here.senderLog]
      simp [Script.keySentStage])
  exact absurd tagged (by decide)

end Worlds

end KeyAgreement

end SecureComm
