import Mathlib.Tactic.Common
import SecureComm.Delivery
import SecureComm.Threads

/-!
# What the terminals show

In honest sessions each program has one transcript.  However the steps of all the processes
interleave, a terminal shows a prefix of it: what is printed depends on what was read, and
what was read depends on the script alone.

`SenderPoint.todo` and `ReceiverPoint.todo` say which lines are still to come, and a step
prints what it takes off them.
-/

namespace SecureComm

open Interaction MessageQueue

section Transcripts

variable {B : Botan}

/-- The line an observation is, if it is one. -/
def Obs.line? : Obs B → Option (Line B)
  | .printed line => some line
  | _ => none

/-- The lines on a terminal. -/
def terminal (os : List (Obs B)) : List (Line B) := os.filterMap Obs.line?

@[simp] theorem terminal_append (os os' : List (Obs B)) :
    terminal (os ++ os') = terminal os ++ terminal os' := List.filterMap_append

@[simp] theorem terminal_nil : terminal ([] : List (Obs B)) = [] := rfl

@[simp] theorem terminal_printed (line : Line B) (os : List (Obs B)) :
    terminal (Obs.printed line :: os) = line :: terminal os := rfl

@[simp] theorem terminal_accessed (a : Access) (os : List (Obs B)) :
    terminal (Obs.accessed a :: os) = terminal os := rfl

@[simp] theorem terminal_compared (m : List B.Byte) (equal : Bool) (os : List (Obs B)) :
    terminal (Obs.compared m equal :: os) = terminal os := rfl

/-! ## The sender's transcript -/

section Sender

variable {d : Draws B} (σ : Script d) (N : ℕ)

/-- The lines about frame `i`. -/
def Script.frameLines (_ : Script d) (i : ℕ) : List (Line B) :=
  [.sentPeriodic (kBufferSize + kCmacSize) i, .hex "[Sender]" (frameBytes d.sessionKey.val i)]

/-- The lines from frame `i` on, with `n` frames to go. -/
def Script.streamingLines (n i : ℕ) : List (Line B) :=
  (List.range' i n).flatMap σ.frameLines ++ [.cout "Sender done. Press Enter to exit."]

/-- The lines about the key unwrapped. -/
def Script.unwrappedLines : List (Line B) :=
  [.counted "[Sender] Decrypted symmetric key (" kSymKeySize " bytes)\n",
    .hex "[Sender]" d.sessionKey.val,
    .counted "[Sender] Received symmetric key (" kSymKeySize " bytes)\n",
    .cout "[Sender] Send periodic messages\n"] ++ σ.streamingLines N 0

/-- The lines about the encrypted key. -/
def Script.receivedLines : List (Line B) :=
  [.counted "[Sender] Received encrypted symmetric key (" σ.cipher.val.length " bytes)\n",
    .hex "[Sender]" σ.cipher.val] ++ σ.unwrappedLines N

/-- The lines about the public key. -/
def Script.sentLines : List (Line B) :=
  [.counted "[Sender] Public key sent (" σ.publicKey.val.length " bytes)\n",
    .cout "[Sender] Wait for symmetric key...\n"] ++ σ.receivedLines N

/-- The lines about the key pair, the private key among them. -/
def Script.keyLines : List (Line B) :=
  [.privatePem d.privateKey, .publicPem (.rsa (B.publicKey d.privateKey))] ++
    [.cout "[Sender] Send public key\n"] ++ σ.sentLines N

/-- **All that the sender prints.** -/
def Script.senderTranscript : List (Line B) :=
  [.cout "[Sender] Starting sender in 5 seconds...\n", .cout "[Sender] Running...\n"] ++
    σ.keyLines N

/-- What is still to be printed from the phase switch on. -/
def SenderPc.todo : SenderPc B → List (Line B)
  | .sendKey => σ.sentLines N
  | .recvKey => σ.receivedLines N
  | .rngKey _ => σ.unwrappedLines N
  | .decrypt _ => σ.unwrappedLines N
  | .setKey => σ.streamingLines N 0
  | .frame i n => σ.streamingLines (n + 1) i
  | .closeSR _ => σ.streamingLines 0 0
  | .closeRS _ => σ.streamingLines 0 0
  | _ => []

/-- What is still to be printed. -/
def SenderPoint.todo : SenderPoint B → List (Line B)
  | .openSR => σ.senderTranscript N
  | .openRS _ => σ.senderTranscript N
  | .rng _ _ => σ.keyLines N
  | .keygen _ _ => σ.keyLines N
  | .randomize _ _ _ => [.cout "[Sender] Send public key\n"] ++ σ.sentLines N
  | .run _ pc => pc.todo σ N
  | _ => []

/-- The process waits at the point and has printed what was not still to come. -/
def SenderPoint.Shown (cfg : Config) (pt : SenderPoint B) (p : Process B) : Prop :=
  ∃ pk obs, p = (pt.prog cfg).settle ⟨pk, pt.key, obs⟩ ∧
    terminal obs ++ pt.todo σ cfg.numMessagesToSend = σ.senderTranscript cfg.numMessagesToSend

theorem SenderPoint.Shown.terminal_eq {cfg : Config} {pt : SenderPoint B} {p : Process B}
    (h : pt.Shown σ cfg p) : terminal p.mem.observed ++ pt.todo σ cfg.numMessagesToSend =
      σ.senderTranscript cfg.numMessagesToSend := by
  obtain ⟨pk, obs, rfl, shown⟩ := h
  cases pt with
  | run v pc => cases pc <;> exact shown
  | _ => exact shown

theorem Script.streamingLines_succ (n i : ℕ) :
    σ.streamingLines (n + 1) i = σ.frameLines i ++ σ.streamingLines n (i + 1) := by
  simp [streamingLines, List.range'_succ]

theorem SenderPc.todo_loop (n i : ℕ) :
    (SenderPc.loop n i : SenderPc B).todo σ N = σ.streamingLines n i := by
  cases n <;> rfl

section Steps

variable {σ} {ι : Type} {cfg : Config} {enter : Prop} {k : ι} {ch ch' : Channels ι B}
  {recs : List (Rec ι B)} {e : Event (Op B) Op.Resp} {pt : SenderPoint B} {p p' : Process B}

/-- The phase switch begins with the public key. -/
theorem SenderPc.shown_start (v : SenderVars B) (pk : Option (PublicKey B.Pub))
    (obs : List (Obs B))
    (shown : terminal obs ++ ([.cout "[Sender] Send public key\n"] ++
      σ.sentLines cfg.numMessagesToSend) = σ.senderTranscript cfg.numMessagesToSend) :
    (SenderPoint.run v (.start v)).Shown σ cfg
      (((senderSwitch cfg (some v.sr) (some v.rs) v.privateKey 0).bind
        (senderEnd (some v.sr) (some v.rs))).settle ⟨pk, v.key, obs⟩) := by
  have fits := σ.lawful.subjectPublicKey_length (B.publicKey v.privateKey)
  have large : ¬ (B.subjectPublicKey (B.publicKey v.privateKey)).length > kMessageSize :=
    Nat.not_lt.mpr fits
  rw [SenderPc.start_of_le fits]
  simp only [senderSwitch, senderPublicKeyCase, sendPublicKey, large, if_false]
  exact ⟨_, obs ++ [.printed (.cout "[Sender] Send public key\n")], rfl, by
    simpa [SenderPoint.todo, SenderPc.todo] using shown⟩

/-- On the way to its first message the sender prints what is to come, -/
theorem SenderPoint.Shown.of_starting (here : pt.Starting d) (h : pt.Shown σ cfg p)
    (step : Machine.Step Proc.next p e p')
    (answer : Answered (channelService ι B) (Policy.honest ι d enter) k .sender ch e.1 e.2 ch'
      recs) :
    ∃ pt', Machine.Step (SenderPoint.next cfg) pt e pt' ∧ pt'.Shown σ cfg p' := by
  obtain ⟨op, r⟩ := e
  obtain ⟨pk, obs, rfl, shown⟩ := h
  obtain ⟨next, waiting, rfl⟩ := step
  cases pt with
  | openSR =>
      cases waiting
      cases answer with
      | mqOpen opens => exact ⟨_, ⟨_, rfl, rfl⟩, _, _, rfl, shown⟩
      | mqOpenFails fails => exact fails.elim
      | botan is answers => cases is
  | openRS sr =>
      cases waiting
      cases answer with
      | mqOpen opens =>
          refine ⟨_, ⟨_, rfl, rfl⟩, _, _, rfl, ?_⟩
          simpa [SenderPoint.todo, Script.senderTranscript] using shown
      | mqOpenFails fails => exact fails.elim
      | botan is answers => cases is
  | rng sr rs =>
      cases waiting
      cases answer with
      | botan is answers =>
          cases answers
          exact ⟨_, ⟨_, rfl, rfl⟩, _, _, rfl, shown⟩
  | keygen sr rs =>
      cases waiting
      cases answer with
      | botan is answers =>
          cases answers
          refine ⟨_, ⟨_, rfl, rfl⟩, _, _, rfl, ?_⟩
          simpa [SenderPoint.todo, Script.keyLines] using shown
  | randomize sr rs sk =>
      cases waiting
      cases answer with
      | botan is answers =>
          obtain ⟨bytes, answers, -⟩ := answers
          cases answers
          exact ⟨_, ⟨_, rfl, rfl⟩, SenderPc.shown_start ⟨sr, rs, sk, bytes.val⟩ _ _ shown⟩
  | run v pc =>
      cases pc with
      | sendKey =>
          obtain ⟨sr, rs, sk, key⟩ := v
          obtain rfl : sk = d.privateKey := here
          cases waiting
          cases answer with
          | mqSend fits sends =>
              refine ⟨_, ⟨_, rfl, rfl⟩, _, _, rfl, ?_⟩
              simpa [SenderPoint.todo, SenderPc.todo, Script.sentLines, Script.publicKey]
                using shown
          | mqSendFails fails => exact fails.elim
          | botan is answers => cases is
      | _ => exact here.elim
  | openFailed name => cases waiting
  | threw key e => cases waiting

/-- and when it reads the encrypted key, -/
theorem SenderPoint.Shown.of_waiting (here : pt.Waiting d) (h : pt.Shown σ cfg p)
    (reads : ∀ m ∈ readAt .receiveSymmetricKey recs, m = σ.cipher)
    (step : Machine.Step Proc.next p e p')
    (answer : Answered (channelService ι B) (Policy.honest ι d enter) k .sender ch e.1 e.2 ch'
      recs) :
    ∃ pt', Machine.Step (SenderPoint.next cfg) pt e pt' ∧ pt'.Shown σ cfg p' := by
  obtain ⟨op, r⟩ := e
  obtain ⟨pk, obs, rfl, shown⟩ := h
  cases pt with
  | run v pc =>
      cases pc with
      | recvKey =>
          have unfolded : (SenderPc.recvKey : SenderPc B).prog cfg v =
              ((receiveSymmetricKey (some v.rs) v.privateKey).bind
                fun _ => senderPeriodicCase cfg (some v.sr)).bind
                  (senderEnd (some v.sr) (some v.rs)) := rfl
          simp only [SenderPoint.prog, unfolded, receiveSymmetricKey_eq] at step
          obtain ⟨next, waiting, rfl⟩ := step
          cases waiting
          cases answer with
          | mqReceive receives =>
              have cipher := reads _ (List.mem_singleton_self _)
              refine ⟨_, ⟨_, rfl, rfl⟩, _, _, rfl, ?_⟩
              simpa [SenderPoint.todo, SenderPc.todo, Script.receivedLines, cipher] using shown
          | mqReceiveFails fails => exact fails.elim
          | botan is answers => cases is
      | _ => exact here.elim
  | _ => exact here.elim

/-- and when it unwraps it, -/
theorem SenderPoint.Shown.of_installing (here : pt.Installing d σ.cipher) (h : pt.Shown σ cfg p)
    (step : Machine.Step Proc.next p e p')
    (answer : Answered (channelService ι B) (Policy.honest ι d enter) k .sender ch e.1 e.2 ch'
      recs) :
    ∃ pt', Machine.Step (SenderPoint.next cfg) pt e pt' ∧ pt'.Shown σ cfg p' := by
  obtain ⟨op, r⟩ := e
  obtain ⟨pk, obs, rfl, shown⟩ := h
  obtain ⟨next, waiting, rfl⟩ := step
  cases pt with
  | run v pc =>
      cases pc with
      | rngKey m =>
          cases waiting
          cases answer with
          | botan is answers =>
              cases answers
              exact ⟨_, ⟨_, rfl, rfl⟩, _, _, rfl, shown⟩
      | decrypt m =>
          obtain ⟨sk, rfl⟩ := here
          cases waiting
          cases answer with
          | botan is answers =>
              have value : r = B.decrypt v.privateKey σ.cipher.val := answers
              rw [sk, σ.decrypt_cipher] at value
              cases value
              refine ⟨_, ⟨_, rfl, rfl⟩, _, _, rfl, ?_⟩
              simpa [SenderPoint.todo, SenderPc.todo, Script.unwrappedLines, d.sessionKey.property]
                using shown
      | _ => exact here.elim
  | _ => exact here.elim

/-- The loop over the frames, wherever it stands. -/
theorem SenderPc.shown_loop (v : SenderVars B) (n i : ℕ) (pk : Option (PublicKey B.Pub))
    (obs : List (Obs B))
    (shown : terminal obs ++ σ.streamingLines n i =
      σ.senderTranscript cfg.numMessagesToSend) :
    (SenderPoint.run v (.loop n i)).Shown σ cfg
      (((sendLoop (some v.sr) n i (bufferBefore v.key i) ⟨v.key, []⟩).bind
        (senderEnd (some v.sr) (some v.rs))).settle ⟨pk, v.key, obs⟩) := by
  refine ⟨pk, obs, SenderPc.settle_loop cfg v n i _, ?_⟩
  rw [SenderPoint.todo, SenderPc.todo_loop]
  exact shown

/-- and when it sends its frames, to the end. -/
theorem SenderPoint.Shown.of_streaming {i : ℕ}
    (here : pt.Streaming d cfg.numMessagesToSend i) (h : pt.Shown σ cfg p)
    (step : Machine.Step Proc.next p e p')
    (answer : Answered (channelService ι B) (Policy.honest ι d enter) k .sender ch e.1 e.2 ch'
      recs) :
    ∃ pt', Machine.Step (SenderPoint.next cfg) pt e pt' ∧ pt'.Shown σ cfg p' := by
  obtain ⟨op, r⟩ := e
  obtain ⟨pk, obs, rfl, shown⟩ := h
  cases pt with
  | run v pc =>
      cases pc with
      | setKey =>
          obtain ⟨key, rfl⟩ := here
          obtain ⟨next, waiting, rfl⟩ := step
          cases waiting
          cases answer with
          | botan is answers =>
              have value : r = if v.key.length = kSymKeySize then .ok () else
                .error .invalidKeyLength := answers
              rw [key, if_pos d.sessionKey.property] at value
              cases value
              exact ⟨_, ⟨_, rfl, rfl⟩, SenderPc.shown_loop v _ 0 pk obs shown⟩
      | frame j n =>
          obtain ⟨key, rfl, count⟩ := here
          have unfolded : (SenderPc.frame i n : SenderPc B).prog cfg v =
              (sendLoop (some v.sr) (n + 1) i (bufferBefore v.key i) ⟨v.key, []⟩).bind
                (senderEnd (some v.sr) (some v.rs)) := rfl
          simp only [SenderPoint.prog, unfolded, sendLoop_succ] at step
          obtain ⟨next, waiting, rfl⟩ := step
          cases waiting
          cases answer with
          | mqSend fits sends =>
              refine ⟨_, ⟨_, rfl, rfl⟩, SenderPc.shown_loop v n (i + 1) pk _ ?_⟩
              simpa [SenderPoint.todo, SenderPc.todo, σ.streamingLines_succ, Script.frameLines,
                key] using shown
          | mqSendFails fails => exact fails.elim
          | botan is answers => cases is
      | closeSR status =>
          obtain ⟨next, waiting, rfl⟩ := step
          cases waiting
          exact ⟨_, ⟨_, rfl, rfl⟩, _, _, rfl, shown⟩
      | closeRS status =>
          obtain ⟨next, waiting, rfl⟩ := step
          cases waiting
          exact ⟨_, ⟨_, rfl, rfl⟩, _, _, rfl, by simpa [SenderPoint.todo, SenderPc.todo,
            Script.streamingLines] using shown⟩
      | enter status =>
          obtain ⟨next, waiting, rfl⟩ := step
          cases waiting
          exact ⟨_, ⟨_, rfl, rfl⟩, _, _, rfl, shown⟩
      | unlinkRS status =>
          obtain ⟨next, waiting, rfl⟩ := step
          cases waiting
          exact ⟨_, ⟨_, rfl, rfl⟩, _, _, rfl, shown⟩
      | unlinkSR status =>
          obtain ⟨next, waiting, rfl⟩ := step
          cases waiting
          exact ⟨_, ⟨_, rfl, rfl⟩, _, _, rfl, shown⟩
      | returned status =>
          obtain ⟨next, waiting, rfl⟩ := step
          cases waiting
      | _ => exact here.elim
  | _ => exact here.elim

end Steps

end Sender

/-! ## The receiver's transcript -/

section Receiver

variable {d : Draws B} (σ : Script d)

/-- The lines about a frame. -/
def Script.roundLines (_ : Script d) (i : ℕ) : List (Line B) :=
  [.counted "[Receiver] Received " (kBufferSize + kCmacSize) " bytes \n",
    .hex "[Receiver]" (frameBytes d.sessionKey.val i),
    .cout "[Receiver] Received CMAC\n",
    .hex "[Receiver]" (B.cmac d.sessionKey.val (framePayload i)),
    .cout "[Receiver] Calculated CMAC of the received message\n",
    .hex "[Receiver]" (B.cmac d.sessionKey.val (framePayload i)),
    verificationSucceeded]

/-- The lines about the key sent. -/
def Script.answeredLines : List (Line B) :=
  [.counted "[Receiver] Sent encrypted symmetric key (" σ.cipher.val.length " bytes)\n",
    .cout "[Receiver] Receive periodic messages\n"]

/-- The lines about the key encrypted. -/
def Script.encryptedLines : List (Line B) :=
  [.cout "[Receiver] Encrypted symmetric key with RSA public key\n",
    .hex "[Receiver]" σ.cipher.val] ++ σ.answeredLines

/-- The lines about the key drawn. -/
def Script.derivedLines : List (Line B) :=
  [.cout "[Receiver] Derived symmetric key\n", .hex "[Receiver]" d.sessionKey.val] ++
    σ.encryptedLines

/-- The lines about the public key decoded. -/
def Script.loadedLines : List (Line B) :=
  [.cout "[Receiver] Received RSA Public Key in PEM format\n",
    .publicPem (.rsa (B.publicKey d.privateKey)),
    .cout "[Receiver] Send symmetric key\n"] ++ σ.derivedLines

/-- The lines about the public key read. -/
def Script.publicKeyLines : List (Line B) :=
  [.counted "[Receiver] Received public key (" σ.publicKey.val.length " bytes)\n",
    .cout "[Receiver] The received public key raw data \n",
    .hex "[Receiver]" σ.publicKey.val] ++ σ.loadedLines

/-- What the receiver prints before its loop. -/
def Script.handshakeLines : List (Line B) :=
  [.cout "[Receiver] Starting receiver in 5 seconds...\n", .cout "[Receiver] Running...\n",
    .cout "[Receiver] Wait for public key...\n"] ++ σ.publicKeyLines

/-- **All that the receiver prints** when it has read `j` frames. -/
def Script.receiverTranscript (j : ℕ) : List (Line B) :=
  σ.handshakeLines ++ (List.range j).flatMap σ.roundLines

theorem Script.receiverTranscript_succ (j : ℕ) :
    σ.receiverTranscript (j + 1) = σ.receiverTranscript j ++ σ.roundLines j := by
  simp [receiverTranscript, List.range_succ]

/-- Of what is printed before the loop, what is still to come. -/
def ReceiverPoint.todo : ReceiverPoint B → List (Line B)
  | .openRS => σ.handshakeLines
  | .openSR _ => σ.handshakeLines
  | .run _ .recvKey => σ.publicKeyLines
  | .run _ (.loadKey _) => σ.loadedLines
  | .run _ .rng => σ.derivedLines
  | .run _ .randomize => σ.derivedLines
  | .run _ (.encrypt _) => σ.encryptedLines
  | .run _ (.sendKey _) => σ.answeredLines
  | _ => []

/-- The process waits at the point and has printed what was not still to come. -/
def ReceiverPoint.Shown (cfg : Config) (pt : ReceiverPoint B) (p : Process B) : Prop :=
  ∃ obs, p = (pt.prog cfg).settle ⟨pt.publicKey, pt.key, obs⟩ ∧
    terminal obs ++ pt.todo σ = σ.receiverTranscript pt.compared.length

section Steps

variable {σ} {ι : Type} {cfg : Config} {enter : Prop} {k : ι} {ch ch' : Channels ι B}
  {recs : List (Rec ι B)} {e : Event (Op B) Op.Resp} {pt : ReceiverPoint B} {p p' : Process B}

/-- On the way to its first message the receiver prints what is to come, -/
theorem ReceiverPoint.Shown.of_starting (here : pt.Starting) (h : pt.Shown σ cfg p)
    (reads : ∀ m ∈ readAt .getPublicKey recs, m = σ.publicKey)
    (step : Machine.Step Proc.next p e p')
    (answer : Answered (channelService ι B) (Policy.honest ι d enter) k .receiver ch e.1 e.2 ch'
      recs) :
    ∃ pt', Machine.Step (ReceiverPoint.next cfg) pt e pt' ∧ pt'.Shown σ cfg p' := by
  obtain ⟨op, r⟩ := e
  obtain ⟨obs, rfl, shown⟩ := h
  cases pt with
  | openRS =>
      obtain ⟨next, waiting, rfl⟩ := step
      cases waiting
      cases answer with
      | mqOpen opens => exact ⟨_, ⟨_, rfl, rfl⟩, _, rfl, shown⟩
      | mqOpenFails fails => exact fails.elim
      | botan is answers => cases is
  | openSR rs =>
      obtain ⟨next, waiting, rfl⟩ := step
      cases waiting
      cases answer with
      | mqOpen opens =>
          refine ⟨_, ⟨_, rfl, rfl⟩, _, rfl, ?_⟩
          simpa [ReceiverPoint.todo, Script.handshakeLines, ReceiverPoint.compared,
            ReceiverVars.start] using shown
      | mqOpenFails fails => exact fails.elim
      | botan is answers => cases is
  | run v pc =>
      cases pc with
      | recvKey =>
          have unfolded : (ReceiverPc.recvKey : ReceiverPc B).prog v =
              ((getPublicKey (some v.sr)).bind
                fun _ => receiverSymKeyCase (some v.rs) (some v.sr)).bind
                  (receiverEnd (some v.rs) (some v.sr)) := rfl
          simp only [ReceiverPoint.prog, unfolded, getPublicKey_eq] at step
          obtain ⟨next, waiting, rfl⟩ := step
          cases waiting
          cases answer with
          | mqReceive receives =>
              have publicKey := reads _ (List.mem_singleton_self _)
              refine ⟨_, ⟨_, rfl, rfl⟩, _, rfl, ?_⟩
              simpa [ReceiverPoint.todo, Script.publicKeyLines, publicKey] using shown
          | mqReceiveFails fails => exact fails.elim
          | botan is answers => cases is
      | _ => exact here.elim
  | _ => exact here.elim

/-- and when it answers, -/
theorem ReceiverPoint.Shown.of_answering (here : pt.Answering d σ.publicKey σ.cipher)
    (h : pt.Shown σ cfg p) (step : Machine.Step Proc.next p e p')
    (answer : Answered (channelService ι B) (Policy.honest ι d enter) k .receiver ch e.1 e.2 ch'
      recs) :
    ∃ pt', Machine.Step (ReceiverPoint.next cfg) pt e pt' ∧ pt'.Shown σ cfg p' := by
  obtain ⟨op, r⟩ := e
  obtain ⟨obs, rfl, shown⟩ := h
  obtain ⟨next, waiting, rfl⟩ := step
  cases pt with
  | run v pc =>
      cases pc with
      | loadKey m =>
          obtain ⟨rfl, size, none⟩ := here
          cases waiting
          cases answer with
          | botan is answers =>
              have value : r = B.loadKey σ.publicKey.val := answers
              rw [Script.publicKey, σ.lawful.loadKey_subjectPublicKey] at value
              cases value
              refine ⟨_, ⟨_, rfl, rfl⟩, _, rfl, ?_⟩
              simpa [ReceiverPoint.todo, Script.loadedLines] using shown
      | rng =>
          cases waiting
          cases answer with
          | botan is answers =>
              cases answers
              exact ⟨_, ⟨_, rfl, rfl⟩, _, rfl, shown⟩
      | randomize =>
          obtain ⟨sr, rs, pk, key, compared⟩ := v
          obtain ⟨rfl, size, none⟩ := here
          cases waiting
          cases answer with
          | botan is answers =>
              obtain ⟨bytes, answers, value⟩ := answers
              cases answers
              refine ⟨_, ⟨_, rfl, rfl⟩, _, rfl, ?_⟩
              simpa [ReceiverPoint.todo, ReceiverPc.deref, Script.derivedLines, value] using shown
      | encrypt key =>
          obtain ⟨rfl, key, none⟩ := here
          cases waiting
          cases answer with
          | botan is answers =>
              have value : r = B.encrypt (B.publicKey d.privateKey) d.seed v.key := answers
              rw [key, σ.encrypted] at value
              cases value
              refine ⟨_, ⟨_, rfl, rfl⟩, _, rfl, ?_⟩
              simpa [ReceiverPoint.todo, Script.encryptedLines] using shown
      | sendKey c =>
          obtain ⟨rfl, key, none⟩ := here
          cases waiting
          cases answer with
          | mqSend fits sends =>
              refine ⟨_, ⟨_, rfl, rfl⟩, _, rfl, ?_⟩
              simpa [ReceiverPoint.todo, Script.answeredLines] using shown
          | mqSendFails fails => exact fails.elim
          | botan is answers => cases is
      | _ => exact here.elim
  | _ => exact here.elim

/-- A round of the loop prints the lines about its frame. -/
theorem Script.terminal_roundObs {key : List B.Byte} (is : key = d.sessionKey.val)
    (buffer : List B.Byte) (i : ℕ) :
    terminal (roundObs key buffer (σ.frame i)) = σ.roundLines i := by
  have size : (σ.frame i).val.length = kBufferSize + kCmacSize := length_frameBytes _ i
  have accepted := σ.frame_matches i
  obtain ⟨payload, tag⟩ := frameBytes_split d.sessionKey.val i
  have isTag : tagOf (σ.frame i).val = B.cmac d.sessionKey.val (framePayload i) := tag
  have isPayload : payloadOf (σ.frame i).val = framePayload i := payload
  subst is
  simp [roundObs, verdictObs, accepted, roundLines, isTag, isPayload, size]
  rfl

/-- and when it reads its frames. -/
theorem ReceiverPoint.Shown.of_listening {j : ℕ} (here : pt.Listening d σ.frame j)
    (h : pt.Shown σ cfg p)
    (reads : ∀ m, readAt .receivePeriodicMessages recs = [m] → m = σ.frame j)
    (step : Machine.Step Proc.next p e p')
    (answer : Answered (channelService ι B) (Policy.honest ι d enter) k .receiver ch e.1 e.2 ch'
      recs) :
    ∃ pt', Machine.Step (ReceiverPoint.next cfg) pt e pt' ∧ pt'.Shown σ cfg p' := by
  obtain ⟨op, r⟩ := e
  obtain ⟨obs, rfl, shown⟩ := h
  cases pt with
  | run v pc =>
      cases pc with
      | setKey =>
          obtain ⟨key, none, rfl⟩ := here
          obtain ⟨next, waiting, rfl⟩ := step
          cases waiting
          cases answer with
          | botan is answers =>
              have value : r = if v.key.length = kSymKeySize then .ok () else
                .error .invalidKeyLength := answers
              rw [key, if_pos d.sessionKey.property] at value
              cases value
              exact ⟨_, ⟨_, rfl, rfl⟩, _, rfl, shown⟩
      | loop buffer =>
          obtain ⟨key, compared⟩ := here
          have waits : op = .mqReceive .receivePeriodicMessages (some v.sr) := by
            obtain ⟨next, waiting, -⟩ := step
            cases waiting
            rfl
          subst waits
          cases answer with
          | mqReceive receives =>
              have frame := reads _ rfl
              have long : kCmacSize ≤ (σ.frame j).val.length := by
                have size : (σ.frame j).val.length = kBufferSize + kCmacSize :=
                  length_frameBytes _ j
                omega
              rw [frame] at step
              have round := loopAt_step_long (some v.sr)
                (fun _ => receiverEnd (some v.rs) (some v.sr) kOK) v.key buffer
                ⟨v.publicKey, v.key, obs⟩ (σ.frame j) long
              have there : (ReceiverPoint.receive v buffer (σ.frame j)).Shown σ cfg p' := by
                rw [σ.receive_frame v key]
                refine ⟨_, step.unique round, ?_⟩
                have count : v.compared.length = j := by simp [compared]
                have printed := σ.terminal_roundObs key buffer j
                simp only [ReceiverPoint.todo, ReceiverPoint.compared, count,
                  List.append_nil] at shown
                simp [ReceiverPoint.todo, ReceiverPoint.compared, count, printed, shown,
                  σ.receiverTranscript_succ]
              rw [frame]
              exact ⟨_, ⟨_, rfl, rfl⟩, there⟩
          | mqReceiveFails fails => exact fails.elim
          | botan is answers => cases is
      | _ => exact here.elim
  | _ => exact here.elim

end Steps

end Receiver

/-! ## Whole runs -/

section Runs

variable {ι : Type} {d : Draws B} (σ : Script d) {cfg : Config} {enter : Prop} {k : ι}

@[simp] theorem readAt_append (site : Site) (log log' : List (Rec ι B)) :
    readAt site (log ++ log') = readAt site log ++ readAt site log' := List.filterMap_append

/-- Where the sender of an honest session can be. -/
def SenderPoint.OnScript (N : ℕ) (pt : SenderPoint B) : Prop :=
  pt.Starting d ∨ pt.Waiting d ∨ pt.Installing d σ.cipher ∨ ∃ i, pt.Streaming d N i

/-- Where the receiver can be when it has read `j` frames. -/
def ReceiverPoint.OnScript (j : ℕ) (pt : ReceiverPoint B) : Prop :=
  pt.Starting ∧ j = 0 ∨ pt.Answering d σ.publicKey σ.cipher ∧ j = 0 ∨
    pt.Listening d σ.frame j

/-- The receiver has read what an honest session sends it. -/
structure ReadsScript (log : List (Rec ι B)) : Prop where
  publicKey : ∀ m ∈ readAt .getPublicKey log, m = σ.publicKey
  frames : ∃ j, readAt .receivePeriodicMessages log = (List.range j).map σ.frame

variable {σ}

theorem ReadsScript.front {log log' : List (Rec ι B)} (reads : ReadsScript σ (log ++ log')) :
    ReadsScript σ log where
  publicKey m inside := reads.publicKey m (by simp [inside])
  frames := by
    obtain ⟨j, is⟩ := reads.frames
    rw [readAt_append] at is
    refine ⟨(readAt .receivePeriodicMessages log).length, ?_⟩
    have start := congrArg (List.take (readAt .receivePeriodicMessages log).length) is
    rw [List.take_left, ← List.map_take, List.take_range] at start
    have count := congrArg List.length is
    simp only [List.length_append, List.length_map, List.length_range] at count
    rwa [Nat.min_eq_left (by omega)] at start

/-- The next frame read is the next of the script. -/
theorem ReadsScript.next {log log' : List (Rec ι B)} (reads : ReadsScript σ (log ++ log'))
    {m : Message B} (is : readAt .receivePeriodicMessages log' = [m]) :
    m = σ.frame (readAt .receivePeriodicMessages log).length := by
  obtain ⟨j, all⟩ := reads.frames
  rw [readAt_append, is] at all
  have count := congrArg List.length all
  simp only [List.length_append, List.length_map, List.length_range, List.length_singleton] at count
  have here := congrArg (fun l => l[(readAt .receivePeriodicMessages log).length]?) all
  simpa [← count] using here

/-- A step of the sender prints what is to come. -/
theorem SenderPoint.Shown.step {pt : SenderPoint B} {p p' : Process B}
    {e : Event (Op B) Op.Resp} {ch ch' : Channels ι B} {recs : List (Rec ι B)}
    (here : pt.OnScript σ cfg.numMessagesToSend) (h : pt.Shown σ cfg p)
    (reads : ∀ m ∈ readAt .receiveSymmetricKey recs, m = σ.cipher)
    (step : Machine.Step Proc.next p e p')
    (answer : Answered (channelService ι B) (Policy.honest ι d enter) k .sender ch e.1 e.2 ch'
      recs) :
    ∃ pt' : SenderPoint B, pt'.OnScript σ cfg.numMessagesToSend ∧ pt'.Shown σ cfg p' := by
  rcases here with starting | waiting | installing | ⟨i, streaming⟩
  · obtain ⟨pt', next, shown⟩ := h.of_starting starting step answer
    obtain ⟨still, -⟩ | ⟨sent, -⟩ := (senderMove_of_step next answer).of_starting σ starting
    · exact ⟨pt', .inl still, shown⟩
    · exact ⟨pt', .inr (.inl sent), shown⟩
  · obtain ⟨pt', next, shown⟩ := h.of_waiting waiting reads step answer
    obtain ⟨e, rest, -, there, rfl, -⟩ := (senderMove_of_step next answer).of_waiting waiting
    rw [reads e.bytes (List.mem_singleton_self _)] at there
    exact ⟨pt', .inr (.inr (.inl there)), shown⟩
  · obtain ⟨pt', next, shown⟩ := h.of_installing installing step answer
    obtain ⟨still | streaming, -⟩ := (senderMove_of_step next answer).of_installing σ installing
    · exact ⟨pt', .inr (.inr (.inl still)), shown⟩
    · exact ⟨pt', .inr (.inr (.inr ⟨0, streaming⟩)), shown⟩
  · obtain ⟨pt', next, shown⟩ := h.of_streaming streaming step answer
    obtain ⟨still, -⟩ | ⟨sent, -⟩ := (senderMove_of_step next answer).of_streaming σ streaming
    · exact ⟨pt', .inr (.inr (.inr ⟨i, still⟩)), shown⟩
    · exact ⟨pt', .inr (.inr (.inr ⟨i + 1, sent⟩)), shown⟩

/-- A step of the receiver prints what is to come. -/
theorem ReceiverPoint.Shown.step {pt : ReceiverPoint B} {p p' : Process B}
    {e : Event (Op B) Op.Resp} {ch ch' : Channels ι B} {log recs : List (Rec ι B)}
    (here : pt.OnScript σ (readAt .receivePeriodicMessages log).length)
    (h : pt.Shown σ cfg p) (reads : ReadsScript σ (log ++ recs))
    (step : Machine.Step Proc.next p e p')
    (answer : Answered (channelService ι B) (Policy.honest ι d enter) k .receiver ch e.1 e.2 ch'
      recs) :
    ∃ pt' : ReceiverPoint B,
      pt'.OnScript σ (readAt .receivePeriodicMessages (log ++ recs)).length ∧
        pt'.Shown σ cfg p' := by
  have publicKey : ∀ m ∈ readAt .getPublicKey recs, m = σ.publicKey := fun m inside =>
    reads.publicKey m (by simp [inside])
  rcases here with ⟨starting, none⟩ | ⟨answering, none⟩ | listening
  · obtain ⟨pt', next, shown⟩ := h.of_starting starting publicKey step answer
    obtain ⟨still, -, nothing⟩ | ⟨e, rest, -, there, rfl, -⟩ :=
      (receiverMove_of_step next answer).of_starting σ starting
    · rw [readAt_append, ← readAt_exchanges _ recs, nothing]
      exact ⟨pt', .inl ⟨still, by simpa [readAt] using none⟩, shown⟩
    · have answering := there (publicKey e.bytes (List.mem_singleton_self _))
      exact ⟨pt', .inr (.inl ⟨answering, by simpa [readAt] using none⟩), shown⟩
  · obtain ⟨pt', next, shown⟩ := h.of_answering answering step answer
    obtain ⟨still, -, rfl⟩ | ⟨answered, rfl, -⟩ :=
      (receiverMove_of_step next answer).of_answering σ answering
    · exact ⟨pt', .inr (.inl ⟨still, by simpa using none⟩), shown⟩
    · rw [readAt_append, List.length_append, none]
      exact ⟨pt', .inr (.inr answered), shown⟩
  · obtain ⟨pt', next, shown⟩ :=
      h.of_listening listening (fun _ => reads.next) step answer
    obtain ⟨still, -, rfl⟩ | ⟨e, rest, -, there, rfl, -⟩ :=
      (receiverMove_of_step next answer).of_listening σ listening
    · exact ⟨pt', .inr (.inr (by simpa using still)), shown⟩
    · have listening := there (reads.next rfl)
      exact ⟨pt', .inr (.inr (by simpa [readAt] using listening)), shown⟩

theorem SenderPoint.Shown.at_point {pt : SenderPoint B} {p : Process B}
    (h : pt.Shown σ cfg p) : pt.At cfg p := by
  obtain ⟨pk, obs, is, -⟩ := h
  exact ⟨pk, obs, is⟩

/-- What the receiver has printed, it being in an honest session. -/
theorem ReceiverPoint.Shown.terminal_eq {pt : ReceiverPoint B} {p : Process B} {j : ℕ}
    (here : pt.OnScript σ j) (h : pt.Shown σ cfg p) :
    terminal p.mem.observed ++ pt.todo σ = σ.receiverTranscript j := by
  obtain ⟨obs, rfl, shown⟩ := h
  have compared : pt.compared.length = j := by
    rcases here with ⟨starting, rfl⟩ | ⟨answering, rfl⟩ | listening
    · simp [starting.compared_eq]
    · simp [answering.compared_eq]
    · simp [listening.compared_eq]
  rw [← compared, ← shown]
  cases pt with
  | run v pc =>
      cases pc with
      | enter status => obtain ⟨none, -⟩ | ⟨none, -⟩ | none := here <;> exact none.elim
      | _ => rfl
  | _ => rfl

theorem SenderPoint.Streaming.le {pt : SenderPoint B} {N i : ℕ} (here : pt.Streaming d N i) :
    i ≤ N := by
  cases pt with
  | run v pc =>
      cases pc with
      | setKey => exact here.2 ▸ Nat.zero_le N
      | frame j n =>
          obtain ⟨-, rfl, count⟩ := here
          omega
      | _ => first | exact here.2.le | exact here.elim
  | _ => exact here.elim

/-- The frames read are the first of the script. -/
theorem Session.Phase.frames_read {N : ℕ} {s : Session ι B} (h : s.Phase N σ k) :
    ∃ j, j ≤ N ∧ readAt .receivePeriodicMessages s.receiverLog = (List.range j).map σ.frame := by
  rw [← readAt_exchanges _ s.receiverLog]
  cases h with
  | start sender receiver sr rs sl rl => exact ⟨0, by omega, by simp [rl, readAt]⟩
  | keySent sender receiver sr rs sl rl => exact ⟨0, by omega, by simp [rl, readAt]⟩
  | answering sender receiver sr rs sl rl => exact ⟨0, by omega, by simp [rl, readAt]⟩
  | answered sender receiver sr rs sl rl =>
      exact ⟨0, by omega, by simp [rl, σ.readAt_receiverRecs]⟩
  | streaming j n sender receiver sr rs sl rl =>
      refine ⟨j, ?_, by simp [rl, σ.readAt_receiverRecs]⟩
      rcases sender with ⟨-, count⟩ | streaming
      · omega
      · have count := SenderPoint.Streaming.le streaming
        omega

/-- A receiver that waits for a frame has printed all that comes before it. -/
theorem ReceiverPoint.Shown.todo_of_listening {pt : ReceiverPoint B} {p : Process B} {mq : Mqd}
    {next : Option (Message B) → Process B} (h : pt.Shown σ cfg p)
    (waiting : p.next = some ⟨.mqReceive .receivePeriodicMessages mq, next⟩) :
    pt.todo σ = [] := by
  obtain ⟨obs, rfl, -⟩ := h
  cases pt with
  | run v pc =>
      cases pc with
      | recvKey =>
          have unfolded : (ReceiverPc.recvKey : ReceiverPc B).prog v =
              ((getPublicKey (some v.sr)).bind
                fun _ => receiverSymKeyCase (some v.rs) (some v.sr)).bind
                  (receiverEnd (some v.rs) (some v.sr)) := rfl
          simp only [ReceiverPoint.prog, unfolded, getPublicKey_eq] at waiting
          cases waiting
      | loadKey m => cases waiting
      | rng => cases waiting
      | randomize => cases waiting
      | encrypt key => cases waiting
      | sendKey c => cases waiting
      | _ => rfl
  | openRS => cases waiting
  | openSR rs => cases waiting
  | _ => rfl

section Reached

variable [LinearOrder ι] {κ₀ : Kernel QueueName (Entry ι B)} {w : SessionsWorld ι B}
  {ds : ι → Draws B}

/-- A sender that has read nothing but the encrypted key is where its terminal says. -/
theorem exists_sender_shown
    (reach : (sessionsEach fun k => Policy.honest ι (ds k) enter).Reachable
      (sessionsStart cfg κ₀) w) (k : ι) (σ : Script (ds k))
    (reads : ∀ m ∈ readAt .receiveSymmetricKey (w.log (k, .sender)), m = σ.cipher) :
    ∃ pt : SenderPoint B, pt.OnScript σ cfg.numMessagesToSend ∧
      pt.Shown σ cfg (w.procs (k, .sender)) := by
  revert reads
  refine invariant reach (I := fun w =>
    (∀ m ∈ readAt .receiveSymmetricKey (w.log (k, .sender)), m = σ.cipher) →
      ∃ pt : SenderPoint B, pt.OnScript σ cfg.numMessagesToSend ∧
        pt.Shown σ cfg (w.procs (k, .sender))) ?_ ?_
  · intro _
    exact ⟨.openSR, .inl trivial, none, [], rfl, rfl⟩
  · intro w w' _ holds step reads
    cases step with
    | move intruded => exact holds reads
    | @act pid e p env recs may step answer =>
        by_cases mine : (k, Role.sender) = pid
        · subst mine
          simp only [Function.update_self, readAt_append, List.mem_append] at reads ⊢
          obtain ⟨pt, here, shown⟩ := holds fun m inside => reads m (.inl inside)
          obtain ⟨ch, ch', answer'⟩ := answer.exists_channels
          exact shown.step here (fun m inside => reads m (.inr inside)) step answer'
        · simp only [Function.update_of_ne mine] at reads ⊢
          exact holds reads

/-- A receiver that has read what the script has is where its terminal says. -/
theorem exists_receiver_shown
    (reach : (sessionsEach fun k => Policy.honest ι (ds k) enter).Reachable
      (sessionsStart cfg κ₀) w) (k : ι) (σ : Script (ds k))
    (reads : ReadsScript σ (w.log (k, .receiver))) :
    ∃ pt : ReceiverPoint B,
      pt.OnScript σ (readAt .receivePeriodicMessages (w.log (k, .receiver))).length ∧
        pt.Shown σ cfg (w.procs (k, .receiver)) := by
  revert reads
  refine invariant reach (I := fun w => ReadsScript σ (w.log (k, .receiver)) →
    ∃ pt : ReceiverPoint B,
      pt.OnScript σ (readAt .receivePeriodicMessages (w.log (k, .receiver))).length ∧
        pt.Shown σ cfg (w.procs (k, .receiver))) ?_ ?_
  · intro _
    exact ⟨.openRS, .inl ⟨trivial, rfl⟩, [], rfl, by
      simp [ReceiverPoint.todo, Script.receiverTranscript, ReceiverPoint.compared]⟩
  · intro w w' _ holds step reads
    cases step with
    | move intruded => exact holds reads
    | @act pid e p env recs may step answer =>
        by_cases mine : (k, Role.receiver) = pid
        · subst mine
          simp only [Function.update_self] at reads ⊢
          obtain ⟨pt, here, shown⟩ := holds reads.front
          obtain ⟨ch, ch', answer'⟩ := answer.exists_channels
          exact shown.step here reads step answer'
        · simp only [Function.update_of_ne mine] at reads ⊢
          exact holds reads

/-- What an honest session reads is what its script has. -/
theorem exists_reads (empty : ∀ o, κ₀.queue o = [])
    (reach : (sessionsEach fun k => Policy.honest ι (ds k) enter).Reachable
      (sessionsStart cfg κ₀) w) (k : ι) (σ : Script (ds k)) :
    (∀ m ∈ readAt .receiveSymmetricKey (w.log (k, .sender)), m = σ.cipher) ∧
      ReadsScript σ (w.log (k, .receiver)) ∧
      (readAt .receivePeriodicMessages (w.log (k, .receiver))).length ≤ cfg.numMessagesToSend := by
  obtain ⟨n, chain⟩ := exists_chain reach
  obtain ⟨s, -, h⟩ := exists_tracks (fun k => Policy.honest_isolating (ds k) enter) empty chain
  have phase := (h.reached k).phase σ
  obtain ⟨j, bound, frames⟩ := phase.frames_read
  rw [h.senderLog, h.receiverLog]
  refine ⟨fun m inside => ?_, ⟨phase.publicKey_read σ k, j, frames⟩, by simpa [frames] using bound⟩
  rw [(phase.symmetricKey_read σ k (List.ne_nil_of_mem inside)).1] at inside
  exact List.mem_singleton.mp inside

end Reached

end Runs

/-! ## The result -/

section Result

variable {ι : Type} {d : Draws B}

/-- How many frames a receiver has read. -/
def framesRead (log : List (Rec ι B)) : ℕ := (readAt .receivePeriodicMessages log).length

/-- **What the two terminals of a session show.** -/
structure Transcribed (σ : Script d) (N : ℕ) (k : ι) (w : SessionsWorld ι B) : Prop where
  sender : terminal (w.procs (k, .sender)).mem.observed <+: σ.senderTranscript N
  returned : Returned (w.procs (k, .sender)) →
    terminal (w.procs (k, .sender)).mem.observed = σ.senderTranscript N
  receiver : terminal (w.procs (k, .receiver)).mem.observed <+:
    σ.receiverTranscript (framesRead (w.log (k, .receiver)))
  /-- Each frame read has been reported before the next one is waited for. -/
  listening : ∀ mq next,
    (w.procs (k, .receiver)).next = some ⟨.mqReceive .receivePeriodicMessages mq, next⟩ →
      terminal (w.procs (k, .receiver)).mem.observed =
        σ.receiverTranscript (framesRead (w.log (k, .receiver)))
  counted : framesRead (w.log (k, .receiver)) ≤ N

/-- **In honest sessions the terminals show their transcripts**, each session its own:
whichever program runs first, and however the steps of a session interleave with those of
the receivers left over from the sessions before it. -/
theorem terminals_transcribed [LinearOrder ι] (ds : ι → Draws B) (σ : ∀ k, Script (ds k))
    (cfg : Config) (enter : Prop) (κ₀ : Kernel QueueName (Entry ι B))
    (empty : ∀ o, κ₀.queue o = []) (w : SessionsWorld ι B)
    (reach : (sessionsEach fun k => Policy.honest ι (ds k) enter).Reachable
      (sessionsStart cfg κ₀) w) (k : ι) :
    Transcribed (σ k) cfg.numMessagesToSend k w := by
  obtain ⟨cipher, reads, bound⟩ := exists_reads empty reach k (σ k)
  obtain ⟨spt, onScript, sShown⟩ := exists_sender_shown reach k (σ k) cipher
  obtain ⟨rpt, onScript', rShown⟩ := exists_receiver_shown reach k (σ k) reads
  have sender := sShown.terminal_eq
  have receiver := rShown.terminal_eq onScript'
  refine ⟨⟨_, sender⟩, fun returned => ?_, ⟨_, receiver⟩, fun mq next waiting => ?_, bound⟩
  · -- of the ends of the sender an honest session has one
    obtain ⟨status, is⟩ := returned
    have ended := (senderMain_bisimulation cfg).ended_left sShown.at_point
      (Proc.next_of_ret is)
    obtain ⟨v, status', rfl⟩ | ⟨name, rfl⟩ | ⟨key, e, rfl⟩ :=
      SenderPoint.ended_cases cfg ended
    · simpa [SenderPoint.todo, SenderPc.todo] using sender
    · obtain none | none | none | ⟨i, none⟩ := onScript <;> exact none.elim
    · obtain none | none | none | ⟨i, none⟩ := onScript <;> exact none.elim
  · rw [rShown.todo_of_listening waiting, List.append_nil] at receiver
    exact receiver

/-- Two sample sessions, each with its own session key, have run: both senders have
returned, both receivers have read every frame of their own session, and the four terminals
show all there is. -/
theorem terminals_transcribed_consecutive :
    ∃ (σ : ∀ k, Script (numberedDraws k)) (w : SessionsWorld ℕ sampleBotan), ∀ k, k < 2 →
      Transcribed (σ k) kNumMessagesToSend k w ∧ Returned (w.procs (k, .sender)) ∧
        framesRead (w.log (k, .receiver)) = kNumMessagesToSend := by
  obtain ⟨σ⟩ := Classical.nonempty_pi.mpr fun k =>
    exists_script sampleBotan_lawful (numberedDraws k)
  obtain ⟨w, reach, run⟩ := exists_consecutive
    (P := fun k => Policy.honest ℕ (numberedDraws k) True) .source σ
    (fun k => Policy.honest_honours ℕ (numberedDraws k) True) (fun _ => trivial) (by decide) 2
  refine ⟨σ, w, fun k earlier => ⟨terminals_transcribed numberedDraws σ .source True _
    (fun _ => rfl) w reach k, run.returned k earlier, ?_⟩⟩
  rw [framesRead, ← readAt_exchanges, run.read k earlier, Script.readAt_receiverRecs]
  rfl

end Result

end Transcripts

end SecureComm
