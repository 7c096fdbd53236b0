import Mathlib.Order.Nat
import Mathlib.Tactic.Common
import SecureComm.HonestSession
import SecureComm.Isolation

/-!
# Running a session

Runs of the sessions, made step by step.  A `Stage` is where one session stands: the
kernel, the points of its two programs and what they have on record.  A step from a
stage names the call the point waits in and answers it; the bisimulations turn it
into a step of the processes.

`Stage.Reached.handshake`, `.frames` and `.finish` drive a session from its start to
the sender's return, whatever draws it has and however many frames it sends.
-/

namespace SecureComm

open Interaction MessageQueue

section Stages

variable {ι : Type} {B : Botan}

/-- Where a session stands. -/
structure Stage (ι : Type) (B : Botan) where
  env : Kernel QueueName (Entry ι B)
  sender : SenderPoint B
  receiver : ReceiverPoint B
  senderLog : List (Rec ι B)
  receiverLog : List (Rec ι B)

/-- Nobody has moved. -/
def Stage.start (κ : Kernel QueueName (Entry ι B)) : Stage ι B := ⟨κ, .openSR, .openRS, [], []⟩

/-- Session `k` of a world stands there. -/
structure Stage.At (cfg : Config) (k : ι) (x : Stage ι B) (w : SessionsWorld ι B) : Prop where
  env : w.env = x.env
  sender : x.sender.At cfg (w.procs (k, .sender))
  receiver : x.receiver.At cfg (w.procs (k, .receiver))
  senderLog : w.log (k, .sender) = x.senderLog
  receiverLog : w.log (k, .receiver) = x.receiverLog

theorem Stage.at_start (cfg : Config) (κ : Kernel QueueName (Entry ι B)) (k : ι) :
    (Stage.start κ).At cfg k (sessionsStart cfg κ) :=
  ⟨rfl, senderProcess_at cfg, receiverProcess_at cfg, rfl, rfl⟩

/-! ## Steps -/

section Steps

variable [LinearOrder ι] {cfg : Config} {P : ι → Policy ι B} {k : ι} {w₀ w : SessionsWorld ι B}
  {op : Op B} {r : op.Resp} {κ : Kernel QueueName (Entry ι B)} {recs : List (Rec ι B)}

/-- The sender makes the call its point waits in. -/
theorem exists_sender_step {pt : SenderPoint B} {next : op.Resp → SenderPoint B}
    (here : pt.At cfg (w.procs (k, .sender)))
    (turn : ∀ j, j < k → Returned (w.procs (j, .sender)))
    (waiting : pt.next cfg = some ⟨op, next⟩)
    (answer : Answered (kernelService ι B) (P k) k .sender w.env op r κ recs) :
    ∃ p, (next r).At cfg p ∧ (sessionsEach P).Step w
      ⟨κ, Function.update w.procs (k, .sender) p,
        Function.update w.log (k, .sender) (w.log (k, .sender) ++ recs)⟩ := by
  obtain ⟨p, step, there⟩ :=
    (senderMain_bisimulation cfg).step_left here (Machine.Step.intro waiting r)
  exact ⟨p, there, .act (k, Role.sender) ⟨op, r⟩ turn step answer⟩

/-- The receiver makes the call its point waits in. -/
theorem exists_receiver_step {pt : ReceiverPoint B} {next : op.Resp → ReceiverPoint B}
    (here : pt.At cfg (w.procs (k, .receiver)))
    (turn : ∀ j, j < k → Returned (w.procs (j, .sender)))
    (waiting : pt.next cfg = some ⟨op, next⟩)
    (answer : Answered (kernelService ι B) (P k) k .receiver w.env op r κ recs) :
    ∃ p, (next r).At cfg p ∧ (sessionsEach P).Step w
      ⟨κ, Function.update w.procs (k, .receiver) p,
        Function.update w.log (k, .receiver) (w.log (k, .receiver) ++ recs)⟩ := by
  obtain ⟨p, step, there⟩ :=
    (receiverMain_bisimulation cfg).step_left here (Machine.Step.intro waiting r)
  exact ⟨p, there, .act (k, Role.receiver) ⟨op, r⟩ turn step answer⟩

/-- The sessions other than `k` are in `w` as they are in `w₀`. -/
def Rests (k : ι) (w₀ w : SessionsWorld ι B) : Prop :=
  ∀ j role, j ≠ k → w.procs (j, role) = w₀.procs (j, role) ∧
    w.log (j, role) = w₀.log (j, role)

/-- It stays the turn of session `k`. -/
theorem Rests.turn (rest : Rests k w₀ w)
    (turn : ∀ j, j < k → Returned (w₀.procs (j, .sender))) :
    ∀ j, j < k → Returned (w.procs (j, .sender)) := by
  intro j lower
  rw [(rest j .sender (ne_of_lt lower)).1]
  exact turn j lower

/-- From `w₀`, session `k` gets to the stage while the other sessions rest. -/
def Stage.Reached (cfg : Config) (P : ι → Policy ι B) (k : ι) (w₀ : SessionsWorld ι B)
    (x : Stage ι B) : Prop :=
  ∃ w, (sessionsEach P).Reachable w₀ w ∧ x.At cfg k w ∧ Rests k w₀ w

theorem Stage.Reached.refl {x : Stage ι B} (here : x.At cfg k w₀) :
    x.Reached cfg P k w₀ :=
  ⟨w₀, .refl, here, fun _ _ _ => ⟨rfl, rfl⟩⟩

theorem Stage.Reached.sender {x : Stage ι B} {next : op.Resp → SenderPoint B}
    (reached : x.Reached cfg P k w₀)
    (turn : ∀ j, j < k → Returned (w₀.procs (j, .sender)))
    (waiting : x.sender.next cfg = some ⟨op, next⟩)
    (answer : Answered (kernelService ι B) (P k) k .sender x.env op r κ recs) :
    Stage.Reached cfg P k w₀
      ⟨κ, next r, x.receiver, x.senderLog ++ recs, x.receiverLog⟩ := by
  obtain ⟨w, reach, here, rest⟩ := reached
  rw [← here.env] at answer
  obtain ⟨p, there, step⟩ := exists_sender_step here.sender (rest.turn turn) waiting answer
  refine ⟨_, reach.tail step, ⟨rfl, ?_, ?_, ?_, ?_⟩, fun j role ne => ?_⟩
  · simpa using there
  · simpa using here.receiver
  · simp [here.senderLog]
  · simp [here.receiverLog]
  · simpa [ne] using rest j role ne

theorem Stage.Reached.receiver {x : Stage ι B} {next : op.Resp → ReceiverPoint B}
    (reached : x.Reached cfg P k w₀)
    (turn : ∀ j, j < k → Returned (w₀.procs (j, .sender)))
    (waiting : x.receiver.next cfg = some ⟨op, next⟩)
    (answer : Answered (kernelService ι B) (P k) k .receiver x.env op r κ recs) :
    Stage.Reached cfg P k w₀
      ⟨κ, x.sender, next r, x.senderLog, x.receiverLog ++ recs⟩ := by
  obtain ⟨w, reach, here, rest⟩ := reached
  rw [← here.env] at answer
  obtain ⟨p, there, step⟩ := exists_receiver_step here.receiver (rest.turn turn) waiting answer
  refine ⟨_, reach.tail step, ⟨rfl, ?_, ?_, ?_, ?_⟩, fun j role ne => ?_⟩
  · simpa using here.sender
  · simpa using there
  · simp [here.senderLog]
  · simp [here.receiverLog]
  · simpa [ne] using rest j role ne

/-- What waits for the receiver is replaced. -/
theorem Stage.Reached.intrude {x : Stage ι B} {o : ℕ} {msgs : List (Entry ι B)}
    (reached : x.Reached cfg P k w₀) (allocated : o < x.env.fresh)
    (opened : .opened .senderToReceiver o ∈ x.senderLog)
    (intrudes : (P k).intrudes x.senderLog x.receiverLog (x.env.queue o) msgs) :
    Stage.Reached cfg P k w₀ { x with env := x.env.setQueue o msgs allocated } := by
  obtain ⟨env, sp, rp, sl, rl⟩ := x
  obtain ⟨w, reach, ⟨rfl, sender, receiver, senderLog, receiverLog⟩, rest⟩ := reached
  rw [← senderLog, ← receiverLog] at intrudes
  rw [← senderLog] at opened
  have step : (sessionsEach P).Step w { w with env := w.env.setQueue o msgs allocated } :=
    .move ⟨k, o, msgs, allocated, opened, intrudes, rfl⟩
  exact ⟨_, reach.tail step, ⟨rfl, sender, receiver, senderLog, receiverLog⟩, rest⟩

end Steps

/-! ## The answers needed -/

/-- The kernel when a session has opened both of its names. -/
def linked (κ : Kernel QueueName (Entry ι B)) (maxmsg : ℕ) : Kernel QueueName (Entry ι B) :=
  (κ.create .senderToReceiver maxmsg).create .receiverToSender maxmsg

section Linked

variable (κ : Kernel QueueName (Entry ι B)) (maxmsg : ℕ)

@[simp] theorem linked_fresh : (linked κ maxmsg).fresh = κ.fresh + 2 := rfl

@[simp] theorem linked_queue (o : ℕ) : (linked κ maxmsg).queue o = κ.queue o := by
  simp [linked]

theorem linked_names (name : QueueName) :
    (linked κ maxmsg).names name = handles κ.fresh (κ.fresh + 1) name := by
  have other : QueueName.senderToReceiver ≠ .receiverToSender := nofun
  cases name with
  | receiverToSender => simp [linked, handles]
  | senderToReceiver => simp [linked, handles, Kernel.create_names_of_ne _ _ other]

theorem linked_maxmsg :
    ((linked κ maxmsg).objects κ.fresh).maxmsg = maxmsg ∧
      ((linked κ maxmsg).objects (κ.fresh + 1)).maxmsg = maxmsg := by
  refine ⟨?_, Kernel.create_maxmsg_self (κ.create .senderToReceiver maxmsg) _ _⟩
  rw [linked, Kernel.create_maxmsg_of_lt _ _ _ (Nat.lt_succ_self κ.fresh)]
  exact Kernel.create_maxmsg_self κ _ _

/-- Both names are free again when the session is over. -/
theorem linked_unlink (name : QueueName) :
    (((linked κ maxmsg).unlink .receiverToSender).unlink .senderToReceiver).names name =
      none := by
  have other : QueueName.receiverToSender ≠ .senderToReceiver := nofun
  cases name with
  | senderToReceiver => simp
  | receiverToSender => simp [Kernel.unlink_names_of_ne _ other]

end Linked

/-- A message goes through an empty queue. -/
theorem kernelService_passage {κ : Kernel QueueName (Entry ι B)} {o : ℕ}
    (allocated : o < κ.fresh) (empty : κ.queue o = []) (room : 0 < (κ.objects o).maxmsg)
    (sending receiving : Site) (e : Entry ι B) :
    (kernelService ι B).sends κ sending (some o) e (κ.setQueue o [e] allocated) ∧
      (kernelService ι B).receives (κ.setQueue o [e] allocated) receiving (some o) e κ := by
  refine ⟨⟨o, allocated, rfl, by simpa [empty] using room, by simp [empty]⟩,
    ⟨o, [], allocated, rfl, by simp, ?_⟩⟩
  rw [Kernel.setQueue_setQueue, Kernel.setQueue_of_queue κ allocated empty]

section Scripts

variable {P : Policy ι B} {d : Draws B}

/-- Botan may answer as it does with these draws. -/
def Policy.Honours (P : Policy ι B) (d : Draws B) : Prop :=
  ∀ role op r, d.answers role op r → P.botan role op r

theorem Policy.honest_honours (ι : Type) (d : Draws B) (enter : Prop) :
    (Policy.honest ι d enter).Honours d := fun _ _ _ answers => answers

namespace Policy.Honours

variable (honours : P.Honours d) (role : Role)

include honours

theorem autoSeededRng : P.botan role .autoSeededRng (.ok ()) := honours _ _ _ rfl

theorem rsaPrivateKey (bits : ℕ) : P.botan role (.rsaPrivateKey bits) (.ok d.privateKey) :=
  honours _ _ _ rfl

theorem localKey : P.botan .sender (.randomize kSymKeySize) (.ok d.localKey) :=
  honours _ _ _ ⟨_, rfl, rfl⟩

theorem sessionKey {n : ℕ} (size : d.sessionKey.val.length = n) :
    P.botan .receiver (.randomize n) (.ok ⟨d.sessionKey.val, size⟩) :=
  honours _ _ _ ⟨_, rfl, rfl⟩

theorem loadKey {data : List B.Byte} {key : PublicKey B.Pub} (h : B.loadKey data = .ok key) :
    P.botan role (.loadKey data) (.ok key) := honours _ _ _ h.symm

theorem encrypt {key : B.Pub} {plaintext c : List B.Byte}
    (h : B.encrypt key d.seed plaintext = .ok c) :
    P.botan role (.encrypt key plaintext) (.ok c) := honours _ _ _ h.symm

theorem decrypt {key : B.Priv} {c plaintext : List B.Byte}
    (h : B.decrypt key c = .ok plaintext) :
    P.botan role (.decrypt key c) (.ok plaintext) := honours _ _ _ h.symm

theorem setKey {key : List B.Byte} (h : key.length = kSymKeySize) :
    P.botan role (.setKey key) (.ok ()) := honours _ _ _ (if_pos h).symm

end Policy.Honours

/-! ## A session, driven -/

/-- The session has got through its handshake, and `i` of its frames have been sent and
read. -/
def Script.stage (σ : Script d) (cfg : Config) (k : ι) (κ : Kernel QueueName (Entry ι B))
    (i : ℕ) (buffer : List B.Byte) : Stage ι B where
  env := linked κ cfg.maxMessages
  sender := .run ⟨κ.fresh, κ.fresh + 1, d.privateKey, d.sessionKey.val⟩
    (.loop (cfg.numMessagesToSend - i) i)
  receiver := .run ⟨κ.fresh, κ.fresh + 1, some (.rsa (B.publicKey d.privateKey)),
    d.sessionKey.val, (List.range i).map fun i => ((σ.frame i).val, true)⟩ (.loop buffer)
  senderLog := [.opened .senderToReceiver κ.fresh, .opened .receiverToSender (κ.fresh + 1)] ++
    σ.senderRecs k i
  receiverLog := [.opened .receiverToSender (κ.fresh + 1), .opened .senderToReceiver κ.fresh] ++
    σ.receiverRecs k i

theorem Script.exchanges_senderLog (σ : Script d) (cfg : Config) (k : ι)
    (κ : Kernel QueueName (Entry ι B)) (i : ℕ) (buffer : List B.Byte) :
    exchanges (σ.stage cfg k κ i buffer).senderLog = σ.senderRecs k i := by
  simp [Script.stage, Script.senderRecs, exchanges, Rec.isExchange]

theorem Script.exchanges_receiverLog (σ : Script d) (cfg : Config) (k : ι)
    (κ : Kernel QueueName (Entry ι B)) (i : ℕ) (buffer : List B.Byte) :
    exchanges (σ.stage cfg k κ i buffer).receiverLog = σ.receiverRecs k i := by
  simp [Script.stage, Script.receiverRecs, exchanges, Rec.isExchange]

end Scripts

section Driven

variable [LinearOrder ι] {cfg : Config} {P : ι → Policy ι B} {k : ι} {w₀ : SessionsWorld ι B}
  {κ : Kernel QueueName (Entry ι B)} {d : Draws B}

/-- The sender has sent its public key, and nobody has read it. -/
def Script.keySentStage (σ : Script d) (cfg : Config) (k : ι)
    (κ : Kernel QueueName (Entry ι B)) : Stage ι B where
  env := (linked κ cfg.maxMessages).setQueue κ.fresh [σ.publicKeyEntry k] (by simp)
  sender := .run ⟨κ.fresh, κ.fresh + 1, d.privateKey, d.localKey.val⟩ .recvKey
  receiver := .openRS
  senderLog := [.opened .senderToReceiver κ.fresh, .opened .receiverToSender (κ.fresh + 1),
    .sent .sendPublicKey σ.publicKey]
  receiverLog := []

/-- The sender can open both queues wherever their names are free. -/
theorem Stage.Reached.opens (unbound : ∀ name, κ.names name = none)
    (turn : ∀ j, j < k → Returned (w₀.procs (j, .sender)))
    (start : (Stage.start κ).At cfg k w₀) :
    Stage.Reached cfg P k w₀ ⟨linked κ cfg.maxMessages, .rng κ.fresh (κ.fresh + 1), .openRS,
      [.opened .senderToReceiver κ.fresh, .opened .receiverToSender (κ.fresh + 1)], []⟩ := by
  have other : QueueName.receiverToSender ≠ .senderToReceiver := nofun
  have unboundRS : (κ.create .senderToReceiver cfg.maxMessages).names .receiverToSender =
      none := by
    rw [Kernel.create_names_of_ne _ _ other, unbound]
  have s₁ := (Stage.Reached.refl (P := P) start).sender turn rfl
    (.mqOpen (Kernel.mqOpen_of_unbound _ (unbound _)))
  exact s₁.sender turn rfl (.mqOpen (Kernel.mqOpen_of_unbound _ unboundRS))

/-- **The sender can send its public key** wherever both names are free. -/
theorem Stage.Reached.keySent (σ : Script d) (honours : (P k).Honours d)
    (room : 0 < cfg.maxMessages) (empty : ∀ o, κ.queue o = [])
    (unbound : ∀ name, κ.names name = none)
    (turn : ∀ j, j < k → Returned (w₀.procs (j, .sender)))
    (start : (Stage.start κ).At cfg k w₀) :
    (σ.keySentStage cfg k κ).Reached cfg P k w₀ := by
  have sr : κ.fresh < (linked κ cfg.maxMessages).fresh := by simp
  have srRoom := (linked_maxmsg κ cfg.maxMessages).1
  obtain ⟨sends, -⟩ := kernelService_passage sr (by simp [empty])
    (by simpa [srRoom] using room) .sendPublicKey .getPublicKey (σ.publicKeyEntry k)
  -- the keys are drawn
  have s₁ := (Stage.Reached.opens (P := P) unbound turn start).sender turn rfl
    (.botan rfl (honours.autoSeededRng .sender))
  have s₂ := s₁.sender turn rfl (.botan rfl (honours.rsaPrivateKey .sender 2048))
  have s₃ := s₂.sender turn rfl (.botan rfl honours.localKey)
  simp only [SenderPc.start_of_le (σ.lawful.subjectPublicKey_length _)] at s₃
  exact s₃.sender turn rfl (.mqSend (σ.lawful.subjectPublicKey_length _) sends)

/-- **A handshake can be run** wherever both names are free. -/
theorem Stage.Reached.handshake (σ : Script d) (honours : (P k).Honours d)
    (room : 0 < cfg.maxMessages) (empty : ∀ o, κ.queue o = [])
    (unbound : ∀ name, κ.names name = none)
    (turn : ∀ j, j < k → Returned (w₀.procs (j, .sender)))
    (start : (Stage.start κ).At cfg k w₀) :
    (σ.stage cfg k κ 0 (initialBuffer B)).Reached cfg P k w₀ := by
  have sr : κ.fresh < (linked κ cfg.maxMessages).fresh := by simp
  have rs : κ.fresh + 1 < (linked κ cfg.maxMessages).fresh := by simp
  have bound := linked_names κ cfg.maxMessages
  obtain ⟨srRoom, rsRoom⟩ := linked_maxmsg κ cfg.maxMessages
  obtain ⟨-, readsKey⟩ := kernelService_passage sr (by simp [empty])
    (by simpa [srRoom] using room) .sendPublicKey .getPublicKey (σ.publicKeyEntry k)
  obtain ⟨sendsCipher, readsCipher⟩ := kernelService_passage rs (by simp [empty])
    (by simpa [rsRoom] using room) .sendSymmetricKey .receiveSymmetricKey (σ.cipherEntry k)
  have sent := Stage.Reached.keySent σ honours room empty unbound turn start
  -- the receiver opens both queues and reads the public key
  have r₁ := sent.receiver turn rfl (.mqOpen (Kernel.mqOpen_of_bound _ (bound .receiverToSender)))
  have r₂ := r₁.receiver turn rfl (.mqOpen (Kernel.mqOpen_of_bound _ (bound .senderToReceiver)))
  have r₃ := r₂.receiver turn rfl (.mqReceive readsKey)
  have r₄ := r₃.receiver turn rfl
    (.botan rfl (honours.loadKey .receiver (σ.lawful.loadKey_subjectPublicKey _)))
  -- it answers with the session key
  have r₅ := r₄.receiver turn rfl (.botan rfl (honours.autoSeededRng .receiver))
  have r₆ := r₅.receiver turn rfl (.botan rfl (honours.sessionKey d.sessionKey.property))
  have r₇ := r₆.receiver turn rfl (.botan rfl (honours.encrypt .receiver σ.encrypted))
  have r₈ := r₇.receiver turn rfl (.mqSend σ.cipher.property sendsCipher)
  have r₉ := r₈.receiver turn rfl
    (.botan rfl (honours.setKey .receiver d.sessionKey.property))
  -- and the sender unwraps it
  have s₁ := r₉.sender turn rfl (.mqReceive readsCipher)
  have s₂ := s₁.sender turn rfl (.botan rfl (honours.autoSeededRng .sender))
  have s₃ := s₂.sender turn rfl (.botan rfl (honours.decrypt .sender σ.decrypt_cipher))
  exact s₃.sender turn rfl (.botan rfl (honours.setKey .sender d.sessionKey.property))

/-- One more frame goes through. -/
theorem Stage.Reached.frame (σ : Script d) (room : 0 < cfg.maxMessages)
    (empty : ∀ o, κ.queue o = []) (turn : ∀ j, j < k → Returned (w₀.procs (j, .sender)))
    {i : ℕ} {buffer : List B.Byte} (more : i < cfg.numMessagesToSend)
    (reached : (σ.stage cfg k κ i buffer).Reached cfg P k w₀) :
    (σ.stage cfg k κ (i + 1) (receiveInto buffer (σ.frame i))).Reached cfg P k w₀ := by
  have sr : κ.fresh < (linked κ cfg.maxMessages).fresh := by simp
  have srRoom := (linked_maxmsg κ cfg.maxMessages).1
  obtain ⟨sends, reads⟩ := kernelService_passage sr (by simp [empty])
    (by simpa [srRoom] using room) .sendPeriodicMessage .receivePeriodicMessages
    (σ.frameEntry k i)
  have rounds : cfg.numMessagesToSend - i = cfg.numMessagesToSend - (i + 1) + 1 := by omega
  simp only [Script.stage, rounds, SenderPc.loop] at reached
  have sent := reached.sender turn rfl
    (.mqSend (length_frameBytes_le d.sessionKey.val i) sends)
  have read := sent.receiver turn rfl (.mqReceive reads)
  have accepted := σ.receive_frame ⟨κ.fresh, κ.fresh + 1, some (.rsa (B.publicKey d.privateKey)),
    d.sessionKey.val, (List.range i).map fun i => ((σ.frame i).val, true)⟩ rfl buffer i
  simp only [Script.frameEntry, accepted] at read
  simpa [Script.stage, Script.senderRecs, Script.receiverRecs, Script.frameEntry, Script.frame,
    List.range_succ] using read

/-- **Any number of its frames can go through.** -/
theorem Stage.Reached.frames (σ : Script d) (honours : (P k).Honours d)
    (room : 0 < cfg.maxMessages) (empty : ∀ o, κ.queue o = [])
    (unbound : ∀ name, κ.names name = none)
    (turn : ∀ j, j < k → Returned (w₀.procs (j, .sender)))
    (start : (Stage.start κ).At cfg k w₀) {i : ℕ} (count : i ≤ cfg.numMessagesToSend) :
    ∃ buffer, (σ.stage cfg k κ i buffer).Reached cfg P k w₀ := by
  induction i with
  | zero => exact ⟨_, .handshake σ honours room empty unbound turn start⟩
  | succ i ih =>
      obtain ⟨buffer, reached⟩ := ih (by omega)
      exact ⟨_, reached.frame σ room empty turn count⟩

/-- All frames have gone through, and the sender has returned. -/
def Script.endStage (σ : Script d) (cfg : Config) (k : ι) (κ : Kernel QueueName (Entry ι B))
    (buffer : List B.Byte) : Stage ι B :=
  { σ.stage cfg k κ cfg.numMessagesToSend buffer with
    env := ((linked κ cfg.maxMessages).unlink .receiverToSender).unlink .senderToReceiver
    sender := .run ⟨κ.fresh, κ.fresh + 1, d.privateKey, d.sessionKey.val⟩ (.returned kOK) }

/-- **The sender can return**, both names free again, the receiver still listening. -/
theorem Stage.Reached.finish (σ : Script d) (enter : (P k).enter)
    (turn : ∀ j, j < k → Returned (w₀.procs (j, .sender))) {buffer : List B.Byte}
    (reached : (σ.stage cfg k κ cfg.numMessagesToSend buffer).Reached cfg P k w₀) :
    (σ.endStage cfg k κ buffer).Reached cfg P k w₀ := by
  simp only [Script.stage, Nat.sub_self, SenderPc.loop] at reached
  have s₁ := reached.sender turn rfl .mqClose
  have s₂ := s₁.sender turn rfl .mqClose
  have s₃ := s₂.sender turn rfl (.cinGet enter)
  have s₄ := s₃.sender turn rfl (.mqUnlink rfl)
  have s₅ := s₄.sender turn rfl (.mqUnlink rfl)
  simpa [Script.endStage, Script.stage] using s₅

/-- **A session can be run to its sender's return**, having exchanged all its messages. -/
theorem Stage.Reached.session (σ : Script d) (honours : (P k).Honours d) (enter : (P k).enter)
    (room : 0 < cfg.maxMessages) (empty : ∀ o, κ.queue o = [])
    (unbound : ∀ name, κ.names name = none)
    (turn : ∀ j, j < k → Returned (w₀.procs (j, .sender)))
    (start : (Stage.start κ).At cfg k w₀) :
    ∃ buffer, (σ.endStage cfg k κ buffer).Reached cfg P k w₀ := by
  obtain ⟨buffer, reached⟩ :=
    Stage.Reached.frames σ honours room empty unbound turn start (Nat.le_refl _)
  exact ⟨buffer, reached.finish σ enter turn⟩

end Driven

/-! ## Sessions one after another -/

section Consecutive

variable {P : ℕ → Policy ℕ B} {d : ℕ → Draws B}

/-- The first `n` sessions are over but for their receivers, each with its own script, and
the others have not started. -/
structure Consecutive (cfg : Config) (σ : ∀ k, Script (d k)) (n : ℕ) (w : SessionsWorld ℕ B) :
    Prop where
  empty : ∀ o, w.env.queue o = []
  unbound : ∀ name, w.env.names name = none
  returned : ∀ k, k < n → Returned (w.procs (k, .sender))
  sent : ∀ k, k < n →
    exchanges (w.log (k, .sender)) = (σ k).senderRecs k cfg.numMessagesToSend
  read : ∀ k, k < n →
    exchanges (w.log (k, .receiver)) = (σ k).receiverRecs k cfg.numMessagesToSend
  listening : ∀ k, k < n → ∃ v buffer,
    (ReceiverPoint.run v (.loop buffer)).At cfg (w.procs (k, .receiver))
  waiting : ∀ k, n ≤ k → (Stage.start w.env).At cfg k w

/-- **Any number of sessions can run one after another**, no receiver ever ending. -/
theorem exists_consecutive (cfg : Config) (σ : ∀ k, Script (d k))
    (honours : ∀ k, (P k).Honours (d k)) (enter : ∀ k, (P k).enter)
    (room : 0 < cfg.maxMessages) (n : ℕ) :
    ∃ w, (sessionsEach P).Reachable (sessionsStart cfg (Kernel.empty QueueName (Entry ℕ B))) w ∧
      Consecutive cfg σ n w := by
  induction n with
  | zero =>
      exact ⟨_, .refl, fun _ => rfl, fun _ => rfl, nofun, nofun, nofun, nofun,
        fun k _ => Stage.at_start cfg _ k⟩
  | succ n ih =>
      obtain ⟨w₀, before, h⟩ := ih
      -- the next session runs to its end while the others stand still
      obtain ⟨buffer, w, reach, here, rest⟩ := Stage.Reached.session (σ n) (honours n) (enter n)
        room h.empty h.unbound h.returned (h.waiting n (Nat.le_refl n))
      refine ⟨w, before.trans reach, ?_, ?_, ?_, ?_, ?_, ?_, ?_⟩
      · intro o
        rw [here.env]
        simp [Script.endStage, h.empty]
      · intro name
        rw [here.env]
        exact linked_unlink _ _ name
      · intro k lower
        rcases Nat.lt_succ_iff_lt_or_eq.mp lower with lower | rfl
        · rw [(rest k .sender (by omega)).1]
          exact h.returned k lower
        · obtain ⟨pk, obs, is⟩ := here.sender
          rw [is]
          exact ⟨kOK, rfl⟩
      · intro k lower
        rcases Nat.lt_succ_iff_lt_or_eq.mp lower with lower | rfl
        · rw [(rest k .sender (by omega)).2]
          exact h.sent k lower
        · rw [here.senderLog]
          exact (σ k).exchanges_senderLog cfg k _ _ buffer
      · intro k lower
        rcases Nat.lt_succ_iff_lt_or_eq.mp lower with lower | rfl
        · rw [(rest k .receiver (by omega)).2]
          exact h.read k lower
        · rw [here.receiverLog]
          exact (σ k).exchanges_receiverLog cfg k _ _ buffer
      · intro k lower
        rcases Nat.lt_succ_iff_lt_or_eq.mp lower with lower | rfl
        · rw [(rest k .receiver (by omega)).1]
          exact h.listening k lower
        · exact ⟨_, buffer, here.receiver⟩
      · intro k later
        obtain ⟨-, sender, receiver, senderLog, receiverLog⟩ := h.waiting k (by omega)
        refine ⟨rfl, ?_, ?_, ?_, ?_⟩
        · rwa [(rest k .sender (by omega)).1]
        · rwa [(rest k .receiver (by omega)).1]
        · rwa [(rest k .sender (by omega)).2]
        · rwa [(rest k .receiver (by omega)).2]

end Consecutive

end Stages

end SecureComm
