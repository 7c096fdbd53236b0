import Mathlib.Order.Basic
import SecureComm.Library.MessageQueue
import SecureComm.Library.System
import SecureComm.ReceiverPoints
import SecureComm.SenderPoints

/-!
# Sessions over the kernel's queues

A session is one sender process and one receiver process.  `sessions` runs any
number of them, in any interleaving, over one kernel: a process of a session may
step only when the senders of all earlier sessions have returned, and earlier
receivers go on stepping as they please.

What the environment may do is a `Policy`: which queue calls can fail, what Botan
answers, whether the operator presses Enter, and what a third party does to the
sender-to-receiver queue.  A result about sessions names its policy.
-/

namespace SecureComm

open Interaction MessageQueue

/-- The two programs. -/
inductive Role
  | sender
  | receiver
  deriving DecidableEq

/-- The queue a function sends to or receives from. -/
def Site.queue : Site → QueueName
  | .sendPublicKey => .senderToReceiver
  | .getPublicKey => .senderToReceiver
  | .sendSymmetricKey => .receiverToSender
  | .receiveSymmetricKey => .receiverToSender
  | .sendPeriodicMessage => .senderToReceiver
  | .receivePeriodicMessages => .senderToReceiver

/-- A message in a queue, with the session and the function that sent it; a third
party's has no origin. -/
structure Entry (ι : Type) (B : Botan) where
  origin : Option (ι × Site)
  bytes : Message B

/-- What a process leaves on record of its queue calls. -/
inductive Rec (ι : Type) (B : Botan)
  | opened (name : QueueName) (o : ℕ)
  | sent (site : Site) (m : Message B)
  | read (site : Site) (e : Entry ι B)

/-- What the environment may do. -/
structure Policy (ι : Type) (B : Botan) where
  /-- The queue calls that can return -1. -/
  fails : Role → Op B → Prop
  /-- The answers of Botan. -/
  botan : Role → (op : Op B) → op.Resp → Prop
  /-- Whether the operator presses Enter. -/
  enter : Prop
  /-- What a third party can make of the sender-to-receiver queue of a session,
  given what its sender and its receiver have on record. -/
  intrudes : List (Rec ι B) → List (Rec ι B) → List (Entry ι B) → List (Entry ι B) → Prop

/-- A call of Botan, rather than of a queue or the terminal. -/
def Op.isBotan {B : Botan} : Op B → Bool
  | .mqOpen _ _ => false
  | .mqSend _ _ _ => false
  | .mqReceive _ _ => false
  | .mqClose _ => false
  | .mqUnlink _ => false
  | .cinGet => false
  | _ => true

/-! ## Answers -/

/-- The queue calls that succeed, over queues of any kind. -/
structure QueueService (ι : Type) (B : Botan) (K : Type) where
  opens : K → QueueName → (maxmsg o : ℕ) → K → Prop
  sends : K → Site → Mqd → Entry ι B → K → Prop
  receives : K → Site → Mqd → Entry ι B → K → Prop
  unlinks : K → QueueName → K → Prop

section Answers

variable {ι : Type} {B : Botan} {K : Type}

/-- How a call of session `k` can be answered.  A call that neither succeeds nor may
fail blocks. -/
inductive Answered (Q : QueueService ι B K) (P : Policy ι B) (k : ι) (role : Role) :
    K → (op : Op B) → op.Resp → K → List (Rec ι B) → Prop
  | mqOpen {κ κ' : K} {name : QueueName} {attr : MqAttr} {o : ℕ}
      (h : Q.opens κ name attr.mqMaxmsg o κ') :
      Answered Q P k role κ (.mqOpen name attr) (some o) κ' [.opened name o]
  | mqOpenFails {κ : K} {name : QueueName} {attr : MqAttr}
      (h : P.fails role (.mqOpen name attr)) :
      Answered Q P k role κ (.mqOpen name attr) none κ []
  | mqSend {κ κ' : K} {site : Site} {mq : Mqd} {msg : List B.Byte}
      (fits : msg.length ≤ kMessageSize)
      (h : Q.sends κ site mq ⟨some (k, site), ⟨msg, fits⟩⟩ κ') :
      Answered Q P k role κ (.mqSend site mq msg) true κ' [.sent site ⟨msg, fits⟩]
  | mqSendFails {κ : K} {site : Site} {mq : Mqd} {msg : List B.Byte}
      (h : P.fails role (.mqSend site mq msg)) :
      Answered Q P k role κ (.mqSend site mq msg) false κ []
  | mqReceive {κ κ' : K} {site : Site} {mq : Mqd} {e : Entry ι B}
      (h : Q.receives κ site mq e κ') :
      Answered Q P k role κ (.mqReceive site mq) (some e.bytes) κ' [.read site e]
  | mqReceiveFails {κ : K} {site : Site} {mq : Mqd}
      (h : P.fails role (.mqReceive site mq)) :
      Answered Q P k role κ (.mqReceive site mq) none κ []
  | mqClose {κ : K} {mq : Mqd} : Answered Q P k role κ (.mqClose mq) () κ []
  | mqUnlink {κ κ' : K} {name : QueueName} (h : Q.unlinks κ name κ') :
      Answered Q P k role κ (.mqUnlink name) () κ' []
  | cinGet {κ : K} (h : P.enter) : Answered Q P k role κ .cinGet () κ []
  | botan {κ : K} {op : Op B} {r : op.Resp} (is : op.isBotan = true)
      (h : P.botan role op r) : Answered Q P k role κ op r κ []

/-- What one policy allows, so does any that allows as much. -/
theorem Answered.mono {Q : QueueService ι B K} {P P' : Policy ι B} {k : ι} {role : Role}
    {κ κ' : K} {op : Op B} {r : op.Resp} {recs : List (Rec ι B)}
    (fails : ∀ op, P.fails role op → P'.fails role op)
    (botan : ∀ op r, P.botan role op r → P'.botan role op r) (enter : P.enter → P'.enter)
    (answer : Answered Q P k role κ op r κ' recs) : Answered Q P' k role κ op r κ' recs := by
  cases answer with
  | mqOpen h => exact .mqOpen h
  | mqOpenFails h => exact .mqOpenFails (fails _ h)
  | mqSend fits h => exact .mqSend fits h
  | mqSendFails h => exact .mqSendFails (fails _ h)
  | mqReceive h => exact .mqReceive h
  | mqReceiveFails h => exact .mqReceiveFails (fails _ h)
  | mqClose => exact .mqClose
  | mqUnlink h => exact .mqUnlink h
  | cinGet h => exact .cinGet (enter h)
  | botan is h => exact .botan is (botan _ _ h)

/-- The kernel's queues. -/
def kernelService (ι : Type) (B : Botan) :
    QueueService ι B (Kernel QueueName (Entry ι B)) where
  opens κ name maxmsg o κ' := κ.mqOpen name maxmsg = (o, κ')
  sends κ _ mq e κ' := ∃ o allocated, mq = some o ∧
    (κ.queue o).length < (κ.objects o).maxmsg ∧
    κ' = κ.setQueue o (κ.queue o ++ [e]) allocated
  receives κ _ mq e κ' := ∃ o rest allocated, mq = some o ∧ κ.queue o = e :: rest ∧
    κ' = κ.setQueue o rest allocated
  unlinks κ name κ' := κ' = κ.unlink name

end Answers

/-! ## The system -/

section System

variable {ι : Type} {B : Botan}

/-- The process has returned from `main`. -/
def Returned (p : Process B) : Prop := ∃ status, p.prog = .ret status

/-- The order of a session that is alone. -/
instance linearOrderUnit : LinearOrder Unit := PUnit.instLinearOrder

instance ltUnit : LT Unit := PUnit.instLinearOrder.toPartialOrder.toPreorder.toLT

/-- It has its turn: no session is before it. -/
theorem alone_may (procs : Unit × Role → Process B) :
    ∀ j, j < () → Returned (procs (j, .sender)) :=
  fun _ lower => absurd lower (lt_irrefl _)

/-- Any number of sessions over one kernel, each with a policy of its own. -/
def sessionsEach [LT ι] (P : ι → Policy ι B) :
    System (Op B) Op.Resp (ι × Role) (Kernel QueueName (Entry ι B)) (Rec ι B)
      (Process B) where
  next := Proc.next
  may procs pid := ∀ j, j < pid.1 → Returned (procs (j, .sender))
  answer pid := Answered (kernelService ι B) (P pid.1) pid.1 pid.2
  move log κ κ' := ∃ k o msgs allocated,
    .opened .senderToReceiver o ∈ log (k, .sender) ∧
    (P k).intrudes (log (k, .sender)) (log (k, .receiver)) (κ.queue o) msgs ∧
    κ' = κ.setQueue o msgs allocated

/-- Any number of sessions with one policy. -/
def sessions [LT ι] (P : Policy ι B) :
    System (Op B) Op.Resp (ι × Role) (Kernel QueueName (Entry ι B)) (Rec ι B)
      (Process B) := sessionsEach fun _ => P

/-- A state of the sessions. -/
abbrev SessionsWorld (ι : Type) (B : Botan) : Type 1 :=
  World (ι × Role) (Kernel QueueName (Entry ι B)) (Rec ι B) (Process B)

/-- Every process has just been started, over the kernel `κ`. -/
def sessionsStart (cfg : Config) (κ : Kernel QueueName (Entry ι B)) :
    SessionsWorld ι B where
  env := κ
  procs
    | (_, .sender) => senderProcess cfg
    | (_, .receiver) => receiverProcess cfg
  log _ := []

end System

/-! ## Honest Botan -/

section Draws

variable {B : Botan}

/-- What Botan documents of its answers.  The generator gives anything, whatever uses it may
throw, and the rest is computed. -/
def documentedAnswer : (op : Op B) → op.Resp → Prop
  | .loadKey data, r => r = B.loadKey data
  | .encrypt key plaintext, r =>
      (∃ seed, r = B.encrypt key seed plaintext) ∨ ∃ e, r = .error e
  | .decrypt key ciphertext, r => r = B.decrypt key ciphertext ∨ ∃ e, r = .error e
  | .setKey key, r =>
      r = if key.length = kSymKeySize then .ok () else .error .invalidKeyLength
  | _, _ => True

/-- What is drawn at random in a session: the sender's key pair, the key it
randomises its `symmetric_key` with, the key the receiver generates, and the coins
of the encryption. -/
structure Draws (B : Botan) where
  privateKey : B.Priv
  localKey : {key : List B.Byte // key.length = kSymKeySize}
  sessionKey : {key : List B.Byte // key.length = kSymKeySize}
  seed : B.Seed

/-- The answers of Botan with these draws. -/
def Draws.answers (d : Draws B) : Role → (op : Op B) → op.Resp → Prop
  | _, .autoSeededRng, r => r = .ok ()
  | _, .rsaPrivateKey _, r => r = .ok d.privateKey
  | .sender, .randomize _, r => ∃ bytes, r = .ok bytes ∧ bytes.val = d.localKey.val
  | .receiver, .randomize _, r => ∃ bytes, r = .ok bytes ∧ bytes.val = d.sessionKey.val
  | _, .loadKey data, r => r = B.loadKey data
  | _, .encrypt key plaintext, r => r = B.encrypt key d.seed plaintext
  | _, .decrypt key ciphertext, r => r = B.decrypt key ciphertext
  | _, .setKey key, r =>
      r = if key.length = kSymKeySize then .ok () else .error .invalidKeyLength
  | _, _, _ => False

/-- They are answers Botan documents. -/
theorem Draws.documented (d : Draws B) {role : Role} {op : Op B} {r : op.Resp}
    (answers : d.answers role op r) : documentedAnswer op r := by
  cases op with
  | loadKey data => exact answers
  | encrypt key plaintext => exact .inl ⟨d.seed, answers⟩
  | decrypt key ciphertext => exact .inl answers
  | setKey key => exact answers
  | _ => trivial

/-- They answer every call of Botan, the generator's for keys of the right size. -/
theorem Draws.exists_answer (d : Draws B) (role : Role) {op : Op B} (is : op.isBotan = true)
    (size : ∀ n, op = .randomize n → n = kSymKeySize) : ∃ r, d.answers role op r := by
  cases op with
  | randomize n =>
      obtain rfl := size n rfl
      cases role with
      | sender => exact ⟨.ok d.localKey, _, rfl, rfl⟩
      | receiver => exact ⟨.ok d.sessionKey, _, rfl, rfl⟩
  | autoSeededRng => exact ⟨_, rfl⟩
  | rsaPrivateKey bits => exact ⟨_, rfl⟩
  | loadKey data => exact ⟨_, rfl⟩
  | encrypt key plaintext => exact ⟨_, rfl⟩
  | decrypt key ciphertext => exact ⟨_, rfl⟩
  | setKey key => exact ⟨_, rfl⟩
  | _ => cases is

end Draws

end SecureComm
