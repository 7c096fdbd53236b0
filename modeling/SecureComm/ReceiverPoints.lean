import Mathlib.Tactic.Common
import SecureComm.ReceiveLoop

/-!
# Where the receiver waits

The receiver's counterpart of the sender's machine of points.  Besides the live
variables a point carries the comparisons made so far, which the program leaves in
its observations.
-/

namespace SecureComm

open Interaction

section ReceiverPoints

variable {B : Botan}

/-- The variables of `main` once both queues are open, and the comparisons made. -/
structure ReceiverVars (B : Botan) where
  sr : ℕ
  rs : ℕ
  publicKey : Option (PublicKey B.Pub)
  key : List B.Byte
  compared : List (List B.Byte × Bool)

/-- The calls of the receiver from the phase switch on, and a crash. -/
inductive ReceiverPc (B : Botan)
  | recvKey
  | loadKey (m : Message B)
  | rng
  | randomize
  | encrypt (key : B.Pub)
  | sendKey (encryptedKey : List B.Byte)
  | setKey
  | loop (buffer : List B.Byte)
  | enter (status : ℕ)
  | closeRS (status : ℕ)
  | closeSR (status : ℕ)
  | returned (status : ℕ)
  | crashed (f : Fault)

/-- The calls of the receiver, and its ends. -/
inductive ReceiverPoint (B : Botan)
  | openRS
  | openSR (rs : ℕ)
  | run (v : ReceiverVars B) (pc : ReceiverPc B)
  | openFailed (name : QueueName)
  | threw (v : ReceiverVars B) (e : Exn)

/-- `main`'s variables when the phase switch is entered. -/
def ReceiverVars.start (sr rs : ℕ) : ReceiverVars B :=
  ⟨sr, rs, none, List.replicate kSymKeySize (B.lit 0), []⟩

/-- The down-cast public key is dereferenced. -/
def ReceiverPc.deref : Option (PublicKey B.Pub) → ReceiverPc B
  | some (.rsa key) => .encrypt key
  | some .other => .crashed .nullPointer
  | none => .crashed .nullPointer

/-- The loop receives a message. -/
def ReceiverPoint.receive (v : ReceiverVars B) (buffer : List B.Byte) (m : Message B) :
    ReceiverPoint B :=
  if m.val.length = 0 then .run v (.enter kOK)
  else if m.val.length < kCmacSize then
    .run v (.crashed (.outOfRange
      ⟨.receivedCmac, m.val.length - kCmacSize, m.val.length, m.val.length⟩))
  else
    .run { v with compared := v.compared ++ [(m.val, decide (TagMatches v.key m.val))] }
      (.loop (receiveInto buffer m))

/-- The call at a point of the phase switch or the end of `main`, and where each
answer leads. -/
def ReceiverPc.next (v : ReceiverVars B) :
    ReceiverPc B → Option ((op : Op B) × (op.Resp → ReceiverPoint B))
  | .recvKey =>
      some ⟨.mqReceive .getPublicKey (some v.sr), fun
        | none => .run v .rng
        | some m => .run v (.loadKey m)⟩
  | .loadKey m =>
      some ⟨.loadKey m.val, fun
        | .ok key => .run { v with publicKey := some key } .rng
        | .error e => .threw v e⟩
  | .rng =>
      some ⟨.autoSeededRng, fun
        | .ok _ => .run v .randomize
        | .error e => .threw v e⟩
  | .randomize =>
      some ⟨.randomize v.key.length, fun
        | .ok bytes => .run { v with key := bytes.val } (.deref v.publicKey)
        | .error e => .threw v e⟩
  | .encrypt key =>
      some ⟨.encrypt key v.key, fun
        | .ok encryptedKey => .run v (.sendKey encryptedKey)
        | .error e => .threw v e⟩
  | .sendKey encryptedKey =>
      some ⟨.mqSend .sendSymmetricKey (some v.rs) encryptedKey, fun _ => .run v .setKey⟩
  | .setKey =>
      some ⟨.setKey v.key, fun
        | .ok _ => .run v (.loop (initialBuffer B))
        | .error e => .threw v e⟩
  | .loop buffer =>
      some ⟨.mqReceive .receivePeriodicMessages (some v.sr), fun
        | none => .run v (.enter kOK)
        | some m => .receive v buffer m⟩
  | .enter status => some ⟨.cinGet, fun _ => .run v (.closeRS status)⟩
  | .closeRS status => some ⟨.mqClose (some v.rs), fun _ => .run v (.closeSR status)⟩
  | .closeSR status => some ⟨.mqClose (some v.sr), fun _ => .run v (.returned status)⟩
  | .returned _ => none
  | .crashed _ => none

/-- The call at a point, and where each answer leads. -/
def ReceiverPoint.next (cfg : Config) : Machine (Op B) Op.Resp (ReceiverPoint B)
  | .openRS =>
      some ⟨.mqOpen .receiverToSender (queueAttr cfg), fun
        | none => .openFailed .receiverToSender
        | some rs => .openSR rs⟩
  | .openSR rs =>
      some ⟨.mqOpen .senderToReceiver (queueAttr cfg), fun
        | none => .openFailed .senderToReceiver
        | some sr => .run (.start sr rs) .recvKey⟩
  | .run v pc => pc.next v
  | .openFailed _ => none
  | .threw _ _ => none

/-! ## The program at a point -/

/-- The values of `main`'s variables at a point, and the comparisons made. -/
def ReceiverPoint.publicKey : ReceiverPoint B → Option (PublicKey B.Pub)
  | .run v _ => v.publicKey
  | .threw v _ => v.publicKey
  | _ => none

def ReceiverPoint.key : ReceiverPoint B → List B.Byte
  | .run v _ => v.key
  | .threw v _ => v.key
  | _ => []

def ReceiverPoint.compared : ReceiverPoint B → List (List B.Byte × Bool)
  | .run v _ => v.compared
  | .threw v _ => v.compared
  | _ => []

@[simp] theorem ReceiverPoint.compared_run (v : ReceiverVars B) (pc : ReceiverPc B) :
    (ReceiverPoint.run v pc).compared = v.compared := rfl

@[simp] theorem ReceiverPoint.compared_threw (v : ReceiverVars B) (e : Exn) :
    (ReceiverPoint.threw v e).compared = v.compared := rfl

/-- The bytes handed to `load_key` are the bytes received. -/
theorem getPublicKey_eq (mq : Mqd) :
    getPublicKey (B := B) mq =
      (mqReceive .getPublicKey mq).bind (fun
        | none => do
            print (.perror "mq_receive")
            return kNOT_OK
        | some m => do
            print (.counted "[Receiver] Received public key (" m.val.length " bytes)\n")
            print (.cout "[Receiver] The received public key raw data \n")
            print (.hex "[Receiver]" m.val)
            publicKeyReceived m.val) := by
  simp only [getPublicKey, take_receiveInto]
  rfl

/-- What is left of the phase switch while it runs. -/
def ReceiverPc.switch (v : ReceiverVars B) : ReceiverPc B → Code B ℕ
  | .recvKey =>
      (getPublicKey (some v.sr)).bind fun _ => receiverSymKeyCase (some v.rs) (some v.sr)
  | .loadKey m =>
      (publicKeyReceived m.val).bind fun _ => receiverSymKeyCase (some v.rs) (some v.sr)
  | .rng =>
      (sendSymmetricKey (some v.rs)).bind fun _ => receiverPeriodicCase (some v.sr)
  | .randomize => (rngSeeded (some v.rs)).bind fun _ => receiverPeriodicCase (some v.sr)
  | .encrypt key =>
      (keyDrawn (some v.rs) v.key (some (.rsa key))).bind
        fun _ => receiverPeriodicCase (some v.sr)
  | .sendKey encryptedKey =>
      (keyEncrypted (some v.rs) encryptedKey).bind fun _ => receiverPeriodicCase (some v.sr)
  | .setKey =>
      (keyedMac v.key).bind fun mac =>
        .loop (.mqReceive .receivePeriodicMessages (some v.sr))
          (⟨initialBuffer B, mac⟩ : ReceiveState B) receiveBody fun _ => .ret kOK
  | .loop buffer =>
      .loop (.mqReceive .receivePeriodicMessages (some v.sr))
        (⟨buffer, ⟨v.key, []⟩⟩ : ReceiveState B) receiveBody fun _ => .ret kOK
  | .enter status => .ret status
  | .crashed f => .undef f
  | _ => .ret kOK

/-- What is left of `main` at a point of the phase switch or the end. -/
def ReceiverPc.prog (v : ReceiverVars B) : ReceiverPc B → Code B ℕ
  | .closeRS status => do
      mqClose (some v.rs)
      mqClose (some v.sr)
      return status
  | .closeSR status => do
      mqClose (some v.sr)
      return status
  | .returned status => .ret status
  | pc => (pc.switch v).bind (receiverEnd (some v.rs) (some v.sr))

/-- What is left of `main` at a point. -/
def ReceiverPoint.prog (cfg : Config) : ReceiverPoint B → Code B ℕ
  | .openRS => receiverMain cfg
  | .openSR rs =>
      (setupSenderCommunication cfg).bind fun opened =>
        if opened.1 ≠ kOK then .ret kNOT_OK else receiverRun (some rs) opened.2
  | .run v pc => pc.prog v
  | .openFailed _ => .ret kNOT_OK
  | .threw _ e => .throw e

/-- The process waits at the point. -/
def ReceiverPoint.At (cfg : Config) (pt : ReceiverPoint B) (p : Process B) : Prop :=
  ∃ obs, p = (pt.prog cfg).settle ⟨pt.publicKey, pt.key, obs⟩ ∧
    comparisons obs = pt.compared

/-! ## The program is the machine -/

section Bisimulation

variable (cfg : Config) (v : ReceiverVars B)

/-- A round of the loop, whatever was received. -/
theorem ReceiverPoint.receive_at (buffer : List B.Byte) (m : Message B)
    (obs : List (Obs B)) (h : comparisons obs = v.compared) {p : Process B}
    (step : Machine.Step Proc.next
      (loopAt (some v.sr) (fun _ => receiverEnd (some v.rs) (some v.sr) kOK) v.key buffer
        ⟨v.publicKey, v.key, obs⟩) (received (some v.sr) (some m)) p) :
    (ReceiverPoint.receive v buffer m).At cfg p := by
  unfold ReceiverPoint.receive
  split_ifs with empty short
  · have nothing : ¬ receivedBytes (some m) > 0 := by simp [receivedBytes, empty]
    rw [step.unique (loopAt_step_break _ _ _ _ _ nothing)]
    exact ⟨_, rfl, by simpa using h⟩
  · rw [step.unique (loopAt_step_short _ _ _ _ _ m (by omega) short)]
    exact ⟨_, rfl, by simpa using h⟩
  · rw [step.unique (loopAt_step_long _ _ _ _ _ m (by omega))]
    exact ⟨_, rfl, by simp [h]⟩

/-- The points of the phase switch and the end of `main`. -/
theorem ReceiverPc.matched (pc : ReceiverPc B) (obs : List (Obs B))
    (h : comparisons obs = v.compared) :
    Machine.Matched (ReceiverPoint.At cfg) (pc.next v)
      (Proc.next ((pc.prog v).settle ⟨v.publicKey, v.key, obs⟩)) := by
  cases pc with
  | recvKey =>
      have unfolded : (ReceiverPc.recvKey : ReceiverPc B).prog v =
          ((getPublicKey (some v.sr)).bind
            fun _ => receiverSymKeyCase (some v.rs) (some v.sr)).bind
              (receiverEnd (some v.rs) (some v.sr)) := rfl
      rw [unfolded, getPublicKey_eq]
      refine .waiting _ _ _ ?_
      intro received
      cases received with
      | none => exact ⟨_, rfl, by simpa using h⟩
      | some m => exact ⟨_, rfl, by simpa using h⟩
  | loadKey m =>
      refine .waiting _ _ _ ?_
      intro loaded
      cases loaded with
      | ok key => cases key <;> exact ⟨_, rfl, by simpa using h⟩
      | error e => exact ⟨_, rfl, by simpa using h⟩
  | rng =>
      refine .waiting _ _ _ ?_
      intro seeded
      cases seeded with
      | ok _ => exact ⟨_, rfl, by simpa using h⟩
      | error e => exact ⟨_, rfl, by simpa using h⟩
  | randomize =>
      refine .waiting _ _ _ ?_
      intro drawn
      cases drawn with
      | ok bytes =>
          obtain ⟨sr, rs, pk, key, compared⟩ := v
          rcases pk with _ | (_ | _) <;> exact ⟨_, rfl, by simpa using h⟩
      | error e => exact ⟨_, rfl, by simpa using h⟩
  | encrypt key =>
      refine .waiting _ _ _ ?_
      intro encrypted
      cases encrypted with
      | ok _ => exact ⟨_, rfl, by simpa using h⟩
      | error e => exact ⟨_, rfl, by simpa using h⟩
  | sendKey encryptedKey =>
      refine .waiting _ _ _ ?_
      intro sent
      cases sent <;> exact ⟨_, rfl, by simpa using h⟩
  | setKey =>
      refine .waiting _ _ _ ?_
      intro keyed
      cases keyed with
      | ok _ => exact ⟨_, rfl, by simpa using h⟩
      | error e => exact ⟨_, rfl, by simpa using h⟩
  | loop buffer =>
      refine .waiting _ _ _ ?_
      intro received
      cases received with
      | none => exact ⟨_, rfl, by simpa using h⟩
      | some m => exact ReceiverPoint.receive_at cfg v buffer m obs h ⟨_, rfl, rfl⟩
  | enter status => exact .waiting _ _ _ fun _ => ⟨_, rfl, by simpa using h⟩
  | closeRS status => exact .waiting _ _ _ fun _ => ⟨_, rfl, by simpa using h⟩
  | closeSR status => exact .waiting _ _ _ fun _ => ⟨_, rfl, by simpa using h⟩
  | returned status => exact .ended
  | crashed f => exact .ended

/-- **The receiver's program is its machine of points.** -/
theorem receiverMain_bisimulation :
    Machine.Bisimulation (ReceiverPoint.next cfg) Proc.next
      (ReceiverPoint.At (B := B) cfg) := by
  rintro pt p ⟨obs, rfl, h⟩
  cases pt with
  | openRS =>
      refine .waiting _ _ _ ?_
      intro opened
      cases opened with
      | none => exact ⟨_, rfl, by simpa [ReceiverPoint.compared] using h⟩
      | some rs => exact ⟨_, rfl, by simpa [ReceiverPoint.compared] using h⟩
  | openSR rs =>
      refine .waiting _ _ _ ?_
      intro opened
      cases opened with
      | none => exact ⟨_, rfl, by simpa [ReceiverPoint.compared] using h⟩
      | some sr =>
          exact ⟨_, rfl, by simpa [ReceiverPoint.compared, ReceiverVars.start] using h⟩
  | run v pc => exact ReceiverPc.matched cfg v pc obs h
  | openFailed name => exact .ended
  | threw v e => exact .ended

end Bisimulation

/-- The process has the key its point says. -/
theorem ReceiverPoint.At.symmetricKey {cfg : Config} {pt : ReceiverPoint B}
    {p : Process B} (here : pt.At cfg p) : p.mem.symmetricKey = pt.key := by
  obtain ⟨obs, rfl, -⟩ := here
  cases pt with
  | run v pc => cases pc <;> rfl
  | _ => rfl

/-- It has made the comparisons its point says. -/
theorem ReceiverPoint.At.comparisons {cfg : Config} {pt : ReceiverPoint B}
    {p : Process B} (here : pt.At cfg p) :
    SecureComm.comparisons p.mem.observed = pt.compared := by
  obtain ⟨obs, rfl, compared⟩ := here
  cases pt with
  | run v pc =>
      cases pc with
      | enter status => exact (comparisons_append _ _).trans (by simpa using compared)
      | _ => exact compared
  | _ => exact compared

/-- A receiver that has just been started. -/
def receiverProcess (cfg : Config) : Process B := (receiverMain cfg).settle (Mem.init B)

theorem receiverProcess_at (cfg : Config) :
    (ReceiverPoint.openRS : ReceiverPoint B).At cfg (receiverProcess cfg) := ⟨_, rfl, rfl⟩

section Calls

variable {cfg : Config}

/-- The receiver unlinks nothing. -/
theorem ReceiverPoint.next_ne_unlink {pt : ReceiverPoint B} {name : QueueName}
    {next : Unit → ReceiverPoint B} : pt.next cfg ≠ some ⟨.mqUnlink name, next⟩ := by
  intro waiting
  cases pt with
  | run v pc => cases pc <;> cases waiting
  | _ => cases waiting

/-- The receiver receives in two places, -/
theorem ReceiverPoint.receive_of_next {pt : ReceiverPoint B} {site : Site} {mq : Mqd}
    {next : Option (Message B) → ReceiverPoint B}
    (waiting : pt.next cfg = some ⟨.mqReceive site mq, next⟩) :
    site = .getPublicKey ∧ (∃ v, pt = .run v .recvKey) ∨
      site = .receivePeriodicMessages ∧ ∃ v buffer, pt = .run v (.loop buffer) := by
  cases pt with
  | run v pc =>
      cases pc with
      | recvKey => cases waiting; exact .inl ⟨rfl, v, rfl⟩
      | loop buffer => cases waiting; exact .inr ⟨rfl, v, buffer, rfl⟩
      | _ => cases waiting
  | _ => cases waiting

/-- and sends in one. -/
theorem ReceiverPoint.send_of_next {pt : ReceiverPoint B} {site : Site} {mq : Mqd}
    {msg : List B.Byte} {next : Bool → ReceiverPoint B}
    (waiting : pt.next cfg = some ⟨.mqSend site mq msg, next⟩) :
    site = .sendSymmetricKey ∧ ∃ v, pt = .run v (.sendKey msg) := by
  cases pt with
  | run v pc =>
      cases pc with
      | sendKey c => cases waiting; exact ⟨rfl, v, rfl⟩
      | _ => cases waiting
  | _ => cases waiting

end Calls

end ReceiverPoints

end SecureComm
