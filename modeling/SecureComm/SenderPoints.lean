import Mathlib.Tactic.Common
import SecureComm.Frames

/-!
# Where the sender waits

`SenderPoint` lists the calls the sender's `main` can wait in, each with the
variables that are still live there, and `SenderPoint.next` says where every
answer leads.  `senderMain_bisimulation` shows that the program is this machine,
so that whatever is proved about its runs is proved about the program's.
-/

namespace SecureComm

open Interaction

section SenderPoints

variable {B : Botan}

/-- The variables of `main` once its keys exist: both descriptors, the private key
and `symmetric_key`. -/
structure SenderVars (B : Botan) where
  sr : ℕ
  rs : ℕ
  privateKey : B.Priv
  key : List B.Byte

/-- The calls of the sender from the phase switch on. -/
inductive SenderPc (B : Botan)
  | sendKey
  | sendKeyFailed
  | recvKey
  | recvKeyFailed
  | rngKey (m : Message B)
  | decrypt (m : Message B)
  | setKey
  /-- Frame `i`, with `n` more after it. -/
  | frame (i n : ℕ)
  | closeSR (status : ℕ)
  | closeRS (status : ℕ)
  | enter (status : ℕ)
  | unlinkRS (status : ℕ)
  | unlinkSR (status : ℕ)
  | returned (status : ℕ)

/-- The calls of the sender, and its ends. -/
inductive SenderPoint (B : Botan)
  | openSR
  | openRS (sr : ℕ)
  | rng (sr rs : ℕ)
  | keygen (sr rs : ℕ)
  | randomize (sr rs : ℕ) (privateKey : B.Priv)
  | run (v : SenderVars B) (pc : SenderPc B)
  | openFailed (name : QueueName)
  | threw (key : List B.Byte) (e : Exn)

/-- Where the loop over the frames stands with `n` rounds to go. -/
def SenderPc.loop : (n i : ℕ) → SenderPc B
  | 0, _ => .closeSR kOK
  | n + 1, i => .frame i n

/-- `send_public_key` sends, or gives up on a key too large for a message. -/
def SenderPc.start (v : SenderVars B) : SenderPc B :=
  if (B.subjectPublicKey (B.publicKey v.privateKey)).length > kMessageSize then .recvKey
  else .sendKey

theorem SenderPc.start_of_le {v : SenderVars B}
    (fits : (B.subjectPublicKey (B.publicKey v.privateKey)).length ≤ kMessageSize) :
    SenderPc.start v = .sendKey := if_neg (by omega)

/-- The call at a point of the phase switch or the end of `main`, and where each
answer leads. -/
def SenderPc.next (cfg : Config) (v : SenderVars B) :
    SenderPc B → Option ((op : Op B) × (op.Resp → SenderPoint B))
  | .sendKey =>
      some ⟨.mqSend .sendPublicKey (some v.sr) (B.subjectPublicKey (B.publicKey v.privateKey)),
        fun
          | false => .run v .sendKeyFailed
          | true => .run v .recvKey⟩
  | .sendKeyFailed => some ⟨.cinGet, fun _ => .run v .recvKey⟩
  | .recvKey =>
      some ⟨.mqReceive .receiveSymmetricKey (some v.rs), fun
        | none => .run v .recvKeyFailed
        | some m => .run v (.rngKey m)⟩
  | .recvKeyFailed => some ⟨.cinGet, fun _ => .run v .setKey⟩
  | .rngKey m =>
      some ⟨.autoSeededRng, fun
        | .ok _ => .run v (.decrypt m)
        | .error e => .threw v.key e⟩
  | .decrypt m =>
      some ⟨.decrypt v.privateKey m.val, fun
        | .ok key => .run { v with key := key } .setKey
        | .error e => .threw v.key e⟩
  | .setKey =>
      some ⟨.setKey v.key, fun
        | .ok _ => .run v (.loop cfg.numMessagesToSend 0)
        | .error e => .threw v.key e⟩
  | .frame i n =>
      some ⟨.mqSend .sendPeriodicMessage (some v.sr) (frameBytes v.key i), fun
        | false => .run v (.closeSR kNOT_OK)
        | true => .run v (.loop n (i + 1))⟩
  | .closeSR status => some ⟨.mqClose (some v.sr), fun _ => .run v (.closeRS status)⟩
  | .closeRS status => some ⟨.mqClose (some v.rs), fun _ => .run v (.enter status)⟩
  | .enter status => some ⟨.cinGet, fun _ => .run v (.unlinkRS status)⟩
  | .unlinkRS status =>
      some ⟨.mqUnlink .receiverToSender, fun _ => .run v (.unlinkSR status)⟩
  | .unlinkSR status =>
      some ⟨.mqUnlink .senderToReceiver, fun _ => .run v (.returned status)⟩
  | .returned _ => none

/-- The call at a point, and where each answer leads. -/
def SenderPoint.next (cfg : Config) : Machine (Op B) Op.Resp (SenderPoint B)
  | .openSR =>
      some ⟨.mqOpen .senderToReceiver (queueAttr cfg), fun
        | none => .openFailed .senderToReceiver
        | some sr => .openRS sr⟩
  | .openRS sr =>
      some ⟨.mqOpen .receiverToSender (queueAttr cfg), fun
        | none => .openFailed .receiverToSender
        | some rs => .rng sr rs⟩
  | .rng sr rs =>
      some ⟨.autoSeededRng, fun
        | .ok _ => .keygen sr rs
        | .error e => .threw [] e⟩
  | .keygen sr rs =>
      some ⟨.rsaPrivateKey 2048, fun
        | .ok sk => .randomize sr rs sk
        | .error e => .threw [] e⟩
  | .randomize sr rs sk =>
      some ⟨.randomize kSymKeySize, fun
        | .ok bytes => .run ⟨sr, rs, sk, bytes.val⟩ (.start ⟨sr, rs, sk, bytes.val⟩)
        | .error e => .threw (List.replicate kSymKeySize (B.lit 0)) e⟩
  | .run v pc => pc.next cfg v
  | .openFailed _ => none
  | .threw _ _ => none

/-! ## The program at a point -/

/-- The bytes handed to `decrypt` are the bytes received. -/
theorem receiveSymmetricKey_eq (mq : Mqd) (privateKey : B.Priv) :
    receiveSymmetricKey mq privateKey =
      (mqReceive .receiveSymmetricKey mq).bind (fun
        | none => do
            print (.perror "mq_receive")
            print (.cout "[Sender]Symmetric key receive failed. Press Enter to exit.")
            cinGet
            return kNOT_OK
        | some m => do
            print (.counted "[Sender] Received encrypted symmetric key (" m.val.length
              " bytes)\n")
            print (.hex "[Sender]" m.val)
            keyReceived privateKey m.val) := by
  simp only [receiveSymmetricKey, take_receiveInto]
  rfl

/-- The value of `symmetric_key` at a point. -/
def SenderPoint.key : SenderPoint B → List B.Byte
  | .randomize _ _ _ => List.replicate kSymKeySize (B.lit 0)
  | .run v _ => v.key
  | .threw key _ => key
  | _ => []

/-- What is left of the phase switch while it runs. -/
def SenderPc.switch (cfg : Config) (v : SenderVars B) : SenderPc B → Code B ℕ
  | .sendKey =>
      (publicKeyFits (some v.sr) (B.subjectPublicKey (B.publicKey v.privateKey))).bind
        fun _ => senderSymKeyCase cfg (some v.sr) (some v.rs) v.privateKey
  | .sendKeyFailed =>
      (cinGet.bind fun _ => .ret kNOT_OK).bind
        fun _ => senderSymKeyCase cfg (some v.sr) (some v.rs) v.privateKey
  | .recvKey =>
      (receiveSymmetricKey (some v.rs) v.privateKey).bind
        fun _ => senderPeriodicCase cfg (some v.sr)
  | .recvKeyFailed =>
      (cinGet.bind fun _ => .ret kNOT_OK).bind fun _ => senderPeriodicCase cfg (some v.sr)
  | .rngKey m =>
      (keyReceived v.privateKey m.val).bind fun _ => senderPeriodicCase cfg (some v.sr)
  | .decrypt m =>
      (rngSeededForKey v.privateKey m.val).bind fun _ => senderPeriodicCase cfg (some v.sr)
  | .setKey =>
      (keyedMac v.key).bind fun mac =>
        sendLoop (some v.sr) cfg.numMessagesToSend 0 (bufferBefore v.key 0) mac
  | .frame i n => sendLoop (some v.sr) (n + 1) i (bufferBefore v.key i) ⟨v.key, []⟩
  | .closeSR status => .ret status
  | _ => .ret kOK

/-- What is left of `main` at a point of the phase switch or the end. -/
def SenderPc.prog (cfg : Config) (v : SenderVars B) : SenderPc B → Code B ℕ
  | .closeRS status =>
      mqUnlinker .senderToReceiver (mqUnlinker .receiverToSender (do
        mqClose (some v.rs)
        print (.cout "Sender done. Press Enter to exit.")
        cinGet
        return status))
  | .enter status =>
      mqUnlinker .senderToReceiver (mqUnlinker .receiverToSender (do
        cinGet
        return status))
  | .unlinkRS status =>
      mqUnlinker .senderToReceiver (mqUnlinker .receiverToSender (return status))
  | .unlinkSR status => mqUnlinker .senderToReceiver (return status)
  | .returned status => .ret status
  | pc => (pc.switch cfg v).bind (senderEnd (some v.sr) (some v.rs))

/-- What is left of `main` at a point. -/
def SenderPoint.prog (cfg : Config) : SenderPoint B → Code B ℕ
  | .openSR => senderMain cfg
  | .openRS sr =>
      (setupReceiverCommunication cfg).bind fun opened =>
        if opened.1 ≠ kOK then .ret kNOT_OK else senderRun cfg (some sr) opened.2
  | .rng sr rs =>
      autoSeededRng.bind fun _ =>
        (rsaPrivateKey 2048).bind (senderFromKeys cfg (some sr) (some rs))
  | .keygen sr rs => (rsaPrivateKey 2048).bind (senderFromKeys cfg (some sr) (some rs))
  | .randomize sr rs sk =>
      (SecureComm.randomize kSymKeySize).bind fun symmetricKey =>
        senderKeyDrawn cfg (some sr) (some rs) sk symmetricKey.val
  | .run v pc => pc.prog cfg v
  | .openFailed _ => .ret kNOT_OK
  | .threw _ e => .throw e

/-- The process waits at the point. -/
def SenderPoint.At (cfg : Config) (pt : SenderPoint B) (p : Process B) : Prop :=
  ∃ pk obs, p = (pt.prog cfg).settle ⟨pk, pt.key, obs⟩

/-! ## The program is the machine -/

section Bisimulation

variable (cfg : Config) (v : SenderVars B)

theorem SenderPoint.At.run {pc : SenderPc B} {p : Process B}
    {pk : Option (PublicKey B.Pub)} {obs : List (Obs B)}
    (h : p = (pc.prog cfg v).settle ⟨pk, v.key, obs⟩) :
    (SenderPoint.run v pc).At cfg p := ⟨pk, obs, h⟩

/-- The loop over the frames, wherever it stands. -/
theorem SenderPc.settle_loop (n i : ℕ) (mem : Mem B) :
    ((sendLoop (some v.sr) n i (bufferBefore v.key i) ⟨v.key, []⟩).bind
        (senderEnd (some v.sr) (some v.rs))).settle mem =
      ((SenderPc.loop n i).prog cfg v).settle mem := by
  cases n with
  | zero => rfl
  | succ n => rfl

/-- The points of the phase switch and the end of `main`. -/
theorem SenderPc.matched (pc : SenderPc B) (pk : Option (PublicKey B.Pub))
    (obs : List (Obs B)) :
    Machine.Matched (SenderPoint.At cfg) (pc.next cfg v)
      (Proc.next ((pc.prog cfg v).settle ⟨pk, v.key, obs⟩)) := by
  cases pc with
  | sendKey =>
      refine .waiting _ _ _ ?_
      intro sent
      cases sent with
      | false => exact ⟨_, _, rfl⟩
      | true => exact ⟨_, _, rfl⟩
  | sendKeyFailed => exact .waiting _ _ _ fun _ => ⟨_, _, rfl⟩
  | recvKey =>
      have unfolded : (SenderPc.recvKey : SenderPc B).prog cfg v =
          ((receiveSymmetricKey (some v.rs) v.privateKey).bind
            fun _ => senderPeriodicCase cfg (some v.sr)).bind
              (senderEnd (some v.sr) (some v.rs)) := rfl
      rw [unfolded, receiveSymmetricKey_eq]
      refine .waiting _ _ _ ?_
      intro received
      cases received with
      | none => exact ⟨_, _, rfl⟩
      | some m => exact ⟨_, _, rfl⟩
  | recvKeyFailed => exact .waiting _ _ _ fun _ => ⟨_, _, rfl⟩
  | rngKey m =>
      refine .waiting _ _ _ ?_
      intro seeded
      cases seeded with
      | ok _ => exact ⟨_, _, rfl⟩
      | error e => exact ⟨_, _, rfl⟩
  | decrypt m =>
      refine .waiting _ _ _ ?_
      intro decrypted
      cases decrypted with
      | ok _ => exact ⟨_, _, rfl⟩
      | error e => exact ⟨_, _, rfl⟩
  | setKey =>
      refine .waiting _ _ _ ?_
      intro keyed
      cases keyed with
      | ok _ => exact SenderPoint.At.run cfg v (settle_loop cfg v _ 0 _)
      | error e => exact ⟨_, _, rfl⟩
  | frame i n =>
      have unfolded : (SenderPc.frame i n : SenderPc B).prog cfg v =
          (sendLoop (some v.sr) (n + 1) i (bufferBefore v.key i) ⟨v.key, []⟩).bind
            (senderEnd (some v.sr) (some v.rs)) := rfl
      rw [unfolded, sendLoop_succ]
      refine .waiting _ _ _ ?_
      intro sent
      cases sent with
      | false => exact ⟨_, _, rfl⟩
      | true => exact SenderPoint.At.run cfg v (settle_loop cfg v n (i + 1) _)
  | closeSR status => exact .waiting _ _ _ fun _ => ⟨_, _, rfl⟩
  | closeRS status => exact .waiting _ _ _ fun _ => ⟨_, _, rfl⟩
  | enter status => exact .waiting _ _ _ fun _ => ⟨_, _, rfl⟩
  | unlinkRS status => exact .waiting _ _ _ fun _ => ⟨_, _, rfl⟩
  | unlinkSR status => exact .waiting _ _ _ fun _ => ⟨_, _, rfl⟩
  | returned status => exact .ended

/-- After `randomize`, `main` is in its phase switch. -/
theorem SenderPc.settle_start (pk : Option (PublicKey B.Pub)) (obs : List (Obs B)) :
    (SenderPoint.run v (.start v)).At cfg
      (((senderSwitch cfg (some v.sr) (some v.rs) v.privateKey 0).bind
        (senderEnd (some v.sr) (some v.rs))).settle ⟨pk, v.key, obs⟩) := by
  by_cases large : (B.subjectPublicKey (B.publicKey v.privateKey)).length > kMessageSize
  · simp only [senderSwitch, senderPublicKeyCase, sendPublicKey, large, if_true,
      SenderPc.start]
    exact ⟨_, _, rfl⟩
  · simp only [senderSwitch, senderPublicKeyCase, sendPublicKey, large, if_false,
      SenderPc.start]
    exact ⟨_, _, rfl⟩

/-- **The sender's program is its machine of points.** -/
theorem senderMain_bisimulation :
    Machine.Bisimulation (SenderPoint.next cfg) Proc.next
      (SenderPoint.At (B := B) cfg) := by
  rintro pt p ⟨pk, obs, rfl⟩
  cases pt with
  | openSR =>
      refine .waiting _ _ _ ?_
      intro opened
      cases opened with
      | none => exact ⟨_, _, rfl⟩
      | some sr => exact ⟨_, _, rfl⟩
  | openRS sr =>
      refine .waiting _ _ _ ?_
      intro opened
      cases opened with
      | none => exact ⟨_, _, rfl⟩
      | some rs => exact ⟨_, _, rfl⟩
  | rng sr rs =>
      refine .waiting _ _ _ ?_
      intro seeded
      cases seeded with
      | ok _ => exact ⟨_, _, rfl⟩
      | error e => exact ⟨_, _, rfl⟩
  | keygen sr rs =>
      refine .waiting _ _ _ ?_
      intro made
      cases made with
      | ok sk => exact ⟨_, _, rfl⟩
      | error e => exact ⟨_, _, rfl⟩
  | randomize sr rs sk =>
      refine .waiting _ _ _ ?_
      intro drawn
      cases drawn with
      | ok bytes => exact SenderPc.settle_start cfg ⟨sr, rs, sk, bytes.val⟩ _ _
      | error e => exact ⟨_, _, rfl⟩
  | run v pc => exact SenderPc.matched cfg v pc pk obs
  | openFailed name => exact .ended
  | threw key e => exact .ended

end Bisimulation

/-- The process has the key its point says. -/
theorem SenderPoint.At.symmetricKey {cfg : Config} {pt : SenderPoint B} {p : Process B}
    (here : pt.At cfg p) : p.mem.symmetricKey = pt.key := by
  obtain ⟨pk, obs, rfl⟩ := here
  cases pt with
  | run v pc => cases pc <;> rfl
  | _ => rfl

/-- A sender that has just been started. -/
def senderProcess (cfg : Config) : Process B := (senderMain cfg).settle (Mem.init B)

theorem senderProcess_at (cfg : Config) :
    (SenderPoint.openSR : SenderPoint B).At cfg (senderProcess cfg) := ⟨_, _, rfl⟩

section Calls

variable {cfg : Config}

/-- The sender unlinks in two places, -/
theorem SenderPoint.unlink_of_next {pt : SenderPoint B} {name : QueueName}
    {next : Unit → SenderPoint B} (waiting : pt.next cfg = some ⟨.mqUnlink name, next⟩) :
    ∃ v status, pt = .run v (.unlinkRS status) ∨ pt = .run v (.unlinkSR status) := by
  cases pt with
  | run v pc =>
      cases pc with
      | unlinkRS status => exact ⟨v, status, .inl rfl⟩
      | unlinkSR status => exact ⟨v, status, .inr rfl⟩
      | _ => cases waiting
  | _ => cases waiting

/-- receives in one, -/
theorem SenderPoint.receive_of_next {pt : SenderPoint B} {site : Site} {mq : Mqd}
    {next : Option (Message B) → SenderPoint B}
    (waiting : pt.next cfg = some ⟨.mqReceive site mq, next⟩) :
    site = .receiveSymmetricKey ∧ ∃ v, pt = .run v .recvKey := by
  cases pt with
  | run v pc =>
      cases pc with
      | recvKey => cases waiting; exact ⟨rfl, v, rfl⟩
      | _ => cases waiting
  | _ => cases waiting

/-- and sends in two. -/
theorem SenderPoint.send_of_next {pt : SenderPoint B} {site : Site} {mq : Mqd}
    {msg : List B.Byte} {next : Bool → SenderPoint B}
    (waiting : pt.next cfg = some ⟨.mqSend site mq msg, next⟩) :
    site = .sendPublicKey ∧ (∃ v, pt = .run v .sendKey) ∨
      site = .sendPeriodicMessage ∧ ∃ v i n, pt = .run v (.frame i n) := by
  cases pt with
  | run v pc =>
      cases pc with
      | sendKey => cases waiting; exact .inl ⟨rfl, v, rfl⟩
      | frame i n => cases waiting; exact .inr ⟨rfl, v, i, n, rfl⟩
      | _ => cases waiting
  | _ => cases waiting

end Calls

end SenderPoints

end SecureComm
