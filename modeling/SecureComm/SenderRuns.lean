import Mathlib.Tactic.Common
import SecureComm.BotanLaws
import SecureComm.SenderPoints

/-!
# Runs of the sender's main

Every run of the sender, whatever its calls return.  A trace is read as what it
opened, what it unlinked and what was thrown; `SenderPoint.account_runs` says that the
point a run has reached determines all three, and the exits are read off from it.
-/

namespace SecureComm

open Interaction

section SenderRuns

variable {B : Botan}

/-- The open an event is, and whether it succeeded. -/
def opened? : Event (Op B) Op.Resp → Option (QueueName × Bool)
  | ⟨.mqOpen name _, mq⟩ => some (name, Option.isSome mq)
  | _ => none

/-- The name an event unlinks. -/
def unlinked? : Event (Op B) Op.Resp → Option QueueName
  | ⟨.mqUnlink name, _⟩ => some name
  | _ => none

/-- The exception with which a Botan call answers. -/
def thrown? : Event (Op B) Op.Resp → Option Exn
  | ⟨.autoSeededRng, .error e⟩ => some e
  | ⟨.rsaPrivateKey _, .error e⟩ => some e
  | ⟨.randomize _, .error e⟩ => some e
  | ⟨.loadKey _, .error e⟩ => some e
  | ⟨.encrypt _ _, .error e⟩ => some e
  | ⟨.decrypt _ _, .error e⟩ => some e
  | ⟨.setKey _, .error e⟩ => some e
  | _ => none

/-- The opens of a trace, in order. -/
def opens (t : List (Event (Op B) Op.Resp)) : List (QueueName × Bool) :=
  t.filterMap opened?

/-- The names a trace unlinks, in order. -/
def unlinks (t : List (Event (Op B) Op.Resp)) : List QueueName := t.filterMap unlinked?

/-- What Botan threw during a trace. -/
def throws (t : List (Event (Op B) Op.Resp)) : List Exn := t.filterMap thrown?

/-- Every name that was opened successfully has been unlinked. -/
def AllUnlinked (t : List (Event (Op B) Op.Resp)) : Prop :=
  ∀ name, (name, true) ∈ opens t → name ∈ unlinks t

/-! ## What a point says about the run before it -/

/-- What a trace opened, unlinked and threw. -/
structure Account where
  opened : List (QueueName × Bool)
  unlinked : List QueueName
  thrown : List Exn

/-- The account of a trace. -/
def accountOf (t : List (Event (Op B) Op.Resp)) : Account :=
  ⟨opens t, unlinks t, throws t⟩

/-- One event more. -/
def Account.add (a : Account) (e : Event (Op B) Op.Resp) : Account :=
  ⟨a.opened ++ (opened? e).toList, a.unlinked ++ (unlinked? e).toList,
    a.thrown ++ (thrown? e).toList⟩

theorem accountOf_snoc (t : List (Event (Op B) Op.Resp)) (e : Event (Op B) Op.Resp) :
    accountOf (t ++ [e]) = (accountOf t).add e := by
  have single : ∀ {β : Type} (f : Event (Op B) Op.Resp → Option β),
      [e].filterMap f = (f e).toList := by
    intro β f
    cases h : f e <;> simp [h]
  simp [accountOf, Account.add, opens, unlinks, throws, single]

/-- The account a point of the sender determines. -/
def SenderPoint.account : SenderPoint B → Account
  | .openSR => ⟨[], [], []⟩
  | .openRS _ => ⟨[(.senderToReceiver, true)], [], []⟩
  | .openFailed .senderToReceiver => ⟨[(.senderToReceiver, false)], [], []⟩
  | .openFailed .receiverToSender =>
      ⟨[(.senderToReceiver, true), (.receiverToSender, false)], [], []⟩
  | .threw _ e => ⟨[(.senderToReceiver, true), (.receiverToSender, true)], [], [e]⟩
  | .run _ (.unlinkSR _) =>
      ⟨[(.senderToReceiver, true), (.receiverToSender, true)], [.receiverToSender], []⟩
  | .run _ (.returned _) =>
      ⟨[(.senderToReceiver, true), (.receiverToSender, true)],
        [.receiverToSender, .senderToReceiver], []⟩
  | _ => ⟨[(.senderToReceiver, true), (.receiverToSender, true)], [], []⟩

section Points

variable (cfg : Config)

/-- One call from the phase switch on. -/
theorem SenderPc.account_step (v : SenderVars B) (pc : SenderPc B)
    {e : Event (Op B) Op.Resp} {pt' : SenderPoint B}
    (step : Machine.Step (SenderPoint.next cfg) (.run v pc) e pt') :
    (SenderPoint.run v pc).account.add e = pt'.account := by
  have loop : ∀ n i, (SenderPoint.run v (.loop n i)).account =
      ⟨[(.senderToReceiver, true), (.receiverToSender, true)], [], []⟩ := by
    intro n i
    cases n <;> rfl
  obtain ⟨op, r⟩ := e
  obtain ⟨k, waiting, rfl⟩ := step
  cases pc with
  | sendKey => cases waiting; cases r <;> rfl
  | sendKeyFailed => cases waiting; rfl
  | recvKey => cases waiting; cases r <;> rfl
  | recvKeyFailed => cases waiting; rfl
  | rngKey m => cases waiting; cases r <;> rfl
  | decrypt m => cases waiting; cases r <;> rfl
  | setKey =>
      cases waiting
      cases r with
      | ok _ => exact (loop _ _).symm
      | error e => rfl
  | frame i n =>
      cases waiting
      cases r with
      | false => rfl
      | true => exact (loop _ _).symm
  | closeSR status => cases waiting; rfl
  | closeRS status => cases waiting; rfl
  | enter status => cases waiting; rfl
  | unlinkRS status => cases waiting; rfl
  | unlinkSR status => cases waiting; rfl
  | returned status => cases waiting

/-- One call. -/
theorem SenderPoint.account_step {pt pt' : SenderPoint B} {e : Event (Op B) Op.Resp}
    (step : Machine.Step (SenderPoint.next cfg) pt e pt') :
    pt.account.add e = pt'.account := by
  obtain ⟨op, r⟩ := e
  obtain ⟨k, waiting, rfl⟩ := step
  cases pt with
  | run v pc => exact SenderPc.account_step cfg v pc ⟨k, waiting, rfl⟩
  | openSR => cases waiting; cases r <;> rfl
  | openRS sr => cases waiting; cases r <;> rfl
  | rng sr rs => cases waiting; cases r <;> rfl
  | keygen sr rs => cases waiting; cases r <;> rfl
  | randomize sr rs sk =>
      cases waiting
      cases r with
      | ok bytes =>
          -- the first phase sends, or gives up on a key too large
          simp only [SenderPc.start]
          split_ifs <;> rfl
      | error e => rfl
  | openFailed name => cases waiting
  | threw key e => cases waiting

/-- **The point a run has reached accounts for the run.** -/
theorem SenderPoint.account_runs {t : List (Event (Op B) Op.Resp)} {pt : SenderPoint B}
    (run : Machine.Runs (SenderPoint.next cfg) .openSR t pt) : accountOf t = pt.account :=
  run.induction (I := fun t pt => accountOf t = pt.account) rfl
    fun t pt e pt' _ h step => by
      rw [accountOf_snoc, h, SenderPoint.account_step cfg step]

/-- The ends of the sender. -/
theorem SenderPoint.ended_cases {pt : SenderPoint B} (atEnd : pt.next cfg = none) :
    (∃ v status, pt = .run v (.returned status)) ∨ (∃ name, pt = .openFailed name) ∨
      ∃ key e, pt = .threw key e := by
  cases pt with
  | run v pc =>
      cases pc with
      | returned status => exact .inl ⟨v, status, rfl⟩
      | _ => cases atEnd
  | openFailed name => exact .inr (.inl ⟨name, rfl⟩)
  | threw key e => exact .inr (.inr ⟨key, e, rfl⟩)
  | _ => cases atEnd

/-- Where the sender's process is after a run. -/
theorem senderProcess_runs {t : List (Event (Op B) Op.Resp)} {p : Process B}
    (run : Machine.Runs Proc.next (senderProcess cfg) t p) :
    ∃ pt, Machine.Runs (SenderPoint.next cfg) .openSR t pt ∧ pt.At cfg p :=
  (senderMain_bisimulation cfg).runs_right (senderProcess_at cfg) run

end Points

/-! ## Every way out -/

/-- **What was opened has been unlinked, exactly when nothing was opened or `main`
ran to its end**: the two `MqUnlinker` objects are built there. -/
theorem allUnlinked_iff (cfg : Config) (t : List (Event (Op B) Op.Resp)) (p : Process B)
    (run : Machine.Runs Proc.next (senderProcess cfg) t p) (ended : p.next = none) :
    AllUnlinked t ↔ (.senderToReceiver, false) ∈ opens t ∨
      ((.receiverToSender, true) ∈ opens t ∧ throws t = []) := by
  obtain ⟨pt, reached, here⟩ := senderProcess_runs cfg run
  have atEnd := (senderMain_bisimulation cfg).ended_left here ended
  have books := SenderPoint.account_runs cfg reached
  have opened : opens t = pt.account.opened := congrArg Account.opened books
  have unlinked : unlinks t = pt.account.unlinked := congrArg Account.unlinked books
  have thrown : throws t = pt.account.thrown := congrArg Account.thrown books
  rw [AllUnlinked, opened, unlinked, thrown]
  obtain ⟨v, status, rfl⟩ | ⟨name, rfl⟩ | ⟨key, e, rfl⟩ :=
    SenderPoint.ended_cases cfg atEnd
  · -- the normal end: both names were opened, and both destructors have run
    simp [SenderPoint.account]
  · cases name with
    | senderToReceiver => simp [SenderPoint.account]
    | receiverToSender => simp [SenderPoint.account]
  · -- an exception leaves `main` before the objects exist
    constructor
    · intro allUnlinked
      have absent := allUnlinked .senderToReceiver (by simp [SenderPoint.account])
      simp [SenderPoint.account] at absent
    · rintro (failed | ⟨-, nothingThrown⟩)
      · simp [SenderPoint.account] at failed
      · simp [SenderPoint.account] at nothingThrown

/-- The handshake of a sender that reads `m` and decrypts it with `result`. -/
def handshakeTrace (cfg : Config) (m : Message sampleBotan)
    (result : Except Exn (List sampleBotan.Byte)) :
    List (Event (Op sampleBotan) Op.Resp) :=
  [⟨.mqOpen .senderToReceiver (queueAttr cfg), some (0 : ℕ)⟩,
    ⟨.mqOpen .receiverToSender (queueAttr cfg), some (1 : ℕ)⟩,
    ⟨.autoSeededRng, .ok ()⟩,
    ⟨.rsaPrivateKey 2048, .ok samplePrivateKey⟩,
    ⟨.randomize kSymKeySize, .ok ⟨Sample.localKey, by decide⟩⟩,
    ⟨.mqSend .sendPublicKey (some (0 : ℕ))
      (sampleBotan.subjectPublicKey (sampleBotan.publicKey samplePrivateKey)), true⟩,
    ⟨.mqReceive .receiveSymmetricKey (some (1 : ℕ)), some m⟩,
    ⟨.autoSeededRng, .ok ()⟩,
    ⟨.decrypt samplePrivateKey m.val, result⟩]

/-- The rest of a run that sends one frame. -/
def frameTrace : List (Event (Op sampleBotan) Op.Resp) :=
  [⟨.setKey sampleKey, .ok ()⟩,
    ⟨.mqSend .sendPeriodicMessage (some (0 : ℕ)) (frameBytes sampleKey 0), true⟩,
    ⟨.mqClose (some (0 : ℕ)), ()⟩,
    ⟨.mqClose (some (1 : ℕ)), ()⟩,
    ⟨.cinGet, ()⟩,
    ⟨.mqUnlink .receiverToSender, ()⟩,
    ⟨.mqUnlink .senderToReceiver, ()⟩]

/-- The sample handshake as the points go. -/
theorem handshakeTrace_runs (cfg : Config) (m : Message sampleBotan)
    (result : Except Exn (List sampleBotan.Byte)) {pt : SenderPoint sampleBotan}
    (last : Machine.Step (SenderPoint.next cfg)
      (.run ⟨0, 1, samplePrivateKey, Sample.localKey⟩ (.decrypt m))
      ⟨.decrypt samplePrivateKey m.val, result⟩ pt) :
    Machine.Runs (SenderPoint.next cfg) .openSR (handshakeTrace cfg m result) pt := by
  have start : SenderPc.start (B := sampleBotan) ⟨0, 1, samplePrivateKey, Sample.localKey⟩ =
      .sendKey := SenderPc.start_of_le (sampleBotan_lawful.subjectPublicKey_length _)
  refine .cons ⟨_, rfl, rfl⟩ <| .cons ⟨_, rfl, rfl⟩ <| .cons ⟨_, rfl, rfl⟩ <|
    .cons ⟨_, rfl, rfl⟩ <| .cons ⟨_, rfl, rfl⟩ ?_
  simp only [start]
  exact .cons ⟨_, rfl, rfl⟩ <| .cons ⟨_, rfl, rfl⟩ <| .cons ⟨_, rfl, rfl⟩ <|
    .cons last (.nil _)

/-- A sender that sends one frame and is closed. -/
theorem frameTrace_runs :
    ∃ p, Machine.Runs Proc.next (senderProcess ⟨1, 10⟩)
        (handshakeTrace ⟨1, 10⟩ sampleCiphertext (.ok sampleKey) ++ frameTrace) p ∧
      p.next = none ∧ p.prog = .ret kOK := by
  have run : Machine.Runs (SenderPoint.next ⟨1, 10⟩) .openSR
      (handshakeTrace ⟨1, 10⟩ sampleCiphertext (.ok sampleKey) ++ frameTrace)
      (.run ⟨0, 1, samplePrivateKey, sampleKey⟩ (.returned kOK)) :=
    (handshakeTrace_runs ⟨1, 10⟩ sampleCiphertext (.ok sampleKey) ⟨_, rfl, rfl⟩).append <|
      .cons ⟨_, rfl, rfl⟩ <| .cons ⟨_, rfl, rfl⟩ <| .cons ⟨_, rfl, rfl⟩ <|
      .cons ⟨_, rfl, rfl⟩ <| .cons ⟨_, rfl, rfl⟩ <| .cons ⟨_, rfl, rfl⟩ <|
      .cons ⟨_, rfl, rfl⟩ <| .nil _
  obtain ⟨p, reached, pk, obs, rfl⟩ :=
    (senderMain_bisimulation ⟨1, 10⟩).runs_left (senderProcess_at ⟨1, 10⟩) run
  exact ⟨_, reached, rfl, rfl⟩

/-- It has unlinked both names. -/
theorem allUnlinked_iff_frameTrace :
    AllUnlinked (handshakeTrace ⟨1, 10⟩ sampleCiphertext (.ok sampleKey) ++ frameTrace) := by
  obtain ⟨p, reached, ended, -⟩ := frameTrace_runs
  exact (allUnlinked_iff ⟨1, 10⟩ _ _ reached ended).mpr (.inr ⟨by decide, by decide⟩)

/-- One byte, which is no ciphertext. -/
def oneByteCiphertext : Message sampleBotan := ⟨[(0 : UInt8)], by decide⟩

/-- **An invalid ciphertext leaves both queues behind.** -/
theorem not_allUnlinked_of_decodingError :
    ¬ ∀ (t : List (Event (Op sampleBotan) Op.Resp)) (p : Process sampleBotan),
      Machine.Runs Proc.next (senderProcess Config.source) t p → p.next = none →
      AllUnlinked t := by
  intro claim
  have run := handshakeTrace_runs Config.source oneByteCiphertext
    (.error .decodingError) ⟨_, rfl, rfl⟩
  obtain ⟨p, reached, pk, obs, rfl⟩ := (senderMain_bisimulation Config.source).runs_left
    (senderProcess_at Config.source) run
  have unlinked := claim _ _ reached rfl .senderToReceiver (by decide)
  exact absurd unlinked (by decide)

end SenderRuns

end SecureComm
