import Mathlib.Tactic.Common
import SecureComm.ReceiverRuns
import SecureComm.SenderRuns
import SecureComm.Sessions

/-!
# What the exit status says

Both programs keep one `status` for three phases, and every phase assigns it anew.
For every run that gets to the last `return` of its `main`, this module compares
the value returned there with what the phase functions did.
-/

namespace SecureComm

open Interaction

section ExitStatus

variable {B : Botan}

/-! ## Completed phases -/

/-- The process a role runs. -/
def Role.process (cfg : Config) : Role → Process B
  | .sender => senderProcess cfg
  | .receiver => receiverProcess cfg

/-- A queue operation of a phase function has succeeded, and what it delivered has
passed the check that is made at once. -/
def Succeeds : Event (Op B) Op.Resp → Prop
  | ⟨.mqSend _ _ _, sent⟩ => sent = true
  | ⟨.mqReceive .receivePeriodicMessages _, delivered⟩ => receivedBytes delivered > 0
  | ⟨.mqReceive _ _, delivered⟩ => delivered ≠ none
  | ⟨.rsaPrivateKey _, .ok privateKey⟩ =>
      (B.subjectPublicKey (B.publicKey privateKey)).length ≤ kMessageSize
  | ⟨.loadKey _, .ok key⟩ => key ≠ .other
  | _ => True

/-- Every phase function of a run has completed its work: each queue operation has
succeeded, and each check has passed, the verification of the tags included. -/
structure PhasesCompleted (t : List (Event (Op B) Op.Resp)) : Prop where
  succeeds : ∀ e ∈ t, Succeeds e
  verified : ∀ key mq m, (⟨.setKey key, .ok ()⟩ : Event (Op B) Op.Resp) ∈ t →
    (⟨.mqReceive .receivePeriodicMessages mq, some m⟩ : Event (Op B) Op.Resp) ∈ t →
      TagMatches key m.val

/-- A run of `main` in which both queues were opened and which has come to its last
`return`. -/
structure Returns (cfg : Config) (role : Role) (t : List (Event (Op B) Op.Resp))
    (status : ℕ) : Prop where
  run : ∃ p, Machine.Runs Proc.next (role.process cfg) t p ∧ p.prog = .ret status
  opened : ∀ name, (name, false) ∉ opens t

/-- A frame that `mq_send` did not take. -/
def losesFrame : Event (Op B) Op.Resp → Bool
  | ⟨.mqSend .sendPeriodicMessage _ _, sent⟩ => !sent
  | _ => false

/-- Both handshake functions of the sender have done their work. -/
structure HandshakeCompleted (t : List (Event (Op B) Op.Resp)) : Prop where
  fits : ∀ bits privateKey,
    (⟨.rsaPrivateKey bits, .ok privateKey⟩ : Event (Op B) Op.Resp) ∈ t →
      (B.subjectPublicKey (B.publicKey privateKey)).length ≤ kMessageSize
  sent : ∀ mq der, (⟨.mqSend .sendPublicKey mq der, false⟩ : Event (Op B) Op.Resp) ∉ t
  received : ∀ mq, (⟨.mqReceive .receiveSymmetricKey mq, none⟩ : Event (Op B) Op.Resp) ∉ t

/-! ## The sender -/

/-- Whether a frame was lost before a point of the sender. -/
def SenderPoint.lost : SenderPoint B → Bool
  | .run _ (.closeSR status) => status != kOK
  | .run _ (.closeRS status) => status != kOK
  | .run _ (.enter status) => status != kOK
  | .run _ (.unlinkRS status) => status != kOK
  | .run _ (.unlinkSR status) => status != kOK
  | .run _ (.returned status) => status != kOK
  | _ => false

/-- A call the sender can make. -/
def SenderCall : Op B → Prop
  | .mqSend site _ _ => site = .sendPublicKey ∨ site = .sendPeriodicMessage
  | .mqReceive site _ => site = .receiveSymmetricKey
  | .loadKey _ => False
  | _ => True

section SenderSteps

variable (cfg : Config)

/-- One call from the phase switch on. -/
theorem SenderPc.lost_step (v : SenderVars B) (pc : SenderPc B)
    {e : Event (Op B) Op.Resp} {pt' : SenderPoint B}
    (step : Machine.Step (SenderPoint.next cfg) (.run v pc) e pt') :
    ((SenderPoint.run v pc).lost || losesFrame e) = pt'.lost ∧ SenderCall e.1 := by
  have loop : ∀ n i, (SenderPoint.run v (.loop n i)).lost = false := by
    intro n i
    cases n <;> rfl
  obtain ⟨op, r⟩ := e
  obtain ⟨k, waiting, rfl⟩ := step
  cases pc with
  | sendKey => cases waiting; cases r <;> exact ⟨rfl, .inl rfl⟩
  | sendKeyFailed => cases waiting; exact ⟨rfl, trivial⟩
  | recvKey => cases waiting; cases r <;> exact ⟨rfl, rfl⟩
  | recvKeyFailed => cases waiting; exact ⟨rfl, trivial⟩
  | rngKey m => cases waiting; cases r <;> exact ⟨rfl, trivial⟩
  | decrypt m => cases waiting; cases r <;> exact ⟨rfl, trivial⟩
  | setKey =>
      cases waiting
      cases r with
      | ok _ => exact ⟨(loop _ _).symm, trivial⟩
      | error e => exact ⟨rfl, trivial⟩
  | frame i n =>
      cases waiting
      cases r with
      -- the `break` with `kNOT_OK`
      | false => exact ⟨rfl, .inr rfl⟩
      | true => exact ⟨(loop _ _).symm, .inr rfl⟩
  | closeSR status => cases waiting; exact ⟨Bool.or_false _, trivial⟩
  | closeRS status => cases waiting; exact ⟨Bool.or_false _, trivial⟩
  | enter status => cases waiting; exact ⟨Bool.or_false _, trivial⟩
  | unlinkRS status => cases waiting; exact ⟨Bool.or_false _, trivial⟩
  | unlinkSR status => cases waiting; exact ⟨Bool.or_false _, trivial⟩
  | returned status => cases waiting

/-- One call. -/
theorem SenderPoint.lost_step {pt pt' : SenderPoint B} {e : Event (Op B) Op.Resp}
    (step : Machine.Step (SenderPoint.next cfg) pt e pt') :
    (pt.lost || losesFrame e) = pt'.lost ∧ SenderCall e.1 := by
  obtain ⟨op, r⟩ := e
  obtain ⟨k, waiting, rfl⟩ := step
  cases pt with
  | run v pc => exact SenderPc.lost_step cfg v pc ⟨k, waiting, rfl⟩
  | openSR => cases waiting; cases r <;> exact ⟨rfl, trivial⟩
  | openRS sr => cases waiting; cases r <;> exact ⟨rfl, trivial⟩
  | rng sr rs => cases waiting; cases r <;> exact ⟨rfl, trivial⟩
  | keygen sr rs => cases waiting; cases r <;> exact ⟨rfl, trivial⟩
  | randomize sr rs sk =>
      cases waiting
      cases r with
      | ok bytes =>
          simp only [SenderPc.start]
          split_ifs <;> exact ⟨rfl, trivial⟩
      | error e => exact ⟨rfl, trivial⟩
  | openFailed name => cases waiting
  | threw key e => cases waiting

/-- **The point a run has reached says whether it lost a frame.** -/
theorem SenderPoint.lost_runs {t : List (Event (Op B) Op.Resp)} {pt : SenderPoint B}
    (run : Machine.Runs (SenderPoint.next cfg) .openSR t pt) :
    t.any losesFrame = pt.lost ∧ ∀ e ∈ t, SenderCall e.1 := by
  refine run.induction (I := fun t pt => t.any losesFrame = pt.lost ∧ ∀ e ∈ t, SenderCall e.1)
    ⟨rfl, by simp⟩ ?_
  rintro t pt e pt' - ⟨lost, calls⟩ step
  obtain ⟨here, call⟩ := SenderPoint.lost_step cfg step
  refine ⟨?_, ?_⟩
  · rw [List.any_append, lost, ← here, List.any_cons, List.any_nil, Bool.or_false]
  · intro e' inside
    rcases List.mem_append.mp inside with before | last
    · exact calls e' before
    · rwa [List.mem_singleton.mp last]

end SenderSteps

/-- A sender that has come to its last `return` returns `kOK` exactly when it lost no
frame. -/
theorem sender_status {cfg : Config} {t : List (Event (Op B) Op.Resp)} {status : ℕ}
    (returns : Returns cfg .sender t status) :
    (status = kOK ↔ t.any losesFrame = false) ∧ ∀ e ∈ t, SenderCall e.1 := by
  obtain ⟨⟨p, run, exits⟩, opened⟩ := returns
  obtain ⟨pt, reached, here⟩ := senderProcess_runs cfg run
  obtain ⟨lost, calls⟩ := SenderPoint.lost_runs cfg reached
  have books : opens t = pt.account.opened :=
    congrArg Account.opened (SenderPoint.account_runs cfg reached)
  refine ⟨?_, calls⟩
  have atEnd := (senderMain_bisimulation cfg).ended_left here (Proc.next_of_ret exits)
  obtain ⟨v, last, rfl⟩ | ⟨name, rfl⟩ | ⟨key, e, rfl⟩ :=
    SenderPoint.ended_cases cfg atEnd
  · -- the status returned is the one the lost frame has left
    obtain ⟨pk, obs, rfl⟩ := here
    cases exits
    rw [lost]
    simp [SenderPoint.lost]
  · -- this `return` comes before the phases
    cases name with
    | senderToReceiver =>
        refine absurd ?_ (opened .senderToReceiver)
        simp [books, SenderPoint.account]
    | receiverToSender =>
        refine absurd ?_ (opened .receiverToSender)
        simp [books, SenderPoint.account]
  · obtain ⟨pk, obs, rfl⟩ := here
    cases exits

/-- The sender's phases, by what their calls returned. -/
theorem phasesCompleted_iff {t : List (Event (Op B) Op.Resp)}
    (calls : ∀ e ∈ t, SenderCall e.1) :
    PhasesCompleted t ↔ HandshakeCompleted t ∧ t.any losesFrame = false := by
  constructor
  · rintro ⟨succeeds, -⟩
    refine ⟨⟨?_, ?_, ?_⟩, ?_⟩
    · intro bits privateKey made
      exact succeeds _ made
    · intro mq der failed
      exact absurd (succeeds _ failed) (by simp [Succeeds])
    · intro mq failed
      exact absurd (succeeds _ failed) (by simp [Succeeds])
    · rw [List.any_eq_false]
      intro e inside lost
      have sent := succeeds e inside
      unfold losesFrame at lost
      split at lost
      · rw [Succeeds] at sent
        simp [sent] at lost
      · cases lost
  · rintro ⟨⟨fits, sent, received⟩, kept⟩
    -- the calls of the sender that `Succeeds` looks at are the ones named here
    rw [List.any_eq_false] at kept
    refine ⟨?_, ?_⟩
    · rintro ⟨op, r⟩ inside
      have call := calls _ inside
      cases op with
      | mqSend site mq msg =>
          obtain rfl | rfl := call
          · cases r with
            | false => exact absurd inside (sent mq msg)
            | true => rfl
          · have arrived : r = true := by simpa [losesFrame] using kept _ inside
            exact arrived
      | mqReceive site mq =>
          have only : site = .receiveSymmetricKey := call
          subst only
          cases r with
          | none => exact absurd inside (received mq)
          | some m => exact Option.some_ne_none m
      | rsaPrivateKey bits =>
          cases r with
          | ok privateKey => exact fits bits privateKey inside
          | error e => trivial
      | loadKey data => exact call.elim
      | _ => trivial
    · intro key mq m _ inside
      cases calls _ inside

/-! ## The receiver -/

/-- The loop has been left with this status, which a call that failed has brought
about. -/
def LeftLoop (t : List (Event (Op B) Op.Resp)) (status : ℕ) : Prop :=
  status = kOK ∧ ∃ e ∈ t, ¬ Succeeds e

theorem LeftLoop.snoc {t : List (Event (Op B) Op.Resp)} {status : ℕ}
    (left : LeftLoop t status) (e : Event (Op B) Op.Resp) : LeftLoop (t ++ [e]) status := by
  obtain ⟨is, e', inside, failed⟩ := left
  exact ⟨is, e', List.mem_append_left _ inside, failed⟩

/-- What lies behind the points after the loop, and behind the early `return`. -/
def ReceiverPoint.Closing (t : List (Event (Op B) Op.Resp)) : ReceiverPoint B → Prop
  | .openFailed name => (name, false) ∈ opens t
  | .run _ (.enter status) => LeftLoop t status
  | .run _ (.closeRS status) => LeftLoop t status
  | .run _ (.closeSR status) => LeftLoop t status
  | .run _ (.returned status) => LeftLoop t status
  | _ => True

section ReceiverSteps

variable (cfg : Config)

/-- The receive that ends the loop has failed, or has delivered nothing. -/
theorem leftLoop_of_receive {t : List (Event (Op B) Op.Resp)} {mq : Mqd}
    {delivered : Option (Message B)} (nothing : ¬ receivedBytes delivered > 0) :
    LeftLoop (t ++ [received mq delivered]) kOK :=
  ⟨rfl, received mq delivered, List.mem_append_right _ (List.mem_singleton.mpr rfl), nothing⟩

/-- One call from the phase switch on. -/
theorem ReceiverPc.closing_step {t : List (Event (Op B) Op.Resp)} {v : ReceiverVars B}
    {pc : ReceiverPc B} {e : Event (Op B) Op.Resp} {pt' : ReceiverPoint B}
    (h : (ReceiverPoint.run v pc).Closing t)
    (step : Machine.Step (ReceiverPoint.next cfg) (.run v pc) e pt') :
    pt'.Closing (t ++ [e]) := by
  obtain ⟨op, r⟩ := e
  obtain ⟨k, waiting, rfl⟩ := step
  cases pc with
  | recvKey => cases waiting; cases r <;> trivial
  | loadKey m => cases waiting; cases r <;> trivial
  | rng => cases waiting; cases r <;> trivial
  | randomize =>
      cases waiting
      cases r with
      | error e => trivial
      | ok bytes =>
          obtain ⟨sr, rs, pk, key, compared⟩ := v
          rcases pk with _ | (_ | _) <;> trivial
  | encrypt pk => cases waiting; cases r <;> trivial
  | sendKey c => cases waiting; trivial
  | setKey => cases waiting; cases r <;> trivial
  | loop buffer =>
      cases waiting
      cases r with
      | none => exact leftLoop_of_receive (by simp [receivedBytes])
      | some m =>
          simp only [ReceiverPoint.receive]
          -- no bytes, too few for a tag, and a round of the loop
          split_ifs with empty short
          · exact leftLoop_of_receive (by simp [receivedBytes, empty])
          · trivial
          · trivial
  | enter status => cases waiting; exact LeftLoop.snoc h _
  | closeRS status => cases waiting; exact LeftLoop.snoc h _
  | closeSR status => cases waiting; exact LeftLoop.snoc h _
  | returned status => cases waiting
  | crashed f => cases waiting

/-- One call. -/
theorem ReceiverPoint.closing_step {t : List (Event (Op B) Op.Resp)}
    {pt pt' : ReceiverPoint B} {e : Event (Op B) Op.Resp} (h : pt.Closing t)
    (step : Machine.Step (ReceiverPoint.next cfg) pt e pt') : pt'.Closing (t ++ [e]) := by
  obtain ⟨op, r⟩ := e
  obtain ⟨k, waiting, rfl⟩ := step
  cases pt with
  | run v pc => exact ReceiverPc.closing_step cfg h ⟨k, waiting, rfl⟩
  | openRS =>
      cases waiting
      cases r with
      | none => exact List.mem_filterMap.mpr ⟨_, List.mem_append_right _ (.head _), rfl⟩
      | some rs => trivial
  | openSR rs =>
      cases waiting
      cases r with
      | none => exact List.mem_filterMap.mpr ⟨_, List.mem_append_right _ (.head _), rfl⟩
      | some sr => trivial
  | openFailed name => cases waiting
  | threw v e => cases waiting

/-- **After the loop a failed call lies behind every point.** -/
theorem ReceiverPoint.closing_runs {t : List (Event (Op B) Op.Resp)}
    {pt : ReceiverPoint B} (run : Machine.Runs (ReceiverPoint.next cfg) .openRS t pt) :
    pt.Closing t :=
  run.induction (I := fun t pt => pt.Closing t) trivial
    fun _ _ _ _ _ h step => ReceiverPoint.closing_step cfg h step

end ReceiverSteps

/-- **A receiver that has come to its last `return` returns `kOK`, and a call of its loop
has failed.** -/
theorem receiver_status {cfg : Config} {t : List (Event (Op B) Op.Resp)} {status : ℕ}
    (returns : Returns cfg .receiver t status) : LeftLoop t status := by
  obtain ⟨⟨p, run, exits⟩, opened⟩ := returns
  obtain ⟨pt, reached, here⟩ :=
    (receiverMain_bisimulation cfg).runs_right (receiverProcess_at cfg) run
  have past := ReceiverPoint.closing_runs cfg reached
  obtain ⟨v, status', rfl, shape⟩ | ⟨v, f, -, shape⟩ | ⟨name, rfl, -⟩ | ⟨v, e, -, shape⟩ :=
    ReceiverPoint.At.ended_cases cfg here (Proc.next_of_ret exits)
  · rw [exits] at shape
    cases shape
    exact past
  · rw [exits] at shape
    cases shape
  · -- this `return` comes before the phases
    exact absurd past (opened name)
  · rw [exits] at shape
    cases shape

/-! ## Both programs -/

/-- **The status says whether every phase completed exactly in a sender whose handshake
did, or which has lost a frame.**  The statuses of the handshake functions are
overwritten or dropped, and the receiver returns `kOK` from a loop that only a failure
ends. -/
theorem status_iff_phasesCompleted_iff (cfg : Config) (role : Role)
    (t : List (Event (Op B) Op.Resp)) (status : ℕ) (returns : Returns cfg role t status) :
    (status = kOK ↔ PhasesCompleted t) ↔
      role = .sender ∧ (HandshakeCompleted t ∨ ∃ e ∈ t, losesFrame e = true) := by
  cases role with
  | sender =>
      obtain ⟨value, calls⟩ := sender_status returns
      rw [value, phasesCompleted_iff calls, ← List.any_eq_true]
      cases lost : t.any losesFrame with
      -- a lost frame is reported, and is a phase that did not complete
      | true => simp
      | false => simp
  | receiver =>
      obtain ⟨ok, e, inside, failed⟩ := receiver_status returns
      refine iff_of_false ?_ ?_
      · intro truthful
        exact failed ((truthful.mp ok).succeeds e inside)
      · rintro ⟨other, -⟩
        cases other

/-- A sender whose status is the truth. -/
theorem status_iff_phasesCompleted_iff_frameTrace :
    PhasesCompleted (handshakeTrace ⟨1, 10⟩ sampleCiphertext (.ok sampleKey) ++ frameTrace) := by
  obtain ⟨p, reached, -, exits⟩ := frameTrace_runs
  have returns : Returns ⟨1, 10⟩ .sender
      (handshakeTrace ⟨1, 10⟩ sampleCiphertext (.ok sampleKey) ++ frameTrace) kOK := by
    refine ⟨⟨p, reached, exits⟩, ?_⟩
    intro name
    cases name <;> decide
  have completed : HandshakeCompleted
      (handshakeTrace ⟨1, 10⟩ sampleCiphertext (.ok sampleKey) ++ frameTrace) := by
    refine ⟨?_, ?_, ?_⟩
    · intro _ privateKey _
      exact sampleBotan_lawful.subjectPublicKey_length _
    · simp [handshakeTrace, frameTrace]
    · simp [handshakeTrace, frameTrace]
  exact ((status_iff_phasesCompleted_iff ⟨1, 10⟩ .sender _ kOK returns).mpr
    ⟨rfl, .inl completed⟩).mp rfl

/-- The public key of the sample as the sender sends it. -/
def publicKeyMessage : Message sampleBotan :=
  ⟨sampleBotan.subjectPublicKey (sampleBotan.publicKey samplePrivateKey),
    sampleBotan_lawful.subjectPublicKey_length _⟩

/-- A receiver whose handshake goes well and whose first `mq_receive` after it fails. -/
def silentTrace : List (Event (Op sampleBotan) Op.Resp) :=
  [⟨.mqOpen .receiverToSender (queueAttr Config.source), some (0 : ℕ)⟩,
    ⟨.mqOpen .senderToReceiver (queueAttr Config.source), some (1 : ℕ)⟩,
    ⟨.mqReceive .getPublicKey (some (1 : ℕ)), some publicKeyMessage⟩,
    ⟨.loadKey publicKeyMessage.val, .ok (.rsa samplePrivateKey)⟩,
    ⟨.autoSeededRng, .ok ()⟩,
    ⟨.randomize kSymKeySize, .ok ⟨sampleKey, by decide⟩⟩,
    ⟨.encrypt samplePrivateKey sampleKey, .ok sampleCiphertext.val⟩,
    ⟨.mqSend .sendSymmetricKey (some (0 : ℕ)) sampleCiphertext.val, true⟩,
    ⟨.setKey sampleKey, .ok ()⟩,
    ⟨.mqReceive .receivePeriodicMessages (some (1 : ℕ)), none⟩,
    ⟨.cinGet, ()⟩,
    ⟨.mqClose (some (0 : ℕ)), ()⟩,
    ⟨.mqClose (some (1 : ℕ)), ()⟩]

/-- It returns `kOK`. -/
theorem silentTrace_returns : Returns Config.source .receiver silentTrace kOK := by
  have run : Machine.Runs (ReceiverPoint.next Config.source) .openRS silentTrace
      (.run ⟨1, 0, some (.rsa samplePrivateKey), sampleKey, []⟩ (.returned kOK)) :=
    .cons ⟨_, rfl, rfl⟩ <| .cons ⟨_, rfl, rfl⟩ <| .cons ⟨_, rfl, rfl⟩ <|
      .cons ⟨_, rfl, rfl⟩ <| .cons ⟨_, rfl, rfl⟩ <| .cons ⟨_, rfl, rfl⟩ <|
      .cons ⟨_, rfl, rfl⟩ <| .cons ⟨_, rfl, rfl⟩ <| .cons ⟨_, rfl, rfl⟩ <|
      .cons ⟨_, rfl, rfl⟩ <| .cons ⟨_, rfl, rfl⟩ <| .cons ⟨_, rfl, rfl⟩ <|
      .cons ⟨_, rfl, rfl⟩ <| .nil _
  obtain ⟨p, reached, obs, rfl, -⟩ := (receiverMain_bisimulation Config.source).runs_left
    (receiverProcess_at Config.source) run
  refine ⟨⟨_, reached, rfl⟩, ?_⟩
  intro name
  cases name <;> decide

/-- **A receiver that has received nothing reports success.** -/
theorem not_status_iff_phasesCompleted :
    ¬ ∀ (role : Role) (t : List (Event (Op sampleBotan) Op.Resp)) (status : ℕ),
      Returns Config.source role t status → (status = kOK ↔ PhasesCompleted t) := by
  intro claim
  have completed := (claim .receiver silentTrace kOK silentTrace_returns).mp rfl
  obtain ⟨-, e, inside, failed⟩ := receiver_status silentTrace_returns
  exact failed (completed.succeeds e inside)

end ExitStatus

end SecureComm
