import SecureComm.BotanLaws
import SecureComm.ReceiverPoints

/-!
# Runs of the receiver's main

Every run of the receiver, whatever its calls return.  `ReceiverPc.History` says
for each point which events must lie behind it; from it follows where the public
key comes from that `send_symmetric_key` encrypts under.
-/

namespace SecureComm

open Interaction

section ReceiverRuns

variable {B : Botan}

/-- How `get_public_key` went: `mq_receive` failed, or it delivered a message and
`load_key` answered. -/
inductive Outcome (B : Botan)
  | receiveFails
  | loads (m : Message B) (result : Except Exn (PublicKey B.Pub))

/-- The answers of a run are those of the outcome. -/
def Outcome.allows : Outcome B → Event (Op B) Op.Resp → Prop
  | .receiveFails, ⟨.mqReceive .getPublicKey _, r⟩ => r = none
  | .loads m _, ⟨.mqReceive .getPublicKey _, r⟩ => r = some m
  | .loads _ result, ⟨.loadKey _, r⟩ => r = result
  | _, _ => True

/-- In this run `get_public_key` received `m` and decoded it to `key`. -/
def Decoded (t : List (Event (Op B) Op.Resp)) (m : Message B) (key : PublicKey B.Pub) :
    Prop :=
  (∃ mq, (⟨.mqReceive .getPublicKey mq, some m⟩ : Event (Op B) Op.Resp) ∈ t) ∧
    (⟨.loadKey m.val, .ok key⟩ : Event (Op B) Op.Resp) ∈ t

/-- With this outcome, every run of `main` dereferences a key and encrypts under the
RSA key decoded from the bytes received, and nothing but such a ciphertext goes to
the sender. -/
structure EncryptsUnderReceived (cfg : Config) (outcome : Outcome B) : Prop where
  nonNull : ∀ t p, Machine.Runs Proc.next (receiverProcess cfg) t p →
    (∀ e ∈ t, outcome.allows e) → p.prog ≠ .undef .nullPointer
  decoded : ∀ t p pk data k, Machine.Runs Proc.next (receiverProcess cfg) t p →
    (∀ e ∈ t, outcome.allows e) → p.next = some ⟨.encrypt pk data, k⟩ →
    ∃ m, Decoded t m (.rsa pk)
  sent : ∀ t p mq c k, Machine.Runs Proc.next (receiverProcess cfg) t p →
    (∀ e ∈ t, outcome.allows e) → p.next = some ⟨.mqSend .sendSymmetricKey mq c, k⟩ →
    ∃ m pk data, Decoded t m (.rsa pk) ∧
      (⟨.encrypt pk data, .ok c⟩ : Event (Op B) Op.Resp) ∈ t

/-! ## What lies behind a point -/

/-- Where the value of `public_key` comes from, once `get_public_key` is over. -/
def Installed (t : List (Event (Op B) Op.Resp)) : Option (PublicKey B.Pub) → Prop
  | none => ∃ mq, (⟨.mqReceive .getPublicKey mq, none⟩ : Event (Op B) Op.Resp) ∈ t
  | some key => ∃ m, Decoded t m key

theorem Installed.snoc {t : List (Event (Op B) Op.Resp)} {pk : Option (PublicKey B.Pub)}
    (h : Installed t pk) (e : Event (Op B) Op.Resp) : Installed (t ++ [e]) pk := by
  cases pk with
  | none =>
      obtain ⟨mq, seen⟩ := h
      exact ⟨mq, List.mem_append_left _ seen⟩
  | some key =>
      obtain ⟨m, ⟨mq, seen⟩, loaded⟩ := h
      exact ⟨m, ⟨mq, List.mem_append_left _ seen⟩, List.mem_append_left _ loaded⟩

/-- The events behind a point of the phase switch. -/
def ReceiverPc.History (t : List (Event (Op B) Op.Resp)) (v : ReceiverVars B) :
    ReceiverPc B → Prop
  | .recvKey => v.publicKey = none
  | .loadKey m =>
      ∃ mq, (⟨.mqReceive .getPublicKey mq, some m⟩ : Event (Op B) Op.Resp) ∈ t
  | .rng => Installed t v.publicKey
  | .randomize => Installed t v.publicKey
  | .encrypt pk => v.publicKey = some (.rsa pk) ∧ Installed t v.publicKey
  | .sendKey c => ∃ pk data, v.publicKey = some (.rsa pk) ∧ Installed t v.publicKey ∧
      (⟨.encrypt pk data, .ok c⟩ : Event (Op B) Op.Resp) ∈ t
  | .crashed .nullPointer => (∀ pk, v.publicKey ≠ some (.rsa pk)) ∧ Installed t v.publicKey
  | _ => True

/-- The events behind a point. -/
def ReceiverPoint.History (t : List (Event (Op B) Op.Resp)) : ReceiverPoint B → Prop
  | .run v pc => pc.History t v
  | _ => True

/-- Dereferencing succeeds on an RSA key and on nothing else. -/
theorem ReceiverPc.history_deref {t : List (Event (Op B) Op.Resp)} {v : ReceiverVars B}
    (h : Installed t v.publicKey) : (ReceiverPc.deref v.publicKey).History t v := by
  obtain ⟨sr, rs, pk, key, compared⟩ := v
  rcases pk with _ | (pk | _)
  · exact ⟨fun _ => nofun, h⟩
  · exact ⟨rfl, h⟩
  · exact ⟨fun _ => nofun, h⟩

variable (cfg : Config)

/-- One call from the phase switch on. -/
theorem ReceiverPc.history_step {t : List (Event (Op B) Op.Resp)} {v : ReceiverVars B}
    {pc : ReceiverPc B} {e : Event (Op B) Op.Resp} {pt' : ReceiverPoint B}
    (h : pc.History t v)
    (step : Machine.Step (ReceiverPoint.next cfg) (.run v pc) e pt') :
    pt'.History (t ++ [e]) := by
  obtain ⟨op, r⟩ := e
  obtain ⟨k, waiting, rfl⟩ := step
  cases pc with
  | recvKey =>
      cases waiting
      cases r with
      | none =>
          show Installed _ v.publicKey
          rw [show v.publicKey = none from h]
          exact ⟨_, List.mem_append_right _ (List.mem_singleton.mpr rfl)⟩
      | some m => exact ⟨_, List.mem_append_right _ (List.mem_singleton.mpr rfl)⟩
  | loadKey m =>
      cases waiting
      cases r with
      | error e => trivial
      | ok key =>
          obtain ⟨mq, seen⟩ := h
          exact ⟨m, ⟨mq, List.mem_append_left _ seen⟩,
            List.mem_append_right _ (List.mem_singleton.mpr rfl)⟩
  | rng =>
      cases waiting
      cases r with
      | error e => trivial
      | ok _ => exact Installed.snoc h _
  | randomize =>
      cases waiting
      cases r with
      | error e => trivial
      | ok bytes =>
          exact history_deref (v := { v with key := bytes.val }) (Installed.snoc h _)
  | encrypt pk =>
      cases waiting
      cases r with
      | error e => trivial
      | ok c =>
          obtain ⟨is, installed⟩ := h
          exact ⟨pk, v.key, is, installed.snoc _,
            List.mem_append_right _ (List.mem_singleton.mpr rfl)⟩
  | sendKey c => cases waiting; trivial
  | setKey => cases waiting; cases r <;> trivial
  | loop buffer =>
      cases waiting
      cases r with
      | none => trivial
      | some m =>
          simp only [ReceiverPoint.receive]
          split_ifs <;> trivial
  | enter status => cases waiting; trivial
  | closeRS status => cases waiting; trivial
  | closeSR status => cases waiting; trivial
  | returned status => cases waiting
  | crashed f => cases waiting

/-- One call. -/
theorem ReceiverPoint.history_step {t : List (Event (Op B) Op.Resp)}
    {pt pt' : ReceiverPoint B} {e : Event (Op B) Op.Resp} (h : pt.History t)
    (step : Machine.Step (ReceiverPoint.next cfg) pt e pt') : pt'.History (t ++ [e]) := by
  obtain ⟨op, r⟩ := e
  obtain ⟨k, waiting, rfl⟩ := step
  cases pt with
  | run v pc => exact ReceiverPc.history_step cfg h ⟨k, waiting, rfl⟩
  | openRS => cases waiting; cases r <;> trivial
  | openSR rs =>
      cases waiting
      cases r with
      | none => trivial
      | some sr => rfl
  | openFailed name => cases waiting
  | threw v e => cases waiting

/-- **Every point has its history behind it.** -/
theorem ReceiverPoint.history_runs {t : List (Event (Op B) Op.Resp)}
    {pt : ReceiverPoint B} (run : Machine.Runs (ReceiverPoint.next cfg) .openRS t pt) :
    pt.History t :=
  run.induction (I := fun t pt => pt.History t) trivial
    fun _ _ _ _ _ h step => ReceiverPoint.history_step cfg h step

/-- Where the receiver's process is after a run. -/
theorem receiverProcess_runs {t : List (Event (Op B) Op.Resp)} {p : Process B}
    (run : Machine.Runs Proc.next (receiverProcess cfg) t p) :
    ∃ pt : ReceiverPoint B, pt.At cfg p ∧ pt.History t := by
  obtain ⟨pt, reached, here⟩ :=
    (receiverMain_bisimulation cfg).runs_right (receiverProcess_at cfg) run
  exact ⟨pt, here, ReceiverPoint.history_runs cfg reached⟩

/-- The ends of the receiver, and what the process has come to there. -/
theorem ReceiverPoint.At.ended_cases {pt : ReceiverPoint B} {p : Process B}
    (here : pt.At cfg p) (ended : p.next = none) :
    (∃ v status, pt = .run v (.returned status) ∧ p.prog = .ret status) ∨
      (∃ v f, pt = .run v (.crashed f) ∧ p.prog = .undef f) ∨
      (∃ name, pt = .openFailed name ∧ p.prog = .ret kNOT_OK) ∨
      ∃ v e, pt = .threw v e ∧ p.prog = .throw e := by
  have atEnd := (receiverMain_bisimulation cfg).ended_left here ended
  obtain ⟨obs, rfl, -⟩ := here
  cases pt with
  | run v pc =>
      cases pc with
      | returned status => exact .inl ⟨v, status, rfl, rfl⟩
      | crashed f => exact .inr (.inl ⟨v, f, rfl, rfl⟩)
      | _ => cases atEnd
  | openFailed name => exact .inr (.inr (.inl ⟨name, rfl, rfl⟩))
  | threw v e => exact .inr (.inr (.inr ⟨v, e, rfl, rfl⟩))
  | _ => cases atEnd

/-- Undefined behaviour is a point of its own. -/
theorem ReceiverPoint.At.crashed {pt : ReceiverPoint B} {p : Process B}
    (here : pt.At cfg p) {f : Fault} (undef : p.prog = .undef f) :
    ∃ v, pt = .run v (.crashed f) := by
  obtain ⟨v, status, -, shape⟩ | ⟨v, f', rfl, shape⟩ | ⟨name, -, shape⟩ | ⟨v, e, -, shape⟩ :=
    ReceiverPoint.At.ended_cases cfg here (Proc.next_of_undef undef)
  · rw [undef] at shape; cases shape
  · rw [undef] at shape; cases shape; exact ⟨v, rfl⟩
  · rw [undef] at shape; cases shape
  · rw [undef] at shape; cases shape

/-! ## The key it encrypts under -/

section Outcomes

variable {cfg} {outcome : Outcome B} {t : List (Event (Op B) Op.Resp)}

/-- A run whose outcome is neither a failure nor another kind of key installs an
RSA key, if any. -/
theorem Installed.rsa (allowed : ∀ e ∈ t, outcome.allows e)
    (received : outcome ≠ .receiveFails) (usable : ∀ m, outcome ≠ .loads m (.ok .other))
    {pk : Option (PublicKey B.Pub)} (h : Installed t pk) : ∃ key, pk = some (.rsa key) := by
  cases outcome with
  | receiveFails => exact absurd rfl received
  | loads m result =>
      rcases pk with _ | (key | _)
      · obtain ⟨mq, seen⟩ := h
        have impossible : none = some m := allowed _ seen
        cases impossible
      · exact ⟨key, rfl⟩
      · obtain ⟨m', -, loaded⟩ := h
        have answer : Except.ok PublicKey.other = result := allowed _ loaded
        exact absurd (by rw [answer]) (usable m)

end Outcomes

/-- The answers that take the receiver from the end of `get_public_key` to the
dereference. -/
def derefTrace (v : ReceiverVars B) : List (Event (Op B) Op.Resp) :=
  [⟨.autoSeededRng, .ok ()⟩, ⟨.randomize v.key.length, .ok ⟨v.key, rfl⟩⟩]

/-- Without an RSA key that is where the program crashes. -/
theorem derefTrace_runs (cfg : Config) (v : ReceiverVars B)
    (crash : ReceiverPc.deref v.publicKey = .crashed .nullPointer) :
    Machine.Runs (ReceiverPoint.next cfg) (.run v .rng) (derefTrace v)
      (.run v (.crashed .nullPointer)) := by
  refine .cons ⟨_, rfl, rfl⟩ (.cons (q := .run v (.deref v.publicKey)) ⟨_, rfl, rfl⟩ ?_)
  rw [crash]
  exact .nil _

/-- The answers that get the receiver through `get_public_key` with this outcome. -/
def outcomeTrace (cfg : Config) (outcome : Outcome B) : List (Event (Op B) Op.Resp) :=
  [⟨.mqOpen .receiverToSender (queueAttr cfg), some (0 : ℕ)⟩,
    ⟨.mqOpen .senderToReceiver (queueAttr cfg), some (1 : ℕ)⟩] ++
  match outcome with
  | .receiveFails => [⟨.mqReceive .getPublicKey (some (1 : ℕ)), none⟩]
  | .loads m result =>
      [⟨.mqReceive .getPublicKey (some (1 : ℕ)), some m⟩, ⟨.loadKey m.val, result⟩]

theorem outcomeTrace_allowed (cfg : Config) (outcome : Outcome B) (v : ReceiverVars B) :
    ∀ e ∈ outcomeTrace cfg outcome ++ derefTrace v, outcome.allows e := by
  cases outcome with
  | receiveFails => simp [outcomeTrace, derefTrace, Outcome.allows]
  | loads m result => simp [outcomeTrace, derefTrace, Outcome.allows]

/-- **A failed receive, or a key of another kind, ends in a null pointer.** -/
theorem exists_crash (cfg : Config) (outcome : Outcome B)
    (bad : outcome = .receiveFails ∨ ∃ m, outcome = .loads m (.ok .other)) :
    ∃ t p, Machine.Runs Proc.next (receiverProcess cfg) t p ∧
      (∀ e ∈ t, outcome.allows e) ∧ p.prog = .undef .nullPointer := by
  have reach : ∃ v, Machine.Runs (ReceiverPoint.next cfg) .openRS
      (outcomeTrace cfg outcome ++ derefTrace v) (.run v (.crashed .nullPointer)) := by
    obtain rfl | ⟨m, rfl⟩ := bad
    · refine ⟨.start 1 0, .append ?_ (derefTrace_runs cfg _ rfl)⟩
      exact .cons ⟨_, rfl, rfl⟩ <| .cons ⟨_, rfl, rfl⟩ <| .cons ⟨_, rfl, rfl⟩ <| .nil _
    · refine ⟨{ ReceiverVars.start 1 0 with publicKey := some .other },
        .append ?_ (derefTrace_runs cfg _ rfl)⟩
      exact .cons ⟨_, rfl, rfl⟩ <| .cons ⟨_, rfl, rfl⟩ <| .cons ⟨_, rfl, rfl⟩ <|
        .cons ⟨_, rfl, rfl⟩ <| .nil _
  obtain ⟨v, run⟩ := reach
  obtain ⟨p, reached, obs, rfl, -⟩ :=
    (receiverMain_bisimulation cfg).runs_left (receiverProcess_at cfg) run
  exact ⟨_, _, reached, outcomeTrace_allowed cfg outcome v, rfl⟩

/-- The point at which a key is encrypted. -/
theorem ReceiverPoint.encrypt_of_next {cfg : Config} {pt : ReceiverPoint B} {pk : B.Pub}
    {data : List B.Byte} {k : _ → ReceiverPoint B}
    (waiting : pt.next cfg = some ⟨.encrypt pk data, k⟩) :
    ∃ v, pt = .run v (.encrypt pk) := by
  cases pt with
  | run v pc =>
      cases pc with
      | encrypt pk' => cases waiting; exact ⟨v, rfl⟩
      | _ => cases waiting
  | _ => cases waiting

/-- The point at which it is sent. -/
theorem ReceiverPoint.sendKey_of_next {cfg : Config} {pt : ReceiverPoint B} {mq : Mqd}
    {c : List B.Byte} {k : _ → ReceiverPoint B}
    (waiting : pt.next cfg = some ⟨.mqSend .sendSymmetricKey mq c, k⟩) :
    ∃ v, pt = .run v (.sendKey c) := by
  cases pt with
  | run v pc =>
      cases pc with
      | sendKey c' => cases waiting; exact ⟨v, rfl⟩
      | _ => cases waiting
  | _ => cases waiting

/-- **The key is encrypted under the key received, exactly when one was received and
it was not of another kind.**  The status that reports these two cases is
overwritten before anyone looks at it. -/
theorem encryptsUnderReceived_iff (cfg : Config) (outcome : Outcome B) :
    EncryptsUnderReceived cfg outcome ↔
      outcome ≠ .receiveFails ∧ ∀ m, outcome ≠ .loads m (.ok .other) := by
  constructor
  · intro safe
    have noCrash : ¬ (outcome = .receiveFails ∨ ∃ m, outcome = .loads m (.ok .other)) := by
      intro bad
      obtain ⟨t, p, run, allowed, crashed⟩ := exists_crash cfg outcome bad
      exact safe.nonNull t p run allowed crashed
    exact ⟨fun fails => noCrash (.inl fails), fun m other => noCrash (.inr ⟨m, other⟩)⟩
  · rintro ⟨received, usable⟩
    refine ⟨?_, ?_, ?_⟩
    · intro t p run allowed undef
      obtain ⟨pt, here, past⟩ := receiverProcess_runs cfg run
      obtain ⟨v, rfl⟩ := ReceiverPoint.At.crashed cfg here undef
      obtain ⟨noRsa, installed⟩ := past
      obtain ⟨key, is⟩ := installed.rsa allowed received usable
      exact noRsa key is
    · intro t p pk data k run allowed waiting
      obtain ⟨pt, here, past⟩ := receiverProcess_runs cfg run
      obtain ⟨k', there⟩ := (receiverMain_bisimulation cfg).waiting_left here waiting
      obtain ⟨v, rfl⟩ := ReceiverPoint.encrypt_of_next there
      obtain ⟨is, installed⟩ := past
      rwa [is] at installed
    · intro t p mq c k run allowed waiting
      obtain ⟨pt, here, past⟩ := receiverProcess_runs cfg run
      obtain ⟨k', there⟩ := (receiverMain_bisimulation cfg).waiting_left here waiting
      obtain ⟨v, rfl⟩ := ReceiverPoint.sendKey_of_next there
      obtain ⟨pk, data, is, installed, encrypted⟩ := past
      rw [is] at installed
      obtain ⟨m, decoded⟩ := installed
      exact ⟨m, pk, data, decoded, encrypted⟩

/-- **A failed receive of the public key crashes the receiver.** -/
theorem not_encryptsUnderReceived_of_receiveFails :
    ¬ ∀ outcome : Outcome sampleBotan, EncryptsUnderReceived Config.source outcome := by
  intro claim
  obtain ⟨t, p, run, allowed, crashed⟩ :=
    exists_crash Config.source (.receiveFails : Outcome sampleBotan) (.inl rfl)
  exact (claim .receiveFails).nonNull t p run allowed crashed

end ReceiverRuns

end SecureComm
