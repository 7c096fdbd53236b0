import Mathlib.Tactic.Common
import SecureComm.Blocked

/-!
# How a session with failing calls ends

Every send and every receive may return -1, but for the receive of the symmetric key.  The
session still comes to an end, and there is one way for it not to be over then: the sender
waits for a symmetric key that was never sent.
-/

namespace SecureComm

open Interaction MessageQueue

section Failures

variable {ι : Type} {B : Botan} {cfg : Config} {d : Draws B}

theorem Policy.flaky_documented (ι : Type) (d : Draws B) (keyFails : Prop) :
    (Policy.flaky ι d keyFails).Documented := .of_draws rfl fun _ _ _ _ => id

/-! ## The sender -/

/-- The sender has not left `main` before its end. -/
def SenderPoint.Unfailing : SenderPoint B → Prop
  | .openFailed _ => False
  | .threw _ _ => False
  | _ => True

/-- While the key that arrives is the session key, nothing makes the sender leave early. -/
theorem SenderMove.unfailing (σ : Script d) {k : ι} {ch ch' : Channels ι B}
    {pt pt' : SenderPoint B} {recs : List (Rec ι B)}
    (move : SenderMove cfg (Policy.flaky ι d False) k ch pt pt' ch' recs)
    (here : pt.Agrees σ) : pt'.Unfailing := by
  cases move with
  | openSRFails h => exact h.elim
  | openRSFails sr h => exact h.elim
  | rngThrows sr rs e h => cases h
  | keygenThrows sr rs e h => cases h
  | randomizeThrows sr rs sk key e h => obtain ⟨bytes, is, -⟩ := h; cases is
  | rngKeyThrows v m e h => cases h
  | decryptThrows v m e h =>
      obtain ⟨sk, rfl⟩ := here
      have value : Except.error e = B.decrypt v.privateKey σ.cipher.val := h
      rw [sk, σ.decrypt_cipher] at value
      cases value
  | setKeyThrows v e h =>
      have value : Except.error e = if v.key.length = kSymKeySize then _ else _ := h
      have key : v.key = d.sessionKey.val := here.2
      rw [key, if_pos d.sessionKey.property] at value
      cases value
  | _ => trivial

/-- The sender never leaves early. -/
theorem Session.Reachable.unfailing (σ : Script d) {k : ι} {s : Session ι B}
    (reach : s.Reachable cfg (Policy.flaky ι d False) k) : s.sender.Unfailing := by
  refine invariant reach (I := fun s => s.sender.Unfailing) trivial ?_
  intro s s' front before step
  cases step with
  | sender step answer =>
      exact (senderMove_of_step step answer).unfailing σ (Session.Reachable.agreeing σ front).sender
  | receiver step answer => exact before
  | intrude intrudes => exact before

/-- The sender that still asks for its key did so before, and has read nothing since. -/
theorem SenderMove.asking {P : Policy ι B} {k : ι} {ch ch' : Channels ι B}
    {pt pt' : SenderPoint B} {recs : List (Rec ι B)}
    (move : SenderMove cfg P k ch pt pt' ch' recs) (unkeyed : ¬ pt'.Keyed)
    (unfailing : pt'.Unfailing) : ¬ pt.Keyed ∧ pt.Unfailing ∧ entriesRead recs = [] := by
  cases move with
  | setKey v h =>
      refine absurd ?_ unkeyed
      cases cfg.numMessagesToSend <;> trivial
  | frame v i n =>
      refine absurd ?_ unkeyed
      cases n <;> trivial
  | _ =>
      first
      | exact ⟨id, trivial, rfl⟩
      | exact absurd trivial unkeyed
      | exact unfailing.elim

section Worlds

variable [DecidableEq ι] [LT ι] {P : Policy ι B} {κ₀ : Kernel QueueName (Entry ι B)}
  {w : SessionsWorld ι B}

/-- A sender in its receive of the symmetric key has read nothing. -/
theorem unread_of_next (reach : (sessions P).Reachable (sessionsStart cfg κ₀) w) {k : ι}
    {mq : Mqd} {next : Option (Message B) → Process B}
    (waiting : (w.procs (k, .sender)).next =
      some ⟨.mqReceive .receiveSymmetricKey mq, next⟩) :
    entriesRead (w.log (k, .sender)) = [] := by
  obtain ⟨pt, here, unread⟩ := sender_invariant
    (I := fun pt log => ¬ pt.Keyed → pt.Unfailing → entriesRead log = []) (k := k)
    (fun _ _ => rfl) (fun ch ch' pt pt' log recs move before unkeyed unfailing => by
      obtain ⟨unkeyed', unfailing', none⟩ := move.asking unkeyed unfailing
      rw [entriesRead_append, before unkeyed' unfailing', none, List.append_nil])
    reach
  obtain ⟨next', there⟩ := (senderMain_bisimulation cfg).waiting_left here waiting
  cases pt with
  | run v pc =>
      cases pc with
      | recvKey => exact unread id trivial
      | _ => cases there
  | _ => cases there

end Worlds

/-! ## The end of the session -/

/-- The sender waits for a symmetric key, and none is there. -/
def SenderHangs (w : SessionsWorld Unit B) : Prop :=
  ∃ o next, (w.procs ((), .sender)).next = some ⟨.mqReceive .receiveSymmetricKey (some o), next⟩ ∧
    w.env.queue o = []

section Unit

variable {w : SessionsWorld Unit B} {κ₀ : Kernel QueueName (Entry Unit B)}

/-- Where a session with failing calls stops. -/
theorem flaky_stuck_iff (lawful : B.Lawful)
    (reach : (sessions (Policy.flaky Unit d False)).Reachable (sessionsStart cfg κ₀) w) :
    (sessions (Policy.flaky Unit d False)).Stuck w ↔
      (w.procs ((), .receiver)).next = none ∧
        ((w.procs ((), .sender)).next = none ∨ SenderHangs w) := by
  have documented := Policy.flaky_documented Unit d False
  constructor
  · intro stuck
    have blocked := blocked_of_stuck_alone lawful documented reach stuck
    constructor
    · cases blocked .receiver with
      | ended ended => exact ended
      | @empty site o next waiting empty sound =>
          have directed := directed_of_step reach ((), .receiver)
            (Machine.Step.intro waiting none)
          cases site <;> first | exact absurd trivial sound | cases directed
      | full waiting full sound => exact absurd trivial sound
      | enter waiting unpressed => exact absurd trivial unpressed
    · cases blocked .sender with
      | ended ended => exact .inl ended
      | @empty site o next waiting empty sound =>
          cases site with
          | receiveSymmetricKey => exact .inr ⟨o, next, waiting, empty⟩
          | _ => exact absurd trivial sound
      | full waiting full sound => exact absurd trivial sound
      | enter waiting unpressed => exact absurd trivial unpressed
  · rintro ⟨receiver, sender⟩
    refine stuck_of_blocked documented ?_
    rintro ⟨⟨⟩, role⟩ -
    cases role with
    | receiver => exact .ended receiver
    | sender =>
        rcases sender with ended | ⟨o, next, waiting, empty⟩
        · exact .ended ended
        · exact .empty waiting empty id

/-- A sender that hangs was sent no key. -/
theorem not_sent_of_hangs (empty : ∀ o, κ₀.queue o = [])
    (reach : (sessions (Policy.flaky Unit d False)).Reachable (sessionsStart cfg κ₀) w)
    (hangs : SenderHangs w) (m : Message B) :
    .sent .sendSymmetricKey m ∉ w.log ((), .receiver) := by
  intro sent
  have documented := Policy.flaky_documented Unit d False
  obtain ⟨o, next, waiting, waits⟩ := hangs
  obtain ⟨o', same, opened⟩ :=
    mqd_of_uses reach ((), .sender) (Machine.Step.intro waiting none) rfl
  cases same
  -- both have the same queue open
  obtain ⟨n, chain⟩ := exists_chain reach
  obtain ⟨s, -, h⟩ := exists_tracks (fun _ => Policy.flaky_isolating d) empty chain
  obtain ⟨obj, placed⟩ := h.placed
  obtain ⟨o'', opened'⟩ := openedAs_of_sent documented.alone reach sent
  have bySender := placed.known () .sender _ o (.inr (h.senderLog () ▸ openedAs_mem opened))
  have byReceiver := placed.known () .receiver _ o''
    (.inr (h.receiverLog () ▸ openedAs_mem opened'))
  obtain rfl : o = o'' := Option.some.inj (bySender.symm.trans byReceiver)
  -- so what was sent has been read, or waits
  have mine : openedAs Role.sender.reads (w.log ((), Role.sender)) = some o := opened
  have shared : openedAs Role.sender.reads (w.log ((), Role.sender.peer)) = some o := opened'
  obtain ⟨_, history⟩ := exists_historyOf documented.alone reach
  have balance := history.replays.balance o
  rw [history.taken reach mine, history.added reach mine, unread_of_next reach waiting, waits,
    empty o, if_pos shared] at balance
  have inside : (⟨some ((), .sendSymmetricKey), m⟩ : Entry Unit B) ∈
      entriesSent () (w.log ((), Role.sender.peer)) :=
    List.mem_filterMap.mpr ⟨_, sent, rfl⟩
  rw [show entriesSent () (w.log ((), Role.sender.peer)) = [] from balance] at inside
  cases inside

/-- A sender that is over was sent the key. -/
theorem sent_of_ended (lawful : B.Lawful) (empty : ∀ o, κ₀.queue o = [])
    (reach : (sessions (Policy.flaky Unit d False)).Reachable (sessionsStart cfg κ₀) w)
    (ended : (w.procs ((), .sender)).next = none) :
    ∃ m, .sent .sendSymmetricKey m ∈ w.log ((), .receiver) := by
  obtain ⟨n, chain⟩ := exists_chain reach
  obtain ⟨s, -, h⟩ := exists_tracks (fun _ => Policy.flaky_isolating d) empty chain
  obtain ⟨σ⟩ := exists_script lawful d
  have unfailing := (h.reached ()).unfailing σ
  have agreeing := Session.Reachable.agreeing σ (h.reached ())
  obtain ⟨v, status, point⟩ | ⟨name, point⟩ | ⟨key, e, point⟩ :=
    SenderPoint.ended_cases cfg ((senderMain_bisimulation cfg).ended_left (h.sender ()) ended)
  · -- it has got past its receive
    have keyed : (s ()).sender.Keyed := by
      rw [point]
      trivial
    refine ⟨σ.cipher, ?_⟩
    rw [h.receiverLog]
    exact mem_exchanges_sent.mp (agreeing.answered (.inr keyed))
  · rw [point] at unfailing
    exact unfailing.elim
  · rw [point] at unfailing
    exact unfailing.elim

end Unit

/-- **How a session with failing calls ends.**  Its runs are finite.  It stops with the
receiver over, and the sender over or waiting for a symmetric key that has not come; and the
latter exactly if the receiver never got the key sent. -/
theorem flaky_session_ends (lawful : B.Lawful) (d : Draws B) (cfg : Config)
    (κ₀ : Kernel QueueName (Entry Unit B)) (empty : ∀ o, κ₀.queue o = []) :
    (∀ n w, Chain (sessions (Policy.flaky Unit d False)).Step n (sessionsStart cfg κ₀) w →
      n ≤ 2 * cfg.numMessagesToSend + 45) ∧
    ∀ w, (sessions (Policy.flaky Unit d False)).Reachable (sessionsStart cfg κ₀) w →
      ((sessions (Policy.flaky Unit d False)).Stuck w ↔
        (w.procs ((), .receiver)).next = none ∧
          ((w.procs ((), .sender)).next = none ∨ SenderHangs w)) ∧
      ((sessions (Policy.flaky Unit d False)).Stuck w →
        (SenderHangs w ↔ ∀ m, .sent .sendSymmetricKey m ∉ w.log ((), .receiver))) := by
  refine ⟨fun n w chain => Chain.le_of_alone (Policy.flaky_isolating d)
    (Policy.flaky_documented Unit d False).alone empty chain, fun w reach => ?_⟩
  refine ⟨flaky_stuck_iff lawful reach, fun stuck => ⟨fun hangs m =>
    not_sent_of_hangs empty reach hangs m, fun unsent => ?_⟩⟩
  rcases ((flaky_stuck_iff lawful reach).mp stuck).2 with ended | hangs
  · obtain ⟨m, sent⟩ := sent_of_ended lawful empty reach ended
    exact absurd sent (unsent m)
  · exact hangs

/-- A sample session in which the receiver's first receive fails: it crashes on the public
key it has not got, and the sender waits for ever. -/
theorem flaky_session_ends_crash :
    ∃ w : SessionsWorld Unit sampleBotan,
      (sessions (Policy.flaky Unit sampleDraws False)).Stuck w ∧
      (w.procs ((), .receiver)).prog = .undef .nullPointer ∧ SenderHangs w := by
  have turn := alone_may
    (sessionsStart .source (Kernel.empty QueueName (Entry Unit sampleBotan))).procs
  have honours := Policy.flaky_honours Unit sampleDraws False
  have bound := linked_names (Kernel.empty QueueName (Entry Unit sampleBotan)) 10
  have sent := Stage.Reached.keySent (P := fun _ => Policy.flaky Unit sampleDraws False)
    sampleScript honours (by decide) (fun _ => rfl) (fun _ => rfl) turn
    (Stage.at_start .source (Kernel.empty _ _) ())
  have r₁ := sent.receiver turn rfl (.mqOpen (Kernel.mqOpen_of_bound _ (bound .receiverToSender)))
  have r₂ := r₁.receiver turn rfl (.mqOpen (Kernel.mqOpen_of_bound _ (bound .senderToReceiver)))
  have r₃ := r₂.receiver turn rfl (.mqReceiveFails trivial)
  have r₄ := r₃.receiver turn rfl (.botan rfl (honours.autoSeededRng .receiver))
  have r₅ := r₄.receiver turn rfl
    (.botan rfl (honours.sessionKey sampleDraws.sessionKey.property))
  obtain ⟨w, reach, here, -⟩ := r₅
  -- no key has been sent, so where the session stops the sender hangs
  have crashed : (w.procs ((), .receiver)).prog = .undef .nullPointer := by
    obtain ⟨obs, shape, -⟩ := here.receiver
    rw [shape]
    rfl
  obtain ⟨next, waiting⟩ := (senderMain_bisimulation .source).waiting_right here.sender rfl
  have hangs : SenderHangs w := ⟨1, next, waiting, by rw [here.env]; rfl⟩
  have ended := Proc.next_of_undef crashed
  have stops := ((flaky_session_ends sampleBotan_lawful sampleDraws .source (Kernel.empty _ _)
    fun _ => rfl).2 w reach).1
  exact ⟨w, stops.mpr ⟨ended, .inr hangs⟩, crashed, hangs⟩

end Failures

end SecureComm
