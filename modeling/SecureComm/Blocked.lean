import Mathlib.Tactic.Common
import SecureComm.Progress
import SecureComm.KeyAgreement
import SecureComm.QueueHistory

/-!
# Where sessions stop

Whatever the kernel held, whichever queue calls may fail and however many sessions there
are: with a Botan that answers, the sessions stop exactly where every process is over, waits
on an empty queue, waits for room, waits for Enter, or waits for its session's turn.  No
other call blocks.
-/

namespace SecureComm

open Interaction MessageQueue

section Blocked

variable {ι : Type} {B : Botan}

/-- Botan gives only answers it documents, has one for every call the programs make, and
there is no third party.  What is drawn is left open, for each session and each call. -/
structure Policy.Documented (P : Policy ι B) : Prop where
  documented : ∀ role op r, P.botan role op r → documentedAnswer op r
  answers : ∀ role op, op.isBotan = true → (∀ n, op = .randomize n → n = kSymKeySize) →
    ∃ r, P.botan role op r
  alone : ∀ sl rl q q', ¬ P.intrudes sl rl q q'

/-- Botan's answers to certain draws are a case of it. -/
theorem Policy.Documented.of_draws {P : Policy ι B} {d : Draws B} (botan : P.botan = d.answers)
    (alone : ∀ sl rl q q', ¬ P.intrudes sl rl q q') : P.Documented where
  documented role op r answers := d.documented (by rwa [botan] at answers)
  answers role op is size := by
    rw [botan]
    exact d.exists_answer role is size
  alone := alone

theorem Policy.honest_documented (ι : Type) (d : Draws B) (enter : Prop) :
    (Policy.honest ι d enter).Documented := .of_draws rfl fun _ _ _ _ => id

/-! ## What the receiver asks for -/

/-- The receiver's key has its size, and the ciphertext it is about to send fits into a
message. -/
def ReceiverPoint.Sized : ReceiverPoint B → Prop
  | .run v (.sendKey c) => v.key.length = kSymKeySize ∧ c.length ≤ kMessageSize
  | .run v _ => v.key.length = kSymKeySize
  | _ => True

theorem ReceiverPoint.sized_receive {v : ReceiverVars B} (size : v.key.length = kSymKeySize)
    (buffer : List B.Byte) (m : Message B) : (ReceiverPoint.receive v buffer m).Sized := by
  unfold ReceiverPoint.receive
  split_ifs <;> exact size

/-- The receiver's moves keep its sizes. -/
theorem ReceiverMove.sized {cfg : Config} {P : Policy ι B} {k : ι}
    {ch ch' : Channels ι B} {pt pt' : ReceiverPoint B} {recs : List (Rec ι B)}
    (lawful : B.Lawful) (documented : P.Documented)
    (move : ReceiverMove cfg P k ch pt pt' ch' recs) (here : pt.Sized) : pt'.Sized := by
  cases move with
  | openSR rs o => simp [ReceiverPoint.Sized, ReceiverVars.start]
  | randomize v bytes h =>
      have size : bytes.val.length = kSymKeySize := bytes.property.trans here
      rcases v.publicKey with _ | (_ | _) <;> exact size
  | encrypt v pk c h =>
      obtain ⟨seed, value⟩ | ⟨e, threw⟩ := documented.documented _ _ _ h
      · obtain ⟨c', encrypted, fits⟩ := lawful.encrypt_ok pk seed v.key here
        rw [encrypted] at value
        cases value
        exact ⟨here, fits⟩
      · cases threw
  | sendKey v c fits => exact here.1
  | sendKeyFails v c h => exact here.1
  | receive v buffer e rest waits => exact ReceiverPoint.sized_receive here buffer e.bytes
  | _ => first | exact here | trivial

variable [DecidableEq ι] [LT ι] {P : Policy ι B} {cfg : Config}
  {κ₀ : Kernel QueueName (Entry ι B)} {w : SessionsWorld ι B}

/-- What the receivers are about to ask for and to send. -/
theorem receiver_sized (lawful : B.Lawful) (documented : P.Documented)
    (reach : (sessions P).Reachable (sessionsStart cfg κ₀) w) (k : ι) :
    ∃ pt : ReceiverPoint B, pt.At cfg (w.procs (k, .receiver)) ∧ pt.Sized :=
  receiver_invariant (I := fun pt _ => pt.Sized) trivial
    (fun _ _ _ _ _ _ move => move.sized lawful documented) reach

/-- Both programs draw keys of one size. -/
theorem randomize_of_next (lawful : B.Lawful) (documented : P.Documented)
    (reach : (sessions P).Reachable (sessionsStart cfg κ₀) w) {pid : ι × Role} {n : ℕ}
    {next : (Op.randomize (B := B) n).Resp → Process B}
    (waiting : (w.procs pid).next = some ⟨.randomize n, next⟩) : n = kSymKeySize := by
  obtain ⟨k, role⟩ := pid
  cases role with
  | sender =>
      obtain ⟨t, run, -⟩ := exists_thread reach k .sender
      obtain ⟨pt, -, here⟩ := senderProcess_runs cfg run
      obtain ⟨next', there⟩ := (senderMain_bisimulation cfg).waiting_left here waiting
      cases pt with
      | run v pc => cases pc <;> cases there
      | randomize sr rs sk => cases there; rfl
      | _ => cases there
  | receiver =>
      obtain ⟨pt, here, size⟩ := receiver_sized lawful documented reach k
      obtain ⟨next', there⟩ := (receiverMain_bisimulation cfg).waiting_left here waiting
      cases pt with
      | run v pc =>
          cases pc with
          | randomize => cases there; exact size
          | _ => cases there
      | _ => cases there

/-- **What a process sends fits into a message.** -/
theorem fits_of_next (lawful : B.Lawful) (documented : P.Documented)
    (reach : (sessions P).Reachable (sessionsStart cfg κ₀) w) {pid : ι × Role} {site : Site}
    {mq : Mqd} {msg : List B.Byte} {next : Bool → Process B}
    (waiting : (w.procs pid).next = some ⟨.mqSend site mq msg, next⟩) :
    msg.length ≤ kMessageSize := by
  obtain ⟨k, role⟩ := pid
  cases role with
  | sender =>
      obtain ⟨t, run, -⟩ := exists_thread reach k .sender
      obtain ⟨pt, -, here⟩ := senderProcess_runs cfg run
      obtain ⟨next', there⟩ := (senderMain_bisimulation cfg).waiting_left here waiting
      cases pt with
      | run v pc =>
          cases pc with
          | sendKey => cases there; exact lawful.subjectPublicKey_length _
          | frame i n => cases there; exact length_frameBytes_le v.key i
          | _ => cases there
      | _ => cases there
  | receiver =>
      obtain ⟨pt, here, size⟩ := receiver_sized lawful documented reach k
      obtain ⟨next', there⟩ := (receiverMain_bisimulation cfg).waiting_left here waiting
      cases pt with
      | run v pc =>
          cases pc with
          | sendKey c => cases there; exact size.2
          | _ => cases there
      | _ => cases there

/-! ## Stuck sessions -/

/-- A process that is over, or whose call has no answer now. -/
inductive Blocked (P : Policy ι B) (κ : Kernel QueueName (Entry ι B)) (role : Role)
    (p : Process B) : Prop
  | ended (ended : p.next = none)
  | empty {site : Site} {o : ℕ} {next : Option (Message B) → Process B}
      (waiting : p.next = some ⟨.mqReceive site (some o), next⟩) (empty : κ.queue o = [])
      (sound : ¬ P.fails role (.mqReceive site (some o)))
  | full {site : Site} {o : ℕ} {msg : List B.Byte} {next : Bool → Process B}
      (waiting : p.next = some ⟨.mqSend site (some o) msg, next⟩)
      (full : (κ.objects o).maxmsg ≤ (κ.queue o).length)
      (sound : ¬ P.fails role (.mqSend site (some o) msg))
  | enter {next : Unit → Process B} (waiting : p.next = some ⟨.cinGet, next⟩)
      (unpressed : ¬ P.enter)

/-- A call that can be answered is no end. -/
theorem not_stuck_of_answer {pid : ι × Role} (may : (sessions P).may w.procs pid) {op : Op B}
    {r : op.Resp} {next : op.Resp → Process B} (waiting : (w.procs pid).next = some ⟨op, next⟩)
    {κ : Kernel QueueName (Entry ι B)} {recs : List (Rec ι B)}
    (answer : Answered (kernelService ι B) P pid.1 pid.2 w.env op r κ recs) :
    ¬ (sessions P).Stuck w := fun stuck =>
  stuck _ (.act pid ⟨op, r⟩ may (Machine.Step.intro waiting r) answer)

/-- Botan's calls are all answered. -/
theorem exists_answer_of_isBotan (lawful : B.Lawful) (documented : P.Documented)
    (reach : (sessions P).Reachable (sessionsStart cfg κ₀) w) {pid : ι × Role} {op : Op B}
    {next : op.Resp → Process B} (waiting : (w.procs pid).next = some ⟨op, next⟩)
    (is : op.isBotan = true) : ∃ r, P.botan pid.2 op r := by
  refine documented.answers pid.2 op is ?_
  rintro n rfl
  exact randomize_of_next lawful documented reach waiting

/-- Where nothing moves, every process whose turn it is is blocked. -/
theorem blocked_of_stuck (lawful : B.Lawful) (documented : P.Documented)
    (reach : (sessions P).Reachable (sessionsStart cfg κ₀) w)
    (stuck : (sessions P).Stuck w) {pid : ι × Role} (may : (sessions P).may w.procs pid) :
    Blocked P w.env pid.2 (w.procs pid) := by
  cases waiting : (w.procs pid).next with
  | none => exact .ended waiting
  | some call =>
      obtain ⟨op, next⟩ := call
      have unanswered : ∀ r κ recs,
          ¬ Answered (kernelService ι B) P pid.1 pid.2 w.env op r κ recs :=
        fun r κ recs answer => not_stuck_of_answer may waiting answer stuck
      cases op with
      | mqOpen name attr => exact absurd (.mqOpen rfl) (unanswered _ _ _)
      | mqSend site mq msg =>
          -- the descriptor is one of the process's own
          obtain ⟨o, rfl, opened⟩ :=
            mqd_of_uses reach pid (Machine.Step.intro waiting true) rfl
          have allocated := (oneName reach).allocated _ _ _ (openedAs_mem opened)
          have fits := fits_of_next lawful documented reach waiting
          refine .full waiting ?_ fun fails => unanswered _ _ _ (.mqSendFails fails)
          by_contra room
          exact unanswered _ _ _ (.mqSend fits ⟨o, allocated, rfl, not_le.mp room, rfl⟩)
      | mqReceive site mq =>
          obtain ⟨o, rfl, opened⟩ :=
            mqd_of_uses reach pid (Machine.Step.intro waiting none) rfl
          have allocated := (oneName reach).allocated _ _ _ (openedAs_mem opened)
          refine .empty waiting ?_ fun fails => unanswered _ _ _ (.mqReceiveFails fails)
          cases waits : w.env.queue o with
          | nil => rfl
          | cons e rest =>
              exact absurd (.mqReceive ⟨o, rest, allocated, rfl, waits, rfl⟩)
                (unanswered _ _ _)
      | mqClose mq => exact absurd .mqClose (unanswered _ _ _)
      | mqUnlink name => exact absurd (.mqUnlink rfl) (unanswered _ _ _)
      | cinGet => exact .enter waiting fun pressed => unanswered _ _ _ (.cinGet pressed)
      | _ =>
          obtain ⟨r, answers⟩ := exists_answer_of_isBotan lawful documented reach waiting rfl
          exact absurd (.botan rfl answers) (unanswered _ _ _)

omit [DecidableEq ι] [LT ι] in
/-- A blocked process does not move. -/
theorem Blocked.no_step {pid : ι × Role} (blocked : Blocked P w.env pid.2 (w.procs pid))
    {e : Event (Op B) Op.Resp} {p : Process B}
    (step : Machine.Step Proc.next (w.procs pid) e p) {κ : Kernel QueueName (Entry ι B)}
    {recs : List (Rec ι B)} :
    ¬ Answered (kernelService ι B) P pid.1 pid.2 w.env e.1 e.2 κ recs := by
  intro answer
  obtain ⟨op, r⟩ := e
  obtain ⟨next, waiting, -⟩ := step
  cases blocked with
  | ended ended => rw [ended] at waiting; cases waiting
  | empty here empty sound =>
      cases here.symm.trans waiting
      cases answer with
      | mqReceive receives =>
          obtain ⟨o', rest, allocated, same, waits, -⟩ := receives
          cases same
          rw [empty] at waits
          cases waits
      | mqReceiveFails fails => exact sound fails
      | botan is answers => cases is
  | full here full sound =>
      cases here.symm.trans waiting
      cases answer with
      | mqSend fits sends =>
          obtain ⟨o', allocated, same, room, -⟩ := sends
          cases same
          exact absurd room (not_lt.mpr full)
      | mqSendFails fails => exact sound fails
      | botan is answers => cases is
  | enter here unpressed =>
      cases here.symm.trans waiting
      cases answer with
      | cinGet pressed => exact unpressed pressed
      | botan is answers => cases is

/-- Where every process whose turn it is is blocked, nothing moves. -/
theorem stuck_of_blocked (documented : P.Documented)
    (blocked : ∀ pid, (sessions P).may w.procs pid →
      Blocked P w.env pid.2 (w.procs pid)) : (sessions P).Stuck w := by
  intro w' step
  cases step with
  | act pid e may step answer => exact (blocked pid may).no_step step answer
  | move intruded =>
      obtain ⟨k, o, msgs, allocated, opened, intrudes, -⟩ := intruded
      exact documented.alone _ _ _ _ intrudes

/-- **Where sessions stop**: every process is over, waits on an empty or a full queue, waits
for Enter, or waits for its session's turn.  So it is from any kernel, for any number of
sessions and whichever queue calls may fail. -/
theorem stuck_iff_blocked (lawful : B.Lawful) (documented : P.Documented) (cfg : Config)
    (κ₀ : Kernel QueueName (Entry ι B)) (w : SessionsWorld ι B)
    (reach : (sessions P).Reachable (sessionsStart cfg κ₀) w) :
    (sessions P).Stuck w ↔
      ∀ pid, (sessions P).may w.procs pid → Blocked P w.env pid.2 (w.procs pid) :=
  ⟨fun stuck _ may => blocked_of_stuck lawful documented reach stuck may,
    stuck_of_blocked documented⟩

/-- Where a session that is alone stops, both its processes are blocked. -/
theorem blocked_of_stuck_alone {P : Policy Unit B} {κ₀ : Kernel QueueName (Entry Unit B)}
    {w : SessionsWorld Unit B} (lawful : B.Lawful) (documented : P.Documented)
    (reach : (sessions P).Reachable (sessionsStart cfg κ₀) w) (stuck : (sessions P).Stuck w)
    (role : Role) : Blocked P w.env role (w.procs ((), role)) :=
  have may : (sessions P).may w.procs ((), role) := alone_may w.procs
  blocked_of_stuck lawful documented reach stuck may

/-- No queue call fails, and Botan gives any answer it documents. -/
def Policy.documented (ι : Type) (B : Botan) : Policy ι B where
  fails _ _ := False
  botan _ _ r := documentedAnswer _ r
  enter := True
  intrudes _ _ _ _ := False

omit [DecidableEq ι] [LT ι] in
/-- A receiver that waits for a message is blocked when no queue holds one. -/
theorem ReceiverPoint.At.blocked {P : Policy ι B} {κ : Kernel QueueName (Entry ι B)}
    {pt : ReceiverPoint B} {p : Process B} {site : Site} {o : ℕ}
    {next : Option (Message B) → ReceiverPoint B} (here : pt.At cfg p)
    (waiting : pt.next cfg = some ⟨.mqReceive site (some o), next⟩) (empty : κ.queue o = [])
    (sound : ¬ P.fails .receiver (.mqReceive site (some o))) : Blocked P κ .receiver p := by
  obtain ⟨next', waits⟩ := (receiverMain_bisimulation cfg).waiting_right here waiting
  exact .empty waits empty sound

/-- Two sample sessions have run, each with its own session key, and the generator of the
third throws: none of the sessions to come ever gets its turn. -/
theorem stuck_iff_blocked_thrown :
    ∃ (σ : ∀ k, Script (numberedDraws k)) (w : SessionsWorld ℕ sampleBotan),
      (∀ k, k < 2 → exchanges (w.log (k, .receiver)) =
        (σ k).receiverRecs k kNumMessagesToSend) ∧
      (sessions (Policy.documented ℕ sampleBotan)).Stuck w := by
  obtain ⟨σ⟩ := Classical.nonempty_pi.mpr fun k =>
    exists_script sampleBotan_lawful (numberedDraws k)
  have documented : (Policy.documented ℕ sampleBotan).Documented :=
    ⟨fun _ _ _ => id, fun role op is size => (sampleDraws.exists_answer role is size).imp
      fun _ answers => sampleDraws.documented answers, fun _ _ _ _ => id⟩
  obtain ⟨w₀, before, run⟩ := exists_consecutive
    (P := fun _ => Policy.documented ℕ sampleBotan) .source σ
    (fun k _ _ _ answers => (numberedDraws k).documented answers) (fun _ => trivial) (by decide) 2
  have bound := linked_names w₀.env Config.source.maxMessages
  -- the third receiver waits for a public key, which its sender has not lived to send
  have threw := (Stage.Reached.opens (P := fun _ => Policy.documented ℕ sampleBotan) run.unbound
    run.returned (run.waiting 2 (Nat.le_refl 2))).sender run.returned rfl
      (.botan (r := (Except.error Exn.prngUnseeded : Except Exn Unit)) rfl trivial)
  have r₁ := threw.receiver run.returned rfl
    (.mqOpen (Kernel.mqOpen_of_bound _ (bound .receiverToSender)))
  have r₂ := r₁.receiver run.returned rfl
    (.mqOpen (Kernel.mqOpen_of_bound _ (bound .senderToReceiver)))
  obtain ⟨w, reach, here, rest⟩ := r₂
  have empty : ∀ o, w.env.queue o = [] := fun o => by rw [here.env]; simp [run.empty]
  have thrown : (w.procs (2, .sender)).prog = .throw .prngUnseeded := by
    obtain ⟨pk, obs, is⟩ := here.sender
    rw [is]
    rfl
  refine ⟨σ, w, fun k lower => ?_, ?_⟩
  · rw [(rest k .receiver (by omega)).2]
    exact run.read k lower
  refine (stuck_iff_blocked sampleBotan_lawful documented .source _ w (before.trans reach)).mpr ?_
  rintro ⟨k, role⟩ may
  rcases lt_trichotomy k 2 with lower | rfl | higher
  · cases role with
    | sender =>
        obtain ⟨status, is⟩ := run.returned k lower
        rw [← (rest k .sender (by omega)).1] at is
        exact .ended (Proc.next_of_ret is)
    | receiver =>
        obtain ⟨v, buffer, listens⟩ := run.listening k lower
        rw [← (rest k .receiver (by omega)).1] at listens
        exact listens.blocked rfl (empty _) id
  · cases role with
    | sender => exact .ended (Proc.next_of_throw thrown)
    | receiver => exact here.receiver.blocked rfl (empty _) id
  · -- the sender of the third session has not returned
    obtain ⟨status, is⟩ := may 2 higher
    rw [thrown] at is
    cases is

end Blocked

end SecureComm
