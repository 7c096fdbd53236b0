import Mathlib.Tactic.Common
import SecureComm.Blocked

/-!
# A session over leftovers

One session may find its names bound, and messages of an earlier one behind them.  As long
as no name has been unlinked, it is a session over channels that hold these messages from
the start (`Shows.step`).

So one message that the sender cannot decrypt is enough to end every session there will be:
the sender throws before it has unlinked anything, and the encrypted key of its own session
stays behind for the next one.
-/

namespace SecureComm

open Interaction MessageQueue

section Leftovers

variable {B : Botan}

/-! ## What waits under the names -/

/-- What waits under each name. -/
def underNames (κ : Kernel QueueName (Entry Unit B)) : Channels Unit B := fun name =>
  match κ.names name with
  | some o => κ.queue o
  | none => []

section Kernel

variable {κ κ' : Kernel QueueName (Entry Unit B)} {name : QueueName} {o : ℕ}

theorem underNames_of_bound (bound : κ.names name = some o) :
    underNames κ name = κ.queue o := by
  simp [underNames, bound]

theorem underNames_of_unbound (unbound : κ.names name = none) : underNames κ name = [] := by
  simp [underNames, unbound]

/-- The messages under one name are replaced, the other's are not. -/
theorem underNames_setQueue (bound : κ.names name = some o) (msgs : List (Entry Unit B))
    (allocated : o < κ.fresh) :
    underNames (κ.setQueue o msgs allocated) =
      Function.update (underNames κ) name msgs := by
  funext name'
  by_cases same : name' = name
  · subst same
    rw [underNames_of_bound (κ := κ.setQueue o msgs allocated) bound, Function.update_self,
      Kernel.setQueue_queue_self]
  · rw [Function.update_of_ne same]
    cases bound' : κ.names name' with
    | none =>
        rw [underNames_of_unbound (κ := κ.setQueue o msgs allocated) bound',
          underNames_of_unbound bound']
    | some o' =>
        have apart : o' ≠ o := fun is => same (κ.names_inj _ _ o' bound' (is ▸ bound))
        rw [underNames_of_bound (κ := κ.setQueue o msgs allocated) bound',
          underNames_of_bound bound', Kernel.setQueue_queue_of_ne κ msgs allocated apart]

/-- An open puts nothing anywhere. -/
theorem underNames_mqOpen {maxmsg : ℕ} (opens : κ.mqOpen name maxmsg = (o, κ')) :
    underNames κ' = underNames κ := by
  have opened := Kernel.mqOpen_opens opens
  have same := Kernel.mqOpen_queue opens
  funext name'
  cases before : κ.names name' with
  | some o' =>
      rw [underNames_of_bound before, underNames_of_bound (opened.keeps name' o' before), same]
  | none =>
      rw [underNames_of_unbound before]
      cases now : κ'.names name' with
      | none => exact underNames_of_unbound now
      | some o' =>
          -- the object is fresh
          rcases opened.new name' o' now with old | new
          · rw [before] at old
            cases old
          · rw [underNames_of_bound now, same]
            exact κ.fresh_nil o' new

end Kernel

/-! ## The session it is -/

/-- What is answered over the kernel is answered over what waits under its names, if the call
uses a queue that is still under its name, and unlinks none. -/
theorem Answered.underNames {P : Policy Unit B} {role : Role}
    {κ κ' : Kernel QueueName (Entry Unit B)} {op : Op B} {r : op.Resp}
    {recs : List (Rec Unit B)}
    (answer : Answered (kernelService Unit B) P () role κ op r κ' recs)
    (uses : ∀ name mq, op.uses = some (name, mq) → ∃ o, mq = some o ∧ κ.names name = some o)
    (keeps : ∀ name, op ≠ .mqUnlink name) :
    Answered (channelService Unit B) P () role (SecureComm.underNames κ) op r
        (SecureComm.underNames κ') recs ∧
      (∀ name o, κ.names name = some o → κ'.names name = some o) ∧
      ∀ name o, .opened name o ∈ recs → κ'.names name = some o := by
  cases answer with
  | mqOpen opens =>
      have opened := Kernel.mqOpen_opens opens
      refine ⟨.mqOpen (underNames_mqOpen opens), opened.keeps, fun name' o' inside => ?_⟩
      cases List.mem_singleton.mp inside
      exact opened.bound
  | mqSend fits sends =>
      obtain ⟨o, allocated, rfl, -, rfl⟩ := sends
      obtain ⟨o', same, bound⟩ := uses _ _ rfl
      cases same
      refine ⟨.mqSend fits ?_, fun _ _ => id, by simp⟩
      exact (underNames_setQueue bound _ allocated).trans (by rw [underNames_of_bound bound])
  | mqReceive receives =>
      obtain ⟨o, rest, allocated, rfl, waits, rfl⟩ := receives
      obtain ⟨o', same, bound⟩ := uses _ _ rfl
      cases same
      exact ⟨.mqReceive ⟨rest, (underNames_of_bound bound).trans waits,
        underNames_setQueue bound rest allocated⟩, fun _ _ => id, by simp⟩
  | mqOpenFails fails => exact ⟨.mqOpenFails fails, fun _ _ => id, by simp⟩
  | mqSendFails fails => exact ⟨.mqSendFails fails, fun _ _ => id, by simp⟩
  | mqReceiveFails fails => exact ⟨.mqReceiveFails fails, fun _ _ => id, by simp⟩
  | mqClose => exact ⟨.mqClose, fun _ _ => id, by simp⟩
  | mqUnlink unlinks => exact absurd rfl (keeps _)
  | cinGet pressed => exact ⟨.cinGet pressed, fun _ _ => id, by simp⟩
  | botan is answers => exact ⟨.botan is answers, fun _ _ => id, by simp⟩

/-- The session a world shows: its channels are what waits under the names, and every queue
a program has opened is still under its name. -/
structure Shows (cfg : Config) (w : SessionsWorld Unit B) (s : Session Unit B) : Prop where
  chan : s.chan = underNames w.env
  sender : s.sender.At cfg (w.procs ((), .sender))
  receiver : s.receiver.At cfg (w.procs ((), .receiver))
  senderLog : w.log ((), .sender) = s.senderLog
  receiverLog : w.log ((), .receiver) = s.receiverLog
  linked : ∀ role name o, .opened name o ∈ w.log ((), role) → w.env.names name = some o

section Runs

variable {cfg : Config} {P : Policy Unit B} {κ₀ : Kernel QueueName (Entry Unit B)}
  {w w' : SessionsWorld Unit B} {s : Session Unit B}

theorem Shows.start (cfg : Config) (κ : Kernel QueueName (Entry Unit B)) :
    Shows cfg (sessionsStart cfg κ) ⟨underNames κ, .openSR, .openRS, [], []⟩ where
  chan := rfl
  sender := senderProcess_at cfg
  receiver := receiverProcess_at cfg
  senderLog := rfl
  receiverLog := rfl
  linked _ _ _ := nofun

/-- The queue that a call uses is still under its name, and is the channel. -/
theorem Shows.chan_of_uses (h : Shows cfg w s)
    (reach : (sessions P).Reachable (sessionsStart cfg κ₀) w) {role : Role}
    {e : Event (Op B) Op.Resp} {p : Process B}
    (step : Machine.Step Proc.next (w.procs ((), role)) e p) {name : QueueName} {mq : Mqd}
    (uses : e.1.uses = some (name, mq)) :
    ∃ o, mq = some o ∧ w.env.names name = some o ∧ s.chan name = w.env.queue o := by
  obtain ⟨o, is, opened⟩ := mqd_of_uses reach ((), role) step uses
  have linked := h.linked role name o (openedAs_mem opened)
  exact ⟨o, is, linked, (congrFun h.chan name).trans (underNames_of_bound linked)⟩

/-- What one process does over the kernel it does over the channels. -/
theorem Shows.answered (h : Shows cfg w s)
    (reach : (sessions P).Reachable (sessionsStart cfg κ₀) w) {role : Role}
    {e : Event (Op B) Op.Resp} {p : Process B}
    (step : Machine.Step Proc.next (w.procs ((), role)) e p) (keeps : ∀ name, e.1 ≠ .mqUnlink name)
    {κ : Kernel QueueName (Entry Unit B)} {recs : List (Rec Unit B)}
    (answer : Answered (kernelService Unit B) P () role w.env e.1 e.2 κ recs) :
    Answered (channelService Unit B) P () role s.chan e.1 e.2 (underNames κ) recs ∧
      (∀ name o, w.env.names name = some o → κ.names name = some o) ∧
      ∀ role' name o,
        .opened name o ∈ Function.update w.log ((), role) (w.log ((), role) ++ recs)
          ((), role') → κ.names name = some o := by
  rw [h.chan]
  obtain ⟨answer', kept, bound⟩ := answer.underNames (fun name mq uses => by
    obtain ⟨o, is, linked, -⟩ := h.chan_of_uses reach step uses
    exact ⟨o, is, linked⟩) keeps
  refine ⟨answer', kept, fun role' name o inside => ?_⟩
  rcases System.mem_update_log.mp inside with old | ⟨-, new⟩
  · exact kept name o (h.linked role' name o old)
  · exact bound name o new

/-- **Until a name is unlinked**, a session over the kernel is one over channels that hold
what waited under its names. -/
theorem Shows.step (h : Shows cfg w s)
    (reach : (sessions P).Reachable (sessionsStart cfg κ₀) w)
    (linked : ∀ name next, s.sender.next cfg ≠ some ⟨.mqUnlink name, next⟩)
    (step : (sessions P).Step w w') :
    ∃ s', Session.Step cfg P () s s' ∧ Shows cfg w' s' ∧
      ∀ name o, w.env.names name = some o → w'.env.names name = some o := by
  cases step with
  | @act pid e p env recs may step answer =>
      obtain ⟨⟨⟩, role⟩ := pid
      cases role with
      | sender =>
          obtain ⟨pt, next, there⟩ := (senderMain_bisimulation cfg).step_right h.sender step
          have keeps : ∀ name, e.1 ≠ .mqUnlink name := by
            intro name is
            obtain ⟨op, r⟩ := e
            obtain ⟨next', waiting, -⟩ := next
            cases is
            exact linked name next' waiting
          obtain ⟨answer', kept, bound⟩ := h.answered reach step keeps answer
          refine ⟨_, .sender next answer', ⟨rfl, ?_, ?_, ?_, ?_, bound⟩, kept⟩
          · simpa using there
          · simpa using h.receiver
          · simp [h.senderLog]
          · simpa using h.receiverLog
      | receiver =>
          obtain ⟨pt, next, there⟩ := (receiverMain_bisimulation cfg).step_right h.receiver step
          have keeps : ∀ name, e.1 ≠ .mqUnlink name := by
            intro name is
            obtain ⟨op, r⟩ := e
            obtain ⟨next', waiting, -⟩ := next
            cases is
            exact ReceiverPoint.next_ne_unlink waiting
          obtain ⟨answer', kept, bound⟩ := h.answered reach step keeps answer
          refine ⟨_, .receiver next answer', ⟨rfl, ?_, ?_, ?_, ?_, bound⟩, kept⟩
          · simpa using h.sender
          · simpa using there
          · simpa using h.senderLog
          · simp [h.receiverLog]
  | move intruded =>
      obtain ⟨⟨⟩, o, msgs, allocated, opened, intrudes, rfl⟩ := intruded
      have bound := h.linked .sender _ o opened
      have waits := (congrFun h.chan .senderToReceiver).trans (underNames_of_bound bound)
      rw [← waits, h.senderLog, h.receiverLog] at intrudes
      refine ⟨_, .intrude intrudes, ⟨?_, h.sender, h.receiver, h.senderLog, h.receiverLog,
        h.linked⟩, fun _ _ => id⟩
      rw [h.chan]
      exact (underNames_setQueue bound msgs allocated).symm

end Runs

/-! ## A message that cannot be decrypted -/

section Poisoned

variable {cfg : Config} {d : Draws B} (σ : Script d)

/-- The sender has read the message `m` in place of its key, or has thrown. -/
def SenderPoint.Doomed (d : Draws B) (m : Message B) : SenderPoint B → Prop
  | .run v (.rngKey m') => v.privateKey = d.privateKey ∧ m' = m
  | .run v (.decrypt m') => v.privateKey = d.privateKey ∧ m' = m
  | .threw _ _ => True
  | _ => False

/-- It cannot but throw. -/
theorem SenderMove.of_doomed {k : Unit} {ch ch' : Channels Unit B} {pt pt' : SenderPoint B}
    {recs : List (Rec Unit B)} {m : Message B} {x : Exn}
    (foreign : B.decrypt d.privateKey m.val = .error x)
    (move : SenderMove cfg (Policy.honest Unit d True) k ch pt pt' ch' recs)
    (here : pt.Doomed d m) : pt'.Doomed d m ∧ ch' = ch ∧ recs = [] := by
  cases move with
  | rngKey v m' => exact ⟨here, rfl, rfl⟩
  | rngKeyThrows v m' e h => exact ⟨trivial, rfl, rfl⟩
  | decryptThrows v m' e h => exact ⟨trivial, rfl, rfl⟩
  | decrypt v m' key h =>
      obtain ⟨sk, rfl⟩ := here
      have value : Except.ok key = B.decrypt v.privateKey m'.val := h
      rw [sk, foreign] at value
      cases value
  | _ => exact here.elim

/-- Where the sender is when its queue holds the messages `q` behind the stale one. -/
def Session.Behind (d : Draws B) (e : Entry Unit B) (q : List (Entry Unit B))
    (s : Session Unit B) : Prop :=
  s.sender.Waiting d ∧ s.chan .receiverToSender = e :: q ∨
    s.sender.Doomed d e.bytes ∧ s.chan .receiverToSender = q

/-- **The invariant of a session over a stale message** `e`, with the messages `rest` behind
it. -/
inductive Session.Poisoned (e : Entry Unit B) (rest : List (Entry Unit B))
    (s : Session Unit B) : Prop
  | start (sender : s.sender.Starting d) (receiver : s.receiver.Starting)
      (sr : s.chan .senderToReceiver = []) (rs : s.chan .receiverToSender = e :: rest)
  | keySent (sender : s.Behind d e rest) (receiver : s.receiver.Starting)
      (sr : s.chan .senderToReceiver = [σ.publicKeyEntry ()])
  | answering (sender : s.Behind d e rest)
      (receiver : s.receiver.Answering d σ.publicKey σ.cipher)
      (sr : s.chan .senderToReceiver = [])
  | answered (sender : s.Behind d e (rest ++ [σ.cipherEntry ()]))
      (receiver : s.receiver.Listening d σ.frame 0) (sr : s.chan .senderToReceiver = [])

/-- What the sender does behind a stale message. -/
theorem Session.Behind.sender_step {s : Session Unit B} {e : Entry Unit B}
    {q : List (Entry Unit B)} {x : Exn} (foreign : B.decrypt d.privateKey e.bytes.val = .error x)
    (h : s.Behind d e q) {pt : SenderPoint B} {ch : Channels Unit B} {recs : List (Rec Unit B)}
    (move : SenderMove cfg (Policy.honest Unit d True) () s.chan s.sender pt ch recs) :
    Session.Behind d e q { s with chan := ch, sender := pt, senderLog := s.senderLog ++ recs } ∧
      ch .senderToReceiver = s.chan .senderToReceiver ∧
      ∀ m, .sent .sendPeriodicMessage m ∉ recs := by
  obtain ⟨waiting, rs⟩ | ⟨doomed, rs⟩ := h
  · obtain ⟨e', rest, waits, installing, rfl, rfl⟩ := move.of_waiting waiting
    rw [rs] at waits
    cases waits
    refine ⟨.inr ⟨?_, by simp⟩, by simp, by simp⟩
    cases pt with
    | run v pc => cases pc <;> exact installing
    | _ => exact installing.elim
  · obtain ⟨doomed', rfl, rfl⟩ := move.of_doomed foreign doomed
    exact ⟨.inr ⟨doomed', rs⟩, rfl, by simp⟩

/-- The sender keeps the invariant, and sends no frame. -/
theorem Session.Poisoned.sender_step {s : Session Unit B} {e : Entry Unit B}
    {rest : List (Entry Unit B)} {x : Exn}
    (foreign : B.decrypt d.privateKey e.bytes.val = .error x) (h : s.Poisoned σ e rest)
    {pt : SenderPoint B} {ch : Channels Unit B} {recs : List (Rec Unit B)}
    (move : SenderMove cfg (Policy.honest Unit d True) () s.chan s.sender pt ch recs) :
    Session.Poisoned σ e rest
        { s with chan := ch, sender := pt, senderLog := s.senderLog ++ recs } ∧
      ∀ m, .sent .sendPeriodicMessage m ∉ recs := by
  cases h with
  | start sender receiver sr rs =>
      obtain ⟨still, rfl, none⟩ | ⟨waiting, rfl, rfl⟩ := move.of_starting σ sender
      · refine ⟨.start still receiver sr rs, fun m sent => ?_⟩
        have exchanged := mem_exchanges_sent.mpr sent
        rw [none] at exchanged
        cases exchanged
      · exact ⟨.keySent (.inl ⟨waiting, by simpa using rs⟩) receiver (by simp [sr]), by simp⟩
  | keySent sender receiver sr =>
      obtain ⟨behind, same, none⟩ := sender.sender_step foreign move
      exact ⟨.keySent behind receiver (same.trans sr), none⟩
  | answering sender receiver sr =>
      obtain ⟨behind, same, none⟩ := sender.sender_step foreign move
      exact ⟨.answering behind receiver (same.trans sr), none⟩
  | answered sender receiver sr =>
      obtain ⟨behind, same, none⟩ := sender.sender_step foreign move
      exact ⟨.answered behind receiver (same.trans sr), none⟩

/-- The receiver keeps the invariant. -/
theorem Session.Poisoned.receiver_step {s : Session Unit B} {e : Entry Unit B}
    {rest : List (Entry Unit B)} (h : s.Poisoned σ e rest) {pt : ReceiverPoint B}
    {ch : Channels Unit B} {recs : List (Rec Unit B)}
    (move : ReceiverMove cfg (Policy.honest Unit d True) () s.chan s.receiver pt ch recs) :
    Session.Poisoned σ e rest
      { s with chan := ch, receiver := pt, receiverLog := s.receiverLog ++ recs } := by
  cases h with
  | start sender receiver sr rs =>
      obtain ⟨still, rfl, -⟩ | ⟨e', rest', waits, -⟩ := move.of_starting σ receiver
      · exact .start sender still sr rs
      · rw [sr] at waits
        cases waits
  | keySent sender receiver sr =>
      obtain ⟨still, rfl, -⟩ | ⟨e', rest', waits, reads, -, rfl⟩ := move.of_starting σ receiver
      · exact .keySent sender still sr
      · rw [sr] at waits
        cases waits
        exact .answering (by simpa [Behind] using sender) (reads rfl) (by simp)
  | answering sender receiver sr =>
      obtain ⟨still, rfl, -⟩ | ⟨listening, -, rfl⟩ := move.of_answering σ receiver
      · exact .answering sender still sr
      · refine .answered (sender.imp ?_ ?_) listening (by simpa using sr)
        · rintro ⟨waiting, rs⟩
          exact ⟨waiting, by simp [rs]⟩
        · rintro ⟨doomed, rs⟩
          exact ⟨doomed, by simp [rs]⟩
  | answered sender receiver sr =>
      obtain ⟨still, rfl, -⟩ | ⟨e', rest', waits, -⟩ := move.of_listening σ receiver
      · exact .answered sender still sr
      · rw [sr] at waits
        cases waits

/-- Where its sender is. -/
theorem Session.Poisoned.sender_cases {s : Session Unit B} {e : Entry Unit B}
    {rest : List (Entry Unit B)} (h : s.Poisoned σ e rest) :
    s.sender.Starting d ∧ s.chan .senderToReceiver = [] ∨
      s.sender.Waiting d ∧ s.chan .receiverToSender ≠ [] ∨ s.sender.Doomed d e.bytes := by
  have behind : ∀ {q}, s.Behind d e q →
      s.sender.Waiting d ∧ s.chan .receiverToSender ≠ [] ∨ s.sender.Doomed d e.bytes :=
    fun sender => sender.imp (fun ⟨waiting, rs⟩ => ⟨waiting, by simp [rs]⟩) And.left
  cases h with
  | start sender receiver sr rs => exact .inl ⟨sender, sr⟩
  | keySent sender receiver sr => exact .inr (behind sender)
  | answering sender receiver sr => exact .inr (behind sender)
  | answered sender receiver sr => exact .inr (behind sender)

/-- Where it ends, it has thrown; -/
theorem Session.Poisoned.threw_of_ended {s : Session Unit B} {e : Entry Unit B}
    {rest : List (Entry Unit B)} (h : s.Poisoned σ e rest) (ended : s.sender.next cfg = none) :
    ∃ key x, s.sender = .threw key x := by
  obtain ⟨v, status, point⟩ | ⟨name, point⟩ | threw := SenderPoint.ended_cases cfg ended
  · obtain ⟨here, -⟩ | ⟨here, -⟩ | here := h.sender_cases <;>
      · rw [point] at here
        exact here.elim
  · obtain ⟨here, -⟩ | ⟨here, -⟩ | here := h.sender_cases <;>
      · rw [point] at here
        exact here.elim
  · exact threw

/-- where it receives, something is there; -/
theorem Session.Poisoned.waits_of_receives {s : Session Unit B} {e : Entry Unit B}
    {rest : List (Entry Unit B)} (h : s.Poisoned σ e rest) {site : Site} {mq : Mqd}
    {next : Option (Message B) → SenderPoint B}
    (waiting : s.sender.next cfg = some ⟨.mqReceive site mq, next⟩) : s.chan site.queue ≠ [] := by
  obtain ⟨rfl, v, point⟩ := SenderPoint.receive_of_next waiting
  obtain ⟨here, -⟩ | ⟨-, some⟩ | here := h.sender_cases
  · rw [point] at here
    exact here.elim
  · exact some
  · rw [point] at here
    exact here.elim

/-- where it sends, there is room for its public key. -/
theorem Session.Poisoned.empty_of_sends {s : Session Unit B} {e : Entry Unit B}
    {rest : List (Entry Unit B)} (h : s.Poisoned σ e rest) {site : Site} {mq : Mqd}
    {msg : List B.Byte} {next : Bool → SenderPoint B}
    (waiting : s.sender.next cfg = some ⟨.mqSend site mq msg, next⟩) :
    site.queue = .senderToReceiver ∧ s.chan .senderToReceiver = [] := by
  obtain ⟨rfl, v, point⟩ | ⟨rfl, v, i, n, point⟩ := SenderPoint.send_of_next waiting
  · obtain ⟨-, none⟩ | ⟨here, -⟩ | here := h.sender_cases
    · exact ⟨rfl, none⟩
    · rw [point] at here
      exact here.elim
    · rw [point] at here
      exact here.elim
  · obtain ⟨here, -⟩ | ⟨here, -⟩ | here := h.sender_cases <;>
      · rw [point] at here
        exact here.elim

/-- It unlinks nothing. -/
theorem Session.Poisoned.keeps_names {s : Session Unit B} {e : Entry Unit B}
    {rest : List (Entry Unit B)} (h : s.Poisoned σ e rest) (name : QueueName)
    (next : Unit → SenderPoint B) : s.sender.next cfg ≠ some ⟨.mqUnlink name, next⟩ := by
  intro waiting
  obtain ⟨v, status, point | point⟩ := SenderPoint.unlink_of_next waiting <;>
    obtain ⟨here, -⟩ | ⟨here, -⟩ | here := h.sender_cases <;>
      · rw [point] at here
        exact here

/-- Where its receiver is once the sender has thrown. -/
theorem Session.Poisoned.receiver_cases {s : Session Unit B} {e : Entry Unit B}
    {rest : List (Entry Unit B)} (h : s.Poisoned σ e rest) {key : List B.Byte} {x : Exn}
    (threw : s.sender = .threw key x) :
    s.receiver.Starting ∧ s.chan .senderToReceiver ≠ [] ∨
      s.receiver.Answering d σ.publicKey σ.cipher ∧ s.chan .receiverToSender = rest ∨
      s.receiver.Listening d σ.frame 0 ∧ s.chan .senderToReceiver = [] ∧
        s.chan .receiverToSender = rest ++ [σ.cipherEntry ()] := by
  have behind : ∀ {q}, s.Behind d e q → s.chan .receiverToSender = q := by
    rintro q (⟨waiting, -⟩ | ⟨-, rs⟩)
    · rw [threw] at waiting
      exact waiting.elim
    · exact rs
  cases h with
  | start sender receiver sr rs => rw [threw] at sender; exact sender.elim
  | keySent sender receiver sr => exact .inl ⟨receiver, by simp [sr]⟩
  | answering sender receiver sr => exact .inr (.inl ⟨receiver, behind sender⟩)
  | answered sender receiver sr => exact .inr (.inr ⟨receiver, sr, behind sender⟩)

/-- It does not end, -/
theorem Session.Poisoned.receiver_goes_on {s : Session Unit B} {e : Entry Unit B}
    {rest : List (Entry Unit B)} (h : s.Poisoned σ e rest) {key : List B.Byte} {x : Exn}
    (threw : s.sender = .threw key x) {p : Process B} (there : s.receiver.At cfg p) :
    p.next ≠ none := by
  intro ended
  obtain ⟨v, status, point, -⟩ | ⟨v, f, point, -⟩ | ⟨name, point, -⟩ | ⟨v, x, point, -⟩ :=
    ReceiverPoint.At.ended_cases cfg there ended <;>
  obtain ⟨here, -⟩ | ⟨here, -⟩ | ⟨here, -⟩ := h.receiver_cases σ threw <;>
  · rw [point] at here
    exact here.elim

/-- and where nothing is there to receive, it is in its loop; -/
theorem Session.Poisoned.loop_of_receives {s : Session Unit B} {e : Entry Unit B}
    {rest : List (Entry Unit B)} (h : s.Poisoned σ e rest) {key : List B.Byte} {x : Exn}
    (threw : s.sender = .threw key x) {site : Site} {mq : Mqd}
    {next : Option (Message B) → ReceiverPoint B}
    (waiting : s.receiver.next cfg = some ⟨.mqReceive site mq, next⟩)
    (none : s.chan site.queue = []) :
    (∃ v buffer, s.receiver = .run v (.loop buffer)) ∧ s.chan .senderToReceiver = [] ∧
      s.chan .receiverToSender = rest ++ [σ.cipherEntry ()] := by
  obtain ⟨rfl, v, point⟩ | ⟨rfl, v, buffer, point⟩ := ReceiverPoint.receive_of_next waiting
  · -- the public key waits for it
    obtain ⟨-, some⟩ | ⟨here, -⟩ | ⟨here, -⟩ := h.receiver_cases σ threw
    · exact absurd none some
    · rw [point] at here
      exact here.elim
    · rw [point] at here
      exact here.elim
  · obtain ⟨here, -⟩ | ⟨here, -⟩ | ⟨-, sr, rs⟩ := h.receiver_cases σ threw
    · rw [point] at here
      exact here.elim
    · rw [point] at here
      exact here.elim
    · exact ⟨⟨v, buffer, point⟩, sr, rs⟩

/-- where it sends, the sender has made room for the answer. -/
theorem Session.Poisoned.rest_of_sends {s : Session Unit B} {e : Entry Unit B}
    {rest : List (Entry Unit B)} (h : s.Poisoned σ e rest) {key : List B.Byte} {x : Exn}
    (threw : s.sender = .threw key x) {site : Site} {mq : Mqd} {msg : List B.Byte}
    {next : Bool → ReceiverPoint B}
    (waiting : s.receiver.next cfg = some ⟨.mqSend site mq msg, next⟩) :
    site.queue = .receiverToSender ∧ s.chan .receiverToSender = rest := by
  obtain ⟨rfl, v, point⟩ := ReceiverPoint.send_of_next waiting
  obtain ⟨here, -⟩ | ⟨-, rs⟩ | ⟨here, -⟩ := h.receiver_cases σ threw
  · rw [point] at here
    exact here.elim
  · exact ⟨rfl, rs⟩
  · rw [point] at here
    exact here.elim

end Poisoned

/-! ## The session over the kernel -/

/-- Messages wait for a sender that were not meant for it, and none waits for a receiver. -/
structure Stale (κ : Kernel QueueName (Entry Unit B)) (o : ℕ) (stale : List (Entry Unit B)) :
    Prop where
  bound : κ.names .receiverToSender = some o
  waits : κ.queue o = stale
  fits : stale.length ≤ (κ.objects o).maxmsg
  clean : ∀ o', κ.names .senderToReceiver = some o' →
    κ.queue o' = [] ∧ 0 < (κ.objects o').maxmsg

section Worlds

variable {cfg : Config} {d : Draws B} (σ : Script d) {κ₀ : Kernel QueueName (Entry Unit B)}
  {w : SessionsWorld Unit B} {o : ℕ} {e : Entry Unit B} {rest : List (Entry Unit B)} {x : Exn}

/-- The state of a session that began over a stale message. -/
structure Poisoning (cfg : Config) (o : ℕ) (e : Entry Unit B) (rest : List (Entry Unit B))
    (w : SessionsWorld Unit B) (s : Session Unit B) : Prop where
  shows : Shows cfg w s
  poisoned : s.Poisoned σ e rest
  frameless : ∀ m, .sent .sendPeriodicMessage m ∉ s.senderLog
  bound : w.env.names .receiverToSender = some o

/-- One step of it. -/
theorem Poisoning.step {w' : SessionsWorld Unit B} {s : Session Unit B}
    (foreign : B.decrypt d.privateKey e.bytes.val = .error x)
    (h : Poisoning σ cfg o e rest w s)
    (reach : (sessions (Policy.honest Unit d True)).Reachable (sessionsStart cfg κ₀) w)
    (step : (sessions (Policy.honest Unit d True)).Step w w') :
    ∃ s', Session.Step cfg (Policy.honest Unit d True) () s s' ∧
      Poisoning σ cfg o e rest w' s' := by
  obtain ⟨s', next, shows, kept⟩ := h.shows.step reach h.poisoned.keeps_names step
  refine ⟨s', next, ?_⟩
  cases next with
  | sender step answer =>
      obtain ⟨poisoned, none⟩ :=
        h.poisoned.sender_step σ foreign (senderMove_of_step step answer)
      refine ⟨shows, poisoned, fun m sent => ?_, kept _ _ h.bound⟩
      exact (List.mem_append.mp sent).elim (h.frameless m) (none m)
  | receiver step answer =>
      exact ⟨shows, h.poisoned.receiver_step σ (receiverMove_of_step step answer), h.frameless,
        kept _ _ h.bound⟩
  | intrude intrudes => exact intrudes.elim

/-- Its start. -/
theorem Poisoning.start (stale : Stale κ₀ o (e :: rest)) :
    Poisoning σ cfg o e rest (sessionsStart cfg κ₀)
      ⟨underNames κ₀, .openSR, .openRS, [], []⟩ where
  shows := .start cfg κ₀
  poisoned := by
    refine .start trivial trivial ?_ ((underNames_of_bound stale.bound).trans stale.waits)
    cases bound : κ₀.names .senderToReceiver with
    | none => exact underNames_of_unbound bound
    | some o' => exact (underNames_of_bound bound).trans (stale.clean o' bound).1
  frameless := nofun
  bound := stale.bound

/-- A run of a session over a stale message, step by step. -/
theorem exists_poisoning (foreign : B.decrypt d.privateKey e.bytes.val = .error x)
    (stale : Stale κ₀ o (e :: rest)) {n : ℕ}
    (chain : Chain (sessions (Policy.honest Unit d True)).Step n (sessionsStart cfg κ₀) w) :
    ∃ s, Chain (Session.Step cfg (Policy.honest Unit d True) ()) n
        ⟨underNames κ₀, .openSR, .openRS, [], []⟩ s ∧ Poisoning σ cfg o e rest w s := by
  obtain ⟨s, chain', -, h⟩ := chain.simulate
    (R := fun w s => (sessions (Policy.honest Unit d True)).Reachable (sessionsStart cfg κ₀) w ∧
      Poisoning σ cfg o e rest w s)
    (fun w w' s h step => by
      obtain ⟨s', next, h'⟩ := h.2.step σ foreign h.1 step
      exact ⟨s', next, h.1.tail step, h'⟩)
    ⟨.refl, Poisoning.start σ stale⟩
  exact ⟨s, chain', h⟩

/-- There is room under both names. -/
theorem Stale.room (stale : Stale κ₀ o (e :: rest)) (room : 0 < cfg.maxMessages)
    (reach : (sessions (Policy.honest Unit d True)).Reachable (sessionsStart cfg κ₀) w) :
    (∀ o', w.env.names .senderToReceiver = some o' → 0 < (w.env.objects o').maxmsg) ∧
      rest.length < (w.env.objects o).maxmsg := by
  have kept := capacities reach
  refine ⟨fun o' bound => ?_, ?_⟩
  · rcases kept.named _ o' bound with before | new
    · rw [kept.old o' (κ₀.names_lt _ o' before)]
      exact (stale.clean o' before).2
    · rw [kept.new o' new (w.env.names_lt _ o' bound)]
      exact room
  · rw [kept.old o (κ₀.names_lt _ o stale.bound)]
    exact stale.fits

/-- Where the session stops, its sender has thrown. -/
theorem Poisoning.sender_of_stuck {s : Session Unit B} (room : 0 < cfg.maxMessages)
    (stale : Stale κ₀ o (e :: rest)) (h : Poisoning σ cfg o e rest w s)
    (reach : (sessions (Policy.honest Unit d True)).Reachable (sessionsStart cfg κ₀) w)
    (stuck : (sessions (Policy.honest Unit d True)).Stuck w) :
    ∃ key x, s.sender = .threw key x := by
  have bisim := senderMain_bisimulation (B := B) cfg
  cases blocked_of_stuck_alone σ.lawful (Policy.honest_documented Unit d True) reach stuck
    .sender with
  | ended ended => exact h.poisoned.threw_of_ended σ (bisim.ended_left h.shows.sender ended)
  | @empty site o' next waiting empty sound =>
      obtain ⟨next', there⟩ := bisim.waiting_left h.shows.sender waiting
      obtain ⟨_, ⟨⟩, -, chan⟩ := h.shows.chan_of_uses reach (.intro waiting none) rfl
      exact absurd (chan.trans empty) (h.poisoned.waits_of_receives σ there)
  | @full site o' msg next waiting full sound =>
      obtain ⟨next', there⟩ := bisim.waiting_left h.shows.sender waiting
      obtain ⟨_, ⟨⟩, linked, chan⟩ := h.shows.chan_of_uses reach (.intro waiting true) rfl
      obtain ⟨queue, none⟩ := h.poisoned.empty_of_sends σ there
      rw [queue] at linked chan
      rw [chan.symm.trans none] at full
      exact absurd ((stale.room room reach).1 _ linked) (not_lt.mpr full)
  | enter waiting unpressed => exact absurd trivial unpressed

/-- And its receiver waits for frames. -/
theorem Poisoning.receiver_of_stuck {s : Session Unit B} (room : 0 < cfg.maxMessages)
    (stale : Stale κ₀ o (e :: rest)) (h : Poisoning σ cfg o e rest w s)
    (reach : (sessions (Policy.honest Unit d True)).Reachable (sessionsStart cfg κ₀) w)
    (stuck : (sessions (Policy.honest Unit d True)).Stuck w) :
    (∃ v buffer, s.receiver = .run v (.loop buffer)) ∧ s.chan .senderToReceiver = [] ∧
      s.chan .receiverToSender = rest ++ [σ.cipherEntry ()] := by
  obtain ⟨key, x, threw⟩ := h.sender_of_stuck σ room stale reach stuck
  have bisim := receiverMain_bisimulation (B := B) cfg
  cases blocked_of_stuck_alone σ.lawful (Policy.honest_documented Unit d True) reach stuck
    .receiver with
  | ended ended => exact absurd ended (h.poisoned.receiver_goes_on σ threw h.shows.receiver)
  | @empty site o' next waiting empty sound =>
      obtain ⟨next', there⟩ := bisim.waiting_left h.shows.receiver waiting
      obtain ⟨_, ⟨⟩, -, chan⟩ := h.shows.chan_of_uses reach (.intro waiting none) rfl
      exact h.poisoned.loop_of_receives σ threw there (chan.trans empty)
  | @full site o' msg next waiting full sound =>
      obtain ⟨next', there⟩ := bisim.waiting_left h.shows.receiver waiting
      obtain ⟨_, ⟨⟩, linked, chan⟩ := h.shows.chan_of_uses reach (.intro waiting true) rfl
      obtain ⟨queue, rs⟩ := h.poisoned.rest_of_sends σ threw there
      rw [queue] at linked chan
      obtain rfl := Option.some.inj (linked.symm.trans h.bound)
      rw [chan.symm.trans rs] at full
      exact absurd (stale.room room reach).2 (not_lt.mpr full)
  | enter waiting unpressed => exact absurd trivial unpressed

end Worlds

/-- The message cannot be decrypted with the private key of these draws. -/
def Draws.Foreign (d : Draws B) (m : Message B) : Prop :=
  ∃ x, B.decrypt d.privateKey m.val = .error x

/-- The message is the session key of these draws, encrypted. -/
def Draws.Encrypts (d : Draws B) (m : Message B) : Prop :=
  B.encrypt (B.publicKey d.privateKey) d.seed d.sessionKey.val = .ok m.val

/-- Where a session over stale messages ends: its sender has left `main` by an exception,
its receiver waits for frames, neither name has been unlinked, and behind the messages it has
not read the sender leaves the encrypted key of this session. -/
structure Ruined (cfg : Config) (d : Draws B) (o : ℕ) (rest : List (Entry Unit B))
    (w : SessionsWorld Unit B) : Prop where
  sender : ∃ x, (w.procs ((), .sender)).prog = .throw x
  receiver : ∃ v buffer, (ReceiverPoint.run v (.loop buffer)).At cfg (w.procs ((), .receiver))
  linked : ∀ name, ∃ o', w.env.names name = some o'
  stale : ∃ c, d.Encrypts c ∧
    Stale w.env o (rest ++ [⟨some ((), .sendSymmetricKey), c⟩])

/-- A stale message ruins a session: it is finite, sends no frame in any of its states, and
leaves a stale message where it stops. -/
theorem ruined_of_stale (lawful : B.Lawful) {d : Draws B} {cfg : Config}
    (room : 0 < cfg.maxMessages) {κ₀ : Kernel QueueName (Entry Unit B)} {o : ℕ}
    {e : Entry Unit B} {rest : List (Entry Unit B)} (stale : Stale κ₀ o (e :: rest))
    (foreign : d.Foreign e.bytes) :
    (∀ n w, Chain (sessions (Policy.honest Unit d True)).Step n (sessionsStart cfg κ₀) w →
      n ≤ 2 * cfg.numMessagesToSend + 45) ∧
    ∀ w, (sessions (Policy.honest Unit d True)).Reachable (sessionsStart cfg κ₀) w →
      (∀ m, .sent .sendPeriodicMessage m ∉ w.log ((), .sender)) ∧
      ((sessions (Policy.honest Unit d True)).Stuck w → Ruined cfg d o rest w) := by
  obtain ⟨σ⟩ := exists_script lawful d
  obtain ⟨x, foreign⟩ := foreign
  refine ⟨fun n w chain => ?_, fun w reach => ?_⟩
  · obtain ⟨s, chain', -⟩ := exists_poisoning σ foreign stale chain
    have bound := chain'.bounded (fun s => s.measure cfg.numMessagesToSend)
      fun _ _ _ step => Session.measure_lt (fun _ _ _ _ => id) step
    have none : underNames κ₀ .senderToReceiver = [] := by
      cases bound : κ₀.names .senderToReceiver with
      | none => exact underNames_of_unbound bound
      | some o' => exact (underNames_of_bound bound).trans (stale.clean o' bound).1
    simp only [Session.measure, SenderPoint.rank, ReceiverPoint.rank, none,
      List.length_nil] at bound
    omega
  · obtain ⟨n, chain⟩ := exists_chain reach
    obtain ⟨s, -, h⟩ := exists_poisoning σ foreign stale chain
    refine ⟨fun m sent => h.frameless m (h.shows.senderLog ▸ sent), fun stuck => ?_⟩
    obtain ⟨key, x', threw⟩ := h.sender_of_stuck σ room stale reach stuck
    obtain ⟨⟨v, buffer, listens⟩, sr, rs⟩ := h.receiver_of_stuck σ room stale reach stuck
    have listening : (ReceiverPoint.run v (.loop buffer)).At cfg (w.procs ((), .receiver)) :=
      listens ▸ h.shows.receiver
    refine ⟨?_, ⟨v, buffer, listening⟩, fun name => ?_, σ.cipher, σ.encrypted, h.bound, ?_, ?_,
      ?_⟩
    · obtain ⟨pk, obs, is⟩ := h.shows.sender
      rw [threw] at is
      exact ⟨x', by rw [is]; rfl⟩
    · cases name with
      | receiverToSender => exact ⟨o, h.bound⟩
      | senderToReceiver =>
          obtain ⟨next, waiting⟩ := (receiverMain_bisimulation cfg).waiting_right listening rfl
          obtain ⟨o', -, linked, -⟩ := h.shows.chan_of_uses reach (.intro waiting none) rfl
          exact ⟨o', linked⟩
    · rw [← underNames_of_bound h.bound, ← h.shows.chan, rs]
      rfl
    · have capacity := (capacities reach).old o (κ₀.names_lt _ o stale.bound)
      rw [capacity]
      simpa using stale.fits
    · intro o' bound
      refine ⟨?_, (stale.room room reach).1 o' bound⟩
      rw [← underNames_of_bound bound, ← h.shows.chan, sr]

/-! ## One session after another -/

/-- One session after another, each with its own draws, run until nothing moves and then
ended from outside; what is in the kernel stays. -/
inductive Reruns (cfg : Config) (κ₀ : Kernel QueueName (Entry Unit B)) :
    List (Draws B) → Kernel QueueName (Entry Unit B) → Prop
  | nil : Reruns cfg κ₀ [] κ₀
  | snoc {ds : List (Draws B)} {κ : Kernel QueueName (Entry Unit B)} (d : Draws B)
      {w : SessionsWorld Unit B} : Reruns cfg κ₀ ds κ →
      (sessions (Policy.honest Unit d True)).Reachable (sessionsStart cfg κ) w →
      (sessions (Policy.honest Unit d True)).Stuck w → Reruns cfg κ₀ (ds ++ [d]) w.env

section Reruns

variable {cfg : Config} {κ₀ κ : Kernel QueueName (Entry Unit B)} {o : ℕ}
  {stale : List (Entry Unit B)} {ds : List (Draws B)}

/-- What waits for a sender after any number of sessions: stale messages, or encrypted keys of
theirs. -/
theorem Reruns.exists_stale (lawful : B.Lawful) (room : 0 < cfg.maxMessages)
    (runs : Reruns cfg κ₀ ds κ) (some : stale ≠ []) (start : Stale κ₀ o stale)
    (foreign : ∀ d ∈ ds, ∀ e ∈ stale, d.Foreign e.bytes)
    (apart : ds.Pairwise fun d d' => ∀ m, d.Encrypts m → d'.Foreign m) :
    ∃ stale', stale' ≠ [] ∧ Stale κ o stale' ∧
      ∀ e ∈ stale', e ∈ stale ∨ ∃ d ∈ ds, d.Encrypts e.bytes := by
  induction runs with
  | nil => exact ⟨stale, some, start, fun e inside => .inl inside⟩
  | @snoc ds κ d w runs reach stuck ih =>
      obtain ⟨before, -, last⟩ := List.pairwise_append.mp apart
      obtain ⟨stale', some', now, origins⟩ :=
        ih (fun d' inside => foreign d' (List.mem_append_left _ inside)) before
      obtain ⟨e, rest, rfl⟩ := List.exists_cons_of_ne_nil some'
      have first : d.Foreign e.bytes := by
        rcases origins e List.mem_cons_self with old | ⟨d', inside, encrypts⟩
        · exact foreign d (by simp) e old
        · exact last d' inside d (by simp) e.bytes encrypts
      obtain ⟨-, ends⟩ := ruined_of_stale lawful room now first
      obtain ⟨c, encrypts, next⟩ := ((ends w reach).2 stuck).stale
      refine ⟨_, by simp, next, fun e' inside => ?_⟩
      rcases List.mem_append.mp inside with old | new
      · exact (origins e' (List.mem_cons_of_mem e old)).imp id fun ⟨d', inside, encrypts⟩ =>
          ⟨d', List.mem_append_left _ inside, encrypts⟩
      · rw [List.mem_singleton.mp new]
        exact .inr ⟨d, by simp, encrypts⟩

/-- **One stale message ruins all sessions to come.**  If a message that no sender to come can
decrypt waits in the receiver-to-sender queue, then however many sessions have been run one
after another, the next one is finite, sends no frame, and stops with its sender thrown out
of `main`, both names still linked and a message left behind for the one after it. -/
theorem stale_for_ever (lawful : B.Lawful) (cfg : Config) (room : 0 < cfg.maxMessages)
    (κ₀ κ : Kernel QueueName (Entry Unit B)) (o : ℕ) (stale : List (Entry Unit B))
    (some : stale ≠ []) (start : Stale κ₀ o stale) (ds : List (Draws B)) (d : Draws B)
    (foreign : ∀ d' ∈ ds ++ [d], ∀ e ∈ stale, d'.Foreign e.bytes)
    (apart : (ds ++ [d]).Pairwise fun d d' => ∀ m, d.Encrypts m → d'.Foreign m)
    (runs : Reruns cfg κ₀ ds κ) :
    (∀ n w, Chain (sessions (Policy.honest Unit d True)).Step n (sessionsStart cfg κ) w →
      n ≤ 2 * cfg.numMessagesToSend + 45) ∧
    ∀ w, (sessions (Policy.honest Unit d True)).Reachable (sessionsStart cfg κ) w →
      (∀ m, .sent .sendPeriodicMessage m ∉ w.log ((), .sender)) ∧
      ((sessions (Policy.honest Unit d True)).Stuck w → ∃ rest, Ruined cfg d o rest w) := by
  obtain ⟨before, -, last⟩ := List.pairwise_append.mp apart
  obtain ⟨stale', some', now, origins⟩ := runs.exists_stale lawful room some start
    (fun d' inside => foreign d' (List.mem_append_left _ inside)) before
  obtain ⟨e, rest, rfl⟩ := List.exists_cons_of_ne_nil some'
  have first : d.Foreign e.bytes := by
    rcases origins e List.mem_cons_self with old | ⟨d', inside, encrypts⟩
    · exact foreign d (by simp) e old
    · exact last d' inside d (by simp) e.bytes encrypts
  obtain ⟨finite, ends⟩ := ruined_of_stale lawful room now first
  exact ⟨finite, fun w reach => ⟨(ends w reach).1, fun stuck => ⟨rest, (ends w reach).2 stuck⟩⟩⟩

end Reruns

/-- Draws of another sample session. -/
def otherDraws : Draws sampleBotan where
  privateKey := (⟨List.replicate 256 0xcd, List.length_replicate⟩ : Sample.Modulus)
  localKey := sampleDraws.localKey
  sessionKey := sampleDraws.sessionKey
  seed := sampleDraws.seed

/-- It cannot decrypt the key of the first one. -/
theorem otherDraws_foreign (m : Message sampleBotan) (encrypts : sampleDraws.Encrypts m) :
    otherDraws.Foreign m := by
  have value : Except.ok Sample.ciphertext = Except.ok m.val :=
    Sample.encrypt_sessionKey.symm.trans encrypts
  refine ⟨.decodingError, ?_⟩
  rw [← Except.ok.inj value]
  rfl

theorem stale_staleKernel : Stale staleKernel 0 [⟨none, noBytes⟩] where
  bound := rfl
  waits := rfl
  fits := by decide
  clean _ bound := by cases bound

/-- Two sample sessions over a message of no bytes. -/
theorem stale_for_ever_twice :
    ∃ (κ : Kernel QueueName (Entry Unit sampleBotan)) (w : SessionsWorld Unit sampleBotan)
      (rest : List (Entry Unit sampleBotan)),
      Reruns .source staleKernel [sampleDraws] κ ∧ Ruined .source otherDraws 0 rest w := by
  have foreign : ∀ d : Draws sampleBotan, d.Foreign noBytes :=
    fun d => ⟨.decodingError, rfl⟩
  -- the first session is run until nothing moves
  obtain ⟨finite, -⟩ := stale_for_ever sampleBotan_lawful .source (by decide) staleKernel
    staleKernel 0 _ (by simp) stale_staleKernel [] sampleDraws
    (fun d _ e inside => by rw [List.mem_singleton.mp inside]; exact foreign d) (by simp) .nil
  obtain ⟨w₁, reach₁, stuck₁⟩ := exists_stuck finite
  have runs : Reruns .source staleKernel [sampleDraws] w₁.env :=
    .snoc sampleDraws .nil reach₁ stuck₁
  -- and so is the second
  obtain ⟨finite, ends⟩ := stale_for_ever sampleBotan_lawful .source (by decide) staleKernel
    w₁.env 0 _ (by simp) stale_staleKernel [sampleDraws] otherDraws
    (fun d _ e inside => by rw [List.mem_singleton.mp inside]; exact foreign d)
    (by simpa using otherDraws_foreign) runs
  obtain ⟨w₂, reach₂, stuck₂⟩ := exists_stuck finite
  obtain ⟨rest, ruined⟩ := (ends w₂ reach₂).2 stuck₂
  exact ⟨w₁.env, w₂, rest, runs, ruined⟩

end Leftovers

end SecureComm
