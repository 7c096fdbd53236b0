import SecureComm.Delivery

/-!
# Progress

An honest session over the kernel's queues cannot run forever and gets stuck nowhere
but at its end, the operator's Enter aside; and while all frames fit into the queue, no
send finds it full.

The bound is a measure every step of a session lowers, whatever the calls return: what
either program has still to do, and the messages on their way.
-/

namespace SecureComm

open Interaction MessageQueue

section Progress

variable {ι : Type} {B : Botan}

/-! ## The measure -/

/-- The calls the sender has still to make from the phase switch on, at most, with `N`
frames a session. -/
def SenderPc.rank (N : ℕ) : SenderPc B → ℕ
  | .sendKey => N + 11
  | .sendKeyFailed => N + 10
  | .recvKey => N + 9
  | .rngKey _ => N + 8
  | .decrypt _ => N + 7
  | .recvKeyFailed => N + 7
  | .setKey => N + 6
  | .frame _ n => n + 6
  | .closeSR _ => 5
  | .closeRS _ => 4
  | .enter _ => 3
  | .unlinkRS _ => 2
  | .unlinkSR _ => 1
  | .returned _ => 0

/-- The calls the sender has still to make. -/
def SenderPoint.rank (N : ℕ) : SenderPoint B → ℕ
  | .openSR => N + 16
  | .openRS _ => N + 15
  | .rng _ _ => N + 14
  | .keygen _ _ => N + 13
  | .randomize _ _ _ => N + 12
  | .run _ pc => pc.rank N
  | .openFailed _ => 0
  | .threw _ _ => 0

/-- The calls the receiver has still to make outside its loop. -/
def ReceiverPc.rank : ReceiverPc B → ℕ
  | .recvKey => 11
  | .loadKey _ => 10
  | .rng => 9
  | .randomize => 8
  | .encrypt _ => 7
  | .sendKey _ => 6
  | .setKey => 5
  | .loop _ => 4
  | .enter _ => 3
  | .closeRS _ => 2
  | .closeSR _ => 1
  | .returned _ => 0
  | .crashed _ => 0

def ReceiverPoint.rank : ReceiverPoint B → ℕ
  | .openRS => 13
  | .openSR _ => 12
  | .run _ pc => pc.rank
  | .openFailed _ => 0
  | .threw _ _ => 0

/-- A message the sender sends pays for the call that reads it. -/
def Session.measure (N : ℕ) (s : Session ι B) : ℕ :=
  2 * s.sender.rank N + s.receiver.rank + (s.chan .senderToReceiver).length

section Moves

variable {cfg : Config} {P : Policy ι B} {k : ι} {ch ch' : Channels ι B}
  {recs : List (Rec ι B)}

@[simp] theorem SenderPc.rank_loop (N n i : ℕ) :
    (SenderPc.loop n i : SenderPc B).rank N = n + 5 := by
  cases n <;> simp [loop, rank]

theorem SenderPc.rank_start_le (v : SenderVars B) (N : ℕ) :
    (SenderPc.start v).rank N ≤ N + 11 := by
  unfold start
  split_ifs <;> simp [rank]

theorem ReceiverPc.rank_deref_le (pk : Option (PublicKey B.Pub)) :
    (ReceiverPc.deref pk).rank ≤ 7 := by
  rcases pk with _ | (_ | _) <;> simp [deref, rank]

theorem ReceiverPoint.rank_receive_le (v : ReceiverVars B) (buffer : List B.Byte)
    (m : Message B) : (ReceiverPoint.receive v buffer m).rank ≤ 4 := by
  unfold receive
  split_ifs <;> simp [rank, ReceiverPc.rank]

/-- A step of the sender lowers its rank, and sends one message at most. -/
theorem SenderMove.rank_lt {pt pt' : SenderPoint B}
    (move : SenderMove cfg P k ch pt pt' ch' recs) :
    pt'.rank cfg.numMessagesToSend < pt.rank cfg.numMessagesToSend ∧
      (ch' .senderToReceiver).length ≤ (ch .senderToReceiver).length + 1 := by
  cases move with
  | randomize sr rs sk bytes h =>
      have upper := SenderPc.rank_start_le ⟨sr, rs, sk, bytes.val⟩ cfg.numMessagesToSend
      simp only [SenderPoint.rank]
      omega
  | setKey v h =>
      have rank : (SenderPc.setKey : SenderPc B).rank cfg.numMessagesToSend =
        cfg.numMessagesToSend + 6 := rfl
      simp only [SenderPoint.rank, SenderPc.rank_loop]
      omega
  | frame v i n =>
      have rank : (SenderPc.frame i n : SenderPc B).rank cfg.numMessagesToSend = n + 6 := rfl
      simp only [SenderPoint.rank, SenderPc.rank_loop, Function.update_self, List.length_append,
        List.length_singleton]
      omega
  | _ => simp [SenderPoint.rank, SenderPc.rank]

/-- A step of the receiver lowers its rank or takes a message. -/
theorem ReceiverMove.rank_lt {pt pt' : ReceiverPoint B}
    (move : ReceiverMove cfg P k ch pt pt' ch' recs) :
    pt'.rank + (ch' .senderToReceiver).length < pt.rank + (ch .senderToReceiver).length := by
  cases move with
  | randomize v bytes h =>
      have upper := ReceiverPc.rank_deref_le v.publicKey
      have rank : (ReceiverPc.randomize : ReceiverPc B).rank = 8 := rfl
      simp only [ReceiverPoint.rank]
      omega
  | receive v buffer e rest waits =>
      have upper := ReceiverPoint.rank_receive_le v buffer e.bytes
      simp only [waits, ReceiverPoint.rank, ReceiverPc.rank, Function.update_self,
        List.length_cons] at upper ⊢
      omega
  | recvKey v e rest waits =>
      simp only [waits, ReceiverPoint.rank, ReceiverPc.rank, Function.update_self,
        List.length_cons]
      omega
  | _ => simp [ReceiverPoint.rank, ReceiverPc.rank]

/-- **Every step of a session lowers its measure**, whatever the calls return. -/
theorem Session.measure_lt (alone : ∀ sl rl q q', ¬ P.intrudes sl rl q q') {s s' : Session ι B}
    (step : Session.Step cfg P k s s') :
    s'.measure cfg.numMessagesToSend < s.measure cfg.numMessagesToSend := by
  cases step with
  | sender step answer =>
      obtain ⟨lower, sent⟩ := (senderMove_of_step step answer).rank_lt
      simp only [measure]
      omega
  | receiver step answer =>
      have lower := (receiverMove_of_step step answer).rank_lt
      simp only [measure]
      omega
  | intrude intrudes => exact absurd intrudes (alone _ _ _ _)

end Moves

/-- **Runs are finite**: `2 N + 45` steps at most. -/
theorem Chain.le_of_alone {cfg : Config} {P : Policy Unit B} (iso : P.Isolating)
    (alone : ∀ sl rl q q', ¬ P.intrudes sl rl q q') {κ₀ : Kernel QueueName (Entry Unit B)}
    (empty : ∀ o, κ₀.queue o = []) {n : ℕ} {w : SessionsWorld Unit B}
    (chain : Chain (sessions P).Step n (sessionsStart cfg κ₀) w) :
    n ≤ 2 * cfg.numMessagesToSend + 45 := by
  obtain ⟨s, run, -⟩ := exists_tracks (fun _ => iso) empty chain
  have bound := run.bounded (fun s => (s ()).measure cfg.numMessagesToSend) (by
    rintro s s' - ⟨⟨⟩, s₁, step, rfl⟩
    simpa using Session.measure_lt alone step)
  simp only [Session.measure, Session.start, SenderPoint.rank, ReceiverPoint.rank,
    List.length_nil] at bound
  omega

/-! ## Who can step -/

section Steps

variable {cfg : Config} {d : Draws B} {enter : Prop} {κ : Kernel QueueName (Entry Unit B)}
  {maxmsg : ℕ} {obj : Unit → QueueName → Mqd} {w : SessionsWorld Unit B}
  {s : Unit → Session Unit B}

/-- A queue with room takes a message. -/
theorem Placed.exists_sends
    (placed : Placed (Kernel.empty QueueName (Entry Unit B)) κ maxmsg obj s)
    {name : QueueName} {o : ℕ} (mine : obj () name = some o)
    (room : ((s ()).chan name).length < maxmsg) (site : Site) (e : Entry Unit B) :
    ∃ κ', (kernelService Unit B).sends κ site (some o) e κ' := by
  refine ⟨_, o, placed.allocated () name o mine, rfl, ?_, rfl⟩
  rw [← placed.waits () name o mine]
  rcases placed.capacity () name o mine with capacity | initial
  · rwa [capacity]
  · cases initial

/-- A queue in which something waits gives it out. -/
theorem Placed.exists_receives
    (placed : Placed (Kernel.empty QueueName (Entry Unit B)) κ maxmsg obj s)
    {name : QueueName} {o : ℕ} (mine : obj () name = some o) {e : Entry Unit B}
    {rest : List (Entry Unit B)} (waits : (s ()).chan name = e :: rest) (site : Site) :
    ∃ κ', (kernelService Unit B).receives κ site (some o) e κ' :=
  ⟨_, o, rest, placed.allocated () name o mine, rfl,
    (placed.waits () name o mine).symm.trans waits, rfl⟩

/-- The family a world of one honest session tracks. -/
abbrev TracksHonest (cfg : Config) (d : Draws B) (enter : Prop) (w : SessionsWorld Unit B)
    (s : Unit → Session Unit B) : Prop :=
  Tracks cfg (fun _ => Policy.honest Unit d enter) (Kernel.empty QueueName (Entry Unit B)) w s

/-- A sender whose call has an answer can step. -/
theorem Tracks.sender_can (h : TracksHonest cfg d enter w s) {op : Op B} {r : op.Resp}
    {next : op.Resp → SenderPoint B} {recs : List (Rec Unit B)}
    (waiting : (s ()).sender.next cfg = some ⟨op, next⟩)
    (answer : Answered (kernelService Unit B) (Policy.honest Unit d enter) () .sender w.env op
      r κ recs) : ¬ (sessions (Policy.honest Unit d enter)).Stuck w := by
  obtain ⟨p, -, step⟩ := exists_sender_step (P := fun _ => Policy.honest Unit d enter)
    (h.sender ()) (alone_may _) waiting answer
  exact fun stuck => stuck _ step

/-- A receiver whose call has an answer can step. -/
theorem Tracks.receiver_can (h : TracksHonest cfg d enter w s) {op : Op B} {r : op.Resp}
    {next : op.Resp → ReceiverPoint B} {recs : List (Rec Unit B)}
    (waiting : (s ()).receiver.next cfg = some ⟨op, next⟩)
    (answer : Answered (kernelService Unit B) (Policy.honest Unit d enter) () .receiver w.env
      op r κ recs) : ¬ (sessions (Policy.honest Unit d enter)).Stuck w := by
  obtain ⟨p, -, step⟩ := exists_receiver_step (P := fun _ => Policy.honest Unit d enter)
    (h.receiver ()) (alone_may _) waiting answer
  exact fun stuck => stuck _ step

/-- A sender can send into a queue with room. -/
theorem Tracks.sender_can_send (h : TracksHonest cfg d enter w s) {site : Site} {mq : Mqd}
    {msg : List B.Byte} {next : Bool → SenderPoint B}
    (waiting : (s ()).sender.next cfg = some ⟨.mqSend site mq msg, next⟩)
    (fits : msg.length ≤ kMessageSize)
    (room : ((s ()).chan site.queue).length < cfg.maxMessages) :
    ¬ (sessions (Policy.honest Unit d enter)).Stuck w := by
  obtain ⟨o, rfl, holds⟩ := SenderPoint.holds_of_uses waiting rfl
  obtain ⟨obj, placed⟩ := h.placed
  have mine := placed.known () .sender site.queue o (.inl holds)
  obtain ⟨κ, sends⟩ := placed.exists_sends mine room site ⟨some ((), site), ⟨msg, fits⟩⟩
  exact h.sender_can waiting (.mqSend fits sends)

/-- A sender can receive what waits for it. -/
theorem Tracks.sender_can_receive (h : TracksHonest cfg d enter w s) {site : Site} {mq : Mqd}
    {next : Option (Message B) → SenderPoint B}
    (waiting : (s ()).sender.next cfg = some ⟨.mqReceive site mq, next⟩) {e : Entry Unit B}
    {rest : List (Entry Unit B)} (waits : (s ()).chan site.queue = e :: rest) :
    ¬ (sessions (Policy.honest Unit d enter)).Stuck w := by
  obtain ⟨o, rfl, holds⟩ := SenderPoint.holds_of_uses waiting rfl
  obtain ⟨obj, placed⟩ := h.placed
  have mine := placed.known () .sender site.queue o (.inl holds)
  obtain ⟨κ, receives⟩ := placed.exists_receives mine waits site
  exact h.sender_can waiting (.mqReceive receives)

/-- So can a receiver send, -/
theorem Tracks.receiver_can_send (h : TracksHonest cfg d enter w s) {site : Site} {mq : Mqd}
    {msg : List B.Byte} {next : Bool → ReceiverPoint B}
    (waiting : (s ()).receiver.next cfg = some ⟨.mqSend site mq msg, next⟩)
    (fits : msg.length ≤ kMessageSize)
    (room : ((s ()).chan site.queue).length < cfg.maxMessages) :
    ¬ (sessions (Policy.honest Unit d enter)).Stuck w := by
  obtain ⟨o, rfl, holds⟩ := ReceiverPoint.holds_of_uses waiting rfl
  obtain ⟨obj, placed⟩ := h.placed
  have mine := placed.known () .receiver site.queue o (.inl holds)
  obtain ⟨κ, sends⟩ := placed.exists_sends mine room site ⟨some ((), site), ⟨msg, fits⟩⟩
  exact h.receiver_can waiting (.mqSend fits sends)

/-- and receive. -/
theorem Tracks.receiver_can_receive (h : TracksHonest cfg d enter w s) {site : Site}
    {mq : Mqd} {next : Option (Message B) → ReceiverPoint B}
    (waiting : (s ()).receiver.next cfg = some ⟨.mqReceive site mq, next⟩) {e : Entry Unit B}
    {rest : List (Entry Unit B)} (waits : (s ()).chan site.queue = e :: rest) :
    ¬ (sessions (Policy.honest Unit d enter)).Stuck w := by
  obtain ⟨o, rfl, holds⟩ := ReceiverPoint.holds_of_uses waiting rfl
  obtain ⟨obj, placed⟩ := h.placed
  have mine := placed.known () .receiver site.queue o (.inl holds)
  obtain ⟨κ, receives⟩ := placed.exists_receives mine waits site
  exact h.receiver_can waiting (.mqReceive receives)

/-- A sender that has not sent its public key can step. -/
theorem Tracks.starting_can (lawful : B.Lawful) (h : TracksHonest cfg d enter w s)
    (room : 0 < cfg.maxMessages) (here : (s ()).sender.Starting d)
    (empty : (s ()).chan .senderToReceiver = []) :
    ¬ (sessions (Policy.honest Unit d enter)).Stuck w := by
  have honours := Policy.honest_honours Unit d enter
  cases point : (s ()).sender with
  | openSR => exact h.sender_can (by rw [point]; rfl) (.mqOpen rfl)
  | openRS sr => exact h.sender_can (by rw [point]; rfl) (.mqOpen rfl)
  | rng sr rs =>
      exact h.sender_can (by rw [point]; rfl) (.botan rfl (honours.autoSeededRng .sender))
  | keygen sr rs =>
      exact h.sender_can (by rw [point]; rfl) (.botan rfl (honours.rsaPrivateKey .sender 2048))
  | randomize sr rs sk =>
      exact h.sender_can (by rw [point]; rfl) (.botan rfl honours.localKey)
  | run v pc =>
      rw [point] at here
      cases pc with
      | sendKey =>
          exact h.sender_can_send (by rw [point]; rfl) (lawful.subjectPublicKey_length _)
            (by simpa [Site.queue, empty] using room)
      | _ => exact here.elim
  | openFailed name => rw [point] at here; exact here.elim
  | threw key e => rw [point] at here; exact here.elim

/-- A sender waiting for the encrypted key can step when it is there. -/
theorem Tracks.waiting_can (h : TracksHonest cfg d enter w s)
    (here : (s ()).sender.Waiting d) {e : Entry Unit B} {rest : List (Entry Unit B)}
    (waits : (s ()).chan .receiverToSender = e :: rest) :
    ¬ (sessions (Policy.honest Unit d enter)).Stuck w := by
  cases point : (s ()).sender with
  | run v pc =>
      rw [point] at here
      cases pc with
      | recvKey =>
          exact h.sender_can_receive (by rw [point]; rfl) (by exact waits)
      | _ => exact here.elim
  | _ => rw [point] at here; exact here.elim

/-- A sender unwrapping the key can step. -/
theorem Tracks.installing_can (σ : Script d) (h : TracksHonest cfg d enter w s)
    (here : (s ()).sender.Installing d σ.cipher) :
    ¬ (sessions (Policy.honest Unit d enter)).Stuck w := by
  have honours := Policy.honest_honours Unit d enter
  cases point : (s ()).sender with
  | run v pc =>
      rw [point] at here
      cases pc with
      | rngKey m =>
          exact h.sender_can (by rw [point]; rfl) (.botan rfl (honours.autoSeededRng .sender))
      | decrypt m =>
          obtain ⟨sk, rfl⟩ := here
          have plain : B.decrypt v.privateKey σ.cipher.val = .ok d.sessionKey.val := by
            rw [sk]
            exact σ.decrypt_cipher
          exact h.sender_can (by rw [point]; rfl) (.botan rfl (honours.decrypt .sender plain))
      | _ => exact here.elim
  | _ => rw [point] at here; exact here.elim

/-- The sender has not got past its last Enter, and nothing has failed. -/
def SenderPoint.Unreturned : SenderPoint B → Prop
  | .run _ (.closeSR status) => status = kOK
  | .run _ (.closeRS status) => status = kOK
  | .run _ (.enter status) => status = kOK
  | .run _ (.unlinkRS _) => False
  | .run _ (.unlinkSR _) => False
  | .run _ (.returned _) => False
  | _ => True

/-- A sender with the key can step while there is room, up to its last Enter. -/
theorem Tracks.streaming_can (h : TracksHonest cfg d enter w s) {N i : ℕ}
    (here : (s ()).sender.Streaming d N i) (unreturned : (s ()).sender.Unreturned)
    (room : ((s ()).chan .senderToReceiver).length < cfg.maxMessages) :
    (∃ v, (s ()).sender = .run v (.enter kOK)) ∨
      ¬ (sessions (Policy.honest Unit d enter)).Stuck w := by
  have honours := Policy.honest_honours Unit d enter
  cases point : (s ()).sender with
  | run v pc =>
      rw [point] at here unreturned
      cases pc with
      | setKey =>
          -- `set_key` takes the session key
          have size : v.key.length = kSymKeySize := by rw [here.1, d.sessionKey.property]
          exact .inr (h.sender_can (by rw [point]; rfl)
            (.botan rfl (honours.setKey .sender size)))
      | frame j n =>
          exact .inr (h.sender_can_send (by rw [point]; rfl) (length_frameBytes_le v.key j)
            (by exact room))
      | closeSR status => exact .inr (h.sender_can (by rw [point]; rfl) .mqClose)
      | closeRS status => exact .inr (h.sender_can (by rw [point]; rfl) .mqClose)
      | enter status =>
          obtain rfl : status = kOK := unreturned
          exact .inl ⟨v, rfl⟩
      | unlinkRS status => exact unreturned.elim
      | unlinkSR status => exact unreturned.elim
      | returned status => exact unreturned.elim
      | _ => exact here.elim
  | _ => rw [point] at here; exact here.elim

/-- A receiver that has not read the public key can step when it is there. -/
theorem Tracks.reading_can (h : TracksHonest cfg d enter w s)
    (here : (s ()).receiver.Starting) {e : Entry Unit B} {rest : List (Entry Unit B)}
    (waits : (s ()).chan .senderToReceiver = e :: rest) :
    ¬ (sessions (Policy.honest Unit d enter)).Stuck w := by
  cases point : (s ()).receiver with
  | openRS => exact h.receiver_can (by rw [point]; rfl) (.mqOpen rfl)
  | openSR rs => exact h.receiver_can (by rw [point]; rfl) (.mqOpen rfl)
  | run v pc =>
      rw [point] at here
      cases pc with
      | recvKey =>
          exact h.receiver_can_receive (by rw [point]; rfl) (by exact waits)
      | _ => exact here.elim
  | _ => rw [point] at here; exact here.elim

/-- A receiver making the encrypted key can step. -/
theorem Tracks.answering_can (σ : Script d) (h : TracksHonest cfg d enter w s)
    (room : 0 < cfg.maxMessages) (here : (s ()).receiver.Answering d σ.publicKey σ.cipher)
    (empty : (s ()).chan .receiverToSender = []) :
    ¬ (sessions (Policy.honest Unit d enter)).Stuck w := by
  have honours := Policy.honest_honours Unit d enter
  cases point : (s ()).receiver with
  | run v pc =>
      rw [point] at here
      cases pc with
      | loadKey m =>
          obtain ⟨rfl, -⟩ := here
          exact h.receiver_can (by rw [point]; rfl) (.botan rfl
            (honours.loadKey .receiver (σ.lawful.loadKey_subjectPublicKey _)))
      | rng =>
          exact h.receiver_can (by rw [point]; rfl)
            (.botan rfl (honours.autoSeededRng .receiver))
      | randomize =>
          obtain ⟨-, size, -⟩ := here
          exact h.receiver_can (by rw [point]; rfl)
            (.botan rfl (honours.sessionKey (d.sessionKey.property.trans size.symm)))
      | encrypt pk =>
          obtain ⟨rfl, key, -⟩ := here
          have wrapped :
              B.encrypt (B.publicKey d.privateKey) d.seed v.key = .ok σ.cipher.val := by
            rw [key]
            exact σ.encrypted
          exact h.receiver_can (by rw [point]; rfl)
            (.botan rfl (honours.encrypt .receiver wrapped))
      | sendKey c =>
          -- nothing waits in this direction, so there is room
          obtain ⟨rfl, -⟩ := here
          exact h.receiver_can_send (by rw [point]; rfl) σ.cipher.property
            (by simpa [Site.queue, empty] using room)
      | _ => exact here.elim
  | _ => rw [point] at here; exact here.elim

/-- A receiver with the key can step, but for its receive on an empty queue. -/
theorem Tracks.listening_can (h : TracksHonest cfg d enter w s) {frame : ℕ → Message B} {j : ℕ}
    (here : (s ()).receiver.Listening d frame j) :
    (∃ v buffer, (s ()).receiver = .run v (.loop buffer) ∧ (s ()).chan .senderToReceiver = []) ∨
      ¬ (sessions (Policy.honest Unit d enter)).Stuck w := by
  have honours := Policy.honest_honours Unit d enter
  cases point : (s ()).receiver with
  | run v pc =>
      rw [point] at here
      cases pc with
      | setKey =>
          have size : v.key.length = kSymKeySize := by rw [here.1, d.sessionKey.property]
          exact .inr (h.receiver_can (by rw [point]; rfl)
            (.botan rfl (honours.setKey .receiver size)))
      | loop buffer =>
          -- an empty queue is the one thing that stops the loop
          cases waits : (s ()).chan .senderToReceiver with
          | nil => exact .inl ⟨v, buffer, rfl, rfl⟩
          | cons e rest =>
              exact .inr (h.receiver_can_receive (by rw [point]; rfl) (by exact waits))
      | _ => exact here.elim
  | _ => rw [point] at here; exact here.elim

end Steps

/-! ## The end of a session -/

section Ends

variable {cfg : Config} {d : Draws B} {enter : Prop} {w : SessionsWorld Unit B}
  {s : Unit → Session Unit B}

theorem SenderMove.unreturned {k : ι} {ch ch' : Channels ι B} {recs : List (Rec ι B)}
    {pt pt' : SenderPoint B}
    (move : SenderMove cfg (Policy.honest ι d False) k ch pt pt' ch' recs)
    (before : pt.Unreturned) : pt'.Unreturned := by
  cases move with
  | randomize sr rs sk bytes h =>
      simp only [SenderPc.start]
      split_ifs <;> trivial
  | setKey v h =>
      cases cfg.numMessagesToSend <;> trivial
  | frame v i n => cases n <;> trivial
  | frameFails v i n h => exact h.elim
  | closeSR v status => exact before
  | closeRS v status => exact before
  | enter v status h => exact h.elim
  | unlinkRS v status => exact before.elim
  | unlinkSR v status => exact before.elim
  | _ => trivial

/-- Without Enter, the sender does not get past its end. -/
theorem Session.Reachable.unreturned {k : ι} {s : Session ι B}
    (reach : s.Reachable cfg (Policy.honest ι d False) k) : s.sender.Unreturned :=
  invariant reach (I := fun s => s.sender.Unreturned) trivial fun s s' _ before step => by
    cases step with
    | sender step answer => exact (senderMove_of_step step answer).unreturned before
    | receiver step answer => exact before
    | intrude intrudes => exact before

/-- **The completed state** of a session: the sender has sent its key and all frames and
waits for Enter; the receiver has read them and waits for more; nothing is under way. -/
structure Completed (cfg : Config) (d : Draws B) (w : SessionsWorld Unit B) : Prop where
  keySent : (sentAt .sendPublicKey (w.log ((), .sender))).map Subtype.val =
    [B.subjectPublicKey (B.publicKey d.privateKey)]
  framesSent : (sentAt .sendPeriodicMessage (w.log ((), .sender))).map Subtype.val =
    (List.range cfg.numMessagesToSend).map (frameBytes d.sessionKey.val)
  framesRead : readAt .receivePeriodicMessages (w.log ((), .receiver)) =
    sentAt .sendPeriodicMessage (w.log ((), .sender))
  empty : ∀ name, queueOf w () name = []
  sender : ∃ v, (SenderPoint.run v (.enter kOK)).At cfg (w.procs ((), .sender))
  receiver : ∃ v buffer,
    (ReceiverPoint.run v (.loop buffer)).At cfg (w.procs ((), .receiver))

/-- A session gets stuck nowhere else. -/
theorem Tracks.completed_of_stuck (σ : Script d) (h : TracksHonest cfg d False w s)
    (room : 0 < cfg.maxMessages)
    (stuck : (sessions (Policy.honest Unit d False)).Stuck w) : Completed cfg d w := by
  have unreturned := (h.reached ()).unreturned
  cases (h.reached ()).phase σ with
  | start sender receiver sr rs sl rl =>
      exact absurd stuck (h.starting_can σ.lawful room sender sr)
  | keySent sender receiver sr rs sl rl => exact absurd stuck (h.reading_can receiver sr)
  | answering sender receiver sr rs sl rl =>
      exact absurd stuck (h.answering_can σ room receiver rs)
  | answered sender receiver sr rs sl rl => exact absurd stuck (h.waiting_can sender rs)
  | streaming j n sender receiver sr rs sl rl =>
      rcases sender with ⟨installing, -⟩ | streaming
      · exact absurd stuck (h.installing_can σ installing)
      -- the receiver has taken all there is, so there is room for the sender
      obtain ⟨v, buffer, listens, empty⟩ | can := h.listening_can receiver
      · obtain ⟨v', waits⟩ | can := h.streaming_can streaming unreturned (by simpa [empty])
        · obtain rfl : n = 0 := by simpa [sr] using empty
          obtain rfl : j = cfg.numMessagesToSend := by
            rw [waits] at streaming
            exact streaming.2
          have sent := σ.sentAt_senderRecs () .sendPeriodicMessage cfg.numMessagesToSend
          have read := σ.readAt_receiverRecs () .receivePeriodicMessages cfg.numMessagesToSend
          refine ⟨?_, ?_, ?_, fun name => ?_, ⟨v', waits ▸ h.sender ()⟩,
            ⟨v, buffer, listens ▸ h.receiver ()⟩⟩
          · rw [h.senderLog, ← sentAt_exchanges, sl, σ.sentAt_senderRecs]
            simp [Script.publicKey]
          · rw [h.senderLog, ← sentAt_exchanges, sl, Nat.add_zero, sent]
            simp [Script.frame]
          · rw [h.senderLog, h.receiverLog, ← sentAt_exchanges, ← readAt_exchanges, sl, rl,
              Nat.add_zero, sent, read]
            simp
          · rw [h.queueOf_eq]
            cases name with
            | senderToReceiver => exact empty
            | receiverToSender => exact rs
        · exact absurd stuck can
      · exact absurd stuck can

/-- The completed state is stuck: nothing comes, and Enter is not pressed. -/
theorem Tracks.stuck_of_completed (h : TracksHonest cfg d False w s)
    (completed : Completed cfg d w) : (sessions (Policy.honest Unit d False)).Stuck w := by
  obtain ⟨v, sender⟩ := completed.sender
  obtain ⟨v', buffer, receiver⟩ := completed.receiver
  obtain ⟨next, waiting⟩ := (senderMain_bisimulation cfg).waiting_right sender rfl
  obtain ⟨next', waiting'⟩ := (receiverMain_bisimulation cfg).waiting_right receiver rfl
  intro w' step
  cases step with
  | act pid e may step answer =>
      obtain ⟨⟨⟩, role⟩ := pid
      obtain ⟨op, r⟩ := e
      obtain ⟨cont, here, -⟩ := step
      cases role with
      | sender =>
          -- the sender waits for Enter, which nobody presses
          cases waiting.symm.trans here
          cases answer with
          | cinGet enter => exact enter
          | botan is h => cases is
      | receiver =>
          -- the receiver waits for a message, and its queue is empty
          cases waiting'.symm.trans here
          cases answer with
          | mqReceive receives =>
              obtain ⟨o, rest, allocated, is, waits, -⟩ := receives
              obtain ⟨next'', there⟩ :=
                (receiverMain_bisimulation cfg).waiting_left (h.receiver ()) waiting'
              obtain ⟨o', same, holds⟩ := ReceiverPoint.holds_of_uses there rfl
              obtain ⟨obj, placed⟩ := h.placed
              have mine := placed.known () .receiver .senderToReceiver o' (.inl holds)
              have empty := completed.empty .senderToReceiver
              rw [h.queueOf_eq, placed.waits () _ o' mine] at empty
              cases is.symm.trans same
              simp [empty] at waits
          | mqReceiveFails fails => exact fails
          | botan is h => cases is
  | move intruded =>
      obtain ⟨k, o, msgs, allocated, opened, intrudes, same⟩ := intruded
      exact intrudes

/-! ## No send finds the queue full -/

/-- A process is about to send into a full queue. -/
def SendBlocks (w : SessionsWorld ι B) : Prop :=
  ∃ pid site o msg next, (w.procs pid).next = some ⟨.mqSend site (some o) msg, next⟩ ∧
    (w.env.objects o).maxmsg ≤ (w.env.queue o).length

/-- While all frames fit, the sender finds room: its public key has left the queue when
the first frame is sent. -/
theorem Session.Phase.sender_room {k : ι} {s : Session ι B} {σ : Script d}
    (h : s.Phase cfg.numMessagesToSend σ k) (room : 0 < cfg.maxMessages)
    (fits : cfg.numMessagesToSend ≤ cfg.maxMessages) {site : Site} {mq : Mqd}
    {msg : List B.Byte} {next : Bool → SenderPoint B}
    (waiting : s.sender.next cfg = some ⟨.mqSend site mq msg, next⟩) :
    (s.chan site.queue).length < cfg.maxMessages := by
  cases point : s.sender with
  | run v pc =>
      rw [point] at waiting
      cases pc with
      | sendKey =>
          cases waiting
          cases h with
          | start sender receiver sr rs sl rl => simpa [Site.queue, sr] using room
          | streaming j n sender receiver sr rs sl rl =>
              rw [point] at sender
              exact (sender.elim And.left id).elim
          | _ sender => rw [point] at sender; exact sender.elim
      | frame i n =>
          cases waiting
          cases h with
          | streaming j m sender receiver sr rs sl rl =>
              rw [point] at sender
              obtain ⟨installing, -⟩ | ⟨-, count, total⟩ := sender
              · exact installing.elim
              · simp only [Site.queue, sr, List.length_map, List.length_range']
                omega
          | _ sender => rw [point] at sender; exact sender.elim
      | _ => cases waiting
  | _ => rw [point] at waiting; cases waiting

theorem Session.Phase.receiver_room {k : ι} {s : Session ι B} {σ : Script d}
    (h : s.Phase cfg.numMessagesToSend σ k) (room : 0 < cfg.maxMessages) {site : Site}
    {mq : Mqd} {msg : List B.Byte} {next : Bool → ReceiverPoint B}
    (waiting : s.receiver.next cfg = some ⟨.mqSend site mq msg, next⟩) :
    (s.chan site.queue).length < cfg.maxMessages := by
  cases point : s.receiver with
  | run v pc =>
      rw [point] at waiting
      cases pc with
      | sendKey c =>
          cases waiting
          cases h with
          | answering sender receiver sr rs sl rl => simpa [Site.queue, rs] using room
          | start sender receiver sr rs sl rl => rw [point] at receiver; exact receiver.elim
          | keySent sender receiver sr rs sl rl => rw [point] at receiver; exact receiver.elim
          | answered sender receiver sr rs sl rl => rw [point] at receiver; exact receiver.elim
          | streaming j n sender receiver sr rs sl rl =>
              rw [point] at receiver
              exact receiver.elim
      | _ => cases waiting
  | _ => rw [point] at waiting; cases waiting

/-- No process of an honest session is about to send into a full queue. -/
theorem Tracks.not_sendBlocks (σ : Script d) (h : TracksHonest cfg d enter w s)
    (room : 0 < cfg.maxMessages) (fits : cfg.numMessagesToSend ≤ cfg.maxMessages) :
    ¬ SendBlocks w := by
  rintro ⟨⟨⟨⟩, role⟩, site, o, msg, next, waiting, full⟩
  have phase := (h.reached ()).phase σ
  obtain ⟨obj, placed⟩ := h.placed
  have mine : obj () site.queue = some o ∧ ((s ()).chan site.queue).length < cfg.maxMessages := by
    cases role with
    | sender =>
        obtain ⟨next', there⟩ := (senderMain_bisimulation cfg).waiting_left (h.sender ()) waiting
        obtain ⟨o', is, holds⟩ := SenderPoint.holds_of_uses there rfl
        cases is
        exact ⟨placed.known () .sender _ o (.inl holds), phase.sender_room room fits there⟩
    | receiver =>
        obtain ⟨next', there⟩ :=
          (receiverMain_bisimulation cfg).waiting_left (h.receiver ()) waiting
        obtain ⟨o', is, holds⟩ := ReceiverPoint.holds_of_uses there rfl
        cases is
        exact ⟨placed.known () .receiver _ o (.inl holds), phase.receiver_room room there⟩
  rw [← placed.waits () _ o mine.1] at full
  -- the kernel was empty, so the session has created the object
  rcases placed.capacity () _ o mine.1 with capacity | initial
  · rw [capacity] at full
    exact absurd mine.2 (by omega)
  · cases initial

/-- **An honest session makes progress.**  Its runs are finite; the states in which
nobody can step before Enter are the completed ones; and while the frames fit into the
queue, no send finds it full. -/
theorem honest_session_progress (lawful : B.Lawful) (d : Draws B) (cfg : Config)
    (room : 1 ≤ cfg.maxMessages) :
    (∀ enter n w, Chain (sessions (Policy.honest Unit d enter)).Step n
        (sessionsStart cfg (Kernel.empty QueueName (Entry Unit B))) w →
      n ≤ 2 * cfg.numMessagesToSend + 45) ∧
    (∀ w, (sessions (Policy.honest Unit d False)).Reachable
        (sessionsStart cfg (Kernel.empty QueueName (Entry Unit B))) w →
      ((sessions (Policy.honest Unit d False)).Stuck w ↔ Completed cfg d w)) ∧
    (cfg.numMessagesToSend ≤ cfg.maxMessages →
      ∀ enter w, (sessions (Policy.honest Unit d enter)).Reachable
        (sessionsStart cfg (Kernel.empty QueueName (Entry Unit B))) w → ¬ SendBlocks w) := by
  obtain ⟨σ⟩ := exists_script lawful d
  refine ⟨?_, ?_, ?_⟩
  · intro enter n w chain
    exact Chain.le_of_alone (Policy.honest_isolating d enter) (fun _ _ _ _ => id)
      (fun _ => rfl) chain
  · intro w reach
    obtain ⟨n, chain⟩ := exists_chain reach
    obtain ⟨s, -, h⟩ :=
      exists_tracks (fun _ => Policy.honest_isolating d False) (fun _ => rfl) chain
    exact ⟨h.completed_of_stuck σ room, h.stuck_of_completed⟩
  · intro fits enter w reach
    obtain ⟨n, chain⟩ := exists_chain reach
    obtain ⟨s, -, h⟩ :=
      exists_tracks (fun _ => Policy.honest_isolating d enter) (fun _ => rfl) chain
    exact h.not_sendBlocks σ room fits

/-- With the numbers of the source, a run of the sample ends completed, and never finds
a queue full. -/
theorem honest_session_progress_source :
    ∃ w, (sessions (Policy.honest Unit sampleDraws False)).Reachable
        (sessionsStart .source (Kernel.empty QueueName (Entry Unit sampleBotan))) w ∧
      Completed .source sampleDraws w ∧ ¬ SendBlocks w := by
  obtain ⟨finite, stuck, room⟩ :=
    honest_session_progress sampleBotan_lawful sampleDraws .source (by decide)
  obtain ⟨w, reach, ends⟩ := exists_stuck (finite False)
  exact ⟨w, reach, (stuck w reach).mp ends, room (by decide) False w reach⟩

end Ends

end Progress

end SecureComm
