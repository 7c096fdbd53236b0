import Mathlib.Tactic.Common
import SecureComm.Analysis
import SecureComm.Authenticity
import SecureComm.QueueHistory

/-!
# Without the secure channel

The handshake assumes a secure channel.  Here there is none: any number of processes of
either program run over one kernel, in no order, and an attacker rewrites any queue at any
time with whatever it can derive from all that was ever sent.

`Networked` is the invariant.  It says how every message came about, and with that the
attacker's knowledge can be taken apart (`derives_iff`): it consists of what it has, what
it heard, and the session keys it was given encrypted for itself.
-/

namespace SecureComm

open Interaction MessageQueue Deduction

/-! ## The network -/

section Network

variable {ι : Type} {B : Botan}

/-- All that was ever sent, byte by byte. -/
def overheard (log : ι × Role → List (Rec ι B)) : Set (Term B) :=
  {t | ∃ pid site m, .sent site m ∈ log pid ∧ t ∈ bytesOf m.val}

theorem overheard_mono {log log' : ι × Role → List (Rec ι B)} (more : ∀ pid, log pid ⊆ log' pid) :
    overheard log ⊆ overheard log' := by
  rintro t ⟨pid, site, m, sent, mem⟩
  exact ⟨pid, site, m, more pid sent, mem⟩

/-- Processes of either program, started as many and stepping as they like, and an attacker
that has `own`. -/
def network [DecidableEq ι] (P : Policy ι B) (own : Set (Term B)) :
    System (Op B) Op.Resp (ι × Role) (Kernel QueueName (Entry ι B)) (Rec ι B)
      (Process B) where
  next := Proc.next
  may _ _ := True
  answer pid := Answered (kernelService ι B) P pid.1 pid.2
  move log κ κ' := ∃ o msgs allocated,
    (∀ e ∈ msgs, DerivesMessage (own ∪ overheard log) e.bytes.val) ∧
      κ' = κ.setQueue o msgs allocated

variable {P : Policy ι B} {k : ι} {role : Role} {κ κ' : Kernel QueueName (Entry ι B)} {op : Op B}
  {r : op.Resp} {recs : List (Rec ι B)}

/-- What a process reads has waited in a queue. -/
theorem Answered.exists_waiting (answer : Answered (kernelService ι B) P k role κ op r κ' recs)
    {site : Site} {e : Entry ι B} (read : .read site e ∈ recs) : ∃ o, e ∈ κ.queue o := by
  cases answer with
  | mqReceive receives =>
      obtain ⟨o, rest, -, -, waits, -⟩ := receives
      cases List.mem_singleton.mp read
      exact ⟨o, by rw [waits]; exact List.mem_cons_self⟩
  | mqOpen opens => cases List.mem_singleton.mp read
  | mqSend fits sends => cases List.mem_singleton.mp read
  | _ => cases read

/-- What waits has waited before, or was sent just now. -/
theorem Answered.waiting_cases (answer : Answered (kernelService ι B) P k role κ op r κ' recs)
    {o : ℕ} {e : Entry ι B} (waits : e ∈ κ'.queue o) :
    e ∈ κ.queue o ∨ ∃ site, .sent site e.bytes ∈ recs := by
  cases answer with
  | mqOpen opens => exact .inl (by rwa [Kernel.mqOpen_queue opens] at waits)
  | @mqSend κ' site mq msg fits sends =>
      obtain ⟨o', allocated, -, -, rfl⟩ := sends
      by_cases same : o = o'
      · subst same
        rw [Kernel.setQueue_queue_self] at waits
        rcases List.mem_append.mp waits with before | now
        · exact .inl before
        · rw [List.mem_singleton.mp now]
          exact .inr ⟨site, List.mem_singleton_self _⟩
      · exact .inl (by rwa [Kernel.setQueue_queue_of_ne _ _ _ same] at waits)
  | mqReceive receives =>
      obtain ⟨o', rest, allocated, -, before, rfl⟩ := receives
      by_cases same : o = o'
      · subst same
        rw [Kernel.setQueue_queue_self] at waits
        exact .inl (by rw [before]; exact List.mem_cons_of_mem _ waits)
      · exact .inl (by rwa [Kernel.setQueue_queue_of_ne _ _ _ same] at waits)
  | mqUnlink unlinks =>
      cases unlinks
      exact .inl waits
  | _ => exact .inl waits

/-- No object goes away, and what is opened is there. -/
theorem Answered.allocated (answer : Answered (kernelService ι B) P k role κ op r κ' recs) :
    κ.fresh ≤ κ'.fresh ∧ ∀ name o, .opened name o ∈ recs → o < κ'.fresh := by
  cases answer with
  | @mqOpen κ' name attr o opens =>
      have opened : Kernel.Opens κ name attr.mqMaxmsg o κ' := Kernel.mqOpen_opens opens
      refine ⟨opened.grows, fun name' o' now => ?_⟩
      cases List.mem_singleton.mp now
      exact κ'.names_lt name o opened.bound
  | mqSend fits sends =>
      obtain ⟨o', allocated, -, -, rfl⟩ := sends
      exact ⟨Nat.le_refl _, fun name o now => nomatch List.mem_singleton.mp now⟩
  | mqReceive receives =>
      obtain ⟨o', rest, allocated, -, -, rfl⟩ := receives
      exact ⟨Nat.le_refl _, fun name o now => nomatch List.mem_singleton.mp now⟩
  | mqUnlink unlinks =>
      cases unlinks
      exact ⟨Nat.le_refl _, nofun⟩
  | _ => exact ⟨Nat.le_refl _, nofun⟩

section Threads

variable [DecidableEq ι] {own : Set (Term B)} {cfg : Config} {κ₀ : Kernel QueueName (Entry ι B)}
  {w : SessionsWorld ι B}

/-- A process of the network sends and receives on the object it has opened. -/
theorem network_mqd_of_uses (reach : (network P own).Reachable (sessionsStart cfg κ₀) w)
    (pid : ι × Role) {e : Event (Op B) Op.Resp} {p : Process B}
    (step : Machine.Step Proc.next (w.procs pid) e p) {name : QueueName} {mq : Mqd}
    (uses : e.1.uses = some (name, mq)) :
    ∃ o, mq = some o ∧ openedAs name (w.log pid) = some o := by
  obtain ⟨t, run, log, answers⟩ := reach.exists_thread pid
  rw [sessionsStart_procs] at run
  rw [log]
  exact mqd_of_run run answers step uses

end Threads

end Network

/-! ## Honest programs -/

/-- A key that an honest program has drawn. -/
def Drawn (key : List SymByte) : Prop := ∃ name, key = SymByte.randomKey .honest name

/-- Botan's answers to honest programs, whatever they draw and whenever it throws. -/
def honestAnswers : Role → (op : Op symbolicBotan) → op.Resp → Prop
  | _, .autoSeededRng, _ => True
  | _, .rsaPrivateKey _, r => ∀ pair : KeyPair, r = .ok pair → pair.owner = .honest
  | _, .randomize _, r => ∀ bytes, r = .ok bytes → Drawn bytes.val
  | _, .loadKey data, r => r = symbolicBotan.loadKey data
  | _, .encrypt key plaintext, r => ∃ seed, r = symbolicBotan.encrypt key seed plaintext
  | _, .decrypt key ciphertext, r => r = symbolicBotan.decrypt key ciphertext
  | _, .setKey key, r =>
      r = if key.length = kSymKeySize then .ok () else .error .invalidKeyLength
  | _, _, _ => False

/-- Every call of the queues can fail. -/
def Policy.network (ι : Type) : Policy ι symbolicBotan where
  fails _ _ := True
  botan := honestAnswers
  enter := True
  intrudes _ _ _ _ := False

/-- What an honest session draws, honest programs may draw. -/
theorem Policy.network_honours (ι : Type) (privateKey localKey sessionKey seed : ℕ) :
    (Policy.network ι).Honours (symbolicDraws privateKey localKey sessionKey seed) := by
  intro role op r answers
  cases op with
  | autoSeededRng => trivial
  | rsaPrivateKey bits =>
      rintro pair rfl
      cases answers
      rfl
  | randomize n =>
      rintro bytes rfl
      cases role with
      | sender =>
          obtain ⟨bytes', same, value⟩ := answers
          cases same
          exact ⟨localKey, value⟩
      | receiver =>
          obtain ⟨bytes', same, value⟩ := answers
          cases same
          exact ⟨sessionKey, value⟩
  | encrypt key plaintext => exact ⟨seed, answers⟩
  | loadKey data => exact answers
  | decrypt key c => exact answers
  | setKey key => exact answers
  | _ => cases role <;> exact answers.elim

section Programs

variable {ι : Type} {known known' : Set (Term symbolicBotan)}

/-- An attacker can derive a ciphertext that an honest sender decrypts to the key. -/
def Unwrapped (known : Set (Term symbolicBotan)) (key : List SymByte) : Prop :=
  ∃ pair seed, KeyPair.owner pair = .honest ∧
    DerivesMessage (B := symbolicBotan) known (SymByte.ciphertext pair seed key)

theorem Unwrapped.mono {key : List SymByte} (more : known ⊆ known') (h : Unwrapped known key) :
    Unwrapped known' key := by
  obtain ⟨pair, seed, honest, derived⟩ := h
  exact ⟨pair, seed, honest, derived.mono more⟩

/-- No frame has been sent. -/
def Frameless (log : List (Rec ι symbolicBotan)) : Prop :=
  ∀ m, .sent .sendPeriodicMessage m ∉ log

/-- Nothing has been read, and no frame has been sent. -/
structure Silent (log : List (Rec ι symbolicBotan)) : Prop where
  unread : ∀ site e, .read site e ∉ log
  frameless : Frameless log

/-- The frames sent are made under the key. -/
def FramesUnder (key : List SymByte) (log : List (Rec ι symbolicBotan)) : Prop :=
  ∀ m, .sent .sendPeriodicMessage m ∈ log → ∃ i, m.val = frameBytes (B := symbolicBotan) key i

/-- A sender's key is one it has unwrapped, or the one it has drawn itself, if it has read
nothing. -/
def Taken (known : Set (Term symbolicBotan)) (log : List (Rec ι symbolicBotan))
    (key : List SymByte) : Prop :=
  Unwrapped known key ∨ Drawn key ∧ ∀ site e, .read site e ∉ log

section Logs

variable {log recs : List (Rec ι symbolicBotan)} {key : List SymByte}

theorem Frameless.append (before : Frameless log) (now : Frameless recs) :
    Frameless (log ++ recs) := fun m sent =>
  (List.mem_append.mp sent).elim (before m) (now m)

theorem unread_append (before : ∀ site e, .read site e ∉ log)
    (now : ∀ site e, .read site e ∉ recs) : ∀ site e, .read site e ∉ log ++ recs :=
  fun site e read => (List.mem_append.mp read).elim (before site e) (now site e)

theorem Silent.append (before : Silent log) (now : Silent recs) : Silent (log ++ recs) :=
  ⟨unread_append before.unread now.unread, before.frameless.append now.frameless⟩

theorem FramesUnder.append (before : FramesUnder key log) (now : FramesUnder key recs) :
    FramesUnder key (log ++ recs) := fun m sent =>
  (List.mem_append.mp sent).elim (before m) (now m)

theorem Frameless.framesUnder (none : Frameless log) : FramesUnder key log :=
  fun m sent => absurd sent (none m)

theorem Taken.append (taken : Taken known log key) (now : ∀ site e, .read site e ∉ recs) :
    Taken known (log ++ recs) key :=
  taken.imp id fun ⟨drawn, unread⟩ => ⟨drawn, unread_append unread now⟩

theorem Taken.mono (more : known ⊆ known') (taken : Taken known log key) :
    Taken known' log key :=
  taken.imp (Unwrapped.mono more) id

theorem Silent.nil : Silent ([] : List (Rec ι symbolicBotan)) := ⟨nofun, nofun⟩

theorem Silent.opened (name : QueueName) (o : ℕ) :
    Silent ([.opened name o] : List (Rec ι symbolicBotan)) :=
  ⟨fun _ _ read => (nomatch List.mem_singleton.mp read),
    fun _ sent => nomatch List.mem_singleton.mp sent⟩

end Logs

/-- What a sender has from the phase switch on: its own key, then a message it has read, then
the key in it, or still its own. -/
def SenderPc.Fed (known : Set (Term symbolicBotan)) (log : List (Rec ι symbolicBotan))
    (key : List SymByte) : SenderPc symbolicBotan → Prop
  | .sendKey => Silent log ∧ Drawn key
  | .sendKeyFailed => Silent log ∧ Drawn key
  | .recvKey => Silent log ∧ Drawn key
  | .recvKeyFailed => Silent log ∧ Drawn key
  | .rngKey m => Frameless log ∧ DerivesMessage known m.val
  | .decrypt m => Frameless log ∧ DerivesMessage known m.val
  | .setKey => Frameless log ∧ Taken known log key
  | _ => FramesUnder key log ∧ Taken known log key

/-- What a sender has, and has sent: its own private key comes first. -/
def SenderPoint.Fed (known : Set (Term symbolicBotan)) (log : List (Rec ι symbolicBotan)) :
    SenderPoint symbolicBotan → Prop
  | .randomize _ _ pair => Silent log ∧ KeyPair.owner pair = .honest
  | .run v pc => KeyPair.owner v.privateKey = .honest ∧ pc.Fed known log v.key
  | .threw _ _ => Frameless log
  | _ => Silent log

/-- The messages a receiver has accepted were derived, and their tags match its key. -/
def ReceiverVars.Checked (known : Set (Term symbolicBotan)) (v : ReceiverVars symbolicBotan) :
    Prop :=
  ∀ m, (m, true) ∈ v.compared → Drawn v.key ∧ TagMatches v.key m ∧ DerivesMessage known m

/-- What a receiver has from the phase switch on. -/
def ReceiverPc.Fed (v : ReceiverVars symbolicBotan) : ReceiverPc symbolicBotan → Prop
  | .recvKey => v.compared = []
  | .loadKey _ => v.compared = []
  | .rng => v.compared = []
  | .randomize => v.compared = []
  | .sendKey encryptedKey =>
      Drawn v.key ∧ ∃ pair seed, encryptedKey = SymByte.ciphertext pair seed v.key
  | _ => Drawn v.key

/-- What a receiver has: the key it has drawn, and what it has compared under it. -/
def ReceiverPoint.Fed (known : Set (Term symbolicBotan)) : ReceiverPoint symbolicBotan → Prop
  | .run v pc => pc.Fed v ∧ v.Checked known
  | .threw v _ => v.Checked known
  | _ => True

/-- What a sender sends: a public key, or frames. -/
def SenderSent (log : List (Rec ι symbolicBotan)) : Prop :=
  ∀ site m, .sent site m ∈ log →
    (site = .sendPublicKey ∧ ∃ pair, m.val = SymByte.encoded pair) ∨
      site = .sendPeriodicMessage ∧ ∃ key i, m.val = frameBytes (B := symbolicBotan) key i

/-- What a receiver sends: a key it has drawn, encrypted. -/
def ReceiverSent (log : List (Rec ι symbolicBotan)) : Prop :=
  ∀ site m, .sent site m ∈ log → site = .sendSymmetricKey ∧ ∃ pair seed name,
    m.val = SymByte.ciphertext pair seed (SymByte.randomKey .honest name)

theorem SenderPoint.Fed.mono {pt : SenderPoint symbolicBotan}
    {log : List (Rec ι symbolicBotan)} (more : known ⊆ known') (h : pt.Fed known log) :
    pt.Fed known' log := by
  cases pt with
  | run v pc =>
      obtain ⟨honest, fed⟩ := h
      refine ⟨honest, ?_⟩
      cases pc with
      | rngKey m => exact ⟨fed.1, DerivesMessage.mono more fed.2⟩
      | decrypt m => exact ⟨fed.1, DerivesMessage.mono more fed.2⟩
      | sendKey => exact fed
      | sendKeyFailed => exact fed
      | recvKey => exact fed
      | recvKeyFailed => exact fed
      | _ => exact ⟨fed.1, fed.2.mono more⟩
  | _ => exact h

/-- What a sender has sent in frames it has sent under its key. -/
theorem SenderPoint.Fed.of_frame {pt : SenderPoint symbolicBotan}
    {log : List (Rec ι symbolicBotan)} (h : pt.Fed known log) {m : Message symbolicBotan}
    (sent : .sent .sendPeriodicMessage m ∈ log) :
    (∃ i, m.val = frameBytes (B := symbolicBotan) pt.key i) ∧ Taken known log pt.key := by
  cases pt with
  | run v pc =>
      obtain ⟨-, fed⟩ := h
      cases pc with
      | sendKey => exact absurd sent (fed.1.frameless m)
      | sendKeyFailed => exact absurd sent (fed.1.frameless m)
      | recvKey => exact absurd sent (fed.1.frameless m)
      | recvKeyFailed => exact absurd sent (fed.1.frameless m)
      | rngKey m' => exact absurd sent (fed.1 m)
      | decrypt m' => exact absurd sent (fed.1 m)
      | setKey => exact absurd sent (fed.1 m)
      | _ => exact ⟨fed.1 m sent, fed.2⟩
  | randomize sr rs pair => exact absurd sent (h.1.frameless m)
  | threw key e => exact absurd sent (h m)
  | _ => exact absurd sent (h.frameless m)

theorem ReceiverVars.Checked.mono {v : ReceiverVars symbolicBotan} (more : known ⊆ known')
    (h : v.Checked known) : v.Checked known' := by
  intro m accepted
  obtain ⟨drawn, tag, derived⟩ := h m accepted
  exact ⟨drawn, tag, derived.mono more⟩

/-- What was compared at a point. -/
theorem ReceiverPoint.Fed.checked {pt : ReceiverPoint symbolicBotan} (h : pt.Fed known)
    (m : List SymByte) (accepted : (m, true) ∈ pt.compared) :
    Drawn pt.key ∧ TagMatches (B := symbolicBotan) pt.key m ∧
      DerivesMessage (B := symbolicBotan) known m := by
  cases pt with
  | run v pc => exact h.2 m accepted
  | threw v e => exact h m accepted
  | _ => cases accepted

theorem ReceiverPoint.Fed.mono {pt : ReceiverPoint symbolicBotan} (more : known ⊆ known')
    (h : pt.Fed known) : pt.Fed known' := by
  cases pt with
  | run v pc => exact ⟨h.1, h.2.mono more⟩
  | threw v e => exact ReceiverVars.Checked.mono more h
  | _ => exact h

variable {cfg : Config} {k : ι} {ch ch' : Channels ι symbolicBotan}
  {recs : List (Rec ι symbolicBotan)}

theorem SenderPc.fed_loop {log : List (Rec ι symbolicBotan)} {key : List SymByte} (n i : ℕ)
    (frames : FramesUnder key log) (taken : Taken known log key) :
    (SenderPc.loop n i).Fed known log key := by
  cases n <;> exact ⟨frames, taken⟩

/-- **What a sender makes of what it reads**, or of nothing when its receive fails. -/
theorem SenderMove.fed {pt pt' : SenderPoint symbolicBotan} {log : List (Rec ι symbolicBotan)}
    (move : SenderMove cfg (Policy.network ι) k ch pt pt' ch' recs)
    (reads : ∀ site e, .read site e ∈ recs → DerivesMessage known e.bytes.val)
    (here : pt.Fed known log) : pt'.Fed known (log ++ recs) := by
  -- most moves leave nothing on record
  have same : log ++ [] = log := List.append_nil log
  cases move with
  | openSR o => exact here.append (.opened _ o)
  | openRS sr o => exact here.append (.opened _ o)
  | openSRFails h => rwa [same]
  | openRSFails sr h => rwa [same]
  | rng sr rs => rwa [same]
  | rngThrows sr rs e h => rw [same]; exact here.frameless
  | keygen sr rs sk h => rw [same]; exact ⟨here, h sk rfl⟩
  | keygenThrows sr rs e h => rw [same]; exact here.frameless
  | randomize sr rs sk bytes h =>
      rw [same, SenderPc.start_of_le (SymByte.length_encoded_le _)]
      exact ⟨here.2, here.1, h bytes rfl⟩
  | randomizeThrows sr rs sk key e h => rw [same]; exact here.1.frameless
  | sendKey v fits =>
      refine ⟨here.1, here.2.1.append ⟨?_, ?_⟩, here.2.2⟩
      · exact fun _ _ read => nomatch List.mem_singleton.mp read
      · exact fun _ sent => nomatch List.mem_singleton.mp sent
  | sendKeyFails v h => rwa [same]
  | sendKeyEnter v => rwa [same]
  | recvKey v e rest waits =>
      refine ⟨here.1, here.2.1.frameless.append ?_, reads _ e (List.mem_singleton_self _)⟩
      exact fun _ sent => nomatch List.mem_singleton.mp sent
  | recvKeyFails v h => rwa [same]
  | recvKeyEnter v =>
      -- the receive has failed, so the sender goes on with its own key
      rw [same]
      exact ⟨here.1, here.2.1.frameless, .inr ⟨here.2.2, here.2.1.unread⟩⟩
  | rngKey v m => rwa [same]
  | rngKeyThrows v m e h => rw [same]; exact here.2.1
  | decrypt v m key h =>
      -- the message is a ciphertext for the sender, of whomever's
      obtain ⟨seed, is⟩ := SymByte.decrypt_eq_ok (show SymByte.decrypt _ _ = .ok key from h.symm)
      rw [same]
      refine ⟨here.1, here.2.1, .inl ⟨v.privateKey, seed, here.1, ?_⟩⟩
      rw [← is]
      exact here.2.2
  | decryptThrows v m e h => rw [same]; exact here.2.1
  | setKey v h =>
      rw [same]
      exact ⟨here.1, SenderPc.fed_loop _ 0 here.2.1.framesUnder here.2.2⟩
  | setKeyThrows v e h => rw [same]; exact here.2.1
  | frame v i n =>
      refine ⟨here.1, SenderPc.fed_loop n (i + 1) (here.2.1.append ?_) (here.2.2.append ?_)⟩
      · intro m sent
        cases List.mem_singleton.mp sent
        exact ⟨i, rfl⟩
      · exact fun _ _ read => nomatch List.mem_singleton.mp read
  | _ => rwa [same]

/-- And what it sends. -/
theorem SenderMove.sent {P : Policy ι symbolicBotan} {pt pt' : SenderPoint symbolicBotan}
    (move : SenderMove cfg P k ch pt pt' ch' recs) : SenderSent recs := by
  intro site m sent
  cases move with
  | openSR o => cases List.mem_singleton.mp sent
  | openRS sr o => cases List.mem_singleton.mp sent
  | sendKey v fits => cases List.mem_singleton.mp sent; exact .inl ⟨rfl, v.privateKey, rfl⟩
  | recvKey v e rest waits => cases List.mem_singleton.mp sent
  | frame v i n => cases List.mem_singleton.mp sent; exact .inr ⟨rfl, v.key, i, rfl⟩
  | _ => cases sent

/-- Nothing compared, nothing to check. -/
theorem ReceiverVars.checked_of_nil {v : ReceiverVars symbolicBotan} (none : v.compared = []) :
    v.Checked known := by
  intro m accepted
  rw [none] at accepted
  cases accepted

theorem ReceiverPoint.fed_receive {v : ReceiverVars symbolicBotan} (drawn : Drawn v.key)
    (checked : v.Checked known) (buffer : List SymByte) (m : Message symbolicBotan)
    (derived : DerivesMessage known m.val) : (ReceiverPoint.receive v buffer m).Fed known := by
  unfold ReceiverPoint.receive
  split_ifs with empty short
  · exact ⟨drawn, checked⟩
  · exact ⟨drawn, checked⟩
  · refine ⟨drawn, fun m' accepted => ?_⟩
    rcases List.mem_append.mp accepted with before | now
    · exact checked m' before
    · obtain ⟨rfl, equal⟩ := Prod.mk.inj (List.mem_singleton.mp now)
      exact ⟨drawn, of_decide_eq_true equal.symm, derived⟩

/-- **What a receiver makes of what it reads.** -/
theorem ReceiverMove.fed {pt pt' : ReceiverPoint symbolicBotan}
    (move : ReceiverMove cfg (Policy.network ι) k ch pt pt' ch' recs)
    (reads : ∀ site e, .read site e ∈ recs → DerivesMessage known e.bytes.val)
    (here : pt.Fed known) : pt'.Fed known ∧ ReceiverSent recs := by
  have nothing : ReceiverSent ([] : List (Rec ι symbolicBotan)) := nofun
  have opening : ∀ name o, ReceiverSent ([.opened name o] : List (Rec ι symbolicBotan)) :=
    fun name o site m sent => nomatch List.mem_singleton.mp sent
  have reading : ∀ site e, ReceiverSent ([.read site e] : List (Rec ι symbolicBotan)) :=
    fun site e site' m sent => nomatch List.mem_singleton.mp sent
  cases move with
  | openRS o => exact ⟨trivial, opening _ _⟩
  | openRSFails h => exact ⟨trivial, nothing⟩
  | openSR rs o => exact ⟨⟨rfl, nofun⟩, opening _ _⟩
  | openSRFails rs h => exact ⟨trivial, nothing⟩
  | recvKey v e rest waits => exact ⟨here, reading _ e⟩
  | recvKeyFails v h => exact ⟨here, nothing⟩
  | loadKey v m key h => exact ⟨here, nothing⟩
  | randomize v bytes h =>
      have drawn : Drawn bytes.val := h bytes rfl
      have none : v.compared = [] := here.1
      refine ⟨?_, nothing⟩
      obtain ⟨sr, rs, pk, key, compared⟩ := v
      rcases pk with _ | (_ | _) <;>
        exact ⟨drawn, ReceiverVars.checked_of_nil none⟩
  | encrypt v pk c h =>
      obtain ⟨seed, is⟩ := h
      exact ⟨⟨⟨here.1, pk, seed, SymByte.encrypt_eq_ok is.symm⟩, here.2⟩, nothing⟩
  | sendKey v c fits =>
      obtain ⟨⟨⟨name, key⟩, pair, seed, is⟩, checked⟩ := here
      refine ⟨⟨⟨name, key⟩, checked⟩, fun site m sent => ?_⟩
      cases List.mem_singleton.mp sent
      exact ⟨rfl, pair, seed, name, by rw [← key]; exact is⟩
  | sendKeyFails v c h => exact ⟨⟨here.1.1, here.2⟩, nothing⟩
  | receive v buffer e rest waits =>
      have derived := reads _ e (List.mem_singleton_self _)
      exact ⟨ReceiverPoint.fed_receive here.1 here.2 buffer e.bytes derived, reading _ e⟩
  | loadKeyThrows v m e h => exact ⟨here.2, nothing⟩
  | rngThrows v e h => exact ⟨here.2, nothing⟩
  | randomizeThrows v e h => exact ⟨here.2, nothing⟩
  | encryptThrows v pk e h => exact ⟨here.2, nothing⟩
  | setKeyThrows v e h => exact ⟨here.2, nothing⟩
  | _ => exact ⟨here, nothing⟩

end Programs

/-! ## The invariant -/

section Invariant

variable {ι : Type} {cfg : Config} {κ₀ : Kernel QueueName (Entry ι symbolicBotan)}
  {w w' : SessionsWorld ι symbolicBotan}

/-- What the attacker has, and what it has heard. -/
def gathered (log : ι × Role → List (Rec ι symbolicBotan)) : Set (Term symbolicBotan) :=
  AttackerOwn ∪ overheard log

/-- **How everything came about**: what waits anywhere the attacker can derive, and honest
programs have done what they do with that. -/
structure Networked (cfg : Config) (w : SessionsWorld ι symbolicBotan) : Prop where
  sender : ∀ k, ∃ pt : SenderPoint symbolicBotan, pt.At cfg (w.procs (k, .sender)) ∧
    pt.Fed (gathered w.log) (w.log (k, .sender))
  receiver : ∀ k, ∃ pt : ReceiverPoint symbolicBotan, pt.At cfg (w.procs (k, .receiver)) ∧
    pt.Fed (gathered w.log)
  senderSent : ∀ k, SenderSent (w.log (k, .sender))
  receiverSent : ∀ k, ReceiverSent (w.log (k, .receiver))
  waiting : ∀ o, ∀ e ∈ w.env.queue o, DerivesMessage (gathered w.log) e.bytes.val
  allocated : ∀ pid name o, .opened name o ∈ w.log pid → o < w.env.fresh

theorem Networked.start (empty : ∀ o, κ₀.queue o = []) : Networked cfg (sessionsStart cfg κ₀) where
  sender k := ⟨.openSR, senderProcess_at cfg, .nil⟩
  receiver k := ⟨.openRS, receiverProcess_at cfg, trivial⟩
  senderSent k := nofun
  receiverSent k := nofun
  waiting o e waits := by
    have none : e ∈ κ₀.queue o := waits
    rw [empty o] at none
    cases none
  allocated pid name o := nofun

theorem SenderSent.append {log recs : List (Rec ι symbolicBotan)} (before : SenderSent log)
    (now : SenderSent recs) : SenderSent (log ++ recs) := by
  intro site m sent
  exact (List.mem_append.mp sent).elim (before site m) (now site m)

theorem ReceiverSent.append {log recs : List (Rec ι symbolicBotan)} (before : ReceiverSent log)
    (now : ReceiverSent recs) : ReceiverSent (log ++ recs) := by
  intro site m sent
  exact (List.mem_append.mp sent).elim (before site m) (now site m)

/-- The attacker keeps it. -/
theorem Networked.rewrite (h : Networked cfg w) {o : ℕ} {msgs : List (Entry ι symbolicBotan)}
    (allocated : o < w.env.fresh)
    (derived : ∀ e ∈ msgs, DerivesMessage (gathered w.log) e.bytes.val) :
    Networked cfg { w with env := w.env.setQueue o msgs allocated } := by
  refine ⟨h.sender, h.receiver, h.senderSent, h.receiverSent, ?_, h.allocated⟩
  intro o' e waits
  by_cases same : o' = o
  · subst same
    exact derived e (by simpa using waits)
  · exact h.waiting o' e (by rwa [Kernel.setQueue_queue_of_ne _ _ _ same] at waits)

section Steps

variable {P : Policy ι symbolicBotan} {k : ι} {role : Role} {op : Op symbolicBotan} {r : op.Resp}
  {κ : Kernel QueueName (Entry ι symbolicBotan)} {recs : List (Rec ι symbolicBotan)}

/-- What is read can be derived. -/
theorem Networked.reads (h : Networked cfg w)
    (answer : Answered (kernelService ι symbolicBotan) P k role w.env op r κ recs) {site : Site}
    {e : Entry ι symbolicBotan} (read : .read site e ∈ recs) :
    DerivesMessage (gathered w.log) e.bytes.val := by
  obtain ⟨o, waits⟩ := answer.exists_waiting read
  exact h.waiting o e waits

variable [DecidableEq ι]

/-- Whoever goes on record, the attacker has gathered no less. -/
theorem gathered_update (log : ι × Role → List (Rec ι symbolicBotan)) (pid : ι × Role)
    (recs : List (Rec ι symbolicBotan)) :
    gathered log ⊆ gathered (Function.update log pid (log pid ++ recs)) :=
  Set.union_subset_union_right _ <| overheard_mono fun _ _ mem =>
    System.mem_update_log.mpr (.inl mem)

/-- What waits still can: it waited before, or the attacker has heard it as it was sent. -/
theorem Networked.waiting_answered (h : Networked cfg w)
    (answer : Answered (kernelService ι symbolicBotan) P k role w.env op r κ recs) (o : ℕ)
    (e : Entry ι symbolicBotan) (waits : e ∈ κ.queue o) : DerivesMessage
      (gathered (Function.update w.log (k, role) (w.log (k, role) ++ recs))) e.bytes.val := by
  obtain before | ⟨site, sent⟩ := answer.waiting_cases waits
  · exact (h.waiting o e before).mono (gathered_update w.log (k, role) recs)
  · intro b mem
    exact .known (.inr ⟨(k, role), site, e.bytes,
      System.mem_update_log.mpr (.inr ⟨rfl, sent⟩), b, mem, rfl⟩)

theorem Networked.allocated_answered (h : Networked cfg w)
    (answer : Answered (kernelService ι symbolicBotan) P k role w.env op r κ recs)
    (pid : ι × Role) (name : QueueName) (o : ℕ)
    (opened : .opened name o ∈ Function.update w.log (k, role) (w.log (k, role) ++ recs) pid) :
    o < κ.fresh := by
  obtain ⟨grows, now⟩ := answer.allocated
  obtain before | ⟨-, here⟩ := System.mem_update_log.mp opened
  · exact lt_of_lt_of_le (h.allocated pid name o before) grows
  · exact now name o here

/-- A sender keeps it. -/
theorem Networked.sender_step (h : Networked cfg w) {p : Process symbolicBotan}
    (step : Machine.Step Proc.next (w.procs (k, .sender)) ⟨op, r⟩ p)
    (answer : Answered (kernelService ι symbolicBotan) (Policy.network ι) k .sender w.env op r κ
      recs) :
    Networked cfg ⟨κ, Function.update w.procs (k, .sender) p,
      Function.update w.log (k, .sender) (w.log (k, .sender) ++ recs)⟩ := by
  have more := gathered_update w.log (k, .sender) recs
  obtain ⟨ch, ch', channels⟩ := answer.exists_channels
  obtain ⟨pt, here, fed⟩ := h.sender k
  obtain ⟨pt', next, there⟩ := (senderMain_bisimulation cfg).step_right here step
  have move := senderMove_of_step next channels
  have fed' := move.fed (fun _ _ => h.reads answer) fed
  refine ⟨fun j => ?_, fun j => ?_, fun j => ?_, fun j => ?_, h.waiting_answered answer,
    h.allocated_answered answer⟩
  · by_cases same : j = k
    · subst same
      exact ⟨pt', by simpa using there, by simpa using fed'.mono more⟩
    · obtain ⟨pt, here, fed⟩ := h.sender j
      exact ⟨pt, by simpa [same] using here, by simpa [same] using fed.mono more⟩
  · obtain ⟨pt, here, fed⟩ := h.receiver j
    exact ⟨pt, by simpa using here, fed.mono more⟩
  · by_cases same : j = k
    · subst same
      simpa using (h.senderSent j).append move.sent
    · simpa [same] using h.senderSent j
  · simpa using h.receiverSent j

/-- A receiver keeps it. -/
theorem Networked.receiver_step (h : Networked cfg w) {p : Process symbolicBotan}
    (step : Machine.Step Proc.next (w.procs (k, .receiver)) ⟨op, r⟩ p)
    (answer : Answered (kernelService ι symbolicBotan) (Policy.network ι) k .receiver w.env op r κ
      recs) :
    Networked cfg ⟨κ, Function.update w.procs (k, .receiver) p,
      Function.update w.log (k, .receiver) (w.log (k, .receiver) ++ recs)⟩ := by
  have more := gathered_update w.log (k, .receiver) recs
  obtain ⟨ch, ch', channels⟩ := answer.exists_channels
  obtain ⟨pt, here, fed⟩ := h.receiver k
  obtain ⟨pt', next, there⟩ := (receiverMain_bisimulation cfg).step_right here step
  obtain ⟨fed', sent⟩ := (receiverMove_of_step next channels).fed (fun _ _ => h.reads answer) fed
  refine ⟨fun j => ?_, fun j => ?_, fun j => ?_, fun j => ?_, h.waiting_answered answer,
    h.allocated_answered answer⟩
  · obtain ⟨pt, here, fed⟩ := h.sender j
    exact ⟨pt, by simpa using here, by simpa using fed.mono more⟩
  · by_cases same : j = k
    · subst same
      exact ⟨pt', by simpa using there, fed'.mono more⟩
    · obtain ⟨pt, here, fed⟩ := h.receiver j
      exact ⟨pt, by simpa [same] using here, fed.mono more⟩
  · simpa using h.senderSent j
  · by_cases same : j = k
    · subst same
      simpa using (h.receiverSent j).append sent
    · simpa [same] using h.receiverSent j

/-- Every step keeps it. -/
theorem Networked.step (h : Networked cfg w)
    (step : (network (Policy.network ι) AttackerOwn).Step w w') : Networked cfg w' := by
  cases step with
  | act pid e may step answer =>
      obtain ⟨k, role⟩ := pid
      cases role with
      | sender => exact h.sender_step step answer
      | receiver => exact h.receiver_step step answer
  | move rewritten =>
      obtain ⟨o, msgs, allocated, derived, rfl⟩ := rewritten
      exact h.rewrite allocated derived

/-- **It holds wherever the network gets to**, if nothing was in its queues. -/
theorem networked (empty : ∀ o, κ₀.queue o = [])
    (reach : (network (Policy.network ι) AttackerOwn).Reachable (sessionsStart cfg κ₀) w) :
    Networked cfg w :=
  invariant reach (I := Networked cfg) (.start empty) fun _ _ _ h step => h.step step

/-- What a process receives from is there. -/
theorem allocated_of_receive (empty : ∀ o, κ₀.queue o = [])
    (reach : (network (Policy.network ι) AttackerOwn).Reachable (sessionsStart cfg κ₀) w)
    {pid : ι × Role} {site : Site} {o : ℕ}
    {next : Option (Message symbolicBotan) → Process symbolicBotan}
    (waiting : (w.procs pid).next = some ⟨.mqReceive site (some o), next⟩) :
    o < w.env.fresh := by
  obtain ⟨o', same, opened⟩ := network_mqd_of_uses reach pid (.intro waiting none) rfl
  cases same
  exact (networked empty reach).allocated _ _ _ (openedAs_mem opened)

end Steps

end Invariant

end SecureComm
