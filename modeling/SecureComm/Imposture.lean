import SecureComm.Exposure

/-!
# Whose key a sender takes

Over the network without a secure channel.  A sender that waits in `receive_symmetric_key`
takes whatever decrypts, which is the first attack the README warns of, and when its receive
fails it goes on with the key it has drawn for itself.  `imposable_iff` says what it can come
to use, if nobody but the attacker moves: the keys the attacker has, those that some receiver
has sent for that sender, and that one.
-/

namespace SecureComm

open Interaction MessageQueue Deduction

section Imposture

variable {ι : Type} {known : Set (Term symbolicBotan)} {pair : KeyPair}

/-- The key can be had encrypted for the key pair. -/
def Wrappable (known : Set (Term symbolicBotan)) (pair : KeyPair) (key : List SymByte) : Prop :=
  ∃ seed, DerivesMessage (B := symbolicBotan) known (SymByte.ciphertext pair seed key)

/-- What can be had for a key pair: what the attacker has, and what a receiver has sent for
it. -/
theorem Networked.wrappable_iff {cfg : Config} {w : SessionsWorld ι symbolicBotan}
    {key : List SymByte} (h : Networked cfg w) (size : key.length = kSymKeySize) :
    Wrappable (gathered w.log) pair key ↔
      DerivesMessage (B := symbolicBotan) (gathered w.log) key ∨
        ∃ name, Wrapped w.log pair name ∧ key = SymByte.randomKey .honest name := by
  constructor
  · rintro ⟨seed, derived⟩
    exact h.ciphertext_cases derived
  · rintro (derived | ⟨name, ⟨j, seed, c, sent, is⟩, rfl⟩)
    · obtain ⟨c, encrypted, -⟩ := SymByte.exists_encrypt pair 0 size
      refine ⟨0, fun b mem => .apply (.encrypt (B := symbolicBotan) encrypted ?_) ?_⟩
      · rw [SymByte.encrypt_eq_ok encrypted]
        exact mem
      · rintro t ⟨b', inside, rfl⟩
        exact derived b' inside
    · refine ⟨seed, fun b mem => .known (.inr ⟨_, _, c, sent, b, ?_, rfl⟩)⟩
      rw [is]
      exact mem

/-- A tag says under which key it was made. -/
theorem key_of_frameBytes_eq {key key' : List SymByte} {i i' : ℕ}
    (same : frameBytes (B := symbolicBotan) key i = frameBytes (B := symbolicBotan) key' i') :
    key = key' := by
  have sizes : (framePayload (B := symbolicBotan) i).length =
      (framePayload (B := symbolicBotan) i').length := by
    rw [length_framePayload, length_framePayload]
  have tags := (List.append_inj same sizes).2
  have first := SymByte.tag_mem_cmac key (framePayload (B := symbolicBotan) i)
  rw [show SymByte.cmac key _ = SymByte.cmac key' _ from tags] at first
  obtain ⟨j, -, is⟩ := List.mem_map.mp first
  exact (SymByte.tag.inj is).1.symm

/-! ## What a sender takes -/

/-- What a sender with the key pair takes from what it reads, and where it gets with it.  If
it reads nothing it keeps its own key. -/
def SenderPc.Took (known : Set (Term symbolicBotan)) (pair : KeyPair) (own : List SymByte)
    (v : SenderVars symbolicBotan) : SenderPc symbolicBotan → Prop
  | .sendKey => False
  | .sendKeyFailed => False
  | .recvKey => False
  | .recvKeyFailed => v.key = own
  | .rngKey m => v.privateKey = pair ∧ DerivesMessage known m.val
  | .decrypt m => v.privateKey = pair ∧ DerivesMessage known m.val
  | .setKey => Wrappable known pair v.key ∨ v.key = own
  | .frame _ _ => (Wrappable known pair v.key ∨ v.key = own) ∧ v.key.length = kSymKeySize
  | _ => True

/-- The sender has taken what can be had, or kept its own key. -/
def SenderPoint.Took (known : Set (Term symbolicBotan)) (pair : KeyPair)
    (own : List SymByte) : SenderPoint symbolicBotan → Prop
  | .run v pc => pc.Took known pair own v
  | .threw _ _ => True
  | _ => False

section Moves

variable {cfg : Config} {k : ι} {ch ch' : Channels ι symbolicBotan}
  {recs : List (Rec ι symbolicBotan)} {own : List SymByte}

theorem SenderPc.took_loop {v : SenderVars symbolicBotan}
    (taken : Wrappable known pair v.key ∨ v.key = own) (size : v.key.length = kSymKeySize)
    (n i : ℕ) : (SenderPc.loop n i).Took known pair own v := by
  cases n with
  | zero => trivial
  | succ n => exact ⟨taken, size⟩

/-- It takes it when it reads, or when it cannot, -/
theorem SenderMove.took_of_recvKey {v : SenderVars symbolicBotan} {pt : SenderPoint symbolicBotan}
    (move : SenderMove cfg (Policy.network ι) k ch (.run v .recvKey) pt ch' recs)
    (reads : ∀ site e, .read site e ∈ recs → DerivesMessage known e.bytes.val) :
    pt.Took known v.privateKey v.key := by
  cases move with
  | recvKey _ e rest waits => exact ⟨rfl, reads _ e (List.mem_singleton_self _)⟩
  | recvKeyFails _ h => rfl

/-- and keeps what it has taken. -/
theorem SenderMove.took {pt pt' : SenderPoint symbolicBotan}
    (move : SenderMove cfg (Policy.network ι) k ch pt pt' ch' recs)
    (here : pt.Took known pair own) : pt'.Took known pair own := by
  cases move with
  | decrypt v m key h =>
      obtain ⟨rfl, derived⟩ := here
      obtain ⟨seed, same⟩ := SymByte.decrypt_eq_ok (show SymByte.decrypt _ _ = .ok key from h.symm)
      refine .inl ⟨seed, ?_⟩
      rw [← same]
      exact derived
  | recvKeyEnter v => exact .inr here
  | setKey v h =>
      -- `set_key` takes keys of one length
      have answers : (.ok () : Except Exn Unit) =
        if v.key.length = kSymKeySize then .ok () else .error .invalidKeyLength := h
      split_ifs at answers with size
      exact SenderPc.took_loop here size _ 0
  | frame v i n => exact SenderPc.took_loop here.1 here.2 n (i + 1)
  | rngKey v m => exact here
  | openSR o => exact here.elim
  | openSRFails h => exact here.elim
  | openRS sr o => exact here.elim
  | openRSFails sr h => exact here.elim
  | rng sr rs => exact here.elim
  | rngThrows sr rs e h => exact here.elim
  | keygen sr rs sk h => exact here.elim
  | keygenThrows sr rs e h => exact here.elim
  | randomize sr rs sk bytes h => exact here.elim
  | randomizeThrows sr rs sk key e h => exact here.elim
  | sendKey v fits => exact here.elim
  | sendKeyFails v h => exact here.elim
  | sendKeyEnter v => exact here.elim
  | recvKey v e rest waits => exact here.elim
  | recvKeyFails v h => exact here.elim
  | _ => trivial

end Moves

/-! ## A sender and the attacker -/

/-- The network while only one process moves. -/
def besieged [DecidableEq ι] {B : Botan} (P : Policy ι B) (own : Set (Term B))
    (pid : ι × Role) : System (Op B) Op.Resp (ι × Role) (Kernel QueueName (Entry ι B)) (Rec ι B)
      (Process B) :=
  { network P own with may := fun _ other => other = pid }

/-- The process is about to send its first frame, made with the key. -/
def UsesKey (p : Process symbolicBotan) (key : List SymByte) : Prop :=
  ∃ mq next, p.next =
    some ⟨.mqSend .sendPeriodicMessage mq (frameBytes (B := symbolicBotan) key 0), next⟩

/-- While only the sender and the attacker move, the sender can come to use the key. -/
def Imposable [DecidableEq ι] (w : SessionsWorld ι symbolicBotan) (k : ι) (key : List SymByte) :
    Prop :=
  ∃ w', (besieged (Policy.network ι) AttackerOwn (k, .sender)).Reachable w w' ∧
    UsesKey (w'.procs (k, .sender)) key

section Siege

variable [DecidableEq ι] {cfg : Config} {κ₀ : Kernel QueueName (Entry ι symbolicBotan)}
  {w w' w'' : SessionsWorld ι symbolicBotan} {k : ι} {v : SenderVars symbolicBotan}
  {key own : List SymByte}

/-- The sender still waits: nothing was heard since, and what is there for it can be
derived. -/
structure StillWaits (cfg : Config) (k : ι) (v : SenderVars symbolicBotan)
    (known : Set (Term symbolicBotan)) (w : SessionsWorld ι symbolicBotan) : Prop where
  here : (SenderPoint.run v .recvKey).At cfg (w.procs (k, .sender))
  gathered : gathered w.log = known
  waiting : ∀ o, ∀ e ∈ w.env.queue o, DerivesMessage known e.bytes.val

/-- The sender has taken a key, or something else, or nothing but an exception. -/
def HasTaken (cfg : Config) (k : ι) (pair : KeyPair) (own : List SymByte)
    (known : Set (Term symbolicBotan)) (w : SessionsWorld ι symbolicBotan) : Prop :=
  ∃ pt : SenderPoint symbolicBotan, pt.At cfg (w.procs (k, .sender)) ∧
    pt.Took known pair own

/-- The sender waits until it takes something, -/
theorem StillWaits.step (h : StillWaits cfg k v known w)
    (step : (besieged (Policy.network ι) AttackerOwn (k, .sender)).Step w w') :
    StillWaits cfg k v known w' ∨ HasTaken cfg k v.privateKey v.key known w' := by
  cases step with
  | @act pid e p env recs may step answer =>
      obtain rfl : pid = (k, Role.sender) := may
      obtain ⟨pt, next, there⟩ := (senderMain_bisimulation cfg).step_right h.here step
      obtain ⟨ch, ch', channels⟩ := answer.exists_channels
      have reads : ∀ site e, .read site e ∈ recs → DerivesMessage known e.bytes.val := by
        intro site e read
        obtain ⟨o, waits⟩ := answer.exists_waiting read
        exact h.waiting o e waits
      exact .inr ⟨pt, by simpa using there,
        (senderMove_of_step next channels).took_of_recvKey reads⟩
  | move rewritten =>
      obtain ⟨o, msgs, allocated, derived, rfl⟩ := rewritten
      refine .inl ⟨h.here, h.gathered, fun o' e waits => ?_⟩
      by_cases same : o' = o
      · subst same
        rw [← h.gathered]
        exact derived e (by simpa using waits)
      · exact h.waiting o' e (by rwa [Kernel.setQueue_queue_of_ne _ _ _ same] at waits)

/-- and then keeps to it. -/
theorem HasTaken.step (h : HasTaken cfg k pair own known w)
    (step : (besieged (Policy.network ι) AttackerOwn (k, .sender)).Step w w') :
    HasTaken cfg k pair own known w' := by
  obtain ⟨pt, here, took⟩ := h
  cases step with
  | @act pid e p env recs may step answer =>
      obtain rfl : pid = (k, Role.sender) := may
      obtain ⟨pt', next, there⟩ := (senderMain_bisimulation cfg).step_right here step
      obtain ⟨ch, ch', channels⟩ := answer.exists_channels
      exact ⟨pt', by simpa using there, (senderMove_of_step next channels).took took⟩
  | move rewritten => exact ⟨pt, here, took⟩

/-- All along the siege. -/
theorem StillWaits.run (h : StillWaits cfg k v known w)
    (later : (besieged (Policy.network ι) AttackerOwn (k, .sender)).Reachable w w') :
    StillWaits cfg k v known w' ∨ HasTaken cfg k v.privateKey v.key known w' := by
  refine invariant later (I := fun w' =>
    StillWaits cfg k v known w' ∨ HasTaken cfg k v.privateKey v.key known w') (.inl h) ?_
  rintro w' w'' - (waits | taken) step
  · exact waits.step step
  · exact .inr (taken.step step)

/-- The key a sender comes to use could be had while it waited, or is its own. -/
theorem Networked.taken_of_imposable (h : Networked cfg w)
    (here : (SenderPoint.run v .recvKey).At cfg (w.procs (k, .sender)))
    (imposable : Imposable w k key) :
    (Wrappable (gathered w.log) v.privateKey key ∨ key = v.key) ∧ key.length = kSymKeySize := by
  obtain ⟨w', later, mq, next, sends⟩ := imposable
  have waits : StillWaits cfg k v (gathered w.log) w := ⟨here, rfl, h.waiting⟩
  obtain waits' | ⟨pt, there, took⟩ := waits.run later
  · obtain ⟨next', receives⟩ := (senderMain_bisimulation cfg).waiting_right waits'.here rfl
    rw [receives] at sends
    cases sends
  · obtain ⟨next', point⟩ := (senderMain_bisimulation cfg).waiting_left there sends
    obtain ⟨site, -⟩ | ⟨-, v', i, n, rfl⟩ := SenderPoint.send_of_next point
    · cases site
    · have call := Op.mqSend.inj (congrArg Sigma.fst (Option.some.inj point))
      obtain rfl := key_of_frameBytes_eq call.2.2
      exact took

/-! ## Imposing a key -/

/-- The sender makes its call. -/
theorem besieged_step {P : Policy ι symbolicBotan} {own : Set (Term symbolicBotan)}
    {pt : SenderPoint symbolicBotan} {op : Op symbolicBotan}
    {next : op.Resp → SenderPoint symbolicBotan} {r : op.Resp}
    {κ : Kernel QueueName (Entry ι symbolicBotan)} {recs : List (Rec ι symbolicBotan)}
    (later : (besieged P own (k, .sender)).Reachable w w')
    (here : pt.At cfg (w'.procs (k, .sender))) (waiting : pt.next cfg = some ⟨op, next⟩)
    (answer : Answered (kernelService ι symbolicBotan) P k .sender w'.env op r κ recs) :
    ∃ w'', (besieged P own (k, .sender)).Reachable w w'' ∧
      (next r).At cfg (w''.procs (k, .sender)) ∧ w''.env = κ := by
  obtain ⟨p, step, there⟩ := (senderMain_bisimulation cfg).step_left here
    (Machine.Step.intro waiting r)
  exact ⟨_, later.tail (.act (k, Role.sender) ⟨op, r⟩ rfl step answer), by simpa using there, rfl⟩

/-- A sender that is about to set a key of the right size comes to use it. -/
theorem imposable_of_setKey (messages : 0 < cfg.numMessagesToSend)
    (later : (besieged (Policy.network ι) AttackerOwn (k, .sender)).Reachable w w')
    (here : (SenderPoint.run v .setKey).At cfg (w'.procs (k, .sender)))
    (size : v.key.length = kSymKeySize) : Imposable w k v.key := by
  have sets : (Policy.network ι).botan .sender (.setKey v.key) (.ok ()) := (if_pos size).symm
  obtain ⟨w'', run, there, -⟩ := besieged_step later here rfl (.botan rfl sets)
  obtain ⟨n, more⟩ := Nat.exists_eq_succ_of_ne_zero (Nat.ne_of_gt messages)
  rw [more] at there
  obtain ⟨next, sends⟩ := (senderMain_bisimulation cfg).waiting_right there rfl
  exact ⟨w'', run, _, next, sends⟩

/-- **A key that can be had for the sender can be imposed on it**, -/
theorem imposable_of_wrappable (messages : 0 < cfg.numMessagesToSend)
    (here : (SenderPoint.run v .recvKey).At cfg (w.procs (k, .sender)))
    (allocated : v.rs < w.env.fresh) (wrappable : Wrappable (gathered w.log) v.privateKey key)
    (size : key.length = kSymKeySize) : Imposable w k key := by
  obtain ⟨seed, derived⟩ := wrappable
  obtain ⟨c, encrypted, fits⟩ := SymByte.exists_encrypt v.privateKey seed size
  rw [← SymByte.encrypt_eq_ok encrypted] at derived
  let m : Message symbolicBotan := ⟨c, fits⟩
  let κ := w.env.setQueue v.rs [⟨none, m⟩] allocated
  have rewrites : (besieged (Policy.network ι) AttackerOwn (k, .sender)).Reachable w
      { w with env := κ } := by
    refine .single (.move ⟨v.rs, _, allocated, ?_, rfl⟩)
    intro e inside
    rw [List.mem_singleton.mp inside]
    exact derived
  have reads : (kernelService ι symbolicBotan).receives κ .receiveSymmetricKey (some v.rs)
      ⟨none, m⟩ (κ.setQueue v.rs [] allocated) :=
    ⟨v.rs, [], allocated, rfl, Kernel.setQueue_queue_self _ _ _, rfl⟩
  have seeds : (Policy.network ι).botan .sender .autoSeededRng (.ok ()) := trivial
  have decrypts : (Policy.network ι).botan .sender (.decrypt v.privateKey m.val) (.ok key) :=
    (SymByte.decrypt_encrypt encrypted).symm
  obtain ⟨w₁, run₁, there₁, -⟩ := besieged_step rewrites here rfl (.mqReceive reads)
  obtain ⟨w₂, run₂, there₂, -⟩ := besieged_step run₁ there₁ rfl (.botan rfl seeds)
  obtain ⟨w₃, run₃, there₃, -⟩ := besieged_step run₂ there₂ rfl (.botan rfl decrypts)
  exact imposable_of_setKey messages run₃ there₃ size

/-- and its own key, by letting its receive fail. -/
theorem imposable_own (messages : 0 < cfg.numMessagesToSend)
    (here : (SenderPoint.run v .recvKey).At cfg (w.procs (k, .sender)))
    (size : v.key.length = kSymKeySize) : Imposable w k v.key := by
  have fails : (Policy.network ι).fails .sender
      (.mqReceive .receiveSymmetricKey (some v.rs)) := trivial
  obtain ⟨w₁, run₁, there₁, -⟩ := besieged_step .refl here rfl (.mqReceiveFails fails)
  obtain ⟨w₂, run₂, there₂, -⟩ := besieged_step run₁ there₁ rfl (.cinGet trivial)
  exact imposable_of_setKey messages run₂ there₂ size

omit [DecidableEq ι] in
/-- A sender that waits for the key has one of its own. -/
theorem Networked.drawn_of_recvKey (h : Networked cfg w)
    (here : (SenderPoint.run v .recvKey).At cfg (w.procs (k, .sender))) : Drawn v.key := by
  obtain ⟨pt, there, fed⟩ := h.sender k
  obtain ⟨next, waiting⟩ := (senderMain_bisimulation cfg).waiting_right here rfl
  obtain ⟨next', point⟩ := (senderMain_bisimulation cfg).waiting_left there waiting
  obtain ⟨-, v', rfl⟩ := SenderPoint.receive_of_next point
  have same : v'.key = v.key := there.symmetricKey.symm.trans here.symmetricKey
  exact same ▸ fed.2.2

/-- **Whose key a sender takes.**  A sender that waits for the key can come to use, while
nobody but the attacker moves, every key of the right size that the attacker has, every key
that some receiver has sent for that sender, the key that it has drawn for itself, and
nothing else. -/
theorem imposable_iff (messages : 0 < cfg.numMessagesToSend) (empty : ∀ o, κ₀.queue o = [])
    (reach : (network (Policy.network ι) AttackerOwn).Reachable (sessionsStart cfg κ₀) w)
    (here : (SenderPoint.run v .recvKey).At cfg (w.procs (k, .sender))) :
    Imposable w k key ↔ key = v.key ∨ key.length = kSymKeySize ∧
      (DerivesMessage (B := symbolicBotan) (gathered w.log) key ∨
        ∃ name, Wrapped w.log v.privateKey name ∧ key = SymByte.randomKey .honest name) := by
  have h := networked empty reach
  constructor
  · intro imposable
    obtain ⟨wrappable | own, size⟩ := h.taken_of_imposable here imposable
    · exact .inr ⟨size, (h.wrappable_iff size).mp wrappable⟩
    · exact .inl own
  · rintro (rfl | ⟨size, had⟩)
    · obtain ⟨name, drawn⟩ := h.drawn_of_recvKey here
      exact imposable_own messages here (drawn ▸ SymByte.length_randomKey .honest name)
    · obtain ⟨next, waiting⟩ := (senderMain_bisimulation cfg).waiting_right here rfl
      exact imposable_of_wrappable messages here (allocated_of_receive empty reach waiting)
        ((h.wrappable_iff size).mpr had) size

end Siege

/-- On the sender of a session that nobody has answered, the attacker imposes a key of its
own, or the key the sender has drawn for itself, and not the one its receiver will draw. -/
theorem imposable_iff_keySent : ∃ w : SessionsWorld Unit symbolicBotan,
    Imposable w () (SymByte.randomKey .attacker 0) ∧
      Imposable w () (SymByte.randomKey .honest 1) ∧
      ¬ Imposable w () (SymByte.randomKey .honest 2) := by
  obtain ⟨σ⟩ := exists_script symbolicBotan_lawful (symbolicDraws 0 1 2 3)
  obtain ⟨w, reach, here⟩ := σ.keySent_networked
  have h := networked (fun _ => rfl) reach
  have silent : ∀ pair name, ¬ Wrapped w.log pair name := by
    rintro pair name ⟨⟨⟩, seed, c, sent, -⟩
    rw [here.receiverLog] at sent
    cases sent
  have waits := here.sender
  have imposable : ∀ key, Imposable w () key ↔ _ := fun key =>
    imposable_iff (by decide) (fun _ => rfl) reach waits
  refine ⟨w, (imposable _).mpr (.inr ⟨SymByte.length_randomKey _ _, .inl (forgery_derived _)⟩),
    (imposable _).mpr (.inl rfl), fun third => ?_⟩
  obtain own | ⟨-, derived | ⟨name, wrapped, -⟩⟩ := (imposable _).mp third
  · exact absurd (SymByte.randomKey_injective own) (by decide)
  · have mem := SymByte.random_mem_randomKey .honest 2
    obtain ⟨pair, -, wrapped⟩ := (h.derives_sessionKey_iff mem).mp (derived _ mem)
    exact silent _ _ wrapped
  · exact silent _ _ wrapped

end Imposture

end SecureComm
