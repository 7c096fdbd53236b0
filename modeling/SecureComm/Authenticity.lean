import Mathlib.Tactic.Common
import SecureComm.KeyAgreement
import SecureComm.Stages
import SecureComm.Symbolic

/-!
# A network attacker in the periodic phase

Once the handshake messages have been read, an attacker may turn what waits in the
sender-to-receiver queue into any messages it can derive from all that was ever sent:
drop, reorder, replay, modify, inject, as often as it likes.  The queue calls may fail as
they do for key agreement.

`Session.Guarded` is what survives this.  It keeps the key agreement of
`Session.Agreeing`, bounds what has been sent, and says that what waits is derivable;
secrecy of the session key then makes every message with a matching tag one of the
sender's frames.
-/

namespace SecureComm

open Interaction MessageQueue Deduction

section Authenticity

variable {ι : Type} {B : Botan}

/-! ## The attacker's moves -/

/-- The messages sent on either queue, byte by byte. -/
def heard (senderLog receiverLog : List (Rec ι B)) : Set (Term B) :=
  {t | ∃ site m, (.sent site m ∈ senderLog ∨ .sent site m ∈ receiverLog) ∧
    t ∈ bytesOf m.val}

/-- The receiver has read the sender's public key, and the sender the encrypted key. -/
def KeysExchanged (senderLog receiverLog : List (Rec ι B)) : Prop :=
  (∃ e, .read .getPublicKey e ∈ receiverLog) ∧
    ∃ e, .read .receiveSymmetricKey e ∈ senderLog

/-- Queue calls may fail, but for the sender's receive of the key, without which no keys are
exchanged.  Once they are, an attacker that has `own` puts anything it can derive in the
place of what waits in the sender-to-receiver queue. -/
def Policy.attacked (ι : Type) (d : Draws B) (own : Set (Term B)) : Policy ι B :=
  { Policy.flaky ι d False with
    intrudes := fun senderLog receiverLog _ msgs =>
      KeysExchanged senderLog receiverLog ∧
        ∀ e ∈ msgs, DerivesMessage (own ∪ heard senderLog receiverLog) e.bytes.val }

theorem Policy.attacked_isolating (d : Draws B) (own : Set (Term B)) :
    (Policy.attacked ι d own).Isolating where
  opens _ _ _ := id
  keyArrives _ := id

/-- What Botan and the queues do is what they do without an attacker. -/
theorem Answered.flaky {K : Type} {Q : QueueService ι B K} {d : Draws B} {own : Set (Term B)}
    {k : ι} {role : Role} {κ κ' : K} {op : Op B} {r : op.Resp} {recs : List (Rec ι B)}
    (answer : Answered Q (Policy.attacked ι d own) k role κ op r κ' recs) :
    Answered Q (Policy.flaky ι d False) k role κ op r κ' recs :=
  answer.mono (P := Policy.attacked ι d own) (fun _ => id) (fun _ _ => id) id

theorem heard_mono {senderLog senderLog' receiverLog receiverLog' : List (Rec ι B)}
    (sender : senderLog ⊆ senderLog') (receiver : receiverLog ⊆ receiverLog') :
    heard senderLog receiverLog ⊆ heard senderLog' receiverLog' := by
  rintro t ⟨site, m, sent, mem⟩
  exact ⟨site, m, sent.imp (fun h => sender h) (fun h => receiver h), mem⟩

theorem DerivesMessage.mono {known known' : Set (Term B)} {m : List B.Byte}
    (more : known ⊆ known') (h : DerivesMessage known m) : DerivesMessage known' m :=
  fun b mem => (h b mem).mono more

/-- A message that was sent can be replayed. -/
theorem derivesMessage_of_sent {own : Set (Term B)} {senderLog receiverLog : List (Rec ι B)}
    {site : Site} {m : Message B}
    (sent : .sent site m ∈ senderLog ∨ .sent site m ∈ receiverLog) :
    DerivesMessage (own ∪ heard senderLog receiverLog) m.val :=
  fun b mem => .known (.inr ⟨site, m, sent, b, mem, rfl⟩)

/-! ## Past the handshake -/

section Points

variable {d : Draws B} (σ : Script d)

/-- A receiver that has sent the key goes on. -/
theorem ReceiverMove.replied {cfg : Config} {k : ι} {ch ch' : Channels ι B}
    {recs : List (Rec ι B)} {pt pt' : ReceiverPoint B}
    (move : ReceiverMove cfg (Policy.flaky ι d False) k ch pt pt' ch' recs)
    (here : pt.Agrees σ) (replied : pt.Replied) : pt'.Replied := by
  cases move with
  | receive v buffer e rest waits =>
      unfold ReceiverPoint.receive
      split_ifs <;> trivial
  | setKeyThrows v e h =>
      have value : Except.error e = if v.key.length = kSymKeySize then _ else _ := h
      have key : v.key = d.sessionKey.val := here
      rw [key, if_pos d.sessionKey.property] at value
      cases value
  | _ => trivial

/-- A sender that has read the encrypted key goes on. -/
theorem SenderMove.keyed_of_keyed {cfg : Config} {k : ι} {ch ch' : Channels ι B}
    {recs : List (Rec ι B)} {pt pt' : SenderPoint B}
    (move : SenderMove cfg (Policy.flaky ι d False) k ch pt pt' ch' recs)
    (here : pt.Agrees σ) (keyed : pt.Keyed) : pt'.Keyed := by
  cases move with
  | rngKeyThrows v m e h => cases h
  | decryptThrows v m e h =>
      obtain ⟨sk, rfl⟩ := here
      have value : Except.error e = B.decrypt v.privateKey σ.cipher.val := h
      rw [sk, σ.decrypt_cipher] at value
      cases value
  | setKey v h => cases cfg.numMessagesToSend <;> trivial
  | setKeyThrows v e h =>
      have value : Except.error e = if v.key.length = kSymKeySize then _ else _ := h
      have key : v.key = d.sessionKey.val := here.2
      rw [key, if_pos d.sessionKey.property] at value
      cases value
  | frame v i n => cases n <;> trivial
  | _ => trivial

end Points

/-! ## The invariant -/

section Guarded

variable {cfg : Config} {d : Draws B} (σ : Script d) (own : Set (Term B)) {k : ι}
  {s s' : Session ι B}

/-- **What an attacker cannot spoil**: the key agreement, and that everything in the
sender-to-receiver queue can be derived from what the two programs sent. -/
structure Session.Guarded (s : Session ι B) : Prop where
  agreeing : s.Agreeing σ
  read : (∃ e, .read .getPublicKey e ∈ s.receiverLog) → ¬ s.receiver.Unread
  replied : ∀ m, .sent .sendSymmetricKey m ∈ s.receiverLog → s.receiver.Replied
  keyed : (∃ e, .read .receiveSymmetricKey e ∈ s.senderLog) → s.sender.Keyed
  senderSent : ∀ site m, .sent site m ∈ s.senderLog →
    m = σ.publicKey ∨ ∃ i, m = σ.frame i ∧ .sent .sendPeriodicMessage m ∈ s.senderLog
  receiverSent : ∀ site m, .sent site m ∈ s.receiverLog → m = σ.cipher
  waiting : ∀ e ∈ s.chan .senderToReceiver,
    DerivesMessage (own ∪ heard s.senderLog s.receiverLog) e.bytes.val

theorem Session.Guarded.start : (Session.start ι B).Guarded σ own where
  agreeing := Session.Agreeing.start σ
  read := nofun
  replied := nofun
  keyed := nofun
  senderSent := nofun
  receiverSent := nofun
  waiting := nofun

/-- Nothing is sent or read where nothing is exchanged. -/
theorem sent_append_iff {log recs : List (Rec ι B)} (none : exchanges recs = []) {site : Site}
    {m : Message B} : .sent site m ∈ log ++ recs ↔ .sent site m ∈ log := by
  have absent : .sent site m ∉ recs := by
    rw [← mem_exchanges_sent, none]
    exact List.not_mem_nil
  rw [List.mem_append, or_iff_left absent]

theorem read_append_iff {log recs : List (Rec ι B)} (none : exchanges recs = []) {site : Site}
    {e : Entry ι B} : .read site e ∈ log ++ recs ↔ .read site e ∈ log := by
  have absent : .read site e ∉ recs := by
    rw [← mem_exchanges, none]
    exact List.not_mem_nil
  rw [List.mem_append, or_iff_left absent]

/-- What waits stays derivable as more is sent. -/
theorem Session.Guarded.waiting_mono (h : s.Guarded σ own)
    {senderLog receiverLog : List (Rec ι B)}
    (sender : s.senderLog ⊆ senderLog) (receiver : s.receiverLog ⊆ receiverLog) :
    ∀ e ∈ s.chan .senderToReceiver,
      DerivesMessage (own ∪ heard senderLog receiverLog) e.bytes.val := by
  intro e waits
  exact (h.waiting e waits).mono (Set.union_subset_union_right _ (heard_mono sender receiver))

/-- So is what the sender adds to it. -/
theorem Session.Guarded.waiting_push (h : s.Guarded σ own) (site : Site) (entry : Entry ι B) :
    ∀ e ∈ s.chan .senderToReceiver ++ [entry],
      DerivesMessage (own ∪ heard (s.senderLog ++ [.sent site entry.bytes]) s.receiverLog)
        e.bytes.val := by
  intro e waits
  rcases List.mem_append.mp waits with before | now
  · exact h.waiting_mono σ own (List.subset_append_left _ _) (List.Subset.refl _) e before
  · rw [List.mem_singleton.mp now]
    exact derivesMessage_of_sent
      (.inl (List.mem_append_right _ (List.mem_singleton_self (Rec.sent site entry.bytes))))

/-- What the sender has sent, it has sent later as well. -/
theorem Session.Guarded.senderSent_append (h : s.Guarded σ own) {site : Site} {m : Message B}
    (sent : .sent site m ∈ s.senderLog) (recs : List (Rec ι B)) :
    m = σ.publicKey ∨
      ∃ i, m = σ.frame i ∧ .sent .sendPeriodicMessage m ∈ s.senderLog ++ recs := by
  obtain key | ⟨i, frame, before⟩ := h.senderSent site m sent
  · exact .inl key
  · exact .inr ⟨i, frame, List.mem_append_left _ before⟩

/-- The sender keeps it. -/
theorem Session.Guarded.sender_step (h : s.Guarded σ own) {pt : SenderPoint B}
    {ch : Channels ι B} {recs : List (Rec ι B)}
    (move : SenderMove cfg (Policy.flaky ι d False) k s.chan s.sender pt ch recs) :
    Session.Guarded σ own
      { s with chan := ch, sender := pt, senderLog := s.senderLog ++ recs } := by
  obtain ⟨agrees, does⟩ := move.does σ h.agreeing.sender h.agreeing.forSender
  have agreeing := h.agreeing.sender_step σ move
  have keeps : (∃ e, .read .receiveSymmetricKey e ∈ s.senderLog) → pt.Keyed := by
    intro read
    exact move.keyed_of_keyed σ h.agreeing.sender (h.keyed read)
  have more := h.waiting_mono σ own (List.subset_append_left s.senderLog recs)
    (List.Subset.refl s.receiverLog)
  cases does with
  | quiet keyed none =>
      refine ⟨agreeing, h.read, h.replied, ?_, ?_, h.receiverSent, more⟩
      · rintro ⟨e, read⟩
        exact keeps ⟨e, (read_append_iff none).mp read⟩
      · intro site m sent
        exact h.senderSent_append σ own ((sent_append_iff none).mp sent) recs
  | sendsKey keyed =>
      refine ⟨agreeing, h.read, h.replied, ?_, ?_, h.receiverSent, ?_⟩
      · intro read
        exact keeps (by simpa using read)
      · intro site m sent
        rcases List.mem_append.mp sent with before | now
        · exact h.senderSent_append σ own before _
        · cases List.mem_singleton.mp now
          exact .inl rfl
      · -- the attacker hears the message as it is sent
        simpa only [Function.update_self, Script.publicKeyEntry] using
          h.waiting_push σ own .sendPublicKey (σ.publicKeyEntry k)
  | readsKey e rest keyed waits =>
      refine ⟨agreeing, h.read, h.replied, fun _ => keyed, ?_, h.receiverSent,
        by simpa using more⟩
      intro site m sent
      exact h.senderSent_append σ own (by simpa using sent) _
  | sendsFrame i keyed =>
      refine ⟨agreeing, h.read, h.replied, ?_, ?_, h.receiverSent, ?_⟩
      · intro read
        exact keeps (by simpa using read)
      · intro site m sent
        rcases List.mem_append.mp sent with before | now
        · exact h.senderSent_append σ own before _
        · cases List.mem_singleton.mp now
          exact .inr ⟨i, rfl, List.mem_append_right _ (List.mem_singleton_self _)⟩
      · simpa only [Function.update_self, Script.frameEntry] using
          h.waiting_push σ own .sendPeriodicMessage (σ.frameEntry k i)

/-- The receiver keeps it. -/
theorem Session.Guarded.receiver_step (h : s.Guarded σ own) {pt : ReceiverPoint B}
    {ch : Channels ι B} {recs : List (Rec ι B)}
    (move : ReceiverMove cfg (Policy.flaky ι d False) k s.chan s.receiver pt ch recs) :
    Session.Guarded σ own
      { s with chan := ch, receiver := pt, receiverLog := s.receiverLog ++ recs } := by
  obtain ⟨agrees, does⟩ := move.does σ h.agreeing.receiver h.agreeing.forReceiver
  have agreeing := h.agreeing.receiver_step σ move
  have keeps : ∀ m, .sent .sendSymmetricKey m ∈ s.receiverLog → pt.Replied := by
    intro m sent
    exact move.replied σ h.agreeing.receiver (h.replied m sent)
  have more := h.waiting_mono σ own (List.Subset.refl s.senderLog)
    (List.subset_append_left s.receiverLog recs)
  cases does with
  | quiet unread none =>
      refine ⟨agreeing, ?_, ?_, h.keyed, h.senderSent, ?_, more⟩
      · rintro ⟨e, read⟩ now
        -- a call that exchanges nothing reads nothing either
        exact h.read ⟨e, (read_append_iff none).mp read⟩ (unread now)
      · intro m sent
        exact keeps m ((sent_append_iff none).mp sent)
      · intro site m sent
        exact h.receiverSent site m ((sent_append_iff none).mp sent)
  | reads site e rest read waits =>
      refine ⟨agreeing, fun _ => read, ?_, h.keyed, h.senderSent, ?_, ?_⟩
      · intro m sent
        exact keeps m (by simpa using sent)
      · intro site' m sent
        exact h.receiverSent site' m (by simpa using sent)
      · intro e' inside
        simp only [Function.update_self] at inside
        exact more e' (by rw [waits]; exact List.mem_cons_of_mem e inside)
  | sendsCipher replied =>
      refine ⟨agreeing, fun _ => ReceiverPoint.not_unread_of_replied replied, fun _ _ => replied,
        h.keyed, h.senderSent, ?_, by simpa using more⟩
      intro site m sent
      rcases List.mem_append.mp sent with before | now
      · exact h.receiverSent site m before
      · cases List.mem_singleton.mp now
        rfl

/-- The attacker keeps it. -/
theorem Session.Guarded.intrude (h : s.Guarded σ own) {msgs : List (Entry ι B)}
    (exchanged : KeysExchanged s.senderLog s.receiverLog)
    (derived : ∀ e ∈ msgs,
      DerivesMessage (own ∪ heard s.senderLog s.receiverLog) e.bytes.val) :
    Session.Guarded σ own
      { s with chan := Function.update s.chan .senderToReceiver msgs } := by
  have read := h.read exchanged.1
  refine ⟨?_, h.read, h.replied, h.keyed, h.senderSent, h.receiverSent, by simpa using derived⟩
  have agreeing := h.agreeing
  exact ⟨agreeing.sender, agreeing.receiver, by simpa using agreeing.forSender,
    fun now => absurd now read, fun now => absurd now read,
    fun some => agreeing.answered (by simpa using some), agreeing.delivered, agreeing.frames⟩

/-- **No run spoils it.** -/
theorem Session.Reachable.guarded (reach : s.Reachable cfg (Policy.attacked ι d own) k) :
    s.Guarded σ own :=
  invariant reach (I := Session.Guarded σ own) (Session.Guarded.start σ own)
    fun s s' _ h step => by
      cases step with
      | sender step answer =>
          exact h.sender_step σ own (senderMove_of_step step answer.flaky)
      | receiver step answer =>
          exact h.receiver_step σ own (receiverMove_of_step step answer.flaky)
      | intrude intrudes => exact h.intrude σ own intrudes.1 intrudes.2

end Guarded

/-! ## Matching tags -/

/-- A message with a matching tag is its payload and the tag of that. -/
theorem append_cmac_of_matches {key m : List B.Byte} (accepted : TagMatches key m) :
    payloadOf m ++ B.cmac key (payloadOf m) = m := by
  rw [← show tagOf m = _ from accepted]
  exact payloadOf_append_tagOf m

theorem mem_of_mem_cmac {key m : List B.Byte} (accepted : TagMatches key m) {b : B.Byte}
    (h : b ∈ B.cmac key (payloadOf m)) : b ∈ m := by
  rw [← show tagOf m = _ from accepted] at h
  exact List.mem_of_mem_drop h

/-- Comparisons are made in the loop only, of what is read there. -/
theorem ReceiverMove.of_compared {cfg : Config} {P : Policy ι B} {k : ι} {ch ch' : Channels ι B}
    {recs : List (Rec ι B)} {pt pt' : ReceiverPoint B}
    (move : ReceiverMove cfg P k ch pt pt' ch' recs) {m : List B.Byte}
    (accepted : (m, true) ∈ pt'.compared) :
    (m, true) ∈ pt.compared ∨ ∃ v buffer e rest, pt = .run v (.loop buffer) ∧
      ch .senderToReceiver = e :: rest ∧ m = e.bytes.val ∧ TagMatches v.key m := by
  cases move with
  | receive v buffer e rest waits =>
      unfold ReceiverPoint.receive at accepted
      split_ifs at accepted with empty short
      · exact .inl accepted
      · exact .inl accepted
      · rcases List.mem_append.mp accepted with before | now
        · exact .inl before
        · obtain ⟨rfl, equal⟩ := Prod.mk.inj (List.mem_singleton.mp now)
          exact .inr ⟨v, buffer, e, rest, rfl, waits, rfl, of_decide_eq_true equal.symm⟩
  | _ => exact .inl accepted

/-! ## Over symbols -/

section Symbols

/-- The draws of an honest session, by their names. -/
def symbolicDraws (privateKey localKey sessionKey seed : ℕ) : Draws symbolicBotan where
  privateKey := KeyPair.mk .honest privateKey
  localKey := ⟨SymByte.randomKey .honest localKey, SymByte.length_randomKey _ _⟩
  sessionKey := ⟨SymByte.randomKey .honest sessionKey, SymByte.length_randomKey _ _⟩
  seed := seed

/-- What an attacker has of its own: random bytes and key pairs. -/
inductive AttackerOwn : Set (Term symbolicBotan)
  | random (name i : ℕ) : AttackerOwn (.byte (SymByte.random .attacker name i))
  | privateKey (name : ℕ) : AttackerOwn (.privateKey (KeyPair.mk .attacker name))

/-- The data are the payload of a frame that was sent. -/
def Tagged (log : List (Rec ι symbolicBotan)) (key data : List SymByte) : Prop :=
  ∃ i, data = framePayload (B := symbolicBotan) i ∧
    .sent .sendPeriodicMessage ⟨frameBytes (B := symbolicBotan) key i,
      length_frameBytes_le (B := symbolicBotan) key i⟩ ∈ log

variable {cfg : Config} {privateKey localKey sessionKey seed : ℕ} {k : ι}
  (σ : Script (symbolicDraws privateKey localKey sessionKey seed))
  {s : Session ι symbolicBotan}

theorem Script.cipher_eq_ciphertext :
    σ.cipher.val = SymByte.ciphertext (KeyPair.mk .honest privateKey) seed
      (SymByte.randomKey .honest sessionKey) :=
  SymByte.encrypt_eq_ok σ.encrypted

/-- The programs send public terms only. -/
theorem Session.Guarded.known_subset (h : s.Guarded σ AttackerOwn) :
    AttackerOwn ∪ heard s.senderLog s.receiverLog ⊆
      publicTerms (SymByte.randomKey .honest sessionKey)
        (Tagged s.senderLog (SymByte.randomKey .honest sessionKey)) := by
  rintro t (own | ⟨site, m, sent | sent, b, mem, rfl⟩)
  · cases own with
    | random name i => exact .random name i
    | privateKey name => rfl
  · obtain rfl | ⟨i, rfl, here⟩ := h.senderSent site m sent
    · obtain ⟨i, -, rfl⟩ := List.mem_map.mp mem
      exact .publicKey _ i
    · rcases List.mem_append.mp mem with payload | tag
      · rcases List.mem_append.mp payload with pad | counter
        · rw [List.eq_of_mem_replicate pad]
          exact .lit 0xFF
        · rw [List.mem_singleton.mp counter]
          exact .lit _
      · obtain ⟨j, -, rfl⟩ := List.mem_map.mp tag
        exact .tag j fun _ => ⟨i, rfl, here⟩
  · obtain rfl := h.receiverSent site m sent
    rw [σ.cipher_eq_ciphertext] at mem
    obtain ⟨i, -, rfl⟩ := List.mem_map.mp mem
    exact .cipher _ i nofun

/-- What is derived from what was sent is public. -/
theorem Session.Guarded.derives_public (h : s.Guarded σ AttackerOwn)
    {t : Term symbolicBotan} (derived : Derives (AttackRule symbolicBotan)
      (AttackerOwn ∪ heard s.senderLog s.receiverLog) t) :
    t ∈ publicTerms (SymByte.randomKey .honest sessionKey)
      (Tagged s.senderLog (SymByte.randomKey .honest sessionKey)) := by
  refine SecureComm.derives_public ?_ (h.known_subset σ) derived
  exact ⟨_, SymByte.random_mem_randomKey .honest sessionKey, not_publicByte_random _ _⟩

/-- **No forgery**: a derivable message with a matching tag is a frame that was sent, its
payload having been split off where the sender put the tag. -/
theorem Session.Guarded.sent_of_matches (h : s.Guarded σ AttackerOwn)
    {m : List symbolicBotan.Byte}
    (derived : DerivesMessage (AttackerOwn ∪ heard s.senderLog s.receiverLog) m)
    (accepted : TagMatches (SymByte.randomKey .honest sessionKey) m) :
    ∃ i, m = (σ.frame i).val ∧ .sent .sendPeriodicMessage (σ.frame i) ∈ s.senderLog := by
  have split := append_cmac_of_matches accepted
  -- the first byte of the tag says what was tagged
  have first := mem_of_mem_cmac accepted (SymByte.tag_mem_cmac _ (payloadOf m))
  cases h.derives_public σ (derived _ first) with
  | tag _ tagged =>
      obtain ⟨i, payload, sent⟩ := tagged rfl
      rw [payload] at split
      exact ⟨i, split.symm, sent⟩

/-- The receiver has accepted no message but frames the sender has sent. -/
def Session.Authentic (s : Session ι symbolicBotan) : Prop :=
  ∀ m, (m, true) ∈ s.receiver.compared →
    ∃ i, m = (σ.frame i).val ∧ .sent .sendPeriodicMessage (σ.frame i) ∈ s.senderLog

/-- **No run makes the receiver accept anything else**, whatever the attacker does. -/
theorem Session.Reachable.authentic
    (reach : s.Reachable cfg (Policy.attacked ι
      (symbolicDraws privateKey localKey sessionKey seed) AttackerOwn) k) : s.Authentic σ := by
  refine invariant reach (I := Session.Authentic σ) nofun fun s s' reach h step => ?_
  have guarded := Session.Reachable.guarded σ AttackerOwn reach
  cases step with
  | sender step answer =>
      intro m accepted
      obtain ⟨i, frame, sent⟩ := h m accepted
      exact ⟨i, frame, List.mem_append_left _ sent⟩
  | receiver step answer =>
      intro m accepted
      obtain before | ⟨v, buffer, e, rest, point, waits, rfl, tagMatches⟩ :=
        (receiverMove_of_step step answer.flaky).of_compared accepted
      · exact h m before
      · -- the loop compares with the session key
        have key := guarded.agreeing.receiver
        rw [point] at key
        rw [show v.key = SymByte.randomKey .honest sessionKey from key] at tagMatches
        have derived := guarded.waiting e (by rw [waits]; exact List.mem_cons_self)
        exact guarded.sent_of_matches σ derived tagMatches
  | intrude intrudes => exact h

end Symbols

/-! ## One session over the kernel -/

/-- **What no attack achieves.**  Not even one byte of the session key can be derived from
all that was sent, nor the private key; once the keys are exchanged and the sender has
unwrapped the session key, both programs hold it; and what the receiver accepts is, byte
for byte, a frame that the sender sent. -/
structure Secure (d : Draws B) (own : Set (Term B)) (w : SessionsWorld Unit B) : Prop where
  sessionKey : ∀ b ∈ d.sessionKey.val, ¬ Derives (AttackRule B)
    (own ∪ heard (w.log ((), .sender)) (w.log ((), .receiver))) (.byte b)
  privateKey : ¬ Derives (AttackRule B)
    (own ∪ heard (w.log ((), .sender)) (w.log ((), .receiver))) (.privateKey d.privateKey)
  kept : KeysExchanged (w.log ((), .sender)) (w.log ((), .receiver)) →
    ¬ Unwrapping (w.procs ((), .sender)) →
      (w.procs ((), .sender)).mem.symmetricKey = d.sessionKey.val ∧
        (w.procs ((), .receiver)).mem.symmetricKey = d.sessionKey.val
  authentic : ∀ m, (m, true) ∈ comparisons (w.procs ((), .receiver)).mem.observed →
    ∃ i frame, m = frame.val ∧ frame.val = frameBytes d.sessionKey.val i ∧
      .sent .sendPeriodicMessage frame ∈ w.log ((), .sender)

/-- A sender past its handshake holds the session key, or is about to. -/
theorem SenderPoint.key_of_keyed {cfg : Config} {d : Draws B} {σ : Script d}
    {pt : SenderPoint B} {p : Process B} (here : pt.At cfg p) (agrees : pt.Agrees σ)
    (keyed : pt.Keyed) (settled : ¬ Unwrapping p) : p.mem.symmetricKey = d.sessionKey.val := by
  rw [here.symmetricKey]
  cases pt with
  | run v pc =>
      cases pc with
      | rngKey m => exact absurd (here.unwrapping agrees) settled
      | decrypt m => exact absurd (here.unwrapping agrees) settled
      | recvKeyFailed => exact agrees.2.elim
      | _ => first | exact keyed.elim | exact agrees.2
  | _ => exact keyed.elim

/-- A receiver that has tried to send the encrypted key holds the session key. -/
theorem ReceiverPoint.key_of_replied {d : Draws B} {σ : Script d} {pt : ReceiverPoint B}
    (agrees : pt.Agrees σ) (replied : pt.Replied) : pt.key = d.sessionKey.val := by
  cases pt with
  | run v pc => cases pc <;> first | exact replied.elim | exact agrees
  | _ => exact replied.elim

/-- **The periodic phase is secure** against the attacker, in every state reached over any
queues with nothing in them. -/
theorem attacked_session_secure (cfg : Config) (privateKey localKey sessionKey seed : ℕ)
    (κ : Kernel QueueName (Entry Unit symbolicBotan)) (empty : ∀ o, κ.queue o = [])
    (w : SessionsWorld Unit symbolicBotan)
    (reach : (sessions (Policy.attacked Unit
      (symbolicDraws privateKey localKey sessionKey seed) AttackerOwn)).Reachable
        (sessionsStart cfg κ) w) :
    Secure (symbolicDraws privateKey localKey sessionKey seed) AttackerOwn w := by
  obtain ⟨n, chain⟩ := exists_chain reach
  obtain ⟨s, -, h⟩ := exists_tracks (fun _ => Policy.attacked_isolating _ AttackerOwn) empty chain
  obtain ⟨σ⟩ := exists_script symbolicBotan_lawful
    (symbolicDraws privateKey localKey sessionKey seed)
  have guarded := (h.reached ()).guarded σ AttackerOwn
  refine ⟨?_, ?_, ?_, ?_⟩
  · intro b mem derived
    obtain ⟨i, -, rfl⟩ := List.mem_map.mp mem
    rw [h.senderLog, h.receiverLog] at derived
    exact not_publicByte_random _ _ (guarded.derives_public σ derived)
  · intro derived
    rw [h.senderLog, h.receiverLog] at derived
    cases guarded.derives_public σ derived
  · rintro ⟨-, ⟨e, read⟩⟩ settled
    rw [h.senderLog] at read
    have keyed := guarded.keyed ⟨e, read⟩
    have sent := mem_exchanges_sent.mp (guarded.agreeing.answered (.inr keyed))
    refine ⟨SenderPoint.key_of_keyed (h.sender ()) guarded.agreeing.sender keyed settled, ?_⟩
    rw [(h.receiver ()).symmetricKey]
    exact ReceiverPoint.key_of_replied guarded.agreeing.receiver (guarded.replied _ sent)
  · intro m accepted
    rw [(h.receiver ()).comparisons] at accepted
    obtain ⟨i, rfl, sent⟩ := (h.reached ()).authentic σ m accepted
    rw [h.senderLog]
    exact ⟨i, σ.frame i, rfl, rfl, sent⟩

/-- Sixteen random bytes of the attacker's. -/
def forgery : Message symbolicBotan :=
  ⟨SymByte.randomKey .attacker 0, SymByte.length_randomKey .attacker 0 ▸ by decide⟩

theorem forgery_not_matches (key : List symbolicBotan.Byte) : ¬ TagMatches key forgery.val := by
  intro accepted
  have tag := mem_of_mem_cmac accepted (SymByte.tag_mem_cmac key _)
  obtain ⟨i, -, is⟩ := List.mem_map.mp tag
  cases is

theorem receive_forgery (v : ReceiverVars symbolicBotan) (buffer : List symbolicBotan.Byte) :
    ReceiverPoint.receive v buffer forgery =
      .run { v with compared := v.compared ++ [(forgery.val, false)] }
        (.loop (receiveInto buffer forgery)) := by
  have size : forgery.val.length = kSymKeySize := SymByte.length_randomKey .attacker 0
  have rejected := forgery_not_matches v.key
  simp [ReceiverPoint.receive, size, rejected, kSymKeySize, kCmacSize]

theorem forgery_derived (known : Set (Term symbolicBotan)) :
    DerivesMessage (AttackerOwn ∪ known) forgery.val := by
  intro b mem
  obtain ⟨i, -, rfl⟩ := List.mem_map.mp mem
  exact .known (.inl (.random 0 i))

/-- The attacker injects a forgery and replays the first frame: one is rejected, the other
accepted once more. -/
theorem attacked_session_secure_replay :
    ∃ w, Secure (symbolicDraws 0 1 2 3) AttackerOwn w ∧
      KeysExchanged (w.log ((), .sender)) (w.log ((), .receiver)) ∧
      comparisons (w.procs ((), .receiver)).mem.observed =
        [(frameBytes (B := symbolicBotan) (SymByte.randomKey .honest 2) 0, true),
          (forgery.val, false),
          (frameBytes (B := symbolicBotan) (SymByte.randomKey .honest 2) 0, true)] := by
  obtain ⟨σ⟩ := exists_script symbolicBotan_lawful (symbolicDraws 0 1 2 3)
  have honours : (Policy.attacked Unit (symbolicDraws 0 1 2 3) AttackerOwn).Honours
      (symbolicDraws 0 1 2 3) := fun _ _ _ answers => answers
  have turn := alone_may
    (sessionsStart .source (Kernel.empty QueueName (Entry Unit symbolicBotan))).procs
  obtain ⟨buffer, reached⟩ := Stage.Reached.frames
    (P := fun _ => Policy.attacked Unit (symbolicDraws 0 1 2 3) AttackerOwn) (k := ()) (i := 1)
    σ honours (by decide) (fun _ => rfl) (fun _ => rfl) turn
    (Stage.at_start .source (Kernel.empty _ _) ()) (by decide)
  have fresh : 0 < (linked (Kernel.empty QueueName (Entry Unit symbolicBotan))
      Config.source.maxMessages).fresh := by decide
  let x := σ.stage .source () (Kernel.empty QueueName (Entry Unit symbolicBotan)) 1 buffer
  have exchanged : KeysExchanged x.senderLog x.receiverLog := by
    simp [x, KeysExchanged, Script.stage, Script.senderRecs, Script.receiverRecs]
  have sent : .sent .sendPeriodicMessage (σ.frame 0) ∈ x.senderLog := by
    simp [x, Script.stage, Script.senderRecs]
  have derived : ∀ e ∈ [⟨none, forgery⟩, σ.frameEntry () 0],
      DerivesMessage (AttackerOwn ∪ heard x.senderLog x.receiverLog) e.bytes.val := by
    rintro e (_ | ⟨_, _ | ⟨_, ⟨⟩⟩⟩)
    · exact forgery_derived _
    · exact derivesMessage_of_sent (.inl sent)
  have intruded := reached.intrude fresh List.mem_cons_self ⟨exchanged, derived⟩
  have rejected := intruded.receiver turn rfl
    (.mqReceive (e := ⟨none, forgery⟩) ⟨0, [σ.frameEntry () 0], fresh, rfl,
      Kernel.setQueue_queue_self _ _ fresh, rfl⟩)
  simp only [Script.stage, receive_forgery] at rejected
  have replayed := rejected.receiver turn rfl
    (.mqReceive (e := σ.frameEntry () 0) ⟨0, [], fresh, rfl, by simp, rfl⟩)
  simp only [Script.frameEntry] at replayed
  rw [σ.receive_frame _ rfl] at replayed
  obtain ⟨w, reach, here, -⟩ := replayed
  refine ⟨w, attacked_session_secure .source 0 1 2 3 (Kernel.empty _ _) (fun _ => rfl) w reach,
    ?_, ?_⟩
  · rw [here.senderLog, here.receiverLog]
    obtain ⟨⟨e, read⟩, answered⟩ := exchanged
    exact ⟨⟨e, List.mem_append_left _ (List.mem_append_left _ read)⟩, answered⟩
  · rw [here.receiver.comparisons]
    rfl

end Authenticity

end SecureComm
