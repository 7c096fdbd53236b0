import SecureComm.Network

/-!
# What the attacker comes to know

Over the network without a secure channel.  The attacker derives a session key exactly when
some receiver has sent it encrypted for a key pair of the attacker's (`GivenAway`), which is
what a receiver does that was handed the attacker's public key; and it derives no private
key.  What is left of the rest follows: the key a sender works with is one the attacker has,
one that a receiver made, or its own, when its receive failed; and a receiver whose key was
not given away accepts frames of senders that have its key, and nothing else.
-/

namespace SecureComm

open Interaction MessageQueue Deduction

section Exposure

variable {ι : Type} {cfg : Config} {κ₀ : Kernel QueueName (Entry ι symbolicBotan)}
  {log : ι × Role → List (Rec ι symbolicBotan)} {w : SessionsWorld ι symbolicBotan}

/-- A receiver has sent the key, encrypted for the key pair. -/
def Wrapped (log : ι × Role → List (Rec ι symbolicBotan)) (pair : KeyPair) (name : ℕ) : Prop :=
  ∃ j seed c, .sent .sendSymmetricKey c ∈ log (j, .receiver) ∧
    c.val = SymByte.ciphertext pair seed (SymByte.randomKey .honest name)

/-- A receiver has sent the key, encrypted for the attacker. -/
def GivenAway (log : ι × Role → List (Rec ι symbolicBotan)) (name : ℕ) : Prop :=
  ∃ pair : KeyPair, pair.owner = .attacker ∧ Wrapped log pair name

/-- A sender has sent the frame. -/
def FrameSent (log : ι × Role → List (Rec ι symbolicBotan)) (key : List SymByte) (i : ℕ) : Prop :=
  ∃ k m, .sent .sendPeriodicMessage m ∈ log (k, .sender) ∧
    m.val = frameBytes (B := symbolicBotan) key i

/-! ## What was heard -/

/-- A byte of a message that honest programs send. -/
inductive HeardByte (log : ι × Role → List (Rec ι symbolicBotan)) : SymByte → Prop
  | lit (b : UInt8) : HeardByte log (.lit b)
  | publicKey (pair : KeyPair) (i : ℕ) : HeardByte log (.publicKey pair i)
  | tag {key : List SymByte} {i : ℕ} (sent : FrameSent log key i) (j : ℕ) :
      HeardByte log (.tag key (framePayload (B := symbolicBotan) i) j)
  | cipher {pair : KeyPair} {name : ℕ} (wrapped : Wrapped log pair name) (seed j : ℕ) :
      HeardByte log (.cipher pair seed (SymByte.randomKey .honest name) j)

/-- What is heard comes from messages of three kinds. -/
theorem Networked.heard (h : Networked cfg w) {b : SymByte} (heard : .byte b ∈ overheard w.log) :
    HeardByte w.log b := by
  obtain ⟨⟨k, role⟩, site, m, sent, b', mem, is⟩ := heard
  cases is
  cases role with
  | sender =>
      obtain ⟨-, pair, is⟩ | ⟨rfl, key, i, is⟩ := h.senderSent k site m sent
      · rw [is] at mem
        obtain ⟨i, -, rfl⟩ := List.mem_map.mp mem
        exact .publicKey pair i
      · have frame : FrameSent w.log key i := ⟨k, m, sent, is⟩
        rw [is] at mem
        rcases List.mem_append.mp mem with payload | tag
        · rcases List.mem_append.mp payload with pad | counter
          · rw [List.eq_of_mem_replicate pad]
            exact .lit 0xFF
          · rw [List.mem_singleton.mp counter]
            exact .lit _
        · obtain ⟨j, -, rfl⟩ := List.mem_map.mp tag
          exact .tag frame j
  | receiver =>
      obtain ⟨rfl, pair, seed, name, is⟩ := h.receiverSent k site m sent
      have wrapped : Wrapped w.log pair name := ⟨k, seed, m, sent, is⟩
      rw [is] at mem
      obtain ⟨j, -, rfl⟩ := List.mem_map.mp mem
      exact .cipher wrapped seed j

/-- What the attacker has gathered, and the keys that were given away. -/
def analysed (log : ι × Role → List (Rec ι symbolicBotan)) : Set (Term symbolicBotan) :=
  gathered log ∪ {t | ∃ name, GivenAway log name ∧
    t ∈ bytesOf (B := symbolicBotan) (SymByte.randomKey .honest name)}

/-- The private keys among it are the attacker's own. -/
theorem attacker_of_analysed {pair : KeyPair} (mem : .privateKey pair ∈ analysed log) :
    pair.owner = .attacker := by
  obtain (own | ⟨pid, site, m, sent, b, inside, ⟨⟩⟩) | ⟨name, given, b, inside, ⟨⟩⟩ := mem
  cases own with
  | privateKey name => rfl

/-- A byte among it that is not of a random string was heard. -/
theorem Networked.heard_of_analysed (h : Networked cfg w) {b : SymByte}
    (mem : .byte b ∈ analysed w.log) (notRandom : ∀ owner name i, b ≠ .random owner name i) :
    HeardByte w.log b := by
  obtain (own | heard) | ⟨name, given, b', inside, is⟩ := mem
  · cases own with
    | random name i => exact absurd rfl (notRandom _ _ _)
  · exact h.heard heard
  · cases is
    obtain ⟨i, -, rfl⟩ := List.mem_map.mp inside
    exact absurd rfl (notRandom _ _ _)

/-- An honest random byte among it is of a key that was given away. -/
theorem Networked.givenAway_of_analysed (h : Networked cfg w) {name i : ℕ}
    (mem : .byte (.random .honest name i) ∈ analysed w.log) : GivenAway w.log name := by
  obtain (own | heard) | ⟨name', given, b, inside, is⟩ := mem
  · cases own
  · cases h.heard heard
  · cases is
    obtain ⟨j, -, same⟩ := List.mem_map.mp inside
    cases same
    exact given

/-! ## What can be derived -/

/-- Nothing more is to be opened. -/
theorem Networked.opened (h : Networked cfg w) : Opened (analysed w.log) := by
  intro pair seed plaintext i own mem
  cases h.heard_of_analysed mem (fun _ _ _ => nofun) with
  | @cipher pair name wrapped seed j =>
      intro t inside
      exact .inr ⟨name, ⟨pair, attacker_of_analysed own, wrapped⟩, inside⟩

/-- A key that was given away can be derived. -/
theorem derives_of_givenAway {name : ℕ} (given : GivenAway log name) :
    DerivesMessage (B := symbolicBotan) (gathered log) (SymByte.randomKey .honest name) := by
  obtain ⟨⟨owner, number⟩, rfl, j, seed, c, sent, is⟩ := given
  obtain ⟨c', encrypted, -⟩ := SymByte.exists_encrypt ⟨.attacker, number⟩ seed
    (SymByte.length_randomKey .honest name)
  have decrypted : symbolicBotan.decrypt ⟨.attacker, number⟩ c.val =
      .ok (SymByte.randomKey .honest name) := by
    rw [is, ← SymByte.encrypt_eq_ok encrypted]
    exact SymByte.decrypt_encrypt encrypted
  intro b mem
  refine .apply (.decrypt decrypted mem) ?_
  rintro t (rfl | ⟨b', inside, rfl⟩)
  · exact .known (.inl (.privateKey number))
  · exact .known (.inr ⟨_, _, c, sent, b', inside, rfl⟩)

/-- **The attacker's knowledge, taken apart.** -/
theorem Networked.derives_iff (h : Networked cfg w) {t : Term symbolicBotan} :
    Derives (AttackRule symbolicBotan) (gathered w.log) t ↔
      Derives (ComposeRule symbolicBotan) (analysed w.log) t := by
  rw [← derives_iff_composes h.opened]
  constructor
  · exact Derives.mono Set.subset_union_left
  · refine Derives.cut ?_
    rintro p (before | ⟨name, given, b, mem, rfl⟩)
    · exact .known before
    · exact derives_of_givenAway given b mem

/-- No honest private key can be derived. -/
theorem Networked.attacker_of_derives (h : Networked cfg w) {pair : KeyPair}
    (derived : Derives (AttackRule symbolicBotan) (gathered w.log) (.privateKey pair)) :
    pair.owner = .attacker :=
  attacker_of_analysed (privateKey_of_composed (h.derives_iff.mp derived))

/-- **A session key can be derived when it was given away**, and not one byte of it
otherwise. -/
theorem Networked.derives_sessionKey_iff (h : Networked cfg w) {name : ℕ} {b : SymByte}
    (mem : b ∈ SymByte.randomKey .honest name) :
    Derives (AttackRule symbolicBotan) (gathered w.log) (.byte b) ↔ GivenAway w.log name := by
  constructor
  · intro derived
    obtain ⟨i, -, rfl⟩ := List.mem_map.mp mem
    cases composed_of_derives (h.derives_iff.mp derived) with
    | known known => exact h.givenAway_of_analysed known
  · intro given
    exact derives_of_givenAway given b mem

/-- Who can derive a message with a matching tag has the key, or a sender has sent it. -/
theorem Networked.matches_cases (h : Networked cfg w) {key m : List SymByte}
    (derived : DerivesMessage (B := symbolicBotan) (gathered w.log) m)
    (tag : TagMatches (B := symbolicBotan) key m) :
    DerivesMessage (B := symbolicBotan) (gathered w.log) key ∨
      ∃ i, m = frameBytes (B := symbolicBotan) key i ∧ FrameSent w.log key i := by
  have split := append_cmac_of_matches tag
  -- the first byte of the tag was heard, or made with the key
  have first := mem_of_mem_cmac tag (SymByte.tag_mem_cmac _ (payloadOf (B := symbolicBotan) m))
  generalize payload : payloadOf (B := symbolicBotan) m = data at split first
  cases composed_of_derives (h.derives_iff.mp (derived _ first)) with
  | known known =>
      cases h.heard_of_analysed known (fun _ _ _ => nofun) with
      | @tag _ i sent j => exact .inr ⟨i, split.symm, sent⟩
  | tag _ _ all => exact .inl fun b mem => h.derives_iff.mpr (all b mem)

/-- Who can derive a ciphertext has the plaintext, or a receiver has sent it. -/
theorem Networked.ciphertext_cases (h : Networked cfg w) {pair : KeyPair} {seed : ℕ}
    {key : List SymByte} (derived : DerivesMessage (B := symbolicBotan) (gathered w.log)
      (SymByte.ciphertext pair seed key)) :
    DerivesMessage (B := symbolicBotan) (gathered w.log) key ∨
      ∃ name, Wrapped w.log pair name ∧ key = SymByte.randomKey .honest name := by
  obtain ⟨rest, shape⟩ := SymByte.ciphertext_eq_cons pair seed key
  have first := derived (.cipher pair seed key 0) (by rw [shape]; exact List.mem_cons_self)
  cases composed_of_derives (h.derives_iff.mp first) with
  | known known =>
      cases h.heard_of_analysed known (fun _ _ _ => nofun) with
      | cipher wrapped seed j => exact .inr ⟨_, wrapped, rfl⟩
  | cipher _ _ _ all => exact .inl fun b mem => h.derives_iff.mpr (all b mem)

/-- What a sender has unwrapped the attacker has, or a receiver has sent it. -/
theorem Networked.unwrapped_cases (h : Networked cfg w) {key : List SymByte}
    (unwrapped : Unwrapped (gathered w.log) key) :
    DerivesMessage (B := symbolicBotan) (gathered w.log) key ∨ ∃ pair name,
      KeyPair.owner pair = .honest ∧ Wrapped w.log pair name ∧
        key = SymByte.randomKey .honest name := by
  obtain ⟨pair, seed, honest, derived⟩ := unwrapped
  obtain has | ⟨name, wrapped, key⟩ := h.ciphertext_cases derived
  · exact .inl has
  · exact .inr ⟨pair, name, honest, wrapped, key⟩

/-! ## What is left -/

/-- **What is left without the secure channel.**  Private keys are never derived, and session
keys exactly when they were given away.  A sender's frames are made under its key, which is
one that the attacker has, or that a receiver has sent to an honest sender, or the one the
sender has drawn itself, if it has read nothing.  What a receiver accepts is a frame that a
sender has sent under its key, unless that was given away. -/
structure Remaining (w : SessionsWorld ι symbolicBotan) : Prop where
  privateKey : ∀ pair : KeyPair, pair.owner = .honest →
    ¬ Derives (AttackRule symbolicBotan) (gathered w.log) (.privateKey pair)
  sessionKey : ∀ name, ∀ b ∈ SymByte.randomKey .honest name,
    (Derives (AttackRule symbolicBotan) (gathered w.log) (.byte b) ↔ GivenAway w.log name)
  frames : ∀ k m, .sent .sendPeriodicMessage m ∈ w.log (k, .sender) → ∃ key i,
    (w.procs (k, .sender)).mem.symmetricKey = key ∧
      m.val = frameBytes (B := symbolicBotan) key i ∧
        (DerivesMessage (B := symbolicBotan) (gathered w.log) key ∨
          (∃ pair name, KeyPair.owner pair = .honest ∧ Wrapped w.log pair name ∧
            key = SymByte.randomKey .honest name) ∨
          Drawn key ∧ ∀ site e, .read site e ∉ w.log (k, .sender))
  accepted : ∀ j m, (m, true) ∈ comparisons (w.procs (j, .receiver)).mem.observed →
    ∃ name, (w.procs (j, .receiver)).mem.symmetricKey = SymByte.randomKey .honest name ∧
      (GivenAway w.log name ∨ ∃ i,
        m = frameBytes (B := symbolicBotan) (SymByte.randomKey .honest name) i ∧
          FrameSent w.log (SymByte.randomKey .honest name) i)

/-- **That much remains**, in every state reached over any queues with nothing in
them. -/
theorem network_remaining [DecidableEq ι] (empty : ∀ o, κ₀.queue o = [])
    (reach : (network (Policy.network ι) AttackerOwn).Reachable (sessionsStart cfg κ₀) w) :
    Remaining w := by
  have h := networked empty reach
  refine ⟨?_, ?_, ?_, ?_⟩
  · intro pair honest derived
    have attacker := h.attacker_of_derives derived
    rw [honest] at attacker
    cases attacker
  · exact fun name b mem => h.derives_sessionKey_iff mem
  · intro k m sent
    obtain ⟨pt, here, fed⟩ := h.sender k
    obtain ⟨⟨i, frame⟩, unwrapped | own⟩ := fed.of_frame sent
    · exact ⟨pt.key, i, here.symmetricKey, frame,
        (h.unwrapped_cases unwrapped).imp id Or.inl⟩
    · exact ⟨pt.key, i, here.symmetricKey, frame, .inr (.inr own)⟩
  · intro j m accepted
    obtain ⟨pt, here, fed⟩ := h.receiver j
    rw [here.comparisons] at accepted
    obtain ⟨⟨name, key⟩, tag, derived⟩ := fed.checked m accepted
    rw [here.symmetricKey]
    refine ⟨name, key, ?_⟩
    rw [key] at tag
    obtain have_key | ⟨i, frame, sent⟩ := h.matches_cases derived tag
    · have mem := SymByte.random_mem_randomKey .honest name
      exact .inl ((h.derives_sessionKey_iff mem).mp (have_key _ mem))
    · exact .inr ⟨i, frame, sent⟩

/-! ## What a receiver can be made to accept -/

/-- The receiver waits for a message in its loop. -/
def Listening (p : Process symbolicBotan) : Prop :=
  ∃ mq next, p.next = some ⟨.mqReceive .receivePeriodicMessages mq, next⟩

/-- The attacker rewrites a queue, and then the receiver accepts the message. -/
def Acceptable [DecidableEq ι] (w : SessionsWorld ι symbolicBotan) (j : ι)
    (m : Message symbolicBotan) : Prop :=
  ∃ w₁ w₂, (network (Policy.network ι) AttackerOwn).Step w w₁ ∧ w₁.procs = w.procs ∧
    w₁.log = w.log ∧ (network (Policy.network ι) AttackerOwn).Step w₁ w₂ ∧
      comparisons (w₂.procs (j, .receiver)).mem.observed =
        comparisons (w.procs (j, .receiver)).mem.observed ++ [(m.val, true)]

/-- A receiver that waits in its loop has drawn its key. -/
theorem Networked.exists_loop (h : Networked cfg w) {j : ι}
    (listening : Listening (w.procs (j, .receiver))) :
    ∃ v buffer, (ReceiverPoint.run v (.loop buffer)).At cfg (w.procs (j, .receiver)) ∧
      Drawn v.key ∧ v.Checked (gathered w.log) := by
  obtain ⟨pt, here, fed⟩ := h.receiver j
  obtain ⟨mq, next, waiting⟩ := listening
  obtain ⟨next', there⟩ := (receiverMain_bisimulation cfg).waiting_left here waiting
  obtain ⟨site, -⟩ | ⟨-, v, buffer, rfl⟩ := ReceiverPoint.receive_of_next there
  · cases site
  · exact ⟨v, buffer, here, fed.1, fed.2⟩

/-- A payload with its tag matches. -/
theorem matches_append_cmac {B : Botan} (key payload : List B.Byte) :
    TagMatches key (payload ++ B.cmac key payload) := by
  have size : (payload ++ B.cmac key payload).length - kCmacSize = payload.length := by
    rw [List.length_append, B.cmac_length, Nat.add_sub_cancel]
  unfold TagMatches tagOf payloadOf
  rw [size, List.drop_left, List.take_left]

/-- The loop takes a matching message down as accepted. -/
theorem compared_receive_of_matches {B : Botan} {v : ReceiverVars B} {m : Message B}
    (tag : TagMatches v.key m.val) (buffer : List B.Byte) :
    (ReceiverPoint.receive v buffer m).compared = v.compared ++ [(m.val, true)] := by
  have size : kCmacSize ≤ m.val.length := by
    have bound := congrArg List.length (append_cmac_of_matches tag)
    rw [List.length_append, B.cmac_length] at bound
    omega
  have positive : 0 < kCmacSize := by decide
  unfold ReceiverPoint.receive
  rw [if_neg (by omega), if_neg (by omega), ReceiverPoint.compared_run, decide_eq_true tag]

/-- The loop keeps its key. -/
theorem ReceiverMove.key_of_loop {P : Policy ι symbolicBotan} {k : ι}
    {ch ch' : Channels ι symbolicBotan} {recs : List (Rec ι symbolicBotan)}
    {v : ReceiverVars symbolicBotan} {buffer : List SymByte} {pt : ReceiverPoint symbolicBotan}
    (move : ReceiverMove cfg P k ch (.run v (.loop buffer)) pt ch' recs) : pt.key = v.key := by
  cases move with
  | receive _ _ e rest waits =>
      unfold ReceiverPoint.receive
      split_ifs <;> rfl
  | receiveFails _ _ h => rfl

section Acceptance

variable [DecidableEq ι] {j : ι} {m : Message symbolicBotan}

/-- Nothing is accepted without a matching tag, or that the attacker cannot derive. -/
theorem Networked.matches_of_acceptable (h : Networked cfg w)
    (listening : Listening (w.procs (j, .receiver))) (acceptable : Acceptable w j m) :
    TagMatches (w.procs (j, .receiver)).mem.symmetricKey m.val ∧
      DerivesMessage (gathered w.log) m.val := by
  obtain ⟨v, buffer, here, drawn, checked⟩ := h.exists_loop listening
  obtain ⟨w₁, w₂, rewrites, procs, log, step, accepted⟩ := acceptable
  rw [here.comparisons] at accepted
  have moved : w₂.procs (j, .receiver) ≠ w₁.procs (j, .receiver) := by
    intro same
    rw [same, procs, here.comparisons] at accepted
    exact absurd accepted.symm (by simp)
  cases step with
  | @act pid e p env recs may step answer =>
      by_cases mine : (j, Role.receiver) = pid
      · subst mine
        rw [procs] at step
        obtain ⟨pt, next, there⟩ := (receiverMain_bisimulation cfg).step_right here step
        obtain ⟨ch, ch', channels⟩ := answer.exists_channels
        have move := receiverMove_of_step next channels
        have reads : ∀ site e, .read site e ∈ recs → DerivesMessage (gathered w.log) e.bytes.val :=
          fun site e read => log ▸ (h.step rewrites).reads answer read
        obtain ⟨fed, -⟩ := move.fed reads ⟨drawn, checked⟩
        simp only [Function.update_self] at accepted
        have now : (m.val, true) ∈ pt.compared := by
          rw [← there.comparisons, accepted]
          exact List.mem_append_right _ (List.mem_singleton_self _)
        obtain ⟨-, tag, derived⟩ := fed.checked m.val now
        rw [move.key_of_loop] at tag
        rw [here.symmetricKey]
        exact ⟨tag, derived⟩
      · exact absurd (by simp [mine]) moved
  | move rewritten => exact absurd rfl moved

/-- Everything else is, once the attacker has put it where the receiver reads. -/
theorem acceptable_of_matches (empty : ∀ o, κ₀.queue o = [])
    (reach : (network (Policy.network ι) AttackerOwn).Reachable (sessionsStart cfg κ₀) w)
    (listening : Listening (w.procs (j, .receiver)))
    (tag : TagMatches (w.procs (j, .receiver)).mem.symmetricKey m.val)
    (derived : DerivesMessage (gathered w.log) m.val) : Acceptable w j m := by
  obtain ⟨v, buffer, here, -⟩ := (networked empty reach).exists_loop listening
  obtain ⟨next, waiting⟩ := (receiverMain_bisimulation cfg).waiting_right here rfl
  have allocated := allocated_of_receive empty reach waiting
  rw [here.symmetricKey] at tag
  let κ := w.env.setQueue v.sr [⟨none, m⟩] allocated
  have rewrites : (network (Policy.network ι) AttackerOwn).Step w { w with env := κ } := by
    refine .move ⟨v.sr, _, allocated, ?_, rfl⟩
    intro e inside
    rw [List.mem_singleton.mp inside]
    exact derived
  obtain ⟨p, step, there⟩ := (receiverMain_bisimulation cfg).step_left here
    (Machine.Step.intro rfl (some m))
  have reads : (kernelService ι symbolicBotan).receives κ .receivePeriodicMessages (some v.sr)
      ⟨none, m⟩ (κ.setQueue v.sr [] allocated) :=
    ⟨v.sr, [], allocated, rfl, Kernel.setQueue_queue_self _ _ _, rfl⟩
  refine ⟨_, _, rewrites, rfl, rfl,
    .act (j, Role.receiver) ⟨_, _⟩ trivial step (.mqReceive reads), ?_⟩
  simp only [Function.update_self]
  rw [there.comparisons, here.comparisons]
  exact compared_receive_of_matches tag buffer

/-- **A receiver can be made to accept** the frames that some sender has sent under its key,
each as often as the attacker likes, and if its key was given away any payload the attacker
can derive, with its tag; and nothing else. -/
theorem acceptable_iff (empty : ∀ o, κ₀.queue o = [])
    (reach : (network (Policy.network ι) AttackerOwn).Reachable (sessionsStart cfg κ₀) w)
    (listening : Listening (w.procs (j, .receiver))) :
    ∃ name, (w.procs (j, .receiver)).mem.symmetricKey = SymByte.randomKey .honest name ∧
      ∀ m, Acceptable w j m ↔
        (∃ i, m.val = frameBytes (B := symbolicBotan) (SymByte.randomKey .honest name) i ∧
          FrameSent w.log (SymByte.randomKey .honest name) i) ∨
        GivenAway w.log name ∧ ∃ payload : List SymByte,
          m.val = payload ++ SymByte.cmac (SymByte.randomKey .honest name) payload ∧
            DerivesMessage (B := symbolicBotan) (gathered w.log) payload := by
  have h := networked empty reach
  obtain ⟨v, buffer, here, ⟨name, drawn⟩, -⟩ := h.exists_loop listening
  have key : (w.procs (j, .receiver)).mem.symmetricKey = SymByte.randomKey .honest name :=
    here.symmetricKey.trans drawn
  refine ⟨name, key, fun m => ⟨fun acceptable => ?_, ?_⟩⟩
  · obtain ⟨tag, derived⟩ := h.matches_of_acceptable listening acceptable
    rw [key] at tag
    obtain known | frame := h.matches_cases derived tag
    · have mem := SymByte.random_mem_randomKey .honest name
      refine .inr ⟨(h.derives_sessionKey_iff mem).mp (known _ mem), payloadOf m.val,
        (append_cmac_of_matches tag).symm, ?_⟩
      exact fun b inside => derived b (List.mem_of_mem_take inside)
    · exact .inl frame
  · rintro (⟨i, frame, k, m', sent, same⟩ | ⟨given, payload, is, derived⟩)
    · -- a replay: the attacker has heard every byte
      refine acceptable_of_matches empty reach listening ?_ fun b mem => ?_
      · rw [key, frame]
        exact matches_append_cmac _ _
      · rw [frame, ← same] at mem
        exact .known (.inr ⟨_, _, m', sent, b, mem, rfl⟩)
    · -- a forgery: the attacker has the key
      refine acceptable_of_matches empty reach listening ?_ fun b mem => ?_
      · rw [key, is]
        exact matches_append_cmac _ _
      · rw [is] at mem
        rcases List.mem_append.mp mem with inside | inside
        · exact derived b inside
        · refine .apply (.cmac inside) ?_
          rintro t (⟨b', mem', rfl⟩ | ⟨b', mem', rfl⟩)
          · exact derives_of_givenAway given b' mem'
          · exact derived b' mem'

end Acceptance

end Exposure

/-! ## The man in the middle -/

section Middle

/-- A session over the network stands there. -/
def Stage.Networked (x : Stage Unit symbolicBotan) : Prop :=
  ∃ w, (network (Policy.network Unit) AttackerOwn).Reachable
      (sessionsStart .source (Kernel.empty QueueName (Entry Unit symbolicBotan))) w ∧
    x.At .source () w

variable {x : Stage Unit symbolicBotan} {op : Op symbolicBotan} {r : op.Resp}
  {κ : Kernel QueueName (Entry Unit symbolicBotan)} {recs : List (Rec Unit symbolicBotan)}

/-- Where the session gets to by itself, it gets to over the network. -/
theorem Stage.Reached.networked (reached : x.Reached .source (fun _ => Policy.network Unit) ()
    (sessionsStart .source (Kernel.empty QueueName (Entry Unit symbolicBotan)))) :
    x.Networked := by
  obtain ⟨w, reach, here, -⟩ := reached
  refine ⟨w, Relation.ReflTransGen.mono ?_ _ _ reach, here⟩
  rintro w w' (⟨pid, e, may, step, answer⟩ | ⟨k, o, msgs, allocated, opened, intrudes, -⟩)
  · exact .act pid e trivial step answer
  · exact intrudes.elim

theorem Stage.Networked.sender {next : op.Resp → SenderPoint symbolicBotan} (h : x.Networked)
    (waiting : x.sender.next .source = some ⟨op, next⟩)
    (answer : Answered (kernelService Unit symbolicBotan) (Policy.network Unit) () .sender x.env op
      r κ recs) :
    Stage.Networked ⟨κ, next r, x.receiver, x.senderLog ++ recs, x.receiverLog⟩ := by
  obtain ⟨w, reach, here⟩ := h
  rw [← here.env] at answer
  obtain ⟨p, step, there⟩ := (senderMain_bisimulation .source).step_left here.sender
    (Machine.Step.intro waiting r)
  exact ⟨_, reach.tail (.act ((), Role.sender) ⟨op, r⟩ trivial step answer), rfl,
    by simpa using there, by simpa using here.receiver, by simp [here.senderLog],
    by simp [here.receiverLog]⟩

theorem Stage.Networked.receiver {next : op.Resp → ReceiverPoint symbolicBotan} (h : x.Networked)
    (waiting : x.receiver.next .source = some ⟨op, next⟩)
    (answer : Answered (kernelService Unit symbolicBotan) (Policy.network Unit) () .receiver x.env
      op r κ recs) :
    Stage.Networked ⟨κ, x.sender, next r, x.senderLog, x.receiverLog ++ recs⟩ := by
  obtain ⟨w, reach, here⟩ := h
  rw [← here.env] at answer
  obtain ⟨p, step, there⟩ := (receiverMain_bisimulation .source).step_left here.receiver
    (Machine.Step.intro waiting r)
  exact ⟨_, reach.tail (.act ((), Role.receiver) ⟨op, r⟩ trivial step answer), rfl,
    by simpa using here.sender, by simpa using there, by simp [here.senderLog],
    by simp [here.receiverLog]⟩

/-- What the two programs of a stage have on record. -/
def Stage.log (x : Stage Unit symbolicBotan) : Unit × Role → List (Rec Unit symbolicBotan)
  | (_, .sender) => x.senderLog
  | (_, .receiver) => x.receiverLog

theorem Stage.At.log {w : SessionsWorld Unit symbolicBotan} (here : x.At .source () w) :
    w.log = x.log := by
  funext ⟨k, role⟩
  cases role with
  | sender => exact here.senderLog
  | receiver => exact here.receiverLog

/-- The attacker has a queue hold one message of its own. -/
theorem Stage.Networked.rewrite (h : x.Networked) {o : ℕ} (allocated : o < x.env.fresh)
    {m : Message symbolicBotan} (derived : DerivesMessage (gathered x.log) m.val) :
    Stage.Networked { x with env := x.env.setQueue o [⟨none, m⟩] allocated } := by
  obtain ⟨w, reach, here⟩ := h
  obtain ⟨env, sp, rp, sl, rl⟩ := x
  rw [← here.log] at derived
  obtain ⟨rfl, sender, receiver, senderLog, receiverLog⟩ := here
  refine ⟨_, reach.tail (.move ⟨o, _, allocated, ?_, rfl⟩), rfl, sender, receiver, senderLog,
    receiverLog⟩
  intro e inside
  rw [List.mem_singleton.mp inside]
  exact derived

/-- The attacker's key pair. -/
def attackerPair : KeyPair := ⟨.attacker, 0⟩

theorem SymByte.length_ciphertext (pair : KeyPair) (seed : ℕ) (plaintext : List SymByte) :
    (ciphertext pair seed plaintext).length = 256 := by
  rw [ciphertext, List.length_map, List.length_range]

/-- The receiver's key in the run below, encrypted for somebody. -/
def rewrapped (pair : KeyPair) : Message symbolicBotan :=
  ⟨SymByte.ciphertext pair 3 (SymByte.randomKey .honest 2),
    (SymByte.length_ciphertext _ _ _).trans_le (by decide)⟩

theorem encrypt_rewrapped (pair : KeyPair) :
    SymByte.encrypt pair 3 (SymByte.randomKey .honest 2) = .ok (rewrapped pair).val :=
  if_pos (by rw [SymByte.length_randomKey]; decide)

/-- The attacker's public key as a message. -/
def attackerKey : Message symbolicBotan :=
  ⟨SymByte.encoded attackerPair, SymByte.length_encoded_le _⟩

theorem givenAway_of_sent {x : Stage Unit symbolicBotan}
    (sent : .sent .sendSymmetricKey (rewrapped attackerPair) ∈ x.receiverLog) :
    GivenAway x.log 2 := ⟨attackerPair, rfl, (), 3, _, sent, rfl⟩

/-- The attacker takes the key out, and wraps it for whom it likes. -/
theorem derivesMessage_rewrapped {x : Stage Unit symbolicBotan} (pair : KeyPair)
    (sent : .sent .sendSymmetricKey (rewrapped attackerPair) ∈ x.receiverLog) :
    DerivesMessage (gathered x.log) (rewrapped pair).val := by
  have encrypted : symbolicBotan.encrypt pair (3 : ℕ) (SymByte.randomKey .honest 2) =
    .ok (rewrapped pair).val := encrypt_rewrapped pair
  intro b mem
  refine .apply (.encrypt encrypted mem) ?_
  rintro t ⟨b', inside, rfl⟩
  exact derives_of_givenAway (givenAway_of_sent sent) b' inside

/-- Both programs of the run below have the receiver's key. -/
noncomputable def middleStage (κ : Kernel QueueName (Entry Unit symbolicBotan))
    (buffer : List SymByte) (senderLog receiverLog : List (Rec Unit symbolicBotan)) :
    Stage Unit symbolicBotan where
  env := κ
  sender := .run ⟨0, 1, KeyPair.mk .honest 0, SymByte.randomKey .honest 2⟩ (.frame 1 8)
  receiver := .run ⟨0, 1, some (.rsa attackerPair), SymByte.randomKey .honest 2,
    [(frameBytes (B := symbolicBotan) (SymByte.randomKey .honest 2) 0, true)]⟩ (.loop buffer)
  senderLog := senderLog
  receiverLog := receiverLog

/-- The sender of an honest session waits for the key. -/
theorem Script.keySent_networked (σ : Script (symbolicDraws 0 1 2 3)) :
    (σ.keySentStage .source () (Kernel.empty QueueName (Entry Unit symbolicBotan))).Networked := by
  have turn := alone_may
    (sessionsStart .source (Kernel.empty QueueName (Entry Unit symbolicBotan))).procs
  exact (Stage.Reached.keySent (P := fun _ => Policy.network Unit) σ
    (Policy.network_honours Unit 0 1 2 3) (by decide) (fun _ => rfl) (fun _ => rfl) turn
    (Stage.at_start .source (Kernel.empty _ _) ())).networked

/-- **A man in the middle**: the attacker puts its own public key in the place of the
sender's, takes the session key from the answer, and passes it on encrypted for the sender,
whose first frame the receiver accepts. -/
theorem exists_middle : ∃ κ buffer senderLog receiverLog,
    (middleStage κ buffer senderLog receiverLog).Networked ∧
      .sent .sendSymmetricKey (rewrapped attackerPair) ∈ receiverLog := by
  obtain ⟨σ⟩ := exists_script symbolicBotan_lawful (symbolicDraws 0 1 2 3)
  have honours := Policy.network_honours Unit 0 1 2 3
  have size := SymByte.length_randomKey .honest 2
  have room : (0 : ℕ) < 10 := by decide
  have swapped := σ.keySent_networked.rewrite (o := 0) (m := attackerKey) Nat.zero_lt_two
    (fun b mem => .apply (.subjectPublicKey mem) nofun)
  -- the receiver takes the attacker's key for the sender's
  have bound := linked_names (Kernel.empty QueueName (Entry Unit symbolicBotan))
    Config.source.maxMessages
  have r₁ := swapped.receiver rfl (.mqOpen (Kernel.mqOpen_of_bound _ (bound .receiverToSender)))
  have r₂ := r₁.receiver rfl (.mqOpen (Kernel.mqOpen_of_bound _ (bound .senderToReceiver)))
  have r₃ := r₂.receiver rfl (.mqReceive (e := ⟨none, attackerKey⟩)
    ⟨0, [], Nat.zero_lt_two, rfl, rfl, rfl⟩)
  have r₄ := r₃.receiver rfl (.botan rfl (honours.loadKey .receiver
    (SymByte.decoded_encoded attackerPair)))
  have r₅ := r₄.receiver rfl (.botan rfl (honours.autoSeededRng .receiver))
  have r₆ := r₅.receiver rfl (.botan rfl (honours.sessionKey size))
  have r₇ := r₆.receiver rfl (.botan rfl (honours.encrypt .receiver
    (encrypt_rewrapped attackerPair)))
  have r₈ := r₇.receiver rfl (.mqSend (rewrapped attackerPair).property
    ⟨1, Nat.one_lt_two, rfl, room, rfl⟩)
  -- the attacker takes the session key out, and wraps it for the sender
  have passed := r₈.rewrite (o := 1) (m := rewrapped ⟨.honest, 0⟩) Nat.one_lt_two
    (derivesMessage_rewrapped _ (List.mem_append_right _ (List.mem_singleton_self _)))
  have s₁ := passed.sender rfl (.mqReceive (e := ⟨none, rewrapped ⟨.honest, 0⟩⟩)
    ⟨1, [], Nat.one_lt_two, rfl, rfl, rfl⟩)
  have s₂ := s₁.sender rfl (.botan rfl (honours.autoSeededRng .sender))
  have s₃ := s₂.sender rfl (.botan rfl (honours.decrypt .sender
    (SymByte.decrypt_encrypt (encrypt_rewrapped ⟨.honest, 0⟩))))
  have s₄ := s₃.sender rfl (.botan rfl (honours.setKey .sender size))
  have s₅ := s₄.sender rfl (.mqSend (length_frameBytes_le _ 0)
    ⟨0, Nat.zero_lt_two, rfl, room, rfl⟩)
  -- its first frame goes through
  have r₉ := s₅.receiver rfl (.botan rfl (honours.setKey .receiver size))
  have accepted := r₉.receiver rfl (.mqReceive (e := σ.frameEntry () 0)
    ⟨0, [], Nat.zero_lt_two, rfl, rfl, rfl⟩)
  simp only [Script.frameEntry] at accepted
  rw [σ.receive_frame _ rfl] at accepted
  exact ⟨_, _, _, _, accepted, List.mem_append_left _ (List.mem_append_left _
    (List.mem_append_right _ (List.mem_singleton_self _)))⟩

/-- What is left when the man in the middle has been at work: both programs have the key that
was given away, and nothing was rejected. -/
theorem network_remaining_middle : ∃ w : SessionsWorld Unit symbolicBotan, Remaining w ∧
    GivenAway w.log 2 ∧
    (w.procs ((), .sender)).mem.symmetricKey = SymByte.randomKey .honest 2 ∧
    (w.procs ((), .receiver)).mem.symmetricKey = SymByte.randomKey .honest 2 ∧
    comparisons (w.procs ((), .receiver)).mem.observed =
      [(frameBytes (B := symbolicBotan) (SymByte.randomKey .honest 2) 0, true)] := by
  obtain ⟨κ, buffer, senderLog, receiverLog, ⟨w, reach, here⟩, sent⟩ := exists_middle
  refine ⟨w, network_remaining (fun _ => rfl) reach, ?_, here.sender.symmetricKey,
    here.receiver.symmetricKey, here.receiver.comparisons⟩
  rw [here.log]
  exact givenAway_of_sent sent

theorem SymByte.randomKey_injective {owner : Owner} {name name' : ℕ}
    (same : randomKey owner name = randomKey owner name') : name = name' := by
  have mem := random_mem_randomKey owner name
  rw [same] at mem
  obtain ⟨i, -, is⟩ := List.mem_map.mp mem
  cases is
  rfl

/-- The man in the middle forges: sixteen bytes of its own, with their tag, would be accepted
next. -/
theorem acceptable_iff_middle : ∃ (w : SessionsWorld Unit symbolicBotan)
    (m : Message symbolicBotan), Acceptable w () m ∧ m.val = SymByte.randomKey .attacker 0 ++
      SymByte.cmac (SymByte.randomKey .honest 2) (SymByte.randomKey .attacker 0) := by
  obtain ⟨κ, buffer, senderLog, receiverLog, ⟨w, reach, here⟩, sent⟩ := exists_middle
  have listening : Listening (w.procs ((), .receiver)) := by
    obtain ⟨next, waiting⟩ := (receiverMain_bisimulation .source).waiting_right here.receiver rfl
    exact ⟨_, _, waiting⟩
  obtain ⟨name, key, iff⟩ := acceptable_iff (fun _ => rfl) reach listening
  obtain rfl := SymByte.randomKey_injective (here.receiver.symmetricKey.symm.trans key)
  let payload := SymByte.randomKey .attacker 0
  have tag : (SymByte.cmac (SymByte.randomKey .honest 2) payload).length = kCmacSize :=
    symbolicBotan.cmac_length _ _
  have size : (payload ++ SymByte.cmac (SymByte.randomKey .honest 2) payload).length ≤
      kMessageSize := by
    rw [List.length_append, SymByte.length_randomKey, tag]
    decide
  refine ⟨w, ⟨_, size⟩, (iff _).mpr (.inr ⟨?_, payload, rfl, forgery_derived _⟩), rfl⟩
  rw [here.log]
  exact givenAway_of_sent sent

end Middle

end SecureComm
