import SecureComm.BotanLaws
import SecureComm.ReceiverPoints
import SecureComm.SenderPoints

/-!
# Installing a received key

`get_public_key` and `receive_symmetric_key` each hand a key to `main` through a
reference.  Both are looked at here from any value of that variable and with any
result of `mq_receive`: when is the key installed as a whole or not at all?
-/

namespace SecureComm

open Interaction

section KeyInstallation

variable {B : Botan}

/-- The end of a call that installs a key in a variable of its caller: with `kOK` the
key there is as it should be, and otherwise the variable is as it was. -/
structure WholeOrUntouched {α : Type} (output : Mem B → α) (usable : α → Prop)
    (before : Mem B) (p : Process B) : Prop where
  whole : p.prog = .ret kOK → usable (output p.mem)
  untouched : p.prog ≠ .ret kOK → output p.mem = output before

/-- Whatever the variable holds before, every call ends so. -/
def AllOrNothing {α : Type} (start : Mem B → Process B)
    (allowed : Event (Op B) Op.Resp → Prop) (output : Mem B → α) (usable : α → Prop) :
    Prop :=
  ∀ mem, Machine.Ends Proc.next allowed (start mem) (WholeOrUntouched output usable mem)

/-- `mq_receive` returns this, and Botan decodes and decrypts. -/
def AnswersTo (r : Option (Message B)) : Event (Op B) Op.Resp → Prop
  | ⟨.mqReceive _ _, delivered⟩ => delivered = r
  | ⟨.loadKey data, key⟩ => key = B.loadKey data
  | ⟨.decrypt privateKey ciphertext, plaintext⟩ =>
      plaintext = B.decrypt privateKey ciphertext
  | _ => True

/-- A call of `get_public_key` from `main`'s variables. -/
def startGetPublicKey (mq : Mqd) (mem : Mem B) : Process B := (getPublicKey mq).settle mem

/-- A call of `receive_symmetric_key` from `main`'s variables. -/
def startReceiveSymmetricKey (mq : Mqd) (privateKey : B.Priv) (mem : Mem B) : Process B :=
  (receiveSymmetricKey mq privateKey).settle mem

/-- `get_public_key` installs the RSA key that the received bytes encode, or nothing. -/
def InstallsPublicKey (mq : Mqd) (r : Option (Message B)) : Prop :=
  AllOrNothing (startGetPublicKey mq) (AnswersTo r) Mem.publicKey fun installed =>
    ∃ m key, r = some m ∧ B.loadKey m.val = .ok (.rsa key) ∧ installed = some (.rsa key)

/-- `receive_symmetric_key` installs the plaintext of the received bytes, which is a key
`set_key` takes, or nothing. -/
def InstallsSymmetricKey (mq : Mqd) (privateKey : B.Priv) (r : Option (Message B)) : Prop :=
  AllOrNothing (startReceiveSymmetricKey mq privateKey) (AnswersTo r) Mem.symmetricKey
    fun installed => ∃ m, r = some m ∧ B.decrypt privateKey m.val = .ok installed ∧
      installed.length = kSymKeySize

section Ends

variable {α : Type} {output : Mem B → α} {usable : α → Prop} {before : Mem B} {m : Mem B}

/-- A call that fails has to leave the variable alone. -/
theorem wholeOrUntouched_of_fails (same : output m = output before) :
    WholeOrUntouched output usable before ⟨m, .ret kNOT_OK⟩ :=
  ⟨nofun, fun _ => same⟩

/-- So has one that throws. -/
theorem wholeOrUntouched_of_throws {e : Exn} (same : output m = output before) :
    WholeOrUntouched output usable before ⟨m, .throw e⟩ :=
  ⟨nofun, fun _ => same⟩

/-- One that succeeds has to leave a usable key there. -/
theorem wholeOrUntouched_of_ok (right : usable (output m)) :
    WholeOrUntouched output usable before ⟨m, .ret kOK⟩ :=
  ⟨fun _ => right, fun failed => absurd rfl failed⟩

end Ends

section PublicKey

variable {mq : Mqd}

/-- A failed `mq_receive` installs nothing. -/
theorem installsPublicKey_none : InstallsPublicKey (B := B) mq none := by
  intro mem
  rw [startGetPublicKey, getPublicKey_eq]
  refine Machine.ends_of_waiting rfl ?_
  rintro r rfl
  exact Machine.ends_of_ended rfl (wholeOrUntouched_of_fails rfl)

/-- Received bytes install an RSA key or nothing, unless they encode another key. -/
theorem installsPublicKey_some {m : Message B} (rsa : B.loadKey m.val ≠ .ok .other) :
    InstallsPublicKey mq (some m) := by
  intro mem
  rw [startGetPublicKey, getPublicKey_eq]
  refine Machine.ends_of_waiting rfl ?_
  rintro r rfl
  refine Machine.ends_of_waiting rfl ?_
  intro answer decoded
  cases answer with
  | error e => exact Machine.ends_of_ended rfl (wholeOrUntouched_of_throws rfl)
  | ok key =>
      cases key with
      -- the branch in which the check comes after the assignment
      | other => exact absurd decoded.symm rsa
      | rsa key =>
          refine Machine.ends_of_ended rfl (wholeOrUntouched_of_ok ?_)
          exact ⟨m, key, rfl, decoded.symm, rfl⟩

/-- A key of another algorithm stays in the variable although the call fails. -/
theorem not_installsPublicKey_of_other {m : Message B} (other : B.loadKey m.val = .ok .other) :
    ¬ InstallsPublicKey mq (some m) := by
  intro installs
  have start := installs (Mem.init B)
  rw [startGetPublicKey, getPublicKey_eq] at start
  have receives : AnswersTo (some m) ⟨.mqReceive .getPublicKey mq, some m⟩ := rfl
  have decodes : AnswersTo (some m) ⟨.loadKey m.val, .ok .other⟩ := other.symm
  have loading := start.step receives ⟨_, rfl, rfl⟩
  have loaded := loading.step decodes ⟨_, rfl, rfl⟩
  -- the variable was empty before the call and is not now
  have kept := (loaded.done rfl).untouched nofun
  cases kept

/-- **`get_public_key` is all or nothing exactly on what is not a key of another
algorithm.** -/
theorem installsPublicKey_iff (mq : Mqd) (r : Option (Message B)) :
    InstallsPublicKey mq r ↔ ∀ m, r = some m → B.loadKey m.val ≠ .ok .other := by
  constructor
  · rintro installs m rfl other
    exact not_installsPublicKey_of_other other installs
  · intro rsa
    cases r with
    | none => exact installsPublicKey_none
    | some m => exact installsPublicKey_some (rsa m rfl)

end PublicKey

section SymmetricKey

variable {mq : Mqd} {privateKey : B.Priv}

/-- A failed `mq_receive` installs nothing. -/
theorem installsSymmetricKey_none : InstallsSymmetricKey mq privateKey none := by
  intro mem
  rw [startReceiveSymmetricKey, receiveSymmetricKey_eq]
  refine Machine.ends_of_waiting rfl ?_
  rintro r rfl
  refine Machine.ends_of_waiting rfl ?_
  intro _ _
  exact Machine.ends_of_ended rfl (wholeOrUntouched_of_fails rfl)

/-- Received bytes install their plaintext or nothing, unless that has another
length. -/
theorem installsSymmetricKey_some {m : Message B}
    (sized : ∀ key, B.decrypt privateKey m.val = .ok key → key.length = kSymKeySize) :
    InstallsSymmetricKey mq privateKey (some m) := by
  intro mem
  rw [startReceiveSymmetricKey, receiveSymmetricKey_eq]
  refine Machine.ends_of_waiting rfl ?_
  rintro r rfl
  refine Machine.ends_of_waiting rfl ?_
  intro seeded _
  cases seeded with
  | error e => exact Machine.ends_of_ended rfl (wholeOrUntouched_of_throws rfl)
  | ok _ =>
      -- what `decrypt` returns is assigned as it is
      refine Machine.ends_of_waiting rfl ?_
      intro plaintext decrypted
      cases plaintext with
      | error e => exact Machine.ends_of_ended rfl (wholeOrUntouched_of_throws rfl)
      | ok key =>
          refine Machine.ends_of_ended rfl (wholeOrUntouched_of_ok ?_)
          exact ⟨m, rfl, decrypted.symm, sized key decrypted.symm⟩

/-- A plaintext of another length is reported as a key. -/
theorem not_installsSymmetricKey_of_length {m : Message B} {key : List B.Byte}
    (plaintext : B.decrypt privateKey m.val = .ok key) (size : key.length ≠ kSymKeySize) :
    ¬ InstallsSymmetricKey mq privateKey (some m) := by
  intro installs
  have start := installs (Mem.init B)
  rw [startReceiveSymmetricKey, receiveSymmetricKey_eq] at start
  have receives : AnswersTo (some m) ⟨.mqReceive .receiveSymmetricKey mq, some m⟩ := rfl
  have seeds : AnswersTo (some m) ⟨.autoSeededRng, .ok ()⟩ := trivial
  have decrypts : AnswersTo (some m) ⟨.decrypt privateKey m.val, .ok key⟩ := plaintext.symm
  have seeding := start.step receives ⟨_, rfl, rfl⟩
  have decrypting := seeding.step seeds ⟨_, rfl, rfl⟩
  have decrypted := decrypting.step decrypts ⟨_, rfl, rfl⟩
  obtain ⟨m', -, -, right⟩ := (decrypted.done rfl).whole rfl
  exact size right

/-- **`receive_symmetric_key` is all or nothing exactly on what does not decrypt to
another length.** -/
theorem installsSymmetricKey_iff (mq : Mqd) (privateKey : B.Priv)
    (r : Option (Message B)) :
    InstallsSymmetricKey mq privateKey r ↔ ∀ m key, r = some m →
      B.decrypt privateKey m.val = .ok key → key.length = kSymKeySize := by
  constructor
  · rintro installs m key rfl plaintext
    by_contra size
    exact not_installsSymmetricKey_of_length plaintext size installs
  · intro sized
    cases r with
    | none => exact installsSymmetricKey_none
    | some m => exact installsSymmetricKey_some fun key plaintext => sized m key rfl plaintext

end SymmetricKey

/-- **A key is installed as a whole or not at all, exactly when the received bytes
encode no key of another algorithm and decrypt to no key of another length.** -/
theorem keyInstallation_iff (mq : Mqd) (privateKey : B.Priv) (r : Option (Message B)) :
    (InstallsPublicKey mq r ↔ ∀ m, r = some m → B.loadKey m.val ≠ .ok .other) ∧
      (InstallsSymmetricKey mq privateKey r ↔ ∀ m key, r = some m →
        B.decrypt privateKey m.val = .ok key → key.length = kSymKeySize) :=
  ⟨installsPublicKey_iff mq r, installsSymmetricKey_iff mq privateKey r⟩

/-! ## Two messages -/

/-- An Ed25519 key as `SubjectPublicKeyInfo`. -/
def edwardsKey : List UInt8 :=
  [0x30, 0x2a, 0x30, 0x05, 0x06, 0x03, 0x2b, 0x65, 0x70, 0x03, 0x21, 0x00, 0xd7, 0x5a,
    0x98, 0x01, 0x82, 0xb1, 0x0a, 0xb7, 0xd5, 0x4b, 0xfe, 0xd3, 0xc9, 0x64, 0x07, 0x3a,
    0x0e, 0xe1, 0x72, 0xf3, 0xda, 0xa6, 0x23, 0x25, 0xaf, 0x02, 0x1a, 0x68, 0xf7, 0x07,
    0x51, 0x1a]

/-- `X509::load_key` on RSA keys and on this one. -/
def edwardsLoadKey (der : List UInt8) : Except Exn (PublicKey Sample.Modulus) :=
  if der = edwardsKey then .ok .other else Sample.loadKey der

/-- The sample, decoding one key more. -/
def edwardsBotan : Botan := { sampleBotan with loadKey := edwardsLoadKey }

def edwardsMessage : Message edwardsBotan := ⟨edwardsKey, by decide⟩

/-- One byte encrypted for the sample key pair. -/
def shortCiphertext : List UInt8 := 0 :: 1 :: ([0x2a] ++ List.replicate 253 0xab)

theorem encrypt_short : Sample.encrypt Sample.modulus 0 [0x2a] = .ok shortCiphertext := by
  rw [Sample.encrypt_of_le (by decide)]
  simp only [Sample.modulus, List.drop_replicate]
  rfl

theorem length_shortCiphertext : shortCiphertext.length ≤ kMessageSize := by
  simp only [shortCiphertext, List.length_cons, List.length_append, List.length_replicate,
    List.length_nil, kMessageSize]
  omega

def shortMessage : Message sampleBotan := ⟨shortCiphertext, length_shortCiphertext⟩

theorem decrypt_shortMessage :
    sampleBotan.decrypt samplePrivateKey shortMessage.val = .ok [(0x2a : UInt8)] :=
  sampleBotan_lawful.decrypt_encrypt samplePrivateKey (0 : UInt8) [(0x2a : UInt8)]
    shortMessage.val encrypt_short

/-- **Both functions break the rule**: the Ed25519 key is installed by a call that
fails, and the single byte by a call that reports a key. -/
theorem not_installs_edwards_short :
    ¬ InstallsPublicKey (some 1) (some edwardsMessage) ∧
      ¬ InstallsSymmetricKey (some 1) samplePrivateKey (some shortMessage) := by
  have other : edwardsLoadKey edwardsKey = .ok .other := if_pos rfl
  constructor
  · exact not_installsPublicKey_of_other other
  · exact not_installsSymmetricKey_of_length decrypt_shortMessage (by decide)

end KeyInstallation

end SecureComm
