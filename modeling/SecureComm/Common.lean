import Mathlib.Data.Int.Notation
import Mathlib.Data.Nat.Notation
import SecureComm.Library.Machine

/-!
# What the two programs share

`common.hpp`, the calls both programs make, and the memory they make them from.

A program here is `Code B α`: it calls the POSIX queue functions, the operator's
terminal and Botan through `Op B`, and works on the variables that `main` hands
to its functions by reference (`Mem B`).  Botan itself is the parameter
`B : Botan`.  Every call that can throw or fail is an `Op`, so that a statement
about "whatever the call returns" is a statement about every run; the functions
behind the calls (`B.loadKey`, `B.decrypt`, …) only say which answers the real
library gives, and enter through the environment the programs run in.

The delays (`sleep_for`) leave no trace in the model.
-/

namespace SecureComm

open Interaction

/-! ## common.hpp -/

/-- `kMessageSize`: the `mq_msgsize` of both queues and the size of every receive
buffer. -/
def kMessageSize : ℕ := 1024

/-- `kMaxMessages`: the `mq_maxmsg` of both queues. -/
def kMaxMessages : ℕ := 10

def kBufferSize : ℕ := 20

def kCmacSize : ℕ := 16

/-- `kSymKeySize`, used by both programs and missing from this commit's
`common.hpp`: 16 bytes, the key size of AES-128. -/
def kSymKeySize : ℕ := 16

def kNumMessagesToSend : ℕ := 10

def kOK : ℕ := 0

def kNOT_OK : ℕ := 1

/-- The two numbers of `common.hpp` that the results leave open. -/
structure Config where
  numMessagesToSend : ℕ
  maxMessages : ℕ

/-- The numbers the programs are built with. -/
def Config.source : Config := ⟨kNumMessagesToSend, kMaxMessages⟩

/-- `kSenderToReceiverQueue` and `kReceiverToSenderQueue`. -/
inductive QueueName
  /-- `"/mq_sender_to_receiver"` -/
  | senderToReceiver
  /-- `"/mq_receiver_to_sender"` -/
  | receiverToSender
  deriving DecidableEq

/-- `mq_attr` as both programs fill it in (`mq_flags` is 0). -/
structure MqAttr where
  mqMaxmsg : ℕ
  mqMsgsize : ℕ
  deriving DecidableEq

/-- An `mqd_t`: the queue object it refers to, or `(mqd_t)-1`. -/
abbrev Mqd : Type := Option ℕ

/-- The function of the source that sends or receives. -/
inductive Site
  | sendPublicKey
  | getPublicKey
  | sendSymmetricKey
  | receiveSymmetricKey
  | sendPeriodicMessage
  | receivePeriodicMessages
  deriving DecidableEq

/-! ## Botan -/

/-- What Botan throws. -/
inductive Exn
  | prngUnseeded
  | decodingError
  | streamIoError
  | invalidKeyLength
  | invalidArgument
  deriving DecidableEq

/-- What `X509::load_key` returns: an RSA key, or a key of another algorithm. -/
inductive PublicKey (Pub : Type)
  | rsa (key : Pub)
  | other

/-- The part of Botan the programs use.  Bytes are a parameter as well: for the
programs they are the octets `lit b`, for an attacker who reasons about tags and
keys symbolically there are more of them. -/
structure Botan where
  Byte : Type
  [decEq : DecidableEq Byte]
  lit : UInt8 → Byte
  lit_injective : Function.Injective lit
  /-- `RSA_PrivateKey`, `RSA_PublicKey`, and the coins of an OAEP encryption. -/
  Priv : Type
  Pub : Type
  Seed : Type
  /-- `RSA_PublicKey(private_key)` -/
  publicKey : Priv → Pub
  /-- `Public_Key::subject_public_key` -/
  subjectPublicKey : Pub → List Byte
  /-- `X509::load_key` -/
  loadKey : List Byte → Except Exn (PublicKey Pub)
  /-- `PK_Encryptor_EME(key, rng, "EME1(SHA-256)").encrypt` -/
  encrypt : Pub → Seed → List Byte → Except Exn (List Byte)
  /-- `PK_Decryptor_EME(key, rng, "EME1(SHA-256)").decrypt` -/
  decrypt : Priv → List Byte → Except Exn (List Byte)
  /-- The CMAC of AES-128: key, data. -/
  cmac : List Byte → List Byte → List Byte
  cmac_length : ∀ key data, (cmac key data).length = kCmacSize

attribute [instance] Botan.decEq

/-- A message a queue can deliver: `mq_msgsize` bounds its length. -/
abbrev Message (B : Botan) : Type := {m : List B.Byte // m.length ≤ kMessageSize}

/-- A keyed `MessageAuthenticationCode` object with the data given to `update`
since the last `final`. -/
structure Mac (B : Botan) where
  key : List B.Byte
  pending : List B.Byte

namespace Mac

variable {B : Botan}

def update (mac : Mac B) (data : List B.Byte) : Mac B :=
  { mac with pending := mac.pending ++ data }

/-- The tag, and the object back in its keyed empty state. -/
def final (mac : Mac B) : List B.Byte × Mac B :=
  (B.cmac mac.key mac.pending, { mac with pending := [] })

end Mac

/-! ## Calls -/

/-- A call of either program.  `mqSend` and `mqReceive` name the function that
makes them. -/
inductive Op (B : Botan)
  | mqOpen (name : QueueName) (attr : MqAttr)
  | mqSend (site : Site) (mq : Mqd) (msg : List B.Byte)
  | mqReceive (site : Site) (mq : Mqd)
  | mqClose (mq : Mqd)
  | mqUnlink (name : QueueName)
  | cinGet
  | autoSeededRng
  | rsaPrivateKey (bits : ℕ)
  | randomize (n : ℕ)
  | loadKey (data : List B.Byte)
  | encrypt (key : B.Pub) (plaintext : List B.Byte)
  | decrypt (key : B.Priv) (ciphertext : List B.Byte)
  | setKey (key : List B.Byte)

/-- What a call returns.  `mqSend` says whether it returned 0 rather than -1,
`mqReceive` the bytes it delivered or `none` for -1, a Botan call its value or
the exception it threw. -/
@[reducible] def Op.Resp {B : Botan} : Op B → Type
  | .mqOpen _ _ => Mqd
  | .mqSend _ _ _ => Bool
  | .mqReceive _ _ => Option (Message B)
  | .mqClose _ => Unit
  | .mqUnlink _ => Unit
  | .cinGet => Unit
  | .autoSeededRng => Except Exn Unit
  | .rsaPrivateKey _ => Except Exn B.Priv
  | .randomize n => Except Exn {bytes : List B.Byte // bytes.length = n}
  | .loadKey _ => Except Exn (PublicKey B.Pub)
  | .encrypt _ _ => Except Exn (List B.Byte)
  | .decrypt _ _ => Except Exn (List B.Byte)
  | .setKey _ => Except Exn Unit

/-! ## Memory and observations -/

/-- A line on the terminal. -/
inductive Line (B : Botan)
  | cout (text : String)
  | cerr (text : String)
  | perror (text : String)
  /-- A count between two texts. -/
  | counted (before : String) (n : ℕ) (after : String)
  /-- `print_buffer_hex`, `print_vector_hex`, `print_botan_secure_hex`. -/
  | hex (who : String) (bytes : List B.Byte)
  | sentPeriodic (bytes index : ℕ)
  | privatePem (key : B.Priv)
  | publicPem (key : PublicKey B.Pub)

/-- The statements of `receive_periodic_messages` that read a range. -/
inductive AccessBy
  | tempVec
  | receivedCmac
  | macUpdate
  deriving DecidableEq

/-- A range `[first, last)` read from a vector of `size` bytes. -/
structure Access where
  reader : AccessBy
  first : ℤ
  last : ℤ
  size : ℕ
  deriving DecidableEq

/-- The range lies in the vector. -/
def Access.InRange (a : Access) : Prop :=
  0 ≤ a.first ∧ a.first ≤ a.last ∧ a.last ≤ a.size

instance (a : Access) : Decidable a.InRange :=
  inferInstanceAs (Decidable (_ ∧ _ ∧ _))

/-- What can be observed of a process: its terminal, the ranges it reads, and
the comparisons of `receive_periodic_messages` with their outcome. -/
inductive Obs (B : Botan)
  | printed (line : Line B)
  | accessed (a : Access)
  | compared (message : List B.Byte) (equal : Bool)

/-- The variables of `main` that its functions take by reference, and what has
been observed so far. -/
structure Mem (B : Botan) where
  publicKey : Option (PublicKey B.Pub)
  symmetricKey : List B.Byte
  observed : List (Obs B)

/-- Nothing declared, nothing observed. -/
def Mem.init (B : Botan) : Mem B := ⟨none, [], []⟩

/-- The memory with more observed. -/
def Mem.note {B : Botan} (m : Mem B) (os : List (Obs B)) : Mem B :=
  { m with observed := m.observed ++ os }

section Note

variable {B : Botan} (m : Mem B) (os os' : List (Obs B))

@[simp] theorem Mem.note_observed : (m.note os).observed = m.observed ++ os := rfl

@[simp] theorem Mem.note_nil : m.note [] = m := by simp [note]

@[simp] theorem Mem.note_note : (m.note os).note os' = m.note (os ++ os') := by
  simp [note]

end Note

/-- Undefined behaviour: `*p` on a null pointer, or a range outside its vector. -/
inductive Fault
  | nullPointer
  | outOfRange (a : Access)

/-- A function of either program. -/
abbrev Code (B : Botan) (α : Type) : Type 1 := Prog (Op B) Op.Resp (Mem B) Exn Fault α

/-- A process running either program. -/
abbrev Process (B : Botan) : Type 1 := Proc (Op B) Op.Resp (Mem B) Exn Fault ℕ

section Statements

variable {B : Botan}

def observe (o : Obs B) : Code B Unit := .modify (fun m => m.note [o]) (.ret ())

def print (l : Line B) : Code B Unit := observe (.printed l)

def getSymmetricKey : Code B (List B.Byte) := .read fun m => .ret m.symmetricKey

def setSymmetricKey (key : List B.Byte) : Code B Unit :=
  .modify (fun m => { m with symmetricKey := key }) (.ret ())

def getPublicKeyVar : Code B (Option (PublicKey B.Pub)) := .read fun m => .ret m.publicKey

def setPublicKeyVar (key : Option (PublicKey B.Pub)) : Code B Unit :=
  .modify (fun m => { m with publicKey := key }) (.ret ())

/-- One call, its answer returned. -/
def ask (op : Op B) : Code B op.Resp := Prog.ask op

/-- The value of a Botan call, or its exception on the way out. -/
def orThrow {α : Type} (p : Code B (Except Exn α)) : Code B α :=
  p.bind fun
    | .ok a => .ret a
    | .error e => .throw e

def mqOpen (name : QueueName) (attr : MqAttr) : Code B Mqd := ask (.mqOpen name attr)

def mqSend (site : Site) (mq : Mqd) (msg : List B.Byte) : Code B Bool :=
  ask (.mqSend site mq msg)

def mqReceive (site : Site) (mq : Mqd) : Code B (Option (Message B)) :=
  ask (.mqReceive site mq)

def mqClose (mq : Mqd) : Code B Unit := ask (.mqClose mq)

def mqUnlink (name : QueueName) : Code B Unit := ask (.mqUnlink name)

/-- `std::cin.get()`: the operator presses Enter. -/
def cinGet : Code B Unit := ask .cinGet

def autoSeededRng : Code B Unit := orThrow (ask .autoSeededRng)

def rsaPrivateKey (bits : ℕ) : Code B B.Priv := orThrow (ask (.rsaPrivateKey bits))

def randomize (n : ℕ) : Code B {bytes : List B.Byte // bytes.length = n} :=
  orThrow (ask (.randomize n))

def loadKey (data : List B.Byte) : Code B (PublicKey B.Pub) := orThrow (ask (.loadKey data))

def encrypt (key : B.Pub) (plaintext : List B.Byte) : Code B (List B.Byte) :=
  orThrow (ask (.encrypt key plaintext))

def decrypt (key : B.Priv) (ciphertext : List B.Byte) : Code B (List B.Byte) :=
  orThrow (ask (.decrypt key ciphertext))

/-- `create_or_throw("CMAC(AES-128)")` and `set_key`.  The vendored build has
both algorithms (`BOTAN_HAS_CMAC`, `BOTAN_HAS_AES`), so only `set_key` throws. -/
def keyedMac (key : List B.Byte) : Code B (Mac B) :=
  (orThrow (ask (.setKey key))).bind fun _ => .ret ⟨key, []⟩

section Settle

variable {α : Type} (f : Unit → Code B α) (m : Mem B)

@[simp] theorem settle_observe (o : Obs B) :
    ((observe o).bind f).settle m = (f ()).settle (m.note [o]) := rfl

@[simp] theorem settle_print (l : Line B) :
    ((print l).bind f).settle m = (f ()).settle (m.note [.printed l]) := rfl

@[simp] theorem settle_getSymmetricKey (g : List B.Byte → Code B α) :
    (getSymmetricKey.bind g).settle m = (g m.symmetricKey).settle m := rfl

@[simp] theorem settle_keyedMac (key : List B.Byte) (g : Mac B → Code B α) :
    ((keyedMac key).bind g).settle m =
      ⟨m, .call (.setKey key) fun
        | .ok _ => g ⟨key, []⟩
        | .error e => .throw e⟩ := by
  simp only [keyedMac, orThrow, ask, Prog.ask, Prog.bind_assoc, Prog.call_bind,
    Prog.ret_bind, Prog.settle_call]
  congr 2
  funext r
  cases r <;> rfl

end Settle

/-- What `mq_receive` leaves in its buffer: the message over the old bytes. -/
def receiveInto (buffer : List B.Byte) (m : Message B) : List B.Byte :=
  m.val ++ buffer.drop m.val.length

/-- The first bytes of the buffer, as many as were received, are the message. -/
@[simp] theorem take_receiveInto (buffer : List B.Byte) (m : Message B) :
    (receiveInto buffer m).take m.val.length = m.val := by
  simp [receiveInto]

/-- A receive buffer keeps its size. -/
theorem length_receiveInto {buffer : List B.Byte} (h : buffer.length = kMessageSize)
    (m : Message B) : (receiveInto buffer m).length = kMessageSize := by
  have fits := m.property
  simp only [receiveInto, List.length_append, List.length_drop]
  omega

end Statements

/-! ## Opening the queues

`sender.cpp` and `receiver.cpp` carry these two functions in the same words. -/

section Setup

variable {B : Botan}

/-- Both fill the same attributes in. -/
def queueAttr (cfg : Config) : MqAttr := ⟨cfg.maxMessages, kMessageSize⟩

def setupSenderCommunication (cfg : Config) : Code B (ℕ × Mqd) := do
  let mq ← mqOpen .senderToReceiver (queueAttr cfg)
  match mq with
  | none =>
      print (.perror "mq_open - queue for sending could not open")
      return (kNOT_OK, mq)
  | some _ => return (kOK, mq)

def setupReceiverCommunication (cfg : Config) : Code B (ℕ × Mqd) := do
  let mq ← mqOpen .receiverToSender (queueAttr cfg)
  match mq with
  | none =>
      print (.perror "mq_open - queue for receiving could not open")
      return (kNOT_OK, mq)
  | some _ => return (kOK, mq)

end Setup

end SecureComm
