import Mathlib.Algebra.Group.Int.Defs
import Mathlib.Algebra.Group.Nat.Defs
import SecureComm.Common

/-!
# receiver.cpp

The receiver's functions, statement by statement.  `public_key` and
`symmetric_key` are the variables of `main` its functions take by reference.

Ranges of vectors are read through `vectorRange`, which is undefined where the
C++ expression is: nothing in the source checks them.
-/

namespace SecureComm

open Interaction

section Receiver

variable {B : Botan}

/-- `get_public_key` once a message has been read. -/
def publicKeyReceived (ds : List B.Byte) : Code B ℕ := do
  let key ← loadKey ds
  setPublicKeyVar (some key)
  -- Ensure it is RSA
  match key with
  | .other =>
      print (.cerr "[Receiver] Received key is not an RSA public key\n")
      return kNOT_OK
  | .rsa _ =>
      print (.cout "[Receiver] Received RSA Public Key in PEM format\n")
      print (.publicPem key)
      return kOK

def getPublicKey (mq : Mqd) : Code B ℕ := do
  let pubKeyBuffer := List.replicate kMessageSize (B.lit 0)
  let received ← mqReceive .getPublicKey mq
  match received with
  | none =>
      print (.perror "mq_receive")
      return kNOT_OK
  | some m =>
      let ds := (receiveInto pubKeyBuffer m).take m.val.length
      print (.counted "[Receiver] Received public key (" m.val.length " bytes)\n")
      print (.cout "[Receiver] The received public key raw data \n")
      print (.hex "[Receiver]" ds)
      publicKeyReceived ds

/-- `send_symmetric_key` once the key is encrypted, -/
def keyEncrypted (mq : Mqd) (encryptedKey : List B.Byte) : Code B ℕ := do
  let sent ← mqSend .sendSymmetricKey mq encryptedKey
  match sent with
  | false =>
      print (.perror "mq_send")
      return kNOT_OK
  | true =>
      print (.counted "[Receiver] Sent encrypted symmetric key (" encryptedKey.length
        " bytes)\n")
      return kOK

/-- once the key is drawn, -/
def keyDrawn (mq : Mqd) (symmetricKey : List B.Byte) :
    Option (PublicKey B.Pub) → Code B ℕ
  -- `dynamic_cast` gives null for a missing key and for a key of another algorithm,
  -- and the result is dereferenced unchecked
  | none => .undef .nullPointer
  | some .other => .undef .nullPointer
  | some (.rsa rsa) => do
      let encryptedKey ← encrypt rsa symmetricKey
      print (.cout "[Receiver] Encrypted symmetric key with RSA public key\n")
      print (.hex "[Receiver]" encryptedKey)
      keyEncrypted mq encryptedKey

/-- and once the generator is seeded. -/
def rngSeeded (mq : Mqd) : Code B ℕ := do
  let symmetricKey ← randomize (← getSymmetricKey).length
  setSymmetricKey symmetricKey.val
  print (.cout "[Receiver] Derived symmetric key\n")
  print (.hex "[Receiver]" symmetricKey.val)
  keyDrawn mq symmetricKey.val (← getPublicKeyVar)

def sendSymmetricKey (mq : Mqd) : Code B ℕ := do
  autoSeededRng
  rngSeeded mq

/-! ### receive_periodic_messages -/

/-- The value of `received_bytes`. -/
def receivedBytes : Option (Message B) → ℤ
  | none => -1
  | some m => m.val.length

/-- Conversion to a 64-bit `size_t`. -/
def toSizeT (i : ℤ) : ℕ := (i % 2 ^ 64).toNat

/-- The bytes `[first, last)` of a vector, undefined outside it. -/
def vectorRange (reader : AccessBy) (v : List B.Byte) (first last : ℤ) :
    Code B (List B.Byte) := do
  let a : Access := ⟨reader, first, last, v.length⟩
  observe (.accessed a)
  if a.InRange then
    return (v.drop first.toNat).take (last.toNat - first.toNat)
  else
    .undef (.outOfRange a)

/-- The line of `receive_periodic_messages` for a tag that does not match. -/
def verificationFailed : Line B := .cerr "[Receiver] CMAC verification failed!\n"

/-- The line it prints for a message whose tag it accepts. -/
def verificationSucceeded : Line B := .cout "[Receiver] CMAC verification succeeded\n"

/-- What the loop carries from one message to the next. -/
structure ReceiveState (B : Botan) where
  buffer : List B.Byte
  calculatedCmac : Mac B

/-- One round of `while (true)`, from the return of `mq_receive` on.  `inr` is the
`break`. -/
def receiveBody (st : ReceiveState B) (received : Option (Message B)) :
    Code B (ReceiveState B ⊕ Unit) := do
  let buffer := match received with
    | none => st.buffer
    | some m => receiveInto st.buffer m
  if receivedBytes received > 0 then
    let tempVec ← vectorRange .tempVec buffer 0 (receivedBytes received)
    print (.counted "[Receiver] Received " (receivedBytes received).toNat " bytes \n")
    print (.hex "[Receiver]" tempVec)
    -- temp_vec.end() - kCmacSize is not checked against temp_vec.begin()
    let receivedCmac ← vectorRange .receivedCmac tempVec
      (tempVec.length - kCmacSize) tempVec.length
    print (.cout "[Receiver] Received CMAC\n")
    print (.hex "[Receiver]" receivedCmac)
    let data ← vectorRange .macUpdate tempVec 0
      (toSizeT (receivedBytes received - kCmacSize))
    let (tag, mac) := (st.calculatedCmac.update data).final
    print (.cout "[Receiver] Calculated CMAC of the received message\n")
    print (.hex "[Receiver]" tag)
    observe (.compared tempVec (decide (receivedCmac = tag)))
    if receivedCmac ≠ tag then
      print verificationFailed
    print verificationSucceeded
    return .inl ⟨buffer, mac⟩
  else
    print (.perror "mq_receive")
    return .inr ()

def receivePeriodicMessages (mq : Mqd) : Code B ℕ := do
  let buffer := List.replicate kMessageSize (B.lit 0)
  let calculatedCmac ← keyedMac (← getSymmetricKey)
  .loop (.mqReceive .receivePeriodicMessages mq) (⟨buffer, calculatedCmac⟩ : ReceiveState B)
    receiveBody fun _ => return kOK

/-! ### main -/

/-- `case kMessageIdPeriodic` -/
def receiverPeriodicCase (mqSenderToReceiver : Mqd) : Code B ℕ := do
  print (.cout "[Receiver] Receive periodic messages\n")
  receivePeriodicMessages mqSenderToReceiver

/-- `case kMessageIdSymKey`: `status` is overwritten further down, and the case
falls through. -/
def receiverSymKeyCase (mqReceiverToSender mqSenderToReceiver : Mqd) : Code B ℕ := do
  print (.cout "[Receiver] Send symmetric key\n")
  let _status ← sendSymmetricKey mqReceiverToSender
  receiverPeriodicCase mqSenderToReceiver

/-- `case kMessageIdRsaPublicKey`: `status` is overwritten further down, and the
case falls through. -/
def receiverPublicKeyCase (mqReceiverToSender mqSenderToReceiver : Mqd) : Code B ℕ := do
  print (.cout "[Receiver] Wait for public key...\n")
  let _status ← getPublicKey mqSenderToReceiver
  receiverSymKeyCase mqReceiverToSender mqSenderToReceiver

/-- The `switch` of `main`; its value is `status` afterwards. -/
def receiverSwitch (mqReceiverToSender mqSenderToReceiver : Mqd) :
    (messageId : ℕ) → Code B ℕ
  | 0 => receiverPublicKeyCase mqReceiverToSender mqSenderToReceiver
  | 1 => receiverSymKeyCase mqReceiverToSender mqSenderToReceiver
  | 2 => receiverPeriodicCase mqSenderToReceiver
  | _ => do
      print (.cout "Unknown message ID.\n")
      return kNOT_OK

/-- The end of `main`. -/
def receiverEnd (mqReceiverToSender mqSenderToReceiver : Mqd) (status : ℕ) :
    Code B ℕ := do
  print (.cout "Receiver done. Press Enter to exit.")
  cinGet
  mqClose mqReceiverToSender
  mqClose mqSenderToReceiver
  return status

/-- `main` once both queues are open. -/
def receiverRun (mqReceiverToSender mqSenderToReceiver : Mqd) : Code B ℕ := do
  print (.cout "[Receiver] Starting receiver in 5 seconds...\n")
  print (.cout "[Receiver] Running...\n")
  setPublicKeyVar none
  setSymmetricKey (List.replicate kSymKeySize (B.lit 0))
  let status ← receiverSwitch mqReceiverToSender mqSenderToReceiver 0
  receiverEnd mqReceiverToSender mqSenderToReceiver status

def receiverMain (cfg : Config) : Code B ℕ := do
  let (status, mqReceiverToSender) ← setupReceiverCommunication cfg
  if status ≠ kOK then
    return kNOT_OK
  else
    let (status, mqSenderToReceiver) ← setupSenderCommunication cfg
    if status ≠ kOK then
      return kNOT_OK
    else
      receiverRun mqReceiverToSender mqSenderToReceiver

end Receiver

end SecureComm
