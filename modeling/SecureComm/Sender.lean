import SecureComm.Common

/-!
# sender.cpp

The sender's functions, statement by statement.  `symmetric_key` is the variable
of `main` that `receive_symmetric_key` and `send_periodic_message` take by
reference, so it lives in `Mem`; everything else is a local.
-/

namespace SecureComm

open Interaction

section Sender

variable {B : Botan}

/-- `MqUnlinker` for the rest of its scope: the destructor unlinks the name. -/
def mqUnlinker (name : QueueName) (scope : Code B ℕ) : Code B ℕ :=
  Prog.withCleanup (mqUnlink name) scope

/-- `calculate_mac`: a fresh object for one computation. -/
def calculateMac (data symmetricKey : List B.Byte) : Code B (List B.Byte) := do
  let mac ← keyedMac symmetricKey
  return (mac.update data).final.1

/-- `send_public_key` once the size is checked. -/
def publicKeyFits (mq : Mqd) (der : List B.Byte) : Code B ℕ := do
  let sent ← mqSend .sendPublicKey mq der
  match sent with
  | false =>
      print (.perror "mq_send")
      print (.cout "[Sender] Public key send failed. Press Enter to exit.")
      cinGet
      return kNOT_OK
  | true =>
      print (.counted "[Sender] Public key sent (" der.length " bytes)\n")
      return kOK

def sendPublicKey (mq : Mqd) (publicKey : B.Pub) : Code B ℕ := do
  let der := B.subjectPublicKey publicKey
  if der.length > kMessageSize then
    print (.cerr "[Sender] Public key too large for message queue\n")
    return kNOT_OK
  else
    publicKeyFits mq der

/-- `memcpy(buffer.data() + pos, data, data.size())` -/
def copyTo (buffer : List B.Byte) (pos : ℕ) (data : List B.Byte) : List B.Byte :=
  buffer.take pos ++ data ++ buffer.drop (pos + data.length)

/-- The buffer of `send_periodic_message` with its counter byte set. -/
def setCounter (buffer : List B.Byte) (messageIndex : ℕ) : List B.Byte :=
  buffer.set 19 (B.lit (UInt8.ofNat (messageIndex % 256)))

/-- The `for` loop of `send_periodic_message`, with `n` rounds to go. -/
def sendLoop (mq : Mqd) : (n messageIndex : ℕ) → List B.Byte → Mac B → Code B ℕ
  | 0, _, _, _ => return kOK
  | n + 1, messageIndex, buffer, mac => do
      -- counter byte at the end of the payload, then the CMAC of the payload
      let buffer := setCounter buffer messageIndex
      let (tag, mac) := (mac.update (buffer.take kBufferSize)).final
      let buffer := copyTo buffer kBufferSize (tag.take kCmacSize)
      let sent ← mqSend .sendPeriodicMessage mq buffer
      match sent with
      | false =>
          print (.perror "mq_send")
          return kNOT_OK
      | true =>
          print (.sentPeriodic buffer.length messageIndex)
          print (.hex "[Sender]" buffer)
          sendLoop mq n (messageIndex + 1) buffer mac

def sendPeriodicMessage (cfg : Config) (mq : Mqd) : Code B ℕ := do
  let buffer := List.replicate (kBufferSize + kCmacSize) (B.lit 0xFF)
  let mac ← keyedMac (← getSymmetricKey)
  sendLoop mq cfg.numMessagesToSend 0 buffer mac

/-- `receive_symmetric_key` once the generator is seeded, -/
def rngSeededForKey (privateKey : B.Priv) (encryptedKey : List B.Byte) : Code B ℕ := do
  let symmetricKeySecure ← decrypt privateKey encryptedKey
  print (.counted "[Sender] Decrypted symmetric key (" symmetricKeySecure.length " bytes)\n")
  print (.hex "[Sender]" symmetricKeySecure)
  setSymmetricKey symmetricKeySecure
  print (.counted "[Sender] Received symmetric key (" symmetricKeySecure.length " bytes)\n")
  return kOK

/-- and once a message has been read. -/
def keyReceived (privateKey : B.Priv) (encryptedKey : List B.Byte) : Code B ℕ := do
  autoSeededRng
  rngSeededForKey privateKey encryptedKey

def receiveSymmetricKey (mq : Mqd) (privateKey : B.Priv) : Code B ℕ := do
  let buffer := List.replicate kMessageSize (B.lit 0)
  let received ← mqReceive .receiveSymmetricKey mq
  match received with
  | none =>
      print (.perror "mq_receive")
      print (.cout "[Sender]Symmetric key receive failed. Press Enter to exit.")
      cinGet
      return kNOT_OK
  | some m =>
      let encryptedKey := (receiveInto buffer m).take m.val.length
      print (.counted "[Sender] Received encrypted symmetric key (" m.val.length " bytes)\n")
      print (.hex "[Sender]" encryptedKey)
      keyReceived privateKey encryptedKey

/-! ### main -/

/-- `case kMessageIdPeriodic` -/
def senderPeriodicCase (cfg : Config) (mqSenderToReceiver : Mqd) : Code B ℕ := do
  print (.cout "[Sender] Send periodic messages\n")
  sendPeriodicMessage cfg mqSenderToReceiver

/-- `case kMessageIdSymKey`: the result of `receive_symmetric_key` is dropped, and
the case falls through. -/
def senderSymKeyCase (cfg : Config) (mqSenderToReceiver mqReceiverToSender : Mqd)
    (privateKey : B.Priv) : Code B ℕ := do
  print (.cout "[Sender] Wait for symmetric key...\n")
  let _ ← receiveSymmetricKey mqReceiverToSender privateKey
  senderPeriodicCase cfg mqSenderToReceiver

/-- `case kMessageIdRsaPublicKey`: `status` is overwritten further down, and the
case falls through. -/
def senderPublicKeyCase (cfg : Config) (mqSenderToReceiver mqReceiverToSender : Mqd)
    (privateKey : B.Priv) : Code B ℕ := do
  print (.cout "[Sender] Send public key\n")
  let _status ← sendPublicKey mqSenderToReceiver (B.publicKey privateKey)
  senderSymKeyCase cfg mqSenderToReceiver mqReceiverToSender privateKey

/-- The `switch` of `main`; its value is `status` afterwards. -/
def senderSwitch (cfg : Config) (mqSenderToReceiver mqReceiverToSender : Mqd)
    (privateKey : B.Priv) : (messageId : ℕ) → Code B ℕ
  | 0 => senderPublicKeyCase cfg mqSenderToReceiver mqReceiverToSender privateKey
  | 1 => senderSymKeyCase cfg mqSenderToReceiver mqReceiverToSender privateKey
  | 2 => senderPeriodicCase cfg mqSenderToReceiver
  | _ => do
      print (.cout "Unknown message ID.\n")
      return kNOT_OK

/-- The end of `main`, where the two `MqUnlinker` objects are declared.  They are
destroyed in reverse order, after Enter. -/
def senderEnd (mqSenderToReceiver mqReceiverToSender : Mqd) (status : ℕ) : Code B ℕ :=
  mqUnlinker .senderToReceiver (mqUnlinker .receiverToSender (do
    mqClose mqSenderToReceiver
    mqClose mqReceiverToSender
    print (.cout "Sender done. Press Enter to exit.")
    cinGet
    return status))

/-- `main` once its random key is drawn, -/
def senderKeyDrawn (cfg : Config) (mqSenderToReceiver mqReceiverToSender : Mqd)
    (privateKey : B.Priv) (symmetricKey : List B.Byte) : Code B ℕ := do
  setSymmetricKey symmetricKey
  let status ← senderSwitch cfg mqSenderToReceiver mqReceiverToSender privateKey 0
  senderEnd mqSenderToReceiver mqReceiverToSender status

/-- once its key pair is made, -/
def senderFromKeys (cfg : Config) (mqSenderToReceiver mqReceiverToSender : Mqd)
    (privateKey : B.Priv) : Code B ℕ := do
  print (.privatePem privateKey)
  print (.publicPem (.rsa (B.publicKey privateKey)))
  setSymmetricKey (List.replicate kSymKeySize (B.lit 0))
  let symmetricKey ← randomize kSymKeySize
  senderKeyDrawn cfg mqSenderToReceiver mqReceiverToSender privateKey symmetricKey.val

/-- and once both queues are open. -/
def senderRun (cfg : Config) (mqSenderToReceiver mqReceiverToSender : Mqd) : Code B ℕ := do
  print (.cout "[Sender] Starting sender in 5 seconds...\n")
  print (.cout "[Sender] Running...\n")
  autoSeededRng
  let privateKey ← rsaPrivateKey 2048
  senderFromKeys cfg mqSenderToReceiver mqReceiverToSender privateKey

def senderMain (cfg : Config) : Code B ℕ := do
  let (status, mqSenderToReceiver) ← setupSenderCommunication cfg
  if status ≠ kOK then
    return kNOT_OK
  else
    let (status, mqReceiverToSender) ← setupReceiverCommunication cfg
    if status ≠ kOK then
      return kNOT_OK
    else
      senderRun cfg mqSenderToReceiver mqReceiverToSender

end Sender

end SecureComm
