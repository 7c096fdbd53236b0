import Mathlib.Data.List.Basic
import Mathlib.Tactic.Common
import SecureComm.Common

/-!
# What the programs rely on in Botan

`Botan.Lawful` collects the documented behaviour the protocol results use: keys
survive their encoding, OAEP decryption undoes encryption under the matching key,
and the two handshake messages fit into a queue message.

`sampleBotan` is one Botan in which all of it holds.  It encodes RSA-2048 keys as
the `SubjectPublicKeyInfo` they have, and its CMAC is the AES-128 CMAC on the
inputs it is used with below; its encryption has the sizes of OAEP without its
secrecy, which no result about it needs.
-/

namespace SecureComm

/-- The assumptions on Botan. -/
structure Botan.Lawful (B : Botan) : Prop where
  /-- `X509::load_key` decodes what `subject_public_key` encodes. -/
  loadKey_subjectPublicKey : ∀ pk, B.loadKey (B.subjectPublicKey pk) = .ok (.rsa pk)
  /-- The encoding of an RSA-2048 key fits into a message. -/
  subjectPublicKey_length : ∀ pk, (B.subjectPublicKey pk).length ≤ kMessageSize
  /-- A symmetric key can be encrypted, and the ciphertext fits into a message. -/
  encrypt_ok : ∀ pk seed m, m.length = kSymKeySize →
    ∃ c, B.encrypt pk seed m = .ok c ∧ c.length ≤ kMessageSize
  /-- Decryption undoes encryption for the matching pair. -/
  decrypt_encrypt : ∀ sk seed m c,
    B.encrypt (B.publicKey sk) seed m = .ok c → B.decrypt sk c = .ok m

/-! ## A sample -/

namespace Sample

/-- A 2048-bit modulus. -/
abbrev Modulus : Type := {n : List UInt8 // n.length = 256}

/-- `SubjectPublicKeyInfo` up to the modulus. -/
def rsaHeader : List UInt8 :=
  [0x30, 0x82, 0x01, 0x22, 0x30, 0x0d, 0x06, 0x09, 0x2a, 0x86, 0x48, 0x86, 0xf7, 0x0d,
    0x01, 0x01, 0x01, 0x05, 0x00, 0x03, 0x82, 0x01, 0x0f, 0x00, 0x30, 0x82, 0x01, 0x0a,
    0x02, 0x82, 0x01, 0x01, 0x00]

/-- The public exponent 65537. -/
def rsaTrailer : List UInt8 := [0x02, 0x03, 0x01, 0x00, 0x01]

def subjectPublicKey (pk : Modulus) : List UInt8 := rsaHeader ++ pk.val ++ rsaTrailer

def loadKey (der : List UInt8) : Except Exn (PublicKey Modulus) :=
  let body := (der.drop 33).take 256
  if h : body.length = 256 ∧ der = rsaHeader ++ body ++ rsaTrailer then
    .ok (.rsa ⟨body, h.1⟩)
  else if der = [] then .error .streamIoError
  else .error .decodingError

/-- A 256-byte block holding the coins, the length and the plaintext, which is at
most 190 bytes as for OAEP with SHA-256. -/
def encrypt (pk : Modulus) (seed : UInt8) (m : List UInt8) : Except Exn (List UInt8) :=
  if m.length ≤ 190 then
    .ok (seed :: UInt8.ofNat m.length :: (m ++ pk.val.drop (m.length + 2)))
  else .error .invalidArgument

def decrypt (sk : Modulus) : List UInt8 → Except Exn (List UInt8)
  | seed :: n :: rest =>
      let m := rest.take n.toNat
      if encrypt sk seed m = .ok (seed :: n :: rest) then .ok m
      else .error .decodingError
  | _ => .error .decodingError

/-- The key 2b7e1516…4f3c. -/
def sessionKey : List UInt8 :=
  [0x2b, 0x7e, 0x15, 0x16, 0x28, 0xae, 0xd2, 0xa6, 0xab, 0xf7, 0x15, 0x88, 0x09, 0xcf,
    0x4f, 0x3c]

/-- The key 00010203…0e0f. -/
def localKey : List UInt8 := [0, 1, 2, 3, 4, 5, 6, 7, 8, 9, 10, 11, 12, 13, 14, 15]

/-- The payload of the first periodic frame. -/
def firstPayload : List UInt8 := List.replicate 19 0xFF ++ [0]

/-- The AES-128 CMAC on three inputs, and 16 bytes on every other one. -/
def cmac (key data : List UInt8) : List UInt8 :=
  if key = sessionKey ∧ data = [] then
    [0xbb, 0x1d, 0x69, 0x29, 0xe9, 0x59, 0x37, 0x28, 0x7f, 0xa3, 0x7d, 0x12, 0x9b, 0x75,
      0x67, 0x46]
  else if key = sessionKey ∧ data = firstPayload then
    [0x2c, 0x2d, 0x21, 0x04, 0xcb, 0x15, 0x65, 0xc3, 0xa6, 0x4a, 0x45, 0x36, 0xcf, 0x34,
      0x3e, 0x35]
  else if key = localKey ∧ data = firstPayload then
    [0x7e, 0xc4, 0xc4, 0xe8, 0x9d, 0xdf, 0xa4, 0xc9, 0x72, 0xef, 0x58, 0xe1, 0x53, 0x29,
      0xe9, 0x40]
  else (key ++ data ++ List.replicate 16 0).take 16

theorem cmac_length (key data : List UInt8) : (cmac key data).length = kCmacSize := by
  unfold cmac
  split_ifs with first second third
  · rfl
  · rfl
  · rfl
  · simp only [List.length_take, List.length_append, List.length_replicate, kCmacSize]
    omega

theorem subjectPublicKey_length (pk : Modulus) : (subjectPublicKey pk).length = 294 := by
  simp [subjectPublicKey, rsaHeader, rsaTrailer, pk.property]

theorem loadKey_subjectPublicKey (pk : Modulus) :
    loadKey (subjectPublicKey pk) = .ok (.rsa pk) := by
  have body : ((subjectPublicKey pk).drop 33).take 256 = pk.val := by
    have header : rsaHeader.length = 33 := rfl
    rw [subjectPublicKey, List.append_assoc, ← header, List.drop_left]
    exact List.take_left' pk.property
  simp only [loadKey, body]
  rw [dif_pos ⟨pk.property, rfl⟩]

theorem encrypt_of_le {m : List UInt8} (h : m.length ≤ 190) (pk : Modulus) (seed : UInt8) :
    encrypt pk seed m =
      .ok (seed :: UInt8.ofNat m.length :: (m ++ pk.val.drop (m.length + 2))) := by
  simp [encrypt, h]

/-- The modulus of the sample key pair. -/
def modulus : Modulus := ⟨List.replicate 256 0xab, List.length_replicate⟩

/-- The session key encrypted for it. -/
def ciphertext : List UInt8 := 0 :: 16 :: (sessionKey ++ List.replicate 238 0xab)

theorem ciphertext_length : ciphertext.length ≤ kMessageSize := by
  simp only [ciphertext, List.length_cons, List.length_append, List.length_replicate,
    sessionKey, List.length_nil, kMessageSize]
  omega

theorem encrypt_sessionKey : encrypt modulus 0 sessionKey = .ok ciphertext := by
  rw [encrypt_of_le (by decide)]
  simp only [modulus, List.drop_replicate]
  rfl

theorem encrypt_ok (pk : Modulus) (seed : UInt8) (m : List UInt8)
    (h : m.length = kSymKeySize) :
    ∃ c, encrypt pk seed m = .ok c ∧ c.length ≤ kMessageSize := by
  refine ⟨_, encrypt_of_le (by simp [h, kSymKeySize]) pk seed, ?_⟩
  simp [h, pk.property, kSymKeySize, kMessageSize]

theorem decrypt_encrypt (sk : Modulus) (seed : UInt8) (m c : List UInt8)
    (h : encrypt sk seed m = .ok c) : decrypt sk c = .ok m := by
  by_cases small : m.length ≤ 190
  · have value := encrypt_of_le small sk seed
    rw [value] at h
    cases h
    have size : (UInt8.ofNat m.length).toNat = m.length := by
      simp only [UInt8.toNat_ofNat']
      omega
    simp [decrypt, size, value]
  · simp [encrypt, small] at h

end Sample

/-- A Botan to run the programs with. -/
def sampleBotan : Botan where
  Byte := UInt8
  lit := id
  lit_injective := Function.injective_id
  Priv := Sample.Modulus
  Pub := Sample.Modulus
  Seed := UInt8
  publicKey := id
  subjectPublicKey := Sample.subjectPublicKey
  loadKey := Sample.loadKey
  encrypt := Sample.encrypt
  decrypt := Sample.decrypt
  cmac := Sample.cmac
  cmac_length := Sample.cmac_length

/-- The sample session key as bytes of the sample. -/
def sampleKey : List sampleBotan.Byte := Sample.sessionKey

/-- A private key of the sample, which is its modulus. -/
def samplePrivateKey : sampleBotan.Priv := Sample.modulus

/-- The sample session key encrypted for it. -/
def sampleCiphertext : Message sampleBotan := ⟨Sample.ciphertext, Sample.ciphertext_length⟩

/-- The assumptions can be met. -/
theorem sampleBotan_lawful : sampleBotan.Lawful where
  loadKey_subjectPublicKey := Sample.loadKey_subjectPublicKey
  subjectPublicKey_length pk := by
    have size := Sample.subjectPublicKey_length pk
    simp only [sampleBotan, size, kMessageSize]
    omega
  encrypt_ok := Sample.encrypt_ok
  decrypt_encrypt := Sample.decrypt_encrypt

end SecureComm
