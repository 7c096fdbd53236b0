import Mathlib.Tactic.Common
import SecureComm.BotanLaws
import SecureComm.Library.Deduction
import SecureComm.Sessions

/-!
# Symbolic Botan

Bytes as symbols: besides the octets there are the bytes of random strings, of encoded
public keys, of CMAC tags and of ciphertexts, each naming what it is a byte of.  Tags of
distinct inputs are distinct, and nothing but decryption with the private key leads from
a ciphertext to its plaintext.

`AttackRule` is what an attacker can do with bytes: cut and paste them, tag under keys it
has, encrypt to anybody, decrypt under private keys it has.  `publicTerms` is the closed
set that bounds it (`derives_public`).
-/

namespace SecureComm

open Deduction

/-! ## The algebra -/

/-- Who made something. -/
inductive Owner
  | honest
  | attacker
  deriving DecidableEq

/-- An RSA key pair. -/
structure KeyPair where
  owner : Owner
  name : ℕ

/-- A byte.  `i` is its position in what it is a byte of. -/
inductive SymByte
  | lit (b : UInt8)
  | random (owner : Owner) (name i : ℕ)
  | publicKey (pair : KeyPair) (i : ℕ)
  | tag (key data : List SymByte) (i : ℕ)
  | cipher (pair : KeyPair) (seed : ℕ) (plaintext : List SymByte) (i : ℕ)

noncomputable section

open Classical

namespace SymByte

/-- The encoding of a public key, as long as an RSA-2048 key's. -/
def encoded (pair : KeyPair) : List SymByte := (List.range 294).map (publicKey pair)

def decoded (data : List SymByte) : Except Exn (PublicKey KeyPair) :=
  match data with
  | publicKey pair _ :: _ =>
      if data = encoded pair then .ok (.rsa pair) else .error .decodingError
  | [] => .error .streamIoError
  | _ => .error .decodingError

def ciphertext (pair : KeyPair) (seed : ℕ) (plaintext : List SymByte) : List SymByte :=
  (List.range 256).map (cipher pair seed plaintext)

/-- OAEP with SHA-256 takes at most 190 bytes. -/
def encrypt (pair : KeyPair) (seed : ℕ) (plaintext : List SymByte) :
    Except Exn (List SymByte) :=
  if plaintext.length ≤ 190 then .ok (ciphertext pair seed plaintext)
  else .error .invalidArgument

def decrypt (pair : KeyPair) (data : List SymByte) : Except Exn (List SymByte) :=
  match data with
  | cipher _ seed plaintext _ :: _ =>
      if encrypt pair seed plaintext = .ok data then .ok plaintext
      else .error .decodingError
  | _ => .error .decodingError

def cmac (key data : List SymByte) : List SymByte := (List.range kCmacSize).map (tag key data)

/-- A random string of the size of a symmetric key. -/
def randomKey (owner : Owner) (name : ℕ) : List SymByte :=
  (List.range kSymKeySize).map (random owner name)

theorem encoded_eq_cons (pair : KeyPair) :
    ∃ rest, encoded pair = .publicKey pair 0 :: rest := ⟨_, rfl⟩

theorem ciphertext_eq_cons (pair : KeyPair) (seed : ℕ) (plaintext : List SymByte) :
    ∃ rest, ciphertext pair seed plaintext = .cipher pair seed plaintext 0 :: rest :=
  ⟨_, rfl⟩

theorem length_randomKey (owner : Owner) (name : ℕ) :
    (randomKey owner name).length = kSymKeySize := by
  unfold randomKey
  rw [List.length_map, List.length_range]

theorem random_mem_randomKey (owner : Owner) (name : ℕ) :
    random owner name 0 ∈ randomKey owner name :=
  List.mem_map.mpr ⟨0, List.mem_range.mpr (by decide), rfl⟩

theorem tag_mem_cmac (key data : List SymByte) : tag key data 0 ∈ cmac key data :=
  List.mem_map.mpr ⟨0, List.mem_range.mpr (by decide), rfl⟩

theorem encrypt_eq_ok {pair : KeyPair} {seed : ℕ} {plaintext c : List SymByte}
    (encrypted : encrypt pair seed plaintext = .ok c) :
    c = ciphertext pair seed plaintext := by
  unfold encrypt at encrypted
  split_ifs at encrypted
  cases encrypted
  rfl

/-- Decryption finds the plaintext of what was encrypted under the key pair, and nothing
else. -/
theorem decrypt_eq_ok {pair : KeyPair} {c plaintext : List SymByte}
    (decrypted : decrypt pair c = .ok plaintext) :
    ∃ seed, c = ciphertext pair seed plaintext := by
  unfold decrypt at decrypted
  split at decrypted
  · split_ifs at decrypted with encrypted
    cases decrypted
    exact ⟨_, encrypt_eq_ok encrypted⟩
  · cases decrypted

theorem decoded_encoded (pair : KeyPair) : decoded (encoded pair) = .ok (.rsa pair) := by
  obtain ⟨rest, shape⟩ := encoded_eq_cons pair
  unfold decoded
  rw [shape]
  exact if_pos shape.symm

theorem decrypt_encrypt {pair : KeyPair} {seed : ℕ} {plaintext c : List SymByte}
    (encrypted : encrypt pair seed plaintext = .ok c) : decrypt pair c = .ok plaintext := by
  obtain ⟨rest, shape⟩ := ciphertext_eq_cons pair seed plaintext
  obtain rfl := encrypt_eq_ok encrypted
  unfold decrypt
  rw [shape] at encrypted ⊢
  exact if_pos encrypted

theorem length_encoded_le (pair : KeyPair) : (encoded pair).length ≤ kMessageSize := by
  unfold encoded
  rw [List.length_map, List.length_range]
  decide

/-- A symmetric key can be encrypted. -/
theorem exists_encrypt (pair : KeyPair) (seed : ℕ) {plaintext : List SymByte}
    (size : plaintext.length = kSymKeySize) :
    ∃ c, encrypt pair seed plaintext = .ok c ∧ c.length ≤ kMessageSize := by
  refine ⟨ciphertext pair seed plaintext, if_pos (by rw [size]; decide), ?_⟩
  unfold ciphertext
  rw [List.length_map, List.length_range]
  decide

end SymByte

/-- Botan over symbols. -/
def symbolicBotan : Botan where
  Byte := SymByte
  decEq := inferInstance
  lit := .lit
  lit_injective _ _ same := SymByte.lit.inj same
  Priv := KeyPair
  Pub := KeyPair
  Seed := ℕ
  publicKey := id
  subjectPublicKey := SymByte.encoded
  loadKey := SymByte.decoded
  encrypt := SymByte.encrypt
  decrypt := SymByte.decrypt
  cmac := SymByte.cmac
  cmac_length key data := by simp [SymByte.cmac]

theorem symbolicBotan_lawful : symbolicBotan.Lawful where
  loadKey_subjectPublicKey := SymByte.decoded_encoded
  subjectPublicKey_length := SymByte.length_encoded_le
  encrypt_ok pair seed _ size := SymByte.exists_encrypt pair seed size
  decrypt_encrypt _ _ _ _ := SymByte.decrypt_encrypt

end

/-! ## The attacker -/

section Attacker

variable {B : Botan}

/-- What an attacker can come to have. -/
inductive Term (B : Botan)
  | byte (b : B.Byte)
  | privateKey (key : B.Priv)

/-- The bytes of a message. -/
def bytesOf (m : List B.Byte) : Set (Term B) := {t | ∃ b ∈ m, t = .byte b}

/-- What an attacker can do with Botan; cutting and pasting needs no rule, since a
message is derived byte by byte. -/
inductive AttackRule (B : Botan) : Rules (Term B)
  | lit (b : UInt8) : AttackRule B ∅ (.byte (B.lit b))
  | subjectPublicKey {key : B.Pub} {b : B.Byte} (h : b ∈ B.subjectPublicKey key) :
      AttackRule B ∅ (.byte b)
  | cmac {key data : List B.Byte} {b : B.Byte} (h : b ∈ B.cmac key data) :
      AttackRule B (bytesOf key ∪ bytesOf data) (.byte b)
  | encrypt {key : B.Pub} {seed : B.Seed} {plaintext c : List B.Byte} {b : B.Byte}
      (encrypted : B.encrypt key seed plaintext = .ok c) (h : b ∈ c) :
      AttackRule B (bytesOf plaintext) (.byte b)
  | decrypt {key : B.Priv} {c plaintext : List B.Byte} {b : B.Byte}
      (decrypted : B.decrypt key c = .ok plaintext) (h : b ∈ plaintext) :
      AttackRule B (insert (.privateKey key) (bytesOf c)) (.byte b)

/-- Every byte of the message can be derived. -/
def DerivesMessage (known : Set (Term B)) (m : List B.Byte) : Prop :=
  ∀ b ∈ m, Derives (AttackRule B) known (.byte b)

end Attacker

/-! ## What stays secret -/

/-- A byte that gives nothing away of `secret`: none of the honest parties' random bytes,
tags under `secret` of some data only, and no ciphertext for the attacker with anything
else inside. -/
inductive PublicByte (secret : List SymByte) (tagged : List SymByte → Prop) :
    SymByte → Prop
  | lit (b : UInt8) : PublicByte secret tagged (.lit b)
  | random (name i : ℕ) : PublicByte secret tagged (.random .attacker name i)
  | publicKey (pair : KeyPair) (i : ℕ) : PublicByte secret tagged (.publicKey pair i)
  | tag {key data : List SymByte} (i : ℕ) (h : key = secret → tagged data) :
      PublicByte secret tagged (.tag key data i)
  | cipher {pair : KeyPair} (seed : ℕ) {plaintext : List SymByte} (i : ℕ)
      (h : pair.owner = .attacker → ∀ b ∈ plaintext, PublicByte secret tagged b) :
      PublicByte secret tagged (.cipher pair seed plaintext i)

/-- The public bytes, and the attacker's private keys. -/
def publicTerms (secret : List SymByte) (tagged : List SymByte → Prop) :
    Set (Term symbolicBotan) :=
  {t | match t with
    | .byte b => PublicByte secret tagged b
    | .privateKey pair => pair.owner = .attacker}

section Secrecy

variable {secret : List SymByte} {tagged : List SymByte → Prop}

theorem not_publicByte_random (name i : ℕ) :
    ¬ PublicByte secret tagged (.random .honest name i) := nofun

theorem bytesOf_subset_publicTerms {m : List SymByte} :
    bytesOf (B := symbolicBotan) m ⊆ publicTerms secret tagged ↔
      ∀ b ∈ m, PublicByte secret tagged b := by
  constructor
  · intro inside b mem
    exact inside ⟨b, mem, rfl⟩
  · rintro all t ⟨b, mem, rfl⟩
    exact all b mem

/-- **The public terms are closed under attack**, if the secret is one. -/
theorem closed_publicTerms (hidden : ∃ b ∈ secret, ¬ PublicByte secret tagged b) :
    Closed (AttackRule symbolicBotan) (publicTerms secret tagged) := by
  intro premises t rule inside
  cases rule with
  | lit b => exact .lit b
  | subjectPublicKey h =>
      obtain ⟨i, -, rfl⟩ := List.mem_map.mp h
      exact .publicKey _ i
  | @cmac key data b h =>
      obtain ⟨i, -, rfl⟩ := List.mem_map.mp h
      refine .tag i fun same => ?_
      -- whoever tags under the secret would have all of its bytes
      obtain ⟨b, mem, notPublic⟩ := hidden
      subst same
      exact absurd (bytesOf_subset_publicTerms.mp
        (Set.union_subset_iff.mp inside).1 b mem) notPublic
  | encrypt encrypted h =>
      obtain rfl := SymByte.encrypt_eq_ok encrypted
      obtain ⟨i, -, rfl⟩ := List.mem_map.mp h
      exact .cipher _ i fun _ => bytesOf_subset_publicTerms.mp inside
  | @decrypt pair c plaintext b decrypted h =>
      have own : pair.owner = .attacker := inside (Set.mem_insert _ _)
      have all := bytesOf_subset_publicTerms.mp ((Set.subset_insert _ _).trans inside)
      obtain ⟨seed, rfl⟩ := SymByte.decrypt_eq_ok decrypted
      obtain ⟨rest, shape⟩ := SymByte.ciphertext_eq_cons pair seed plaintext
      have first := all _ (by rw [shape]; exact List.mem_cons_self)
      cases first with
      | cipher _ _ inner => exact inner own b h

/-- **Attackers derive public terms from public terms.** -/
theorem derives_public (hidden : ∃ b ∈ secret, ¬ PublicByte secret tagged b)
    {known : Set (Term symbolicBotan)} (inside : known ⊆ publicTerms secret tagged)
    {t : Term symbolicBotan} (h : Derives (AttackRule symbolicBotan) known t) :
    t ∈ publicTerms secret tagged :=
  h.mem_of_closed (closed_publicTerms hidden) inside

end Secrecy

end SecureComm
