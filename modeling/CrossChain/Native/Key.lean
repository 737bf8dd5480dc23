import CrossChain.ForStd.Digest
import CrossChain.Native.Basic

/-!
# Hashes and keys

hash.h, key.h and key.cpp over the OpenSSL functions they call.  `OpenSSL`
collects those functions as parameters, with the documented facts the code
relies on as fields.
-/

namespace CrossChain

/-- The order of secp256k1, as `EC_GROUP_get_order` reports it. -/
def secp256k1Order : Nat :=
  0xFFFFFFFFFFFFFFFFFFFFFFFFFFFFFFFEBAAEDCE6AF48A03BBFD25E8CD0364141

/-- The length `CPubKey::GetLen` gives for a header byte. -/
def cpubkeyGetLen (chHeader : UInt8) : Nat :=
  if chHeader = 2 ∨ chHeader = 3 then 33
  else if chHeader = 4 ∨ chHeader = 6 ∨ chHeader = 7 then 65
  else 0

/-- The functions of OpenSSL the program calls, keys given by their 32 secret bytes. -/
structure OpenSSL where
  /-- `SHA256`, also as `SHA256_Init` / `SHA256_Update` / `SHA256_Final`. -/
  sha256 : Bytes → Uint256
  /-- `RIPEMD160`. -/
  ripemd160 : Bytes → Uint160
  /-- `i2o_ECPublicKey` for a secret, the flag choosing the compressed form. -/
  i2oECPublicKey : Bytes → Bool → Bytes
  /-- A serialised public key has the length its header byte announces. -/
  i2oECPublicKey_header : ∀ secret compressed, ∃ h rest,
    i2oECPublicKey secret compressed = h :: rest ∧
      cpubkeyGetLen h = rest.length + 1
  /-- `ECDSA_do_sign`: the pair (r, s), `none` where it fails. -/
  ecdsaDoSign : Bytes → Uint256 → Option (Nat × Nat)
  /-- `i2d_ECDSA_SIG`: the DER encoding of (r, s). -/
  i2dECDSASig : Nat × Nat → Bytes
  /-- `ECDSA_size` of a 256-bit key bounds the encoding. -/
  length_i2dECDSASig : ∀ sig, (i2dECDSASig sig).length ≤ 72

/-- A string whose first byte announces its length, or else a compressed key of zeros. -/
def wellFormedPubKey (b : Bytes) : Bytes :=
  match b with
  | h :: rest =>
    if cpubkeyGetLen h = rest.length + 1 then h :: rest else 2 :: List.replicate 32 0
  | [] => 2 :: List.replicate 32 0

theorem wellFormedPubKey_header (b : Bytes) : ∃ h rest,
    wellFormedPubKey b = h :: rest ∧ cpubkeyGetLen h = rest.length + 1 := by
  unfold wellFormedPubKey
  split
  · rename_i h rest
    split
    · exact ⟨h, rest, rfl, by assumption⟩
    · exact ⟨2, List.replicate 32 0, rfl, by decide⟩
  · exact ⟨2, List.replicate 32 0, rfl, by decide⟩

/-- The DER form of a nonnegative integer: a zero byte in front of a set top bit. -/
def derInteger (n : Nat) : Bytes :=
  let mag := (Bytes.minLE n).reverse
  let body := if 0x80 ≤ mag.headD 0x80 then 0 :: mag else mag
  0x02 :: UInt8.ofNat body.length :: body

/-- The library with its digests computed and its keys and signatures from tables, to run
    the program on concrete inputs. -/
def OpenSSL.ofTables (pub : List ((Bytes × Bool) × Bytes))
    (sigs : List ((Bytes × Bytes) × (Nat × Nat))) : OpenSSL where
  sha256 b := BaseUint.ofBytes 32 (Digest.sha256 b)
  ripemd160 b := BaseUint.ofBytes 20 (Digest.ripemd160 b)
  i2oECPublicKey secret compressed := wellFormedPubKey ((pub.lookup (secret, compressed)).getD [])
  i2oECPublicKey_header _ _ := wellFormedPubKey_header _
  ecdsaDoSign secret hash := sigs.lookup (secret, hash.bytes)
  i2dECDSASig sig :=
    let body := derInteger sig.1 ++ derInteger sig.2
    (0x30 :: UInt8.ofNat body.length :: body).take 72
  length_i2dECDSASig _ := List.length_take_le _ _

/-- The digests alone. -/
def digestsOnly : OpenSSL := OpenSSL.ofTables [] []

variable (ssl : OpenSSL)

/-- `Hash`: SHA-256 twice. -/
def hash (b : Bytes) : Uint256 :=
  ssl.sha256 (ssl.sha256 b).bytes

/-- `Hash160`: RIPEMD-160 of SHA-256. -/
def hash160 (b : Bytes) : Uint160 :=
  ssl.ripemd160 (ssl.sha256 b).bytes

/-! ## CPubKey -/

/-- `CPubKey::Set`, by the bytes `begin()..end()` of the result: those given when their
    number is the one the header announces, none otherwise. -/
def cpubkeySet (b : Bytes) : Bytes :=
  match b with
  | [] => []
  | h :: _ => if cpubkeyGetLen h ≠ 0 ∧ cpubkeyGetLen h = b.length then b else []

/-! ## CKey -/

/-- `CKey`.  An invalid key's other members are never read. -/
structure CKey where
  fValid : Bool
  fCompressed : Bool
  vch : Bytes
  deriving DecidableEq

namespace CKey

/-- A key that was not set. -/
def invalid : CKey := ⟨false, false, []⟩

/-- `vchMax` of `CKey::Check`. -/
def vchMax : Bytes :=
  [0xFF, 0xFF, 0xFF, 0xFF, 0xFF, 0xFF, 0xFF, 0xFF,
   0xFF, 0xFF, 0xFF, 0xFF, 0xFF, 0xFF, 0xFF, 0xFE,
   0xBA, 0xAE, 0xDC, 0xE6, 0xAF, 0x48, 0xA0, 0x3B,
   0xBF, 0xD2, 0x5E, 0x8C, 0xD0, 0x36, 0x41, 0x40]

/-- The second loop of `CKey::Check`. -/
def checkMax : Bytes → Bytes → Bool
  | v :: vs, m :: ms => if v < m then true else if v > m then false else checkMax vs ms
  | _, _ => true

/-- `CKey::Check`. -/
def check (vch : Bytes) : Bool :=
  if vch.all (· == 0) then false else checkMax vch vchMax

/-- `CKey::Set(pbegin, pend, fCompressedIn)` on a fresh key. -/
def set (b : Bytes) (fCompressedIn : Bool) : CKey :=
  if b.length ≠ 32 then invalid
  else if check b then ⟨true, fCompressedIn, b⟩
  else invalid

/-- `CKey::GetPubKey`, with its `assert(fValid)`. -/
def getPubKey (key : CKey) : Except Exn Bytes :=
  if key.fValid then .ok (cpubkeySet (ssl.i2oECPublicKey key.vch key.fCompressed))
  else .error .assertFailed

/-- `CECKey::Sign`: an s above half the order is replaced by its negative. -/
def ecSign (secret : Bytes) (hash : Uint256) : Option Bytes := do
  let (r, s) ← ssl.ecdsaDoSign secret hash
  let halforder := secp256k1Order / 2
  -- enforce low S values
  return ssl.i2dECDSASig (r, if s > halforder then secp256k1Order - s else s)

/-- `CKey::Sign`, `none` for its `false`. -/
def sign (key : CKey) (hash : Uint256) (nHashType : UInt8) : Option Bytes :=
  if key.fValid then (ecSign ssl key.vch hash).map (· ++ [nHashType]) else none

/-- A public key is never empty and its length fits the one-byte push of a script. -/
theorem length_getPubKey {key : CKey} {pub : Bytes} (h : key.getPubKey ssl = .ok pub) :
    pub.length = 33 ∨ pub.length = 65 := by
  rw [getPubKey] at h
  split at h
  · obtain ⟨b, rest, hb, hlen⟩ := ssl.i2oECPublicKey_header key.vch key.fCompressed
    have hpub : pub = b :: rest := by
      rw [hb, cpubkeySet, if_pos (by rw [hlen]; simp)] at h
      exact (Except.ok.inj h).symm
    -- the header announces 33 or 65 bytes
    rw [hpub, List.length_cons, ← hlen, cpubkeyGetLen]
    rw [cpubkeyGetLen] at hlen
    split at hlen
    · left; simp_all
    · split at hlen
      · right; simp_all
      · omega
  · cases h

/-- A signature with its hash type byte takes a one-byte push. -/
theorem length_sign_le {key : CKey} {hash : Uint256} {t : UInt8} {sig : Bytes}
    (h : key.sign ssl hash t = some sig) : sig.length ≤ 73 := by
  rw [sign] at h
  split at h
  · obtain ⟨der, hder, rfl⟩ := Option.map_eq_some_iff.mp h
    simp only [ecSign, Option.bind_eq_bind, Option.bind_eq_some_iff] at hder
    obtain ⟨⟨r, s⟩, _, hsome⟩ := hder
    cases hsome
    rw [List.length_append, List.length_singleton]
    exact Nat.add_le_add_right (ssl.length_i2dECDSASig _) 1
  · cases h

end CKey

end CrossChain
