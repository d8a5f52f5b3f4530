import CryptoAlert.Lib.Integers
import CryptoAlert.Lib.Uuids

/-!
# The cipher of notification credentials

A credential is trimmed, encoded in UTF-8 and sealed by AES-GCM together with the identity of its
destination and the version of the key. The cipher holds the active key and the keys that it can
still decrypt with. AES-GCM itself is a parameter.
-/

namespace CryptoAlert

abbrev Bytes := List UInt8

def encodeUtf8 (s : List Char) : Bytes := (String.ofList s).toByteArray.data.toList

def decodeUtf8 (b : Bytes) : Option (List Char) :=
  (ByteArray.mk b.toArray).utf8Decode?.map Array.toList

theorem decodeUtf8_encodeUtf8 (s : List Char) : decodeUtf8 (encodeUtf8 s) = some s := by
  unfold decodeUtf8 encodeUtf8
  rw [Array.toArray_toList, String.toByteArray_ofList, List.utf8Decode?_utf8Encode]
  rfl

theorem encodeUtf8_ne_nil {s : List Char} (h : s ≠ []) : encodeUtf8 s ≠ [] := by
  intro hnil
  have hdecoded := decodeUtf8_encodeUtf8 s
  have hempty := decodeUtf8_encodeUtf8 []
  rw [hnil] at hdecoded
  rw [show encodeUtf8 [] = [] from rfl] at hempty
  rw [hdecoded] at hempty
  exact h (Option.some.inj hempty)

/-- `AESGCM`: a key with a nonce seals a text and its associated data, and opens it again. -/
structure Aead (κ : Type) where
  encrypt : κ → Bytes → Bytes → Bytes → Bytes
  decrypt : κ → Bytes → Bytes → Bytes → Option Bytes

/-- What AES-GCM is relied on for: it opens what was sealed with the same key, nonce and associated
data, and appends a tag of sixteen bytes. -/
structure Aead.Sound {κ : Type} (aead : Aead κ) : Prop where
  decrypt_encrypt : ∀ key nonce text aad,
    aead.decrypt key nonce (aead.encrypt key nonce text aad) aad = some text
  length_encrypt : ∀ key nonce text aad,
    (aead.encrypt key nonce text aad).length = text.length + 16

/-- The columns of a destination that enter the associated data. -/
structure DestinationScope where
  destinationId : Uuid
  tenantId : Uuid
  workspaceId : Uuid
  ownerUserId : Uuid
  channel : List Char
deriving DecidableEq

/-- `_aad` -/
def DestinationScope.aad (scope : DestinationScope) (keyVersion : List Char) : Bytes :=
  encodeUtf8 <| ['\x00'].intercalate
    ["crypto-alert-v2:notification-destination:v1".toList, scope.tenantId.text,
      scope.workspaceId.text, scope.ownerUserId.text, scope.destinationId.text, scope.channel,
      keyVersion]

inductive CredentialError where
  | valueError (message : String)
  /-- `NotificationCredentialError` -/
  | unavailable (message : String)
deriving DecidableEq

structure NotificationCredentialCipher (κ : Type) where
  keyVersion : List Char
  key : κ
  decryptKeys : List (List Char × κ)

namespace NotificationCredentialCipher

variable {κ : Type} (aead : Aead κ) (cipher : NotificationCredentialCipher κ)

/-- `self._decrypt_ciphers.get(key_version)` -/
def keyOf (keyVersion : List Char) : Option κ :=
  if keyVersion = cipher.keyVersion then some cipher.key else cipher.decryptKeys.lookup keyVersion

/-- The cipher of a process whose active version is another one of the ring. -/
def withActive (keyVersion : List Char) : Option (NotificationCredentialCipher κ) :=
  (cipher.keyOf keyVersion).map fun key => { cipher with keyVersion, key }

def encrypt (credential : List Char) (scope : DestinationScope) (nonce : Bytes) :
    Except CredentialError Bytes :=
  let plaintext := encodeUtf8 (Text.stripText credential)
  if plaintext = [] ∨ 255 < plaintext.length then
    .error (.valueError "notification credential is invalid")
  else .ok (nonce ++ aead.encrypt cipher.key nonce plaintext (scope.aad cipher.keyVersion))

def decrypt (ciphertext : Bytes) (scope : DestinationScope) (keyVersion : List Char) :
    Except CredentialError (List Char) :=
  let unavailable := .error (.unavailable "notification credential is unavailable")
  match cipher.keyOf keyVersion with
  | none => unavailable
  | some key =>
    if ciphertext.length ≤ 28 then unavailable
    else
      match (aead.decrypt key (ciphertext.take 12) (ciphertext.drop 12)
          (scope.aad keyVersion)).bind decodeUtf8 with
      | none => unavailable
      | some value => if Text.stripText value = [] then unavailable else .ok value

end NotificationCredentialCipher

/-- A credential as it is sealed: trimmed, not empty and of at most 255 bytes. -/
def IsStorable (credential : List Char) : Prop :=
  Text.stripText credential = credential ∧ credential ≠ [] ∧ (encodeUtf8 credential).length ≤ 255

namespace NotificationCredentialCipher

variable {κ : Type} {aead : Aead κ} {cipher : NotificationCredentialCipher κ}

/-- What `encrypt` has accepted is stored trimmed. -/
theorem encrypt_eq_ok {credential : List Char} {scope : DestinationScope} {nonce sealed : Bytes}
    (h : cipher.encrypt aead credential scope nonce = .ok sealed) :
    IsStorable (Text.stripText credential) ∧
      sealed = nonce ++ aead.encrypt cipher.key nonce (encodeUtf8 (Text.stripText credential))
        (scope.aad cipher.keyVersion) := by
  unfold encrypt at h
  dsimp only at h
  split_ifs at h with hinvalid
  obtain ⟨hnonempty, hlength⟩ := not_or.mp hinvalid
  refine ⟨⟨Text.stripText_stripText credential, ?_, not_lt.mp hlength⟩, (Except.ok.inj h).symm⟩
  intro hnil
  rw [hnil] at hnonempty
  exact hnonempty rfl

theorem encrypt_of_storable {credential : List Char} (h : IsStorable credential)
    (scope : DestinationScope) (nonce : Bytes) :
    cipher.encrypt aead credential scope nonce =
      .ok (nonce ++ aead.encrypt cipher.key nonce (encodeUtf8 credential)
        (scope.aad cipher.keyVersion)) := by
  obtain ⟨htrimmed, hnonempty, hlength⟩ := h
  have hvalid : ¬(encodeUtf8 credential = [] ∨ 255 < (encodeUtf8 credential).length) := by
    rintro (hnil | hlong)
    · exact encodeUtf8_ne_nil hnonempty hnil
    · omega
  unfold encrypt
  rw [htrimmed]
  exact if_neg hvalid

/-- The round trip: a key of the ring opens what it has sealed for the same destination. -/
theorem decrypt_sealed (hsound : aead.Sound) {credential : List Char} (h : IsStorable credential)
    {keyVersion : List Char} {key : κ} (hkey : cipher.keyOf keyVersion = some key)
    (scope : DestinationScope) {nonce : Bytes} (hnonce : nonce.length = 12) :
    cipher.decrypt aead (nonce ++ aead.encrypt key nonce (encodeUtf8 credential)
      (scope.aad keyVersion)) scope keyVersion = .ok credential := by
  have hlength : ¬(nonce ++ aead.encrypt key nonce (encodeUtf8 credential)
      (scope.aad keyVersion)).length ≤ 28 := by
    have hpositive := List.length_pos_iff.mpr (encodeUtf8_ne_nil h.2.1)
    rw [List.length_append, hsound.length_encrypt, hnonce]
    omega
  have hblank : Text.stripText credential ≠ [] := by
    rw [h.1]
    exact h.2.1
  simp only [decrypt, hkey, if_neg hlength, List.take_left' hnonce, List.drop_left' hnonce,
    hsound.decrypt_encrypt, Option.bind_some, decodeUtf8_encodeUtf8, if_neg hblank]

end NotificationCredentialCipher

end CryptoAlert
