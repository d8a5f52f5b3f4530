import CryptoAlert.Lib.CodePoints

/-!
# The signature of a webhook delivery

A signature is made over a canonical message of the delivery. The verifier normalises the key and
the event before it computes the signature that it expects, and takes the nonce as it is. The two
hash functions and the keys of the secret store are parameters.
-/

namespace CryptoAlert

abbrev Payload := List (Fin 256)

/-- HMAC-SHA256 and SHA-256, as hexadecimal digests. -/
structure WebhookHashes where
  hmac : List (Fin 256) → CodeText → CodeText
  sha256 : Payload → CodeText
  /-- The digest of a text in UTF-8. -/
  sha256Text : CodeText → CodeText
  hmac_ascii : ∀ key message, (hmac key message).IsAscii
  hmac_injective : ∀ key, Function.Injective (hmac key)
  sha256_injective : Function.Injective sha256
  sha256_hex : ∀ payload, ∀ c ∈ sha256 payload, c.isAlnum = true

structure WebhookSignature where
  keyId : CodeText
  timestamp : ℤ
  nonce : CodeText
  eventId : CodeText
  signature : CodeText
deriving DecidableEq

inductive RejectReason where
  | unknownKey | staleTimestamp | keyUnavailable | signatureInvalid | signatureMalformed
deriving DecidableEq, Repr

/-- The exceptions of the verifier: `WebhookSignatureError`, `ValueError` and `TypeError`. -/
inductive VerifierError where
  | signature (reason : RejectReason)
  | value
  | type
deriving DecidableEq, Repr

/-- What the secret store gives for a key. -/
inductive KeyLookup where
  | key (key : List (Fin 256))
  | unavailable
  /-- The store raises `ValueError`. -/
  | invalid
deriving DecidableEq

structure WebhookSigner where
  acceptedKeyIds : List CodeText
  maxAgeSeconds : ℕ
  /-- `int(self._now().timestamp())`. -/
  now : ℤ
  keys : CodeText → KeyLookup

/-- The characters of an identifier after the first. -/
def CodePoint.isIdMark (c : CodePoint) : Bool :=
  c.isAlnum || c == ofChar '.' || c == ofChar '_' || c == ofChar ':' || c == ofChar '-'

/-- `[A-Za-z0-9][A-Za-z0-9._:-]{0,max}`. -/
def isIdentifier (max : ℕ) : CodeText → Bool
  | [] => false
  | c :: rest => c.isAlnum && rest.length ≤ max && rest.all CodePoint.isIdMark

/-- Strips an identifier and matches it. -/
def validateIdentifier (max : ℕ) (value : CodeText) : Except VerifierError CodeText :=
  if isIdentifier max value.strip then .ok value.strip else .error .value

/-- `_validate_key_id`. -/
def validateKeyId (value : CodeText) : Except VerifierError CodeText := validateIdentifier 63 value

/-- `_validate_event_id`. -/
def validateEventId (value : CodeText) : Except VerifierError CodeText :=
  validateIdentifier 127 value

/-- `[A-Za-z0-9_-]`. -/
def CodePoint.isNonceMark (c : CodePoint) : Bool :=
  c.isAlnum || c == ofChar '_' || c == ofChar '-'

/-- `_validate_nonce`. -/
def validateNonce (value : CodeText) : Except VerifierError CodeText :=
  if 16 ≤ value.strip.length ∧ value.strip.length ≤ 128 ∧
      value.strip.all CodePoint.isNonceMark then
    .ok value.strip
  else .error .value

def ensure (p : Prop) [Decidable p] (e : VerifierError) : Except VerifierError Unit :=
  if p then .ok () else .error e

section

variable (hash : WebhookHashes)

/-- The lines of `_canonical_message`. -/
def canonicalLines (payload : Payload) (timestamp : ℤ) (nonce eventId : CodeText) : CodeText :=
  CodeText.ofChars ['v', '1'] ++ CodePoint.newline :: (CodeText.decimal timestamp ++
    CodePoint.newline :: (nonce ++ CodePoint.newline :: (eventId ++
      CodePoint.newline :: hash.sha256 payload)))

/-- `_canonical_message`; the encoding raises unless all characters are ASCII. -/
def canonicalMessage (payload : Payload) (timestamp : ℤ) (nonce eventId : CodeText) :
    Except VerifierError CodeText :=
  if (canonicalLines hash payload timestamp nonce eventId).IsAscii then
    .ok (canonicalLines hash payload timestamp nonce eventId)
  else .error .value

namespace WebhookSigner

variable (signer : WebhookSigner)

/-- `_key`. -/
def key (keyId : CodeText) : Except VerifierError (List (Fin 256)) :=
  match signer.keys keyId with
  | .key key => .ok key
  | .unavailable => .error (.signature .keyUnavailable)
  | .invalid => .error .value

/-- The first part of `verify`: the signature that is expected. -/
def expected (payload : Payload) (s : WebhookSignature) : Except VerifierError CodeText := do
  let keyId ← validateKeyId s.keyId
  let eventId ← validateEventId s.eventId
  let _ ← validateNonce s.nonce
  ensure (keyId ∈ signer.acceptedKeyIds) (.signature .unknownKey)
  ensure ((signer.now - s.timestamp).natAbs ≤ signer.maxAgeSeconds) (.signature .staleTimestamp)
  let key ← signer.key keyId
  let message ← canonicalMessage hash payload s.timestamp s.nonce eventId
  return hash.hmac key message

/-- `hmac.compare_digest` of two texts; both have to be ASCII. -/
def compareDigest (a b : CodeText) : Except VerifierError Bool :=
  if a.IsAscii ∧ b.IsAscii then .ok (a = b) else .error .type

/-- `verify`. -/
def verify (payload : Payload) (s : WebhookSignature) : Except VerifierError CodeText := do
  let expected ← signer.expected hash payload s
  let same ← compareDigest expected s.signature
  ensure (same = true) (.signature .signatureInvalid)
  return hash.sha256 payload

end WebhookSigner

end

variable {hash : WebhookHashes} {signer : WebhookSigner} {payload : Payload}
  {s : WebhookSignature}

theorem bind_eq_ok {α β : Type} {x : Except VerifierError α} {f : α → Except VerifierError β}
    {b : β} : x >>= f = .ok b ↔ ∃ a, x = .ok a ∧ f a = .ok b := by
  cases x with
  | error e =>
      constructor
      · rintro ⟨⟩
      · rintro ⟨a, ⟨⟩, -⟩
  | ok a =>
      constructor
      · intro h
        exact ⟨a, rfl, h⟩
      · rintro ⟨_, ⟨⟩, h⟩
        exact h

theorem bind_eq_error {α β : Type} {x : Except VerifierError α} {f : α → Except VerifierError β}
    {e : VerifierError} : x >>= f = .error e ↔ x = .error e ∨ ∃ a, x = .ok a ∧ f a = .error e := by
  cases x with
  | error e' =>
      constructor
      · intro h
        left
        cases h
        rfl
      · rintro (h | ⟨a, ha, -⟩)
        · cases h
          rfl
        · cases ha
  | ok a =>
      constructor
      · intro h
        exact .inr ⟨a, rfl, h⟩
      · rintro (h | ⟨b, hb, h⟩)
        · cases h
        · cases hb
          exact h

theorem ensure_eq_error {p : Prop} [Decidable p] {e e' : VerifierError}
    (h : ensure p e = .error e') : e' = e := by
  rw [ensure] at h
  split_ifs at h
  cases h
  rfl

theorem ensure_eq_ok {p : Prop} [Decidable p] {e : VerifierError} {a : Unit} :
    ensure p e = .ok a ↔ p := by
  rw [ensure]
  split_ifs with hp
  · exact ⟨fun _ => hp, fun _ => rfl⟩
  · exact ⟨fun h => (by cases h), fun h => absurd h hp⟩

theorem newline_notMem_identifier {max : ℕ} {t : CodeText} (h : isIdentifier max t = true) :
    CodePoint.newline ∉ t := by
  cases t with
  | nil => exact List.not_mem_nil
  | cons c rest =>
      simp only [isIdentifier, Bool.and_eq_true, List.all_eq_true] at h
      obtain ⟨⟨hfirst, -⟩, hrest⟩ := h
      intro hmem
      rcases List.mem_cons.mp hmem with rfl | hmem
      · exact absurd hfirst (by decide)
      · exact absurd (hrest _ hmem) (by decide)

theorem newline_notMem_sha256 (payload : Payload) : CodePoint.newline ∉ hash.sha256 payload := by
  intro hmem
  exact absurd (hash.sha256_hex payload _ hmem) (by decide)

/-- The canonical message determines what it was made of. -/
theorem canonicalLines_injective {payload' : Payload} {timestamp timestamp' : ℤ}
    {nonce nonce' eventId eventId' : CodeText} (hevent : CodePoint.newline ∉ eventId)
    (hevent' : CodePoint.newline ∉ eventId')
    (h : canonicalLines hash payload timestamp nonce eventId =
      canonicalLines hash payload' timestamp' nonce' eventId') :
    payload = payload' ∧ timestamp = timestamp' ∧ nonce = nonce' ∧ eventId = eventId' := by
  rw [canonicalLines, canonicalLines, List.append_right_inj, List.cons.injEq] at h
  obtain ⟨htimestamp, hrest⟩ := append_separator_inj (CodeText.newline_notMem_decimal _)
    (CodeText.newline_notMem_decimal _) h.2
  have hassoc : ∀ (n e : CodeText) (p : Payload),
      n ++ CodePoint.newline :: (e ++ CodePoint.newline :: hash.sha256 p) =
        (n ++ CodePoint.newline :: e) ++ CodePoint.newline :: hash.sha256 p := by
    intro n e p
    rw [List.append_assoc, List.cons_append]
  rw [hassoc, hassoc] at hrest
  obtain ⟨hfront, hpayload⟩ := append_last_separator_inj (newline_notMem_sha256 _)
    (newline_notMem_sha256 _) hrest
  obtain ⟨hnonce, heventId⟩ := append_last_separator_inj hevent hevent' hfront
  exact ⟨hash.sha256_injective hpayload, CodeText.decimal_injective htimestamp, hnonce, heventId⟩

theorem validateIdentifier_eq_ok {max : ℕ} {value t : CodeText}
    (h : validateIdentifier max value = .ok t) : isIdentifier max t = true ∧ value.strip = t := by
  rw [validateIdentifier] at h
  split_ifs at h with hid
  cases h
  exact ⟨hid, rfl⟩

/-- The signature is the one of a key that the signer accepts, over the canonical message of the
delivery, and of no other payload, timestamp, nonce or event. -/
structure WebhookSigner.Signed (hash : WebhookHashes) (signer : WebhookSigner) (payload : Payload)
    (s : WebhookSignature) : Prop where
  accepted : s.keyId.strip ∈ signer.acceptedKeyIds
  fresh : (signer.now - s.timestamp).natAbs ≤ signer.maxAgeSeconds
  signed : ∃ key, signer.keys s.keyId.strip = .key key ∧
    s.signature = hash.hmac key (canonicalLines hash payload s.timestamp s.nonce s.eventId.strip) ∧
    ∀ payload' timestamp' nonce' eventId', isIdentifier 127 eventId' = true →
      s.signature = hash.hmac key (canonicalLines hash payload' timestamp' nonce' eventId') →
      payload' = payload ∧ timestamp' = s.timestamp ∧ nonce' = s.nonce ∧
        eventId' = s.eventId.strip

theorem WebhookSigner.signed_of_verify {digest : CodeText}
    (h : signer.verify hash payload s = .ok digest) :
    signer.Signed hash payload s ∧ digest = hash.sha256 payload := by
  obtain ⟨expected, hexpected, h₁⟩ := bind_eq_ok.mp h
  obtain ⟨same, hsame, h₂⟩ := bind_eq_ok.mp h₁
  obtain ⟨_, hvalid, hdigest⟩ := bind_eq_ok.mp h₂
  obtain ⟨keyId, hkeyId, h₃⟩ := bind_eq_ok.mp hexpected
  obtain ⟨eventId, heventId, h₄⟩ := bind_eq_ok.mp h₃
  obtain ⟨_, -, h₅⟩ := bind_eq_ok.mp h₄
  obtain ⟨_, haccepted, h₆⟩ := bind_eq_ok.mp h₅
  obtain ⟨_, hfresh, h₇⟩ := bind_eq_ok.mp h₆
  obtain ⟨key, hkey, h₈⟩ := bind_eq_ok.mp h₇
  obtain ⟨message, hmessage, hhmac⟩ := bind_eq_ok.mp h₈
  obtain ⟨-, rfl⟩ := validateIdentifier_eq_ok hkeyId
  obtain ⟨hevent, rfl⟩ := validateIdentifier_eq_ok heventId
  have hsignature : s.signature = hash.hmac key message := by
    rw [compareDigest] at hsame
    split_ifs at hsame
    have hequal : decide (expected = s.signature) = same := Except.ok.inj hsame
    rw [ensure_eq_ok.mp hvalid] at hequal
    rw [Except.ok.inj hhmac, of_decide_eq_true hequal]
  have hlines : message = canonicalLines hash payload s.timestamp s.nonce s.eventId.strip := by
    rw [canonicalMessage] at hmessage
    split_ifs at hmessage
    cases hmessage
    rfl
  have hlookup : signer.keys s.keyId.strip = .key key := by
    rw [WebhookSigner.key] at hkey
    cases hkeys : signer.keys s.keyId.strip with
    | key k =>
        rw [hkeys] at hkey
        cases hkey
        rfl
    | unavailable => rw [hkeys] at hkey; cases hkey
    | invalid => rw [hkeys] at hkey; cases hkey
  rw [hlines] at hsignature
  refine ⟨⟨ensure_eq_ok.mp haccepted, ensure_eq_ok.mp hfresh, key, hlookup, hsignature, ?_⟩, ?_⟩
  · intro payload' timestamp' nonce' eventId' hevent' hsame
    have hmessages := hash.hmac_injective key (hsame.symm.trans hsignature)
    exact canonicalLines_injective (newline_notMem_identifier hevent')
      (newline_notMem_identifier hevent) hmessages
  · exact (Except.ok.inj hdigest).symm

end CryptoAlert
