import CryptoAlert.Integrations.WebhookDeliveries

/-!
# The round trip of a signed delivery

The signer that sends a delivery and the one that verifies it are two configurations of one
class. What the first signs with its active key the second verifies, as long as it accepts that
key with the same secret: the clock and the payload alone decide.
-/

namespace CryptoAlert

/-- A signer as its constructor leaves it. -/
structure KeyedSigner extends WebhookSigner where
  activeKeyId : CodeText
  valid : ∀ k ∈ acceptedKeyIds, isIdentifier 63 k = true
  active : activeKeyId ∈ acceptedKeyIds

/-- What the constructor checks. -/
structure SignerConfig where
  activeKeyId : CodeText
  acceptedKeyIds : List CodeText
  maxAgeSeconds : ℤ
  now : ℤ
  keys : CodeText → KeyLookup

namespace SignerConfig

variable (c : SignerConfig)

/-- The key identifiers, without white space around them and without repetitions. -/
def keyIds : List CodeText :=
  (c.activeKeyId.strip :: c.acceptedKeyIds.map CodeText.strip).eraseDups

def Valid : Prop :=
  (∀ k ∈ c.keyIds, isIdentifier 63 k = true) ∧ 1 ≤ c.maxAgeSeconds ∧ c.maxAgeSeconds ≤ 3600

instance decidableValid : Decidable c.Valid := inferInstanceAs (Decidable (_ ∧ _))

theorem active_mem_keyIds : c.activeKeyId.strip ∈ c.keyIds :=
  List.mem_eraseDups.mpr List.mem_cons_self

/-- `WebhookSigner.__init__`. -/
def build : Except VerifierError KeyedSigner :=
  if h : c.Valid then
    .ok ⟨⟨c.keyIds, c.maxAgeSeconds.toNat, c.now, c.keys⟩, c.activeKeyId.strip, h.1,
      c.active_mem_keyIds⟩
  else .error .value

end SignerConfig

section Sign

variable (hash : WebhookHashes)

/-- `sign`; `token` is the fresh nonce that is made where none is given. -/
def KeyedSigner.sign (signer : KeyedSigner) (payload : Payload) (eventId : CodeText)
    (timestamp : Option ℤ) (nonce : Option CodeText) (token : CodeText) :
    Except VerifierError WebhookSignature := do
  let eventId ← validateEventId eventId
  let issuedAt := timestamp.getD signer.now
  let nonce := (nonce.filter fun n => !n.isEmpty).getD token
  let _ ← validateNonce nonce
  let key ← signer.key signer.activeKeyId
  let message ← canonicalMessage hash payload issuedAt nonce eventId
  return ⟨signer.activeKeyId, issuedAt, nonce, eventId, hash.hmac key message⟩

end Sign

section Spaces

theorem isSpace_of_isAlnum {c : CodePoint} (h : c.isAlnum = true) : c.isSpace = false := by
  simp only [CodePoint.isAlnum, CodePoint.isSpace, Bool.or_eq_true, Bool.and_eq_true,
    decide_eq_true_eq] at h ⊢
  simp only [Bool.or_eq_false_iff, Bool.and_eq_false_iff, decide_eq_false_iff_not,
    beq_eq_false_iff_ne]
  omega

theorem isSpace_of_isIdMark {c : CodePoint} (h : c.isIdMark = true) : c.isSpace = false := by
  simp only [CodePoint.isIdMark, Bool.or_eq_true, beq_iff_eq] at h
  rcases h with (((h | rfl) | rfl) | rfl) | rfl
  · exact isSpace_of_isAlnum h
  all_goals decide

theorem isAscii_of_isIdMark {c : CodePoint} (h : c.isIdMark = true) : c.isAscii = true := by
  simp only [CodePoint.isIdMark, Bool.or_eq_true, beq_iff_eq] at h
  rcases h with (((h | rfl) | rfl) | rfl) | rfl
  · simp only [CodePoint.isAlnum, CodePoint.isAscii, Bool.or_eq_true, Bool.and_eq_true,
      decide_eq_true_eq] at h ⊢
    omega
  all_goals decide

/-- The characters of an identifier. -/
theorem isIdMark_of_mem {max : ℕ} {t : CodeText} (h : isIdentifier max t = true) {c : CodePoint}
    (hc : c ∈ t) : c.isIdMark = true := by
  cases t with
  | nil => exact absurd hc List.not_mem_nil
  | cons d rest =>
      simp only [isIdentifier, Bool.and_eq_true, List.all_eq_true] at h
      obtain ⟨⟨hfirst, -⟩, hrest⟩ := h
      rcases List.mem_cons.mp hc with rfl | hmem
      · simp [CodePoint.isIdMark, hfirst]
      · exact hrest c hmem

theorem length_of_isIdentifier {max : ℕ} {t : CodeText} (h : isIdentifier max t = true) :
    t.length ≤ max + 1 := by
  cases t with
  | nil => exact Nat.zero_le _
  | cons d rest =>
      simp only [isIdentifier, Bool.and_eq_true, decide_eq_true_eq] at h
      exact Nat.succ_le_succ h.1.2

theorem CodeText.strip_eq_self {t : CodeText} (h : ∀ c ∈ t, c.isSpace = false) : t.strip = t := by
  have hdrop : t.dropWhile CodePoint.isSpace = t := by
    cases t with
    | nil => rfl
    | cons c rest => rw [List.dropWhile_cons, if_neg (by simp [h c List.mem_cons_self])]
  rw [CodeText.strip, hdrop, List.rdropWhile_eq_self_iff]
  intro hne
  simp [h _ (List.getLast_mem hne)]

/-- An identifier has no white space around it. -/
theorem strip_of_isIdentifier {max : ℕ} {t : CodeText} (h : isIdentifier max t = true) :
    t.strip = t :=
  CodeText.strip_eq_self fun _ hc => isSpace_of_isIdMark (isIdMark_of_mem h hc)

theorem validateIdentifier_of_isIdentifier {max : ℕ} {t : CodeText}
    (h : isIdentifier max t = true) : validateIdentifier max t = .ok t := by
  rw [validateIdentifier, strip_of_isIdentifier h, if_pos h]

end Spaces

section RoundTrip

variable {hash : WebhookHashes} {signer : KeyedSigner} {other : WebhookSigner}
  {payload payload' : Payload} {eventId token : CodeText} {timestamp : Option ℤ}
  {nonce : Option CodeText} {s : WebhookSignature}

/-- A signature over the canonical message of the payload, with the identifiers in their normal
form. -/
structure WebhookSignature.MadeWith (hash : WebhookHashes) (key : List (Fin 256))
    (payload : Payload) (s : WebhookSignature) : Prop where
  keyId : isIdentifier 63 s.keyId = true
  eventId : isIdentifier 127 s.eventId = true
  nonce : ∃ stripped, validateNonce s.nonce = .ok stripped
  ascii : (canonicalLines hash payload s.timestamp s.nonce s.eventId).IsAscii
  signature : s.signature =
    hash.hmac key (canonicalLines hash payload s.timestamp s.nonce s.eventId)

/-- What a signature that is returned looks like. -/
theorem KeyedSigner.madeWith_of_sign
    (h : signer.sign hash payload eventId timestamp nonce token = .ok s) :
    s.keyId = signer.activeKeyId ∧ s.eventId = eventId.strip ∧
      s.timestamp = timestamp.getD signer.now ∧
      ∃ key, signer.keys signer.activeKeyId = .key key ∧ s.MadeWith hash key payload := by
  obtain ⟨event, hevent, h₁⟩ := bind_eq_ok.mp h
  obtain ⟨stripped, hnonce, h₂⟩ := bind_eq_ok.mp h₁
  obtain ⟨key, hkey, h₃⟩ := bind_eq_ok.mp h₂
  obtain ⟨message, hmessage, h₄⟩ := bind_eq_ok.mp h₃
  obtain ⟨hid, rfl⟩ := validateIdentifier_eq_ok hevent
  cases h₄
  have hlookup : signer.keys signer.activeKeyId = .key key := by
    rw [WebhookSigner.key] at hkey
    cases hkeys : signer.keys signer.activeKeyId with
    | key k =>
        rw [hkeys] at hkey
        cases hkey
        rfl
    | unavailable => rw [hkeys] at hkey; cases hkey
    | invalid => rw [hkeys] at hkey; cases hkey
  rw [canonicalMessage] at hmessage
  split_ifs at hmessage with hascii
  cases hmessage
  exact ⟨rfl, rfl, rfl, key, hlookup,
    ⟨signer.valid _ signer.active, hid, ⟨stripped, hnonce⟩, hascii, rfl⟩⟩

theorem isAscii_canonicalLines {timestamp : ℤ} {nonce event : CodeText}
    (h : (canonicalLines hash payload timestamp nonce event).IsAscii) (payload' : Payload) :
    (canonicalLines hash payload' timestamp nonce event).IsAscii := by
  have hhex : ∀ c ∈ hash.sha256 payload', c.isAscii = true := fun c hc =>
    isAscii_of_isIdMark (by simp [CodePoint.isIdMark, hash.sha256_hex payload' c hc])
  simp only [canonicalLines, CodeText.IsAscii, List.forall_mem_append,
    List.forall_mem_cons] at h ⊢
  obtain ⟨hversion, hline, htimestamp, hsecond, hnonce, hnext, hevent, hlast, -⟩ := h
  exact ⟨hversion, hline, htimestamp, hsecond, hnonce, hnext, hevent, hlast, hhex⟩

/-- What is expected of a signature that was made, by a signer that has the key. -/
theorem WebhookSigner.expected_of_madeWith {key : List (Fin 256)}
    (hmade : s.MadeWith hash key payload) (haccepted : s.keyId ∈ other.acceptedKeyIds) (hkey : other.keys s.keyId = .key key)
    (payload' : Payload) :
    other.expected hash payload' s =
      if (other.now - s.timestamp).natAbs ≤ other.maxAgeSeconds then
        .ok (hash.hmac key (canonicalLines hash payload' s.timestamp s.nonce s.eventId))
      else .error (.signature .staleTimestamp) := by
  obtain ⟨stripped, hnonce⟩ := hmade.nonce
  have hmessage : canonicalMessage hash payload' s.timestamp s.nonce s.eventId =
      .ok (canonicalLines hash payload' s.timestamp s.nonce s.eventId) :=
    if_pos (isAscii_canonicalLines hmade.ascii payload')
  have hlookup : other.key s.keyId = .ok key := by rw [WebhookSigner.key, hkey]
  have hkeyId := validateIdentifier_of_isIdentifier hmade.keyId
  have heventId := validateIdentifier_of_isIdentifier hmade.eventId
  split_ifs with hfresh
  · refine bind_eq_ok.mpr ⟨_, hkeyId, bind_eq_ok.mpr ⟨_, heventId, bind_eq_ok.mpr ⟨_, hnonce, ?_⟩⟩⟩
    refine bind_eq_ok.mpr ⟨(), ensure_eq_ok.mpr haccepted, ?_⟩
    refine bind_eq_ok.mpr ⟨(), ensure_eq_ok.mpr hfresh, ?_⟩
    exact bind_eq_ok.mpr ⟨_, hlookup, bind_eq_ok.mpr ⟨_, hmessage, rfl⟩⟩
  · refine bind_eq_error.mpr (.inr ⟨_, hkeyId, bind_eq_error.mpr (.inr ⟨_, heventId, ?_⟩)⟩)
    refine bind_eq_error.mpr (.inr ⟨_, hnonce, ?_⟩)
    refine bind_eq_error.mpr (.inr ⟨(), ensure_eq_ok.mpr haccepted, ?_⟩)
    exact bind_eq_error.mpr (.inl (if_neg hfresh))

theorem WebhookSigner.verify_of_madeWith {key : List (Fin 256)}
    (hmade : s.MadeWith hash key payload) (haccepted : s.keyId ∈ other.acceptedKeyIds)
    (hkey : other.keys s.keyId = .key key) (payload' : Payload) :
    other.verify hash payload' s =
      if (other.now - s.timestamp).natAbs ≤ other.maxAgeSeconds then
        if payload' = payload then .ok (hash.sha256 payload')
        else .error (.signature .signatureInvalid)
      else .error (.signature .staleTimestamp) := by
  have hexpected := other.expected_of_madeWith hmade haccepted hkey payload'
  rw [WebhookSigner.verify, hexpected]
  by_cases hfresh : (other.now - s.timestamp).natAbs ≤ other.maxAgeSeconds
  · rw [if_pos hfresh, if_pos hfresh]
    have hcompare : WebhookSigner.compareDigest
        (hash.hmac key (canonicalLines hash payload' s.timestamp s.nonce s.eventId))
        s.signature = .ok (decide (payload' = payload)) := by
      have hsame : hash.hmac key (canonicalLines hash payload' s.timestamp s.nonce s.eventId) =
          s.signature ↔ payload' = payload := by
        constructor
        · intro h
          rw [hmade.signature] at h
          have hevent := newline_notMem_identifier hmade.eventId
          exact (canonicalLines_injective hevent hevent (hash.hmac_injective key h)).1
        · rintro rfl
          exact hmade.signature.symm
      have hascii : s.signature.IsAscii := by
        rw [hmade.signature]
        exact hash.hmac_ascii _ _
      rw [WebhookSigner.compareDigest, if_pos ⟨hash.hmac_ascii _ _, hascii⟩]
      simp only [hsame]
    change (WebhookSigner.compareDigest _ s.signature >>= _) = _
    rw [hcompare]
    by_cases hpayload : payload' = payload
    · simp only [hpayload, decide_true, if_true]
      rfl
    · simp only [hpayload, decide_false, if_false]
      rfl
  · rw [if_neg hfresh, if_neg hfresh]
    rfl

/-- A signature that one signer has made is verified by every signer that accepts the active key
of the first under the same secret: the clock decides whether it is stale, and then the payload
whether it is valid. -/
theorem verify_sign (hsign : signer.sign hash payload eventId timestamp nonce token = .ok s)
    (haccepted : signer.activeKeyId ∈ other.acceptedKeyIds)
    (hsecret : other.keys signer.activeKeyId = signer.keys signer.activeKeyId)
    (payload' : Payload) :
    other.verify hash payload' s =
      if (other.now - timestamp.getD signer.now).natAbs ≤ other.maxAgeSeconds then
        if payload' = payload then .ok (hash.sha256 payload')
        else .error (.signature .signatureInvalid)
      else .error (.signature .staleTimestamp) := by
  obtain ⟨hkeyId, -, htimestamp, key, hkey, hmade⟩ := KeyedSigner.madeWith_of_sign hsign
  rw [← htimestamp]
  apply other.verify_of_madeWith hmade
  · rw [hkeyId]
    exact haccepted
  · rw [hkeyId, hsecret, hkey]

end RoundTrip

/-- A column gives an identifier back that was stored with spaces behind it. -/
theorem strip_of_store {t event : CodeText} (hevent : isIdentifier 127 event = true)
    (h : t.store 128 = some event) : t.strip = event := by
  unfold CodeText.store at h
  split_ifs at h with hstore
  obtain ⟨-, -, hspaces⟩ := hstore
  have hsplit : t = event ++ t.drop 128 := by
    rw [← Option.some.inj h, List.take_append_drop]
  have hblank : ∀ c ∈ (t.drop 128).reverse, c.isSpace = true := by
    intro c hc
    have hspace := List.all_eq_true.mp hspaces c (List.mem_reverse.mp hc)
    rw [beq_iff_eq.mp hspace]
    decide
  have hmarks : ∀ c ∈ event, c.isSpace = false := fun c hc =>
    isSpace_of_isIdMark (isIdMark_of_mem hevent hc)
  have hfront : t.dropWhile CodePoint.isSpace = t := by
    cases event with
    | nil => cases hevent
    | cons c rest =>
        rw [hsplit, List.cons_append, List.dropWhile_cons,
          if_neg (by simp [hmarks c List.mem_cons_self])]
  have hback : event.rdropWhile CodePoint.isSpace = event := by
    rw [List.rdropWhile_eq_self_iff]
    intro hne
    simp [hmarks _ (List.getLast_mem hne)]
  rw [CodeText.strip, hfront, hsplit, List.rdropWhile, List.reverse_append,
    List.dropWhile_append_of_pos hblank]
  exact hback

theorem store_of_isIdentifier {max n : ℕ} {t : CodeText} (h : isIdentifier max t = true)
    (hn : max + 1 ≤ n) : t.store n = some t := by
  have hlength := length_of_isIdentifier h
  have hascii : ∀ c ∈ t, c.isAscii = true := fun c hc =>
    isAscii_of_isIdMark (isIdMark_of_mem h hc)
  have hencodable : t.Encodable := by
    intro c hc
    have hlt := hascii c hc
    simp only [CodePoint.isAscii, decide_eq_true_eq] at hlt
    simp only [CodePoint.isSurrogate, Bool.and_eq_false_iff, decide_eq_false_iff_not]
    omega
  have hzero : 0 ∉ t := fun hc => absurd (isIdMark_of_mem h hc) (by decide)
  have hdrop : t.drop n = [] := List.drop_eq_nil_of_le (by omega)
  rw [CodeText.store, if_pos ⟨hencodable, hzero, by rw [hdrop]; rfl⟩,
    List.take_of_length_le (by omega)]

namespace WebhookRun

section Landing

variable {hash : WebhookHashes} {integration : WebhookIntegration} {r r' : WebhookRun}
  {d : WebhookDelivery}

/-- The rows of accepted deliveries and the deliveries themselves. -/
structure Recorded (hash : WebhookHashes) (r : WebhookRun) : Prop where
  audited : ∀ d ∈ r.accepted, ∃ a ∈ r.rows.audits, a.status = .accepted ∧
    d.signature.eventId.store 128 = some a.eventId
  accepted : ∀ a ∈ r.rows.audits, a.status = .accepted →
    ∃ d ∈ r.accepted, d.signature.eventId.store 128 = some a.eventId
  consumed : ∀ n ∈ r.rows.nonces, ∃ d ∈ r.accepted, nonceHash hash d = n.nonceHash

theorem Recorded.step (hr : r.Recorded hash) (h : r.step hash integration d = some r') :
    r'.Recorded hash := by
  cases haccept : acceptWebhookDelivery hash integration r.rows d with
  | none =>
      rw [WebhookRun.step, haccept] at h
      cases h
      have hsame : WebhookRun.accepted ⟨r.rows, r.calls ++ [(d, none)]⟩ = r.accepted := by
        simp [WebhookRun.accepted, isAccepted]
      exact ⟨by rw [hsame]; exact hr.audited, by rw [hsame]; exact hr.accepted,
        by rw [hsame]; exact hr.consumed⟩
  | some outcome =>
      obtain ⟨rows, result⟩ := outcome
      obtain ⟨-, ⟨audit, haudits, hstatus, haudit⟩, hnonces⟩ := acceptWebhookDelivery_cases haccept
      rw [WebhookRun.step, haccept] at h
      cases h
      by_cases haccepted : result.status = .accepted
      · have hlist : WebhookRun.accepted ⟨rows, r.calls ++ [(d, some result)]⟩ =
            r.accepted ++ [d] := by
          simp [WebhookRun.accepted, isAccepted, haccepted]
        rw [if_pos haccepted] at hnonces
        constructor
        · rw [hlist, haudits]
          intro d' hd'
          rcases List.mem_append.mp hd' with hmem | hnew
          · obtain ⟨a, ha, hrow⟩ := hr.audited d' hmem
            exact ⟨a, List.mem_append_left _ ha, hrow⟩
          · rw [List.mem_singleton.mp hnew]
            exact ⟨audit, List.mem_append_right _ List.mem_cons_self,
              hstatus.trans haccepted, haudit.eventId⟩
        · rw [hlist, haudits]
          intro a ha hrow
          rcases List.mem_append.mp ha with hmem | hnew
          · obtain ⟨d', hd', hstored⟩ := hr.accepted a hmem hrow
            exact ⟨d', List.mem_append_left _ hd', hstored⟩
          · rw [List.mem_singleton.mp hnew]
            exact ⟨d, List.mem_append_right _ List.mem_cons_self, haudit.eventId⟩
        · rw [hlist, hnonces]
          intro n hn
          rcases List.mem_append.mp hn with hmem | hnew
          · obtain ⟨d', hd', hhash⟩ := hr.consumed n hmem
            exact ⟨d', List.mem_append_left _ hd', hhash⟩
          · rw [List.mem_singleton.mp hnew]
            exact ⟨d, List.mem_append_right _ List.mem_cons_self, rfl⟩
      · have hlist : WebhookRun.accepted ⟨rows, r.calls ++ [(d, some result)]⟩ = r.accepted := by
          simp [WebhookRun.accepted, isAccepted, haccepted]
        rw [if_neg haccepted] at hnonces
        constructor
        · rw [hlist, haudits]
          intro d' hd'
          obtain ⟨a, ha, hrow⟩ := hr.audited d' hd'
          exact ⟨a, List.mem_append_left _ ha, hrow⟩
        · rw [hlist, haudits]
          intro a ha hrow
          rcases List.mem_append.mp ha with hmem | hnew
          · exact hr.accepted a hmem hrow
          · rw [List.mem_singleton.mp hnew, hstatus] at hrow
            exact absurd hrow haccepted
        · rw [hlist, hnonces]
          exact hr.consumed

theorem recorded_of_reaches (h : Reaches (step hash integration) anyStep start r) :
    r.Recorded hash := by
  refine h.invariant (I := fun r => r.Recorded hash) (fun _ _ _ _ hr hstep => hr.step hstep) ?_
  exact ⟨fun _ h => absurd h List.not_mem_nil, fun _ h => absurd h List.not_mem_nil,
    fun _ h => absurd h List.not_mem_nil⟩

/-- A signature that was made can be stored and its nonce be encoded. -/
theorem acceptWebhookDelivery_of_madeWith {key : List (Fin 256)}
    (hactive : integration.active = true) (hmade : d.signature.MadeWith hash key d.payload)
    {verdict : WebhookStatus × Option WebhookReason}
    (hjudge : judge hash integration r.rows d = some verdict) :
    (acceptWebhookDelivery hash integration r.rows d).isSome := by
  have hencodable : d.signature.nonce.Encodable := by
    intro c hc
    have hascii : c.isAscii = true := by
      apply hmade.ascii
      rw [canonicalLines]
      simp [hc]
    simp only [CodePoint.isAscii, decide_eq_true_eq] at hascii
    simp only [CodePoint.isSurrogate, Bool.and_eq_false_iff, decide_eq_false_iff_not]
    omega
  have hevent := store_of_isIdentifier hmade.eventId (n := 128) le_rfl
  have hkeyId := store_of_isIdentifier hmade.keyId (n := 64) le_rfl
  simp only [acceptWebhookDelivery, auditRow, guard, if_pos hactive, if_pos hencodable, hjudge,
    hevent, hkeyId, Option.bind_eq_bind, Option.pure_def, Option.bind_some, Option.isSome_some]

variable {signer : KeyedSigner} {eventId token : CodeText} {timestamp : Option ℤ}
  {nonce : Option CodeText}

/-- After any calls to an active integration, a delivery that an accepted key has signed and that
arrives in time leaves its event accepted, and accepted once more only if it was not accepted
under this identifier before. Only a nonce that another event has consumed could prevent it. -/
theorem signed_delivery_lands (hactive : integration.active = true)
    (hrun : Reaches (step hash integration) anyStep start r)
    (hsign : signer.sign hash d.payload eventId timestamp nonce token = .ok d.signature)
    (hkey : signer.activeKeyId ∈ integration.acceptedKeyIds)
    (haccepted : signer.activeKeyId ∈ d.signer.acceptedKeyIds)
    (hsecret : d.signer.keys signer.activeKeyId = signer.keys signer.activeKeyId)
    (hfresh : (d.signer.now - d.signature.timestamp).natAbs ≤ d.signer.maxAgeSeconds)
    (hnonce : ∀ d' ∈ r.accepted, nonceHash hash d' = nonceHash hash d →
      d'.signature.eventId.strip = eventId.strip) :
    ∃ r', r.step hash integration d = some r' ∧
      (∃ d' ∈ r'.accepted, d'.signature.eventId.strip = eventId.strip) ∧
      ∀ d' ∈ r.accepted, d'.signature.eventId = eventId.strip → r'.accepted = r.accepted := by
  have hrecorded := recorded_of_reaches hrun
  obtain ⟨hkeyId, hevent, -, key, hlookup, hmade⟩ := KeyedSigner.madeWith_of_sign hsign
  have hverify := d.signer.verify_of_madeWith hmade (by rw [hkeyId]; exact haccepted)
    (by rw [hkeyId, hsecret, hlookup]) d.payload
  rw [if_pos hfresh, if_pos rfl] at hverify
  have hauth : authenticateDelivery hash integration d = .ok (hash.sha256 d.payload) :=
    bind_eq_ok.mpr ⟨(), ensure_eq_ok.mpr (by rw [hkeyId]; exact hkey), hverify⟩
  have hstripped : d.signature.eventId.strip = eventId.strip := by
    rw [strip_of_isIdentifier hmade.eventId, hevent]
  -- An audit row of an accepted delivery of the event, under the identifier that was signed.
  let Known : Prop := ∃ a ∈ r.rows.audits, a.eventId = d.signature.eventId ∧ a.status = .accepted
  have hjudge : judge hash integration r.rows d =
      if Known then some (.replayed, some .duplicateEvent)
      else if ∃ n ∈ r.rows.nonces, n.nonceHash = nonceHash hash d then
        some (.replayed, some .nonceReplay)
      else some (.accepted, none) := by
    rw [judge, hauth]
  obtain ⟨verdict, hverdict⟩ : ∃ verdict, judge hash integration r.rows d = some verdict := by
    rw [hjudge]
    split_ifs
    · exact ⟨_, rfl⟩
    · exact ⟨_, rfl⟩
    · exact ⟨_, rfl⟩
  obtain ⟨⟨rows, result⟩, haccept⟩ := Option.isSome_iff_exists.mp
    (acceptWebhookDelivery_of_madeWith hactive hmade hverdict)
  have hstep : r.step hash integration d = some ⟨rows, r.calls ++ [(d, some result)]⟩ := by
    rw [WebhookRun.step, haccept]
  obtain ⟨hresult, -⟩ := acceptWebhookDelivery_cases haccept
  rw [hjudge] at hresult
  refine ⟨_, hstep, ?_, ?_⟩
  · by_cases hkept : result.status = .accepted
    · exact ⟨d, by simp [WebhookRun.accepted, isAccepted, hkept], hstripped⟩
    · have hlist : WebhookRun.accepted ⟨rows, r.calls ++ [(d, some result)]⟩ = r.accepted := by
        simp [WebhookRun.accepted, isAccepted, hkept]
      rw [hlist]
      split_ifs at hresult with hknown hreplayed
      · obtain ⟨a, ha, hsame, hstatus⟩ := hknown
        obtain ⟨d', hd', hstored⟩ := hrecorded.accepted a ha hstatus
        rw [hsame] at hstored
        exact ⟨d', hd', (strip_of_store hmade.eventId hstored).trans hevent⟩
      · obtain ⟨n, hn, hsame⟩ := hreplayed
        obtain ⟨d', hd', hhash⟩ := hrecorded.consumed n hn
        exact ⟨d', hd', hnonce d' hd' (hhash.trans hsame)⟩
      · exact absurd (Prod.ext_iff.mp (Option.some.inj hresult)).1.symm hkept
  · intro d' hd' hsame
    obtain ⟨a, ha, hstatus, hstored⟩ := hrecorded.audited d' hd'
    have hrow : a.eventId = d.signature.eventId := by
      rw [hsame, ← hevent, store_of_isIdentifier hmade.eventId (n := 128) le_rfl] at hstored
      exact (Option.some.inj hstored).symm
    rw [if_pos ⟨a, ha, hrow, hstatus⟩] at hresult
    have hreplayed : result.status = .replayed := (Prod.ext_iff.mp (Option.some.inj hresult)).1.symm
    simp [WebhookRun.accepted, isAccepted, hreplayed]

end Landing

section PlainSigner

/-- The plain signer, which signs with its only key. -/
def plainKeyedSigner : KeyedSigner :=
  ⟨plainSigner, CodeText.ofChars ['k'], by decide, by decide⟩

def plainToken : CodeText := CodeText.ofChars (List.replicate 16 'a')

theorem plainKeyedSigner_signs :
    ∃ s, plainKeyedSigner.sign plainHashes [1, 2] (CodeText.ofChars [' ', 'e']) none none
      plainToken = .ok s := by
  have hok : (plainKeyedSigner.sign plainHashes [1, 2] (CodeText.ofChars [' ', 'e']) none none
      plainToken).isOk = true := by decide +kernel
  cases hsign : plainKeyedSigner.sign plainHashes [1, 2] (CodeText.ofChars [' ', 'e']) none none
      plainToken with
  | error e => rw [hsign] at hok; cases hok
  | ok s => exact ⟨s, rfl⟩

/-- The plain signer takes its own signature for its payload and for no other. -/
theorem verify_sign_plain :
    ∃ s, plainSigner.verify plainHashes [1, 2] s = .ok (plainHashes.sha256 [1, 2]) ∧
      plainSigner.verify plainHashes [1] s = .error (.signature .signatureInvalid) := by
  obtain ⟨s, hsign⟩ := plainKeyedSigner_signs
  have haccepted : plainKeyedSigner.activeKeyId ∈ plainSigner.acceptedKeyIds := by decide
  have hverify := verify_sign hsign haccepted rfl
  refine ⟨s, ?_, ?_⟩
  · rw [hverify, if_pos (by decide), if_pos rfl]
  · rw [hverify, if_pos (by decide), if_neg (by decide)]

def signedDelivery (s : WebhookSignature) : WebhookDelivery :=
  { plainDelivery ['e'] 'n' with signature := s }

/-- The first delivery of a signed event is accepted. -/
theorem signed_delivery_lands_plain :
    ∃ d r', step plainHashes plainIntegration start d = some r' ∧
      ∃ d' ∈ r'.accepted, d'.signature.eventId.strip = CodeText.ofChars ['e'] := by
  obtain ⟨s, hsign⟩ := plainKeyedSigner_signs
  obtain ⟨-, -, htimestamp, -⟩ := KeyedSigner.madeWith_of_sign hsign
  have hkey : plainKeyedSigner.activeKeyId ∈ plainIntegration.acceptedKeyIds := by decide
  have haccepted : plainKeyedSigner.activeKeyId ∈ (signedDelivery s).signer.acceptedKeyIds := hkey
  have hnow : (plainSigner.now - plainKeyedSigner.now).natAbs ≤ plainSigner.maxAgeSeconds := by
    decide
  have hfresh : ((signedDelivery s).signer.now - s.timestamp).natAbs ≤
      (signedDelivery s).signer.maxAgeSeconds := by
    rw [htimestamp]
    exact hnow
  have hsent : plainKeyedSigner.sign plainHashes (signedDelivery s).payload
      (CodeText.ofChars [' ', 'e']) none none plainToken = .ok (signedDelivery s).signature := hsign
  have hstrip : (CodeText.ofChars [' ', 'e']).strip = CodeText.ofChars ['e'] := by decide
  obtain ⟨r', hstep, hlanded, -⟩ := signed_delivery_lands rfl .refl hsent hkey haccepted rfl
    hfresh (fun d' hd' => absurd hd' List.not_mem_nil)
  rw [hstrip] at hlanded
  exact ⟨_, r', hstep, hlanded⟩

end PlainSigner

end WebhookRun

end CryptoAlert
