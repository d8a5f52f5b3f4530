import CryptoAlert.Lib.Base64
import CryptoAlert.Lib.Instants
import CryptoAlert.Lib.JsonText
import CryptoAlert.Lib.Uuids
import CryptoAlert.Persistence.Rows

/-!
# The cursor of the inbox

A cursor holds the position of the last pause of a page, the scope of its caller and the filter of
the query. It is sealed with authenticated encryption under a key of the server and handed out as
text. Encryption and the digest of the scope are parameters.
-/

namespace CryptoAlert

open Base64 (Byte)

/-- The instants that a `datetime` can hold. -/
abbrev Instant := {t : ℕ // Calendar.InRange t}

/-- `InboxQueryStatus`. -/
inductive InboxQueryStatus where
  | active | pending | responding | resolved | expired | resumeFailed | all
deriving DecidableEq, Repr

namespace InboxQueryStatus

def toText : InboxQueryStatus → List Char
  | active => "active".toList
  | pending => "pending".toList
  | responding => "responding".toList
  | resolved => "resolved".toList
  | expired => "expired".toList
  | resumeFailed => "resume_failed".toList
  | all => "all".toList

/-- `_INBOX_STATUS_FILTERS`; the query for all pauses has no filter. -/
def statuses : InboxQueryStatus → Option (List InterruptStatus)
  | active => some [.pending, .responding]
  | pending => some [.pending]
  | responding => some [.responding]
  | resolved => some [.resolved]
  | expired => some [.expired]
  | resumeFailed => some [.resumeFailed]
  | all => none

end InboxQueryStatus

structure InboxCursor where
  createdAt : Instant
  pauseId : Uuid
  scope : List Char
  status : InboxQueryStatus
deriving DecidableEq

/-- `AESGCM` under the key of the server and the additional data of the inbox. Decryption inverts
encryption and rejects everything else; the tag takes sixteen bytes. -/
structure InboxCipher where
  encrypt : List Byte → List Byte → List Byte
  decrypt : List Byte → List Byte → Option (List Byte)
  decrypt_encrypt : ∀ nonce data, decrypt nonce (encrypt nonce data) = some data
  encrypt_of_decrypt : ∀ nonce sealed data,
    decrypt nonce sealed = some data → sealed = encrypt nonce data
  length_encrypt : ∀ nonce data, (encrypt nonce data).length = data.length + 16

/-- `sha256(...).hexdigest()`. -/
structure ScopeDigest where
  digest : List Char → List Char
  length_digest : ∀ s, (digest s).length = 64
  digest_hex : ∀ s, ∀ c ∈ digest s, ∃ d < 16, c = Nat.digitChar d

/-- The identity of an actor whose membership has been resolved. -/
structure InboxActor where
  tenantId : Uuid
  workspaceId : Uuid
  userId : Uuid
deriving DecidableEq

/-- `_inbox_scope`, before its digest is taken. -/
def InboxActor.identity (actor : InboxActor) : List Char :=
  actor.tenantId.text ++ '\x00' :: (actor.workspaceId.text ++ '\x00' :: actor.userId.text)

/-- `_inbox_scope`. -/
def InboxActor.scope (hash : ScopeDigest) (actor : InboxActor) : List Char :=
  hash.digest actor.identity

/-- `token_bytes(_INBOX_CURSOR_NONCE_LENGTH)`. -/
abbrev Nonce := {nonce : List Byte // nonce.length = 12}

/-- `text.encode("utf-8")` of an ASCII text. -/
def asciiBytes (s : List Char) : List Byte := s.map fun c => Base64.byte c.toNat

/-- `data.decode("utf-8")` of ASCII bytes. -/
def asciiText (data : List Byte) : Option (List Char) :=
  data.mapM fun b => if b.val < 128 then some (Char.ofNat b.val) else none

namespace InboxCursor

/-- The members of the payload, in the order of their keys. -/
def payload (cursor : InboxCursor) : JsonText.Members :=
  [("created_at".toList, .text (Calendar.parts cursor.createdAt).text),
    ("id".toList, .text cursor.pauseId.text),
    ("scope".toList, .text cursor.scope),
    ("status".toList, .text cursor.status.toText),
    ("v".toList, .int 3)]

/-- `_encode_inbox_cursor`. -/
def encode (cipher : InboxCipher) (nonce : Nonce) (cursor : InboxCursor) : List Char :=
  Base64.encode (nonce.val ++ cipher.encrypt nonce.val (asciiBytes (JsonText.dumps cursor.payload)))

/-- The keys that a payload has to have. -/
def keys : List (List Char) :=
  ["created_at".toList, "id".toList, "scope".toList, "status".toList, "v".toList]

/-- The text of a member. -/
def textOf (members : JsonText.Members) (k : List Char) : Option (List Char) :=
  match members.get? k with
  | some (.text s) => some s
  | _ => none

/-- The last part of `_parse_inbox_cursor`, for a decrypted payload. -/
def ofPayload (members : JsonText.Members) (scope : List Char) (status : InboxQueryStatus) :
    Option InboxCursor := do
  guard ((∀ m ∈ members, m.1 ∈ keys) ∧ ∀ k ∈ keys, (members.get? k).isSome)
  guard (members.get? "v".toList = some (.int 3))
  guard (members.get? "status".toList = some (.text status.toText))
  guard ((← textOf members "scope".toList) = scope)
  let createdAt ← textOf members "created_at".toList
  let id ← textOf members "id".toList
  let parts ← Calendar.Parts.ofText createdAt
  if h : Calendar.InRange parts.instant then
    let pauseId ← Uuid.ofText id
    some ⟨⟨parts.instant, h⟩, pauseId, scope, status⟩
  else none

/-- `_parse_inbox_cursor`; `none` stands for `InvalidInboxCursorError`. The letters, digits and
signs that a cursor may hold are those of the alphabet. -/
def parse (cipher : InboxCipher) (cursor : List Char) (scope : List Char)
    (status : InboxQueryStatus) : Option InboxCursor := do
  guard (cursor ≠ [] ∧ cursor.length ≤ 2048 ∧ cursor.all Base64.alphabet.contains)
  let envelope ← Base64.decode cursor
  guard (12 + 16 < envelope.length)
  let plaintext ← cipher.decrypt (envelope.take 12) (envelope.drop 12)
  let members ← JsonText.loads (← asciiText plaintext)
  ofPayload members scope status

end InboxCursor

/-- The characters that a payload is written with. -/
def IsSafe (c : Char) : Prop := JsonText.isPlain c ∧ c.toNat < 128

instance (c : Char) : Decidable (IsSafe c) := inferInstanceAs (Decidable (_ ∧ _))

theorem isSafe_of_all {s : List Char} (h : s.all (fun c => decide (IsSafe c)) = true) :
    ∀ c ∈ s, IsSafe c :=
  fun c hc => of_decide_eq_true (List.all_eq_true.mp h c hc)

theorem isSafe_digitChar {d : ℕ} (h : d < 16) : IsSafe (Nat.digitChar d) := by
  have hall : ∀ i : Fin 16, IsSafe (Nat.digitChar i.val) := by decide +kernel
  exact hall ⟨d, h⟩

theorem isSafe_write {b width n : ℕ} (hb : b ≤ 16) (hpos : 0 < b) :
    ∀ c ∈ Numerals.write b width n, IsSafe c := by
  intro c hc
  obtain ⟨d, hd, rfl⟩ := Numerals.mem_write hpos hc
  exact isSafe_digitChar (hd.trans_le hb)

namespace Uuid

variable (u : Uuid)

theorem isSafe_text : ∀ c ∈ u.text, IsSafe c := by
  have hhex : ∀ c ∈ Numerals.write 16 32 u.val, IsSafe c := isSafe_write le_rfl (by decide)
  have hdash : IsSafe '-' := by decide
  have htake : ∀ n k, ∀ c ∈ ((Numerals.write 16 32 u.val).drop k).take n, IsSafe c :=
    fun n k c hc => hhex c (List.mem_of_mem_drop (List.mem_of_mem_take hc))
  rw [text]
  simp only [List.forall_mem_append, List.forall_mem_cons]
  exact ⟨fun c hc => hhex c (List.mem_of_mem_take hc), hdash, htake _ _, hdash, htake _ _, hdash,
    htake _ _, hdash, fun c hc => hhex c (List.mem_of_mem_drop hc)⟩

end Uuid

theorem isSafe_instant (t : ℕ) : ∀ c ∈ (Calendar.parts t).text, IsSafe c := by
  have hdigits : ∀ width n, ∀ c ∈ Numerals.write 10 width n, IsSafe c :=
    fun width n => isSafe_write (by decide) (by decide)
  have hsigns : IsSafe '-' ∧ IsSafe 'T' ∧ IsSafe ':' ∧ IsSafe '.' ∧ IsSafe 'Z' := by decide
  obtain ⟨hdash, hT, hcolon, hpoint, hZ⟩ := hsigns
  have hfraction : ∀ c ∈ (Calendar.parts t).fraction, IsSafe c := by
    rw [Calendar.Parts.fraction]
    split
    · exact List.forall_mem_singleton.mpr hZ
    · simp only [List.forall_mem_append, List.forall_mem_cons]
      exact ⟨hpoint, hdigits _ _, hZ, fun _ h => absurd h List.not_mem_nil⟩
  rw [Calendar.Parts.text]
  simp only [List.forall_mem_append, List.forall_mem_cons]
  exact ⟨hdigits _ _, hdash, hdigits _ _, hdash, hdigits _ _, hT, hdigits _ _, hcolon,
    hdigits _ _, hcolon, hdigits _ _, hfraction⟩

theorem length_instant_le (t : ℕ) : (Calendar.parts t).text.length ≤ 27 := by
  have hfraction : (Calendar.parts t).fraction.length ≤ 8 := by
    rw [Calendar.Parts.fraction]
    split <;> simp
  simp only [Calendar.Parts.text, List.length_append, List.length_cons, Numerals.length_write]
  omega

theorem asciiText_asciiBytes {s : List Char} (h : ∀ c ∈ s, c.toNat < 128) :
    asciiText (asciiBytes s) = some s := by
  rw [asciiText, mapM_eq_some_iff, asciiBytes, List.forall₂_map_left_iff, List.forall₂_same]
  intro c hc
  have hlt := h c hc
  have hbyte : (Base64.byte c.toNat).val = c.toNat := Nat.mod_eq_of_lt (by omega)
  rw [hbyte, if_pos hlt, Char.ofNat_toNat]

namespace JsonText

theorem ascii_dumpMembers {members : Members}
    (h : ∀ m ∈ members, (∀ c ∈ m.1, c.toNat < 128) ∧ ∀ c ∈ m.2.dump, c.toNat < 128) :
    ∀ c ∈ dumpMembers members, c.toNat < 128 := by
  have hmember : ∀ m ∈ members, ∀ c ∈ dumpMember m, c.toNat < 128 := by
    intro m hm
    rw [dumpMember]
    simp only [List.forall_mem_append, List.forall_mem_cons]
    exact ⟨by decide, (h m hm).1, by decide, by decide, (h m hm).2⟩
  clear h
  induction members with
  | nil => exact List.forall_mem_singleton.mpr (by decide)
  | cons m ms ih =>
      obtain ⟨hm, hms⟩ := List.forall_mem_cons.mp hmember
      cases ms with
      | nil =>
          rw [dumpMembers]
          exact List.forall_mem_append.mpr ⟨hm, List.forall_mem_singleton.mpr (by decide)⟩
      | cons m' ms =>
          have hsplit : dumpMembers (m :: m' :: ms) =
              dumpMember m ++ ',' :: dumpMembers (m' :: ms) := rfl
          rw [hsplit]
          exact List.forall_mem_append.mpr ⟨hm, List.forall_mem_cons.mpr ⟨by decide, ih hms⟩⟩

end JsonText

namespace InboxQueryStatus

theorem isSafe_toText (status : InboxQueryStatus) : ∀ c ∈ status.toText, IsSafe c := by
  cases status <;> exact isSafe_of_all (by decide +kernel)

theorem length_toText_le (status : InboxQueryStatus) : status.toText.length ≤ 13 := by
  cases status <;> decide

theorem toText_injective : Function.Injective toText := by
  intro a b h
  cases a <;> cases b <;> first | rfl | exact absurd h (by decide)

end InboxQueryStatus

theorem ScopeDigest.isSafe_digest (hash : ScopeDigest) (s : List Char) :
    ∀ c ∈ hash.digest s, IsSafe c := by
  intro c hc
  obtain ⟨d, hd, rfl⟩ := hash.digest_hex s c hc
  exact isSafe_digitChar hd

namespace InboxCursor

variable {cursor : InboxCursor}

/-- A scope as `_inbox_scope` makes it. -/
def HasDigest (cursor : InboxCursor) : Prop :=
  cursor.scope.length = 64 ∧ ∀ c ∈ cursor.scope, IsSafe c

/-- Every member of a payload is safe. -/
theorem isSafe_payload (h : cursor.HasDigest) : ∀ m ∈ cursor.payload, (∀ c ∈ m.1, IsSafe c) ∧
    (m.2 = .int 3 ∨ ∃ s, m.2 = .text s ∧ ∀ c ∈ s, IsSafe c) := by
  simp only [payload, List.forall_mem_cons]
  have hcreated : ∀ c ∈ "created_at".toList, IsSafe c := isSafe_of_all (by decide +kernel)
  have hid : ∀ c ∈ "id".toList, IsSafe c := isSafe_of_all (by decide +kernel)
  have hscope : ∀ c ∈ "scope".toList, IsSafe c := isSafe_of_all (by decide +kernel)
  have hstatus : ∀ c ∈ "status".toList, IsSafe c := isSafe_of_all (by decide +kernel)
  have hv : ∀ c ∈ "v".toList, IsSafe c := isSafe_of_all (by decide +kernel)
  exact ⟨⟨hcreated, .inr ⟨_, rfl, isSafe_instant _⟩⟩, ⟨hid, .inr ⟨_, rfl, Uuid.isSafe_text _⟩⟩,
    ⟨hscope, .inr ⟨_, rfl, h.2⟩⟩, ⟨hstatus, .inr ⟨_, rfl, InboxQueryStatus.isSafe_toText _⟩⟩,
    ⟨hv, .inl trivial⟩, fun _ h => absurd h List.not_mem_nil⟩

theorem loads_payload (h : cursor.HasDigest) :
    JsonText.loads (JsonText.dumps cursor.payload) = some cursor.payload := by
  apply JsonText.loads_dumps (List.cons_ne_nil _ _)
  intro m hm
  obtain ⟨hk, hv⟩ := isSafe_payload h m hm
  refine ⟨fun c hc => (hk c hc).1, ?_⟩
  obtain hv | ⟨s, hv, hs⟩ := hv
  · rw [hv]
    exact ⟨by decide, by decide⟩
  · rw [hv]
    exact fun c hc => (hs c hc).1

theorem ascii_payload (h : cursor.HasDigest) :
    ∀ c ∈ JsonText.dumps cursor.payload, c.toNat < 128 := by
  refine List.forall_mem_cons.mpr ⟨by decide, JsonText.ascii_dumpMembers fun m hm => ?_⟩
  obtain ⟨hk, hv⟩ := isSafe_payload h m hm
  refine ⟨fun c hc => (hk c hc).2, ?_⟩
  obtain hv | ⟨s, hv, hs⟩ := hv
  · rw [hv]
    have hall : ((JsonText.Scalar.int 3).dump.all fun c => decide (c.toNat < 128)) = true := by
      decide +kernel
    exact fun c hc => of_decide_eq_true (List.all_eq_true.mp hall c hc)
  · rw [hv, JsonText.Scalar.dump]
    simp only [List.forall_mem_append, List.forall_mem_cons]
    exact ⟨by decide, fun c hc => (hs c hc).2, by decide, fun _ h => absurd h List.not_mem_nil⟩

theorem length_payload_le (h : cursor.HasDigest) :
    (JsonText.dumps cursor.payload).length ≤ 300 := by
  have hinstant := length_instant_le cursor.createdAt.val
  have hid := cursor.pauseId.length_text
  have hscope := h.1
  have hstatus := cursor.status.length_toText_le
  have hv : (JsonText.Scalar.int 3).dump.length = 1 := by decide +kernel
  have hkeys : "created_at".toList.length = 10 ∧ "id".toList.length = 2 ∧
      "scope".toList.length = 5 ∧ "status".toList.length = 6 ∧ "v".toList.length = 1 := by decide
  obtain ⟨hk₁, hk₂, hk₃, hk₄, hk₅⟩ := hkeys
  simp only [payload, JsonText.dumps, JsonText.dumpMembers, JsonText.dumpMember,
    JsonText.Scalar.dump, List.length_append, List.length_cons, List.length_nil] at hv ⊢
  omega

/-- The checks of a payload, for the payload of a cursor. -/
theorem ofPayload_payload (scope : List Char) (status : InboxQueryStatus) :
    ofPayload cursor.payload scope status =
      if scope = cursor.scope ∧ status = cursor.status then some cursor else none := by
  have hcreated : textOf cursor.payload "created_at".toList =
      some (Calendar.parts cursor.createdAt).text := rfl
  have hid : textOf cursor.payload "id".toList = some cursor.pauseId.text := rfl
  have hscope : textOf cursor.payload "scope".toList = some cursor.scope := rfl
  have hstatus : cursor.payload.get? "status".toList = some (.text cursor.status.toText) := rfl
  have hv : cursor.payload.get? "v".toList = some (.int 3) := rfl
  have hkeys : (∀ m ∈ cursor.payload, m.1 ∈ keys) ∧
      ∀ k ∈ keys, (cursor.payload.get? k).isSome := by
    constructor
    · simp [payload, keys]
    · simp only [keys, List.forall_mem_cons]
      exact ⟨rfl, rfl, rfl, rfl, rfl, fun _ h => absurd h List.not_mem_nil⟩
  have hparts : Calendar.Parts.ofText (Calendar.parts cursor.createdAt).text =
      some (Calendar.parts cursor.createdAt) :=
    Calendar.Parts.ofText_text (Calendar.isValid_parts cursor.createdAt.property)
      (Calendar.micros_parts_lt _)
  have hinstant : Calendar.InRange (Calendar.parts cursor.createdAt).instant := by
    rw [Calendar.instant_parts]
    exact cursor.createdAt.property
  have hstatus_iff : some (JsonText.Scalar.text cursor.status.toText) =
      some (.text status.toText) ↔ status = cursor.status := by
    rw [Option.some.injEq, JsonText.Scalar.text.injEq]
    exact ⟨fun h => (InboxQueryStatus.toText_injective h).symm, fun h => by rw [h]⟩
  rw [ofPayload]
  simp -implicitDefEqProofs only [hcreated, hid, hscope, hstatus, hv, hparts, hstatus_iff,
    Option.bind_eq_bind, Option.bind_some, Uuid.ofText_text]
  rw [guard, if_pos hkeys]
  by_cases hs : status = cursor.status
  · by_cases hc : scope = cursor.scope
    · subst hs hc
      rw [dif_pos hinstant]
      simp only [and_self, if_true, guard]
      have hsame : (⟨_, hinstant⟩ : Instant) = cursor.createdAt :=
        Subtype.ext (Calendar.instant_parts _)
      rw [hsame]
      rfl
    · rw [if_neg (fun h => hc h.1)]
      simp [guard, hs, Ne.symm hc]
  · rw [if_neg (fun h => hs h.2)]
    simp [guard, hs]

/-- The sealed data of a cursor. -/
def envelope (cipher : InboxCipher) (nonce : Nonce) (cursor : InboxCursor) : List Byte :=
  nonce.val ++ cipher.encrypt nonce.val (asciiBytes (JsonText.dumps cursor.payload))

theorem length_envelope (cipher : InboxCipher) (nonce : Nonce) :
    (envelope cipher nonce cursor).length =
      12 + ((JsonText.dumps cursor.payload).length + 16) := by
  rw [envelope, List.length_append, nonce.property, cipher.length_encrypt, asciiBytes,
    List.length_map]

/-- A cursor is read back by its own scope and filter and refused by every other. -/
theorem parse_encode (cipher : InboxCipher) (nonce : Nonce) (h : cursor.HasDigest)
    (scope : List Char) (status : InboxQueryStatus) :
    parse cipher (encode cipher nonce cursor) scope status =
      if scope = cursor.scope ∧ status = cursor.status then some cursor else none := by
  have hlength := @length_envelope cursor cipher nonce
  have hbound := length_payload_le h
  have hpos : 0 < (JsonText.dumps cursor.payload).length := Nat.succ_pos _
  have hencode : encode cipher nonce cursor = Base64.encode (envelope cipher nonce cursor) := rfl
  have hlen := Base64.length_encode_le (envelope cipher nonce cursor)
  have hne : Base64.encode (envelope cipher nonce cursor) ≠ [] := by
    intro hnil
    have hdecode := Base64.decode_encode (envelope cipher nonce cursor)
    rw [hnil] at hdecode
    cases hdata : envelope cipher nonce cursor with
    | nil =>
        rw [hdata] at hlength
        simp at hlength
    | cons b data =>
        rw [hdata] at hdecode
        cases hdecode
  have hguard : Base64.encode (envelope cipher nonce cursor) ≠ [] ∧
      (Base64.encode (envelope cipher nonce cursor)).length ≤ 2048 ∧
      (Base64.encode (envelope cipher nonce cursor)).all Base64.alphabet.contains :=
    ⟨hne, by omega, List.all_eq_true.mpr fun _ hc =>
      List.contains_iff_mem.mpr (Base64.encode_subset _ _ hc)⟩
  have htake : (envelope cipher nonce cursor).take 12 = nonce.val :=
    List.take_left' nonce.property
  have hdrop : (envelope cipher nonce cursor).drop 12 =
      cipher.encrypt nonce.val (asciiBytes (JsonText.dumps cursor.payload)) :=
    List.drop_left' nonce.property
  rw [hencode, parse]
  simp only [Base64.decode_encode, htake, hdrop, cipher.decrypt_encrypt,
    asciiText_asciiBytes (ascii_payload h), loads_payload h, Option.bind_eq_bind,
    Option.bind_some, ofPayload_payload]
  rw [guard, if_pos hguard, guard, if_pos (by omega)]
  rfl

/-- An accepted cursor was sealed under the key of the server. -/
theorem sealed_of_parse {cipher : InboxCipher} {text scope : List Char}
    {status : InboxQueryStatus} (h : parse cipher text scope status = some cursor) :
    ∃ nonce data, Base64.decode text = some (nonce ++ cipher.encrypt nonce data) := by
  rw [parse] at h
  simp only [Option.bind_eq_bind, Option.bind_eq_some_iff] at h
  obtain ⟨_, -, envelope, hdecode, _, -, data, hdecrypt, -⟩ := h
  refine ⟨envelope.take 12, data, ?_⟩
  rw [hdecode, ← cipher.encrypt_of_decrypt _ _ _ hdecrypt, List.take_append_drop]

end InboxCursor

end CryptoAlert
