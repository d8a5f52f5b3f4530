import Mathlib.Data.Prod.Lex
import CryptoAlert.Api.InboxCursor
import CryptoAlert.Lib.Keyset

/-!
# The pages of the inbox

A query of the inbox shows the pauses of its caller that pass the filter, newest first, a page at a
time. What is shown of a pause is read from its members and its task, and may be refused; it is a
parameter.
-/

namespace CryptoAlert

/-- The columns of `interrupt_pauses` that the query reads. -/
structure InboxRow where
  id : Uuid
  createdAt : Instant
  tenantId : Uuid
  workspaceId : Uuid
  ownerUserId : Uuid
  status : InterruptStatus
deriving DecidableEq

namespace InboxRow

/-- The columns that the listing is ordered by, the first of them first. -/
abbrev Key := Instant ×ₗ Uuid

def key (row : InboxRow) : Key := toLex (row.createdAt, row.id)

/-- The pause belongs to the actor and passes the filter. -/
def Matches (actor : InboxActor) (status : InboxQueryStatus) (row : InboxRow) : Prop :=
  (row.tenantId = actor.tenantId ∧ row.workspaceId = actor.workspaceId ∧
    row.ownerUserId = actor.userId) ∧
  ∀ statuses, status.statuses = some statuses → row.status ∈ statuses

instance (actor : InboxActor) (status : InboxQueryStatus) (row : InboxRow) :
    Decidable (row.Matches actor status) :=
  match h : status.statuses with
  | none => decidable_of_iff (row.tenantId = actor.tenantId ∧ row.workspaceId = actor.workspaceId ∧
      row.ownerUserId = actor.userId) (by simp [Matches, h])
  | some statuses => decidable_of_iff ((row.tenantId = actor.tenantId ∧
      row.workspaceId = actor.workspaceId ∧ row.ownerUserId = actor.userId) ∧
      row.status ∈ statuses) (by simp [Matches, h])

/-- `first` is listed before `second`. -/
def Precedes (first second : InboxRow) : Prop :=
  second.createdAt < first.createdAt ∨
    second.createdAt = first.createdAt ∧ second.id < first.id

theorem key_lt_key {first second : InboxRow} : second.key < first.key ↔ first.Precedes second :=
  Prod.Lex.toLex_lt_toLex

end InboxRow

/-- The position that a cursor holds. -/
def InboxCursor.position (cursor : InboxCursor) : InboxRow.Key :=
  toLex (cursor.createdAt, cursor.pauseId)

section

variable {Item : Type} (cipher : InboxCipher) (hash : ScopeDigest) (rows : List InboxRow)
  (view : InboxRow → Option Item) (actor : InboxActor) (status : InboxQueryStatus) (limit : ℕ)

/-- The rows that pass the conditions on the actor and on the status. -/
def visibleRows : List InboxRow := rows.filter fun row => row.Matches actor status

/-- The position after which a page begins. -/
def startOf : Option (List Char) → Option (Option InboxRow.Key)
  | none => some none
  | some text => (InboxCursor.parse cipher text (actor.scope hash) status).map (some ·.position)

/-- `list_inbox`: the items of a page and the cursor of the next one; `none` stands for an
exception. -/
def listInbox (nonce : Nonce) (cursor : Option (List Char)) :
    Option (List Item × Option (List Char)) := do
  guard (1 ≤ limit ∧ limit ≤ 100)
  let position ← startOf cipher hash actor status cursor
  let fetched := Keyset.fetch InboxRow.key (visibleRows rows actor status) limit position
  let items ← (fetched.take limit).mapM view
  let nextCursor := if limit < fetched.length then
      (fetched.take limit).getLast?.map fun last => InboxCursor.encode cipher nonce
        ⟨last.createdAt, last.id, actor.scope hash, status⟩
    else none
  some (items, nextCursor)

/-- A client that asks for page after page until it receives no cursor. -/
def followInbox (nonces : ℕ → Nonce) : ℕ → Option (List Char) → Option (List Item)
  | 0, _ => none
  | fuel + 1, cursor => do
      let (items, nextCursor) ←
        listInbox cipher hash rows view actor status limit (nonces fuel) cursor
      match nextCursor with
      | none => some items
      | some text => (followInbox nonces fuel (some text)).map (items ++ ·)

end

variable {Item : Type} {cipher : InboxCipher} {hash : ScopeDigest} {rows : List InboxRow}
  {view : InboxRow → Option Item} {actor : InboxActor} {status : InboxQueryStatus} {limit : ℕ}

theorem hasDigest_scope (createdAt : Instant) (id : Uuid) :
    (⟨createdAt, id, actor.scope hash, status⟩ : InboxCursor).HasDigest :=
  ⟨hash.length_digest _, hash.isSafe_digest _⟩

/-- The identity of an actor determines the actor. -/
theorem InboxActor.identity_injective : Function.Injective InboxActor.identity := by
  intro a b h
  have hlen : ∀ u v : Uuid, u.text.length = v.text.length := fun u v => by
    rw [u.length_text, v.length_text]
  have htext : Function.Injective Uuid.text := by
    intro u v huv
    have hu := u.ofText_text
    rw [huv, v.ofText_text] at hu
    exact (Option.some.inj hu).symm
  obtain ⟨htenant, hrest⟩ := List.append_inj h (hlen _ _)
  obtain ⟨hworkspace, huser⟩ := List.append_inj (List.cons.inj hrest).2 (hlen _ _)
  cases a
  cases b
  simp only [InboxActor.mk.injEq]
  exact ⟨htext htenant, htext hworkspace, htext (List.cons.inj huser).2⟩

/-- What a cursor of one actor and filter is to another actor and filter. -/
theorem parse_encode_scope {other : InboxActor} (otherStatus : InboxQueryStatus)
    (hdigest : hash.digest other.identity = hash.digest actor.identity →
      other.identity = actor.identity) (nonce : Nonce) (createdAt : Instant) (id : Uuid) :
    InboxCursor.parse cipher
        (InboxCursor.encode cipher nonce ⟨createdAt, id, actor.scope hash, status⟩)
        (other.scope hash) otherStatus =
      if other = actor ∧ otherStatus = status then
        some ⟨createdAt, id, actor.scope hash, status⟩ else none := by
  have hscope : other.scope hash = actor.scope hash ↔ other = actor :=
    ⟨fun h => InboxActor.identity_injective (hdigest h), fun h => by rw [h]⟩
  rw [InboxCursor.parse_encode cipher nonce (hasDigest_scope createdAt id)]
  simp only [hscope]

/-- The pages that a client sees are those of the listing. -/
theorem followInbox_eq (hlimit : 1 ≤ limit ∧ limit ≤ 100) (nonces : ℕ → Nonce) {fuel : ℕ}
    {cursor : Option (List Char)} {position : Option InboxRow.Key} {ps : List (List InboxRow)}
    (hcursor : startOf cipher hash actor status cursor = some position)
    (hpages : Keyset.pages InboxRow.key (visibleRows rows actor status) limit fuel position =
      some ps) :
    followInbox cipher hash rows view actor status limit nonces fuel cursor =
      ps.flatten.mapM view := by
  induction fuel generalizing cursor position ps with
  | zero => cases hpages
  | succ fuel ih =>
      rw [Keyset.pages] at hpages
      rw [followInbox, listInbox, guard, if_pos hlimit]
      simp only [hcursor, Option.pure_def, Option.bind_eq_bind, Option.bind_some]
      set fetched := Keyset.fetch InboxRow.key (visibleRows rows actor status) limit position
      by_cases hmore : limit < fetched.length
      · obtain ⟨last, hlast⟩ : ∃ last, (fetched.take limit).getLast? = some last := by
          rw [← Option.isSome_iff_exists, List.getLast?_isSome, ← List.length_pos_iff,
            List.length_take]
          omega
        have hnext : Keyset.next InboxRow.key fetched limit = some last.key := by
          rw [Keyset.next, if_pos hmore, hlast]
          rfl
        rw [hnext] at hpages
        obtain ⟨rest, hrest, rfl⟩ := Option.map_eq_some_iff.mp hpages
        have hstart : startOf cipher hash actor status (some (InboxCursor.encode cipher
            (nonces fuel) ⟨last.createdAt, last.id, actor.scope hash, status⟩)) =
            some (some last.key) := by
          rw [startOf, parse_encode_scope status (fun _ => rfl), if_pos ⟨rfl, rfl⟩]
          rfl
        rw [if_pos hmore, hlast, List.flatten_cons, List.mapM_append]
        simp only [Option.map_some, ← ih hstart hrest]
        cases (fetched.take limit).mapM view with
        | none => rfl
        | some items =>
            simp only [Option.bind_some]
            cases followInbox cipher hash rows view actor status limit nonces fuel _ with
            | none => rfl
            | some others => rfl
      · have hnext : Keyset.next InboxRow.key fetched limit = none := if_neg hmore
        rw [hnext] at hpages
        obtain rfl := Option.some.inj hpages
        rw [if_neg hmore, List.flatten_singleton]
        cases (fetched.take limit).mapM view with
        | none => rfl
        | some items => rfl

/-- The inbox lists every matching pause once, newest first, whatever the size of its pages, and
its cursors serve only the caller and the filter that they were issued for. -/
theorem inbox_enumerates (hids : (rows.map InboxRow.id).Nodup) (hlimit : 1 ≤ limit ∧ limit ≤ 100)
    (nonces : ℕ → Nonce) {fuel : ℕ}
    (hfuel : (visibleRows rows actor status).length < fuel) :
    (∃ listed : List InboxRow, listed.Perm (visibleRows rows actor status) ∧
      listed.Pairwise InboxRow.Precedes ∧
      followInbox cipher hash rows view actor status limit nonces fuel none =
        listed.mapM view) ∧
    (∀ text cursor, InboxCursor.parse cipher text (actor.scope hash) status = some cursor →
      ∃ nonce data, Base64.decode text = some (nonce ++ cipher.encrypt nonce data)) ∧
    ∀ (other : InboxActor) (otherStatus : InboxQueryStatus) (nonce : Nonce)
      (createdAt : Instant) (id : Uuid),
      (hash.digest other.identity = hash.digest actor.identity →
        other.identity = actor.identity) →
      InboxCursor.parse cipher
          (InboxCursor.encode cipher nonce ⟨createdAt, id, actor.scope hash, status⟩)
          (other.scope hash) otherStatus =
        if other = actor ∧ otherStatus = status then
          some ⟨createdAt, id, actor.scope hash, status⟩ else none := by
  have hkeys : ((visibleRows rows actor status).map InboxRow.key).Nodup := by
    have hvisible : ((visibleRows rows actor status).map InboxRow.id).Nodup :=
      hids.sublist (List.filter_sublist.map _)
    rw [List.nodup_map_iff_inj_on (List.Nodup.of_map _ hvisible)]
    intro a ha b hb hab
    have hid : a.id = b.id := congrArg (fun k => (ofLex k).2) hab
    exact List.inj_on_of_nodup_map hvisible ha hb hid
  have hperm : (Keyset.listing InboxRow.key (visibleRows rows actor status)).Perm
      (visibleRows rows actor status) := Keyset.perm_listing _
  refine ⟨⟨_, hperm, ?_, ?_⟩, fun text cursor h => InboxCursor.sealed_of_parse h,
    fun other otherStatus nonce createdAt id hdigest =>
      parse_encode_scope otherStatus hdigest nonce createdAt id⟩
  · exact (Keyset.pairwise_listing_lt hkeys).imp InboxRow.key_lt_key.mp
  · have hlength : (Keyset.listing InboxRow.key (Keyset.after InboxRow.key
        (visibleRows rows actor status) none)).length < fuel := by
      rw [Keyset.after, hperm.length_eq]
      exact hfuel
    obtain ⟨ps, hps, hflat⟩ := Keyset.pages_eq hkeys hlimit.1 hlength
    rw [followInbox_eq hlimit nonces rfl hps, hflat]
    rfl

/-- A cipher that only adds a tag. -/
def plainCipher : InboxCipher where
  encrypt _ data := data ++ List.replicate 16 0
  decrypt _ sealed :=
    if List.replicate 16 0 <:+ sealed then some (sealed.take (sealed.length - 16)) else none
  decrypt_encrypt nonce data := by
    rw [if_pos (List.suffix_append _ _), List.length_append, List.length_replicate,
      Nat.add_sub_cancel, List.take_left]
  encrypt_of_decrypt nonce sealed data h := by
    by_cases hsuffix : List.replicate 16 0 <:+ sealed
    · obtain ⟨front, rfl⟩ := hsuffix
      rw [if_pos (List.suffix_append _ _), List.length_append, List.length_replicate,
        Nat.add_sub_cancel, List.take_left] at h
      rw [Option.some.inj h]
    · rw [if_neg hsuffix] at h
      cases h
  length_encrypt nonce data := by rw [List.length_append, List.length_replicate]

/-- A digest that reads the text as a number. -/
def plainScopeDigest : ScopeDigest where
  digest s := Numerals.write 16 64 (s.foldl (fun n c => n * 131 + c.toNat) 0)
  length_digest s := Numerals.length_write _ _ _
  digest_hex s c hc := Numerals.mem_write (by decide) hc

/-- Three pauses of one caller, two of them created at the same instant. -/
def threePauses : List InboxRow :=
  [⟨1, ⟨5, by decide +kernel⟩, 1, 2, 3, .pending⟩, ⟨7, ⟨5, by decide +kernel⟩, 1, 2, 3, .resolved⟩,
    ⟨4, ⟨2, by decide +kernel⟩, 1, 2, 3, .expired⟩]

theorem inbox_enumerates_three :
    (∃ listed : List InboxRow, listed.Perm (visibleRows threePauses ⟨1, 2, 3⟩ .all) ∧
      listed.Pairwise InboxRow.Precedes ∧
      followInbox plainCipher plainScopeDigest threePauses some ⟨1, 2, 3⟩ .all 1
        (fun _ => ⟨List.replicate 12 0, rfl⟩) 4 none = listed.mapM some) :=
  (inbox_enumerates (by decide) ⟨by decide, by decide⟩ _ (by decide)).1

end CryptoAlert
