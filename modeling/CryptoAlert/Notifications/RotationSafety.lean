import CryptoAlert.Notifications.CredentialRotation
import Mathlib.Data.Option.Basic

/-!
# Rotations lose no credential

A batch holds the rows that it has read until it writes them, so a row is written as it was read
and the write seals the credential that its owner stored last. Users write only rows that no batch
holds.
-/

namespace CryptoAlert

open NotificationCredentialCipher

variable {κ : Type} (aead : Aead κ) (cipher : NotificationCredentialCipher κ)

/-- The row holds the credential that its owner stored last, under a version of the ring. -/
structure NotificationDestination.Sealed (row : NotificationDestination) : Prop where
  storable : IsStorable row.stored
  sealing : ∃ key nonce, cipher.keyOf row.credentialKeyVersion = some key ∧ nonce.length = 12 ∧
    row.credentialCiphertext = nonce ++ aead.encrypt key nonce (encodeUtf8 row.stored)
      (row.scope.aad row.credentialKeyVersion)

/-- The row after a write. -/
def CredentialWrite.result (write : CredentialWrite) : NotificationDestination :=
  { write.previous with
    credentialCiphertext := write.nextCiphertext
    credentialKeyVersion := cipher.keyVersion }

namespace RotationState

/-- The batch of a process holds the row. -/
def Holds (s : RotationState) (p : ℕ) (row : NotificationDestination) : Prop :=
  row ∈ s.rows ∧ s.holder row.key = some (.rotator p)

/-- What is so of a process at a phase. -/
def PhaseSound (s : RotationState) (p : ℕ) : RotatorPhase → Prop
  | .selecting _ taken => ∀ row ∈ taken, s.Holds p row
  | .rewrapping _ _ todo writes => (∀ row ∈ todo, s.Holds p row) ∧
      ∀ write ∈ writes, s.Holds p write.previous ∧ (write.result cipher).Sealed aead cipher
  | .returned result counted => result.remainingOldVersionRows = 0 ∧
      ∀ row ∈ counted, row.credentialKeyVersion = cipher.keyVersion
  | .raised error => ∀ failure, error ≠ .credential failure
  | _ => True

structure Sound (s : RotationState) : Prop where
  keys : (s.rows.map NotificationDestination.key).Nodup
  sealed : ∀ row ∈ s.rows, row.Sealed aead cipher
  phases : ∀ p, s.PhaseSound aead cipher p (s.rotators p)

end RotationState

variable {aead cipher}

theorem keyOf_keyVersion : cipher.keyOf cipher.keyVersion = some cipher.key := if_pos rfl

theorem NotificationDestination.Sealed.decrypt_eq (hsound : aead.Sound)
    {row : NotificationDestination} (h : row.Sealed aead cipher) :
    cipher.decrypt aead row.credentialCiphertext row.scope row.credentialKeyVersion =
      .ok row.stored := by
  obtain ⟨key, nonce, hkey, hnonce, hciphertext⟩ := h.sealing
  rw [hciphertext]
  exact decrypt_sealed hsound h.storable hkey row.scope hnonce

theorem encrypted_of_toOption {result : Except CredentialError Bytes} {ciphertext : Bytes}
    (h : result.toOption = some ciphertext) : result = .ok ciphertext := by
  cases result with
  | error e => cases h
  | ok b => exact congrArg Except.ok (Option.some.inj h)

/-- What a user stores under a version of the ring. -/
theorem sealed_of_encrypt {userCipher : NotificationCredentialCipher κ} {keyVersion : List Char}
    (huser : cipher.withActive keyVersion = some userCipher) {credential : List Char}
    {scope : DestinationScope} {nonce ciphertext : Bytes} (hnonce : nonce.length = 12)
    (h : userCipher.encrypt aead credential scope nonce = .ok ciphertext) :
    NotificationDestination.Sealed aead cipher
      ⟨scope, ciphertext, keyVersion, Text.stripText credential⟩ := by
  obtain ⟨key, hkey, rfl⟩ := Option.map_eq_some_iff.mp huser
  obtain ⟨hstorable, hciphertext⟩ := encrypt_eq_ok h
  exact ⟨hstorable, key, nonce, hkey, hnonce, hciphertext⟩

namespace RotationState

variable {s t : RotationState}

theorem PhaseSound.mono {p : ℕ} {phase : RotatorPhase} (h : s.PhaseSound aead cipher p phase)
    (hholds : ∀ row, s.Holds p row → t.Holds p row) : t.PhaseSound aead cipher p phase := by
  cases phase with
  | selecting run taken => exact fun row hrow => hholds row (h row hrow)
  | rewrapping run scanned todo writes =>
    exact ⟨fun row hrow => hholds row (h.1 row hrow),
      fun write hwrite => ⟨hholds _ (h.2 write hwrite).1, (h.2 write hwrite).2⟩⟩
  | _ => exact h

/-- A step moves one process on, or leaves every process where it is with the rows it holds. -/
theorem Sound.moved (h : s.Sound aead cipher)
    (hkeys : (t.rows.map NotificationDestination.key).Nodup)
    (hsealed : ∀ row ∈ t.rows, row.Sealed aead cipher)
    (hmoved : ∀ p, (t.rotators p = s.rotators p ∧ ∀ row, s.Holds p row → t.Holds p row) ∨
      t.PhaseSound aead cipher p (t.rotators p)) : t.Sound aead cipher where
  keys := hkeys
  sealed := hsealed
  phases p := by
    rcases hmoved p with ⟨hsame, hholds⟩ | hphase
    · rw [hsame]
      exact (h.phases p).mono hholds
    · exact hphase

@[simp] theorem rotators_setPhase_self (s : RotationState) (p : ℕ) (phase : RotatorPhase) :
    (s.setPhase p phase).rotators p = phase := Function.update_self _ _ _

theorem rotators_setPhase_of_ne (s : RotationState) {p q : ℕ} (h : q ≠ p) (phase : RotatorPhase) :
    (s.setPhase p phase).rotators q = s.rotators q := Function.update_of_ne h _ _

@[simp] theorem rotators_release (s : RotationState) (holder : RotationHolder) :
    (s.release holder).rotators = s.rotators := rfl

theorem holds_setHolder {p k : ℕ} {holder : Option RotationHolder} {row : NotificationDestination}
    (hk : s.holder k ≠ some (.rotator p)) (h : s.Holds p row) :
    (s.setHolder k holder).Holds p row := by
  have hne : row.key ≠ k := by
    intro heq
    rw [← heq] at hk
    exact hk h.2
  exact ⟨h.1, (Function.update_of_ne hne _ _).trans h.2⟩

theorem holds_release {p : ℕ} {holder : RotationHolder} {row : NotificationDestination}
    (hne : holder ≠ .rotator p) (h : s.Holds p row) : (s.release holder).Holds p row := by
  refine ⟨h.1, ?_⟩
  have hother : s.holder row.key ≠ some holder := by
    rw [h.2]
    exact fun heq => hne (Option.some.inj heq).symm
  exact (if_neg hother).trans h.2

/-- A process goes on within its transaction. -/
theorem Sound.setPhase (h : s.Sound aead cipher) {p : ℕ} {phase : RotatorPhase}
    (hphase : s.PhaseSound aead cipher p phase) : (s.setPhase p phase).Sound aead cipher := by
  refine h.moved h.keys h.sealed fun q => ?_
  by_cases hq : q = p
  · subst hq
    rw [rotators_setPhase_self]
    exact .inr (hphase.mono fun _ => id)
  · exact .inl ⟨rotators_setPhase_of_ne s hq phase, fun _ => id⟩

theorem Sound.release (h : s.Sound aead cipher) {p : ℕ} {phase : RotatorPhase}
    (hphase : ∀ t : RotationState, t.PhaseSound aead cipher p phase) :
    ((s.release (.rotator p)).setPhase p phase).Sound aead cipher := by
  refine h.moved h.keys h.sealed fun q => ?_
  by_cases hq : q = p
  · subst hq
    rw [rotators_setPhase_self]
    exact .inr (hphase _)
  · refine .inl ⟨rotators_setPhase_of_ne _ hq phase, fun row hrow => ?_⟩
    have hne : RotationHolder.rotator p ≠ .rotator q := by
      intro heq
      exact hq (RotationHolder.rotator.inj heq).symm
    exact holds_release hne hrow

theorem afterCount_sound (s : RotationState) (p : ℕ) (run : CredentialRotationRun) :
    s.PhaseSound aead cipher p (s.afterCount cipher run) := by
  unfold afterCount
  dsimp only
  split_ifs with hremaining hbatches
  · refine ⟨hremaining, fun row hrow => ?_⟩
    have hnone := List.length_eq_zero_iff.mp hremaining
    by_contra hversion
    exact List.filter_eq_nil_iff.mp hnone row hrow (decide_eq_true hversion)
  · trivial
  · rintro failure ⟨⟩

theorem Sound.rewrapRow (hsound : aead.Sound) (h : s.Sound aead cipher) {p : ℕ}
    {run : CredentialRotationRun} {scanned : ℕ} {destination : NotificationDestination}
    {todo : List NotificationDestination} {writes : List CredentialWrite} {nonce : Bytes}
    (hphase : s.PhaseSound aead cipher p (.rewrapping run scanned (destination :: todo) writes))
    (hnonce : nonce.length = 12) :
    (s.rewrapRow aead cipher p run scanned destination todo writes nonce).Sound aead cipher := by
  have hheld := hphase.1 destination List.mem_cons_self
  have hsealed := h.sealed destination hheld.1
  unfold RotationState.rewrapRow
  simp only [hsealed.decrypt_eq hsound, encrypt_of_storable hsealed.storable]
  refine h.setPhase ⟨fun row hrow => hphase.1 row (List.mem_cons_of_mem _ hrow), ?_⟩
  intro write hwrite
  split at hwrite
  · rcases List.mem_append.mp hwrite with hbefore | hnew
    · exact hphase.2 write hbefore
    · rw [List.mem_singleton.mp hnew]
      exact ⟨hheld, hsealed.storable, cipher.key, nonce, keyOf_keyVersion, hnonce, rfl⟩
  · exact hphase.2 write hwrite

/-- The row that a write of a batch changes is the one that it has read. -/
theorem written_cases (h : s.Sound aead cipher) {writes : List CredentialWrite}
    (hwrites : ∀ write ∈ writes, write.previous ∈ s.rows) {row : NotificationDestination}
    (hrow : row ∈ s.rows) :
    (written cipher writes row = row ∧ ∀ write ∈ writes, write.previous.key ≠ row.key) ∨
      ∃ write ∈ writes, write.previous = row ∧ written cipher writes row = write.result cipher := by
  unfold written
  cases hfind : writes.find? fun write => write.previous.key = row.key with
  | none =>
    refine .inl ⟨rfl, fun write hwrite heq => ?_⟩
    exact List.find?_eq_none.mp hfind write hwrite (decide_eq_true heq)
  | some write =>
    have hmem := List.mem_of_find?_eq_some hfind
    have hkey : write.previous.key = row.key := by simpa using List.find?_some hfind
    have hsame := List.inj_on_of_nodup_map h.keys (hwrites write hmem) hrow hkey
    refine .inr ⟨write, hmem, hsame, ?_⟩
    rw [← hsame]
    rfl

theorem key_written (writes : List CredentialWrite) (row : NotificationDestination) :
    (written cipher writes row).key = row.key := by
  unfold written
  split <;> rfl

theorem Sound.commit (h : s.Sound aead cipher) {p : ℕ} {run run' : CredentialRotationRun}
    {scanned : ℕ} {writes : List CredentialWrite}
    (hphase : s.PhaseSound aead cipher p (.rewrapping run scanned [] writes)) :
    ((({ s with rows := s.rows.map (written cipher writes) } : RotationState).release
      (.rotator p)).setPhase p (.counting run')).Sound aead cipher := by
  have hwrites : ∀ write ∈ writes, write.previous ∈ s.rows := fun write hwrite =>
    (hphase.2 write hwrite).1.1
  refine h.moved ?_ ?_ fun q => ?_
  · have hmap : (s.rows.map (written cipher writes)).map NotificationDestination.key =
        s.rows.map NotificationDestination.key := by
      rw [List.map_map]
      exact List.map_congr_left fun row _ => key_written writes row
    exact hmap ▸ h.keys
  · intro row hrow
    obtain ⟨before, hbefore, rfl⟩ := List.mem_map.mp hrow
    rcases written_cases h hwrites hbefore with ⟨hsame, -⟩ | ⟨write, hwrite, -, hresult⟩
    · rw [hsame]
      exact h.sealed before hbefore
    · rw [hresult]
      exact (hphase.2 write hwrite).2
  · by_cases hq : q = p
    · subst hq
      rw [rotators_setPhase_self]
      exact .inr trivial
    refine .inl ⟨rotators_setPhase_of_ne _ hq _, fun row hrow => ?_⟩
    -- the rows of another batch are not written
    have hne : RotationHolder.rotator p ≠ .rotator q := by
      intro heq
      exact hq (RotationHolder.rotator.inj heq).symm
    have hkept : written cipher writes row = row := by
      rcases written_cases h hwrites hrow.1 with ⟨hsame, -⟩ | ⟨write, hwrite, hprevious, -⟩
      · exact hsame
      · have hholder := (hphase.2 write hwrite).1.2
        rw [hprevious, hrow.2] at hholder
        exact absurd (Option.some.inj hholder).symm hne
    have hmem : row ∈ s.rows.map (written cipher writes) :=
      List.mem_map.mpr ⟨row, hrow.1, hkept⟩
    have hheld : ({ s with rows := s.rows.map (written cipher writes) } : RotationState).Holds q
      row := ⟨hmem, hrow.2⟩
    exact holds_release hne hheld

theorem Sound.step (hsound : aead.Sound) (h : s.Sound aead cipher) {label : RotationLabel}
    (hstep : s.step aead cipher label = some t) : t.Sound aead cipher := by
  cases label with
  | start p batchSize maxBatches =>
    unfold RotationState.step at hstep
    dsimp only at hstep
    split at hstep
    case h_4 => cases hstep
    all_goals
      cases hstep
      refine h.setPhase ?_
      split_ifs
      · rintro failure ⟨⟩
      · rintro failure ⟨⟩
      · trivial
  | count p =>
    unfold RotationState.step at hstep
    dsimp only at hstep
    split at hstep
    case h_3 => cases hstep
    all_goals
      cases hstep
      exact h.setPhase (afterCount_sound s p _)
  | beginBatch p =>
    unfold RotationState.step at hstep
    dsimp only at hstep
    split at hstep
    case h_2 => cases hstep
    cases hstep
    exact h.setPhase (by rintro row ⟨⟩)
  | take p k =>
    unfold RotationState.step at hstep
    dsimp only at hstep
    split at hstep
    case h_2 => cases hstep
    next run taken hphase =>
      obtain ⟨destination, hfind, hstep⟩ := Option.bind_eq_some_iff.mp hstep
      obtain ⟨_, hfree, hstep⟩ := Option.bind_eq_some_iff.mp hstep
      obtain ⟨-, -, hstep⟩ := Option.bind_eq_some_iff.mp hstep
      obtain ⟨-, -, hstep⟩ := Option.bind_eq_some_iff.mp hstep
      cases hstep
      have hmem := (Table.find_eq_some hfind).1
      have hkey : destination.key = k := (Table.find_eq_some hfind).2
      have hunheld (q : ℕ) : s.holder k ≠ some (.rotator q) := by
        rw [(Option.guard_eq_some' _).mp hfree]
        nofun
      have hlocked : (s.setHolder k (some (.rotator p))).Sound aead cipher :=
        h.moved h.keys h.sealed fun q =>
          .inl ⟨rfl, fun row hrow => holds_setHolder (hunheld q) hrow⟩
      refine hlocked.setPhase fun row hrow => ?_
      rcases List.mem_append.mp hrow with hbefore | hnew
      · have hbatch := h.phases p
        rw [hphase] at hbatch
        exact holds_setHolder (hunheld p) (hbatch row hbefore)
      · rw [List.mem_singleton.mp hnew]
        exact ⟨hmem, by rw [hkey]; exact Function.update_self _ _ _⟩
  | selected p =>
    unfold RotationState.step at hstep
    dsimp only at hstep
    split at hstep
    case h_2 => cases hstep
    next run taken hphase =>
      cases hstep
      have hbatch := h.phases p
      rw [hphase] at hbatch
      exact h.setPhase ⟨hbatch, by rintro write ⟨⟩⟩
  | rewrap p nonce =>
    unfold RotationState.step at hstep
    dsimp only at hstep
    split at hstep
    case h_2 => cases hstep
    next run scanned destination todo writes hphase =>
      obtain ⟨_, hnonce, hstep⟩ := Option.bind_eq_some_iff.mp hstep
      cases hstep
      have hbatch := h.phases p
      rw [hphase] at hbatch
      exact h.rewrapRow hsound hbatch ((Option.guard_eq_some' _).mp hnonce)
  | commit p =>
    unfold RotationState.step at hstep
    dsimp only at hstep
    split at hstep
    case h_2 => cases hstep
    next run scanned writes hphase =>
      cases hstep
      have hbatch := h.phases p
      rw [hphase] at hbatch
      exact h.commit hbatch
  | crash p =>
    cases hstep
    exact h.release fun _ => trivial
  | createDestination scope credential keyVersion nonce =>
    obtain ⟨userCipher, huser, hstep⟩ := Option.bind_eq_some_iff.mp hstep
    obtain ⟨_, hnonce, hstep⟩ := Option.bind_eq_some_iff.mp hstep
    obtain ⟨ciphertext, hciphertext, hstep⟩ := Option.bind_eq_some_iff.mp hstep
    obtain ⟨rows, hinsert, hstep⟩ := Option.bind_eq_some_iff.mp hstep
    cases hstep
    obtain ⟨rfl, hfresh⟩ := Table.insert_eq_some hinsert
    have hnew := sealed_of_encrypt huser ((Option.guard_eq_some' _).mp hnonce)
      (encrypted_of_toOption hciphertext)
    refine h.moved ?_ ?_ fun q => .inl ⟨rfl, fun row hrow => ⟨?_, hrow.2⟩⟩
    · exact Table.nodup_insert h.keys hfresh
    · intro row hrow
      rcases List.mem_append.mp hrow with hbefore | hadded
      · exact h.sealed row hbefore
      · rw [List.mem_singleton.mp hadded]
        exact hnew
    · exact List.mem_append_left _ hrow.1
  | lockRow u k =>
    obtain ⟨_, hfree, hstep⟩ := Option.bind_eq_some_iff.mp hstep
    cases hstep
    refine h.moved h.keys h.sealed fun q => .inl ⟨rfl, fun row hrow => ?_⟩
    refine holds_setHolder ?_ hrow
    rw [(Option.guard_eq_some' _).mp hfree]
    nofun
  | storeCredential u k credential keyVersion nonce =>
    obtain ⟨userCipher, huser, hstep⟩ := Option.bind_eq_some_iff.mp hstep
    obtain ⟨destination, hfind, hstep⟩ := Option.bind_eq_some_iff.mp hstep
    obtain ⟨_, hheld, hstep⟩ := Option.bind_eq_some_iff.mp hstep
    obtain ⟨_, hnonce, hstep⟩ := Option.bind_eq_some_iff.mp hstep
    obtain ⟨ciphertext, hciphertext, hstep⟩ := Option.bind_eq_some_iff.mp hstep
    cases hstep
    have hkey : destination.key = k := (Table.find_eq_some hfind).2
    have hnew := sealed_of_encrypt huser ((Option.guard_eq_some' _).mp hnonce)
      (encrypted_of_toOption hciphertext)
    refine h.moved ?_ ?_ fun q => .inl ⟨rfl, fun row hrow => ?_⟩
    · rw [Table.map_key_put]
      exact h.keys
    · exact Table.forall_put h.sealed hnew
    · have hother : row.key ≠ k := by
        intro heq
        have hholder := hrow.2
        rw [heq, (Option.guard_eq_some' _).mp hheld] at hholder
        cases hholder
      refine ⟨Table.mem_put_other hrow.1 ?_, ?_⟩
      · intro heq
        exact hother (heq.trans hkey)
      · exact (holds_release (by nofun) hrow).2
  | leaveRow u k =>
    obtain ⟨_, hheld, hstep⟩ := Option.bind_eq_some_iff.mp hstep
    cases hstep
    refine h.moved h.keys h.sealed fun q => .inl ⟨rfl, fun row hrow => ?_⟩
    refine holds_setHolder ?_ hrow
    rw [(Option.guard_eq_some' _).mp hheld]
    nofun

theorem sound_new : ({} : RotationState).Sound aead cipher where
  keys := List.nodup_nil
  sealed := by rintro row ⟨⟩
  phases _ := trivial

theorem sound_of_reaches (hsound : aead.Sound)
    (h : Reaches (RotationState.step aead cipher) anyStep {} s) : s.Sound aead cipher :=
  h.invariant (fun _ _ _ _ hbefore hstep => hbefore.step hsound hstep) sound_new

/-- A commit leaves a row alone, or writes it as it was read. -/
theorem commit_row (h : s.Sound aead cipher) {p : ℕ}
    (hstep : s.step aead cipher (.commit p) = some t) {row : NotificationDestination}
    (hrow : row ∈ s.rows) :
    row ∈ t.rows ∨ ∃ run scanned writes write,
      s.rotators p = .rewrapping run scanned [] writes ∧ write ∈ writes ∧ write.previous = row ∧
        write.result cipher ∈ t.rows := by
  unfold RotationState.step at hstep
  dsimp only at hstep
  split at hstep
  case h_2 => cases hstep
  next run scanned writes hphase =>
    cases hstep
    have hbatch := h.phases p
    rw [hphase] at hbatch
    have hmem : written cipher writes row ∈ s.rows.map (written cipher writes) :=
      List.mem_map_of_mem hrow
    have hwrites : ∀ write ∈ writes, write.previous ∈ s.rows := fun write hwrite =>
      (hbatch.2 write hwrite).1.1
    rcases written_cases h hwrites hrow with ⟨hsame, -⟩ | ⟨write, hwrite, hprevious, hresult⟩
    · rw [hsame] at hmem
      exact .inl hmem
    · rw [hresult] at hmem
      exact .inr ⟨run, scanned, writes, write, hphase, hwrite, hprevious, hmem⟩

/-- In every interleaving of rotations and users each row decrypts to the credential that its owner
stored last, a commit writes rows only as they were read, a rotation that returns has counted no
row under another version, and no rotation fails on a credential of the ring. -/
theorem credentials_rotated (hsound : aead.Sound)
    (h : Reaches (RotationState.step aead cipher) anyStep {} s) :
    (∀ row ∈ s.rows, cipher.decrypt aead row.credentialCiphertext row.scope
        row.credentialKeyVersion = .ok row.stored) ∧
      (∀ p t, s.step aead cipher (.commit p) = some t → ∀ row ∈ s.rows,
        row ∈ t.rows ∨ ∃ run scanned writes write,
          s.rotators p = .rewrapping run scanned [] writes ∧ write ∈ writes ∧
            write.previous = row ∧ write.result cipher ∈ t.rows) ∧
      (∀ p result counted, s.rotators p = .returned result counted →
        ∀ row ∈ counted, row.credentialKeyVersion = cipher.keyVersion) ∧
      (∀ p failure, s.rotators p ≠ .raised (.credential failure)) ∧
      ∀ keyVersion userCipher, cipher.withActive keyVersion = some userCipher →
        ∀ credential scope nonce ciphertext, nonce.length = 12 →
          userCipher.encrypt aead credential scope nonce = .ok ciphertext →
            ∃ value, cipher.decrypt aead ciphertext scope keyVersion = .ok value ∧
              ∀ nonce', ∃ next, cipher.encrypt aead value scope nonce' = .ok next := by
  have hstate := sound_of_reaches hsound h
  refine ⟨fun row hrow => (hstate.sealed row hrow).decrypt_eq hsound,
    fun p t hstep row hrow => commit_row hstate hstep hrow, fun p result counted hphase => ?_,
    fun p failure hphase => ?_, fun keyVersion userCipher huser credential scope nonce ciphertext
      hnonce hciphertext => ?_⟩
  · have hreturned := hstate.phases p
    rw [hphase] at hreturned
    exact hreturned.2
  · have hraised := hstate.phases p
    rw [hphase] at hraised
    exact hraised failure rfl
  · have hsealed := sealed_of_encrypt huser hnonce hciphertext
    exact ⟨_, hsealed.decrypt_eq hsound,
      fun nonce' => ⟨_, encrypt_of_storable hsealed.storable scope nonce'⟩⟩

end RotationState

/-- A cipher that appends a tag and hides nothing. -/
def plainAead : Aead ℕ where
  encrypt _ _ text _ := text ++ List.replicate 16 0
  decrypt _ _ sealed _ := some (sealed.take (sealed.length - 16))

theorem plainAead_sound : plainAead.Sound where
  decrypt_encrypt key nonce text aad := by
    simp [plainAead]
  length_encrypt key nonce text aad := by
    simp [plainAead]

/-- The active version is the second one. -/
def plainRing : NotificationCredentialCipher ℕ where
  keyVersion := ['v', '2']
  key := 2
  decryptKeys := [(['v', '1'], 1)]

def plainScope : DestinationScope where
  destinationId := 7
  tenantId := 1
  workspaceId := 2
  ownerUserId := 3
  channel := ['b', 'a', 'r', 'k']

/-- Two rotations overlap with an update of the user, who stores under the old version. -/
def overlappingLabels : List RotationLabel :=
  [.createDestination plainScope [' ', 'a', 'b'] ['v', '1'] (List.replicate 12 0),
    .start 0 10 5, .start 1 10 5, .count 0, .count 1, .beginBatch 0, .lockRow 4 7,
    .storeCredential 4 7 ['c', 'd'] ['v', '1'] (List.replicate 12 1), .take 0 7, .beginBatch 1,
    .selected 1, .commit 1, .selected 0, .rewrap 0 (List.replicate 12 2), .commit 0, .count 0]

theorem credentials_rotated_overlapping :
    ∃ s, Reaches (RotationState.step plainAead plainRing) anyStep {} s ∧
      s.rows.map (·.stored) = [['c', 'd']] ∧
      s.rows.map (·.credentialKeyVersion) = [['v', '2']] ∧
      ∀ row ∈ s.rows, plainRing.decrypt plainAead row.credentialCiphertext row.scope
        row.credentialKeyVersion = .ok row.stored := by
  have hrun : (runLabels (RotationState.step plainAead plainRing) {} overlappingLabels).any
      (fun s => s.rows.map (·.stored) = [['c', 'd']] ∧
        s.rows.map (·.credentialKeyVersion) = [['v', '2']]) = true := by
    decide +kernel
  obtain ⟨s, hs, hrows⟩ := (Option.any_eq_true _ _).mp hrun
  obtain ⟨hstored, hversion⟩ := of_decide_eq_true hrows
  have hreaches := reaches_of_runLabels overlappingLabels hs
  exact ⟨s, hreaches, hstored, hversion,
    (RotationState.credentials_rotated plainAead_sound hreaches).1⟩

end CryptoAlert
