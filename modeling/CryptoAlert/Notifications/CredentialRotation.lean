import CryptoAlert.Lib.Table
import CryptoAlert.Lib.Transition
import CryptoAlert.Notifications.CredentialCipher
import Mathlib.Logic.Function.Basic

/-!
# The rotation of notification credentials

A rotation seals the credentials of all destinations with the active key, in batches. A batch is
one transaction: it locks rows under an old key version, passing over the rows that others hold,
decrypts and seals each of them and writes it back if it is as it was read. The rows that are left
are counted in a transaction of their own. Users replace credentials meanwhile, under any version
of the ring. The rows that others see are those of the commits, so writes are kept with the batch
until then.
-/

namespace CryptoAlert

structure NotificationDestination where
  scope : DestinationScope
  credentialCiphertext : Bytes
  credentialKeyVersion : List Char
  /-- The credential that its owner stored last. It is not a column. -/
  stored : List Char
deriving DecidableEq

/-- The primary key. -/
def NotificationDestination.key (row : NotificationDestination) : ℕ := row.scope.destinationId.val

/-- An `UPDATE` of a batch that is not committed yet, with the row as it was read. -/
structure CredentialWrite where
  previous : NotificationDestination
  nextCiphertext : Bytes
deriving DecidableEq

structure CredentialRotationRun where
  batchSize : ℕ
  maxBatches : ℕ
  batches : ℕ := 0
  scannedRows : ℕ := 0
  rewrappedRows : ℕ := 0
deriving DecidableEq

structure CredentialRotationResult where
  activeKeyVersion : List Char
  batches : ℕ
  scannedRows : ℕ
  rewrappedRows : ℕ
  remainingOldVersionRows : ℕ
deriving DecidableEq

inductive RotationError where
  | valueError (message : String)
  | incomplete (message : String)
  | credential (error : CredentialError)
deriving DecidableEq

/-- Where a call of `rotate_notification_credentials` stands. -/
inductive RotatorPhase where
  | idle
  | started (run : CredentialRotationRun)
  | looping (run : CredentialRotationRun)
  /-- Within the `SELECT`, with the rows that it has locked. -/
  | selecting (run : CredentialRotationRun) (taken : List NotificationDestination)
  | rewrapping (run : CredentialRotationRun) (scanned : ℕ) (todo : List NotificationDestination)
      (writes : List CredentialWrite)
  | counting (run : CredentialRotationRun)
  /-- With the rows that the last count has seen. -/
  | returned (result : CredentialRotationResult) (counted : List NotificationDestination)
  | raised (error : RotationError)
deriving DecidableEq

inductive RotationHolder where
  | rotator (p : ℕ)
  | user (u : ℕ)
deriving DecidableEq

structure RotationState where
  rows : List NotificationDestination := []
  /-- Who holds the lock of the row with a key. -/
  holder : ℕ → Option RotationHolder := fun _ => none
  rotators : ℕ → RotatorPhase := fun _ => .idle

inductive RotationLabel where
  | start (p batchSize maxBatches : ℕ)
  | count (p : ℕ)
  | beginBatch (p : ℕ)
  | take (p k : ℕ)
  | selected (p : ℕ)
  | rewrap (p : ℕ) (nonce : Bytes)
  | commit (p : ℕ)
  /-- The process ends, or the database gives its transaction up. -/
  | crash (p : ℕ)
  | createDestination (scope : DestinationScope) (credential keyVersion : List Char)
      (nonce : Bytes)
  | lockRow (u k : ℕ)
  | storeCredential (u k : ℕ) (credential keyVersion : List Char) (nonce : Bytes)
  /-- The transaction of a user ends without a new credential. -/
  | leaveRow (u k : ℕ)
deriving DecidableEq

namespace RotationState

variable {κ : Type} (aead : Aead κ) (cipher : NotificationCredentialCipher κ)

def setPhase (s : RotationState) (p : ℕ) (phase : RotatorPhase) : RotationState :=
  { s with rotators := Function.update s.rotators p phase }

def setHolder (s : RotationState) (k : ℕ) (holder : Option RotationHolder) : RotationState :=
  { s with holder := Function.update s.holder k holder }

/-- The end of a transaction. -/
def release (s : RotationState) (holder : RotationHolder) : RotationState :=
  { s with holder := fun k => if s.holder k = some holder then none else s.holder k }

/-- `count_notification_credentials_outside_active_version` -/
def countOutside (s : RotationState) (activeKeyVersion : List Char) : ℕ :=
  (s.rows.filter fun row => row.credentialKeyVersion ≠ activeKeyVersion).length

/-- The loop of a rotation behind a count. -/
def afterCount (s : RotationState) (run : CredentialRotationRun) : RotatorPhase :=
  let remaining := s.countOutside cipher.keyVersion
  if remaining = 0 then
    .returned ⟨cipher.keyVersion, run.batches, run.scannedRows, run.rewrappedRows, remaining⟩ s.rows
  else if run.batches < run.maxBatches then .looping run
  else .raised (.incomplete
    "notification credential rotation did not reach the retirement boundary")

/-- The committed row of a write. -/
def written (writes : List CredentialWrite) (row : NotificationDestination) :
    NotificationDestination :=
  match writes.find? fun write => write.previous.key = row.key with
  | some write => { row with
      credentialCiphertext := write.nextCiphertext
      credentialKeyVersion := cipher.keyVersion }
  | none => row

/-- The row is as it was read. -/
def isUnchanged (s : RotationState) (previous : NotificationDestination) : Bool :=
  s.rows.any fun row => row.key = previous.key ∧
    row.credentialKeyVersion = previous.credentialKeyVersion ∧
    row.credentialCiphertext = previous.credentialCiphertext

/-- The body of the loop over the rows of a batch. -/
def rewrapRow (s : RotationState) (p : ℕ) (run : CredentialRotationRun) (scanned : ℕ)
    (destination : NotificationDestination) (todo : List NotificationDestination)
    (writes : List CredentialWrite) (nonce : Bytes) : RotationState :=
  match cipher.decrypt aead destination.credentialCiphertext destination.scope
      destination.credentialKeyVersion with
  | .error error => (s.release (.rotator p)).setPhase p (.raised (.credential error))
  | .ok credential =>
    match cipher.encrypt aead credential destination.scope nonce with
    | .error error => (s.release (.rotator p)).setPhase p (.raised (.credential error))
    | .ok nextCiphertext =>
      s.setPhase p (.rewrapping run scanned todo
        (if s.isUnchanged destination then writes ++ [⟨destination, nextCiphertext⟩] else writes))

def step (s : RotationState) : RotationLabel → Option RotationState
  | .start p batchSize maxBatches =>
    match s.rotators p with
    | .idle | .returned _ _ | .raised _ =>
      some <| s.setPhase p <|
        if batchSize < 1 ∨ 1000 < batchSize then
          .raised (.valueError "credential rotation batch_size must be between 1 and 1000")
        else if maxBatches < 1 then
          .raised (.valueError "credential rotation max_batches must be positive")
        else .started { batchSize, maxBatches }
    | _ => none
  | .count p =>
    match s.rotators p with
    | .started run | .counting run => some (s.setPhase p (s.afterCount cipher run))
    | _ => none
  | .beginBatch p =>
    match s.rotators p with
    | .looping run => some (s.setPhase p (.selecting run []))
    | _ => none
  | .take p k =>
    match s.rotators p with
    | .selecting run taken => do
      let destination ← Table.find NotificationDestination.key s.rows k
      guard (s.holder k = none)
      guard (destination.credentialKeyVersion ≠ cipher.keyVersion)
      guard (taken.length < run.batchSize ∧ ∀ row ∈ taken, row.key < k)
      some ((s.setHolder k (some (.rotator p))).setPhase p
        (.selecting run (taken ++ [destination])))
    | _ => none
  | .selected p =>
    match s.rotators p with
    | .selecting run taken => some (s.setPhase p (.rewrapping run taken.length taken []))
    | _ => none
  | .rewrap p nonce =>
    match s.rotators p with
    | .rewrapping run scanned (destination :: todo) writes => do
      guard (nonce.length = 12)
      some (s.rewrapRow aead cipher p run scanned destination todo writes nonce)
    | _ => none
  | .commit p =>
    match s.rotators p with
    | .rewrapping run scanned [] writes =>
      let committed := { s with rows := s.rows.map (written cipher writes) }
      some ((committed.release (.rotator p)).setPhase p (.counting { run with
        batches := run.batches + 1
        scannedRows := run.scannedRows + scanned
        rewrappedRows := run.rewrappedRows + writes.length }))
    | _ => none
  | .crash p => some ((s.release (.rotator p)).setPhase p .idle)
  | .createDestination scope credential keyVersion nonce => do
    let userCipher ← cipher.withActive keyVersion
    guard (nonce.length = 12)
    let ciphertext ← (userCipher.encrypt aead credential scope nonce).toOption
    let rows ← Table.insert NotificationDestination.key s.rows
      ⟨scope, ciphertext, keyVersion, Text.stripText credential⟩
    some { s with rows }
  | .lockRow u k => do
    guard (s.holder k = none)
    some (s.setHolder k (some (.user u)))
  | .storeCredential u k credential keyVersion nonce => do
    let userCipher ← cipher.withActive keyVersion
    let destination ← Table.find NotificationDestination.key s.rows k
    guard (s.holder k = some (.user u))
    guard (nonce.length = 12)
    let ciphertext ← (userCipher.encrypt aead credential destination.scope nonce).toOption
    let rows := Table.put NotificationDestination.key s.rows { destination with
      credentialCiphertext := ciphertext
      credentialKeyVersion := keyVersion
      stored := Text.stripText credential }
    some { s.release (.user u) with rows }
  | .leaveRow u k => do
    guard (s.holder k = some (.user u))
    some (s.setHolder k none)

end RotationState

end CryptoAlert
