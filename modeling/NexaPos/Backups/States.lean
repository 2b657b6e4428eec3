import Mathlib.Tactic.Common

/-!
# Lifecycles of backups and restores

The states of a backup, of its integrity check and of a restore, with the transitions each
lifecycle declares.  A service validates a transition before it writes the new state; writing the
state a row already has is not a transition.
-/

namespace NexaPos.Backups

inductive BackupStatus
  | queued
  | preparing
  | snapshotting
  | packaging
  | uploading
  | verifying
  | succeeded
  | failed
  | cancelled
  | deletionPending
  | deleted
  deriving DecidableEq, Repr

inductive IntegrityStatus
  | notChecked
  | verifying
  | verified
  | failed
  | corrupted
  deriving DecidableEq, Repr

inductive RestoreStatus
  | queued
  | authorizing
  | locking
  | safetyBackup
  | validating
  | restoring
  | verifying
  | succeeded
  | failed
  | rollingBack
  | rolledBack
  | indeterminate
  deriving DecidableEq, Repr

/-- `BACKUP_TRANSITIONS`. -/
def backupTransitions : BackupStatus → List BackupStatus
  | .queued => [.preparing, .failed, .cancelled]
  | .preparing => [.snapshotting, .failed, .cancelled]
  | .snapshotting => [.packaging, .failed, .cancelled]
  | .packaging => [.uploading, .failed, .cancelled]
  | .uploading => [.verifying, .failed, .cancelled]
  | .verifying => [.succeeded, .failed, .cancelled]
  | .succeeded => [.deletionPending]
  | .failed => [.deletionPending]
  | .cancelled => [.deletionPending]
  | .deletionPending => [.deleted]
  | .deleted => []

/-- `INTEGRITY_TRANSITIONS`. -/
def integrityTransitions : IntegrityStatus → List IntegrityStatus
  | .notChecked => [.verifying, .failed, .corrupted]
  | .verifying => [.verified, .failed, .corrupted]
  | .verified => [.corrupted]
  | .failed => [.verifying, .corrupted]
  | .corrupted => []

/-- `RESTORE_TRANSITIONS`. -/
def restoreTransitions : RestoreStatus → List RestoreStatus
  | .queued => [.authorizing, .failed]
  | .authorizing => [.locking, .failed]
  | .locking => [.safetyBackup, .failed]
  | .safetyBackup => [.validating, .failed]
  | .validating => [.restoring, .failed]
  | .restoring => [.verifying, .failed, .rollingBack, .indeterminate]
  | .verifying => [.succeeded, .failed, .rollingBack, .indeterminate]
  | .failed => [.rollingBack, .indeterminate]
  | .rollingBack => [.rolledBack, .indeterminate]
  | .succeeded => []
  | .rolledBack => []
  | .indeterminate => []

end NexaPos.Backups
