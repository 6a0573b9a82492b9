import PlateVault.Base.Paths

/-!
# Storage custody records

Reviewed entry evidence, the operation journal's items with their phases, outcomes and reasons, and
the one change an item takes at a time.
-/

namespace PlateVault

/-- What one storage operation does with each of its items. -/
inductive StorageOperationKind
  | trash
  | copy
  | move
  deriving DecidableEq, Repr

inductive StorageOperationState
  | reviewed
  | running
  | settled
  deriving DecidableEq, Repr

/-- What a reviewed entry is; a link by its own identity and its target text. -/
inductive EntryKind
  | file
  | link (target : NativePath)
  deriving DecidableEq, Repr

/-- Reviewed evidence of one entry, re-verified immediately before it moves. -/
structure EntryEvidence where
  path : NativePath
  root : Option NativePath
  kind : EntryKind
  fingerprint : ObservationFingerprint
  sha256 : Option Text
  deriving DecidableEq, Repr

/-- A retained original or kept copy an item relies on. -/
structure KeptCopy where
  path : NativePath
  root : Option NativePath
  fingerprint : ObservationFingerprint
  sha256 : Text
  deriving DecidableEq, Repr

/-- Where a transfer writes: an existing folder, and a path below it. -/
structure TransferDestination where
  root : NativePath
  relative : NativePath
  deriving DecidableEq, Repr

structure StorageItemDraft where
  source : EntryEvidence
  reliedOn : List KeptCopy
  destination : Option TransferDestination
  deriving DecidableEq, Repr

/-- The copy a transfer item wrote, by the identity it had as a partial file. -/
structure WrittenCopy where
  partialPath : NativePath
  identity : FileIdentity
  deriving DecidableEq, Repr

inductive ItemPhase
  | pending
  | writing
  | installed
  | destinationVerified
  | retiring
  | settled
  deriving DecidableEq, Repr

inductive ItemOutcome
  | trashed
  | copied
  | moved
  | sourceKept
  | blocked
  | uncertain
  deriving DecidableEq, Repr

inductive ReasonCode
  | trashUnsupported
  | trashFailed
  | sourceDrift
  | sourceUnavailable
  | keptCopyUnproven
  | destinationOccupied
  | destinationMismatch
  | destinationChanged
  | writeFailed
  | interrupted
  | «protected»
  deriving DecidableEq, Repr

structure ItemReason where
  code : ReasonCode
  detail : String
  deriving DecidableEq, Repr

structure ItemChange where
  phase : ItemPhase
  outcome : Option ItemOutcome
  reason : Option ItemReason
  written : Option WrittenCopy
  deriving DecidableEq, Repr

structure StorageItem where
  seq : Nat
  source : EntryEvidence
  reliedOn : List KeptCopy
  destination : Option TransferDestination
  written : Option WrittenCopy
  phase : ItemPhase
  outcome : Option ItemOutcome
  reason : Option ItemReason
  revision : Nat
  updatedAt : String
  deriving DecidableEq, Repr

structure StorageOperation where
  id : Uuid
  kind : StorageOperationKind
  state : StorageOperationState
  revision : Nat
  items : List StorageItem
  createdAt : String
  updatedAt : String
  deriving DecidableEq, Repr

end PlateVault
