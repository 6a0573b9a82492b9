import PlateVault.Apply.Swap

/-!
# One Apply

The whole of an Apply from its reservation to its settlement, its recovery after a restart, and the
end of a leftover's review, which may retire the previous View.
-/

namespace PlateVault

namespace ApplyProg

/-! ## Reservation -/

/-- The identity of the folder at `View/`, where there is one; `none` for an error. -/
def viewIdentity : ApplyProg (Option (Option FileIdentity)) := do
  let there ← act (.present .view)
  if there then do
    let observed ← act (.observe .view)
    pure (observed.map some)
  else pure (some none)

/-- `prepare_tree`: an empty `View (previous)/` goes, and the identities the swap expects are
read. -/
def prepareTree (previousGone : Bool) : ApplyProg (Option ExpectedTree) := do
  if !(← act .makeRoot) then pure none
  else do
    if previousGone then act .removeEmptyPrevious
    let root ← act .observeRoot
    let view ← viewIdentity
    pure <| root.bind fun rootIdentity => view.map fun view =>
      { rootIdentity, view, building := none }

/-- `reserve`: `none` where the Project takes no Apply. -/
def reserve : ApplyProg (Option ExpectedTree) := do
  let previousGone ← act .previousGone
  match ← prepareTree previousGone with
  | none => pure none
  | some expected => do
    let reserved ← act (.catalog (.reserveApply previousGone expected))
    pure (if reserved then some expected else none)

/-! ## The build -/

/-- `make_building`: a fresh `View (building)/`, after clearing one an earlier Apply left; `none` for
an error. -/
def makeBuilding : ApplyProg (Option (Except ApplyStop FileIdentity)) := do
  let there ← act (.present .building)
  let cleared ← if there then act .clearBuilding else pure true
  if !cleared then pure (some (.error .buildingNotCleared))
  else do
    match ← act (.createDir .building) with
    | .error _ => pure none
    | .ok _ => do
      let identity ← act (.observe .building)
      pure (identity.map .ok)

def placeEntries : Nat → ApplyProg (Option ApplyStop)
  | 0 => pure none
  | entries + 1 => do
    if ← act .canceled then pure (some .canceled)
    else if ← act .placeEntry then placeEntries entries
    else pure (some .entryNotPlaced)

/-- From a made `View (building)/` to the verified build. -/
def fill (entries : Nat) (next : ApplyProg Ended) : ApplyProg Ended := do
  match ← placeEntries entries with
  | some stop => endApply true stop
  | none => do
    if !(← act .verifyBuilt) then endApply true .buildUnverified
    else if !(← act .foreignInventory) then endApply true .viewUnreadable
    else recording .recordApplyBuild (unlessInterrupted next)

/-- `build`. -/
def build (entries polls : Nat) (expected : ExpectedTree) : ApplyProg Ended :=
  unlessInterrupted do
    if !(← act .snapshotSources) then endApply false .originalsUnverified
    else recording (.advanceApply .sourcesVerified none) <| unlessInterrupted do
      match ← makeBuilding with
      | none => pure .brokeOff
      | some (.error stop) => endApply false stop
      | some (.ok identity) =>
        let expected := { expected with building := some identity }
        recording (.advanceApply .building (some expected)) <| unlessInterrupted <|
          fill entries (swap polls expected true)

/-! ## The end -/

/-- Settle an Apply whose View is installed: the previous View retires where its folder is gone. -/
def settle (previous : Bool) (phase : ApplyPhase) : ApplyProg Ended :=
  let retiring : ApplyProg Ended := do
    let gone ← act .retire
    recording (.settleApply gone) (pure .reported)
  if !previous then recording (.settleApply true) (pure .reported)
  else if before phase .retiringPrevious then
    recording (.advanceApply .retiringPrevious none) (unlessInterrupted retiring)
  else retiring

/-- From the committed manifest on: the ticked foreign files move, and the old View retires. -/
def afterCommit (phase : ApplyPhase) : ApplyProg Ended := do
  let previous ← act .readPrevious
  if before phase .foreignTransferred then do
    if ← act .moveForeign then
      recording (.advanceApply .foreignTransferred none)
        (unlessInterrupted (settle previous .foreignTransferred))
    else pure .brokeOff
  else settle previous phase

/-- `finish_installed`: from `NewInstalled` on an Apply ends Applied. -/
def finishInstalled (phase : ApplyPhase) : ApplyProg Ended :=
  if before phase .manifestCommitted then
    recording .commitApply (unlessInterrupted (afterCommit .manifestCommitted))
  else afterCommit phase

/-! ## Whole programs -/

/-- `run`: build, verify, swap and settle a reserved Apply. -/
def run (entries polls : Nat) (expected : ExpectedTree) : ApplyProg Ended := do
  match ← act .stillReserved with
  | none => pure .brokeOff
  | some false => endApply false .catalogMoved
  | some true => do
    match ← build entries polls expected with
    | .goesOn => finishInstalled .newInstalled
    | ended => pure ended

/-- `apply`. -/
def apply (entries polls : Nat) : ApplyProg Ended := do
  match ← reserve with
  | none => pure .brokeOff
  | some expected => run entries polls expected

/-- `recover` from an unsettled journal. -/
def recover (expected : ExpectedTree) (phase : ApplyPhase) : ApplyProg Ended := do
  match ← recoverFolders expected phase with
  | .stuck => pure .brokeOff
  | .installed => do
    if !(← act .settleKeptClaims) then pure .brokeOff
    else if before phase .newInstalled then
      recording (.advanceApply .newInstalled none) (finishInstalled .newInstalled)
    else finishInstalled phase
  | .notInstalled => do
    if !(← act .settleKeptClaims) then pure .brokeOff
    else endApply false .interrupted

/-- The end of `review_view_leftover`: with its last file gone, `View (previous)/` goes. -/
def reviewed : ApplyProg Ended := do
  let gone ← act .clearPrevious
  if gone then recording .retirePreviousView (pure .reported) else pure .reported

end ApplyProg

end PlateVault
