import PlateVault.Apply.Effects

/-!
# The View swap and its recovery

`swap` moves the old View aside and installs the built one, recording each phase; `recoverFolders`
reads from the folders and the phase where a stopped swap left off. A rename is the no-replace
rename of the volume, or, where there is none, a rename over an empty folder made in its place.
-/

namespace PlateVault

/-- How recovery found the folders of an interrupted Apply. -/
inductive Recovered
  | installed
  | notInstalled
  | stuck
  deriving DecidableEq, Repr

inductive ApplyStop
  | canceled
  | interrupted
  | catalogMoved
  | originalsUnverified
  | buildingNotCleared
  | entryNotPlaced
  | buildUnverified
  | viewUnreadable
  | previousUnreadable
  | keptNotMoved
  | projectFolderReplaced
  | viewReplaced
  | previousAppeared
  | asideFailed
  | notInstalled
  deriving DecidableEq, Repr

/-- How a part of an Apply ended: it goes on, it returns a report, or it breaks off with an error
and leaves the journal unsettled. -/
inductive Ended
  | goesOn
  | reported
  | brokeOff
  deriving DecidableEq, Repr

namespace ApplyProg

abbrev act (effect : Effect) : ApplyProg effect.Answer := Prog.act effect

/-! ## Renames -/

/-- `over_placeholder`: rename over the folder created at `target`; a failed rename removes it. -/
def overPlaceholder (source target : Name) (placeholder : Entry) :
    ApplyProg (Except IoError Unit) := do
  match ← act (.renameOver source target) with
  | .ok () => pure (.ok ())
  | .error error => do
    act (.removePlaceholder target placeholder)
    pure (.error error)

/-- `without_noreplace`. -/
def withoutNoreplace (source target : Name) : ApplyProg (Except IoError Unit) := do
  match ← act (.isDir source) with
  | .error error => pure (.error error)
  | .ok false => act (.persistFile source target)
  | .ok true => do
    match ← act (.createDir target) with
    | .error error => pure (.error error)
    | .ok placeholder => overPlaceholder source target placeholder

/-- `rename_noreplace`. -/
def rename (source target : Name) : ApplyProg (Except IoError Unit) := do
  match ← act (.renameNoReplace source target) with
  | .error .unsupported => withoutNoreplace source target
  | answer => pure answer

/-! ## Recovery -/

/-- Whether the folder at a name reads as the recorded one. -/
def is (name : Name) (identity : Option FileIdentity) : ApplyProg Bool :=
  match identity with
  | none => pure false
  | some recorded => do
    let observed ← act (.observe name)
    pure (observed.any fun observed => sameIdentity observed recorded)

/-- Whether nothing is at `gone` and the folder at `name` reads as the recorded one. -/
def isWithout (gone name : Name) (identity : Option FileIdentity) : ApplyProg Bool := do
  let there ← act (.present gone)
  if there then pure false else is name identity

/-- Put the folders of an interrupted Apply back in a state its journal can settle. -/
def recoverFolders (expected : ExpectedTree) (phase : ApplyPhase) : ApplyProg Recovered :=
  if before phase .buildVerified then pure .notInstalled
  else do
    if ← is .view expected.building then pure .installed
    else if !before phase .newInstalled then do
      if ← isWithout .view .building expected.building then do
        match ← rename .building .view with
        | .ok () => pure .installed
        | .error _ => pure .stuck
      else pure .stuck
    else do
      if ← isWithout .view .previous expected.view then do
        match ← rename .previous .view with
        | .ok () => pure .notInstalled
        | .error _ => pure .stuck
      else pure .notInstalled

/-! ## The swap -/

def recording (write : CatalogWrite) (next : ApplyProg Ended) : ApplyProg Ended := do
  if ← act (.catalog write) then next else pure .brokeOff

/-- End before the new View is installed: the old View stays. A canceled Apply clears the build it
made. -/
def endApply (buildingMade : Bool) (stop : ApplyStop) : ApplyProg Ended := do
  if stop = .canceled && buildingMade then do
    let _ ← act .clearBuilding
    recording .discardApply (pure .reported)
  else recording .discardApply (pure .reported)

/-- PlateVault is closing: stop here, the journal unsettled. -/
def unlessInterrupted (next : ApplyProg Ended) : ApplyProg Ended := do
  if ← act .interrupted then pure .reported else next

/-- `move_kept`: why the kept files couldn't all leave, or what followed; `none` for an error. -/
def moveKept : ApplyProg (Option (Option ApplyStop)) := do
  match ← act .moveKeptFiles with
  | .brokeOff => pure none
  | .stopped => pure (some (some .previousUnreadable))
  | .moved failed => do
    let gone ← act .clearPrevious
    if failed then pure (some (some .keptNotMoved))
    else if gone then do
      if ← act (.catalog .retirePreviousView) then pure (some none) else pure none
    else pure (some none)

/-- Clear `View (previous)/` for the swap. -/
def makeWay (old : Bool) : ApplyProg (Option (Option ApplyStop)) := do
  match ← moveKept with
  | none => pure none
  | some (some stop) => pure (some (some stop))
  | some none =>
    if old then pure (some none)
    else do
      let there ← act (.present .previous)
      pure (some (if there then some .previousAppeared else none))

/-- The Project folder and `View/` are still the recorded ones, and `View (previous)/` is free. -/
def swapReady (expected : ExpectedTree) : ApplyProg (Option ApplyStop) := do
  let root ← act .observeRoot
  if !root.any fun root => sameIdentity root expected.rootIdentity then
    pure (some .projectFolderReplaced)
  else do
    if ← is .view expected.view then do
      let there ← act (.present .previous)
      pure (if there then some .previousAppeared else none)
    else pure (some .viewReplaced)

inductive Aside
  | moved
  | canceled
  | failed
  /-- The process ended while it waited. -/
  | died
  deriving DecidableEq, Repr

/-- `wait_aside`: retry while a tool holds a file in the View. The polls are counted only to end a
wait that no tool ends. -/
def waitAside : Nat → ApplyProg Aside
  | 0 => pure .died
  | polls + 1 => do
    -- before and after the poll's sleep
    if ← act .canceled then pure .canceled
    else if ← act .canceled then pure .canceled
    else do
      match ← rename .view .previous with
      | .ok () => pure .moved
      | .error .held => waitAside polls
      | .error _ => pure .failed

/-- One attempt to move the old View aside, or a wait for the tool that holds it; `none` for an
error. -/
def moveOldViewAside (polls : Nat) : ApplyProg (Option (Aside × Bool)) := do
  match ← rename .view .previous with
  | .ok () => pure (some (.moved, false))
  | .error .held => do
    if ← act (.catalog .recordApplyWait) then do
      let aside ← waitAside polls
      pure (some (aside, true))
    else pure none
  | .error _ => pure (some (.failed, false))

/-- After waiting for a tool, with the old View aside; it goes on where the catalog still holds what
was reserved, and else puts the old View back. -/
def afterWait (buildingMade : Bool) : ApplyProg Ended :=
  recording (.advanceApply .waitingForRelease none) do
    match ← act .stillReserved with
    | none => pure .brokeOff
    | some true => recording (.advanceApply .oldMoved none) (pure .goesOn)
    | some false => do
      match ← rename .previous .view with
      | .error _ => pure .brokeOff
      | .ok () => endApply buildingMade .catalogMoved

/-- `set_old_view_aside`. -/
def setOldViewAside (polls : Nat) (buildingMade : Bool) : ApplyProg Ended := do
  match ← moveOldViewAside polls with
  | none => pure .brokeOff
  | some (.moved, true) => afterWait buildingMade
  | some (.moved, false) => recording (.advanceApply .oldMoved none) (pure .goesOn)
  | some (.canceled, _) => endApply buildingMade .canceled
  | some (.failed, _) => endApply buildingMade .asideFailed
  | some (.died, _) => pure .brokeOff

/-- The built View under `View/`; where that fails the old one goes back. -/
def install (old buildingMade : Bool) : ApplyProg Ended := do
  match ← rename .building .view with
  | .ok () =>
    recording (.advanceApply .newInstalled none) (unlessInterrupted (pure .goesOn))
  | .error _ =>
    if old then do
      match ← rename .previous .view with
      | .error _ => pure .brokeOff
      | .ok () => endApply buildingMade .notInstalled
    else endApply buildingMade .notInstalled

/-- What `swap` does with an old View before it installs the new one. -/
def setAside (polls : Nat) (expected : ExpectedTree) (buildingMade : Bool)
    (next : ApplyProg Ended) : ApplyProg Ended := do
  match ← swapReady expected with
  | some stop => endApply buildingMade stop
  | none => do
    match ← setOldViewAside polls buildingMade with
    | .goesOn => unlessInterrupted next
    | ended => pure ended

/-- The swap of a verified build; it goes on to commit the manifest once `View/` is installed. -/
def swap (polls : Nat) (expected : ExpectedTree) (buildingMade : Bool) : ApplyProg Ended := do
  match ← act .stillReserved with
  | none => pure .brokeOff
  | some false => endApply buildingMade .catalogMoved
  | some true => do
    if ← act .canceled then endApply buildingMade .canceled
    else do
      match ← makeWay expected.view.isSome with
      | none => pure .brokeOff
      | some (some stop) => endApply buildingMade stop
      | some none =>
        if expected.view.isSome then
          setAside polls expected buildingMade (install true buildingMade)
        else install false buildingMade

end ApplyProg

end PlateVault
