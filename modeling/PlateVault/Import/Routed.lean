import PlateVault.Import.Routing
import PlateVault.Lib.Claims
import PlateVault.Lib.Fallible

/-!
# Where the items of a preview go

What each pass of routing does to one item. The first copies of an import are what its items claim of
their digests, and the destinations taken are what the typed first copies claim of theirs; an item is
Ready exactly when both claims are its own.
-/

namespace PlateVault.Import

open Naming

variable {P : Platform} {S : Surroundings P}

/-! ## The first pass -/

/-- The digest of an item whose bytes neither the source nor the library has. -/
def newDigest (S : Surroundings P) (imported : Text → Option Uuid) (record : ImportItemRecord P) :
    Option Text :=
  match record.candidate, record.metadata with
  | some sha256, some meta_ =>
    if imported sha256 = none then
      match indexedCopy S record.item.seq sha256 record.item.sizeBytes meta_ with
      | .ok .none => some sha256
      | _ => none
    else none
  | _, _ => none

structure SameSource (record routed : ImportItemRecord P) : Prop where
  seq : routed.item.seq = record.item.seq
  sourcePath : routed.item.sourcePath = record.item.sourcePath
  frameType : routed.item.frameType = record.item.frameType
  landed : routed.item.landed = record.item.landed
  evidence : routed.evidence = record.evidence
  metadata : routed.metadata = record.metadata

theorem SameSource.trans {a b c : ImportItemRecord P} (h : SameSource a b) (h' : SameSource b c) :
    SameSource a c where
  seq := h'.seq.trans h.seq
  sourcePath := h'.sourcePath.trans h.sourcePath
  frameType := h'.frameType.trans h.frameType
  landed := h'.landed.trans h.landed
  evidence := h'.evidence.trans h.evidence
  metadata := h'.metadata.trans h.metadata

theorem SameSource.digest {record routed : ImportItemRecord P} (h : SameSource record routed) :
    routed.digest = record.digest := by rw [ImportItemRecord.digest, h.evidence]; rfl

theorem newDigest_eq_digest {imported : Text → Option Uuid} {record : ImportItemRecord P} {d : Text}
    (h : newDigest S imported record = some d) : record.digest = some d := by
  unfold newDigest ImportItemRecord.candidate at h
  unfold ImportItemRecord.digest
  split at h
  · rename_i sha256 meta_ hcandidate hmeta
    split at hcandidate
    · rw [hcandidate]
      split at h
      · split at h <;> simp_all
      · cases h
    · cases hcandidate
  · cases h

structure Static (start context : RouteContext) : Prop where
  locations : context.locations = start.locations
  writable : context.writable = start.writable
  imported : context.imported = start.imported
  choices : context.choices = start.choices

def ImportItemRecord.named (record : ImportItemRecord P) : Nat × NativePath :=
  (record.item.seq, record.item.sourcePath)

/-- The first copies after some items: for each new digest, its first item. -/
abbrev firstCopies (S : Surroundings P) (imported : Text → Option Uuid)
    (before : List (ImportItemRecord P)) : Text → Option (Nat × NativePath) :=
  claims (newDigest S imported) ImportItemRecord.named before

/-- What the first pass makes of an item, with the items before it. -/
structure FirstPass (S : Surroundings P) (imported : Text → Option Uuid)
    (before : List (ImportItemRecord P)) (record : ImportItemRecord P)
    (routed : ImportItemRecord P × Option NamingFrameType) : Prop where
  same : SameSource record routed.1
  notReady : routed.1.item.phase ≠ .ready
  /-- It is typed where it is the first copy of its bytes. -/
  typed : ∀ frameType, routed.2 = some frameType ↔
    record.item.frameType = some frameType ∧ ∃ d, FirstToWant (newDigest S imported) before record d
  duplicate : ∀ seq path, routed.1.item.duplicate = some (.sameImport seq path) ↔
    ∃ d, newDigest S imported record = some d ∧
      firstCopies S imported before d =
        some (seq, path)

theorem existingCopy_cases {item : ImportItem} {sha256 : Text} {meta_ : CaptureMetadata P}
    {context context' : RouteContext} {hold : Option Hold}
    (h : existingCopy S item sha256 meta_ context = .ok (hold, context')) :
    (∃ held, hold = some held ∧ context' = context ∧
      (∀ seq path, held ≠ .duplicate (.sameImport seq path)) ∧
      ¬(context.imported sha256 = none ∧
        indexedCopy S item.seq sha256 item.sizeBytes meta_ = .ok .none)) ∨
    (context.imported sha256 = none ∧
      indexedCopy S item.seq sha256 item.sizeBytes meta_ = .ok .none ∧
      ((∃ first, context.firstCopy sha256 = some first ∧ context' = context ∧
        hold = some (.duplicate (.sameImport first.1 first.2))) ∨
      (context.firstCopy sha256 = none ∧ hold = none ∧
        context' = { context with
          firstCopy := Function.update context.firstCopy sha256 (some (item.seq, item.sourcePath)) }))) := by
  unfold existingCopy at h
  split at h
  · rename_i operationId himported
    cases h
    exact .inl ⟨_, rfl, rfl, by simp, by simp [himported]⟩
  · rename_i himported
    obtain ⟨found, hfound, h⟩ := Result.bind_eq_ok.mp h
    cases found with
    | found asset =>
      cases h
      exact .inl ⟨_, rfl, rfl, by simp, by simp [hfound]⟩
    | unproven asset detail =>
      cases h
      exact .inl ⟨_, rfl, rfl, by simp, by simp [hfound]⟩
    | none =>
      refine .inr ⟨himported, hfound, ?_⟩
      dsimp only at h
      split at h
      · rename_i seq path hfirst
        cases h
        exact .inl ⟨_, hfirst, rfl, rfl⟩
      · rename_i hfirst
        cases h
        exact .inr ⟨hfirst, rfl, rfl⟩

theorem lightRig_context {seq : Nat} {meta_ : CaptureMetadata P} {context context' : RouteContext}
    {found : Option ImportRig × Option UnknownFilter}
    (h : lightRig S seq meta_ context = .ok (found, context')) :
    ∃ rigs, context' = { context with rigs } := by
  unfold lightRig at h
  split at h
  · cases h
    exact ⟨_, rfl⟩
  · obtain ⟨⟨rig, after⟩, hrig, h⟩ := Result.bind_eq_ok.mp h
    have hafter : ∃ rigs, after = { context with rigs } := by
      unfold confirmedRig at hrig
      split at hrig
      · cases hrig
        exact ⟨_, rfl⟩
      · obtain ⟨confirmed, -, hrig⟩ := Result.bind_eq_ok.mp hrig
        obtain ⟨rig', -, hrig⟩ := Result.bind_eq_ok.mp hrig
        cases hrig
        exact ⟨_, rfl⟩
    cases rig with
    | none =>
      cases h
      exact hafter
    | some rig =>
      cases h
      exact hafter

theorem newDigest_of_settled {imported : Text → Option Uuid} {record : ImportItemRecord P}
    {evidence : EntryEvidence} {meta_ : CaptureMetadata P} {sha256 : Text}
    (hphase : record.item.cleared.phase = .settling) (hevidence : record.evidence = some evidence)
    (hmeta : record.metadata = some meta_) (hsha : evidence.sha256 = some sha256) :
    newDigest S imported record = if imported sha256 = none ∧
      indexedCopy S record.item.seq sha256 record.item.sizeBytes meta_ = .ok .none
      then some sha256 else none := by
  have hcandidate : record.candidate = some sha256 := by
    simp [ImportItemRecord.candidate, hphase, hevidence, hmeta, hsha]
  unfold newDigest
  rw [hcandidate, hmeta]
  dsimp only
  by_cases himported : imported sha256 = none
  · rw [if_pos himported]
    split
    · rename_i hcopy
      rw [if_pos ⟨himported, hcopy⟩]
    · rename_i hcopy
      rw [if_neg fun h => hcopy h.2]
  · rw [if_neg himported, if_neg fun h => himported h.1]

section FirstPass

variable {imported : Text → Option Uuid} {before : List (ImportItemRecord P)}
  {record routed : ImportItemRecord P}

theorem FirstPass.of_none (hnone : newDigest S imported record = none)
    (hsame : SameSource record routed) (hphase : routed.item.phase ≠ .ready)
    (hduplicate : ∀ seq path, routed.item.duplicate ≠ some (.sameImport seq path)) :
    FirstPass S imported before record (routed, none) where
  same := hsame
  notReady := hphase
  typed := fun frameType =>
    ⟨fun h => (by cases h), fun ⟨_, d, hwants, _⟩ => by rw [hnone] at hwants; cases hwants⟩
  duplicate := fun seq path =>
    ⟨fun h => absurd h (hduplicate seq path), fun ⟨d, hd, _⟩ => by rw [hnone] at hd; cases hd⟩

theorem FirstPass.of_taken {d : Text} {first : Nat × NativePath}
    (hnew : newDigest S imported record = some d)
    (htaken : firstCopies S imported before d =
      some first)
    (hsame : SameSource record routed) (hphase : routed.item.phase ≠ .ready)
    (hduplicate : routed.item.duplicate = some (.sameImport first.1 first.2)) :
    FirstPass S imported before record (routed, none) where
  same := hsame
  notReady := hphase
  typed := fun frameType => by
    refine ⟨fun h => (by cases h), fun ⟨_, d', hwants, hfirst⟩ => ?_⟩
    have hd : d' = d := Option.some.inj (hwants.symm.trans hnew)
    rw [hd] at hfirst
    cases htaken.symm.trans (Claims.eq_none_iff.mpr hfirst)
  duplicate := fun seq path => by
    rw [hduplicate]
    constructor
    · intro h
      cases h
      exact ⟨d, hnew, htaken⟩
    · rintro ⟨d', hd', hclaims⟩
      have hd : d' = d := Option.some.inj (hd'.symm.trans hnew)
      rw [hd, htaken] at hclaims
      cases hclaims
      rfl

theorem FirstPass.of_first {d : Text} (hnew : newDigest S imported record = some d)
    (hfree : firstCopies S imported before d =
      none)
    (hsame : SameSource record routed) (hphase : routed.item.phase ≠ .ready)
    (hduplicate : routed.item.duplicate = none) :
    FirstPass S imported before record (routed, record.item.frameType) where
  same := hsame
  notReady := hphase
  typed := fun frameType =>
    ⟨fun h => ⟨h, d, hnew, Claims.eq_none_iff.mp hfree⟩, fun h => h.1⟩
  duplicate := fun seq path => by
    rw [hduplicate]
    refine ⟨fun h => (by cases h), fun ⟨d', hd', hclaims⟩ => ?_⟩
    have hd : d' = d := Option.some.inj (hd'.symm.trans hnew)
    rw [hd, hfree] at hclaims
    cases hclaims

end FirstPass

theorem routeItem_spec {before : List (ImportItemRecord P)} {record : ImportItemRecord P}
    {context context' : RouteContext} {routed : ImportItemRecord P × Option NamingFrameType}
    (h : routeItem S record context = .ok (routed, context'))
    (hfirst : context.firstCopy = firstCopies S context.imported before) :
    FirstPass S context.imported before record routed ∧ ∃ rigs, context' = { context with
      firstCopy := firstCopies S context.imported (before ++ [record])
      rigs } := by
  have hnoneOf : newDigest S context.imported record = none → ∀ item : ImportItem,
      SameSource record { record with item } → item.phase ≠ .ready →
      (∀ seq path, item.duplicate ≠ some (.sameImport seq path)) →
      FirstPass S context.imported before record ({ record with item }, none) ∧
        ∃ rigs, context = { context with
          firstCopy := firstCopies S context.imported (before ++ [record])
          rigs } := by
    intro hnone item hsame hphase hduplicate
    refine ⟨.of_none hnone hsame hphase hduplicate, context.rigs, ?_⟩
    rw [show firstCopies S context.imported (before ++ [record]) = context.firstCopy from
      (Claims.snoc_of_none hnone).trans hfirst.symm]
  have hcleared : SameSource record { record with item := record.item.cleared } :=
    ⟨rfl, rfl, rfl, rfl, rfl, rfl⟩
  have hheld := fun hnone => hnoneOf hnone _ hcleared record.item.cleared_phase_ne_ready (by simp)
  unfold routeItem at h
  dsimp only at h
  by_cases hphase : record.item.cleared.phase = .settling
  · rw [if_neg (by simp [hphase])] at h
    split at h
    · rename_i evidence meta_ hevidence hmeta
      split at h
      · rename_i hsha
        have hnone : newDigest S context.imported record = none := by
          simp [newDigest, ImportItemRecord.candidate, hevidence, hsha]
        cases h
        exact hheld hnone
      · rename_i sha256 hsha
        obtain ⟨⟨hold, after⟩, hcopy, hrest⟩ := Result.bind_eq_ok.mp h
        have hnew := @newDigest_of_settled _ S context.imported _ _ _ _ hphase hevidence hmeta hsha
        rcases existingCopy_cases hcopy with ⟨held, rfl, rfl, hother, hfound⟩ |
          ⟨himported, hindexed, ⟨first, htaken, rfl, rfl⟩ | ⟨hfree, rfl, rfl⟩⟩
        · cases hrest
          refine hnoneOf (hnew.trans (if_neg hfound)) _ ?_ ?_ ?_
          · cases held <;> exact ⟨rfl, rfl, rfl, rfl, rfl, rfl⟩
          · cases held <;> simp [Hold.apply]
          · intro seq path
            cases held with
            | duplicate found => simpa [Hold.apply] using hother seq path
            | block held => simp [Hold.apply]
        · have hnew := hnew.trans (if_pos ⟨himported, hindexed⟩)
          rw [hfirst] at htaken
          cases hrest
          refine ⟨.of_taken hnew htaken ⟨rfl, rfl, rfl, rfl, rfl, rfl⟩ (by simp [Hold.apply]) rfl,
            after.rigs, ?_⟩
          rw [show firstCopies S after.imported (before ++ [record]) = after.firstCopy from
            (Claims.snoc_of_taken hnew (by simp [htaken])).trans hfirst.symm]
        · have hnew := hnew.trans (if_pos ⟨himported, hindexed⟩)
          rw [hfirst] at hfree
          have hclaims : Function.update context.firstCopy sha256
              (some (record.item.cleared.seq, record.item.cleared.sourcePath)) =
                firstCopies S context.imported (before ++ [record]) := by
            rw [hfirst]
            exact (Claims.snoc_of_free hnew hfree).symm
          rw [hclaims] at hrest
          have htyped : record.item.cleared.frameType = record.item.frameType := rfl
          have hpass : ∀ item : ImportItem, SameSource record { record with item } →
              item.phase ≠ .ready → item.duplicate = none → FirstPass S context.imported before record
                ({ record with item }, record.item.frameType) :=
            fun item hsame hphase hduplicate => .of_first hnew hfree hsame hphase hduplicate
          dsimp only at hrest
          split at hrest
          · rename_i huntyped
            cases hrest
            have hpass := hpass { record.item.cleared with phase := .unclassified }
              ⟨rfl, rfl, rfl, rfl, rfl, rfl⟩ (by simp) rfl
            rw [← htyped, huntyped] at hpass
            exact ⟨hpass, _, rfl⟩
          · rename_i frameType hframe
            rw [← htyped, hframe] at hpass
            split at hrest
            · obtain ⟨⟨⟨rig, unknownFilter⟩, last⟩, hrig, hlast⟩ := Result.bind_eq_ok.mp hrest
              obtain ⟨rigs, rfl⟩ := lightRig_context hrig
              cases hlast
              exact ⟨hpass _ ⟨rfl, rfl, rfl, rfl, rfl, rfl⟩ record.item.cleared_phase_ne_ready rfl,
                _, rfl⟩
            · cases hrest
              exact ⟨hpass _ hcleared record.item.cleared_phase_ne_ready rfl, _, rfl⟩
    · rename_i hmissing
      have hnone : newDigest S context.imported record = none := by
        unfold newDigest ImportItemRecord.candidate
        split
        · rename_i meta_ hcandidate hmeta
          split at hcandidate
          · obtain ⟨evidence, hevidence, -⟩ := Option.bind_eq_some_iff.mp hcandidate
            exact absurd hmeta (hmissing _ _ hevidence)
          · cases hcandidate
        · rfl
      cases h
      exact hheld hnone
  · have hnone : newDigest S context.imported record = none := by
      simp [newDigest, ImportItemRecord.candidate, hphase]
    rw [if_pos hphase] at h
    cases h
    exact hheld hnone

theorem routeItems_spec {items before : List (ImportItemRecord P)} {context context' : RouteContext}
    {routed : List (ImportItemRecord P × Option NamingFrameType)}
    (h : routeItems S items context = .ok (routed, context'))
    (hfirst : context.firstCopy = firstCopies S context.imported before) :
    Scanned (FirstPass S context.imported) before items routed ∧
      ∃ firstCopy rigs, context' = { context with firstCopy, rigs } := by
  induction items generalizing before context routed with
  | nil =>
    cases h
    exact ⟨.nil, _, _, rfl⟩
  | cons record records ih =>
    obtain ⟨⟨one, after⟩, hone, hmore⟩ := Result.bind_eq_ok.mp h
    obtain ⟨⟨rest, last⟩, hrest, hlast⟩ := Result.bind_eq_ok.mp hmore
    cases hlast
    obtain ⟨hpass, rigs, hafter⟩ := routeItem_spec hone hfirst
    have hcopies : after.firstCopy = firstCopies S after.imported (before ++ [record]) := by rw [hafter]
    obtain ⟨hscan, firstCopy, rigs', rfl⟩ := ih hrest hcopies
    subst hafter
    exact ⟨.cons hpass hscan, _, _, rfl⟩

/-! ## The second pass -/

def canWrite : Option Writability → Bool
  | some (.notWritable _) => false
  | _ => true

def templated (S : Surroundings P) (record : ImportItemRecord P) (meta_ : CaptureMetadata P)
    (frameType : NamingFrameType) (target : Option Text) (location : Location) : Option PathBuf := do
  let resolution ← (resolveNaming S record.item.seq frameType
    (namingMetadata meta_ frameType target)).toOption
  let source ← record.item.sourcePath.toPathBuf.toOption
  let name ← source.fileName
  let root ← location.path.toPathBuf.toOption
  return root.join (relativeDestination resolution.relativePath name)

/-- Where a typed item would go: a location for its role that can take it, a path its template
gives, and nothing there. -/
def placement (S : Surroundings P) (context : RouteContext) (record : ImportItemRecord P)
    (frameType : NamingFrameType) (target : Option Text) : Option (Location × PathBuf) :=
  match record.evidence, record.metadata with
  | some evidence, some meta_ =>
    match chosenLocation context.locations context.choices (roleOf frameType), evidence.sha256 with
    | .ok location, some sha256 =>
      if canWrite (context.writable location.id) then
        ((templated S record meta_ frameType target location).filter fun destination =>
          S.occupant record.item.seq destination evidence.fingerprint.sizeBytes sha256 = .vacant).map
            (location, ·)
      else none
    | _, _ => none
  | _, _ => none

/-- An item names the location and the path of its destination. -/
def NamesDestination (item : ImportItem) (location : Location) (destination : PathBuf) : Prop :=
  item.destinationLocationId = some location.id ∧ ∃ root relative,
    location.path.toPathBuf = .ok root ∧ item.destinationPath = some (.fromPath relative) ∧
      root.join relative = destination

theorem place_cases {record routed : ImportItemRecord P} {frameType : NamingFrameType}
    {target : Option Text} {context context' : RouteContext} {hold : Option Hold}
    (h : place S record frameType target context = .ok (hold, routed, context')) :
    SameSource record routed ∧ (∀ seq path, hold ≠ some (.duplicate (.sameImport seq path))) ∧
      routed.item.duplicate = record.item.duplicate ∧
      match placement S context record frameType target with
      | none => hold.isSome = true ∧ context' = context
      | some (location, destination) => NamesDestination routed.item location destination ∧
        ((context.claimed destination = none ∧ hold = none ∧ context' = { context with
          claimed := Function.update context.claimed destination (some record.item.seq) }) ∨
        ((context.claimed destination).isSome = true ∧ hold.isSome = true ∧ context' = context)) := by
  unfold place at h
  unfold placement
  split at h
  · rename_i evidence meta_ hevidence hmeta
    obtain ⟨sha256, hsha, h⟩ := Result.bind_eq_ok.mp h
    rw [Result.orElse_eq_ok] at hsha
    simp only [hevidence, hmeta, hsha]
    dsimp only at h
    split at h
    · rename_i block hlocation
      cases h
      rw [hlocation]
      exact ⟨⟨rfl, rfl, rfl, rfl, rfl, rfl⟩, by simp, rfl, rfl, rfl⟩
    · rename_i location hlocation
      rw [hlocation]
      dsimp only
      split at h
      · rename_i detail hwritable
        cases h
        rw [hwritable]
        exact ⟨⟨rfl, rfl, rfl, rfl, rfl, rfl⟩, by simp, rfl, rfl, rfl⟩
      · rename_i hwritable
        have hcan : canWrite (context.writable location.id) = true := by
          unfold canWrite
          split
          · rename_i detail hdetail
            exact absurd hdetail (hwritable detail)
          · rfl
        rw [if_pos hcan]
        split at h
        · rename_i detail hnaming
          cases h
          have htemplated : templated S record meta_ frameType target location = none := by
            simp [templated, hnaming, Except.toOption]
          rw [htemplated]
          exact ⟨⟨rfl, rfl, rfl, rfl, rfl, rfl⟩, by simp, rfl, rfl, rfl⟩
        · cases h
        · rename_i resolution hnaming
          obtain ⟨source, hsource, h⟩ := Result.bind_eq_ok.mp h
          obtain ⟨name, hname, h⟩ := Result.bind_eq_ok.mp h
          obtain ⟨root, hroot, h⟩ := Result.bind_eq_ok.mp h
          rw [Result.orElse_eq_ok] at hname
          have htemplated : templated S record meta_ frameType target location =
              some (root.join (relativeDestination resolution.relativePath name)) := by
            simp [templated, hnaming, hsource, hname, hroot, Except.toOption]
          rw [htemplated]
          have hnames : NamesDestination { record.item with
              role := some (roleOf frameType)
              destinationLocationId := some location.id
              destinationPath := some (.fromPath (relativeDestination resolution.relativePath name))
              fallbacks := resolution.fallbacks } location
              (root.join (relativeDestination resolution.relativePath name)) :=
            ⟨rfl, root, _, hroot, rfl, rfl⟩
          split at h
          · rename_i seq hclaimed
            cases h
            refine ⟨⟨rfl, rfl, rfl, rfl, rfl, rfl⟩, by simp, rfl, ?_⟩
            by_cases hvacant : S.occupant record.item.seq
                (root.join (relativeDestination resolution.relativePath name))
                evidence.fingerprint.sizeBytes sha256 = .vacant
            · rw [Option.filter_some_pos (by simp [hvacant])]
              exact ⟨hnames, .inr ⟨by rw [hclaimed]; rfl, rfl, rfl⟩⟩
            · rw [Option.filter_some_neg (by simp [hvacant])]
              exact ⟨rfl, rfl⟩
          · rename_i hclaimed
            split at h
            · rename_i hvacant
              cases h
              rw [Option.filter_some_pos (by simp [hvacant])]
              exact ⟨⟨rfl, rfl, rfl, rfl, rfl, rfl⟩, by simp, rfl, hnames, .inl ⟨hclaimed, rfl, rfl⟩⟩
            · rename_i hsame
              cases h
              rw [Option.filter_some_neg (by simp [hsame])]
              exact ⟨⟨rfl, rfl, rfl, rfl, rfl, rfl⟩, by simp, rfl, rfl, rfl⟩
            · rename_i hdifferent
              cases h
              rw [Option.filter_some_neg (by simp [hdifferent])]
              exact ⟨⟨rfl, rfl, rfl, rfl, rfl, rfl⟩, by simp, rfl, rfl, rfl⟩
  · cases h

theorem place_of_placement {record : ImportItemRecord P} {frameType : NamingFrameType}
    {target : Option Text} {context : RouteContext} {location : Location} {destination : PathBuf}
    (h : placement S context record frameType target = some (location, destination))
    (hfree : context.claimed destination = none) :
    ∃ routed context', place S record frameType target context = .ok (none, routed, context') := by
  unfold placement at h
  split at h
  · rename_i evidence meta_ hevidence hmeta
    split at h
    · rename_i chosen sha256 hlocation hsha
      split at h
      · rename_i hcan
        obtain ⟨found, hfilter, hfound⟩ := Option.map_eq_some_iff.mp h
        obtain ⟨htemplated, hvacant⟩ := Option.filter_eq_some_iff.mp hfilter
        cases hfound
        unfold templated at htemplated
        simp only [Option.bind_eq_bind, Option.bind_eq_some_iff, Option.pure_def,
          Option.some.injEq] at htemplated
        obtain ⟨resolution, hnaming, source, hsource, name, hname, root, hroot, rfl⟩ := htemplated
        rw [Result.toOption_eq_some] at hnaming hsource hroot
        have hvacant := of_decide_eq_true hvacant
        have hwritable : ∀ detail, context.writable location.id ≠ some (.notWritable detail) := by
          intro detail hdetail
          rw [hdetail] at hcan
          cases hcan
        unfold place
        rcases hstate : context.writable location.id with _ | state
        · simp only [hevidence, hmeta, hsha, hlocation, hstate, hnaming, hsource, hname, hroot, hfree,
            hvacant, Result.orElse, bind, Except.bind]
          exact ⟨_, _, rfl⟩
        · cases state with
          | notWritable detail => exact absurd hstate (hwritable detail)
          | writable =>
            simp only [hevidence, hmeta, hsha, hlocation, hstate, hnaming, hsource, hname, hroot,
              hfree, hvacant, Result.orElse, bind, Except.bind]
            exact ⟨_, _, rfl⟩
          | unknown detail =>
            simp only [hevidence, hmeta, hsha, hlocation, hstate, hnaming, hsource, hname, hroot,
              hfree, hvacant, Result.orElse, bind, Except.bind]
            exact ⟨_, _, rfl⟩
      · cases h
    · cases h
  · cases h

/-- Where an item of an import would go, as its type and its session's Target say. -/
def goesTo (S : Surroundings P) (start : RouteContext) (targetOf : Nat → Option TargetCandidate)
    (record : ImportItemRecord P) : Option (Location × PathBuf) :=
  record.item.frameType.bind fun frameType =>
    placement S start record frameType ((targetOf record.item.seq).map (·.designation))

theorem placement_congr {start context : RouteContext} {record routed : ImportItemRecord P}
    (hsame : SameSource record routed) (hstatic : Static start context) (frameType : NamingFrameType)
    (target : Option Text) :
    placement S context routed frameType target = placement S start record frameType target := by
  unfold placement templated
  rw [hsame.evidence, hsame.metadata, hsame.seq, hsame.sourcePath, hstatic.locations,
    hstatic.choices, hstatic.writable]

def asksFor (S : Surroundings P) (start : RouteContext) (targetOf : Nat → Option TargetCandidate)
    (routed : ImportItemRecord P × Option NamingFrameType) : Option PathBuf :=
  routed.2.bind fun frameType => (placement S start routed.1 frameType
    ((targetOf routed.1.item.seq).map (·.designation))).map (·.2)

theorem Hold.apply_spec (hold : Hold) (record : ImportItemRecord P) :
    SameSource record { record with item := hold.apply record.item } ∧
      (hold.apply record.item).phase ≠ .ready ∧
      (∀ location destination, NamesDestination record.item location destination →
        NamesDestination (hold.apply record.item) location destination) ∧
      ∀ seq path, (hold.apply record.item).duplicate = some (.sameImport seq path) →
        hold = .duplicate (.sameImport seq path) ∨
          record.item.duplicate = some (.sameImport seq path) := by
  cases hold with
  | duplicate found =>
    exact ⟨⟨rfl, rfl, rfl, rfl, rfl, rfl⟩, by simp [apply], fun _ _ h => h,
      fun seq path h => .inl (by simpa [apply] using h)⟩
  | block held =>
    exact ⟨⟨rfl, rfl, rfl, rfl, rfl, rfl⟩, by simp [apply], fun _ _ h => h, fun _ _ h => .inr h⟩

structure SecondPass (S : Surroundings P) (start : RouteContext)
    (targetOf : Nat → Option TargetCandidate)
    (before : List (ImportItemRecord P × Option NamingFrameType))
    (routed : ImportItemRecord P × Option NamingFrameType) (placed : ImportItemRecord P) : Prop where
  same : SameSource routed.1 placed
  ready : placed.item.phase = .ready ↔ (routed.2 = none ∧ routed.1.item.phase = .ready) ∨
    ∃ destination, FirstToWant (asksFor S start targetOf) before routed destination
  names : ∀ frameType location destination, routed.2 = some frameType →
    placement S start routed.1 frameType ((targetOf routed.1.item.seq).map (·.designation)) =
      some (location, destination) → NamesDestination placed.item location destination
  duplicate : ∀ seq path, placed.item.duplicate = some (.sameImport seq path) →
    routed.1.item.duplicate = some (.sameImport seq path)
  untyped : routed.2 = none → placed = routed.1

theorem placeItem_spec {start context context' : RouteContext}
    {targetOf : Nat → Option TargetCandidate}
    {before : List (ImportItemRecord P × Option NamingFrameType)}
    {routed : ImportItemRecord P × Option NamingFrameType} {placed : ImportItemRecord P}
    (h : placeItem S targetOf routed context = .ok (placed, context'))
    (hstatic : Static start context)
    (hclaimed : context.claimed = claims (asksFor S start targetOf) (·.1.item.seq) before) :
    SecondPass S start targetOf before routed placed ∧ Static start context' ∧
      context'.claimed = claims (asksFor S start targetOf) (·.1.item.seq) (before ++ [routed]) := by
  obtain ⟨record, frameType | frameType⟩ := routed
  · cases h
    have hnone : asksFor S start targetOf (placed, none) = none := rfl
    refine ⟨⟨⟨rfl, rfl, rfl, rfl, rfl, rfl⟩, ?_, (by rintro _ _ _ ⟨⟩), fun _ _ h => h, fun _ => rfl⟩,
      hstatic, ?_⟩
    · refine ⟨fun hready => .inl ⟨rfl, hready⟩, ?_⟩
      rintro (⟨-, hready⟩ | ⟨destination, hwants, -⟩)
      · exact hready
      · cases hnone.symm.trans hwants
    · rw [hclaimed, Claims.snoc_of_none hnone]
  · obtain ⟨⟨hold, taken, after⟩, hplace, hrest⟩ := Result.bind_eq_ok.mp h
    obtain ⟨hsame, hother, hduplicate, hcase⟩ := place_cases hplace
    have htargeted : SameSource record { record with
        item := { record.item with targetId := (targetOf record.item.seq).map (·.id) } } :=
      ⟨rfl, rfl, rfl, rfl, rfl, rfl⟩
    rw [placement_congr htargeted hstatic] at hcase
    have hasks : asksFor S start targetOf (record, some frameType) =
        (placement S start record frameType ((targetOf record.item.seq).map (·.designation))).map
          (·.2) := rfl
    have hheldCase : ∀ held, hold = some held →
        placed = { taken with item := held.apply taken.item } ∧ context' = after := by
      rintro held rfl
      cases hrest
      exact ⟨rfl, rfl⟩
    cases hplacement : placement S start record frameType
        ((targetOf record.item.seq).map (·.designation)) with
    | none =>
      rw [hplacement] at hcase hasks
      obtain ⟨hheld, rfl⟩ := hcase
      obtain ⟨held, rfl⟩ := Option.isSome_iff_exists.mp hheld
      obtain ⟨rfl, rfl⟩ := hheldCase held rfl
      obtain ⟨happly, hready, -, hdup⟩ := held.apply_spec taken
      refine ⟨⟨htargeted.trans (hsame.trans happly), ?_, ?_, ?_, by simp⟩, hstatic, ?_⟩
      · refine ⟨fun h => absurd h hready, ?_⟩
        rintro (⟨hnone, -⟩ | ⟨destination, hwants, -⟩)
        · cases hnone
        · cases hasks.symm.trans hwants
      · rintro _ location destination ⟨⟩ hgoes
        cases hplacement.symm.trans hgoes
      · intro seq path hsameImport
        refine (hdup seq path hsameImport).elim (fun heq => ?_) fun hkept => hduplicate ▸ hkept
        exact absurd (congrArg some heq) (hother seq path)
      · rw [hclaimed, Claims.snoc_of_none hasks]
    | some found =>
      obtain ⟨location, destination⟩ := found
      rw [hplacement] at hcase hasks
      obtain ⟨hnames, ⟨hfree, rfl, rfl⟩ | ⟨htaken, hheld, rfl⟩⟩ := hcase
      · cases hrest
        rw [hclaimed] at hfree
        refine ⟨⟨htargeted.trans (hsame.trans ⟨rfl, rfl, rfl, rfl, rfl, rfl⟩), ?_, ?_, ?_, by simp⟩,
          ⟨hstatic.locations, hstatic.writable, hstatic.imported, hstatic.choices⟩, ?_⟩
        · exact ⟨fun _ => .inr ⟨destination, hasks, Claims.eq_none_iff.mp hfree⟩, fun _ => rfl⟩
        · rintro _ location' destination' ⟨⟩ hgoes
          cases hplacement.symm.trans hgoes
          exact hnames
        · intro seq path hsameImport
          exact hduplicate ▸ hsameImport
        · rw [hclaimed]
          exact (Claims.snoc_of_free hasks hfree).symm
      · obtain ⟨held, rfl⟩ := Option.isSome_iff_exists.mp hheld
        obtain ⟨rfl, rfl⟩ := hheldCase held rfl
        obtain ⟨happly, hready, hkeepsNames, hdup⟩ := held.apply_spec taken
        rw [hclaimed] at htaken
        refine ⟨⟨htargeted.trans (hsame.trans happly), ?_, ?_, ?_, by simp⟩, hstatic, ?_⟩
        · refine ⟨fun h => absurd h hready, ?_⟩
          rintro (⟨hnone, -⟩ | ⟨destination', hwants, hfirst⟩)
          · cases hnone
          · cases hasks.symm.trans hwants
            rw [Claims.eq_none_iff.mpr hfirst] at htaken
            cases htaken
        · rintro _ location' destination' ⟨⟩ hgoes
          cases hplacement.symm.trans hgoes
          exact hkeepsNames _ _ hnames
        · intro seq path hsameImport
          refine (hdup seq path hsameImport).elim (fun heq => ?_) fun hkept => hduplicate ▸ hkept
          exact absurd (congrArg some heq) (hother seq path)
        · rw [hclaimed]
          exact (Claims.snoc_of_taken hasks (Option.isSome_iff_ne_none.mp htaken)).symm

theorem placeItem_of_asks {start context : RouteContext} {targetOf : Nat → Option TargetCandidate}
    {routed : ImportItemRecord P × Option NamingFrameType} {destination : PathBuf}
    (h : asksFor S start targetOf routed = some destination) (hstatic : Static start context)
    (hfree : context.claimed destination = none) :
    ∃ placed context', placeItem S targetOf routed context = .ok (placed, context') := by
  obtain ⟨record, frameType⟩ := routed
  obtain ⟨frameType, rfl, hplacement⟩ := Option.bind_eq_some_iff.mp h
  obtain ⟨⟨location, _⟩, hgoes, rfl⟩ := Option.map_eq_some_iff.mp hplacement
  have htargeted : SameSource record { record with
      item := { record.item with targetId := (targetOf record.item.seq).map (·.id) } } :=
    ⟨rfl, rfl, rfl, rfl, rfl, rfl⟩
  rw [← placement_congr htargeted hstatic] at hgoes
  obtain ⟨taken, after, hplace⟩ := place_of_placement hgoes hfree
  refine ⟨{ taken with item := { taken.item with phase := .ready } }, after, ?_⟩
  exact Result.bind_eq_ok.mpr ⟨_, hplace, rfl⟩

theorem placeItems_spec {start context context' : RouteContext}
    {targetOf : Nat → Option TargetCandidate}
    {before routed : List (ImportItemRecord P × Option NamingFrameType)}
    {placed : List (ImportItemRecord P)}
    (h : placeItems S targetOf routed context = .ok (placed, context'))
    (hstatic : Static start context)
    (hclaimed : context.claimed = claims (asksFor S start targetOf) (·.1.item.seq) before) :
    Scanned (SecondPass S start targetOf) before routed placed := by
  induction routed generalizing before context placed with
  | nil =>
    cases h
    exact .nil
  | cons one more ih =>
    obtain ⟨⟨record, after⟩, hone, hmore⟩ := Result.bind_eq_ok.mp h
    obtain ⟨⟨rest, last⟩, hrest, hlast⟩ := Result.bind_eq_ok.mp hmore
    cases hlast
    obtain ⟨hpass, hstatic', hclaimed'⟩ := placeItem_spec hone hstatic hclaimed
    exact .cons hpass (ih hrest hstatic' hclaimed')

/-! ## Routing -/

def startOf (S : Surroundings P) (choices : List ImportChoice) : Result RouteContext := do
  let locations ← activeLocations S
  let imported ← S.importedFromSource
  return routeContext S locations imported choices

/-- The Targets of the sessions the typed items of an import form. -/
def targetsOf (S : Surroundings P) (choices : List ImportChoice)
    (items : List (ImportItemRecord P)) : Result (Nat → Option TargetCandidate) := do
  let start ← startOf S choices
  let (routed, _) ← routeItems S items start
  S.sessionTargets (routed.map (·.1)) fun seq =>
    routed.any fun found => found.2.isSome && found.1.item.seq = seq

/-- After some items, an item is the first copy of its bytes and would go to a destination. -/
def Going (S : Surroundings P) (start : RouteContext) (targetOf : Nat → Option TargetCandidate)
    (before : List (ImportItemRecord P)) (record : ImportItemRecord P) (location : Location)
    (destination : PathBuf) : Prop :=
  (∃ d, FirstToWant (newDigest S start.imported) before record d) ∧
    goesTo S start targetOf record = some (location, destination)

def GoesEarlier (S : Surroundings P) (start : RouteContext)
    (targetOf : Nat → Option TargetCandidate) (before : List (ImportItemRecord P))
    (destination : PathBuf) : Prop :=
  ∃ front record back location, before = front ++ record :: back ∧
    Going S start targetOf front record location destination

/-- What routing makes of an item, with the items before it. -/
structure RoutedAs (S : Surroundings P) (start : RouteContext)
    (targetOf : Nat → Option TargetCandidate) (before : List (ImportItemRecord P))
    (record placed : ImportItemRecord P) : Prop where
  same : SameSource record placed
  ready : placed.item.phase = .ready ↔ ∃ location destination,
    Going S start targetOf before record location destination ∧
      ¬GoesEarlier S start targetOf before destination
  names : ∀ location destination, Going S start targetOf before record location destination →
    NamesDestination placed.item location destination
  duplicate : ∀ seq path, placed.item.duplicate = some (.sameImport seq path) ↔
    ∃ d, newDigest S start.imported record = some d ∧
      firstCopies S start.imported before d = some (seq, path)

section Composed

variable {start : RouteContext} {targetOf : Nat → Option TargetCandidate}
  {before : List (ImportItemRecord P)} {record placed : ImportItemRecord P}
  {routed : ImportItemRecord P × Option NamingFrameType}
  {beforeRouted : List (ImportItemRecord P × Option NamingFrameType)}

theorem FirstPass.placement_eq (h : FirstPass S start.imported before record routed)
    (frameType : NamingFrameType) :
    placement S start routed.1 frameType ((targetOf routed.1.item.seq).map (·.designation)) =
      placement S start record frameType ((targetOf record.item.seq).map (·.designation)) := by
  rw [placement_congr h.same ⟨rfl, rfl, rfl, rfl⟩, h.same.seq]

theorem FirstPass.asksFor_iff (h : FirstPass S start.imported before record routed)
    {destination : PathBuf} : asksFor S start targetOf routed = some destination ↔
      ∃ location, Going S start targetOf before record location destination := by
  unfold asksFor Going goesTo
  rw [Option.bind_eq_some_iff]
  constructor
  · rintro ⟨frameType, htyped, hplacement⟩
    obtain ⟨hframe, hfirst⟩ := (h.typed frameType).mp htyped
    obtain ⟨⟨location, _⟩, hgoes, rfl⟩ := Option.map_eq_some_iff.mp hplacement
    rw [h.placement_eq] at hgoes
    exact ⟨location, hfirst, by rw [hframe]; exact hgoes⟩
  · rintro ⟨location, hfirst, hgoes⟩
    obtain ⟨frameType, hframe, hplacement⟩ := Option.bind_eq_some_iff.mp hgoes
    refine ⟨frameType, (h.typed frameType).mpr ⟨hframe, hfirst⟩, ?_⟩
    rw [h.placement_eq, hplacement]
    rfl

theorem goesEarlier_iff (h : Scanned (FirstPass S start.imported) [] before beforeRouted)
    {destination : PathBuf} : GoesEarlier S start targetOf before destination ↔
      ∃ routed ∈ beforeRouted, asksFor S start targetOf routed = some destination := by
  constructor
  · rintro ⟨front, record, back, location, rfl, hgoing⟩
    obtain ⟨front', routed, back', rfl, -, hpass, -⟩ := h.split
    exact ⟨routed, by simp, hpass.asksFor_iff.mpr ⟨location, hgoing⟩⟩
  · rintro ⟨routed, hrouted, hasks⟩
    obtain ⟨front', back', rfl⟩ := List.append_of_mem hrouted
    obtain ⟨front, record, back, rfl, -, hpass, -⟩ := h.split_result
    obtain ⟨location, hgoing⟩ := hpass.asksFor_iff.mp hasks
    exact ⟨front, record, back, location, rfl, hgoing⟩

theorem RoutedAs.of_passes (hbefore : Scanned (FirstPass S start.imported) [] before beforeRouted)
    (hfirst : FirstPass S start.imported before record routed)
    (hsecond : SecondPass S start targetOf beforeRouted routed placed) :
    RoutedAs S start targetOf before record placed where
  same := hfirst.same.trans hsecond.same
  ready := by
    rw [hsecond.ready]
    constructor
    · rintro (⟨-, hready⟩ | ⟨destination, hasks, hnone⟩)
      · exact absurd hready hfirst.notReady
      · obtain ⟨location, hgoing⟩ := hfirst.asksFor_iff.mp hasks
        refine ⟨location, destination, hgoing, fun hearlier => ?_⟩
        obtain ⟨other, hother, hwants⟩ := (goesEarlier_iff hbefore).mp hearlier
        exact hnone other hother hwants
    · rintro ⟨location, destination, hgoing, hnone⟩
      refine .inr ⟨destination, hfirst.asksFor_iff.mpr ⟨location, hgoing⟩, fun other hother hwants => ?_⟩
      exact hnone ((goesEarlier_iff hbefore).mpr ⟨other, hother, hwants⟩)
  names := by
    rintro location destination ⟨hcopy, hgoes⟩
    obtain ⟨frameType, hframe, hplacement⟩ := Option.bind_eq_some_iff.mp hgoes
    exact hsecond.names frameType location destination
      ((hfirst.typed frameType).mpr ⟨hframe, hcopy⟩) (by rw [hfirst.placement_eq, hplacement])
  duplicate := fun seq path => by
    rw [← hfirst.duplicate]
    refine ⟨hsecond.duplicate seq path, fun hduplicate => ?_⟩
    obtain ⟨d, hnew, htaken⟩ := (hfirst.duplicate seq path).mp hduplicate
    have huntyped : routed.2 = none := by
      by_contra htyped
      obtain ⟨frameType, htyped⟩ := Option.ne_none_iff_exists'.mp htyped
      obtain ⟨-, d', hwants, hnone⟩ := (hfirst.typed frameType).mp htyped
      cases hwants.symm.trans hnew
      cases htaken.symm.trans (Claims.eq_none_iff.mpr hnone)
    rw [hsecond.untyped huntyped]
    exact hduplicate

theorem Scanned.routedAs {items : List (ImportItemRecord P)}
    {more : List (ImportItemRecord P × Option NamingFrameType)} {result : List (ImportItemRecord P)}
    (hbefore : Scanned (FirstPass S start.imported) [] before beforeRouted)
    (hfirst : Scanned (FirstPass S start.imported) before items more)
    (hsecond : Scanned (SecondPass S start targetOf) beforeRouted more result) :
    Scanned (RoutedAs S start targetOf) before items result := by
  induction hfirst generalizing beforeRouted result with
  | nil =>
    cases hsecond
    exact .nil
  | cons head tail ih =>
    cases hsecond with
    | cons head' tail' =>
      exact .cons (.of_passes hbefore head head') (ih (hbefore.snoc (by simpa using head)) tail')

end Composed

theorem route_spec {choices : List ImportChoice} {items placed : List (ImportItemRecord P)}
    (h : route S choices items = .ok placed) : ∃ start targetOf, startOf S choices = .ok start ∧
      targetsOf S choices items = .ok targetOf ∧
      Scanned (RoutedAs S start targetOf) [] items placed := by
  obtain ⟨locations, hlocations, h⟩ := Result.bind_eq_ok.mp h
  obtain ⟨imported, himported, h⟩ := Result.bind_eq_ok.mp h
  obtain ⟨⟨routed, context⟩, hrouted, h⟩ := Result.bind_eq_ok.mp h
  obtain ⟨targetOf, htargets, h⟩ := Result.bind_eq_ok.mp h
  obtain ⟨⟨result, last⟩, hresult, h⟩ := Result.bind_eq_ok.mp h
  cases h
  have hstart : startOf S choices = .ok (routeContext S locations imported choices) := by
    simp [startOf, hlocations, himported]
  have hnothing : (routeContext S locations imported choices).firstCopy =
      firstCopies S (routeContext S locations imported choices).imported [] := rfl
  obtain ⟨hfirst, firstCopy, rigs, rfl⟩ := routeItems_spec hrouted hnothing
  refine ⟨_, targetOf, hstart, ?_, ?_⟩
  · rw [targetsOf, hstart]
    simp [hrouted, htargets]
  · exact Scanned.routedAs .nil hfirst (placeItems_spec hresult ⟨rfl, rfl, rfl, rfl⟩ rfl)

end PlateVault.Import
