import PlateVault.Library.Marks

/-!
# A rehash run that ends

A scan of a whole location that ends Completed leaves no record of it awaiting its rehash: the scan
marks records once, when its first call commits, and each file it observes afterwards is hashed where
its record awaits, as long as hashing takes on what the marking meant it to. The two queries differ:
`copied` counts copies in retired locations, `aliasedCopy` does not.
-/

namespace PlateVault.Library

variable {R : Reader}

namespace Catalog

def latestScan (c : Catalog R) (locationId : Uuid) : Option Operation :=
  c.operations.rows.reverse.find? fun op => op.locationId = locationId

/-- `location_provisional`: its latest scan did not complete, or a record of it awaits its rehash. -/
def locationProvisional (c : Catalog R) (locationId : Uuid) : Bool :=
  (c.latestScan locationId).map (·.state) ≠ some .completed || c.pendingInLocation locationId

/-! ## What a call hashes -/

/-- A record awaits its rehash in a call of the operation: it is marked, or the call marks it. -/
def awaits (c : Catalog R) (op : Operation) (a : Asset R) : Bool :=
  a.verificationPending ||
    (!op.verificationArmed && c.armed op a && !rehashKept a (c.rehashRun op))

/-- A file is at a record's path, or at a variant of its name. -/
def named (location : Location) (file : ScanFile R) (a : Asset R) : Bool :=
  a.locationId = location.id && (a.relativePath = file.relativePath ||
    R.sameOn a.relativePath file.relativePath location.identity.volume)

/-- What hashing read of a file's record is what the call commits on. -/
def current (c reader : Catalog R) (op seen : Operation) (location : Location) (file : ScanFile R)
    (a : Asset R) : Bool :=
  match reader.findAsset location file.relativePath file.fingerprint seen.id with
  | .existing asset => asset.quality = a.quality && reader.aliasedCopy asset = c.aliasedCopy a &&
      rehashKept asset (reader.rehashRun seen) = rehashKept a (c.rehashRun op)
  | _ => false

/-- Of the files a call observes, each whose record awaits its rehash is decided or a copy of one in
an active location, as hashing read it. -/
def Rehashes (c reader : Catalog R) (id : Uuid) (files : List (ScanFile R)) : Prop :=
  ∀ op ∈ c.operations.rows, op.id = id → ∀ location ∈ c.locations.rows, location.id = op.locationId →
    ∀ seen ∈ reader.operations.rows, seen.id = id → ∀ before ∈ reader.locations.rows,
      before.id = seen.locationId → ∀ file ∈ files, ∀ a ∈ c.assets.rows, named location file a →
        c.awaits op a → (a.quality ≠ .unreviewed ∨ c.aliasedCopy a) ∧
          c.current reader op seen before file a

def RehashesIn (id : Uuid) (c : Catalog R) : Call R → Prop
  | .applyScanBatch reader operationId _ batch _ _ _ =>
    operationId = id → c.Rehashes reader id batch.files
  | .finishScan reader operationId observation _ _ _ _ =>
    operationId = id → c.Rehashes reader id (reader.unappliedFiles id observation.files)
  | _ => True

theorem decidedDigests_isSome {c reader : Catalog R} {op seen : Operation} {location : Location}
    {opened : RelPath → Result Reading} {files : List (ScanFile R)} {file : ScanFile R}
    (hfile : file ∈ files) {a : Asset R} (hawaits : c.awaits op a = true)
    (hdecided : a.quality ≠ .unreviewed ∨ c.aliasedCopy a = true)
    (hcurrent : c.current reader op seen location file a = true) :
    (reader.decidedDigests seen location opened files file.relativePath).isSome = true := by
  have hkept : rehashKept a (c.rehashRun op) = false := by
    unfold awaits at hawaits
    cases hpending : a.verificationPending with
    | true => simp [rehashKept, hpending]
    | false =>
      simp only [hpending, Bool.false_or, Bool.and_eq_true, Bool.not_eq_true'] at hawaits
      exact hawaits.2
  unfold current at hcurrent
  split at hcurrent
  · next asset hfound =>
    simp only [Bool.and_eq_true, decide_eq_true_eq] at hcurrent
    obtain ⟨⟨hquality, halias⟩, hrun⟩ := hcurrent
    unfold decidedDigests
    simp only [Option.isSome_map, List.find?_isSome, List.mem_reverse, List.mem_filter]
    refine ⟨file, ⟨hfile, ?_⟩, by simp⟩
    rw [hfound]
    simp [hquality, halias, hrun, hkept, hdecided]
  · cases hcurrent

/-! ## Observing -/

section Observing

variable {id : Uuid}

theorem findAsset_named {c : Catalog R} {operationId : Uuid} {location : Location}
    {file : ScanFile R} {seen : ObservationFingerprint} {stored : Asset R}
    (h : c.findAsset location file.relativePath seen operationId = .existing stored) :
    ∃ row ∈ c.assets.rows, named location file row = true ∧ stored = c.fromRow row := by
  unfold findAsset at h
  simp only at h
  split at h
  · next row hrow =>
    cases h
    have hplace := List.find?_some hrow
    simp only [Bool.and_eq_true, decide_eq_true_eq] at hplace
    exact ⟨row, List.mem_of_find?_eq_some hrow, by simp [named, hplace], rfl⟩
  · split at h
    · cases h
    · split at h
      · cases h
      · split at h
        · next found hfound =>
          cases h
          obtain ⟨hmem, hsame⟩ := List.mem_filter.mp (List.mem_of_find?_eq_some hfound)
          obtain ⟨row, hrow, rfl⟩ := List.mem_map.mp hmem
          obtain ⟨hmem, hrow⟩ := List.mem_filter.mp hrow
          simp only [Bool.and_eq_true, decide_eq_true_eq] at hrow
          refine ⟨row, hmem, ?_, rfl⟩
          simp only [fromRow_relativePath] at hsame
          simp [named, hrow.1.1.1, hsame]
        · exfalso
          revert h
          split_ifs <;> simp

theorem refreshAsset_settles {c c' : Catalog R} {op : Operation} {stored : Asset R}
    {file : ScanFile R} {seen : ObservationFingerprint} {observedAt : Nat} {change : Change}
    (hhashed : op.id = id → seen.contentSha256 = none →
      ∀ row ∈ c.assets.rows, row.id = stored.id → row.verificationPending = false)
    (h : c.refreshAsset op stored file seen observedAt = .ok (c', change)) :
    Settles id (op.id = id) c c' := by
  obtain ⟨hrows, htables⟩ := refreshAsset_evolves h
  refine .of_tables (hrows.mono (fun a ha a' hstep => ?_) fun _ => False.elim) htables.operations
  unfold Refreshes at hstep
  split at hstep
  · next hid =>
    have hpending := hstep.verificationPending
    refine ⟨fun hp => ?_, fun hmissing => ?_, fun hlast => ?_⟩
    · rw [hpending, Bool.and_eq_true, Option.isNone_iff_eq_none] at hp
      refine ⟨hp.1, hstep.locationId, fun hscan => ?_⟩
      exact absurd hp.1 (by simp [hhashed hscan hp.2 a ha hid])
    · cases hstep.availability.symm.trans hmissing
    · have hscan : op.id = id := Option.some.inj (hstep.lastOperationId.symm.trans hlast)
      refine .inr ⟨hscan, ?_⟩
      rw [hpending]
      cases hsha : seen.contentSha256 with
      | none => simp [hhashed hscan hsha a ha hid]
      | some sha => simp
  · rw [hstep]
    exact .refl a

theorem insertAsset_settles {c c' : Catalog R} {op : Operation} {location : Location}
    {file : ScanFile R} {seen : ObservationFingerprint} {assetId : Uuid} {observedAt : Nat}
    {change : Change}
    (h : c.insertAsset op location file seen assetId observedAt = .ok (c', change)) :
    Settles id (op.id = id) c c' := by
  obtain ⟨hrows, htables, -⟩ := insertAsset_eq_ok h
  refine .of_tables (hrows.mono (fun a _ a' hsame => ?_) fun a hnew => ?_) htables.operations
  · obtain rfl : a' = a := hsame
    exact .refl a'
  · exact ⟨hnew.verificationPending,
      fun hlast => Option.some.inj (hnew.lastOperationId.symm.trans hlast)⟩

theorem observeFile_settles {c c' : Catalog R} {op : Operation} {location : Location}
    {file : ScanFile R} {digest : Option Text} {run : Option Nat} {assetId : Uuid} {observedAt : Nat}
    {change : Change}
    (hhashed : op.id = id → digest = none → ∀ row ∈ c.assets.rows, named location file row = true →
      row.verificationPending = false)
    (h : c.observeFile op location file digest run assetId observedAt = .ok (c', change)) :
    Settles id (op.id = id) c c' := by
  have hissue : ∀ {c c' : Catalog R} {path : RelPath} {reason : String} {availability : Availability},
      availability ≠ .missing →
      c.recordIssue op { relativePath := path, reason, availability } = .ok c' →
      Settles id (op.id = id) c c' := fun hmissing h => recordIssue_settles hmissing h
  simp only [observeFile, Result.bind_eq_ok, Result.require_eq_ok] at h
  obtain ⟨-, -, -, -, h⟩ := h
  split at h
  · simp only [Result.bind_eq_ok, Result.pure_eq_ok, Prod.mk.injEq] at h
    obtain ⟨c₁, hone, rfl, -⟩ := h
    exact hissue (by decide) hone
  · split at h
    · next stored hfound =>
      obtain ⟨row, hrow, hnamed, rfl⟩ := findAsset_named hfound
      have hunhashed : op.id = id → digest = none →
          ∀ a ∈ c.assets.rows, a.id = (c.fromRow row).id → a.verificationPending = false := by
        intro hscan hnone a ha hid
        obtain rfl : a = row := Table.eq_of_key ha hrow (hid.trans (fromRow_id c row))
        exact hhashed hscan hnone a ha hnamed
      split at h
      · unfold observeTrashed at h
        split at h
        · simp only [Result.bind_eq_ok, Result.pure_eq_ok, Prod.mk.injEq] at h
          obtain ⟨c₁, hone, rfl, -⟩ := h
          exact hissue (by decide) hone
        · next hdigest =>
          simp only [Result.bind_eq_ok] at h
          obtain ⟨⟨c₁, change₁⟩, hrefresh, h⟩ := h
          have hc₁ : c₁ = c' := by
            cases change₁ <;> simp_all
          subst hc₁
          have hclose : Settles id (op.id = id) c (c.closeEpisode (c.fromRow row).id observedAt) :=
            .of_eq rfl rfl
          refine hclose.trans (refreshAsset_settles (fun _ hnone => ?_) hrefresh)
          exact absurd hnone (by simpa using hdigest)
      · split at h
        · exact refreshAsset_settles hunhashed h
        · split at h
          · simp only [Result.bind_eq_ok, Result.pure_eq_ok, Prod.mk.injEq] at h
            obtain ⟨c₁, hone, rfl, -⟩ := h
            exact hissue (by decide) hone
          · exact refreshAsset_settles hunhashed h
    · simp only [Result.bind_eq_ok, Result.pure_eq_ok, Prod.mk.injEq] at h
      obtain ⟨c₁, hissues, rfl, -⟩ := h
      refine recordIssues_settles (fun issue hissue => ?_) (recordIssues_run hissues)
      obtain ⟨path, -, rfl⟩ := List.mem_map.mp hissue
      exact fun h => by cases h
    · exact (markScopes_settles op _ c).trans (insertAsset_settles h)
    · exact insertAsset_settles h

theorem observeFiles_settles {op : Operation} {location : Location} {digests : DigestMap}
    {run : Option Nat} {ids : RelPath → Uuid} {observedAt : Nat} {files : List (ScanFile R)}
    {c c' : Catalog R} {changed changed' : BatchChanges}
    (hhashed : op.id = id → ∀ file ∈ files, ∀ row ∈ c.assets.rows, named location file row = true →
      row.verificationPending = true → (digests file.relativePath).isSome = true)
    (h : c.observeFiles op location digests run ids observedAt changed files = .ok (c', changed')) :
    Settles id (op.id = id) c c' := by
  induction files generalizing c changed with
  | nil =>
    cases h
    exact .refl _
  | cons file files ih =>
    simp only [observeFiles, Result.bind_eq_ok] at h
    obtain ⟨⟨c₁, change⟩, hone, hrest⟩ := h
    have hstep : Settles id (op.id = id) c c₁ := by
      unfold observeOne at hone
      split at hone
      · simp only [Result.bind_eq_ok, Result.pure_eq_ok, Prod.mk.injEq] at hone
        obtain ⟨c₂, hissue, rfl, -⟩ := hone
        exact recordIssue_settles (fun h => by cases h) hissue
      · next hnotError =>
        refine observeFile_settles (fun hscan hnone row hrow hnamed => ?_) hone
        rw [← Bool.not_eq_true]
        intro hpending
        have hsome := hhashed hscan file List.mem_cons_self row hrow hnamed hpending
        obtain ⟨answer, hanswer⟩ := Option.isSome_iff_exists.mp hsome
        cases answer with
        | error error => exact hnotError error hanswer
        | ok sha => simp [hanswer, Except.toOption] at hnone
    refine hstep.trans (ih (fun hscan other hother row hrow hnamed hpending => ?_) hrest)
    -- a record that still awaits its rehash is where it was
    obtain ⟨before, hbefore, -, hclears⟩ | ⟨hnew, -⟩ := hstep.rows.row row hrow
    · obtain ⟨hwas, hlocation, hpath⟩ := hclears.pending hpending
      refine hhashed hscan other (List.mem_cons_of_mem _ hother) before hbefore ?_ hwas
      rw [← hnamed, named, named, hlocation, hpath hscan]
    · exact absurd hpending (by simp [hnew.pending])

end Observing

/-! ## Scans -/

theorem armVerification_marks (id : Uuid) (c : Catalog R) {op : Operation} (hop : op ∈ c.operations.rows) :
    (op.verificationArmed = true ∧ c.armVerification op = c) ∨
      (op.verificationArmed = false ∧ ∃ c₁, Settles id False c c₁ ∧ c₁.assets = c.assets ∧
        (∃ op' ∈ c₁.operations.rows, op'.verificationArmed = true ∧ Armed op op') ∧
        (c.armVerification op).operations = c₁.operations ∧
        ∀ a' ∈ (c.armVerification op).assets.rows, ∃ a ∈ c.assets.rows, a' =
          if c.armed op a && !rehashKept a (c.rehashRun op) then { a with verificationPending := true }
          else a) := by
  unfold armVerification
  rw [Table.find?_of_mem hop]
  split
  · next hunarmed =>
    simp only [Option.any_some, Bool.not_eq_true'] at hunarmed
    have harmed : Settles id False c
        (c.updateOperation op.id fun op => { op with verificationArmed := true }) :=
      .updateOperation fun _ => ⟨rfl, rfl, rfl, rfl, fun _ => rfl⟩
    have hfound : ∃ op' ∈ (c.updateOperation op.id fun op =>
        { op with verificationArmed := true }).operations.rows,
        op'.verificationArmed = true ∧ Armed op op' :=
      ⟨{ op with verificationArmed := true }, mem_updateOperation.mpr ⟨op, hop, by simp⟩, rfl, rfl, rfl,
        rfl, rfl, fun _ => rfl⟩
    have hrun : c.rehashRun op = c.unfinishedRehash op.locationId := by
      rw [rehashRun, if_neg (by simp [hunarmed])]
    refine .inr ⟨hunarmed, ?_⟩
    rw [hrun]
    dsimp only
    by_cases hnone : (c.unfinishedRehash op.locationId).isNone = true
    · rw [if_pos hnone]
      exact ⟨_, harmed.trans (.of_eq rfl rfl), rfl, hfound, rfl, fun _ => mem_updateAssets.mp⟩
    · rw [if_neg hnone]
      exact ⟨_, harmed, rfl, hfound, rfl, fun _ => mem_updateAssets.mp⟩
  · next harmed =>
    exact .inl ⟨by simpa using harmed, rfl⟩

/-- What every run keeps: a running scan is the latest of its location, and armed before it observes;
a record of its location that it observed does not await its rehash, and no Missing record does. -/
structure Verifying (id : Uuid) (c : Catalog R) : Prop where
  latest : c.operations.rows.Pairwise fun op later =>
    op.state = .running → later.locationId ≠ op.locationId
  known : ∀ a ∈ c.assets.rows, a.lastOperationId = some id → ∃ op ∈ c.operations.rows, op.id = id
  armed : ∀ op ∈ c.operations.rows, op.id = id → op.state = .running → ∀ a ∈ c.assets.rows,
    a.lastOperationId = some id → op.verificationArmed = true
  cleared : ∀ op ∈ c.operations.rows, op.id = id → op.state = .running → ∀ a ∈ c.assets.rows,
    a.lastOperationId = some id → a.locationId = op.locationId → a.verificationPending = false
  missing : ∀ a ∈ c.assets.rows, a.availability = .missing → a.verificationPending = false

namespace Verifying

variable {id : Uuid} {c c' : Catalog R}

theorem empty : Verifying id (.empty : Catalog R) := by
  constructor <;> simp [Catalog.empty, Table.empty]

theorem one (hc : Verifying id c) {op op' : Operation} (hop : op ∈ c.operations.rows)
    (hop' : op' ∈ c.operations.rows) (hrunning : op.state = .running) (hrunning' : op'.state = .running)
    (hsame : op.locationId = op'.locationId) : op = op' := by
  obtain ⟨front, back, hrows⟩ := List.append_of_mem hop
  have hlatest := hc.latest
  rw [hrows] at hlatest hop'
  obtain ⟨-, hback, hfront⟩ := List.pairwise_append.mp hlatest
  rcases List.mem_append.mp hop' with hbefore | hafter
  · exact absurd hsame (hfront op' hbefore op List.mem_cons_self hrunning')
  · rcases List.mem_cons.mp hafter with rfl | hafter
    · rfl
    · exact absurd hsame.symm ((List.pairwise_cons.mp hback).1 op' hafter hrunning)

theorem settles {scanning : Prop} (h : Settles id scanning c c')
    (hscan : scanning → ∃ op ∈ c.operations.rows, op.id = id ∧ op.verificationArmed = true)
    (hc : Verifying id c) : Verifying id c' := by
  obtain ⟨f, hrows, hf⟩ := h.scans
  have hback : ∀ op' ∈ c'.operations.rows, ∃ op ∈ c.operations.rows, op' = f op := by
    intro op' hop'
    rw [hrows] at hop'
    obtain ⟨op, hop, rfl⟩ := List.mem_map.mp hop'
    exact ⟨op, hop, rfl⟩
  constructor
  · rw [hrows, List.pairwise_map]
    refine hc.latest.imp fun {op later} hlater hrunning => ?_
    rw [(hf later).locationId, (hf op).locationId]
    exact hlater ((hf op).state ▸ hrunning)
  · intro a' ha' hlast
    have hknown : ∃ op ∈ c.operations.rows, op.id = id := by
      obtain ⟨a, ha, -, hclears⟩ | ⟨hnew, -⟩ := h.rows.row a' ha'
      · rcases hclears.last hlast with hwas | ⟨hs, -⟩
        · exact hc.known a ha hwas
        · obtain ⟨op, hop, hid, -⟩ := hscan hs
          exact ⟨op, hop, hid⟩
      · obtain ⟨op, hop, hid, -⟩ := hscan (hnew.last hlast)
        exact ⟨op, hop, hid⟩
    obtain ⟨op, hop, hid⟩ := hknown
    exact ⟨f op, hrows ▸ List.mem_map_of_mem hop, (hf op).id.trans hid⟩
  · intro op' hop' hid hrunning a' ha' hlast
    obtain ⟨op, hop, rfl⟩ := hback op' hop'
    have hid : op.id = id := (hf op).id.symm.trans hid
    refine (hf op).armed ?_
    have hs : scanning → op.verificationArmed = true := fun hs => by
      obtain ⟨op₀, hop₀, hid₀, harmed⟩ := hscan hs
      obtain rfl : op₀ = op := Table.eq_of_key hop₀ hop (hid₀.trans hid.symm)
      exact harmed
    obtain ⟨a, ha, -, hclears⟩ | ⟨hnew, -⟩ := h.rows.row a' ha'
    · rcases hclears.last hlast with hwas | ⟨hscanning, -⟩
      · exact hc.armed op hop hid ((hf op).state ▸ hrunning) a ha hwas
      · exact hs hscanning
    · exact hs (hnew.last hlast)
  · intro op' hop' hid hrunning a' ha' hlast hlocation
    obtain ⟨op, hop, rfl⟩ := hback op' hop'
    obtain ⟨a, ha, -, hclears⟩ | ⟨hnew, -⟩ := h.rows.row a' ha'
    · rcases hclears.last hlast with hwas | ⟨-, hclear⟩
      · rw [← Bool.not_eq_true]
        intro hpending
        obtain ⟨hbefore, hplace, -⟩ := hclears.pending hpending
        refine Bool.false_ne_true ((hc.cleared op hop ((hf op).id.symm.trans hid)
          ((hf op).state ▸ hrunning) a ha hwas ?_).symm.trans hbefore)
        rw [← hplace, hlocation, (hf op).locationId]
      · exact hclear
    · exact hnew.pending
  · intro a' ha' hmissing
    obtain ⟨a, ha, -, hclears⟩ | ⟨hnew, -⟩ := h.rows.row a' ha'
    · rcases hclears.missing hmissing with hwas | hclear
      · rw [← Bool.not_eq_true]
        exact fun hpending => Bool.false_ne_true
          ((hc.missing a ha hwas).symm.trans (hclears.pending hpending).1)
      · exact hclear
    · exact hnew.pending

theorem finalize {state : ScanState} (hstate : state ≠ .running) (complete incomplete : List RelPath)
    (operationId : Uuid) (hc : Verifying id c) :
    Verifying id (c.finalizeOperation operationId state complete incomplete) := by
  have hback : ∀ op' ∈ (c.finalizeOperation operationId state complete incomplete).operations.rows,
      op'.state = .running → op' ∈ c.operations.rows := by
    intro op' hop' hrunning
    obtain ⟨op, hop, rfl⟩ := mem_updateOperation.mp hop'
    split at hrunning
    · exact absurd hrunning hstate
    · next hother => rwa [if_neg hother]
  constructor
  · simp only [finalizeOperation, updateOperation, Table.updateWhere, List.pairwise_map]
    refine hc.latest.imp fun {op later} hlater hrunning => ?_
    split at hrunning
    · exact absurd hrunning hstate
    · next hother =>
      rw [if_neg hother]
      split
      · exact hlater hrunning
      · exact hlater hrunning
  · intro a ha hlast
    obtain ⟨op, hop, hid⟩ := hc.known a ha hlast
    refine ⟨_, List.mem_map_of_mem hop, ?_⟩
    split
    · exact hid
    · exact hid
  · exact fun op hop hid hrunning => hc.armed op (hback op hop hrunning) hid hrunning
  · exact fun op hop hid hrunning => hc.cleared op (hback op hop hrunning) hid hrunning
  · exact hc.missing

theorem arm (hc : Verifying id c) {op : Operation} (hop : op ∈ c.operations.rows)
    (hrunning : op.state = .running) : Verifying id (c.armVerification op) ∧
      ∃ op' ∈ (c.armVerification op).operations.rows, op'.verificationArmed = true ∧ Armed op op' := by
  obtain ⟨harmed, hsame⟩ | ⟨hunarmed, c₁, hsettles, hassets, hfound, hops, hmarks⟩ :=
    armVerification_marks id c hop
  · rw [hsame]
    exact ⟨hc, op, hop, harmed, .refl op⟩
  · have hverifying := hc.settles hsettles False.elim
    have hback : ∀ a' ∈ (c.armVerification op).assets.rows, ∃ a ∈ c.assets.rows,
        a'.lastOperationId = a.lastOperationId ∧ a'.locationId = a.locationId ∧
          a'.availability = a.availability ∧ (a'.verificationPending = true →
            a.verificationPending = true ∨ c.armed op a = true) := by
      intro a' ha'
      obtain ⟨a, ha, rfl⟩ := hmarks a' ha'
      refine ⟨a, ha, ?_⟩
      split
      · next hsel =>
        simp only [Bool.and_eq_true] at hsel
        exact ⟨rfl, rfl, rfl, fun _ => .inr hsel.1⟩
      · exact ⟨rfl, rfl, rfl, .inl⟩
    refine ⟨⟨hops ▸ hverifying.latest, ?_, ?_, ?_, ?_⟩, hops ▸ hfound⟩
    · intro a' ha' hlast
      obtain ⟨a, ha, hsame, -⟩ := hback a' ha'
      rw [hops]
      exact hverifying.known a (hassets ▸ ha) (hsame ▸ hlast)
    · intro op' hop' hid hrunning' a' ha' hlast
      obtain ⟨a, ha, hsame, -⟩ := hback a' ha'
      exact hverifying.armed op' (hops ▸ hop') hid hrunning' a (hassets ▸ ha) (hsame ▸ hlast)
    · intro op' hop' hid hrunning' a' ha' hlast hlocation
      obtain ⟨a, ha, hsame, hplace, -, hpending⟩ := hback a' ha'
      have hclear := hverifying.cleared op' (hops ▸ hop') hid hrunning' a (hassets ▸ ha)
        (hsame ▸ hlast) (hplace ▸ hlocation)
      rw [← Bool.not_eq_true]
      intro hmarked
      rcases hpending hmarked with hwas | hsel
      · exact Bool.false_ne_true (hclear.symm.trans hwas)
      · -- the record is of the location the operation arms, so the operation is the scan itself
        obtain ⟨op₁, hop₁, -, harmed₁⟩ := hfound
        obtain rfl : op₁ = op' := by
          refine hverifying.one hop₁ (hops ▸ hop') (harmed₁.state.trans hrunning) hrunning' ?_
          simp only [Catalog.armed, Bool.and_eq_true, decide_eq_true_eq] at hsel
          rw [harmed₁.locationId, ← hlocation, hplace]
          exact hsel.1.1.1.2.symm
        have := hc.armed op hop (harmed₁.id.symm.trans hid) hrunning a ha (hsame ▸ hlast)
        exact Bool.false_ne_true (hunarmed.symm.trans this)
    · intro a' ha' hmissing
      obtain ⟨a, ha, -, -, hsame, hpending⟩ := hback a' ha'
      rw [← Bool.not_eq_true]
      intro hmarked
      rcases hpending hmarked with hwas | hsel
      · exact Bool.false_ne_true ((hc.missing a ha (hsame ▸ hmissing)).symm.trans hwas)
      · simp [Catalog.armed, ← hsame, hmissing] at hsel

end Verifying

/-! ## Every call -/

section Calls

variable {id : Uuid}

theorem Rehashes.hashed {c reader : Catalog R} {op : Operation} {location : Location}
    {files : List (ScanFile R)} {opened : RelPath → Result Reading} {digests : DigestMap}
    (h : c.Rehashes reader id files) (hop : op ∈ c.operations.rows) (hid : op.id = id)
    (hload : c.loadLocation op.locationId = .ok location)
    (hdigests : reader.digestsBefore id opened files = .ok digests) :
    ∀ file ∈ files, ∀ row ∈ (c.armVerification op).assets.rows, named location file row = true →
      row.verificationPending = true → (digests file.relativePath).isSome = true := by
  intro file hfile row hrow hnamed hpending
  simp only [digestsBefore, Result.bind_eq_ok, loadOperationRow_eq_ok, loadLocation,
    Result.orElse_eq_ok, Table.find?_eq_some, Result.pure_eq_ok] at hdigests hload
  obtain ⟨seen, ⟨hseen, hseenId⟩, before, ⟨hbefore, hbeforeId⟩, rfl⟩ := hdigests
  have hawaits : ∃ a ∈ c.assets.rows, c.awaits op a = true ∧ named location file a = true := by
    obtain ⟨-, hsame⟩ | ⟨hunarmed, -, -, -, -, -, hmarks⟩ := armVerification_marks id c hop
    · rw [hsame] at hrow
      exact ⟨row, hrow, by simp [awaits, hpending], hnamed⟩
    · obtain ⟨a, ha, rfl⟩ := hmarks row hrow
      split at hnamed
      · next hsel => exact ⟨a, ha, by simp [awaits, hunarmed, hsel], hnamed⟩
      · next hsel =>
        rw [if_neg hsel] at hpending
        exact ⟨a, ha, by simp [awaits, hpending], hnamed⟩
  obtain ⟨a, ha, hawaits, hnamed⟩ := hawaits
  obtain ⟨hdecided, hcurrent⟩ := h op hop hid location hload.1 hload.2 seen hseen hseenId before
    hbefore hbeforeId file hfile a ha hnamed hawaits
  exact decidedDigests_isSome hfile hawaits hdecided hcurrent

theorem observeBatch_settles {c c' : Catalog R} {op : Operation} {location : Location}
    {files : List (ScanFile R)} {issues : List ScanIssue} {digests : DigestMap}
    {ids : RelPath → Uuid} {observedAt : Nat} {changed : BatchChanges}
    (hhashed : op.id = id → ∀ file ∈ files, ∀ row ∈ c.assets.rows, named location file row = true →
      row.verificationPending = true → (digests file.relativePath).isSome = true)
    (h : c.observeBatch op location files issues digests ids observedAt = .ok (c', changed)) :
    Settles id (op.id = id) c c' := by
  simp only [observeBatch, Result.bind_eq_ok, Result.pure_eq_ok, Prod.mk.injEq] at h
  obtain ⟨⟨middle, changed'⟩, hfiles, c₁, hissues, rfl, -⟩ := h
  have hrun : Run (IssueStep op) middle issues c₁ := recordBatchIssues_run hissues
  have hfilesSettle : Settles id (op.id = id) c middle := observeFiles_settles hhashed hfiles
  refine hfilesSettle.trans ?_
  clear hissues hfiles hfilesSettle
  induction hrun with
  | nil c => exact .refl c
  | cons hstep _ ih => exact (recordIssue_settles hstep.valid.2 hstep.recorded).trans ih

theorem downgrade_settles (c : Catalog R) (op : Operation) (location : Location)
    (error : LibraryError) : Settles id False c (c.downgrade op location error) := by
  unfold downgrade
  simp only
  have hunverified : Settles id False c
      (c.updateOperation op.id fun op => { op with identityVerified := false }) :=
    .updateOperation fun _ => ⟨rfl, rfl, rfl, rfl, fun h => h⟩
  have hissue := (hunverified.trans (addIssue_settles _ op.id op.scope error.display
    (unavailableFor error))).trans (markScopeIncomplete_settles _ op.id op.scope)
  exact hissue.trans (.of_eq rfl rfl)

theorem observed_verifying {c reader c' : Catalog R} {op : Operation} {location : Location}
    {files : List (ScanFile R)} {issues : List ScanIssue} {opened : RelPath → Result Reading}
    {digests : DigestMap} {ids : RelPath → Uuid} {observedAt : Nat} {changed : BatchChanges}
    (hc : Verifying id c) (hop : op ∈ c.operations.rows) (hrunning : op.state = .running)
    (hrehashes : op.id = id → c.Rehashes reader id files)
    (hload : c.loadLocation op.locationId = .ok location)
    (hdigests : reader.digestsBefore op.id opened files = .ok digests)
    (h : (c.armVerification op).observeBatch op location files issues digests ids observedAt =
      .ok (c', changed)) :
    Verifying id c' ∧ ∃ op' ∈ c'.operations.rows, Armed op op' := by
  obtain ⟨harm, op₁, hop₁, harmed, hlater⟩ := hc.arm hop hrunning
  have hsettles : Settles id (op.id = id) (c.armVerification op) c' := by
    refine observeBatch_settles (fun hid => ?_) h
    exact (hrehashes hid).hashed hop hid hload (hid ▸ hdigests)
  refine ⟨harm.settles hsettles fun hid => ⟨op₁, hop₁, hlater.id.trans hid, harmed⟩, ?_⟩
  obtain ⟨f, hrows, hf⟩ := hsettles.scans
  exact ⟨f op₁, hrows ▸ List.mem_map_of_mem hop₁, hlater.trans (hf op₁)⟩

theorem applyScanBatch_verifying {c reader : Catalog R} {operationId : Uuid}
    {rootIdentity : FileIdentity} {batch : ScanBatch R} {opened : RelPath → Result Reading}
    {ids : RelPath → Uuid} {now : Nat} {committed : Committed R} (hc : Verifying id c)
    (hrehashes : operationId = id → c.Rehashes reader id batch.files)
    (h : c.applyScanBatch reader operationId rootIdentity batch opened ids now = .ok committed) :
    Verifying id committed.catalog := by
  simp only [applyScanBatch, Result.bind_eq_ok, loadOperationRow_eq_ok, requireRunning_eq_ok] at h
  obtain ⟨digests, hdigests, op, ⟨hop, rfl⟩, _, hrunning, location, hlocation, h⟩ := h
  split at h
  · cases h
    exact hc.settles (downgrade_settles c op location _) False.elim
  · simp only [Result.bind_eq_ok, Result.pure_eq_ok] at h
    obtain ⟨⟨c₁, changed⟩, hbatch, rfl⟩ := h
    have hobserved := (observed_verifying hc hop hrunning hrehashes hlocation hdigests hbatch).1
    have hmarked : Settles id False c₁ (c₁.markLocationObserved location.id) := .of_eq rfl rfl
    exact hobserved.settles hmarked False.elim

theorem reconcileAbsence_settles (c : Catalog R) (op : Operation)
    (complete incomplete : List RelPath) :
    Settles id False c (c.reconcileAbsence op complete incomplete) :=
  .updateAssets fun _ _ => .of_clear rfl .inl

theorem endRehashRun_settles (c : Catalog R) (op : Operation) (ended : Bool) :
    Settles id False c (c.endRehashRun op ended) := by
  unfold endRehashRun
  split
  · exact .of_eq rfl rfl
  · exact .refl c

theorem finishObserved_verifying {c c' : Catalog R} {op : Operation}
    {observation : ScanObservation R} {proven : Bool} (hstate : observation.state ≠ .running)
    (hc : Verifying id c) (h : c.finishObserved op observation proven = .ok c') :
    Verifying id c' := by
  simp only [finishObserved, Result.bind_eq_ok, Result.pure_eq_ok] at h
  obtain ⟨recorded, -, complete, -, rfl⟩ := h
  have hreconciled : ∀ incomplete, Settles id False c (if complete.isEmpty = true then c else
      c.reconcileAbsence op complete incomplete) := by
    intro incomplete
    split
    · exact .refl c
    · exact reconcileAbsence_settles c op _ _
  refine Verifying.finalize ?_ _ _ _ (hc.settles ((hreconciled _).trans
    (endRehashRun_settles _ _ _)) False.elim)
  · have hended : ∀ limited : Bool,
        (if limited then ScanState.partially else observation.state) ≠ .running := by
      intro limited
      cases limited <;> simp [hstate]
    exact hended _

theorem beginScan_verifying {c c' : Catalog R} {operationId locationId : Uuid}
    {scope : Option RelPath} {now : Nat} (hc : Verifying id c)
    (h : c.beginScan operationId locationId scope now = .ok c') : Verifying id c' := by
  simp only [beginScan, Result.bind_eq_ok, Result.require_eq_ok, Result.orElse_eq_ok,
    Result.pure_eq_ok] at h
  obtain ⟨location, hload, -, -, -, -, -, hfree, operations, hinsert, rfl⟩ := h
  obtain ⟨hnew, hrows⟩ := Table.insert?_eq_some hinsert
  have hidle : ∀ op ∈ c.operations.rows, op.state = .running → locationId ≠ op.locationId := by
    intro op hop hrunning hlocation
    simp only [runningOperation, Option.isNone_map, Option.isNone_iff_eq_none,
      List.find?_eq_none] at hfree
    exact hfree op hop (by simp [hlocation, hrunning])
  have hunknown : operationId = id → ∀ a ∈ c.assets.rows, a.lastOperationId ≠ some id := by
    intro hid a ha hlast
    obtain ⟨op, hop, hopId⟩ := hc.known a ha hlast
    exact Table.find?_eq_none.mp hnew op hop (hopId.trans hid.symm)
  have hold : ∀ op ∈ operations.rows, op.id = id → ∀ a ∈ c.assets.rows, a.lastOperationId = some id →
      op ∈ c.operations.rows := by
    intro op hop hid a ha hlast
    rw [hrows] at hop
    rcases List.mem_append.mp hop with hop | hop
    · exact hop
    · rw [List.mem_singleton.mp hop] at hid
      exact absurd hlast (hunknown hid a ha)
  constructor
  · rw [hrows, List.pairwise_append]
    refine ⟨hc.latest, List.pairwise_singleton _ _, fun op hop later hlater hrunning => ?_⟩
    rw [List.mem_singleton.mp hlater]
    exact hidle op hop hrunning
  · intro a ha hlast
    obtain ⟨op, hop, hid⟩ := hc.known a ha hlast
    exact ⟨op, hrows ▸ List.mem_append_left _ hop, hid⟩
  · exact fun op hop hid hrunning a ha hlast =>
      hc.armed op (hold op hop hid a ha hlast) hid hrunning a ha hlast
  · exact fun op hop hid hrunning a ha hlast =>
      hc.cleared op (hold op hop hid a ha hlast) hid hrunning a ha hlast
  · exact hc.missing

theorem finishScan_verifying {c reader : Catalog R} {operationId : Uuid}
    {observation : ScanObservation R} {rootCheck : Location → Result FileIdentity}
    {opened : RelPath → Result Reading} {ids : RelPath → Uuid} {now : Nat} {committed : Committed R}
    (hc : Verifying id c) (hrehashes : operationId = id →
      c.Rehashes reader id (reader.unappliedFiles id observation.files))
    (h : c.finishScan reader operationId observation rootCheck opened ids now = .ok committed) :
    Verifying id committed.catalog := by
  simp only [finishScan, Result.bind_eq_ok, loadOperationRow_eq_ok, requireRunning_eq_ok,
    Result.require_eq_ok, decide_eq_true_eq] at h
  obtain ⟨_, hstate, digests, hdigests, op, ⟨hop, rfl⟩, _, hrunning, _, -, location, hlocation, h⟩ := h
  split at h
  · simp only [Result.bind_eq_ok, Result.pure_eq_ok, finishVerified] at h
    obtain ⟨⟨c₁, changed⟩, ⟨⟨c₂, changed'⟩, hbatch, op', -, c₃, hfinish, heq⟩, rfl⟩ := h
    cases heq
    have hobserved := (observed_verifying hc hop hrunning (fun hid => hid ▸ hrehashes hid) hlocation
      hdigests hbatch).1
    have hmarked : Settles id False c₂ (c₂.markLocationObserved location.id) := .of_eq rfl rfl
    exact finishObserved_verifying hstate (hobserved.settles hmarked False.elim) hfinish
  · next error _ =>
    simp only [Result.bind_eq_ok, Result.pure_eq_ok, finishUnverified] at h
    obtain ⟨c₁, ⟨op', -, rfl⟩, rfl⟩ := h
    refine Verifying.finalize ?_ _ _ _ (hc.settles (downgrade_settles c op location error) False.elim)
    split
    · exact (by decide)
    · exact hstate

theorem Step.verifying {c c' : Catalog R} {call : Call R} (h : Step c call c')
    (hcall : c.RehashesIn id call) (hc : Verifying id c) : Verifying id c' := by
  have hother : Settles id False c c' → Verifying id c' := fun hsettles =>
    hc.settles hsettles False.elim
  unfold Step perform at h
  cases call with
  | registerLocation newId name path identity overlap =>
    simp only [registerLocation, Result.bind_eq_ok, Result.pure_eq_ok] at h
    obtain ⟨_, _, locations, _, rfl⟩ := h
    exact hother (.of_eq rfl rfl)
  | reselectLocation locationId expectedRevision path identity overlap =>
    simp only [reselectLocation, Result.bind_eq_ok, Result.pure_eq_ok] at h
    obtain ⟨current, _, _, _, _, _, _, _, _, _, rfl⟩ := h
    exact hother (.of_eq rfl rfl)
  | markLocationUnavailable locationId availability reason =>
    simp only [markLocationUnavailable, Result.bind_eq_ok] at h
    obtain ⟨_, _, current, _, _, _, h⟩ := h
    have hunavailable : Settles id False c (c.setLocationUnavailable locationId availability) :=
      .of_eq rfl rfl
    split at h
    · simp only [Result.bind_eq_ok, Result.pure_eq_ok] at h
      obtain ⟨op, _, rfl⟩ := h
      exact hother ((hunavailable.trans (addIssue_settles _ _ _ _ _)).trans
        (markScopeIncomplete_settles _ _ _))
    · cases h
      exact hother hunavailable
  | beginScan operationId locationId scope now => exact beginScan_verifying hc h
  | applyScanBatch reader operationId rootIdentity batch opened ids now =>
    simp only [Result.map_eq_ok] at h
    obtain ⟨committed, hcommitted, rfl⟩ := h
    exact applyScanBatch_verifying hc hcall hcommitted
  | finishScan reader operationId observation rootCheck opened ids now =>
    simp only [Result.map_eq_ok] at h
    obtain ⟨committed, hcommitted, rfl⟩ := h
    exact finishScan_verifying hc hcall hcommitted
  | abortScan operationId state reason =>
    simp only [abortScan, Result.bind_eq_ok, Result.require_eq_ok, Bool.or_eq_true,
      decide_eq_true_eq, Result.pure_eq_ok] at h
    obtain ⟨_, hstate, op, _, _, _, location, _, rfl⟩ := h
    refine Verifying.finalize ?_ _ _ _ (hc.settles (addIssue_settles c _ _ _ _) (False.elim))
    rintro rfl
    rcases hstate with hstate | hstate <;> cases hstate
  | setQuality reader expected quality sources now =>
    simp only [setQuality, Result.bind_eq_ok] at h
    obtain ⟨digests, -, assets, -, h⟩ := h
    exact hother (decideAll_settles h)
  | verifyDigest reader assetId sources now =>
    simp only [verifyDigest, Result.bind_eq_ok, Result.pure_eq_ok] at h
    obtain ⟨_, _, _, _, digest, _, _, _, rfl⟩ := h
    exact hother (bindDigest_settles c _ _ _)
  | verifyDuplicateCandidates reader operationId assets sources completed now =>
    simp only [verifyDuplicateCandidates, Result.bind_eq_ok] at h
    obtain ⟨_, _, _, _, _, _, h⟩ := h
    exact hother (bindCandidates_settles h)
  | recordCopyLink left right =>
    cases h
    refine hother ?_
    unfold recordCopyLink
    simp only
    split
    · exact .refl c
    · exact .of_eq rfl rfl
  | correct expected corrections =>
    simp only [correctInTxn, Result.map_eq_ok, Result.bind_eq_ok] at h
    obtain ⟨⟨c₁, changed⟩, ⟨_, _, h⟩, rfl⟩ := h
    exact hother (correctAssets_settles h)
  | recordTrashed storageOperationId frames now =>
    simp only [recordTrashed, Result.bind_eq_ok] at h
    obtain ⟨_, _, h⟩ := h
    split at h
    · cases h
    · exact hother (recordFrames_settles h)
  | reviewRemap reader reviewId locationId expectedRevision proposedRoot proposedIdentity files =>
    simp only [reviewRemap, Result.bind_eq_ok, Result.pure_eq_ok] at h
    obtain ⟨location, _, _, _, _, _, remapReviews, _, rfl⟩ := h
    exact hother (.of_eq rfl rfl)
  | applyRemap reader reviewId expectedRevision files overlap now =>
    obtain ⟨review, -, -, -, -, h⟩ := applyRemap_eq_ok h
    obtain ⟨remapped, hrows, rfl⟩ := applyRemapRows_eq_ok h
    have hroot : Settles id False c (c.remapLocation review) := .of_eq rfl rfl
    exact hother ((hroot.trans (remapRows_settles hrows)).trans (.of_eq rfl rfl))
  | moveAssetRecord record now => exact hother (moveAssetRecord_settles h)
  | retireLocation locationId expectedRevision review =>
    simp only [retireLocation, Result.bind_eq_ok, Result.pure_eq_ok] at h
    obtain ⟨location, _, _, _, _, _, _, _, _, _, rfl⟩ := h
    exact hother (.of_eq rfl rfl)

end Calls

/-! ## A scan that ends Completed -/

theorem latestScan_eq_some {c : Catalog R} {op : Operation} {front back : List Operation}
    (hrows : c.operations.rows = front ++ op :: back)
    (hback : ∀ later ∈ back, later.locationId ≠ op.locationId) :
    c.latestScan op.locationId = some op := by
  have hnone : back.reverse.find? (fun later => decide (later.locationId = op.locationId)) = none := by
    simpa [List.find?_eq_none] using hback
  simp [latestScan, hrows, List.find?_append, hnone]

theorem finishObserved_eq_ok {c c' : Catalog R} {op : Operation} {observation : ScanObservation R}
    {proven : Bool} (h : c.finishObserved op observation proven = .ok c') :
    ∃ complete incomplete state, completeScopes op observation proven = .ok complete ∧
      c'.operations = (c.finalizeOperation op.id state complete incomplete).operations ∧
      c'.assets = (if complete.isEmpty then c else
        c.reconcileAbsence op complete incomplete).assets ∧
      (state = .completed → incomplete = [] ∧ c.loadIssuePaths op.id = [] ∧ complete ≠ []) := by
  simp only [finishObserved, Result.bind_eq_ok, Result.pure_eq_ok] at h
  obtain ⟨recorded, -, complete, hcomplete, rfl⟩ := h
  have hended : ∀ (middle : Catalog R) ended, (middle.endRehashRun op ended).operations =
      middle.operations ∧ (middle.endRehashRun op ended).assets = middle.assets := by
    intro middle ended
    unfold endRehashRun
    split <;> exact ⟨rfl, rfl⟩
  have hreconciled : ∀ incomplete, (if complete.isEmpty = true then c else
      c.reconcileAbsence op complete incomplete).operations = c.operations ∧
      (if complete.isEmpty = true then c else
        c.reconcileAbsence op complete incomplete).loadIssuePaths op.id = c.loadIssuePaths op.id := by
    intro incomplete
    split <;> exact ⟨rfl, rfl⟩
  have hfinal : ∀ (middle : Catalog R) state complete incomplete, middle.operations = c.operations →
      (middle.finalizeOperation op.id state complete incomplete).operations =
        (c.finalizeOperation op.id state complete incomplete).operations := by
    intro middle state complete incomplete hsame
    simp only [finalizeOperation, updateOperation, hsame]
  have hnone : ∀ limited : Bool, (if limited then ScanState.partially else observation.state) =
      .completed → limited = false ∧ observation.state = .completed := by
    intro limited h
    cases limited with
    | true => cases h
    | false => exact ⟨rfl, h⟩
  refine ⟨complete, _, _, hcomplete, hfinal _ _ _ _ ((hended _ _).1.trans (hreconciled _).1),
    (hended _ _).2, fun hstate => ?_⟩
  obtain ⟨hlimited, hobserved⟩ := hnone _ hstate
  rw [(hreconciled _).2] at hlimited
  simpa [hobserved, and_assoc] using hlimited

theorem mem_reconcileAbsence {c : Catalog R} {op : Operation} {complete incomplete : List RelPath}
    {a : Asset R} (ha : a ∈ (c.reconcileAbsence op complete incomplete).assets.rows)
    (hpending : a.verificationPending = true) (hlive : a.live = true)
    (hlocation : a.locationId = op.locationId) (hscope : op.scope = []) (hwhole : [] ∈ complete)
    (hincomplete : incomplete = []) (hissues : c.loadIssuePaths op.id = []) :
    a ∈ c.assets.rows ∧ (a.availability = .missing ∨ a.lastOperationId = some op.id) := by
  obtain ⟨b, hb, rfl⟩ := mem_updateAssets.mp ha
  split at hpending
  · cases hpending
  · next hkept =>
    rw [if_neg hkept] at hlive hlocation ⊢
    refine ⟨hb, ?_⟩
    have hcovered : complete.any (fun scope => within b.relativePath scope) = true :=
      List.any_eq_true.mpr ⟨[], hwhole, within_nil _⟩
    by_contra hnot
    rw [not_or] at hnot
    exact hkept (by simp [hlive, hlocation, hnot.1, hnot.2, hscope, hcovered, hincomplete, hissues])

theorem finishObserved_completed {c c' : Catalog R} {op op' : Operation}
    {observation : ScanObservation R} {proven : Bool} (hop : op ∈ c.operations.rows)
    (h : c.finishObserved op observation proven = .ok c') (hop' : op' ∈ c'.operations.rows)
    (hid : op'.id = op.id) (hstate : op'.state = .completed) (hscope : op'.scope = [])
    (hwhole : [] ∈ observation.completeScopes) :
    (∃ g : Operation → Operation, c'.operations.rows = c.operations.rows.map g ∧ op' = g op ∧
      ∀ other, (g other).locationId = other.locationId) ∧
    ∀ a ∈ c'.assets.rows, a.live = true → a.locationId = op.locationId →
      a.verificationPending = true → a ∈ c.assets.rows ∧
        (a.availability = .missing ∨ a.lastOperationId = some op.id) := by
  obtain ⟨complete, incomplete, state, hcomplete, hops, hassets, hdone⟩ := finishObserved_eq_ok h
  have hrows : c'.operations.rows = c.operations.rows.map fun other =>
      if other.id = op.id then { other with state, complete, incomplete } else other := by
    simp [hops, finalizeOperation, updateOperation, Table.updateWhere]
  rw [hrows] at hop'
  obtain ⟨other, hother, rfl⟩ := List.mem_map.mp hop'
  obtain rfl : other = op := by
    refine Table.eq_of_key hother hop ?_
    split at hid
    · next hsame => exact hsame
    · exact hid
  rw [if_pos rfl] at hstate hscope
  obtain ⟨hincomplete, hissues, hsome⟩ := hdone hstate
  refine ⟨⟨_, hrows, rfl, fun other => ?_⟩, fun a ha hlive hlocation hpending => ?_⟩
  · split <;> rfl
  · rw [hassets, if_neg (by simpa using hsome)] at ha
    refine mem_reconcileAbsence ha hpending hlive hlocation hscope ?_ hincomplete hissues
    unfold completeScopes at hcomplete
    split at hcomplete
    · simp only [Result.bind_eq_ok, Result.pure_eq_ok] at hcomplete
      obtain ⟨scopes, hscopes, rfl⟩ := hcomplete
      rw [mapM_relativePath hscopes, mem_foldl_pushUnique]
      exact .inr (List.mem_filter.mpr ⟨hwhole, by rw [show other.scope = [] from hscope, within_nil]⟩)
    · cases hcomplete
      exact absurd rfl hsome

/-- A scan of a whole location that ends Completed leaves no live record of it awaiting its rehash,
and the location does not read provisional. -/
theorem completed_not_provisional {id : Uuid} {calls : List (Call R)} {c c' reader : Catalog R}
    {observation : ScanObservation R} {rootCheck : Location → Result FileIdentity}
    {opened : RelPath → Result Reading} {ids : RelPath → Uuid} {now : Nat} {op : Operation}
    (h : Run (fun c call c' => Step c call c' ∧ c.RehashesIn id call) .empty calls c)
    (hstep : Step c (.finishScan reader id observation rootCheck opened ids now) c')
    (hrehashes : c.RehashesIn id (.finishScan reader id observation rootCheck opened ids now))
    (hop : op ∈ c'.operations.rows) (hid : op.id = id) (hscope : op.scope = [])
    (hstate : op.state = .completed) (hwhole : [] ∈ observation.completeScopes) :
    (∀ a ∈ c'.assets.rows, a.live = true → a.locationId = op.locationId →
      a.verificationPending = false) ∧ c'.locationProvisional op.locationId = false := by
  have hc : Verifying id c := h.invariant (fun _ _ _ hc hstep => hstep.1.verifying hstep.2 hc) .empty
  have hfinish : ∃ c₂ op₂, Verifying id c₂ ∧ op₂ ∈ c₂.operations.rows ∧ op₂.id = id ∧
      op₂.state = .running ∧ ∃ proven, c₂.finishObserved op₂ observation proven = .ok c' := by
    unfold Step perform at hstep
    simp only [Result.map_eq_ok, finishScan, Result.bind_eq_ok, loadOperationRow_eq_ok,
      requireRunning_eq_ok, Result.require_eq_ok, decide_eq_true_eq] at hstep
    obtain ⟨committed, ⟨_, -, digests, hdigests, op₀, ⟨hop₀, hid₀⟩, _, hrunning, _, -, location,
      hlocation, h⟩, rfl⟩ := hstep
    subst hid₀
    split at h
    · next proven _ =>
      simp only [Result.bind_eq_ok, Result.pure_eq_ok, finishVerified, loadOperationRow_eq_ok] at h
      obtain ⟨⟨c₁, changed⟩, ⟨⟨c₂, changed'⟩, hbatch, op', ⟨hop', hid'⟩, c₃, hfinish, heq⟩, rfl⟩ := h
      cases heq
      obtain ⟨hverifying, op₂, hop₂, hlater⟩ := observed_verifying hc hop₀ hrunning
        (fun _ => hrehashes rfl) hlocation hdigests hbatch
      have hmarked : Settles op₀.id False c₂ (c₂.markLocationObserved location.id) := .of_eq rfl rfl
      obtain rfl : op₂ = op' := Table.eq_of_key hop₂ hop' (hlater.id.trans hid'.symm)
      exact ⟨_, op₂, hverifying.settles hmarked False.elim, hop', hlater.id,
        hlater.state.trans hrunning, proven, hfinish⟩
    · simp only [Result.bind_eq_ok, Result.pure_eq_ok, finishUnverified, loadOperationRow_eq_ok] at h
      obtain ⟨c₁, ⟨op', ⟨hop', hid'⟩, rfl⟩, rfl⟩ := h
      obtain ⟨other, -, rfl⟩ := mem_updateOperation.mp hop
      have hsame : other.id = op'.id := by
        rw [hid', ← hid]
        split <;> rfl
      rw [if_pos hsame] at hstate
      cases hobserved : observation.state <;> simp [hobserved, terminal] at hstate
  obtain ⟨c₂, op₂, hverifying, hop₂, hid₂, hrunning, proven, hfinish⟩ := hfinish
  obtain ⟨⟨g, hrows, rfl, hg⟩, hawaits⟩ := finishObserved_completed hop₂ hfinish hop
    (hid.trans hid₂.symm) hstate hscope hwhole
  have hclear : ∀ a ∈ c'.assets.rows, a.live = true → a.locationId = (g op₂).locationId →
      a.verificationPending = false := by
    intro a ha hlive hlocation
    rw [← Bool.not_eq_true]
    intro hpending
    obtain ⟨hbefore, hmissing | hlast⟩ := hawaits a ha hlive (hlocation.trans (hg op₂)) hpending
    · exact Bool.false_ne_true ((hverifying.missing a hbefore hmissing).symm.trans hpending)
    · exact Bool.false_ne_true ((hverifying.cleared op₂ hop₂ hid₂ hrunning a hbefore (hid₂ ▸ hlast)
        (hlocation.trans (hg op₂))).symm.trans hpending)
  refine ⟨hclear, ?_⟩
  obtain ⟨front, back, hsplit⟩ := List.append_of_mem hop₂
  have hlatest := hverifying.latest
  rw [hsplit] at hlatest
  have hback := (List.pairwise_cons.mp (List.pairwise_append.mp hlatest).2.1).1
  have hscan : c'.latestScan (g op₂).locationId = some (g op₂) := by
    have hcut : c'.operations.rows = front.map g ++ g op₂ :: back.map g := by
      rw [hrows, hsplit, List.map_append, List.map_cons]
    refine latestScan_eq_some hcut fun later hlater => ?_
    obtain ⟨other, hother, rfl⟩ := List.mem_map.mp hlater
    rw [hg, hg]
    exact hback other hother hrunning
  have hpending : c'.pendingInLocation (g op₂).locationId = false := by
    simp only [pendingInLocation, List.any_eq_false, Bool.and_eq_true, decide_eq_true_eq, not_and]
    intro a ha hlive hpending
    exact Bool.false_ne_true ((hclear a ha hlive.1 hlive.2).symm.trans hpending)
  simp [locationProvisional, hscan, hstate, hpending]

end Catalog

/-! ## A frame and its copy in another location -/

def rootOn (volume : String) : FileIdentity := ⟨volumeNamed volume, some "root"⟩

/-- What a scan of a whole location that holds one frame ends with. -/
def wholeLocation (locationId : Uuid) (volume : String) : ScanObservation plainReader where
  locationId
  rootIdentity := rootOn volume
  files := [⟨["a.fits".toList], frameOn volume, .fits, ()⟩]
  issues := []
  completeScopes := [[]]
  incompleteScopes := []
  state := .completed

/-- A scan of a whole location ends; a new frame gets the id. -/
def finishWhole (id locationId : Uuid) (volume : String) (assetId : Uuid) (c : Catalog plainReader) :
    Call plainReader :=
  .finishScan c id (wholeLocation locationId volume) (fun _ => .ok (rootOn volume))
    (fun _ => (frameSource volume).opened []) (fun _ => assetId) 1

/-- Two locations are scanned, and the frame each holds is hashed: they are copies. -/
def copiedFrames : List (Catalog plainReader → Call plainReader) :=
  [fun _ => .registerLocation 1 [] ⟨true, ["card".toList].map .normal⟩ (rootOn "card") (.ok ()),
    fun _ => .registerLocation 2 [] ⟨true, ["disk".toList].map .normal⟩ (rootOn "disk") (.ok ()),
    fun _ => .beginScan 3 1 none 0, finishWhole 3 1 "card" 5,
    fun _ => .beginScan 4 2 none 0, finishWhole 4 2 "disk" 6,
    fun c => .verifyDigest c 5 ⟨.ok (), fun _ => frameSource "card", .ok ()⟩ 2,
    fun c => .verifyDigest c 6 ⟨.ok (), fun _ => frameSource "disk", .ok ()⟩ 2]

def rescanned : List (Catalog plainReader → Call plainReader) :=
  copiedFrames ++ [fun _ => .beginScan 7 1 none 3]

def rescannedRetired : List (Catalog plainReader → Call plainReader) :=
  copiedFrames ++ [fun _ => .retireLocation 2 1 (.ok ()), fun _ => .beginScan 7 1 none 3,
    finishWhole 7 1 "card" 8]

namespace Catalog

instance (c reader : Catalog R) (id : Uuid) (files : List (ScanFile R)) :
    Decidable (c.Rehashes reader id files) := by
  unfold Rehashes
  infer_instance

/-- Scanned while its copy's location is active, the frame is marked and hashed. -/
theorem completed_not_provisional_of_copies : ∃ c c' : Catalog plainReader,
    Step c (finishWhole 7 1 "card" 8 c) c' ∧
      (∃ op ∈ c.operations.rows, op.id = 7 ∧ ∃ a ∈ c.assets.rows, c.awaits op a = true) ∧
        (∀ a ∈ c'.assets.rows, a.live = true → a.locationId = 1 → a.verificationPending = false) ∧
          c'.locationProvisional 1 = false := by
  have hfollow : ((Catalog.empty.follow rescanned).any fun made =>
      decide (made.2.Rehashes made.2 7
        (made.2.unappliedFiles 7 (wholeLocation 1 "card").files)) &&
      (made.2.operations.rows.any fun op => op.id = 7 &&
        made.2.assets.rows.any (made.2.awaits op)) &&
      (made.2.perform (finishWhole 7 1 "card" 8 made.2)).toOption.any fun c' =>
        c'.operations.rows.any fun op => op.id = 7 && op.scope = [] && op.state = .completed &&
          op.locationId = 1) = true := by decide
  obtain ⟨⟨made, c⟩, hmade, hany⟩ := (Option.any_eq_true _ _).mp hfollow
  simp only [Bool.and_eq_true, decide_eq_true_eq, List.any_eq_true, Option.any_eq_true,
    Result.toOption_eq_some] at hany
  obtain ⟨⟨hrehashes, op, hop, hid, a, ha, hawaits⟩, c', hstep, op', hop', ⟨⟨hid', hscope⟩, hstate⟩,
    hlocation⟩ := hany
  have hcalls : ∀ call ∈ rescanned, ∀ c, RehashesIn 7 c (call c) := by
    simp [rescanned, copiedFrames, finishWhole, RehashesIn]
  refine ⟨c, c', hstep, ⟨op, hop, hid, a, ha, hawaits⟩, ?_⟩
  have hdone := completed_not_provisional ((follow_run hcalls hmade).mono fun _ _ _ h => h.symm) hstep
    (fun _ => hrehashes) hop' hid' hscope hstate (List.mem_singleton_self _)
  rwa [hlocation] at hdone

/-- Once the copy's location is retired, the scan marks the frame and never hashes it: it completes
and the location stays provisional. -/
theorem retired_copy_stays_provisional : ∃ calls, ∃ c : Catalog plainReader,
    Run Step .empty calls c ∧ ∃ op ∈ c.operations.rows, op.id = 7 ∧ op.scope = [] ∧
      op.state = .completed ∧ c.locationProvisional op.locationId = true ∧
        ∃ a ∈ c.assets.rows, a.live = true ∧ a.locationId = op.locationId ∧
          a.lastOperationId = some op.id ∧ a.verificationPending = true := by
  have hfollow : ((Catalog.empty.follow rescannedRetired).any fun made =>
      made.2.operations.rows.any fun op => op.id = 7 && op.scope = [] && op.state = .completed &&
        made.2.locationProvisional op.locationId && made.2.assets.rows.any fun a => a.live &&
          a.locationId = op.locationId && a.lastOperationId = some op.id && a.verificationPending) =
      true := by decide
  obtain ⟨⟨made, c⟩, hmade, hany⟩ := (Option.any_eq_true _ _).mp hfollow
  obtain ⟨op, hop, hrow⟩ := List.any_eq_true.mp hany
  simp only [Bool.and_eq_true, decide_eq_true_eq, List.any_eq_true] at hrow
  obtain ⟨⟨⟨⟨hid, hscope⟩, hstate⟩, hprovisional⟩, a, ha, ⟨⟨hlive, hlocation⟩, hlast⟩, hpending⟩ := hrow
  have hrun := follow_run (P := fun _ _ => True) (fun _ _ _ => trivial) hmade
  exact ⟨made, c, hrun.mono fun _ _ _ h => h.2, op, hop, hid, hscope, hstate, hprovisional, a, ha,
    hlive, hlocation, hlast, hpending⟩

end Catalog

end PlateVault.Library
