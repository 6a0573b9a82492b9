import PlateVault.Library.ScanLaws

/-!
# Decisions and the bytes they were made on

The ghost of a run keeps the calls made and the catalogs passed, of which a call's reader may see
any. A record's digest was taken by a read of a file of its size and time; a decision's basis holds
the digest its call read; and the record of a decided frame keeps its basis digest through scans,
put-backs and remaps. So a decision that applies was made on the bytes of the current observation.
-/

namespace PlateVault.Library

variable {R : Reader}

/-! ## The ghost of a run -/

/-- A catalog with the calls that led to it and the catalogs they passed. -/
structure World (R : Reader) where
  catalog : Catalog R
  past : List (Catalog R)
  made : List (Call R)

def World.start : World R := ⟨.empty, [], []⟩

namespace Call

/-- The catalog a call's hashing read before its transaction. -/
def reader : Call R → Option (Catalog R)
  | .applyScanBatch reader _ _ _ _ _ _ => some reader
  | .finishScan reader _ _ _ _ _ _ => some reader
  | .setQuality reader _ _ _ _ => some reader
  | .verifyDigest reader _ _ _ => some reader
  | .verifyDuplicateCandidates reader _ _ _ _ _ => some reader
  | .reviewRemap reader _ _ _ _ _ _ => some reader
  | .applyRemap reader _ _ _ _ _ => some reader
  | _ => none

def Reads : Call R → Reading → Prop
  | .applyScanBatch _ _ _ _ opened _ _, reading => ∃ path, opened path = .ok reading
  | .finishScan _ _ _ _ opened _ _, reading => ∃ path, opened path = .ok reading
  | .setQuality _ _ _ sources _, reading => ∃ id path, (sources.file id).opened path = .ok reading
  | .verifyDigest _ _ sources _, reading => ∃ id path, (sources.file id).opened path = .ok reading
  | .verifyDuplicateCandidates _ _ _ sources _ _, reading =>
    ∃ asset id path, ((sources asset).file id).opened path = .ok reading
  | .reviewRemap _ _ _ _ _ _ files, reading =>
    ∃ id path, (files.candidate id).opened path = .ok reading
  | .applyRemap _ _ _ files _ _, reading =>
    ∃ id path, (files.candidate id).opened path = .ok reading
  | _, _ => False

/-- The files a scan call observes; the walk gives each path once. -/
def files : Call R → List (ScanFile R)
  | .applyScanBatch _ _ _ batch _ _ _ => batch.files
  | .finishScan _ _ observation _ _ _ _ => observation.files
  | _ => []

end Call

/-- A step of a library in use: a call other than an archive's record move, whose hashing read a
catalog of the run, over files the walk gave once each. -/
structure World.Step (w : World R) (call : Call R) (w' : World R) : Prop where
  step : Catalog.Step w.catalog call w'.catalog
  reader : ∀ reader ∈ call.reader, reader ∈ w.catalog :: w.past
  files : (call.files.map (·.relativePath)).Nodup
  stays : ∀ record now, call ≠ .moveAssetRecord record now
  past : w'.past = w.catalog :: w.past
  made : w'.made = call :: w.made

/-- A call of the run read a file of this size and nanosecond time, and this digest of its bytes. -/
def Taken (made : List (Call R)) (sizeBytes : Nat) (modifiedNs : Int) (sha256 : Text) : Prop :=
  ∃ call ∈ made, ∃ reading, call.Reads reading ∧ reading.of sizeBytes modifiedNs = true ∧
    reading.sha256 = sha256

/-- The review that recorded a decision read this digest of the asset's bytes. -/
def DecidedOn (made : List (Call R)) (decision : QualityDecision) (sha256 : Text) : Prop :=
  ∃ reader expected sources, .setQuality reader expected decision.quality sources decision.decidedAt
      ∈ made ∧
    ∃ path reading, (sources.file decision.assetId).opened path = .ok reading ∧
      reading.sha256 = sha256

namespace Catalog

def latestDecision (c : Catalog R) (id : Uuid) : Option QualityDecision :=
  c.decisions.reverse.find? (·.assetId = id)

def DecidedDigest (a : Asset R) (sha256 : Text) : Prop :=
  ∃ basis ∈ a.qualityBasis, basis.contentSha256 = some sha256

/-- A record carries the latest decision and the digest of its basis. -/
def Carries (a : Asset R) : Option QualityDecision → Prop
  | none => a.quality = .unreviewed
  | some decision => a.quality = decision.quality ∧ (decision.quality ≠ .unreviewed →
    ∃ decided ∈ decision.basis, ∃ sha, decided.contentSha256 = some sha ∧ DecidedDigest a sha)

/-- A reviewed remap item binds the original's digest to the candidate that was read. -/
structure ItemSound (made : List (Call R)) (item : RemapItem) : Prop where
  original : item.originalDigest.fingerprint.contentSha256 = some item.candidateSha256
  candidate : item.candidateFingerprint.contentSha256 = some item.candidateSha256
  taken : Taken made item.candidateFingerprint.sizeBytes item.candidateFingerprint.modifiedNs
    item.candidateSha256

/-- An observation's digest was taken of a file of its size and time. -/
def DigestTaken (made : List (Call R)) (seen : ObservationFingerprint) : Prop :=
  ∀ sha ∈ seen.contentSha256, Taken made seen.sizeBytes seen.modifiedNs sha

structure Sound (made : List (Call R)) (c : Catalog R) : Prop where
  carries : ∀ a ∈ c.assets.rows, Carries a (c.latestDecision a.id)
  known : ∀ decision ∈ c.decisions, ∃ a ∈ c.assets.rows, a.id = decision.assetId
  bases : ∀ decision ∈ c.decisions, ∀ basis ∈ decision.basis, ∃ sha,
    basis.contentSha256 = some sha ∧ DecidedOn made decision sha
  digests : ∀ a ∈ c.assets.rows, DigestTaken made a.fingerprint
  reviews : ∀ review ∈ c.remapReviews.rows,
    (review.items.map (·.assetId)).Nodup ∧ ∀ item ∈ review.items, ItemSound made item

theorem Taken.mono {made : List (Call R)} (call : Call R) {sizeBytes : Nat} {modifiedNs : Int}
    {sha256 : Text} (h : Taken made sizeBytes modifiedNs sha256) :
    Taken (call :: made) sizeBytes modifiedNs sha256 := by
  obtain ⟨found, hmem, hfound⟩ := h
  exact ⟨found, List.mem_cons_of_mem _ hmem, hfound⟩

theorem DecidedOn.mono {made : List (Call R)} (call : Call R) {decision : QualityDecision}
    {sha256 : Text} (h : DecidedOn made decision sha256) :
    DecidedOn (call :: made) decision sha256 := by
  obtain ⟨reader, expected, sources, hmem, hfound⟩ := h
  exact ⟨reader, expected, sources, List.mem_cons_of_mem _ hmem, hfound⟩

theorem Sound.mono {made : List (Call R)} {c : Catalog R} (call : Call R) (h : Sound made c) :
    Sound (call :: made) c where
  carries := h.carries
  known := h.known
  bases := fun decision hmem basis hbasis => by
    obtain ⟨sha, hsha, hdecided⟩ := h.bases decision hmem basis hbasis
    exact ⟨sha, hsha, DecidedOn.mono call hdecided⟩
  digests := fun a ha sha hsha => Taken.mono call (h.digests a ha sha hsha)
  reviews := fun review hmem => by
    obtain ⟨hnodup, hitems⟩ := h.reviews review hmem
    refine ⟨hnodup, fun item hitem => ?_⟩
    have hsound := hitems item hitem
    exact ⟨hsound.original, hsound.candidate, Taken.mono call hsound.taken⟩

theorem Sound.empty : Sound ([] : List (Call R)) .empty := by
  constructor <;> simp [Catalog.empty, Table.empty]

/-! ## Calls that keep every decision -/

/-- A record with the decision it had and the digest it was made on, and whose observation is as
it was unless its digest was taken. -/
structure SameDecision (made : List (Call R)) (a a' : Asset R) : Prop where
  quality : a'.quality = a.quality
  basis : ∀ sha, DecidedDigest a sha → DecidedDigest a' sha
  fingerprint : a'.fingerprint = a.fingerprint ∨ DigestTaken made a'.fingerprint

structure NotReviewed (made : List (Call R)) (a : Asset R) : Prop where
  quality : a.quality = .unreviewed
  fingerprint : DigestTaken made a.fingerprint

theorem SameDecision.refl (made : List (Call R)) (a : Asset R) : SameDecision made a a :=
  ⟨rfl, fun _ h => h, .inl rfl⟩

theorem SameDecision.of_eq {made : List (Call R)} {a a' : Asset R} (hquality : a'.quality = a.quality)
    (hbasis : a'.qualityBasis = a.qualityBasis) (hfingerprint : a'.fingerprint = a.fingerprint) :
    SameDecision made a a' := by
  refine ⟨hquality, fun sha h => ?_, .inl hfingerprint⟩
  unfold DecidedDigest
  rw [hbasis]
  exact h

theorem SameDecision.trans {made : List (Call R)} {a b d : Asset R} (h : SameDecision made a b)
    (h' : SameDecision made b d) : SameDecision made a d := by
  refine ⟨h'.quality.trans h.quality, fun sha hsha => h'.basis sha (h.basis sha hsha), ?_⟩
  rcases h'.fingerprint with heq | htaken
  · rw [heq]
    exact h.fingerprint
  · exact .inr htaken

theorem Carries.same {made : List (Call R)} {a a' : Asset R} {latest : Option QualityDecision}
    (h : Carries a latest) (hsame : SameDecision made a a') : Carries a' latest := by
  cases latest with
  | none => exact hsame.quality.trans h
  | some decision =>
    refine ⟨hsame.quality.trans h.1, fun hreviewed => ?_⟩
    obtain ⟨decided, hmem, sha, hsha, hbasis⟩ := h.2 hreviewed
    exact ⟨decided, hmem, sha, hsha, hsame.basis sha hbasis⟩

/-- A call that changes no decision, and no observation but to one whose digest was taken. -/
structure KeepsDecisions (made : List (Call R)) (c c' : Catalog R) : Prop where
  rows : Evolves (SameDecision made) (NotReviewed made) c c'
  decisions : c'.decisions = c.decisions
  remapReviews : ∀ review' ∈ c'.remapReviews.rows,
    ∃ review ∈ c.remapReviews.rows, review'.items = review.items

namespace KeepsDecisions

variable {made : List (Call R)} {c c' c'' : Catalog R}

theorem of_eq (hassets : c'.assets = c.assets) (hdecisions : c'.decisions = c.decisions)
    (hreviews : c'.remapReviews = c.remapReviews) : KeepsDecisions made c c' :=
  ⟨.of_eq (.refl made) hassets, hdecisions,
    fun review hmem => ⟨review, hreviews ▸ hmem, rfl⟩⟩

theorem refl (c : Catalog R) : KeepsDecisions made c c := of_eq rfl rfl rfl

theorem trans (h : KeepsDecisions made c c') (h' : KeepsDecisions made c' c'') :
    KeepsDecisions made c c'' where
  rows := by
    refine .trans (fun _ _ _ hab hbd => hab.trans hbd) (fun a b hnew hab => ?_) h.rows h'.rows
    refine ⟨hab.quality.trans hnew.quality, ?_⟩
    rcases hab.fingerprint with heq | htaken
    · rw [heq]
      exact hnew.fingerprint
    · exact htaken
  decisions := h'.decisions.trans h.decisions
  remapReviews := fun review'' hmem => by
    obtain ⟨review', hmem', heq'⟩ := h'.remapReviews review'' hmem
    obtain ⟨review, hmem, heq⟩ := h.remapReviews review' hmem'
    exact ⟨review, hmem, heq'.trans heq⟩

theorem after (h : KeepsDecisions made c' c'') (hassets : c'.assets = c.assets)
    (hdecisions : c'.decisions = c.decisions) (hreviews : c'.remapReviews = c.remapReviews) :
    KeepsDecisions made c c'' :=
  trans (of_eq hassets hdecisions hreviews) h

theorem of_tables (hrows : Evolves (SameDecision made) (NotReviewed made) c c')
    (htables : SameTables c c') : KeepsDecisions made c c' :=
  ⟨hrows, htables.decisions, fun review hmem => ⟨review, htables.remapReviews ▸ hmem, rfl⟩⟩

theorem updateAssets {p : Asset R → Bool} {f : Asset R → Asset R} {hid hplace}
    (h : ∀ a ∈ c.assets.rows, p a = true → SameDecision made a (f a)) :
    KeepsDecisions made c (c.updateAssets p f hid hplace) :=
  of_tables (.updateAssets h fun a _ _ => .refl made a) (.updateAssets c _ _ _ _)

theorem sound (h : KeepsDecisions made c c') (hc : Sound made c) : Sound made c' := by
  have hlatest : ∀ id, c'.latestDecision id = c.latestDecision id := by
    intro id
    simp only [latestDecision, h.decisions]
  constructor
  · intro a' ha'
    rw [hlatest]
    obtain ⟨a, ha, hid, hsame⟩ | ⟨hnew, hfresh⟩ := h.rows.row a' ha'
    · have hcarries := hc.carries a ha
      rw [← hid]
      exact hcarries.same hsame
    · have hnone : c.latestDecision a'.id = none := by
        refine List.find?_eq_none.mpr fun decision hmem hasset => ?_
        obtain ⟨a, ha, hid⟩ := hc.known decision (List.mem_reverse.mp hmem)
        exact hfresh a ha (hid.trans (of_decide_eq_true hasset))
      rw [hnone]
      exact hnew.quality
  · intro decision hmem
    rw [h.decisions] at hmem
    obtain ⟨a, ha, hid⟩ := hc.known decision hmem
    obtain ⟨a', ha', hid', -⟩ := h.rows.kept a ha
    exact ⟨a', ha', hid'.trans hid⟩
  · rw [h.decisions]
    exact hc.bases
  · intro a' ha'
    obtain ⟨a, ha, -, hsame⟩ | ⟨hnew, -⟩ := h.rows.row a' ha'
    · rcases hsame.fingerprint with heq | htaken
      · rw [heq]
        exact hc.digests a ha
      · exact htaken
    · exact hnew.fingerprint
  · intro review' hmem
    obtain ⟨review, hmem', heq⟩ := h.remapReviews review' hmem
    rw [heq]
    exact hc.reviews review hmem'

end KeepsDecisions

/-! ## Scans -/

variable {made : List (Call R)}

theorem armVerification_keeps (c : Catalog R) (op : Operation) :
    KeepsDecisions made c (c.armVerification op) := by
  unfold armVerification
  split
  · simp only
    refine .after (.updateAssets fun a _ _ => .of_eq rfl rfl rfl) ?_ ?_ ?_
    all_goals
      split
      · rfl
      · rfl
  · exact .refl c

theorem recordIssue_keeps {c c' : Catalog R} {op : Operation} {issue : ScanIssue}
    (h : c.recordIssue op issue = .ok c') : KeepsDecisions made c c' := by
  obtain ⟨scope, hrec⟩ := recordIssue_eq_ok h
  refine ⟨hrec.rows.mono (fun a _ a' hmarked => ?_) fun _ => False.elim, hrec.tables.decisions,
    fun review hmem => ⟨review, hrec.tables.remapReviews ▸ hmem, rfl⟩⟩
  unfold Marked at hmarked
  split at hmarked
  · exact hmarked ▸ .of_eq rfl rfl rfl
  · exact hmarked ▸ .refl made a

theorem recordIssues_keeps {c c' : Catalog R} {op : Operation} {issues : List ScanIssue}
    (h : Run (fun c issue c' => c.recordIssue op issue = .ok c') c issues c') :
    KeepsDecisions made c c' := by
  induction h with
  | nil c => exact .refl c
  | cons hstep _ ih => exact (recordIssue_keeps hstep).trans ih

theorem retained_taken {stored seen : ObservationFingerprint}
    (hmatches : fingerprintMatches stored seen = true) (hstored : DigestTaken made stored)
    (hseen : DigestTaken made seen) : DigestTaken made (retained stored seen) := by
  unfold retained
  split
  · intro sha hsha
    obtain ⟨hsize, htime, -⟩ := fingerprintMatches_stat hmatches
    simp only [hsize, htime]
    exact hseen sha hsha
  · exact hstored

theorem retained_hashed {stored seen : ObservationFingerprint}
    (hmatches : fingerprintMatches stored seen = true) (hhashed : seen.contentSha256.isSome)
    (hseen : DigestTaken made seen) : DigestTaken made (retained stored seen) := by
  obtain ⟨digest, hdigest⟩ := Option.isSome_iff_exists.mp hhashed
  obtain ⟨hsize, htime, hsame⟩ := fingerprintMatches_stat hmatches
  refine retained_taken hmatches (fun sha hsha => ?_) hseen
  rw [hsize, htime, hsame sha hsha digest hdigest]
  exact hseen digest hdigest

theorem refreshAsset_keeps {c c' : Catalog R} {op : Operation} {stored : Asset R}
    {file : ScanFile R} {seen : ObservationFingerprint} {observedAt : Nat} {change : Change}
    (hseen : DigestTaken made seen)
    (hretained : fingerprintMatches stored.fingerprint seen = true →
      DigestTaken made (retained stored.fingerprint seen))
    (h : c.refreshAsset op stored file seen observedAt = .ok (c', change)) :
    KeepsDecisions made c c' := by
  obtain ⟨hrows, htables⟩ := refreshAsset_evolves h
  refine .of_tables (hrows.mono (fun a _ a' hstep => ?_) fun _ => False.elim) htables
  unfold Refreshes at hstep
  split at hstep
  · refine ⟨hstep.quality, fun sha hsha => ?_, .inr ?_⟩
    · unfold DecidedDigest
      rw [hstep.qualityBasis]
      exact hsha
    · rcases hstep.fingerprint with heq | ⟨hmatches, heq⟩
      · exact heq ▸ hseen
      · exact heq ▸ hretained hmatches
  · exact hstep ▸ .refl made a

theorem markScopes_keeps (op : Operation) (variants : List RelPath) (c : Catalog R) :
    KeepsDecisions made c
      (variants.foldl (fun c variant => c.markScopeIncomplete op.id variant) c) := by
  induction variants generalizing c with
  | nil => exact .refl c
  | cons variant variants ih => exact .after (ih _) rfl rfl rfl

theorem Observes.keeps {c c' : Catalog R} {op : Operation} {location : Location}
    {file : ScanFile R} {digest : Option Text} {observedAt : Nat}
    (h : Observes c op location file digest observedAt c') (hc : Sound made c)
    (hdigest : DigestTaken made { file.fingerprint with contentSha256 := digest }) :
    KeepsDecisions made c c' := by
  cases h with
  | issues recorded _ _ => exact recordIssues_keeps (recordIssues_run recorded)
  | @refreshed row _ matched _ _ refresh =>
    refine refreshAsset_keeps hdigest (fun hmatches => ?_) refresh
    refine retained_taken hmatches ?_ hdigest
    rw [fromRow_fingerprint]
    exact hc.digests row matched.mem
  | putBack _ _ hashed refresh =>
    refine .after (refreshAsset_keeps hdigest (fun hmatches => ?_) refresh) rfl rfl rfl
    exact retained_hashed hmatches hashed hdigest
  | inserted _ insert =>
    obtain ⟨hrows, htables, -⟩ := insertAsset_eq_ok insert
    refine .trans ?_ (.of_tables (hrows.mono (fun a _ a' hsame => ?_) fun a hnew => ?_) htables)
    · exact markScopes_keeps _ _ _
    · rw [show a' = a from hsame]
      exact .refl made a
    · exact ⟨hnew.quality, hnew.fingerprint ▸ hdigest⟩

theorem decidedDigests_taken {reader : Catalog R} {op : Operation} {location : Location}
    {opened : RelPath → Result Reading} {files : List (ScanFile R)}
    (hnodup : (files.map (·.relativePath)).Nodup) {file : ScanFile R} (hfile : file ∈ files)
    {sha : Text}
    (h : (reader.decidedDigests op location opened files file.relativePath).bind Except.toOption =
      some sha) :
    ∃ reading, opened file.relativePath = .ok reading ∧
      reading.of file.fingerprint.sizeBytes file.fingerprint.modifiedNs = true ∧
      reading.sha256 = sha := by
  obtain ⟨result, hresult, hsha⟩ := Option.bind_eq_some_iff.mp h
  obtain ⟨hashed, hfound, rfl⟩ := Option.map_eq_some_iff.mp hresult
  have hpath : hashed.relativePath = file.relativePath := by
    simpa only [decide_eq_true_eq] using List.find?_some hfound
  have hmem := List.mem_reverse.mp (List.mem_of_find?_eq_some hfound)
  obtain rfl : hashed = file :=
    List.inj_on_of_nodup_map hnodup (List.mem_filter.mp hmem).1 hfile hpath
  rw [Result.toOption_eq_some] at hsha
  simp only [Result.bind_eq_ok, hashContained_eq_ok] at hsha
  obtain ⟨-, -, hread⟩ := hsha
  exact hread

/-- Every digest a batch is observed with was taken of its file. -/
def DigestsTaken (made : List (Call R)) (digests : DigestMap) (files : List (ScanFile R)) : Prop :=
  ∀ file ∈ files, DigestTaken made { file.fingerprint with
    contentSha256 := (digests file.relativePath).bind Except.toOption }

theorem digestsBefore_taken {reader : Catalog R} {operationId : Uuid}
    {opened : RelPath → Result Reading} {files : List (ScanFile R)} {digests : DigestMap}
    {call : Call R} (hreads : ∀ path reading, opened path = .ok reading → call.Reads reading)
    (hnodup : (files.map (·.relativePath)).Nodup)
    (h : reader.digestsBefore operationId opened files = .ok digests) :
    DigestsTaken (call :: made) digests files := by
  simp only [digestsBefore, Result.bind_eq_ok, Result.pure_eq_ok] at h
  obtain ⟨op, -, location, -, rfl⟩ := h
  intro file hfile sha hsha
  obtain ⟨reading, hopened, hof, hread⟩ := decidedDigests_taken hnodup hfile hsha
  exact ⟨call, List.mem_cons_self, reading, hreads _ _ hopened, hof, hread⟩

theorem observeBatch_sound {c c' : Catalog R} {op : Operation} {location : Location}
    {files : List (ScanFile R)} {issues : List ScanIssue} {digests : DigestMap}
    {ids : RelPath → Uuid} {observedAt : Nat} {changed : BatchChanges}
    (hdigests : DigestsTaken made digests files) (hc : Sound made c)
    (h : c.observeBatch op location files issues digests ids observedAt = .ok (c', changed)) :
    Sound made c' := by
  obtain ⟨middle, hfiles, hrecorded⟩ := observeBatch_runs h
  have hissues : KeepsDecisions made middle c' :=
    recordIssues_keeps (hrecorded.mono fun _ _ _ hstep => hstep.recorded)
  refine hissues.sound ?_
  clear h hrecorded hissues
  induction hfiles with
  | nil => exact hc
  | @cons _ file _ _ _ hstep _ ih =>
    refine ih (fun file hfile => hdigests file (List.mem_cons_of_mem _ hfile)) ?_
    exact (Observes.keeps hstep hc (hdigests file List.mem_cons_self)).sound hc

theorem downgrade_keeps (c : Catalog R) (op : Operation) (location : Location)
    (error : LibraryError) : KeepsDecisions made c (c.downgrade op location error) :=
  .of_eq rfl rfl rfl

theorem finishObserved_keeps {c c' : Catalog R} {op : Operation}
    {observation : ScanObservation R} {proven : Bool}
    (h : c.finishObserved op observation proven = .ok c') : KeepsDecisions made c c' := by
  simp only [finishObserved, Result.bind_eq_ok, Result.pure_eq_ok] at h
  obtain ⟨recorded, -, complete, -, rfl⟩ := h
  have hended : ∀ middle : Catalog R, ∀ ended, KeepsDecisions made middle
      (middle.endRehashRun op ended) := by
    intro middle ended
    unfold endRehashRun
    split
    · exact .of_eq rfl rfl rfl
    · exact .refl middle
  refine .trans (.trans ?_ (hended _ _)) (.of_eq rfl rfl rfl)
  split
  · exact .refl c
  · exact .updateAssets fun a _ _ => .of_eq rfl rfl rfl

theorem applyScanBatch_sound {c reader : Catalog R} {operationId : Uuid}
    {rootIdentity : FileIdentity} {batch : ScanBatch R} {opened : RelPath → Result Reading}
    {ids : RelPath → Uuid} {now : Nat} {committed : Committed R} {call : Call R}
    (hreads : ∀ path reading, opened path = .ok reading → call.Reads reading)
    (hnodup : (batch.files.map (·.relativePath)).Nodup) (hc : Sound (call :: made) c)
    (h : c.applyScanBatch reader operationId rootIdentity batch opened ids now = .ok committed) :
    Sound (call :: made) committed.catalog := by
  simp only [applyScanBatch, Result.bind_eq_ok] at h
  obtain ⟨digests, hdigests, op, -, -, -, location, -, h⟩ := h
  split at h
  · cases h
    exact (downgrade_keeps c op location _).sound hc
  · simp only [Result.bind_eq_ok, Result.pure_eq_ok] at h
    obtain ⟨⟨c₁, changed⟩, hbatch, rfl⟩ := h
    have hobserved := observeBatch_sound (digestsBefore_taken hreads hnodup hdigests)
      ((armVerification_keeps c op).sound hc) hbatch
    exact KeepsDecisions.sound (c := c₁) (.of_eq rfl rfl rfl) hobserved

theorem finishScan_sound {c reader : Catalog R} {operationId : Uuid}
    {observation : ScanObservation R} {rootCheck : Location → Result FileIdentity}
    {opened : RelPath → Result Reading} {ids : RelPath → Uuid} {now : Nat} {committed : Committed R}
    {call : Call R} (hreads : ∀ path reading, opened path = .ok reading → call.Reads reading)
    (hnodup : (observation.files.map (·.relativePath)).Nodup) (hc : Sound (call :: made) c)
    (h : c.finishScan reader operationId observation rootCheck opened ids now = .ok committed) :
    Sound (call :: made) committed.catalog := by
  simp only [finishScan, Result.bind_eq_ok] at h
  obtain ⟨-, -, digests, hdigests, op, -, -, -, -, -, location, -, h⟩ := h
  split at h
  · simp only [Result.bind_eq_ok, Result.pure_eq_ok, finishVerified] at h
    obtain ⟨⟨c₁, changed⟩, ⟨⟨c₂, changed'⟩, hbatch, op', -, c₃, hfinish, heq⟩, rfl⟩ := h
    cases heq
    have hunapplied : ((reader.unappliedFiles operationId observation.files).map
        (·.relativePath)).Nodup :=
      hnodup.sublist (List.Sublist.map _ List.filter_sublist)
    have hobserved := observeBatch_sound (digestsBefore_taken hreads hunapplied hdigests)
      ((armVerification_keeps c op).sound hc) hbatch
    refine (finishObserved_keeps hfinish).sound ?_
    exact KeepsDecisions.sound (c := c₂) (.of_eq rfl rfl rfl) hobserved
  · next error _ =>
    simp only [Result.bind_eq_ok, Result.pure_eq_ok, finishUnverified] at h
    obtain ⟨c₁, ⟨op', -, rfl⟩, rfl⟩ := h
    have hdown := (downgrade_keeps c op location error).sound hc
    exact KeepsDecisions.sound (c := c.downgrade op location error) (.of_eq rfl rfl rfl) hdown

end Catalog

end PlateVault.Library
