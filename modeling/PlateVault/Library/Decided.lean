import PlateVault.Library.Reviewed
import PlateVault.Library.Trashed

/-!
# Decisions along a run

The calls that decide, verify and remap keep the invariant of reviewed records, so in every catalog
of a run a decision that applies was made on the bytes its record's digest was taken of.
-/

namespace PlateVault.Library

variable {R : Reader}

namespace Catalog

variable {made : List (Call R)}

/-! ## Digests -/

def ReadOf (source : Source) (hashed : Hashed) : Prop :=
  ∃ path reading, source.opened path = .ok reading ∧
    reading.of hashed.fingerprint.sizeBytes hashed.fingerprint.modifiedNs = true ∧
    reading.sha256 = hashed.sha256

theorem currentDigest_read {source : Source} {relative : RelPath}
    {recorded : ObservationFingerprint} {sha : Text}
    (h : currentDigest source relative recorded = .ok sha) :
    ∃ reading, source.opened relative = .ok reading ∧
      reading.of recorded.sizeBytes recorded.modifiedNs = true ∧ reading.sha256 = sha := by
  simp only [currentDigest, Result.bind_eq_ok, Result.pure_eq_ok] at h
  obtain ⟨-, -, -, -, sha', hhash, -, -, -, -, -, -, rfl⟩ := h
  exact hashContained_eq_ok.mp hhash

theorem currentDigests_read {c : Catalog R} {sources : Sources} {ids : List Uuid}
    {digests : List Hashed} (h : c.currentDigests sources ids = .ok digests) {hashed : Hashed}
    (hmem : hashed ∈ digests) : ReadOf (sources.file hashed.assetId) hashed := by
  simp only [currentDigests, Result.bind_eq_ok, Result.pure_eq_ok] at h
  obtain ⟨-, -, all, hall, -, -, rfl⟩ := h
  obtain ⟨id, -, hone⟩ := Result.mem_mapM hall hmem
  simp only [hashCurrent, Result.bind_eq_ok, Result.pure_eq_ok] at hone
  obtain ⟨asset, -, _, -, relative, -, sha, hsha, rfl⟩ := hone
  obtain ⟨reading, hread⟩ := currentDigest_read hsha
  exact ⟨relative, reading, hread⟩

theorem ReadOf.taken {source : Source} {hashed : Hashed} {seen : ObservationFingerprint}
    {call : Call R} (h : ReadOf source hashed) (hcall : call ∈ made)
    (hreads : ∀ path reading, source.opened path = .ok reading → call.Reads reading)
    (hmatches : fingerprintMatches seen hashed.fingerprint = true) :
    Taken made seen.sizeBytes seen.modifiedNs hashed.sha256 := by
  obtain ⟨path, reading, hopened, hof, hsha⟩ := h
  obtain ⟨hsize, htime, -⟩ := fingerprintMatches_stat hmatches
  exact ⟨call, hcall, reading, hreads path reading hopened, by rwa [hsize, htime], hsha⟩

theorem bindDigest_keeps {c : Catalog R} {row : Asset R} (hrow : row ∈ c.assets.rows) {sha : Text}
    (htaken : Taken made row.fingerprint.sizeBytes row.fingerprint.modifiedNs sha)
    (verifiedAt : Nat) : KeepsDecisions made c (c.bindDigest row.id sha verifiedAt) := by
  refine .updateAssets fun a ha hid => ⟨rfl, fun _ h => h, .inr fun sha' hsha' => ?_⟩
  obtain rfl : a = row := Table.eq_of_key ha hrow (of_decide_eq_true hid)
  obtain rfl : sha = sha' := by simpa using hsha'
  exact htaken

theorem bindCandidates_keeps {verifiedAt : Nat} {call : Call R} (hcall : call ∈ made)
    {hashed : List Hashed} {c c' : Catalog R}
    (hread : ∀ one ∈ hashed, ∃ source, ReadOf source one ∧
      ∀ path reading, source.opened path = .ok reading → call.Reads reading)
    (h : c.bindCandidates verifiedAt hashed = .ok c') : KeepsDecisions made c c' := by
  induction hashed generalizing c with
  | nil =>
    cases h
    exact .refl _
  | cons one hashed ih =>
    simp only [bindCandidates, Result.bind_eq_ok] at h
    obtain ⟨asset, hload, hrest⟩ := h
    refine .trans ?_ (ih (fun one hone => hread one (List.mem_cons_of_mem _ hone)) hrest)
    split
    · next hbind =>
      obtain ⟨row, hrow, hid, rfl⟩ := loadAsset_eq_ok.mp hload
      obtain ⟨source, hone, hreads⟩ := hread one List.mem_cons_self
      simp only [Bool.and_eq_true, fromRow_fingerprint] at hbind
      rw [← hid]
      exact bindDigest_keeps hrow (hone.taken hcall hreads hbind.2) verifiedAt
    · exact .refl c

/-! ## Decisions -/

theorem latestDecision_append {c c' : Catalog R} {decision : QualityDecision}
    (h : c'.decisions = c.decisions ++ [decision]) (id : Uuid) :
    c'.latestDecision id =
      if decision.assetId = id then some decision else c.latestDecision id := by
  unfold latestDecision
  rw [h]
  by_cases hid : decision.assetId = id
  · simp [hid]
  · simp [hid]

structure Binds (made : List (Call R)) (quality : Quality) (sources : Sources) (assetId : Uuid)
    (bound : Bound) : Prop where
  taken : DigestTaken made bound.fingerprint
  reviewed : quality ≠ .unreviewed → bound.basis.isSome
  basis : ∀ basis ∈ bound.basis, ∃ sha, basis.contentSha256 = some sha ∧
    ∃ path reading, (sources.file assetId).opened path = .ok reading ∧ reading.sha256 = sha

theorem bindDecision_binds {c : Catalog R} {asset : Asset R} {quality : Quality}
    {digest : Option Hashed} {source : Source} {decidedAt : Nat} {bound : Bound} {sources : Sources}
    {call : Call R} (hcall : call ∈ made)
    (hreads : ∀ path reading, (sources.file asset.id).opened path = .ok reading →
      call.Reads reading)
    (hasset : DigestTaken made asset.fingerprint)
    (hdigest : ∀ hashed ∈ digest, ReadOf (sources.file asset.id) hashed)
    (h : c.bindDecision asset quality digest source decidedAt = .ok bound) :
    Binds made quality sources asset.id bound := by
  unfold bindDecision at h
  split at h
  · next hquality =>
    cases h
    exact ⟨hasset, fun hreviewed => absurd hquality hreviewed, by simp⟩
  · simp only [Result.bind_eq_ok, Result.orElse_eq_ok, Result.require_eq_ok,
      Result.pure_eq_ok] at h
    obtain ⟨hashed, hfound, _, hmatches, location, -, relative, -, _, -, rfl⟩ := h
    have hread := hdigest hashed hfound
    refine ⟨fun sha hsha => ?_, fun _ => rfl, fun basis hbasis => ?_⟩
    · obtain rfl : hashed.sha256 = sha := by simpa using hsha
      have htaken : Taken made asset.fingerprint.sizeBytes asset.fingerprint.modifiedNs
          hashed.sha256 := hread.taken hcall hreads hmatches
      exact htaken
    · obtain rfl := Option.some.inj hbasis
      obtain ⟨path, reading, hopened, -, hsha⟩ := hread
      exact ⟨hashed.sha256, rfl, path, reading, hopened, hsha⟩

structure Decides (quality : Quality) (bound : Bound) (new : Asset R) : Prop where
  quality : new.quality = quality
  qualityBasis : new.qualityBasis = bound.basis
  fingerprint : new.fingerprint = bound.fingerprint

theorem decideQuality_evolves {c c' : Catalog R} {asset : Asset R} {quality : Quality}
    {digest : Option Hashed} {source : Source} {decidedAt : Nat}
    (h : c.decideQuality asset quality digest source decidedAt = .ok c') :
    ∃ bound, c.bindDecision asset quality digest source decidedAt = .ok bound ∧
      Evolves (fun old new => if old.id = asset.id then Decides quality bound new else new = old)
        (fun _ => False) c c' ∧
      c'.decisions = c.decisions ++
        [⟨asset.id, quality, bound.basis, asset.decisionRevision + 1, decidedAt⟩] ∧
      c'.remapReviews = c.remapReviews := by
  simp only [decideQuality, Result.bind_eq_ok, Result.pure_eq_ok] at h
  obtain ⟨bound, hbound, rfl⟩ := h
  refine ⟨bound, hbound, .of_assets_eq (recordDecision_assets _ _)
    (.updateAssets (fun a _ ha => ?_) fun a _ ha => ?_), rfl, rfl⟩
  · rw [if_pos (of_decide_eq_true ha)]
    exact ⟨rfl, rfl, rfl⟩
  · rw [if_neg (of_decide_eq_false ha)]

theorem decideQuality_sound {c c' reader : Catalog R} {expected : List ExpectedAsset}
    {asset : Asset R} {quality : Quality} {digest : Option Hashed} {sources : Sources}
    {decidedAt : Nat} (hcall : .setQuality reader expected quality sources decidedAt ∈ made)
    (hasset : DigestTaken made asset.fingerprint)
    (hknown : ∃ row ∈ c.assets.rows, row.id = asset.id)
    (hdigest : ∀ hashed ∈ digest, ReadOf (sources.file asset.id) hashed) (hc : Sound made c)
    (h : c.decideQuality asset quality digest (sources.file asset.id) decidedAt = .ok c') :
    Sound made c' := by
  obtain ⟨bound, hbound, hrows, hdecisions, hreviews⟩ := decideQuality_evolves h
  have hbinds := bindDecision_binds hcall (fun path reading hopened => ⟨_, path, hopened⟩) hasset
    hdigest hbound
  constructor
  · intro a' ha'
    rw [latestDecision_append hdecisions]
    obtain ⟨a, ha, hid, hstep⟩ | ⟨hfalse, -⟩ := hrows.row a' ha'
    · rw [← hid]
      split at hstep
      · next hasset =>
        rw [if_pos hasset.symm]
        refine ⟨hstep.quality, fun hreviewed => ?_⟩
        obtain ⟨basis, hbasis⟩ := Option.isSome_iff_exists.mp (hbinds.reviewed hreviewed)
        obtain ⟨sha, hsha, -⟩ := hbinds.basis basis hbasis
        exact ⟨basis, hbasis, sha, hsha, basis, hstep.qualityBasis ▸ hbasis, hsha⟩
      · next hother =>
        rw [if_neg (fun heq => hother heq.symm), hstep]
        exact hc.carries a ha
    · exact hfalse.elim
  · intro decision hmem
    rw [hdecisions] at hmem
    have hrow : ∃ a ∈ c.assets.rows, a.id = decision.assetId := by
      rcases List.mem_append.mp hmem with hold | hnew
      · exact hc.known decision hold
      · rw [List.mem_singleton.mp hnew]
        exact hknown
    obtain ⟨a, ha, hid⟩ := hrow
    obtain ⟨a', ha', hid', -⟩ := hrows.kept a ha
    exact ⟨a', ha', hid'.trans hid⟩
  · intro decision hmem
    rw [hdecisions] at hmem
    rcases List.mem_append.mp hmem with hold | hnew
    · exact hc.bases decision hold
    · rw [List.mem_singleton.mp hnew]
      intro basis hbasis
      obtain ⟨sha, hsha, path, reading, hopened, hread⟩ := hbinds.basis basis hbasis
      exact ⟨sha, hsha, reader, expected, sources, hcall, path, reading, hopened, hread⟩
  · intro a' ha'
    obtain ⟨a, ha, -, hstep⟩ | ⟨hfalse, -⟩ := hrows.row a' ha'
    · split at hstep
      · exact hstep.fingerprint ▸ hbinds.taken
      · exact hstep ▸ hc.digests a ha
    · exact hfalse.elim
  · rw [hreviews]
    exact hc.reviews

theorem decideAll_sound {reader : Catalog R} {expected : List ExpectedAsset} {quality : Quality}
    {digests : List Hashed} {sources : Sources} {decidedAt : Nat}
    (hcall : .setQuality reader expected quality sources decidedAt ∈ made)
    (hdigests : ∀ hashed ∈ digests, ReadOf (sources.file hashed.assetId) hashed)
    {assets : List (Asset R)} (hassets : ∀ asset ∈ assets, DigestTaken made asset.fingerprint)
    {c c' : Catalog R} (hknown : ∀ asset ∈ assets, ∃ row ∈ c.assets.rows, row.id = asset.id)
    (hc : Sound made c)
    (h : c.decideAll quality digests sources decidedAt assets = .ok c') : Sound made c' := by
  induction assets generalizing c with
  | nil =>
    cases h
    exact hc
  | cons asset assets ih =>
    simp only [decideAll, Result.bind_eq_ok] at h
    obtain ⟨c₁, hone, hrest⟩ := h
    have hc₁ : Sound made c₁ := by
      refine decideQuality_sound hcall (hassets asset List.mem_cons_self)
        (hknown asset List.mem_cons_self) (fun hashed hfound => ?_) hc hone
      have hid : hashed.assetId = asset.id := by
        simpa only [decide_eq_true_eq] using List.find?_some hfound
      exact hid ▸ hdigests hashed (List.mem_of_find?_eq_some hfound)
    refine ih (fun other hmem => hassets other (List.mem_cons_of_mem _ hmem))
      (fun other hmem => ?_) hc₁ hrest
    obtain ⟨row, hrow, hid⟩ := hknown other (List.mem_cons_of_mem _ hmem)
    obtain ⟨row', hrow', hid', -⟩ := (decideQuality_leavesTrash hone).rows.kept row hrow
    exact ⟨row', hrow', hid'.trans hid⟩

theorem setQuality_sound {c c' reader : Catalog R} {expected : List ExpectedAsset}
    {quality : Quality} {sources : Sources} {now : Nat}
    (hcall : .setQuality reader expected quality sources now ∈ made) (hc : Sound made c)
    (h : c.setQuality reader expected quality sources now = .ok c') : Sound made c' := by
  simp only [setQuality, Result.bind_eq_ok] at h
  obtain ⟨digests, hdigests, assets, hassets, h⟩ := h
  have hrows : ∀ asset ∈ assets, ∃ row ∈ c.assets.rows, asset = c.fromRow row := by
    intro asset hasset
    simp only [checkExpectedAssets, Result.bind_eq_ok] at hassets
    obtain ⟨-, -, hassets⟩ := hassets
    obtain ⟨item, -, hitem⟩ := Result.mem_mapM hassets hasset
    simp only [checkExpectedAsset, Result.bind_eq_ok, Result.pure_eq_ok] at hitem
    obtain ⟨asset', hload, _, -, _, -, rfl⟩ := hitem
    obtain ⟨row, hrow, -, heq⟩ := loadAsset_eq_ok.mp hload
    exact ⟨row, hrow, heq⟩
  refine decideAll_sound hcall (fun hashed hmem => ?_) (fun asset hasset => ?_)
    (fun asset hasset => ?_) hc h
  · simp only [reviewDigests, Result.bind_eq_ok] at hdigests
    obtain ⟨_, -, _, -, hdigests⟩ := hdigests
    split at hdigests
    · cases hdigests
      cases hmem
    · exact currentDigests_read hdigests hmem
  · obtain ⟨row, hrow, rfl⟩ := hrows asset hasset
    rw [fromRow_fingerprint]
    exact hc.digests row hrow
  · obtain ⟨row, hrow, rfl⟩ := hrows asset hasset
    exact ⟨row, hrow, (fromRow_id c row).symm⟩

/-! ## Remaps -/

theorem originalDigest_sha {online : Bool} {original : Source} {relative : RelPath}
    {asset : Asset R} {digest : DigestEvidence}
    (h : originalDigest online original relative asset = .ok digest) :
    digest.fingerprint.contentSha256 = some digest.sha256 := by
  unfold originalDigest at h
  split at h
  · simp only [Result.bind_eq_ok, Result.orElse_eq_ok, Result.pure_eq_ok] at h
    obtain ⟨sha, hsha, rfl⟩ := h
    exact hsha
  · simp only [Result.bind_eq_ok, Result.pure_eq_ok] at h
    obtain ⟨sha, -, rfl⟩ := h
    rfl

theorem assessAsset_sound {volume : VolumeIdentity} {online : Bool} {original candidate : Source}
    {asset : Asset R} {item : RemapItem} {call : Call R} (hcall : call ∈ made)
    (hreads : ∀ path reading, candidate.opened path = .ok reading → call.Reads reading)
    (h : assessAsset volume online original candidate asset = .ok item) :
    item.assetId = asset.id ∧ ItemSound made item := by
  simp only [assessAsset, Result.bind_eq_ok, Result.require_eq_ok, decide_eq_true_eq,
    Result.pure_eq_ok] at h
  obtain ⟨relative, -, digest, hdigest, found, -, _, -, sha, hsha, _, hsame, rfl⟩ := h
  obtain ⟨reading, hopened, hof, hread⟩ := hashContained_eq_ok.mp hsha
  refine ⟨rfl, (originalDigest_sha hdigest).trans (congrArg some hsame.symm), rfl, ?_⟩
  exact ⟨call, hcall, reading, hreads relative reading hopened, hof, hread⟩

theorem assessRemap_sound {files : RemapFiles} {volume : VolumeIdentity} {assets : List (Asset R)}
    {call : Call R} (hcall : call ∈ made)
    (hreads : ∀ id path reading, (files.candidate id).opened path = .ok reading →
      call.Reads reading) (hnodup : (assets.map (·.id)).Nodup) :
    ((assessRemap files volume assets).1.map (·.assetId)).Nodup ∧
      ∀ item ∈ (assessRemap files volume assets).1, ItemSound made item := by
  unfold assessRemap
  split
  · simp
  · simp only [List.filterMap_map]
    induction assets with
    | nil => simp
    | cons asset assets ih =>
      obtain ⟨hfresh, hrest⟩ := List.nodup_cons.mp hnodup
      obtain ⟨hids, hitems⟩ := ih hrest
      cases hone : assessAsset volume files.online (files.original asset.id)
          (files.candidate asset.id) asset with
      | error e =>
        simp only [List.filterMap_cons, Function.comp_apply, hone, Except.toOption]
        exact ⟨hids, hitems⟩
      | ok item =>
        obtain ⟨hid, hsound⟩ := assessAsset_sound hcall (hreads asset.id) hone
        simp only [List.filterMap_cons, Function.comp_apply, hone, Except.toOption, List.map_cons,
          List.nodup_cons, List.forall_mem_cons]
        refine ⟨⟨fun hmem => hfresh ?_, hids⟩, hsound, hitems⟩
        obtain ⟨other, hother, heq⟩ := List.mem_map.mp hmem
        obtain ⟨asset', hasset', hassess⟩ := List.mem_filterMap.mp hother
        have hassessed := Result.toOption_eq_some.mp hassess
        obtain ⟨hid', -⟩ := assessAsset_sound hcall (hreads asset'.id) hassessed
        exact List.mem_map.mpr ⟨asset', hasset', hid'.symm.trans (heq.trans hid)⟩

theorem reviewRemap_sound {c c' reader : Catalog R} {id locationId : Uuid} {expectedRevision : Nat}
    {proposedRoot : PathBuf} {proposedIdentity : FileIdentity} {files : RemapFiles}
    (hcall : .reviewRemap reader id locationId expectedRevision proposedRoot proposedIdentity files
      ∈ made) (hc : Sound made c)
    (h : c.reviewRemap reader id locationId expectedRevision proposedRoot proposedIdentity files =
      .ok c') : Sound made c' := by
  simp only [reviewRemap, Result.bind_eq_ok, Result.orElse_eq_ok, Result.pure_eq_ok] at h
  obtain ⟨location, -, _, -, _, -, remapReviews, hinsert, rfl⟩ := h
  refine ⟨hc.carries, hc.known, hc.bases, hc.digests, fun review hmem => ?_⟩
  simp only at hmem
  rw [(Table.insert?_eq_some hinsert).2] at hmem
  rcases List.mem_append.mp hmem with hold | hnew
  · exact hc.reviews review hold
  · rw [List.mem_singleton.mp hnew]
    refine assessRemap_sound hcall (fun id path reading hopened => ⟨id, path, hopened⟩) ?_
    have hids : ((reader.locationAssets locationId).map (·.id)).Nodup := by
      simp only [locationAssets, List.map_map]
      have heq : ((fun a : Asset R => a.id) ∘ reader.fromRow) = Asset.id := by
        funext row
        exact fromRow_id reader row
      rw [heq]
      exact reader.assets.nodup.sublist (List.Sublist.map _ List.filter_sublist)
    exact hids

theorem reboundBasis_digest {asset : Asset R} {item : RemapItem} (hitem : ItemSound made item)
    (hmatches : fingerprintMatches asset.fingerprint item.originalDigest.fingerprint = true)
    {sha : Text} (h : DecidedDigest asset sha) :
    ∃ basis ∈ reboundBasis asset item, basis.contentSha256 = some sha := by
  obtain ⟨basis, hbasis, hsha⟩ := h
  refine ⟨_, Option.mem_map_of_mem _ hbasis, ?_⟩
  split
  · next hrebound =>
    obtain ⟨-, -, hsame⟩ := fingerprintMatches_stat hmatches
    rw [Bool.or_eq_true] at hrebound
    have hcandidate : sha = item.candidateSha256 := by
      rcases hrebound with horiginal | hcurrent
      · have heq := ObservationFingerprint.equivalent_sha horiginal
        rw [hsha, hitem.original] at heq
        exact Option.some.inj heq
      · have heq := ObservationFingerprint.equivalent_sha hcurrent
        exact hsame sha (heq.symm.trans hsha) _ hitem.original
    rw [hitem.candidate, hcandidate]
  · exact hsha

theorem remapRows_keeps {assets : List (Asset R)} {verifiedAt : Nat} {items : List RemapItem}
    (hitems : ∀ item ∈ items, ItemSound made item) (hnodup : (items.map (·.assetId)).Nodup)
    (hmatches : ∀ item ∈ items, ∀ asset ∈ assets, asset.id = item.assetId →
      fingerprintMatches asset.fingerprint item.originalDigest.fingerprint = true)
    {c c' : Catalog R} (hrows : ∀ item ∈ items, ∀ asset ∈ assets, asset.id = item.assetId →
      ∀ a ∈ c.assets.rows, a.id = asset.id → a.qualityBasis = asset.qualityBasis)
    (h : c.remapRows assets verifiedAt items = .ok c') : KeepsDecisions made c c' := by
  induction items generalizing c with
  | nil =>
    cases h
    exact .refl _
  | cons item items ih =>
    simp only [remapRows, Result.bind_eq_ok, Result.orElse_eq_ok] at h
    obtain ⟨asset, hfind, hrest⟩ := h
    obtain ⟨hfresh, hrestnodup⟩ := List.nodup_cons.mp hnodup
    have hasset := List.mem_of_find?_eq_some hfind
    have hid : asset.id = item.assetId := by
      simpa only [decide_eq_true_eq] using List.find?_some hfind
    have hsound := hitems item List.mem_cons_self
    have hone : KeepsDecisions made c (c.remapRow asset item verifiedAt) := by
      refine .updateAssets fun a ha hrow => ⟨rfl, fun sha hsha => ?_, .inr fun sha hsha => ?_⟩
      · have hbasis := hrows item List.mem_cons_self asset hasset hid a ha (of_decide_eq_true hrow)
        refine reboundBasis_digest hsound (hmatches item List.mem_cons_self asset hasset hid) ?_
        unfold DecidedDigest at hsha ⊢
        rwa [← hbasis]
      · obtain rfl : item.candidateSha256 = sha :=
          Option.some.inj (hsound.candidate.symm.trans hsha)
        exact hsound.taken
    refine hone.trans (ih (fun item hmem => hitems item (List.mem_cons_of_mem _ hmem)) hrestnodup
      (fun item hmem => hmatches item (List.mem_cons_of_mem _ hmem)) ?_ hrest)
    intro other hother asset' hasset' hid' a' ha' hrow'
    obtain ⟨a, ha, rfl⟩ := mem_updateAssets.mp ha'
    split
    · next heq =>
      -- the remapped record has the item's id, which no later item has
      rw [if_pos heq] at hrow'
      refine absurd (List.mem_map.mpr ⟨other, hother, ?_⟩) hfresh
      exact hid'.symm.trans (hrow'.symm.trans ((of_decide_eq_true heq).trans hid))
    · next hne =>
      rw [if_neg hne] at hrow'
      exact hrows other (List.mem_cons_of_mem _ hother) asset' hasset' hid' a ha hrow'

theorem requireSameAssets_matches {review : RemapReview} {assets : List (Asset R)}
    (hnodup : (review.items.map (·.assetId)).Nodup)
    (h : requireSameAssets review assets = .ok ()) :
    ∀ item ∈ review.items, ∀ asset ∈ assets, asset.id = item.assetId →
      fingerprintMatches asset.fingerprint item.originalDigest.fingerprint = true := by
  intro item hitem asset hasset hid
  simp only [requireSameAssets, Result.require_eq_ok, Bool.and_eq_true, List.all_eq_true] at h
  obtain ⟨found, hfound, hmatches⟩ := (Option.any_eq_true _ _).mp (h.2 asset hasset)
  have hfoundId : found.assetId = asset.id := by
    simpa only [decide_eq_true_eq] using List.find?_some hfound
  have hmem := List.mem_reverse.mp (List.mem_of_find?_eq_some hfound)
  obtain rfl : found = item :=
    List.inj_on_of_nodup_map hnodup hmem hitem (hfoundId.trans hid)
  exact hmatches

theorem settleReview_keeps (c : Catalog R) (id : Uuid) :
    KeepsDecisions made c (c.settleReview id) := by
  refine ⟨.of_eq (.refl made) rfl, rfl, fun review hmem => ?_⟩
  obtain ⟨old, hold, rfl⟩ := (Table.mem_updateWhere (f := fun row : RemapReview =>
    { row with applied := true }) fun _ => rfl).mp hmem
  refine ⟨old, hold, ?_⟩
  split <;> rfl

theorem applyRemap_keeps {c c' reader : Catalog R} {reviewId : Uuid} {expectedRevision : Nat}
    {files : RemapFiles} {overlap : Result Unit} {now : Nat} (hreader : Sound made reader)
    (h : c.applyRemap reader reviewId expectedRevision files overlap now = .ok c') :
    KeepsDecisions made c c' := by
  obtain ⟨review, hreview, -, -, hsame, h⟩ := applyRemap_eq_ok h
  obtain ⟨remapped, hrows, rfl⟩ := applyRemapRows_eq_ok h
  obtain ⟨hnodup, hitems⟩ := hreader.reviews review (Table.find?_eq_some.mp hreview).1
  have hremap : KeepsDecisions made (c.remapLocation review) remapped := by
    refine remapRows_keeps hitems hnodup (requireSameAssets_matches hnodup hsame) ?_ hrows
    rintro item - asset hasset - a ha hid
    obtain ⟨row, hrow, -, rfl⟩ := mem_locationAssets.mp hasset
    obtain rfl : a = row := Table.eq_of_key ha hrow (hid.trans (fromRow_id c row))
    exact (fromRow_qualityBasis c a).symm
  exact .trans (.after hremap rfl rfl rfl) (settleReview_keeps remapped review.id)

/-! ## Every call -/

theorem recordFrames_keeps {storageOperationId : Uuid} {trashedAt : Nat}
    {frames : List TrashedFrame} {c c' : Catalog R}
    (h : c.recordFrames storageOperationId trashedAt frames = .ok c') :
    KeepsDecisions made c c' := by
  induction frames generalizing c with
  | nil =>
    cases h
    exact .refl _
  | cons frame frames ih =>
    simp only [recordFrames, Result.bind_eq_ok] at h
    obtain ⟨c₁, hone, hrest⟩ := h
    refine .trans ?_ (ih hrest)
    simp only [recordFrame, Result.bind_eq_ok] at hone
    obtain ⟨asset, -, hone⟩ := hone
    split at hone
    · split at hone
      · cases hone
        exact .refl _
      · cases hone
    · simp only [Result.bind_eq_ok, Result.pure_eq_ok] at hone
      obtain ⟨_, -, _, -, _, -, rfl⟩ := hone
      have hmarked : KeepsDecisions made c (c.markTrashed asset.id) :=
        .updateAssets fun a _ _ => .of_eq rfl rfl rfl
      exact .trans hmarked (.of_eq rfl rfl rfl)

theorem correctAssets_keeps {corrections : List CorrectionInput} {ids : List Uuid}
    {c c' : Catalog R} {changed changed' : List Uuid}
    (h : c.correctAssets corrections changed ids = .ok (c', changed')) :
    KeepsDecisions made c c' := by
  induction ids generalizing c changed with
  | nil =>
    cases h
    exact .refl _
  | cons id ids ih =>
    simp only [correctAssets, correctAsset, Result.bind_eq_ok, Result.pure_eq_ok] at h
    obtain ⟨⟨c₁, moved⟩, ⟨asset, -, effective, -, heq⟩, hrest⟩ := h
    cases heq
    refine .trans ?_ (ih hrest)
    refine .after (.updateAssets fun a _ _ => ?_) rfl rfl rfl
    exact .of_eq rfl rfl rfl

theorem verifyDigest_keeps {c c' reader : Catalog R} {assetId : Uuid} {sources : Sources}
    {now : Nat} (hcall : .verifyDigest reader assetId sources now ∈ made)
    (h : c.verifyDigest reader assetId sources now = .ok c') : KeepsDecisions made c c' := by
  simp only [verifyDigest, Result.bind_eq_ok, Result.orElse_eq_ok, Result.require_eq_ok,
    Result.pure_eq_ok] at h
  obtain ⟨digests, hdigests, asset, hload, hashed, hfound, _, hmatches, rfl⟩ := h
  obtain ⟨row, hrow, rfl, rfl⟩ := loadAsset_eq_ok.mp hload
  rw [fromRow_fingerprint] at hmatches
  have hread := currentDigests_read hdigests (List.mem_of_find?_eq_some hfound)
  refine bindDigest_keeps hrow (hread.taken hcall (fun path reading hopened => ?_) hmatches) now
  exact ⟨_, path, hopened⟩

theorem verifyDuplicateCandidates_keeps {c c' reader : Catalog R} {operationId : Uuid}
    {assets : List Uuid} {sources : Uuid → Sources} {completed now : Nat}
    (hcall : .verifyDuplicateCandidates reader operationId assets sources completed now ∈ made)
    (h : c.verifyDuplicateCandidates reader operationId assets sources completed now = .ok c') :
    KeepsDecisions made c c' := by
  simp only [verifyDuplicateCandidates, Result.bind_eq_ok] at h
  obtain ⟨hashed, hhashed, op, -, _, -, h⟩ := h
  refine bindCandidates_keeps hcall (fun one hone => ?_) h
  obtain ⟨found, hfound, rfl⟩ := List.mem_filterMap.mp hone
  obtain ⟨id, -, hcandidate⟩ := Result.mem_mapM hhashed (List.mem_of_mem_take hfound)
  simp only [hashCandidate, Result.bind_eq_ok] at hcandidate
  obtain ⟨asset, -, hcandidate⟩ := hcandidate
  split at hcandidate
  · simp only [Result.bind_eq_ok] at hcandidate
    obtain ⟨_, -, relative, -, hcandidate⟩ := hcandidate
    split at hcandidate
    · next sha hsha =>
      simp only [Result.bind_eq_ok] at hsha
      obtain ⟨_, -, hsha⟩ := hsha
      obtain ⟨reading, hopened, hof, hread⟩ := currentDigest_read hsha
      cases hcandidate
      refine ⟨(sources id).file id, ⟨relative, reading, hopened, hof, hread⟩, ?_⟩
      exact fun path reading hopened => ⟨id, id, path, hopened⟩
    · cases hcandidate
  · cases hcandidate

theorem Step.sound {c c' : Catalog R} {call : Call R} (h : Step c call c')
    (hreader : ∀ reader ∈ call.reader, Sound (call :: made) reader)
    (hfiles : (call.files.map (·.relativePath)).Nodup)
    (hstays : ∀ record now, call ≠ .moveAssetRecord record now) (hc : Sound (call :: made) c) :
    Sound (call :: made) c' := by
  have hcall : call ∈ call :: made := List.mem_cons_self
  unfold Step perform at h
  cases call with
  | registerLocation id name path identity overlap =>
    simp only [registerLocation, Result.bind_eq_ok, Result.orElse_eq_ok, Result.pure_eq_ok] at h
    obtain ⟨_, _, locations, hinsert, rfl⟩ := h
    exact KeepsDecisions.sound (c := c) (.of_eq rfl rfl rfl) hc
  | reselectLocation id expectedRevision path identity overlap =>
    simp only [reselectLocation, Result.bind_eq_ok, Result.pure_eq_ok] at h
    obtain ⟨current, _, _, _, _, _, _, _, _, _, rfl⟩ := h
    exact KeepsDecisions.sound (c := c) (.of_eq rfl rfl rfl) hc
  | markLocationUnavailable id availability reason =>
    simp only [markLocationUnavailable, Result.bind_eq_ok] at h
    obtain ⟨_, _, current, _, _, _, h⟩ := h
    split at h
    · simp only [Result.bind_eq_ok, Result.pure_eq_ok] at h
      obtain ⟨op, _, rfl⟩ := h
      exact KeepsDecisions.sound (c := c) (.of_eq rfl rfl rfl) hc
    · cases h
      exact KeepsDecisions.sound (c := c) (.of_eq rfl rfl rfl) hc
  | beginScan id locationId scope now =>
    simp only [beginScan, Result.bind_eq_ok, Result.orElse_eq_ok, Result.pure_eq_ok] at h
    obtain ⟨location, _, _, _, _, _, _, _, operations, _, rfl⟩ := h
    exact KeepsDecisions.sound (c := c) (.of_eq rfl rfl rfl) hc
  | applyScanBatch reader operationId rootIdentity batch opened ids now =>
    simp only [Result.map_eq_ok] at h
    obtain ⟨committed, h, rfl⟩ := h
    exact applyScanBatch_sound (fun path reading hopened => ⟨path, hopened⟩) hfiles hc h
  | finishScan reader operationId observation rootCheck opened ids now =>
    simp only [Result.map_eq_ok] at h
    obtain ⟨committed, h, rfl⟩ := h
    exact finishScan_sound (fun path reading hopened => ⟨path, hopened⟩) hfiles hc h
  | abortScan operationId state reason =>
    simp only [abortScan, Result.bind_eq_ok, Result.pure_eq_ok] at h
    obtain ⟨_, _, op, _, _, _, location, _, rfl⟩ := h
    exact KeepsDecisions.sound (c := c) (.of_eq rfl rfl rfl) hc
  | setQuality reader expected quality sources now => exact setQuality_sound hcall hc h
  | verifyDigest reader assetId sources now => exact (verifyDigest_keeps hcall h).sound hc
  | verifyDuplicateCandidates reader operationId assets sources completed now =>
    exact (verifyDuplicateCandidates_keeps hcall h).sound hc
  | recordCopyLink left right =>
    obtain rfl := Except.ok.inj h
    refine KeepsDecisions.sound ?_ hc
    unfold recordCopyLink
    simp only
    split
    · exact .refl c
    · exact .of_eq rfl rfl rfl
  | correct expected corrections =>
    simp only [correctInTxn, Result.map_eq_ok, Result.bind_eq_ok] at h
    obtain ⟨⟨c₁, changed⟩, ⟨assets, _, h⟩, rfl⟩ := h
    exact (correctAssets_keeps h).sound hc
  | recordTrashed storageOperationId frames now =>
    simp only [recordTrashed, Result.bind_eq_ok] at h
    obtain ⟨_, _, h⟩ := h
    split at h
    · cases h
    · exact (recordFrames_keeps h).sound hc
  | reviewRemap reader id locationId expectedRevision proposedRoot proposedIdentity files =>
    exact reviewRemap_sound hcall hc h
  | applyRemap reader reviewId expectedRevision files overlap now =>
    exact (applyRemap_keeps (hreader reader rfl) h).sound hc
  | moveAssetRecord record now => exact absurd rfl (hstays record now)
  | retireLocation locationId expectedRevision review =>
    simp only [retireLocation, Result.bind_eq_ok, Result.pure_eq_ok] at h
    obtain ⟨location, _, _, _, _, _, _, _, _, _, rfl⟩ := h
    exact KeepsDecisions.sound (c := c) (.of_eq rfl rfl rfl) hc

end Catalog

theorem World.Step.sound {w w' : World R} {call : Call R} (h : w.Step call w')
    (hw : ∀ c ∈ w.catalog :: w.past, Catalog.Sound w.made c) :
    ∀ c ∈ w'.catalog :: w'.past, Catalog.Sound w'.made c := by
  rw [h.past, h.made]
  have hpast : ∀ c ∈ w.catalog :: w.past, Catalog.Sound (call :: w.made) c :=
    fun c hmem => (hw c hmem).mono call
  refine List.forall_mem_cons.mpr ⟨?_, hpast⟩
  exact h.step.sound (fun reader hreader => hpast reader (h.reader reader hreader)) h.files h.stays
    (hpast w.catalog List.mem_cons_self)

theorem World.sound_of_run {calls : List (Call R)} {w : World R}
    (h : Run World.Step .start calls w) : Catalog.Sound w.made w.catalog := by
  refine Run.invariant (I := fun w => ∀ c ∈ w.catalog :: w.past, Catalog.Sound w.made c)
    (fun _ _ _ hw hstep => World.Step.sound hstep hw) h ?_ w.catalog List.mem_cons_self
  simpa [World.start] using Catalog.Sound.empty

namespace Catalog

theorem Sound.applies {made : List (Call R)} {c : Catalog R} (hc : Sound made c) {a : Asset R}
    (ha : a ∈ c.assets.rows)
    (happlies : a.applicableQuality = .usable ∨ a.applicableQuality = .unusable) :
    ∃ decision sha, c.latestDecision a.id = some decision ∧ a.quality = decision.quality ∧
      a.fingerprint.contentSha256 = some sha ∧ DecidedOn made decision sha ∧
      Taken made a.fingerprint.sizeBytes a.fingerprint.modifiedNs sha := by
  obtain ⟨hreviewed, basis, hbasis, -, hequivalent⟩ := Asset.applicableQuality_basis happlies
  have hcarries := hc.carries a ha
  cases hlatest : c.latestDecision a.id with
  | none =>
    rw [hlatest] at hcarries
    exact absurd hcarries hreviewed
  | some decision =>
    rw [hlatest] at hcarries
    obtain ⟨decided, hdecided, sha, hsha, basis', hbasis', hsha'⟩ :=
      hcarries.2 (hcarries.1 ▸ hreviewed)
    obtain rfl : basis = basis' := Option.some.inj (hbasis.symm.trans hbasis')
    have hfingerprint : a.fingerprint.contentSha256 = some sha :=
      (ObservationFingerprint.equivalent_sha hequivalent).symm.trans hsha'
    have hmem : decision ∈ c.decisions :=
      List.mem_reverse.mp (List.mem_of_find?_eq_some hlatest)
    obtain ⟨sha₀, hsha₀, hmade⟩ := hc.bases decision hmem decided hdecided
    obtain rfl : sha₀ = sha := Option.some.inj (hsha₀.symm.trans hsha)
    exact ⟨decision, sha₀, rfl, hcarries.1, hfingerprint, hmade, hc.digests a ha sha₀ hfingerprint⟩

/-! ## Decided frames observed without a digest -/

def SameObservation (a a' : Asset R) : Prop :=
  a'.fingerprint = a.fingerprint ∧ a'.format = a.format ∧ a'.observed = a.observed

def IssueAt (c : Catalog R) (op : Operation) (path : RelPath) : Prop :=
  ∃ row ∈ c.issues, row.operationId = op.id ∧ row.issue.relativePath = path

theorem recordIssue_observation {c c' : Catalog R} {op : Operation} {issue : ScanIssue}
    (h : c.recordIssue op issue = .ok c') :
    Evolves SameObservation (fun _ => False) c c' ∧ c'.IssueAt op issue.relativePath := by
  obtain ⟨scope, hrec⟩ := recordIssue_eq_ok h
  refine ⟨hrec.rows.mono (fun a _ a' hmarked => ?_) fun _ => id, { operationId := op.id, issue },
    ?_, rfl, rfl⟩
  · unfold Marked at hmarked
    split at hmarked
    · exact hmarked ▸ ⟨rfl, rfl, rfl⟩
    · exact hmarked ▸ ⟨rfl, rfl, rfl⟩
  · rw [hrec.issues]
    exact List.mem_append_right _ (List.mem_singleton_self _)

/-- A rehash the run already completed stands for the unchanged file. -/
def Kept (run : Option Nat) (file : ScanFile R) (stored : Asset R) : Bool :=
  stored.availability ≠ .trashed && rehashKept stored run && unchangedObservation stored file

theorem fingerprintMatches_undigested {stored seen : ObservationFingerprint}
    (h : fingerprintMatches stored seen = true) :
    fingerprintMatches stored { seen with contentSha256 := none } = true := by
  unfold fingerprintMatches at h ⊢
  cases hstored : stored.contentSha256 with
  | none => cases hseen : seen.contentSha256 <;>
      simpa [ObservationFingerprint.equivalent, hstored, hseen] using h
  | some sha =>
    cases hseen : seen.contentSha256 with
    | none => simpa [ObservationFingerprint.equivalent, hstored, hseen] using h
    | some sha' =>
      simp only [ObservationFingerprint.equivalent, hstored, hseen, Option.isNone_some,
        Bool.false_and, Bool.false_eq_true, if_false, Bool.and_eq_true] at h
      simp [ObservationFingerprint.equivalent, hstored, h]

theorem refreshAsset_kept {c c' : Catalog R} {op : Operation} {run : Option Nat}
    {file : ScanFile R} {stored : Asset R} {observedAt : Nat} {change : Change}
    (hkept : rehashKept stored run = true) (hunchanged : unchangedObservation stored file = true)
    (hstored : ∀ a ∈ c.assets.rows, a.id = stored.id → a.fingerprint = stored.fingerprint)
    (h : c.refreshAsset op stored file { file.fingerprint with contentSha256 := none } observedAt =
      .ok (c', change)) : Evolves SameObservation (fun _ => False) c c' := by
  simp only [unchangedObservation, Bool.and_eq_true, decide_eq_true_eq] at hunchanged
  obtain ⟨⟨hmatches, hformat⟩, hmetadata⟩ := hunchanged
  have hsame : (fingerprintMatches stored.fingerprint { file.fingerprint with contentSha256 := none }
      && stored.format = file.format && stored.observed = file.metadata) = true := by
    simp [fingerprintMatches_undigested hmatches, hformat, hmetadata]
  unfold refreshAsset at h
  rw [if_pos hsame] at h
  simp only [Result.bind_eq_ok, Result.pure_eq_ok, Prod.mk.injEq, clearVerified,
    Option.isSome_none, Bool.false_eq_true, if_false] at h
  obtain ⟨c₁, hmove, rfl, -⟩ := h
  refine (moveAsset_evolves hmove).mono (fun a ha a' hstep => ?_) fun _ => id
  unfold Changes at hstep
  split at hstep
  · next hid =>
    rw [hstep]
    refine ⟨?_, rfl, rfl⟩
    simp only [rehashKept, Bool.and_eq_true, Option.isSome_iff_ne_none] at hkept
    rw [hstored a ha hid, retained, if_neg (by simpa using hkept.1.2)]
  · exact hstep ▸ ⟨rfl, rfl, rfl⟩

theorem observeOne_undigested {c c' : Catalog R} {op : Operation} {location : Location}
    {digests : DigestMap} {run : Option Nat} {ids : RelPath → Uuid} {observedAt : Nat}
    {file : ScanFile R} {change : Change} {stored : Asset R}
    (hfound : c.findAsset location file.relativePath
      { file.fingerprint with contentSha256 := none } op.id = .existing stored)
    (hdecided : stored.quality ≠ .unreviewed ∨ stored.availability = .trashed)
    (hdigest : (digests file.relativePath).bind Except.toOption = none)
    (h : c.observeOne op location digests run ids observedAt file = .ok (c', change)) :
    Evolves SameObservation (fun _ => False) c c' ∧
      (Kept run file stored = true ∨ c'.IssueAt op file.relativePath) := by
  have hissue : ∀ {reason : String} {availability : Availability} {c'' : Catalog R},
      c.recordIssue op { relativePath := file.relativePath, reason, availability } = .ok c'' →
      Evolves SameObservation (fun _ => False) c c'' ∧
        (Kept run file stored = true ∨ c''.IssueAt op file.relativePath) := by
    intro reason availability c'' hrecord
    obtain ⟨hrows, hat⟩ := recordIssue_observation hrecord
    exact ⟨hrows, .inr hat⟩
  unfold observeOne at h
  split at h
  · simp only [Result.bind_eq_ok, Result.pure_eq_ok, Prod.mk.injEq] at h
    obtain ⟨c₁, hrecord, rfl, -⟩ := h
    exact hissue hrecord
  · simp only [observeFile, hdigest, Result.bind_eq_ok] at h
    obtain ⟨_, -, _, -, h⟩ := h
    split at h
    · simp only [Result.bind_eq_ok, Result.pure_eq_ok, Prod.mk.injEq] at h
      obtain ⟨c₁, hrecord, rfl, -⟩ := h
      exact hissue hrecord
    · rw [hfound] at h
      simp only at h
      split at h
      · simp only [observeTrashed, Option.isNone_none, if_true, Result.bind_eq_ok,
          Result.pure_eq_ok, Prod.mk.injEq] at h
        obtain ⟨c₁, hrecord, rfl, -⟩ := h
        exact hissue hrecord
      · next hlive =>
        split at h
        · next hkept =>
          simp only [Option.isNone_none, Bool.true_and, Bool.and_eq_true] at hkept
          obtain ⟨row, hmatched, rfl⟩ := findAsset_existing hfound
          refine ⟨refreshAsset_kept hkept.1 hkept.2 (fun a ha hid => ?_) h, .inl ?_⟩
          · obtain rfl : a = row := Table.eq_of_key ha hmatched.mem (hid.trans (fromRow_id c row))
            exact (fromRow_fingerprint c a).symm
          · simp [Kept, hlive, hkept]
        · have hreviewed := hdecided.resolve_right hlive
          rw [if_pos (by simp [hreviewed])] at h
          simp only [Result.bind_eq_ok, Result.pure_eq_ok, Prod.mk.injEq] at h
          obtain ⟨c₁, hrecord, rfl, -⟩ := h
          exact hissue hrecord

/-- In every catalog of a run, a decision that applies was made on the digest stored with its
record's observation, which was taken of a file of that observation's size and nanosecond time; and
a decided frame observed without a digest keeps its observation, with an issue at its path unless a
rehash of the run stands for it. -/
theorem decision_applies_to_its_bytes {calls : List (Call R)} {w : World R}
    (h : Run World.Step .start calls w) :
    (∀ a ∈ w.catalog.assets.rows,
      a.applicableQuality = .usable ∨ a.applicableQuality = .unusable →
      ∃ decision sha, w.catalog.latestDecision a.id = some decision ∧
        a.quality = decision.quality ∧ a.fingerprint.contentSha256 = some sha ∧
        DecidedOn w.made decision sha ∧
        Taken w.made a.fingerprint.sizeBytes a.fingerprint.modifiedNs sha) ∧
    ∀ (c c' : Catalog R) (op : Operation) (location : Location) (digests : DigestMap)
      (run : Option Nat) (ids : RelPath → Uuid) (observedAt : Nat) (file : ScanFile R)
      (change : Change) (stored : Asset R),
      c.observeOne op location digests run ids observedAt file = .ok (c', change) →
      c.findAsset location file.relativePath { file.fingerprint with contentSha256 := none } op.id =
        .existing stored →
      (stored.quality ≠ .unreviewed ∨ stored.availability = .trashed) →
      (digests file.relativePath).bind Except.toOption = none →
      Evolves SameObservation (fun _ => False) c c' ∧
        (Kept run file stored = true ∨ c'.IssueAt op file.relativePath) := by
  refine ⟨fun a ha happlies => (World.sound_of_run h).applies ha happlies, ?_⟩
  intro c c' op location digests run ids observedAt file change stored hobserve hfound hdecided
    hdigest
  exact observeOne_undigested hfound hdecided hdigest hobserve

end Catalog

/-! ## A decided frame -/

/-- A call whose hashing reads the catalog it is made on. -/
structure Call.Current (c : Catalog R) (call : Call R) : Prop where
  reader : ∀ reader ∈ call.reader, reader = c
  files : (call.files.map (·.relativePath)).Nodup
  stays : ∀ record now, call ≠ .moveAssetRecord record now

theorem World.run_of_current {calls : List (Call R)} {c c' : Catalog R}
    (h : Run (fun c call c' => call.Current c ∧ Catalog.Step c call c') c calls c')
    (past : List (Catalog R)) (made : List (Call R)) :
    ∃ w : World R, w.catalog = c' ∧ Run World.Step ⟨c, past, made⟩ calls w := by
  induction h generalizing past made with
  | nil c => exact ⟨⟨c, past, made⟩, rfl, .nil _⟩
  | @cons c call c₁ _ _ hstep _ ih =>
    obtain ⟨w, hw, hrun⟩ := ih (c :: past) (call :: made)
    refine ⟨w, hw, .cons ⟨hstep.2, fun reader hreader => ?_, hstep.1.files, hstep.1.stays, rfl, rfl⟩
      hrun⟩
    exact hstep.1.reader reader hreader ▸ List.mem_cons_self

/-- The frame of the scanned location is reviewed as Usable; the probes and the last handle are of
the recorded file, and `opened` is what its hash read. -/
def reviewedFrame (opened : Reading) : List (Catalog plainReader → Call plainReader) :=
  catalogued.dropLast ++ [fun c => .setQuality c [⟨3, 0, frameOn "card"⟩] .usable
    ⟨.ok (), fun _ => { frameSource "card" with opened := fun _ => .ok opened }, .ok ()⟩ 3]

def frameReading (fileId : String) : Reading :=
  ⟨⟨volumeNamed "card", some fileId⟩, 10, 5, 10, 5, frameSha⟩

namespace Catalog

theorem decision_applies_to_its_bytes_of_a_frame :
    ∃ w : World plainReader, ∃ a ∈ w.catalog.assets.rows, a.applicableQuality = .usable ∧
      ∃ decision sha, w.catalog.latestDecision a.id = some decision ∧
        a.fingerprint.contentSha256 = some sha ∧ DecidedOn w.made decision sha := by
  have hfollow : ((Catalog.empty.follow (reviewedFrame (frameReading "7"))).any fun made =>
      made.2.assets.rows.any fun a => a.applicableQuality = .usable) = true := by decide
  obtain ⟨⟨made, c⟩, hmade, hany⟩ := (Option.any_eq_true _ _).mp hfollow
  obtain ⟨a, ha, husable⟩ := List.any_eq_true.mp hany
  have hcurrent : ∀ call ∈ reviewedFrame (frameReading "7"), ∀ c, (call c).Current c := by
    intro call hcall c
    simp only [reviewedFrame, catalogued, List.dropLast_cons_cons, List.dropLast_singleton,
      List.cons_append, List.nil_append, List.mem_cons, List.not_mem_nil, or_false] at hcall
    rcases hcall with rfl | rfl | rfl | rfl <;>
      constructor <;> simp [Call.reader, Call.files]
  obtain ⟨w, rfl, hrun⟩ := World.run_of_current (follow_run hcurrent hmade) [] []
  obtain ⟨decision, sha, hlatest, -, hsha, hdecided, -⟩ :=
    (decision_applies_to_its_bytes hrun).1 a ha (.inl (of_decide_eq_true husable))
  exact ⟨w, a, ha, of_decide_eq_true husable, decision, sha, hlatest, hsha, hdecided⟩

end Catalog

/-! ## A resumed rehash -/

def cardRoot : FileIdentity := ⟨volumeNamed "card", some "root"⟩

def frameFile (name : String) : ScanFile plainReader :=
  ⟨[name.toList], frameOn "card", .fits, ()⟩

/-- A scan's batch that finds these frames, at a time; hashing reads the frame's bytes. -/
def foundFrames (operationId : Uuid) (names : List String) (now : Nat) (c : Catalog plainReader) :
    Call plainReader :=
  .applyScanBatch c operationId cardRoot ⟨names.map frameFile, []⟩
    (fun _ => .ok (frameReading "7")) (fun path => if path = ["a.fits".toList] then 3 else 4) now

/-- Two frames are found and decided; a rehash run of both hashes the first and is canceled, and
another scan resumes the run. -/
def resumedRehash : List (Catalog plainReader → Call plainReader) :=
  [fun _ => .registerLocation 1 [] ⟨true, []⟩ cardRoot (.ok ()),
    fun _ => .beginScan 2 1 none 0,
    foundFrames 2 ["a.fits", "b.fits"] 1,
    fun _ => .abortScan 2 .canceled "canceled",
    fun c => .setQuality c [⟨3, 0, frameOn "card"⟩, ⟨4, 0, frameOn "card"⟩] .usable
      ⟨.ok (), fun _ => frameSource "card", .ok ()⟩ 3,
    fun _ => .beginScan 5 1 none 10,
    foundFrames 5 ["a.fits"] 11,
    fun _ => .abortScan 5 .canceled "canceled",
    fun _ => .beginScan 6 1 none 20]

/-- No digest is taken of the first frame by the scan that resumed the run. -/
def undigested (c : Catalog plainReader) : Bool :=
  match c.digestsBefore 6 (fun _ => .ok (frameReading "7")) [frameFile "a.fits"] with
  | .ok digests => (digests ["a.fits".toList]).isNone
  | .error _ => false

namespace Catalog

/-- A decided frame observed without a digest gets no issue where the resumed run hashed it
before, and a decision may apply though every read of the run was of another file than the one
observed. -/
theorem decided_frame_without_issue :
    (∃ (calls : List (Call plainReader)) (c c' : Catalog plainReader),
      Run Step .empty calls c ∧ Step c (foundFrames 6 ["a.fits"] 21 c) c' ∧ undigested c = true ∧
      (∃ a ∈ c.assets.rows, a.relativePath = ["a.fits".toList] ∧ a.quality = .usable) ∧
      ∀ row ∈ c'.issues, row.operationId ≠ 6) ∧
    ∃ (calls : List (Call plainReader)) (c : Catalog plainReader),
      Run (fun c call c' => (∀ reading, call.Reads reading →
        reading.identity.fileId = some "8") ∧ Step c call c') .empty calls c ∧
      ∃ a ∈ c.assets.rows, a.applicableQuality = .usable ∧
        a.fingerprint.identity.fileId = some "7" := by
  constructor
  · have hfollow : ((Catalog.empty.follow resumedRehash).any fun made =>
        undigested made.2 && (made.2.assets.rows.any fun a =>
          a.relativePath = ["a.fits".toList] && a.quality = .usable) &&
        match made.2.perform (foundFrames 6 ["a.fits"] 21 made.2) with
        | .ok c' => c'.issues.all fun row => row.operationId ≠ 6
        | .error _ => false) = true := by decide
    obtain ⟨⟨made, c⟩, hmade, hany⟩ := (Option.any_eq_true _ _).mp hfollow
    simp only [Bool.and_eq_true] at hany
    obtain ⟨⟨hundigested, hrow⟩, hperform⟩ := hany
    obtain ⟨a, ha, hdecided⟩ := List.any_eq_true.mp hrow
    simp only [Bool.and_eq_true, decide_eq_true_eq] at hdecided
    have hrun := follow_run (P := fun _ _ => True) (fun _ _ _ => trivial) hmade
    split at hperform
    · next c' hstep =>
      refine ⟨made, c, c', hrun.mono fun _ _ _ h => h.2, hstep, hundigested, ⟨a, ha, hdecided⟩, ?_⟩
      intro row hmem
      simpa using List.all_eq_true.mp hperform row hmem
    · cases hperform
  · have hfollow : ((Catalog.empty.follow (reviewedFrame (frameReading "8"))).any fun made =>
        made.2.assets.rows.any fun a => a.applicableQuality = .usable &&
          a.fingerprint.identity.fileId = some "7") = true := by decide
    obtain ⟨⟨made, c⟩, hmade, hany⟩ := (Option.any_eq_true _ _).mp hfollow
    obtain ⟨a, ha, hrow⟩ := List.any_eq_true.mp hany
    simp only [Bool.and_eq_true, decide_eq_true_eq] at hrow
    refine ⟨made, c, follow_run (fun call hcall c reading hreads => ?_) hmade, a, ha, hrow⟩
    simp only [reviewedFrame, catalogued, List.dropLast_cons_cons, List.dropLast_singleton,
      List.cons_append, List.nil_append, List.mem_cons, List.not_mem_nil, or_false] at hcall
    rcases hcall with rfl | rfl | rfl | rfl
    · exact hreads.elim
    · exact hreads.elim
    · obtain ⟨path, hopened⟩ := hreads
      cases hopened
    · obtain ⟨id, path, hopened⟩ := hreads
      exact Except.ok.inj hopened ▸ rfl

end Catalog

end PlateVault.Library
