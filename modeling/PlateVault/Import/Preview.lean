import PlateVault.Grouping.Laws
import PlateVault.Import.Routed
import PlateVault.Naming.Laws

/-!
# Identical files and taken destinations

When an item held for an earlier one of its bytes is held for one that is imported, and when the
destinations of a preview are told apart as their volume tells them.
-/

namespace PlateVault.Import

open Naming

variable {P : Platform} {S : Surroundings P}

/-! ## A card -/

def foldingVolume : VolumeIdentity where
  filesystem := "apfs"
  stableId := some "disk"
  fileIdsStable := true
  case := .insensitive
  normalization := .insensitive

def hostPath (names : List String) : PathBuf where
  absolute := true
  parts := names.map fun name => .normal name.toList

def captures : Location where
  id := 1
  path := .host (hostPath ["lib"])
  role := .captures
  identity := ⟨foldingVolume, some "1"⟩
  lifecycle := .active

/-- One writable location, an empty library, one folder for every light. -/
def oneLocation (occupant : PathBuf → Occupant) : Surroundings wholePlatform where
  unicode := plainUnicode
  listLocations := .ok [captures]
  locations_nodup := by
    intro locations h
    cases h
    decide
  writability := fun _ => .writable
  importedFromSource := .ok fun _ => none
  contentCandidates := fun _ _ _ _ => .ok []
  verifyDigest := fun _ _ => .error (.notFound "asset")
  confirmedRigsFor := fun _ _ _ => .ok []
  rigFilters := fun _ _ => .ok []
  sessionTargets := fun _ _ => .ok fun _ => none
  templateOf := fun _ _ => .ok "lights".toList
  occupant := fun _ path _ _ => occupant path

def settledLight (seq : Nat) (names : List String) (sha256 : String) :
    ImportItemRecord wholePlatform :=
  let path : NativePath := .host (hostPath names)
  let fingerprint : ObservationFingerprint := ⟨⟨foldingVolume, none⟩, 9, 5, none⟩
  { item := {
      seq, sourcePath := path, relativePath := path, sizeBytes := 9, sha256 := some sha256.toList,
      imageType := some "light".toList, classification := some .light, userType := none,
      targetId := none, excluded := false, role := none, destinationLocationId := none,
      destinationPath := none, fallbacks := [], rig := none, unknownFilter := none,
      phase := .settling, duplicate := none, block := none, landed := false }
    observation := some ⟨fingerprint, 1⟩
    evidence := some ⟨path, none, .file, fingerprint, some sha256.toList⟩
    metadata := some (lightAt 1 0 0).effective }

theorem route_eq_ok_of_map {β : Type} {f : ImportItemRecord P → β} {choices : List ImportChoice}
    {items : List (ImportItemRecord P)} {values : List β}
    (h : (route S choices items).toOption.map (·.map f) = some values) :
    ∃ placed, route S choices items = .ok placed ∧ placed.map f = values := by
  obtain ⟨placed, hplaced, hvalues⟩ := Option.map_eq_some_iff.mp h
  exact ⟨placed, Result.toOption_eq_some.mp hplaced, hvalues⟩

/-! ## Identical files -/

def ReadyAlone (S : Surroundings P) (choices : List ImportChoice) (record : ImportItemRecord P) :
    Prop :=
  ∃ placed, route S choices [record] = .ok [placed] ∧ placed.item.phase = .ready

def GoesAlone (S : Surroundings P) (choices : List ImportChoice) (start : RouteContext)
    (record : ImportItemRecord P) : Prop :=
  ∃ targetOf, targetsOf S choices [record] = .ok targetOf ∧
    (goesTo S start targetOf record).isSome = true

theorem route_of_going {choices : List ImportChoice} {record : ImportItemRecord P}
    {start : RouteContext} {targetOf : Nat → Option TargetCandidate} {location : Location}
    {destination : PathBuf} (hstart : startOf S choices = .ok start)
    (htargets : targetsOf S choices [record] = .ok targetOf)
    (hgoing : Going S start targetOf [] record location destination) :
    ∃ placed, route S choices [record] = .ok placed := by
  obtain ⟨locations, hlocations, hmore⟩ := Result.bind_eq_ok.mp hstart
  obtain ⟨imported, himported, hcontext⟩ := Result.bind_eq_ok.mp hmore
  cases hcontext
  obtain ⟨_, hstart', hfirst⟩ := Result.bind_eq_ok.mp htargets
  cases hstart.symm.trans hstart'
  obtain ⟨⟨routed, context⟩, hrouted, hsessions⟩ := Result.bind_eq_ok.mp hfirst
  have hnothing : (routeContext S locations imported choices).firstCopy =
      firstCopies S (routeContext S locations imported choices).imported [] := rfl
  obtain ⟨hscan, firstCopy, rigs, rfl⟩ := routeItems_spec hrouted hnothing
  cases hscan with
  | cons head tail =>
    cases tail
    have hstatic : Static (routeContext S locations imported choices)
        { routeContext S locations imported choices with firstCopy, rigs } := ⟨rfl, rfl, rfl, rfl⟩
    obtain ⟨placed, after, hplaced⟩ := placeItem_of_asks
      (head.asksFor_iff.mpr ⟨location, hgoing⟩) hstatic rfl
    exact ⟨[placed], Result.bind_eq_ok.mpr ⟨_, hlocations, Result.bind_eq_ok.mpr ⟨_, himported,
      Result.bind_eq_ok.mpr ⟨_, hrouted, Result.bind_eq_ok.mpr ⟨_, hsessions,
        Result.bind_eq_ok.mpr ⟨_, Result.bind_eq_ok.mpr ⟨_, hplaced, rfl⟩, rfl⟩⟩⟩⟩⟩⟩

theorem readyAlone_iff {choices : List ImportChoice} {record : ImportItemRecord P}
    {start : RouteContext} (hstart : startOf S choices = .ok start) :
    ReadyAlone S choices record ↔
      (newDigest S start.imported record).isSome = true ∧ GoesAlone S choices start record := by
  constructor
  · rintro ⟨placed, hroute, hready⟩
    obtain ⟨start', targetOf, hstart', htargets, hscan⟩ := route_spec hroute
    cases hstart.symm.trans hstart'
    cases hscan with
    | cons head _ =>
      obtain ⟨location, destination, ⟨⟨d, hwants, -⟩, hgoes⟩, -⟩ := head.ready.mp hready
      exact ⟨by rw [hwants]; rfl, targetOf, htargets, by rw [hgoes]; rfl⟩
  · rintro ⟨hnew, targetOf, htargets, hgoes⟩
    obtain ⟨d, hnew⟩ := Option.isSome_iff_exists.mp hnew
    obtain ⟨⟨location, destination⟩, hgoes⟩ := Option.isSome_iff_exists.mp hgoes
    have hgoing : Going S start targetOf [] record location destination :=
      ⟨⟨d, hnew, fun _ h => absurd h List.not_mem_nil⟩, hgoes⟩
    have hroute := route_of_going hstart htargets hgoing
    obtain ⟨placed, hroute⟩ := hroute
    obtain ⟨start', targetOf', hstart', htargets', hscan⟩ := route_spec hroute
    cases hstart.symm.trans hstart'
    cases htargets.symm.trans htargets'
    cases hscan with
    | cons head tail =>
      cases tail
      refine ⟨_, hroute, head.ready.mpr ⟨location, destination, hgoing, ?_⟩⟩
      rintro ⟨front, other, back, _, hnil, -⟩
      simp at hnil

/-- Some copy of the bytes of every item that could be imported on its own is imported, and what an
item is held for as an earlier copy of its bytes is imported. -/
structure KeepsOneCopy (S : Surroundings P) (choices : List ImportChoice)
    (items placed : List (ImportItemRecord P)) : Prop where
  imported : ∀ record ∈ items, ∀ d, record.digest = some d → ReadyAlone S choices record →
    ∃ copy ∈ placed, copy.digest = some d ∧ copy.item.phase = .ready
  named : ∀ held ∈ placed, ∀ seq path, held.item.duplicate = some (.sameImport seq path) →
    ∃ copy ∈ placed, copy.item.seq = seq ∧ copy.item.sourcePath = path ∧
      copy.digest = held.digest ∧ (copy.item.phase = .ready ∨ copy.item.landed = true)

/-- The first copy of bytes that another item has too, or that an item could bring on its own, would
go to a destination no earlier first copy goes to. -/
def FirstCopiesGo (S : Surroundings P) (choices : List ImportChoice)
    (items : List (ImportItemRecord P)) : Prop :=
  ∀ start targetOf, startOf S choices = .ok start → targetsOf S choices items = .ok targetOf →
    ∀ front record back d, items = front ++ record :: back →
      FirstToWant (newDigest S start.imported) front record d →
      ((∃ later ∈ back, newDigest S start.imported later = some d) ∨
        ∃ other ∈ record :: back, newDigest S start.imported other = some d ∧
          GoesAlone S choices start other) →
      ∃ location destination, goesTo S start targetOf record = some (location, destination) ∧
        ¬GoesEarlier S start targetOf front destination

section Copies

variable {choices : List ImportChoice} {items placed : List (ImportItemRecord P)}
  {start : RouteContext} {targetOf : Nat → Option TargetCandidate}

theorem source_of_mem (hscan : Scanned (RoutedAs S start targetOf) [] items placed)
    {copy : ImportItemRecord P} (hcopy : copy ∈ placed) :
    ∃ record ∈ items, SameSource record copy := by
  obtain ⟨front', back', rfl⟩ := List.append_of_mem hcopy
  obtain ⟨front, record, back, rfl, -, hrouted, -⟩ := hscan.split_result
  exact ⟨record, by simp, hrouted.same⟩

theorem first_of_ready (hscan : Scanned (RoutedAs S start targetOf) [] items placed)
    {copy : ImportItemRecord P} (hcopy : copy ∈ placed) (hready : copy.item.phase = .ready)
    {d : Text} (hdigest : copy.digest = some d) {front back : List (ImportItemRecord P)}
    {record : ImportItemRecord P} (hitems : items = front ++ record :: back)
    (hfirst : FirstToWant (newDigest S start.imported) front record d) :
    ∃ location destination, goesTo S start targetOf record = some (location, destination) ∧
      ¬GoesEarlier S start targetOf front destination := by
  obtain ⟨front', back', rfl⟩ := List.append_of_mem hcopy
  obtain ⟨before, other, after, hother, -, hrouted, -⟩ := hscan.split_result
  obtain ⟨location, destination, ⟨⟨d', hwants⟩, hgoes⟩, hnone⟩ := hrouted.ready.mp hready
  have hd : d' = d := by
    have hsame := newDigest_eq_digest hwants.1
    rw [← hrouted.same.digest, hdigest] at hsame
    exact (Option.some.inj hsame).symm
  subst hd
  obtain ⟨rfl, rfl, rfl⟩ := FirstToWant.unique hwants hfirst (hother.symm.trans hitems)
  exact ⟨location, destination, hgoes, hnone⟩

theorem ready_of_first (hscan : Scanned (RoutedAs S start targetOf) [] items placed)
    {front back : List (ImportItemRecord P)} {record : ImportItemRecord P} {d : Text}
    (hitems : items = front ++ record :: back)
    (hfirst : FirstToWant (newDigest S start.imported) front record d)
    (hgoes : ∃ location destination, goesTo S start targetOf record = some (location, destination) ∧
      ¬GoesEarlier S start targetOf front destination) :
    ∃ copy ∈ placed, SameSource record copy ∧ copy.item.phase = .ready := by
  subst hitems
  obtain ⟨front', copy, back', rfl, -, hrouted, -⟩ := hscan.split
  obtain ⟨location, destination, hgoes, hnone⟩ := hgoes
  exact ⟨copy, by simp, hrouted.same,
    hrouted.ready.mpr ⟨location, destination, ⟨⟨d, hfirst⟩, hgoes⟩, hnone⟩⟩

/-- Identical files are imported once, and held for the one imported, exactly where their first copy
goes to a destination of its own. -/
theorem keepsOneCopy_iff (h : route S choices items = .ok placed)
    (hpreview : ∀ record ∈ items, record.item.landed = false) :
    KeepsOneCopy S choices items placed ↔ FirstCopiesGo S choices items := by
  obtain ⟨start, targetOf, hstart, htargets, hscan⟩ := route_spec h
  constructor
  · intro hkeeps start' targetOf' hstart' htargets' front record back d hitems hfirst hother
    cases hstart.symm.trans hstart'
    cases htargets.symm.trans htargets'
    rcases hother with ⟨later, hlater, hnew⟩ | ⟨other, hmem, hnew, halone⟩
    · obtain ⟨between, after, rfl⟩ := List.append_of_mem hlater
      have hlaterItems : items = (front ++ record :: between) ++ later :: after := by simp [hitems]
      obtain ⟨front', held, back', hplaced, -, hrouted, -⟩ := (hlaterItems ▸ hscan).split
      have hduplicate := (hrouted.duplicate _ _).mpr ⟨d, hnew, Claims.of_first hfirst between⟩
      obtain ⟨copy, hcopy, -, -, hdigest, hphase⟩ := hkeeps.named held (by simp [hplaced]) _ _ hduplicate
      rw [hrouted.same.digest, newDigest_eq_digest hnew] at hdigest
      refine first_of_ready hscan hcopy (hphase.resolve_right fun hlanded => ?_) hdigest hitems hfirst
      obtain ⟨source, hsource, hsame⟩ := source_of_mem hscan hcopy
      rw [hsame.landed, hpreview source hsource] at hlanded
      cases hlanded
    · have hready := (readyAlone_iff hstart).mpr ⟨by rw [hnew]; rfl, halone⟩
      obtain ⟨copy, hcopy, hdigest, hphase⟩ := hkeeps.imported other
        (by rw [hitems]; exact List.mem_append_right _ hmem) d (newDigest_eq_digest hnew) hready
      exact first_of_ready hscan hcopy hphase hdigest hitems hfirst
  · intro hgo
    have hgo := hgo start targetOf hstart htargets
    constructor
    · intro record hrecord d hdigest halone
      obtain ⟨hnew, hgoes⟩ := (readyAlone_iff hstart).mp halone
      obtain ⟨d', hnew⟩ := Option.isSome_iff_exists.mp hnew
      cases hdigest.symm.trans (newDigest_eq_digest hnew)
      obtain ⟨front, first, back, hitems, hfirst⟩ := Claims.exists_first hnew hrecord
      have hmem : record ∈ first :: back := by
        rw [hitems] at hrecord
        refine (List.mem_append.mp hrecord).resolve_left fun hearlier => hfirst.2 record hearlier hnew
      obtain ⟨copy, hcopy, hsame, hready⟩ := ready_of_first hscan hitems hfirst
        (hgo front first back d hitems hfirst (.inr ⟨record, hmem, hnew, hgoes⟩))
      exact ⟨copy, hcopy, by rw [hsame.digest, newDigest_eq_digest hfirst.1], hready⟩
    · intro held hheld seq path hduplicate
      obtain ⟨heldFront, heldBack, rfl⟩ := List.append_of_mem hheld
      obtain ⟨before, later, after, rfl, -, hrouted, -⟩ := hscan.split_result
      obtain ⟨d, hnew, hclaimed⟩ := (hrouted.duplicate seq path).mp hduplicate
      obtain ⟨front, first, between, rfl, hfirst, hnamed⟩ := Claims.of_eq_some hclaimed
      have hitems : (front ++ first :: between) ++ later :: after =
          front ++ first :: (between ++ later :: after) := by simp
      obtain ⟨copy, hcopy, hsame, hready⟩ := ready_of_first hscan hitems hfirst
        (hgo front first _ d hitems hfirst (.inl ⟨later, by simp, hnew⟩))
      obtain ⟨rfl, rfl⟩ := Prod.mk.inj hnamed
      refine ⟨copy, hcopy, hsame.seq, hsame.sourcePath, ?_, .inl hready⟩
      rw [hsame.digest, hrouted.same.digest, newDigest_eq_digest hfirst.1, newDigest_eq_digest hnew]

end Copies

/-- One file twice, the first where its destination is taken by other bytes. -/
def copiedTwice : List (ImportItemRecord wholePlatform) :=
  [settledLight 0 ["card", "a.fits"] "aa", settledLight 1 ["card", "b.fits"] "aa"]

def takenFirst : Surroundings wholePlatform :=
  oneLocation fun path => if path = hostPath ["lib", "lights", "a.fits"] then .different else .vacant

theorem keepsOneCopy_iff_copiedTwice : ∃ placed, route takenFirst [] copiedTwice = .ok placed ∧
    (KeepsOneCopy takenFirst [] copiedTwice placed ↔ FirstCopiesGo takenFirst [] copiedTwice) := by
  have hphases : (route takenFirst [] copiedTwice).toOption.map (·.map (·.item.phase)) =
      some [.blocked, .duplicate] := by decide
  obtain ⟨placed, hroute, -⟩ := route_eq_ok_of_map hphases
  exact ⟨placed, hroute, keepsOneCopy_iff hroute (by decide)⟩

/-- The second copy could be imported on its own; in the import neither is. -/
theorem neither_copy_imported : ∃ placed, route takenFirst [] copiedTwice = .ok placed ∧
    ¬KeepsOneCopy takenFirst [] copiedTwice placed := by
  have hphases : (route takenFirst [] copiedTwice).toOption.map (·.map (·.item.phase)) =
      some [.blocked, .duplicate] := by decide
  have halone : (route takenFirst [] [settledLight 1 ["card", "b.fits"] "aa"]).toOption.map
      (·.map (·.item.phase)) = some [.ready] := by decide
  obtain ⟨placed, hroute, hphase⟩ := route_eq_ok_of_map hphases
  obtain ⟨alone, hroute', hphase'⟩ := route_eq_ok_of_map halone
  obtain ⟨one, rfl, hone⟩ := List.map_eq_singleton_iff.mp hphase'
  refine ⟨placed, hroute, fun hkeeps => ?_⟩
  obtain ⟨copy, hcopy, -, hready⟩ := hkeeps.imported (settledLight 1 ["card", "b.fits"] "aa")
    (by simp [copiedTwice]) "aa".toList rfl ⟨one, hroute', hone⟩
  have hmem : ImportItemPhase.ready ∈ placed.map (·.item.phase) := by
    rw [← hready]
    exact List.mem_map_of_mem hcopy
  rw [hphase] at hmem
  revert hmem
  decide

/-! ## Taken destinations -/

/-- No two Ready items of one location name one entry of its volume. -/
def ApartOnVolume (S : Surroundings P) (locations : List Location)
    (placed : List (ImportItemRecord P)) : Prop :=
  placed.Pairwise fun a b => a.item.phase = .ready → b.item.phase = .ready →
    ∀ location ∈ locations, ∀ path path', NamesDestination a.item location path →
      NamesDestination b.item location path' →
        NativePath.sameOn S.unicode (.fromPath path) (.fromPath path') location.identity.volume = false

/-- An earlier item of another location goes to a destination. -/
def GoesElsewhere (S : Surroundings P) (start : RouteContext)
    (targetOf : Nat → Option TargetCandidate) (before : List (ImportItemRecord P))
    (location : Location) (destination : PathBuf) : Prop :=
  ∃ front record back other, before = front ++ record :: back ∧
    Going S start targetOf front record other destination ∧ other ≠ location

/-- The first copies that would go to one location, but to no path that an earlier one of another
location goes to, have one path where their paths are one name on its volume. -/
def OnePathPerName (S : Surroundings P) (choices : List ImportChoice)
    (items : List (ImportItemRecord P)) : Prop :=
  ∀ start targetOf, startOf S choices = .ok start → targetsOf S choices items = .ok targetOf →
    ∀ front record back front' record' back' location path path',
      items = front ++ record :: back → items = front' ++ record' :: back' →
      Going S start targetOf front record location path →
      Going S start targetOf front' record' location path' →
      ¬GoesElsewhere S start targetOf front location path →
      ¬GoesElsewhere S start targetOf front' location path' →
      NativePath.sameOn S.unicode (.fromPath path) (.fromPath path') location.identity.volume = true →
      path = path'

section Destinations

variable {choices : List ImportChoice} {items placed front : List (ImportItemRecord P)}
  {start : RouteContext} {targetOf : Nat → Option TargetCandidate} {record : ImportItemRecord P}
  {location : Location} {path : PathBuf}

theorem GoesElsewhere.mono {more : List (ImportItemRecord P)}
    (h : GoesElsewhere S start targetOf front location path) :
    GoesElsewhere S start targetOf (front ++ more) location path := by
  obtain ⟨before, other, back, elsewhere, rfl, hgoing, hne⟩ := h
  exact ⟨before, other, back ++ more, elsewhere, by simp, hgoing, hne⟩

theorem exists_first_going {back : List (ImportItemRecord P)}
    (hgoing : Going S start targetOf front record location path)
    (helsewhere : ¬GoesElsewhere S start targetOf front location path) :
    ∃ before first after, front ++ record :: back = before ++ first :: after ∧
      Going S start targetOf before first location path ∧
      ¬GoesEarlier S start targetOf before path := by
  induction hn : front.length using Nat.strong_induction_on generalizing front record back with
  | _ n ih =>
    by_cases hearlier : GoesEarlier S start targetOf front path
    · obtain ⟨before, first, between, other, rfl, hfirst⟩ := hearlier
      have hother : other = location := by
        by_contra hne
        exact helsewhere ⟨before, first, between, other, rfl, hfirst, hne⟩
      subst hother
      have hlength : before.length < n := by
        rw [← hn]
        simp
      obtain ⟨before', first', after, heq, hlast⟩ := @ih before.length hlength before first
        (between ++ record :: back) hfirst (fun h => helsewhere h.mono) rfl
      exact ⟨before', first', after, by rw [← heq]; simp, hlast⟩
    · exact ⟨front, record, back, rfl, hgoing, hearlier⟩

theorem sameOn_symm {path path' : NativePath} {volume : VolumeIdentity} {u : Unicode}
    (h : path.sameOn u path' volume = true) : path'.sameOn u path volume = true := by
  simp only [NativePath.sameOn, decide_eq_true_eq] at h ⊢
  exact h.symm

theorem ApartOnVolume.pair {middle back : List (ImportItemRecord P)} {record' : ImportItemRecord P}
    {path' : PathBuf} (hapart : ApartOnVolume S start.locations placed)
    (hscan : Scanned (RoutedAs S start targetOf) []
      (front ++ record :: (middle ++ record' :: back)) placed)
    (hgoing : Going S start targetOf front record location path)
    (hfirst : ¬GoesEarlier S start targetOf front path)
    (hgoing' : Going S start targetOf (front ++ record :: middle) record' location path')
    (hfirst' : ¬GoesEarlier S start targetOf (front ++ record :: middle) path')
    (hlocation : location ∈ start.locations) :
    NativePath.sameOn S.unicode (.fromPath path) (.fromPath path') location.identity.volume = false := by
  obtain ⟨front', a, rest, rfl, -, ha, htail⟩ := hscan.split
  obtain ⟨middle', b, back', rfl, -, hb, -⟩ := htail.split
  have hb : RoutedAs S start targetOf (front ++ record :: middle) record' b := by simpa using hb
  have hpair := (List.pairwise_append.mp hapart).2.1
  exact (List.pairwise_cons.mp hpair).1 b (by simp) (ha.ready.mpr ⟨location, path, hgoing, hfirst⟩)
    (hb.ready.mpr ⟨location, path', hgoing', hfirst'⟩) location hlocation path path'
    (ha.names location path hgoing) (hb.names location path' hgoing')

theorem NamesDestination.eq_of {item : ImportItem} {path' : PathBuf} {other : Location}
    {locations : List Location} (hids : (locations.map (·.id)).Nodup)
    (h : NamesDestination item location path) (h' : NamesDestination item other path')
    (hmem : location ∈ locations) (hmem' : other ∈ locations) : location = other ∧ path = path' := by
  obtain ⟨hid, root, relative, hroot, hrelative, rfl⟩ := h
  obtain ⟨hid', root', relative', hroot', hrelative', rfl⟩ := h'
  have hsame : location = other :=
    List.inj_on_of_nodup_map hids hmem hmem' (Option.some.inj (hid.symm.trans hid'))
  subst hsame
  cases hroot.symm.trans hroot'
  cases hrelative.symm.trans hrelative'
  exact ⟨rfl, rfl⟩

theorem chosenLocation_mem {locations : List Location} {role : LocationRole}
    (h : chosenLocation locations choices role = .ok location) : location ∈ locations := by
  unfold chosenLocation at h
  dsimp only at h
  split at h
  · rename_i found hfound
    cases h
    obtain ⟨choice, -, hfind⟩ := Option.bind_eq_some_iff.mp hfound
    exact List.mem_of_mem_filter (List.mem_of_find?_eq_some hfind)
  · split at h
    · cases h
    · rename_i only honly
      cases h
      exact List.mem_of_mem_filter (by rw [honly]; exact List.mem_cons_self)
    · cases h

theorem Going.location_mem (h : Going S start targetOf front record location path) :
    location ∈ start.locations := by
  obtain ⟨frameType, -, hplacement⟩ := Option.bind_eq_some_iff.mp h.2
  unfold placement at hplacement
  split at hplacement
  · split at hplacement
    · rename_i hchosen _
      split at hplacement
      · obtain ⟨_, -, hfound⟩ := Option.map_eq_some_iff.mp hplacement
        cases hfound
        exact chosenLocation_mem hchosen
      · cases hplacement
    · cases hplacement
  · cases hplacement

theorem startOf_nodup (h : startOf S choices = .ok start) : (start.locations.map (·.id)).Nodup := by
  obtain ⟨locations, hlocations, h⟩ := Result.bind_eq_ok.mp h
  obtain ⟨imported, -, h⟩ := Result.bind_eq_ok.mp h
  obtain ⟨listed, hlisted, hactive⟩ := Result.bind_eq_ok.mp hlocations
  cases h
  cases hactive
  exact (S.locations_nodup listed hlisted).sublist (List.filter_sublist.map _)

/-- Ready items of one location name different entries of its volume exactly where the paths their
first copies would go to there are one path whenever they are one name. -/
theorem apartOnVolume_iff (h : route S choices items = .ok placed) {locations : List Location}
    (hlocations : activeLocations S = .ok locations) :
    ApartOnVolume S locations placed ↔ OnePathPerName S choices items := by
  obtain ⟨start, targetOf, hstart, htargets, hscan⟩ := route_spec h
  have hsame : start.locations = locations := by
    obtain ⟨listed, hlisted, hmore⟩ := Result.bind_eq_ok.mp hstart
    obtain ⟨imported, -, hcontext⟩ := Result.bind_eq_ok.mp hmore
    cases hlisted.symm.trans hlocations
    cases hcontext
    rfl
  subst hsame
  constructor
  · intro hapart start' targetOf' hstart' htargets' front record back front' record' back' location
      path path' hitems hitems' hgoing hgoing' helsewhere helsewhere' hsameOn
    cases hstart.symm.trans hstart'
    cases htargets.symm.trans htargets'
    by_contra hne
    obtain ⟨before, first, after, heq, hfirst, hnone⟩ :=
      @exists_first_going _ _ _ _ _ _ _ _ back hgoing helsewhere
    obtain ⟨before', first', after', heq', hfirst', hnone'⟩ :=
      @exists_first_going _ _ _ _ _ _ _ _ back' hgoing' helsewhere'
    have hlist : before ++ first :: after = before' ++ first' :: after' := by
      rw [← heq, ← heq', ← hitems, ← hitems']
    have happart : ∀ {x y : ImportItemRecord P} {l middle m : List (ImportItemRecord P)} {p q : PathBuf},
        items = l ++ x :: (middle ++ y :: m) → Going S start targetOf l x location p →
        ¬GoesEarlier S start targetOf l p →
        Going S start targetOf (l ++ x :: middle) y location q →
        ¬GoesEarlier S start targetOf (l ++ x :: middle) q →
        NativePath.sameOn S.unicode (.fromPath p) (.fromPath q) location.identity.volume ≠ true := by
      intro x y l middle m p q hl hx hxnone hy hynone
      rw [hl] at hscan
      rw [hapart.pair hscan hx hxnone hy hynone hx.location_mem]
      simp
    have hlist₁ : items = before ++ first :: after := hitems.trans heq
    have hlist₂ : items = before' ++ first' :: after' := hitems'.trans heq'
    rcases List.append_eq_append_iff.mp hlist with ⟨more, rfl, hafter⟩ | ⟨more, rfl, hafter⟩
    · cases more with
      | nil =>
        obtain ⟨rfl, -⟩ := List.cons_eq_cons.mp hafter
        cases hfirst.2.symm.trans hfirst'.2
        exact hne rfl
      | cons y middle =>
        obtain ⟨rfl, rfl⟩ := List.cons_eq_cons.mp hafter
        exact happart hlist₁ hfirst hnone hfirst' hnone' hsameOn
    · cases more with
      | nil =>
        obtain ⟨rfl, -⟩ := List.cons_eq_cons.mp hafter
        cases hfirst.2.symm.trans hfirst'.2
        exact hne rfl
      | cons y middle =>
        obtain ⟨rfl, rfl⟩ := List.cons_eq_cons.mp hafter
        exact happart hlist₂ hfirst' hnone' hfirst hnone (sameOn_symm hsameOn)
  · intro hone
    have hone := hone start targetOf hstart htargets
    refine hscan.pairwise fun front x middle y back a b hitems ha hb => ?_
    intro haready hbready location hlocation path path' hapath hbpath
    obtain ⟨loc, p, hx, hxnone⟩ := ha.ready.mp haready
    obtain ⟨loc', q, hy, hynone⟩ := hb.ready.mp hbready
    obtain ⟨rfl, rfl⟩ := (ha.names loc p hx).eq_of (startOf_nodup hstart) hapath hx.location_mem
      hlocation
    obtain ⟨rfl, rfl⟩ := (hb.names loc' q hy).eq_of (startOf_nodup hstart) hbpath hy.location_mem
      hlocation
    rw [← Bool.not_eq_true]
    intro hsameOn
    have hnoneElsewhere : ∀ {l : List (ImportItemRecord P)} {r : PathBuf},
        ¬GoesEarlier S start targetOf l r → ¬GoesElsewhere S start targetOf l loc' r := by
      rintro l r hnone ⟨before, other, rest, elsewhere, rfl, hgoing, -⟩
      exact hnone ⟨before, other, rest, elsewhere, rfl, hgoing⟩
    have hpath : p = q := hone front x _ (front ++ x :: middle) y back loc' p q hitems
      (by simp [hitems]) hx hy (hnoneElsewhere hxnone) (hnoneElsewhere hynone) hsameOn
    subst hpath
    exact hynone ⟨front, x, middle, loc', by simp, hx⟩

end Destinations

/-- Two lights of other bytes whose names differ in case only. -/
def twoCases : List (ImportItemRecord wholePlatform) :=
  [settledLight 0 ["card", "a", "M31.fits"] "aa", settledLight 1 ["card", "b", "m31.fits"] "bb"]

theorem apartOnVolume_iff_twoCases : ∃ placed,
    route (oneLocation fun _ => .vacant) [] twoCases = .ok placed ∧
      (ApartOnVolume (oneLocation fun _ => .vacant) [captures] placed ↔
        OnePathPerName (oneLocation fun _ => .vacant) [] twoCases) := by
  have hphases : (route (oneLocation fun _ => .vacant) [] twoCases).toOption.map
      (·.map (·.item.phase)) = some [.ready, .ready] := by decide
  obtain ⟨placed, hroute, -⟩ := route_eq_ok_of_map hphases
  exact ⟨placed, hroute, apartOnVolume_iff hroute rfl⟩

theorem sameOn_twoCases : NativePath.sameOn plainUnicode
    (.fromPath (hostPath ["lib", "lights", "M31.fits"]))
    (.fromPath (hostPath ["lib", "lights", "m31.fits"])) foldingVolume = true := by
  have htext : ∀ path : PathBuf, utf8 path.payload = path.payload →
      (NativePath.fromPath path).text = some path.payload := fun path hascii =>
    (congrArg fromUtf8 hascii.symm).trans (fromUtf8_utf8 _)
  rw [NativePath.sameOn, NativePath.identityOn, NativePath.identityOn,
    htext (hostPath ["lib", "lights", "M31.fits"]) (by decide),
    htext (hostPath ["lib", "lights", "m31.fits"]) (by decide)]
  decide

/-- Both are Ready, for one entry. -/
theorem two_cases_one_entry : ∃ placed,
    route (oneLocation fun _ => .vacant) [] twoCases = .ok placed ∧
      ¬ApartOnVolume (oneLocation fun _ => .vacant) [captures] placed := by
  have hitems : (route (oneLocation fun _ => .vacant) [] twoCases).toOption.map (·.map fun record =>
      (record.item.phase, record.item.destinationLocationId, record.item.destinationPath)) = some
        [(.ready, some 1, some (.host ⟨false, [.normal "lights".toList, .normal "M31.fits".toList]⟩)),
          (.ready, some 1, some (.host ⟨false, [.normal "lights".toList, .normal "m31.fits".toList]⟩))] := by
    decide
  obtain ⟨placed, hroute, hvalues⟩ := route_eq_ok_of_map hitems
  obtain ⟨a, rest, rfl, ha, hrest⟩ := List.map_eq_cons_iff.mp hvalues
  obtain ⟨b, rfl, hb⟩ := List.map_eq_singleton_iff.mp hrest
  refine ⟨_, hroute, fun hapart => ?_⟩
  obtain ⟨haphase, halocation, hapath⟩ := by simpa using ha
  obtain ⟨hbphase, hblocation, hbpath⟩ := by simpa using hb
  have hfalse := (List.pairwise_cons.mp hapart).1 b (by simp) haphase hbphase captures (by simp)
    _ _ ⟨halocation, _, _, rfl, hapath, rfl⟩ ⟨hblocation, _, _, rfl, hbpath, rfl⟩
  exact absurd sameOn_twoCases (Bool.not_eq_true _ ▸ hfalse)

end PlateVault.Import
