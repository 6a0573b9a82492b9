import PlateVault.Lib.Forest
import PlateVault.Sessions.Records
import Mathlib.Data.List.Lex
import Mathlib.Data.Char

/-!
# Logical captures

A read request groups its assets into captures: copies are joined when their digest is recorded in
at least two locations, or when a recorded link proves the pair. A worklist follows both joins from
the assets asked for until it finds nothing new; a forest over the asset ids holds what is joined.
-/

namespace PlateVault.Library

variable {P : Platform} {R : Reader}

def Catalog.joinable (c : Catalog R) (a : Asset R) : Bool :=
  a.live && c.activeLocation a.locationId

/-- `LINKS_OF_ASSETS`: the recorded links that touch an asset, between live copies of active
locations only. -/
def Catalog.linksOfAssets (c : Catalog R) (ids : List Uuid) : List (Uuid × Uuid) :=
  c.copyLinks.filter fun link => (link.1 ∈ ids || link.2 ∈ ids) &&
    (c.assets.rows.filter fun r => (r.id = link.1 || r.id = link.2) && c.joinable r).length = 2

/-- `ASSETS_BY_IDS`. -/
def Catalog.assetsByIds (c : Catalog R) (ids : List Uuid) : List (Asset R) :=
  (c.assets.rows.filter fun a => a.live && a.id ∈ ids).map c.fromRow

/-- What a read request is told: the capture key of each asset it asked for, and the recorded copies
of each key. -/
structure Captures (R : Reader) where
  keyOf : Uuid → Option String
  copies : String → Option (List (Asset R))

/-- The worklist: the assets it visited, the joins it found and the digests it asked for. -/
structure CaptureWalk (R : Reader) where
  nodes : List (Asset R)
  parent : Forest Uuid
  seenDigests : List Text

/-- One round's visits: the nodes with the new ones, and what the round has to ask for. -/
structure Visits (R : Reader) where
  nodes : List (Asset R)
  seenDigests : List Text
  digests : List Text
  ids : List Uuid

def hasNode (nodes : List (Asset R)) (id : Uuid) : Bool := nodes.any fun node => node.id = id

/-- Visit one asset; a retired and a Trashed one is a capture of its own and asks for nothing. -/
def Visits.visit (visits : Visits R) (asset : Asset R) : Visits R :=
  if hasNode visits.nodes asset.id then visits
  else if asset.availability = .retired ∨ asset.availability = .trashed then
    { visits with nodes := visits.nodes ++ [asset] }
  else
    let fresh := asset.fingerprint.contentSha256.toList.filter (· ∉ visits.seenDigests)
    { nodes := visits.nodes ++ [asset]
      seenDigests := visits.seenDigests ++ fresh
      digests := visits.digests ++ fresh
      ids := visits.ids ++ [asset.id] }

namespace Vault

/-- `COPIES_BY_DIGEST`: every recorded live copy of these digests in active locations. -/
def copiesWithDigests (v : Vault P R) (digests : List Text) : List (Asset R) :=
  (Ordered.sortBy (fun a => toLex (a.locationId, a.id)) (v.catalog.assets.rows.filter fun a =>
    a.live && a.fingerprint.contentSha256.any (· ∈ digests) &&
      (v.sessions.sessionOf a.id).isSome && v.catalog.activeLocation a.locationId)).map
    v.catalog.fromRow

/-- The copies of one digest, joined where they span two or more locations. -/
def joinDigest (rows : List (Asset R)) (found : List (Asset R) × Forest Uuid) (digest : Text) :
    List (Asset R) × Forest Uuid :=
  let group := rows.filter fun copy => copy.fingerprint.contentSha256 = some digest
  if 1 < (group.map Asset.locationId).dedup.length then
    (found.1 ++ group, found.2.joinAll ((group.map Asset.id).zip (group.map Asset.id).tail))
  else found

def copiesByDigest (v : Vault P R) (digests : List Text) (parent : Forest Uuid) :
    List (Asset R) × Forest Uuid :=
  let rows := v.copiesWithDigests digests
  (Ordered.ascending (rows.filterMap fun copy => copy.fingerprint.contentSha256)).foldl
    (joinDigest rows) ([], parent)

/-- The copies recorded links join to these assets, joined; returns those not yet seen. -/
def linkedCopies (v : Vault P R) (ids : List Uuid) (nodes : List (Asset R))
    (parent : Forest Uuid) : List (Asset R) × Forest Uuid :=
  let links := v.catalog.linksOfAssets ids
  let linked := Ordered.ascending
    ((links.flatMap fun link => [link.1, link.2]).filter (!hasNode nodes ·))
  (v.catalog.assetsByIds linked, parent.joinAll links)

def captureRound (v : Vault P R) (walk : CaptureWalk R) (fresh : List (Asset R)) :
    CaptureWalk R × List (Asset R) :=
  let visits := fresh.foldl Visits.visit ⟨walk.nodes, walk.seenDigests, [], []⟩
  let (found, parent) := v.copiesByDigest visits.digests walk.parent
  let (linked, parent) := v.linkedCopies visits.ids visits.nodes parent
  (⟨visits.nodes, parent, visits.seenDigests⟩,
    (found ++ linked).filter (!hasNode visits.nodes ·.id))

/-- Turns until one leads nowhere new; `none` where `fuel` turns do not get there. -/
def captureRounds (v : Vault P R) : Nat → CaptureWalk R → List (Asset R) → Option (CaptureWalk R)
  | _, walk, [] => some walk
  | 0, _, _ :: _ => none
  | fuel + 1, walk, fresh =>
    let (walk, fresh) := v.captureRound walk fresh
    v.captureRounds fuel walk fresh

def component (walk : CaptureWalk R) (root : Uuid) : List (Asset R) :=
  Ordered.sortBy (fun copy => toLex (copy.locationId, copy.id))
    (walk.nodes.filter fun node => walk.parent.root node.id = root)

def answer (walk : CaptureWalk R) (captures : Captures R) (asset : Asset R) : Captures R :=
  let root := walk.parent.root asset.id
  let key := root.hyphenated
  { copies := if (captures.copies key).isSome then captures.copies
      else Function.update captures.copies key (some (component walk root))
    keyOf := Function.update captures.keyOf asset.id (some key) }

/-- `logical_captures`. Every turn but the last visits an asset the catalog holds, so one turn more
than it has assets is enough. -/
def logicalCaptures (v : Vault P R) (assets : List (Asset R)) : Option (Captures R) :=
  (v.captureRounds (v.catalog.assets.rows.length + 1) ⟨[], .empty, []⟩ assets).map fun walk =>
    assets.foldl (answer walk) ⟨fun _ => none, fun _ => none⟩

end Vault

end PlateVault.Library
