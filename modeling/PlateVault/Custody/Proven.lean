import PlateVault.Custody.Checks

/-!
# What a check has seen

A check's log is its calls of the system in their order, whatever each of them answered. A check
changes nothing on disk, and one that passed has seen the recorded entry.
-/

namespace PlateVault.Custody

open Inventory (IoKind Metadata)
open Prog (Logs)

/-! ## Checks change nothing -/

abbrev Log := List (Sigma Look.Answer)

def IsCheck (e : Look) : Prop := e.changes = false

section Checks

variable {α β : Type}

theorem all_look_bind {e : Look} (he : IsCheck e) {f : e.Answer → Checks α}
    (hf : ∀ answer, (f answer).run.All IsCheck) : (look e >>= f).run.All IsCheck :=
  ⟨he, hf⟩

theorem all_bind {p : Checks β} {f : β → Checks α} (hp : p.run.All IsCheck)
    (hf : ∀ b, (f b).run.All IsCheck) : (p >>= f).run.All IsCheck := by
  apply Prog.All.bind hp
  rintro (check | b)
  · exact trivial
  · exact hf b

theorem all_ensure (condition : Bool) (check : Check) : (ensure condition check).run.All IsCheck := by
  unfold ensure
  split
  · exact trivial
  · exact trivial

theorem all_orCheck {ε : Type} (answer : Except ε α) (check : ε → Check) :
    (orCheck answer check).run.All IsCheck := by
  cases answer with
  | ok a => exact trivial
  | error error => exact trivial

theorem all_enterBelow (root : NativePath) (path : PathBuf) :
    (enterBelow root path).run.All IsCheck :=
  all_bind (all_orCheck _ _) fun _ =>
    all_look_bind (by rfl) fun answer => all_orCheck answer id

theorem all_enterRoot (root : Option NativePath) (path : PathBuf) :
    (enterRoot root path).run.All IsCheck := by
  cases root with
  | none => exact trivial
  | some root => exact all_bind (all_enterBelow root path) fun _ => trivial

theorem all_stillBelow (below : Option Nat) (path : PathBuf) :
    (stillBelow below path).run.All IsCheck := by
  cases below with
  | none => exact trivial
  | some below =>
    exact all_look_bind (by rfl) fun answer => all_ensure answer (folderChanged path)

theorem all_rootedCheck (root : Option NativePath) (path : PathBuf) {check : Checks α}
    (h : check.run.All IsCheck) : (rootedCheck root path check).run.All IsCheck :=
  all_bind (all_enterRoot root path) fun _ => all_bind h fun _ =>
    all_bind (all_stillBelow _ path) fun _ => trivial

theorem all_linkHolds (path : PathBuf) (recorded : ObservationFingerprint) (target : NativePath) :
    (linkHolds path recorded target).run.All IsCheck := by
  refine all_look_bind (by rfl) fun _ => all_bind (all_orCheck _ _) fun _ => ?_
  refine all_bind (all_ensure _ _) fun _ => all_look_bind (by rfl) fun _ => ?_
  refine all_bind (all_orCheck _ _) fun _ => all_bind (all_ensure _ _) fun _ => all_ensure _ _

theorem all_handleIs (file : Nat) (inspected : Metadata) (identity : FileIdentity) :
    (handleIs file inspected identity).run.All IsCheck := by
  refine all_look_bind (by rfl) fun answer => ?_
  cases answer with
  | error _ => exact trivial
  | ok handle =>
    simp only
    split
    · exact trivial
    · split
      · exact trivial
      · exact all_look_bind (by rfl) fun _ => trivial

theorem all_openUnchanged (path : PathBuf) (expect : Expect) :
    (openUnchanged path expect).run.All IsCheck := by
  refine all_bind (all_enterRoot _ path) fun below => all_look_bind (by rfl) fun _ => ?_
  refine all_bind (all_orCheck _ _) fun _ => all_bind (all_ensure _ _) fun _ => ?_
  refine all_look_bind (by rfl) fun _ => all_bind (all_orCheck _ _) fun _ => ?_
  refine all_bind (all_ensure _ _) fun _ => all_bind (all_ensure _ _) fun _ => ?_
  have hrest : ∀ file before, ((handleIs file before expect.identity) >>= fun proven =>
      ensure proven (.changed (display path ++ " was replaced while it was opened")) >>= fun _ =>
        (pure ⟨file, before, below⟩ : Checks Opened)).run.All IsCheck := fun file before =>
    all_bind (all_handleIs file before _) fun proven => all_bind (all_ensure proven _) fun _ => trivial
  cases below with
  | some below =>
    exact all_look_bind (by rfl) fun _ => all_bind (all_orCheck _ _) fun file =>
      hrest file _
  | none =>
    exact all_look_bind (by rfl) fun _ => all_bind (all_orCheck _ _) fun file =>
      hrest file _

theorem all_readUnchanged (digest : Text → Text) (path : PathBuf) (expect : Expect) :
    (readUnchanged digest path expect).run.All IsCheck := by
  refine all_bind (all_openUnchanged path expect) fun opened => ?_
  refine all_look_bind (by rfl) fun _ => all_bind (all_orCheck _ _) fun _ => ?_
  refine all_look_bind (by rfl) fun _ => all_bind (all_orCheck _ _) fun _ => ?_
  refine all_look_bind (by rfl) fun _ => all_bind (all_orCheck _ _) fun _ => ?_
  exact all_bind (all_ensure _ _) fun _ => all_bind (all_stillBelow _ path) fun _ => trivial

theorem all_verifyKept (digest : Text → Text) (kept : KeptCopy) :
    (verifyKept digest kept).All IsCheck := by
  unfold verifyKept
  split
  · exact trivial
  · refine Prog.All.bind (all_readUnchanged digest _ _) fun found => ?_
    cases found with
    | error check => exact trivial
    | ok found =>
      simp only
      split
      · exact trivial
      · exact trivial

theorem all_verifySource (digest : Text → Text) (source : EntryEvidence) :
    (verifySource digest source).All IsCheck := by
  have hcheck : ∀ path, (sourceCheck digest source path).run.All IsCheck := by
    intro path
    unfold sourceCheck
    split
    · exact all_rootedCheck _ path (all_linkHolds path _ _)
    · exact all_bind (all_readUnchanged digest path _) fun _ => all_ensure _ _
  unfold verifySource
  split
  · exact trivial
  · refine Prog.All.bind (hcheck _) fun found => ?_
    match found with
    | .ok () => exact trivial
    | .error (.unavailable _) => exact trivial
    | .error (.changed _) => exact trivial

theorem all_observes_bind {p : Observes β} {f : β → Observes α} (hp : p.run.All IsCheck)
    (hf : ∀ b, (f b).run.All IsCheck) : (p >>= f).run.All IsCheck := by
  apply Prog.All.bind hp
  rintro (e | b)
  · exact trivial
  · exact hf b

theorem all_conflict {check : Checks α} (h : check.run.All IsCheck) :
    (conflict check).run.All IsCheck :=
  Prog.All.bind h fun _ => trivial

theorem all_observes_liftM (result : Result α) : (liftM result : Observes α).run.All IsCheck := by
  cases result with
  | ok a => exact trivial
  | error e => exact trivial

theorem all_observe (digest : Text → Text) (path : PathBuf) (root : Option NativePath) :
    (observe digest path root).run.All IsCheck := by
  have hlook : ∀ e, IsCheck e → (conflict (rootedCheck root path (look e))).run.All IsCheck :=
    fun e he => all_conflict (all_rootedCheck root path (all_bind (p := look e) ⟨he, fun _ => trivial⟩
      fun _ => trivial))
  refine all_observes_bind (all_observes_liftM _) fun _ => all_observes_bind (hlook _ rfl) fun _ => ?_
  refine all_observes_bind (all_observes_liftM _) fun metadata => ?_
  split
  · exact all_observes_bind (hlook _ rfl) fun _ => all_observes_bind (all_observes_liftM _) fun _ =>
      trivial
  · refine all_observes_bind (p := ExceptT.lift (see _)) ⟨rfl, fun _ => trivial⟩ fun _ => ?_
    refine all_observes_bind (all_observes_liftM _) fun _ => ?_
    exact all_observes_bind (all_conflict (all_readUnchanged digest path _)) fun _ => trivial

/-! ## What a proof has seen -/

theorem logs_look_bind {e : Look} {f : e.Answer → Checks α} {log : Log} {r : Except Check α} :
    Logs (look e >>= f).run log r ↔
      ∃ answer rest, log = ⟨e, answer⟩ :: rest ∧ Logs (f answer).run rest r :=
  Prog.logs_perform

theorem logs_look {e : Look} {log : Log} {answer : e.Answer} (h : Logs (look e).run log (.ok answer)) :
    log = [⟨e, answer⟩] := by
  obtain ⟨found, rest, rfl, h₁⟩ := Prog.logs_perform.mp h
  obtain ⟨rfl, hfound⟩ := Prog.logs_pure.mp h₁
  cases hfound
  rfl

theorem logs_ensure_bind {condition : Bool} {check : Check} {f : Unit → Checks α} {log : Log} {a : α}
    (h : Logs (ensure condition check >>= f).run log (.ok a)) :
    condition = true ∧ Logs (f ()).run log (.ok a) := by
  cases condition with
  | true => exact ⟨rfl, h⟩
  | false => cases h

theorem logs_ensure {condition : Bool} {check : Check} {log : Log} {u : Unit}
    (h : Logs (ensure condition check).run log (.ok u)) : condition = true := by
  cases condition with
  | true => rfl
  | false => cases h

theorem logs_orCheck_bind {ε : Type} {answer : Except ε β} {check : ε → Check} {f : β → Checks α}
    {log : Log} {a : α} (h : Logs (orCheck answer check >>= f).run log (.ok a)) :
    ∃ b, answer = .ok b ∧ Logs (f b).run log (.ok a) := by
  cases answer with
  | ok b => exact ⟨b, rfl, h⟩
  | error error => cases h

/-- The entry was probed as the expected one, and a handle proven to be that entry. -/
structure OpenedAs (path : PathBuf) (expect : Expect) (log : Log) (opened : Opened) : Prop where
  regular : ⟨.symlinkMetadata path, .ok opened.before⟩ ∈ log ∧ opened.before.link = false ∧
    opened.before.isFile = true
  probed : ∃ fingerprint, ⟨.probeFingerprint path, .ok fingerprint⟩ ∈ log ∧
    sameIdentity fingerprint.identity expect.identity = true ∧
    fingerprint.sizeBytes = expect.sizeBytes ∧
    ∀ modified ∈ expect.modifiedNs, fingerprint.modifiedNs = modified
  handle : ∃ handle, ⟨.fileMetadata opened.file, .ok handle⟩ ∈ log ∧
    sameEntry opened.before handle = true ∧
    (expect.identity.volume.fileIdsStable = true → ∃ fileId,
      ⟨.openedFileId opened.file, some fileId⟩ ∈ log ∧
      fileIdsMatch expect.identity.fileId (some fileId) = true)

theorem handleIs_true {file : Nat} {inspected : Metadata} {identity : FileIdentity} {log : Log}
    (h : Logs (handleIs file inspected identity).run log (.ok true)) :
    ∃ handle, ⟨.fileMetadata file, .ok handle⟩ ∈ log ∧ sameEntry inspected handle = true ∧
      (identity.volume.fileIdsStable = true → ∃ fileId, ⟨.openedFileId file, some fileId⟩ ∈ log ∧
        fileIdsMatch identity.fileId (some fileId) = true) := by
  obtain ⟨answer, rest, rfl, h₁⟩ := logs_look_bind.mp h
  cases answer with
  | error _ => cases h₁
  | ok handle =>
    simp only at h₁
    cases hsame : sameEntry inspected handle with
    | false =>
      rw [hsame] at h₁
      cases h₁
    | true =>
      refine ⟨handle, List.mem_cons_self, hsame, fun hstable => ?_⟩
      rw [hsame, hstable] at h₁
      obtain ⟨opened, rest', rfl, h₂⟩ := logs_look_bind.mp h₁
      obtain ⟨-, hmatch⟩ := Prog.logs_pure.mp h₂
      obtain ⟨hsome, hids⟩ := Bool.and_eq_true_iff.mp (Except.ok.inj hmatch).symm
      obtain ⟨fileId, rfl⟩ := Option.isSome_iff_exists.mp hsome
      exact ⟨fileId, by simp, hids⟩

theorem openUnchanged_ok {path : PathBuf} {expect : Expect} {log : Log} {opened : Opened}
    (h : Logs (openUnchanged path expect).run log (.ok opened)) : OpenedAs path expect log opened := by
  obtain ⟨front, back, below, rfl, -, h₁⟩ := Prog.logs_bind_ok h
  obtain ⟨metadata, rest, rfl, h₂⟩ := logs_look_bind.mp h₁
  obtain ⟨before, rfl, h₃⟩ := logs_orCheck_bind h₂
  obtain ⟨hregular, h₄⟩ := logs_ensure_bind h₃
  obtain ⟨probe, rest', rfl, h₅⟩ := logs_look_bind.mp h₄
  obtain ⟨fingerprint, rfl, h₆⟩ := logs_orCheck_bind h₅
  obtain ⟨hidentity, h₇⟩ := logs_ensure_bind h₆
  obtain ⟨hstats, h₈⟩ := logs_ensure_bind h₇
  have hrest : ∃ file rest'', (∀ call ∈ rest'', call ∈ rest') ∧
      Logs ((handleIs file before expect.identity) >>= fun proven =>
        ensure proven (.changed (display path ++ " was replaced while it was opened")) >>= fun _ =>
          (pure ⟨file, before, below⟩ : Checks Opened)).run rest'' (.ok opened) := by
    cases below with
    | some below =>
      obtain ⟨answer, rest'', rfl, h₉⟩ := logs_look_bind.mp h₈
      obtain ⟨file, -, h₁₀⟩ := logs_orCheck_bind h₉
      exact ⟨file, rest'', fun _ hcall => List.mem_cons_of_mem _ hcall, h₁₀⟩
    | none =>
      obtain ⟨answer, rest'', rfl, h₉⟩ := logs_look_bind.mp h₈
      obtain ⟨file, -, h₁₀⟩ := logs_orCheck_bind h₉
      exact ⟨file, rest'', fun _ hcall => List.mem_cons_of_mem _ hcall, h₁₀⟩
  obtain ⟨file, rest'', hsub, h₁₁⟩ := hrest
  obtain ⟨first, last, proven, rfl, hhandle, h₁₂⟩ := Prog.logs_bind_ok h₁₁
  obtain ⟨rfl, h₁₃⟩ := logs_ensure_bind h₁₂
  obtain ⟨-, hopened⟩ := Prog.logs_pure.mp h₁₃
  cases hopened
  obtain ⟨handle, hmem, hsame, hids⟩ := handleIs_true hhandle
  have hlift : ∀ call ∈ first, call ∈ front ++ (⟨.symlinkMetadata path, .ok before⟩ ::
      ⟨.probeFingerprint path, .ok fingerprint⟩ :: rest' : Log) := by
    intro call hcall
    exact List.mem_append_right _ (List.mem_cons_of_mem _ (List.mem_cons_of_mem _
      (hsub call (List.mem_append_left _ hcall))))
  simp only [Bool.and_eq_true, Bool.not_eq_true', decide_eq_true_eq] at hregular hstats
  refine ⟨⟨by simp, hregular.1, hregular.2⟩, ⟨fingerprint, by simp, hidentity, hstats.1, ?_⟩,
    handle, hlift _ hmem, hsame, fun hstable => ?_⟩
  · intro modified hmodified
    have := hstats.2
    rw [hmodified] at this
    exact of_decide_eq_true this
  · obtain ⟨fileId, hid, hmatch⟩ := hids hstable
    exact ⟨fileId, hlift _ hid, hmatch⟩

/-- The bytes read through the proven handle have the SHA-256 `found`, and the path still named that
entry, unchanged, after they were read. -/
structure ReadAs (digest : Text → Text) (path : PathBuf) (expect : Expect) (log : Log)
    (found : Text) : Prop where
  bytes : ∃ opened text, OpenedAs path expect log opened ∧
    ⟨.readToEnd opened.file, .ok text⟩ ∈ log ∧ found = digest text ∧
    ∃ after, ⟨.symlinkMetadata path, .ok after⟩ ∈ log ∧ sameEntry opened.before after = true ∧
      sameStats opened.before after = true

theorem OpenedAs.mono {path : PathBuf} {expect : Expect} {log log' : Log} {opened : Opened}
    (hsub : log ⊆ log') (h : OpenedAs path expect log opened) : OpenedAs path expect log' opened where
  regular := ⟨hsub h.regular.1, h.regular.2⟩
  probed := by
    obtain ⟨fingerprint, hmem, hrest⟩ := h.probed
    exact ⟨fingerprint, hsub hmem, hrest⟩
  handle := by
    obtain ⟨handle, hmem, hsame, hids⟩ := h.handle
    refine ⟨handle, hsub hmem, hsame, fun hstable => ?_⟩
    obtain ⟨fileId, hid, hmatch⟩ := hids hstable
    exact ⟨fileId, hsub hid, hmatch⟩

theorem ReadAs.mono {digest : Text → Text} {path : PathBuf} {expect : Expect} {log log' : Log}
    {found : Text} (hsub : log ⊆ log') (h : ReadAs digest path expect log found) :
    ReadAs digest path expect log' found := by
  obtain ⟨opened, text, hopened, hbytes, hfound, after, hafter, hrest⟩ := h.bytes
  exact ⟨opened, text, hopened.mono hsub, hsub hbytes, hfound, after, hsub hafter, hrest⟩

theorem readUnchanged_ok {digest : Text → Text} {path : PathBuf} {expect : Expect} {log : Log}
    {found : Text} (h : Logs (readUnchanged digest path expect).run log (.ok found)) :
    ReadAs digest path expect log found := by
  obtain ⟨front, back, opened, rfl, hopened, h₁⟩ := Prog.logs_bind_ok h
  obtain ⟨read, rest, rfl, h₂⟩ := logs_look_bind.mp h₁
  obtain ⟨text, rfl, h₃⟩ := logs_orCheck_bind h₂
  obtain ⟨stats, rest', rfl, h₄⟩ := logs_look_bind.mp h₃
  obtain ⟨readStats, rfl, h₅⟩ := logs_orCheck_bind h₄
  obtain ⟨look, rest'', rfl, h₆⟩ := logs_look_bind.mp h₅
  obtain ⟨after, rfl, h₇⟩ := logs_orCheck_bind h₆
  obtain ⟨hunchanged, h₈⟩ := logs_ensure_bind h₇
  obtain ⟨first, last, u, rfl, -, h₉⟩ := Prog.logs_bind_ok h₈
  obtain ⟨-, hfound⟩ := Prog.logs_pure.mp h₉
  cases hfound
  simp only [Bool.and_eq_true] at hunchanged
  exact ⟨opened, text, (openUnchanged_ok hopened).mono (List.subset_append_left ..), by simp, rfl, after, by simp,
    hunchanged.1.2, hunchanged.2⟩

/-- The link was seen with its recorded target and fingerprint. -/
def LinkSeen (path : PathBuf) (recorded : ObservationFingerprint) (target : NativePath) (log : Log) :
    Prop :=
  ∃ observed, ⟨.linkFingerprint path, .ok (observed, target)⟩ ∈ log ∧
    observed.equivalent recorded = true

theorem rootedCheck_ok {root : Option NativePath} {path : PathBuf} {check : Checks α} {log : Log}
    {a : α} (h : Logs (rootedCheck root path check).run log (.ok a)) :
    ∃ front own back, log = front ++ (own ++ back) ∧ Logs check.run own (.ok a) := by
  obtain ⟨front, rest, below, rfl, -, h₁⟩ := Prog.logs_bind_ok h
  obtain ⟨own, back, found, rfl, hown, h₂⟩ := Prog.logs_bind_ok h₁
  obtain ⟨first, last, u, rfl, -, h₃⟩ := Prog.logs_bind_ok h₂
  obtain ⟨-, hfound⟩ := Prog.logs_pure.mp h₃
  cases hfound
  exact ⟨front, own, first ++ last, rfl, hown⟩

theorem linkHolds_ok {path : PathBuf} {recorded : ObservationFingerprint} {target : NativePath}
    {log : Log} {u : Unit} (h : Logs (linkHolds path recorded target).run log (.ok u)) :
    LinkSeen path recorded target log := by
  obtain ⟨answer, rest, rfl, h₁⟩ := logs_look_bind.mp h
  obtain ⟨metadata, rfl, h₂⟩ := logs_orCheck_bind h₁
  obtain ⟨-, h₃⟩ := logs_ensure_bind h₂
  obtain ⟨answer, rest', rfl, h₄⟩ := logs_look_bind.mp h₃
  obtain ⟨⟨observed, observedTarget⟩, rfl, h₅⟩ := logs_orCheck_bind h₄
  obtain ⟨htarget, h₆⟩ := logs_ensure_bind h₅
  have hequivalent := logs_ensure h₆
  cases of_decide_eq_true htarget
  exact ⟨observed, by simp, hequivalent⟩

end Checks

/-! ## What a verified or unmoved entry has shown -/

/-- The source showed its recorded identity and, a file, its recorded digest. -/
def SourceSeen (digest : Text → Text) (source : EntryEvidence) (path : PathBuf) (log : Log) : Prop :=
  match source.kind with
  | .file => ∃ found, ReadAs digest path (.source source) log found ∧ some found = source.sha256
  | .link target => LinkSeen path source.fingerprint target log

/-- The kept copy showed its recorded identity and digest. -/
def KeptSeen (digest : Text → Text) (kept : KeptCopy) (log : Log) : Prop :=
  ∃ path, pathOf kept.path = .ok path ∧
    ReadAs digest path { Expect.recorded kept.fingerprint with root := kept.root } log kept.sha256

/-- The entry with the recorded identity was seen at its path. -/
def InPlaceSeen (source : EntryEvidence) (path : PathBuf) (log : Log) : Prop :=
  match source.kind with
  | .file => ∃ observed, ⟨.probeFingerprint path, .ok observed⟩ ∈ log ∧
      observed.equivalent source.fingerprint = true
  | .link target => LinkSeen path source.fingerprint target log

theorem LinkSeen.within {path : PathBuf} {recorded : ObservationFingerprint} {target : NativePath}
    {front own back : Log} (h : LinkSeen path recorded target own) :
    LinkSeen path recorded target (front ++ (own ++ back)) := by
  obtain ⟨observed, hmem, hequivalent⟩ := h
  exact ⟨observed, List.mem_append_right _ (List.mem_append_left _ hmem), hequivalent⟩

theorem verifySource_ok {digest : Text → Text} {source : EntryEvidence} {path : PathBuf}
    (hpath : pathOf source.path = .ok path) {log : Log} {u : Unit}
    (h : Logs (verifySource digest source) log (.ok u)) : SourceSeen digest source path log := by
  unfold verifySource at h
  rw [hpath] at h
  obtain ⟨front, back, found, rfl, hfront, h₁⟩ := Prog.logs_bind.mp h
  match found with
  | .error (.unavailable _) => cases h₁
  | .error (.changed _) => cases h₁
  | .ok () =>
    obtain ⟨rfl, -⟩ := Prog.logs_pure.mp h₁
    rw [List.append_nil]
    unfold sourceCheck at hfront
    unfold SourceSeen
    cases hkind : source.kind with
    | link target =>
      rw [hkind] at hfront
      obtain ⟨first, own, last, rfl, hown⟩ := rootedCheck_ok hfront
      exact (linkHolds_ok hown).within
    | file =>
      rw [hkind] at hfront
      obtain ⟨first, last, found, rfl, hread, hrest⟩ := Prog.logs_bind_ok hfront
      have hsha := of_decide_eq_true (logs_ensure hrest)
      exact ⟨found, (readUnchanged_ok hread).mono (List.subset_append_left ..), hsha⟩

theorem verifyKept_ok {digest : Text → Text} {kept : KeptCopy} {log : Log} {u : Unit}
    (h : Logs (verifyKept digest kept) log (.ok u)) : KeptSeen digest kept log := by
  unfold verifyKept at h
  cases hpath : pathOf kept.path with
  | error reason =>
    rw [hpath] at h
    cases h
  | ok path =>
    rw [hpath] at h
    obtain ⟨front, back, found, rfl, hfront, h₁⟩ := Prog.logs_bind.mp h
    cases found with
    | error check => cases h₁
    | ok found =>
      simp only at h₁
      by_cases hsha : found = kept.sha256
      · rw [if_pos hsha] at h₁
        obtain ⟨rfl, -⟩ := Prog.logs_pure.mp h₁
        rw [List.append_nil]
        exact ⟨path, hpath, hsha ▸ readUnchanged_ok hfront⟩
      · rw [if_neg hsha] at h₁
        cases h₁

theorem inPlace_true {source : EntryEvidence} {path : PathBuf} (hpath : pathOf source.path = .ok path)
    {log : Log} (h : Logs (inPlace source) log true) : InPlaceSeen source path log := by
  have hbuf : source.path.toPathBuf = .ok path := by
    cases hto : source.path.toPathBuf with
    | error error =>
      unfold pathOf at hpath
      rw [hto] at hpath
      cases hpath
    | ok found =>
      unfold pathOf at hpath
      rw [hto] at hpath
      cases hpath
      rfl
  unfold inPlace at h
  rw [hbuf] at h
  obtain ⟨front, back, found, rfl, hfront, h₁⟩ := Prog.logs_bind.mp h
  obtain ⟨rfl, hok⟩ := Prog.logs_pure.mp h₁
  cases found with
  | error check => cases hok
  | ok u =>
    rw [List.append_nil]
    obtain ⟨first, own, last, rfl, hown⟩ := rootedCheck_ok hfront
    unfold InPlaceSeen
    cases hkind : source.kind with
    | link target =>
      rw [hkind] at hown
      exact (linkHolds_ok hown).within
    | file =>
      rw [hkind] at hown
      obtain ⟨answer, rest, rfl, hrest⟩ := logs_look_bind.mp hown
      have hany := logs_ensure hrest
      cases answer with
      | error _ => cases hany
      | ok observed => exact ⟨observed, by simp, hany⟩

/-! ## What an observation has seen -/

/-- The evidence is of the link or the bytes seen at the path. -/
def Observed (digest : Text → Text) (path : PathBuf) (root : Option NativePath)
    (evidence : EntryEvidence) (log : Log) : Prop :=
  match evidence.kind with
  | .link target => ⟨.linkFingerprint path, .ok (evidence.fingerprint, target)⟩ ∈ log
  | .file => ∃ found, evidence.sha256 = some found ∧
      ReadAs digest path { Expect.recorded evidence.fingerprint with root } log found

theorem logs_conflict_ok {α : Type} {check : Checks α} {log : Log} {a : α}
    (h : Logs (conflict check).run log (.ok a)) : Logs check.run log (.ok a) := by
  obtain ⟨front, back, found, rfl, hfront, h₁⟩ := Prog.logs_bind.mp h
  obtain ⟨rfl, hok⟩ := Prog.logs_pure.mp h₁
  cases found with
  | error check => cases hok
  | ok b =>
    cases hok
    rwa [List.append_nil]

theorem logs_liftM_ok {α β : Type} {result : Result β} {f : β → Observes α} {log : Log} {a : α}
    (h : Logs (liftM result >>= f).run log (.ok a)) :
    ∃ b, result = .ok b ∧ Logs (f b).run log (.ok a) := by
  cases result with
  | ok b => exact ⟨b, rfl, h⟩
  | error e => cases h

theorem observe_ok {digest : Text → Text} {path : PathBuf} {root : Option NativePath} {log : Log}
    {evidence : EntryEvidence} (h : Logs (observe digest path root).run log (.ok evidence)) :
    Observed digest path root evidence log := by
  obtain ⟨-, -, h₁⟩ := logs_liftM_ok h
  obtain ⟨front, back, answer, rfl, -, h₂⟩ := Prog.logs_bind_ok h₁
  obtain ⟨metadata, -, h₃⟩ := logs_liftM_ok h₂
  by_cases hlink : metadata.link = true
  · rw [if_pos hlink] at h₃
    obtain ⟨own, rest, answer, rfl, hown, h₄⟩ := Prog.logs_bind_ok h₃
    obtain ⟨⟨fingerprint, target⟩, rfl, h₅⟩ := logs_liftM_ok h₄
    obtain ⟨rfl, hevidence⟩ := Prog.logs_pure.mp h₅
    cases hevidence
    obtain ⟨first, seen, last, rfl, hseen⟩ := rootedCheck_ok (logs_conflict_ok hown)
    cases logs_look hseen
    simp [Observed]
  · rw [if_neg hlink] at h₃
    obtain ⟨answer, rest, rfl, h₄⟩ := Prog.logs_act_bind.mp h₃
    obtain ⟨fingerprint, rfl, h₅⟩ := logs_liftM_ok h₄
    obtain ⟨own, last, found, rfl, hread, h₆⟩ := Prog.logs_bind_ok h₅
    obtain ⟨rfl, hevidence⟩ := Prog.logs_pure.mp h₆
    cases hevidence
    refine ⟨found, rfl, (readUnchanged_ok (logs_conflict_ok hread)).mono fun call hcall => ?_⟩
    exact List.mem_append_right _ (List.mem_cons_of_mem _ (List.mem_append_left _ hcall))

end PlateVault.Custody
