import PlateVault.Apply.Interrupted
import PlateVault.Apply.Tracked

/-!
# The manifests across Applies

Every program of an Apply keeps `Inv` at each stop. Up to the swap it does so phase by phase; once
the way is clear, `Tail` holds and each effect left keeps it.
-/

namespace PlateVault

namespace TrackedProject

open Prog (all_pure all_act_bind keeps_act_bind)

/-! ## The tail -/

section All

variable {ok : Effect → Prop}

theorem all_rename {source target : Name} (hmove : ok (.renameNoReplace source target))
    (hover : ok (.renameOver source target)) (hfile : ok (.persistFile source target))
    (hmake : ok (.createDir target)) (hread : ok (.isDir source))
    (hremove : ∀ placeholder, ok (.removePlaceholder target placeholder)) :
    (ApplyProg.rename source target).All ok := by
  have hplaceholder : ∀ placeholder, (ApplyProg.overPlaceholder source target placeholder).All ok := by
    intro placeholder
    refine all_act_bind hover ?_
    rintro (error | ⟨⟩)
    · exact all_act_bind (hremove placeholder) fun _ => all_pure _
    · exact all_pure _
  refine all_act_bind hmove ?_
  rintro (error | ⟨⟩)
  · cases error with
    | unsupported =>
      refine all_act_bind hread ?_
      rintro (error | _ | _)
      · exact all_pure _
      · exact Prog.all_act hfile
      · refine all_act_bind hmake ?_
        rintro (error | placeholder)
        · exact all_pure _
        · exact hplaceholder placeholder
    | alreadyExists => exact all_pure _
    | held => exact all_pure _
    | other => exact all_pure _
  · exact all_pure _

theorem all_recording {write : CatalogWrite} {rest : ApplyProg Ended} (hwrite : ok (.catalog write))
    (hrest : rest.All ok) : (ApplyProg.recording write rest).All ok := by
  refine all_act_bind hwrite ?_
  rintro (_ | _)
  · exact all_pure _
  · exact hrest

theorem all_unlessInterrupted {rest : ApplyProg Ended} (hread : ok .interrupted)
    (hrest : rest.All ok) : (ApplyProg.unlessInterrupted rest).All ok := by
  refine all_act_bind hread ?_
  rintro (_ | _)
  · exact hrest
  · exact all_pure _

theorem all_endApply {buildingMade : Bool} {stop : ApplyStop} (hclear : ok .clearBuilding)
    (hdiscard : ok (.catalog .discardApply)) :
    (ApplyProg.endApply buildingMade stop).All ok := by
  unfold ApplyProg.endApply
  split
  · exact all_act_bind hclear fun _ => all_recording hdiscard (all_pure _)
  · exact all_recording hdiscard (all_pure _)

end All

def InTail (effect : Effect) : Prop := tailOk effect = true

theorem tail_rename {source target : Name} (htarget : target ≠ .building) :
    (ApplyProg.rename source target).All InTail :=
  all_rename rfl rfl rfl (by simpa [InTail, tailOk] using htarget) rfl fun _ => rfl

theorem tail_endApply {buildingMade : Bool} {stop : ApplyStop} :
    (ApplyProg.endApply buildingMade stop).All InTail :=
  all_endApply rfl rfl

theorem tail_waitAside (polls : Nat) : (ApplyProg.waitAside polls).All InTail := by
  induction polls with
  | zero => exact all_pure _
  | succ polls ih =>
    refine all_act_bind rfl fun canceled => ?_
    split
    · exact all_pure _
    · refine all_act_bind rfl fun canceled => ?_
      split
      · exact all_pure _
      · refine (tail_rename (by decide)).bind ?_
        rintro ((_ | _ | _ | _) | ⟨⟩)
        · exact all_pure _
        · exact all_pure _
        · exact ih
        · exact all_pure _
        · exact all_pure _

theorem tail_setOldViewAside (polls : Nat) (buildingMade : Bool) :
    (ApplyProg.setOldViewAside polls buildingMade).All InTail := by
  have hmove : (ApplyProg.moveOldViewAside polls).All InTail := by
    refine (tail_rename (by decide)).bind ?_
    rintro ((_ | _ | _ | _) | ⟨⟩)
    · exact all_pure _
    · exact all_pure _
    · refine all_act_bind rfl ?_
      rintro (_ | _)
      · exact all_pure _
      · exact (tail_waitAside polls).bind fun _ => all_pure _
    · exact all_pure _
    · exact all_pure _
  have hafter : (ApplyProg.afterWait buildingMade).All InTail := by
    refine all_recording rfl (all_act_bind rfl ?_)
    rintro (_ | _ | _)
    · exact all_pure _
    · refine (tail_rename (by decide)).bind ?_
      rintro (_ | ⟨⟩)
      · exact all_pure _
      · exact tail_endApply
    · exact all_recording rfl (all_pure _)
  refine hmove.bind ?_
  rintro (_ | ⟨_ | _ | _ | _, _ | _⟩)
  · exact all_pure _
  · exact all_recording rfl (all_pure _)
  · exact hafter
  · exact tail_endApply
  · exact tail_endApply
  · exact tail_endApply
  · exact tail_endApply
  · exact all_pure _
  · exact all_pure _

theorem tail_install (old buildingMade : Bool) :
    (ApplyProg.install old buildingMade).All InTail := by
  refine (tail_rename (by decide)).bind ?_
  rintro (_ | ⟨⟩)
  · simp only
    split
    · refine (tail_rename (by decide)).bind ?_
      rintro (_ | ⟨⟩)
      · exact all_pure _
      · exact tail_endApply
    · exact tail_endApply
  · exact all_recording rfl (all_unlessInterrupted rfl (all_pure _))

theorem tail_settle (previous : Bool) (phase : ApplyPhase) :
    (ApplyProg.settle previous phase).All InTail := by
  have hretiring : (do
      let gone ← ApplyProg.act .retire
      ApplyProg.recording (.settleApply gone) (pure .reported) : ApplyProg Ended).All InTail :=
    all_act_bind rfl fun _ => all_recording rfl (all_pure _)
  unfold ApplyProg.settle
  split
  · exact all_recording rfl (all_pure _)
  · split
    · exact all_recording rfl (all_unlessInterrupted rfl hretiring)
    · exact hretiring

theorem tail_finishInstalled (phase : ApplyPhase) :
    (ApplyProg.finishInstalled phase).All InTail := by
  have hafter : ∀ phase, (ApplyProg.afterCommit phase).All InTail := by
    intro phase
    refine all_act_bind rfl fun previous => ?_
    split
    · refine all_act_bind rfl ?_
      rintro (_ | _)
      · exact all_pure _
      · exact all_recording rfl (all_unlessInterrupted rfl (tail_settle _ _))
    · exact tail_settle _ _
  unfold ApplyProg.finishInstalled
  split
  · exact all_recording rfl (all_unlessInterrupted rfl (hafter _))
  · exact hafter _

theorem keeps_tail {α : Type} {program : ApplyProg α} {s : TrackedProject}
    (htail : program.All InTail) (hs : Tail s) :
    program.Keeps (step Conditions.met) Inv (fun _ => Tail) s :=
  (htail.keeps (fun _ => Tail.of_step) hs).mono (fun _ h => h.toInv) fun _ _ _ h => h

/-! ## Up to the swap -/

variable {s next : TrackedProject} {phase : ApplyPhase} {α : Type}

/-- The Apply is at `phase`. -/
def At (phase : ApplyPhase) (s : TrackedProject) : Prop :=
  Inv s ∧ ∃ journal, s.project.journal = some journal ∧ journal.phase = phase

def Ends (ended : Ended) (s : TrackedProject) : Prop := ended = .goesOn → Tail s

theorem Quiet.of_eq (hbuilt : next.built = s.built) (hproject : next.project = s.project) :
    Quiet s next := by
  refine ⟨hbuilt, by rw [hproject], by rw [hproject], by rw [hproject], ?_⟩
  rintro ⟨name, hname, fileId, hid, hholds⟩
  exact ⟨name, hname, fileId, hbuilt ▸ hid, hproject ▸ hholds⟩

theorem At.others (h : At phase s) (hothers : Conditions.met.others s next) :
    At phase next ∧ Leaves s next := by
  obtain ⟨hinv, journal, hjournal, hphase⟩ := h
  exact ⟨⟨hinv.others hothers, journal, hothers.1.journal.trans hjournal, hphase⟩,
    hothers.2 (by simp [hjournal])⟩

theorem At.quiet (h : At phase s) (hquiet : Quiet s next) : At phase next := by
  obtain ⟨hinv, journal, hjournal, hphase⟩ := h
  exact ⟨hinv.quiet hquiet, journal, hquiet.journal.trans hjournal, hphase⟩

theorem At.keeps_act {effect : Effect} {rest : effect.Answer → ApplyProg α}
    {Q : α → TrackedProject → Prop} (hharmless : harmless effect = true) (h : At phase s)
    (hrest : ∀ answer next, At phase next →
      (rest answer).Keeps (step Conditions.met) Inv Q next) :
    (ApplyProg.act effect >>= rest).Keeps (step Conditions.met) Inv Q s := by
  refine keeps_act_bind h.1 fun answer next ⟨between, hothers, heffect, htracks⟩ => ?_
  exact hrest answer next ((h.others hothers).1.quiet (quiet_of_harmless hharmless htracks heffect))

theorem keeps_write {write : CatalogWrite} {rest : ApplyProg Ended} {Q : Ended → TrackedProject → Prop}
    (hs : Inv s) (hbroke : ∀ s, Q .brokeOff s)
    (hrest : ∀ between next, Conditions.met.others s between →
      write.run between.project = some next.project →
      next.built = tracked between.built (.catalog write) true →
      rest.Keeps (step Conditions.met) Inv Q next) :
    (ApplyProg.recording write rest).Keeps (step Conditions.met) Inv Q s := by
  refine keeps_act_bind hs ?_
  rintro (_ | _) next ⟨between, hothers, heffect, htracks⟩
  · have heq : next.project = between.project := heffect
    have hbuilt : next.built = between.built := by
      rw [htracks.2]
      cases write <;> rfl
    exact ⟨(hs.others hothers).quiet (.of_eq hbuilt heq), hbroke _⟩
  · exact hrest between next hothers heffect htracks.2

theorem keeps_discard {Q : Ended → TrackedProject → Prop} (hs : Inv s)
    (hbroke : ∀ s, Q .brokeOff s) (hreported : ∀ s, Q .reported s) :
    (ApplyProg.recording .discardApply (pure .reported)).Keeps (step Conditions.met) Inv Q s := by
  refine keeps_write hs hbroke fun between next hothers hrun _ => ?_
  obtain ⟨hunique, hjournal, hgenerations⟩ := CatalogWrite.run_discard hrun
  exact ⟨.of_settled hunique (hgenerations ▸ (hs.others hothers).generations) hjournal,
    hreported _⟩

theorem keeps_endApply {buildingMade : Bool} {stop : ApplyStop} {Q : Ended → TrackedProject → Prop}
    (hs : Inv s) (hbroke : ∀ s, Q .brokeOff s) (hreported : ∀ s, Q .reported s) :
    (ApplyProg.endApply buildingMade stop).Keeps (step Conditions.met) Inv Q s := by
  unfold ApplyProg.endApply
  split
  · refine keeps_act_bind hs fun answer next ⟨between, hothers, heffect, htracks⟩ => ?_
    exact keeps_discard ((hs.others hothers).quiet (quiet_of_harmless rfl htracks heffect))
      hbroke hreported
  · exact keeps_discard hs hbroke hreported

theorem At.keeps_end {buildingMade : Bool} {stop : ApplyStop} (h : At phase s) :
    (ApplyProg.endApply buildingMade stop).Keeps (step Conditions.met) Inv Ends s :=
  keeps_endApply h.1 (by simp [Ends]) (by simp [Ends])

theorem At.keeps_unlessInterrupted {rest : ApplyProg Ended} (h : At phase s)
    (hrest : ∀ next, At phase next → rest.Keeps (step Conditions.met) Inv Ends next) :
    (ApplyProg.unlessInterrupted rest).Keeps (step Conditions.met) Inv Ends s := by
  refine h.keeps_act rfl fun answer next hnext => ?_
  split
  · exact ⟨hnext.1, by simp [Ends]⟩
  · exact hrest next hnext

theorem At.keeps_advance {later : ApplyPhase} {expected : Option ExpectedTree}
    {write : CatalogWrite} {rest : ApplyProg Ended}
    (hwrite : ∀ state, write.run state = (CatalogWrite.advanceApply later expected).run state)
    (htracked : ∀ built, tracked built (.catalog write) true = built) (h : At phase s)
    (hlater : later.rank < ApplyPhase.newInstalled.rank)
    (hrecorded : ApplyPhase.building.rank ≤ later.rank → ∀ between, At phase between →
      between.built = s.built → between.project.volume = s.project.volume → ∀ journal,
      between.project.journal = some journal → ∃ fileId, between.built = some fileId ∧
        (expected.getD journal.expected).building =
          some (identityOf between.project.volume fileId))
    (hrest : ∀ next, At later next → rest.Keeps (step Conditions.met) Inv Ends next) :
    (ApplyProg.recording write rest).Keeps (step Conditions.met) Inv Ends s := by
  refine keeps_write h.1 (by simp [Ends]) fun between next hothers hrun hbuilt => ?_
  rw [hwrite] at hrun
  have hbetween := (h.others hothers).1
  have hnext : Inv next := hbetween.1.advance (hbuilt.trans (htracked _)) hrun
    (fun hinstalled => absurd hlater (Nat.not_lt_of_le hinstalled))
    fun hbuilding => hrecorded hbuilding between hbetween hothers.1.built hothers.1.volume
  obtain ⟨journal, -, -, hproject⟩ := CatalogWrite.run_advance hrun
  exact hrest next ⟨hnext, _, by rw [hproject], rfl⟩

theorem At.recorded (hbuilding : ApplyPhase.building.rank ≤ phase.rank) (h : At phase s)
    (journal : ApplyJournal) (hjournal : s.project.journal = some journal) :
    ∃ fileId, s.built = some fileId ∧
      journal.expected.building = some (identityOf s.project.volume fileId) := by
  obtain ⟨hinv, found, hfound, rfl⟩ := h
  obtain rfl : found = journal := Option.some.inj (hfound.symm.trans hjournal)
  exact hinv.recorded found hjournal hbuilding

/-! ## The build -/

/-- The folder `View (building)/` was made under `identity`. -/
def MadeAs (identity : FileIdentity) (s : TrackedProject) : Prop :=
  ∃ fileId, s.built = some fileId ∧ identity = identityOf s.project.volume fileId

theorem At.createDir (h : At .sourcesVerified s) {folder : Entry}
    (hstep : step Conditions.met s (.createDir .building) (.ok folder) next) :
    At .sourcesVerified next ∧ next.BuiltAt .building := by
  obtain ⟨between, hothers, ⟨hnone, hfresh, hproject⟩, htracks⟩ := hstep
  obtain ⟨⟨hinv, journal, hjournal, hphase⟩, -⟩ := h.others hothers
  have hbuilt : next.built = some folder.fileId := htracks.2
  have hsame : next.project.manifests = between.project.manifests := by rw [hproject]; rfl
  have hjournal' : next.project.journal = some journal := by rw [hproject]; exact hjournal
  have hout : ¬ next.Out := by
    rintro ⟨name, hname, fileId, hid, there, hthere, hdir, rfl⟩
    rw [hproject, ProjectState.put_entry_of_ne _ hname] at hthere
    rw [hbuilt] at hid
    exact hfresh.2.2 name there hthere (Option.some.inj hid).symm
  refine ⟨⟨⟨hsame ▸ hinv.unique, hsame ▸ hinv.generations, ?_, ?_, ?_⟩, journal, hjournal', hphase⟩,
    folder.fileId, hbuilt, folder, by rw [hproject]; exact ProjectState.put_entry .., hfresh.1, rfl⟩
  · intro found hfound hrank
    rw [hsame]
    exact hinv.building found (hjournal.trans (hjournal'.symm.trans hfound)) hrank
  · intro found hfound _ hinstalled
    obtain rfl : journal = found := Option.some.inj (hjournal'.symm.trans hfound)
    rw [hphase] at hinstalled
    exact absurd (hinstalled.resolve_right hout) (by decide)
  · intro found hfound hbuilding
    obtain rfl : journal = found := Option.some.inj (hjournal'.symm.trans hfound)
    rw [hphase] at hbuilding
    exact absurd hbuilding (by decide)

/-- What `makeBuilding` does once the folder in its way is dealt with. -/
def afterClearing (cleared : Bool) : ApplyProg (Option (Except ApplyStop FileIdentity)) := do
  if !cleared then pure (some (.error .buildingNotCleared))
  else do
    match ← ApplyProg.act (.createDir .building) with
    | .error _ => pure none
    | .ok _ => do
      let identity ← ApplyProg.act (.observe .building)
      pure (identity.map .ok)

theorem At.keeps_makeBuilding (h : At .sourcesVerified s) :
    ApplyProg.makeBuilding.Keeps (step Conditions.met) Inv (fun answer next =>
      At .sourcesVerified next ∧ ∀ identity, answer = some (.ok identity) → MadeAs identity next)
      s := by
  have hmake : ∀ (cleared : Bool) {s : TrackedProject}, At .sourcesVerified s →
      (afterClearing cleared).Keeps (step Conditions.met) Inv (fun answer next =>
        At .sourcesVerified next ∧ ∀ identity, answer = some (.ok identity) → MadeAs identity next)
        s := by
    intro cleared s h
    unfold afterClearing
    split
    · exact ⟨h.1, h, by simp⟩
    · refine keeps_act_bind h.1 ?_
      rintro (error | folder) next hstep
      · obtain ⟨between, hothers, heffect, htracks⟩ := hstep
        have hbuilt : next.built = between.built := htracks.2
        have hnext := (h.others hothers).1.quiet (.of_eq hbuilt heffect)
        exact ⟨hnext.1, hnext, by simp⟩
      · obtain ⟨hnext, hmade⟩ := h.createDir hstep
        refine keeps_act_bind hnext.1 ?_
        rintro identity last ⟨between, hothers, ⟨hidentity, heq⟩, htracks⟩
        obtain ⟨hbetween, hleaves⟩ := hnext.others hothers
        have hlast : At .sourcesVerified last :=
          hbetween.quiet (quiet_of_harmless rfl htracks ⟨hidentity, heq⟩)
        refine ⟨hlast.1, hlast, fun found hfound => ?_⟩
        obtain ⟨fileId, hid, there, hthere, hdir, rfl⟩ := (hleaves.built _).mpr hmade
        rw [hidentity, ProjectState.observe, hthere] at hfound
        simp only [Option.bind_some, hdir, if_true, Option.map_some, Option.some.injEq,
          Except.ok.injEq] at hfound
        refine ⟨there.fileId, htracks.2.trans hid, ?_⟩
        rw [heq, ← hfound]
        rfl
  refine h.keeps_act rfl fun there next hnext => ?_
  split
  · exact hnext.keeps_act rfl fun cleared last hlast => hmake cleared hlast
  · exact hmake true hnext

theorem At.keeps_placeEntries (entries : Nat) (h : At .building s) :
    (ApplyProg.placeEntries entries).Keeps (step Conditions.met) Inv (fun _ => At .building) s := by
  induction entries generalizing s with
  | zero => exact ⟨h.1, h⟩
  | succ entries ih =>
    refine h.keeps_act rfl fun canceled next hnext => ?_
    split
    · exact ⟨hnext.1, hnext⟩
    · refine hnext.keeps_act rfl fun placed last hlast => ?_
      split
      · exact ih hlast
      · exact ⟨hlast.1, hlast⟩

theorem At.keeps_fill (entries : Nat) {rest : ApplyProg Ended} (h : At .building s)
    (hrest : ∀ next, At .buildVerified next → rest.Keeps (step Conditions.met) Inv Ends next) :
    (ApplyProg.fill entries rest).Keeps (step Conditions.met) Inv Ends s := by
  refine Prog.keeps_bind.mpr ((h.keeps_placeEntries entries).mono (fun _ h => h) ?_)
  rintro (_ | stop) next - hnext
  · refine hnext.keeps_act rfl fun verified next hnext => ?_
    split
    · exact hnext.keeps_end
    · refine hnext.keeps_act rfl fun listed next hnext => ?_
      split
      · exact hnext.keeps_end
      · refine hnext.keeps_advance (fun _ => CatalogWrite.run_build) (fun _ => rfl) (by decide)
          (fun _ between hbetween _ _ => hbetween.recorded (by decide)) fun last hlast => ?_
        exact hlast.keeps_unlessInterrupted hrest
  · exact hnext.keeps_end

/-! ## The swap -/

/-- With `View (previous)/` gone, no manifest is previous. -/
def Freed (s : TrackedProject) : Prop := s.project.entry .previous = none → s.Cleared

theorem Freed.leaves (houtside : Outside s next) (hleaves : Leaves s next) (h : Freed s) :
    Freed next := by
  intro hnone
  refine (hleaves.quiet houtside).cleared (h ?_)
  by_contra hsome
  have hthere := hleaves.previous (Option.isSome_iff_ne_none.mpr hsome)
  rw [hnone] at hthere
  cases hthere

theorem Tail.of_at (h : At phase s) (hbuilding : ApplyPhase.building.rank ≤ phase.rank)
    (hcleared : s.Cleared) : Tail s := by
  obtain ⟨hinv, found, hfound, rfl⟩ := h
  refine { hinv with made := fun journal hjournal => ?_, clear := fun _ _ _ => hcleared }
  obtain rfl : found = journal := Option.some.inj (hfound.symm.trans hjournal)
  exact hbuilding

theorem At.keeps_moveKept (h : At phase s) :
    ApplyProg.moveKept.Keeps (step Conditions.met) Inv
      (fun answer next => At phase next ∧ (answer = some none → Freed next)) s := by
  refine h.keeps_act rfl ?_
  rintro (_ | _ | failed) next hnext
  · exact ⟨hnext.1, hnext, by simp⟩
  · exact ⟨hnext.1, hnext, by simp⟩
  · refine keeps_act_bind hnext.1 ?_
    rintro gone cleared ⟨between, hothers, heffect, htracks⟩
    have hcleared : At phase cleared :=
      (hnext.others hothers).1.quiet (quiet_of_harmless rfl htracks heffect)
    have hgone : gone = (cleared.project.entry .previous).isNone := heffect.1
    split
    · exact ⟨hcleared.1, hcleared, by simp⟩
    · split
      · refine keeps_act_bind hcleared.1 ?_
        rintro (_ | _) last ⟨between, hothers, heffect, htracks⟩
        · have hbuilt : last.built = between.built := htracks.2
          have hlast := (hcleared.others hothers).1.quiet (.of_eq hbuilt heffect)
          exact ⟨hlast.1, hlast, by simp⟩
        · obtain ⟨hinv, journal, hjournal, hphase⟩ := (hcleared.others hothers).1
          obtain ⟨hlast, hfreed, hsame⟩ := hinv.retire htracks.2 heffect
          exact ⟨hlast, ⟨hlast, journal, hsame.trans hjournal, hphase⟩, fun _ _ => hfreed⟩
      · next hthere =>
        refine ⟨hcleared.1, hcleared, fun _ hnone => absurd ?_ hthere⟩
        rw [hgone, hnone]
        rfl

/-- Whether something is at `View (previous)/`, with what the answer says. -/
theorem At.keeps_present {rest : Bool → ApplyProg α} {Q : α → TrackedProject → Prop}
    (h : At phase s) (hfreed : Freed s)
    (hrest : ∀ answer next, At phase next → Freed next → (answer = false → next.Cleared) →
      (rest answer).Keeps (step Conditions.met) Inv Q next) :
    (ApplyProg.act (.present .previous) >>= rest).Keeps (step Conditions.met) Inv Q s := by
  refine keeps_act_bind h.1 ?_
  rintro there next ⟨between, hothers, ⟨hthere, heq⟩, htracks⟩
  obtain ⟨hbetween, hleaves⟩ := h.others hothers
  have hfreed' := hfreed.leaves hothers.1 hleaves
  have hquiet : Quiet between next := .of_eq htracks.2 heq
  refine hrest there next (hbetween.quiet hquiet) (fun hnone => ?_) fun hfalse => ?_
  · exact hquiet.cleared (hfreed' (heq ▸ hnone))
  · exact hquiet.cleared (hfreed' (by simpa [hfalse] using hthere))

theorem At.keeps_makeWay (old : Bool) (h : At phase s) :
    (ApplyProg.makeWay old).Keeps (step Conditions.met) Inv (fun answer next => At phase next ∧
      (answer = some none → Freed next ∧ (old = false → next.Cleared))) s := by
  refine Prog.keeps_bind.mpr (h.keeps_moveKept.mono (fun _ h => h) ?_)
  rintro (_ | _ | stop) next - ⟨hnext, hfreed⟩
  · exact ⟨hnext.1, hnext, by simp⟩
  · simp only
    split
    · next hold => exact ⟨hnext.1, hnext, fun _ => ⟨hfreed rfl, by simp [hold]⟩⟩
    · refine hnext.keeps_present (hfreed rfl) fun there last hlast hfreed hgone => ?_
      refine ⟨hlast.1, hlast, fun hanswer => ⟨hfreed, fun _ => hgone ?_⟩⟩
      cases there <;> simp_all
  · exact ⟨hnext.1, hnext, by simp⟩

theorem At.keeps_is (name : Name) (identity : Option FileIdentity) (h : At phase s)
    (hfreed : Freed s) : (ApplyProg.is name identity).Keeps (step Conditions.met) Inv
      (fun _ next => At phase next ∧ Freed next) s := by
  cases identity with
  | none => exact ⟨h.1, h, hfreed⟩
  | some recorded =>
    refine keeps_act_bind h.1 ?_
    rintro observed next ⟨between, hothers, ⟨-, heq⟩, htracks⟩
    obtain ⟨hbetween, hleaves⟩ := h.others hothers
    have hquiet : Quiet between next := .of_eq htracks.2 heq
    have hnext := hbetween.quiet hquiet
    refine ⟨hnext.1, hnext, fun hnone => hquiet.cleared ?_⟩
    exact hfreed.leaves hothers.1 hleaves (heq ▸ hnone)

theorem At.keeps_swapReady (expected : ExpectedTree) (h : At phase s) (hfreed : Freed s) :
    (ApplyProg.swapReady expected).Keeps (step Conditions.met) Inv
      (fun stop next => At phase next ∧ (stop = none → next.Cleared)) s := by
  refine keeps_act_bind h.1 ?_
  rintro root next ⟨between, hothers, ⟨hroot, heq⟩, htracks⟩
  obtain ⟨hbetween, hleaves⟩ := h.others hothers
  have hquiet : Quiet between next := .of_eq htracks.2 heq
  have hnext := hbetween.quiet hquiet
  have hfreed' : Freed next := fun hnone =>
    hquiet.cleared (hfreed.leaves hothers.1 hleaves (heq ▸ hnone))
  split
  · exact ⟨hnext.1, hnext, by simp⟩
  · refine Prog.keeps_bind.mpr ((hnext.keeps_is .view _ hfreed').mono (fun _ h => h) ?_)
    rintro answer last - ⟨hlast, hfreed⟩
    split
    · refine hlast.keeps_present hfreed fun there last hlast _ hgone => ?_
      refine ⟨hlast.1, hlast, fun hstop => hgone ?_⟩
      cases there <;> simp_all
    · exact ⟨hlast.1, hlast, by simp⟩

theorem keeps_tail_ends {program : ApplyProg Ended} (htail : program.All InTail) (hs : Tail s) :
    program.Keeps (step Conditions.met) Inv Ends s :=
  (keeps_tail htail hs).mono (fun _ h => h) fun _ _ _ h => fun _ => h

theorem At.keeps_swap (polls : Nat) (expected : ExpectedTree) (buildingMade : Bool)
    (h : At .buildVerified s) :
    (ApplyProg.swap polls expected buildingMade).Keeps (step Conditions.met) Inv Ends s := by
  refine h.keeps_act rfl ?_
  rintro (_ | _ | _) next hnext
  · exact ⟨hnext.1, by simp [Ends]⟩
  · exact hnext.keeps_end
  · refine hnext.keeps_act rfl fun canceled next hnext => ?_
    split
    · exact hnext.keeps_end
    · refine Prog.keeps_bind.mpr ((hnext.keeps_makeWay _).mono (fun _ h => h) ?_)
      rintro (_ | _ | stop) next - ⟨hnext, hway⟩
      · exact ⟨hnext.1, by simp [Ends]⟩
      · obtain ⟨hfreed, hclear⟩ := hway rfl
        simp only
        split
        · refine Prog.keeps_bind.mpr ((hnext.keeps_swapReady expected hfreed).mono
            (fun _ h => h) ?_)
          rintro (_ | stop) next - ⟨hnext, hclear⟩
          · have htail := Tail.of_at hnext (by decide) (hclear rfl)
            refine keeps_tail_ends ?_ htail
            refine (tail_setOldViewAside polls buildingMade).bind ?_
            rintro (_ | _ | _)
            · exact all_unlessInterrupted rfl (tail_install _ _)
            · exact all_pure _
            · exact all_pure _
          · exact hnext.keeps_end
        · next hold =>
          have htail := Tail.of_at hnext (by decide) (hclear (by simpa using hold))
          exact keeps_tail_ends (tail_install _ _) htail
      · exact hnext.keeps_end

/-! ## Whole programs -/

theorem At.keeps_build (entries polls : Nat) (expected : ExpectedTree) (h : At .reserved s) :
    (ApplyProg.build entries polls expected).Keeps (step Conditions.met) Inv Ends s := by
  refine h.keeps_unlessInterrupted fun next hnext => ?_
  refine hnext.keeps_act rfl fun snapshots next hnext => ?_
  split
  · exact hnext.keeps_end
  · refine hnext.keeps_advance (fun _ => rfl) (fun _ => rfl) (by decide)
      (fun h => absurd h (by decide)) fun next hnext => ?_
    refine hnext.keeps_unlessInterrupted fun next hnext => ?_
    refine Prog.keeps_bind.mpr (hnext.keeps_makeBuilding.mono (fun _ h => h) ?_)
    rintro (_ | stop | identity) next - ⟨hnext, hmade⟩
    · exact ⟨hnext.1, by simp [Ends]⟩
    · exact hnext.keeps_end
    · obtain ⟨fileId, hid, hidentity⟩ := hmade identity rfl
      refine hnext.keeps_advance (fun _ => rfl) (fun _ => rfl) (by decide) ?_ fun next hnext => ?_
      · intro _ between _ hbuilt hvolume journal _
        refine ⟨fileId, hbuilt.trans hid, ?_⟩
        rw [hvolume, ← hidentity]
        rfl
      · exact hnext.keeps_unlessInterrupted fun next hnext =>
          hnext.keeps_fill entries fun next hnext => hnext.keeps_swap polls _ true

theorem At.keeps_run (entries polls : Nat) (expected : ExpectedTree) (h : At .reserved s) :
    (ApplyProg.run entries polls expected).Keeps (step Conditions.met) Inv (fun _ _ => True)
      s := by
  refine h.keeps_act rfl ?_
  rintro (_ | _ | _) next hnext
  · exact ⟨hnext.1, trivial⟩
  · exact keeps_endApply hnext.1 (by simp) (by simp)
  · refine Prog.keeps_bind.mpr ((hnext.keeps_build entries polls expected).mono (fun _ h => h) ?_)
    rintro (_ | _ | _) next hinv hends
    · exact (keeps_tail (tail_finishInstalled _) (hends rfl)).mono (fun _ h => h) (by simp)
    · exact ⟨hinv, trivial⟩
    · exact ⟨hinv, trivial⟩

theorem Inv.of_step {effect : Effect} (hharmless : harmless effect = true)
    (answer : effect.Answer) (s next : TrackedProject) (hs : Inv s)
    (hstep : step Conditions.met s effect answer next) : Inv next := by
  obtain ⟨between, hothers, heffect, htracks⟩ := hstep
  exact (hs.others hothers).quiet (quiet_of_harmless hharmless htracks heffect)

theorem keeps_prepareTree (previousGone : Bool) (hs : Inv s) :
    (ApplyProg.prepareTree previousGone).Keeps (step Conditions.met) Inv (fun _ => Inv) s := by
  have hview : ApplyProg.viewIdentity.All fun effect => harmless effect = true := by
    refine all_act_bind rfl fun there => ?_
    split
    · exact all_act_bind rfl fun _ => all_pure _
    · exact all_pure _
  have hread : (do
      let root ← ApplyProg.act .observeRoot
      let view ← ApplyProg.viewIdentity
      pure <| root.bind fun rootIdentity => view.map fun view =>
        { rootIdentity, view, building := none } : ApplyProg (Option ExpectedTree)).All
      fun effect => harmless effect = true :=
    all_act_bind rfl fun _ => hview.bind fun _ => all_pure _
  refine Prog.All.keeps (fun _ => Inv.of_step) (all_act_bind rfl fun made => ?_) hs
  split
  · exact all_pure _
  · split
    · exact all_act_bind rfl fun _ => hread
    · exact hread

theorem keeps_reserve (hs : Inv s) : ApplyProg.reserve.Keeps (step Conditions.met) Inv
    (fun answer next => answer ≠ none → At .reserved next) s := by
  refine keeps_act_bind hs fun previousGone next hstep => ?_
  have hnext := Inv.of_step rfl _ _ _ hs hstep
  refine Prog.keeps_bind.mpr ((keeps_prepareTree previousGone hnext).mono (fun _ h => h) ?_)
  rintro (_ | expected) next - hnext
  · exact ⟨hnext, by simp⟩
  · refine keeps_act_bind hnext ?_
    rintro (_ | _) last ⟨between, hothers, heffect, htracks⟩
    · have hbuilt : last.built = between.built := htracks.2
      exact ⟨(hnext.others hothers).quiet (.of_eq hbuilt heffect), by simp⟩
    · obtain ⟨hlast, hreserved⟩ := (hnext.others hothers).reserve htracks.2 heffect
      exact ⟨hlast, fun _ => ⟨hlast, hreserved⟩⟩

theorem keeps_apply (entries polls : Nat) (hs : Inv s) :
    (ApplyProg.apply entries polls).Keeps (step Conditions.met) Inv (fun _ _ => True) s := by
  refine Prog.keeps_bind.mpr ((keeps_reserve hs).mono (fun _ h => h) ?_)
  rintro (_ | expected) next hnext hreserved
  · exact ⟨hnext, trivial⟩
  · exact (hreserved (by simp)).keeps_run entries polls expected

theorem keeps_reviewed (hs : Inv s) :
    ApplyProg.reviewed.Keeps (step Conditions.met) Inv (fun _ _ => True) s := by
  refine keeps_act_bind hs fun gone next hstep => ?_
  have hnext := Inv.of_step rfl _ _ _ hs hstep
  split
  · refine keeps_write hnext (by simp) fun between last hothers hrun hbuilt => ?_
    exact ⟨((hnext.others hothers).retire hbuilt hrun).1, trivial⟩
  · exact ⟨hnext, trivial⟩

/-! ## Recovery -/

theorem Tellable.out {volume : VolumeIdentity} {fileId : String} {observed : FileIdentity}
    (h : s.Tellable) (hbuilt : s.built = some fileId) (hvolume : s.project.volume = volume)
    (hobserved : s.project.observe .view = some observed)
    (hsame : sameIdentity observed (identityOf volume fileId) = true) : s.Out := by
  refine ⟨.view, by decide, ?_⟩
  obtain ⟨folder, hfolder, hidentity⟩ := Option.bind_eq_some_iff.mp hobserved
  split at hidentity
  · next hdir =>
    obtain rfl := Option.some.inj hidentity
    obtain hstable | hnone | hthere := h
    · refine ⟨fileId, hbuilt, folder, hfolder, hdir, ?_⟩
      subst hvolume
      exact (sameIdentity_folderIdentity s.project.volume folder
        { folder with fileId }).mp hsame hstable
    · rw [hfolder] at hnone
      cases hnone
    · exact hthere
  · cases hidentity

theorem Tail.of_inv {journal : ApplyJournal} (hs : Inv s)
    (hjournal : s.project.journal = some journal)
    (hbuilding : ApplyPhase.building.rank ≤ journal.phase.rank)
    (hinstalled : ApplyPhase.newInstalled.rank ≤ journal.phase.rank ∨ s.Out) : Tail s := by
  refine { hs with made := fun found hfound => ?_, clear := fun found hfound hphase => ?_ }
  · obtain rfl : journal = found := Option.some.inj (hjournal.symm.trans hfound)
    exact hbuilding
  · obtain rfl : journal = found := Option.some.inj (hjournal.symm.trans hfound)
    exact hs.cleared journal hfound hphase hinstalled

theorem keeps_is_view {journal : ApplyJournal} (hs : Inv s)
    (hjournal : s.project.journal = some journal) (htellable : s.Tellable)
    (hbuilding : ApplyPhase.building.rank ≤ journal.phase.rank) :
    (ApplyProg.is .view journal.expected.building).Keeps (step Conditions.met) Inv
      (fun answer next => Inv next ∧ next.project.journal = some journal ∧
        (answer = true → Tail next)) s := by
  obtain ⟨fileId, hbuilt, hrecorded⟩ := hs.recorded journal hjournal hbuilding
  rw [hrecorded]
  refine keeps_act_bind hs ?_
  rintro observed next ⟨between, hothers, ⟨hobserved, heq⟩, htracks⟩
  have hbetween := hs.others hothers
  have hleaves := hothers.2 (by simp [hjournal])
  have hsome : between.project.journal = some journal := hothers.1.journal.trans hjournal
  have hquiet : Quiet between next := .of_eq htracks.2 heq
  have hnext := hbetween.quiet hquiet
  have hsome' : next.project.journal = some journal := hquiet.journal.trans hsome
  refine ⟨hnext, hnext, hsome', fun hanswer => ?_⟩
  obtain ⟨identity, hidentity, hsame⟩ := (Option.any_eq_true _ _).mp hanswer
  refine Tail.of_inv hnext hsome' hbuilding (.inr ?_)
  have hout := (hleaves.tellable htellable).out (hothers.1.built.trans hbuilt)
    hothers.1.volume (hobserved.symm.trans hidentity) hsame
  obtain ⟨name, hname, found, hid, hholds⟩ := hout
  exact ⟨name, hname, found, htracks.2.trans hid, heq ▸ hholds⟩

theorem keeps_moves {journal : ApplyJournal} {program : ApplyProg α}
    (hall : program.All fun effect => tailOk effect = true ∧ writes effect = false) (hs : Tail s)
    (hjournal : s.project.journal = some journal) :
    program.Keeps (step Conditions.met) Inv
      (fun _ next => Tail next ∧ next.project.journal = some journal) s := by
  have hkeeps : program.Keeps (step Conditions.met)
      (fun next => Tail next ∧ next.project.journal = some journal)
      (fun _ next => Tail next ∧ next.project.journal = some journal) s := by
    refine hall.keeps ?_ ⟨hs, hjournal⟩
    rintro effect ⟨htail, hwrites⟩ answer s next ⟨hs, hjournal⟩ hstep
    refine ⟨Tail.of_step htail answer s next hs hstep, ?_⟩
    obtain ⟨between, hothers, heffect, -⟩ := hstep
    have hcalm : Calm none between.project next.project :=
      calm_of_step (.inr ⟨rfl, hwrites⟩) (by simp) heffect
    exact hcalm.journal.trans (hothers.1.journal.trans hjournal)
  exact hkeeps.mono (fun _ h => h.1.toInv) fun _ _ _ h => h

/-- The law of recovery: what it finds installed may be committed. -/
theorem keeps_recoverFolders {journal : ApplyJournal} (hs : Inv s)
    (hjournal : s.project.journal = some journal) (htellable : s.Tellable) :
    (ApplyProg.recoverFolders journal.expected journal.phase).Keeps (step Conditions.met) Inv
      (fun answer next => answer = .installed →
        Tail next ∧ next.project.journal = some journal) s := by
  unfold ApplyProg.recoverFolders
  split
  · exact ⟨hs, by simp⟩
  · next hverified =>
    have hbuilding : ApplyPhase.building.rank ≤ journal.phase.rank := by
      have hrank : ApplyPhase.buildVerified.rank ≤ journal.phase.rank := by
        simpa [before] using hverified
      exact le_trans (by decide) hrank
    refine Prog.keeps_bind.mpr
      ((keeps_is_view hs hjournal htellable hbuilding).mono (fun _ h => h) ?_)
    rintro answer next - ⟨hnext, hsome, htail⟩
    split
    · exact ⟨hnext, fun _ => ⟨htail (by assumption), hsome⟩⟩
    · have hwithout : ∀ name identity (ok : Effect → Prop), (∀ name, ok (.present name)) →
          (∀ name, ok (.observe name)) →
          (ApplyProg.isWithout .view name identity).All ok := by
        intro name identity ok hpresent hobserve
        refine all_act_bind (hpresent _) fun there => ?_
        split
        · exact all_pure _
        · cases identity with
          | none => exact all_pure _
          | some => exact all_act_bind (hobserve _) fun _ => all_pure _
      split
      · next hinstalled =>
        have hphase : ApplyPhase.newInstalled.rank ≤ journal.phase.rank := by
          simpa [before] using hinstalled
        have hthere := Tail.of_inv hnext hsome hbuilding (.inl hphase)
        refine (keeps_moves ?_ hthere hsome).mono (fun _ h => h) fun _ _ _ h => fun _ => h
        refine (hwithout _ _ _ (fun _ => ⟨rfl, rfl⟩) fun _ => ⟨rfl, rfl⟩).bind fun there => ?_
        split
        · refine (all_rename ⟨rfl, rfl⟩ ⟨rfl, rfl⟩ ⟨rfl, rfl⟩ ⟨rfl, rfl⟩ ⟨rfl, rfl⟩
            fun _ => ⟨rfl, rfl⟩).bind ?_
          rintro (_ | ⟨⟩)
          · exact all_pure _
          · exact all_pure _
        · exact all_pure _
      · refine Prog.keeps_bind.mpr (((hwithout _ _ _ (fun _ => rfl) fun _ => rfl).keeps
          (fun _ => Inv.of_step) hnext).mono (fun _ h => h) ?_)
        rintro there last - hlast
        split
        · have hback : (ApplyProg.rename .previous .view).All fun effect =>
              harmless effect = true := all_rename rfl rfl rfl rfl rfl fun _ => rfl
          refine Prog.keeps_bind.mpr ((hback.keeps (fun _ => Inv.of_step) hlast).mono
            (fun _ h => h) ?_)
          rintro (_ | ⟨⟩) last - hlast
          · exact ⟨hlast, by simp⟩
          · exact ⟨hlast, by simp⟩
        · exact ⟨hlast, by simp⟩

theorem keeps_recover {journal : ApplyJournal} (hs : Inv s)
    (hjournal : s.project.journal = some journal) (htellable : s.Tellable) :
    (ApplyProg.recover journal.expected journal.phase).Keeps (step Conditions.met) Inv
      (fun _ _ => True) s := by
  refine Prog.keeps_bind.mpr ((keeps_recoverFolders hs hjournal htellable).mono (fun _ h => h) ?_)
  rintro (_ | _ | _) next hnext htail
  · have hfinish : (do
        if !(← ApplyProg.act .settleKeptClaims) then pure .brokeOff
        else if before journal.phase .newInstalled then
          ApplyProg.recording (.advanceApply .newInstalled none)
            (ApplyProg.finishInstalled .newInstalled)
        else ApplyProg.finishInstalled journal.phase : ApplyProg Ended).All InTail := by
      refine all_act_bind rfl fun settled => ?_
      split
      · exact all_pure _
      · split
        · exact all_recording rfl (tail_finishInstalled _)
        · exact tail_finishInstalled _
    exact (keeps_tail hfinish (htail rfl).1).mono (fun _ h => h) (by simp)
  · refine keeps_act_bind hnext fun settled last hstep => ?_
    have hlast := Inv.of_step rfl _ _ _ hnext hstep
    split
    · exact ⟨hlast, trivial⟩
    · exact keeps_endApply hlast (by simp) (by simp)
  · exact ⟨hnext, trivial⟩

/-! ## Runs -/

theorem Inv.happens {event : Event} (hs : Inv s) (h : Happens Conditions.met s event next) :
    Inv next := by
  cases h with
  | outside hothers => exact hs.others hothers
  | apply entries polls hstop => exact (keeps_apply entries polls hs).stops hstop
  | recover hjournal htellable hstop => exact (keeps_recover hs hjournal htellable).stops hstop
  | reviewed hstop => exact (keeps_reviewed hs).stops hstop

def Idle (s : TrackedProject) : Prop :=
  s.project.journal = none ∧ uniqueStates s.project.manifests = true ∧
    (s.project.manifests.map ViewManifest.generation).Nodup

/-- An installed View is always committable, whatever the Applies of a run stopped at. -/
theorem manifests_committable {start : TrackedProject} {events : List Event} (hstart : Idle start)
    (hrun : Run (Happens Conditions.met) start events s) :
    uniqueStates s.project.manifests = true ∧
    ∀ journal, s.project.journal = some journal →
      journal.phase.rank < ApplyPhase.manifestCommitted.rank →
      (ApplyPhase.newInstalled.rank ≤ journal.phase.rank ∨ s.BuiltAt .view → s.Committable) ∧
      (s.Tellable → ∀ next, Prog.Returns (step Conditions.met)
        (ApplyProg.recoverFolders journal.expected journal.phase) s .installed next →
        next.Committable) := by
  have hinv : Inv s := hrun.invariant (fun _ _ _ hs h => hs.happens h)
    (.of_settled hstart.2.1 hstart.2.2 hstart.1)
  refine ⟨hinv.unique, fun journal hjournal hphase => ⟨fun hinstalled => ?_, ?_⟩⟩
  · have hcleared := hinv.cleared journal hjournal hphase
      (hinstalled.imp_right fun hbuilt => ⟨_, by decide, hbuilt⟩)
    exact ⟨hcleared, CatalogWrite.commit_admitted hjournal hphase hinv.unique hinv.generations
      (hinv.building journal hjournal hphase) hcleared⟩
  · intro htellable next hreturn
    obtain ⟨htail, hsome⟩ :=
      ((keeps_recoverFolders hinv hjournal htellable).returns hreturn).2 rfl
    exact htail.committable hsome hphase

/-! ### A card without stable file IDs -/

def cardFolder (fileId : String) : Entry where
  fileId
  isDir := true
  empty := false

def cardIdentity : FileIdentity where
  volume := VerifiedBuild.card
  fileId := none

/-- A second View is installed, and `View (previous)/` still holds a file the user kept. -/
def cardIdle : TrackedProject where
  project := {
    volume := VerifiedBuild.card
    root := cardFolder "40"
    entry := fun
      | .view => some (cardFolder "57")
      | .previous => some (cardFolder "41")
      | .building => none
    manifests := [{ generation := 1, state := .previous }, { generation := 2, state := .installed }]
    journal := none }
  built := none

def cardExpected (building : Option FileIdentity) : ExpectedTree where
  rootIdentity := cardIdentity
  view := some cardIdentity
  building

/-- A third Apply at `phase`. -/
def cardAt (phase : ApplyPhase) (building : Option FileIdentity) (made : Option Entry) :
    TrackedProject where
  project := { cardIdle.project with
    entry := Function.update cardIdle.project.entry .building made
    manifests := cardIdle.project.manifests ++ [{ generation := 3, state := .building }]
    journal := some { generation := 3, phase, expected := cardExpected building } }
  built := made.map Entry.fileId

def cardMade : Entry where
  fileId := "63"
  isDir := true
  empty := true

def cardVerified : TrackedProject := cardAt .buildVerified (some cardIdentity) (some cardMade)

theorem later {c : Conditions} (hothers : ∀ s, c.others s s) {effect : Effect}
    {rest : effect.Answer → ApplyProg α} {s next last : TrackedProject} (answer : effect.Answer)
    (heffect : Effect.step s.project effect answer next.project)
    (htracks : s.Tracks effect answer next)
    (hrest : Prog.Stops (step c) (rest answer) next last) :
    Prog.Stops (step c) (.perform effect rest) s last :=
  .later ⟨s, hothers s, heffect, htracks⟩ hrest

theorem tracks_same {effect : Effect} {answer : effect.Answer} {s next : TrackedProject}
    (hmade : made effect answer = none) (htracked : tracked s.built effect answer = s.built)
    (hbuilt : next.built = s.built) : s.Tracks effect answer next :=
  ⟨by simp [hmade], hbuilt.trans htracked.symm⟩

theorem cardAt_made : (cardAt .sourcesVerified none none).project.put .building (some cardMade) =
    (cardAt .sourcesVerified none (some cardMade)).project := by
  simp [cardAt, ProjectState.put, Function.update_idem]

theorem card_apply {c : Conditions} (hothers : ∀ s, c.others s s) :
    Happens c cardIdle (.apply 0 0) cardVerified := by
  refine .apply 0 0 ?_
  -- the reservation
  refine later hothers false ⟨rfl, by simp [cardIdle], by simp [cardIdle, cardFolder]⟩
    (tracks_same rfl rfl rfl) ?_
  refine later hothers true rfl (tracks_same rfl rfl rfl) ?_
  refine later hothers (some cardIdentity) ⟨rfl, rfl⟩ (tracks_same rfl rfl rfl) ?_
  refine later hothers true ⟨rfl, rfl⟩ (tracks_same rfl rfl rfl) ?_
  refine later hothers (some cardIdentity) ⟨rfl, rfl⟩ (tracks_same rfl rfl rfl) ?_
  have hreserved : (CatalogWrite.reserveApply false (cardExpected none)).run cardIdle.project =
      some (cardAt .reserved none none).project := by
    have hentry : Function.update cardIdle.project.entry .building none =
        cardIdle.project.entry := by
      funext name
      cases name <;> rfl
    simp only [cardAt, Option.map_none, hentry]
    rfl
  refine later hothers true hreserved ⟨by simp [made], rfl⟩ ?_
  refine later hothers (some true) rfl (tracks_same rfl rfl rfl) ?_
  -- the build
  refine later hothers false rfl (tracks_same rfl rfl rfl) ?_
  refine later hothers true rfl (tracks_same rfl rfl rfl) ?_
  have hsources : (CatalogWrite.advanceApply .sourcesVerified none).run
      (cardAt .reserved none none).project = some (cardAt .sourcesVerified none none).project := rfl
  refine later hothers true hsources (tracks_same rfl rfl rfl) ?_
  refine later hothers false rfl (tracks_same rfl rfl rfl) ?_
  refine later hothers false ⟨rfl, rfl⟩ (tracks_same rfl rfl rfl) ?_
  have hfresh : (cardAt .sourcesVerified none none).project.Fresh cardMade := by
    refine ⟨rfl, rfl, fun name entry hentry => ?_⟩
    cases name
    · obtain rfl : cardFolder "57" = entry := Option.some.inj hentry
      decide
    · cases hentry
    · obtain rfl : cardFolder "41" = entry := Option.some.inj hentry
      decide
  refine later hothers (.ok cardMade) ⟨rfl, hfresh, cardAt_made.symm⟩ ⟨by simp [cardAt], rfl⟩ ?_
  refine later hothers (some cardIdentity) ⟨rfl, rfl⟩ (tracks_same rfl rfl rfl) ?_
  have hbuilding : (CatalogWrite.advanceApply .building (some (cardExpected cardIdentity))).run
      (cardAt .sourcesVerified none (some cardMade)).project =
        some (cardAt .building (some cardIdentity) (some cardMade)).project := rfl
  refine later hothers true hbuilding (tracks_same rfl rfl rfl) ?_
  refine later hothers false rfl (tracks_same rfl rfl rfl) ?_
  refine later hothers true rfl (tracks_same rfl rfl rfl) ?_
  refine later hothers true rfl (tracks_same rfl rfl rfl) ?_
  have hverified : CatalogWrite.recordApplyBuild.run
      (cardAt .building (some cardIdentity) (some cardMade)).project =
        some cardVerified.project := rfl
  exact later hothers true hverified (tracks_same rfl rfl rfl) (.here _ _)

def cardStuck : TrackedProject := cardAt .newInstalled (some cardIdentity) (some cardMade)

/-- Recovery takes the old View for the build and can't record it: the manifest of the kept file's
View is still previous. -/
theorem card_recovery_stuck : Idle cardIdle ∧
    Run (Happens Conditions.any) cardIdle [.apply 0 0, .recover] cardStuck ∧
    (∃ journal, cardStuck.project.journal = some journal ∧ journal.phase = .newInstalled) ∧
    ¬ cardStuck.Committable := by
  have hothers : ∀ s, Conditions.any.others s s := fun s => ⟨rfl, rfl, rfl, rfl⟩
  refine ⟨⟨rfl, by decide, by decide⟩, .cons (card_apply hothers) (.cons ?_ (.nil _)), ⟨_, rfl, rfl⟩,
    fun h => absurd h.2 (by decide)⟩
  refine .recover rfl trivial ?_
  refine later hothers (some cardIdentity) ⟨rfl, rfl⟩ (tracks_same rfl rfl rfl) ?_
  refine later hothers true (.inl rfl) (tracks_same rfl rfl rfl) ?_
  have hadvanced : (CatalogWrite.advanceApply .newInstalled none).run cardVerified.project =
      some cardStuck.project := rfl
  exact later hothers true hadvanced (tracks_same rfl rfl rfl) (.here _ _)

theorem manifests_committable_card : uniqueStates cardVerified.project.manifests = true ∧
    ∀ journal, cardVerified.project.journal = some journal →
      journal.phase.rank < ApplyPhase.manifestCommitted.rank →
      (ApplyPhase.newInstalled.rank ≤ journal.phase.rank ∨ cardVerified.BuiltAt .view →
        cardVerified.Committable) ∧
      (cardVerified.Tellable → ∀ next, Prog.Returns (step Conditions.met)
        (ApplyProg.recoverFolders journal.expected journal.phase) cardVerified .installed next →
        next.Committable) := by
  have hothers : ∀ s, Conditions.met.others s s := fun s =>
    ⟨⟨rfl, rfl, rfl, rfl⟩, fun _ => ⟨id, fun _ => Iff.rfl, id⟩⟩
  exact manifests_committable ⟨rfl, by decide, by decide⟩ (.cons (card_apply hothers) (.nil _))

end TrackedProject

end PlateVault
