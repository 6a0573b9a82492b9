import PlateVault.Apply.Recovery

/-!
# What recovery makes of a stopped swap

`recoverFolders` has the phase and the identities, not the folders themselves. `RecoversRight` is
what its answers should mean, `Readable` what the folders must be for them to mean it.
-/

namespace PlateVault

open Prog (keeps_act_bind)

namespace VerifiedBuild

variable (b : VerifiedBuild)

/-- Neither the old View nor the built one is removed or replaced. -/
def Kept (state : ProjectState) : Prop :=
  (∀ folder, b.old = some folder →
    state.entry .view = some folder ∨ state.entry .previous = some folder) ∧
  (state.entry .building = some b.built ∨ state.entry .view = some b.built)

/-- Recovery of a journal keeps both folders, and its answer says where they are. -/
structure RecoversRight (journal : ApplyJournal) (state : ProjectState) : Prop where
  kept : ∀ next, Prog.Stops Effect.step
    (ApplyProg.recoverFolders journal.expected journal.phase) state next → b.Kept next
  installed : ∀ next, Prog.Returns Effect.step
    (ApplyProg.recoverFolders journal.expected journal.phase) state .installed next →
    next.entry .view = some b.built
  notInstalled : ∀ next, Prog.Returns Effect.step
    (ApplyProg.recoverFolders journal.expected journal.phase) state .notInstalled next →
    ∀ folder, b.old = some folder → next.entry .view = some folder

/-- What the folders must be for recovery to read them right. -/
def Readable (state : ProjectState) : Prop :=
  (state.entry .building = some b.built ∨ state.entry .view = some b.built) ∧
  (state.entry .view = none ∨ state.entry .view = some b.built ∨
    b.volume.fileIdsStable = true ∧ (b.old = none ∨ state.entry .view = b.old))

variable {b} {state : ProjectState} {phase : ApplyPhase}

/-! ## Reads -/

theorem returns_is (name : Name) (identity : Option FileIdentity) :
    Prog.Returns Effect.step (ApplyProg.is name identity) state (reads state name identity)
      state := by
  cases identity with
  | none => exact .pure _ _
  | some recorded => exact .perform ⟨rfl, rfl⟩ (.pure _ _)

theorem reads_folder {name : Name} {folder other : Entry} (hvolume : state.volume = b.volume)
    (hentry : state.entry name = some folder) (hdir : folder.isDir = true) :
    reads state name (some (folderIdentity b.volume other)) = true ↔
      (b.volume.fileIdsStable = true → folder.fileId = other.fileId) := by
  simp only [reads, ProjectState.observe, hentry, hdir, hvolume, Option.any_some, Option.bind_some,
    ite_true]
  exact sameIdentity_folderIdentity b.volume folder other

theorem reads_none {name : Name} {identity : Option FileIdentity}
    (hentry : state.entry name = none) : reads state name identity = false := by
  cases identity <;> simp [reads, ProjectState.observe, hentry]

/-! ## Answers -/

theorem returns_recover_installed (hphase : ApplyPhase.buildVerified.rank ≤ phase.rank)
    (hreads : reads state .view b.expected.building = true) :
    Prog.Returns Effect.step (ApplyProg.recoverFolders b.expected phase) state .installed
      state := by
  have hverified : before phase .buildVerified = false := by simpa [before] using hphase
  simp only [ApplyProg.recoverFolders, hverified, Bool.false_eq_true, if_false]
  refine (returns_is .view b.expected.building).bind ?_
  rw [hreads]
  exact .pure _ _

theorem returns_recover_notInstalled (h : b.Unfinished state) {journal : ApplyJournal}
    (hjournal : state.journal = some journal) (hview : (state.entry .view).isSome = true)
    (hreads : reads state .view b.expected.building = false) :
    Prog.Returns Effect.step (ApplyProg.recoverFolders b.expected journal.phase) state
      .notInstalled state := by
  obtain ⟨-, found, hfound, -, hrank, hfinished⟩ := h
  obtain rfl : found = journal := Option.some.inj (hfound.symm.trans hjournal)
  have hverified : before found.phase .buildVerified = false := by simpa [before] using hrank
  have hinstalled : before found.phase .newInstalled = true := by simpa [before] using hfinished
  simp only [ApplyProg.recoverFolders, hverified, hinstalled, Bool.false_eq_true, if_false,
    Bool.not_true]
  refine (returns_is .view b.expected.building).bind ?_
  rw [hreads]
  have hthere : Prog.Returns Effect.step
      (ApplyProg.isWithout .view .previous b.expected.view) state false state := by
    refine .perform ⟨rfl, rfl⟩ ?_
    rw [hview]
    exact .pure _ _
  exact hthere.bind (.pure _ _)

/-- Where `View/` reads as the build, recovery answers so and touches nothing. -/
theorem keeps_recover_installed {I : ProjectState → Prop} {Q : Recovered → ProjectState → Prop}
    (hphase : ApplyPhase.buildVerified.rank ≤ phase.rank)
    (hreads : reads state .view b.expected.building = true) (hstart : I state)
    (hanswer : Q .installed state) :
    (ApplyProg.recoverFolders b.expected phase).Keeps Effect.step I Q state := by
  have hverified : before phase .buildVerified = false := by simpa [before] using hphase
  simp only [ApplyProg.recoverFolders, hverified, Bool.false_eq_true, if_false]
  refine Prog.keeps_bind.mpr ((keeps_is hstart .view _).mono (fun _ h => h) ?_)
  rintro answer next hnext ⟨rfl, rfl⟩
  rw [hreads]
  exact ⟨hnext, hanswer⟩

/-- The rule for an Apply that didn't record its View and whose `View/` doesn't read as it: the old
View goes back where nothing is. -/
theorem keeps_recover_unfinished {I : ProjectState → Prop} {Q : Recovered → ProjectState → Prop}
    (hverified : ApplyPhase.buildVerified.rank ≤ phase.rank)
    (hfinished : phase.rank < ApplyPhase.newInstalled.rank)
    (hreads : reads state .view b.expected.building = false) (hstart : I state)
    (hleft : (state.entry .view = none → reads state .previous b.expected.view = false) →
      Q .notInstalled state)
    (hback : state.entry .view = none → reads state .previous b.expected.view = true →
      (ApplyProg.rename .previous .view).Keeps Effect.step I
        (fun answer next => match answer with
          | .ok () => Q .notInstalled next
          | .error _ => Q .stuck next) state) :
    (ApplyProg.recoverFolders b.expected phase).Keeps Effect.step I Q state := by
  have hbuilt : before phase .buildVerified = false := by simpa [before] using hverified
  have hinstalled : before phase .newInstalled = true := by simpa [before] using hfinished
  simp only [ApplyProg.recoverFolders, hbuilt, hinstalled, Bool.false_eq_true, if_false,
    Bool.not_true]
  refine Prog.keeps_bind.mpr ((keeps_is hstart .view _).mono (fun _ h => h) ?_)
  rintro answer next hnext ⟨rfl, rfl⟩
  rw [hreads]
  simp only [Bool.false_eq_true, if_false]
  refine keeps_act_bind hnext ?_
  rintro there last ⟨rfl, rfl⟩
  cases hview : last.entry .view with
  | some folder => exact ⟨hnext, hleft (by simp [hview])⟩
  | none =>
    refine Prog.keeps_bind.mpr ((keeps_is hnext .previous _).mono (fun _ h => h) ?_)
    rintro answer next hstop ⟨rfl, rfl⟩
    cases hprevious : reads next .previous b.expected.view with
    | false => exact ⟨hstop, hleft fun _ => hprevious⟩
    | true =>
      refine Prog.keeps_bind.mpr ((hback hview hprevious).mono (fun _ h => h) ?_)
      rintro (error | ⟨⟩) last hlast hanswer
      · exact ⟨hlast, hanswer⟩
      · exact ⟨hlast, hanswer⟩

/-! ## Right answers -/

def Answers (b : VerifiedBuild) (recovered : Recovered) (state : ProjectState) : Prop :=
  (recovered = .installed → state.entry .view = some b.built) ∧
  (recovered = .notInstalled → ∀ folder, b.old = some folder → state.entry .view = some folder)

theorem RecoversRight.of_keeps {journal : ApplyJournal} (hexpected : journal.expected = b.expected)
    (h : (ApplyProg.recoverFolders b.expected journal.phase).Keeps Effect.step b.Kept (Answers b)
      state) : b.RecoversRight journal state := by
  rw [← hexpected] at h
  exact ⟨fun _ hstop => h.stops hstop, fun _ hreturn => (h.returns hreturn).2.1 rfl,
    fun _ hreturn => (h.returns hreturn).2.2 rfl⟩

theorem Before.kept (h : b.Before state) : b.Kept state :=
  ⟨fun _ heq => .inl (h.2.1.trans heq), .inl h.2.2⟩

theorem Aside.kept (h : b.Aside state) : b.Kept state :=
  ⟨fun folder heq => .inr (h.2.2.1 folder heq), .inl h.2.2.2⟩

theorem Installed.recoversRight (h : b.Installed state) {journal : ApplyJournal}
    (hjournal : state.journal = some journal) : b.RecoversRight journal state := by
  obtain ⟨hvolume, ⟨found, hfound, hexpected, hverified⟩, hview, hprevious⟩ := h
  obtain rfl : found = journal := Option.some.inj (hfound.symm.trans hjournal)
  have hreads : reads state .view b.expected.building = true := by
    rw [b.expected_building]
    exact (reads_folder hvolume hview b.built_isDir).mpr fun _ => rfl
  refine .of_keeps hexpected (keeps_recover_installed hverified hreads ?_ ?_)
  · exact ⟨fun folder heq => .inr (hprevious folder heq), .inr hview⟩
  · exact ⟨fun _ => hview, fun h => nomatch h⟩

theorem Before.recoversRight_iff (h : b.Before state) {journal : ApplyJournal}
    (hjournal : state.journal = some journal) :
    b.RecoversRight journal state ↔ b.Readable state := by
  have ⟨⟨hvolume, found, hfound, hexpected, hverified, hfinished⟩, hview, hbuilding⟩ := h
  obtain rfl : found = journal := Option.some.inj (hfound.symm.trans hjournal)
  cases hreads : reads state .view b.expected.building with
  | true =>
    obtain ⟨old, hold⟩ : ∃ old, b.old = some old := by
      rw [← Option.ne_none_iff_exists']
      intro hnone
      rw [reads_none (hview.trans hnone)] at hreads
      cases hreads
    rw [hold] at hview
    have hne : some old ≠ some b.built := fun heq =>
      b.old_ne old hold (congrArg Entry.fileId (Option.some.inj heq))
    rw [b.expected_building] at hreads
    have hids := (reads_folder hvolume hview (b.old_isDir old hold)).mp hreads
    rw [← b.expected_building] at hreads
    constructor
    · intro hright
      exact absurd (hview.symm.trans (hright.installed state
        (hexpected ▸ returns_recover_installed hverified hreads))) hne
    · rintro ⟨-, hnone | hbuilt | ⟨hstable, -⟩⟩
      · rw [hview] at hnone
        cases hnone
      · exact absurd (hview.symm.trans hbuilt) hne
      · exact absurd (hids hstable) (b.old_ne old hold)
  | false =>
    have hright : b.RecoversRight found state := by
      refine .of_keeps hexpected (keeps_recover_unfinished hverified hfinished hreads h.kept ?_ ?_)
      · intro _
        exact ⟨fun h => (nomatch h), fun _ folder heq => hview.trans heq⟩
      · intro hnone hprevious
        rw [b.expected_view, ← hview, hnone] at hprevious
        cases hprevious
    refine ⟨fun _ => ⟨.inl hbuilding, ?_⟩, fun _ => hright⟩
    cases hold : b.old with
    | none => exact .inl (hview.trans hold)
    | some old =>
      refine .inr (.inr ⟨?_, .inr (hview.trans hold)⟩)
      by_contra hstable
      have hread : reads state .view b.expected.building = true := by
        rw [b.expected_building]
        exact (reads_folder hvolume (hview.trans hold) (b.old_isDir old hold)).mpr
          fun h => absurd h hstable
      rw [hreads] at hread
      cases hread

theorem Aside.keeps_back {old : Entry} (h : b.Aside state) (hold : b.old = some old) :
    (ApplyProg.rename .previous .view).Keeps Effect.step b.Kept
      (fun answer next => match answer with
        | .ok () => Answers b .notInstalled next
        | .error _ => Answers b .stuck next) state := by
  have hkept := h.kept
  obtain ⟨-, -, hprevious, hbuilding⟩ := h
  refine keeps_rename (by decide) ?_ hkept ?_ ?_ ?_
  · intro entry hentry
    rw [hprevious old hold] at hentry
    exact b.old_isDir entry (hold.trans hentry)
  · exact fun _ => ⟨fun h => (nomatch h), fun h => nomatch h⟩
  · intro _ _
    have hback : (state.move .previous .view).entry .view = some old := by
      rw [ProjectState.move_entry_target _ (by decide), hprevious old hold]
    refine ⟨⟨fun folder heq => .inl ?_, .inl (by simp [hbuilding])⟩, fun h => (nomatch h), ?_⟩
    · rw [hback, ← hold, heq]
    · intro _ folder heq
      rw [hback, ← hold, heq]
  · intro folder hnone _
    have hput : b.Kept (state.put .view (some folder)) :=
      ⟨fun folder heq => .inr (by simp [hprevious folder heq]), .inl (by simp [hbuilding])⟩
    exact ⟨hput, fun _ => ⟨fun h => (nomatch h), fun h => nomatch h⟩⟩

/-- With the old View aside recovery is right where nothing is at `View/`; over a folder a rename
left there, only with no old View to put back. -/
theorem Aside.recoversRight_iff (h : b.Aside state) {journal : ApplyJournal}
    (hjournal : state.journal = some journal) :
    b.RecoversRight journal state ↔ b.Readable state := by
  have ⟨hunfinished, hother, hprevious, hbuilding⟩ := h
  have ⟨hvolume, found, hfound, hexpected, hverified, hfinished⟩ := hunfinished
  obtain rfl : found = journal := Option.some.inj (hfound.symm.trans hjournal)
  cases hview : state.entry .view with
  | none =>
    refine ⟨fun _ => ⟨.inl hbuilding, .inl hview⟩, fun _ => ?_⟩
    refine .of_keeps hexpected (keeps_recover_unfinished hverified hfinished (reads_none hview) h.kept ?_ ?_)
    · intro hleft
      refine ⟨fun h => (nomatch h), fun _ old hold => ?_⟩
      have hread : reads state .previous b.expected.view = true := by
        rw [b.expected_view, hold]
        exact (reads_folder hvolume (hprevious old hold) (b.old_isDir old hold)).mpr fun _ => rfl
      rw [hleft hview] at hread
      cases hread
    · intro _ hread
      cases hold : b.old with
      | none =>
        rw [b.expected_view, hold] at hread
        cases hread
      | some old => exact h.keeps_back hold
  | some entry =>
    obtain ⟨hdir, hbuilt, hold⟩ := hother entry hview
    have hnotBuilt : state.entry .view ≠ some b.built := by
      intro heq
      exact hbuilt (congrArg Entry.fileId (Option.some.inj (hview.symm.trans heq)))
    cases hreads : reads state .view b.expected.building with
    | true =>
      have hids := hreads
      rw [b.expected_building, reads_folder hvolume hview hdir] at hids
      constructor
      · intro hright
        exact absurd (hright.installed state
          (hexpected ▸ returns_recover_installed hverified hreads)) hnotBuilt
      · rintro ⟨-, hnone | heq | ⟨hstable, -⟩⟩
        · rw [hview] at hnone
          cases hnone
        · exact absurd heq hnotBuilt
        · exact absurd (hids hstable) hbuilt
    | false =>
      have hstable : b.volume.fileIdsStable = true := by
        by_contra hstable
        have hread : reads state .view b.expected.building = true := by
          rw [b.expected_building]
          exact (reads_folder hvolume hview hdir).mpr fun h => absurd h hstable
        rw [hreads] at hread
        cases hread
      constructor
      · intro hright
        refine ⟨.inl hbuilding, .inr (.inr ⟨hstable, ?_⟩)⟩
        cases hnone : b.old with
        | none => exact .inl rfl
        | some old =>
          exact .inr <| hright.notInstalled state (hexpected ▸ returns_recover_notInstalled
            hunfinished hjournal (by simp [hview]) hreads) old hnone
      · rintro ⟨-, hnone | heq | ⟨-, hnone | heq⟩⟩
        · rw [hview] at hnone
          cases hnone
        · exact absurd heq hnotBuilt
        · refine .of_keeps hexpected (keeps_recover_unfinished hverified hfinished hreads h.kept ?_ ?_)
          · exact fun _ => ⟨fun h => (nomatch h), fun _ old heq => by simp [hnone] at heq⟩
          · intro hempty
            rw [hview] at hempty
            cases hempty
        · exact absurd rfl (hold entry (heq.symm.trans hview))

theorem Clearing.recoversRight_iff (h : b.Clearing state) {journal : ApplyJournal}
    (hjournal : state.journal = some journal) :
    b.RecoversRight journal state ↔ b.Readable state := by
  by_cases hbuilding : state.entry .building = some b.built
  · exact Before.recoversRight_iff ⟨h.1, h.2, hbuilding⟩ hjournal
  · have hview : state.entry .view ≠ some b.built := by
      intro heq
      exact b.old_ne b.built (h.2.symm.trans heq) rfl
    constructor
    · intro hright
      obtain hkept | hkept := (hright.kept state (.here _ _)).2
      · exact absurd hkept hbuilding
      · exact absurd hkept hview
    · rintro ⟨hkept | hkept, -⟩
      · exact absurd hkept hbuilding
      · exact absurd hkept hview

/-- Recovery is right from a stop of the swap exactly where it can read the folders. -/
theorem swap_recovers_right_iff (b : VerifiedBuild) (polls : Nat) (buildingMade : Bool)
    {start state : ProjectState} {journal : ApplyJournal} (hstart : b.Before start)
    (hstop : Prog.Stops Effect.step (ApplyProg.swap polls b.expected buildingMade) start state)
    (hjournal : state.journal = some journal) : b.RecoversRight journal state ↔ b.Readable state := by
  cases (keeps_swap polls buildingMade hstart).stops hstop with
  | before h => exact h.recoversRight_iff hjournal
  | aside h => exact h.recoversRight_iff hjournal
  | installed h =>
    exact ⟨fun _ => ⟨.inr h.2.2.1, .inr (.inl h.2.2.1)⟩, fun _ => h.recoversRight hjournal⟩
  | clearing h => exact h.recoversRight_iff hjournal
  | settled h =>
    rw [hjournal] at h
    cases h

/-! ### A card without stable file IDs -/

def card : VolumeIdentity where
  filesystem := "exfat"
  stableId := some "5E4A-1C33"
  fileIdsStable := false
  case := .insensitive
  normalization := .unknown

def onCard : VerifiedBuild where
  volume := card
  expected := {
    rootIdentity := { volume := card, fileId := none }
    view := some { volume := card, fileId := none }
    building := some { volume := card, fileId := none } }
  old := some { fileId := "41", isDir := true, empty := false }
  built := { fileId := "57", isDir := true, empty := false }
  old_isDir := by simp
  built_isDir := rfl
  old_ne := by simp
  expected_view := rfl
  expected_building := rfl

def onCardJournal : ApplyJournal where
  generation := 2
  phase := .buildVerified
  expected := onCard.expected

def onCardVerified : ProjectState where
  volume := card
  root := { fileId := "40", isDir := true, empty := false }
  entry
    | .view => onCard.old
    | .building => some onCard.built
    | .previous => none
  manifests := [{ generation := 1, state := .installed }, { generation := 2, state := .building }]
  journal := some onCardJournal

theorem onCard_before : onCard.Before onCardVerified :=
  ⟨⟨rfl, onCardJournal, rfl, rfl, by decide, by decide⟩, rfl, rfl⟩

/-- Recovery takes the old View on the card for the built one. -/
theorem onCard_recovers_wrong :
    onCard.Before onCardVerified ∧
    Prog.Stops Effect.step (ApplyProg.swap 1 onCard.expected true) onCardVerified onCardVerified ∧
    onCardVerified.journal = some onCardJournal ∧
    ¬ onCard.RecoversRight onCardJournal onCardVerified := by
  refine ⟨onCard_before, .here _ _, rfl, fun hright => ?_⟩
  have hverified : ApplyPhase.buildVerified.rank ≤ onCardJournal.phase.rank := by decide
  have hanswer := hright.installed onCardVerified
    (returns_recover_installed hverified (by decide))
  exact absurd hanswer (by decide)

theorem onCard_recovers_right_iff :
    onCard.RecoversRight onCardJournal onCardVerified ↔ onCard.Readable onCardVerified :=
  swap_recovers_right_iff onCard 1 true onCard_before (.here _ _) rfl

end VerifiedBuild

end PlateVault
