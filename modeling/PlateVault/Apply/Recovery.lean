import PlateVault.Apply.Catalog
import PlateVault.Apply.Swap

/-!
# Where a stopped swap left the folders

`VerifiedBuild` is an Apply that reached `BuildVerified`: the old View, if any, the folder it built
and what its journal expects of both. Every stop of the swap has them in one of four places
(`VerifiedBuild.Stop`), from which `recoverFolders` answers.
-/

namespace PlateVault

open Prog (keeps_act_bind)
open CatalogWrite (run_advance run_discard run_wait run_retire)

/-! ## Renames -/

section Rename

variable {source target : Name} {I : ProjectState → Prop}
  {Q : Except IoError Unit → ProjectState → Prop} {state : ProjectState}

theorem keeps_withoutNoreplace (hne : source ≠ target)
    (hdir : ∀ entry, state.entry source = some entry → entry.isDir = true)
    (hstart : I state) (hfailed : ∀ error, Q (.error error) state)
    (hmoved : (state.entry source).isSome = true → state.entry target = none →
      I (state.move source target) ∧ Q (.ok ()) (state.move source target))
    (hclaimed : ∀ folder, state.entry target = none → state.Fresh folder →
      I (state.put target (some folder)) ∧
        ∀ error, Q (.error error) (state.put target (some folder))) :
    (ApplyProg.withoutNoreplace source target).Keeps Effect.step I Q state := by
  refine keeps_act_bind hstart ?_
  rintro (error | dir) next hstep
  · obtain rfl : next = state := hstep
    exact ⟨hstart, hfailed error⟩
  · obtain ⟨hsource, rfl⟩ := hstep
    obtain ⟨entry, hentry, rfl⟩ := Option.map_eq_some_iff.mp hsource
    rw [hdir entry hentry]
    refine keeps_act_bind hstart ?_
    rintro (error | folder) made hmade
    · obtain rfl : made = next := hmade
      exact ⟨hstart, hfailed error⟩
    · obtain ⟨hnone, hfresh, rfl⟩ := hmade
      obtain ⟨hclaim, hleft⟩ := hclaimed folder hnone hfresh
      refine keeps_act_bind hclaim ?_
      rintro (error | ⟨⟩) renamed hrenamed
      · obtain rfl : renamed = _ := hrenamed
        refine keeps_act_bind hclaim ?_
        rintro - last (rfl | ⟨-, -, rfl⟩)
        · exact ⟨hclaim, hleft error⟩
        · rw [ProjectState.put_none_put _ hnone]
          exact ⟨hstart, hfailed error⟩
      · obtain ⟨-, -, rfl⟩ := hrenamed
        rw [ProjectState.move_put _ hne]
        exact hmoved (by simp [hentry]) hnone

theorem keeps_rename (hne : source ≠ target)
    (hdir : ∀ entry, state.entry source = some entry → entry.isDir = true)
    (hstart : I state) (hfailed : ∀ error, Q (.error error) state)
    (hmoved : (state.entry source).isSome = true → state.entry target = none →
      I (state.move source target) ∧ Q (.ok ()) (state.move source target))
    (hclaimed : ∀ folder, state.entry target = none → state.Fresh folder →
      I (state.put target (some folder)) ∧
        ∀ error, Q (.error error) (state.put target (some folder))) :
    (ApplyProg.rename source target).Keeps Effect.step I Q state := by
  refine keeps_act_bind hstart ?_
  rintro (error | ⟨⟩) next hstep
  · obtain rfl : next = state := hstep
    cases error with
    | unsupported => exact keeps_withoutNoreplace hne hdir hstart hfailed hmoved hclaimed
    | alreadyExists => exact ⟨hstart, hfailed _⟩
    | held => exact ⟨hstart, hfailed _⟩
    | other => exact ⟨hstart, hfailed _⟩
  · obtain ⟨hsource, hnone, rfl⟩ := hstep
    exact hmoved hsource hnone

end Rename

/-! ## A verified build -/

/-- An Apply at `BuildVerified`. -/
structure VerifiedBuild where
  volume : VolumeIdentity
  expected : ExpectedTree
  /-- The View it replaces, if there is one. -/
  old : Option Entry
  /-- The folder it built. -/
  built : Entry
  old_isDir : ∀ folder, old = some folder → folder.isDir = true
  built_isDir : built.isDir = true
  old_ne : ∀ folder, old = some folder → folder.fileId ≠ built.fileId
  expected_view : expected.view = old.map (folderIdentity volume)
  expected_building : expected.building = some (folderIdentity volume built)

namespace VerifiedBuild

variable (b : VerifiedBuild)

/-- A folder that is neither the old View nor the built one. -/
def Other (entry : Entry) : Prop :=
  entry.isDir = true ∧ entry.fileId ≠ b.built.fileId ∧ ∀ folder, b.old = some folder → entry.fileId ≠ folder.fileId

/-- The Apply is unsettled, and has not recorded that it installed its View. -/
def Unfinished (state : ProjectState) : Prop :=
  state.volume = b.volume ∧ ∃ journal, state.journal = some journal ∧
    journal.expected = b.expected ∧ ApplyPhase.buildVerified.rank ≤ journal.phase.rank ∧
    journal.phase.rank < ApplyPhase.newInstalled.rank

/-- The old View is in place, and the built one beside it. -/
def Before (state : ProjectState) : Prop :=
  b.Unfinished state ∧ state.entry .view = b.old ∧ state.entry .building = some b.built

/-- The old View, if there was one, is aside; at `View/` is nothing, or what a rename over it
left. -/
def Aside (state : ProjectState) : Prop :=
  b.Unfinished state ∧ (∀ entry, state.entry .view = some entry → b.Other entry) ∧
    (∀ folder, b.old = some folder → state.entry .previous = some folder) ∧
    state.entry .building = some b.built

def Installed (state : ProjectState) : Prop :=
  state.volume = b.volume ∧ (∃ journal, state.journal = some journal ∧
    journal.expected = b.expected ∧ ApplyPhase.buildVerified.rank ≤ journal.phase.rank) ∧
    state.entry .view = some b.built ∧
    ∀ folder, b.old = some folder → state.entry .previous = some folder

def Clearing (state : ProjectState) : Prop :=
  b.Unfinished state ∧ state.entry .view = b.old

inductive Stop (state : ProjectState) : Prop
  | before (h : b.Before state)
  | aside (h : b.Aside state)
  | installed (h : b.Installed state)
  | clearing (h : b.Clearing state)
  | settled (h : state.journal = none)

variable {b} {state next : ProjectState}

/-! ### Writes -/

theorem Unfinished.advance {phase : ApplyPhase} (h : b.Unfinished state)
    (hphase : phase.rank < ApplyPhase.newInstalled.rank)
    (hrun : (CatalogWrite.advanceApply phase none).run state = some next) :
    b.Unfinished next ∧ next.entry = state.entry := by
  obtain ⟨hvolume, journal, hjournal, hexpected, hverified, -⟩ := h
  obtain ⟨found, hfound, hrank, rfl⟩ := run_advance hrun
  obtain rfl : found = journal := Option.some.inj (hfound.symm.trans hjournal)
  exact ⟨⟨hvolume, _, rfl, hexpected, hverified.trans hrank, hphase⟩, rfl⟩

theorem keeps_recording {I : ProjectState → Prop} {Q : Ended → ProjectState → Prop}
    {write : CatalogWrite} {rest : ApplyProg Ended} (hstart : I state) (hbroke : Q .brokeOff state)
    (hrest : ∀ next, write.run state = some next → rest.Keeps Effect.step I Q next) :
    (ApplyProg.recording write rest).Keeps Effect.step I Q state := by
  refine keeps_act_bind hstart ?_
  rintro (_ | _) next hstep
  · obtain rfl : next = state := hstep
    exact ⟨hstart, hbroke⟩
  · exact hrest next hstep

/-! ### Ends -/

theorem keeps_discard {Q : Ended → ProjectState → Prop} (hstart : b.Stop state)
    (hbroke : ∀ state, Q .brokeOff state) (hreported : ∀ state, Q .reported state) :
    (ApplyProg.recording .discardApply (pure .reported)).Keeps Effect.step b.Stop Q state :=
  keeps_recording hstart (hbroke state) fun _ hrun => ⟨.settled (run_discard hrun).2.1, hreported _⟩

/-- Ending an Apply keeps both folders, but for the build that Cancel clears. -/
theorem keeps_endApply {Q : Ended → ProjectState → Prop} {buildingMade : Bool} {stop : ApplyStop}
    (hstart : b.Stop state) (hbefore : stop = .canceled → b.Before state)
    (hbroke : ∀ state, Q .brokeOff state) (hreported : ∀ state, Q .reported state) :
    (ApplyProg.endApply buildingMade stop).Keeps Effect.step b.Stop Q state := by
  unfold ApplyProg.endApply
  split
  · next hcanceled =>
    obtain ⟨hunfinished, hview, hbuilding⟩ := hbefore (by simp_all)
    have hclearing : ∀ next, (∃ entry, next = state.put .building entry) → b.Stop next := by
      rintro _ ⟨entry, rfl⟩
      exact .clearing ⟨hunfinished, hview⟩
    refine keeps_act_bind hstart ?_
    rintro gone next ⟨-, rfl | rfl | ⟨folder, empty, -, rfl⟩⟩
    · exact keeps_discard hstart hbroke hreported
    · exact keeps_discard (hclearing _ ⟨_, rfl⟩) hbroke hreported
    · exact keeps_discard (hclearing _ ⟨_, rfl⟩) hbroke hreported
  · exact keeps_discard hstart hbroke hreported

/-! ### Renames of the swap -/

theorem fresh_other {folder : Entry} (hfresh : state.Fresh folder)
    (hbuilding : state.entry .building = some b.built)
    (hold : ∀ old, b.old = some old → ∃ name, state.entry name = some old) : b.Other folder := by
  refine ⟨hfresh.1, (hfresh.2.2 _ _ hbuilding).symm, fun old heq => ?_⟩
  obtain ⟨name, hname⟩ := hold old heq
  exact (hfresh.2.2 name old hname).symm

theorem keeps_rename_aside {Q : Except IoError Unit → ProjectState → Prop} (h : b.Before state) 
    (hfailed : ∀ error state, b.Before state → Q (.error error) state)
    (hmoved : ∀ state, b.Aside state → Q (.ok ()) state) :
    (ApplyProg.rename .view .previous).Keeps Effect.step b.Stop Q state := by
  have ⟨hunfinished, hview, hbuilding⟩ := h
  refine keeps_rename (by decide) ?_ (.before h) (fun error => hfailed error _ h) ?_ ?_
  · intro entry hentry
    exact b.old_isDir entry (hview ▸ hentry)
  · intro _ _
    have haside : b.Aside (state.move .view .previous) := by
      refine ⟨hunfinished, by simp, fun folder heq => ?_, by simp [hbuilding]⟩
      rw [ProjectState.move_entry_target _ (by decide), hview, heq]
    exact ⟨.aside haside, hmoved _ haside⟩
  · intro folder _ _
    have hbefore : b.Before (state.put .previous (some folder)) :=
      ⟨hunfinished, by simp [hview], by simp [hbuilding]⟩
    exact ⟨.before hbefore, fun error => hfailed error _ hbefore⟩

theorem keeps_rename_back {Q : Except IoError Unit → ProjectState → Prop} {old : Entry}
    (hold : b.old = some old) (h : b.Aside state)
    (hfailed : ∀ error state, b.Aside state → Q (.error error) state)
    (hmoved : ∀ state, b.Before state → Q (.ok ()) state) :
    (ApplyProg.rename .previous .view).Keeps Effect.step b.Stop Q state := by
  have ⟨hunfinished, hview, hprevious, hbuilding⟩ := h
  refine keeps_rename (by decide) ?_ (.aside h) (fun error => hfailed error _ h) ?_ ?_
  · intro entry hentry
    rw [hprevious old hold] at hentry
    exact b.old_isDir entry (hold.trans hentry)
  · intro _ _
    have hbefore : b.Before (state.move .previous .view) := by
      refine ⟨hunfinished, ?_, by simp [hbuilding]⟩
      rw [ProjectState.move_entry_target _ (by decide), hprevious old hold, hold]
    exact ⟨.before hbefore, hmoved _ hbefore⟩
  · intro folder _ hfresh
    have hother := fresh_other (b := b) hfresh hbuilding fun old heq => ⟨_, hprevious old heq⟩
    have haside : b.Aside (state.put .view (some folder)) := by
      refine ⟨hunfinished, fun entry hentry => ?_, fun old heq => ?_, by simp [hbuilding]⟩
      · rw [ProjectState.put_entry] at hentry
        exact Option.some.inj hentry ▸ hother
      · simp [hprevious old heq]
    exact ⟨.aside haside, fun error => hfailed error _ haside⟩

theorem keeps_rename_install {Q : Except IoError Unit → ProjectState → Prop} (h : b.Aside state)
    (hfailed : ∀ error state, b.Aside state → Q (.error error) state)
    (hmoved : ∀ state, b.Installed state → Q (.ok ()) state) :
    (ApplyProg.rename .building .view).Keeps Effect.step b.Stop Q state := by
  have ⟨⟨hvolume, journal, hjournal, hexpected, hverified, _⟩, hview, hprevious, hbuilding⟩ := h
  refine keeps_rename (by decide) ?_ (.aside h) (fun error => hfailed error _ h) ?_ ?_
  · intro entry hentry
    rw [hbuilding] at hentry
    exact Option.some.inj hentry ▸ b.built_isDir
  · intro _ _
    have hinstalled : b.Installed (state.move .building .view) := by
      refine ⟨hvolume, ⟨journal, hjournal, hexpected, hverified⟩, ?_, fun old heq => ?_⟩
      · rw [ProjectState.move_entry_target _ (by decide), hbuilding]
      · simp [hprevious old heq]
    exact ⟨.installed hinstalled, hmoved _ hinstalled⟩
  · intro folder _ hfresh
    have hother := fresh_other (b := b) hfresh hbuilding fun old heq => ⟨_, hprevious old heq⟩
    have haside : b.Aside (state.put .view (some folder)) := by
      refine ⟨h.1, fun entry hentry => ?_, fun old heq => ?_, by simp [hbuilding]⟩
      · rw [ProjectState.put_entry] at hentry
        exact Option.some.inj hentry ▸ hother
      · simp [hprevious old heq]
    exact ⟨.aside haside, fun error => hfailed error _ haside⟩

/-! ### The parts of the swap -/

theorem Aside.advance {phase : ApplyPhase} (h : b.Aside state)
    (hphase : phase.rank < ApplyPhase.newInstalled.rank)
    (hrun : (CatalogWrite.advanceApply phase none).run state = some next) : b.Aside next := by
  obtain ⟨hunfinished, hentry⟩ := h.1.advance hphase hrun
  exact ⟨hunfinished, hentry ▸ h.2.1, hentry ▸ h.2.2.1, hentry ▸ h.2.2.2⟩

theorem Installed.advance {phase : ApplyPhase} (h : b.Installed state)
    (hrun : (CatalogWrite.advanceApply phase none).run state = some next) : b.Installed next := by
  obtain ⟨hvolume, ⟨journal, hjournal, hexpected, hverified⟩, hview, hprevious⟩ := h
  obtain ⟨found, hfound, hrank, rfl⟩ := run_advance hrun
  obtain rfl : found = journal := Option.some.inj (hfound.symm.trans hjournal)
  exact ⟨hvolume, ⟨_, rfl, hexpected, hverified.trans hrank⟩, hview, hprevious⟩

def GoesOnAside (b : VerifiedBuild) (ended : Ended) (state : ProjectState) : Prop :=
  ended = .goesOn → b.Aside state

theorem keeps_waitAside (polls : Nat) (h : b.Before state) : (ApplyProg.waitAside polls).Keeps Effect.step b.Stop
      (fun aside state => if aside = .moved then b.Aside state else b.Before state) state := by
  induction polls generalizing state with
  | zero => exact ⟨.before h, h⟩
  | succ polls ih =>
    refine keeps_act_bind (.before h) ?_
    rintro canceled next rfl
    split
    · exact ⟨.before h, h⟩
    · refine keeps_act_bind (.before h) ?_
      rintro canceled next rfl
      split
      · exact ⟨.before h, h⟩
      · refine Prog.keeps_bind.mpr (keeps_rename_aside h ?_ ?_)
        · intro error state hbefore
          cases error with
          | held => exact ih hbefore
          | alreadyExists => exact ⟨.before hbefore, hbefore⟩
          | unsupported => exact ⟨.before hbefore, hbefore⟩
          | other => exact ⟨.before hbefore, hbefore⟩
        · exact fun state haside => ⟨.aside haside, haside⟩

theorem keeps_moveOldViewAside (polls : Nat) (h : b.Before state) : (ApplyProg.moveOldViewAside polls).Keeps Effect.step b.Stop
      (fun ended state => ∀ aside waited, ended = some (aside, waited) →
        if aside = .moved then b.Aside state else b.Before state) state := by
  refine Prog.keeps_bind.mpr (keeps_rename_aside h ?_ ?_)
  · intro error state hbefore
    have hfailed : ∀ aside waited, some (ApplyProg.Aside.failed, false) = some (aside, waited) →
        if aside = .moved then b.Aside state else b.Before state := by
      rintro aside waited heq
      cases heq
      exact hbefore
    cases error with
    | held =>
      refine keeps_act_bind (.before hbefore) ?_
      rintro (_ | _) next hstep
      · obtain rfl : next = state := hstep
        exact ⟨.before hbefore, by simp⟩
      · obtain rfl := run_wait hstep
        refine Prog.keeps_bind.mpr ((keeps_waitAside polls hbefore).mono (fun _ h => h) ?_)
        rintro aside state hstop hended
        refine ⟨hstop, fun other waited heq => ?_⟩
        cases heq
        exact hended
    | alreadyExists => exact ⟨.before hbefore, hfailed⟩
    | unsupported => exact ⟨.before hbefore, hfailed⟩
    | other => exact ⟨.before hbefore, hfailed⟩
  · intro state haside
    refine ⟨.aside haside, fun aside waited heq => ?_⟩
    cases heq
    exact haside

theorem keeps_afterWait {old : Entry} (hold : b.old = some old) (buildingMade : Bool)
    (h : b.Aside state) :
    (ApplyProg.afterWait buildingMade).Keeps Effect.step b.Stop (GoesOnAside b) state := by
  refine keeps_recording (.aside h) (by simp [GoesOnAside]) fun next hrun => ?_
  have hnext := h.advance (by decide) hrun
  refine keeps_act_bind (.aside hnext) ?_
  rintro (_ | _ | _) last rfl
  · exact ⟨.aside hnext, by simp [GoesOnAside]⟩
  · refine Prog.keeps_bind.mpr (keeps_rename_back hold hnext ?_ ?_)
    · exact fun error state haside => ⟨.aside haside, by simp [GoesOnAside]⟩
    · intro state hbefore
      exact keeps_endApply (.before hbefore) (fun _ => hbefore) (by simp [GoesOnAside])
        (by simp [GoesOnAside])
  · refine keeps_recording (.aside hnext) (by simp [GoesOnAside]) fun advanced hrun => ?_
    exact ⟨.aside (hnext.advance (by decide) hrun), fun _ => hnext.advance (by decide) hrun⟩

theorem keeps_setOldViewAside {old : Entry} (hold : b.old = some old) (polls : Nat)
    (buildingMade : Bool) (h : b.Before state) :
    (ApplyProg.setOldViewAside polls buildingMade).Keeps Effect.step b.Stop (GoesOnAside b)
      state := by
  refine Prog.keeps_bind.mpr ((keeps_moveOldViewAside polls h).mono (fun _ h => h) ?_)
  rintro (_ | ⟨aside, waited⟩) state hstop hmoved
  · exact ⟨hstop, by simp [GoesOnAside]⟩
  · have hstate := hmoved aside waited rfl
    cases aside with
    | moved =>
      have haside : b.Aside state := hstate
      cases waited with
      | true => exact keeps_afterWait hold buildingMade haside
      | false =>
        refine keeps_recording (.aside haside) (by simp [GoesOnAside]) fun advanced hrun => ?_
        exact ⟨.aside (haside.advance (by decide) hrun), fun _ => haside.advance (by decide) hrun⟩
    | canceled =>
      exact keeps_endApply hstop (fun _ => hstate) (by simp [GoesOnAside]) (by simp [GoesOnAside])
    | failed =>
      exact keeps_endApply hstop (fun _ => hstate) (by simp [GoesOnAside]) (by simp [GoesOnAside])
    | died => exact ⟨hstop, by simp [GoesOnAside]⟩

theorem keeps_install (buildingMade : Bool) (h : b.Aside state) :
    (ApplyProg.install b.old.isSome buildingMade).Keeps Effect.step b.Stop (fun _ _ => True)
      state := by
  refine Prog.keeps_bind.mpr (keeps_rename_install h ?_ ?_)
  · intro error state haside
    simp only
    split
    · next hsome =>
      obtain ⟨old, hold⟩ := Option.isSome_iff_exists.mp hsome
      refine Prog.keeps_bind.mpr (keeps_rename_back hold haside ?_ ?_)
      · exact fun error state haside => ⟨.aside haside, trivial⟩
      · intro state hbefore
        exact keeps_endApply (.before hbefore) (fun _ => hbefore) (by simp) (by simp)
    · exact keeps_endApply (.aside haside) (by simp) (by simp) (by simp)
  · intro state hinstalled
    refine keeps_recording (.installed hinstalled) trivial fun next hrun => ?_
    have hnext := hinstalled.advance hrun
    refine keeps_act_bind (.installed hnext) ?_
    rintro interrupted last rfl
    split <;> exact ⟨.installed hnext, trivial⟩

theorem keeps_makeWay (old : Bool) (h : b.Before state) :
    (ApplyProg.makeWay old).Keeps Effect.step b.Stop (fun _ state => b.Before state) state := by
  have hput : ∀ {state : ProjectState}, b.Before state → ∀ entry,
      b.Before (state.put .previous entry) := fun h entry =>
    ⟨h.1, by simp [h.2.1], by simp [h.2.2]⟩
  have hmoveKept : (ApplyProg.moveKept).Keeps Effect.step b.Stop (fun _ state => b.Before state)
      state := by
    refine keeps_act_bind (.before h) ?_
    rintro answer next hstep
    have hnext : b.Before next := by
      obtain rfl | ⟨folder, empty, -, rfl⟩ := hstep
      · exact h
      · exact hput h _
    rcases answer with _ | _ | failed
    · exact ⟨.before hnext, hnext⟩
    · exact ⟨.before hnext, hnext⟩
    · refine keeps_act_bind (.before hnext) ?_
      rintro gone cleared ⟨-, hcleared⟩
      have hbefore : b.Before cleared := by
        obtain rfl | rfl := hcleared
        · exact hnext
        · exact hput hnext _
      split
      · exact ⟨.before hbefore, hbefore⟩
      · split
        · refine keeps_act_bind (.before hbefore) ?_
          rintro (_ | _) retired hretired
          · obtain rfl : retired = cleared := hretired
            exact ⟨.before hbefore, hbefore⟩
          · obtain ⟨-, rfl⟩ := run_retire hretired
            exact ⟨.before hbefore, hbefore⟩
        · exact ⟨.before hbefore, hbefore⟩
  refine Prog.keeps_bind.mpr (hmoveKept.mono (fun _ h => h) ?_)
  rintro (_ | _ | stop) state hstop hbefore
  · exact ⟨hstop, hbefore⟩
  · simp only
    split
    · exact ⟨hstop, hbefore⟩
    · refine keeps_act_bind hstop ?_
      rintro there next ⟨-, rfl⟩
      exact ⟨hstop, hbefore⟩
  · exact ⟨hstop, hbefore⟩

/-- Whether the folder at `name` reads as the recorded one. -/
def reads (state : ProjectState) (name : Name) (identity : Option FileIdentity) : Bool :=
  identity.any fun recorded =>
    (state.observe name).any fun observed => sameIdentity observed recorded

theorem keeps_is {I : ProjectState → Prop} (hstart : I state) (name : Name)
    (identity : Option FileIdentity) : (ApplyProg.is name identity).Keeps Effect.step I
      (fun answer next => next = state ∧ answer = reads state name identity) state := by
  cases identity with
  | none => exact ⟨hstart, rfl, rfl⟩
  | some recorded =>
    refine keeps_act_bind hstart ?_
    rintro observed next ⟨rfl, rfl⟩
    exact ⟨hstart, rfl, rfl⟩

theorem keeps_swapReady (expected : ExpectedTree) (h : b.Before state) :
    (ApplyProg.swapReady expected).Keeps Effect.step b.Stop (fun _ state => b.Before state)
      state := by
  refine keeps_act_bind (.before h) ?_
  rintro root next ⟨-, rfl⟩
  split
  · exact ⟨.before h, h⟩
  · refine Prog.keeps_bind.mpr ((keeps_is (.before h) .view expected.view).mono (fun _ h => h) ?_)
    rintro answer state hstop ⟨rfl, -⟩
    split
    · refine keeps_act_bind hstop ?_
      rintro there next ⟨-, rfl⟩
      exact ⟨hstop, h⟩
    · exact ⟨hstop, h⟩

theorem keeps_setAside {old : Entry} (hold : b.old = some old) (polls : Nat) (buildingMade : Bool)
    (h : b.Before state) :
    (ApplyProg.setAside polls b.expected buildingMade
      (ApplyProg.install b.old.isSome buildingMade)).Keeps Effect.step b.Stop (fun _ _ => True)
      state := by
  refine Prog.keeps_bind.mpr ((keeps_swapReady b.expected h).mono (fun _ h => h) ?_)
  rintro (_ | stop) state hstop hbefore
  · refine Prog.keeps_bind.mpr
      ((keeps_setOldViewAside hold polls buildingMade hbefore).mono (fun _ h => h) ?_)
    rintro (_ | _ | _) next hnext hgoesOn
    · have haside : b.Aside next := hgoesOn rfl
      refine keeps_act_bind hnext ?_
      rintro interrupted last rfl
      split
      · exact ⟨hnext, trivial⟩
      · exact keeps_install buildingMade haside
    · exact ⟨hnext, trivial⟩
    · exact ⟨hnext, trivial⟩
  · exact keeps_endApply hstop (fun _ => hbefore) (by simp) (by simp)

/-- The law of the swap: whatever stops it, both folders are where `Stop` says. -/
theorem keeps_swap (polls : Nat) (buildingMade : Bool) (h : b.Before state) :
    (ApplyProg.swap polls b.expected buildingMade).Keeps Effect.step b.Stop (fun _ _ => True)
      state := by
  have hsome : b.expected.view.isSome = b.old.isSome := by rw [b.expected_view, Option.isSome_map]
  refine keeps_act_bind (.before h) ?_
  rintro (_ | _ | _) next rfl
  · exact ⟨.before h, trivial⟩
  · exact keeps_endApply (.before h) (by simp) (by simp) (by simp)
  · refine keeps_act_bind (.before h) ?_
    rintro canceled next rfl
    split
    · exact keeps_endApply (.before h) (fun _ => h) (by simp) (by simp)
    · refine Prog.keeps_bind.mpr ((keeps_makeWay _ h).mono (fun _ h => h) ?_)
      rintro (_ | _ | stop) state hstop hbefore
      · exact ⟨hstop, trivial⟩
      · rw [hsome]
        cases hold : b.old with
        | none =>
          have haside : b.Aside state := by
            refine ⟨hbefore.1, fun entry hentry => ?_, by simp [hold], hbefore.2.2⟩
            rw [hbefore.2.1, hold] at hentry
            cases hentry
          simpa [hold] using keeps_install buildingMade haside
        | some old =>
          simpa [hold] using keeps_setAside hold polls buildingMade hbefore
      · exact keeps_endApply hstop (fun _ => hbefore) (by simp) (by simp)

end VerifiedBuild

end PlateVault
