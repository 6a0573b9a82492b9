import PlateVault.Apply.Effects
import Mathlib.Data.List.Nodup

/-!
# What the catalog's writes do

One inversion lemma for each write, and what an update of manifest states keeps.
-/

namespace PlateVault

namespace CatalogWrite

variable {state next : ProjectState} {journal : ApplyJournal}

/-! ## Manifest states -/

section States

variable {manifests updated : List ViewManifest} {which : ViewManifest → Bool}
  {target : ManifestState}

theorem updateStates_eq_some : updateStates manifests which target = some updated ↔
    (∀ manifest ∈ manifests, which manifest = true → canBecome manifest.state target = true) ∧
      uniqueStates updated = true ∧ updated = restated manifests which target := by
  unfold updateStates
  constructor
  · intro h
    split at h
    · next hadmitted =>
      obtain rfl := Option.some.inj h
      rw [Bool.and_eq_true, List.all_eq_true] at hadmitted
      refine ⟨fun manifest hmem hwhich => ?_, hadmitted.2, rfl⟩
      simpa [hwhich] using hadmitted.1 manifest hmem
    · cases h
  · rintro ⟨hbecome, hunique, rfl⟩
    rw [if_pos]
    rw [Bool.and_eq_true, List.all_eq_true]
    refine ⟨fun manifest hmem => ?_, hunique⟩
    cases hwhich : which manifest with
    | false => rfl
    | true => exact hbecome manifest hmem hwhich

@[simp] theorem restated_generations : (restated manifests which target).map ViewManifest.generation =
    manifests.map ViewManifest.generation := by
  rw [restated, List.map_map]
  refine List.map_congr_left fun manifest _ => ?_
  simp only [Function.comp_apply]
  split <;> rfl

theorem mem_restated {manifest : ViewManifest} : manifest ∈ restated manifests which target ↔
    ∃ old ∈ manifests, (if which old then { old with state := target } else old) = manifest :=
  List.mem_map

theorem mem_restated_of_not {manifest : ViewManifest} (hmem : manifest ∈ manifests)
    (hwhich : which manifest = false) : manifest ∈ restated manifests which target :=
  mem_restated.mpr ⟨manifest, hmem, by simp [hwhich]⟩

theorem retireIfGone_eq_some {previousGone : Bool}
    (h : retireIfGone previousGone manifests = some updated) :
    updated.map ViewManifest.generation = manifests.map ViewManifest.generation ∧
      (uniqueStates manifests = true → uniqueStates updated = true) := by
  unfold retireIfGone at h
  split at h
  · rw [retirePrevious, updateStates_eq_some] at h
    obtain ⟨-, hunique, rfl⟩ := h
    exact ⟨restated_generations, fun _ => hunique⟩
  · cases h
    exact ⟨rfl, id⟩

end States

/-! ## The writes -/

theorem run_advance {phase : ApplyPhase} {expected : Option ExpectedTree}
    (h : (CatalogWrite.advanceApply phase expected).run state = some next) :
    ∃ journal, state.journal = some journal ∧ journal.phase.rank ≤ phase.rank ∧
      next = { state with journal := some { journal with
        phase, expected := expected.getD journal.expected } } := by
  simp only [CatalogWrite.run, advance, Option.bind_eq_bind, Option.bind_eq_some_iff,
    Option.some.injEq] at h
  obtain ⟨journal, hjournal, advanced, hadvanced, rfl⟩ := h
  split at hadvanced
  · next hrank =>
    cases hadvanced
    exact ⟨journal, hjournal, hrank, rfl⟩
  · cases hadvanced

theorem run_build : CatalogWrite.recordApplyBuild.run state =
    (CatalogWrite.advanceApply .buildVerified none).run state := rfl

theorem run_wait (h : CatalogWrite.recordApplyWait.run state = some next) : next = state := by
  simp only [CatalogWrite.run, Option.bind_eq_bind, Option.bind_eq_some_iff] at h
  obtain ⟨journal, -, hnext⟩ := h
  split at hnext
  · cases hnext
    rfl
  · cases hnext

theorem run_retire (h : CatalogWrite.retirePreviousView.run state = some next) :
    uniqueStates next.manifests = true ∧ next = { state with
      manifests := restated state.manifests (fun manifest => manifest.state = .previous)
        .retired } := by
  simp only [CatalogWrite.run, Option.bind_eq_bind, Option.bind_eq_some_iff, Option.some.injEq,
    retirePrevious, updateStates_eq_some] at h
  obtain ⟨manifests, ⟨-, hunique, rfl⟩, rfl⟩ := h
  exact ⟨hunique, rfl⟩

theorem run_discard (h : CatalogWrite.discardApply.run state = some next) :
    uniqueStates next.manifests = true ∧ next.journal = none ∧
      next.manifests.map ViewManifest.generation =
        state.manifests.map ViewManifest.generation := by
  simp only [CatalogWrite.run, Option.bind_eq_bind, Option.bind_eq_some_iff, setManifestState,
    updateStates_eq_some] at h
  obtain ⟨journal, -, manifests, ⟨-, hunique, rfl⟩, hnext⟩ := h
  split at hnext
  · cases hnext
    exact ⟨hunique, rfl, restated_generations⟩
  · cases hnext

theorem run_settle {previousGone : Bool}
    (h : (CatalogWrite.settleApply previousGone).run state = some next)
    (hunique : uniqueStates state.manifests = true) :
    uniqueStates next.manifests = true ∧ next.journal = none ∧
      next.manifests.map ViewManifest.generation =
        state.manifests.map ViewManifest.generation := by
  simp only [CatalogWrite.run, Option.bind_eq_bind, Option.bind_eq_some_iff] at h
  obtain ⟨journal, -, manifests, hmanifests, hnext⟩ := h
  obtain ⟨hgenerations, hretired⟩ := retireIfGone_eq_some hmanifests
  split at hnext
  · cases hnext
    exact ⟨hretired hunique, rfl, hgenerations⟩
  · cases hnext

theorem run_commit (h : CatalogWrite.commitApply.run state = some next) :
    ∃ journal, state.journal = some journal ∧
      next.journal = some { journal with phase := .manifestCommitted } ∧
      uniqueStates next.manifests = true ∧ next.manifests.map ViewManifest.generation =
        state.manifests.map ViewManifest.generation ∧ next.volume = state.volume := by
  simp only [CatalogWrite.run, Option.bind_eq_bind, Option.bind_eq_some_iff, setManifestState,
    updateStates_eq_some, advance, Option.some.injEq] at h
  obtain ⟨journal, hjournal, previous, ⟨-, -, rfl⟩, installed, ⟨-, hunique, rfl⟩, advanced,
    hadvanced, rfl⟩ := h
  split at hadvanced
  · cases hadvanced
    exact ⟨journal, hjournal, rfl, hunique, by simp, rfl⟩
  · cases hadvanced

theorem generation_new {manifests : List ViewManifest} {manifest : ViewManifest}
    (hmem : manifest ∈ manifests) :
    manifest.generation < (manifests.map ViewManifest.generation).foldl max 0 + 1 := by
  have hle : ∀ (generations : List Nat) (start : Nat), start ≤ generations.foldl max start ∧
      ∀ generation ∈ generations, generation ≤ generations.foldl max start := by
    intro generations
    induction generations with
    | nil => simp
    | cons generation generations ih =>
      intro start
      obtain ⟨hstart, hmax⟩ := ih (max start generation)
      simp only [List.foldl_cons, List.forall_mem_cons]
      exact ⟨(le_max_left _ _).trans hstart, (le_max_right _ _).trans hstart, hmax⟩
  exact Nat.lt_succ_of_le ((hle _ 0).2 _ (List.mem_map_of_mem hmem))

theorem run_reserve {previousGone : Bool} {expected : ExpectedTree}
    (h : (CatalogWrite.reserveApply previousGone expected).run state = some next)
    (hgenerations : (state.manifests.map ViewManifest.generation).Nodup) :
    ∃ generation, next.journal = some { generation, phase := .reserved, expected } ∧
      { generation, state := .building } ∈ next.manifests ∧
      uniqueStates next.manifests = true ∧
      (next.manifests.map ViewManifest.generation).Nodup := by
  simp only [CatalogWrite.run, Option.bind_eq_bind] at h
  split at h
  · cases h
  · simp only [Option.bind_eq_some_iff] at h
    obtain ⟨manifests, hmanifests, hnext⟩ := h
    obtain ⟨hsame, -⟩ := retireIfGone_eq_some hmanifests
    split at hnext
    · next hunique =>
      cases hnext
      refine ⟨_, rfl, by simp, hunique, ?_⟩
      rw [List.map_append, List.nodup_append, hsame]
      refine ⟨hgenerations, by simp, ?_⟩
      intro generation hmem other hother heq
      obtain ⟨manifest, hmanifest, rfl⟩ := List.mem_map.mp hmem
      have hnew := generation_new hmanifest
      simp only [List.map_cons, List.map_nil, List.mem_singleton] at hother
      rw [heq, hother, ← hsame] at hnew
      exact Nat.lt_irrefl _ (hsame ▸ hnew)
    · cases hnext

/-! ## The commit is admitted -/

theorem uniqueStates_iff {manifests : List ViewManifest} : uniqueStates manifests = true ↔
    ∀ state ∈ [ManifestState.building, .installed, .previous],
      manifests.countP (fun manifest => manifest.state = state) ≤ 1 := by
  simp only [uniqueStates, List.all_eq_true, decide_eq_true_eq, List.countP_eq_length_filter]

theorem countP_restated {manifests : List ViewManifest} {which : ViewManifest → Bool}
    {target : ManifestState} {counted : ManifestState} :
    (restated manifests which target).countP (fun manifest => manifest.state = counted) =
      manifests.countP fun manifest =>
        if which manifest then target = counted else manifest.state = counted := by
  rw [restated, List.countP_map]
  congr 1
  funext manifest
  simp only [Function.comp_apply]
  split <;> simp_all

theorem countP_generation {manifests : List ViewManifest} (generation : Nat)
    (hgenerations : (manifests.map ViewManifest.generation).Nodup) :
    manifests.countP (fun manifest => manifest.generation = generation) ≤ 1 := by
  have hcount := List.nodup_iff_count_le_one.mp hgenerations generation
  rw [List.count, List.countP_map] at hcount
  refine le_trans (le_of_eq ?_) hcount
  congr 1

theorem previous_admitted {manifests : List ViewManifest} (hunique : uniqueStates manifests = true)
    (hcleared : ∀ manifest ∈ manifests, manifest.state ≠ .previous) :
    updateStates manifests (fun manifest => manifest.state = .installed) .previous =
      some (restated manifests (fun manifest => manifest.state = .installed) .previous) := by
  refine updateStates_eq_some.mpr ⟨fun manifest _ hinstalled => ?_, ?_, rfl⟩
  · rw [decide_eq_true_eq.mp hinstalled]
    rfl
  · rw [uniqueStates_iff] at hunique ⊢
    intro state hstate
    rw [countP_restated]
    refine le_trans (List.countP_mono_left fun manifest hmem hcounted => ?_)
      (hunique (if state = .previous then .installed else state) (by
        split
        · simp
        · exact hstate))
    have hnot := hcleared manifest hmem
    split at hcounted <;> split <;> simp_all

theorem installed_admitted {manifests : List ViewManifest} {generation : Nat}
    (hunique : uniqueStates manifests = true)
    (hgenerations : (manifests.map ViewManifest.generation).Nodup)
    (hbuilding : { generation, state := .building } ∈ manifests)
    (hnone : ∀ manifest ∈ manifests, manifest.state ≠ .installed) :
    setManifestState manifests generation .installed = some (restated manifests
      (fun manifest => manifest.generation = generation) .installed) := by
  refine updateStates_eq_some.mpr ⟨fun manifest hmem hgeneration => ?_, ?_, rfl⟩
  · have heq : manifest = { generation, state := .building } :=
      List.inj_on_of_nodup_map hgenerations hmem hbuilding (decide_eq_true_eq.mp hgeneration)
    rw [heq]
    rfl
  · rw [uniqueStates_iff] at hunique ⊢
    intro state hstate
    rw [countP_restated]
    by_cases hinstalled : state = .installed
    · refine le_trans (List.countP_mono_left fun manifest hmem hcounted => ?_)
        (countP_generation generation hgenerations)
      have hnot := hnone manifest hmem
      split at hcounted <;> simp_all
    · refine le_trans (List.countP_mono_left fun manifest _ hcounted => ?_) (hunique state hstate)
      split at hcounted <;> simp_all

theorem commit_admitted (hjournal : state.journal = some journal)
    (hphase : journal.phase.rank < ApplyPhase.manifestCommitted.rank)
    (hunique : uniqueStates state.manifests = true)
    (hgenerations : (state.manifests.map ViewManifest.generation).Nodup)
    (hbuilding : { generation := journal.generation, state := .building } ∈ state.manifests)
    (hcleared : ∀ manifest ∈ state.manifests, manifest.state ≠ .previous) :
    (CatalogWrite.commitApply.run state).isSome = true := by
  have hprevious := previous_admitted hunique hcleared
  have hnone : ∀ manifest ∈ restated state.manifests
      (fun manifest => manifest.state = .installed) .previous, manifest.state ≠ .installed := by
    intro manifest hmem
    obtain ⟨old, -, rfl⟩ := mem_restated.mp hmem
    split <;> simp_all
  have hinstalled := installed_admitted (updateStates_eq_some.mp hprevious).2.1
    (by simpa using hgenerations) (mem_restated_of_not hbuilding rfl) hnone
  simp only [CatalogWrite.run, hjournal, hprevious, hinstalled, advance, Nat.le_of_lt hphase,
    Option.bind_eq_bind, Option.bind_some, if_true, Option.isSome_some]

end CatalogWrite

end PlateVault
