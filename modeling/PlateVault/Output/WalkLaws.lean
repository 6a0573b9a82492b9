import PlateVault.Output.System

/-!
# What a walk finds

A walk only adds to what it has, each file with the fingerprint probed at its path. A file whose
place it can read under names that are no clutter is found, or lies below what it lists as
unreadable.
-/

namespace PlateVault.Output

variable {look : Answers}

/-- The files and folders so far, and the folders still to list. -/
abbrev Progress := Walked × List (List Text)

/-! ## Nothing found is lost -/

structure Grows (before after : Progress) : Prop where
  files : before.1.files ⊆ after.1.files
  unreadable : before.1.unreadable ⊆ after.1.unreadable
  pending : before.2 ⊆ after.2

theorem Grows.refl (state : Progress) : Grows state state :=
  ⟨List.Subset.refl _, List.Subset.refl _, List.Subset.refl _⟩

theorem Grows.trans {first middle last : Progress} (h : Grows first middle) (h' : Grows middle last) :
    Grows first last :=
  ⟨List.Subset.trans h.files h'.files, List.Subset.trans h.unreadable h'.unreadable,
    List.Subset.trans h.pending h'.pending⟩

theorem walkEntry_grows (folder : List Text) (state : Progress)
    (entry : Except Inventory.IoError Text) : Grows state (walkEntry look folder state entry) := by
  obtain ⟨walked, pending⟩ := state
  unfold walkEntry
  cases entry with
  | error error => exact ⟨List.Subset.refl _, List.subset_append_left .., List.Subset.refl _⟩
  | ok name =>
    simp only
    split
    · exact .refl _
    · split
      · split
        · exact .refl _
        · exact ⟨List.Subset.refl _, List.subset_append_left .., List.Subset.refl _⟩
      · split
        · exact .refl _
        · split
          · exact ⟨List.Subset.refl _, List.Subset.refl _, List.subset_cons_self ..⟩
          · split
            · exact ⟨List.subset_append_left .., List.Subset.refl _, List.Subset.refl _⟩
            · exact .refl _

theorem walkEntries_grows (folder : List Text) (entries : List (Except Inventory.IoError Text))
    (state : Progress) : Grows state (entries.foldl (walkEntry look folder) state) := by
  induction entries generalizing state with
  | nil => exact .refl state
  | cons entry rest ih => exact (walkEntry_grows folder state entry).trans (ih _)

/-! ## What is found is as probed -/

/-- The walk so far: its files are as probed, and its paths are of valid names. -/
structure Sound (look : Answers) (state : Progress) : Prop where
  files : ∀ found ∈ state.1.files, found.path ≠ [] ∧ (∀ name ∈ found.path, ValidName name) ∧
    found.fingerprint = look.probe found.path ∧
    ∃ metadata, look.lstat found.path = .ok metadata ∧ metadata.isFile = true
  unreadable : ∀ folder ∈ state.1.unreadable, ∀ name ∈ folder, ValidName name
  pending : ∀ folder ∈ state.2, ∀ name ∈ folder, ValidName name

theorem walkEntry_sound {folder : List Text} {state : Progress} (h : Sound look state)
    (hfolder : ∀ name ∈ folder, ValidName name) {entry : Except Inventory.IoError Text}
    (hentry : ∀ name, entry = .ok name → ValidName name) :
    Sound look (walkEntry look folder state entry) := by
  obtain ⟨walked, pending⟩ := state
  unfold walkEntry
  cases entry with
  | error error =>
    refine ⟨h.files, fun other hother => ?_, h.pending⟩
    rcases List.mem_append.mp hother with hother | hother
    · exact h.unreadable other hother
    · rw [List.mem_singleton.mp hother]
      exact hfolder
  | ok name =>
    have hpath : ∀ part ∈ folder ++ [name], ValidName part := by
      intro part hpart
      rcases List.mem_append.mp hpart with hpart | hpart
      · exact hfolder part hpart
      · rw [List.mem_singleton.mp hpart]
        exact hentry name rfl
    simp only
    split
    · exact h
    · split
      · split
        · exact h
        · refine ⟨h.files, fun other hother => ?_, h.pending⟩
          rcases List.mem_append.mp hother with hother | hother
          · exact h.unreadable other hother
          · rw [List.mem_singleton.mp hother]
            exact hpath
      · rename_i metadata hlook
        split
        · exact h
        · split
          · refine ⟨h.files, h.unreadable, fun other hother => ?_⟩
            rcases List.mem_cons.mp hother with rfl | hother
            · exact hpath
            · exact h.pending other hother
          · split
            · rename_i hregular
              refine ⟨fun found hfound => ?_, h.unreadable, h.pending⟩
              rcases List.mem_append.mp hfound with hfound | hfound
              · exact h.files found hfound
              · rw [List.mem_singleton.mp hfound]
                exact ⟨by simp, hpath, rfl, metadata, hlook, hregular⟩
            · exact h

theorem walkEntries_sound {folder : List Text} (hfolder : ∀ name ∈ folder, ValidName name)
    {entries : List (Except Inventory.IoError Text)}
    (hentries : ∀ name, .ok name ∈ entries → ValidName name) {state : Progress}
    (h : Sound look state) : Sound look (entries.foldl (walkEntry look folder) state) := by
  induction entries generalizing state with
  | nil => exact h
  | cons entry rest ih =>
    refine ih (fun name hname => hentries name (List.mem_cons_of_mem _ hname)) ?_
    exact walkEntry_sound h hfolder fun name hname => hentries name (hname ▸ List.mem_cons_self)

theorem walkFolders_sound {rounds : Nat} {walked : Walked} {pending : List (List Text)}
    (h : Sound look (walked, pending)) {found : Walked}
    (hwalk : walkFolders look rounds walked pending = some (.walked found)) :
    Sound look (found, []) := by
  induction rounds generalizing walked pending with
  | zero =>
    cases pending with
    | nil =>
      cases hwalk
      exact h
    | cons folder pending => cases hwalk
  | succ rounds ih =>
    cases pending with
    | nil =>
      cases hwalk
      exact h
    | cons folder pending =>
      have hfolder := h.pending folder List.mem_cons_self
      have hrest : Sound look (walked, pending) :=
        ⟨h.files, h.unreadable, fun other hother => h.pending other (List.mem_cons_of_mem _ hother)⟩
      unfold walkFolders at hwalk
      cases hread : look.readDir folder with
      | error error =>
        rw [hread] at hwalk
        simp only at hwalk
        split at hwalk
        · cases hwalk
        · have hmore : Sound look
              ({ walked with unreadable := walked.unreadable ++ [folder] }, pending) := by
            refine ⟨hrest.files, fun other hother => ?_, hrest.pending⟩
            rcases List.mem_append.mp hother with hother | hother
            · exact hrest.unreadable other hother
            · rw [List.mem_singleton.mp hother]
              exact hfolder
          exact ih hmore hwalk
      | ok entries =>
        rw [hread] at hwalk
        exact ih (walkEntries_sound hfolder (look.valid folder entries hread) hrest) hwalk

theorem walkOutput_sound {rounds : Nat} {walked : Walked}
    (h : walkOutput look rounds = some (.walked walked)) : Sound look (walked, []) := by
  have hstart : Sound look (({ files := [], unreadable := [] } : Walked), [[]]) := by
    refine ⟨fun _ hfound => (by cases hfound), fun _ hfolder => (by cases hfolder),
      fun folder hfolder name hname => ?_⟩
    rw [List.mem_singleton.mp hfolder] at hname
    cases hname
  unfold walkOutput at h
  split at h
  · split at h
    · unfold walk at h
      split at h
      · split at h
        · cases h
        · cases h
      · split at h
        · obtain ⟨tree, htree, hsorted⟩ := Option.map_eq_some_iff.mp h
          cases tree with
          | absent => cases hsorted
          | unreadable => cases hsorted
          | walked found =>
            cases hsorted
            have hfound := walkFolders_sound hstart htree
            exact ⟨fun file hfile => hfound.files file (Ordered.mem_sortBy.mp hfile),
              hfound.unreadable, hfound.pending⟩
        · cases h
    · cases h
  · cases h

/-! ## A readable file is found -/

/-- The file at `names` is found, below something unreadable, or in a folder still to list. -/
def Covered (names : List Text) (state : Progress) : Prop :=
  (∃ found ∈ state.1.files, found.path = names) ∨
  (∃ folder ∈ state.1.unreadable, folder <+: names) ∨
  ∃ folder ∈ state.2, folder <+: names ∧ folder ≠ names

theorem Covered.mono {names : List Text} {before after : Progress} (hgrows : Grows before after)
    (h : Covered names before) : Covered names after := by
  rcases h with ⟨found, hfound, hpath⟩ | ⟨folder, hfolder, hbelow⟩ | ⟨folder, hfolder, hbelow⟩
  · exact .inl ⟨found, hgrows.files hfound, hpath⟩
  · exact .inr (.inl ⟨folder, hgrows.unreadable hfolder, hbelow⟩)
  · exact .inr (.inr ⟨folder, hgrows.pending hfolder, hbelow⟩)

theorem walkEntry_covers {names folder rest : List Text} {name : Text}
    (hnames : names = folder ++ name :: rest) (hclutter : clutter name = false)
    (hleads : Leads look names) (state : Progress) :
    Covered names (walkEntry look folder state (.ok name)) := by
  obtain ⟨walked, pending⟩ := state
  have hpath : folder ++ [name] <+: names := ⟨rest, by rw [hnames]; simp⟩
  have hentry := (hleads folder name rest hnames).2
  unfold walkEntry
  simp only [hclutter, Bool.false_eq_true, if_false]
  cases hlook : look.lstat (folder ++ [name]) with
  | error error =>
    rw [hlook] at hentry
    simp only [if_neg hentry]
    exact .inr (.inl ⟨folder ++ [name], by simp, hpath⟩)
  | ok metadata =>
    rw [hlook] at hentry
    obtain ⟨hlink, hdir, hfile⟩ := hentry
    cases rest with
    | nil =>
      simp only [hlink, hdir, hfile, List.isEmpty_nil, Bool.not_true, Bool.false_eq_true, if_false, if_true]
      exact .inl ⟨_, List.mem_append_right _ List.mem_cons_self, hnames.symm⟩
    | cons next rest =>
      simp only [hlink, hdir, List.isEmpty_cons, Bool.not_false, Bool.false_eq_true, if_false, if_true]
      refine .inr (.inr ⟨folder ++ [name], List.mem_cons_self, hpath, fun hsame => ?_⟩)
      rw [hnames] at hsame
      simpa using congrArg List.length hsame

theorem walkEntries_covers {names folder rest : List Text} {name : Text}
    (hnames : names = folder ++ name :: rest) (hclutter : clutter name = false)
    (hleads : Leads look names) {entries : List (Except Inventory.IoError Text)}
    (hlisted : .ok name ∈ entries ∨ ∃ error, .error error ∈ entries) (state : Progress) :
    Covered names (entries.foldl (walkEntry look folder) state) := by
  have hfound : ∃ entry ∈ entries, ∀ state, Covered names (walkEntry look folder state entry) := by
    rcases hlisted with hname | ⟨error, herror⟩
    · exact ⟨.ok name, hname, walkEntry_covers hnames hclutter hleads⟩
    · refine ⟨.error error, herror, fun state => .inr (.inl ⟨folder, ?_, ⟨name :: rest, hnames.symm⟩⟩)⟩
      exact List.mem_append_right _ List.mem_cons_self
  obtain ⟨entry, hentry, hcovers⟩ := hfound
  obtain ⟨before, after, rfl⟩ := List.append_of_mem hentry
  rw [List.foldl_append, List.foldl_cons]
  exact (hcovers _).mono (walkEntries_grows folder after _)

theorem walkFolders_covers {names : List Text} (hclean : ∀ name ∈ names, clutter name = false)
    (hleads : Leads look names) {rounds : Nat} {walked : Walked} {pending : List (List Text)}
    (h : Covered names (walked, pending)) {tree : Tree}
    (hwalk : walkFolders look rounds walked pending = some tree) :
    tree = .unreadable ∨ ∃ found, tree = .walked found ∧ Covered names (found, []) := by
  induction rounds generalizing walked pending with
  | zero =>
    cases pending with
    | nil =>
      cases hwalk
      exact .inr ⟨walked, rfl, h⟩
    | cons folder pending => cases hwalk
  | succ rounds ih =>
    cases pending with
    | nil =>
      cases hwalk
      exact .inr ⟨walked, rfl, h⟩
    | cons folder pending =>
      have hcase : Covered names (walked, pending) ∨ (folder <+: names ∧ folder ≠ names) := by
        rcases h with hfound | hunread | ⟨other, hother, hbelow⟩
        · exact .inl (.inl hfound)
        · exact .inl (.inr (.inl hunread))
        · rcases List.mem_cons.mp hother with rfl | hother
          · exact .inr hbelow
          · exact .inl (.inr (.inr ⟨other, hother, hbelow⟩))
      unfold walkFolders at hwalk
      cases hread : look.readDir folder with
      | error error =>
        rw [hread] at hwalk
        simp only at hwalk
        split at hwalk
        · cases hwalk
          exact .inl rfl
        · have hmore : Covered names
              ({ walked with unreadable := walked.unreadable ++ [folder] }, pending) := by
            rcases hcase with hcovered | ⟨hbelow, -⟩
            · have hgrows : Grows (walked, pending)
                  ({ walked with unreadable := walked.unreadable ++ [folder] }, pending) :=
                ⟨List.Subset.refl _, List.subset_append_left .., List.Subset.refl _⟩
              exact hcovered.mono hgrows
            · exact .inr (.inl ⟨folder, List.mem_append_right _ List.mem_cons_self, hbelow⟩)
          exact ih hmore hwalk
      | ok entries =>
        rw [hread] at hwalk
        have hmore : Covered names (entries.foldl (walkEntry look folder) (walked, pending)) := by
          rcases hcase with hcovered | ⟨⟨suffix, hsuffix⟩, hne⟩
          · exact hcovered.mono (walkEntries_grows folder entries _)
          · cases suffix with
            | nil => exact absurd (by simpa using hsuffix) hne
            | cons name rest =>
              have hname : name ∈ names := by rw [← hsuffix]; simp
              exact walkEntries_covers hsuffix.symm (hclean name hname) hleads
                ((hleads folder name rest hsuffix.symm).1 entries hread) _
        exact ih hmore hwalk

theorem walkOutput_covers {names : List Text} (hne : names ≠ [])
    (hclean : ∀ name ∈ names, clutter name = false)
    {fingerprint : Option ObservationFingerprint} (hkeeps : Keeps look names fingerprint)
    {rounds : Nat} {tree : Tree} (h : walkOutput look rounds = some tree) :
    tree = .unreadable ∨ ∃ found, tree = .walked found ∧ Covered names (found, []) := by
  have hstart : Covered names (({ files := [], unreadable := [] } : Walked), [[]]) :=
    .inr (.inr ⟨[], List.mem_cons_self, List.nil_prefix, hne.symm⟩)
  unfold walkOutput at h
  split at h
  · split at h
    · unfold walk at h
      split at h
      · rename_i error herror
        rw [if_neg (hkeeps.root error herror)] at h
        cases h
        exact .inl rfl
      · split at h
        · obtain ⟨found, hfound, hsorted⟩ := Option.map_eq_some_iff.mp h
          rcases walkFolders_covers hclean hkeeps.leads hstart hfound with
            rfl | ⟨walked, rfl, hcovered⟩
          · cases hsorted
            exact .inl rfl
          · cases hsorted
            refine .inr ⟨_, rfl, ?_⟩
            rcases hcovered with ⟨file, hfile, hpath⟩ | hrest
            · exact .inl ⟨file, Ordered.mem_sortBy.mpr hfile, hpath⟩
            · exact .inr hrest
        · cases h
          exact .inl rfl
    · cases h
      exact .inl rfl
  · cases h
    exact .inl rfl

end PlateVault.Output
