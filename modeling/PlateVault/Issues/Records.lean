import PlateVault.Library.Observations

/-!
# Issues and their fingerprints

An issue is on the row it affects. A dismissal records its fingerprint, `kind|subject|count|bytes`,
and a view splits the current issues by the fingerprints recorded.
-/

namespace PlateVault.Issues

open Library (Availability LocationLifecycle)

inductive IssueKind
  | needsTarget
  | notInProject
  | needsCalibration
  | pinDrift
  | locationDenied
  | locationOffline
  | workFailed
  | workInterrupted
  | previousReview
  | masterOffer
  | drift
  | duplicates
  deriving DecidableEq, Repr

inductive IssueSeverity
  | danger
  | warning
  | info
  deriving DecidableEq, Repr

namespace IssueKind

def asStr : IssueKind → Text
  | .needsTarget => "needs-target".toList
  | .notInProject => "not-in-project".toList
  | .needsCalibration => "needs-calibration".toList
  | .pinDrift => "pin-drift".toList
  | .locationDenied => "location-denied".toList
  | .locationOffline => "location-offline".toList
  | .workFailed => "work-failed".toList
  | .workInterrupted => "work-interrupted".toList
  | .previousReview => "previous-review".toList
  | .masterOffer => "master-offer".toList
  | .drift => "drift".toList
  | .duplicates => "duplicates".toList

def severity : IssueKind → IssueSeverity
  | .pinDrift | .locationDenied | .workFailed => .danger
  | .needsTarget | .needsCalibration | .locationOffline | .workInterrupted | .previousReview
  | .drift | .duplicates => .warning
  | .notInProject | .masterOffer => .info

def dismissable : IssueKind → Bool
  | .previousReview => false
  | _ => true

/-- The issue an active location raises while its availability is this. -/
def ofLocation : Availability → Option IssueKind
  | .offline | .missing => some .locationOffline
  | .unreadable | .identityConflict => some .locationDenied
  | .available | .retired | .trashed => none

end IssueKind

/-- The row an issue is on, or the Library for a count with no row. -/
inductive IssueOwner
  | library
  | session (id : Uuid)
  | project (id : Uuid)
  | location (id : Uuid)
  | operation (id : Uuid)
  deriving DecidableEq, Repr

inductive IssuePage
  | sessions
  | locations
  | activity
  | project (id : Uuid)
  deriving DecidableEq, Repr

structure Issue where
  id : Text
  fingerprint : Text
  kind : IssueKind
  severity : IssueSeverity
  count : Nat
  bytes : Option Nat
  name : Option Text
  owner : IssueOwner
  page : IssuePage
  dismissable : Bool
  deriving DecidableEq, Repr

def subject : Option Uuid → Text
  | some record => record.hyphenated.toList
  | none => "library".toList

def issueId (kind : IssueKind) (about : Option Uuid) : Text := kind.asStr ++ '|' :: subject about

def bytesText (bytes : Option Nat) : Text := (bytes.map decimal).getD []

namespace Issue

def new (kind : IssueKind) (owner : IssueOwner) (about : Option Uuid) (count : Nat)
    (bytes : Option Nat) (name : Option Text) : Issue where
  id := issueId kind about
  fingerprint := issueId kind about ++ '|' :: (decimal count ++ '|' :: bytesText bytes)
  kind
  severity := kind.severity
  count
  bytes
  name
  owner
  page :=
    match kind, owner with
    | _, .project id => .project id
    | .locationDenied, _ | .locationOffline, _ => .locations
    | .workFailed, _ | .workInterrupted, _ => .activity
    | _, _ => .sessions
  dismissable := kind.dismissable

/-- The start every fingerprint of the issue of `kind` about `about` shares. -/
def fingerprintPrefix (kind : IssueKind) (about : Option Uuid) : Text := issueId kind about ++ ['|']

end Issue

/-! ## The view -/

structure IssuePageCount where
  severity : IssueSeverity
  page : IssuePage
  count : Nat
  deriving DecidableEq, Repr

structure IssueCounts where
  danger : Nat
  warning : Nat
  info : Nat
  deriving DecidableEq, Repr

/-- Every current issue, split into those that count and those dismissed. -/
structure IssueView where
  issues : List Issue
  dismissed : List Issue
  counts : IssueCounts
  pages : List IssuePageCount
  deriving DecidableEq, Repr

namespace IssueCounts

def add (counts : IssueCounts) : IssueSeverity → IssueCounts
  | .danger => { counts with danger := counts.danger + 1 }
  | .warning => { counts with warning := counts.warning + 1 }
  | .info => { counts with info := counts.info + 1 }

def of (counts : IssueCounts) : IssueSeverity → Nat
  | .danger => counts.danger
  | .warning => counts.warning
  | .info => counts.info

theorem of_add (counts : IssueCounts) (severity asked : IssueSeverity) :
    (counts.add severity).of asked = counts.of asked + if severity = asked then 1 else 0 := by
  cases severity <;> cases asked <;> rfl

end IssueCounts

/-- Count the issue under its severity and page, at the first such count. -/
def addPage (issue : Issue) : List IssuePageCount → List IssuePageCount
  | [] => [⟨issue.severity, issue.page, 1⟩]
  | page :: pages =>
    if page.severity = issue.severity ∧ page.page = issue.page then
      { page with count := page.count + 1 } :: pages
    else page :: addPage issue pages

def Issue.place (issue : Issue) : IssueSeverity × IssuePage := (issue.severity, issue.page)

/-- How many of `issues` count for the page `place`. -/
def tally (issues : List Issue) (place : IssueSeverity × IssuePage) : IssuePageCount :=
  ⟨place.1, place.2, issues.countP (·.place = place)⟩

theorem tally_append (issues : List Issue) (issue : Issue) (place : IssueSeverity × IssuePage) :
    tally (issues ++ [issue]) place = { tally issues place with
      count := (tally issues place).count + if issue.place = place then 1 else 0 } := by
  simp [tally, List.countP_append, List.countP_cons]

theorem tally_new {issues : List Issue} {issue : Issue} (h : issue.place ∉ issues.map Issue.place) :
    tally (issues ++ [issue]) issue.place = ⟨issue.severity, issue.page, 1⟩ := by
  have hnone : issues.countP (·.place = issue.place) = 0 :=
    List.countP_eq_zero.mpr fun other hmem hplace =>
      h (List.mem_map.mpr ⟨other, hmem, of_decide_eq_true hplace⟩)
  rw [tally_append, if_pos rfl, tally, hnone]
  rfl

theorem addPage_tally (issues : List Issue) (issue : Issue)
    {places : List (IssueSeverity × IssuePage)} (h : places.Nodup) :
    addPage issue (places.map (tally issues)) =
      if issue.place ∈ places then places.map (tally (issues ++ [issue]))
      else places.map (tally (issues ++ [issue])) ++ [⟨issue.severity, issue.page, 1⟩] := by
  induction places with
  | nil => rfl
  | cons place places ih =>
    obtain ⟨hnotMem, hnodup⟩ := List.nodup_cons.mp h
    rw [List.map_cons, addPage, ih hnodup]
    by_cases hplace : issue.place = place
    · subst hplace
      have hrest : places.map (tally (issues ++ [issue])) = places.map (tally issues) :=
        List.map_congr_left fun place hmem => by
          rw [tally_append, if_neg (by rintro rfl; exact hnotMem hmem), Nat.add_zero]
      rw [if_pos ⟨rfl, rfl⟩, if_pos List.mem_cons_self, List.map_cons, hrest, tally_append, if_pos rfl]
    · have hne : ¬ ((tally issues place).severity = issue.severity ∧
          (tally issues place).page = issue.page) := by
        rintro ⟨hseverity, hpage⟩
        exact hplace (Prod.ext hseverity.symm hpage.symm)
      rw [if_neg hne, List.map_cons, tally_append, if_neg hplace, Nat.add_zero]
      simp only [List.mem_cons, hplace, false_or]
      split <;> rfl

theorem sum_addPage (issue : Issue) (severity : IssueSeverity) (pages : List IssuePageCount) :
    (((addPage issue pages).filter (·.severity = severity)).map (·.count)).sum =
      ((pages.filter (·.severity = severity)).map (·.count)).sum +
        if issue.severity = severity then 1 else 0 := by
  induction pages with
  | nil => by_cases h : issue.severity = severity <;> simp [addPage, h]
  | cons page pages ih =>
    rw [addPage]
    split
    · next hplace =>
      by_cases h : page.severity = severity <;> simp [← hplace.1, h]; omega
    · by_cases h : page.severity = severity <;> simp [h, ih]; omega

namespace IssueView

def empty : IssueView := ⟨[], [], ⟨0, 0, 0⟩, []⟩

/-- A fingerprint hides only a dismissable issue it equals. -/
def push (dismissed : List Text) (view : IssueView) (issue : Issue) : IssueView :=
  if issue.dismissable && dismissed.contains issue.fingerprint then
    { view with dismissed := view.dismissed ++ [issue] }
  else
    { view with
      issues := view.issues ++ [issue], counts := view.counts.add issue.severity,
      pages := addPage issue view.pages }

def split (issues : List Issue) (dismissed : List Text) : IssueView :=
  issues.foldl (push dismissed) empty

theorem split_spec (issues : List Issue) (dismissed : List Text) :
    (split issues dismissed).issues =
        issues.filter (fun issue => !(issue.dismissable && dismissed.contains issue.fingerprint)) ∧
      (split issues dismissed).dismissed =
        issues.filter (fun issue => issue.dismissable && dismissed.contains issue.fingerprint) := by
  induction issues using List.reverseRecOn with
  | nil => exact ⟨rfl, rfl⟩
  | append_singleton issues issue ih =>
    obtain ⟨hissues, hdismissed⟩ := ih
    rw [split, List.foldl_append, List.foldl_cons, List.foldl_nil, ← split, push]
    split
    · next hhidden =>
      simp only [List.filter_append, List.filter_cons, List.filter_nil, hhidden, hissues,
        hdismissed, Bool.not_true, Bool.false_eq_true, if_true, if_false, List.append_nil, and_self]
    · next hshown =>
      rw [Bool.not_eq_true] at hshown
      simp only [List.filter_append, List.filter_cons, List.filter_nil, hshown, hissues, hdismissed,
        Bool.not_false, Bool.false_eq_true, if_true, if_false, List.append_nil, and_self]

/-- Every issue is shown or dismissed, once; the counters and the pages, one for each place in the order
the shown issues first name it, count exactly the shown ones, and the pages of a severity add up to its
counter. -/
theorem split_counts (issues : List Issue) (dismissed : List Text) :
    let view := split issues dismissed
    (view.issues ++ view.dismissed).Perm issues ∧
    (∀ severity, view.counts.of severity = view.issues.countP (·.severity = severity)) ∧
    view.pages = (view.issues.map Issue.place).eraseDups.map (tally view.issues) ∧
    ∀ severity,
      ((view.pages.filter (·.severity = severity)).map (·.count)).sum = view.counts.of severity := by
  obtain ⟨hissues, hdismissed⟩ := split_spec issues dismissed
  refine ⟨?_, ?_⟩
  · rw [hissues, hdismissed]
    exact List.perm_append_comm.trans (List.filter_append_perm _ issues)
  clear hissues hdismissed
  induction issues using List.reverseRecOn with
  | nil => exact ⟨fun severity => by cases severity <;> rfl, rfl, fun severity => by
      cases severity <;> rfl⟩
  | append_singleton issues issue ih =>
    obtain ⟨hcounts, hpages, hsum⟩ := ih
    rw [split, List.foldl_append, List.foldl_cons, List.foldl_nil, ← split, push]
    split
    · exact ⟨hcounts, hpages, hsum⟩
    · refine ⟨fun severity => ?_, ?_, fun severity => ?_⟩
      · simp only [IssueCounts.of_add, hcounts, List.countP_append, List.countP_cons,
          List.countP_nil, decide_eq_true_eq, Nat.zero_add]
      · simp only [List.map_append, List.map_cons, List.map_nil]
        rw [hpages, addPage_tally _ _ (nodup_eraseDups _)]
        simp only [List.mem_eraseDups]
        split
        · next hseen => rw [eraseDups_concat hseen]
        · next hnew =>
          rw [eraseDups_concat_new hnew, List.map_append, List.map_cons, List.map_nil, tally_new hnew]
      · simp only [sum_addPage, IssueCounts.of_add, hsum]

end IssueView

/-! ## Fingerprints tell issues apart -/

theorem bar_notMem_asStr (kind : IssueKind) : '|' ∉ kind.asStr := by
  cases kind <;> decide

theorem bar_notMem_subject (about : Option Uuid) : '|' ∉ subject about := by
  cases about with
  | none => decide
  | some record =>
    have hdigit : ∀ digit < 16, '|' ≠ Nat.digitChar digit := by decide
    intro hmem
    rcases Uuid.mem_hyphenated hmem with hdash | ⟨digit, hlt, heq⟩
    · exact absurd hdash (by decide)
    · exact hdigit digit hlt heq

theorem length_hyphenated (id : Uuid) : id.hyphenated.toList.length = 36 := by
  have hlength : id.simple.length = 32 := Uuid.hexDigits_length 32 id.val
  simp [Uuid.hyphenated, hlength]

theorem subject_injective {about about' : Option Uuid} (h : subject about = subject about') :
    about = about' := by
  have hlibrary : ∀ id : Uuid, id.hyphenated.toList ≠ "library".toList := by
    intro id heq
    have hlength := length_hyphenated id
    rw [heq] at hlength
    exact absurd hlength (by decide)
  cases about with
  | none =>
    cases about' with
    | none => rfl
    | some other => exact absurd h.symm (hlibrary other)
  | some id =>
    cases about' with
    | none => exact absurd h (hlibrary id)
    | some other => rw [Uuid.hyphenated_injective (String.toList_injective h)]

theorem asStr_injective {kind kind' : IssueKind} (h : kind.asStr = kind'.asStr) : kind = kind' := by
  revert h
  cases kind <;> cases kind' <;> decide

theorem bar_append_inj {a a' b b' : Text} (ha : '|' ∉ a) (ha' : '|' ∉ a')
    (h : a ++ '|' :: b = a' ++ '|' :: b') : a = a' ∧ b = b' := by
  induction a generalizing a' with
  | nil =>
    cases a' with
    | nil => exact ⟨rfl, (List.cons.inj h).2⟩
    | cons c a' => exact absurd ((List.cons.inj h).1 ▸ List.mem_cons_self) ha'
  | cons c a ih =>
    cases a' with
    | nil => exact absurd ((List.cons.inj h).1 ▸ List.mem_cons_self) ha
    | cons c' a' =>
      obtain ⟨rfl, htail⟩ := List.cons.inj h
      obtain ⟨rfl, rfl⟩ := ih (fun hmem => ha (List.mem_cons_of_mem _ hmem))
        (fun hmem => ha' (List.mem_cons_of_mem _ hmem)) htail
      exact ⟨rfl, rfl⟩

theorem prefix_fingerprint {kind kind' : IssueKind} {about about' : Option Uuid} {rest rest' : Text}
    (h : Issue.fingerprintPrefix kind about ++ rest = issueId kind' about' ++ '|' :: rest') :
    kind = kind' ∧ about = about' := by
  simp only [Issue.fingerprintPrefix, issueId, List.append_assoc, List.cons_append,
    List.nil_append] at h
  obtain ⟨hkind, h⟩ := bar_append_inj (bar_notMem_asStr _) (bar_notMem_asStr _) h
  obtain ⟨hsubject, -⟩ := bar_append_inj (bar_notMem_subject _) (bar_notMem_subject _) h
  exact ⟨asStr_injective hkind, subject_injective hsubject⟩

end PlateVault.Issues
