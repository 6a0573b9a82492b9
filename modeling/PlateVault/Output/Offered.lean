import Mathlib.Data.List.Infix
import PlateVault.Output.Offers

/-!
# Offers and registered masters agree

What one transaction does to the offers and the masters (`effect`), and from it what holds over a
run: an offer is one of its Project and digest, an adopted one never changes, and the offers read
adopted exactly where their bytes are registered as long as no Project offers bytes that already are.
-/

namespace PlateVault.Offers

open Output (ProjectLifecycle relativeParts)

/-! ## What a transaction does -/

def ProcessingMasterOffer.adoptedAt (offer : ProcessingMasterOffer) (now : Text) :
    ProcessingMasterOffer :=
  { offer with state := .adopted, decidedAt := some now }

def newOffer (id : Uuid) (now : Text) (projectId : Uuid) (path sha256 : Text)
    (classification : Classification) : ProcessingMasterOffer :=
  { id, projectId, path, sha256, classification, state := .offered, offeredAt := now,
    decidedAt := none }

namespace Catalog

def Registered (c : Catalog) (sha256 : Text) : Prop := ∃ master ∈ c.masters, master.contentSha256 = sha256

/-- The offer is taken: it is well formed, its Project is open and never offered its digest. -/
structure Takes (c : Catalog) (offer : ProcessingMasterOffer) : Prop where
  valid : offer.validate = .ok ()
  isOpen : c.lifecycle offer.projectId = some .open
  fresh : ∀ row ∈ c.offers.rows, row.id ≠ offer.id
  first : ∀ row ∈ c.offers.rows, row.place ≠ offer.place

/-- What a transaction does to the offers and the masters. -/
inductive Effect (c c' : Catalog) : Event → Prop
  | untouched {event} (hoffers : c'.offers = c.offers) (hmasters : c'.masters = c.masters) :
      Effect c c' event
  | inserted {id now projectId path sha256 classification}
      (htakes : c.Takes (newOffer id now projectId path sha256 classification))
      (hrows : c'.offers.rows =
        c.offers.rows ++ [newOffer id now projectId path sha256 classification])
      (hmasters : c'.masters = c.masters) :
      Effect c c' (.call (.offer id now projectId path sha256 classification))
  | answered {event} {answer offer : ProcessingMasterOffer} (hmem : offer ∈ c.offers.rows)
      (hid : answer.id = offer.id) (hopen : offer.state ≠ .adopted) (hanswer : answer.state ≠ .adopted)
      (hrows : ∀ row, row ∈ c'.offers.rows ↔
        ∃ old ∈ c.offers.rows, row = if old.id = offer.id then old.answered answer else old)
      (hmasters : c'.masters = c.masters) : Effect c c' event
  | registered {now review expected id master} {row : MasterRow}
      (hrow : row.contentSha256 = review.source.sha256)
      (hrows : ∀ row, row ∈ c'.offers.rows ↔ ∃ old ∈ c.offers.rows,
        row = if old.sha256 = review.source.sha256 ∧ old.state ≠ .adopted then old.adoptedAt now
          else old)
      (hmasters : c'.masters = c.masters ++ [row]) :
      Effect c c' (.call (.register now review expected id master))

variable {c c' : Catalog}

theorem writeOffer_ok {offer : ProcessingMasterOffer} (h : c.writeOffer offer = .ok c') :
    c'.masters = c.masters ∧ ∀ row, row ∈ c'.offers.rows ↔
      ∃ old ∈ c.offers.rows, row = if old.id = offer.id then old.answered offer else old := by
  obtain ⟨-, -, h⟩ := Result.bind_eq_ok.mp h
  cases h
  refine ⟨rfl, fun row => ?_⟩
  simpa only [decide_eq_true_eq] using Indexed.mem_update (t := c.offers)
    (p := fun row => decide (row.id = offer.id)) (f := (·.answered offer)) (fun _ => rfl)
    (fun _ => rfl)

theorem adoptAll_ok {now : Text} {offers : List ProcessingMasterOffer}
    (h : offers.foldlM (fun (c : Catalog) offer => c.writeOffer (offer.adoptedAt now)) c = .ok c') :
    c'.masters = c.masters ∧ ∀ row, row ∈ c'.offers.rows ↔ ∃ old ∈ c.offers.rows,
      row = if old.id ∈ offers.map (·.id) then old.adoptedAt now else old := by
  induction offers generalizing c with
  | nil =>
    cases h
    simp
  | cons offer offers ih =>
    rw [List.foldlM_cons, Result.bind_eq_ok] at h
    obtain ⟨mid, hmid, h⟩ := h
    obtain ⟨hmasters, hrows⟩ := writeOffer_ok hmid
    obtain ⟨hmasters', hrows'⟩ := ih h
    refine ⟨hmasters'.trans hmasters, fun row => ?_⟩
    rw [hrows']
    constructor
    · rintro ⟨old', hold', rfl⟩
      obtain ⟨old, hold, rfl⟩ := (hrows old').mp hold'
      refine ⟨old, hold, ?_⟩
      by_cases hid : old.id = offer.id
      · simp [hid, ProcessingMasterOffer.adoptedAt, ProcessingMasterOffer.answered]
      · simp [hid, ProcessingMasterOffer.adoptedAt]
    · rintro ⟨old, hold, rfl⟩
      refine ⟨_, (hrows _).mpr ⟨old, hold, rfl⟩, ?_⟩
      by_cases hid : old.id = offer.id
      · simp [hid, ProcessingMasterOffer.adoptedAt, ProcessingMasterOffer.answered]
      · simp [hid, ProcessingMasterOffer.adoptedAt]

theorem masterAdopted_ok {now sha256 : Text} (h : c.masterAdopted now sha256 = .ok c') :
    c'.masters = c.masters ∧ ∀ row, row ∈ c'.offers.rows ↔ ∃ old ∈ c.offers.rows,
      row = if old.sha256 = sha256 ∧ old.state ≠ .adopted then old.adoptedAt now else old := by
  obtain ⟨hmasters, hrows⟩ := adoptAll_ok h
  refine ⟨hmasters, fun row => ?_⟩
  rw [hrows]
  have hids : ∀ old ∈ c.offers.rows, (old.id ∈ (c.offers.rows.filter fun row =>
      row.sha256 = sha256 && row.state ≠ .adopted).map (·.id)) ↔
        old.sha256 = sha256 ∧ old.state ≠ .adopted := by
    intro old hold
    simp only [List.mem_map, List.mem_filter, Bool.and_eq_true, decide_eq_true_eq]
    constructor
    · rintro ⟨other, ⟨hother, hselected⟩, hid⟩
      rwa [← Table.eq_of_key hother hold hid]
    · exact fun hselected => ⟨old, ⟨hold, hselected⟩, rfl⟩
  constructor
  · rintro ⟨old, hold, rfl⟩
    exact ⟨old, hold, by simp only [hids old hold]⟩
  · rintro ⟨old, hold, rfl⟩
    exact ⟨old, hold, by simp only [hids old hold]⟩

/-! ## Each call -/

theorem requireOpen_ok {projectId : Uuid} (h : c.requireOpen projectId = .ok ()) :
    c.lifecycle projectId = some .open := by
  obtain ⟨lifecycle, hlifecycle, h⟩ := Result.bind_eq_ok.mp h
  rw [Result.require_eq_ok, decide_eq_true_eq] at h
  rw [← h]
  exact Result.orElse_eq_ok.mp hlifecycle

theorem loadOffer_ok {offerId : Uuid} {offer : ProcessingMasterOffer}
    (h : c.loadOffer offerId = .ok offer) : offer ∈ c.offers.rows ∧ offer.id = offerId :=
  Table.find?_eq_some.mp (Result.orElse_eq_ok.mp h)

theorem offer_effect (id : Uuid) (now : Text) (projectId : Uuid) (path sha256 : Text)
    (classification : Classification) :
    Effect c (c.perform (.offer id now projectId path sha256 classification)).1
      (.call (.offer id now projectId path sha256 classification)) := by
  cases h : c.offerProcessingMaster id now projectId path sha256 classification with
  | error e => exact .untouched (by simp [perform, commit, h]) (by simp [perform, commit, h])
  | ok result =>
    have hnext : (c.perform (.offer id now projectId path sha256 classification)).1 = result.1 := by
      simp [perform, commit, h]
    rw [hnext]
    obtain ⟨_, hvalid, h⟩ := Result.bind_eq_ok.mp h
    obtain ⟨_, hopen, h⟩ := Result.bind_eq_ok.mp h
    split at h
    · cases h
      exact .untouched rfl rfl
    · obtain ⟨offers, hinsert, h⟩ := Result.bind_eq_ok.mp h
      cases h
      obtain ⟨hnew, hrows⟩ := Indexed.insert?_eq_some (Result.orElse_eq_ok.mp hinsert)
      exact .inserted ⟨hvalid, requireOpen_ok hopen, fun row hrow => (hnew row hrow).1,
        fun row hrow => (hnew row hrow).2⟩ hrows rfl

theorem dismiss_effect (now : Text) (offerId : Uuid) (expected : Text) :
    Effect c (c.perform (.dismiss now offerId expected)).1
      (.call (.dismiss now offerId expected)) := by
  cases h : c.dismissProcessingMaster now offerId expected with
  | error e => exact .untouched (by simp [perform, commit, h]) (by simp [perform, commit, h])
  | ok result =>
    have hnext : (c.perform (.dismiss now offerId expected)).1 = result.1 := by
      simp [perform, commit, h]
    rw [hnext]
    obtain ⟨offer, hload, h⟩ := Result.bind_eq_ok.mp h
    obtain ⟨-, -, h⟩ := Result.bind_eq_ok.mp h
    obtain ⟨-, -, h⟩ := Result.bind_eq_ok.mp h
    cases hstate : offer.state with
    | dismissed =>
      simp only [hstate] at h
      cases h
      exact .untouched rfl rfl
    | adopted =>
      simp only [hstate] at h
      cases h
      exact .untouched rfl rfl
    | offered =>
      simp only [hstate] at h
      obtain ⟨written, hwritten, h⟩ := Result.bind_eq_ok.mp h
      cases h
      obtain ⟨hmasters, hrows⟩ := writeOffer_ok hwritten
      exact @Effect.answered c written _ { offer with state := .dismissed, decidedAt := some now }
        offer (loadOffer_ok hload).1 rfl (by simp [hstate]) nofun hrows hmasters

theorem restore_effect (offerId : Uuid) (expected : Text) :
    Effect c (c.perform (.restore offerId expected)).1 (.call (.restore offerId expected)) := by
  cases h : c.restoreProcessingMaster offerId expected with
  | error e => exact .untouched (by simp [perform, commit, h]) (by simp [perform, commit, h])
  | ok result =>
    have hnext : (c.perform (.restore offerId expected)).1 = result.1 := by
      simp [perform, commit, h]
    rw [hnext]
    obtain ⟨offer, hload, h⟩ := Result.bind_eq_ok.mp h
    obtain ⟨-, -, h⟩ := Result.bind_eq_ok.mp h
    obtain ⟨-, -, h⟩ := Result.bind_eq_ok.mp h
    cases hstate : offer.state with
    | dismissed =>
      simp only [hstate] at h
      obtain ⟨written, hwritten, h⟩ := Result.bind_eq_ok.mp h
      cases h
      obtain ⟨hmasters, hrows⟩ := writeOffer_ok hwritten
      exact @Effect.answered c written _ { offer with state := .offered, decidedAt := none } offer
        (loadOffer_ok hload).1 rfl (by simp [hstate]) nofun hrows hmasters
    | adopted =>
      simp only [hstate] at h
      cases h
      exact .untouched rfl rfl
    | offered =>
      simp only [hstate] at h
      cases h
      exact .untouched rfl rfl

theorem insertMaster_ok {row : MasterRow} {masters : List MasterRow}
    (h : c.insertMaster row = .ok masters) : masters = c.masters ++ [row] := by
  obtain ⟨-, -, h⟩ := Result.bind_eq_ok.mp h
  obtain ⟨-, -, h⟩ := Result.bind_eq_ok.mp h
  obtain ⟨-, -, h⟩ := Result.bind_eq_ok.mp h
  obtain ⟨-, -, h⟩ := Result.bind_eq_ok.mp h
  cases h
  rfl

theorem register_effect (now : Text) (review : AdoptionReview) (expected : Nat) (id : Uuid)
    (master : AdoptedMaster) :
    Effect c (c.perform (.register now review expected id master)).1
      (.call (.register now review expected id master)) := by
  cases h : c.register now review expected id master with
  | error e => exact .untouched (by simp [perform, commit, h]) (by simp [perform, commit, h])
  | ok result =>
    have hnext : (c.perform (.register now review expected id master)).1 = result.1 := by
      simp [perform, commit, h]
    rw [hnext]
    obtain ⟨_, _, h⟩ := Result.bind_eq_ok.mp h
    obtain ⟨_, _, h⟩ := Result.bind_eq_ok.mp h
    obtain ⟨masters, hinsert, h⟩ := Result.bind_eq_ok.mp h
    obtain ⟨adopted, hadopted, h⟩ := Result.bind_eq_ok.mp h
    obtain ⟨_, _, h⟩ := Result.bind_eq_ok.mp h
    cases h
    obtain ⟨hmasters, hrows⟩ := masterAdopted_ok hadopted
    exact .registered rfl hrows (hmasters.trans (insertMaster_ok hinsert))

theorem effect (event : Event) : Effect c (c.next event) event := by
  cases event with
  | elsewhere surroundings => exact .untouched rfl rfl
  | call call =>
    cases call with
    | offer id now projectId path sha256 classification =>
      exact offer_effect id now projectId path sha256 classification
    | dismiss now offerId expected => exact dismiss_effect now offerId expected
    | restore offerId expected => exact restore_effect offerId expected
    | register now review expected id master =>
      exact register_effect now review expected id master

/-! ## One offer -/

theorem perform_refused {call : Call} {e : LibraryError} (h : (c.perform call).2 = .error e) :
    (c.perform call).1 = c := by
  have hcommit : ∀ txn : Result (Catalog × Result (Option ProcessingMasterOffer)),
      (∀ result, txn = .ok result → result.2 = .error e → result.1 = c) →
      (c.commit txn).2 = .error e → (c.commit txn).1 = c := by
    intro txn hwritten herror
    cases txn with
    | error => rfl
    | ok result => exact hwritten result rfl herror
  cases call with
  | offer id now projectId path sha256 classification =>
    refine hcommit _ (fun result hresult herror => ?_) h
    obtain ⟨_, _, hresult⟩ := Result.bind_eq_ok.mp hresult
    obtain ⟨_, _, hresult⟩ := Result.bind_eq_ok.mp hresult
    split at hresult
    · cases hresult
      rfl
    · obtain ⟨offers, _, hresult⟩ := Result.bind_eq_ok.mp hresult
      cases hresult
      cases herror
  | dismiss now offerId expected =>
    refine hcommit _ (fun result hresult herror => ?_) h
    obtain ⟨offer, _, hresult⟩ := Result.bind_eq_ok.mp hresult
    obtain ⟨_, _, hresult⟩ := Result.bind_eq_ok.mp hresult
    obtain ⟨_, _, hresult⟩ := Result.bind_eq_ok.mp hresult
    cases hstate : offer.state with
    | dismissed | adopted =>
      simp only [hstate] at hresult
      cases hresult
      rfl
    | offered =>
      simp only [hstate] at hresult
      obtain ⟨_, _, hresult⟩ := Result.bind_eq_ok.mp hresult
      cases hresult
      cases herror
  | restore offerId expected =>
    refine hcommit _ (fun result hresult herror => ?_) h
    obtain ⟨offer, _, hresult⟩ := Result.bind_eq_ok.mp hresult
    obtain ⟨_, _, hresult⟩ := Result.bind_eq_ok.mp hresult
    obtain ⟨_, _, hresult⟩ := Result.bind_eq_ok.mp hresult
    cases hstate : offer.state with
    | offered | adopted =>
      simp only [hstate] at hresult
      cases hresult
      rfl
    | dismissed =>
      simp only [hstate] at hresult
      obtain ⟨_, _, hresult⟩ := Result.bind_eq_ok.mp hresult
      cases hresult
      cases herror
  | register now review expected id master =>
    refine hcommit _ (fun result hresult herror => ?_) h
    obtain ⟨_, _, hresult⟩ := Result.bind_eq_ok.mp hresult
    obtain ⟨_, _, hresult⟩ := Result.bind_eq_ok.mp hresult
    obtain ⟨_, _, hresult⟩ := Result.bind_eq_ok.mp hresult
    obtain ⟨_, _, hresult⟩ := Result.bind_eq_ok.mp hresult
    obtain ⟨_, _, hresult⟩ := Result.bind_eq_ok.mp hresult
    cases hresult
    cases herror

def Registers : Event → Text → Prop
  | .call (.register _ review _ _ _), sha256 => review.source.sha256 = sha256
  | _, _ => False

/-- An offer as the next state has it: the same but for its answer, the same where it was adopted,
and adopted only by a registration of its digest. -/
structure Follows (event : Event) (offer later : ProcessingMasterOffer) : Prop where
  same : later = offer.answered later
  kept : offer.state = .adopted → later = offer
  byMaster : later.state = .adopted → offer.state = .adopted ∨ Registers event offer.sha256

theorem Follows.refl (event : Event) (offer : ProcessingMasterOffer) : Follows event offer offer :=
  ⟨rfl, fun _ => rfl, .inl⟩

theorem follows_of_mem {event : Event} {offer : ProcessingMasterOffer}
    (hmem : offer ∈ c.offers.rows) :
    ∃ later ∈ (c.next event).offers.rows, Follows event offer later := by
  have heffect := c.effect event
  revert heffect
  generalize c.next event = c'
  intro heffect
  cases heffect with
  | untouched hoffers => exact ⟨offer, hoffers ▸ hmem, .refl event offer⟩
  | inserted htakes hrows =>
    exact ⟨offer, hrows ▸ List.mem_append_left _ hmem, .refl _ offer⟩
  | @answered _ answer old hold hid hopen hanswer hrows =>
    refine ⟨_, (hrows _).mpr ⟨offer, hmem, rfl⟩, ?_⟩
    by_cases hsame : offer.id = old.id
    · obtain rfl := Table.eq_of_key hmem hold hsame
      rw [if_pos rfl]
      exact ⟨rfl, fun h => absurd h hopen, fun h => absurd h hanswer⟩
    · rw [if_neg hsame]
      exact .refl event offer
  | registered hrow hrows =>
    refine ⟨_, (hrows _).mpr ⟨offer, hmem, rfl⟩, ?_⟩
    split
    · next hadopts => exact ⟨rfl, fun h => absurd h hadopts.2, fun _ => .inr hadopts.1.symm⟩
    · exact .refl _ offer

/-! ## Runs -/

/-- An offer reads adopted exactly where a master with its digest is registered. -/
def Agrees (c : Catalog) : Prop :=
  ∀ offer ∈ c.offers.rows, offer.state = .adopted ↔ c.Registered offer.sha256

/-- A Project is offered bytes that are registered already. -/
def Late (c : Catalog) : Event → Prop
  | .call (.offer id now projectId path sha256 classification) =>
    c.Takes (newOffer id now projectId path sha256 classification) ∧ c.Registered sha256
  | _ => False

theorem Agrees.next {event : Event} (h : c.Agrees) (hlate : ¬ c.Late event) :
    (c.next event).Agrees := by
  have heffect := c.effect event
  revert heffect
  generalize c.next event = c'
  intro heffect
  cases heffect with
  | untouched hoffers hmasters =>
    intro offer hmem
    rw [hoffers] at hmem
    simpa [Registered, hmasters] using h offer hmem
  | inserted htakes hrows hmasters =>
    intro offer hmem
    have hsame : c'.Registered offer.sha256 ↔ c.Registered offer.sha256 := by
      rw [Registered, Registered, hmasters]
    rw [hsame]
    rw [hrows] at hmem
    rcases List.mem_append.mp hmem with hmem | hmem
    · exact h offer hmem
    · obtain rfl := List.mem_singleton.mp hmem
      exact ⟨nofun, fun hregistered => absurd ⟨htakes, hregistered⟩ hlate⟩
  | @answered _ answer old hold hid hopen hanswer hrows hmasters =>
    intro offer hmem
    have hsame : c'.Registered offer.sha256 ↔ c.Registered offer.sha256 := by
      rw [Registered, Registered, hmasters]
    rw [hsame]
    obtain ⟨was, hwas, rfl⟩ := (hrows offer).mp hmem
    by_cases hid : was.id = old.id
    · obtain rfl := Table.eq_of_key hwas hold hid
      rw [if_pos rfl]
      exact ⟨fun hadopted => absurd hadopted hanswer,
        fun hregistered => absurd ((h was hwas).mpr hregistered) hopen⟩
    · rw [if_neg hid]
      exact h was hwas
  | @registered now review expected id master row hrow hrows hmasters =>
    intro offer hmem
    have hsame : ∀ sha256, c'.Registered sha256 ↔
        c.Registered sha256 ∨ review.source.sha256 = sha256 := by
      intro sha256
      simp [Registered, hmasters, or_and_right, exists_or, hrow]
    rw [hsame]
    obtain ⟨was, hwas, rfl⟩ := (hrows offer).mp hmem
    split
    · next hadopts => exact ⟨fun _ => .inr hadopts.1.symm, fun _ => rfl⟩
    · next hnot =>
      rw [h was hwas]
      refine ⟨.inl, fun hregistered => ?_⟩
      rcases hregistered with hregistered | hdigest
      · exact hregistered
      · exact (h was hwas).mp (not_not.mp fun hopen => hnot ⟨hdigest.symm, hopen⟩)

theorem not_agrees_of_late {event : Event} (h : c.Late event) : ¬ (c.next event).Agrees := by
  obtain ⟨id, now, projectId, path, sha256, classification, rfl⟩ :
      ∃ id now projectId path sha256 classification,
        event = .call (.offer id now projectId path sha256 classification) := by
    unfold Late at h
    split at h
    · exact ⟨_, _, _, _, _, _, rfl⟩
    · exact h.elim
  obtain ⟨⟨hvalid, hopen, hfresh, hfirst⟩, hregistered⟩ := h
  intro hagrees
  have hnone : ¬ ∃ row ∈ c.offers.rows,
      row.place = (newOffer id now projectId path sha256 classification).place := by
    rintro ⟨row, hrow, hplace⟩
    exact hfirst row hrow hplace
  have hinsert : ∃ offers, c.offers.insert? (newOffer id now projectId path sha256 classification) =
      some offers := by
    refine ⟨_, dif_pos ⟨fun hmem => ?_, fun hmem => ?_⟩⟩
    · obtain ⟨row, hrow, hkey⟩ := List.mem_map.mp hmem
      exact hfresh row hrow hkey
    · obtain ⟨row, hrow, hkey⟩ := List.mem_map.mp hmem
      exact hfirst row hrow hkey
  obtain ⟨offers, hoffers⟩ := hinsert
  have hnext : c.next (.call (.offer id now projectId path sha256 classification)) =
      { c with offers } := by
    simp only [newOffer] at hvalid hnone hoffers hopen
    simp [Catalog.next, perform, commit, offerProcessingMaster, hvalid, requireOpen,
      projectLifecycle, hopen, Result.orElse, Result.require, hnone, hoffers, bind, Except.bind, pure,
      Except.pure]
  rw [hnext] at hagrees
  obtain ⟨-, hrows⟩ := Indexed.insert?_eq_some hoffers
  have hmem : newOffer id now projectId path sha256 classification ∈ offers.rows := by
    simp [hrows]
  have hadopted := (hagrees _ hmem).mpr hregistered
  simp [newOffer] at hadopted

theorem after_append (events : List Event) (event : Event) :
    c.after (events ++ [event]) = (c.after events).next event := by
  simp [after, List.foldl_append]

theorem agrees_new (surroundings : Surroundings) : (Catalog.new surroundings).Agrees :=
  fun _ hmem => absurd hmem List.not_mem_nil

theorem agrees_along (hstart : c.Agrees) (events : List Event) :
    (∀ before, before <+: events → (c.after before).Agrees) ↔
      ∀ before event, before ++ [event] <+: events → ¬ (c.after before).Late event := by
  constructor
  · intro hall before event hstarts hlate
    have hagrees := hall _ hstarts
    rw [after_append] at hagrees
    exact not_agrees_of_late hlate hagrees
  · intro hnever before
    induction before using List.reverseRecOn with
    | nil => exact fun _ => hstart
    | append_singleton before event ih =>
      intro hstarts
      rw [after_append]
      exact (ih ((List.prefix_append before [event]).trans hstarts)).next (hnever before event hstarts)

end Catalog

/-- In any sequence of offers, hides, restores, registrations and other transactions a Project has one
offer of a digest, an offer moves between offered and hidden until a registration of its digest
adopts it and then never changes, and a refused call changes nothing. After every step the offers
read adopted exactly where a master with their digest is registered, as long as no Project is offered
a digest that is registered already. -/
theorem offers_agree (surroundings : Surroundings) (events : List Event) :
    let c := (Catalog.new surroundings).after events
    (∀ offer ∈ c.offers.rows, ∀ other ∈ c.offers.rows, offer.place = other.place → offer = other) ∧
    (∀ event, ∀ offer ∈ c.offers.rows, ∃ later ∈ (c.next event).offers.rows,
      Catalog.Follows event offer later) ∧
    (∀ call e, (c.perform call).2 = .error e → (c.perform call).1 = c) ∧
    ((∀ before, before <+: events → ((Catalog.new surroundings).after before).Agrees) ↔
      ∀ before event, before ++ [event] <+: events →
        ¬ ((Catalog.new surroundings).after before).Late event) :=
  ⟨fun _ hmem _ hmem' hplace => Indexed.eq_of_index hmem hmem' hplace,
    fun _ _ hmem => Catalog.follows_of_mem hmem, fun _ _ herror => Catalog.perform_refused herror,
    Catalog.agrees_along (Catalog.agrees_new surroundings) events⟩

/-! ## A registration before the offer -/

def masterDigest : Text := List.replicate 64 'a'

def masterReview : AdoptionReview := ⟨1, 1, .open, ⟨none, masterDigest⟩⟩

def adopting : Surroundings where
  lifecycle projectId := if projectId = 1 then some .open else none
  reviews := [masterReview]
  operations := [⟨1, 1, .running, none, none⟩]

def registration : Event := .call (.register [] masterReview 1 1 ⟨1, 1, ['d'], []⟩)

def masterDark : Classification := ⟨.dark, some ⟨.headerStackCount, some 20, []⟩⟩

def rerun : Event := .call (.offer 1 [] 1 ['d'] masterDigest masterDark)

/-- A Project that finds the bytes of a registered master has them offered again. -/
theorem registered_then_offered :
    ((Catalog.new adopting).after [registration, rerun]).offers.rows =
        [newOffer 1 [] 1 ['d'] masterDigest masterDark] ∧
      ((Catalog.new adopting).after [registration, rerun]).Registered masterDigest ∧
      ¬ ((Catalog.new adopting).after [registration, rerun]).Agrees := by
  have hrows : ((Catalog.new adopting).after [registration, rerun]).offers.rows =
      [newOffer 1 [] 1 ['d'] masterDigest masterDark] := by decide
  have hmasters : ((Catalog.new adopting).after [registration, rerun]).masters =
      [⟨1, 1, ['d'], masterDigest, 1, none, []⟩] := by decide
  have hregistered : ((Catalog.new adopting).after [registration, rerun]).Registered masterDigest :=
    ⟨_, hmasters ▸ List.mem_singleton_self _, rfl⟩
  refine ⟨hrows, hregistered, fun hagrees => ?_⟩
  have hmem := hrows ▸ List.mem_singleton_self (newOffer 1 [] 1 ['d'] masterDigest masterDark)
  exact absurd ((hagrees _ hmem).mpr hregistered) nofun

end PlateVault.Offers
