import Mathlib.Data.List.Induction
import Mathlib.Data.List.Nodup

/-!
# Keyed tables

A table is its rows with a primary key no two rows share; the structure carries that fact, so an
insert decides it and an update keeps the key. Everything later is stated with `find?`. An indexed
table has a second column, or tuple of columns, that no two rows share.
-/

/-- Rows with a key that no two of them share. -/
structure Table (κ ρ : Type*) (key : ρ → κ) where
  rows : List ρ
  nodup : (rows.map key).Nodup

namespace Table

variable {κ ρ : Type*} {key : ρ → κ}

def empty : Table κ ρ key := ⟨[], by simp⟩

/-- Two rows with one key are one row. -/
theorem eq_of_key {t : Table κ ρ key} {r r' : ρ} (h : r ∈ t.rows) (h' : r' ∈ t.rows)
    (hkey : key r = key r') : r = r' :=
  List.inj_on_of_nodup_map t.nodup h h' hkey

/-- Change the rows that meet `p`, keeping their keys. -/
def updateWhere (t : Table κ ρ key) (p : ρ → Bool) (f : ρ → ρ) (hf : ∀ r, key (f r) = key r) :
    Table κ ρ key :=
  ⟨t.rows.map fun r => if p r then f r else r, by
    have hkeys : (t.rows.map fun r => if p r then f r else r).map key = t.rows.map key := by
      rw [List.map_map]
      refine List.map_congr_left fun r _ => ?_
      simp only [Function.comp_apply]
      split
      · exact hf r
      · rfl
    rw [hkeys]
    exact t.nodup⟩

theorem mem_updateWhere {t : Table κ ρ key} {p : ρ → Bool} {f : ρ → ρ}
    (hf : ∀ r, key (f r) = key r) {r : ρ} :
    r ∈ (t.updateWhere p f hf).rows ↔ ∃ old ∈ t.rows, r = if p old then f old else old := by
  constructor
  · intro h
    obtain ⟨old, hold, rfl⟩ := List.mem_map.mp h
    exact ⟨old, hold, rfl⟩
  · rintro ⟨old, hold, rfl⟩
    exact List.mem_map_of_mem hold

variable [DecidableEq κ]

/-- The row with key `k`. -/
def find? (t : Table κ ρ key) (k : κ) : Option ρ := t.rows.find? fun r => key r = k

/-- Insert a row at the end; `none` where its key is taken. -/
def insert? (t : Table κ ρ key) (r : ρ) : Option (Table κ ρ key) :=
  if h : key r ∈ t.rows.map key then none
  else some ⟨t.rows ++ [r], by
    have hnodup := t.nodup
    simp only [List.map_append, List.map_cons, List.map_nil]
    exact List.nodup_append.mpr ⟨hnodup, by simp, by
      rintro a ha b hb rfl
      rw [List.mem_singleton] at hb
      exact h (hb ▸ ha)⟩⟩

/-- Change the row with key `k`, keeping its key. -/
def modify (t : Table κ ρ key) (k : κ) (f : ρ → ρ) (hf : ∀ r, key (f r) = key r) :
    Table κ ρ key :=
  ⟨t.rows.map fun r => if key r = k then f r else r, by
    have hkeys : (t.rows.map fun r => if key r = k then f r else r).map key = t.rows.map key := by
      rw [List.map_map]
      refine List.map_congr_left fun r _ => ?_
      simp only [Function.comp_apply]
      split
      · exact hf r
      · rfl
    rw [hkeys]
    exact t.nodup⟩

theorem find?_key {t : Table κ ρ key} {k : κ} {r : ρ} (h : t.find? k = some r) : key r = k := by
  have := List.find?_some h
  simpa using this

theorem find?_of_mem {t : Table κ ρ key} {r : ρ} (h : r ∈ t.rows) :
    t.find? (key r) = some r := by
  obtain ⟨found, hfound⟩ : ∃ found, t.find? (key r) = some found :=
    Option.isSome_iff_exists.mp (List.find?_isSome.mpr ⟨r, h, by simp⟩)
  have hmem : found ∈ t.rows := List.mem_of_find?_eq_some hfound
  rw [hfound, List.inj_on_of_nodup_map t.nodup hmem h (find?_key hfound)]

theorem find?_eq_some {t : Table κ ρ key} {k : κ} {r : ρ} :
    t.find? k = some r ↔ r ∈ t.rows ∧ key r = k :=
  ⟨fun h => ⟨List.mem_of_find?_eq_some h, find?_key h⟩, fun h => h.2 ▸ find?_of_mem h.1⟩

theorem find?_eq_none {t : Table κ ρ key} {k : κ} :
    t.find? k = none ↔ ∀ r ∈ t.rows, key r ≠ k := by
  simp [find?, List.find?_eq_none]

@[simp] theorem find?_empty (k : κ) : (empty : Table κ ρ key).find? k = none := rfl

/-- What an insert that succeeds did. -/
theorem insert?_eq_some {t t' : Table κ ρ key} {r : ρ} (h : t.insert? r = some t') :
    t.find? (key r) = none ∧ t'.rows = t.rows ++ [r] := by
  unfold insert? at h
  split at h
  · cases h
  · next hmem =>
    cases h
    refine ⟨find?_eq_none.mpr fun r' hr' hkey => hmem ?_, rfl⟩
    exact List.mem_map.mpr ⟨r', hr', hkey⟩

theorem find?_insert? {t t' : Table κ ρ key} {r : ρ} (h : t.insert? r = some t') (k : κ) :
    t'.find? k = if k = key r then some r else t.find? k := by
  obtain ⟨hfresh, hrows⟩ := insert?_eq_some h
  split
  · next hk =>
    subst hk
    exact find?_of_mem (by simp [hrows])
  · next hk =>
    simp only [find?, hrows, List.find?_append]
    have : ([r].find? fun r => decide (key r = k)) = none := by simp [Ne.symm hk]
    simp [this]

theorem find?_modify (t : Table κ ρ key) (k : κ) (f : ρ → ρ) (hf : ∀ r, key (f r) = key r)
    (k' : κ) :
    (t.modify k f hf).find? k' = if k' = k then (t.find? k).map f else t.find? k' := by
  have hkey : ∀ r, key (if key r = k then f r else r) = key r := by
    intro r
    split
    · exact hf r
    · rfl
  have hfind : (t.modify k f hf).find? k' =
      (t.find? k').map fun r => if key r = k then f r else r := by
    simp only [find?, modify, List.find?_map, Function.comp_def, hkey]
  rw [hfind]
  split
  · next hk =>
    subst hk
    cases h : t.find? k' with
    | none => rfl
    | some r => simp [find?_key h]
  · next hk =>
    cases h : t.find? k' with
    | none => rfl
    | some r => simp [find?_key h, hk]

/-- The rows after a change: the other rows, and the changed one. -/
theorem mem_modify {t : Table κ ρ key} {k : κ} {f : ρ → ρ} (hf : ∀ r, key (f r) = key r) {r : ρ}
    (h : r ∈ (t.modify k f hf).rows) :
    (r ∈ t.rows ∧ key r ≠ k) ∨ ∃ old ∈ t.rows, key old = k ∧ r = f old := by
  obtain ⟨old, hold, rfl⟩ := List.mem_map.mp h
  by_cases hk : key old = k
  · exact .inr ⟨old, hold, hk, by simp [hk]⟩
  · exact .inl (by simpa [hk] using hold)

theorem mem_modify_of_mem {t : Table κ ρ key} {k : κ} {f : ρ → ρ} (hf : ∀ r, key (f r) = key r)
    {r : ρ} (h : r ∈ t.rows) : (if key r = k then f r else r) ∈ (t.modify k f hf).rows :=
  List.mem_map_of_mem h

/-- Rows chosen by a condition that a change keeps and that its row does not meet stay as they
are. -/
theorem filter_modify {t : Table κ ρ key} {k : κ} {f : ρ → ρ} (hf : ∀ r, key (f r) = key r)
    {p : ρ → Bool} (hp : ∀ r, key r = k → p r = false ∧ p (f r) = false) :
    (t.modify k f hf).rows.filter p = t.rows.filter p := by
  simp only [modify]
  induction t.rows with
  | nil => rfl
  | cons r rows ih =>
    simp only [List.map_cons]
    by_cases hk : key r = k
    · simp [hk, hp r hk, ih]
    · cases hpr : p r <;> simp [hk, hpr, ih]

/-- Insert a row, in the place of the one with its key if there is one. -/
def upsert (t : Table κ ρ key) (r : ρ) : Table κ ρ key :=
  if h : key r ∈ t.rows.map key then
    ⟨t.rows.map fun old => if key old = key r then r else old, by
      have hkeys : (t.rows.map fun old => if key old = key r then r else old).map key =
          t.rows.map key := by
        rw [List.map_map]
        refine List.map_congr_left fun old _ => ?_
        simp only [Function.comp_apply]
        split
        · next hkey => exact hkey.symm
        · rfl
      rw [hkeys]
      exact t.nodup⟩
  else
    ⟨t.rows ++ [r], by
      simp only [List.map_append, List.map_cons, List.map_nil]
      exact t.nodup.append (by simp) (by simpa using h)⟩

theorem mem_upsert {t : Table κ ρ key} {r r' : ρ} :
    r' ∈ (t.upsert r).rows ↔ r' = r ∨ r' ∈ t.rows ∧ key r' ≠ key r := by
  unfold upsert
  split
  · next h =>
    obtain ⟨old, hold, hkey⟩ := List.mem_map.mp h
    simp only [List.mem_map]
    constructor
    · rintro ⟨row, hrow, rfl⟩
      split
      · exact .inl rfl
      · next hne => exact .inr ⟨hrow, hne⟩
    · rintro (rfl | ⟨hmem, hne⟩)
      · exact ⟨old, hold, if_pos hkey⟩
      · exact ⟨r', hmem, if_neg hne⟩
  · next h =>
    simp only [List.mem_append, List.mem_singleton]
    constructor
    · rintro (hmem | rfl)
      · exact .inr ⟨hmem, fun hkey => h (List.mem_map.mpr ⟨r', hmem, hkey⟩)⟩
      · exact .inl rfl
    · rintro (rfl | ⟨hmem, -⟩)
      · exact .inr rfl
      · exact .inl hmem

theorem find?_upsert (t : Table κ ρ key) (r : ρ) (k : κ) :
    (t.upsert r).find? k = if k = key r then some r else t.find? k := by
  apply Option.ext
  intro row
  rw [find?_eq_some, mem_upsert]
  split
  · next hk =>
    subst hk
    constructor
    · rintro ⟨rfl | ⟨-, hne⟩, hkey⟩
      · rfl
      · exact absurd hkey hne
    · intro h
      cases h
      exact ⟨.inl rfl, rfl⟩
  · next hk =>
    rw [find?_eq_some]
    constructor
    · rintro ⟨rfl | ⟨hmem, -⟩, rfl⟩
      · exact absurd rfl hk
      · exact ⟨hmem, rfl⟩
    · rintro ⟨hmem, rfl⟩
      exact ⟨.inr ⟨hmem, hk⟩, rfl⟩

theorem find?_updateWhere (t : Table κ ρ key) (p : ρ → Bool) (f : ρ → ρ)
    (hf : ∀ r, key (f r) = key r) (k : κ) :
    (t.updateWhere p f hf).find? k = (t.find? k).map fun r => if p r then f r else r := by
  have hkey : ∀ r, key (if p r then f r else r) = key r := by
    intro r
    split
    · exact hf r
    · rfl
  simp only [find?, updateWhere, List.find?_map, Function.comp_def, hkey]

end Table

/-- A table with a second unique index. -/
structure Indexed (κ ι ρ : Type*) (key : ρ → κ) (index : ρ → ι) extends Table κ ρ key where
  unique : (rows.map index).Nodup

namespace Indexed

variable {κ ι ρ : Type*} {key : ρ → κ} {index : ρ → ι}

def empty : Indexed κ ι ρ key index := ⟨Table.empty, by simp [Table.empty]⟩

@[simp] theorem empty_rows : (empty : Indexed κ ι ρ key index).rows = [] := rfl

/-- Two rows with one index value are one row. -/
theorem eq_of_index {t : Indexed κ ι ρ key index} {r r' : ρ} (h : r ∈ t.rows) (h' : r' ∈ t.rows)
    (hindex : index r = index r') : r = r' :=
  List.inj_on_of_nodup_map t.unique h h' hindex

/-- Change the rows that meet `p`, keeping their keys and index values. -/
def update (t : Indexed κ ι ρ key index) (p : ρ → Bool) (f : ρ → ρ)
    (hf : ∀ r, key (f r) = key r) (hi : ∀ r, index (f r) = index r) :
    Indexed κ ι ρ key index :=
  ⟨t.updateWhere p f hf, by
    have hsame : (t.updateWhere p f hf).rows.map index = t.rows.map index := by
      simp only [Table.updateWhere, List.map_map]
      refine List.map_congr_left fun r _ => ?_
      simp only [Function.comp_apply]
      split
      · exact hi r
      · rfl
    rw [hsame]
    exact t.unique⟩

theorem mem_update {t : Indexed κ ι ρ key index} {p : ρ → Bool} {f : ρ → ρ}
    (hf : ∀ r, key (f r) = key r) (hi : ∀ r, index (f r) = index r) {r : ρ} :
    r ∈ (t.update p f hf hi).rows ↔ ∃ old ∈ t.rows, r = if p old then f old else old :=
  Table.mem_updateWhere hf

variable [DecidableEq κ] [DecidableEq ι]

/-- Insert a row at the end; `none` where its key or its index value is taken. -/
def insert? (t : Indexed κ ι ρ key index) (r : ρ) : Option (Indexed κ ι ρ key index) :=
  if h : key r ∉ t.rows.map key ∧ index r ∉ t.rows.map index then
    some ⟨⟨t.rows ++ [r], by
      simp only [List.map_append, List.map_cons, List.map_nil]
      exact t.nodup.append (by simp) (by simpa using h.1)⟩, by
      simp only [List.map_append, List.map_cons, List.map_nil]
      exact t.unique.append (by simp) (by simpa using h.2)⟩
  else none

theorem insert?_eq_some {t t' : Indexed κ ι ρ key index} {r : ρ} (h : t.insert? r = some t') :
    (∀ r' ∈ t.rows, key r' ≠ key r ∧ index r' ≠ index r) ∧ t'.rows = t.rows ++ [r] := by
  unfold insert? at h
  split at h
  · next hnew =>
    obtain ⟨hkey, hindex⟩ := hnew
    cases h
    refine ⟨fun r' hr' => ⟨fun heq => hkey ?_, fun heq => hindex ?_⟩, rfl⟩
    · exact List.mem_map.mpr ⟨r', hr', heq⟩
    · exact List.mem_map.mpr ⟨r', hr', heq⟩
  · cases h

/-- Change the row with key `k`, its index value too; `none` where another row has the new one. -/
def move? (t : Indexed κ ι ρ key index) (k : κ) (f : ρ → ρ) (hf : ∀ r, key (f r) = key r) :
    Option (Indexed κ ι ρ key index) :=
  if h : ((t.updateWhere (fun r => key r = k) f hf).rows.map index).Nodup then
    some ⟨t.updateWhere (fun r => key r = k) f hf, h⟩
  else none

theorem mem_move? {t t' : Indexed κ ι ρ key index} {k : κ} {f : ρ → ρ}
    {hf : ∀ r, key (f r) = key r} (h : t.move? k f hf = some t') {r : ρ} :
    r ∈ t'.rows ↔ ∃ old ∈ t.rows, r = if key old = k then f old else old := by
  unfold move? at h
  split at h
  · cases h
    simpa using Table.mem_updateWhere (t := t.toTable) (p := fun r => decide (key r = k)) hf
  · cases h

end Indexed

/-! ## First occurrences -/

section FirstOccurrences

variable {α : Type} [BEq α] [LawfulBEq α] {l : List α} {a : α}

theorem eraseDups_concat (h : a ∈ l) : (l ++ [a]).eraseDups = l.eraseDups := by
  simp [List.eraseDups_append, List.removeAll, h]

theorem eraseDups_concat_new (h : a ∉ l) : (l ++ [a]).eraseDups = l.eraseDups ++ [a] := by
  simp [List.eraseDups_append, List.removeAll, h, List.eraseDups_cons]

theorem nodup_eraseDups (l : List α) : l.eraseDups.Nodup := by
  induction l using List.reverseRecOn with
  | nil => exact .nil
  | append_singleton l a ih =>
    by_cases h : a ∈ l
    · rwa [eraseDups_concat h]
    · rw [eraseDups_concat_new h]
      refine List.nodup_append.mpr ⟨ih, List.nodup_singleton a, ?_⟩
      rintro b hb c hc rfl
      exact h (List.mem_singleton.mp hc ▸ List.mem_eraseDups.mp hb)

end FirstOccurrences
