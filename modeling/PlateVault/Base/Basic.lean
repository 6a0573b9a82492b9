import Mathlib

/-!
# Texts, ids, errors

The values every part of the model shares: a text as its characters, a UUID with its order, the
library's error kinds with their messages.
-/

namespace PlateVault

/-- A Rust `str` as its characters. A file name is also a `Text`, each byte as one character. -/
abbrev Text := List Char

/-- A 128-bit id. Rust orders UUIDs by their bytes, which is the order of the numbers. -/
abbrev Uuid := Fin (2 ^ 128)

/-! Facts of ids and texts that the model's terms take by name. -/

instance (priority := 2000) uuidNeZero : NeZero (2 ^ 128) := ⟨by decide⟩

instance (priority := 2000) uuidLawfulBEq : LawfulBEq Uuid := inferInstance

instance (priority := 2000) uuidWellFounded : WellFoundedLT Uuid := inferInstance

instance (priority := 2000) textLawfulBEq : LawfulBEq Text := inferInstance

instance (priority := 2000) textsLawfulBEq : LawfulBEq (List Text) := inferInstance

def decimal (n : Nat) : Text := Nat.toDigits 10 n

namespace Uuid

/-- The hex digits of the lowest `width` nibbles of `n`, most significant first. -/
def hexDigits : Nat → Nat → Text
  | 0, _ => []
  | width + 1, n => hexDigits width (n / 16) ++ [Nat.digitChar (n % 16)]

/-- `Uuid::simple`: 32 lowercase hex digits. -/
def simple (id : Uuid) : Text := hexDigits 32 id.val

@[simp] theorem hexDigits_length (width n : Nat) : (hexDigits width n).length = width := by
  induction width generalizing n with
  | zero => rfl
  | succ width ih => simp [hexDigits, ih]

def hyphenated (id : Uuid) : String :=
  let t := id.simple
  String.ofList (t.take 8 ++ '-' :: (t.drop 8).take 4 ++ '-' :: (t.drop 12).take 4 ++
    '-' :: (t.drop 16).take 4 ++ '-' :: t.drop 20)

theorem mem_hexDigits {width n : Nat} {c : Char} (h : c ∈ hexDigits width n) :
    ∃ digit < 16, c = Nat.digitChar digit := by
  induction width generalizing n with
  | zero => cases h
  | succ width ih =>
    rcases List.mem_append.mp h with h | h
    · exact ih h
    · exact ⟨_, Nat.mod_lt _ (by omega), List.mem_singleton.mp h⟩

theorem mem_hyphenated {id : Uuid} {c : Char} (h : c ∈ id.hyphenated.toList) :
    c = '-' ∨ ∃ digit < 16, c = Nat.digitChar digit := by
  have hpart : ∀ t : Text, List.Sublist t id.simple → c ∈ t → ∃ digit < 16, c = Nat.digitChar digit :=
    fun t ht hmem => mem_hexDigits (ht.mem hmem)
  have htake : ∀ m n, List.Sublist ((id.simple.drop m).take n) id.simple := fun m n =>
    (List.take_sublist _ _).trans (List.drop_sublist _ _)
  simp only [hyphenated, String.toList_ofList, List.mem_append, List.mem_cons] at h
  rcases h with (((h | rfl | h) | rfl | h) | rfl | h) | rfl | h
  · exact .inr (hpart _ (List.take_sublist _ _) h)
  · exact .inl rfl
  · exact .inr (hpart _ (htake _ _) h)
  · exact .inl rfl
  · exact .inr (hpart _ (htake _ _) h)
  · exact .inl rfl
  · exact .inr (hpart _ (htake _ _) h)
  · exact .inl rfl
  · exact .inr (hpart _ (List.drop_sublist _ _) h)

theorem digitChar_injective {m n : Nat} (hm : m < 16) (hn : n < 16)
    (h : Nat.digitChar m = Nat.digitChar n) : m = n := by
  have hall : ∀ m < 16, ∀ n < 16, Nat.digitChar m = Nat.digitChar n → m = n := by decide
  exact hall m hm n hn h

theorem hexDigits_injective {width m n : Nat} (hm : m < 16 ^ width) (hn : n < 16 ^ width)
    (h : hexDigits width m = hexDigits width n) : m = n := by
  induction width generalizing m n with
  | zero => omega
  | succ width ih =>
    obtain ⟨hhigh, hlow⟩ := List.append_inj h (by simp)
    have hquot := ih (by omega) (by omega) hhigh
    have hrem := digitChar_injective (Nat.mod_lt _ (by omega)) (Nat.mod_lt _ (by omega))
      (List.singleton_inj.mp hlow)
    omega

theorem hyphenated_injective {id other : Uuid} (h : id.hyphenated = other.hyphenated) : id = other := by
  have htext := String.ofList_injective h
  have hlength : ∀ id : Uuid, id.simple.length = 32 := fun id => hexDigits_length 32 id.val
  have hid := hlength id
  have hother := hlength other
  obtain ⟨hfront, h₄⟩ := List.append_inj' htext (by simp [hid, hother])
  obtain ⟨hfront, h₃⟩ := List.append_inj' hfront (by simp [hid, hother])
  obtain ⟨hfront, h₂⟩ := List.append_inj' hfront (by simp [hid, hother])
  obtain ⟨h₀, h₁⟩ := List.append_inj' hfront (by simp [hid, hother])
  have hpart : ∀ (t : Text) (n : Nat), t.drop n = (t.drop n).take 4 ++ t.drop (n + 4) := by
    intro t n
    rw [← List.drop_drop, List.take_append_drop]
  have htexts : id.simple = other.simple := by
    rw [← List.take_append_drop 8 id.simple, ← List.take_append_drop 8 other.simple, h₀,
      hpart id.simple 8, hpart other.simple 8, List.tail_eq_of_cons_eq h₁, hpart id.simple 12,
      hpart other.simple 12, List.tail_eq_of_cons_eq h₂, hpart id.simple 16, hpart other.simple 16,
      List.tail_eq_of_cons_eq h₃, List.tail_eq_of_cons_eq h₄]
  have hbound : ∀ id : Uuid, id.val < 16 ^ 32 := fun id => id.isLt
  exact Fin.ext (hexDigits_injective (hbound id) (hbound other) htexts)

end Uuid

/-- The error kinds of `LibraryError` the model returns. -/
inductive LibraryError
  | invalidInput (message : String)
  | invalidField (field message : String)
  | notFound (message : String)
  | conflict (id : Uuid) (current : Nat) (successors : List Uuid := [])
  | identityConflict (message : String)
  | persistenceFailure (message : String)
  | noByteProof (message : String)
  | accessDenied (message : String)
  | sourceUnavailable (message : String)
  deriving DecidableEq, Repr

def LibraryError.display : LibraryError → String
  | .invalidInput message => "invalid input: " ++ message
  | .invalidField _ message => "invalid input: " ++ message
  | .notFound message => "not found: " ++ message
  | .conflict id current _ =>
    "revision conflict for " ++ id.hyphenated ++ "; current revision " ++
      String.ofList (decimal current)
  | .identityConflict message => "filesystem identity conflict: " ++ message
  | .persistenceFailure message => "persistence failure: " ++ message
  | .noByteProof message => "no verified byte proof: " ++ message
  | .accessDenied message => "access denied: " ++ message
  | .sourceUnavailable message => "source unavailable: " ++ message

abbrev Result := Except LibraryError

namespace Result

/-- Refuse with `error` unless `condition` holds. -/
def require (condition : Bool) (error : LibraryError) : Result Unit :=
  if condition then .ok () else .error error

@[simp] theorem require_eq_ok {condition : Bool} {error : LibraryError} {u : Unit} :
    require condition error = .ok u ↔ condition = true := by
  cases condition <;> simp [require]

@[simp] theorem bind_eq_ok {α β : Type} {x : Result α} {f : α → Result β} {b : β} :
    (x >>= f) = .ok b ↔ ∃ a, x = .ok a ∧ f a = .ok b := by
  cases x <;> simp [bind, Except.bind]

@[simp] theorem map_eq_ok {α β : Type} {x : Result α} {f : α → β} {b : β} :
    (f <$> x) = .ok b ↔ ∃ a, x = .ok a ∧ f a = b := by
  cases x <;> simp [Functor.map, Except.map]

@[simp] theorem pure_eq_ok {α : Type} {a b : α} : (pure a : Result α) = .ok b ↔ a = b := by
  simp [pure, Except.pure]

/-- The value of an optional row, or `error` where there is none. -/
def orElse {α : Type} (found : Option α) (error : LibraryError) : Result α :=
  match found with
  | some a => .ok a
  | none => .error error

@[simp] theorem orElse_eq_ok {α : Type} {found : Option α} {error : LibraryError} {a : α} :
    orElse found error = .ok a ↔ found = some a := by
  cases found <;> simp [orElse]

theorem toOption_eq_some {α : Type} {x : Result α} {a : α} :
    x.toOption = some a ↔ x = .ok a := by
  cases x <;> simp [Except.toOption]

theorem mem_mapM {α β : Type} {f : α → Result β} {as : List α} {bs : List β}
    (h : as.mapM f = .ok bs) {b : β} (hb : b ∈ bs) : ∃ a ∈ as, f a = .ok b := by
  induction as generalizing bs with
  | nil =>
    cases h
    cases hb
  | cons a as ih =>
    simp only [List.mapM_cons, bind_eq_ok, pure_eq_ok] at h
    obtain ⟨b₀, hb₀, bs₀, hrest, rfl⟩ := h
    rcases List.mem_cons.mp hb with rfl | hmem
    · exact ⟨a, List.mem_cons_self, hb₀⟩
    · obtain ⟨a', ha', hfa'⟩ := ih hrest hmem
      exact ⟨a', List.mem_cons_of_mem _ ha', hfa'⟩

theorem mapM_of_mem {α β : Type} {f : α → Result β} {as : List α} {bs : List β}
    (h : as.mapM f = .ok bs) {a : α} (ha : a ∈ as) : ∃ b ∈ bs, f a = .ok b := by
  induction as generalizing bs with
  | nil => cases ha
  | cons first rest ih =>
    simp only [List.mapM_cons, bind_eq_ok, pure_eq_ok] at h
    obtain ⟨b, hb, tail, htail, rfl⟩ := h
    rcases List.mem_cons.mp ha with rfl | ha
    · exact ⟨b, List.mem_cons_self, hb⟩
    · obtain ⟨found, hfound, hf⟩ := ih htail ha
      exact ⟨found, List.mem_cons_of_mem _ hfound, hf⟩

theorem forM_ok {α : Type} {f : α → Result Unit} {l : List α} (h : l.forM f = .ok ()) :
    ∀ a ∈ l, f a = .ok () := by
  induction l with
  | nil => exact fun a ha => absurd ha List.not_mem_nil
  | cons first rest ih =>
    obtain ⟨_, hfirst, hrest⟩ := bind_eq_ok.mp h
    intro a ha
    rcases List.mem_cons.mp ha with rfl | ha
    · exact hfirst
    · exact ih hrest a ha

theorem map_of_mapM {α β : Type} {f : α → Result β} {g : β → α} {as : List α} {bs : List β}
    (hg : ∀ a b, f a = .ok b → g b = a) (h : as.mapM f = .ok bs) : bs.map g = as := by
  induction as generalizing bs with
  | nil =>
    cases h
    rfl
  | cons a as ih =>
    simp only [List.mapM_cons, bind_eq_ok, pure_eq_ok] at h
    obtain ⟨b, hb, bs, hrest, rfl⟩ := h
    rw [List.map_cons, hg a b hb, ih hrest]

end Result

end PlateVault
