import Mathlib.Data.List.DropRight
import PlateVault.Lib.FreeIndex
import PlateVault.Projects.Placement
import PlateVault.View.LightFolders

/-!
# Free group names

A free name differs from every group's by key and by folder. The numbered names of a rig differ from
one another by key, and by folder as far as no folder name is cut, so a search ends that tries more
of them than the groups can take.
-/

namespace PlateVault.Projects

open View (Host token nameKey componentLimit componentLen trimEndMatches isHyphenOrDot pushToken)

variable {H : Host}

/-! ## What is free -/

/-- Two names with different keys whose folders, where both have one, have different keys. -/
def Apart (H : Host) (name other : GroupName) : Prop :=
  name.key H ≠ other.key H ∧ ∀ folder folder', folderToken H name = .ok folder →
    folderToken H other = .ok folder' → nameKey H folder ≠ nameKey H folder'

theorem free_eq_ok {names : List GroupName} {name : GroupName} {isFree : Bool}
    (h : free H names name = .ok isFree) :
    ∃ folder, folderToken H name = .ok folder ∧
      isFree = !names.any (takes H (name.key H) (nameKey H folder)) := by
  obtain ⟨folder, hfolder, h⟩ := Result.bind_eq_ok.mp h
  exact ⟨folder, hfolder, (Except.ok.inj h).symm⟩

theorem takes_iff {key folder : Text} {taken : GroupName} :
    takes H key folder taken = true ↔ taken.key H = key ∨
      ∃ token, folderToken H taken = .ok token ∧ nameKey H token = folder := by
  unfold takes
  cases folderToken H taken with
  | ok token => simp
  | error e => simp

theorem apart_of_free {names : List GroupName} {name : GroupName}
    (h : free H names name = .ok true) : ∀ taken ∈ names, Apart H taken name := by
  intro taken htaken
  obtain ⟨folder, hfolder, hfree⟩ := free_eq_ok h
  have hany : names.any (takes H (name.key H) (nameKey H folder)) = false := by
    simpa using hfree.symm
  have hnot := fun h => List.any_eq_false.mp hany taken htaken (takes_iff.mpr h)
  refine ⟨fun hkey => hnot (.inl hkey), fun token folder' htoken hfolder' hkey => ?_⟩
  obtain rfl := Except.ok.inj (hfolder.symm.trans hfolder')
  exact hnot (.inr ⟨token, htoken, hkey⟩)

section FirstFree

variable {names : List GroupName} {candidate : Nat → Text}

theorem free_of_firstFree {tries n : Nat} {name : GroupName}
    (h : firstFree H names candidate tries n = .ok (some name)) :
    free H names name = .ok true := by
  induction tries generalizing n with
  | zero => cases h
  | succ tries ih =>
    obtain ⟨found, -, h⟩ := Result.bind_eq_ok.mp h
    obtain ⟨isFree, hfree, h⟩ := Result.bind_eq_ok.mp h
    split at h
    · rename_i htrue
      cases h
      rw [hfree, htrue]
    · exact ih h

theorem taken_of_firstFree {tries n : Nat} (h : firstFree H names candidate tries n = .ok none) :
    ∀ k < tries, ∃ name, GroupName.new H (candidate (n + k)) = .ok name ∧
      free H names name = .ok false := by
  induction tries generalizing n with
  | zero => exact fun k hk => absurd hk (Nat.not_lt_zero k)
  | succ tries ih =>
    obtain ⟨found, hfound, h⟩ := Result.bind_eq_ok.mp h
    obtain ⟨isFree, hfree, h⟩ := Result.bind_eq_ok.mp h
    split at h
    · cases h
    · rename_i hfalse
      intro k hk
      cases k with
      | zero => exact ⟨found, hfound, by rw [hfree, Bool.eq_false_iff.mpr hfalse]⟩
      | succ k =>
        have hlater := ih h k (by omega)
        rwa [Nat.add_right_comm, Nat.add_assoc] at hlater

end FirstFree

/-! ## Numbered names -/

/-- ASCII at the end of a text, and what follows a space, are normalized and lowered apart from what
comes before. -/
structure AsciiTail (H : Host) : Prop where
  nfc_append : ∀ text tail : Text, (∀ c ∈ tail, c.toNat < 128) →
    H.nfc (text ++ tail) = H.nfc text ++ tail
  nfkd_append : ∀ text tail : Text, (∀ c ∈ tail, c.toNat < 128) →
    H.nfkd (text ++ tail) = H.nfkd text ++ tail
  lower_append : ∀ text tail : Text, (∀ c ∈ tail, c.toNat < 128) →
    H.lower (text ++ ' ' :: tail) = H.lower text ++ ' ' :: tail.map Char.toLower

def numberedStem (rig : Text) : Text := (rig ++ " · Framing".toList).dropWhile isWhiteSpace

theorem dropWhile_append_of_mem {p : Char → Bool} {text : Text} {c : Char} (h : c ∈ text)
    (hc : p c = false) (rest : Text) : (text ++ rest).dropWhile p = text.dropWhile p ++ rest := by
  have hmem := Naming.mem_dropWhile hc h
  rw [List.dropWhile_append, if_neg]
  rw [List.isEmpty_iff]
  exact List.ne_nil_of_mem hmem

theorem trimMatches_of_getLast? {p : Char → Bool} {text : Text} {c : Char}
    (hlast : text.getLast? = some c) (hc : p c = false) :
    trimMatches p text = text.dropWhile p := by
  obtain ⟨init, rfl⟩ := List.getLast?_eq_some_iff.mp hlast
  obtain ⟨kept, hkept⟩ : ∃ kept, (init ++ [c]).dropWhile p = kept ++ [c] := by
    rw [List.dropWhile_append]
    split
    · exact ⟨[], by simp [hc]⟩
    · exact ⟨_, rfl⟩
  rw [trimMatches, hkept, List.reverse_append, List.reverse_singleton, List.singleton_append,
    List.dropWhile_cons_of_neg (by simp [hc]), List.reverse_cons, List.reverse_reverse]

theorem isDigit_plain {c : Char} (h : c.isDigit = true) :
    c.toNat < 128 ∧ isWhiteSpace c = false ∧ isHyphenOrDot c = false ∧ c.toLower = c ∧
      View.isDisallowed c = false ∧ View.tokenChar c = some c ∧ c ≠ '-' := by
  have hrange := View.isDigit_lt h
  have hcheck := @View.of_ascii (fun c => c.isDigit = true → isWhiteSpace c = false ∧
    isHyphenOrDot c = false ∧ c.toLower = c ∧ View.isDisallowed c = false ∧
      View.tokenChar c = some c ∧ c ≠ '-') (by decide) c (by omega) h
  exact ⟨by omega, hcheck⟩

section Numbered

variable (rig : Text) (n : Nat)

theorem getLast?_decimal : ∃ c, (decimal n).getLast? = some c ∧ c.isDigit = true := by
  have hne : decimal n ≠ [] := Nat.toDigits_ne_nil
  refine ⟨_, List.getLast?_eq_some_getLast hne, ?_⟩
  exact View.isDigit_of_mem_decimal (List.getLast_mem hne)

theorem getLast?_append_decimal (text : Text) :
    ∃ c, (text ++ decimal n).getLast? = some c ∧ c.isDigit = true := by
  obtain ⟨c, hlast, hdigit⟩ := getLast?_decimal n
  have hne : decimal n ≠ [] := Nat.toDigits_ne_nil
  exact ⟨c, (List.getLast?_append_of_ne_nil _ hne).trans hlast, hdigit⟩

theorem trim_numberedName :
    trim (numberedName rig n) = numberedStem rig ++ ' ' :: decimal n := by
  have hsplit : numberedName rig n = (rig ++ " · Framing".toList) ++ ' ' :: decimal n := by
    have hmark : " · Framing ".toList = " · Framing".toList ++ [' '] := by decide
    rw [numberedName, hmark]
    simp
  obtain ⟨c, hlast, hdigit⟩ := getLast?_append_decimal n ((rig ++ " · Framing".toList) ++ [' '])
  have hmem : 'g' ∈ rig ++ " · Framing".toList := List.mem_append_right _ (by decide)
  rw [trim, hsplit, trimMatches_of_getLast? (c := c) (by simpa using hlast)
    (isDigit_plain hdigit).2.1, dropWhile_append_of_mem hmem (by decide)]
  rfl

theorem ascii_decimal : ∀ c ∈ ' ' :: decimal n, c.toNat < 128 := by
  intro c hc
  rcases List.mem_cons.mp hc with rfl | hc
  · decide
  · exact (isDigit_plain (View.isDigit_of_mem_decimal hc)).1

theorem text_of_new {name : Text} {found : GroupName} (h : GroupName.new H name = .ok found) :
    found.text = trim name := by
  unfold GroupName.new at h
  simp only at h
  split at h
  · cases h
  · split at h
    · cases h
      rfl
    · cases h

theorem trim_stem :
    trim (numberedStem rig ++ ' ' :: decimal n) = numberedStem rig ++ ' ' :: decimal n := by
  obtain ⟨c, hlast, hdigit⟩ := getLast?_append_decimal n (numberedStem rig ++ [' '])
  have hmem : 'g' ∈ numberedStem rig :=
    Naming.mem_dropWhile (by decide) (List.mem_append_right _ (by decide))
  rw [trim, trimMatches_of_getLast? (c := c) (by simpa using hlast) (isDigit_plain hdigit).2.1,
    dropWhile_append_of_mem hmem (by decide), numberedStem, List.dropWhile_idempotent]

theorem key_numbered (htail : AsciiTail H) {name : GroupName}
    (h : GroupName.new H (numberedName rig n) = .ok name) :
    name.key H = H.lower (H.nfc (numberedStem rig)) ++ ' ' :: decimal n := by
  have hlower : (decimal n).map Char.toLower = decimal n := by
    refine (List.map_congr_left fun c hc => ?_).trans (List.map_id _)
    exact (isDigit_plain (View.isDigit_of_mem_decimal hc)).2.2.2.1
  rw [GroupName.key, text_of_new h, trim_numberedName, trim_stem,
    htail.nfc_append _ _ (ascii_decimal n),
    htail.lower_append _ _ fun c hc => ascii_decimal n c (List.mem_cons_of_mem _ hc), hlower]

end Numbered

/-! ## Their folders -/

/-- A text's folder token before it is cut to a component. -/
def rawToken (H : Host) (raw : Text) : Text :=
  trimMatches isHyphenOrDot ((H.nfkd (View.step1NormalizeAndStrip H raw)).foldl pushToken [])

theorem token_eq_ok {label : String} {raw folder : Text} {limit : Nat}
    (h : token H label raw limit = .ok folder) :
    folder = View.capped H (rawToken H raw) limit (View.digestSuffix H raw) := by
  unfold View.token at h
  simp only at h
  split at h
  · cases h
  · split at h
    · cases h
    · cases h
      rfl

theorem foldl_pushToken_kept {text : Text}
    (h : ∀ c ∈ text, View.tokenChar c = some c ∧ c ≠ '-') (kept : Text) :
    text.foldl pushToken kept = kept ++ text := by
  induction text generalizing kept with
  | nil => simp
  | cons c rest ih =>
    obtain ⟨htoken, hne⟩ := h c List.mem_cons_self
    have hpush : pushToken kept c = kept ++ [c] := by
      rw [pushToken, htoken]
      simp [hne]
    rw [List.foldl_cons, hpush, ih fun d hd => h d (List.mem_cons_of_mem _ hd)]
    simp

/-- What the token of a numbered name has before its number. -/
def tokenStem (H : Host) (rig : Text) : Text :=
  (pushToken ((H.nfkd (View.step1NormalizeAndStrip H (numberedStem rig))).foldl pushToken []) ' '
    ).dropWhile isHyphenOrDot

theorem rawToken_numbered (htail : AsciiTail H) (rig : Text) (n : Nat) :
    rawToken H (numberedStem rig ++ ' ' :: decimal n) = tokenStem H rig ++ decimal n := by
  have hdigits : ∀ c ∈ decimal n, c.isDigit = true := fun c => View.isDigit_of_mem_decimal
  have hkeep : (' ' :: decimal n).filter (fun c => !View.isDisallowed c) = ' ' :: decimal n := by
    refine List.filter_eq_self.mpr fun c hc => ?_
    rcases List.mem_cons.mp hc with rfl | hc
    · decide
    · rw [(isDigit_plain (hdigits c hc)).2.2.2.2.1]
      rfl
  have hcleaned : H.nfkd (View.step1NormalizeAndStrip H (numberedStem rig ++ ' ' :: decimal n)) =
      H.nfkd (View.step1NormalizeAndStrip H (numberedStem rig)) ++ ' ' :: decimal n := by
    rw [View.step1NormalizeAndStrip, View.step1NormalizeAndStrip,
      htail.nfc_append _ _ (ascii_decimal n), List.filter_append, hkeep,
      htail.nfkd_append _ _ (ascii_decimal n)]
  obtain ⟨c, hlast, hdigit⟩ := getLast?_append_decimal n
    (pushToken ((H.nfkd (View.step1NormalizeAndStrip H (numberedStem rig))).foldl pushToken []) ' ')
  have hdrop : (decimal n).dropWhile isHyphenOrDot = decimal n := by
    refine List.dropWhile_eq_self_iff.mpr fun hpos => ?_
    have hfirst := isDigit_plain (hdigits _ (List.getElem_mem hpos))
    rw [hfirst.2.2.1]
    exact Bool.false_ne_true
  rw [rawToken, hcleaned, List.foldl_append, List.foldl_cons, foldl_pushToken_kept fun c hc =>
      (isDigit_plain (hdigits c hc)).2.2.2.2.2,
    trimMatches_of_getLast? hlast (isDigit_plain hdigit).2.2.1, List.dropWhile_append, tokenStem]
  split
  · rename_i hempty
    rw [hdrop, List.isEmpty_iff.mp hempty, List.nil_append]
  · rfl

/-- Whether the folder of a rig's numbered name is short enough to stay uncut. -/
def Uncut (H : Host) (rig : Text) (n : Nat) : Prop :=
  componentLen H (rawToken H (trim (numberedName rig n))) ≤ componentLimit

theorem isPart_rawToken (raw : Text) : View.IsPart (rawToken H raw) := fun c hc =>
  View.foldl_pushToken_isPart (fun _ hnil => absurd hnil List.not_mem_nil) _ c
    (Naming.mem_of_mem_trimMatches hc)

theorem nameKey_numbered (hascii : H.Ascii) (htail : AsciiTail H) {rig : Text} {n : Nat}
    {name : GroupName} {folder : Text} (hname : GroupName.new H (numberedName rig n) = .ok name)
    (huncut : Uncut H rig n) (hfolder : folderToken H name = .ok folder) :
    nameKey H folder = (tokenStem H rig).map Char.toLower ++ decimal n := by
  have hraw : rawToken H name.text = tokenStem H rig ++ decimal n := by
    rw [text_of_new hname, trim_numberedName, rawToken_numbered htail]
  have hshort : componentLen H (rawToken H name.text) ≤ componentLimit := by
    rw [text_of_new hname]
    exact huncut
  have hlower : (decimal n).map Char.toLower = decimal n := by
    refine (List.map_congr_left fun c hc => ?_).trans (List.map_id _)
    exact (isDigit_plain (View.isDigit_of_mem_decimal hc)).2.2.2.1
  rw [token_eq_ok hfolder, View.capped, if_pos hshort,
    View.IsPart.nameKey hascii fun c hc => (isPart_rawToken _ c hc).1, hraw, List.map_append,
    hlower]

/-! ## Searches end -/

def numberOf (rigGroups k : Nat) : Nat := if rigGroups = 0 then k + 1 else rigGroups + 1 + k

theorem automaticNames_eq {rig : Text} {rigGroups k : Nat} (h : 0 < k) :
    automaticNames rig rigGroups k = numberedName rig (numberOf rigGroups k) := by
  unfold automaticNames numberOf
  split
  · rw [if_neg (by omega)]
  · rfl

def folderKeyOf (H : Host) (name : GroupName) : Option Text :=
  match folderToken H name with
  | .ok token => some (nameKey H token)
  | .error _ => none

theorem automaticName_ends (hascii : H.Ascii) (htail : AsciiTail H) {names : List GroupName}
    {rig : Text} {rigGroups tries : Nat} (htries : 2 * names.length + 2 ≤ tries)
    (huncut : ∀ n ≤ rigGroups + 2 * names.length + 2, Uncut H rig n) :
    automaticName H tries names rig rigGroups ≠ .ok none := by
  intro hnone
  have htaken := taken_of_firstFree hnone
  -- the keys and the folders' keys of the numbers 1 to 2L + 1
  let key (k : Nat) := H.lower (H.nfc (numberedStem rig)) ++ ' ' :: decimal (numberOf rigGroups k)
  let folderKey (k : Nat) := (tokenStem H rig).map Char.toLower ++ decimal (numberOf rigGroups k)
  let numbers := Finset.Icc 1 (2 * names.length + 1)
  have hkey : Set.InjOn key numbers := by
    intro k _ l _ h
    have hnumber := View.decimal_injective (List.cons.inj (List.append_cancel_left h)).2
    unfold numberOf at hnumber
    split at hnumber <;> omega
  have hfolderKey : Set.InjOn folderKey numbers := by
    intro k _ l _ h
    have hnumber := View.decimal_injective (List.append_cancel_left h)
    unfold numberOf at hnumber
    split at hnumber <;> omega
  have hcard : (names.map (GroupName.key H)).length +
      (names.filterMap (folderKeyOf H)).length < numbers.card := by
    have hle := List.length_filterMap_le (folderKeyOf H) names
    rw [List.length_map, Nat.card_Icc]
    omega
  obtain ⟨k, hk, hfreeKey, hfreeFolder⟩ := FreeIndex.exists_free _ _ hkey hfolderKey hcard
  obtain ⟨hpos, hle⟩ := Finset.mem_Icc.mp hk
  obtain ⟨name, hname, hfree⟩ := htaken k (by omega)
  rw [Nat.zero_add, automaticNames_eq hpos] at hname
  obtain ⟨folder, hfolder, hany⟩ := free_eq_ok hfree
  obtain ⟨taken, hmem, htakes⟩ := List.any_eq_true.mp (by simpa using hany.symm)
  have hnumber : numberOf rigGroups k ≤ rigGroups + 2 * names.length + 2 := by
    unfold numberOf
    split <;> omega
  rcases takes_iff.mp htakes with hsame | ⟨token, htoken, hsame⟩
  · rw [key_numbered rig _ htail hname] at hsame
    exact hfreeKey (List.mem_map.mpr ⟨taken, hmem, hsame⟩)
  · rw [nameKey_numbered hascii htail hname (huncut _ hnumber) hfolder] at hsame
    refine hfreeFolder (List.mem_filterMap.mpr ⟨taken, hmem, ?_⟩)
    rw [folderKeyOf, htoken]
    exact congrArg some hsame

end PlateVault.Projects
