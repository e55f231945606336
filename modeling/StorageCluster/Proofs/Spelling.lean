import Mathlib.Data.List.Forall2
import Mathlib.Tactic.Common
import StorageCluster.Proofs.Name

/-!
# Spellings of names

Names are spelled in a small part of ASCII: what is said of their characters is said of ranges of
codes, and there upper-casing is plain arithmetic. So two spellings have one upper-case text just if
they agree but for the case of letters.
-/
namespace StorageCluster

/-- Two to 48 characters: a letter of ASCII, then its letters and digits, `_` and `-`. -/
structure IsSpelling (text : String) : Prop where
  long : 2 ≤ text.length
  short : text.length ≤ 48
  shape : ∃ first rest, text.toList = first :: rest ∧ first.isAlpha = true ∧
    ∀ c ∈ rest, c.isAlphanum = true ∨ c = '_' ∨ c = '-'

/-! ## Characters -/

theorem toNat_toUpper (c : Char) :
    c.toUpper.toNat = if 97 ≤ c.toNat ∧ c.toNat ≤ 122 then c.toNat - 32 else c.toNat := by
  have hcond : ('a'.val ≤ c.val ∧ c.val ≤ 'z'.val) ↔ 97 ≤ c.toNat ∧ c.toNat ≤ 122 :=
    and_congr UInt32.le_iff_toNat_le UInt32.le_iff_toNat_le
  unfold Char.toUpper
  split
  next h =>
    rw [if_pos (hcond.1 h)]
    have hn := hcond.1 h
    change (c.val + ('A'.val - 'a'.val)).toNat = c.val.toNat - 32
    change 97 ≤ c.val.toNat ∧ c.val.toNat ≤ 122 at hn
    rw [UInt32.toNat_add, show ('A'.val - 'a'.val).toNat = 2 ^ 32 - 32 from rfl]
    omega
  next h => rw [if_neg fun hn => h (hcond.2 hn)]

theorem toNat_toLower (c : Char) :
    c.toLower.toNat = if 65 ≤ c.toNat ∧ c.toNat ≤ 90 then c.toNat + 32 else c.toNat := by
  have hcond : (c.val ≥ 'A'.val ∧ c.val ≤ 'Z'.val) ↔ 65 ≤ c.toNat ∧ c.toNat ≤ 90 :=
    and_congr UInt32.le_iff_toNat_le UInt32.le_iff_toNat_le
  unfold Char.toLower
  split
  next h =>
    rw [if_pos (hcond.1 h)]
    have hn := hcond.1 h
    change (c.val + ('a'.val - 'A'.val)).toNat = c.val.toNat + 32
    change 65 ≤ c.val.toNat ∧ c.val.toNat ≤ 90 at hn
    rw [UInt32.toNat_add, show ('a'.val - 'A'.val).toNat = 32 from rfl]
    omega
  next h => rw [if_neg fun hn => h (hcond.2 hn)]

/-- It does not matter to which case letters are brought. -/
theorem toUpper_eq_iff (c d : Char) : c.toUpper = d.toUpper ↔ c.toLower = d.toLower := by
  rw [← Char.toNat_inj, ← Char.toNat_inj, toNat_toUpper, toNat_toUpper, toNat_toLower,
    toNat_toLower]
  split <;> split <;> split <;> split <;> omega

theorem isLetter_iff (c : Char) : isLetter c = true ↔ c.isAlpha = true := by
  have hlower : c.isLower = ('a' ≤ c && c ≤ 'z') := rfl
  have hupper : c.isUpper = decide ('A' ≤ c ∧ c ≤ 'Z') := rfl
  have halpha : c.isAlpha = (c.isUpper || c.isLower) := rfl
  rw [isLetter, halpha, hlower, hupper, Bool.decide_and, Bool.or_comm]

theorem isNameCharacter_iff (c : Char) :
    isNameCharacter c = true ↔ c.isAlphanum = true ∨ c = '_' ∨ c = '-' := by
  have hdigit : (decide ('0' ≤ c) && decide (c ≤ '9')) = c.isDigit := rfl
  rw [isNameCharacter, hdigit, Char.isAlphanum]
  simp only [Bool.or_eq_true, isLetter_iff, beq_iff_eq, or_assoc]

/-- Characters of names by their codes. -/
theorem isNameCharacter_iff_toNat (c : Char) :
    isNameCharacter c = true ↔ (97 ≤ c.toNat ∧ c.toNat ≤ 122) ∨ (65 ≤ c.toNat ∧ c.toNat ≤ 90) ∨
      (48 ≤ c.toNat ∧ c.toNat ≤ 57) ∨ c.toNat = 95 ∨ c.toNat = 45 := by
  have hcode (d : Char) : c = d ↔ c.toNat = d.toNat := Char.toNat_inj.symm
  simp only [isNameCharacter, isLetter, Bool.or_eq_true, Bool.and_eq_true, decide_eq_true_eq,
    beq_iff_eq, Char.le_def, UInt32.le_iff_toNat_le, hcode, or_assoc]
  rfl

theorem isNameCharacter_toUpper {c : Char} (h : isNameCharacter c = true) :
    isNameCharacter c.toUpper = true := by
  rw [isNameCharacter_iff_toNat] at h ⊢
  rw [toNat_toUpper]
  split <;> omega

theorem lt_of_isNameCharacter {c : Char} (h : isNameCharacter c = true) : c.toNat < 128 := by
  rw [isNameCharacter_iff_toNat] at h
  omega

/-! ## Texts -/

/-- Texts are the same ignoring case when their characters are, one by one. -/
theorem sameIgnoringCase_iff (a b : String) :
    sameIgnoringCase a b = true ↔
      List.Forall₂ (fun c d => c.toLower = d.toLower) a.toList b.toList := by
  rw [sameIgnoringCase, beq_iff_eq, upperCase, upperCase, String.ofList_inj,
    ← List.forall₂_eq_eq_eq, List.forall₂_map_left_iff, List.forall₂_map_right_iff]
  simp only [toUpper_eq_iff]

theorem isSpelling_iff_of_cons {text : String} {first : Char} {rest : List Char}
    (h : text.toList = first :: rest) :
    IsSpelling text ↔ ¬ (text.length < 2 ∨ 48 < text.length) ∧ isLetter first = true ∧
      ∀ c ∈ rest, isNameCharacter c = true := by
  simp only [isLetter_iff, isNameCharacter_iff]
  constructor
  · rintro ⟨hlong, hshort, f, r, he, hf, hr⟩
    obtain ⟨rfl, rfl⟩ := List.cons.inj (h.symm.trans he)
    exact ⟨by omega, hf, hr⟩
  · rintro ⟨hlength, hf, hr⟩
    exact ⟨by omega, by omega, first, rest, h, hf, hr⟩

/-- Nothing is wrong with a spelling of a name, and with no other text. -/
theorem nameProblem?_eq_none_iff (text : String) : nameProblem? text = none ↔ IsSpelling text := by
  have hlength : text.toList.length = text.length := String.length_toList
  cases hcs : text.toList with
  | nil =>
    refine ⟨fun h => ?_, fun h => ?_⟩
    · simp [nameProblem?, hcs] at h
    · have hlong := h.long
      rw [← hlength, hcs] at hlong
      exact absurd hlong (by decide)
  | cons first rest =>
    rw [isSpelling_iff_of_cons hcs, ← hlength, nameProblem?, hcs]
    dsimp only
    split
    next hbad =>
      refine ⟨fun h => ?_, fun h => absurd hbad h.1⟩
      cases h
    next hgood =>
      rw [and_iff_right hgood]
      split
      next hl => simp [hl]
      next hl => simp [hl]

namespace Name

variable {kind : NameKind}

theorem isOk_ofText (kind : NameKind) (text : String) :
    (ofText kind text).isOk = true ↔ IsSpelling text := by
  rw [← nameProblem?_eq_none_iff]
  unfold ofText
  split
  next h => simp [h, Except.isOk, Except.toBool]
  next problem h => simp [h, Except.isOk, Except.toBool]

theorem ofText_display (name : Name kind) : ofText kind name.display = .ok name := by
  unfold ofText
  split
  next => rfl
  next problem h => exact absurd (name.valid.symm.trans h) (by simp)

/-- A name is made of no other text than the one it displays. -/
theorem ofText_eq_ok_iff (text : String) (name : Name kind) :
    ofText kind text = .ok name ↔ name.display = text := by
  refine ⟨fun h => ?_, fun h => h ▸ name.ofText_display⟩
  unfold ofText at h
  split at h
  next => exact (Except.ok.inj h) ▸ rfl
  next => cases h

theorem isNameCharacter_of_mem_display (name : Name kind) {c : Char} (h : c ∈ name.display.toList) :
    isNameCharacter c = true := by
  obtain ⟨first, rest, hcs, hfirst, hrest⟩ := ((nameProblem?_eq_none_iff _).1 name.valid).shape
  rw [isNameCharacter_iff]
  rw [hcs] at h
  rcases List.mem_cons.1 h with rfl | h
  · exact .inl (by rw [Char.isAlphanum, hfirst, Bool.true_or])
  · exact hrest c h

theorem isNameCharacter_of_mem_value (name : Name kind) {c : Char} (h : c ∈ name.value.toList) :
    isNameCharacter c = true := by
  rw [value, upperCase, String.toList_ofList] at h
  obtain ⟨d, hd, rfl⟩ := List.mem_map.1 h
  exact isNameCharacter_toUpper (name.isNameCharacter_of_mem_display hd)

/-- Whatever else upper-casing does with other characters, and be it to write several for one, it
does nothing else to a name. -/
theorem toList_value_eq_flatMap (name : Name kind) {upper : Char → List Char}
    (h : ∀ c : Char, c.toNat < 128 → upper c = [c.toUpper]) :
    name.value.toList = name.display.toList.flatMap upper := by
  have hplain : name.display.toList.flatMap upper =
      name.display.toList.flatMap fun c => [c.toUpper] :=
    List.flatMap_congr fun c hc =>
      h c (lt_of_isNameCharacter (name.isNameCharacter_of_mem_display hc))
  rw [value, upperCase, String.toList_ofList, hplain, List.map_eq_flatMap]

theorem beq_eq_sameIgnoringCase (a b : Name kind) :
    (a == b) = sameIgnoringCase a.display b.display := rfl

end Name

end StorageCluster
