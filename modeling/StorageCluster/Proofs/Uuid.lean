import StorageCluster.Proofs.Text.Numeral
import StorageCluster.Uuid

/-!
# Identifiers are read back

The hyphens of a written identifier stand where they are expected, and what is left without them
are its 32 digits.
-/
namespace StorageCluster.Uuid

/-- The digits in groups, with hyphens between them. -/
def hyphenated (a b c d e : List Char) : List Char :=
  a ++ '-' :: (b ++ '-' :: (c ++ '-' :: (d ++ '-' :: e)))

theorem intercalate_groups (digits : List Char) :
    List.intercalate ['-'] (groups digits) = hyphenated (digits.take 8) ((digits.drop 8).take 4)
      ((digits.drop 12).take 4) ((digits.drop 16).take 4) (digits.drop 20) := by
  simp [groups, hyphenated, List.intercalate]

theorem append_groups (digits : List Char) :
    digits.take 8 ++ ((digits.drop 8).take 4 ++ ((digits.drop 12).take 4 ++
      ((digits.drop 16).take 4 ++ digits.drop 20))) = digits := by
  have next (i : Nat) : (digits.drop i).take 4 ++ digits.drop (i + 4) = digits.drop i := by
    rw [← List.drop_drop, List.take_append_drop]
  rw [next 16, next 12, next 8, List.take_append_drop]

theorem ofHyphenated?_hyphenated {a b c d e : List Char} (ha : a.length = 8) (hb : b.length = 4)
    (hc : c.length = 4) (hd : d.length = 4) (he : e.length = 12)
    (h : '-' ∉ a ++ (b ++ (c ++ (d ++ e)))) :
    ofHyphenated? (hyphenated a b c d e) = ofDigits? (a ++ (b ++ (c ++ (d ++ e)))) := by
  have hplaces : [8, 13, 18, 23].all (fun i => (hyphenated a b c d e)[i]? == some '-') = true := by
    simp [hyphenated, List.getElem?_append, List.getElem?_cons, ha, hb, hc, hd]
  have hkeep (cs : List Char) (hcs : '-' ∉ cs) : cs.filter (· != '-') = cs := by
    refine List.filter_eq_self.2 fun c hc => ?_
    rw [bne_iff_ne]
    rintro rfl
    exact hcs hc
  simp only [List.mem_append, not_or] at h
  obtain ⟨h1, h2, h3, h4, h5⟩ := h
  have hdigits : (hyphenated a b c d e).filter (· != '-') = a ++ (b ++ (c ++ (d ++ e))) := by
    simp [hyphenated, hkeep, h1, h2, h3, h4, h5]
  have hlength : (hyphenated a b c d e).length = 36 := by
    simp [hyphenated, ha, hb, hc, hd, he]
  rw [ofHyphenated?, if_pos ⟨hlength, hplaces⟩, hdigits]

theorem ofText?_of_length {text : String} (h : text.toList.length = 36) :
    ofText? text = ofHyphenated? text.toList := by
  unfold ofText?
  simp only [h]

/-- An identifier is what its text is read as. -/
theorem ofText?_toText (id : Uuid) : ofText? id.toText = some id := by
  have hbits : id.bits.toNat < Nat.pow 2 128 := id.bits.isLt
  obtain ⟨digits, hds⟩ : ∃ digits, digits = (Numeral.writeHex 32 id.bits.toNat).toList := ⟨_, rfl⟩
  have hlength : digits.length = 32 :=
    hds ▸ Numeral.length_writeHex (by decide) (Nat.lt_of_lt_of_le hbits (by decide))
  have hhyphen : '-' ∉ digits := hds ▸ Numeral.not_mem_writeHex 32 _ (by decide)
  have hread : ofDigits? digits = some id := by
    rw [ofDigits?, if_pos hlength, hds, Numeral.readDigits_writeHex 32 hbits]
    simp
  have htext : id.toText.toList = hyphenated (digits.take 8) ((digits.drop 8).take 4)
      ((digits.drop 12).take 4) ((digits.drop 16).take 4) (digits.drop 20) := by
    rw [toText, String.toList_ofList, ← hds, intercalate_groups]
  rw [ofText?_of_length (by simp [htext, hyphenated, hlength]), htext,
    ofHyphenated?_hyphenated (by simp [hlength]) (by simp [hlength]) (by simp [hlength])
      (by simp [hlength]) (by simp [hlength]) (by rwa [append_groups]), append_groups, hread]

end StorageCluster.Uuid
