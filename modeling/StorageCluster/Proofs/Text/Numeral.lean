import Mathlib.Tactic.Common
import Mathlib.Tactic.IntervalCases
import StorageCluster.Text.Numeral

/-!
# Numerals are read back

A number that is written in decimal, or in hexadecimal with zeros in front, is what reading its
digits gives, as long as it is below the limit.
-/
namespace StorageCluster.Numeral

variable {base limit : Nat}

/-- Digits of numbers are spelled by `Nat.digitChar`. -/
theorem digit?_digitChar {d : Nat} (hb : base ≤ 16) (hd : d < base) :
    digit? base (Nat.digitChar d) = some d := by
  have hvalue : digit? base (Nat.digitChar d) = (some d).filter (· < base) := by
    have h16 : d < 16 := Nat.lt_of_lt_of_le hd hb
    clear hd
    interval_cases d <;> rfl
  rw [hvalue, Option.filter_some, if_pos (by simpa using hd)]

theorem exists_of_mem_toDigits (hb : 1 < base) {n : Nat} {c : Char}
    (h : c ∈ Nat.toDigits base n) : ∃ d, d < base ∧ c = Nat.digitChar d := by
  induction n using Nat.strongRecOn with
  | _ n ih =>
    rw [Nat.toDigits_eq_if hb] at h
    split at h
    next hn => exact ⟨n, hn, List.mem_singleton.1 h⟩
    next hn =>
      rcases List.mem_append.1 h with h | h
      · exact ih (n / base) (Nat.div_lt_self (by omega) hb) h
      · exact ⟨n % base, Nat.mod_lt n (by omega), List.mem_singleton.1 h⟩

/-- A digit is no sign, hyphen, slash, colon or any other mark. -/
theorem not_mem_toDigits (hb : 1 < base) (hb' : base ≤ 16) (n : Nat) {c : Char}
    (h : digit? 16 c = none) : c ∉ Nat.toDigits base n := by
  intro hc
  obtain ⟨d, hd, rfl⟩ := exists_of_mem_toDigits hb hc
  rw [digit?_digitChar (Nat.le_refl 16) (Nat.lt_of_lt_of_le hd hb')] at h
  cases h

theorem readDigits_append (acc : Nat) (xs ys : List Char) :
    readDigits base limit acc (xs ++ ys) =
      readDigits base limit acc xs >>= fun n => readDigits base limit n ys := by
  induction xs generalizing acc with
  | nil => rfl
  | cons c rest ih =>
    simp only [List.cons_append, readDigits]
    split
    next => rfl
    next d _ =>
      split
      next => exact ih _
      next => rfl

theorem readDigits_toDigits (hb : 1 < base) (hb' : base ≤ 16) {n : Nat} (hn : n < limit) :
    readDigits base limit 0 (Nat.toDigits base n) = .ok n := by
  induction n using Nat.strongRecOn with
  | _ n ih =>
    rw [Nat.toDigits_eq_if hb]
    split
    next hlt => simp [readDigits, digit?_digitChar hb' hlt, hn]
    next hge =>
      have hless : n / base < n := Nat.div_lt_self (by omega) hb
      have hlast : n % base < base := Nat.mod_lt n (by omega)
      have hsum : n / base * base + n % base = n := by
        rw [Nat.mul_comm]
        exact Nat.div_add_mod n base
      rw [readDigits_append, ih (n / base) hless (Nat.lt_trans hless hn)]
      simp [readDigits, digit?_digitChar hb' hlast, hsum, hn, bind, Except.bind]

/-- Zeros in front do not count. -/
theorem readDigits_zeros (hb : 1 < base) (hb' : base ≤ 16) (hl : 0 < limit) (count : Nat)
    (digits : List Char) :
    readDigits base limit 0 (List.replicate count '0' ++ digits) =
      readDigits base limit 0 digits := by
  induction count with
  | zero => rfl
  | succ count ih =>
    have hz : digit? base '0' = some 0 := digit?_digitChar (d := 0) hb' (by omega)
    simp [List.replicate_succ, readDigits, hz, hl, ih]

theorem toList_write (n : Nat) : (write n).toList = Nat.toDigits 10 n := by
  rw [write, Nat.toString_eq_ofList_toDigits, String.toList_ofList]

theorem write_injective : Function.Injective write := fun m n h => by
  have hvalue := congrArg (fun text => Nat.ofDigitChars 10 text.toList 0) h
  simpa only [toList_write, Nat.ofDigitChars_ten_toDigits] using hvalue

/-- What is written in decimal is read back. -/
theorem readDecimal_write {n : Nat} (h : n < limit) : readDecimal limit (write n) = .ok n := by
  have hplus : '+' ∉ Nat.toDigits 10 n := not_mem_toDigits (by decide) (by decide) n (by decide)
  unfold readDecimal read
  rw [toList_write]
  split
  next hd => exact absurd hd Nat.toDigits_ne_nil
  next hd => simp [hd] at hplus
  next rest hd => simp [hd] at hplus
  next => exact readDigits_toDigits (by decide) (by decide) h

theorem toList_writeHex (width n : Nat) :
    (writeHex width n).toList =
      List.replicate (width - (Nat.toDigits 16 n).length) '0' ++ Nat.toDigits 16 n := by
  rw [writeHex, String.toList_ofList]

theorem readDigits_writeHex (width : Nat) {n : Nat} (h : n < limit) :
    readDigits 16 limit 0 (writeHex width n).toList = .ok n := by
  rw [toList_writeHex, readDigits_zeros (by decide) (by decide) (Nat.zero_lt_of_lt h)]
  exact readDigits_toDigits (by decide) (by decide) h

/-- Numbers with at most `width` digits are written with exactly as many. -/
theorem length_writeHex {width n : Nat} (hw : 0 < width) (h : n < 16 ^ width) :
    (writeHex width n).toList.length = width := by
  have hl : (Nat.toDigits 16 n).length ≤ width := (Nat.length_toDigits_le_iff (by decide) hw).2 h
  rw [toList_writeHex, List.length_append, List.length_replicate]
  omega

theorem not_mem_writeHex (width n : Nat) {c : Char} (h : digit? 16 c = none) :
    c ∉ (writeHex width n).toList := by
  have hz : c ≠ '0' := by
    rintro rfl
    exact absurd h (by decide)
  rw [toList_writeHex, List.mem_append, List.mem_replicate, not_or]
  exact ⟨fun hc => hz hc.2, not_mem_toDigits (by decide) (by decide) n h⟩

/-- No needless zeros stand in front. -/
theorem toDigits_zero_head {n : Nat} {rest : List Char} (h : Nat.toDigits 10 n = '0' :: rest) :
    rest = [] := by
  induction n using Nat.strongRecOn generalizing rest with
  | _ n ih =>
    rw [Nat.toDigits_eq_if (by decide)] at h
    split at h
    next => exact (List.cons.inj h).2.symm
    next hge =>
      -- the digits in front of the last one are those of a number that is not zero
      have hpos : 0 < n / 10 := Nat.div_pos (Nat.le_of_not_lt hge) (by decide)
      cases hd : Nat.toDigits 10 (n / 10) with
      | nil => exact absurd hd Nat.toDigits_ne_nil
      | cons c more =>
        rw [hd, List.cons_append, List.cons.injEq] at h
        have hmore : more = [] := ih (n / 10) (by omega) (h.1 ▸ hd)
        rw [h.1, hmore] at hd
        have hvalue : Nat.ofDigitChars 10 (Nat.toDigits 10 (n / 10)) 0 = 0 := by rw [hd]; rfl
        rw [Nat.ofDigitChars_ten_toDigits] at hvalue
        omega

end StorageCluster.Numeral
