import ComponentHooks.Text.Numeral
import Mathlib.Data.List.Basic

/-!
# Decimals

A number is written with digits, any zeros in front. The text of a variable may have a plus sign
before them and blanks around.

* `Text.Decimal`: digits that write a number;
* **`Text.readDigits_of_decimal`**, **`Text.readNumeral_eq_ok_iff`**: what is read from them, and
  that nothing else is read;
* `Text.Padded`, **`Text.trim_of_padded`**: blanks around a text, and the text without them.
-/

namespace ComponentHooks.Text

/-! ## Digits -/

/-- The digits write the number. -/
structure Decimal (n : Nat) (cs : List Char) : Prop where
  ne_nil : cs ≠ []
  digits : ∀ c ∈ cs, c.isDigit = true
  value : Nat.ofDigitChars 10 cs 0 = n

theorem decimal_toDigits (n : Nat) : Decimal n (Nat.toDigits 10 n) where
  ne_nil := Nat.toDigits_ne_nil
  digits _ hc := Nat.isDigit_of_mem_toDigits (by decide) (by decide) hc
  value := Nat.ofDigitChars_ten_toDigits

theorem Decimal.zeros {n : Nat} {cs : List Char} (h : Decimal n cs) (k : Nat) :
    Decimal n (List.replicate k '0' ++ cs) where
  ne_nil := by simp [h.ne_nil]
  digits c hc := by
    rcases List.mem_append.mp hc with hc | hc
    · rw [(List.mem_replicate.mp hc).2]
      rfl
    · exact h.digits c hc
  value := by
    rw [Nat.ofDigitChars_eq_foldl, List.foldl_append, ← Nat.ofDigitChars_eq_foldl,
      ← Nat.ofDigitChars_eq_foldl, Nat.ofDigitChars_replicate_zero, Nat.mul_zero, h.value]

theorem le_ofDigitChars (cs : List Char) (n : Nat) : n ≤ Nat.ofDigitChars 10 cs n := by
  rw [Nat.ofDigitChars_eq_ofDigitChars_zero]
  have hpow : n ≤ 10 ^ cs.length * n := Nat.le_mul_of_pos_left n (Nat.pow_pos (by decide))
  omega

theorem readDigits_eq_ok {cs : List Char} (hcs : ∀ c ∈ cs, c.isDigit = true) {n : Nat}
    (hlt : Nat.ofDigitChars 10 cs n < UInt64.size) :
    readDigits n cs = .ok (Nat.ofDigitChars 10 cs n) := by
  induction cs generalizing n with
  | nil => rfl
  | cons c cs ih =>
    have hvalue : digitValue? c = some (c.toNat - '0'.toNat) := if_pos (hcs c List.mem_cons_self)
    have hfits : 10 * n + (c.toNat - '0'.toNat) < UInt64.size :=
      Nat.lt_of_le_of_lt (le_ofDigitChars cs _) hlt
    rw [readDigits, hvalue]
    simp only [if_pos hfits]
    exact ih (fun d hd => hcs d (List.mem_cons_of_mem _ hd)) hlt

/-- **A decimal is read as its number.** -/
theorem readDigits_of_decimal {n : UInt64} {cs : List Char} (h : Decimal n.toNat cs) :
    readDigits 0 cs = .ok n.toNat := by
  rw [readDigits_eq_ok h.digits (h.value ▸ n.toNat_lt), h.value]

theorem readNumeral_of_decimal {n : UInt64} {sign cs : List Char} (hsign : sign = [] ∨ sign = ['+'])
    (h : Decimal n.toNat cs) : readNumeral (sign ++ cs) = .ok n := by
  obtain ⟨c, ds, rfl⟩ := List.exists_cons_of_ne_nil h.ne_nil
  have hread : (readDigits 0 (c :: ds)).map UInt64.ofNat = .ok n := by
    rw [readDigits_of_decimal h]
    exact congrArg Except.ok (UInt64.ofNat_toNat)
  have hplus : c ≠ '+' := by
    rintro rfl
    cases h.digits '+' List.mem_cons_self
  rcases hsign with rfl | rfl
  · rw [List.nil_append, readNumeral]
    · exact hread
    all_goals simp [hplus]
  · exact hread

theorem digits_of_readDigits {n m : Nat} {cs : List Char} (h : readDigits n cs = .ok m) :
    (∀ c ∈ cs, c.isDigit = true) ∧ Nat.ofDigitChars 10 cs n = m := by
  induction cs generalizing n with
  | nil =>
    cases h
    exact ⟨nofun, rfl⟩
  | cons c cs ih =>
    rw [readDigits] at h
    by_cases hc : c.isDigit = true
    · have hvalue : digitValue? c = some (c.toNat - '0'.toNat) := if_pos hc
      rw [hvalue] at h
      dsimp only at h
      split_ifs at h with hfits
      obtain ⟨hcs, hm⟩ := ih h
      exact ⟨List.forall_mem_cons.mpr ⟨hc, hcs⟩, hm⟩
    · have hvalue : digitValue? c = none := if_neg hc
      rw [hvalue] at h
      cases h

theorem decimal_of_readDigits {n : UInt64} {cs : List Char} (hcs : cs ≠ [])
    (h : (readDigits 0 cs).map UInt64.ofNat = .ok n) : Decimal n.toNat cs := by
  cases hread : readDigits 0 cs with
  | error e =>
    rw [hread] at h
    cases h
  | ok m =>
    rw [hread] at h
    cases h
    obtain ⟨hdigits, hvalue⟩ := digits_of_readDigits hread
    rw [UInt64.toNat_ofNat_of_lt' (readDigits_ok_lt (by decide) hread)]
    exact ⟨hcs, hdigits, hvalue⟩

/-- **The numbers that are read**: a sign, if there is one, and a decimal. -/
theorem readNumeral_eq_ok_iff {cs : List Char} {n : UInt64} :
    readNumeral cs = .ok n ↔
      ∃ sign ds, (sign = [] ∨ sign = ['+']) ∧ Decimal n.toNat ds ∧ cs = sign ++ ds := by
  constructor
  · intro h
    unfold readNumeral at h
    split at h
    · cases h
    · cases h
    · rename_i ds hne
      exact ⟨['+'], ds, .inr rfl, decimal_of_readDigits (fun he => hne (he ▸ rfl)) h, rfl⟩
    · rename_i hne _ _
      exact ⟨[], cs, .inl rfl, decimal_of_readDigits hne h, rfl⟩
  · rintro ⟨sign, ds, hsign, h, rfl⟩
    exact readNumeral_of_decimal hsign h

/-! ## Blanks around a text -/

theorem isBlank_of_isDigit {c : Char} (h : c.isDigit = true) : isBlank c = false := by
  simp only [Char.isDigit, Bool.and_eq_true, decide_eq_true_eq, UInt32.le_iff_toNat_le] at h
  have hlow : 48 ≤ c.toNat := h.1
  have hhigh : c.toNat ≤ 57 := h.2
  simp [isBlank, blankRanges]
  omega

/-- The text `cs` with blanks around it. -/
inductive Padded (cs : List Char) : List Char → Prop where
  | mk {a b : List Char} (front : ∀ c ∈ a, isBlank c = true) (back : ∀ c ∈ b, isBlank c = true) :
    Padded cs (a ++ (cs ++ b))

theorem padded_trim (raw : List Char) : Padded (trim raw) raw := by
  have hall : ∀ cs : List Char, ∀ c ∈ cs.takeWhile isBlank, isBlank c = true := fun cs _ hc =>
    List.all_eq_true.mp List.all_takeWhile _ hc
  have hback : raw.dropWhile isBlank =
      trim raw ++ ((raw.dropWhile isBlank).reverse.takeWhile isBlank).reverse := by
    rw [trim, ← List.reverse_append, List.takeWhile_append_dropWhile, List.reverse_reverse]
  have hpadded : Padded (trim raw) (raw.takeWhile isBlank ++
      (trim raw ++ ((raw.dropWhile isBlank).reverse.takeWhile isBlank).reverse)) :=
    .mk (hall raw) fun c hc => hall _ c (List.mem_reverse.mp hc)
  rwa [← hback, List.takeWhile_append_dropWhile] at hpadded

theorem dropWhile_isBlank {cs : List Char} (h : ∀ c ∈ cs, isBlank c = false) :
    cs.dropWhile isBlank = cs := by
  cases cs with
  | nil => rfl
  | cons c cs => exact List.dropWhile_cons_of_neg (by simp [h c List.mem_cons_self])

/-- **Trimming takes the blanks off** a text that has none. -/
theorem trim_of_padded {cs raw : List Char} (hcs : ∀ c ∈ cs, isBlank c = false)
    (h : Padded cs raw) : trim raw = cs := by
  obtain @⟨before, behind, hfront, hback⟩ := h
  rw [trim, List.dropWhile_append_of_pos hfront]
  cases cs with
  | nil =>
    have hnone : behind.dropWhile isBlank = [] := by
      rw [← List.append_nil behind, List.dropWhile_append_of_pos hback]
      rfl
    rw [List.nil_append, hnone]
    rfl
  | cons c cs =>
    have hkeep : (c :: cs ++ behind).dropWhile isBlank = c :: cs ++ behind :=
      List.dropWhile_cons_of_neg (by simp [hcs c List.mem_cons_self])
    rw [hkeep, List.reverse_append,
      List.dropWhile_append_of_pos fun d hd => hback d (List.mem_reverse.mp hd),
      dropWhile_isBlank fun d hd => hcs d (List.mem_reverse.mp hd), List.reverse_reverse]

end ComponentHooks.Text
