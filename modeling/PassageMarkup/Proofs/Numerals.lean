/-
Module: PassageMarkup.Proofs.Numerals
Layer: Proofs
Purpose: The numeral of a finite number in a label reads back as that number. Reading a decimal depends
  only on its value, so a zero may move between the digits and the exponent; the decimal that is
  printed is one that was found to read back, or the exact expansion; and laying it out in full moves
  nothing but zeros.
Imports: Number.Numeral
Main exports: Binary64.ofRatio_mul_mul, Binary64.ofDecimal_mul_ten, Binary64.ofDecimal_mul_pow,
  Decimal.toBinary64, toBinary64_shortest, inFull, Digits, Binary64.readChars?_inFull,
  Magnitude.exists_inFull
-/
import PassageMarkup.Number.Numeral

namespace PassageMarkup.Number

/-! ### Rounding a ratio -/

theorem roundHalfEven_mul_mul (num den : Nat) {k : Nat} (hk : 0 < k) :
    roundHalfEven (num * k) (den * k) = roundHalfEven num den := by
  have hleft : 2 * (num % den * k) < den * k ↔ 2 * (num % den) < den := by
    rw [← Nat.mul_assoc, Nat.mul_lt_mul_right hk]
  have hright : den * k < 2 * (num % den * k) ↔ den < 2 * (num % den) := by
    rw [← Nat.mul_assoc, Nat.mul_lt_mul_right hk]
  simp only [roundHalfEven, Nat.mul_div_mul_right _ _ hk, Nat.mul_mod_mul_right, hleft, hright]

theorem div_le_roundHalfEven (num den : Nat) : num / den ≤ roundHalfEven num den := by
  simp only [roundHalfEven]
  split
  · exact Nat.le_refl _
  · split
    · omega
    · split <;> omega

theorem roundToGrid_mul_mul (num den : Nat) {k : Nat} (hk : 0 < k) :
    roundToGrid (num * k) (den * k) = roundToGrid num den := by
  have hshift : gridShift (num * k) (den * k) = gridShift num den := by
    simp only [gridShift, Nat.mul_div_mul_right _ _ hk]
  simp only [roundToGrid, hshift, Nat.mul_right_comm den k, roundHalfEven_mul_mul _ _ hk]

/-- A ratio is rounded by its value, however it is written. -/
theorem Binary64.ofRatio_mul_mul (negative : Bool) (num den : Nat) {k : Nat} (hk : 0 < k) :
    ofRatio negative (num * k) (den * k) = ofRatio negative num den := by
  simp only [ofRatio, roundToGrid_mul_mul num den hk]

/-- What lies on the grid stays as it is. -/
theorem roundToGrid_of_onGrid {units : Nat} (h : gap units ∣ units) : roundToGrid units 1 = units := by
  have hgap : Nat.pow 2 (gridShift units 1) = gap units := by simp only [gridShift, gap, Nat.div_one]
  obtain ⟨n, hn⟩ := h
  have hround : roundHalfEven units (gap units) = n := by
    have hexact := roundHalfEven_mul n (natPow_two_pos (units.log2 - 52))
    rwa [show Nat.pow 2 (units.log2 - 52) = gap units from rfl, Nat.mul_comm, ← hn] at hexact
  rw [roundToGrid, hgap, Nat.one_mul, hround, Nat.mul_comm, ← hn]

theorem Magnitude.ofRatio_units (negative : Bool) (magnitude : Magnitude) :
    Binary64.ofRatio negative magnitude.units 1 = .finite negative magnitude := by
  simp only [Binary64.ofRatio, roundToGrid_of_onGrid magnitude.onGrid, dif_pos magnitude.bounded]

/-- Rounding a whole number of units does not go below a power of two. -/
theorem pow_le_roundToGrid {num bits : Nat} (h : Nat.pow 2 bits ≤ num) :
    Nat.pow 2 bits ≤ roundToGrid num 1 := by
  have hne : num ≠ 0 := Nat.ne_of_gt (Nat.lt_of_lt_of_le (natPow_two_pos bits) h)
  have hsplit : (2 : Nat) ^ num.log2 = 2 ^ (num.log2 - gridShift num 1) * 2 ^ gridShift num 1 := by
    rw [← Nat.pow_add, Nat.sub_add_cancel (by simp only [gridShift, Nat.div_one]; omega)]
  have hquotient : 2 ^ (num.log2 - gridShift num 1) ≤ num / 2 ^ gridShift num 1 := by
    rw [Nat.le_div_iff_mul_le (Nat.two_pow_pos _), ← hsplit]
    exact Nat.log2_self_le hne
  calc 2 ^ bits ≤ 2 ^ num.log2 := Nat.pow_le_pow_right (by decide) ((Nat.le_log2 hne).2 h)
    _ ≤ num / 2 ^ gridShift num 1 * 2 ^ gridShift num 1 := by
        rw [hsplit]; exact Nat.mul_le_mul_right _ hquotient
    _ ≤ roundToGrid num 1 := by
        rw [roundToGrid, Nat.one_mul]; exact Nat.mul_le_mul_right _ (div_le_roundHalfEven _ _)

theorem Binary64.ofRatio_of_limit_le (negative : Bool) {num : Nat} (h : unitLimit ≤ num) :
    ofRatio negative num 1 = .infinite negative := by
  have hround : unitLimit ≤ roundToGrid num 1 := by
    unfold unitLimit at h ⊢
    exact pow_le_roundToGrid h
  simp only [ofRatio, dif_neg (Nat.not_lt.2 hround)]

-- The model writes its large powers with `Nat.pow`. The facts about powers that are needed at such
-- exponents are stated in that form, so that applying them leaves the powers unevaluated.

theorem natPow_pos {base : Nat} (h : 0 < base) (exponent : Nat) : 0 < Nat.pow base exponent :=
  Nat.pow_pos h

theorem natPow_succ (base n : Nat) : Nat.pow base (n + 1) = Nat.pow base n * base :=
  rfl

theorem natPow_add (base m n : Nat) : Nat.pow base (m + n) = Nat.pow base m * Nat.pow base n :=
  Nat.pow_add base m n

theorem unitLimit_eq_mul : unitLimit = Nat.pow 2 wholeBits * unitsPerOne := by
  unfold unitLimit unitsPerOne
  apply natPow_add

/-! ### Reading a decimal -/

theorem le_mul_pow {bound least digits power : Nat} (hbound : bound ≤ 10 * Nat.pow 10 least)
    (hdigits : digits ≠ 0) (hpower : least ≤ power) : bound ≤ digits * 10 * Nat.pow 10 power :=
  Nat.le_trans hbound <|
    Nat.mul_le_mul (by omega) (Nat.pow_le_pow_right (by decide) hpower)

/-- Every multiple of ten to the 401 is beyond the largest finite number. -/
theorem unitLimit_le_mul_pow {digits power : Nat} (hdigits : digits ≠ 0) (hpower : 400 ≤ power) :
    unitLimit ≤ digits * 10 * Nat.pow 10 power * unitsPerOne := by
  rw [unitLimit_eq_mul]
  exact Nat.mul_le_mul_right _ (le_mul_pow (by decide +kernel) hdigits hpower)

theorem decimalWidth_mul_ten {n : Nat} (h : n ≠ 0) : decimalWidth (n * 10) = decimalWidth n + 1 := by
  have happend := Nat.toDigits_append_toDigits (b := 10) (n := n) (d := 0) (by decide)
    (Nat.pos_of_ne_zero h) (by decide)
  have hten : Nat.toDigits 10 (n * 10) = Nat.toDigits 10 n ++ Nat.toDigits 10 0 := by
    rw [happend, Nat.add_zero, Nat.mul_comm]
  simp only [decimalWidth, h, Nat.mul_eq_zero, Nat.reduceEqDiff, or_self, if_false, hten,
    List.length_append]
  rfl

/-- A multiple of a number that is not below a power of ten has more digits than the power. -/
theorem lt_decimalWidth_mul {factor n power : Nat} (hfactor : factor ≠ 0) (h : Nat.pow 10 power ≤ n) :
    power < decimalWidth (factor * n) := by
  have hle : 10 ^ power ≤ factor * n :=
    Nat.le_trans h (Nat.le_mul_of_pos_left _ (Nat.pos_of_ne_zero hfactor))
  have hne : factor * n ≠ 0 := Nat.ne_of_gt (Nat.lt_of_lt_of_le (Nat.pow_pos (by decide)) hle)
  simp only [decimalWidth, hne, if_false]
  rcases Nat.eq_zero_or_pos power with rfl | hpower
  · exact Nat.length_toDigits_pos
  · have hwidth := Nat.length_toDigits_le_iff (b := 10) (n := factor * n) (by decide) hpower
    omega

/-- A zero at the end of the digits counts as one in the exponent. -/
theorem Binary64.ofDecimal_mul_ten (negative : Bool) (digits : Nat) (exponent : Int) :
    ofDecimal negative (digits * 10) exponent = ofDecimal negative digits (exponent + 1) := by
  by_cases hzero : digits = 0
  · simp [ofDecimal, hzero]
  have hwidth : exponent + decimalWidth (digits * 10) = exponent + 1 + decimalWidth digits := by
    rw [decimalWidth_mul_ten hzero]; omega
  have hne : ¬digits * 10 = 0 := by omega
  simp only [ofDecimal, hzero, hne, if_false, hwidth]
  by_cases hbig : 400 < exponent
  · simp only [hbig, show 400 < exponent + 1 by omega, if_true]
  simp only [hbig, if_false]
  by_cases hedge : 400 < exponent + 1
  · -- The one exponent at which only the right side is decided without computing.
    obtain ⟨power, rfl⟩ := Int.eq_ofNat_of_zero_le (show 0 ≤ exponent by omega)
    have hnear : ¬(power : Int) + 1 + decimalWidth digits < -400 := by omega
    simp only [hedge, hnear, if_true, if_false]
    exact ofRatio_of_limit_le negative (unitLimit_le_mul_pow hzero (by omega))
  simp only [hedge, if_false]
  split
  · rfl
  · match exponent with
    | .ofNat power =>
      have hpower : digits * 10 * Nat.pow 10 power = digits * Nat.pow 10 (power + 1) := by
        simp only [Nat.pow_eq, Nat.pow_succ]; rw [Nat.mul_assoc, Nat.mul_comm 10]
      exact congrArg (fun num => ofRatio negative (num * unitsPerOne) 1) hpower
    | .negSucc 0 =>
      have hscale := ofRatio_mul_mul negative (digits * unitsPerOne) 1 (k := 10) (by decide)
      rw [Nat.mul_right_comm] at hscale
      simpa using hscale
    | .negSucc (power + 1) =>
      have hscale := ofRatio_mul_mul negative (digits * unitsPerOne) (10 ^ (power + 1)) (k := 10)
        (by decide)
      rw [Nat.mul_right_comm] at hscale
      exact hscale

/-- A decimal with a point that is not far below the smallest magnitude is read as a ratio. -/
theorem Binary64.ofDecimal_neg (negative : Bool) {digits places : Nat} (hdigits : digits ≠ 0)
    (hplaces : 0 < places) (hwidth : places ≤ decimalWidth digits + 400) :
    ofDecimal negative digits (-(places : Int)) =
      ofRatio negative (digits * unitsPerOne) (Nat.pow 10 places) := by
  obtain ⟨power, rfl⟩ := Nat.exists_eq_add_one.2 hplaces
  have hlow : ¬400 < -((power + 1 : Nat) : Int) := by omega
  have hhigh : ¬-((power + 1 : Nat) : Int) + decimalWidth digits < -400 := by omega
  simp only [ofDecimal, hdigits, hlow, hhigh, if_false]
  rfl

theorem Binary64.ofDecimal_mul_pow (negative : Bool) (digits : Nat) (exponent : Int) (zeros : Nat) :
    ofDecimal negative (digits * Nat.pow 10 zeros) exponent =
      ofDecimal negative digits (exponent + zeros) := by
  induction zeros generalizing exponent with
  | zero => simp
  | succ zeros ih =>
    rw [natPow_succ, ← Nat.mul_assoc, ofDecimal_mul_ten, ih]
    congr 1
    omega

/-- The double that a decimal reads as. -/
def Decimal.toBinary64 (decimal : Decimal) : Binary64 :=
  .ofDecimal false decimal.digits decimal.exponent

theorem toBinary64_stripZeros (fuel : Nat) (decimal : Decimal) :
    (stripZeros fuel decimal).toBinary64 = decimal.toBinary64 := by
  induction fuel generalizing decimal with
  | zero => rfl
  | succ fuel ih =>
    rw [stripZeros]
    split
    case isTrue h =>
      have hdigits : decimal.digits / 10 * 10 = decimal.digits :=
        Nat.div_mul_cancel (Nat.dvd_of_mod_eq_zero h.2)
      rw [ih, Decimal.toBinary64, Decimal.toBinary64, ← Binary64.ofDecimal_mul_ten, hdigits]
    case isFalse => rfl

/-! ### The decimal that is printed -/

theorem Binary64.ofRatio_ne_finite (num den : Nat) (magnitude : Magnitude) :
    ofRatio false num den ≠ .finite true magnitude := by
  unfold ofRatio
  split <;> simp

theorem Decimal.toBinary64_ne_negative (decimal : Decimal) (magnitude : Magnitude) :
    decimal.toBinary64 ≠ .finite true magnitude := by
  unfold toBinary64 Binary64.ofDecimal
  split
  · simp [Binary64.zero]
  · split
    · simp
    · split
      · simp [Binary64.zero]
      · split <;> apply Binary64.ofRatio_ne_finite

/-- A decimal that was found to read as a magnitude does. -/
theorem toBinary64_of_readsAs {magnitude : Magnitude} {decimal : Decimal}
    (h : readsAs magnitude.units decimal = true) : decimal.toBinary64 = .finite false magnitude := by
  have hsign := decimal.toBinary64_ne_negative
  unfold readsAs at h
  unfold Decimal.toBinary64 at hsign ⊢
  split at h
  · next negative found heq =>
    obtain rfl : found = magnitude := by
      cases found
      cases magnitude
      simpa using h
    cases negative with
    | false => exact heq
    | true => exact absurd heq (hsign _)
  · cases h

theorem readsAs_of_nearestAt {tie : Tie} {units : Nat} {exponent : Int} {decimal : Decimal}
    (h : nearestAt tie units exponent = some decimal) : readsAs units decimal = true := by
  unfold nearestAt at h
  generalize unitsOver units exponent = ratio at h
  obtain ⟨num, den⟩ := ratio
  simp only at h
  -- Whichever of the two decimals is taken has been tried.
  split at h <;> grind

/-- The exact expansion of a positive magnitude reads as it. -/
theorem toBinary64_exactDecimal {magnitude : Magnitude} (h : magnitude.units ≠ 0) :
    (exactDecimal magnitude.units).toBinary64 = .finite false magnitude := by
  have hfive : 0 < Nat.pow 5 unitBits := natPow_pos (by decide) unitBits
  have hdigits : magnitude.units * Nat.pow 5 unitBits ≠ 0 := Nat.mul_ne_zero h (Nat.ne_of_gt hfive)
  have hwidth : 673 < decimalWidth (magnitude.units * Nat.pow 5 unitBits) :=
    lt_decimalWidth_mul h (by decide +kernel)
  have hten : magnitude.units * Nat.pow 5 unitBits * unitsPerOne =
      magnitude.units * Nat.pow 10 unitBits := by
    unfold unitsPerOne
    generalize unitBits = bits
    rw [Nat.mul_assoc]
    exact congrArg _ (Nat.mul_pow 5 2 bits).symm
  have hplaces : unitBits ≤ decimalWidth (magnitude.units * Nat.pow 5 unitBits) + 400 := by
    simp only [unitBits] at hwidth ⊢
    omega
  have hscale := Binary64.ofRatio_mul_mul false magnitude.units 1
    (k := Nat.pow 10 unitBits) (natPow_pos (by decide) unitBits)
  rw [Nat.one_mul] at hscale
  rw [Decimal.toBinary64, exactDecimal, Binary64.ofDecimal_neg false hdigits (by decide) hplaces, hten,
    hscale, Magnitude.ofRatio_units]

/-- The shortest decimal of a positive magnitude reads as it. -/
theorem toBinary64_shortest (tie : Tie) {magnitude : Magnitude} (h : magnitude.units ≠ 0) :
    (shortest tie magnitude.units).toBinary64 = .finite false magnitude := by
  rw [shortest, toBinary64_stripZeros]
  cases hfound : (List.range 17).findSome? fun places : Nat =>
      nearestAt tie magnitude.units (decimalExponent magnitude.units - places) with
  | none => exact toBinary64_exactDecimal h
  | some decimal =>
    obtain ⟨places, -, hnear⟩ := List.exists_of_findSome?_eq_some hfound
    exact toBinary64_of_readsAs (readsAs_of_nearestAt hnear)

/-! ### Digits in full -/

theorem digitsValue_toDigits (n : Nat) : digitsValue (Nat.toDigits 10 n) = n :=
  Nat.ofDigitChars_toDigits (by decide) (by decide)

theorem digitsValue_zeros_append (zeros : Nat) (digits : List Char) :
    digitsValue (List.replicate zeros '0' ++ digits) = digitsValue digits := by
  induction zeros with
  | zero => rfl
  | succ zeros ih => exact ih

theorem digitsValue_append_zeros (digits : List Char) (zeros : Nat) :
    digitsValue (digits ++ List.replicate zeros '0') = digitsValue digits * Nat.pow 10 zeros := by
  induction zeros with
  | zero => simp
  | succ zeros ih =>
    have hstep : digitsValue (digits ++ List.replicate zeros '0' ++ ['0']) =
        10 * digitsValue (digits ++ List.replicate zeros '0') := by
      simp [digitsValue, List.foldl_append]
    rw [List.replicate_succ', ← List.append_assoc, hstep, ih, natPow_succ, Nat.mul_comm, Nat.mul_assoc]

theorem isAsciiDigit_of_mem_toDigits {n : Nat} {c : Char} (h : c ∈ Nat.toDigits 10 n) :
    isAsciiDigit c = true := by
  have hdigit := Nat.isDigit_of_mem_toDigits (by decide) (by decide) h
  simpa [isAsciiDigit, Char.isDigit, Char.le_def] using hdigit

/-- A numeral in full: digits, and digits behind a point where there are any. -/
def inFull (whole : List Char) : (fraction : List Char) → List Char
  | [] => whole
  | c :: cs => whole ++ '.' :: c :: cs

theorem inFull_of_ne_nil (whole : List Char) {fraction : List Char} (h : fraction ≠ []) :
    inFull whole fraction = whole ++ '.' :: fraction := by
  cases fraction with
  | nil => exact absurd rfl h
  | cons c cs => rfl

/-- What is true of the point and of all digits is true of all characters of a numeral in full. -/
theorem forall_mem_inFull {P : Char → Prop} {whole fraction : List Char} (hwhole : ∀ c ∈ whole, P c)
    (hpoint : P '.') (hfraction : ∀ c ∈ fraction, P c) : ∀ c ∈ inFull whole fraction, P c := by
  cases fraction with
  | nil => exact hwhole
  | cons c cs => exact List.forall_mem_append.2 ⟨hwhole, List.forall_mem_cons.2 ⟨hpoint, hfraction⟩⟩

/-- The digits of a numeral in full are ASCII digits, and some stand before the point. -/
structure Digits (whole fraction : List Char) : Prop where
  nonempty : whole ≠ []
  whole : ∀ c ∈ whole, isAsciiDigit c = true
  fraction : ∀ c ∈ fraction, isAsciiDigit c = true

/-- A numeral in full starts with a digit. -/
theorem exists_digit_of_inFull {whole fraction : List Char} (h : Digits whole fraction) :
    ∃ c cs, inFull whole fraction = c :: cs ∧ isAsciiDigit c = true := by
  obtain ⟨c, others, rfl⟩ := List.exists_cons_of_ne_nil h.nonempty
  have hc : isAsciiDigit c = true := h.whole c List.mem_cons_self
  cases fraction with
  | nil => exact ⟨c, others, rfl, hc⟩
  | cons d ds => exact ⟨c, _, rfl, hc⟩

/-- A digit in front is no sign and starts none of the words for numbers without digits. -/
theorem Binary64.readChars?_of_digit {c : Char} (h : isAsciiDigit c = true) (cs : List Char) :
    readChars? (c :: cs) = readDigits? false (c :: cs) := by
  have hsign : splitSign (c :: cs) = (false, c :: cs) := by
    unfold splitSign
    split <;> simp_all [isAsciiDigit]
  have hlower : c.toLower = c := by
    have hupper : ¬ 'A'.val ≤ c.val := by
      simp only [isAsciiDigit, Bool.and_eq_true, decide_eq_true_eq, Char.le_def] at h
      exact fun hle => absurd (UInt32.le_trans hle h.2) (by decide)
    exact dif_neg fun hletter => hupper hletter.1
  have hword (word : String) (hne : word.toList.head?.any isAsciiDigit = false) :
      String.ofList ((c :: cs).map Char.toLower) ≠ word := by
    rintro rfl
    simp [hlower, h] at hne
  simp only [readChars?, hsign, hword "nan" rfl, hword "inf" rfl, hword "infinity" rfl, or_self, if_false]

theorem splitDigits {digits : List Char} (rest : List Char) (h : ∀ c ∈ digits, isAsciiDigit c = true)
    (hrest : ∀ c ∈ rest.head?, isAsciiDigit c = false) :
    (digits ++ rest).takeWhile isAsciiDigit = digits ∧
      (digits ++ rest).dropWhile isAsciiDigit = rest := by
  rw [List.takeWhile_append_of_pos h, List.dropWhile_append_of_pos h]
  cases rest with
  | nil => simp
  | cons c cs => simp [hrest c rfl]

theorem readDigits?_inFull {whole fraction : List Char} (h : Digits whole fraction) :
    readDigits? false (inFull whole fraction) =
      some (.ofDecimal false (digitsValue (whole ++ fraction)) (-(fraction.length : Int))) := by
  have hwhole : whole.isEmpty = false := by simp [h.nonempty]
  cases fraction with
  | nil =>
    obtain ⟨htake, hdrop⟩ := splitDigits [] h.whole (by simp)
    rw [List.append_nil] at htake hdrop ⊢
    simp [readDigits?, inFull, htake, hdrop, hwhole, readExponent?]
  | cons c cs =>
    obtain ⟨htake, hdrop⟩ := splitDigits ('.' :: c :: cs) h.whole (by simp [isAsciiDigit])
    obtain ⟨hrest, hend⟩ := splitDigits [] h.fraction (by simp)
    rw [List.append_nil] at hrest hend
    simp [readDigits?, inFull, htake, hdrop, hwhole, hrest, hend, readExponent?]

/-- A numeral in full reads as the decimal of its digits. -/
theorem Binary64.readChars?_inFull {whole fraction : List Char} (h : Digits whole fraction) :
    readChars? (inFull whole fraction) =
      some (ofDecimal false (digitsValue (whole ++ fraction)) (-(fraction.length : Int))) := by
  obtain ⟨c, cs, hfull, hc⟩ := exists_digit_of_inFull h
  rw [← readDigits?_inFull h, hfull, readChars?_of_digit hc]

/-- Laying digits out in full keeps their value. -/
theorem exists_inFull_layOut {digits : List Char} (exponent : Int) (hne : digits ≠ [])
    (hascii : ∀ c ∈ digits, isAsciiDigit c = true) :
    ∃ whole fraction, Digits whole fraction ∧
      layOutInFull false digits (digits.length + exponent) = inFull whole fraction ∧
      Binary64.ofDecimal false (digitsValue (whole ++ fraction)) (-(fraction.length : Int)) =
        .ofDecimal false (digitsValue digits) exponent := by
  have hlength : 0 < digits.length := List.length_pos_iff.2 hne
  have hzeros (n : Nat) : ∀ c ∈ List.replicate n '0', isAsciiDigit c = true := by
    intro c hc
    rw [List.eq_of_mem_replicate hc]
    rfl
  unfold layOutInFull
  split
  case isTrue hpoint =>
    -- Every digit stands behind the point, after zeros.
    obtain ⟨zeros, hcount⟩ : ∃ zeros : Nat, -(digits.length + exponent) = zeros :=
      Int.eq_ofNat_of_zero_le (by omega)
    refine ⟨['0'], List.replicate zeros '0' ++ digits, ⟨by simp, hzeros 1, ?_⟩, ?_, ?_⟩
    · exact List.forall_mem_append.2 ⟨hzeros zeros, hascii⟩
    · rw [hcount, Int.toNat_natCast, inFull_of_ne_nil _ (by simp [hne])]
      rfl
    · rw [← List.append_assoc, List.singleton_append, ← List.replicate_succ, digitsValue_zeros_append,
        List.length_append, List.length_replicate]
      congr 1
      omega
  case isFalse hpoint =>
    split
    case isTrue hlong =>
      -- Every digit stands before the point, and zeros may follow.
      obtain ⟨zeros, rfl⟩ : ∃ zeros : Nat, exponent = zeros := Int.eq_ofNat_of_zero_le (by omega)
      have hcount : ((digits.length : Int) + zeros).toNat - digits.length = zeros := by omega
      refine ⟨digits ++ List.replicate zeros '0', [], ⟨by simp [hne], ?_, by simp⟩, ?_, ?_⟩
      · exact List.forall_mem_append.2 ⟨hascii, hzeros zeros⟩
      · simp [hcount, inFull]
      · rw [List.append_nil, digitsValue_append_zeros, Binary64.ofDecimal_mul_pow]
        simp
    case isFalse hshort =>
      -- The point stands among the digits.
      obtain ⟨point, hcount⟩ : ∃ point : Nat, digits.length + exponent = point :=
        Int.eq_ofNat_of_zero_le (by omega)
      rw [hcount, Int.toNat_natCast] at hshort ⊢
      refine ⟨digits.take point, digits.drop point, ⟨?_, ?_, ?_⟩, ?_, ?_⟩
      · rw [Ne, List.take_eq_nil_iff]
        exact not_or.2 ⟨by omega, hne⟩
      · exact fun c hc => hascii c (List.mem_of_mem_take hc)
      · exact fun c hc => hascii c (List.mem_of_mem_drop hc)
      · rw [inFull_of_ne_nil _ (by rw [Ne, List.drop_eq_nil_iff]; omega)]
      · rw [List.take_append_drop, List.length_drop]
        congr 1
        omega

/-- The numeral of a finite magnitude in a label is one in full, and reads as the magnitude. -/
theorem Magnitude.exists_inFull (magnitude : Magnitude) :
    ∃ whole fraction, Digits whole fraction ∧
      magnitude.numeralChars labelStyle = inFull whole fraction ∧
      Binary64.readChars? (inFull whole fraction) = some (.finite false magnitude) := by
  by_cases hzero : magnitude.units = 0
  · obtain rfl : magnitude = ⟨0, Nat.dvd_zero _, unitLimit_pos⟩ := by
      cases magnitude
      simpa using hzero
    have hdigits : Digits ['0'] [] := ⟨by simp, by simp [isAsciiDigit], by simp⟩
    exact ⟨['0'], [], hdigits, rfl, Binary64.readChars?_inFull hdigits⟩
  · let decimal := shortest .up magnitude.units
    obtain ⟨whole, fraction, hdigits, hlayOut, hvalue⟩ :=
      exists_inFull_layOut decimal.exponent (Nat.toDigits_ne_nil (b := 10) (n := decimal.digits))
        fun c => isAsciiDigit_of_mem_toDigits
    rw [digitsValue_toDigits] at hvalue
    refine ⟨whole, fraction, hdigits, ?_, ?_⟩
    · simp only [numeralChars, hzero, if_false]
      exact hlayOut
    · rw [Binary64.readChars?_inFull hdigits, hvalue]
      exact congrArg some (toBinary64_shortest .up hzero)

end PassageMarkup.Number
