import LabelPress.Label.Basic
import LabelPress.Proofs.Number.Order
import LabelPress.Settings

/-!
# Dots at the resolution of a printer

A number of dots can be converted to millimetres at every resolution that printers have, however the
resolution is written: `8` and `8.0` are one resolution (`Number.dividedBy_of_resolution`). This
rests on two facts about floating-point numbers:

* `Decimal.beq_zero_of_compare`: a number that equals a positive integer does not count as zero;
* `Decimal.nearest?_isSome`: an integer of at most 53 binary digits is such a number.

No dots are no millimetres, and this zero has no sign (`Number.zero_dividedBy_of_resolution`): a
number that equals a positive integer is finite and positive (`Decimal.unpack_of_compare`).
-/

namespace LabelPress

namespace Decimal

open Float.Model (UnpackedFloat)

open Float.Model.UnpackedFloat (Sign unpackExponent unpackMantissa unpackSign)

/-! ## Zeros -/

/-- Only zeros compare equal to zero. -/
theorem zero_of_beq_zero {m : UnpackedFloat} {s : Sign} (h : m.beq (.zero s) = true) :
    ∃ t, m = .zero t := by
  cases m with
  | zero t => exact ⟨t, rfl⟩
  | notANumber => cases h
  | infinity t => cases t <;> cases h
  | finite t mantissa exponent hpos => cases t <;> cases h

/-- A zero is a zero whatever its sign: neither exponent nor mantissa has a bit. -/
theorem fields_of_unpack_zero {b : BitVec 64} {s : Sign}
    (h : UnpackedFloat.unpack .binary64 b = .zero s) :
    b.toNat / Nat.pow 2 52 % Nat.pow 2 11 = 0 ∧ b.toNat % Nat.pow 2 52 = 0 := by
  have hzero : @unpackExponent .binary64 b = 0#_ ∧ @unpackMantissa .binary64 b = 0#_ := by
    unfold UnpackedFloat.unpack at h
    -- an exponent of ones is infinite or no number, and any other but zero makes a normal one
    by_cases hones : @unpackExponent .binary64 b = -1#_
    · rw [if_pos hones] at h
      by_cases hmantissa : @unpackMantissa .binary64 b = 0#_
      · rw [if_pos hmantissa] at h
        cases h
      · rw [if_neg hmantissa] at h
        cases h
    · rw [if_neg hones] at h
      by_cases hexponent : @unpackExponent .binary64 b = 0#_
      · rw [if_pos hexponent] at h
        by_cases hmantissa : @unpackMantissa .binary64 b = 0#_
        · exact ⟨hexponent, hmantissa⟩
        · rw [dif_neg hmantissa] at h
          cases h
      · rw [if_neg hexponent] at h
        cases h
  obtain ⟨hexponent, hmantissa⟩ := hzero
  refine ⟨?_, mantissa_eq_zero.1 hmantissa⟩
  rw [← toNat_exponent, hexponent]
  rfl

/-- What equals zero is zero, of either sign. -/
theorem ofFloat_of_beq_zero {x : Float} (h : (x == 0.0) = true) :
    ∃ negative, Binary.ofFloat x = .finite negative 0 (-1074) := by
  have hbeq : x.toModel.unpack.beq (Float.toModel 0.0).unpack = true := h
  have hzero : (Float.toModel 0.0).unpack = .zero .positive := rfl
  rw [hzero] at hbeq
  obtain ⟨s, hs⟩ := zero_of_beq_zero hbeq
  obtain ⟨hexponent, hfraction⟩ := fields_of_unpack_zero hs
  have hbits : x.toBits.toNat = x.toModel.toBits.toBitVec.toNat := rfl
  refine ⟨decide (Nat.pow 2 63 ≤ x.toBits.toNat), ?_⟩
  unfold Binary.ofFloat
  rw [← hbits] at hexponent hfraction
  simp only [hexponent, hfraction]
  rfl

theorem eq_zero_of_compare_zero {n : Nat} {negative : Bool} {q : Int}
    (h : Binary.compare? (.finite negative 0 q) (.finite false n 0) = some .eq) : n = 0 := by
  unfold Binary.compare? at h
  have hpow : 0 < Nat.pow 2 (0 - min q 0).toNat := Nat.pow_pos (by decide)
  simp only [Nat.zero_mul, Option.some.injEq, Std.LawfulEqCmp.compare_eq_iff_eq] at h
  have hsize : ((n * Nat.pow 2 (0 - min q 0).toNat : Nat) : Int) = 0 := by
    cases negative <;> exact h.symm
  exact (Nat.mul_eq_zero.1 (Int.natCast_eq_zero.1 hsize)).resolve_right (Nat.ne_of_gt hpow)

/-- A number that equals a positive integer is not zero. -/
theorem beq_zero_of_compare {x : Float} {n : Nat} (hn : 0 < n)
    (h : Binary.compare? (.ofFloat x) (.finite false n 0) = some .eq) : (x == 0.0) = false := by
  rw [← Bool.not_eq_true]
  intro hzero
  obtain ⟨negative, hx⟩ := ofFloat_of_beq_zero hzero
  rw [hx] at h
  exact absurd (eq_zero_of_compare_zero h) (Nat.ne_of_gt hn)

/-! ## Signs -/

/-- What equals a positive whole number is positive. -/
theorem not_negative_of_compare {m n : Nat} {negative : Bool} {p : Int} (hn : 0 < n)
    (h : Binary.compare? (.finite negative m p) (.finite false n 0) = some .eq) :
    negative = false := by
  cases negative with
  | false => rfl
  | true =>
    exfalso
    unfold Binary.compare? at h
    have hpow : 0 < Nat.pow 2 (0 - min p 0).toNat := Nat.pow_pos (by decide)
    have hpos := Nat.mul_pos hn hpow
    simp only [if_true, Bool.false_eq_true, if_false, Option.some.injEq,
      Std.LawfulEqCmp.compare_eq_iff_eq] at h
    omega

/-- The bits of a number that equals a positive integer: it is finite, and has no sign. -/
theorem bits_of_compare {x : Float} {n : Nat} (hn : 0 < n)
    (h : Binary.compare? (.ofFloat x) (.finite false n 0) = some .eq) :
    x.toBits.toNat / Nat.pow 2 52 % Nat.pow 2 11 ≠ 2047 ∧ x.toBits.toNat < Nat.pow 2 63 := by
  unfold Binary.ofFloat at h
  simp only at h
  split at h
  · split at h
    · cases hsign : decide (Nat.pow 2 63 ≤ x.toBits.toNat) <;> rw [hsign] at h <;> cases h
    · cases h
  · next hfinite =>
    refine ⟨hfinite, Nat.not_le.1 ?_⟩
    split at h <;> exact of_decide_eq_false (not_negative_of_compare hn h)

/-- The highest bit is the sign. -/
theorem sign_of_lt {b : BitVec 64} (h : b.toNat < Nat.pow 2 63) :
    Sign.ofBitVec (@unpackSign .binary64 b) = .positive := by
  have hlt : b.toNat < 9223372036854775808 := h
  have hbit : @unpackSign .binary64 b = 0#1 := by
    apply BitVec.eq_of_toNat_eq
    have hsign : (@unpackSign .binary64 b).toNat = b.toNat / 9223372036854775808 % 2 := by
      change (b.extractLsb 63 63).toNat = _
      simp [Nat.shiftRight_eq_div_pow]
    rw [hsign, Nat.div_eq_of_lt hlt]
    rfl
  unfold Sign.ofBitVec
  rw [if_pos hbit]

/-- A number that equals a positive integer is finite and positive. -/
theorem unpack_of_compare {x : Float} {n : Nat} (hn : 0 < n)
    (h : Binary.compare? (.ofFloat x) (.finite false n 0) = some .eq) :
    ∃ m e hm, x.toModel.unpack = .finite .positive m e hm := by
  obtain ⟨hexponent, hsign⟩ := bits_of_compare hn h
  have hzero : ∀ s, x.toModel.unpack ≠ .zero s := by
    intro s hs
    have hbeq : (x == 0.0) = x.toModel.unpack.beq (Float.toModel 0.0).unpack := rfl
    rw [beq_zero_of_compare hn h, hs] at hbeq
    cases s <;> cases hbeq
  have hones : @unpackExponent .binary64 x.toBits.toBitVec ≠ -1#_ :=
    fun hones => hexponent (exponent_eq_ones.1 hones)
  have hunpack : x.toModel.unpack = UnpackedFloat.unpack .binary64 x.toBits.toBitVec := rfl
  have hfinite {m : Nat} {e : Int} {hm : 0 < m} (h : x.toModel.unpack = .finite .positive m e hm) :
      ∃ m e hm, x.toModel.unpack = .finite .positive m e hm := ⟨m, e, hm, h⟩
  unfold UnpackedFloat.unpack at hunpack
  rw [if_neg hones, sign_of_lt hsign] at hunpack
  -- the least exponent is that of zeros and of the smallest numbers
  by_cases hleast : @unpackExponent .binary64 x.toBits.toBitVec = 0#_
  · rw [if_pos hleast] at hunpack
    by_cases hmantissa : @unpackMantissa .binary64 x.toBits.toBitVec = 0#_
    · rw [dif_pos hmantissa] at hunpack
      exact absurd hunpack (hzero _)
    · rw [dif_neg hmantissa] at hunpack
      exact hfinite hunpack
  · rw [if_neg hleast] at hunpack
    exact hfinite hunpack

/-- Nothing, divided by what equals a positive integer, is nothing. -/
theorem zero_div_of_compare {x : Float} {n : Nat} (hn : 0 < n)
    (h : Binary.compare? (.ofFloat x) (.finite false n 0) = some .eq) : 0.0 / x = 0.0 := by
  obtain ⟨m, e, hm, hx⟩ := unpack_of_compare hn h
  have hdiv : 0.0 / x = .ofModel (.pack
      (UnpackedFloat.div .binary64 (Float.toModel 0.0).unpack x.toModel.unpack)) := rfl
  rw [hdiv, hx]
  rfl

/-! ## Integers as floating-point numbers -/

theorem roundDiv_le (num den : Nat) : roundDiv num den ≤ num / den + 1 := by
  unfold roundDiv
  simp only
  split <;> omega

/-- A scaled integer keeps within 54 binary digits if the exponent takes all but 53 away. -/
theorem scaled_lt {n k : Nat} {e : Int} (hn : n < Nat.pow 2 (k + 1)) (hk : k ≤ 53)
    (he : (k : Int) - 53 ≤ e) : n * (twoPow e).2 / (1 * (twoPow e).1) < Nat.pow 2 54 := by
  unfold twoPow
  -- the integer is divided by a power of two if the exponent is positive, and multiplied otherwise
  split
  · have hdiv : n * 1 / (1 * Nat.pow 2 e.toNat) ≤ n := by
      rw [Nat.mul_one]
      exact Nat.div_le_self _ _
    have hpow : Nat.pow 2 (k + 1) ≤ Nat.pow 2 54 := Nat.pow_le_pow_right (by decide) (by omega)
    exact Nat.lt_of_le_of_lt hdiv (Nat.lt_of_lt_of_le hn hpow)
  · have hmul : n * Nat.pow 2 (-e).toNat < Nat.pow 2 (k + 1) * Nat.pow 2 (-e).toNat :=
      Nat.mul_lt_mul_of_pos_right hn (Nat.pow_pos (by decide))
    have hpow : Nat.pow 2 (k + 1) * Nat.pow 2 (-e).toNat ≤ Nat.pow 2 54 := by
      show 2 ^ (k + 1) * 2 ^ (-e).toNat ≤ 2 ^ 54
      rw [← Nat.pow_add]
      exact Nat.pow_le_pow_right (by decide) (by omega)
    rw [Nat.mul_one, Nat.div_one]
    exact Nat.lt_of_lt_of_le hmul hpow

/-- An integer of at most 53 binary digits is a floating-point number. -/
theorem nearest?_isSome {n : Nat} (h : n ≤ Nat.pow 2 53) : ∃ x, nearest? n 1 = some x := by
  unfold nearest?
  split
  · exact ⟨_, rfl⟩
  · next hzero =>
    have hlog : n.log2 ≤ 53 := by
      rw [← Nat.lt_succ_iff, Nat.log2_lt hzero]
      exact Nat.lt_of_le_of_lt h (by decide)
    simp only
    -- the bits are bounded through the exponent and the mantissa, whatever these are exactly
    generalize hguess : max ((n.log2 : Int) - (Nat.log2 1 : Nat) - 52) (-1074) = guess
    generalize hexponent : (if scaledFloor n 1 guess < Nat.pow 2 52 then max (guess - 1) (-1074)
      else guess) = e
    generalize hmantissa : roundDiv (n * (twoPow e).2) (1 * (twoPow e).1) = m
    have hone : Nat.log2 1 = 0 := by decide
    have he : (n.log2 : Int) - 53 ≤ e ∧ e ≤ 1 := by
      rw [hone] at hguess
      split at hexponent <;> omega
    have hm : m ≤ Nat.pow 2 54 := by
      rw [← hmantissa]
      exact Nat.le_trans (roundDiv_le _ _) (scaled_lt Nat.lt_log2_self hlog he.1)
    have hbits : (if m < Nat.pow 2 52 then m
        else ((e + 1074) * Nat.pow 2 52 + m).toNat) < 2047 * Nat.pow 2 52 := by
      rw [show Nat.pow 2 54 = 18014398509481984 from rfl] at hm
      rw [show Nat.pow 2 52 = 4503599627370496 from rfl]
      split <;> omega
    exact ⟨_, if_pos hbits⟩

end Decimal

namespace Number

/-- Small whole numbers are floating-point numbers. -/
theorem toFloat_of_isSmall {n : Int} (h : isSmall n = true) : ∃ x, toFloat (.int n) = .ok x := by
  obtain ⟨x, hx⟩ := Decimal.nearest?_isSome (of_decide_eq_true h)
  refine ⟨if n < 0 then -x else x, ?_⟩
  unfold toFloat
  simp only [hx]

/-- Equal integers are the same. -/
theorem eq_of_same_int {a : Int} {n : Nat} (h : same (.int a) (.int n) = true) : a = n := by
  simp only [same, exact, Decimal.Binary.compare?, beq_iff_eq, Option.some.injEq,
    Std.LawfulEqCmp.compare_eq_iff_eq, decide_eq_true_eq, Int.min_self, Int.sub_self,
    Int.toNat_zero] at h
  rw [show Nat.pow 2 0 = 1 from rfl] at h
  omega

/-- Equal numbers have the same exact value. -/
theorem compare_of_same {x : Float} {m : Nat} (h : same (.float x) (.int m) = true) :
    Decimal.Binary.compare? (.ofFloat x) (.finite false m 0) = some .eq := by
  have hexact : exact (.int m) = .finite false m 0 := by
    unfold exact
    simp
  rw [← hexact]
  exact beq_iff_eq.1 h

/-- The resolutions of printers are small positive integers. -/
theorem exists_of_resolution {r : Number} (hr : Settings.resolutions.any r.same = true) :
    ∃ m : Nat, 0 < m ∧ m ≤ 24 ∧ same r (.int m) = true := by
  obtain ⟨k, hk, hsame⟩ := List.any_eq_true.1 hr
  simp only [Settings.resolutions, List.mem_cons, List.not_mem_nil, or_false] at hk
  rcases hk with rfl | rfl | rfl | rfl
  · exact ⟨6, by decide, by decide, hsame⟩
  · exact ⟨8, by decide, by decide, hsame⟩
  · exact ⟨12, by decide, by decide, hsame⟩
  · exact ⟨24, by decide, by decide, hsame⟩

/-- An integer is divided by a small positive one. -/
theorem dividedBy_int {n : Int} {m : Nat} (hn : isSmall n = true) (hpos : 0 < m) (hle : m ≤ 24) :
    dividedBy (.int n) (.int m) = .ok (Float.ofInt n / Float.ofInt m) := by
  have hzero : (m : Int) ≠ 0 := by omega
  have hsmall : (isSmall n && isSmall m) = true := by
    rw [hn, Bool.true_and]
    exact decide_eq_true (Nat.le_trans hle (by decide))
  unfold dividedBy
  simp only [if_neg hzero, hsmall, if_true]

/-- An integer is divided by a floating-point number that equals a positive integer. -/
theorem dividedBy_float {n : Int} {m : Nat} {x y : Float} (hn : toFloat (.int n) = .ok y)
    (hpos : 0 < m) (hsame : same (.float x) (.int m) = true) :
    dividedBy (.int n) (.float x) = .ok (y / x) := by
  have hnot : (x == 0.0) = false := Decimal.beq_zero_of_compare hpos (compare_of_same hsame)
  have hquotient : dividedBy (.int n) (.float x) = (do
      let y ← toFloat (.int n)
      if x == 0.0 then .error .divisionByZero else .ok (y / x)) := rfl
  rw [hquotient, hn]
  exact if_neg (by simp [hnot])

/-- A number of dots can be converted at the resolution of every printer. -/
theorem dividedBy_of_resolution {r : Number} {n : Int} (hn : isSmall n = true)
    (hr : Settings.resolutions.any r.same = true) : ∃ x, dividedBy (.int n) r = .ok x := by
  obtain ⟨m, hpos, hle, hsame⟩ := exists_of_resolution hr
  cases r with
  | int b =>
    obtain rfl := eq_of_same_int hsame
    exact ⟨_, dividedBy_int hn hpos hle⟩
  | float x =>
    obtain ⟨y, hy⟩ := toFloat_of_isSmall hn
    exact ⟨_, dividedBy_float hy hpos hsame⟩

/-- No dots are no millimetres at the resolution of every printer. -/
theorem zero_dividedBy_of_resolution {r : Number} (hr : Settings.resolutions.any r.same = true) :
    dividedBy (.int 0) r = .ok 0.0 := by
  cases r with
  | int b =>
    obtain ⟨k, hk, hsame⟩ := List.any_eq_true.1 hr
    simp only [Settings.resolutions, List.mem_cons, List.not_mem_nil, or_false] at hk
    rcases hk with rfl | rfl | rfl | rfl <;> obtain rfl := eq_of_same_int hsame <;> rfl
  | float x =>
    obtain ⟨m, hpos, -, hsame⟩ := exists_of_resolution hr
    rw [dividedBy_float (y := 0.0) rfl hpos hsame]
    exact congrArg Except.ok (Decimal.zero_div_of_compare hpos (compare_of_same hsame))

end Number

end LabelPress
