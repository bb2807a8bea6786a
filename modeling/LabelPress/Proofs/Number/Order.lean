import LabelPress.Number

/-!
# The order of floating-point numbers

Two floating-point numbers compare the one way or the other, unless one of them is no number. Then
they do not compare at all, so that neither is less and neither is at least the other. To check that
a number is not less than one bound and not more than another is therefore not to check that it lies
between them (`Decimal.within_iff`): what is no number passes.

Numbers of which one may be an integer are compared exactly, and the same is true of them
(`Number.le_eq_false_iff`).
-/

namespace LabelPress.Decimal

open Float.Model (UnpackedFloat)

open Float.Model.UnpackedFloat (Sign)

theorem compare_sign_swap (s t : Sign) : compare t s = (compare s t).swap := by
  cases s <;> cases t <;> rfl

/-- Numbers are compared from either side. -/
theorem compare_swap (a b : UnpackedFloat) : b.compare a = (a.compare b).map Ordering.swap := by
  have hfinite (m n : Nat) (d e : Int) :
      (compare e d).then (compare n m) = ((compare d e).then (compare m n)).swap := by
    have hexponent : compare e d = (compare d e).swap := Std.OrientedOrd.eq_swap
    have hmantissa : compare n m = (compare m n).swap := Std.OrientedOrd.eq_swap
    rw [Ordering.swap_then, hexponent, hmantissa]
  -- by kinds and signs; only two infinite or two finite numbers of one sign need a comparison
  cases a with
  | notANumber => cases b <;> rfl
  | infinity s =>
    cases b with
    | infinity t => exact congrArg some (compare_sign_swap s t)
    | notANumber => cases s <;> rfl
    | zero t => cases s <;> cases t <;> rfl
    | finite t => cases s <;> cases t <;> rfl
  | zero s =>
    cases b with
    | infinity t => cases s <;> cases t <;> rfl
    | notANumber => rfl
    | zero t => rfl
    | finite t => cases s <;> cases t <;> rfl
  | finite s m d hm =>
    cases b with
    | infinity t => cases s <;> cases t <;> rfl
    | notANumber => cases s <;> rfl
    | zero t => cases s <;> cases t <;> rfl
    | finite t n e hn =>
      cases s with
      | positive =>
        cases t with
        | positive => exact congrArg some (hfinite m n d e)
        | negative => rfl
      | negative =>
        cases t with
        | positive => rfl
        | negative => exact congrArg (fun o => some o.swap) (hfinite m n d e)

/-- Only what is no number does not compare. -/
theorem compare_isSome {a b : UnpackedFloat} (ha : a.isNaN = false) (hb : b.isNaN = false) :
    ∃ o, a.compare b = some o := by
  -- sixteen pairs of kinds, of which those with what is no number are excluded
  cases a with
  | notANumber => cases ha
  | infinity s =>
    cases b with
    | notANumber => cases hb
    | infinity t => exact ⟨_, rfl⟩
    | zero t => cases s <;> exact ⟨_, rfl⟩
    | finite t => cases s <;> exact ⟨_, rfl⟩
  | zero s =>
    cases b with
    | notANumber => cases hb
    | infinity t => cases t <;> exact ⟨_, rfl⟩
    | zero t => exact ⟨_, rfl⟩
    | finite t => cases t <;> exact ⟨_, rfl⟩
  | finite s =>
    cases b with
    | notANumber => cases hb
    | infinity t => cases s <;> cases t <;> exact ⟨_, rfl⟩
    | zero t => cases s <;> exact ⟨_, rfl⟩
    | finite t => cases s <;> cases t <;> exact ⟨_, rfl⟩

/-- What is no number compares with nothing. -/
theorem compare_of_isNaN {a : UnpackedFloat} (ha : a.isNaN = true) (b : UnpackedFloat) :
    a.compare b = none := by
  cases a with
  | notANumber => rfl
  | infinity | zero | finite => cases ha

variable {x y low high : Float}

/-- The order of floating-point numbers is that of what they are made of. -/
theorem lt_iff : x < y ↔ x.toModel.unpack.compare y.toModel.unpack = some .lt := by
  show decide (x.toModel < y.toModel) = true ↔ _
  rw [decide_eq_true_iff]
  exact beq_iff_eq

/-- Likewise for the order that allows them to be equal. -/
theorem le_iff :
    x ≤ y ↔ ∃ o, x.toModel.unpack.compare y.toModel.unpack = some o ∧ o.isLE = true := by
  show decide (x.toModel ≤ y.toModel) = true ↔ _
  rw [decide_eq_true_iff]
  exact Option.any_eq_true _ _

/-- Of two numbers the one is less, or the other is not. -/
theorem not_lt_iff (hx : x.isNaN = false) (hy : y.isNaN = false) : ¬ x < y ↔ y ≤ x := by
  obtain ⟨o, ho⟩ := compare_isSome hy hx
  rw [lt_iff, le_iff, compare_swap y.toModel.unpack, ho]
  cases o <;> simp

theorem not_lt_of_isNaN (hx : x.isNaN = true) : ¬ x < y ∧ ¬ y < x := by
  have hnone : x.toModel.unpack.compare y.toModel.unpack = none := compare_of_isNaN hx _
  rw [lt_iff, lt_iff, compare_swap x.toModel.unpack, hnone]
  simp

/-- What is neither too small nor too large lies between the bounds, or is no number. -/
theorem within_iff (hlow : low.isNaN = false) (hhigh : high.isNaN = false) :
    (x < low || high < x) = false ↔ x.isNaN = true ∨ (low ≤ x ∧ x ≤ high) := by
  rw [Bool.or_eq_false_iff, decide_eq_false_iff_not, decide_eq_false_iff_not]
  cases hx : x.isNaN with
  | true =>
    obtain ⟨hless, -⟩ := not_lt_of_isNaN (y := low) hx
    obtain ⟨-, hmore⟩ := not_lt_of_isNaN (y := high) hx
    exact iff_of_true ⟨hless, hmore⟩ (.inl rfl)
  | false =>
    rw [not_lt_iff hx hlow, not_lt_iff hhigh hx]
    simp

/-! ## Numbers compared exactly -/

open Float.Model.UnpackedFloat (unpackExponent unpackMantissa)

/-- The exponent is eleven bits above the mantissa. -/
theorem toNat_exponent (b : BitVec 64) :
    (@unpackExponent .binary64 b).toNat = b.toNat / Nat.pow 2 52 % Nat.pow 2 11 := by
  simp [unpackExponent, Nat.shiftRight_eq_div_pow]

/-- The mantissa is the low fifty-two bits. -/
theorem toNat_mantissa (b : BitVec 64) :
    (@unpackMantissa .binary64 b).toNat = b.toNat % Nat.pow 2 52 := by
  simp [unpackMantissa]

/-- The exponent of what is infinite or no number. -/
theorem exponent_eq_ones {b : BitVec 64} :
    @unpackExponent .binary64 b = -1#_ ↔ b.toNat / Nat.pow 2 52 % Nat.pow 2 11 = 2047 := by
  rw [← BitVec.toNat_inj, toNat_exponent]
  rfl

theorem mantissa_eq_zero {b : BitVec 64} :
    @unpackMantissa .binary64 b = 0#_ ↔ b.toNat % Nat.pow 2 52 = 0 := by
  rw [← BitVec.toNat_inj, toNat_mantissa]
  rfl

/-- What is no number has all bits of the exponent, and one of the mantissa. -/
theorem isNaN_unpack {b : BitVec 64} :
    (UnpackedFloat.unpack .binary64 b).isNaN = true ↔
      b.toNat / Nat.pow 2 52 % Nat.pow 2 11 = 2047 ∧ b.toNat % Nat.pow 2 52 ≠ 0 := by
  rw [Ne, ← exponent_eq_ones, ← mantissa_eq_zero]
  unfold UnpackedFloat.unpack
  -- the exponent of ones is kept for infinities and for what is no number
  by_cases hones : @unpackExponent .binary64 b = -1#_
  · rw [if_pos hones]
    by_cases hzero : @unpackMantissa .binary64 b = 0#_
    · rw [if_pos hzero]
      exact iff_of_false Bool.false_ne_true fun h => h.2 hzero
    · rw [if_neg hzero]
      exact iff_of_true rfl ⟨hones, hzero⟩
  · rw [if_neg hones]
    refine iff_of_false ?_ fun h => hones h.1
    by_cases hleast : @unpackExponent .binary64 b = 0#_
    · rw [if_pos hleast]
      by_cases hzero : @unpackMantissa .binary64 b = 0#_
      · rw [dif_pos hzero]
        exact Bool.false_ne_true
      · rw [dif_neg hzero]
        exact Bool.false_ne_true
    · rw [if_neg hleast]
      exact Bool.false_ne_true

/-- Exactly the floating-point numbers that are no numbers have no exact value. -/
theorem ofFloat_eq_nan {x : Float} : Binary.ofFloat x = .nan ↔ x.isNaN = true := by
  have hunpack : x.isNaN = (UnpackedFloat.unpack .binary64 x.toBits.toBitVec).isNaN := rfl
  have hbits : x.toBits.toNat = x.toBits.toBitVec.toNat := rfl
  rw [hunpack, isNaN_unpack, ← hbits]
  unfold Binary.ofFloat
  simp only
  split
  · split <;> simp_all
  · split <;> simp_all

namespace Binary

variable {a b : Binary}

/-- Two exact values compare in either direction. -/
theorem compare?_swap (a b : Binary) : b.compare? a = (a.compare? b).map Ordering.swap := by
  cases a with
  | nan => cases b <;> rfl
  | infinite s =>
    cases b with
    | nan => rfl
    | infinite t => cases s <;> cases t <;> rfl
    | finite t n q => cases s <;> rfl
  | finite s m p =>
    cases b with
    | nan => rfl
    | infinite t => cases t <;> rfl
    | finite t n q =>
      -- both are written with the lesser of their exponents, whichever comes first
      simp only [compare?]
      rw [Int.min_comm q p]
      exact congrArg some Std.OrientedOrd.eq_swap

theorem compare?_eq_none : a.compare? b = none ↔ a = .nan ∨ b = .nan := by
  cases a <;> cases b <;> simp [compare?]

end Binary

end LabelPress.Decimal

namespace LabelPress.Number

variable {m n : Number}

/-- Whole numbers are in their usual order. -/
theorem lt_int (a b : Int) : lt (.int a) (.int b) = decide (a < b) := by
  have hside (n : Int) : (if n < 0 then -(n.natAbs : Int) else n.natAbs) = n := by
    split <;> omega
  have hpow : Nat.pow 2 0 = 1 := rfl
  unfold lt exact Decimal.Binary.compare?
  simp only [Int.min_self, Int.sub_self, Int.toNat_zero, hpow, Nat.mul_one, decide_eq_true_eq,
    hside]
  rw [Bool.eq_iff_iff, beq_iff_eq, Option.some.injEq, Std.compare_eq_lt, decide_eq_true_eq]

theorem exact_eq_nan : n.exact = .nan ↔ n.isNaN = true := by
  cases n with
  | int n => simp [exact, isNaN]
  | float x => exact Decimal.ofFloat_eq_nan

/-- A number is not at most another one if that one is less, or one of them is no number. -/
theorem le_eq_false_iff :
    n.le m = false ↔ n.isNaN = true ∨ m.isNaN = true ∨ m.lt n = true := by
  rw [← exact_eq_nan, ← exact_eq_nan, ← or_assoc, ← Decimal.Binary.compare?_eq_none]
  unfold le lt
  rw [Decimal.Binary.compare?_swap n.exact m.exact]
  cases h : n.exact.compare? m.exact with
  | none => simp
  | some o => cases o <;> simp

/-- Nothing is less than what is no number. -/
theorem lt_eq_false_of_isNaN (hn : n.isNaN = true) : m.lt n = false := by
  have hnone : m.exact.compare? n.exact = none :=
    Decimal.Binary.compare?_eq_none.2 (.inr (exact_eq_nan.2 hn))
  unfold lt
  rw [hnone]
  rfl

end LabelPress.Number
