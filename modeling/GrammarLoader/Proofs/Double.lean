import GrammarLoader.Double
import Mathlib.Data.Nat.Dist
import Mathlib.Tactic.Ring

/-!
# Rounding to doubles

A ratio is rounded to the finite number that is nearest to it, to the even one if two are. There is
only one such number, so equal ratios are rounded alike, and a finite number is rounded to itself.
The shortest decimal that is looked for around a number is rounded to it as well.
-/

namespace GrammarLoader

section Division

/-! ## Division to the nearest integer -/

/-- The integer below if the rest is less than a half, the one above if it is more, and the even one
of them at a half. -/
theorem roundDiv_cases (n d : Nat) :
    roundDiv n d = n / d ∧ (2 * (n % d) < d ∨ 2 * (n % d) = d ∧ n / d % 2 = 0) ∨
      roundDiv n d = n / d + 1 ∧ (d < 2 * (n % d) ∨ 2 * (n % d) = d ∧ (n / d + 1) % 2 = 0) := by
  unfold roundDiv
  dsimp only
  split
  · rename_i h
    simp only [Bool.or_eq_true, decide_eq_true_eq, Bool.and_eq_true, beq_iff_eq] at h
    exact .inr ⟨rfl, by omega⟩
  · rename_i h
    simp only [Bool.or_eq_true, decide_eq_true_eq, Bool.and_eq_true, beq_iff_eq] at h
    exact .inl ⟨rfl, by omega⟩

theorem roundDiv_bounds (n d : Nat) : n / d ≤ roundDiv n d ∧ roundDiv n d ≤ n / d + 1 := by
  obtain ⟨h, -⟩ | ⟨h, -⟩ := roundDiv_cases n d <;> omega

/-- Another integer is one of the two next to a quotient, or a step beyond them. -/
theorem multiple_cases (n d m : Nat) : d * m + d ≤ d * (n / d) ∨ m = n / d ∨ m = n / d + 1 ∨
    d * (n / d + 1) + d ≤ d * m := by
  obtain hm | hm | hm | hm : m + 1 ≤ n / d ∨ m = n / d ∨ m = n / d + 1 ∨ n / d + 1 + 1 ≤ m := by
    omega
  · exact .inl (Nat.mul_le_mul_left d hm)
  · exact .inr (.inl hm)
  · exact .inr (.inr (.inl hm))
  · exact .inr (.inr (.inr (Nat.mul_le_mul_left d hm)))

/-- No integer is nearer to a quotient, and only to an even one another is as near. -/
theorem roundDiv_nearest {d : Nat} (hd : 0 < d) (n m : Nat) :
    Nat.dist n (d * roundDiv n d) ≤ Nat.dist n (d * m) ∧
      (Nat.dist n (d * roundDiv n d) = Nat.dist n (d * m) → m ≠ roundDiv n d →
        roundDiv n d % 2 = 0) := by
  have hsplit : d * (n / d) + n % d = n := Nat.div_add_mod n d
  have hrest : n % d < d := Nat.mod_lt n hd
  have hnext : d * (n / d + 1) = d * (n / d) + d := Nat.mul_succ d (n / d)
  unfold Nat.dist
  obtain hm | rfl | rfl | hm := multiple_cases n d m <;>
    obtain ⟨hr, h⟩ | ⟨hr, h⟩ := roundDiv_cases n d <;>
    rw [hr] <;> exact ⟨by omega, by omega⟩

end Division

namespace Double

section Places

/-! ## Places and multiples -/

theorem power_pos (k : Nat) : 0 < Nat.pow 2 k := Nat.pow_pos (by decide)

theorem perBinade_pos : 0 < perBinade := power_pos 52

theorem one_pos : 0 < one := by decide +kernel

theorem multiple_of_lt {place : Nat} (h : place < perBinade) : multiple place = place := by
  rw [multiple, Nat.div_eq_of_lt h, Nat.mod_eq_of_lt h]

theorem multiple_binade {binade fraction : Nat} (h : fraction < perBinade) :
    multiple ((binade + 1) * perBinade + fraction) =
      (perBinade + fraction) * Nat.pow 2 binade := by
  have hquotient : ((binade + 1) * perBinade + fraction) / perBinade = binade + 1 := by
    rw [Nat.mul_comm, Nat.mul_add_div perBinade_pos, Nat.div_eq_of_lt h, Nat.add_zero]
  have hrest : ((binade + 1) * perBinade + fraction) % perBinade = fraction := by
    rw [Nat.mul_comm, Nat.mul_add_mod, Nat.mod_eq_of_lt h]
  rw [multiple, hquotient, hrest]

/-- A place by the digits that are dropped and those that are kept. The numbers below the first
power of two drop none; the power of two that ends a binade belongs to the next one too. -/
theorem multiple_add {dropped kept : Nat} (hk : kept ≤ 2 * perBinade)
    (hd : dropped = 0 ∨ perBinade ≤ kept) :
    multiple (dropped * perBinade + kept) = kept * Nat.pow 2 dropped := by
  obtain hlow | hhigh := Nat.lt_or_ge kept perBinade
  · obtain rfl : dropped = 0 := by omega
    rw [Nat.zero_mul, Nat.zero_add, multiple_of_lt hlow]
    exact (Nat.mul_one kept).symm
  · obtain ⟨fraction, rfl⟩ := Nat.exists_eq_add_of_le hhigh
    obtain hlt | rfl : fraction < perBinade ∨ fraction = perBinade := by omega
    · rw [← Nat.add_assoc, ← Nat.succ_mul, multiple_binade hlt]
    · have hplace : dropped * perBinade + (perBinade + perBinade) =
          (dropped + 1 + 1) * perBinade + 0 := by ring
      rw [hplace, multiple_binade perBinade_pos, Nat.pow_eq, Nat.pow_eq, pow_succ]
      ring

/-- Every place has such a form. -/
theorem exists_kept (place : Nat) : ∃ dropped kept, place = dropped * perBinade + kept ∧
    kept < 2 * perBinade ∧ (dropped = 0 ∨ perBinade ≤ kept) := by
  obtain hlow | hhigh := Nat.lt_or_ge place (2 * perBinade)
  · exact ⟨0, place, by omega, hlow, .inl rfl⟩
  · have hsplit := Nat.div_add_mod place perBinade
    have hrest := Nat.mod_lt place perBinade_pos
    have hquotient : 2 ≤ place / perBinade := (Nat.le_div_iff_mul_le perBinade_pos).mpr hhigh
    obtain ⟨binade, hbinade⟩ := Nat.exists_eq_add_of_le hquotient
    refine ⟨binade + 1, perBinade + place % perBinade, ?_, by omega, .inr (Nat.le_add_right _ _)⟩
    rw [hbinade] at hsplit
    calc place = perBinade * (2 + binade) + place % perBinade := hsplit.symm
      _ = (binade + 1) * perBinade + (perBinade + place % perBinade) := by ring

theorem multiple_strictMono : StrictMono multiple := by
  refine strictMono_nat_of_lt_succ fun place => ?_
  obtain ⟨binade, digits, rfl, hdigits, hbinade⟩ := exists_kept place
  have hbinade' : binade = 0 ∨ perBinade ≤ digits + 1 := hbinade.imp_right Nat.le_succ_of_le
  rw [Nat.add_assoc, multiple_add hdigits.le hbinade, multiple_add hdigits hbinade']
  exact (Nat.mul_lt_mul_right (power_pos binade)).mpr digits.lt_succ_self

end Places

section Rounding

/-! ## The place of a ratio -/

/-- How many binary digits of a ratio are dropped. -/
def dropped (n d : Nat) : Nat := (n * one / d).log2 - 52

/-- The binary digits that are kept, the last one rounded. -/
def kept (n d : Nat) : Nat := roundDiv (n * one) (d * Nat.pow 2 (dropped n d))

variable {n d : Nat}

theorem placeOf_eq (n d : Nat) : placeOf n d = dropped n d * perBinade + kept n d := rfl

theorem kept_le (n d : Nat) : kept n d ≤ 2 * perBinade := by
  have hrounded : kept n d ≤ _ := (roundDiv_bounds (n * one) (d * Nat.pow 2 (dropped n d))).2
  have hquotient : n * one / (d * Nat.pow 2 (dropped n d)) < 2 * perBinade := by
    rw [← Nat.div_div_eq_div_mul, Nat.div_lt_iff_lt_mul (power_pos _)]
    have hle : (n * one / d).log2 + 1 ≤ 53 + dropped n d := by
      unfold dropped
      omega
    calc n * one / d < 2 ^ ((n * one / d).log2 + 1) := Nat.lt_log2_self
      _ ≤ 2 ^ (53 + dropped n d) := Nat.pow_le_pow_right (by decide) hle
      _ = 2 * perBinade * Nat.pow 2 (dropped n d) := by
        rw [perBinade, Nat.pow_eq, Nat.pow_eq, pow_add]
        ring
  omega

/-- A ratio of which digits are dropped reaches the binade that it is rounded in. -/
theorem le_scaled (hd : 0 < d) (h : dropped n d ≠ 0) :
    d * (perBinade * Nat.pow 2 (dropped n d)) ≤ n * one := by
  have hlog : (n * one / d).log2 = 52 + dropped n d := by
    unfold dropped at h ⊢
    omega
  have hne : n * one / d ≠ 0 := by
    intro hzero
    rw [hzero, Nat.log2_zero] at hlog
    omega
  rw [Nat.mul_comm d, ← Nat.le_div_iff_mul_le hd]
  calc perBinade * Nat.pow 2 (dropped n d) = 2 ^ (n * one / d).log2 := by
        rw [perBinade, Nat.pow_eq, Nat.pow_eq, hlog, pow_add]
    _ ≤ n * one / d := Nat.log2_self_le hne

theorem le_kept (hd : 0 < d) : dropped n d = 0 ∨ perBinade ≤ kept n d := by
  refine or_iff_not_imp_left.mpr fun h => ?_
  have hdivisor : 0 < d * Nat.pow 2 (dropped n d) := Nat.mul_pos hd (power_pos _)
  refine Nat.le_trans ?_ (roundDiv_bounds _ _).1
  rw [Nat.le_div_iff_mul_le hdivisor]
  calc perBinade * (d * Nat.pow 2 (dropped n d))
      = d * (perBinade * Nat.pow 2 (dropped n d)) := by ring
    _ ≤ n * one := le_scaled hd h

theorem multiple_placeOf (hd : 0 < d) :
    multiple (placeOf n d) = kept n d * Nat.pow 2 (dropped n d) :=
  multiple_add (kept_le n d) (le_kept hd)

end Rounding

section Nearest

/-! ## The nearest number -/

variable {n d : Nat}

/-- How far a ratio is from a number, the ratio being `n * one / d` parts of the least one. -/
def distance (n d place : Nat) : Nat := Nat.dist (n * one) (d * multiple place)

/-- A place is nearest to a ratio, and it is even if another one is as near. -/
structure IsNearest (n d place : Nat) : Prop where
  nearest : ∀ other, distance n d place ≤ distance n d other
  even : ∀ other, other ≠ place → distance n d place = distance n d other → place % 2 = 0

/-- No number is nearer to a ratio than all those that drop as many digits as the ratio does. -/
theorem exists_near (hd : 0 < d) (other : Nat) : ∃ digits,
    Nat.dist (n * one) (d * Nat.pow 2 (dropped n d) * digits) ≤ distance n d other ∧
      (Nat.dist (n * one) (d * Nat.pow 2 (dropped n d) * digits) = distance n d other →
        multiple other = digits * Nat.pow 2 (dropped n d)) := by
  obtain ⟨binade, digits, rfl, hdigits, hbinade⟩ := exists_kept other
  unfold distance
  rw [multiple_add hdigits.le hbinade]
  obtain hlt | hle := Nat.lt_or_ge binade (dropped n d)
  · -- in a lower binade, so below the power of two that the ratio has reached
    have hreached := le_scaled (n := n) hd (Nat.ne_of_gt (Nat.zero_lt_of_lt hlt))
    have hbelow : digits * Nat.pow 2 binade ≤ perBinade * Nat.pow 2 (dropped n d) := by
      calc digits * Nat.pow 2 binade ≤ 2 * perBinade * Nat.pow 2 binade :=
            Nat.mul_le_mul_right _ hdigits.le
        _ = perBinade * 2 ^ (binade + 1) := by
          rw [Nat.pow_eq, pow_succ]
          ring
        _ ≤ perBinade * Nat.pow 2 (dropped n d) :=
          Nat.mul_le_mul_left _ (Nat.pow_le_pow_right (by decide) hlt)
    have hscaled := Nat.mul_le_mul_left d hbelow
    have horder : d * Nat.pow 2 (dropped n d) * perBinade =
        d * (perBinade * Nat.pow 2 (dropped n d)) := by ring
    refine ⟨perBinade, ?_⟩
    rw [horder]
    unfold Nat.dist
    exact ⟨by omega, fun heq => Nat.eq_of_mul_eq_mul_left hd (by omega)⟩
  · obtain ⟨above, rfl⟩ := Nat.exists_eq_add_of_le hle
    have hshift : digits * Nat.pow 2 (dropped n d + above) =
        digits * Nat.pow 2 above * Nat.pow 2 (dropped n d) := by
      rw [Nat.pow_eq, Nat.pow_eq, Nat.pow_eq, pow_add]
      ring
    have horder : d * (digits * Nat.pow 2 above * Nat.pow 2 (dropped n d)) =
        d * Nat.pow 2 (dropped n d) * (digits * Nat.pow 2 above) := by ring
    refine ⟨digits * Nat.pow 2 above, ?_, fun _ => hshift⟩
    rw [hshift, horder]

/-- A ratio is rounded to the nearest number, a half to the even neighbour. -/
theorem isNearest_placeOf (hd : 0 < d) : IsNearest n d (placeOf n d) := by
  have hdivisor : 0 < d * Nat.pow 2 (dropped n d) := Nat.mul_pos hd (power_pos _)
  have hplace : distance n d (placeOf n d) =
      Nat.dist (n * one) (d * Nat.pow 2 (dropped n d) * kept n d) := by
    have horder (digits power : Nat) : d * (digits * power) = d * power * digits := by ring
    rw [distance, multiple_placeOf hd, horder]
  constructor
  · intro other
    obtain ⟨digits, hdigits, -⟩ := exists_near (n := n) hd other
    rw [hplace]
    exact (roundDiv_nearest hdivisor _ digits).1.trans hdigits
  · intro other hne heq
    obtain ⟨digits, hdigits, hother⟩ := exists_near (n := n) hd other
    obtain ⟨hnearest, heven⟩ := roundDiv_nearest hdivisor (n * one) digits
    rw [hplace] at heq
    have hsame := Nat.le_antisymm (hdigits.trans heq.ge) hnearest
    have hkept : kept n d % 2 = 0 := by
      refine heven hsame.symm fun h => hne (multiple_strictMono.injective ?_)
      rw [hother (hsame.trans heq), h, multiple_placeOf hd, kept]
    have hbinade : perBinade % 2 = 0 := by decide +kernel
    rw [placeOf_eq, Nat.add_mod, Nat.mul_mod, hbinade, hkept, Nat.mul_zero, Nat.zero_mod]

/-- Between two nearest numbers that are both even stands an odd one, which would be nearer. -/
theorem IsNearest.not_lt {place other : Nat} (hd : 0 < d) (h : IsNearest n d place)
    (h' : IsNearest n d other) : ¬ place < other := by
  intro hlt
  have heq := Nat.le_antisymm (h.nearest other) (h'.nearest place)
  have heven := h.even other hlt.ne' heq
  have heven' := h'.even place hlt.ne heq.symm
  have hbetween := h.nearest (place + 1)
  have hbelow : d * multiple place < d * multiple (place + 1) :=
    (Nat.mul_lt_mul_left hd).mpr (multiple_strictMono place.lt_succ_self)
  have habove : d * multiple (place + 1) < d * multiple other :=
    (Nat.mul_lt_mul_left hd).mpr (multiple_strictMono (by omega))
  unfold distance Nat.dist at heq hbetween
  omega

theorem IsNearest.unique {place other : Nat} (hd : 0 < d) (h : IsNearest n d place)
    (h' : IsNearest n d other) : place = other :=
  Nat.le_antisymm (Nat.le_of_not_lt (h'.not_lt hd h)) (Nat.le_of_not_lt (h.not_lt hd h'))

theorem distance_mul {n' d' : Nat} (h : n * d' = n' * d) (place : Nat) :
    distance n d place * d' = distance n' d' place * d := by
  have hratio : n * one * d' = n' * one * d := by
    rw [Nat.mul_right_comm, h, Nat.mul_right_comm]
  have hplace : d * multiple place * d' = d' * multiple place * d := by ring
  rw [distance, ← Nat.dist_mul_right, hratio, hplace, Nat.dist_mul_right, distance]

/-- Equal ratios are rounded alike. -/
theorem placeOf_congr {n' d' : Nat} (hd : 0 < d) (hd' : 0 < d') (h : n * d' = n' * d) :
    placeOf n d = placeOf n' d' := by
  have hplace := isNearest_placeOf (n := n) hd
  refine IsNearest.unique hd' ⟨fun other => ?_, fun other hne heq => ?_⟩ (isNearest_placeOf hd')
  · have hle := Nat.mul_le_mul_right d' (hplace.nearest other)
    rw [distance_mul h, distance_mul h] at hle
    exact Nat.le_of_mul_le_mul_right hle hd
  · refine hplace.even other hne (Nat.eq_of_mul_eq_mul_right hd' ?_)
    rw [distance_mul h, distance_mul h, heq]

/-- A finite number is rounded to itself. -/
theorem placeOf_multiple (place : Nat) : placeOf (multiple place) one = place := by
  have hself : distance (multiple place) one place = 0 := by
    rw [distance, Nat.mul_comm, Nat.dist_self]
  have hnearest := (isNearest_placeOf (n := multiple place) one_pos).nearest place
  rw [hself, Nat.le_zero, distance, Nat.mul_comm] at hnearest
  exact multiple_strictMono.injective
    (Nat.eq_of_mul_eq_mul_left one_pos (Nat.eq_of_dist_eq_zero hnearest).symm)

end Nearest

section Ends

/-! ## The ends of the finite numbers -/

variable {n d : Nat}

theorem ofRatio_of_placeOf {place : Fin (2047 * perBinade)} (h : placeOf n d = place)
    (negative : Bool) : ofRatio negative n d = .finite negative place := by
  have hlt : placeOf n d < 2047 * perBinade := h ▸ place.isLt
  rw [ofRatio, dif_pos hlt]
  exact congrArg (finite negative) (Fin.ext h)

theorem ofRatio_of_le (h : 2047 * perBinade ≤ placeOf n d) (negative : Bool) :
    ofRatio negative n d = .infinite negative := by
  rw [ofRatio, dif_neg (Nat.not_lt.mpr h)]

theorem ofRatio_congr {n' d' : Nat} (h : placeOf n d = placeOf n' d') (negative : Bool) :
    ofRatio negative n d = ofRatio negative n' d' := by
  unfold ofRatio
  simp only [h]

/-- What is less than half of the least positive number is rounded to zero. -/
theorem placeOf_of_small (h : 2 * (n * one) < d) : placeOf n d = 0 := by
  have hquotient : n * one / d = 0 := Nat.div_eq_of_lt (by omega)
  have hdropped : dropped n d = 0 := by rw [dropped, hquotient, Nat.log2_zero]
  rw [placeOf_eq, kept, hdropped, Nat.zero_mul, Nat.zero_add, Nat.pow_eq, Nat.pow_zero,
    Nat.mul_one]
  obtain ⟨hr, -⟩ | ⟨-, hr⟩ := roundDiv_cases (n * one) d
  · rw [hr, hquotient]
  · rw [Nat.mod_eq_of_lt (by omega)] at hr
    omega

/-- The power of two above all finite numbers. -/
def limit : Nat := Nat.pow 2 1024

theorem le_log2_of_power_le {k m : Nat} (h : Nat.pow 2 k ≤ m) : k ≤ m.log2 :=
  (Nat.le_log2 ((power_pos k).trans_le h).ne').mpr h

/-- What reaches that power of two is rounded to no finite number. -/
theorem le_placeOf_of_large (hd : 0 < d) (h : d * limit ≤ n) :
    2047 * perBinade ≤ placeOf n d := by
  have hpower : Nat.pow 2 2098 = limit * one := by decide +kernel
  have hquotient : Nat.pow 2 2098 ≤ n * one / d := by
    rw [Nat.le_div_iff_mul_le hd, hpower]
    calc limit * one * d = d * limit * one := by ring
      _ ≤ n * one := Nat.mul_le_mul_right one h
  have hdropped : 2046 ≤ dropped n d := by
    have hlog := le_log2_of_power_le hquotient
    unfold dropped
    omega
  have hkept := (le_kept (n := n) hd).resolve_left (by omega)
  have hbinades := Nat.mul_le_mul_right perBinade hdropped
  rw [placeOf_eq]
  omega

end Ends

end Double

namespace Decimal

/-! ## Decimals -/

open Double

theorem denominator_pos (x : Decimal) : 0 < x.denominator := Nat.pow_pos (by decide)

theorem lt_pow_length (n : Nat) : n < 10 ^ (Nat.toDigits 10 n).length :=
  (Nat.length_toDigits_le_iff (by decide) (List.length_pos_iff.mpr Nat.toDigits_ne_nil)).mp
    Nat.le.refl

theorem pow_length_le {n : Nat} (hn : n ≠ 0) : 10 ^ ((Nat.toDigits 10 n).length - 1) ≤ n := by
  obtain hmore | hone := Nat.lt_or_ge 1 (Nat.toDigits 10 n).length
  · by_contra hlt
    have hle := (Nat.length_toDigits_le_iff (by decide) (by omega)).mpr (Nat.lt_of_not_le hlt)
    omega
  · rw [Nat.sub_eq_zero_of_le hone]
    omega

/-- A decimal with its first digit far behind the point is rounded to zero. -/
theorem placeOf_of_small {x : Decimal} {k : Nat} (hk : 2 * one ≤ Nat.pow 10 k)
    (h : x.pointPlace ≤ -k) : placeOf x.numerator x.denominator = 0 := by
  have hdigits := lt_pow_length x.digits
  have hlength : 0 < (Nat.toDigits 10 x.digits).length :=
    List.length_pos_iff.mpr Nat.toDigits_ne_nil
  unfold pointPlace at h
  have hpower : x.power.toNat = 0 := by omega
  have hshift : (Nat.toDigits 10 x.digits).length + k ≤ (-x.power).toNat := by omega
  have hnumerator : x.numerator = x.digits := by
    rw [numerator, hpower, Nat.pow_eq, Nat.pow_zero, Nat.mul_one]
  refine Double.placeOf_of_small ?_
  rw [hnumerator]
  calc 2 * (x.digits * one) = x.digits * (2 * one) := by ring
    _ ≤ x.digits * Nat.pow 10 k := Nat.mul_le_mul_left _ hk
    _ < 10 ^ (Nat.toDigits 10 x.digits).length * Nat.pow 10 k :=
      (Nat.mul_lt_mul_right (Nat.pow_pos (by decide))).mpr hdigits
    _ = 10 ^ ((Nat.toDigits 10 x.digits).length + k) := (pow_add 10 _ k).symm
    _ ≤ x.denominator := Nat.pow_le_pow_right (by decide) hshift

/-- A decimal with its first digit far before the point is rounded to no finite number. -/
theorem le_placeOf_of_large {x : Decimal} {k : Nat} (hk : limit ≤ Nat.pow 10 k)
    (hx : x.digits ≠ 0) (h : k < x.pointPlace) :
    2047 * perBinade ≤ placeOf x.numerator x.denominator := by
  have hdigits := pow_length_le hx
  unfold pointPlace at h
  have hshift : (-x.power).toNat + k ≤
      (Nat.toDigits 10 x.digits).length - 1 + x.power.toNat := by omega
  refine Double.le_placeOf_of_large x.denominator_pos ?_
  calc x.denominator * limit ≤ x.denominator * Nat.pow 10 k := Nat.mul_le_mul_left _ hk
    _ = 10 ^ ((-x.power).toNat + k) := (pow_add 10 _ k).symm
    _ ≤ 10 ^ ((Nat.toDigits 10 x.digits).length - 1 + x.power.toNat) :=
      Nat.pow_le_pow_right (by decide) hshift
    _ = 10 ^ ((Nat.toDigits 10 x.digits).length - 1) * Nat.pow 10 x.power.toNat := pow_add 10 _ _
    _ ≤ x.numerator := Nat.mul_le_mul_right _ hdigits

/-- That some powers of ten are not worked out makes no difference: a decimal is rounded as the
ratio that it is. -/
theorem double_eq_ofRatio (x : Decimal) (negative : Bool) :
    x.double negative = .ofRatio negative x.numerator x.denominator := by
  unfold double
  split
  · rename_i h
    have hplace : placeOf x.numerator x.denominator = 0 := by
      obtain hzero | hsmall := h
      · refine Double.placeOf_of_small ?_
        rw [numerator, hzero, Nat.zero_mul, Nat.zero_mul]
        exact x.denominator_pos
      · exact placeOf_of_small (k := 330) (by decide +kernel) (by omega)
    exact (ofRatio_of_placeOf hplace negative).symm
  · rename_i h
    split
    · rename_i hlarge
      have hne : x.digits ≠ 0 := fun hx => h (.inl hx)
      exact (ofRatio_of_le (le_placeOf_of_large (by decide +kernel) hne hlarge) negative).symm
    · rfl

/-- Zeros at the end of the digits make no difference. -/
theorem double_shift (n k : Nat) (power : Int) (negative : Bool) :
    (⟨n * Nat.pow 10 k, power - k⟩ : Decimal).double negative =
      (⟨n, power⟩ : Decimal).double negative := by
  rw [double_eq_ofRatio, double_eq_ofRatio]
  refine ofRatio_congr (placeOf_congr (denominator_pos _) (denominator_pos _) ?_) negative
  have hpowers : k + (power - k).toNat + (-power).toNat = power.toNat + (-(power - k)).toNat := by
    omega
  show n * 10 ^ k * 10 ^ (power - k).toNat * 10 ^ (-power).toNat =
    n * 10 ^ power.toNat * 10 ^ (-(power - k)).toNat
  calc n * 10 ^ k * 10 ^ (power - k).toNat * 10 ^ (-power).toNat
      = n * 10 ^ (k + (power - k).toNat + (-power).toNat) := by ring
    _ = n * 10 ^ (power.toNat + (-(power - k)).toNat) := by rw [hpowers]
    _ = n * 10 ^ power.toNat * 10 ^ (-(power - k)).toNat := by ring

end Decimal

namespace Double

/-! ## Back from decimals -/

theorem placeOf_over {factor k : Nat} (h : factor * one = Nat.pow 10 k) (m : Nat) :
    placeOf (⟨m * factor, -k⟩ : Decimal).numerator (⟨m * factor, -k⟩ : Decimal).denominator =
      placeOf m one := by
  refine placeOf_congr (Decimal.denominator_pos _) one_pos ?_
  have hnumerator : (⟨m * factor, -k⟩ : Decimal).numerator = m * factor := by
    simp [Decimal.numerator]
  have hdenominator : (⟨m * factor, -k⟩ : Decimal).denominator = Nat.pow 10 k := by
    simp [Decimal.denominator]
  rw [hnumerator, hdenominator, ← h, Nat.mul_assoc]

theorem placeOf_exact (place : Nat) :
    placeOf (exact place).numerator (exact place).denominator = place := by
  have hover : placeOf (exact place).numerator (exact place).denominator = _ :=
    placeOf_over (by decide +kernel) (multiple place)
  rw [hover, placeOf_multiple]

/-- Of the neighbours of a number only such are taken as are rounded to it, and if there were none,
the number itself would be. -/
theorem placeOf_shortest (place : Nat) :
    placeOf (shortest place).numerator (shortest place).denominator = place := by
  unfold shortest
  cases hfound : (List.range' 1 17).findSome? fun count =>
      (neighbours count (multiple place)).find? fun x =>
        placeOf x.numerator x.denominator == place with
  | none =>
    rw [Option.getD_none]
    exact placeOf_exact place
  | some x =>
    obtain ⟨count, -, hx⟩ := List.exists_of_findSome?_eq_some hfound
    have hplace := List.find?_some hx
    rw [Option.getD_some]
    rwa [beq_iff_eq] at hplace

theorem digits_shortest_ne_zero {place : Nat} (h : place ≠ 0) : (shortest place).digits ≠ 0 := by
  intro hzero
  refine h ((placeOf_shortest place).symm.trans (placeOf_of_small ?_))
  rw [Decimal.numerator, hzero, Nat.zero_mul, Nat.zero_mul]
  exact Decimal.denominator_pos _

/-- The shortest decimal of a finite number is rounded to it. -/
theorem double_shortest (place : Fin (2047 * perBinade)) (negative : Bool) :
    (shortest place).double negative = .finite negative place := by
  rw [Decimal.double_eq_ofRatio]
  exact ofRatio_of_placeOf (placeOf_shortest place) negative

end Double

end GrammarLoader
