import GrammarLoader.Proofs.Double
import GrammarLoader.Proofs.Json.Spelling
import Mathlib.Data.List.DropRight

/-!
# Numbers in JSON

A number is laid out from its parts: digits, perhaps some behind a point, perhaps an exponent. The
reader takes the text apart again, whatever follows it, as long as that does not go on with the
number. So a number comes back if the parts of its text have its value, and nothing else is shown of
an integer and of each layout of a decimal.
-/

namespace GrammarLoader

namespace Text

section Digits

/-! ## Digits and the number that they write -/

variable {ds rest : List Char}

/-- The text does not go on with a digit. -/
def EndsDigits (rest : List Char) : Prop := ∀ c ∈ rest.head?, c.isDigit = false

theorem digitRun_append (hds : ∀ d ∈ ds, d.isDigit) (hr : EndsDigits rest) :
    digitRun (ds ++ rest) = (ds, rest) := by
  have hstop : rest.takeWhile Char.isDigit = [] ∧ rest.dropWhile Char.isDigit = rest := by
    cases rest with
    | nil => exact ⟨rfl, rfl⟩
    | cons c rest =>
      have hc := hr c rfl
      simp [hc]
  rw [digitRun, List.takeWhile_append_of_pos hds, List.dropWhile_append_of_pos hds, hstop.1,
    hstop.2, List.append_nil]

theorem isDigit_of_mem_toDigits {n : Nat} {d : Char} (h : d ∈ Nat.toDigits 10 n) : d.isDigit :=
  Nat.isDigit_of_mem_toDigits (by decide) (by decide) h

theorem decimal_eq_ofDigitChars (ds : List Char) : decimal ds = Nat.ofDigitChars 10 ds 0 := by
  rw [Nat.ofDigitChars_eq_foldl, decimal]
  simp only [Nat.mul_comm 10]
  rfl

theorem decimal_append (ds es : List Char) :
    decimal (ds ++ es) = decimal ds * Nat.pow 10 es.length + decimal es := by
  rw [decimal_eq_ofDigitChars, Nat.ofDigitChars_append, Nat.ofDigitChars_eq_ofDigitChars_zero,
    ← decimal_eq_ofDigitChars, ← decimal_eq_ofDigitChars, Nat.mul_comm, Nat.pow_eq]

theorem decimal_toDigits (n : Nat) : decimal (Nat.toDigits 10 n) = n := by
  rw [decimal_eq_ofDigitChars]
  exact Nat.ofDigitChars_toDigits (by decide) (by decide)

theorem decimal_zeros (k : Nat) : decimal (List.replicate k '0') = 0 := by
  induction k with
  | zero => rfl
  | succ k ih =>
    rw [List.replicate_succ', decimal_append, ih, Nat.zero_mul]
    rfl

theorem decimal_append_zeros (ds : List Char) (k : Nat) :
    decimal (ds ++ List.replicate k '0') = decimal ds * Nat.pow 10 k := by
  rw [decimal_append, decimal_zeros, List.length_replicate, Nat.add_zero]

theorem decimal_zeros_append (k : Nat) (ds : List Char) :
    decimal (List.replicate k '0' ++ ds) = decimal ds := by
  rw [decimal_append, decimal_zeros, Nat.zero_mul, Nat.zero_add]

theorem isDigit_of_mem_zeros {k : Nat} {d : Char} (h : d ∈ List.replicate k '0') : d.isDigit := by
  rw [List.eq_of_mem_replicate h]
  rfl

theorem exists_zeros_withoutEndZeros (ds : List Char) :
    ∃ k, ds = withoutEndZeros ds ++ List.replicate k '0' := by
  have hzeros : ∀ d ∈ ds.rtakeWhile (· == '0'), d = '0' := by
    intro d hd
    have hzero := List.mem_rtakeWhile_imp hd
    exact beq_iff_eq.mp hzero
  refine ⟨(ds.rtakeWhile (· == '0')).length, ?_⟩
  rw [← List.eq_replicate_of_mem hzeros]
  exact List.rdropWhile_append_rtakeWhile.symm

theorem isDigit_of_mem_digitsIn {width n : Nat} {d : Char} (h : d ∈ digitsIn 10 width n) :
    d.isDigit := by
  rcases List.mem_append.mp h with hzero | hdigit
  · exact isDigit_of_mem_zeros hzero
  · exact isDigit_of_mem_toDigits hdigit

theorem decimal_digitsIn (width n : Nat) : decimal (digitsIn 10 width n) = n := by
  calc decimal (digitsIn 10 width n) = decimal (Nat.toDigits 10 n) := decimal_zeros_append _ _
    _ = n := decimal_toDigits n

end Digits

end Text

namespace Json

open Text

section Parts

/-! ## The parts of a number -/

/-- The digits before the point: a lone zero, or some that start with another one. -/
inductive IsWhole : List Char → Prop
  | zero : IsWhole ['0']
  | digits {d : Char} {ds : List Char} (hd : d ≠ '0') (h : ∀ c ∈ d :: ds, c.isDigit) :
    IsWhole (d :: ds)

theorem IsWhole.isDigit {whole : List Char} (h : IsWhole whole) : ∀ d ∈ whole, d.isDigit := by
  cases h with
  | zero => simp
  | digits _ h => exact h

theorem IsWhole.exists_cons {whole : List Char} (h : IsWhole whole) :
    ∃ d ds, whole = d :: ds ∧ d.isDigit := by
  have hdigits := h.isDigit
  cases h with
  | zero => exact ⟨_, _, rfl, rfl⟩
  | digits => exact ⟨_, _, rfl, hdigits _ List.mem_cons_self⟩

theorem IsWhole.head?_ne_zero {whole : List Char} (h : IsWhole whole) (hvalue : decimal whole ≠ 0) :
    whole.head? ≠ some '0' := by
  cases h with
  | zero => exact absurd rfl hvalue
  | digits hd => exact fun heq => hd (Option.some.inj heq)

/-- Only zero starts with the digit zero. -/
theorem isWhole_toDigits (n : Nat) : IsWhole (Nat.toDigits 10 n) := by
  induction n using Nat.strongRecOn with
  | ind n ih =>
    obtain hlt | hle := Nat.lt_or_ge n 10
    · rw [Nat.toDigits_of_lt_base hlt]
      obtain rfl | hpos := Nat.eq_zero_or_pos n
      · exact .zero
      · have hdigit : ∀ d < 10, 0 < d → d.digitChar ≠ '0' ∧ d.digitChar.isDigit := by decide
        obtain ⟨hne, hisDigit⟩ := hdigit n hlt hpos
        exact .digits hne (List.forall_mem_singleton.mpr hisDigit)
    · have hdigits : ∀ d ∈ Nat.toDigits 10 n, d.isDigit := fun _ => isDigit_of_mem_toDigits
      have hpos : n / 10 ≠ 0 := by omega
      have hfront := ih (n / 10) (by omega)
      rw [Nat.toDigits_of_base_le (by decide) hle] at hdigits ⊢
      generalize hds : Nat.toDigits 10 (n / 10) = ds at hdigits hfront ⊢
      cases hfront with
      | zero =>
        have hvalue := decimal_toDigits (n / 10)
        rw [hds] at hvalue
        exact absurd hvalue.symm hpos
      | digits hd => exact .digits hd hdigits

/-- The digits before the point and those behind it, and the power of ten. -/
structure Parts where
  whole : List Char
  fraction : List Char
  exponent : Option Int

namespace Parts

/-- The parts as they are laid out. -/
def text (p : Parts) : List Char :=
  p.whole ++ (afterPoint false p.fraction ++ p.exponent.elim [] (Text.exponent 'e'))

/-- The parts are those of a number. -/
structure WellFormed (p : Parts) : Prop where
  whole : IsWhole p.whole
  fraction : ∀ d ∈ p.fraction, d.isDigit

/-- With a sign before them the parts have a value. -/
structure Reads (p : Parts) (negative : Bool) (v : Value) : Prop extends p.WellFormed where
  numeral_eq : numeral negative p.whole p.fraction p.exponent = some v

end Parts

/-- The text does not go on with the digits, the places or the exponent of a number. -/
def EndsNumber (rest : List Char) : Prop :=
  ∀ c ∈ rest.head?, c.isDigit = false ∧ c ≠ '.' ∧ c ≠ 'e' ∧ c ≠ 'E'

variable {rest : List Char}

theorem endsNumber_cons {c : Char}
    (h : c.isDigit = false ∧ c ≠ '.' ∧ c ≠ 'e' ∧ c ≠ 'E') : EndsNumber (c :: rest) := by
  intro d hd
  obtain rfl := Option.some.inj hd
  exact h

theorem EndsNumber.endsDigits (h : EndsNumber rest) : EndsDigits rest := fun c hc => (h c hc).1

theorem integerPart_append {whole : List Char} (hw : IsWhole whole) (hr : EndsDigits rest) :
    integerPart (whole ++ rest) = some (whole, rest) := by
  cases hw with
  | zero => rfl
  | @digits d ds hd hdigits =>
    have hrun : digitRun (d :: (ds ++ rest)) = (d :: ds, rest) := digitRun_append hdigits hr
    rw [List.cons_append, integerPart, hrun]
    rintro r heq
    cases heq
    exact hd rfl

theorem fractionPart_append {fraction : List Char} (hf : ∀ d ∈ fraction, d.isDigit)
    (hr : EndsDigits rest) (hpoint : rest.head? ≠ some '.') :
    fractionPart (afterPoint false fraction ++ rest) = (fraction, rest) := by
  cases fraction with
  | nil =>
    show fractionPart rest = ([], rest)
    unfold fractionPart
    split
    · exact absurd rfl hpoint
    · rfl
  | cons d ds =>
    have hrun : digitRun (d :: (ds ++ rest)) = (d :: ds, rest) := digitRun_append hf hr
    show fractionPart ('.' :: d :: (ds ++ rest)) = (d :: ds, rest)
    rw [fractionPart, hrun]

theorem exponentPart_of_endsNumber (hr : EndsNumber rest) : exponentPart rest = (none, rest) := by
  unfold exponentPart
  cases rest with
  | nil => rfl
  | cons c rest =>
    obtain ⟨-, -, he, hE⟩ := hr c rfl
    simp [he, hE]

theorem exponentPart_append (power : Int) (hr : EndsDigits rest) :
    exponentPart (Text.exponent 'e' power ++ rest) = (some power, rest) := by
  have hrun : digitRun (digitsIn 10 2 power.natAbs ++ rest) = (digitsIn 10 2 power.natAbs, rest) :=
    digitRun_append (fun _ => isDigit_of_mem_digitsIn) hr
  have hvalue := decimal_digitsIn 2 power.natAbs
  obtain ⟨d, ds, hds⟩ : ∃ d ds, digitsIn 10 2 power.natAbs = d :: ds :=
    List.exists_cons_of_ne_nil (List.append_ne_nil_of_right_ne_nil _ Nat.toDigits_ne_nil)
  rw [hds] at hrun hvalue
  rw [List.cons_append] at hrun
  rw [Text.exponent, hds]
  by_cases hneg : power < 0
  · have hpower : -(power.natAbs : Int) = power := by omega
    simp only [hneg, if_true, List.cons_append, exponentPart, beq_self_eq_true, Bool.true_or,
      signPart, hrun, hvalue, hpower]
  · have hpower : (power.natAbs : Int) = power := by omega
    simp only [hneg, if_false, List.cons_append, exponentPart, beq_self_eq_true, Bool.true_or,
      if_true, signPart, hrun, hvalue, hpower, Bool.false_eq_true]

/-- Parts that are laid out are taken apart again. -/
theorem unsigned_text {p : Parts} (hp : p.WellFormed) (hr : EndsNumber rest) (negative : Bool) :
    unsigned negative (p.text ++ rest) =
      (numeral negative p.whole p.fraction p.exponent).map (·, rest) := by
  obtain ⟨whole, fraction, exponent⟩ := p
  -- neither the exponent nor what follows goes on with the places
  obtain ⟨hexponent, hdigits, hpoint⟩ :
      exponentPart (exponent.elim [] (Text.exponent 'e') ++ rest) = (exponent, rest) ∧
      EndsDigits (exponent.elim [] (Text.exponent 'e') ++ rest) ∧
      (exponent.elim [] (Text.exponent 'e') ++ rest).head? ≠ some '.' := by
    cases exponent with
    | none => exact ⟨exponentPart_of_endsNumber hr, hr.endsDigits, fun h => (hr '.' h).2.1 rfl⟩
    | some power =>
      refine ⟨exponentPart_append power hr.endsDigits, ?_, by simp [Text.exponent]⟩
      simp [Text.exponent, EndsDigits]
  have hfraction := fractionPart_append hp.fraction hdigits hpoint
  have hplaces : EndsDigits (afterPoint false fraction ++
      (exponent.elim [] (Text.exponent 'e') ++ rest)) := by
    cases fraction with
    | nil => exact hdigits
    | cons => simp [afterPoint, EndsDigits]
  have hwhole := integerPart_append hp.whole hplaces
  rw [Parts.text, List.append_assoc, List.append_assoc]
  simp only [unsigned, hwhole, hfraction, hexponent, bind, Option.bind]
  cases numeral negative whole fraction exponent <;> rfl

end Parts

section Decimals

/-! ## The layouts of a decimal -/

/-- The digits of a decimal but for the zeros at their end. The first one is no zero, and with the
point where the decimal has it they are rounded as it is, however many zeros follow them. -/
structure Significant (d : Char) (ds : List Char) (x : Decimal) : Prop where
  ne_zero : d ≠ '0'
  isDigit : ∀ c ∈ d :: ds, c.isDigit
  double : ∀ (k : Nat) (negative : Bool),
    (⟨decimal (d :: ds) * Nat.pow 10 k, x.pointPlace - (d :: ds).length - k⟩ : Decimal).double
      negative = x.double negative

theorem exists_significant {x : Decimal} (hx : x.digits ≠ 0) :
    ∃ d ds, withoutEndZeros (Nat.toDigits 10 x.digits) = d :: ds ∧ Significant d ds x := by
  have hvalue := decimal_toDigits x.digits
  have hdigits : ∀ d ∈ Nat.toDigits 10 x.digits, d.isDigit := fun _ => isDigit_of_mem_toDigits
  have hhead : (Nat.toDigits 10 x.digits).head? ≠ some '0' :=
    (isWhole_toDigits x.digits).head?_ne_zero (hvalue.symm ▸ hx)
  have hplace : x.pointPlace = (Nat.toDigits 10 x.digits).length + x.power := rfl
  obtain ⟨zeros, hzeros⟩ := exists_zeros_withoutEndZeros (Nat.toDigits 10 x.digits)
  cases hds : withoutEndZeros (Nat.toDigits 10 x.digits) with
  | nil =>
    rw [hzeros, hds, List.nil_append, decimal_zeros] at hvalue
    exact absurd hvalue.symm hx
  | cons d ds =>
    rw [hds] at hzeros
    rw [hzeros, decimal_append_zeros] at hvalue
    rw [hzeros, List.length_append, List.length_replicate] at hplace
    rw [hzeros, List.forall_mem_append] at hdigits
    refine ⟨d, ds, rfl, ?_, hdigits.1, fun k negative => ?_⟩
    · rintro rfl
      rw [hzeros] at hhead
      exact hhead rfl
    · have hpower : x.pointPlace - (d :: ds).length - zeros = x.power := by omega
      rw [Decimal.double_shift, ← Decimal.double_shift _ zeros, hvalue, hpower]

theorem numeral_of_significant {d : Char} {ds : List Char} {x : Decimal}
    (h : Significant d ds x) (k : Nat) {whole fraction : List Char} {exponent : Option Int}
    (hreal : fraction ≠ [] ∨ exponent ≠ none)
    (hdigits : decimal (whole ++ fraction) = decimal (d :: ds) * Nat.pow 10 k)
    (hpower : exponent.getD 0 - fraction.length = x.pointPlace - (d :: ds).length - k)
    (negative : Bool) :
    numeral negative whole fraction exponent = some (.real (x.double negative)) := by
  have hplaces : (fraction.isEmpty && exponent.isNone) = false := by
    obtain hfraction | hexponent := hreal
    · simp [hfraction]
    · simp [Option.isNone_eq_false_iff.mpr (Option.isSome_iff_ne_none.mpr hexponent)]
  simp only [numeral, hplaces, Bool.false_eq_true, if_false, hdigits, hpower, h.double]

namespace Significant

variable {d : Char} {ds : List Char} {x : Decimal}

theorem withExponent (h : Significant d ds x) (negative : Bool) :
    Parts.Reads ⟨[d], ds, some (x.pointPlace - 1)⟩ negative
      (.real (x.double negative)) := by
  obtain ⟨hd, hrest⟩ := List.forall_mem_cons.mp h.isDigit
  refine ⟨⟨.digits h.ne_zero (List.forall_mem_singleton.mpr hd), hrest⟩, ?_⟩
  refine numeral_of_significant h 0 (.inr (Option.some_ne_none _)) ?_ ?_ negative
  · exact (Nat.mul_one (decimal (d :: ds))).symm
  · simp only [Option.getD_some, List.length_cons]
    omega

theorem behindZeros (h : Significant d ds x) (negative : Bool) (hpoint : x.pointPlace ≤ 0) :
    Parts.Reads ⟨['0'], List.replicate x.pointPlace.natAbs '0' ++ d :: ds, none⟩ negative
      (.real (x.double negative)) := by
  refine ⟨⟨.zero, List.forall_mem_append.mpr ⟨fun _ => isDigit_of_mem_zeros, h.isDigit⟩⟩, ?_⟩
  refine numeral_of_significant h 0 (.inl (by simp)) ?_ ?_ negative
  · calc decimal ('0' :: (List.replicate x.pointPlace.natAbs '0' ++ d :: ds))
        = decimal (d :: ds) := decimal_zeros_append (x.pointPlace.natAbs + 1) (d :: ds)
      _ = decimal (d :: ds) * Nat.pow 10 0 := (Nat.mul_one _).symm
  · simp only [Option.getD_none, List.length_append, List.length_replicate]
    omega

theorem beforeZeros (h : Significant d ds x) (negative : Bool) {m : Nat}
    (hpoint : x.pointPlace = m + 1) (hm : ds.length ≤ m) :
    Parts.Reads ⟨d :: (ds ++ List.replicate (m - ds.length) '0'), ['0'], none⟩ negative
      (.real (x.double negative)) := by
  obtain ⟨hd, hrest⟩ := List.forall_mem_cons.mp h.isDigit
  have hwhole : ∀ c ∈ d :: (ds ++ List.replicate (m - ds.length) '0'), c.isDigit :=
    List.forall_mem_cons.mpr
      ⟨hd, List.forall_mem_append.mpr ⟨hrest, fun _ => isDigit_of_mem_zeros⟩⟩
  refine ⟨⟨.digits h.ne_zero hwhole, List.forall_mem_singleton.mpr rfl⟩, ?_⟩
  -- the zero behind the point is one more
  refine numeral_of_significant h (m - ds.length + 1) (.inl (List.cons_ne_nil _ _)) ?_ ?_ negative
  · rw [List.cons_append, List.append_assoc, ← List.replicate_succ', ← List.cons_append,
      decimal_append_zeros]
  · simp only [Option.getD_none, List.length_cons, List.length_nil]
    omega

theorem aroundPoint (h : Significant d ds x) (negative : Bool) {m : Nat}
    (hpoint : x.pointPlace = m + 1) (hm : m < ds.length) :
    Parts.Reads ⟨d :: ds.take m, ds.drop m, none⟩ negative
      (.real (x.double negative)) := by
  obtain ⟨hd, hrest⟩ := List.forall_mem_cons.mp h.isDigit
  have hwhole : ∀ c ∈ d :: ds.take m, c.isDigit :=
    List.forall_mem_cons.mpr ⟨hd, fun c hc => hrest c (List.mem_of_mem_take hc)⟩
  have hne : ds.drop m ≠ [] := fun hnil => Nat.not_le.mpr hm (List.drop_eq_nil_iff.mp hnil)
  refine ⟨⟨.digits h.ne_zero hwhole, fun c hc => hrest c (List.mem_of_mem_drop hc)⟩, ?_⟩
  refine numeral_of_significant h 0 (.inl hne) ?_ ?_ negative
  · rw [List.cons_append, List.take_append_drop]
    exact (Nat.mul_one _).symm
  · simp only [Option.getD_none, List.length_drop, List.length_cons]
    omega

end Significant

/-- Every layout of a decimal has parts that are read as its double. -/
theorem exists_parts {x : Decimal} (hx : x.digits ≠ 0) (negative : Bool) :
    ∃ p, Parts.Reads p negative (.real (x.double negative)) ∧ x.text = p.text := by
  obtain ⟨d, ds, hds, h⟩ := exists_significant hx
  unfold Decimal.text
  simp only [hds]
  split
  · exact ⟨_, h.withExponent negative, by simp [Parts.text]⟩
  split
  · rename_i hpoint
    exact ⟨_, h.behindZeros negative hpoint, by simp [Parts.text, afterPoint]⟩
  · obtain ⟨m, hm⟩ : ∃ m : Nat, x.pointPlace = m + 1 := ⟨x.pointPlace.natAbs - 1, by omega⟩
    have hnatAbs : x.pointPlace.natAbs = m + 1 := by omega
    rw [hnatAbs, List.take_succ_cons, List.drop_succ_cons]
    obtain hlt | hle := Nat.lt_or_ge m ds.length
    · refine ⟨_, h.aroundPoint negative hm hlt, ?_⟩
      simp [Parts.text, afterPoint, hlt.le, Nat.not_le.mpr hlt]
    · refine ⟨_, h.beforeZeros negative hm hle, ?_⟩
      simp [Parts.text, afterPoint, hle, List.take_of_length_le hle]

end Decimals

section Numbers

/-! ## Integers and doubles -/

theorem numeral_toDigits (negative : Bool) (n : Nat) :
    numeral negative (Nat.toDigits 10 n) [] none =
      (Integer.ofInt? (if negative then -n else n)).map Value.int := by
  rw [numeral, decimal_toDigits]
  rfl

theorem toList_toString (n : Int) :
    (toString n).toList = Double.sign (decide (n < 0)) ++ Nat.toDigits 10 n.natAbs := by
  rw [Int.toString_eq_repr, Int.repr_eq_if, Double.sign]
  by_cases hn : 0 ≤ n
  · rw [if_pos hn, if_neg (by simpa using hn), Nat.repr_eq_ofList_toDigits, String.toList_ofList,
      show n.toNat = n.natAbs by omega, List.nil_append]
  · rw [if_neg hn, if_pos (by simpa using hn), Nat.repr_eq_ofList_toDigits,
      show (-n).toNat = n.natAbs by omega]
    simp only [String.toList_append, String.toList_ofList]
    rfl

/-- The text is a sign and the parts of a number. -/
def IsNumeral (text : List Char) (v : Value) : Prop :=
  ∃ p negative, Parts.Reads p negative v ∧ text = Double.sign negative ++ p.text

theorem isNumeral_integer (n : Integer) : IsNumeral (text (.int n)) (.int n) := by
  have hvalue : (if decide (n.value < 0) = true then -(n.value.natAbs : Int) else n.value.natAbs) =
      n.value := by
    simp only [decide_eq_true_eq]
    split <;> omega
  refine ⟨⟨Nat.toDigits 10 n.value.natAbs, [], none⟩, decide (n.value < 0),
    ⟨⟨isWhole_toDigits _, nofun⟩, ?_⟩, ?_⟩
  · rw [numeral_toDigits, hvalue, Integer.ofInt?_value]
    rfl
  · rw [text, toList_toString]
    simp [Parts.text, afterPoint]

theorem isNumeral_finite (negative : Bool) (place : Fin (2047 * Double.perBinade)) :
    IsNumeral (text (.real (.finite negative place))) (.real (.finite negative place)) := by
  rw [text, Double.text]
  by_cases hzero : place.val = 0
  · refine ⟨⟨['0'], ['0'], none⟩, negative, ⟨⟨.zero, List.forall_mem_singleton.mpr rfl⟩, ?_⟩, ?_⟩
    · have hplace : (⟨0, by decide⟩ : Fin (2047 * Double.perBinade)) = place := Fin.ext hzero.symm
      rw [← hplace]
      rfl
    · rw [if_pos hzero]
      rfl
  · obtain ⟨p, hp, htext⟩ := exists_parts (Double.digits_shortest_ne_zero hzero) negative
    rw [Double.double_shortest] at hp
    rw [if_neg hzero]
    exact ⟨p, negative, hp, congrArg _ htext⟩

/-- The first digit of a number is not taken for a sign. -/
theorem number_of_isDigit {d : Char} (hd : d.isDigit) (cs : List Char) :
    number (d :: cs) = unsigned false (d :: cs) := by
  unfold number
  split
  · rename_i heq
    cases heq
    cases hd
  · rfl

/-- A number starts with a digit, or with a minus sign and a digit. -/
theorem IsNumeral.starts {text : List Char} {v : Value} (h : IsNumeral text v) :
    ∃ d ds, d.isDigit ∧ (text = d :: ds ∨ text = '-' :: d :: ds) := by
  obtain ⟨p, negative, hp, rfl⟩ := h
  obtain ⟨d, ds, hds, hd⟩ := hp.whole.exists_cons
  rw [Parts.text, hds]
  cases negative with
  | false => exact ⟨d, _, hd, .inl rfl⟩
  | true => exact ⟨d, _, hd, .inr rfl⟩

theorem IsNumeral.reads {text rest : List Char} {v : Value} (h : IsNumeral text v)
    (hr : EndsNumber rest) : number (text ++ rest) = some (v, rest) := by
  obtain ⟨p, negative, hp, rfl⟩ := h
  have hread := unsigned_text hp.toWellFormed hr negative
  rw [hp.numeral_eq, Option.map_some] at hread
  cases negative with
  | false =>
    obtain ⟨d, ds, hds, hd⟩ := hp.whole.exists_cons
    rw [← hread, Parts.text, hds]
    exact number_of_isDigit hd _
  | true => exact hread

theorem isShown_of_isDigit {c : Char} (h : c.isDigit) : IsShown c := by
  have hrange : 48 ≤ c.toNat ∧ c.toNat ≤ 57 := by
    simpa [Char.isDigit, UInt32.le_iff_toNat_le] using h
  exact ⟨by omega, by omega⟩

theorem IsNumeral.isShown {text : List Char} {v : Value} (h : IsNumeral text v) :
    ∀ c ∈ text, IsShown c := by
  obtain ⟨⟨whole, fraction, exponent⟩, negative, hp, rfl⟩ := h
  have hwhole : ∀ c ∈ whole, IsShown c := fun c hc => isShown_of_isDigit (hp.whole.isDigit c hc)
  have hfraction : ∀ c ∈ afterPoint false fraction, IsShown c := by
    unfold afterPoint
    split
    · exact List.forall_mem_nil _
    · exact List.forall_mem_cons.mpr
        ⟨by decide, fun c hc => isShown_of_isDigit (hp.fraction c hc)⟩
  have hexponent : ∀ c ∈ exponent.elim [] (Text.exponent 'e'), IsShown c := by
    cases exponent with
    | none => exact List.forall_mem_nil _
    | some power =>
      refine List.forall_mem_cons.mpr ⟨by decide, List.forall_mem_cons.mpr ⟨?_, fun c hc => ?_⟩⟩
      · split <;> decide
      · exact isShown_of_isDigit (isDigit_of_mem_digitsIn hc)
  have hsign : ∀ c ∈ Double.sign negative, IsShown c := by
    cases negative with
    | false => exact List.forall_mem_nil _
    | true => exact List.forall_mem_singleton.mpr (by decide)
  simp only [Parts.text, List.forall_mem_append]
  exact ⟨hsign, hwhole, hfraction, hexponent⟩

end Numbers

end Json

end GrammarLoader
