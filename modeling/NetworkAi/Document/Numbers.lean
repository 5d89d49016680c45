import NetworkAi.Document.Js
import NetworkAi.Lib.Delimited

set_option relaxedAutoImplicit false
set_option autoImplicit false

/-!
# The texts of numbers

`Number::toString` prints a finite number in one of five forms.  All of them are digits with an
optional fraction and an optional exponent, so that the parts can be read back, and the parts
determine the number.

## Main definitions

* `NetworkAi.numeral` — digits, fraction and exponent as a text.

## Main results

* `NetworkAi.numeral_inj` — the parts of a numeral can be read back.
* `NetworkAi.JsNumber.numeral_body` — the text of a number is a numeral of its value.
* `NetworkAi.JsNumber.text_injective` — different numbers have different texts.
-/

namespace NetworkAi

/-! ### Decimal digits -/

/-- The characters of a decimal number are digits. -/
theorem isDigit_decimal {n : Nat} {c : Char} (h : c ∈ decimal n) : c.isDigit = true :=
  Nat.isDigit_of_mem_toDigits (by norm_num) (by norm_num) h

/-- A decimal number is read back from its digits. -/
theorem ofDigitChars_decimal (n : Nat) : Nat.ofDigitChars 10 (decimal n) 0 = n :=
  Nat.ofDigitChars_ten_toDigits

/-- Different numbers have different digits. -/
theorem decimal_injective : Function.Injective decimal := fun a b h => by
  rw [← ofDigitChars_decimal a, h, ofDigitChars_decimal]

/-- A decimal number has at least one digit. -/
theorem decimal_ne_nil (n : Nat) : decimal n ≠ [] := Nat.toDigits_ne_nil

/-! ### Numerals -/

/-- The fraction of a numeral, if it has one. -/
def fraction : List Char → List Char
  | [] => []
  | c :: cs => '.' :: c :: cs

/-- The exponent of a numeral, if it has one. -/
def power : Option Int → List Char
  | none => []
  | some e => 'e' :: (if 0 ≤ e then '+' else '-') :: decimal e.natAbs

/-- Digits, with a fraction and an exponent. -/
def numeral (whole frac : List Char) (e : Option Int) : List Char :=
  whole ++ (fraction frac ++ power e)

/-- Lists of digits. -/
def Digits (s : List Char) : Prop := ∀ c ∈ s, c.isDigit = true

/-- An exponent part does not start with a digit. -/
theorem stops_power (e : Option Int) : Delimited.Stops (fun c => c.isDigit = true) (power e) := by
  cases e <;> simp [Delimited.Stops, power]

/-- A fraction with an exponent part does not start with a digit. -/
theorem stops_fraction (frac : List Char) (e : Option Int) :
    Delimited.Stops (fun c => c.isDigit = true) (fraction frac ++ power e) := by
  cases frac with
  | nil => exact stops_power e
  | cons => simp [Delimited.Stops, fraction]

/-- Different exponents have different texts. -/
theorem power_injective : Function.Injective power := by
  intro e e' h
  cases e with
  | none =>
    cases e' with
    | none => rfl
    | some n => cases h
  | some m =>
    cases e' with
    | none => cases h
    | some n =>
      simp only [power, List.cons.injEq, true_and] at h
      have habs := decimal_injective h.2
      have hsign := h.1
      split at hsign <;> split at hsign
      · congr 1
        omega
      · cases hsign
      · cases hsign
      · congr 1
        omega

/-- **The parts of a numeral can be read back.** -/
theorem numeral_inj {whole whole' frac frac' : List Char} {e e' : Option Int} (hw : Digits whole)
    (hw' : Digits whole') (hf : Digits frac) (hf' : Digits frac')
    (h : numeral whole frac e = numeral whole' frac' e') :
    whole = whole' ∧ frac = frac' ∧ e = e' := by
  obtain ⟨rfl, hrest⟩ := Delimited.append_inj_of_stops hw hw' (stops_fraction frac e)
    (stops_fraction frac' e') h
  refine ⟨rfl, ?_⟩
  -- a fraction starts with the point, and an exponent does not
  have hpoint : ∀ (q : Option Int) (c : Char) (cs : List Char), power q ≠ '.' :: c :: cs := by
    intro q c cs hq
    cases q <;> simp [power] at hq
  cases frac with
  | nil =>
    cases frac' with
    | nil => exact ⟨rfl, power_injective hrest⟩
    | cons c cs => exact absurd hrest (hpoint e c _)
  | cons c cs =>
    cases frac' with
    | nil => exact absurd hrest.symm (hpoint e' c _)
    | cons d ds =>
      obtain ⟨hfrac, hpower⟩ := Delimited.append_inj_of_stops hf hf' (stops_power e)
        (stops_power e') (List.cons.inj hrest).2
      exact ⟨hfrac, power_injective hpower⟩

/-! ### The text of a number -/

/-- The parts of a numeral denote `digits * 10 ^ exponent`: their digits are `digits` with some
zeros, and the exponent, the fraction and the zeros shift by `exponent`. -/
structure Denotes (whole frac : List Char) (e : Option Int) (digits : Nat) (exponent : Int) :
    Prop where
  digitsWhole : Digits whole
  digitsFrac : Digits frac
  nonempty : whole ≠ []
  value : ∃ zeros : Nat, Nat.ofDigitChars 10 (whole ++ frac) 0 = digits * 10 ^ zeros ∧
    e.getD 0 - frac.length + zeros = exponent

/-- Zeros are digits. -/
theorem digits_replicate (n : Nat) : Digits (List.replicate n '0') := by
  intro c hc
  rw [List.eq_of_mem_replicate hc]
  rfl

/-- Digits followed by digits are digits. -/
theorem Digits.append {s t : List Char} (hs : Digits s) (ht : Digits t) : Digits (s ++ t) := by
  intro c hc
  rcases List.mem_append.mp hc with hc | hc
  · exact hs c hc
  · exact ht c hc

/-- A fraction with digits is a point and these digits. -/
theorem fraction_of_ne_nil {frac : List Char} (h : frac ≠ []) : fraction frac = '.' :: frac := by
  cases frac with
  | nil => exact absurd rfl h
  | cons => rfl

section Forms

variable {s : List Char} {d : Nat} {exponent : Int}

/-- An integer with zeros at its end. -/
theorem denotes_integer (hs : Digits s) (hne : s ≠ []) (hd : Nat.ofDigitChars 10 s 0 = d)
    {zeros : Nat} (hzeros : exponent = zeros) :
    Denotes (s ++ List.replicate zeros '0') [] none d exponent where
  digitsWhole := hs.append (digits_replicate zeros)
  digitsFrac := fun _ hc => by cases hc
  nonempty := by simp [hne]
  value := by
    refine ⟨zeros, ?_, by simp [hzeros]⟩
    rw [List.append_nil, Nat.ofDigitChars_append, hd, Nat.ofDigitChars_replicate_zero,
      Nat.mul_comm]

/-- A point inside the digits. -/
theorem denotes_point (hs : Digits s) (hd : Nat.ofDigitChars 10 s 0 = d) {k : Nat} (hk : 0 < k)
    (hlt : k ≤ s.length) (hexponent : exponent = k - s.length) :
    Denotes (s.take k) (s.drop k) none d exponent where
  digitsWhole := fun c hc => hs c (List.mem_of_mem_take hc)
  digitsFrac := fun c hc => hs c (List.mem_of_mem_drop hc)
  nonempty := by
    intro hnil
    have := congrArg List.length hnil
    rw [List.length_take, List.length_nil] at this
    omega
  value := by
    refine ⟨0, by rw [List.take_append_drop, hd, pow_zero, mul_one], ?_⟩
    rw [Option.getD_none, List.length_drop]
    omega

/-- A point and zeros before the digits. -/
theorem denotes_small (hs : Digits s) (hd : Nat.ofDigitChars 10 s 0 = d) {zeros : Nat}
    (hexponent : exponent = -(zeros + s.length)) :
    Denotes ['0'] (List.replicate zeros '0' ++ s) none d exponent where
  digitsWhole := digits_replicate 1
  digitsFrac := (digits_replicate zeros).append hs
  nonempty := by simp
  value := by
    refine ⟨0, ?_, ?_⟩
    · have hhead : Nat.ofDigitChars 10 ['0'] 0 = 0 := rfl
      rw [Nat.ofDigitChars_append, hhead, Nat.ofDigitChars_append,
        Nat.ofDigitChars_replicate_zero, mul_zero, hd, pow_zero, mul_one]
    · rw [Option.getD_none, List.length_append, List.length_replicate]
      push_cast
      omega

/-- A first digit, a fraction and an exponent. -/
theorem denotes_power {c : Char} {frac : List Char} (hs : Digits (c :: frac))
    (hd : Nat.ofDigitChars 10 (c :: frac) 0 = d) {e : Int} (hexponent : exponent = e - frac.length) :
    Denotes [c] frac (some e) d exponent where
  digitsWhole := fun x hx => hs x (by simpa using .inl (List.mem_singleton.mp hx))
  digitsFrac := fun x hx => hs x (List.mem_cons_of_mem c hx)
  nonempty := by simp
  value := by
    refine ⟨0, by rw [List.singleton_append, hd, pow_zero, mul_one], ?_⟩
    rw [Option.getD_some]
    omega

end Forms

/-- **The text of a number** is its sign and a numeral of its value.

**Proof sketch.** By the four forms of `Number::toString`: digits followed by zeros, digits with a
point, zeros behind a point, and a power of ten. Each of them is a numeral whose value is that of
the digits times the power. -/
theorem JsNumber.numeral_body (x : JsNumber) : ∃ whole frac e,
    x.text = (if x.negative then ['-'] else []) ++ numeral whole frac e ∧
      Denotes whole frac e x.digits x.exponent := by
  have hs : Digits (decimal x.digits) := fun c hc => isDigit_decimal hc
  have hvalue := ofDigitChars_decimal x.digits
  have hne := decimal_ne_nil x.digits
  -- the forms concern the text without its sign
  have hbody : ∀ body : List Char,
      (∃ whole frac e, body = numeral whole frac e ∧
        Denotes whole frac e x.digits x.exponent) →
      ∃ whole frac e, (if x.negative then ['-'] else []) ++ body =
          (if x.negative then ['-'] else []) ++ numeral whole frac e ∧
        Denotes whole frac e x.digits x.exponent := by
    rintro body ⟨whole, frac, e, rfl, h⟩
    exact ⟨whole, frac, e, rfl, h⟩
  unfold JsNumber.text
  generalize decimal x.digits = s at hs hvalue hne
  have hlength : 0 < s.length := List.length_pos_of_ne_nil hne
  refine hbody _ ?_
  split
  · rename_i hzero
    have hexponent : x.exponent = 0 := by
      rcases x.normal with h | h
      · rw [hzero] at h
        exact absurd rfl h
      · exact h.2.1
    refine ⟨['0'], [], none, rfl, ?_⟩
    rw [hzero]
    have hinteger : Denotes (['0'] ++ List.replicate 0 '0') [] none 0 x.exponent :=
      denotes_integer (digits_replicate 1) (by simp) rfl hexponent
    exact hinteger
  split
  · rename_i _ hplain
    refine ⟨s ++ List.replicate ((s.length : Int) + x.exponent - s.length).toNat '0', [], none,
      by simp [numeral, fraction, power], denotes_integer hs hne hvalue (by omega)⟩
  split
  · rename_i _ hplain hpoint
    obtain ⟨k, hk⟩ := Int.eq_ofNat_of_zero_le hpoint.1.le
    have hlt : k < s.length := by omega
    refine ⟨s.take k, s.drop k, none, ?_, denotes_point hs hvalue (by omega) hlt.le (by omega)⟩
    rw [numeral, fraction_of_ne_nil (by simp; omega), power, List.append_nil, hk, Int.toNat_natCast]
  split
  · rename_i _ _ _ hsmall
    obtain ⟨k, hk⟩ := Int.eq_ofNat_of_zero_le (a := -((s.length : Int) + x.exponent)) (by omega)
    refine ⟨['0'], List.replicate k '0' ++ s, none, ?_, denotes_small hs hvalue (by omega)⟩
    rw [numeral, fraction_of_ne_nil (by simp [hne]), power, List.append_nil, hk,
      Int.toNat_natCast]
    rfl
  · cases s with
    | nil => exact absurd rfl hne
    | cons c frac =>
      refine ⟨[c], frac, some ((c :: frac).length + x.exponent - 1), ?_,
        denotes_power hs hvalue (by rw [List.length_cons]; push_cast; omega)⟩
      cases frac <;> simp [numeral, fraction, power]

/-- A number is determined by what the parts of its text denote. -/
theorem Denotes.unique {whole frac : List Char} {e : Option Int} {x y : JsNumber}
    (hx : Denotes whole frac e x.digits x.exponent)
    (hy : Denotes whole frac e y.digits y.exponent) :
    x.digits = y.digits ∧ x.exponent = y.exponent := by
  obtain ⟨m, hm, hme⟩ := hx.value
  obtain ⟨n, hn, hne⟩ := hy.value
  have hvalue : x.digits * 10 ^ m = y.digits * 10 ^ n := hm.symm.trans hn
  -- a normal form has no zeros at its end
  have hzeros : ∀ {a b : Nat} {k l : Nat}, a % 10 ≠ 0 → a * 10 ^ k = b * 10 ^ l → l ≤ k := by
    intro a b k l ha heq
    by_contra hlt
    obtain ⟨j, rfl⟩ : ∃ j, l = k + (j + 1) := ⟨l - k - 1, by omega⟩
    have : a = b * 10 ^ j * 10 := by
      apply Nat.eq_of_mul_eq_mul_right (Nat.pow_pos (n := k) (show 0 < 10 by norm_num))
      rw [heq]
      ring
    omega
  have hzero : ∀ {a b : Nat} {k l : Nat}, a = 0 → a * 10 ^ k = b * 10 ^ l → b = 0 := by
    intro a b k l ha heq
    rw [ha, Nat.zero_mul] at heq
    exact (Nat.mul_eq_zero.mp heq.symm).resolve_right (Nat.pow_pos (by norm_num)).ne'
  rcases x.normal with hxn | ⟨hx0, hxe, -⟩
  · rcases y.normal with hyn | ⟨hy0, -, -⟩
    · obtain rfl : m = n := le_antisymm (hzeros hyn hvalue.symm) (hzeros hxn hvalue)
      refine ⟨Nat.eq_of_mul_eq_mul_right (Nat.pow_pos (by norm_num)) hvalue, by omega⟩
    · rw [hzero hy0 hvalue.symm] at hxn
      exact absurd rfl hxn
  · have hy0 := hzero hx0 hvalue
    rcases y.normal with hyn | ⟨-, hye, -⟩
    · rw [hy0] at hyn
      exact absurd rfl hyn
    · exact ⟨by rw [hx0, hy0], by rw [hxe, hye]⟩

/-- The characters of the texts of numbers. -/
def NumberChar (c : Char) : Prop :=
  c.isDigit = true ∨ c = '-' ∨ c = '+' ∨ c = '.' ∨ c = 'e'

/-- The text of a number has characters of numbers only. -/
theorem numberChar_text (x : JsNumber) : ∀ c ∈ x.text, NumberChar c := by
  obtain ⟨whole, frac, e, htext, hdenotes⟩ := x.numeral_body
  intro c hc
  rw [htext, numeral] at hc
  simp only [List.mem_append] at hc
  rcases hc with hc | hc | hc | hc
  · split at hc
    · exact .inr (.inl (List.mem_singleton.mp hc))
    · cases hc
  · exact .inl (hdenotes.digitsWhole c hc)
  · cases frac with
    | nil => cases hc
    | cons d ds =>
      rcases List.mem_cons.mp hc with rfl | hc
      · exact .inr (.inr (.inr (.inl rfl)))
      · exact .inl (hdenotes.digitsFrac c hc)
  · cases e with
    | none => cases hc
    | some n =>
      simp only [power, List.mem_cons] at hc
      rcases hc with rfl | hc | hc
      · exact .inr (.inr (.inr (.inr rfl)))
      · split at hc
        · exact .inr (.inr (.inl hc))
        · exact .inr (.inl hc)
      · exact .inl (isDigit_decimal hc)

/-- **Different numbers have different texts.** -/
theorem JsNumber.text_injective : Function.Injective JsNumber.text := by
  intro x y h
  obtain ⟨whole, frac, e, hx, hdx⟩ := x.numeral_body
  obtain ⟨whole', frac', e', hy, hdy⟩ := y.numeral_body
  rw [hx, hy] at h
  -- a numeral does not start with a sign
  have hdigit : ∀ {w f : List Char} {q : Option Int}, Digits w → w ≠ [] →
      ∀ t, '-' :: t ≠ numeral w f q := by
    intro w f q hw hne t heq
    cases w with
    | nil => exact hne rfl
    | cons c w =>
      have hminus := hw c (by simp)
      rw [← (List.cons.inj heq).1] at hminus
      cases hminus
  have hsign : x.negative = y.negative ∧ numeral whole frac e = numeral whole' frac' e' := by
    cases hxn : x.negative <;> cases hyn : y.negative <;> rw [hxn, hyn] at h
    · exact ⟨rfl, h⟩
    · exact absurd h.symm (hdigit hdx.digitsWhole hdx.nonempty _)
    · exact absurd h (hdigit hdy.digitsWhole hdy.nonempty _)
    · exact ⟨rfl, (List.cons.inj h).2⟩
  obtain ⟨rfl, rfl, rfl⟩ := numeral_inj hdx.digitsWhole hdy.digitsWhole hdx.digitsFrac
    hdy.digitsFrac hsign.2
  obtain ⟨hdigits, hexponent⟩ := hdx.unique hdy
  cases x
  cases y
  obtain rfl := hsign.1
  obtain rfl := hdigits
  obtain rfl := hexponent
  rfl

end NetworkAi
