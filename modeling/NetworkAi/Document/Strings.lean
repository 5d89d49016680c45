import NetworkAi.Document.Js
import NetworkAi.Lib.Delimited

set_option relaxedAutoImplicit false
set_option autoImplicit false

/-!
# Quoted strings

A string of JavaScript is a sequence of UTF-16 code units, whose surrogates need not be paired.
`JSON.stringify` writes out its code points; a surrogate without its pair is escaped, so that the
text is Unicode again.

## Main definitions

* `NetworkAi.JsString` — sequences of code units; `NetworkAi.unitsOf` — those of a text.
* `NetworkAi.codePoints` — `StringToCodePoints`.
* `NetworkAi.quoteUnits` — `JSON.stringify` of a string.

## Main results

* `NetworkAi.codePoints_injective` — the code points determine the code units.
* `NetworkAi.readPoint_quotePoint` — an escaped code point can be read back.
* `NetworkAi.reads_quoteUnits` — a quoted string ends at its quotation mark.
-/

namespace NetworkAi

/-! ### Code units and code points -/

/-- A UTF-16 code unit. -/
abbrev CodeUnit := Fin 0x10000

/-- A code point, which may be a surrogate. -/
abbrev CodePoint := Fin 0x110000

/-- A string of JavaScript. -/
abbrev JsString := List CodeUnit

/-- A leading surrogate. -/
def CodeUnit.leads (u : CodeUnit) : Bool := 0xd800 ≤ u.val ∧ u.val < 0xdc00

/-- A trailing surrogate. -/
def CodeUnit.trails (u : CodeUnit) : Bool := 0xdc00 ≤ u.val ∧ u.val < 0xe000

/-- The code point of a single code unit. -/
def CodeUnit.point (u : CodeUnit) : CodePoint := ⟨u.val, by omega⟩

/-- The code point of a pair of surrogates. -/
def pairPoint (h l : CodeUnit) : CodePoint :=
  .ofNat _ (0x10000 + (h.val - 0xd800) * 0x400 + (l.val - 0xdc00))

/-- `StringToCodePoints`. -/
def codePoints : JsString → List CodePoint
  | [] => []
  | [u] => [u.point]
  | h :: l :: s =>
    if h.leads ∧ l.trails then pairPoint h l :: codePoints s else h.point :: codePoints (l :: s)

/-- The code units of a code point. -/
def CodePoint.units (p : CodePoint) : JsString :=
  if p.val < 0x10000 then [.ofNat _ p.val]
  else [.ofNat _ (0xd800 + (p.val - 0x10000) / 0x400),
    .ofNat _ (0xdc00 + (p.val - 0x10000) % 0x400)]

/-- The point of a single code unit has this unit. -/
theorem units_point (u : CodeUnit) : u.point.units = [u] := by
  have hu : u.point.val < 0x10000 := u.isLt
  rw [CodePoint.units, if_pos hu, List.cons.injEq]
  exact ⟨Fin.ext ((Fin.val_ofNat _ _).trans (Nat.mod_eq_of_lt hu)), rfl⟩

/-- The point of a surrogate pair has the two units of the pair. -/
theorem units_pairPoint {h l : CodeUnit} (hh : h.leads = true) (hl : l.trails = true) :
    (pairPoint h l).units = [h, l] := by
  simp only [CodeUnit.leads, CodeUnit.trails, decide_eq_true_eq] at hh hl
  have hval : (pairPoint h l).val = 0x10000 + (h.val - 0xd800) * 0x400 + (l.val - 0xdc00) := by
    rw [pairPoint, Fin.val_ofNat]
    omega
  rw [CodePoint.units, if_neg (by omega), hval, List.cons.injEq, List.cons.injEq]
  refine ⟨Fin.ext ?_, Fin.ext ?_, rfl⟩
  · rw [Fin.val_ofNat]
    omega
  · rw [Fin.val_ofNat]
    omega

/-- The code points of a string give back its code units. -/
theorem flatMap_codePoints (s : JsString) : (codePoints s).flatMap CodePoint.units = s := by
  induction s using codePoints.induct with
  | case1 => rfl
  | case2 u => simp [codePoints, units_point]
  | case3 h l s hpair ih =>
    rw [codePoints, if_pos hpair, List.flatMap_cons, ih, units_pairPoint hpair.1 hpair.2]
    rfl
  | case4 h l s hpair ih =>
    rw [codePoints, if_neg hpair, List.flatMap_cons, ih, units_point]
    rfl

/-- **The code points determine the code units.** -/
theorem codePoints_injective : Function.Injective codePoints := fun a b h => by
  rw [← flatMap_codePoints a, h, flatMap_codePoints b]

/-! ### Quotation -/

/-- A code point that is no Unicode scalar value. -/
def CodePoint.surrogate (p : CodePoint) : Bool := 0xd800 ≤ p.val ∧ p.val < 0xe000

/-- Four hexadecimal digits. -/
def hex4 (n : Nat) : List Char :=
  [Nat.digitChar (n / 4096 % 16), Nat.digitChar (n / 256 % 16), Nat.digitChar (n / 16 % 16),
    Nat.digitChar (n % 16)]

/-- One code point inside a JSON string. -/
def quotePoint (p : CodePoint) : List Char :=
  if p.surrogate then '\\' :: 'u' :: hex4 p.val else escape (Char.ofNat p.val)

/-- `JSON.stringify` of a string. -/
def quoteUnits (s : JsString) : List Char := '"' :: ((codePoints s).flatMap quotePoint ++ ['"'])

/-! ### Reading a quoted string -/

/-- The value of a hexadecimal digit. -/
def hexValue (c : Char) : Nat :=
  if c.toNat < 58 then c.toNat - 48 else c.toNat - 87

/-- A hexadecimal digit is read back. -/
theorem hexValue_digitChar {n : Nat} (h : n < 16) : hexValue (Nat.digitChar n) = n := by
  have hall : ∀ n : Fin 16, hexValue (Nat.digitChar n.val) = n.val := by decide
  exact hall ⟨n, h⟩

/-- The character that a backslash and `c` stand for. -/
def unescape (c : Char) : Nat :=
  if c = 'b' then 8 else if c = 'f' then 12 else if c = 'n' then 10 else if c = 'r' then 13
  else if c = 't' then 9 else c.toNat

/-- The first code point inside a JSON string. -/
def readPoint : List Char → Option (Nat × List Char)
  | '\\' :: 'u' :: a :: b :: c :: d :: r =>
    some (hexValue a * 4096 + hexValue b * 256 + hexValue c * 16 + hexValue d, r)
  | '\\' :: c :: r => some (unescape c, r)
  | c :: r => some (c.toNat, r)
  | [] => none

/-- Four hexadecimal digits behind a backslash and a `u` are read back. -/
theorem readPoint_hex4 {n : Nat} (h : n < 0x10000) (r : List Char) :
    readPoint ('\\' :: 'u' :: (hex4 n ++ r)) = some (n, r) := by
  simp only [hex4, List.cons_append, List.nil_append, readPoint]
  rw [hexValue_digitChar (by omega), hexValue_digitChar (by omega),
    hexValue_digitChar (by omega), hexValue_digitChar (by omega)]
  congr 2
  omega

/-- An escaped character is read back.

**Proof sketch.** By the character: the two that are escaped by themselves, the five with a letter,
the control characters with four hexadecimal digits, and all others as they are. -/
theorem readPoint_escape (c : Char) (r : List Char) :
    readPoint (escape c ++ r) = some (c.toNat, r) := by
  unfold escape
  split
  · rename_i hc
    subst hc
    rfl
  split
  · rename_i hc
    subst hc
    rfl
  split
  · rename_i hc
    rw [hc]
    rfl
  split
  · rename_i hc
    rw [hc]
    rfl
  split
  · rename_i hc
    subst hc
    rfl
  split
  · rename_i hc
    subst hc
    rfl
  split
  · rename_i hc
    subst hc
    rfl
  split
  · rename_i hc
    have hhex := readPoint_hex4 (n := c.toNat) (by omega) r
    have hzeros : c.toNat / 4096 % 16 = 0 ∧ c.toNat / 256 % 16 = 0 := by omega
    have hmod : c.toNat / 16 % 16 = c.toNat / 16 := by omega
    rw [hex4, hzeros.1, hzeros.2, hmod] at hhex
    exact hhex
  · rename_i _ hbackslash _ _ _ _ _ _
    rw [List.singleton_append, readPoint]
    · exact fun a b c' d r' hc => absurd hc hbackslash
    · exact fun c' r' hc => absurd hc hbackslash

/-- A code point that is no surrogate is a character. -/
theorem toNat_ofNat {p : CodePoint} (h : p.surrogate = false) :
    (Char.ofNat p.val).toNat = p.val := by
  have hvalid : p.val.isValidChar := by
    simp only [CodePoint.surrogate, decide_eq_false_iff_not, not_and, not_lt] at h
    have hlt := p.isLt
    rcases Nat.lt_or_ge p.val 0xd800 with hlow | hhigh
    · exact .inl hlow
    · exact .inr ⟨by have := h hhigh; omega, by omega⟩
  rw [Char.ofNat, dif_pos hvalid]
  rfl

/-- **An escaped code point can be read back.** -/
theorem readPoint_quotePoint (p : CodePoint) (r : List Char) :
    readPoint (quotePoint p ++ r) = some (p.val, r) := by
  rw [quotePoint]
  split
  · rename_i hp
    simp only [CodePoint.surrogate, decide_eq_true_eq] at hp
    exact readPoint_hex4 (by omega) r
  · rename_i hp
    rw [readPoint_escape, toNat_ofNat (by simpa using hp)]

/-- A quoted code point is read back, whatever follows. -/
theorem reads_quotePoint (p : CodePoint) : Delimited.Reads (fun _ => True) quotePoint Eq p := by
  intro q r r' _ _ h
  have hread := readPoint_quotePoint p r
  rw [h, readPoint_quotePoint q r', Option.some.injEq, Prod.mk.injEq] at hread
  exact ⟨Fin.ext hread.1.symm, hread.2.symm⟩

/-- No escaped code point starts with a quotation mark. -/
theorem quotePoint_head (p : CodePoint) (r : List Char) :
    (quotePoint p ++ r).head? ≠ some '"' := by
  have hescape : ∀ c : Char, (escape c ++ r).head? ≠ some '"' := by
    intro c
    unfold escape
    split
    · simp
    · rename_i hc
      repeat' split
      all_goals simp [hc]
  rw [quotePoint]
  split
  · simp
  · exact hescape _

/-- **A quoted string** ends at its quotation mark. -/
theorem reads_quoteUnits (s : JsString) : Delimited.Reads (fun _ => True) quoteUnits Eq s := by
  intro t r r' _ _ h
  have htail : ((codePoints s).flatMap quotePoint ++ ['"']) ++ r =
      ((codePoints t).flatMap quotePoint ++ ['"']) ++ r' := (List.cons.inj h).2
  obtain ⟨hpoints, hrest⟩ := Delimited.reads_flatMap quotePoint_head
    (fun p _ => reads_quotePoint p) (codePoints t) r r' trivial trivial htail
  exact ⟨codePoints_injective hpoints, hrest⟩

/-! ### Texts -/

/-- The code units of a character. -/
def charUnits (c : Char) : JsString := (utf16 c).map (Fin.ofNat _)

/-- The code units of a text. -/
def unitsOf (s : String) : JsString := s.toList.flatMap charUnits

/-- A character as a code point. -/
def charPoint (c : Char) : CodePoint := .ofNat _ c.toNat

/-- A character is a code point that is no surrogate. -/
theorem toNat_lt (c : Char) : c.toNat < 0x110000 ∧ (c.toNat < 0xd800 ∨ 0xe000 ≤ c.toNat) := by
  rcases c.valid with h | h
  · exact ⟨Nat.lt_trans h (by omega), .inl h⟩
  · exact ⟨h.2, .inr (Nat.succ_le_of_lt h.1)⟩

/-- The code point of a character has its number. -/
theorem val_charPoint (c : Char) : (charPoint c).val = c.toNat := by
  rw [charPoint, Fin.val_ofNat, Nat.mod_eq_of_lt (toNat_lt c).1]

/-- The code units of a character are in range. -/
theorem map_val_charUnits (c : Char) : (charUnits c).map Fin.val = utf16 c := by
  have hc := toNat_lt c
  unfold charUnits utf16
  split
  · rename_i hlow
    simp [Nat.mod_eq_of_lt hlow]
  · simp only [List.map_cons, List.map_nil, Fin.val_ofNat, List.cons.injEq, and_true]
    omega

/-- The code units of a text, as numbers. -/
theorem map_val_unitsOf (s : String) : (unitsOf s).map Fin.val = s.toList.flatMap utf16 := by
  simp only [unitsOf, List.map_flatMap, map_val_charUnits]

/-- A unit that leads no pair is a code point of its own. -/
theorem codePoints_cons {u : CodeUnit} (h : u.leads = false) (s : JsString) :
    codePoints (u :: s) = u.point :: codePoints s := by
  cases s with
  | nil => rfl
  | cons v s =>
    rw [codePoints, if_neg]
    rw [h]
    rintro ⟨hlead, -⟩
    cases hlead

/-- The first character of a text is its first code point. -/
theorem codePoints_charUnits (c : Char) (s : JsString) :
    codePoints (charUnits c ++ s) = charPoint c :: codePoints s := by
  have hc := toNat_lt c
  unfold charUnits utf16
  split
  · rename_i hlow
    have hlead : CodeUnit.leads (.ofNat _ c.toNat) = false := by
      simp only [CodeUnit.leads, decide_eq_false_iff_not, Fin.val_ofNat]
      omega
    rw [List.map_singleton, List.singleton_append, codePoints_cons hlead, List.cons.injEq]
    refine ⟨Fin.ext ?_, rfl⟩
    rw [val_charPoint, CodeUnit.point, Fin.val_ofNat, Nat.mod_eq_of_lt hlow]
  · rename_i hhigh
    have hlead : CodeUnit.leads (.ofNat _ (0xd800 + (c.toNat - 0x10000) / 0x400)) = true := by
      simp only [CodeUnit.leads, decide_eq_true_eq, Fin.val_ofNat]
      omega
    have htrail : CodeUnit.trails (.ofNat _ (0xdc00 + (c.toNat - 0x10000) % 0x400)) = true := by
      simp only [CodeUnit.trails, decide_eq_true_eq, Fin.val_ofNat]
      omega
    rw [List.map_cons, List.map_singleton, List.cons_append, List.cons_append, List.nil_append,
      codePoints, if_pos ⟨hlead, htrail⟩, List.cons.injEq]
    refine ⟨Fin.ext ?_, rfl⟩
    rw [val_charPoint, pairPoint, Fin.val_ofNat, Fin.val_ofNat, Fin.val_ofNat]
    omega

/-- The code points of a text are its characters. -/
theorem codePoints_unitsOf (s : String) : codePoints (unitsOf s) = s.toList.map charPoint := by
  unfold unitsOf
  induction s.toList with
  | nil => rfl
  | cons c cs ih => rw [List.flatMap_cons, codePoints_charUnits, ih, List.map_cons]

/-- **A text is quoted as its code units are.** -/
theorem quoteString_eq (s : String) : quoteString s = quoteUnits (unitsOf s) := by
  have hpoint : ∀ c, quotePoint (charPoint c) = escape c := by
    intro c
    have hc := toNat_lt c
    have hsurrogate : (charPoint c).surrogate = false := by
      simp only [CodePoint.surrogate, decide_eq_false_iff_not, val_charPoint]
      omega
    rw [quotePoint, hsurrogate, val_charPoint, Char.ofNat_toNat]
    rfl
  rw [quoteString, quoteUnits, codePoints_unitsOf, List.flatMap_map]
  simp only [hpoint]

end NetworkAi
