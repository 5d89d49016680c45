import Mathlib.Data.List.Lex
import Mathlib.Data.List.Sort
import Mathlib.Data.Nat.Log
import Mathlib.Tactic.Ring

set_option relaxedAutoImplicit false
set_option autoImplicit false

/-!
# JavaScript values and their canonical text

The values the coordinator hashes and stores, and the function `canonical` of `security.ts` that
turns one into the text that is hashed. A value is what `canonical` is applied to in memory: it
may hold a `Date` object or an `undefined` member, which JSON text cannot.

## Main definitions

* `NetworkAi.Js` — JavaScript values; `NetworkAi.JsNumber` — finite numbers by their shortest
  decimal digits.
* `NetworkAi.quoteString`, `NetworkAi.JsNumber.text` — `JSON.stringify` of a string and of a number.
* `NetworkAi.canonical` — the canonical text.

## Implementation notes

A finite number is represented by the digits and the exponent that `Number::toString` prints, in
the normal form without trailing zeros; this covers every double. Object members are kept in the
order of their creation, which `canonical` sorts away. A text that is built and then hashed is a
list of characters.
-/

namespace NetworkAi

/-- A finite number `± digits · 10 ^ exponent`, with no trailing zero in `digits`. -/
structure JsNumber where
  negative : Bool
  digits : Nat
  exponent : Int
  normal : digits % 10 ≠ 0 ∨ (digits = 0 ∧ exponent = 0 ∧ negative = false)
  deriving DecidableEq

/-- Remove the trailing zeros of a digit sequence, counting them in the exponent. -/
def trimZeros : Nat → Nat → Int → Nat × Int
  | 0, d, e => (d, e)
  | fuel + 1, d, e => if d % 10 = 0 then trimZeros fuel (d / 10) (e + 1) else (d, e)

/-- Enough fuel removes every trailing zero of a positive number. -/
theorem trimZeros_mod : ∀ (fuel d : Nat) (e : Int), d ≠ 0 → d < 10 ^ fuel →
    (trimZeros fuel d e).1 % 10 ≠ 0
  | 0, d, e, h0, h => by simp at h; omega
  | fuel + 1, d, e, h0, h => by
    unfold trimZeros
    split
    · rename_i hd
      refine trimZeros_mod fuel _ _ (by omega) ?_
      rw [pow_succ] at h
      omega
    · assumption

/-- A natural number as a JavaScript number. -/
def JsNumber.ofNat (n : Nat) : JsNumber :=
  if h : n = 0 then ⟨false, 0, 0, .inr ⟨rfl, rfl, rfl⟩⟩
  else
    let r := trimZeros (Nat.log 10 n + 1) n 0
    ⟨false, r.1, r.2, .inl (trimZeros_mod _ n 0 h (Nat.lt_pow_succ_log_self (by norm_num) n))⟩

/-- The values a document is built from. -/
inductive Js where
  | null
  | bool (b : Bool)
  | num (n : JsNumber)
  | str (s : String)
  | arr (items : List Js)
  | obj (members : List (String × Js))
  /-- A `Date` object, by its milliseconds since the epoch. -/
  | date (ms : Int)
  /-- A member that is present with the value `undefined`. -/
  | undefined

/-! ### Numbers and strings as `JSON.stringify` prints them -/

/-- The decimal digits of a number. -/
def decimal (n : Nat) : List Char := Nat.toDigits 10 n

/-- `Number::toString`: plain digits up to 21 places, otherwise the exponent form. -/
def JsNumber.text (x : JsNumber) : List Char :=
  let s := decimal x.digits
  let k : Int := s.length
  let n : Int := k + x.exponent
  let sign := if x.negative then ['-'] else []
  let body :=
    if x.digits = 0 then ['0']
    else if k ≤ n ∧ n ≤ 21 then s ++ List.replicate (n - k).toNat '0'
    else if 0 < n ∧ n ≤ 21 then s.take n.toNat ++ '.' :: s.drop n.toNat
    else if -6 < n ∧ n ≤ 0 then '0' :: '.' :: (List.replicate (-n).toNat '0' ++ s)
    else
      let e := n - 1
      let power := (if 0 ≤ e then '+' else '-') :: decimal e.natAbs
      match s with
      | [d] => d :: 'e' :: power
      | d :: rest => d :: '.' :: (rest ++ 'e' :: power)
      | [] => []
  sign ++ body

/-- One character inside a JSON string. -/
def escape (c : Char) : List Char :=
  if c = '"' then ['\\', '"']
  else if c = '\\' then ['\\', '\\']
  else if c.toNat = 8 then ['\\', 'b']
  else if c.toNat = 12 then ['\\', 'f']
  else if c = '\n' then ['\\', 'n']
  else if c = '\r' then ['\\', 'r']
  else if c = '\t' then ['\\', 't']
  else if c.toNat < 32 then
    ['\\', 'u', '0', '0', Nat.digitChar (c.toNat / 16), Nat.digitChar (c.toNat % 16)]
  else [c]

/-- `JSON.stringify` of a string. -/
def quoteString (s : String) : List Char := '"' :: (s.toList.flatMap escape ++ ['"'])

/-! ### The canonical text -/

/-- The UTF-16 code units of a character. -/
def utf16 (c : Char) : List Nat :=
  if c.toNat < 0x10000 then [c.toNat]
  else [0xd800 + (c.toNat - 0x10000) / 0x400, 0xdc00 + (c.toNat - 0x10000) % 0x400]

/-- The order of `Array.prototype.sort` on strings: by UTF-16 code units. -/
def keyLe (a b : String) : Prop := a.toList.flatMap utf16 ≤ b.toList.flatMap utf16

instance (a b : String) : Decidable (keyLe a b) := inferInstanceAs (Decidable (_ ≤ _))

/-- Texts separated by commas. -/
def commas : List (List Char) → List Char
  | [] => []
  | [t] => t
  | t :: u :: ts => t ++ ',' :: commas (u :: ts)

/-- What `Array.prototype.join` writes of an item with the given text: nothing of `undefined`. -/
def Js.joined (item : Js) (text : List Char) : List Char :=
  match item with
  | .undefined => []
  | _ => text

mutual

/-- `canonical` of `security.ts`: arrays and objects are written out with the objects' keys
sorted, every other value is `JSON.stringify`'s text. A `Date` is an object without own
enumerable keys, so it is written `{}`. -/
def canonical : Js → List Char
  | .null => ['n', 'u', 'l', 'l']
  | .bool true => ['t', 'r', 'u', 'e']
  | .bool false => ['f', 'a', 'l', 's', 'e']
  | .num n => n.text
  | .str s => quoteString s
  | .arr items => '[' :: (commas (canonicalItems items) ++ [']'])
  | .obj members =>
    '{' :: (commas (((canonicalMembers members).insertionSort fun a b => keyLe a.1 b.1).map
      fun m => quoteString m.1 ++ ':' :: m.2) ++ ['}'])
  | .date _ => ['{', '}']
  | .undefined => ['u', 'n', 'd', 'e', 'f', 'i', 'n', 'e', 'd']

/-- The texts of the items of an array that `join` puts the commas between. -/
def canonicalItems : List Js → List (List Char)
  | [] => []
  | v :: vs => v.joined (canonical v) :: canonicalItems vs

/-- The members of an object with the canonical texts of their values; the template string of a
member writes `undefined` out. -/
def canonicalMembers : List (String × Js) → List (String × List Char)
  | [] => []
  | (k, v) :: ms => (k, canonical v) :: canonicalMembers ms

end

/-! ### Building values -/

/-- An amount, which the documents hold as a decimal string. -/
def Js.amount (n : Int) : Js :=
  .str (String.ofList ((if n < 0 then ['-'] else []) ++ decimal n.natAbs))

/-- A natural number. -/
def Js.nat (n : Nat) : Js := .num (.ofNat n)

/-- A string, or `null`. -/
def Js.strOrNull : Option String → Js
  | some s => .str s
  | none => .null

/-- `...(o ? { key: value } : {})`: a member that is present only with a value. -/
def Js.optional (key : String) : Option Js → List (String × Js)
  | some v => [(key, v)]
  | none => []

/-- The text of an identifier: 32 hexadecimal digits in the groups of a UUID. -/
def uuidText (id : Nat) : String :=
  let hex := Nat.toDigits 16 id
  let hex := List.replicate (32 - hex.length) '0' ++ hex
  String.ofList (hex.take 8 ++ '-' :: (hex.drop 8).take 4 ++ '-' :: (hex.drop 12).take 4 ++
    '-' :: (hex.drop 16).take 4 ++ '-' :: hex.drop 20)

/-- A number with leading zeros. -/
def padded (width n : Nat) : List Char :=
  let s := decimal n
  List.replicate (width - s.length) '0' ++ s

/-- `Date.prototype.toISOString`, in the proleptic Gregorian calendar: the days since the epoch
are counted in eras of 400 years that start on the first of March. -/
def isoText (ms : Int) : String :=
  let days := ms / 86400000
  let time := (ms % 86400000).toNat
  let shifted := days + 719468
  let era := shifted / 146097
  let dayOfEra := shifted % 146097
  let yearOfEra := (dayOfEra - dayOfEra / 1460 + dayOfEra / 36524 - dayOfEra / 146096) / 365
  let dayOfYear := dayOfEra - (365 * yearOfEra + yearOfEra / 4 - yearOfEra / 100)
  let march := (5 * dayOfYear + 2) / 153
  let day := dayOfYear - (153 * march + 2) / 5 + 1
  let month := if march < 10 then march + 3 else march - 9
  let year := yearOfEra + era * 400 + if month ≤ 2 then 1 else 0
  let yearText :=
    if 0 ≤ year ∧ year ≤ 9999 then padded 4 year.toNat
    else (if 0 ≤ year then '+' else '-') :: padded 6 year.natAbs
  String.ofList (yearText ++ '-' :: padded 2 month.toNat ++ '-' :: padded 2 day.toNat ++
    'T' :: padded 2 (time / 3600000) ++ ':' :: padded 2 (time / 60000 % 60) ++
    ':' :: padded 2 (time / 1000 % 60) ++ '.' :: padded 3 (time % 1000) ++ ['Z'])

example : isoText 951782400123 = "2000-02-29T00:00:00.123Z" := by decide +kernel

/-- An identifier. -/
def Js.uuid (id : Nat) : Js := .str (uuidText id)

/-- An identifier, or `null`. -/
def Js.uuidOrNull : Option Nat → Js
  | some id => .uuid id
  | none => .null

end NetworkAi
