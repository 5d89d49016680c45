import NetworkAi.Document.Numbers
import NetworkAi.Document.Strings
import Mathlib.Data.List.Perm.Basic
import Mathlib.Data.List.Lex

set_option relaxedAutoImplicit false
set_option autoImplicit false

/-!
# The canonical text of JSON values

Requests, consents and receipts are compared by the hash of their canonical text.  Two JSON values
have the same canonical text exactly when they are equal up to the order of the members of
objects, so that no request can be taken for another one.

## Main definitions

* `NetworkAi.Json` — JSON values as JavaScript holds them; `NetworkAi.JsonValue` — those whose
  objects have distinct keys.
* `NetworkAi.Json.canonical` — `canonical` on JSON values.
* `NetworkAi.Json.Same` — equality up to the order of members.

## Main results

* `NetworkAi.Json.reads_canonical` — a canonical text can be read out of a longer text.
* `NetworkAi.Json.Same.canonical_eq` — the order of members does not matter.
* `NetworkAi.canonical_injective` — canonical texts agree exactly on equal values.
* `NetworkAi.canonical_json` — the documents of the coordinator are such values.

## Implementation notes

Numbers are compared as numbers, so that negative zero, which is printed as zero, is zero.
-/

namespace NetworkAi

/-! ### JSON values -/

/-- JSON values; the members of an object in the order of their creation. -/
inductive Json where
  | null
  | bool (b : Bool)
  | num (n : JsNumber)
  | str (s : JsString)
  | arr (items : List Json)
  | obj (members : List (JsString × Json))

namespace Json

/-- Induction over the items of arrays and the members of objects. -/
@[elab_as_elim]
theorem induction {P : Json → Prop} (null : P .null) (bool : ∀ b, P (.bool b))
    (num : ∀ n, P (.num n)) (str : ∀ s, P (.str s))
    (arr : ∀ items, (∀ v ∈ items, P v) → P (.arr items))
    (obj : ∀ members, (∀ m ∈ members, P m.2) → P (.obj members)) (v : Json) : P v :=
  @Json.rec P (fun items => ∀ v ∈ items, P v) (fun members => ∀ m ∈ members, P m.2)
    (fun m => P m.2) null bool num str arr obj (fun _ h => by cases h)
    (fun _ _ hv hvs w hw => by
      rcases List.mem_cons.mp hw with rfl | hw
      · exact hv
      · exact hvs w hw)
    (fun _ h => by cases h)
    (fun _ _ hm hms n hn => by
      rcases List.mem_cons.mp hn with rfl | hn
      · exact hm
      · exact hms n hn)
    (fun _ _ hv => hv) v

mutual

/-- The keys of every object are distinct. -/
def Distinct : Json → Prop
  | .arr items => DistinctItems items
  | .obj members => (members.map Prod.fst).Nodup ∧ DistinctMembers members
  | _ => True

/-- The keys of every object in the items of an array are distinct. -/
def DistinctItems : List Json → Prop
  | [] => True
  | v :: vs => v.Distinct ∧ DistinctItems vs

/-- The keys of every object in the members of an object are distinct. -/
def DistinctMembers : List (JsString × Json) → Prop
  | [] => True
  | (_, v) :: ms => v.Distinct ∧ DistinctMembers ms

end

/-- The keys of the items are distinct if those of every item are. -/
theorem distinctItems_iff {items : List Json} :
    DistinctItems items ↔ ∀ v ∈ items, v.Distinct := by
  induction items with
  | nil => simp [DistinctItems]
  | cons v vs ih => simp [DistinctItems, ih]

/-- The keys of the values of members are distinct if those of every value are. -/
theorem distinctMembers_iff {members : List (JsString × Json)} :
    DistinctMembers members ↔ ∀ m ∈ members, m.2.Distinct := by
  induction members with
  | nil => simp [DistinctMembers]
  | cons m ms ih => simp [DistinctMembers, ih]

mutual

/-- Equality up to the order of the members of objects. -/
inductive Same : Json → Json → Prop
  | null : Same .null .null
  | bool (b : Bool) : Same (.bool b) (.bool b)
  | num (n : JsNumber) : Same (.num n) (.num n)
  | str (s : JsString) : Same (.str s) (.str s)
  | arr {items items' : List Json} (h : List.Forall₂ Same items items') :
      Same (.arr items) (.arr items')
  | obj {members members₁ members' : List (JsString × Json)} (hperm : members.Perm members₁)
      (h : List.Forall₂ SameMember members₁ members') : Same (.obj members) (.obj members')

/-- Members with one key and equal values. -/
inductive SameMember : JsString × Json → JsString × Json → Prop
  | mk {k : JsString} {v w : Json} (h : Same v w) : SameMember (k, v) (k, w)

end

/-! ### The canonical text -/

/-- The order of `Array.prototype.sort` on keys: by code units. -/
def keyLe (a b : JsString) : Prop := a.map Fin.val ≤ b.map Fin.val

instance (a b : JsString) : Decidable (keyLe a b) := inferInstanceAs (Decidable (_ ≤ _))

mutual

/-- `canonical`. -/
def canonical : Json → List Char
  | .null => ['n', 'u', 'l', 'l']
  | .bool true => ['t', 'r', 'u', 'e']
  | .bool false => ['f', 'a', 'l', 's', 'e']
  | .num n => n.text
  | .str s => quoteUnits s
  | .arr items => '[' :: (commas (canonicalItems items) ++ [']'])
  | .obj members =>
    '{' :: (commas (((canonicalMembers members).insertionSort fun a b => keyLe a.1 b.1).map
      fun m => quoteUnits m.1 ++ ':' :: m.2) ++ ['}'])

/-- The canonical texts of the items of an array. -/
def canonicalItems : List Json → List (List Char)
  | [] => []
  | v :: vs => v.canonical :: canonicalItems vs

/-- The members of an object with the canonical texts of their values. -/
def canonicalMembers : List (JsString × Json) → List (JsString × List Char)
  | [] => []
  | (k, v) :: ms => (k, v.canonical) :: canonicalMembers ms

end

/-- The texts of the items, one by one. -/
theorem canonicalItems_eq (items : List Json) : canonicalItems items = items.map canonical := by
  induction items with
  | nil => rfl
  | cons v vs ih => rw [canonicalItems, ih, List.map_cons]

/-- The texts of the members, one by one. -/
theorem canonicalMembers_eq (members : List (JsString × Json)) :
    canonicalMembers members = members.map fun m => (m.1, m.2.canonical) := by
  induction members with
  | nil => rfl
  | cons m ms ih => rw [canonicalMembers, ih, List.map_cons]

/-- Texts with commas between them are separated texts. -/
theorem commas_eq : ∀ ts : List (List Char), commas ts = Delimited.separated ',' ts
  | [] => rfl
  | [_] => rfl
  | t :: u :: ts => by rw [commas, Delimited.separated, commas_eq (u :: ts)]

/-- The members of an object in the order of their keys. -/
def sorted (members : List (JsString × Json)) : List (JsString × Json) :=
  members.insertionSort fun a b => keyLe a.1 b.1

/-- The text of a member. -/
def memberText (m : JsString × Json) : List Char := quoteUnits m.1 ++ ':' :: m.2.canonical

/-- The text of an array: its items, separated by commas, in brackets. -/
theorem canonical_arr (items : List Json) :
    (Json.arr items).canonical =
      '[' :: (Delimited.separated ',' (items.map canonical) ++ [']']) := by
  rw [canonical, canonicalItems_eq, commas_eq]

/-- An object is written out as its sorted members. -/
theorem canonical_obj (members : List (JsString × Json)) :
    (Json.obj members).canonical =
      '{' :: (Delimited.separated ',' ((sorted members).map memberText) ++ ['}']) := by
  have hsort := List.map_insertionSort (fun a b : JsString × Json => keyLe a.1 b.1)
    (fun a b : JsString × List Char => keyLe a.1 b.1)
    (fun m => (m.1, m.2.canonical)) members (fun _ _ _ _ => Iff.rfl)
  rw [canonical, canonicalMembers_eq, commas_eq, ← hsort, List.map_map]
  rfl

/-! ### Reading a canonical text -/

/-- The kind of a value. -/
def kind : Json → Nat
  | .null => 0
  | .bool _ => 1
  | .num _ => 2
  | .str _ => 3
  | .arr _ => 4
  | .obj _ => 5

/-- The kind of the value whose text starts with a character. -/
def kindOf (c : Char) : Nat :=
  if c = 'n' then 0 else if c = 't' ∨ c = 'f' then 1 else if c = '"' then 3
  else if c = '[' then 4 else if c = '{' then 5 else 2

/-- The text of a number starts with a character of its own kind. -/
theorem kindOf_text (n : JsNumber) : ∃ c t, n.text = c :: t ∧ kindOf c = 2 := by
  have hne : n.text ≠ [] := by
    obtain ⟨whole, frac, e, htext, hdenotes⟩ := n.numeral_body
    rw [htext, numeral]
    simp [hdenotes.nonempty]
  obtain ⟨c, t, ht⟩ := List.exists_cons_of_ne_nil hne
  refine ⟨c, t, ht, ?_⟩
  have hc : NumberChar c := numberChar_text n c (by rw [ht]; simp)
  have hnot : ∀ d : Char, NumberChar d → d ≠ 'n' ∧ d ≠ 't' ∧ d ≠ 'f' ∧ d ≠ '"' ∧ d ≠ '[' ∧
      d ≠ '{' := by
    refine fun d hd => ⟨?_, ?_, ?_, ?_, ?_, ?_⟩ <;> rintro rfl <;> revert hd <;>
      simp [NumberChar, Char.isDigit]
  obtain ⟨h1, h2, h3, h4, h5, h6⟩ := hnot c hc
  simp [kindOf, h1, h2, h3, h4, h5, h6]

/-- The first character of a canonical text tells the kind of the value. -/
theorem canonical_head (v : Json) : ∃ c t, v.canonical = c :: t ∧ kindOf c = v.kind := by
  cases v with
  | null => exact ⟨_, _, rfl, rfl⟩
  | bool b => cases b <;> exact ⟨_, _, rfl, rfl⟩
  | num n => exact kindOf_text n
  | str s => exact ⟨_, _, rfl, rfl⟩
  | arr items => exact ⟨_, _, canonical_arr items, rfl⟩
  | obj members => exact ⟨_, _, canonical_obj members, rfl⟩

/-- Values with the same text, whatever follows, are of the same kind. -/
theorem kind_eq {v w : Json} {r r' : List Char} (h : v.canonical ++ r = w.canonical ++ r') :
    v.kind = w.kind := by
  obtain ⟨c, t, hv, hc⟩ := v.canonical_head
  obtain ⟨d, u, hw, hd⟩ := w.canonical_head
  rw [hv, hw] at h
  rw [← hc, ← hd, (List.cons.inj h).1]

/-- No value starts with a closing bracket. -/
theorem canonical_ne_close (v : Json) (r : List Char) :
    (v.canonical ++ r).head? ≠ some ']' := by
  cases v with
  | num n =>
    obtain ⟨c, t, hn, -⟩ := kindOf_text n
    have hc : NumberChar c := numberChar_text n c (by rw [hn]; simp)
    rw [canonical, hn, List.cons_append, List.head?_cons, ne_eq, Option.some.injEq]
    rintro rfl
    simp [NumberChar, Char.isDigit] at hc
  | bool b => cases b <;> simp [canonical]
  | null => simp [canonical]
  | str s => simp [canonical, quoteUnits]
  | arr items => simp [canonical]
  | obj members => simp [canonical]

/-- The rests before which a value is read. -/
def Ends (r : List Char) : Prop := Delimited.Stops NumberChar r

/-- What a character that is none of a number starts ends a number. -/
theorem ends_of_head {r : List Char} {c : Char} (h : r.head? = some c) (hc : ¬ NumberChar c) :
    Ends r := by
  intro d hd
  rw [h, Option.mem_def, Option.some.injEq] at hd
  rwa [← hd]

/-- The text of a member does not start with a closing brace. -/
theorem memberText_ne_close (m : JsString × Json) (r : List Char) :
    (memberText m ++ r).head? ≠ some '}' := by
  simp [memberText, quoteUnits]

/-- **A canonical text can be read out of a longer text**, up to the order of members.

**Proof sketch.** Induction on the value. The first character tells the kind, so that the other
value is of the same kind. Numbers, texts and names end where the next character cannot belong to
them; the items of arrays and the members of objects are read one after the other up to the closing
bracket (`reads_separated`). The members are read in their sorted order, which is another order of
the members. -/
theorem reads_canonical (v : Json) : Delimited.Reads Ends canonical Same v := by
  -- the values inside arrays and objects end at a comma or at a bracket
  have hitem : ∀ r : List Char, r.head? = some ',' ∨ r.head? = some ']' → Ends r := by
    rintro r (h | h) <;> exact ends_of_head h (by simp [NumberChar, Char.isDigit])
  have hmember : ∀ r : List Char, r.head? = some ',' ∨ r.head? = some '}' → Ends r := by
    rintro r (h | h) <;> exact ends_of_head h (by simp [NumberChar, Char.isDigit])
  induction v using Json.induction with
  | null =>
    intro w r r' _ _ h
    cases w with
    | null => exact ⟨.null, List.append_cancel_left h⟩
    | _ => exact absurd (kind_eq h) (by simp [kind])
  | bool b =>
    intro w r r' _ _ h
    cases w with
    | bool b' =>
      cases b <;> cases b'
      · exact ⟨.bool false, List.append_cancel_left h⟩
      · simp [canonical] at h
      · simp [canonical] at h
      · exact ⟨.bool true, List.append_cancel_left h⟩
    | _ => exact absurd (kind_eq h) (by simp [kind])
  | num n =>
    intro w r r' hr hr' h
    cases w with
    | num n' =>
      obtain ⟨rfl, hrest⟩ := Delimited.reads_of_forall numberChar_text JsNumber.text_injective n
        n' r r' hr hr' h
      exact ⟨.num n, hrest⟩
    | _ => exact absurd (kind_eq h) (by simp [kind])
  | str s =>
    intro w r r' _ _ h
    cases w with
    | str s' =>
      obtain ⟨rfl, hrest⟩ := reads_quoteUnits s s' r r' trivial trivial h
      exact ⟨.str s, hrest⟩
    | _ => exact absurd (kind_eq h) (by simp [kind])
  | arr items ih =>
    intro w r r' _ _ h
    cases w with
    | arr items' =>
      rw [canonical_arr, canonical_arr] at h
      obtain ⟨hall, hrest⟩ := Delimited.reads_separated (by decide) canonical_ne_close
        (fun v hv => (ih v hv).mono hitem) items' r r' trivial trivial (List.cons.inj h).2
      exact ⟨.arr hall, hrest⟩
    | _ => exact absurd (kind_eq h) (by simp [kind])
  | obj members ih =>
    intro w r r' _ _ h
    cases w with
    | obj members' =>
      rw [canonical_obj, canonical_obj] at h
      have hreads : ∀ m ∈ sorted members, Delimited.Reads
          (fun r => r.head? = some ',' ∨ r.head? = some '}') memberText SameMember m := by
        rintro ⟨k, v⟩ hm ⟨k', v'⟩ q q' hq hq' heq
        simp only [memberText, List.append_assoc, List.cons_append] at heq
        obtain ⟨rfl, htail⟩ := reads_quoteUnits k k' _ _ trivial trivial heq
        obtain ⟨hsame, hrest⟩ := ih (k, v) ((List.mem_insertionSort _).mp hm) v' q q'
          (hmember q hq) (hmember q' hq') (List.cons.inj htail).2
        exact ⟨.mk hsame, hrest⟩
      obtain ⟨hall, hrest⟩ := Delimited.reads_separated (by decide) memberText_ne_close hreads
        (sorted members') r r' trivial trivial (List.cons.inj h).2
      -- the sorted members are the members in another order
      have hperm : List.Forall₂ SameMember (sorted members) (sorted members') := hall
      obtain ⟨members₁, hperm₁, hall₁⟩ : Relation.Comp List.Perm (List.Forall₂ SameMember)
          (sorted members) members' := by
        rw [← List.forall₂_comp_perm_eq_perm_comp_forall₂]
        exact ⟨_, hperm, List.perm_insertionSort _ _⟩
      exact ⟨.obj ((List.perm_insertionSort _ members).symm.trans hperm₁) hall₁, hrest⟩
    | _ => exact absurd (kind_eq h) (by simp [kind])

/-! ### The order of members -/

/-- Keys that come before each other are equal. -/
theorem keyLe_antisymm {a b : JsString} (hab : keyLe a b) (hba : keyLe b a) : a = b :=
  List.map_injective_iff.mpr Fin.val_injective (le_antisymm hab hba)

instance (α : Type) : Std.Total fun a b : JsString × α => keyLe a.1 b.1 :=
  ⟨fun _ _ => @le_total (List Nat) _ _ _⟩

instance (α : Type) : IsTrans (JsString × α) fun a b => keyLe a.1 b.1 :=
  ⟨fun _ _ _ => @le_trans (List Nat) _ _ _ _⟩

/-- Members with distinct keys are sorted into one order. -/
theorem insertionSort_eq_of_perm {members members' : List (JsString × List Char)}
    (hperm : members.Perm members') (hkeys : (members.map Prod.fst).Nodup) :
    members.insertionSort (fun a b => keyLe a.1 b.1) =
      members'.insertionSort fun a b => keyLe a.1 b.1 := by
  have hsame : (members.insertionSort fun a b => keyLe a.1 b.1).Perm
      (members'.insertionSort fun a b => keyLe a.1 b.1) :=
    (List.perm_insertionSort _ _).trans (hperm.trans (List.perm_insertionSort _ _).symm)
  refine List.Perm.eq_of_pairwise (fun m n hm hn hmn hnm => ?_) (List.pairwise_insertionSort _ _)
    (List.pairwise_insertionSort _ _) hsame
  -- both are members of the object, which has one member of this key
  have hm : m ∈ members := (List.mem_insertionSort _).mp hm
  have hn : n ∈ members := hperm.mem_iff.mpr ((List.mem_insertionSort _).mp hn)
  exact List.inj_on_of_nodup_map hkeys hm hn (keyLe_antisymm hmn hnm)

/-- **The order of members does not matter.**

**Proof sketch.** Induction on the value. The items of arrays have the same texts one by one. The
members of objects have the same texts in another order, and with distinct names there is one sorted
order of them. -/
theorem Same.canonical_eq {v w : Json} (h : Same v w) (hv : v.Distinct) :
    v.canonical = w.canonical := by
  induction v using Json.induction generalizing w with
  | null => cases h; rfl
  | bool b => cases h; rfl
  | num n => cases h; rfl
  | str s => cases h; rfl
  | arr items ih =>
    cases h with
    | @arr _ items' hall =>
      have hdistinct := distinctItems_iff.mp hv
      have hitems : items.map canonical = items'.map canonical := by
        rw [← List.forall₂_eq_eq_eq, List.forall₂_map_left_iff, List.forall₂_map_right_iff]
        exact (List.forall₂_and_left _ _ |>.mpr ⟨fun v hv => hv, hall⟩).imp
          fun v w h => ih v h.1 h.2 (hdistinct v h.1)
      rw [canonical_arr, canonical_arr, hitems]
  | obj members ih =>
    cases h with
    | @obj _ members₁ members' hperm hall =>
      obtain ⟨hkeys, hdistinct⟩ := hv
      rw [distinctMembers_iff] at hdistinct
      have htexts : canonicalMembers members₁ = canonicalMembers members' := by
        rw [canonicalMembers_eq, canonicalMembers_eq, ← List.forall₂_eq_eq_eq,
          List.forall₂_map_left_iff, List.forall₂_map_right_iff]
        refine (List.forall₂_and_left _ _ |>.mpr ⟨fun m hm => hm, hall⟩).imp fun m n h => ?_
        obtain ⟨hm, hsame⟩ := h
        have hmem : m ∈ members := hperm.mem_iff.mpr hm
        cases hsame with
        | mk hvalue => exact Prod.ext rfl (ih _ hmem hvalue (hdistinct _ hmem))
      have hperm₁ : (canonicalMembers members).Perm (canonicalMembers members') := by
        rw [← htexts, canonicalMembers_eq, canonicalMembers_eq]
        exact hperm.map _
      have hnodup : ((canonicalMembers members).map Prod.fst).Nodup := by
        rw [canonicalMembers_eq, List.map_map]
        exact hkeys
      rw [canonical, canonical, insertionSort_eq_of_perm hperm₁ hnodup]

/-- Texts of values with distinct keys agree exactly when the values are the same. -/
theorem canonical_eq_iff {v w : Json} (hv : v.Distinct) :
    v.canonical = w.canonical ↔ Same v w := by
  constructor
  · intro h
    have hends : Ends [] := fun c hc => by cases hc
    have hread : v.canonical ++ [] = w.canonical ++ [] := by rw [h]
    exact (reads_canonical v w [] [] hends hends hread).1
  · exact fun h => h.canonical_eq hv

end Json

/-- A JSON value whose objects have distinct keys, as JavaScript's objects have. -/
abbrev JsonValue := {v : Json // v.Distinct}

/-- **Canonical encoding is injective up to key order.** Two JSON values have the same canonical
text exactly when they are equal up to the order of the members of objects.

**Proof sketch.** A canonical text is read back up to the order of the members (`reads_canonical`),
and values that are equal up to this order have the same text (`Same.canonical_eq`). -/
theorem canonical_injective (v w : JsonValue) :
    v.val.canonical = w.val.canonical ↔ Json.Same v.val w.val :=
  Json.canonical_eq_iff v.property

example : (Json.obj [([0x62], .arr [.num (.ofNat 10), .null]), ([0x61], .str [0xd800])]).canonical =
    "\x7b\"a\":\"\\ud800\",\"b\":[10,null]\x7d".toList := by
  decide +kernel

/-! ### The documents of the coordinator -/

mutual

/-- The JSON value that a document is, if it holds neither a `Date` nor `undefined`. -/
def Js.json : Js → Option Json
  | .null => some .null
  | .bool b => some (.bool b)
  | .num n => some (.num n)
  | .str s => some (.str (unitsOf s))
  | .arr items => (Js.jsonItems items).map .arr
  | .obj members => (Js.jsonMembers members).map .obj
  | .date _ => none
  | .undefined => none

/-- The JSON values of the items of an array. -/
def Js.jsonItems : List Js → Option (List Json)
  | [] => some []
  | v :: vs => v.json.bind fun j => (Js.jsonItems vs).map (j :: ·)

/-- The members of an object with the JSON values of their values. -/
def Js.jsonMembers : List (String × Js) → Option (List (JsString × Json))
  | [] => some []
  | (k, v) :: ms => v.json.bind fun j => (Js.jsonMembers ms).map ((unitsOf k, j) :: ·)

end

/-- An item with a JSON value is not `undefined`, so `join` writes its text. -/
theorem Js.joined_json {v : Js} {j : Json} (h : v.json = some j) (text : List Char) :
    v.joined text = text := by
  cases v with
  | undefined => cases h
  | _ => rfl

/-- The order of the documents' keys is that of their code units. -/
theorem keyLe_unitsOf (a b : String) : keyLe a b ↔ Json.keyLe (unitsOf a) (unitsOf b) := by
  unfold keyLe Json.keyLe
  rw [map_val_unitsOf, map_val_unitsOf]

mutual

/-- **The canonical text of a document** is that of its JSON value. -/
theorem canonical_json : ∀ {v : Js} {j : Json}, v.json = some j → canonical v = j.canonical
  | .null, _, h => by cases h; rfl
  | .bool b, _, h => by cases h; cases b <;> rfl
  | .num _, _, h => by cases h; rfl
  | .str s, _, h => by
    cases h
    exact quoteString_eq s
  | .arr items, j, h => by
    obtain ⟨js, hjs, rfl⟩ := Option.map_eq_some_iff.mp h
    rw [canonical, Json.canonical, canonicalItems_json hjs]
  | .obj members, j, h => by
    obtain ⟨js, hjs, rfl⟩ := Option.map_eq_some_iff.mp h
    have hmembers := canonicalMembers_json hjs
    have hsort := List.map_insertionSort (fun a b : String × List Char => keyLe a.1 b.1)
      (fun a b : JsString × List Char => Json.keyLe a.1 b.1)
      (fun m => (unitsOf m.1, m.2)) (canonicalMembers members)
      (fun a _ b _ => keyLe_unitsOf a.1 b.1)
    rw [canonical, Json.canonical, ← hmembers, ← hsort, List.map_map]
    simp only [quoteString_eq, Function.comp_def]

/-- The texts of a document's items are those of their JSON values. -/
theorem canonicalItems_json : ∀ {vs : List Js} {js : List Json}, Js.jsonItems vs = some js →
    canonicalItems vs = Json.canonicalItems js
  | [], _, h => by cases h; rfl
  | v :: vs, js, h => by
    obtain ⟨j, hj, hrest⟩ := Option.bind_eq_some_iff.mp h
    obtain ⟨js', hjs, rfl⟩ := Option.map_eq_some_iff.mp hrest
    rw [canonicalItems, Json.canonicalItems, Js.joined_json hj, canonical_json hj,
      canonicalItems_json hjs]

/-- The texts of a document's members are those of their JSON values. -/
theorem canonicalMembers_json : ∀ {ms : List (String × Js)} {js : List (JsString × Json)},
    Js.jsonMembers ms = some js →
      (canonicalMembers ms).map (fun m => (unitsOf m.1, m.2)) = Json.canonicalMembers js
  | [], _, h => by cases h; rfl
  | (k, v) :: ms, js, h => by
    obtain ⟨j, hj, hrest⟩ := Option.bind_eq_some_iff.mp h
    obtain ⟨js', hjs, rfl⟩ := Option.map_eq_some_iff.mp hrest
    rw [canonicalMembers, List.map_cons, Json.canonicalMembers, canonical_json hj,
      canonicalMembers_json hjs]

end

/-- Two documents have the same canonical text exactly when their JSON values are the same up to
the order of members. -/
theorem canonical_documents {v w : Js} {j k : Json} (hv : v.json = some j) (hw : w.json = some k)
    (hj : j.Distinct) : canonical v = canonical w ↔ Json.Same j k := by
  rw [canonical_json hv, canonical_json hw, Json.canonical_eq_iff hj]

end NetworkAi
