import Mathlib.Data.List.Forall2
import Mathlib.Tactic.Common

set_option relaxedAutoImplicit false
set_option autoImplicit false

/-!
# Texts that end themselves

An encoder can be read back out of a longer text when the rest of the text decides where it ends.
The encoders here are read up to a relation on the encoded values, and the rests they are read
from belong to a given set, such as the texts that start with a delimiter.

## Main definitions

* `Delimited.Reads` — the texts of two values with rests of the set agree only if the values are
  related and the rests agree.
* `Delimited.separated` — texts with a separator between them.

## Main results

* `Delimited.reads_of_forall` — a text of some characters ends where a rest without them starts.
* `Delimited.reads_flatMap` — a sequence of prefix codes ends at a terminator.
* `Delimited.prefix_of_flatMap` — a sequence of prefix codes that another one goes on from.
* `Delimited.reads_separated` — so do separated texts.
-/

namespace Delimited

variable {α β σ : Type*}

/-- The text of `x`, read before a rest of the set, is the text of `y` only if `x` and `y` are
related and the rests agree. -/
def Reads (rest : List σ → Prop) (f : α → List σ) (R : α → α → Prop) (x : α) : Prop :=
  ∀ y r r', rest r → rest r' → f x ++ r = f y ++ r' → R x y ∧ r = r'

/-- A reading with fewer things that may follow. -/
theorem Reads.mono {rest rest' : List σ → Prop} {f : α → List σ} {R : α → α → Prop} {x : α}
    (h : Reads rest f R x) (hrest : ∀ r, rest' r → rest r) : Reads rest' f R x :=
  fun y r r' hr hr' heq => h y r r' (hrest r hr) (hrest r' hr') heq

/-! ### Texts of some characters -/

/-- A rest does not start with a character of the set. -/
def Stops (p : σ → Prop) (r : List σ) : Prop := ∀ c ∈ r.head?, ¬ p c

/-- A text of characters of a set ends where a rest that starts with another one begins. -/
theorem append_inj_of_stops {p : σ → Prop} : ∀ {s t r r' : List σ}, (∀ c ∈ s, p c) →
    (∀ c ∈ t, p c) → Stops p r → Stops p r' → s ++ r = t ++ r' → s = t ∧ r = r'
  | [], [], _, _, _, _, _, _, h => ⟨rfl, h⟩
  | [], c :: t, r, r', _, ht, hr, _, h => by
    rw [List.nil_append] at h
    rw [h] at hr
    exact absurd (ht c (by simp)) (hr c (by simp))
  | c :: s, [], r, r', hs, _, _, hr', h => by
    rw [List.nil_append] at h
    rw [← h] at hr'
    exact absurd (hs c (by simp)) (hr' c (by simp))
  | c :: s, d :: t, r, r', hs, ht, hr, hr', h => by
    obtain ⟨rfl, htail⟩ := List.cons.inj h
    obtain ⟨rfl, hrest⟩ := append_inj_of_stops (fun c hc => hs c (List.mem_cons_of_mem _ hc))
      (fun c hc => ht c (List.mem_cons_of_mem _ hc)) hr hr' htail
    exact ⟨rfl, hrest⟩

/-- **A text of some characters** is read before every rest that stops it. -/
theorem reads_of_forall {p : σ → Prop} {f : α → List σ} (hp : ∀ x, ∀ c ∈ f x, p c)
    (hinj : Function.Injective f) (x : α) : Reads (Stops p) f Eq x := by
  intro y r r' hr hr' h
  obtain ⟨htext, hrest⟩ := append_inj_of_stops (hp x) (hp y) hr hr' h
  exact ⟨hinj htext, hrest⟩

/-! ### Sequences -/

/-- **A sequence of prefix codes** ends at a terminator that starts none of them. -/
theorem reads_flatMap {f : α → List σ} {close : σ} (hf : ∀ x r, (f x ++ r).head? ≠ some close)
    {xs : List α} (hreads : ∀ x ∈ xs, Reads (fun _ => True) f Eq x) :
    Reads (fun _ => True) (fun xs : List α => xs.flatMap f ++ [close]) Eq xs := by
  induction xs with
  | nil =>
    intro ys r r' _ _ h
    cases ys with
    | nil => exact ⟨rfl, by simpa using h⟩
    | cons y ys =>
      simp only [List.flatMap_nil, List.flatMap_cons, List.append_assoc] at h
      exact absurd (by rw [← h]; rfl) (hf y _)
  | cons x xs ih =>
    intro ys r r' _ _ h
    cases ys with
    | nil =>
      simp only [List.flatMap_nil, List.flatMap_cons, List.append_assoc] at h
      exact absurd (by rw [h]; rfl) (hf x _)
    | cons y ys =>
      simp only [List.flatMap_cons, List.append_assoc] at h
      obtain ⟨rfl, hrest⟩ := hreads x (by simp) y _ _ trivial trivial h
      obtain ⟨rfl, hr⟩ := ih (fun x hx => hreads x (List.mem_cons_of_mem _ hx)) ys r r' trivial
        trivial (by simpa using hrest)
      exact ⟨rfl, hr⟩

/-- Two sequences of prefix codes of which one goes on where the other ends. -/
theorem prefix_of_flatMap {f : α → List σ} {p : α → Prop} (hne : ∀ x, f x ≠ [])
    (hf : ∀ x y r r', p x → p y → f x ++ r = f y ++ r' → x = y ∧ r = r') {xs ys : List α}
    {r : List σ} (hxs : ∀ x ∈ xs, p x) (hys : ∀ y ∈ ys, p y)
    (h : xs.flatMap f ++ r = ys.flatMap f) : xs <+: ys := by
  induction xs generalizing ys with
  | nil => exact List.nil_prefix
  | cons x xs ih =>
    cases ys with
    | nil =>
      rw [List.flatMap_cons, List.flatMap_nil, List.append_assoc, List.append_eq_nil_iff] at h
      exact absurd h.1 (hne x)
    | cons y ys =>
      rw [List.flatMap_cons, List.flatMap_cons, List.append_assoc] at h
      obtain ⟨rfl, hrest⟩ := hf x y _ _ (hxs x List.mem_cons_self) (hys y List.mem_cons_self) h
      have htail := ih (fun x hx => hxs x (List.mem_cons_of_mem _ hx))
        (fun y hy => hys y (List.mem_cons_of_mem _ hy)) hrest
      exact List.cons_prefix_cons.2 ⟨rfl, htail⟩

/-- Texts with a separator between them. -/
def separated (sep : σ) : List (List σ) → List σ
  | [] => []
  | [t] => t
  | t :: u :: ts => t ++ sep :: separated sep (u :: ts)

/-- Separated texts: the first one, and each other one after a separator. -/
theorem separated_cons (sep : σ) (t : List σ) (ts : List (List σ)) :
    separated sep (t :: ts) = t ++ ts.flatMap (sep :: ·) := by
  induction ts generalizing t with
  | nil => simp [separated]
  | cons u ts ih => rw [separated, ih, List.flatMap_cons, List.cons_append]

/-- What follows a text is the next separator or the terminator. -/
theorem head?_rest (f : α → List σ) (sep close : σ) (xs : List α) (r : List σ) :
    (xs.flatMap (fun x => sep :: f x) ++ close :: r).head? = some sep ∨
      (xs.flatMap (fun x => sep :: f x) ++ close :: r).head? = some close := by
  cases xs <;> simp

/-- Texts that each follow a separator end at a terminator. -/
theorem forall₂_of_flatMap {f : α → List σ} {R : α → α → Prop} {sep close : σ} (hne : sep ≠ close)
    {xs ys : List α} {r r' : List σ}
    (hreads : ∀ x ∈ xs, Reads (fun r => r.head? = some sep ∨ r.head? = some close) f R x)
    (h : xs.flatMap (fun x => sep :: f x) ++ close :: r =
      ys.flatMap (fun y => sep :: f y) ++ close :: r') : List.Forall₂ R xs ys ∧ r = r' := by
  induction xs generalizing ys with
  | nil =>
    cases ys with
    | nil => exact ⟨.nil, by simpa using h⟩
    | cons y ys =>
      simp only [List.flatMap_nil, List.flatMap_cons, List.nil_append, List.cons_append,
        List.cons.injEq] at h
      exact absurd h.1.symm hne
  | cons x xs ih =>
    cases ys with
    | nil =>
      simp only [List.flatMap_nil, List.flatMap_cons, List.nil_append, List.cons_append,
        List.cons.injEq] at h
      exact absurd h.1 hne
    | cons y ys =>
      simp only [List.flatMap_cons, List.cons_append, List.append_assoc, List.cons.injEq,
        true_and] at h
      obtain ⟨hxy, hrest⟩ := hreads x (by simp) y _ _ (head?_rest f sep close xs r)
        (head?_rest f sep close ys r') h
      obtain ⟨hall, hr⟩ := ih (fun x hx => hreads x (List.mem_cons_of_mem _ hx)) hrest
      exact ⟨.cons hxy hall, hr⟩

/-- **Separated texts** end at a terminator, which starts none of them, when each is read before
the separator and before the terminator. -/
theorem reads_separated {f : α → List σ} {R : α → α → Prop} {sep close : σ} (hne : sep ≠ close)
    (hf : ∀ x r, (f x ++ r).head? ≠ some close) {xs : List α}
    (hreads : ∀ x ∈ xs, Reads (fun r => r.head? = some sep ∨ r.head? = some close) f R x) :
    Reads (fun _ => True) (fun xs : List α => separated sep (xs.map f) ++ [close])
      (List.Forall₂ R) xs := by
  intro ys r r' _ _ h
  -- a first text and the rest of them, each after a separator
  have hsplit : ∀ (z : α) (zs : List α) (q : List σ),
      separated sep ((z :: zs).map f) ++ [close] ++ q =
        f z ++ (zs.flatMap (fun z => sep :: f z) ++ close :: q) := by
    intro z zs q
    rw [List.map_cons, separated_cons, List.flatMap_map]
    simp
  have hempty : ∀ q, separated sep (([] : List α).map f) ++ [close] ++ q = close :: q :=
    fun _ => rfl
  cases xs with
  | nil =>
    cases ys with
    | nil => exact ⟨.nil, by simpa [separated] using h⟩
    | cons y ys =>
      rw [hempty, hsplit] at h
      exact absurd (by rw [← h]; rfl) (hf y _)
  | cons x xs =>
    cases ys with
    | nil =>
      rw [hempty, hsplit] at h
      exact absurd (by rw [h]; rfl) (hf x _)
    | cons y ys =>
      rw [hsplit, hsplit] at h
      obtain ⟨hxy, hrest⟩ := hreads x (by simp) y _ _ (head?_rest f sep close xs r)
        (head?_rest f sep close ys r') h
      obtain ⟨hall, hr⟩ := forall₂_of_flatMap hne
        (fun x hx => hreads x (List.mem_cons_of_mem _ hx)) hrest
      exact ⟨.cons hxy hall, hr⟩

end Delimited
