import NetworkAi.Lib.Checked

set_option relaxedAutoImplicit false
set_option autoImplicit false

/-!
# Errors of the control API

Every operation of the coordinator is one database transaction. It stops at the first failed
check, either one of its own (`need`) or one of the database's constraints and triggers, and the
transaction is then rolled back.

## Main definitions

* `NetworkAi.Failure` — why a transaction stopped.
* `NetworkAi.need`, `NetworkAi.constraint` — the checks of the code and of the database.
-/

namespace NetworkAi

/-- Why a transaction stopped. -/
inductive Failure where
  /-- `AppError`: the HTTP status, the error code and the message shown to the user. -/
  | app (status : Nat) (code message : String)
  /-- A constraint, trigger or column type of the database refused a row. -/
  | database (reason : String)
  /-- A `RangeError` thrown by the arithmetic of the contracts package. -/
  | range (message : String)
  /-- The request does not match its schema (`ZodError`). -/
  | invalidRequest
  deriving DecidableEq, Repr

/-- `need`: stop with an `AppError` unless the condition holds. -/
def need (condition : Prop) [Decidable condition] (status : Nat) (code message : String) :
    Except Failure Unit :=
  Checked.guard condition (.app status code message)

/-- `need` of a row: stop with an `AppError` unless the query returned one. -/
def needRow {α : Type} (row : Option α) (status : Nat) (code message : String) :
    Except Failure α :=
  Checked.require row (.app status code message)

/-- A check of the database: a constraint, or the condition of a trigger. -/
def constraint (condition : Prop) [Decidable condition] (reason : String) :
    Except Failure Unit :=
  Checked.guard condition (.database reason)

/-- A row the database requires, through a foreign key or inside a trigger. -/
def reference {α : Type} (row : Option α) (reason : String) : Except Failure α :=
  Checked.require row (.database reason)

/-- The `parse` of a request schema. -/
def parse (valid : Prop) [Decidable valid] : Except Failure Unit :=
  Checked.guard valid .invalidRequest

/-- A condition that must hold lets an operation go on exactly if it holds. -/
@[simp] theorem need_ok {c : Prop} [Decidable c] {s : Nat} {k m : String} {u : Unit} :
    need c s k m = .ok u ↔ c := Checked.guard_ok

/-- A row that must be there is handed on exactly if it is there. -/
@[simp] theorem needRow_ok {α : Type} {o : Option α} {s : Nat} {k m : String} {a : α} :
    needRow o s k m = .ok a ↔ o = some a := Checked.require_ok

/-- A constraint of the database lets an operation go on exactly if it holds. -/
@[simp] theorem constraint_ok {c : Prop} [Decidable c] {r : String} {u : Unit} :
    constraint c r = .ok u ↔ c := Checked.guard_ok

/-- A referenced row is handed on exactly if it is there. -/
@[simp] theorem reference_ok {α : Type} {o : Option α} {r : String} {a : α} :
    reference o r = .ok a ↔ o = some a := Checked.require_ok

/-- A request is parsed exactly if its schema admits it. -/
@[simp] theorem parse_ok {c : Prop} [Decidable c] {u : Unit} :
    parse c = .ok u ↔ c := Checked.guard_ok

section Avoids

variable {bad : Failure → Prop} {α : Type}

/-- A condition that must hold avoids its failure exactly if it holds. -/
@[simp] theorem avoids_need {c : Prop} [Decidable c] {s : Nat} {k m : String} :
    Checked.Avoids bad (need c s k m) ↔ bad (.app s k m) → c := Checked.avoids_guard

/-- A row that must be there avoids its failure exactly if it is there. -/
@[simp] theorem avoids_needRow {o : Option α} {s : Nat} {k m : String} :
    Checked.Avoids bad (needRow o s k m) ↔ bad (.app s k m) → o.isSome := Checked.avoids_require

/-- A constraint avoids its failure exactly if it holds. -/
@[simp] theorem avoids_constraint {c : Prop} [Decidable c] {r : String} :
    Checked.Avoids bad (constraint c r) ↔ bad (.database r) → c := Checked.avoids_guard

/-- A reference avoids its failure exactly if the row is there. -/
@[simp] theorem avoids_reference {o : Option α} {r : String} :
    Checked.Avoids bad (reference o r) ↔ bad (.database r) → o.isSome := Checked.avoids_require

/-- Parsing avoids a refused request exactly if the schema admits it. -/
@[simp] theorem avoids_parse {c : Prop} [Decidable c] :
    Checked.Avoids bad (parse c) ↔ bad .invalidRequest → c := Checked.avoids_guard

end Avoids

end NetworkAi
