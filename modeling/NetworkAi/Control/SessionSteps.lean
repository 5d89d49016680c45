import NetworkAi.Control.Frames

set_option relaxedAutoImplicit false
set_option autoImplicit false

/-!
# The steps of one session

What any change of the database does to a given session: nothing, or exactly one of the moves of
sessions. An invariant of sessions is a case analysis over these steps.

## Main definitions

* `NetworkAi.Session.Step` — what a change does to one session.

## Main results

* `NetworkAi.Change.session_cases` — a session after a change is new, or a step of the old one.
* `NetworkAi.Change.session_step` — a session before a change, and its step.
-/

namespace NetworkAi

open Relational

variable {env : Env} {req : Request} {tx : Tx} {db db' : Db} {id : SessionId} {s s' : Session}

/-- **What a change does to one session**, with what the code has checked before it. -/
inductive Session.Step (env : Env) (req : Request) (db db' : Db) (id : SessionId) (s : Session) :
    Session → Prop
  | same : Session.Step env req db db' id s s
  | admitted {t : Tx} {s' : Session} {o : Offer} (h : Admitted t db s o s') :
      Session.Step env req db db' id s s'
  | updated {t : Tx} {s' : Session} (h : Updated env t db id s req s') :
      Session.Step env req db db' id s s'
  | finalized {t : Tx} {s₁ s' : Session} {state : ReceiptState} {charge : Int}
      {error : Option String} {billing : Option BillingState} {entries : List (AccountId × Int)}
      (hreport : Reporting env s s₁) (hlive : s.state.terminal = false)
      (hcharge : 0 ≤ charge ∧ charge ≤ s₁.hold)
      (hbilling : billing = none ∨ billing = some .disputed)
      (hpaid : 0 < charge → Payable t db s₁ state charge billing)
      (hsplit : Split db id s₁ charge entries s' db'.settlements)
      (hb : BookedIf (0 < s₁.hold) env db.xid db.books (.settle id)
        (holdEntries s₁ charge ++ entries) db'.books) :
      Session.Step env req db db' id s (s'.finished t state charge error billing)
  | refunded {row : Settlement} (hrow : db.settlements.find? id = some row) :
      Session.Step env req db db' id s { s with billingState := .refunded }

/-- A write to one session, seen from any session. -/
theorem Session.Step.of_set {id₁ : SessionId} {s₀ s₁ : Session}
    (hs₀ : db.sessions.find? id₁ = some s₀) (hstep : s₀.Step env req db db' id₁ s₁)
    (hset : db'.sessions = db.sessions.set id₁ s₁) (hs' : db'.sessions.find? id = some s') :
    ∃ s, db.sessions.find? id = some s ∧ s.Step env req db db' id s' := by
  rw [hset] at hs'
  rcases Table.find?_set_cases hs' with ⟨rfl, rfl, -⟩ | ⟨-, hold⟩
  · exact ⟨s₀, hs₀, hstep⟩
  · exact ⟨s', hold, .same⟩

/-- **A session after a change** is a new one, queued under a quote, or a step of the old one. -/
theorem Change.session_cases (h : Change env req tx db db') (hs' : db'.sessions.find? id = some s') :
    (db.sessions.find? id = none ∧ ∃ t user d quote,
      db.quotes.find? d.quoteId = some quote ∧ s' = newSession t user d quote) ∨
      ∃ s, db.sessions.find? id = some s ∧ s.Step env req db db' id s' := by
  rcases h with h | h
  · cases h with
    | sessionCreated hid hquote _ _ _ =>
      rcases Table.find?_insert_cases (h := hid) hs' with ⟨rfl, rfl⟩ | ⟨-, hold⟩
      · exact .inl ⟨hid, _, _, _, _, hquote, rfl⟩
      · exact .inr ⟨s', hold, .same⟩
    | sessionAdmitted hs h => exact .inr (Session.Step.of_set hs (.admitted h) rfl hs')
    | sessionUpdated hs h => exact .inr (Session.Step.of_set hs (.updated h) rfl hs')
    | sessionFinalized hs hreport hlive hcharge hbilling hpaid hsplit hb =>
      exact .inr (Session.Step.of_set hs
        (.finalized hreport hlive hcharge hbilling hpaid hsplit hb) rfl hs')
    | consumptionRefunded hs hrow _ _ => exact .inr (Session.Step.of_set hs (.refunded hrow) rfl hs')
    | _ => exact .inr ⟨s', hs', .same⟩
  · cases h <;> exact .inr ⟨s', hs', .same⟩

/-- **A session before a change** is there after it, one step later. -/
theorem Change.session_step (h : Change env req tx db db') (hs : db.sessions.find? id = some s) :
    ∃ s', db'.sessions.find? id = some s' ∧ s.Step env req db db' id s' := by
  obtain ⟨s', hs', -⟩ := h.sessions.old hs
  refine ⟨s', hs', ?_⟩
  rcases h.session_cases hs' with ⟨hnone, -⟩ | ⟨s₁, hs₁, hstep⟩
  · rw [hs] at hnone
    cases hnone
  · rw [hs, Option.some.injEq] at hs₁
    exact hs₁ ▸ hstep

end NetworkAi
