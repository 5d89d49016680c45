import NetworkAi.Document.Js
import NetworkAi.Failure
import NetworkAi.Ledger.Post

set_option relaxedAutoImplicit false
set_option autoImplicit false

/-!
# The contracts package

The schemas and the integer arithmetic of `packages/contracts/src/index.ts` that the coordinator
shares with its clients and nodes: the model manifest with its prices, the receipts of a root
node and of an RPC stage, the exact splitting of an amount by basis points, and the charge for
token counts.

## Main definitions

* `NetworkAi.ModelManifest`, `NetworkAi.ReceiptData`, `NetworkAi.StageReceiptData` — the schemas.
* `NetworkAi.splitByBps` — ordinal prefix rounding of shares.
* `NetworkAi.chargeFor`, `NetworkAi.quoteMaximum` — prices.

## Main results

* `NetworkAi.splitByBps_sum`, `NetworkAi.splitByBps_nonneg`, `NetworkAi.length_splitByBps` — the
  parts are nonnegative, one per share, and sum to the total.
* `NetworkAi.split_prefixes` — every prefix of the parts is the rounded prefix of the shares.
* `NetworkAi.chargeFor_le` — a price is monotone in the token counts.

## Implementation notes

A schema's value is a structure; its numeric bounds are the condition `Valid`, which the
operation that parses the request checks. String formats (UUIDs, digests, labels) have no
counterpart where nothing depends on them.
-/

namespace NetworkAi

/-! ### States -/

/-- `sessionState`. -/
inductive SessionState where
  | queued | preparing | authorized | running | cancelling
  | completed | failed | cancelled | interrupted
  deriving DecidableEq, Repr

/-- Membership in `terminalStates`. -/
def SessionState.terminal : SessionState → Bool
  | .completed | .failed | .cancelled | .interrupted => true
  | _ => false

/-- The states a receipt may report: `terminalStates`. -/
inductive ReceiptState where
  | completed | failed | cancelled | interrupted
  deriving DecidableEq, Repr

/-- A reported state as a session state. -/
def ReceiptState.toSession : ReceiptState → SessionState
  | .completed => .completed
  | .failed => .failed
  | .cancelled => .cancelled
  | .interrupted => .interrupted

/-- The text of a reported state. -/
def ReceiptState.text : ReceiptState → String
  | .completed => "COMPLETED"
  | .failed => "FAILED"
  | .cancelled => "CANCELLED"
  | .interrupted => "INTERRUPTED"

/-! ### The model manifest -/

/-- One stage of an execution profile. -/
structure StageProfile where
  device : String
  tensorWeight : Nat
  bufferBudgetMib : Nat
  reserveMib : Nat
  threads : Nat
  deriving DecidableEq, Repr

/-- `executionProfileSchema`. -/
structure ExecutionProfile where
  contextTokens : Nat
  batchTokens : Nat
  stages : List StageProfile
  deriving DecidableEq, Repr

/-- `generationProfileSchema`. -/
structure GenerationProfile where
  chatTemplateSha256 : String
  thinking : String
  deriving DecidableEq, Repr

/-- `modelManifestSchema`. -/
structure ModelManifest where
  modelId : String
  displayName : String
  backendModel : String
  revision : String
  artifactSha256 : String
  licenseId : String
  sourceUrl : String
  maxContextTokens : Nat
  maxOutputTokens : Nat
  maxInputBytes : Nat
  inputRateMicrotu : Int
  outputRateMicrotu : Int
  rateDenominator : Nat
  description : String
  executionProfile : Option ExecutionProfile
  generationProfile : Option GenerationProfile
  deriving DecidableEq, Repr

/-- The schema `amount`: a decimal string of at most 19 digits, at most `maxAmount`. -/
def isAmount (n : Int) : Prop := 0 ≤ n ∧ n ≤ maxAmount

instance (n : Int) : Decidable (isAmount n) := inferInstanceAs (Decidable (_ ∧ _))

/-- `Number.MAX_SAFE_INTEGER`. -/
def maxSafeInteger : Nat := 9007199254740991

/-- The schema `z.number().int().positive()`: an `int()` admits safe integers only. -/
def isPositiveInt (n : Nat) : Prop := 0 < n ∧ n ≤ maxSafeInteger

instance (n : Nat) : Decidable (isPositiveInt n) := inferInstanceAs (Decidable (_ ∧ _))

/-- The numeric bounds of `executionProfileSchema`. -/
def ExecutionProfile.Valid (p : ExecutionProfile) : Prop :=
  (512 ≤ p.contextTokens ∧ p.contextTokens ≤ 131072) ∧
  (1 ≤ p.batchTokens ∧ p.batchTokens ≤ 2048) ∧
  (1 ≤ p.stages.length ∧ p.stages.length ≤ 15) ∧
  ∀ s ∈ p.stages, (s.device = "CPU" ∨ s.device = "CUDA") ∧
    (1 ≤ s.tensorWeight ∧ s.tensorWeight ≤ 10000) ∧
    (256 ≤ s.bufferBudgetMib ∧ s.bufferBudgetMib ≤ 1048576) ∧
    (256 ≤ s.reserveMib ∧ s.reserveMib ≤ 1048576) ∧ (1 ≤ s.threads ∧ s.threads ≤ 32)

instance ExecutionProfile.decidableValid (p : ExecutionProfile) : Decidable p.Valid :=
  inferInstanceAs (Decidable (_ ∧ _))

/-- The numeric bounds and the refinements of `modelManifestSchema`. -/
def ModelManifest.Valid (m : ModelManifest) : Prop :=
  (256 ≤ m.maxContextTokens ∧ m.maxContextTokens ≤ 131072) ∧
  (1 ≤ m.maxOutputTokens ∧ m.maxOutputTokens ≤ 8192) ∧
  (128 ≤ m.maxInputBytes ∧ m.maxInputBytes ≤ 65536) ∧
  isAmount m.inputRateMicrotu ∧ isAmount m.outputRateMicrotu ∧
  (1 ≤ m.rateDenominator ∧ m.rateDenominator ≤ 1000000) ∧
  m.maxOutputTokens < m.maxContextTokens ∧
  (∀ p ∈ m.executionProfile, p.Valid ∧ p.contextTokens = m.maxContextTokens)

instance ModelManifest.decidableValid (m : ModelManifest) : Decidable m.Valid :=
  inferInstanceAs (Decidable (_ ∧ _))

/-- An execution profile as a value. -/
def ExecutionProfile.toJs (p : ExecutionProfile) : Js :=
  .obj [("schema_version", .nat 1), ("adapter", .str "llama-b10964-rpc"),
    ("engine_commit", .str "b29c606e28a01b1bc8c1351026a0fa6e616bf6c4"),
    ("transport", .str "iroh-direct-quic-guarded-rpc"), ("split_mode", .str "layer"),
    ("context_tokens", .nat p.contextTokens), ("batch_tokens", .nat p.batchTokens),
    ("slots", .nat 1),
    ("stages", .arr (p.stages.map fun s => .obj [("device", .str s.device),
      ("tensor_weight", .nat s.tensorWeight), ("buffer_budget_mib", .nat s.bufferBudgetMib),
      ("reserve_mib", .nat s.reserveMib), ("threads", .nat s.threads)]))]

/-- A generation profile as a value. -/
def GenerationProfile.toJs (p : GenerationProfile) : Js :=
  .obj [("schema_version", .nat 1), ("adapter", .str "llama_cpp_b10964_jinja"),
    ("chat_template_sha256", .str p.chatTemplateSha256), ("thinking", .str p.thinking)]

/-- A manifest as a value, with the optional profiles only where present. -/
def ModelManifest.toJs (m : ModelManifest) : Js :=
  .obj ([("schema_version", .nat 1), ("model_id", .str m.modelId),
    ("display_name", .str m.displayName), ("backend_model", .str m.backendModel),
    ("revision", .str m.revision), ("artifact_sha256", .str m.artifactSha256),
    ("license_id", .str m.licenseId), ("source_url", .str m.sourceUrl), ("modality", .str "text"),
    ("max_context_tokens", .nat m.maxContextTokens),
    ("max_output_tokens", .nat m.maxOutputTokens), ("max_input_bytes", .nat m.maxInputBytes),
    ("input_rate_microtu", .amount m.inputRateMicrotu),
    ("output_rate_microtu", .amount m.outputRateMicrotu),
    ("rate_denominator", .nat m.rateDenominator), ("description", .str m.description),
    ("trust_policy", .str "private_lab")] ++
    Js.optional "execution_profile" (m.executionProfile.map (·.toJs)) ++
    Js.optional "generation_profile" (m.generationProfile.map (·.toJs)))

/-! ### Receipts -/

/-- `receiptSchema`: what a root node reports. -/
structure ReceiptData where
  sessionId : Nat
  attemptId : Nat
  epoch : Nat
  state : ReceiptState
  promptTokens : Nat
  completionTokens : Nat
  outputSha256 : String
  streamDone : Bool
  finishReason : Option String
  errorCode : Option String
  elapsedMs : Nat
  deriving DecidableEq, Repr

/-- The numeric bounds of `receiptSchema`. -/
def ReceiptData.Valid (d : ReceiptData) : Prop :=
  isPositiveInt d.epoch ∧ d.promptTokens ≤ 1000000 ∧ d.completionTokens ≤ 100000 ∧
    d.elapsedMs ≤ 3600000

instance ReceiptData.decidableValid (d : ReceiptData) : Decidable d.Valid :=
  inferInstanceAs (Decidable (_ ∧ _))

/-- A receipt as a value. -/
def ReceiptData.toJs (d : ReceiptData) : Js :=
  .obj [("session_id", .uuid d.sessionId), ("attempt_id", .uuid d.attemptId),
    ("epoch", .nat d.epoch), ("state", .str d.state.text), ("prompt_tokens", .nat d.promptTokens),
    ("completion_tokens", .nat d.completionTokens), ("output_sha256", .str d.outputSha256),
    ("stream_done", .bool d.streamDone), ("finish_reason", .strOrNull d.finishReason),
    ("error_code", .strOrNull d.errorCode), ("elapsed_ms", .nat d.elapsedMs),
    ("metering_source", .str "engine_reported")]

/-- `stageReceiptSchema`: what an RPC stage reports. -/
structure StageReceiptData where
  sessionId : Nat
  attemptId : Nat
  epoch : Nat
  routeSha256 : String
  state : ReceiptState
  completedCommands : Nat
  requestBytes : Int
  responseBytes : Int
  transcriptSha256 : String
  elapsedMs : Nat
  errorCode : Option String
  deriving DecidableEq, Repr

/-- The numeric bounds of `stageReceiptSchema`. -/
def StageReceiptData.Valid (d : StageReceiptData) : Prop :=
  isPositiveInt d.epoch ∧ d.completedCommands ≤ 1000000 ∧ isAmount d.requestBytes ∧
    isAmount d.responseBytes ∧ d.elapsedMs ≤ 3600000

instance StageReceiptData.decidableValid (d : StageReceiptData) : Decidable d.Valid :=
  inferInstanceAs (Decidable (_ ∧ _))

/-- A stage receipt as a value. -/
def StageReceiptData.toJs (d : StageReceiptData) : Js :=
  .obj [("session_id", .uuid d.sessionId), ("attempt_id", .uuid d.attemptId),
    ("epoch", .nat d.epoch), ("route_sha256", .str d.routeSha256), ("state", .str d.state.text),
    ("completed_commands", .nat d.completedCommands), ("request_bytes", .amount d.requestBytes),
    ("response_bytes", .amount d.responseBytes), ("transcript_sha256", .str d.transcriptSha256),
    ("elapsed_ms", .nat d.elapsedMs), ("metering_source", .str "rpc_observed"),
    ("error_code", .strOrNull d.errorCode)]

/-! ### Splitting an amount -/

/-- The condition under which `splitByBps` does not throw. -/
def ValidShares (total : Int) (shares : List Nat) : Prop :=
  (0 ≤ total ∧ total ≤ maxAmount) ∧ (1 ≤ shares.length ∧ shares.length ≤ 16) ∧
  (∀ n ∈ shares, 1 ≤ n ∧ n ≤ 10000) ∧ shares.sum = 10000

instance (total : Int) (shares : List Nat) : Decidable (ValidShares total shares) :=
  inferInstanceAs (Decidable (_ ∧ _))

/-- The loop of `splitByBps`: the part of a share is the difference of two rounded prefixes. -/
def splitParts (total cumulative previous : Int) : List Nat → List Int
  | [] => []
  | share :: shares =>
    let cumulative := cumulative + share
    let boundary := total * cumulative / 10000
    (boundary - previous) :: splitParts total cumulative boundary shares

/-- `splitByBps`: partition an amount exactly, with ordinal prefix rounding. -/
def splitByBps (total : Int) (shares : List Nat) : Except Failure (List Int) := do
  Checked.guard (ValidShares total shares) (.range "Invalid payout shares")
  return splitParts total 0 0 shares

/-- An accepted split has valid shares, and its parts are those of the loop. -/
theorem splitByBps_ok {total : Int} {shares : List Nat} {parts : List Int} :
    splitByBps total shares = .ok parts ↔
      ValidShares total shares ∧ parts = splitParts total 0 0 shares := by
  unfold splitByBps
  simp only [Checked.bind_ok, Checked.guard_ok, Checked.pure_ok, exists_const]
  exact and_congr_right fun _ => eq_comm

/-- There is one part for every share. -/
@[simp] theorem length_splitParts (total : Int) :
    ∀ (shares : List Nat) (c p : Int), (splitParts total c p shares).length = shares.length
  | [], _, _ => rfl
  | share :: shares, c, p => by simp [splitParts, length_splitParts total shares]

/-- The parts of the remaining shares telescope. -/
theorem sum_splitParts (total : Int) : ∀ (shares : List Nat) (c p : Int), shares ≠ [] →
    (splitParts total c p shares).sum = total * (c + (shares.sum : Nat)) / 10000 - p
  | [], _, _, h => absurd rfl h
  | [share], c, p, _ => by simp [splitParts]
  | share :: share' :: shares, c, p, _ => by
    rw [splitParts, List.sum_cons, sum_splitParts total (share' :: shares) _ _ (by simp)]
    simp only [List.sum_cons]
    push_cast
    rw [add_assoc c]
    ring

/-- The parts of a nonnegative total are nonnegative: the prefixes are monotone. -/
theorem splitParts_nonneg {total : Int} (ht : 0 ≤ total) : ∀ (shares : List Nat) (c p : Int),
    p ≤ total * c / 10000 → ∀ x ∈ splitParts total c p shares, 0 ≤ x
  | [], _, _, _ => by simp [splitParts]
  | share :: shares, c, p, hp => by
    intro x hx
    have hmono : total * c / 10000 ≤ total * (c + share) / 10000 :=
      Int.ediv_le_ediv (by norm_num) (by nlinarith [Int.natCast_nonneg share])
    simp only [splitParts, List.mem_cons] at hx
    rcases hx with rfl | hx
    · omega
    · exact splitParts_nonneg ht shares _ _ le_rfl x hx

/-- The first parts sum to the rounded prefix of their shares. -/
theorem sum_take_splitParts (total : Int) : ∀ (shares : List Nat) (c : Int) (k : Nat),
    ((splitParts total c (total * c / 10000) shares).take k).sum =
      total * (c + ((shares.take k).sum : Nat)) / 10000 - total * c / 10000
  | [], c, k => by simp [splitParts]
  | share :: shares, c, 0 => by simp
  | share :: shares, c, k + 1 => by
    have ih := sum_take_splitParts total shares (c + share) k
    rw [splitParts, List.take_succ_cons, List.take_succ_cons, List.sum_cons, List.sum_cons, ih]
    push_cast
    rw [add_assoc c]
    ring

/-- An accepted split has one part for every share. -/
theorem length_splitByBps {total : Int} {shares : List Nat} {parts : List Int}
    (h : splitByBps total shares = .ok parts) : parts.length = shares.length := by
  rw [splitByBps_ok] at h
  rw [h.2, length_splitParts]

/-- **The parts sum to the total.** -/
theorem splitByBps_sum {total : Int} {shares : List Nat} {parts : List Int}
    (h : splitByBps total shares = .ok parts) : parts.sum = total := by
  rw [splitByBps_ok] at h
  obtain ⟨⟨-, ⟨hlen, -⟩, -, hsum⟩, rfl⟩ := h
  rw [sum_splitParts total shares 0 0 (by rintro rfl; simp at hlen), hsum]
  push_cast
  simp only [sub_zero]
  exact Int.mul_ediv_cancel _ (by norm_num)

/-- **Prefix rounding**: the first parts are the rounded prefix of their shares. -/
theorem splitByBps_take {total : Int} {shares : List Nat} {parts : List Int}
    (h : splitByBps total shares = .ok parts) (k : Nat) :
    (parts.take k).sum = total * ((shares.take k).sum : Nat) / 10000 := by
  rw [splitByBps_ok] at h
  have htake := sum_take_splitParts total shares 0 k
  simp only [mul_zero, Int.zero_ediv, zero_add, sub_zero] at htake
  rw [h.2, htake]

/-- The parts of an accepted split are nonnegative. -/
theorem splitByBps_nonneg {total : Int} {shares : List Nat} {parts : List Int}
    (h : splitByBps total shares = .ok parts) : ∀ x ∈ parts, 0 ≤ x := by
  rw [splitByBps_ok] at h
  obtain ⟨⟨⟨h0, -⟩, -⟩, rfl⟩ := h
  exact splitParts_nonneg h0 shares 0 0 (by simp)

/-- A part is the difference of two rounded prefixes. -/
theorem splitByBps_part {total : Int} {shares : List Nat} {parts : List Int}
    (h : splitByBps total shares = .ok parts) {k share : Nat} {part : Int}
    (hpart : parts[k]? = some part) (hshare : shares[k]? = some share) :
    part = (total * ((shares.take k).sum : Nat) + total * share) / 10000 -
      total * ((shares.take k).sum : Nat) / 10000 := by
  have hbefore := splitByBps_take h k
  have hafter := splitByBps_take h (k + 1)
  rw [List.take_add_one, hpart, List.sum_append, hbefore] at hafter
  rw [List.take_add_one, hshare, List.sum_append] at hafter
  simp only [Option.toList_some, List.sum_singleton, Nat.cast_add, mul_add] at hafter
  omega

/-- **Prefix share splitting.** The parts of an accepted split are nonnegative, each prefix of them
is the rounded prefix of the shares, all of them are the total, and each differs by less than one
from its exact proportional share; a larger total lowers no prefix.

**Proof sketch.** Each prefix of the parts is the rounded prefix of the shares (`splitByBps_take`),
by induction on the shares with what was split so far. A part is the difference of two such
prefixes, and rounding is monotone in the total. -/
theorem split_prefixes {total : Int} {shares : List Nat} {parts : List Int}
    (h : splitByBps total shares = .ok parts) :
    parts.length = shares.length ∧ (∀ part ∈ parts, 0 ≤ part) ∧
      (∀ k, (parts.take k).sum = total * ((shares.take k).sum : Nat) / 10000) ∧
      parts.sum = total ∧
      (∀ (k share : Nat) (part : Int), parts[k]? = some part → shares[k]? = some share →
        |10000 * part - total * share| < 10000) ∧
      ∀ (total' : Int) (parts' : List Int), total ≤ total' → splitByBps total' shares = .ok parts' →
        ∀ k, (parts.take k).sum ≤ (parts'.take k).sum := by
  refine ⟨length_splitByBps h, splitByBps_nonneg h, splitByBps_take h, splitByBps_sum h,
    fun k share part hpart hshare => ?_, fun total' parts' hle h' k => ?_⟩
  · have hdifference := splitByBps_part h hpart hshare
    generalize total * ((shares.take k).sum : Nat) = before at hdifference
    generalize total * (share : Int) = exact at hdifference ⊢
    rw [abs_lt]
    omega
  · rw [splitByBps_take h, splitByBps_take h']
    apply Int.ediv_le_ediv (by norm_num)
    exact mul_le_mul_of_nonneg_right hle (Int.natCast_nonneg _)

/-- A hundred is split by three shares of a third, rounded by prefixes. -/
theorem split_prefixes_thirds :
    splitByBps 100 [3333, 3333, 3334] = .ok [33, 33, 34] ∧ ([33, 33, 34] : List Int).sum = 100 := by
  have hsplit : splitByBps 100 [3333, 3333, 3334] = .ok [33, 33, 34] := by decide
  exact ⟨hsplit, (split_prefixes hsplit).2.2.2.1⟩

/-! ### Prices -/

/-- `ceilDiv`: division rounded up. -/
def ceilDiv (numerator denominator : Int) : Except Failure Int := do
  Checked.guard (0 ≤ numerator ∧ 0 < denominator) (.range "Invalid unsigned division")
  return (numerator + denominator - 1) / denominator

/-- `chargeFor`: the price of token counts, rounded up. -/
def chargeFor (model : ModelManifest) (input output : Int) : Except Failure Int := do
  let value ← ceilDiv (input * model.inputRateMicrotu + output * model.outputRateMicrotu)
    model.rateDenominator
  Checked.guard (value ≤ maxAmount) (.range "Amount overflow")
  return value

/-- `quoteMaximum`: the price of a full context with the given output. -/
def quoteMaximum (model : ModelManifest) (output : Int) : Except Failure Int :=
  chargeFor model (model.maxContextTokens - output) output

/-- A division rounded up is accepted for a nonnegative number by a positive one. -/
theorem ceilDiv_ok {n d v : Int} :
    ceilDiv n d = .ok v ↔ (0 ≤ n ∧ 0 < d) ∧ v = (n + d - 1) / d := by
  unfold ceilDiv
  simp only [Checked.bind_ok, Checked.guard_ok, Checked.pure_ok, exists_const]
  exact and_congr_right fun _ => eq_comm

/-- A charge is nonnegative. -/
theorem chargeFor_nonneg {model : ModelManifest} {i o v : Int} (h : chargeFor model i o = .ok v) :
    0 ≤ v := by
  unfold chargeFor at h
  simp only [Checked.bind_ok, ceilDiv_ok, Checked.guard_ok, Checked.pure_ok, exists_const] at h
  obtain ⟨w, ⟨⟨hn, hd⟩, rfl⟩, -, rfl⟩ := h
  exact Int.ediv_nonneg (by omega) hd.le

/-- Fewer tokens cost no more, and their price does not overflow if the other one did not. -/
theorem chargeFor_le {model : ModelManifest} {i o i' o' v' : Int}
    (hin : 0 ≤ model.inputRateMicrotu) (hout : 0 ≤ model.outputRateMicrotu) (hi : 0 ≤ i)
    (ho : 0 ≤ o) (hii : i ≤ i') (hoo : o ≤ o') (h : chargeFor model i' o' = .ok v') :
    ∃ v, chargeFor model i o = .ok v ∧ v ≤ v' := by
  unfold chargeFor at h ⊢
  simp only [Checked.bind_ok, ceilDiv_ok, Checked.guard_ok, Checked.pure_ok, exists_const] at h ⊢
  obtain ⟨w, ⟨⟨-, hd⟩, rfl⟩, hmax, rfl⟩ := h
  have hinput : i * model.inputRateMicrotu ≤ i' * model.inputRateMicrotu :=
    mul_le_mul_of_nonneg_right hii hin
  have houtput : o * model.outputRateMicrotu ≤ o' * model.outputRateMicrotu :=
    mul_le_mul_of_nonneg_right hoo hout
  have hin₀ : 0 ≤ i * model.inputRateMicrotu := mul_nonneg hi hin
  have hout₀ : 0 ≤ o * model.outputRateMicrotu := mul_nonneg ho hout
  have hle : (i * model.inputRateMicrotu + o * model.outputRateMicrotu +
      model.rateDenominator - 1) / model.rateDenominator ≤
      (i' * model.inputRateMicrotu + o' * model.outputRateMicrotu +
        model.rateDenominator - 1) / model.rateDenominator :=
    Int.ediv_le_ediv hd (by omega)
  exact ⟨_, ⟨_, ⟨⟨by omega, hd⟩, rfl⟩, hle.trans hmax, rfl⟩, hle⟩

end NetworkAi
