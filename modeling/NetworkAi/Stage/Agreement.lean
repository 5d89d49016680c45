import NetworkAi.Control.Coordinator
import NetworkAi.Stage.Readiness

set_option relaxedAutoImplicit false
set_option autoImplicit false

/-!
# The two sides of a readiness declaration

The coordinator writes a declaration and the contributor checks it, each with comparisons of its
own over the same sixteen members. They agree: the contributor accepts what the coordinator wrote
for exactly the request it answers, from a quarter of a second before it was issued until it
expires.

## Main definitions

* `NetworkAi.Stage.Signing.Ideal` — what the two sides rely on.

## Main results

* `NetworkAi.Stage.readinessPayload_ok` — what the coordinator checks before it writes.
* `NetworkAi.Stage.readiness_agreement` — when the contributor accepts it.
-/

namespace NetworkAi.Stage

open Relational

/-- Signatures and texts are ideal: a signature verifies under its key, a text is parsed back into
the valid declaration it was written from and into no other, and it has the length of its two parts
and a dot. -/
structure Signing.Ideal (K : Signing) : Prop where
  verify : ∀ text, K.verify text (K.sign text) = true
  header : ∀ p, K.header (K.write readinessHeader p) = some readinessHeader
  payload : ∀ p v : ReadinessPayload, v.Valid →
    (K.payload (K.write readinessHeader p) = some v ↔ v = p)
  length : ∀ p, K.length (K.write readinessHeader p) =
    base64UrlLength readinessHeader.bytes + 1 + base64UrlLength p.bytes

/-! ### The length of a declaration -/

/-- A character that JSON text shows as it is, in one byte. -/
def Plain (c : Char) : Prop := c.toNat < 128 ∧ 32 ≤ c.toNat ∧ c ≠ '"' ∧ c ≠ '\\'

/-- A plain character is one byte in a JSON text. -/
theorem utf8_escape_of_plain {c : Char} (h : Plain c) : (utf8 (escape c)).length = 1 := by
  obtain ⟨hascii, hprintable, hquote, hslash⟩ := h
  have hescape : escape c = [c] := by
    unfold escape
    rw [if_neg hquote, if_neg hslash, if_neg (by omega), if_neg (by omega), if_neg, if_neg, if_neg,
      if_neg (by omega)]
    · rintro rfl
      exact absurd hprintable (by decide)
    · rintro rfl
      exact absurd hprintable (by decide)
    · rintro rfl
      exact absurd hprintable (by decide)
  rw [hescape, utf8, List.flatMap_singleton, String.length_utf8EncodeChar,
    Char.utf8Size_eq_one_iff, UInt32.le_iff_toNat_le]
  show c.toNat ≤ 127
  omega

/-- A string of plain characters has two more bytes in JSON text, for its quotes. -/
theorem stringBytes_of_plain {s : String} (h : ∀ c ∈ s.toList, Plain c) :
    stringBytes s = s.toList.length + 2 := by
  have hbody : ∀ cs : List Char, (∀ c ∈ cs, Plain c) →
      (utf8 (cs.flatMap escape)).length = cs.length := by
    intro cs hcs
    induction cs with
    | nil => rfl
    | cons c cs ih =>
      have hone := utf8_escape_of_plain (hcs c List.mem_cons_self)
      have hrest := ih fun d hd => hcs d (List.mem_cons_of_mem c hd)
      rw [utf8, List.flatMap_cons, List.flatMap_append, List.length_append, List.length_cons]
      rw [utf8] at hone hrest
      omega
  have hquote : (String.utf8EncodeChar '"').length = 1 := by decide
  rw [stringBytes, quoteString, utf8, List.flatMap_cons, List.flatMap_append,
    List.flatMap_singleton, List.length_append, List.length_append, hquote]
  have hlength := hbody s.toList h
  rw [utf8] at hlength
  omega

/-- Characters compare as their numbers do. -/
theorem toNat_le_toNat {c d : Char} : c.toNat ≤ d.toNat ↔ c.val ≤ d.val := by
  rw [UInt32.le_iff_toNat_le]; rfl

/-- The characters of these two ranges are plain. -/
theorem plain_of_toNat {c : Char}
    (h : 40 ≤ c.toNat ∧ c.toNat ≤ 91 ∨ 95 ≤ c.toNat ∧ c.toNat ≤ 122) : Plain c := by
  refine ⟨by omega, by omega, ?_, ?_⟩
  · rintro rfl
    exact absurd h (by decide)
  · rintro rfl
    exact absurd h (by decide)

/-- A lowercase hexadecimal digit is plain. -/
theorem plain_of_isLowerHex {c : Char} (h : isLowerHex c = true) : Plain c := by
  rw [isLowerHex, Char.isDigit] at h
  simp only [Bool.or_eq_true, Bool.and_eq_true, decide_eq_true_eq, ge_iff_le,
    Char.le_def, ← toNat_le_toNat] at h
  simp only [Char.reduceToNat] at h
  exact plain_of_toNat (by omega)

/-- A character of base64url is plain. -/
theorem plain_of_isBase64Url {c : Char} (h : isBase64Url c = true) : Plain c := by
  change ((((decide ('A'.val ≤ c.val ∧ c.val ≤ 'Z'.val)) ||
    ('a'.val ≤ c.val && c.val ≤ 'z'.val)) || ('0'.val ≤ c.val && c.val ≤ '9'.val)) ||
    c = '_' || c = '-') = true at h
  simp only [Bool.or_eq_true, Bool.and_eq_true, decide_eq_true_eq,
    ← toNat_le_toNat] at h
  rcases h with (h | rfl) | rfl
  · simp only [Char.reduceToNat] at h
    exact plain_of_toNat (by omega)
  · exact ⟨by decide, by decide, by decide, by decide⟩
  · exact ⟨by decide, by decide, by decide, by decide⟩

/-- A digest takes 66 bytes in a JSON text. -/
theorem stringBytes_of_isSha256 {s : String} (h : isSha256 s) : stringBytes s = 66 := by
  rw [stringBytes_of_plain fun c hc => plain_of_isLowerHex (List.all_eq_true.1 h.2 c hc), h.1]

/-- A nonce takes 45 bytes in a JSON text. -/
theorem stringBytes_of_isNonce {s : String} (h : isNonce s) : stringBytes s = 45 := by
  rw [stringBytes_of_plain fun c hc => plain_of_isBase64Url (List.all_eq_true.1 h.2 c hc), h.1]

/-- A safe integer has sixteen digits at most. -/
theorem integerBytes_le {n : Int} (h : isInteger n) : integerBytes n ≤ 16 := by
  obtain ⟨hpos, hmax⟩ := h
  have hdigits : (decimal n.natAbs).length ≤ 16 := by
    rw [decimal, Nat.length_toDigits_le_iff (by decide) (by decide)]
    rw [maxSafeInteger] at hmax
    omega
  rw [integerBytes, if_neg (by omega)]
  omega

/-- A valid declaration fits in the 3072 characters of a token. -/
theorem ReadinessPayload.bytes_le {p : ReadinessPayload} (h : p.Valid) : p.bytes ≤ 737 := by
  obtain ⟨⟨hnetwork, haud, hversion⟩, ⟨hstage, -, hroot, -⟩, ⟨hroute, hmanifest, hnonce⟩, hseen,
    hissued, hexpires⟩ := h
  have hstage := integerBytes_le hstage
  have hroot := integerBytes_le hroot
  have hseen := integerBytes_le hseen
  have hissued := integerBytes_le hissued
  have hexpires := integerBytes_le hexpires
  -- the keys take 200 bytes, and the two literals 24 and 32
  have hkeys : (stringBytes "network" = 9 ∧ stringBytes "aud" = 5 ∧ stringBytes "version" = 9 ∧
      stringBytes "stage_node_id" = 15 ∧ stringBytes "stage_epoch" = 13 ∧
      stringBytes "route_id" = 10 ∧ stringBytes "route_sha256" = 14 ∧
      stringBytes "manifest_sha256" = 17) ∧ (stringBytes "root_node_id" = 14 ∧
      stringBytes "root_epoch" = 12 ∧ stringBytes "root_boot_id" = 14 ∧
      stringBytes "root_seen_ms" = 14 ∧ stringBytes "issued_ms" = 11 ∧
      stringBytes "expires_ms" = 12 ∧ stringBytes "rpc_generation" = 16 ∧
      stringBytes "request_nonce" = 15) ∧ stringBytes "network-ai-private-lab" = 24 ∧
      stringBytes "network-ai-rpc-stage-readiness" = 32 ∧ integerBytes (1 : Nat) = 1 := by
    decide +kernel
  obtain ⟨⟨k1, k2, k3, k4, k5, k6, k7, k8⟩, ⟨k9, k10, k11, k12, k13, k14, k15, k16⟩, l1, l2, l3⟩ :=
    hkeys
  simp only [ReadinessPayload.bytes, objectBytes, List.map_cons, List.map_nil, List.sum_cons,
    List.sum_nil, List.length_cons, List.length_nil, hnetwork, haud, hversion, l1, l2, l3, uuidBytes,
    stringBytes_of_isSha256 hroute, stringBytes_of_isSha256 hmanifest,
    stringBytes_of_isNonce hnonce, k1, k2, k3, k4, k5, k6, k7, k8, k9, k10, k11, k12, k13, k14, k15,
    k16]
  omega

/-- A valid declaration makes a token that is short enough. -/
theorem signReadiness_length {K : Signing} (hK : K.Ideal) {p : ReadinessPayload} (h : p.Valid) :
    (signReadiness K p).length ≤ 3072 := by
  have hbytes := p.bytes_le h
  have hheader : base64UrlLength readinessHeader.bytes ≤ 56 := by decide +kernel
  have hpayload : base64UrlLength p.bytes ≤ 984 := by
    rw [base64UrlLength]
    omega
  rw [Token.length, signReadiness, hK.length p]
  omega

/-! ### What the coordinator checks -/

/-- What holds of a declaration that the coordinator writes. -/
structure Issued (r : Registry) (tx : Tx) (id : NodeId) (data : StageReadiness) (row : StageRow)
    (p : ReadinessPayload) : Prop where
  valid : data.Valid
  found : stageRow r id data.routeId = some row
  route : row.route.routeSha256 = data.routeSha256 ∧ row.route.manifestSha256 = data.manifestSha256
  stage : row.stage.epoch = data.epoch ∧ row.stage.desiredState ≠ .revoked
  eligible : row.eligible r data.routeId = true
  literals : p.network = "network-ai-private-lab" ∧ p.aud = "network-ai-rpc-stage-readiness" ∧
    p.version = 1
  request : p.stageNodeId = id ∧ p.stageEpoch = data.epoch ∧ p.routeId = data.routeId ∧
    p.rpcGeneration = data.rpcGeneration ∧ p.requestNonce = data.requestNonce
  digests : p.routeSha256 = row.route.routeSha256 ∧ p.manifestSha256 = row.route.manifestSha256
  root : p.rootNodeId = row.route.rootNodeId ∧ p.rootEpoch = row.root.epoch ∧
    p.rootBootId = row.root.bootId.getD 0 ∧ p.rootSeenMs = (row.root.lastSeen.map toMs).getD 0
  instants : p.issuedMs = tx.clock 0 ∧ p.expiresMs = min (tx.clock 0 + 4000) (p.rootSeenMs + 6000)
  seen : p.rootSeenMs.natAbs ≤ maxSafeInteger ∧ p.rootSeenMs ≤ p.issuedMs
  lives : p.issuedMs + 250 < p.expiresMs

/-- A declaration is written only of a route whose root was seen and that is eligible. -/
theorem readinessPayload_ok {r : Registry} {tx : Tx} {id : NodeId} {data : StageReadiness}
    {p : ReadinessPayload} (h : readinessPayload r tx id data = .ok (some p)) :
    ∃ row, Issued r tx id data row p := by
  simp only [readinessPayload, parse, need, needRow, Checked.bind_ok, Checked.guard_ok,
    Checked.require_ok] at h
  obtain ⟨-, hvalid, row, hrow, -, hroute, -, hstage, h⟩ := h
  split at h
  · simp at h
  · rename_i hready
    simp only [not_or, Bool.not_eq_false, not_lt, not_le] at hready
    obtain ⟨heligible, hsafe, hseen, hlives⟩ := hready
    simp only [Checked.pure_ok, Option.some.injEq] at h
    subst h
    exact ⟨row, ⟨hvalid, hrow, hroute, hstage, heligible, ⟨rfl, rfl, rfl⟩, ⟨rfl, rfl, rfl, rfl, rfl⟩,
      ⟨rfl, rfl⟩, ⟨rfl, rfl, rfl, rfl⟩, ⟨rfl, rfl⟩, ⟨hsafe, hseen⟩, hlives⟩⟩

/-- What the node that makes a request expects of the answer. -/
def StageReadiness.expected (data : StageReadiness) (id : NodeId) : Expected :=
  ⟨⟨id, data.routeId, data.routeSha256, data.manifestSha256⟩, data.epoch, data.rpcGeneration,
    data.requestNonce⟩

section

variable {r : Registry} {tx : Tx} {id : NodeId} {data : StageReadiness} {row : StageRow}
  {p : ReadinessPayload}

/-- The answer is the one expected exactly if the request was the one expected. -/
theorem Issued.answers_iff (h : Issued r tx id data row p) {e : Expected} :
    p.Answers e ↔ e = data.expected id := by
  obtain ⟨⟨stage, route, routeSha, manifestSha⟩, epoch, generation, nonce⟩ := e
  obtain ⟨hid, hepoch, hroute, hgeneration, hnonce⟩ := h.request
  obtain ⟨hrouteSha, hmanifestSha⟩ := h.digests
  rw [ReadinessPayload.Answers, hid, hepoch, hroute, hgeneration, hnonce, hrouteSha, hmanifestSha,
    h.route.1, h.route.2]
  simp only [StageReadiness.expected, Expected.mk.injEq, RpcBinding.mk.injEq]
  constructor
  · rintro ⟨h1, h2, h3, h4, h5, h6, h7⟩
    exact ⟨⟨h1.symm, h3.symm, h4.symm, h5.symm⟩, h2.symm, h6.symm, h7.symm⟩
  · rintro ⟨⟨h1, h3, h4, h5⟩, h2, h6, h7⟩
    exact ⟨h1.symm, h2.symm, h3.symm, h4.symm, h5.symm, h6.symm, h7.symm⟩

/-- A declaration is in force from a quarter of a second before it was issued until it expires. -/
theorem Issued.inForce_iff (h : Issued r tx id data row p) {nowMs : Int} :
    p.InForce nowMs ↔ p.issuedMs - 250 ≤ nowMs ∧ nowMs < p.expiresMs := by
  obtain ⟨hissued, hexpires⟩ := h.instants
  have hseen := h.seen.2
  have hlives := h.lives
  rw [ReadinessPayload.InForce]
  omega

/-- The numbers of a declaration are within the contributor's range. -/
def ReadinessPayload.Safe (p : ReadinessPayload) : Prop :=
  0 ≤ p.rootSeenMs ∧ p.expiresMs ≤ maxSafeInteger ∧ p.rootEpoch ≤ maxSafeInteger

instance (p : ReadinessPayload) : Decidable p.Safe := inferInstanceAs (Decidable (_ ∧ _))

/-- An issued payload is valid exactly if its numbers are safe integers. -/
theorem Issued.valid_iff (h : Issued r tx id data row p) : p.Valid ↔ p.Safe := by
  obtain ⟨⟨hpos, hepoch⟩, hroute, hmanifest, hnonce⟩ := h.valid
  obtain ⟨-, hstage, -, -, hrequest⟩ := h.request
  have hroot : 0 < p.rootEpoch := by
    have heligible := h.eligible
    simp only [StageRow.eligible, decide_eq_true_eq] at heligible
    rw [h.root.2.1]
    exact heligible.2.2.2.2.2.2.2.2.1
  have hexpires := h.instants.2
  have hseen := h.seen
  have hlives := h.lives
  constructor
  · rintro ⟨-, ⟨-, -, hrootEpoch, -⟩, -, hseen', -, hexpires'⟩
    exact ⟨hseen'.1, hexpires'.2, Int.ofNat_le.1 hrootEpoch.2⟩
  · rintro ⟨hpast, hfuture, hsafe⟩
    have hdigests : isSha256 p.routeSha256 ∧ isSha256 p.manifestSha256 := by
      rw [h.digests.1, h.digests.2, h.route.1, h.route.2]
      exact ⟨hroute, hmanifest⟩
    rw [← hstage] at hpos hepoch
    rw [← hrequest] at hnonce
    refine ⟨h.literals, ⟨⟨by omega, by omega⟩, hpos, ⟨by omega, by omega⟩, hroot⟩,
      ⟨hdigests.1, hdigests.2, hnonce⟩, ⟨by omega, by omega⟩, ⟨by omega, by omega⟩, by omega,
      by omega⟩

end

/-- The contributor reads of a token of the coordinator only what was written. -/
theorem verifyReadiness_sign {K : Signing} (hK : K.Ideal) {p q : ReadinessPayload} {e : Expected}
    {nowMs : Int} : verifyReadiness K (some (signReadiness K p)) e nowMs = .ok q ↔
      q = p ∧ p.Valid ∧ p.Answers e ∧ p.InForce nowMs := by
  simp only [verifyReadiness, Checked.bind_ok, Checked.guard_ok, Checked.require_ok,
    Option.some.injEq]
  constructor
  · rintro ⟨token, rfl, -, -, -, -, header, -, -, -, value, hread, -, hvalue, -, hin, hq⟩
    rw [Checked.pure_ok] at hq
    subst hq
    obtain rfl := (hK.payload p _ hvalue).1 hread
    exact ⟨rfl, hvalue, hin⟩
  · rintro ⟨rfl, hvalue, hin⟩
    exact ⟨_, rfl, (), signReadiness_length hK hvalue, (), hK.verify _, readinessHeader,
      hK.header q, (), by decide, q, (hK.payload q q hvalue).2 rfl, (), hvalue, (), hin, rfl⟩

/-- **Agreement.** A token of the coordinator is accepted by the contributor exactly for the
request that it answers, from a quarter of a second before it was issued until it expires, and
nothing else is read of it.

**Proof sketch.** Verifying a signed token is checking its payload (`verifyReadiness_sign`), and
each check of the payload, of its form, of the request and of the time, says the same of an issued
payload as the bounds of the statement. -/
theorem readiness_agreement {K : Signing} (hK : K.Ideal) {r : Registry} {tx : Tx} {id : NodeId}
    {data : StageReadiness} {token : Token K}
    (h : stageReadiness K r tx id data = .ok (some token)) :
    ∃ p, readinessPayload r tx id data = .ok (some p) ∧ ∀ e nowMs q,
      verifyReadiness K (some token) e nowMs = .ok q ↔
        q = p ∧ p.Safe ∧ e = data.expected id ∧ p.issuedMs - 250 ≤ nowMs ∧ nowMs < p.expiresMs := by
  simp only [stageReadiness, Checked.map_ok, Option.map_eq_some_iff] at h
  obtain ⟨_, hwritten, p, rfl, rfl⟩ := h
  obtain ⟨row, hissued⟩ := readinessPayload_ok hwritten
  refine ⟨p, hwritten, fun e nowMs q => ?_⟩
  rw [verifyReadiness_sign hK, hissued.valid_iff, hissued.answers_iff, hissued.inForce_iff]

/-! ### A laboratory -/

/-- Texts that are what they say, signed by themselves. -/
def labSigning : Signing where
  Text := TokenHeader × ReadinessPayload
  Signature := TokenHeader × ReadinessPayload
  sign text := text
  verify text signature := text = signature
  length text := base64UrlLength text.1.bytes + 1 + base64UrlLength text.2.bytes
  write header p := (header, p)
  header text := some text.1
  payload text := some text.2
  capability _ := none

/-- The signatures of the laboratory are ideal. -/
theorem labSigning_ideal : labSigning.Ideal where
  verify text := by
    simp only [labSigning, decide_eq_true_eq]
    rfl
  header _ := rfl
  payload p v _ := ⟨fun h => (Option.some.inj h).symm, fun h => congrArg some h.symm⟩
  length _ := rfl

/-- The digest of the laboratory. -/
def labDigest : String := "0000000000000000000000000000000000000000000000000000000000000000"

/-- A ready root and its stage, of two members. -/
def labReadiness : Registry where
  users := Table.empty.insert 0 ⟨.admin, false, none⟩ rfl
  domains := Table.empty.insert 1 ⟨0, 2⟩ rfl
  models := Table.empty.insert "m" ⟨labManifest, labDigest, .localPreview, 0⟩ rfl
  nodes := (Table.empty.insert 1 ⟨0, 1, "m", .routeRoot, some "k", some 7, 1, .ready, .ready,
    some (ofMs 86400000), ["b"]⟩ rfl).insert 2 ⟨0, 1, "m", .rpcStage, some "k", some 8, 3, .paused,
    .ready, none, []⟩ rfl
  invites := Table.empty
  routes := Table.empty.insert 9 ⟨0, "A", "m", labDigest, 1, labDigest, 1, "h", .localPreview,
    [⟨1, 0, 1, 0, .root, 5000⟩, ⟨2, 0, 1, 1, .stage, 5000⟩], by decide⟩ rfl
  routeAcceptances := Table.empty.insert (9, 0) ⟨labDigest, none⟩ rfl

/-- The request of the stage. -/
def labStage : StageReadiness :=
  ⟨3, 9, labDigest, labDigest, 50, "nnnnnnnnnnnnnnnnnnnnnnnnnnnnnnnnnnnnnnnnnnn"⟩

/-- The declaration of the laboratory, one second after its root was seen. -/
def labDeclared : ReadinessPayload where
  network := "network-ai-private-lab"
  aud := "network-ai-rpc-stage-readiness"
  version := 1
  stageNodeId := 2
  stageEpoch := 3
  routeId := 9
  routeSha256 := labDigest
  manifestSha256 := labDigest
  rootNodeId := 1
  rootEpoch := 1
  rootBootId := 7
  rootSeenMs := 86400000
  issuedMs := 86401000
  expiresMs := 86405000
  rpcGeneration := 50
  requestNonce := "nnnnnnnnnnnnnnnnnnnnnnnnnnnnnnnnnnnnnnnnnnn"

/-- In the laboratory the declaration is answered with a payload. -/
theorem labReadiness_declared :
    readinessPayload labReadiness (labTx 1 1000) 2 labStage = .ok (some labDeclared) := by
  decide +kernel

/-- In the laboratory the declared payload, signed, is verified by the stage that asked, for its
time. -/
theorem readiness_agreement_lab : ∃ p,
    readinessPayload labReadiness (labTx 1 1000) 2 labStage = .ok (some p) ∧ ∀ e nowMs q,
      verifyReadiness labSigning (some (signReadiness labSigning labDeclared)) e nowMs = .ok q ↔
        q = p ∧ p.Safe ∧ e = labStage.expected 2 ∧ p.issuedMs - 250 ≤ nowMs ∧
          nowMs < p.expiresMs := by
  refine readiness_agreement labSigning_ideal ?_
  rw [stageReadiness, labReadiness_declared]
  rfl

end NetworkAi.Stage
