import Mathlib.Algebra.Group.Nat.Defs
import NetworkAi.Lib.Checked

set_option relaxedAutoImplicit false
set_option autoImplicit false

/-!
# Frames of the private link

A response crosses the link as length-prefixed frames; an empty frame ends it. The stream between
the two ends is a list of bytes, read from the front.

## Main definitions

* `NetworkAi.Link.frame`, `NetworkAi.Link.readFrame` — a frame as bytes, and reading one.
* `NetworkAi.Link.serveFrames` — the frames that the serving side writes for a response.

## Main results

* `NetworkAi.Link.readFrame_frame` — a frame that was written is read back.
* `NetworkAi.Link.readFrame_append` — what is read does not depend on what follows.
* `NetworkAi.Link.serveFrames_ok` — the frames of a response carry its bytes, in order.
-/

namespace NetworkAi.Link

/-- `CHUNK`. -/
def chunkLimit : Nat := 65536

/-- `RESPONSE`. -/
def responseLimit : Nat := 8 * 1024 * 1024

/-- The errors of the link. -/
inductive LinkError where
  | eof
  | frameLimit
  | responseLimit
  | trailing
  deriving DecidableEq, Repr

/-- `write_u32`, in big-endian order. -/
def writeU32 (n : Nat) : List UInt8 :=
  [UInt8.ofNat (n / 2 ^ 24), UInt8.ofNat (n / 2 ^ 16), UInt8.ofNat (n / 2 ^ 8), UInt8.ofNat n]

/-- The bytes of `write_frame`, for data whose length fits in the prefix. -/
def frame (data : List UInt8) : List UInt8 := writeU32 data.length ++ data

/-- `read_u32`, with the rest of the stream. -/
def readU32 : List UInt8 → Except LinkError (Nat × List UInt8)
  | a :: b :: c :: d :: rest =>
    .ok (a.toNat * 2 ^ 24 + b.toNat * 2 ^ 16 + c.toNat * 2 ^ 8 + d.toNat, rest)
  | _ => .error .eof

/-- `read_frame`, with the rest of the stream. -/
def readFrame (max : Nat) (bytes : List UInt8) : Except LinkError (List UInt8 × List UInt8) := do
  let (len, rest) ← readU32 bytes
  Checked.guard (len ≤ max) .frameLimit
  Checked.guard (len ≤ rest.length) .eof
  return (rest.take len, rest.drop len)

/-- `chunks`: consecutive parts of `n + 1` bytes, the last one may be shorter. -/
def slices (n : Nat) (bytes : List UInt8) : List (List UInt8) :=
  if bytes = [] then [] else bytes.take (n + 1) :: slices n (bytes.drop (n + 1))
termination_by bytes.length
decreasing_by
  rename_i hne
  have := List.length_pos_iff.2 hne
  simp only [List.length_drop]
  omega

/-- The frames that `serve` writes for the body of a response, from the items of its stream and
the size of those before; the last frame is empty. -/
def serveFrames (size : Nat) : List (List UInt8) → Except LinkError (List (List UInt8))
  | [] => .ok [[]]
  | bytes :: items => do
    Checked.guard (size + bytes.length ≤ responseLimit) .responseLimit
    let frames ← serveFrames (size + bytes.length) items
    return slices (chunkLimit - 1) bytes ++ frames

/-- The bytes of a list of frames. -/
def wire (frames : List (List UInt8)) : List UInt8 := frames.flatMap frame

/-- No frames have no bytes. -/
@[simp] theorem wire_nil : wire [] = [] := rfl

/-- The bytes of the first frame come first. -/
@[simp] theorem wire_cons (f : List UInt8) (fs : List (List UInt8)) :
    wire (f :: fs) = frame f ++ wire fs := rfl

/-! ### Reading what was written -/

/-- A length that was written is read back. -/
theorem readU32_writeU32 {n : Nat} (h : n < 2 ^ 32) (rest : List UInt8) :
    readU32 (writeU32 n ++ rest) = .ok (n, rest) := by
  have hdigits : (UInt8.ofNat (n / 2 ^ 24)).toNat * 2 ^ 24 +
      (UInt8.ofNat (n / 2 ^ 16)).toNat * 2 ^ 16 + (UInt8.ofNat (n / 2 ^ 8)).toNat * 2 ^ 8 +
      (UInt8.ofNat n).toNat = n := by
    simp only [UInt8.toNat_ofNat']
    omega
  simp only [writeU32, List.cons_append, List.nil_append, readU32, hdigits]

/-- **A frame that was written is read back.** -/
theorem readFrame_frame {data : List UInt8} {max : Nat} (h : data.length ≤ max)
    (hmax : max < 2 ^ 32) (rest : List UInt8) :
    readFrame max (frame data ++ rest) = .ok (data, rest) := by
  rw [readFrame, frame, List.append_assoc, readU32_writeU32 (by omega)]
  refine Checked.bind_ok.2 ⟨_, rfl, ?_⟩
  simp [Checked.guard, h, bind, Except.bind, pure, Except.pure]

/-- A frame above the limit is refused. -/
theorem readFrame_oversized {n max : Nat} (h : max < n) (hn : n < 2 ^ 32) (rest : List UInt8) :
    readFrame max (writeU32 n ++ rest) = .error .frameLimit := by
  rw [readFrame, readU32_writeU32 hn]
  simp [Checked.guard, Nat.not_le.2 h, bind, Except.bind]

/-- What is read does not depend on what follows. -/
theorem readFrame_append {max : Nat} {bytes data rest : List UInt8}
    (h : readFrame max bytes = .ok (data, rest)) (more : List UInt8) :
    readFrame max (bytes ++ more) = .ok (data, rest ++ more) := by
  simp only [readFrame, Checked.bind_ok, Checked.guard_ok, Checked.pure_ok, Prod.exists] at h
  obtain ⟨len, tail, hread, -, hmax, -, hlen, heq⟩ := h
  obtain ⟨rfl, rfl⟩ := Prod.mk.inj heq
  have hread' : readU32 (bytes ++ more) = .ok (len, tail ++ more) := by
    unfold readU32 at hread
    split at hread
    · obtain ⟨rfl, rfl⟩ := Prod.mk.inj (Except.ok.inj hread)
      rfl
    · cases hread
  rw [readFrame, hread']
  refine Checked.bind_ok.2 ⟨_, rfl, ?_⟩
  have hle : len ≤ tail.length + more.length := by omega
  simp [Checked.guard, hmax, hle, bind, Except.bind, pure, Except.pure,
    List.take_append_of_le_length hlen, List.drop_append_of_le_length hlen]

/-! ### The frames of a response -/

/-- The slices of some bytes are these bytes. -/
theorem slices_flatten (n : Nat) (bytes : List UInt8) : (slices n bytes).flatten = bytes := by
  induction bytes using slices.induct n with
  | case1 => simp [slices]
  | case2 bytes hne ih =>
    rw [slices, if_neg hne, List.flatten_cons, ih, List.take_append_drop]

/-- A slice is not empty, and not longer than asked for. -/
theorem mem_slices {n : Nat} {bytes c : List UInt8} (h : c ∈ slices n bytes) :
    c ≠ [] ∧ c.length ≤ n + 1 := by
  induction bytes using slices.induct n with
  | case1 => simp [slices] at h
  | case2 bytes hne ih =>
    rw [slices, if_neg hne, List.mem_cons] at h
    rcases h with rfl | h
    · refine ⟨fun hnil => ?_, List.length_take_le _ _⟩
      have hpos := List.length_pos_iff.2 hne
      have hlen := congrArg List.length hnil
      rw [List.length_take, List.length_nil] at hlen
      omega
    · exact ih h

/-- **The frames of a response** carry its bytes, in order; only the last one is empty. -/
theorem serveFrames_ok {items frames : List (List UInt8)} {size : Nat}
    (h : serveFrames size items = .ok frames) :
    ∃ chunks, frames = chunks ++ [[]] ∧ chunks.flatten = items.flatten ∧
      (∀ c ∈ chunks, c ≠ [] ∧ c.length ≤ chunkLimit) := by
  induction items generalizing size frames with
  | nil =>
    refine ⟨[], ?_, rfl, by simp⟩
    rw [serveFrames, Except.ok.injEq] at h
    rw [← h]
    rfl
  | cons bytes items ih =>
    simp only [serveFrames, Checked.bind_ok, Checked.guard_ok, Checked.pure_ok] at h
    obtain ⟨-, -, rest, hrest, rfl⟩ := h
    obtain ⟨chunks, rfl, hflat, hchunks⟩ := ih hrest
    refine ⟨slices (chunkLimit - 1) bytes ++ chunks, by simp, ?_, fun c hc => ?_⟩
    · rw [List.flatten_append, slices_flatten, hflat, List.flatten_cons]
    · rcases List.mem_append.1 hc with hc | hc
      · exact mem_slices hc
      · exact hchunks c hc

end NetworkAi.Link
