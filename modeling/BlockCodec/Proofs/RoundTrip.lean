import BlockCodec.Proofs.ContainerDecoding

namespace BlockCodec

/-- Decoding with limit `m` gives back exactly the values whose persisted form nests node
arrays at most `m` levels below the root, and reports every other value at a node one level
past the limit. -/
def DecodesWithinDepth {α : Type} (decode : Nat → Json → Except DecodeError α) (encode : α → Json)
    (height : α → Nat) : Prop :=
  ∀ m x, (decode m (encode x) = .ok x ↔ height x ≤ m) ∧
    (m < height x → ∃ err, decode m (encode x) = .error err ∧ err.problem = .depthLimit m ∧
      err.path.length = m + 1)

/-- A decoder accepts only persisted forms: whatever it decodes encodes back to the value read. -/
def DecodesOnlyEncodings {α : Type} (decode : Nat → Json → Except DecodeError α) (encode : α → Json) : Prop :=
  ∀ m v x, decode m v = .ok x → encode x = v

theorem decode_encode_within_depth :
    DecodesWithinDepth Expression.decode Expression.encode Expression.height ∧
      DecodesWithinDepth Stage.decode Stage.encode Stage.height ∧
      DecodesWithinDepth Pipeline.decode Pipeline.encode Pipeline.height ∧
      DecodesWithinDepth Program.decode Program.encode Program.height := by
  refine ⟨fun m e => ⟨?_, fun deep => ?_⟩, fun m s => ⟨?_, fun deep => ?_⟩,
    fun m p => ⟨?_, fun deep => ?_⟩, fun m p => ⟨?_, fun deep => ?_⟩⟩
  · simp [Expression.decode, Expression.decodeAt_eq_ok_iff, Position.root]
  · exact @Expression.decodeAt_encode_of_deep (Position.root m) e (Nat.zero_le _) (by simpa [Position.root] using deep)
  · simp [Stage.decode, Stage.decodeAt_eq_ok_iff, Position.root]
  · exact @Stage.decodeAt_encode_of_deep (Position.root m) s (Nat.zero_le _) (by simpa [Position.root] using deep)
  · simp [Pipeline.decode, Pipeline.decodeAt_eq_ok_iff, Position.root]
  · exact @Pipeline.decodeAt_encode_of_deep (Position.root m) p (Nat.zero_le _) (by simpa [Position.root] using deep)
  · simp [Program.decode, Program.decodeAt_eq_ok_iff, Position.root]
  · exact @Program.decodeAt_encode_of_deep (Position.root m) p (Nat.zero_le _) (by simpa [Position.root] using deep)

theorem decode_accepts_only_encodings :
    DecodesOnlyEncodings Expression.decode Expression.encode ∧
      DecodesOnlyEncodings Stage.decode Stage.encode ∧
      DecodesOnlyEncodings Pipeline.decode Pipeline.encode ∧
      DecodesOnlyEncodings Program.decode Program.encode :=
  ⟨fun _ _ _ decoded => (Expression.decodeAt_eq_ok_iff.mp decoded).1.symm,
    fun _ _ _ decoded => (Stage.decodeAt_eq_ok_iff.mp decoded).1.symm,
    fun _ _ _ decoded => (Pipeline.decodeAt_eq_ok_iff.mp decoded).1.symm,
    fun _ _ _ decoded => (Program.decodeAt_eq_ok_iff.mp decoded).1.symm⟩

end BlockCodec
