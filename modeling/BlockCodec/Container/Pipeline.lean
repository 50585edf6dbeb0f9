import BlockCodec.Container.Envelope
import BlockCodec.Stage.Codec

namespace BlockCodec

structure Pipeline where
  name : String
  stages : List Stage
  deriving DecidableEq

def pipelineKind : String := "@pipeline"

/-- Appends the items of a list not already present, in order. -/
def appendNew (acc : List String) : List String → List String
  | [] => acc
  | x :: rest => appendNew (if acc.contains x then acc else acc ++ [x]) rest

namespace Pipeline

def withStage (p : Pipeline) (s : Stage) : Pipeline := { p with stages := p.stages ++ [s] }

def size (p : Pipeline) : Nat := p.stages.length

/-- The tables the pipeline's stages read, in order of first use, each once. -/
def dependencies (p : Pipeline) : List String := appendNew [] (p.stages.flatMap Stage.dependencies)

def encode (p : Pipeline) : Json :=
  .array (.string pipelineKind :: .string p.name :: p.stages.map Stage.encode)

def toText (p : Pipeline) : String := p.encode.compact

/-- Decodes a pipeline at a position: the tag, a string name, then each stage. -/
def decodeAt (pos : Position) (v : Json) : Except DecodeError Pipeline :=
  if pos.depth ≤ pos.limit then
    match openEnvelope .pipeline pipelineKind pos v with
    | .error e => .error e
    | .ok [] => .error ⟨.pipeline, .missingName pipelineKind, some pipelineKind, none, pos.path⟩
    | .ok (.string name :: rest) => (decodeItems Stage.decodeAt pos 2 rest).map (Pipeline.mk name)
    | .ok (other :: _) =>
      .error ⟨.pipeline, .argType "name" "string" other.typeName, some pipelineKind, none,
        (pos.child 1).path⟩
  else .error (pos.depthError .pipeline)

def decode (limit : Nat) (v : Json) : Except DecodeError Pipeline := decodeAt (Position.root limit) v

end Pipeline

end BlockCodec
