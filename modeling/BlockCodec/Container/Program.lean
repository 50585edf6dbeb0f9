import BlockCodec.Container.Pipeline

namespace BlockCodec

structure Program where
  pipelines : List Pipeline
  deriving DecidableEq

def programKind : String := "@program"

namespace Program

def withPipeline (p : Program) (q : Pipeline) : Program := ⟨p.pipelines ++ [q]⟩

def size (p : Program) : Nat := p.pipelines.length

def pipeline? (p : Program) (name : String) : Option Pipeline := p.pipelines.find? (·.name == name)

def dependencies (p : Program) : List (List String) := p.pipelines.map Pipeline.dependencies

def encode (p : Program) : Json := .array (.string programKind :: p.pipelines.map Pipeline.encode)

def toText (p : Program) : String := p.encode.compact

/-- Decodes a program at a position: the tag, then each pipeline. -/
def decodeAt (pos : Position) (v : Json) : Except DecodeError Program :=
  if pos.depth ≤ pos.limit then
    match openEnvelope .program programKind pos v with
    | .error e => .error e
    | .ok items => (decodeItems Pipeline.decodeAt pos 1 items).map Program.mk
  else .error (pos.depthError .program)

def decode (limit : Nat) (v : Json) : Except DecodeError Program := decodeAt (Position.root limit) v

end Program

/-- The catalog of every family: the variant tables of expressions and stages, and the
tags of pipelines and programs. -/
def catalog : Json :=
  Json.ofMembers [("expression", expressionTable.catalog), ("stage", stageTable.catalog),
    ("pipeline", Json.ofMembers [("kind", .string pipelineKind)]),
    ("program", Json.ofMembers [("kind", .string programKind)])]

end BlockCodec
