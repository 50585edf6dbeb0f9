namespace BlockCodec

/-- A family of nodes: each has its own decoder and its own name in messages. -/
inductive Family where
  | expression
  | stage
  | pipeline
  | program
  deriving DecidableEq

def Family.name : Family → String
  | expression => "expression"
  | stage => "stage"
  | pipeline => "pipeline"
  | program => "program"

end BlockCodec
