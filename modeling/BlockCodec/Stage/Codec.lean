import BlockCodec.Stage.Basic
import BlockCodec.Expression.Codec

namespace BlockCodec

inductive StageForm where
  | drop | filter | groupBy | join | mutate | notify | read | select | sort | summarize | ungroup
  | unique
  | bar | box | dot | histogram | scatter
  | anova | kolmogorovSmirnov | kruskalWallis | tTestOneSample | tTestPaired | zTestOneSample

namespace StageForm

def transformVariant (name description : String) (params : List Param) (form : StageForm) :
    Variant StageForm :=
  ⟨⟨transformKind, name, description, params⟩, form⟩

def plotVariant (name description : String) (params : List Param) (form : StageForm) :
    Variant StageForm :=
  ⟨⟨plotKind, name, description, params⟩, form⟩

def statsVariant (name description : String) (params : List Param) (form : StageForm) :
    Variant StageForm :=
  ⟨⟨statsKind, name, description, params⟩, form⟩

def columnsParams : List Param := [Param.required "columns" .textList]

def axesParams : List Param := [Param.required "xAxis" .text, Param.required "yAxis" .text]

def groupedParams : List Param :=
  [Param.required "significance" .number, Param.required "groupName" .text,
    Param.required "valueName" .text]

/-- A distribution's mean and deviation, a significance and a column. -/
def distributionParams : List Param :=
  [Param.required "mean" .number, Param.required "stdDev" .number,
    Param.required "significance" .number, Param.required "colName" .text]

end StageForm

open StageForm in
/-- The registered stage variants, in registration order. -/
def stageVariants : List (Variant StageForm) :=
  [transformVariant "drop" "Remove columns" columnsParams .drop,
   transformVariant "filter" "Keep rows matching a condition"
     [Param.required "condition" (.node .expression)] .filter,
   transformVariant "groupBy" "Group rows by column values" columnsParams .groupBy,
   transformVariant "join" "Join two named tables on columns"
     [Param.required "leftName" .text, Param.required "leftCol" .text,
      Param.required "rightName" .text, Param.required "rightCol" .text] .join,
   transformVariant "mutate" "Create or replace a column"
     [Param.required "newName" .text, Param.required "expr" (.node .expression)] .mutate,
   transformVariant "notify" "Publish the table under a label" [Param.required "label" .text] .notify,
   transformVariant "read" "Read a table from a file" [Param.required "path" .text] .read,
   transformVariant "select" "Keep only some columns" columnsParams .select,
   transformVariant "sort" "Sort rows by columns"
     [Param.required "columns" .textList, Param.optionalOf "ascending" .bool] .sort,
   transformVariant "summarize" "Summarize a column"
     [Param.required "func" .text, Param.required "column" .text] .summarize,
   transformVariant "ungroup" "Remove grouping" [] .ungroup,
   transformVariant "unique" "Keep rows with unique column values" columnsParams .unique,
   plotVariant "bar" "Bar chart" axesParams .bar,
   plotVariant "box" "Box-and-whisker plot" axesParams .box,
   plotVariant "dot" "Dot plot of one column" [Param.required "xAxis" .text] .dot,
   plotVariant "histogram" "Histogram with a fixed bin count"
     [Param.required "column" .text, Param.required "bins" .count] .histogram,
   plotVariant "scatter" "Scatter plot with optional color"
     [Param.required "xAxis" .text, Param.required "yAxis" .text, Param.optionalOf "color" .text]
     .scatter,
   statsVariant "ANOVA" "One-way analysis of variance" groupedParams .anova,
   statsVariant "KolmogorovSmirnov" "Kolmogorov-Smirnov test for normality" distributionParams
     .kolmogorovSmirnov,
   statsVariant "KruskalWallis" "Kruskal-Wallis H test" groupedParams .kruskalWallis,
   statsVariant "TTestOneSample" "One-sample t test"
     [Param.required "mean" .number, Param.required "significance" .number,
      Param.required "colName" .text] .tTestOneSample,
   statsVariant "TTestPaired" "Paired two-sided t test"
     [Param.required "significance" .number, Param.required "leftCol" .text,
      Param.required "rightCol" .text] .tTestPaired,
   statsVariant "ZTestOneSample" "One-sample z test" distributionParams .zTestOneSample]

def stageTable : VariantTable StageForm := ⟨.stage, stageKinds, stageVariants⟩

def stringArray (xs : List String) : Json := .array (xs.map .string)

namespace Transform

def args : Transform → List Json
  | drop cs | groupBy cs | select cs | unique cs => [stringArray cs]
  | filter e => [e.encode]
  | join lt lc rt rc => [.string lt, .string lc, .string rt, .string rc]
  | mutate c e => [.string c, e.encode]
  | notify l => [.string l]
  | read p => [.string p]
  | sort cs asc => stringArray cs :: (asc.map Json.bool).toList
  | summarize f c => [.string f.name, .string c]
  | ungroup => []

end Transform

namespace Plot

def args : Plot → List Json
  | bar x y | box x y => [.string x, .string y]
  | dot x => [.string x]
  | histogram c bins => [.string c, .number (.natural bins)]
  | scatter x y color => [.string x, .string y] ++ (color.map Json.string).toList

end Plot

namespace StatTest

def args : StatTest → List Json
  | anova s g v | kruskalWallis s g v => [.number s, .string g, .string v]
  | kolmogorovSmirnov m d s c | zTestOneSample m d s c => [.number m, .number d, .number s, .string c]
  | tTestOneSample m s c => [.number m, .number s, .string c]
  | tTestPaired s l r => [.number s, .string l, .string r]

end StatTest

namespace Stage

def args : Stage → List Json
  | transform t => t.args
  | plot p => p.args
  | stats s => s.args

def encode (s : Stage) : Json := .array (.string s.kind :: .string s.name :: s.args)

def toText (s : Stage) : String := s.encode.compact

/-- Builds a stage of a registered form from its arguments; arguments are read in order. -/
def build (a : Arguments) : StageForm → Except DecodeError Stage
  | .drop => (a.textList 0).map (transform ∘ .drop)
  | .filter => do
    let x ← a.get 0
    pure (transform (.filter (← Expression.decodeAt (a.childPosition 0) x)))
  | .groupBy => (a.textList 0).map (transform ∘ .groupBy)
  | .join => do
    let lt ← a.text 0
    let lc ← a.text 1
    let rt ← a.text 2
    let rc ← a.text 3
    pure (transform (.join lt lc rt rc))
  | .mutate => do
    let c ← a.text 0
    let x ← a.get 1
    pure (transform (.mutate c (← Expression.decodeAt (a.childPosition 1) x)))
  | .notify => (a.text 0).map (transform ∘ .notify)
  | .read => (a.text 0).map (transform ∘ .read)
  | .select => (a.textList 0).map (transform ∘ .select)
  | .sort => do
    let cs ← a.textList 0
    let asc ← a.optionalBool 1
    pure (transform (.sort cs asc))
  | .summarize => do
    let f ← a.text 0
    match Aggregation.ofName? f with
    | none => throw (a.invalidValue 0 "summary function name")
    | some fn => pure (transform (.summarize fn (← a.text 1)))
  | .ungroup => pure (transform .ungroup)
  | .unique => (a.textList 0).map (transform ∘ .unique)
  | .bar => do
    let x ← a.text 0
    let y ← a.text 1
    pure (plot (.bar x y))
  | .box => do
    let x ← a.text 0
    let y ← a.text 1
    pure (plot (.box x y))
  | .dot => (a.text 0).map (plot ∘ .dot)
  | .histogram => do
    let c ← a.text 0
    let bins ← a.count 1
    pure (plot (.histogram c bins))
  | .scatter => do
    let x ← a.text 0
    let y ← a.text 1
    let color ← a.optionalText 2
    pure (plot (.scatter x y color))
  | .anova => do
    let s ← a.number 0
    let g ← a.text 1
    let v ← a.text 2
    pure (stats (.anova s g v))
  | .kolmogorovSmirnov => do
    let m ← a.number 0
    let d ← a.number 1
    let s ← a.number 2
    let c ← a.text 3
    pure (stats (.kolmogorovSmirnov m d s c))
  | .kruskalWallis => do
    let s ← a.number 0
    let g ← a.text 1
    let v ← a.text 2
    pure (stats (.kruskalWallis s g v))
  | .tTestOneSample => do
    let m ← a.number 0
    let s ← a.number 1
    let c ← a.text 2
    pure (stats (.tTestOneSample m s c))
  | .tTestPaired => do
    let s ← a.number 0
    let l ← a.text 1
    let r ← a.text 2
    pure (stats (.tTestPaired s l r))
  | .zTestOneSample => do
    let m ← a.number 0
    let d ← a.number 1
    let s ← a.number 2
    let c ← a.text 3
    pure (stats (.zTestOneSample m d s c))

def decodeAt (pos : Position) (v : Json) : Except DecodeError Stage :=
  if pos.depth ≤ pos.limit then
    match stageTable.readHeader pos v with
    | .error e => .error e
    | .ok (var, values) => build ⟨.stage, var.signature, values, 2, pos⟩ var.form
  else .error (pos.depthError .stage)

def decode (limit : Nat) (v : Json) : Except DecodeError Stage := decodeAt (Position.root limit) v

end Stage

end BlockCodec
