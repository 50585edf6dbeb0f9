import BlockCodec.Expression.Basic

namespace BlockCodec

inductive Aggregation where
  | all
  | any
  | count
  | maximum
  | mean
  | median
  | minimum
  | stdDev
  | sum
  | variance
  deriving DecidableEq

namespace Aggregation

def every : List Aggregation :=
  [all, any, count, maximum, mean, median, minimum, stdDev, sum, variance]

def name : Aggregation → String
  | all => "all"
  | any => "any"
  | count => "count"
  | maximum => "maximum"
  | mean => "mean"
  | median => "median"
  | minimum => "minimum"
  | stdDev => "stdDev"
  | sum => "sum"
  | variance => "variance"

/-- The summary function of a persisted name; names are matched exactly. -/
def ofName? (s : String) : Option Aggregation := every.find? fun a => a.name == s

end Aggregation

inductive Transform where
  | drop (columns : List String)
  | filter (condition : Expression)
  | groupBy (columns : List String)
  | join (leftTable leftColumn rightTable rightColumn : String)
  | mutate (newColumn : String) (value : Expression)
  | notify (label : String)
  | read (path : String)
  | select (columns : List String)
  | sort (columns : List String) (ascending : Option Bool)
  | summarize (function : Aggregation) (column : String)
  | ungroup
  | unique (columns : List String)
  deriving DecidableEq

inductive Plot where
  | bar (xAxis yAxis : String)
  | box (xAxis yAxis : String)
  | dot (xAxis : String)
  | histogram (column : String) (bins : UInt64)
  | scatter (xAxis yAxis : String) (color : Option String)
  deriving DecidableEq

inductive StatTest where
  | anova (significance : Number) (groupColumn valueColumn : String)
  | kolmogorovSmirnov (mean stdDev significance : Number) (column : String)
  | kruskalWallis (significance : Number) (groupColumn valueColumn : String)
  | tTestOneSample (mean significance : Number) (column : String)
  | tTestPaired (significance : Number) (leftColumn rightColumn : String)
  | zTestOneSample (mean stdDev significance : Number) (column : String)
  deriving DecidableEq

inductive Stage where
  | transform (t : Transform)
  | plot (p : Plot)
  | stats (s : StatTest)
  deriving DecidableEq

def transformKind : String := "@transform"
def plotKind : String := "@plot"
def statsKind : String := "@stats"

def stageKinds : List String := [transformKind, plotKind, statsKind]

namespace Transform

def name : Transform → String
  | drop _ => "drop"
  | filter _ => "filter"
  | groupBy _ => "groupBy"
  | join _ _ _ _ => "join"
  | mutate _ _ => "mutate"
  | notify _ => "notify"
  | read _ => "read"
  | select _ => "select"
  | sort _ _ => "sort"
  | summarize _ _ => "summarize"
  | ungroup => "ungroup"
  | unique _ => "unique"

def expression? : Transform → Option Expression
  | filter e => some e
  | mutate _ e => some e
  | _ => none

/-- The sort direction, ascending unless stored otherwise; only for sorts. -/
def isAscending? : Transform → Option Bool
  | sort _ asc => some (asc.getD true)
  | _ => none

/-- The tables a transform reads besides its input: both tables of a join. -/
def dependencies : Transform → List String
  | join left _ right _ => [left, right]
  | _ => []

end Transform

namespace Plot

def name : Plot → String
  | bar _ _ => "bar"
  | box _ _ => "box"
  | dot _ => "dot"
  | histogram _ _ => "histogram"
  | scatter _ _ _ => "scatter"

/-- The columns a plot shows, the scatter color included when present. -/
def columns : Plot → List String
  | bar x y | box x y => [x, y]
  | dot x => [x]
  | histogram c _ => [c]
  | scatter x y color => [x, y] ++ color.toList

end Plot

namespace StatTest

def name : StatTest → String
  | anova _ _ _ => "ANOVA"
  | kolmogorovSmirnov _ _ _ _ => "KolmogorovSmirnov"
  | kruskalWallis _ _ _ => "KruskalWallis"
  | tTestOneSample _ _ _ => "TTestOneSample"
  | tTestPaired _ _ _ => "TTestPaired"
  | zTestOneSample _ _ _ _ => "ZTestOneSample"

def significance : StatTest → Number
  | anova s _ _ | kruskalWallis s _ _ | tTestPaired s _ _ => s
  | kolmogorovSmirnov _ _ s _ | zTestOneSample _ _ s _ => s
  | tTestOneSample _ s _ => s

/-- The numeric parameters of a test, in persisted order. -/
def numbers : StatTest → List Number
  | anova s _ _ | kruskalWallis s _ _ | tTestPaired s _ _ => [s]
  | kolmogorovSmirnov m d s _ | zTestOneSample m d s _ => [m, d, s]
  | tTestOneSample m s _ => [m, s]

/-- A parameter given as a binary64 value, kept as a float. -/
def param (x : Binary64) : Except NonFinite Number := Number.ofBinary64 x

def anovaOf (significance : Binary64) (group value : String) : Except NonFinite StatTest := do
  pure (anova (← param significance) group value)

/-- A Kolmogorov-Smirnov test; parameters are checked in order. -/
def kolmogorovSmirnovOf (mean stdDev significance : Binary64) (column : String) :
    Except NonFinite StatTest := do
  let m ← param mean
  let d ← param stdDev
  let s ← param significance
  pure (kolmogorovSmirnov m d s column)

def kruskalWallisOf (significance : Binary64) (group value : String) : Except NonFinite StatTest := do
  pure (kruskalWallis (← param significance) group value)

/-- A one-sample t test; parameters are checked in order. -/
def tTestOneSampleOf (mean significance : Binary64) (column : String) : Except NonFinite StatTest := do
  let m ← param mean
  let s ← param significance
  pure (tTestOneSample m s column)

def tTestPairedOf (significance : Binary64) (left right : String) : Except NonFinite StatTest := do
  pure (tTestPaired (← param significance) left right)

/-- A one-sample z test; parameters are checked in order. -/
def zTestOneSampleOf (mean stdDev significance : Binary64) (column : String) :
    Except NonFinite StatTest := do
  let m ← param mean
  let d ← param stdDev
  let s ← param significance
  pure (zTestOneSample m d s column)

end StatTest

namespace Stage

def kind : Stage → String
  | transform _ => transformKind
  | plot _ => plotKind
  | stats _ => statsKind

def name : Stage → String
  | transform t => t.name
  | plot p => p.name
  | stats s => s.name

def dependencies : Stage → List String
  | transform t => t.dependencies
  | _ => []

def transform? : Stage → Option Transform
  | transform t => some t
  | _ => none

def plot? : Stage → Option Plot
  | plot p => some p
  | _ => none

def stats? : Stage → Option StatTest
  | stats s => some s
  | _ => none

end Stage

end BlockCodec
