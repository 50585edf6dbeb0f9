import BlockCodec.Container.Program

namespace BlockCodec

namespace Binary64

/-- IEEE equality: a NaN equals nothing, the two zeros equal each other, and any other value
equals only itself. -/
def ieeeEq (x y : Binary64) : Bool :=
  !x.isNaN && !y.isNaN && (x == y || x.isZero && y.isZero)

end Binary64

namespace Number

/-- Numbers of one form by value, floats by IEEE equality; numbers of different forms differ. -/
def equals : Number → Number → Bool
  | natural a, natural b => a == b
  | negative a _, negative b _ => a == b
  | float x _, float y _ => x.ieeeEq y
  | _, _ => false

end Number

namespace Literal

def equals : Literal → Literal → Bool
  | number a, number b => a.equals b
  | text a, text b => a == b
  | bool a, bool b => a == b
  | instant a, instant b => a == b
  | _, _ => false

end Literal

namespace Expression

def equals : Expression → Expression → Bool
  | constant a, constant b => a.equals b
  | column a, column b => a == b
  | unary op x, unary op' x' => op == op' && x.equals x'
  | binary op l r, binary op' l' r' => op == op' && l.equals l' && r.equals r'
  | ternary op c t f, ternary op' c' t' f' => op == op' && c.equals c' && t.equals t' && f.equals f'
  | typeCheck k x, typeCheck k' x' => k == k' && x.equals x'
  | convert k x, convert k' x' => k == k' && x.equals x'
  | extract k x, extract k' x' => k == k' && x.equals x'
  | _, _ => false

end Expression

namespace Transform

/-- Filter and mutate compare their expressions; the other transforms hold no number, so
they compare as they are. -/
def equals : Transform → Transform → Bool
  | filter a, filter b => a.equals b
  | mutate c a, mutate c' b => c == c' && a.equals b
  | filter _, _ | mutate _ _, _ | _, filter _ | _, mutate _ _ => false
  | t, t' => t == t'

end Transform

namespace StatTest

def equals : StatTest → StatTest → Bool
  | anova s g v, anova s' g' v' => s.equals s' && g == g' && v == v'
  | kolmogorovSmirnov m d s c, kolmogorovSmirnov m' d' s' c' =>
    m.equals m' && d.equals d' && s.equals s' && c == c'
  | kruskalWallis s g v, kruskalWallis s' g' v' => s.equals s' && g == g' && v == v'
  | tTestOneSample m s c, tTestOneSample m' s' c' => m.equals m' && s.equals s' && c == c'
  | tTestPaired s l r, tTestPaired s' l' r' => s.equals s' && l == l' && r == r'
  | zTestOneSample m d s c, zTestOneSample m' d' s' c' =>
    m.equals m' && d.equals d' && s.equals s' && c == c'
  | _, _ => false

end StatTest

namespace Stage

/-- Plots hold no number, so they compare as they are. -/
def equals : Stage → Stage → Bool
  | transform t, transform t' => t.equals t'
  | plot p, plot p' => p == p'
  | stats s, stats s' => s.equals s'
  | _, _ => false

end Stage

/-- A pipeline compares its name, then its stages pairwise; a program its pipelines. -/
def Pipeline.equals (p q : Pipeline) : Bool :=
  p.name == q.name && p.stages.isEqv q.stages Stage.equals

def Program.equals (p q : Program) : Bool :=
  p.pipelines.isEqv q.pipelines Pipeline.equals

end BlockCodec
