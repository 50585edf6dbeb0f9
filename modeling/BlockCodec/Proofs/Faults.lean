import BlockCodec.Proofs.ContainerDecoding

namespace BlockCodec

namespace Json

def item? : Json → Nat → Option Json
  | array items, i => items[i]?
  | _, _ => none

def at? (v : Json) : List Nat → Option Json
  | [] => some v
  | i :: rest => (v.item? i).bind fun w => w.at? rest

@[simp] theorem item?_array (items : List Json) (i : Nat) : (array items).item? i = items[i]? := rfl

@[simp] theorem at?_nil (v : Json) : v.at? [] = some v := rfl

@[simp] theorem at?_cons (v : Json) (i : Nat) (rest : List Nat) :
    v.at? (i :: rest) = (v.item? i).bind fun w => w.at? rest := rfl

end Json

/-- What the persisted form requires of the value at a place. -/
inductive Rule where
  | node (family : Family)
  | value (type : ArgType)
  /-- the name of a summary function -/
  | aggregation
  /-- an item of a list of strings -/
  | item
  /-- the name of a pipeline -/
  | name

/-- The rule of a parameter: a node parameter holds a node, any other a value of its type. -/
def Param.rule (p : Param) : Rule :=
  match p.type with
  | .node f => .node f
  | t => .value t

namespace VariantTable

variable {α : Type}

/-- Whether a value is the header of a variant registered in the table, with a number of
arguments after it that the variant accepts. -/
def Registered (t : VariantTable α) (u : Json) : Prop :=
  ∃ kind name args var, u = .array (.string kind :: .string name :: args) ∧ kind ∈ t.kinds ∧
    t.find? kind name = some var ∧ var.signature.accepts args.length = true

/-- The rule of the item at index `i` of a node registered under `kind` and `name`: the
arguments start at index 2 and follow the variant's parameters. -/
def argRule? (t : VariantTable α) (kind name : String) (i : Nat) : Option Rule :=
  if i < 2 then none else (t.find? kind name).bind fun var => var.signature.params[i - 2]?.map Param.rule

end VariantTable

namespace Family

/-- The header and arity rule of a node of the family. -/
def HeaderOk : Family → Json → Prop
  | expression, u => expressionTable.Registered u
  | stage, u => stageTable.Registered u
  | pipeline, u => ∃ name rest, u = .array (.string pipelineKind :: name :: rest)
  | program, u => ∃ items, u = .array (.string programKind :: items)

/-- The rule of the item at index `i` of a node of the family: the arguments of expressions
and stages by their signatures, except that a summary's function must be named; a pipeline's
name and then its stages; a program's pipelines. -/
def childRule : Family → Json → Nat → Option Rule
  | expression, .array (.string kind :: .string name :: _), i => expressionTable.argRule? kind name i
  | stage, .array (.string kind :: .string name :: _), i =>
    if kind = transformKind ∧ name = "summarize" ∧ i = 2 then some .aggregation
    else stageTable.argRule? kind name i
  | pipeline, .array (.string tag :: _), i =>
    if tag = pipelineKind ∧ i = 1 then some .name
    else if tag = pipelineKind ∧ 2 ≤ i then some (.node .stage) else none
  | program, .array (.string tag :: _), i => if tag = programKind ∧ 1 ≤ i then some (.node .pipeline) else none
  | _, _, _ => none

/-- Whether a value is the persisted form of a node of the family that fits below depth `d`
under the limit `m`. -/
def Encodes (m d : Nat) : Family → Json → Prop
  | expression, w => ∃ x : Expression, w = x.encode ∧ d + x.height ≤ m
  | stage, w => ∃ x : Stage, w = x.encode ∧ d + x.height ≤ m
  | pipeline, w => ∃ x : Pipeline, w = x.encode ∧ d + x.height ≤ m
  | program, w => ∃ x : Program, w = x.encode ∧ d + x.height ≤ m

end Family

namespace Rule

/-- The rule of the item at index `i` of a value that follows `r`. -/
def childRule : Rule → Json → Nat → Option Rule
  | node f, u, i => f.childRule u i
  | value .textList, _, _ => some item
  | _, _, _ => none

/-- The rule that the grammar gives the value at a path below a value that follows `r`, when
the path leads to a place the grammar knows. -/
def siteAt : Rule → Json → List Nat → Option Rule
  | r, _, [] => some r
  | r, u, i :: rest => (r.childRule u i).bind fun r' => (u.item? i).bind fun w => r'.siteAt w rest

@[simp] theorem siteAt_nil (r : Rule) (u : Json) : r.siteAt u [] = some r := rfl

@[simp] theorem siteAt_cons (r : Rule) (u : Json) (i : Nat) (rest : List Nat) :
    r.siteAt u (i :: rest) = (r.childRule u i).bind fun r' => (u.item? i).bind fun w => r'.siteAt w rest :=
  rfl

/-- Whether a value at depth `d` follows a rule under the limit `m`. -/
def Valid (m d : Nat) : Rule → Json → Prop
  | node f, w => f.Encodes m d w
  | value .literal, w => ∃ l : Literal, w = l.toJson
  | value .text, w => ∃ s, w = .string s
  | value .textList, w => ∃ xs, w = stringArray xs
  | value .number, w => ∃ n, w = .number n
  | value .count, w => ∃ n, w = .number (.natural n)
  | value .bool, w => ∃ b, w = .bool b
  | value (.node f), w => f.Encodes m d w
  | aggregation, w => ∃ fn : Aggregation, w = .string fn.name
  | item, w => ∃ s, w = .string s
  | name, w => ∃ s, w = .string s

end Rule

namespace Problem

def isNodeFault : Problem → Bool
  | notAnArray _ | missingKind | unknownKind _ _ | missingName _ | unknownVariant _ _ _ | argCount _ _
  | depthLimit _ => true
  | _ => false

/-- A fault of a single value: an argument, an item of a list or a name. -/
def isValueFault : Problem → Bool
  | argType _ _ _ | badLiteral _ => true
  | _ => false

end Problem

/-- The fault that `e` reports on a value `u` of rule `r` at depth `d`, under the limit `m`:
a node fault on a node of the error's family, one level past the limit or with a header that
breaks the family's rule; a value fault on a value that breaks its rule. -/
def Fault (m d : Nat) (e : DecodeError) (r : Rule) (u : Json) : Prop :=
  (e.problem.isNodeFault ∧ r = .node e.family ∧
      (e.problem = .depthLimit m ∧ d = m + 1 ∨ d ≤ m ∧ ¬e.family.HeaderOk u)) ∨
    (e.problem.isValueFault ∧ (∀ f, r ≠ .node f) ∧ ¬r.Valid m d u)

/-- What holds of a value of rule `r` at depth `d` once the decoder turns to its item at
index `j`: a node is within the limit and has a sound header, and every earlier item follows
its rule. -/
def Passes (m d : Nat) (r : Rule) (u : Json) (j : Nat) : Prop :=
  (∀ f, r = .node f → d ≤ m ∧ f.HeaderOk u) ∧
    ∀ i < j, ∀ r' w, r.childRule u i = some r' → u.item? i = some w → r'.Valid m (d + 1) w

/-- `e` reports the first fault met below a value `v` of rule `r` at depth `d` under the
limit `m`, at the path `p` below `v`: the path leads to a place of the grammar whose value
has the fault `e` reports, and every value on the way passes up to the index the path takes
next. -/
def FirstFault (r : Rule) (m d : Nat) (v : Json) (p : List Nat) (e : DecodeError) : Prop :=
  ∃ u r', v.at? p = some u ∧ r.siteAt v p = some r' ∧ Fault m (d + p.length) e r' u ∧
    ∀ c j q, p = c ++ j :: q → ∃ w r'', v.at? c = some w ∧ r.siteAt v c = some r'' ∧
      Passes m (d + c.length) r'' w j

namespace FirstFault

variable {r r' : Rule} {m d : Nat} {v w : Json} {p : List Nat} {e : DecodeError}

theorem here (fault : Fault m d e r v) : FirstFault r m d v [] e := by
  refine ⟨v, r, rfl, rfl, fault, ?_⟩
  intro c j q split
  simp at split

/-- A first fault below an item is a first fault below the value, once the value passes up
to that item. -/
theorem cons {i : Nat} (pass : Passes m d r v i) (rule : r.childRule v i = some r')
    (item : v.item? i = some w) (inner : FirstFault r' m (d + 1) w p e) : FirstFault r m d v (i :: p) e := by
  obtain ⟨u, r'', found, site, fault, onTheWay⟩ := inner
  have length : d + (i :: p).length = d + 1 + p.length := by simp only [List.length_cons]; omega
  refine ⟨u, r'', by simp [item, found], by simp [rule, item, site], length ▸ fault, ?_⟩
  intro c j q split
  cases c with
  | nil =>
    obtain ⟨rfl, rfl⟩ : i = j ∧ p = q := by simpa using split
    exact ⟨v, r, rfl, rfl, by simpa using pass⟩
  | cons k c =>
    obtain ⟨rfl, rfl⟩ : i = k ∧ p = c ++ j :: q := by simpa using split
    obtain ⟨w', r3, found', site', pass'⟩ := onTheWay c j q rfl
    have length' : d + (i :: c).length = d + 1 + c.length := by simp only [List.length_cons]; omega
    exact ⟨w', r3, by simp [item, found'], by simp [rule, item, site'], length' ▸ pass'⟩

/-- A first fault below an item of a node array is a first fault below the node, once the node
is within the limit with a sound header and the items before it follow their rules; `pre` are
the items before the ones counted by `i`. -/
theorem argument {F : Family} (pre : List Json) {values : List Json} {i : Nat}
    (fits : d ≤ m) (header : F.HeaderOk (.array (pre ++ values)))
    (leading : ∀ j < pre.length, ∀ r w, F.childRule (.array (pre ++ values)) j = some r →
      pre[j]? = some w → r.Valid m (d + 1) w)
    (earlier : ∀ j < i, ∀ r w, F.childRule (.array (pre ++ values)) (pre.length + j) = some r →
      values[j]? = some w → r.Valid m (d + 1) w)
    (rule : F.childRule (.array (pre ++ values)) (pre.length + i) = some r') (item : values[i]? = some w)
    (inner : FirstFault r' m (d + 1) w p e) :
    FirstFault (.node F) m d (.array (pre ++ values)) ((pre.length + i) :: p) e := by
  refine cons ⟨?_, ?_⟩ rule (by simpa [List.getElem?_append_right] using item) inner
  · rintro f ⟨⟩
    exact ⟨fits, header⟩
  · intro j before r w rule' item'
    by_cases small : j < pre.length
    · exact leading j small r w rule' (by simpa [List.getElem?_append_left small] using item')
    · obtain ⟨j, rfl⟩ : ∃ j', j = pre.length + j' := ⟨j - pre.length, by omega⟩
      exact earlier j (by omega) r w rule' (by simpa [List.getElem?_append_right] using item')

end FirstFault

/-- A fault of an item of a list of strings, the items before it being strings. -/
theorem FirstFault.listItem {m d : Nat} {e : DecodeError} {items : List Json} {j : Nat} {u : Json}
    (item : items[j]? = some u) (earlier : ∀ k < j, ∃ s, items[k]? = some (.string s))
    (valueFault : e.problem.isValueFault) (notText : ¬∃ s, u = .string s) :
    FirstFault (.value .textList) m d (.array items) [j] e := by
  refine FirstFault.cons ⟨by simp, ?_⟩ rfl (by simpa using item) (FirstFault.here (Or.inr ⟨valueFault, ?_, ?_⟩))
  · intro k before r w rule found
    obtain ⟨s, isText⟩ := earlier k before
    simp only [Rule.childRule, Option.some.injEq] at rule
    subst rule
    simp only [Json.item?_array, isText, Option.some.injEq] at found
    exact ⟨s, found.symm⟩
  · simp
  · simpa [Rule.Valid] using notText

namespace Arguments

variable {a : Arguments} {i : Nat} {e : DecodeError}

/-- The value of argument `i` holds the first fault that `e` reports, for the rule `r`, and
`e` gives its path from the root. -/
def Misreads (a : Arguments) (i : Nat) (r : Rule) (e : DecodeError) : Prop :=
  ∃ w p, a.values[i]? = some w ∧ e.path = (a.childPosition i).path ++ p ∧
    FirstFault r a.position.limit (a.position.depth + 1) w p e

theorem misreads_locate {r : Rule} {w : Json} {problem : Problem} (item : a.values[i]? = some w)
    (valueFault : problem.isValueFault) (notNode : ∀ f, r ≠ .node f)
    (bad : ¬r.Valid a.position.limit (a.position.depth + 1) w) : a.Misreads i r (a.locate i problem) :=
  ⟨w, [], item, by simp [locate, pathOf, childPosition], FirstFault.here (Or.inr ⟨valueFault, notNode, bad⟩)⟩

theorem exists_item (present : i < a.values.length) : ∃ w, a.values[i]? = some w :=
  ⟨_, List.getElem?_eq_getElem present⟩

theorem text_misreads (present : i < a.values.length) (failed : a.text i = .error e) :
    a.Misreads i (.value .text) e := by
  obtain ⟨w, item⟩ := exists_item present
  simp only [text, get, item] at failed
  cases w
  case string s => cases failed
  all_goals
    cases failed
    exact misreads_locate item rfl (by simp) (by simp [Rule.Valid])

theorem number_misreads (present : i < a.values.length) (failed : a.number i = .error e) :
    a.Misreads i (.value .number) e := by
  obtain ⟨w, item⟩ := exists_item present
  simp only [number, get, item] at failed
  cases w
  case number n => cases failed
  all_goals
    cases failed
    exact misreads_locate item rfl (by simp) (by simp [Rule.Valid])

theorem count_misreads (present : i < a.values.length) (failed : a.count i = .error e) :
    a.Misreads i (.value .count) e := by
  obtain ⟨w, item⟩ := exists_item present
  simp only [count, get, item] at failed
  cases w
  case number n =>
    cases n
    case natural n => cases failed
    all_goals
      cases failed
      exact misreads_locate item rfl (by simp) (by simp [Rule.Valid])
  all_goals
    cases failed
    exact misreads_locate item rfl (by simp) (by simp [Rule.Valid])

theorem bool_misreads (present : i < a.values.length) (failed : a.bool i = .error e) :
    a.Misreads i (.value .bool) e := by
  obtain ⟨w, item⟩ := exists_item present
  simp only [bool, get, item] at failed
  cases w
  case bool b => cases failed
  all_goals
    cases failed
    exact misreads_locate item rfl (by simp) (by simp [Rule.Valid])

theorem literal_misreads (present : i < a.values.length) (failed : a.literal i = .error e) :
    a.Misreads i (.value .literal) e := by
  obtain ⟨w, item⟩ := exists_item present
  simp only [literal, get, item] at failed
  split at failed
  · cases failed
  rename_i err unread
  cases failed
  refine misreads_locate item rfl (by simp) ?_
  rintro ⟨l, rfl⟩
  rw [Literal.ofJson_toJson] at unread
  cases unread

theorem stringItems_eq_error {index start : Nat} {items : List Json}
    (failed : a.stringItems index start items = .error e) :
    ∃ j u, items[j]? = some u ∧ (∀ k < j, ∃ s, items[k]? = some (.string s)) ∧ (¬∃ s, u = .string s) ∧
      e.problem.isValueFault ∧ e.path = a.pathOf index ++ [start + j] := by
  induction items generalizing start with
  | nil => cases failed
  | cons item rest ih =>
    cases item
    case string s =>
      obtain ⟨j, u, found, earlier, notText, valueFault, path⟩ :=
        ih (Except.map_eq_error_iff.mp failed)
      refine ⟨j + 1, u, by simpa using found, ?_, notText, valueFault, by rw [path]; simp; omega⟩
      intro k before
      cases k with
      | zero => exact ⟨s, rfl⟩
      | succ k => simpa using earlier k (by omega)
    all_goals
      cases failed
      exact ⟨0, _, rfl, by simp, by simp, rfl, by simp⟩

theorem textList_misreads (present : i < a.values.length) (failed : a.textList i = .error e) :
    a.Misreads i (.value .textList) e := by
  obtain ⟨w, item⟩ := exists_item present
  simp only [textList, get, item] at failed
  cases w
  case array items =>
    obtain ⟨j, u, found, earlier, notText, valueFault, path⟩ := stringItems_eq_error failed
    exact ⟨.array items, [j], item, by simp [path, pathOf, childPosition],
      FirstFault.listItem found earlier valueFault notText⟩
  all_goals
    cases failed
    exact misreads_locate item rfl (by simp) (by simp [Rule.Valid, stringArray])

theorem optionalText_misreads (failed : a.optionalText i = .error e) : a.Misreads i (.value .text) e := by
  unfold optionalText at failed
  split at failed
  · rename_i present
    exact text_misreads (by simpa [isPresent] using present) (Except.map_eq_error_iff.mp failed)
  · cases failed

theorem optionalBool_misreads (failed : a.optionalBool i = .error e) : a.Misreads i (.value .bool) e := by
  unfold optionalBool at failed
  split at failed
  · rename_i present
    exact bool_misreads (by simpa [isPresent] using present) (Except.map_eq_error_iff.mp failed)
  · cases failed

/-- An argument that holds the first fault below it makes it the first fault below a node
array that is within the limit, has a sound header, and whose earlier items follow their
rules. -/
theorem firstFault_of_misreads {F : Family} (pre : List Json) {r : Rule} (offset : a.offset = pre.length)
    (fits : a.position.depth ≤ a.position.limit) (header : F.HeaderOk (.array (pre ++ a.values)))
    (leading : ∀ j < pre.length, ∀ r w, F.childRule (.array (pre ++ a.values)) j = some r →
      pre[j]? = some w → r.Valid a.position.limit (a.position.depth + 1) w)
    (earlier : ∀ j < i, ∀ r w, F.childRule (.array (pre ++ a.values)) (pre.length + j) = some r →
      a.values[j]? = some w → r.Valid a.position.limit (a.position.depth + 1) w)
    (rule : F.childRule (.array (pre ++ a.values)) (pre.length + i) = some r) (misread : a.Misreads i r e) :
    ∃ p, e.path = a.position.path ++ p ∧
      FirstFault (.node F) a.position.limit a.position.depth (.array (pre ++ a.values)) p e := by
  obtain ⟨w, p, item, path, inner⟩ := misread
  exact ⟨(pre.length + i) :: p, by simp [path, childPosition, offset],
    FirstFault.argument pre fits header leading earlier rule item inner⟩

end Arguments

end BlockCodec
