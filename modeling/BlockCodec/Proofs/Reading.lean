import BlockCodec.Proofs.IsoText
import BlockCodec.Container.Program
import Mathlib.Data.List.Nodup

namespace Except

variable {ε α β : Type}

@[simp] theorem bind_eq_ok_iff {x : Except ε α} {f : α → Except ε β} {b : β} :
    x >>= f = .ok b ↔ ∃ a, x = .ok a ∧ f a = .ok b := by
  cases x <;> simp [bind, Except.bind]

@[simp] theorem map_eq_ok_iff {x : Except ε α} {f : α → β} {b : β} :
    x.map f = .ok b ↔ ∃ a, x = .ok a ∧ f a = b := by
  cases x <;> simp [Except.map]

@[simp] theorem fmap_eq_ok_iff {x : Except ε α} {f : α → β} {b : β} :
    f <$> x = .ok b ↔ ∃ a, x = .ok a ∧ f a = b := by
  cases x <;> simp [Functor.map, Except.map]

@[simp] theorem ok_bind {a : α} {f : α → Except ε β} : (Except.ok a >>= f) = f a := rfl

@[simp] theorem error_bind {e : ε} {f : α → Except ε β} : (Except.error e >>= f) = .error e := rfl

@[simp] theorem error_map {e : ε} {f : α → β} : (Except.error e : Except ε α).map f = .error e := rfl

@[simp] theorem pure_eq_ok_iff {a b : α} : (pure a : Except ε α) = .ok b ↔ a = b := by
  simp [pure, Except.pure]

theorem bind_eq_error_iff {x : Except ε α} {f : α → Except ε β} {e : ε} :
    x >>= f = .error e ↔ x = .error e ∨ ∃ a, x = .ok a ∧ f a = .error e := by
  cases x <;> simp [bind, Except.bind]

theorem bind_pure_eq_error_iff {x : Except ε α} {f : α → β} {e : ε} :
    (x >>= fun a => pure (f a)) = .error e ↔ x = .error e := by
  cases x <;> simp [bind, Except.bind, pure, Except.pure]

theorem map_eq_error_iff {x : Except ε α} {f : α → β} {e : ε} : x.map f = .error e ↔ x = .error e := by
  cases x <;> simp [Except.map]

theorem fmap_eq_error_iff {x : Except ε α} {f : α → β} {e : ε} : f <$> x = .error e ↔ x = .error e := by
  cases x <;> simp [Functor.map, Except.map]

end Except

namespace BlockCodec

namespace Arguments

variable {a : Arguments} {i : Nat}

theorem get_eq_ok {x : Json} : a.get i = .ok x ↔ a.values[i]? = some x := by
  unfold get
  split <;> simp_all

theorem getElem?_eq_none_of_get {e : DecodeError} (failed : a.get i = .error e) : a.values[i]? = none := by
  unfold get at failed
  split at failed
  · cases failed
  · assumption

theorem text_eq_ok {s : String} : a.text i = .ok s ↔ a.values[i]? = some (.string s) := by
  unfold text
  cases read : a.get i with
  | error e => simp [getElem?_eq_none_of_get read]
  | ok v => cases v <;> simp [get_eq_ok.mp read]

theorem stringItems_eq_ok {index start : Nat} {items : List Json} {xs : List String} :
    a.stringItems index start items = .ok xs ↔ items = xs.map .string := by
  induction items generalizing start xs with
  | nil => cases xs <;> simp [stringItems]
  | cons item rest ih =>
    cases xs with
    | nil => cases item <;> simp [stringItems]
    | cons x xs => cases item <;> simp [stringItems, ih, and_comm]

theorem textList_eq_ok {xs : List String} : a.textList i = .ok xs ↔ a.values[i]? = some (stringArray xs) := by
  unfold textList
  cases read : a.get i with
  | error e => simp [getElem?_eq_none_of_get read]
  | ok v => cases v <;> simp [get_eq_ok.mp read, stringItems_eq_ok, stringArray]

theorem number_eq_ok {n : Number} : a.number i = .ok n ↔ a.values[i]? = some (.number n) := by
  unfold number
  cases read : a.get i with
  | error e => simp [getElem?_eq_none_of_get read]
  | ok v => cases v <;> simp [get_eq_ok.mp read]

theorem count_eq_ok {n : UInt64} : a.count i = .ok n ↔ a.values[i]? = some (.number (.natural n)) := by
  unfold count
  cases read : a.get i with
  | error e => simp [getElem?_eq_none_of_get read]
  | ok v => rcases v with _ | _ | ⟨_ | _ | _⟩ | _ | _ | _ <;> simp [get_eq_ok.mp read]

theorem bool_eq_ok {b : Bool} : a.bool i = .ok b ↔ a.values[i]? = some (.bool b) := by
  unfold bool
  cases read : a.get i with
  | error e => simp [getElem?_eq_none_of_get read]
  | ok v => cases v <;> simp [get_eq_ok.mp read]

theorem literal_eq_ok {l : Literal} : a.literal i = .ok l ↔ a.values[i]? = some l.toJson := by
  unfold literal
  cases read : a.get i with
  | error e => simp [getElem?_eq_none_of_get read]
  | ok v =>
    rw [get_eq_ok.mp read, Option.some.injEq, ← Literal.ofJson_eq_ok_iff]
    dsimp only
    cases Literal.ofJson v <;> simp

theorem optionalText_eq_ok {o : Option String} :
    a.optionalText i = .ok o ↔ a.values[i]? = o.map .string := by
  unfold optionalText isPresent
  split
  · rename_i present
    rw [decide_eq_true_eq] at present
    cases o <;> simp [text_eq_ok, present]
  · rename_i absent
    cases o <;> simp_all

theorem optionalBool_eq_ok {o : Option Bool} :
    a.optionalBool i = .ok o ↔ a.values[i]? = o.map .bool := by
  unfold optionalBool isPresent
  split
  · rename_i present
    rw [decide_eq_true_eq] at present
    cases o <;> simp [bool_eq_ok, present]
  · rename_i absent
    cases o <;> simp_all

end Arguments

namespace VariantTable

variable {α : Type} {t : VariantTable α}

def keys (t : VariantTable α) : List (String × String) :=
  t.entries.map fun v => (v.signature.kind, v.signature.name)

theorem key_of_find?_eq_some {kind name : String} {var : Variant α} (found : t.find? kind name = some var) :
    var.signature.kind = kind ∧ var.signature.name = name := by
  have holds := List.find?_some found
  simpa only [Bool.and_eq_true, beq_iff_eq] using holds

theorem find?_eq_some_iff (distinct : t.keys.Nodup) {kind name : String} {var : Variant α} :
    t.find? kind name = some var ↔ var ∈ t.entries ∧ var.signature.kind = kind ∧ var.signature.name = name := by
  constructor
  · intro found
    exact ⟨List.mem_of_find?_eq_some found, key_of_find?_eq_some found⟩
  · rintro ⟨member, rfl, rfl⟩
    obtain ⟨other, found⟩ : ∃ other, t.find? var.signature.kind var.signature.name = some other :=
      Option.isSome_iff_exists.mp (List.find?_isSome.mpr ⟨var, member, by simp⟩)
    obtain ⟨sameKind, sameName⟩ := key_of_find?_eq_some found
    have same : other = var :=
      List.inj_on_of_nodup_map distinct (List.mem_of_find?_eq_some found) member (by simp [sameKind, sameName])
    rw [found, same]

theorem readHeader_eq_ok {pos : Position} {v : Json} {var : Variant α} {values : List Json} :
    t.readHeader pos v = .ok (var, values) ↔
      v = .array (.string var.signature.kind :: .string var.signature.name :: values) ∧
        var.signature.kind ∈ t.kinds ∧ t.find? var.signature.kind var.signature.name = some var ∧
        var.signature.accepts values.length := by
  constructor
  · intro read
    unfold readHeader at read
    split at read
    · cases read
    · rename_i kind rest
      split at read
      · cases read
      rename_i declared
      split at read
      · rename_i name args
        split at read
        · cases read
        rename_i found' var' found
        split at read
        · rename_i fits
          cases read
          obtain ⟨rfl, rfl⟩ := key_of_find?_eq_some found
          simp only [Bool.not_eq_true', Bool.not_eq_false, List.contains_iff_mem] at declared
          exact ⟨rfl, declared, found, fits⟩
        · cases read
      · cases read
    · cases read
    · cases read
  · rintro ⟨rfl, declared, found, fits⟩
    simp [readHeader, declared, found, fits]

end VariantTable

@[simp] theorem Position.problem_depthError (p : Position) (family : Family) :
    (p.depthError family).problem = .depthLimit p.limit := rfl

@[simp] theorem Position.length_path_depthError (p : Position) (family : Family) :
    (p.depthError family).path.length = p.depth := by
  simp [Position.depthError, DecodeError.ofProblem, Position.depth_eq_length_path]

@[simp] theorem Option.getElem?_toList_zero {α : Type} (o : Option α) : o.toList[0]? = o := by
  cases o <;> rfl

@[simp] theorem Option.getElem?_toList_succ {α : Type} (o : Option α) (i : Nat) : o.toList[i + 1]? = none := by
  cases o <;> rfl

theorem openEnvelope_eq_ok {family : Family} {tag : String} {pos : Position} {v : Json} {items : List Json} :
    openEnvelope family tag pos v = .ok items ↔ v = .array (.string tag :: items) := by
  constructor
  · intro opened
    unfold openEnvelope at opened
    split at opened
    · cases opened
    · split at opened
      · rename_i same
        cases opened
        rw [same]
      · cases opened
    · cases opened
    · cases opened
  · rintro rfl
    simp [openEnvelope]

section Items

variable {β : Type} {decode : Position → Json → Except DecodeError β} {pos : Position}

/-- Items decode one by one exactly when the whole list does; `spec` describes the decoder on
the items that are expected. -/
theorem decodeItems_eq_ok_iff {encode : β → Json} {fits : β → Prop} {start : Nat} {items : List Json}
    {ys : List β} (spec : ∀ i x, ∀ y ∈ ys, decode (pos.child i) x = .ok y ↔ x = encode y ∧ fits y) :
    decodeItems decode pos start items = .ok ys ↔ items = ys.map encode ∧ ∀ y ∈ ys, fits y := by
  induction items generalizing start ys with
  | nil => cases ys <;> simp [decodeItems]
  | cons item rest ih =>
    cases ys with
    | nil => simp [decodeItems]
    | cons y ys =>
      have restSpec : ∀ i x, ∀ z ∈ ys, decode (pos.child i) x = .ok z ↔ x = encode z ∧ fits z :=
        fun i x z member => spec i x z (List.mem_cons_of_mem y member)
      simp only [decodeItems, Except.bind_eq_ok_iff, Except.pure_eq_ok_iff, List.cons.injEq,
        List.map_cons, List.forall_mem_cons]
      constructor
      · rintro ⟨y', first, ys', later, rfl, rfl⟩
        obtain ⟨itemIs, itemFits⟩ := (spec start item y' List.mem_cons_self).mp first
        obtain ⟨restIs, restFits⟩ := (ih restSpec).mp later
        exact ⟨⟨itemIs, restIs⟩, itemFits, restFits⟩
      · rintro ⟨⟨itemIs, restIs⟩, itemFits, restFits⟩
        exact ⟨y, (spec start item y List.mem_cons_self).mpr ⟨itemIs, itemFits⟩, ys,
          (ih restSpec).mpr ⟨restIs, restFits⟩, rfl, rfl⟩

/-- Items decode in order, so the first item that fails makes the list fail, once every item
that fits decodes to itself. -/
theorem decodeItems_encode_of_deep {encode : β → Json} {fits : β → Prop} {P : DecodeError → Prop}
    {start : Nat} {ys : List β}
    (succeeds : ∀ i, ∀ y ∈ ys, fits y → decode (pos.child i) (encode y) = .ok y)
    (fails : ∀ i, ∀ y ∈ ys, ¬fits y → ∃ err, decode (pos.child i) (encode y) = .error err ∧ P err)
    (someDeep : ∃ y ∈ ys, ¬fits y) :
    ∃ err, decodeItems decode pos start (ys.map encode) = .error err ∧ P err := by
  induction ys generalizing start with
  | nil => simp at someDeep
  | cons y rest ih =>
    by_cases first : fits y
    · have decoded := succeeds start y List.mem_cons_self first
      have laterDeep : ∃ z ∈ rest, ¬fits z := by
        obtain ⟨z, member, deep⟩ := someDeep
        rcases List.mem_cons.mp member with rfl | later
        · exact absurd first deep
        · exact ⟨z, later, deep⟩
      obtain ⟨err, failed, holds⟩ := @ih (start + 1)
        (fun i z member => succeeds i z (List.mem_cons_of_mem y member))
        (fun i z member => fails i z (List.mem_cons_of_mem y member)) laterDeep
      exact ⟨err, by simp [decodeItems, decoded, failed], holds⟩
    · obtain ⟨err, failed, holds⟩ := fails start y List.mem_cons_self first
      exact ⟨err, by simp [decodeItems, failed], holds⟩

end Items

end BlockCodec
