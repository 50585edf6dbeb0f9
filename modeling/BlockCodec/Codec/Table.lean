import BlockCodec.Codec.Signature
import BlockCodec.Codec.Similarity
import BlockCodec.Codec.Position
import BlockCodec.Json.Text

namespace BlockCodec

inductive RegistryError where
  | duplicate (family : Family) (kind name : String)
  | undeclaredKind (family : Family) (kind : String)
  deriving DecidableEq

def RegistryError.message : RegistryError → String
  | duplicate family kind name =>
    family.name ++ " variant '" ++ name ++ "' is already registered under '" ++ kind ++ "'"
  | undeclaredKind family kind => "'" ++ kind ++ "' is not a " ++ family.name ++ " discriminator"

/-- A registered variant: its signature and the form a decoder builds from it. -/
structure Variant (α : Type) where
  signature : Signature
  form : α

/-- The kinds of a family and its registered variants, in registration order. -/
structure VariantTable (α : Type) where
  family : Family
  kinds : List String
  entries : List (Variant α)

namespace VariantTable

variable {α : Type}

def empty (family : Family) (kinds : List String) : VariantTable α := ⟨family, kinds, []⟩

def find? (t : VariantTable α) (kind name : String) : Option (Variant α) :=
  t.entries.find? fun v => v.signature.kind == kind && v.signature.name == name

def contains (t : VariantTable α) (kind name : String) : Bool := (t.find? kind name).isSome

/-- Registers a variant, refusing an undeclared kind or a taken name. -/
def register (t : VariantTable α) (v : Variant α) : Except RegistryError (VariantTable α) :=
  if !t.kinds.contains v.signature.kind then .error (.undeclaredKind t.family v.signature.kind)
  else if t.contains v.signature.kind v.signature.name then
    .error (.duplicate t.family v.signature.kind v.signature.name)
  else .ok { t with entries := t.entries ++ [v] }

def size (t : VariantTable α) : Nat := t.entries.length

def kindIndex (t : VariantTable α) (kind : String) : Nat := t.kinds.idxOf kind

/-- The registered signatures by kind in declaration order, then by name. -/
def variants (t : VariantTable α) : List Signature :=
  (t.entries.map (·.signature)).mergeSort fun a b =>
    t.kindIndex a.kind < t.kindIndex b.kind ||
      (t.kindIndex a.kind == t.kindIndex b.kind && decide (a.name ≤ b.name))

def namesUnder (t : VariantTable α) (kind : String) : List String :=
  (t.entries.filter fun v => v.signature.kind == kind).map (·.signature.name)

def paramEntry (p : Param) : Json :=
  Json.ofMembers [("name", .string p.name), ("type", .string p.type.describe),
    ("optional", .bool p.optional)]

def signatureEntry (s : Signature) : Json :=
  Json.ofMembers [("name", .string s.name), ("description", .string s.description),
    ("args", .array (s.params.map paramEntry))]

/-- The catalog: each declared kind in order with its variants in name order. -/
def catalog (t : VariantTable α) : Json :=
  let vs := t.variants
  Json.ofMembers [("family", .string t.family.name),
    ("kinds", .array (t.kinds.map fun k =>
      Json.ofMembers [("kind", .string k),
        ("variants", .array ((vs.filter fun s => s.kind == k).map signatureEntry))]))]

/-- Checks the header of an encoded node at a position: that it is an array, its kind,
its name, and its number of arguments. Gives the variant and the arguments. The depth is
checked by the caller, before this. -/
def readHeader (t : VariantTable α) (pos : Position) (v : Json) :
    Except DecodeError (Variant α × List Json) :=
  let fail (p : Problem) (kind name : Option String) : DecodeError :=
    ⟨t.family, p, kind, name, pos.path⟩
  match v with
  | .array [] => .error (fail .missingKind none none)
  | .array (.string kind :: rest) =>
    if !t.kinds.contains kind then .error (fail (.unknownKind kind t.kinds) (some kind) none)
    else
      match rest with
      | .string name :: args =>
        match t.find? kind name with
        | none =>
          .error (fail (.unknownVariant kind name (similarNames name (t.namesUnder kind)))
            (some kind) (some name))
        | some var =>
          if var.signature.accepts args.length then .ok (var, args)
          else .error (fail (.argCount var.signature.arityLabel args.length) (some kind) (some name))
      | _ => .error (fail (.missingName kind) (some kind) none)
  | .array (other :: _) =>
    let k := other.compact
    .error (fail (.unknownKind k t.kinds) (some k) none)
  | other => .error (fail (.notAnArray other.typeName) none none)

/-- Registers variants one after another, keeping those accepted; gives the table and,
for each variant, the refusal if it was refused. -/
def registerEach (t : VariantTable α) : List (Variant α) → VariantTable α × List (Option RegistryError)
  | [] => (t, [])
  | v :: rest =>
    match t.register v with
    | .ok t' =>
      let (final, outcomes) := t'.registerEach rest
      (final, none :: outcomes)
    | .error e =>
      let (final, outcomes) := t.registerEach rest
      (final, some e :: outcomes)

/-- Registers variants one after another, stopping at the first refusal. -/
def registerAll (t : VariantTable α) : List (Variant α) → Except RegistryError (VariantTable α)
  | [] => .ok t
  | v :: rest =>
    match t.register v with
    | .ok t' => t'.registerAll rest
    | .error e => .error e

end VariantTable

end BlockCodec
