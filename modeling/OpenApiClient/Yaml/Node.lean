import OpenApiClient.Yaml.Token

/-!
# Nodes of a YAML document

The tree that the tokens of a text describe, with aliases not yet followed. The collections differ
in which tokens may end an entry, and an entry that is missing between two marks is an empty plain
scalar. A text must hold exactly one document; a text without any is an empty scalar too.
-/

namespace OpenApiClient.Yaml

/-- What may stand in front of the content of a node. -/
structure Properties where
  anchor : Option String
  tag : Option String
  deriving DecidableEq, Repr, Inhabited

inductive Node where
  | alias (name : String)
  | scalar (props : Properties) (text : String) (plain : Bool)
  | sequence (props : Properties) (items : List Node)
  | mapping (props : Properties) (entries : List (Node × Node))
  deriving Repr, Inhabited

namespace Node

/-- The scalar that stands for a missing node. -/
def empty : Node := .scalar ⟨none, none⟩ "" true

/-- Reads the properties of a node; the anchor and the tag may come in either order. -/
def takeProperties (handles : List (String × String)) (ts : List Token) :
    Option (Properties × List Token) :=
  let resolve := fun (t : TagText) => t.resolve? handles
  match ts with
  | .anchor a :: .tag t :: rest => (resolve t).map fun tag => (⟨some a, some tag⟩, rest)
  | .tag t :: .anchor a :: rest => (resolve t).map fun tag => (⟨some a, some tag⟩, rest)
  | .anchor a :: rest => some (⟨some a, none⟩, rest)
  | .tag t :: rest => (resolve t).map fun tag => (⟨none, some tag⟩, rest)
  | rest => some (⟨none, none⟩, rest)

/-- A scalar loses the lone mark as its tag, which only says that it has no tag. -/
def ofScalar (props : Properties) (text : String) (plain : Bool) : Node :=
  .scalar { props with tag := props.tag.filter (· ≠ "!") } text plain

/-- Whether a token ends the place where an entry of a block mapping could stand. -/
def endsBlockEntry : List Token → Bool
  | .key :: _ | .value :: _ | .blockEnd :: _ => true
  | _ => false

mutual

/-- Reads a node. `block` allows block collections, `indentless` a sequence whose dashes are not
indented deeper than the key in front of it. Each call takes one unit of fuel. -/
def take (handles : List (String × String)) : Nat → Bool → Bool → List Token →
    Option (Node × List Token)
  | 0, _, _, _ => none
  | fuel + 1, block, indentless, ts =>
    match ts with
    | .alias name :: rest => some (.alias name, rest)
    | _ => do
      let (props, rest) ← takeProperties handles ts
      let missing := if props = default then none else some (Node.scalar props "" true, rest)
      match rest with
      | .blockEntry :: _ =>
        if indentless then do
          let (items, rest) ← takeIndentless handles fuel rest
          return (.sequence props items, rest)
        else missing
      | .scalar text plain :: rest => return (ofScalar props text plain, rest)
      | .flowSequenceStart :: rest => do
        let (items, rest) ← takeFlowItems handles fuel true rest
        return (.sequence props items, rest)
      | .flowMappingStart :: rest => do
        let (entries, rest) ← takeFlowEntries handles fuel true rest
        return (.mapping props entries, rest)
      | .blockSequenceStart :: inner =>
        if block then do
          let (items, rest) ← takeBlockItems handles fuel inner
          return (.sequence props items, rest)
        else missing
      | .blockMappingStart :: inner =>
        if block then do
          let (entries, rest) ← takeBlockEntries handles fuel inner
          return (.mapping props entries, rest)
        else missing
      | _ => missing

/-- Reads the items of a block sequence up to its end. -/
def takeBlockItems (handles : List (String × String)) : Nat → List Token →
    Option (List Node × List Token)
  | 0, _ => none
  | fuel + 1, ts =>
    match ts with
    | .blockEnd :: rest => some ([], rest)
    | .blockEntry :: rest => do
      let (item, rest) ←
        match rest with
        | .blockEntry :: _ | .blockEnd :: _ => some (empty, rest)
        | _ => take handles fuel true false rest
      let (items, rest) ← takeBlockItems handles fuel rest
      return (item :: items, rest)
    | _ => none

/-- Reads the items of a sequence that no token closes. -/
def takeIndentless (handles : List (String × String)) : Nat → List Token →
    Option (List Node × List Token)
  | 0, _ => none
  | fuel + 1, ts =>
    match ts with
    | .blockEntry :: rest => do
      let (item, rest) ←
        match rest with
        | .blockEntry :: _ => some (empty, rest)
        | _ => if endsBlockEntry rest then some (empty, rest) else take handles fuel true false rest
      let (items, rest) ← takeIndentless handles fuel rest
      return (item :: items, rest)
    | rest => some ([], rest)

/-- Reads the entries of a block mapping up to its end. -/
def takeBlockEntries (handles : List (String × String)) : Nat → List Token →
    Option (List (Node × Node) × List Token)
  | 0, _ => none
  | fuel + 1, ts =>
    match ts with
    | .blockEnd :: rest => some ([], rest)
    | .key :: rest => do
      let (key, rest) ←
        if endsBlockEntry rest then some (empty, rest) else take handles fuel true true rest
      let (value, rest) ←
        match rest with
        | .value :: rest =>
          if endsBlockEntry rest then some (empty, rest) else take handles fuel true true rest
        | _ => some (empty, rest)
      let (entries, rest) ← takeBlockEntries handles fuel rest
      return ((key, value) :: entries, rest)
    | _ => none

/-- Reads the items of a flow sequence up to its end. An item may be a mapping of one entry without
braces. -/
def takeFlowItems (handles : List (String × String)) : Nat → Bool → List Token →
    Option (List Node × List Token)
  | 0, _, _ => none
  | fuel + 1, first, ts =>
    match ts with
    | .flowSequenceEnd :: rest => some ([], rest)
    | _ => do
      let rest ←
        if first then some ts
        else
          match ts with
          | .flowEntry :: rest => some rest
          | _ => none
      match rest with
      | .flowSequenceEnd :: rest => return ([], rest)
      | .key :: rest => do
        let (entry, rest) ← takeFlowPair handles fuel rest
        let (items, rest) ← takeFlowItems handles fuel false rest
        return (.mapping default [entry] :: items, rest)
      | _ => do
        let (item, rest) ← take handles fuel false false rest
        let (items, rest) ← takeFlowItems handles fuel false rest
        return (item :: items, rest)

/-- Reads a single entry in a flow sequence, from after the token of its key. A missing key takes
the next token with it. -/
def takeFlowPair (handles : List (String × String)) : Nat → List Token →
    Option ((Node × Node) × List Token)
  | 0, _ => none
  | fuel + 1, ts => do
    let (key, rest) ←
      match ts with
      | .value :: rest | .flowEntry :: rest | .flowSequenceEnd :: rest => some (empty, rest)
      | _ => take handles fuel false false ts
    match rest with
    | .value :: rest =>
      match rest with
      | .flowEntry :: _ | .flowSequenceEnd :: _ => return ((key, empty), rest)
      | _ => do
        let (value, rest) ← take handles fuel false false rest
        return ((key, value), rest)
    | _ => return ((key, empty), rest)

/-- Reads the entries of a flow mapping up to its end. -/
def takeFlowEntries (handles : List (String × String)) : Nat → Bool → List Token →
    Option (List (Node × Node) × List Token)
  | 0, _, _ => none
  | fuel + 1, first, ts =>
    match ts with
    | .flowMappingEnd :: rest => some ([], rest)
    | _ => do
      let rest ←
        if first then some ts
        else
          match ts with
          | .flowEntry :: rest => some rest
          | _ => none
      match rest with
      | .flowMappingEnd :: rest => return ([], rest)
      | .key :: rest => do
        let (key, rest) ←
          match rest with
          | .value :: _ | .flowEntry :: _ | .flowMappingEnd :: _ => some (empty, rest)
          | _ => take handles fuel false false rest
        let (value, rest) ←
          match rest with
          | .value :: rest =>
            match rest with
            | .flowEntry :: _ | .flowMappingEnd :: _ => some (empty, rest)
            | _ => take handles fuel false false rest
          | _ => some (empty, rest)
        let (entries, rest) ← takeFlowEntries handles fuel false rest
        return ((key, value) :: entries, rest)
      | _ => do
        let (key, rest) ← take handles fuel false false rest
        let (entries, rest) ← takeFlowEntries handles fuel false rest
        return ((key, empty) :: entries, rest)

end

/-- The directives in front of a document and the tokens after them. -/
def takeDirectives : List Token → List Directive × List Token
  | .directive d :: rest =>
    let (ds, rest) := takeDirectives rest
    (d :: ds, rest)
  | rest => ([], rest)

/-- What the handles of a document stand for. None if a directive is given twice or asks for another
version of YAML. -/
def handles? (ds : List Directive) : Option (List (String × String)) :=
  let versions := ds.filterMap fun
    | .version major minor => some (major, minor)
    | .tag _ _ => none
  let tags := ds.filterMap fun
    | .version _ _ => none
    | .tag handle stem => some (handle, stem)
  let supported := versions.all fun (major, minor) => major = 1 && (minor = 1 || minor = 2)
  if versions.length ≤ 1 && supported && (tags.map Prod.fst).Nodup then
    some (tags ++ defaultHandles)
  else none

/-- Requires that nothing but the marks of a document's end is left. -/
def finishStream (node : Node) : List Token → Option Node
  | .documentEnd :: rest => finishStream node rest
  | [.streamEnd] => some node
  | _ => none

/-- The root of the only document of a token list; a stream without a document has an empty one. -/
def ofTokens? (ts : List Token) : Option Node :=
  let fuel := 3 * ts.length + 3
  match ts with
  | [.streamEnd] => some empty
  | .directive _ :: _ | .documentStart :: _ => do
    let (ds, rest) := takeDirectives ts
    let handles ← handles? ds
    match rest with
    | .documentStart :: rest =>
      match rest with
      | .directive _ :: _ | .documentStart :: _ | .documentEnd :: _ | .streamEnd :: _ =>
        finishStream empty rest
      | _ => do
        let (node, rest) ← take handles fuel true false rest
        finishStream node rest
    | _ => none
  | _ => do
    let (node, rest) ← take defaultHandles fuel true false ts
    finishStream node rest

end Node

end OpenApiClient.Yaml
