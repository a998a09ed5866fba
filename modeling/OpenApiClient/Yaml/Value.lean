import OpenApiClient.Yaml.Node
import OpenApiClient.Double.Basic

/-!
# Values of a YAML document

The value of a document: its scalars are given a type, its aliases are followed and its mappings are
checked for equal keys. Plain scalars have the types of the core schema, except that a number with a
leading zero is a text.

Anchors are numbered by how many names are in use, so the second anchor of one name takes the number
that the next new name takes too; an alias stands for the last node that its number was given to.
-/

namespace OpenApiClient.Yaml

/-- A value. The entries of a mapping keep their order. -/
inductive Value where
  | null
  | bool (b : Bool)
  | int (n : Int)
  | double (d : Double)
  | str (s : String)
  | sequence (items : List Value)
  | mapping (entries : List (Value × Value))
  | tagged (tag : String) (value : Value)
  deriving Repr, Inhabited

/-- The name of a tag without the mark in front of it. -/
def bareTag (tag : String) : List Char :=
  match tag.toList with
  | ['!'] => ['!']
  | '!' :: rest => rest
  | cs => cs

/-- Whether two values are equal, told from as many levels as the number says; the order of the
entries of a mapping does not matter. -/
def Value.same : Nat → Value → Value → Bool
  | _, .null, .null => true
  | _, .bool a, .bool b => a == b
  | _, .int a, .int b => a == b
  | _, .double a, .double b => a.sameNumber b
  | _, .str a, .str b => a == b
  | depth + 1, .sequence as, .sequence bs =>
    as.length == bs.length && (as.zip bs).all fun (a, b) => Value.same depth a b
  | depth + 1, .mapping as, .mapping bs =>
    as.length == bs.length && as.all fun (k, v) =>
      bs.any fun (l, w) => Value.same depth k l && Value.same depth v w
  | depth + 1, .tagged s a, .tagged t b => bareTag s == bareTag t && Value.same depth a b
  | _, _, _ => false

/-! ## Plain scalars -/

def isNullText (s : String) : Bool :=
  ["null", "Null", "NULL", "~"].contains s

/-- The truth value that a text spells. -/
def boolOf? (s : String) : Option Bool :=
  if ["true", "True", "TRUE"].contains s then some true
  else if ["false", "False", "FALSE"].contains s then some false
  else none

/-- The value of a digit in a base of at most sixteen. -/
def digitOf? (base : Nat) (c : Char) : Option Nat :=
  (hexValue? c).filter (· < base)

/-- The natural that digits stand for, at least one of them. -/
def naturalOf? (base : Nat) (cs : List Char) : Option Nat :=
  if cs.isEmpty then none
  else cs.foldlM (fun n c => (digitOf? base c).map fun d => n * base + d) 0

/-- Whether digits begin with a zero that is not the only one, so that they are no number. -/
def isZeroPadded (cs : List Char) : Bool :=
  let digits := match cs with
    | '+' :: rest | '-' :: rest => rest
    | rest => rest
  2 ≤ digits.length && digits.head? == some '0' && digits.all Char.isDigit

/-- The natural of digits with the mark of a base in front of them. -/
def basedNatural? : List Char → Option Nat
  | '0' :: 'x' :: rest => naturalOf? 16 rest
  | '0' :: 'o' :: rest => naturalOf? 8 rest
  | '0' :: 'b' :: rest => naturalOf? 2 rest
  | _ => none

def integerOf? (cs : List Char) : Option Int :=
  let unsigned := fun (cs : List Char) =>
    (basedNatural? cs).or (if isZeroPadded cs then none else naturalOf? 10 cs)
  match cs with
  | '-' :: rest => (unsigned rest).map fun n => -(n : Int)
  | '+' :: rest => (unsigned rest).map fun n => (n : Int)
  | rest => (unsigned rest).map fun n => (n : Int)

/-- How an integer is kept. Within 64 bits it is exact, up to 128 bits it is refused, and beyond
that it is no integer but a number like any other. -/
inductive IntegerSize where
  | exact
  | refused
  | large

def integerSize (n : Int) : IntegerSize :=
  if -(Nat.pow 2 63 : Nat) ≤ n && n < (Nat.pow 2 64 : Nat) then .exact
  else if -(Nat.pow 2 127 : Nat) ≤ n && n < (Nat.pow 2 128 : Nat) then .refused
  else .large

/-- The exponent of a decimal number: an `e`, a sign and digits, or nothing. -/
def exponentOf? : List Char → Option Int
  | [] => some 0
  | c :: rest =>
    if c == 'e' || c == 'E' then
      match rest with
      | '-' :: digits => (naturalOf? 10 digits).map fun n => -(n : Int)
      | '+' :: digits => (naturalOf? 10 digits).map fun n => (n : Int)
      | digits => (naturalOf? 10 digits).map fun n => (n : Int)
    else none

/-- The digits and the exponent of a decimal number without a sign. -/
def decimalOf? (cs : List Char) : Option (Nat × Int) := do
  let whole := cs.takeWhile Char.isDigit
  let rest := cs.dropWhile Char.isDigit
  let (fraction, rest) :=
    match rest with
    | '.' :: rest => (rest.takeWhile Char.isDigit, rest.dropWhile Char.isDigit)
    | _ => ([], rest)
  let digits ← naturalOf? 10 (whole ++ fraction)
  let exponent ← exponentOf? rest
  return (digits, exponent - fraction.length)

/-- The finite double that a decimal text spells. -/
def finiteOf? (cs : List Char) : Option Double := do
  let (negative, cs) :=
    match cs with
    | '-' :: rest => (true, rest)
    | '+' :: rest => (false, rest)
    | _ => (false, cs)
  let (digits, exponent) ← decimalOf? cs
  let d := Double.ofDecimal digits exponent
  if d.isFinite then return (if negative then d.neg else d) else none

def doubleOf? (s : String) : Option Double :=
  if [".inf", ".Inf", ".INF", "+.inf", "+.Inf", "+.INF"].contains s then some Double.infinity
  else if ["-.inf", "-.Inf", "-.INF"].contains s then some Double.infinity.neg
  else if [".nan", ".NaN", ".NAN"].contains s then some Double.nan
  else finiteOf? s.toList

/-- The value of a plain scalar without a tag, none if it is an integer that is refused. -/
def plainValue? (s : String) : Option Value :=
  if s.isEmpty || isNullText s then some .null
  else
    match boolOf? s with
    | some b => some (.bool b)
    | none =>
      let other :=
        if isZeroPadded s.toList then Value.str s
        else
          match doubleOf? s with
          | some d => .double d
          | none => .str s
      match integerOf? s.toList with
      | none => some other
      | some n =>
        match integerSize n with
        | .exact => some (.int n)
        | .refused => none
        | .large => some other

/-- The tag of a node that is kept with its value: one that begins with a mark. -/
def keptTag? (tag : Option String) : Option String :=
  tag.filter fun t => t.toList.head? == some '!'

/-- The value of a scalar. A tag that was kept already has no further say. -/
def scalarValue? (kept : Bool) (tag : Option String) (text : String) (plain : Bool) :
    Option Value :=
  match if kept then none else tag with
  | none => if plain then plainValue? text else some (.str text)
  | some "tag:yaml.org,2002:bool" => (boolOf? text).map .bool
  | some "tag:yaml.org,2002:int" =>
    match integerOf? text.toList with
    | none => none
    | some n =>
      match integerSize n with
      | .exact => some (.int n)
      | .refused | .large => none
  | some "tag:yaml.org,2002:float" => (doubleOf? text).map .double
  | some "tag:yaml.org,2002:null" => if isNullText text then some .null else none
  | some _ => some (.str text)

/-! ## Anchors and aliases -/

/-- A node with its aliases numbered. -/
inductive Linked where
  | alias (anchor : Nat)
  | scalar (tag : Option String) (text : String) (plain : Bool)
  | sequence (tag : Option String) (items : List Linked)
  | mapping (tag : Option String) (entries : List (Linked × Linked))
  deriving Inhabited

/-- The anchors met so far: the number of each name, the order in which the last node of each number
began, and the nodes in that order. -/
structure Anchors where
  numbers : List (String × Nat)
  begun : List (Nat × Nat)
  nodes : List (Nat × Linked)
  count : Nat
  events : Nat

def Anchors.begin (anchor : Option String) (a : Anchors) : Option Nat × Anchors :=
  match anchor with
  | none => (none, a)
  | some name =>
    let number := a.numbers.length
    (some a.count, { a with
      numbers := (name, number) :: a.numbers.filter fun (n, _) => n ≠ name
      begun := (number, a.count) :: a.begun
      count := a.count + 1 })

def Anchors.finish (place : Option Nat) (node : Linked) (a : Anchors) : Anchors :=
  match place with
  | none => a
  | some i => { a with nodes := (i, node) :: a.nodes }

/-- The node that an alias stands for. -/
def Anchors.target? (a : Anchors) (number : Nat) : Option Linked := do
  let place ← a.begun.lookup number
  a.nodes.lookup place

/-- Counts the marks of a document, which bound how often aliases may be followed. -/
def Anchors.mark (n : Nat) (a : Anchors) : Anchors :=
  { a with events := a.events + n }

mutual

/-- Numbers the aliases of a node; none if one of them has no anchor before it. -/
def link : Node → Anchors → Option (Linked × Anchors)
  | .alias name, a => do
    let number ← a.numbers.lookup name
    return (.alias number, a.mark 1)
  | .scalar props text plain, a =>
    let (place, a) := a.begin props.anchor
    let node := Linked.scalar props.tag text plain
    some (node, (a.finish place node).mark 1)
  | .sequence props items, a => do
    let (place, a) := a.begin props.anchor
    let (items, a) ← linkItems items a
    let node := Linked.sequence props.tag items
    return (node, (a.finish place node).mark 2)
  | .mapping props entries, a => do
    let (place, a) := a.begin props.anchor
    let (entries, a) ← linkEntries entries a
    let node := Linked.mapping props.tag entries
    return (node, (a.finish place node).mark 2)

/-- Numbers the aliases of nodes, in order. -/
def linkItems : List Node → Anchors → Option (List Linked × Anchors)
  | [], a => some ([], a)
  | node :: rest, a => do
    let (node, a) ← link node a
    let (rest, a) ← linkItems rest a
    return (node :: rest, a)

/-- Numbers the aliases of entries, in order. -/
def linkEntries : List (Node × Node) → Anchors → Option (List (Linked × Linked) × Anchors)
  | [], a => some ([], a)
  | (key, value) :: rest, a => do
    let (key, a) ← link key a
    let (value, a) ← link value a
    let (rest, a) ← linkEntries rest a
    return ((key, value) :: rest, a)

end

/-! ## The value of a document -/

/-- How many collections may stand in each other. -/
def depthLimit : Nat := 128

/-- Follows an alias, which takes one of the steps that are left; none if there are no more. -/
def follow (anchors : Anchors) (node : Linked) (steps : Nat) : Option (Linked × Nat) :=
  match node with
  | .alias number =>
    match steps with
    | 0 => none
    | steps + 1 => (anchors.target? number).map fun target => (target, steps)
  | _ => some (node, steps)

def enterNew (key value : Value) (entries : List (Value × Value)) :
    Option (List (Value × Value)) :=
  if entries.any fun (k, _) => k.same (depthLimit + 1) key then none
  else some (entries ++ [(key, value)])

def tagValue (tag : Option String) (v : Value) : Value :=
  match tag with
  | none => v
  | some t => .tagged t v

/-- The value of a node that may hold `depth` more levels, and the number of steps left. `kept` says
that the tag of the node is kept already, or does not count because the node is a key of a tagged
mapping. -/
def evaluate (anchors : Anchors) : Nat → Bool → Linked → Nat → Option (Value × Nat)
  | depth, kept, node, steps => do
    let (target, steps) ← follow anchors node steps
    let kept := kept && match node with
      | .alias _ => false
      | _ => true
    match target with
    | .alias _ => none
    | .scalar tag text plain =>
      let outer := if kept then none else keptTag? tag
      let v ← scalarValue? (kept || outer.isSome) tag text plain
      return (tagValue outer v, steps)
    | .sequence tag items =>
      let outer := if kept then none else keptTag? tag
      match depth with
      | 0 => none
      | depth + 1 =>
        let (values, steps) ← items.foldlM (fun (values, steps) item => do
          let (v, steps) ← evaluate anchors depth false item steps
          return (v :: values, steps)) ([], steps)
        return (tagValue outer (.sequence values.reverse), steps)
    | .mapping tag entries =>
      let outer := if kept then none else keptTag? tag
      match depth with
      | 0 => none
      | depth + 1 =>
        let (values, steps) ← entries.foldlM (fun (values, steps) (key, value) => do
          let (k, steps) ← evaluate anchors depth (kept || outer.isSome) key steps
          let (v, steps) ← evaluate anchors depth false value steps
          return (← enterNew k v values, steps)) ([], steps)
        return (tagValue outer (.mapping values), steps)

/-- The value of the root of a document. Aliases may be followed a hundred times as often as the
document has marks. -/
def Value.ofNode? (root : Node) : Option Value := do
  let (root, anchors) ← link root ⟨[], [], [], 0, 0⟩
  let (v, _) ← evaluate anchors depthLimit false root (100 * anchors.events)
  return v

def read? (cs : List Char) : Option Value := do
  let tokens ← tokens? cs
  let root ← Node.ofTokens? tokens
  Value.ofNode? root

end OpenApiClient.Yaml
