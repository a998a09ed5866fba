import OpenApiClient.Code.Fragment

/-!
# Writing code step by step

A builder writes code as it comes: it holds the text so far and the level that the next line stands
at, and takes one fragment after another. The body of a block is written one level deeper, and the
level goes back where the body ends. What stands in front of a line is pushed unit by unit, and
nothing that has been written is looked at again.
-/

namespace OpenApiClient.Code

structure Builder where
  /-- The indent unit. -/
  unit : List Char
  /-- The level of the next line. -/
  depth : Nat
  /-- What has been written. -/
  text : List Char
  deriving DecidableEq, Repr

namespace Builder

/-- A builder at the left margin that has written nothing. -/
def start (unit : List Char) : Builder :=
  ⟨unit, 0, []⟩

/-- Whether nothing has been written. -/
def isEmpty (b : Builder) : Bool :=
  b.text.isEmpty

def code (b : Builder) : String :=
  String.ofList b.text

def push (b : Builder) (piece : List Char) : Builder :=
  { b with text := b.text ++ piece }

@[simp] theorem unit_push (b : Builder) (piece : List Char) : (b.push piece).unit = b.unit := rfl

@[simp] theorem depth_push (b : Builder) (piece : List Char) : (b.push piece).depth = b.depth := rfl

@[simp] theorem push_nil (b : Builder) : b.push [] = b := by
  simp [push]

@[simp] theorem push_push (b : Builder) (first second : List Char) :
    (b.push first).push second = b.push (first ++ second) := by
  simp [push]

/-- What follows stands one level deeper. -/
def deeper (b : Builder) : Builder :=
  { b with depth := b.depth + 1 }

/-- What follows stands one level less deep. -/
def shallower (b : Builder) : Builder :=
  { b with depth := b.depth - 1 }

/-- The level goes back to where it was. -/
@[simp] theorem shallower_push_deeper (b : Builder) (piece : List Char) :
    (b.deeper.push piece).shallower = b.push piece := rfl

/-- One indent unit for each level. -/
def pad (b : Builder) : Builder :=
  (List.replicate b.depth b.unit).foldl push b

/-- A line with its padding and its end; an empty line has no padding. -/
def pushLine (b : Builder) (line : List Char) : Builder :=
  (if line.isEmpty then b else b.pad.push line).push ['\n']

def line (b : Builder) (text : List Char) : Builder :=
  (Text.splitOn '\n' text).foldl pushLine b

def doc (b : Builder) (text : List Char) : Builder :=
  let lines := (Text.lines text).map Text.trimEnd
  if lines.length ≤ 1 then b.line (docLine (Text.trim text))
  else
    let opened := b.line "/**".toList
    (lines.foldl (fun b line => b.line (starredLine line)) opened).line " */".toList

def comment (b : Builder) (text : List Char) : Builder :=
  (Text.lines text).foldl (fun b line => b.line ("// ".toList ++ line)) b

mutual

def add (b : Builder) : Fragment → Builder
  | .line text => b.line text.toList
  | .blank => b.push ['\n']
  | .raw text => b.push text.toList
  | .block header body none => ((b.line header.toList).deeper.addAll body).shallower
  | .block header body (some close) =>
    ((b.line header.toList).deeper.addAll body).shallower.line close.toList
  | .indent body => (b.deeper.addAll body).shallower
  | .sequence parts => b.addAll parts
  | .doc text => b.doc text.toList
  | .comment text => b.comment text.toList
termination_by structural f => f

def addAll (b : Builder) : List Fragment → Builder
  | [] => b
  | f :: rest => (b.add f).addAll rest
termination_by structural fs => fs

end

end Builder

end OpenApiClient.Code
