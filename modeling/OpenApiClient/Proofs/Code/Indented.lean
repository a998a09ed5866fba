import OpenApiClient.Code.Builder
import OpenApiClient.Proofs.Code.Commented

/-!
# Code at a level

A builder counts the level up and down while it goes through a tree of fragments, and several kinds
of fragments cut their texts into lines of their own. All of this comes to little: a fragment leaves
the level as it was and adds a text that depends on the indent unit and on the level, but not on
what was written before (`Builder.add_eq_push`). Without raw text in it, that text is the one of the
left margin with an indent unit for each level in front of every line that is not empty
(`shifted_write`). Fragments one after another have their texts one after another
(`fragments_indented`).

The law of levels is carried by whole lines: texts that end where a line ends can be shifted apart
and put together again (`Shifted.append`).
-/

namespace OpenApiClient

namespace Code

namespace Builder

/-- Steps that write pieces which depend on the unit and the level alone write the pieces one after
another. -/
theorem foldl_eq_push {α : Type} {step : Builder → α → Builder}
    (piece : List Char → Nat → α → List Char)
    (h : ∀ b a, step b a = b.push (piece b.unit b.depth a)) (as : List α) (b : Builder) :
    as.foldl step b = b.push (as.flatMap (piece b.unit b.depth)) := by
  induction as generalizing b with
  | nil => rw [List.foldl_nil, List.flatMap_nil, push_nil]
  | cons a as ih =>
    rw [List.foldl_cons, h, ih, push_push, unit_push, depth_push, List.flatMap_cons]

theorem pad_eq_push (b : Builder) : b.pad = b.push (padding b.unit b.depth) := by
  rw [pad, foldl_eq_push (fun _ _ unit => unit) (fun _ _ => rfl), List.flatMap_id']
  rfl

theorem pushLine_eq_push (b : Builder) (line : List Char) :
    b.pushLine line = b.push (padLine (padding b.unit b.depth) line) := by
  unfold pushLine padLine
  split_ifs
  · rfl
  · rw [pad_eq_push, push_push, push_push, List.append_assoc]

theorem line_eq_push (b : Builder) (text : List Char) :
    b.line text = b.push (writeLines (padding b.unit b.depth) text) :=
  foldl_eq_push (fun unit depth => padLine (padding unit depth)) pushLine_eq_push _ b

theorem doc_eq_push (b : Builder) (text : List Char) :
    b.doc text = b.push (writeDoc (padding b.unit b.depth) text) := by
  have hlines := foldl_eq_push
    (fun unit depth line => writeLines (padding unit depth) (starredLine line))
    (fun b line => line_eq_push b (starredLine line))
  simp only [doc, writeDoc]
  split_ifs
  · exact line_eq_push b _
  · rw [hlines, line_eq_push, line_eq_push, push_push, push_push, ← List.append_assoc]
    rfl

theorem comment_eq_push (b : Builder) (text : List Char) :
    b.comment text = b.push (writeComment (padding b.unit b.depth) text) :=
  foldl_eq_push (fun unit depth line => writeLines (padding unit depth) ("// ".toList ++ line))
    (fun b line => line_eq_push b ("// ".toList ++ line)) _ b

mutual

/-- A fragment leaves the level as it was, and its text does not look at what stands before it. -/
theorem add_eq_push (b : Builder) : ∀ f : Fragment, b.add f = b.push (f.write b.unit b.depth)
  | .line text => line_eq_push b text.toList
  | .blank => rfl
  | .raw text => rfl
  | .block header body none => by
    have hbody := addAll_eq_push (b.line header.toList).deeper body
    rw [add, hbody, shallower_push_deeper, line_eq_push, push_push, Fragment.write]
    rfl
  | .block header body (some close) => by
    have hbody := addAll_eq_push (b.line header.toList).deeper body
    rw [add, hbody, shallower_push_deeper, line_eq_push, line_eq_push, push_push, push_push,
      Fragment.write, List.append_assoc]
    rfl
  | .indent body => by
    rw [add, addAll_eq_push, shallower_push_deeper, Fragment.write]
    rfl
  | .sequence parts => addAll_eq_push b parts
  | .doc text => doc_eq_push b text.toList
  | .comment text => comment_eq_push b text.toList

theorem addAll_eq_push (b : Builder) :
    ∀ fs : List Fragment, b.addAll fs = b.push (writeAll b.unit b.depth fs)
  | [] => (push_nil b).symm
  | f :: rest => by
    rw [addAll, add_eq_push b f, addAll_eq_push _ rest, push_push, writeAll]
    rfl

end

end Builder

/-! ## Lines behind a padding -/

/-- A text with a padding in front of every line that is not empty. -/
def indentLines (pad text : List Char) : List Char :=
  Text.join ['\n']
    ((Text.splitOn '\n' text).map fun line => if line.isEmpty then [] else pad ++ line)

section Lines

variable {pad : List Char}

theorem indentLines_nil (pad : List Char) : indentLines pad [] = [] := rfl

theorem indentLines_line {line : List Char} (hne : line ≠ []) (h : '\n' ∉ line) :
    indentLines pad line = pad ++ line := by
  rw [indentLines, Text.splitOn_of_not_mem h]
  simp [Text.join, hne]

/-- A line feed ends the lines before it. -/
theorem indentLines_append (pad before after : List Char) :
    indentLines pad (before ++ '\n' :: after) =
      indentLines pad before ++ '\n' :: indentLines pad after := by
  have hbefore := Text.splitOn_ne_nil '\n' before
  have hafter := Text.splitOn_ne_nil '\n' after
  rw [indentLines, Text.splitOn_append_sep, List.map_append,
    Text.join_append _ (by simpa using hafter) (by simpa using hbefore)]
  rfl

/-- A text of whole lines, and the same lines behind a padding. -/
structure Shifted (pad text shifted : List Char) : Prop where
  endsLine : EndsLine text
  eq_indentLines : shifted = indentLines pad text

namespace Shifted

theorem nil : Shifted pad [] [] :=
  ⟨.nil, rfl⟩

/-- Whole lines are shifted one after another. -/
theorem append {before after before' after' : List Char} (hbefore : Shifted pad before before')
    (hafter : Shifted pad after after') :
    Shifted pad (before ++ after) (before' ++ after') := by
  refine ⟨hbefore.endsLine.append hafter.endsLine, ?_⟩
  rw [hbefore.eq_indentLines, hafter.eq_indentLines]
  rcases List.eq_nil_or_concat' before with rfl | ⟨first, last, rfl⟩
  · rfl
  · obtain rfl : last = '\n' := hbefore.endsLine last (by simp)
    rw [indentLines_append, List.append_assoc, List.append_assoc,
      List.singleton_append, indentLines_append]
    rfl

theorem flatMap {α : Type} {f f' : α → List Char} {as : List α}
    (h : ∀ a ∈ as, Shifted pad (f a) (f' a)) : Shifted pad (as.flatMap f) (as.flatMap f') := by
  induction as with
  | nil => exact nil
  | cons a as ih =>
    have hrest := ih fun x hx => h x (List.mem_cons_of_mem a hx)
    exact (h a List.mem_cons_self).append hrest

end Shifted

end Lines

/-! ## Levels -/

mutual

def Fragment.isRawFree : Fragment → Bool
  | .raw _ => false
  | .block _ body _ => areRawFree body
  | .indent body => areRawFree body
  | .sequence parts => areRawFree parts
  | .line _ => true
  | .blank => true
  | .doc _ => true
  | .comment _ => true
termination_by structural f => f

def areRawFree : List Fragment → Bool
  | [] => true
  | f :: rest => f.isRawFree && areRawFree rest
termination_by structural fs => fs

end

theorem padding_add (unit : List Char) (m n : Nat) :
    padding unit (m + n) = padding unit m ++ padding unit n := by
  rw [padding, List.replicate_add, List.flatten_append]
  rfl

section Levels

variable {unit : List Char} (hunit : IsUnit unit) (d : Nat)
include hunit

/-- A line at a level is shifted by the levels above it; the padding has no line feed. -/
theorem shifted_padLine (k : Nat) {line : List Char} (h : '\n' ∉ line) :
    Shifted (padding unit d) (padLine (padding unit k) line)
      (padLine (padding unit (d + k)) line) := by
  by_cases hne : line = []
  · subst hne
    exact ⟨by simp [EndsLine, padLine], rfl⟩
  · have hmargin := hunit.isMargin_padding k
    have hline : '\n' ∉ padding unit k ++ line := by simp [hmargin.2, h]
    have hpadded : padLine (padding unit k) line = padding unit k ++ line ++ ['\n'] := by
      simp [padLine, hne]
    refine ⟨by simp [EndsLine, hpadded], ?_⟩
    rw [hpadded, indentLines_append, indentLines_line (by simp [hne]) hline, padding_add]
    simp [padLine, hne, indentLines_nil]

theorem shifted_writeLines (k : Nat) (text : List Char) :
    Shifted (padding unit d) (writeLines (padding unit k) text)
      (writeLines (padding unit (d + k)) text) :=
  .flatMap fun _ hline => shifted_padLine hunit d k (Text.not_mem_of_mem_splitOn hline)

theorem shifted_writeDoc (k : Nat) (text : List Char) :
    Shifted (padding unit d) (writeDoc (padding unit k) text)
      (writeDoc (padding unit (d + k)) text) := by
  simp only [writeDoc]
  split_ifs
  · exact shifted_writeLines hunit d k _
  · have hopened := shifted_writeLines hunit d k "/**".toList
    have hclosed := shifted_writeLines hunit d k " */".toList
    exact (hopened.append (.flatMap fun _ _ => shifted_writeLines hunit d k _)).append hclosed

theorem shifted_writeComment (k : Nat) (text : List Char) :
    Shifted (padding unit d) (writeComment (padding unit k) text)
      (writeComment (padding unit (d + k)) text) :=
  .flatMap fun _ _ => shifted_writeLines hunit d k _

end Levels

mutual

/-- A fragment at any level is shifted by the levels above it. The level `k` grows on the way down
the tree, and `d` stays. -/
theorem shifted_write {unit : List Char} (hunit : IsUnit unit) (d : Nat) :
    ∀ (f : Fragment) (k : Nat), f.isRawFree = true →
      Shifted (padding unit d) (f.write unit k) (f.write unit (d + k))
  | .line text, k, _ => shifted_writeLines hunit d k text.toList
  | .blank, k, _ => shifted_padLine hunit d k List.not_mem_nil
  | .block header body none, k, h => by
    have hheader := shifted_writeLines hunit d k header.toList
    have hbody := shifted_writeAll hunit d body (k + 1) h
    rw [Fragment.write, Fragment.write]
    exact hheader.append hbody
  | .block header body (some close), k, h => by
    have hheader := shifted_writeLines hunit d k header.toList
    have hbody := shifted_writeAll hunit d body (k + 1) h
    have hclose := shifted_writeLines hunit d k close.toList
    rw [Fragment.write, Fragment.write]
    exact (hheader.append hbody).append hclose
  | .indent body, k, h => shifted_writeAll hunit d body (k + 1) h
  | .sequence parts, k, h => shifted_writeAll hunit d parts k h
  | .doc text, k, _ => shifted_writeDoc hunit d k text.toList
  | .comment text, k, _ => shifted_writeComment hunit d k text.toList

theorem shifted_writeAll {unit : List Char} (hunit : IsUnit unit) (d : Nat) :
    ∀ (fs : List Fragment) (k : Nat), areRawFree fs = true →
      Shifted (padding unit d) (writeAll unit k fs) (writeAll unit (d + k) fs)
  | [], _, _ => .nil
  | f :: rest, k, h => by
    obtain ⟨hf, hrest⟩ := Bool.and_eq_true_iff.mp h
    exact (shifted_write hunit d f k hf).append (shifted_writeAll hunit d rest k hrest)

end

/-- **Levels.** At every level, a fragment that is added to what was written leaves the level as it
was, and adds a text that does not depend on what was written before. Without raw text in it, that
text is its text at the left margin with an indent unit for each level in front of every line that
is not empty. And fragments one after another have their texts one after another. -/
theorem fragments_indented {unit : List Char} (hunit : IsUnit unit) (depth : Nat) :
    (∀ (f : Fragment) (text : List Char),
      (Builder.mk unit depth text).add f = ⟨unit, depth, text ++ f.write unit depth⟩) ∧
    (∀ f : Fragment, f.isRawFree = true →
      f.write unit depth = indentLines (padding unit depth) (f.write unit 0)) ∧
    (∀ (fs : List Fragment) (text : List Char),
      (Builder.mk unit depth text).addAll fs = ⟨unit, depth, text ++ writeAll unit depth fs⟩) ∧
    ∀ fs gs : List Fragment,
      writeAll unit depth (fs ++ gs) = writeAll unit depth fs ++ writeAll unit depth gs := by
  refine ⟨?_, ?_, ?_, ?_⟩
  · intro f text
    exact Builder.add_eq_push ⟨unit, depth, text⟩ f
  · intro f hraw
    exact (shifted_write hunit depth f 0 hraw).eq_indentLines
  · intro fs text
    exact Builder.addAll_eq_push ⟨unit, depth, text⟩ fs
  · exact writeAll_append unit depth

/-- A block with texts of several lines in it, some of them empty. -/
def nestedFragment : Fragment :=
  .block "a(\x7b\n\n" [.line "b\n\nc\n", .blank, .doc "d\r\n\n  e ", .indent [.comment "f\n\ng"]]
    (some "\x7d)")

theorem fragments_indented_tab :
    IsUnit tabUnit ∧ nestedFragment.isRawFree = true ∧
      nestedFragment.write tabUnit 2 =
        indentLines ['\t', '\t'] (nestedFragment.write tabUnit 0) := by
  have hraw : nestedFragment.isRawFree = true := rfl
  exact ⟨.tab, hraw, (fragments_indented .tab 2).2.1 nestedFragment hraw⟩

example : (Fragment.indent [.line "a;\n\nb;"]).write standardUnit 1 =
    "    a;\n\n    b;\n".toList := by decide

/-- Raw text stays where it is, so the law of levels does not hold of it. -/
example : (Fragment.raw "a").write standardUnit 1 ≠
    indentLines (padding standardUnit 1) ((Fragment.raw "a").write standardUnit 0) := by decide

end Code

end OpenApiClient
