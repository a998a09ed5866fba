import OpenApiClient.Client.RequestShape
import OpenApiClient.Proofs.Code.Comment

/-!
# Where comments stand

The texts of a document stand in comments of the generated code in three places: as fragments of
their own, in front of the members of an object type, and in front of the headers of a request. The
comments of a type are written with the type, as a part of a line, and the lines of this part are
indented once more where the line stands. In each place a comment has lines of its own and nothing
closes it before its end (`comments_closed`).
-/

namespace OpenApiClient

namespace Code

/-- A text whose last line has its end. -/
def EndsLine (text : List Char) : Prop :=
  ∀ c ∈ text.getLast?, c = '\n'

theorem EndsLine.nil : EndsLine [] := by
  simp [EndsLine]

theorem EndsLine.append {before after : List Char} (hbefore : EndsLine before)
    (hafter : EndsLine after) : EndsLine (before ++ after) := by
  intro c hc
  rw [List.getLast?_append] at hc
  rcases hlast : after.getLast? with _ | d
  · rw [hlast] at hc
    exact hbefore c hc
  · rw [hlast] at hc
    exact hafter c (hlast ▸ hc)

theorem endsLine_flatMap_padLine (pad : List Char) (ls : List (List Char)) :
    EndsLine (ls.flatMap (padLine pad)) := by
  induction ls with
  | nil => exact .nil
  | cons line ls ih =>
    have hline : EndsLine (padLine pad line) := by
      unfold padLine EndsLine
      split_ifs <;> simp
    exact hline.append ih

theorem endsLine_writeLines (pad text : List Char) : EndsLine (writeLines pad text) :=
  endsLine_flatMap_padLine pad _

theorem IsComment.endsLine {pad text : List Char} (h : IsComment pad text) : EndsLine text := by
  obtain ⟨before, rfl⟩ := h.closed
  simp [EndsLine]

def HasLines (text piece : List Char) : Prop :=
  ∃ before after, text = before ++ piece ++ after ∧ EndsLine before

theorem HasLines.append_right {text piece : List Char} (h : HasLines text piece)
    (after : List Char) : HasLines (text ++ after) piece := by
  obtain ⟨before, rest, rfl, hbefore⟩ := h
  exact ⟨before, rest ++ after, by simp, hbefore⟩

theorem HasLines.append_left {text piece before : List Char} (h : HasLines text piece)
    (hbefore : EndsLine before) : HasLines (before ++ text) piece := by
  obtain ⟨first, rest, rfl, hfirst⟩ := h
  exact ⟨before ++ first, rest, by simp, hbefore.append hfirst⟩

namespace TypeExpr

/-- A type that is written at a depth has a comment, which stands at a level of its own. -/
inductive HasComment (level : Nat) (doc : String) : Nat → TypeExpr → Prop
  | here {members : List (MemberHead × TypeExpr)} {head : MemberHead} {type : TypeExpr}
      {depth : Nat} (hmem : (head, type) ∈ members) (hdoc : head.doc = some doc)
      (hlevel : level = depth + 1) : HasComment level doc depth (.object members)
  | member {members : List (MemberHead × TypeExpr)} {head : MemberHead} {type : TypeExpr}
      {depth : Nat} (hmem : (head, type) ∈ members) (h : HasComment level doc (depth + 1) type) :
      HasComment level doc depth (.object members)
  | array {item : TypeExpr} {depth : Nat} (h : HasComment level doc depth item) :
      HasComment level doc depth (.array item)
  | record {value : TypeExpr} {depth : Nat} (h : HasComment level doc depth value) :
      HasComment level doc depth (.record value)

theorem write_array (depth : Nat) (item : TypeExpr) :
    write depth (.array item) =
      if needsParens (write depth item) then '(' :: write depth item ++ [')', '[', ']']
      else write depth item ++ ['[', ']'] := rfl

theorem write_record (depth : Nat) (value : TypeExpr) :
    write depth (.record value) = "Record<string, ".toList ++ write depth value ++ ['>'] := rfl

theorem write_object (depth : Nat) (members : List (MemberHead × TypeExpr)) :
    write depth (.object members) =
      '\x7b' :: ('\n' :: writeMembers (depth + 1) members) ++ margin depth ++ ['\x7d'] := rfl

/-- A member begins behind a line feed. -/
theorem exists_writeMembers {members : List (MemberHead × TypeExpr)} {head : MemberHead}
    {type : TypeExpr} (hmem : (head, type) ∈ members) (depth : Nat) :
    ∃ before after, '\n' :: writeMembers depth members =
      before ++ '\n' :: (memberHead depth head ++ write depth type ++ after) := by
  induction members with
  | nil => simp at hmem
  | cons first members ih =>
    rcases List.mem_cons.mp hmem with rfl | hmem
    · exact ⟨[], [';', '\n'] ++ writeMembers depth members, by simp [writeMembers]⟩
    · obtain ⟨before, after, hrest⟩ := ih hmem
      refine ⟨'\n' :: (memberHead depth first.1 ++ write depth first.2 ++ [';']) ++ before, after,
        ?_⟩
      rw [List.append_assoc, ← hrest]
      simp [writeMembers]

/-- A comment of a type begins behind a line feed. -/
theorem exists_write_of_hasComment {level depth : Nat} {doc : String} {t : TypeExpr}
    (h : HasComment level doc depth t) :
    ∃ before after, write depth t = before ++ '\n' :: (memberDoc level (some doc) ++ after) := by
  -- what is written around an inner type leaves the line feed in front of the comment where it is
  induction h with
  | @here members head type depth hmem hdoc hlevel =>
    obtain ⟨before, after, hmembers⟩ := exists_writeMembers hmem (depth + 1)
    refine ⟨'\x7b' :: before, margin (depth + 1) ++ (propertyKey head.name).toList ++
      (if head.isOptional then ['?', ':', ' '] else [':', ' ']) ++ write (depth + 1) type ++
        after ++ margin depth ++ ['\x7d'], ?_⟩
    rw [write_object, hmembers, hlevel, memberHead, hdoc]
    simp only [List.append_assoc, List.cons_append]
  | @member members head type depth hmem _ ih =>
    obtain ⟨before, after, hmembers⟩ := exists_writeMembers hmem (depth + 1)
    obtain ⟨inner, rest, htype⟩ := ih
    refine ⟨'\x7b' :: before ++ '\n' :: memberHead (depth + 1) head ++ inner,
      rest ++ after ++ margin depth ++ ['\x7d'], ?_⟩
    rw [write_object, hmembers, htype]
    simp only [List.append_assoc, List.cons_append]
  | array _ ih =>
    obtain ⟨before, after, hitem⟩ := ih
    rw [write_array, hitem]
    split_ifs
    · exact ⟨'(' :: before, after ++ [')', '[', ']'], by simp⟩
    · exact ⟨before, after ++ ['[', ']'], by simp⟩
  | record _ ih =>
    obtain ⟨before, after, hvalue⟩ := ih
    exact ⟨"Record<string, ".toList ++ before, after ++ ['>'], by rw [write_record, hvalue]; simp⟩

end TypeExpr

inductive Fragment.BeginsWith (text : String) : Fragment → Prop
  | line : BeginsWith text (.line text)
  | block (body : List Fragment) (close : Option String) : BeginsWith text (.block text body close)

theorem Fragment.BeginsWith.exists_write {text : String} {f : Fragment} (h : f.BeginsWith text)
    (unit : List Char) (depth : Nat) :
    ∃ rest, f.write unit depth = writeLines (padding unit depth) text.toList ++ rest := by
  cases h with
  | line => exact ⟨[], by rw [Fragment.write, List.append_nil]⟩
  | block body close =>
    cases close with
    | none => exact ⟨_, Fragment.write.eq_4 ..⟩
    | some close =>
      refine ⟨writeAll unit (depth + 1) body ++ writeLines (padding unit depth) close.toList, ?_⟩
      rw [Fragment.write, List.append_assoc]

/-- The comment of a member at a level, behind a padding. -/
theorem isComment_memberDoc {pad : List Char} (hpad : IsMargin pad) (level : Nat) (doc : String) :
    IsComment (pad ++ TypeExpr.margin level) (pad ++ TypeExpr.memberDoc level (some doc)) := by
  have hdoc := Text.newline_not_mem_join_blankSeparated doc.toList
  simpa [TypeExpr.memberDoc] using isComment_docLine (hpad.append (isMargin_margin level)) hdoc

/-- The comments of a type keep their lines when the lines are indented. -/
theorem hasLines_writeLines {level : Nat} {doc : String} {t : TypeExpr}
    (h : t.HasComment level doc 0) (pad head tail : List Char) :
    HasLines (writeLines pad (head ++ t.text.toList ++ tail))
      (pad ++ TypeExpr.memberDoc level (some doc)) := by
  obtain ⟨before, after, htype⟩ := TypeExpr.exists_write_of_hasComment h
  have hdoc := Text.newline_not_mem_join_blankSeparated doc.toList
  generalize hline : TypeExpr.margin level ++
    docLine (Text.join [' '] (Text.blankSeparated doc.toList)) = line
  have hmember : TypeExpr.memberDoc level (some doc) = line ++ ['\n'] := by
    rw [← hline]
    rfl
  have hnewline : '\n' ∉ line := by
    rw [← hline, List.mem_append]
    rintro (hmem | hmem)
    · exact (isMargin_margin level).2 hmem
    · exact newline_not_mem_docLine hdoc hmem
  have hne : line ≠ [] := by simp [← hline, docLine]
  -- the line of the comment stands between two line feeds
  have htext : head ++ t.text.toList ++ tail =
      (head ++ before) ++ '\n' :: (line ++ '\n' :: (after ++ tail)) := by
    rw [TypeExpr.text, String.toList_ofList, htype, hmember]
    simp
  rw [htext, writeLines_append, writeLines_append, writeLines_line hne hnewline, hmember]
  refine ⟨_, writeLines pad (after ++ tail), ?_, endsLine_writeLines pad (head ++ before)⟩
  simp

theorem endsLine_docFragments {unit : List Char} (hunit : IsUnit unit) (depth : Nat)
    (doc : Option String) : EndsLine (writeAll unit depth (docFragments doc)) := by
  cases doc with
  | none => exact .nil
  | some doc =>
    have hdoc := (isComment_writeDoc (hunit.isMargin_padding depth) doc.toList).endsLine
    exact hdoc.append .nil

theorem endsLine_writeAll_flatMap_fragments {unit : List Char} (hunit : IsUnit unit) (depth : Nat)
    (members : List Member) :
    EndsLine (writeAll unit depth (members.flatMap Member.fragments)) := by
  induction members with
  | nil => exact .nil
  | cons m members ih =>
    rw [List.flatMap_cons, writeAll_append, Member.fragments, writeAll_append]
    have hline := endsLine_writeLines (padding unit depth)
      (m.key ++ (if m.isOptional then "?" else "") ++ ": " ++ m.type ++ ";").toList
    exact ((endsLine_docFragments hunit depth m.doc).append (hline.append .nil)).append ih

/-- The comment of a member stands in a text behind a padding, on lines of its own, and nothing
closes it before its end. -/
structure CommentStands (text pad : List Char) (level : Nat) (doc : String) : Prop where
  hasLines : HasLines text (pad ++ TypeExpr.memberDoc level (some doc))
  isComment : IsComment (pad ++ TypeExpr.margin level) (pad ++ TypeExpr.memberDoc level (some doc))

section Standing

variable {unit : List Char} (hunit : IsUnit unit) {level : Nat} {doc : String}
include hunit

theorem commentStands_of_beginsWith {t : TypeExpr} (h : t.HasComment level doc 0)
    (head tail : String) {f : Fragment} (hf : f.BeginsWith (head ++ t.text ++ tail)) (depth : Nat) :
    CommentStands (f.write unit depth) (padding unit depth) level doc := by
  refine ⟨?_, isComment_memberDoc (hunit.isMargin_padding depth) level doc⟩
  obtain ⟨rest, hwrite⟩ := hf.exists_write unit depth
  rw [hwrite, String.toList_append, String.toList_append]
  exact (hasLines_writeLines h _ _ _).append_right rest

/-- The headers of a request are the members of one of its own members. -/
theorem commentStands_members {s : RequestShape} {f : RequestField} (hf : f ∈ s.headers)
    (hdoc : f.doc = some doc) (depth : Nat) :
    CommentStands (writeAll unit depth (s.members.flatMap Member.fragments)) (padding unit depth) 1
      doc := by
  have hmem : f.typeMember ∈ s.headers.map RequestField.typeMember := List.mem_map_of_mem hf
  have hcomment : (TypeExpr.object (s.headers.map RequestField.typeMember)).HasComment 1 doc 0 :=
    .here hmem hdoc rfl
  have hempty : s.headers.isEmpty = false := by
    simpa using List.ne_nil_of_mem hf
  obtain ⟨hlines, hclosed⟩ := commentStands_of_beginsWith hunit hcomment
    ("headers" ++ (if !s.headers.any RequestField.required then "?" else "") ++ ": ") ";" .line
    depth
  refine ⟨?_, hclosed⟩
  have hheaders : writeAll unit depth (s.headerMembers.flatMap Member.fragments) =
      (Fragment.line ("headers" ++ (if !s.headers.any RequestField.required then "?" else "") ++
        ": " ++ (TypeExpr.object (s.headers.map RequestField.typeMember)).text ++ ";")).write
          unit depth := by
    rw [RequestShape.headerMembers, hempty]
    exact List.append_nil _
  rw [RequestShape.members, List.flatMap_append, List.flatMap_append, writeAll_append,
    writeAll_append, hheaders]
  exact (hlines.append_left (endsLine_writeAll_flatMap_fragments hunit depth _)).append_right _

theorem commentStands_interface {s : RequestShape} {f : RequestField} (hf : f ∈ s.headers)
    (hdoc : f.doc = some doc) (d : Declaration) (hd : d.definition = .interface s.members)
    (depth : Nat) :
    CommentStands (writeAll unit depth d.fragments) (padding unit (depth + 1)) 1 doc := by
  obtain ⟨hlines, hclosed⟩ := commentStands_members hunit hf hdoc (depth + 1)
  refine ⟨?_, hclosed⟩
  rcases hmembers : s.members with _ | ⟨m, ms⟩
  · -- the headers are a member
    have hempty : s.headers.isEmpty = false := by
      simpa using List.ne_nil_of_mem hf
    simp [RequestShape.members, RequestShape.headerMembers, hempty] at hmembers
  · rw [hmembers] at hd hlines
    rw [Declaration.fragments, hd, writeAll_append]
    have hblock := hlines.append_left (endsLine_writeLines (padding unit depth)
      (exportWord d.isExported ++ "interface " ++ d.name ++ " \x7b").toList)
    have hrest := hblock.append_right (writeLines (padding unit depth) "\x7d".toList)
    exact (hrest.append_right []).append_left (endsLine_docFragments hunit depth d.doc)

/-- **Comments.** Whatever a document says, no comment of the generated code is closed early: every
comment begins with what opens it, what closes it occurs once, at its end, and the lines in between
are starred. That holds for comments that are fragments at any depth, for those of members in the
types that lines and blocks begin with, and for those of headers in the type of a request. -/
theorem comments_closed (depth : Nat) :
    (∀ text : String, IsComment (padding unit depth) ((Fragment.doc text).write unit depth)) ∧
      (∀ (t : TypeExpr) (level : Nat) (doc : String), t.HasComment level doc 0 →
        ∀ (head tail : String) (f : Fragment), f.BeginsWith (head ++ t.text ++ tail) →
          CommentStands (f.write unit depth) (padding unit depth) level doc) ∧
        ∀ (s : RequestShape), ∀ f ∈ s.headers, ∀ doc : String, f.doc = some doc →
          ∀ d : Declaration, d.definition = .interface s.members →
            CommentStands (writeAll unit depth d.fragments) (padding unit (depth + 1)) 1 doc := by
  refine ⟨?_, ?_, ?_⟩
  · intro text
    exact isComment_writeDoc (hunit.isMargin_padding depth) text.toList
  · intro t level doc h head tail f hf
    exact commentStands_of_beginsWith hunit h head tail hf depth
  · intro s f hf doc hdoc d hd
    exact commentStands_interface hunit hf hdoc d hd depth

end Standing

/-- A text that would close a comment, on lines of its own and across them. -/
def closingText : String :=
  "*/ a */*/\r\n*\r\n/ b\n\n   \n**/"

def closingRequest : RequestShape :=
  ⟨[], [], [⟨"X-A", .named "string", false, some closingText⟩], .absent⟩

theorem comments_closed_tab :
    IsUnit tabUnit ∧
      IsComment (padding tabUnit 2) ((Fragment.doc closingText).write tabUnit 2) ∧
        (innerLines ((Fragment.doc closingText).write tabUnit 2)).length = 6 ∧
          CommentStands (writeAll tabUnit 0
            (Declaration.fragments ⟨"A", none, .interface closingRequest.members, true⟩))
              (padding tabUnit 1) 1 closingText := by
  refine ⟨.tab, (comments_closed .tab 2).1 closingText, by decide +kernel, ?_⟩
  exact (comments_closed .tab 0).2.2 closingRequest _ List.mem_cons_self closingText rfl _ rfl

end Code

end OpenApiClient
