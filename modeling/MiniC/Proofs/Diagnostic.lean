import MiniC.Diagnostic
import MiniC.Proofs.Parse.Refusal
import MiniC.Proofs.Parse.RoundTrip
import MiniC.Proofs.Source.Line

/-!
# Reports of syntax errors

A report quotes the line of its error in a row of its own, behind a gutter that is as wide as the
number of the line, and shows a caret in the row below. The caret stands under the first character
of the token that the error is about, or right behind what a text ends with. There is no report if
the caret would stand behind more blanks than are laid out.
-/

namespace MiniC

namespace Course

variable {α β : Type} {P : SyntaxError → Prop}

/-- Whether all errors of a course have a property. -/
def RefusesOnly (c : Course α) (P : SyntaxError → Prop) : Prop :=
  ∀ ⦃stop ts error rest⦄, c stop ts (.error error) rest → P error.val

theorem refusesOnly_done (a : α) : (done a).RefusesOnly P := by
  rintro stop ts error rest ⟨⟨⟩, -⟩

theorem RefusesOnly.andThen {c : Course α} {d : α → Course β} (hc : c.RefusesOnly P)
    (hd : ∀ a, (d a).RefusesOnly P) : (c.andThen d).RefusesOnly P := by
  rintro stop ts error rest (⟨a, mid, -, hlast⟩ | ⟨_, hfirst, ⟨⟩⟩)
  · exact hd a hlast
  · exact hc hfirst

end Course

/-- Whether what an error expects is described without a line feed. -/
def SyntaxError.ExpectsInline : SyntaxError → Prop
  | .unexpected expected _ => '\n' ∉ expected.description.toList
  | .literalOverflow _ => True

namespace Course

theorem expectsInline_take {α : Type} {expected : Expected} {accept : Option Token → Option α}
    (h : '\n' ∉ expected.description.toList) :
    (take expected accept).RefusesOnly SyntaxError.ExpectsInline := by
  intro stop ts error rest hcourse
  obtain ⟨-, rfl, -⟩ := take_error_iff.mp hcourse
  exact h

end Course

theorem Phase.expectsInline_course (phase : Phase) :
    phase.course.RefusesOnly SyntaxError.ExpectsInline := by
  intro stop ts error rest h
  generalize hr : (Except.error error : Except (Located SyntaxError) Expr) = r at h
  rw [course] at h
  induction h with
  | literal h => cases hr
  | overflow h =>
    cases hr
    trivial
  | refused h =>
    cases hr
    show '\n' ∉ Expected.expression.description.toList
    decide
  | unary hop h ih => cases hr
  | unaryError hop h ih => exact ih hr
  | parens h ih => cases hr
  | unclosed h hrest ih =>
    cases hr
    show '\n' ∉ (Expected.token (.punctuator .closeParen)).description.toList
    decide
  | parensError h ih => exact ih hr
  | single h ih => exact ih hr
  | joined hleft h ihl ih => exact ih hr
  | joinedError h ih => exact ih hr
  | chainEnd h => cases hr
  | chainNext hop hright h ihr ih => exact ih hr
  | chainError hop h ih => exact ih hr

namespace Course

theorem expectsInline_statement : statement.RefusesOnly SyntaxError.ExpectsInline :=
  (expectsInline_take (by decide)).andThen fun _ =>
    (Phase.expectsInline_course (.tiers Tier.all)).andThen fun _ =>
      (expectsInline_take (by decide)).andThen fun _ => refusesOnly_done _

theorem expectsInline_function : function.RefusesOnly SyntaxError.ExpectsInline :=
  (expectsInline_take (by decide)).andThen fun _ =>
    (expectsInline_take (by decide)).andThen fun _ =>
      (expectsInline_take (by decide)).andThen fun _ =>
        (expectsInline_take (by decide)).andThen fun _ =>
          (expectsInline_take (by decide)).andThen fun _ =>
            expectsInline_statement.andThen fun _ =>
              (expectsInline_take (by decide)).andThen fun _ => refusesOnly_done _

/-- What is expected where a program is refused is described without a line feed. -/
theorem expectsInline_program : program.RefusesOnly SyntaxError.ExpectsInline :=
  expectsInline_function.andThen fun _ => expectsInline_take (by decide)

end Course

theorem not_mem_toString {c : Char} (hc : c.isDigit = false) (n : Nat) :
    c ∉ (toString n).toList := by
  intro hmem
  exact absurd (isDigit_of_mem_toString hmem) (by simp [hc])

private theorem Token.lineFeed_not_mem_description {t : Token} (h : '\n' ∉ t.text.toList) :
    '\n' ∉ t.description.toList := by
  cases t <;> simpa [description, text] using h

/-- The text of an error has no line feed if the token has none that it is about. -/
theorem SyntaxError.lineFeed_not_mem_message {e : SyntaxError} (he : e.ExpectsInline)
    (h : ∀ t, e.Blames (some t) → '\n' ∉ t.text.toList) : '\n' ∉ e.message.toList := by
  cases e with
  | unexpected expected found =>
    have hfound : '\n' ∉
        ((found.map Token.description).getD Expected.endOfInput.description).toList := by
      cases found with
      | none => decide
      | some t => exact Token.lineFeed_not_mem_description (h t rfl)
    have hmessage : message (.unexpected expected found) = "Expected " ++ expected.description ++
        ", found " ++ (found.map Token.description).getD Expected.endOfInput.description := rfl
    rw [hmessage]
    simp only [String.toList_append, List.mem_append, not_or]
    exact ⟨⟨⟨by decide, he⟩, by decide⟩, hfound⟩
  | literalOverflow text =>
    have htext : '\n' ∉ text.toList := h (.literal text) rfl
    have hmax : '\n' ∉ (toString Literal.intMax).toList := not_mem_toString rfl _
    unfold message
    simp only [String.toList_append, List.mem_append, not_or]
    exact ⟨⟨⟨⟨by decide, htext⟩, by decide⟩, hmax⟩, by decide⟩

/-- The rows of a text, which line feeds separate. -/
def rowsOf (text : String) : List (List Char) := text.toList.splitOn '\n'

theorem rowsOf_append (above below : String) :
    rowsOf (above ++ "\n" ++ below) = rowsOf above ++ rowsOf below := by
  simp [rowsOf, List.splitOn_append_cons_self]

theorem rowsOf_of_not_mem {text : String} (h : '\n' ∉ text.toList) :
    rowsOf text = [text.toList] := List.splitOn_eq_singleton h

theorem length_rowsOf (text : String) :
    (rowsOf text).length = text.toList.count '\n' + 1 := by
  rw [rowsOf]
  induction text.toList with
  | nil => rfl
  | cons c cs ih =>
    rw [List.splitOn_cons_eq_if_modifyHead, List.count_cons]
    split <;> simp [ih]

namespace Showing

variable {α : Type}

theorem text_of_outcome_eq {x : Showing Unit} {result : Except Fault Unit} {shown : String}
    (h : x.outcome = (result, shown)) : x.text = result.map fun _ => shown := by
  rw [text, h]

theorem outcome_of_text_eq {x : Showing Unit} {shown : String} (h : x.text = .ok shown) :
    x.outcome = (.ok (), shown) := by
  rw [text] at h
  rcases hx : x.outcome with ⟨fault | _, shown'⟩
  · simp [hx, Except.map] at h
  · simpa [hx, Except.map] using h

variable (shown : String)

theorem run_put (piece : String) :
    StateT.run (ExceptT.run (put piece)) shown = (.ok (), shown ++ piece) := rfl

theorem run_put_bind (piece : String) (f : Unit → Showing α) :
    StateT.run (ExceptT.run (put piece >>= f)) shown =
      StateT.run (ExceptT.run (f ())) (shown ++ piece) := rfl

theorem run_lift_bind (x : Except Fault α) (f : α → Showing Unit) :
    StateT.run (ExceptT.run (liftM x >>= f)) shown =
      match x with
      | .ok a => StateT.run (ExceptT.run (f a)) shown
      | .error fault => (.error fault, shown) := by
  cases x <;> rfl

end Showing

namespace Diagnostic

open Showing

/-- The row that quotes the line of a place. -/
def quotedRow (file : SourceFile) (p : Position) : String :=
  toString p.line ++ " | " ++ (file.line? p.line).getD ""

/-- The row with the caret for a place. -/
def caretRow (p : Position) : String :=
  blanks (toString p.line).length ++ " | " ++ blanks (p.column - 1) ++ "^"

/-- The rows of an error above the row with the caret, and what is below them. -/
def aboveCaret (kind : String) (file : SourceFile) (error : Located String) (below : String) :
    String :=
  kind ++ ": " ++ error.val ++ "\n" ++
    (" --> " ++ file.name ++ ":" ++ error.position.text ++ "\n" ++
      (blanks (toString error.position.line).length ++ " |" ++ "\n" ++
        (quotedRow file error.position ++ "\n" ++ below)))

section Single

variable (kind : String) (file : SourceFile) {error : Located String}

/-- An error is shown up to the blanks before the caret, and to its end if they can be laid out. -/
theorem outcome_showReport_singleton (error : Located String) :
    (showReport kind file [error]).outcome =
      match indent (error.position.column - 1) with
      | .error fault => (.error fault, aboveCaret kind file error "")
      | .ok skip => (.ok (), aboveCaret kind file error
          (blanks (toString error.position.line).length ++ " | " ++ skip ++ "^" ++ "\n" ++
            ("" ++ "\n" ++ summary 1))) := by
  have hbar : " |\n" = " |" ++ "\n" := rfl
  have hcaret : "^\n" = "^" ++ "\n" := rfl
  have hforM : [error].forM (showEntry kind file) =
      showEntry kind file error >>= fun _ => pure () := rfl
  rw [outcome, showReport, if_neg (by simp), hforM, showEntry]
  simp only [bind_assoc, run_put_bind, run_lift_bind, run_put, pure_bind, aboveCaret, quotedRow]
  cases indent (error.position.column - 1) with
  | error fault => simp only [hbar, String.append_assoc, String.empty_append, String.append_empty]
  | ok skip =>
    simp only [hbar, hcaret, String.append_assoc, String.empty_append, List.length_singleton]

/-- What is shown of the report of an error begins with its kind. -/
theorem exists_outcome_showReport_eq (error : Located String) :
    ∃ result rest, (showReport kind file [error]).outcome = (result, kind ++ ": " ++ rest) := by
  rw [outcome_showReport_singleton]
  cases indent (error.position.column - 1) <;>
    simp only [aboveCaret, String.append_assoc] <;> exact ⟨_, _, rfl⟩

/-- All of the report of an error is shown if the caret can be. -/
theorem outcome_showReport_of_le (h : error.position.column ≤ indentMax + 1) :
    (showReport kind file [error]).outcome = (.ok (), aboveCaret kind file error
      (caretRow error.position ++ "\n" ++
        ("" ++ "\n" ++ ("Build failed with 1 error" ++ "\n" ++ "")))) := by
  have hindent : indent (error.position.column - 1) = .ok (blanks (error.position.column - 1)) :=
    if_pos (by omega)
  have hsummary : summary 1 = "Build failed with 1 error" ++ "\n" ++ "" := by decide +kernel
  rw [outcome_showReport_singleton, hindent, hsummary, caretRow]

/-- Only the rows above the caret are shown of an error whose column is past the widest run of
blanks. -/
theorem outcome_showReport_of_lt (h : indentMax + 1 < error.position.column) :
    (showReport kind file [error]).outcome =
      (.error .paddingTooWide, aboveCaret kind file error "") := by
  have hindent : indent (error.position.column - 1) = .error .paddingTooWide := if_neg (by omega)
  rw [outcome_showReport_singleton, hindent]

end Single
theorem lineFeed_not_mem_blanks (width : Nat) : '\n' ∉ (blanks width).toList := by
  simp [blanks]

private theorem lineFeed_not_mem_quotedRow (file : SourceFile) (p : Position) :
    '\n' ∉ (quotedRow file p).toList := by
  have hline : '\n' ∉ ((file.line? p.line).getD "").toList := by
    cases hline : file.line? p.line with
    | none => simp
    | some line => exact SourceFile.lineFeed_not_mem_line? hline
  simp only [quotedRow, String.toList_append, List.mem_append, not_or]
  exact ⟨⟨not_mem_toString rfl _, by decide⟩, hline⟩

private theorem lineFeed_not_mem_caretRow (p : Position) : '\n' ∉ (caretRow p).toList := by
  simp only [caretRow, String.toList_append, List.mem_append, not_or]
  exact ⟨⟨⟨lineFeed_not_mem_blanks _, by decide⟩, lineFeed_not_mem_blanks _⟩, by decide⟩

/-- A report of one error whose text has no line feed ends with the row that quotes a line, the row
with the caret, an empty row and the number of errors. The rows above these are three, and as many
more as there are line feeds in the kind of error and in the name of the file. -/
theorem exists_rowsOf_report (kind : String) (file : SourceFile) {error : Located String}
    (h : error.position.column ≤ indentMax + 1) (hval : '\n' ∉ error.val.toList) :
    ∃ text above, report kind file [error] = .ok text ∧
      rowsOf text = above ++ [(quotedRow file error.position).toList,
        (caretRow error.position).toList, [], "Build failed with 1 error".toList, []] ∧
      above.length = 3 + kind.toList.count '\n' + file.name.toList.count '\n' := by
  let heading := kind ++ ": " ++ error.val
  let place := " --> " ++ file.name ++ ":" ++ error.position.text
  let margin := blanks (toString error.position.line).length ++ " |"
  refine ⟨_, rowsOf heading ++ (rowsOf place ++ rowsOf margin), text_of_outcome_eq
    (outcome_showReport_of_le kind file h), ?_, ?_⟩
  · have hsummary : '\n' ∉ "Build failed with 1 error".toList := by decide
    simp only [aboveCaret, rowsOf_append, List.append_assoc, rowsOf_of_not_mem hsummary,
      rowsOf_of_not_mem (lineFeed_not_mem_quotedRow file error.position),
      rowsOf_of_not_mem (lineFeed_not_mem_caretRow error.position)]
    rfl
  · have hheading : heading.toList.count '\n' = kind.toList.count '\n' := by
      have hcolon : ": ".toList.count '\n' = 0 := by decide
      simp only [heading, String.toList_append, List.count_append, List.count_eq_zero.mpr hval,
        hcolon, Nat.add_zero]
    have hplace : place.toList.count '\n' = file.name.toList.count '\n' := by
      have harrow : " --> ".toList.count '\n' = 0 := by decide
      have hcolon : ":".toList.count '\n' = 0 := by decide
      have hnumber (n : Nat) : (toString n).toList.count '\n' = 0 :=
        List.count_eq_zero.mpr (not_mem_toString rfl n)
      simp only [place, Position.text, String.toList_append, List.count_append, harrow, hcolon,
        hnumber, Nat.add_zero, Nat.zero_add]
    have hmargin : margin.toList.count '\n' = 0 := by
      have hbar : " |".toList.count '\n' = 0 := by decide
      simp only [margin, String.toList_append, List.count_append,
        List.count_eq_zero.mpr (lineFeed_not_mem_blanks _), hbar, Nat.add_zero]
    simp only [List.length_append, length_rowsOf, hheading, hplace, hmargin]
    omega

theorem idxOf?_append_cons {c : Char} {u : List Char} (h : c ∉ u) (v : List Char) :
    (u ++ c :: v).idxOf? c = some u.length := by
  induction u with
  | nil => simp [List.idxOf?_cons]
  | cons d u ih =>
    rw [List.mem_cons, not_or] at h
    rw [List.cons_append, List.idxOf?_cons, ih h.2, if_neg (by simpa using Ne.symm h.1)]
    rfl

/-- The column of the bars. -/
def bar (p : Position) : Nat := (toString p.line).length + 1

/-- The row that quotes a line has the number of the line before its bar. -/
theorem exists_gutter (file : SourceFile) (p : Position) :
    ∃ gutter, gutter.length = bar p ∧ '|' ∉ gutter ∧
      (quotedRow file p).toList =
        gutter ++ '|' :: ' ' :: ((file.line? p.line).getD "").toList := by
  refine ⟨(toString p.line).toList ++ [' '], ?_, ?_, by simp [quotedRow]⟩
  · rw [List.length_append, String.length_toList]
    rfl
  · rw [List.mem_append, not_or]
    exact ⟨not_mem_toString rfl _, by decide⟩

private theorem idxOf?_bar_quotedRow (file : SourceFile) (p : Position) :
    (quotedRow file p).toList.idxOf? '|' = some (bar p) := by
  obtain ⟨gutter, hlength, hbar, hrow⟩ := exists_gutter file p
  rw [hrow, idxOf?_append_cons hbar, hlength]

theorem drop_quotedRow (file : SourceFile) (p : Position) :
    (quotedRow file p).toList.drop (bar p + 2) = ((file.line? p.line).getD "").toList := by
  obtain ⟨gutter, hlength, -, hrow⟩ := exists_gutter file p
  rw [hrow, ← List.drop_drop, List.drop_left' hlength]
  rfl

private theorem length_quotedRow (file : SourceFile) (p : Position) :
    (quotedRow file p).toList.length =
      bar p + 2 + ((file.line? p.line).getD "").toList.length := by
  obtain ⟨gutter, hlength, -, hrow⟩ := exists_gutter file p
  rw [hrow, List.length_append, hlength, List.length_cons, List.length_cons]
  omega

theorem toList_caretRow (p : Position) :
    (caretRow p).toList = (List.replicate (toString p.line).length ' ' ++ [' ']) ++ '|' :: ' ' ::
      (List.replicate (p.column - 1) ' ' ++ ['^']) := by
  simp [caretRow, blanks]

private theorem idxOf?_bar_caretRow (p : Position) :
    (caretRow p).toList.idxOf? '|' = some (bar p) := by
  rw [toList_caretRow, idxOf?_append_cons (by simp)]
  simp [bar]

private theorem idxOf?_caret_caretRow (p : Position) :
    (caretRow p).toList.idxOf? '^' = some (bar p + 2 + (p.column - 1)) := by
  have hlist : (caretRow p).toList = (List.replicate (toString p.line).length ' ' ++
      [' ', '|', ' '] ++ List.replicate (p.column - 1) ' ') ++ '^' :: [] := by
    simp [toList_caretRow]
  rw [hlist, idxOf?_append_cons (by simp), Option.some.injEq]
  simp only [List.length_append, List.length_replicate, List.length_cons, List.length_nil, bar]

end Diagnostic

/-- The error of a text that is refused says in one row what it expects. It is about a token of the
text and lies at its place, or it is about the end of the text and lies there. -/
theorem exists_blamed_of_parseText_eq {text : String} (h : text.length < 4294967295)
    {error : Located SyntaxError} {log : Array Log.Record}
    (hparse : parseText text = .ok (.error error, log)) :
    ∃ ts stop, tokenize text = .ok (ts, stop) ∧ error.val.ExpectsInline ∧
      ((∃ t, ⟨t, error.position⟩ ∈ ts ∧ error.val.Blames (some t)) ∨
        error.position = .behind text.toList ∧ error.val.Blames none) := by
  obtain ⟨ts, stop, htokens, hholds⟩ := Lexer.exists_holds_ofText h
  obtain ⟨r, rest, hcourse⟩ := Course.total_program stop ts
  obtain ⟨log', hparse'⟩ := exists_parseText_of_course hholds hcourse
  cases hparse'.symm.trans hparse
  refine ⟨ts, stop, htokens, Course.expectsInline_program hcourse, ?_⟩
  obtain ⟨us, vs, decision, rfl, hending, hdecided⟩ := Course.predictive_program hcourse
  cases hending with
  | refused e =>
    have hblames := hdecided.blames e rfl
    cases vs with
    | nil => exact Or.inr ⟨stop_eq_of_tokenize_eq htokens, hblames⟩
    | cons t vs => exact Or.inl ⟨t.val, List.mem_append_right us List.mem_cons_self, hblames⟩

namespace Diagnostic

/-- What stands at an index of the row that quotes a line, if the line begins at another index of
this row. -/
inductive PointsAt (file : SourceFile) (error : Located SyntaxError) (quoted : List Char)
    (first place : Nat) : Prop
  /-- The token that the error is about, in full, behind what stands before it in the text. -/
  | token {ts : List (Located Token)} {stop : Position} {t : Token} {before more : List Char}
    (htokens : tokenize file.text = .ok (ts, stop)) (hmem : ⟨t, error.position⟩ ∈ ts)
    (hblames : error.val.Blames (some t))
    (htext : file.text.toList = before ++ (t.text.toList ++ more))
    (hposition : error.position = .behind before)
    (hbefore : openLine before <+: quoted.drop first)
    (hplace : place = first + (openLine before).length)
    (htoken : t.text.toList <+: quoted.drop place)
  /-- Nothing, behind the line that the text leaves open. -/
  | ending (hblames : error.val.Blames none) (hposition : error.position = .behind file.text.toList)
    (hline : quoted.drop first = openLine file.text.toList) (hplace : place = quoted.length)

/-- In the row that quotes the line of a syntax error, the error's column points at what the error
is about. -/
theorem pointsAt_column {file : SourceFile} (h : file.text.length < 4294967295)
    {error : Located SyntaxError} {log : Array Log.Record}
    (hparse : parseText file.text = .ok (.error error, log)) :
    PointsAt file error (quotedRow file error.position).toList (bar error.position + 2)
      (bar error.position + 2 + (error.position.column - 1)) := by
  obtain ⟨ts, stop, htokens, -, ⟨t, hmem, hblames⟩ | ⟨hposition, hblames⟩⟩ :=
    exists_blamed_of_parseText_eq h hparse
  · obtain ⟨before, more, line, rest, htext, hposition, hline, hrest⟩ :=
      SourceFile.exists_line?_of_mem_tokens htokens hmem
    have hcolumn : error.position.column - 1 = (openLine before).length := by
      rw [show error.position = _ from hposition, Position.column_behind, Nat.add_sub_cancel]
    have hdrop : (quotedRow file error.position).toList.drop (bar error.position + 2) =
        openLine before ++ (t.text.toList ++ rest) := by
      rw [drop_quotedRow, hline]
      exact hrest
    refine .token htokens hmem hblames htext hposition ?_ (by rw [hcolumn]) ?_
    · rw [hdrop]
      exact List.prefix_append _ _
    · rw [← List.drop_drop, hdrop, hcolumn, List.drop_left]
      exact List.prefix_append _ _
  · have hline : ((file.line? error.position.line).getD "").toList =
        openLine file.text.toList := by
      rw [hposition, file.line?_behind_text]
      split
      · next hempty => simp [hempty]
      · simp
    refine .ending hblames hposition (by rw [drop_quotedRow, hline]) ?_
    rw [length_quotedRow, hline, hposition, Position.column_behind, Nat.add_sub_cancel]

/-- A syntax error in a text that is short enough has a report exactly if its column is not past the
widest run of blanks. The row that quotes the line of the error and the row with the caret are then
the fourth and the fifth, if the kind of error and the name of the file are of one row, and in any
case the last ones but for an empty row and the number of errors. Their bars stand under each other,
the quoted line begins behind the bar and a blank, and the caret stands under what the error is
about. -/
theorem caret_stands_under_error (kind : String) {file : SourceFile}
    (h : file.text.length < 4294967295) {error : Located SyntaxError} {log : Array Log.Record}
    (hparse : parseText file.text = .ok (.error error, log)) :
    (65535 < error.position.column - 1 ∧
        report kind file [error.map SyntaxError.message] = .error .paddingTooWide) ∨
      (error.position.column - 1 ≤ 65535 ∧ ∃ text above quoted caret bar place,
        report kind file [error.map SyntaxError.message] = .ok text ∧
        rowsOf text = above ++ [quoted, caret, [], "Build failed with 1 error".toList, []] ∧
        above.length = 3 + kind.toList.count '\n' + file.name.toList.count '\n' ∧
        quoted.idxOf? '|' = some bar ∧ caret.idxOf? '|' = some bar ∧
        caret.idxOf? '^' = some place ∧ PointsAt file error quoted (bar + 2) place) := by
  by_cases hcolumn : error.position.column - 1 ≤ 65535
  · have hmessage : '\n' ∉ error.val.message.toList := by
      obtain ⟨ts, stop, htokens, hinline, hblamed⟩ := exists_blamed_of_parseText_eq h hparse
      refine SyntaxError.lineFeed_not_mem_message hinline fun t ht => ?_
      obtain ⟨t', hmem, hblames⟩ | ⟨-, hblames⟩ := hblamed
      · cases ht.unique hblames
        intro hfeed
        have hblank := Token.isBlank_eq_false_of_mem_text
          (exists_behind_of_mem_tokens htokens hmem).1 hfeed
        exact absurd hblank (by decide)
      · cases ht.unique hblames
    have hmapped : (error.map SyntaxError.message).position.column ≤ indentMax + 1 :=
      Nat.sub_le_iff_le_add.mp hcolumn
    obtain ⟨text, above, hreport, hrows, habove⟩ := exists_rowsOf_report kind file hmapped hmessage
    exact Or.inr ⟨hcolumn, text, above, _, _, _, _, hreport, hrows, habove,
      idxOf?_bar_quotedRow file error.position, idxOf?_bar_caretRow error.position,
      idxOf?_caret_caretRow error.position, pointsAt_column h hparse⟩
  · have hwide : indentMax + 1 < (error.map SyntaxError.message).position.column := by
      simp only [Located.map, indentMax]
      omega
    exact Or.inl ⟨Nat.lt_of_not_le hcolumn,
      Showing.text_of_outcome_eq (outcome_showReport_of_lt kind file hwide)⟩

/-- A literal without a value behind a tabulator on the tenth line of a text. -/
theorem caret_stands_under_error_of_octal :
    let file : SourceFile := ⟨"a.c", "int f()\r\n\n\n\n\n\n\n\n\n\t\x7b return 08; \x7d"⟩
    let error : Located SyntaxError := ⟨.literalOverflow "08", ⟨10, 11⟩⟩
    let quoted := "10 | \t\x7b return 08; \x7d".toList
    let caret := "   |           ^".toList
    file.text.length < 4294967295 ∧ (parseText file.text).map Prod.fst = .ok (.error error) ∧
      ∃ text, report "error" file [error.map SyntaxError.message] = .ok text ∧
        (rowsOf text)[3]? = some quoted ∧ (rowsOf text)[4]? = some caret ∧
        quoted.idxOf? '|' = some 3 ∧ caret.idxOf? '|' = some 3 ∧ caret.idxOf? '^' = some 15 ∧
        PointsAt file error quoted 5 15 := by
  intro file error quoted caret
  have hlength : file.text.length < 4294967295 := by decide
  have hresult : (parseText file.text).map Prod.fst = .ok (.error error) := by decide +kernel
  have hrows : (report "error" file [error.map SyntaxError.message]).map (fun text =>
      ((rowsOf text)[3]?, (rowsOf text)[4]?)) = .ok (some quoted, some caret) := by decide +kernel
  refine ⟨hlength, hresult, ?_⟩
  cases hparse : parseText file.text with
  | error fault =>
    rw [hparse] at hresult
    cases hresult
  | ok found =>
    obtain ⟨result, log⟩ := found
    rw [hparse] at hresult
    cases hresult
    obtain ⟨hwide, -⟩ | ⟨-, text, above, quoted', caret', bar, place, hreport, hrows', habove,
      hbar, hbar', hplace, hpoints⟩ := caret_stands_under_error "error" hlength hparse
    · exact absurd hwide (by decide)
    · have hlength : above.length = 3 := habove.trans (by decide)
      rw [hreport] at hrows
      obtain ⟨hquoted, hcaret⟩ := Prod.ext_iff.mp (Except.ok.inj hrows)
      have hquoted' : (rowsOf text)[3]? = some quoted' := by
        rw [hrows', List.getElem?_append_right (by omega), hlength]
        rfl
      have hcaret' : (rowsOf text)[4]? = some caret' := by
        rw [hrows', List.getElem?_append_right (by omega), hlength]
        rfl
      cases hquoted.symm.trans hquoted'
      cases hcaret.symm.trans hcaret'
      have hthree : quoted.idxOf? '|' = some 3 := by decide
      have hfifteen : caret.idxOf? '^' = some 15 := by decide
      cases hthree.symm.trans hbar
      cases hfifteen.symm.trans hplace
      exact ⟨text, hreport, hquoted, hcaret, hbar, hbar', hplace, hpoints⟩

end Diagnostic

end MiniC
