import MiniC.Proofs.Parse.Refusal
import MiniC.Proofs.Token.Observation

/-!
# Interchangeable sources

A lexer and a buffer of its tokens cannot be told apart by asking for tokens and looking at them,
except for where they stand without a current token. So parsing from the one and from the other
gives the same trees and the same errors, also after an error, and only an error about the end of
the input lies where the source has its end.
-/

namespace MiniC

namespace Reader

variable {σ τ α β γ : Type} {Related : Reader σ → Reader τ → Prop} {Agree : β → γ → Prop}

/-- From readers that are related, two uses come to an end, with results that agree and readers that
are related again. -/
def Matches (Related : Reader σ → Reader τ → Prop) (Agree : β → γ → Prop) (x : ReadM σ β)
    (y : ReadM τ γ) : Prop :=
  ∀ ⦃reader other⦄, Related reader other → ∃ b reader' c other',
    StateT.run x reader = .ok (b, reader') ∧ StateT.run y other = .ok (c, other') ∧
      Agree b c ∧ Related reader' other'

/-- What matches step by step matches as a whole. -/
theorem Matches.mapM {f : α → ReadM σ β} {g : α → ReadM τ γ}
    (h : ∀ a, Matches Related Agree (f a) (g a)) (as : List α) :
    Matches Related (List.Forall₂ Agree) (as.mapM f) (as.mapM g) := by
  induction as with
  | nil => exact fun reader other hrelated => ⟨[], reader, [], other, rfl, rfl, .nil, hrelated⟩
  | cons a as ih =>
    intro reader other hrelated
    obtain ⟨b, between, c, between', hb, hc, hagree, hbetween⟩ := h a hrelated
    obtain ⟨bs, last, cs, last', hbs, hcs, hagrees, hlast⟩ := ih hbetween
    refine ⟨b :: bs, last, c :: cs, last', ?_, ?_, .cons hagree hagrees, hlast⟩
    · rw [List.mapM_cons, run_bind_eq hb, run_bind_eq hbs]
      rfl
    · rw [List.mapM_cons, run_bind_eq hc, run_bind_eq hcs]
      rfl

/-- Whether two observations agree in their tokens, and in the place of a current token. -/
structure Observation.Agrees (seen seen' : Observation) : Prop where
  answer : seen.answer = seen'.answer
  current : seen.current = seen'.current
  position : seen.current.isSome → seen.position = seen'.position

/-- What a call shows depends on the source only without a current token. -/
theorem Call.agrees_shows (ts : List (Located Token)) (first stop first' stop' : Position)
    (count : Nat) (c : Call) :
    (c.shows ts first stop count).Agrees (c.shows ts first' stop' count) := by
  refine ⟨rfl, rfl, fun hcurrent => ?_⟩
  cases hafter : c.after count with
  | zero => simp [shows, hafter, handed] at hcurrent
  | succ count' =>
    obtain ⟨t, ht⟩ := Option.isSome_iff_exists.mp hcurrent
    simp only [shows, hafter, handed] at ht
    simp [shows, hafter, standing, ht]

end Reader

namespace Parse.Goal

/-- The course of parsing what is asked for. -/
def course : Goal → Course Tree
  | .program => Course.program.andThen fun p => .done (.program p)
  | .function => Course.function.andThen fun f => .done (.function f)
  | .statement => Course.statement.andThen fun s => .done (.statement s)
  | .expr => Course.expr.andThen fun e => .done (.expr e)

theorem total_course (goal : Goal) : goal.course.Total := by
  cases goal with
  | program => exact Course.total_program.andThen fun _ => Course.total_done _
  | function => exact Course.total_function.andThen fun _ => Course.total_done _
  | statement => exact Course.total_statement.andThen fun _ => Course.total_done _
  | expr => exact Course.total_expr.andThen fun _ => Course.total_done _

theorem predictive_course (goal : Goal) : goal.course.Predictive := by
  cases goal with
  | program => exact Course.predictive_program.andThen fun _ => Course.predictive_done _
  | function => exact Course.predictive_function.andThen fun _ => Course.predictive_done _
  | statement => exact Course.predictive_statement.andThen fun _ => Course.predictive_done _
  | expr =>
    exact (Phase.predictive_course (.tiers Tier.all)).andThen fun _ => Course.predictive_done _

theorem performs_tree {σ : Type} [TokenSource σ] (S : Supply σ) (goal : Goal) :
    S.Performs (tree goal) goal.course := by
  cases goal with
  | program => exact S.performs_program.bind fun _ => Supply.performs_pure _
  | function => exact S.performs_function.bind fun _ => Supply.performs_pure _
  | statement => exact S.performs_statement.bind fun _ => Supply.performs_pure _
  | expr => exact S.performs_expr.bind fun _ => Supply.performs_pure _

end Parse.Goal

namespace Supply

variable {σ τ : Type} [TokenSource σ] [TokenSource τ] {S : Supply σ} {T : Supply τ}

/-- Calls of sources with the same tokens show the same, up to where these stand without a current
token. -/
theorem matches_calls {record? record'? : Located Token → Option Log.Record}
    (hσ : TokenSource.Steady σ record?) (hτ : TokenSource.Steady τ record'?)
    (ts : List (Located Token)) (first stop first' stop' : Position) (cs : List Reader.Call) :
    Reader.Matches
      (fun reader other => ∃ count, S.Follows record? ts first stop count reader ∧
        T.Follows record'? ts first' stop' count other)
      (List.Forall₂ Reader.Observation.Agrees) (Reader.calls cs) (Reader.calls cs) := by
  refine Reader.Matches.mapM (fun c => ?_) cs
  rintro reader other ⟨count, h, h'⟩
  obtain ⟨last, hrun, hlast⟩ := h.exists_run_call hσ c
  obtain ⟨last', hrun', hlast'⟩ := h'.exists_run_call hτ c
  exact ⟨_, last, _, last', hrun, hrun', c.agrees_shows ts first stop first' stop' count,
    c.after count, hlast, hlast'⟩

/-- Parses of sources with the same tokens, one after the other, give corresponding results. -/
theorem matches_inTurn (all : List (Located Token)) (stop stop' : Position)
    (goals : List Parse.Goal) :
    Reader.Matches
      (fun reader other => ∃ ts, ts <:+ all ∧ S.Holds reader.source ts stop ∧
        T.Holds other.source ts stop')
      (List.Forall₂ (Parse.Corresponds all all stop stop')) (Parse.inTurn goals)
      (Parse.inTurn goals) := by
  refine Reader.Matches.mapM (fun goal => ?_) goals
  rintro reader other ⟨ts, hts, h, h'⟩
  obtain ⟨r, rest, hcourse⟩ := goal.total_course stop ts
  obtain ⟨r', hcourse', hrest, hcorresponds⟩ :=
    goal.predictive_course.exists_corresponds_of_stop hcourse stop'
  obtain ⟨last, hrun, hholds⟩ := goal.performs_tree S hcourse reader h
  obtain ⟨last', hrun', hholds'⟩ := goal.performs_tree T hcourse' other h'
  exact ⟨r, last, r', last', hrun, hrun', hcorresponds.of_isSuffix hts, rest, hrest.trans hts,
    hholds, hholds'⟩

end Supply

/-- There is a column behind the first character of a token that was scanned. -/
theorem Cursor.advance_position_of_scan_eq {c c' : Cursor} {t : Located Token}
    (h : c.scan = .ok (some t, c')) :
    t.position.advance = .ok ⟨t.position.line, t.position.column + 1⟩ := by
  obtain ⟨p, -, ⟨-, hfound, -⟩ | ⟨token, rest, p', hfirst, hpast, hfound, -⟩⟩ := scan_cases h
  · cases hfound
  · cases hfound
    obtain ⟨b, bs, htext, hb⟩ :=
      Token.exists_cons_of_isSpelled (Token.isSpelled_of_first?_eq hfirst)
    have hline : b ≠ '\n' := by
      rintro rfl
      exact absurd hb (by decide)
    rw [htext, Position.past, List.foldlM_cons] at hpast
    cases hafter : p.after b with
    | error fault => simp [hafter, bind, Except.bind] at hpast
    | ok q =>
      have hq := Position.eq_of_after_eq hafter
      rw [if_neg hline] at hq
      rw [Position.after, if_neg hline, hq] at hafter
      exact hafter

theorem Cursor.advance_position_of_mem {c : Cursor} {ts : List (Located Token)} {stop : Position}
    (h : c.tokens = .ok (ts, stop)) {t : Located Token} (ht : t ∈ ts) :
    t.position.advance = .ok ⟨t.position.line, t.position.column + 1⟩ := by
  induction ts generalizing c with
  | nil => cases ht
  | cons first ts ih =>
    obtain ⟨c', -, hnil, -⟩ | ⟨t', c', rest, hscan, htokens, heq⟩ := tokens_eq_ok_iff.mp h
    · cases hnil
    · cases heq
      rcases List.mem_cons.mp ht with rfl | ht
      · exact advance_position_of_scan_eq hscan
      · exact ih htokens ht

namespace TokenBuffer

theorem steady : TokenSource.Steady TokenBuffer fun _ => none where
  current_peek h := by
    cases h
    rfl
  position_peek h := by
    cases h
    rfl
  notice?_eq b := by cases hcurrent : TokenSource.current b <;> rfl

/-- Where a buffer of tokens ends: one column behind the last of them. -/
def endOf (ts : List (Located Token)) : Position :=
  match ts.getLast? with
  | some last => ⟨last.position.line, last.position.column + 1⟩
  | none => ⟨1, 1⟩

/-- The tokens of a text can be put in a buffer. -/
theorem ofLocated_eq_of_tokens_eq {c : Cursor} {ts : List (Located Token)} {stop : Position}
    (h : c.tokens = .ok (ts, stop)) : ofLocated ts = .ok { rest := ts, stop := endOf ts } := by
  unfold ofLocated endOf
  cases hlast : ts.getLast? with
  | none => rfl
  | some last =>
    simp only [Cursor.advance_position_of_mem h (List.mem_of_getLast? hlast)]
    rfl

/-- A buffer of some tokens has shown none of them. -/
theorem follows_of_rest (ts : List (Located Token)) (stop : Position) :
    supply.Follows (fun _ => none) ts stop stop 0 { source := { rest := ts, stop } } :=
  ⟨⟨rfl, rfl⟩, rfl, rfl, rfl⟩

end TokenBuffer

/-- A lexer over a text that is short enough and the buffer of the tokens it hands out are
interchangeable. Calls show the same tokens, at the same places. Parses one after the other give the
same trees and the same errors, at the same tokens, but an error about the end of the input lies at
the end of the text or of the buffer. -/
theorem Lexer.interchangeable_with_buffer {text : String} (h : text.length < 4294967295) :
    ∃ ts stop b, tokenize text = .ok (ts, stop) ∧ Reader.HandsOut (ofText text) ts stop ∧
      TokenBuffer.ofLocated ts = .ok b ∧ stop = .behind text.toList ∧
      b.stop = TokenBuffer.endOf ts ∧
      (∀ cs : List Reader.Call, ∃ seen reader seen' reader',
        StateT.run (Reader.calls cs) { source := ofText text } = .ok (seen, reader) ∧
        StateT.run (Reader.calls cs) { source := b } = .ok (seen', reader') ∧
        List.Forall₂ Reader.Observation.Agrees seen seen') ∧
      ∀ goals : List Parse.Goal, ∃ results reader results' reader',
        StateT.run (Parse.inTurn goals) { source := ofText text } = .ok (results, reader) ∧
        StateT.run (Parse.inTurn goals) { source := b } = .ok (results', reader') ∧
        List.Forall₂ (Parse.Corresponds ts ts stop b.stop) results results' := by
  obtain ⟨ts, stop, htokens, hholds⟩ := exists_holds_ofText h
  have hlexer := follows_ofText hholds
  have hbuffer := TokenBuffer.follows_of_rest ts (TokenBuffer.endOf ts)
  refine ⟨ts, stop, { rest := ts, stop := TokenBuffer.endOf ts }, htokens, handsOut_ofText hholds,
    TokenBuffer.ofLocated_eq_of_tokens_eq htokens, stop_eq_of_tokenize_eq htokens, rfl,
    fun cs => ?_, fun goals => ?_⟩
  · obtain ⟨seen, reader, seen', reader', hrun, hrun', hagree, -⟩ :=
      Supply.matches_calls steady TokenBuffer.steady ts _ _ _ _ cs ⟨0, hlexer, hbuffer⟩
    exact ⟨seen, reader, seen', reader', hrun, hrun', hagree⟩
  · obtain ⟨results, reader, results', reader', hrun, hrun', hcorrespond, -⟩ :=
      Supply.matches_inTurn ts stop _ goals ⟨ts, List.suffix_rfl, hlexer.holds, hbuffer.holds⟩
    exact ⟨results, reader, results', reader', hrun, hrun', hcorrespond⟩

/-- An expression, a refused token, and an operand that is missed at the end, which is on a line of
its own in the text. -/
theorem Lexer.interchangeable_with_buffer_of_missing_operand :
    let ts : List (Located Token) := [⟨.literal "1", ⟨1, 1⟩⟩, ⟨.punctuator .closeParen, ⟨1, 3⟩⟩,
      ⟨.literal "2", ⟨1, 5⟩⟩, ⟨.punctuator .plus, ⟨1, 7⟩⟩]
    let b : TokenBuffer := { rest := ts, stop := ⟨1, 8⟩ }
    let first : Except (Located SyntaxError) Parse.Tree := .ok (.expr (.integer 1))
    let second : Except (Located SyntaxError) Parse.Tree := .error ⟨.unexpected
      (.token (.keyword .ret)) (some (.punctuator .closeParen)), ⟨1, 3⟩⟩
    let third (stop : Position) : Except (Located SyntaxError) Parse.Tree :=
      .error ⟨.unexpected .expression none, stop⟩
    "1 ) 2 +\n".length < 4294967295 ∧ TokenBuffer.ofLocated ts = .ok b ∧ ∃ reader reader',
      StateT.run (Parse.inTurn [.expr, .statement, .expr]) { source := ofText "1 ) 2 +\n" } =
        .ok ([first, second, third ⟨2, 1⟩], reader) ∧
      StateT.run (Parse.inTurn [.expr, .statement, .expr]) { source := b } =
        .ok ([first, second, third ⟨1, 8⟩], reader') ∧
      List.Forall₂ (Parse.Corresponds ts ts ⟨2, 1⟩ ⟨1, 8⟩) [first, second, third ⟨2, 1⟩]
        [first, second, third ⟨1, 8⟩] := by
  intro ts b first second third
  have hlength : "1 ) 2 +\n".length < 4294967295 := by decide
  have htokens : tokenize "1 ) 2 +\n" = .ok (ts, ⟨2, 1⟩) := by
    refine Cursor.tokens_eq_ok_iff.mpr (Or.inr ⟨_, _, _, rfl, ?_, rfl⟩)
    refine Cursor.tokens_eq_ok_iff.mpr (Or.inr ⟨_, _, _, rfl, ?_, rfl⟩)
    refine Cursor.tokens_eq_ok_iff.mpr (Or.inr ⟨_, _, _, rfl, ?_, rfl⟩)
    refine Cursor.tokens_eq_ok_iff.mpr (Or.inr ⟨_, _, _, rfl, ?_, rfl⟩)
    exact Cursor.tokens_eq_ok_iff.mpr (Or.inl ⟨_, rfl, rfl, rfl⟩)
  have hb : TokenBuffer.ofLocated ts = .ok b := rfl
  obtain ⟨ts', stop, b', htokens', -, hb', -, -, -, hparses⟩ :=
    interchangeable_with_buffer hlength
  cases htokens.symm.trans htokens'
  cases hb.symm.trans hb'
  obtain ⟨results, reader, results', reader', hrun, hrun', hcorrespond⟩ :=
    hparses [.expr, .statement, .expr]
  have hresults : (StateT.run (Parse.inTurn [.expr, .statement, .expr])
      { source := ofText "1 ) 2 +\n" }).map Prod.fst = .ok [first, second, third ⟨2, 1⟩] := by
    decide +kernel
  have hresults' : (StateT.run (Parse.inTurn [.expr, .statement, .expr]) { source := b }).map
      Prod.fst = .ok [first, second, third ⟨1, 8⟩] := by decide +kernel
  rw [hrun] at hresults
  rw [hrun'] at hresults'
  cases hresults
  cases hresults'
  exact ⟨hlength, hb, reader, reader', hrun, hrun', hcorrespond⟩

end MiniC
