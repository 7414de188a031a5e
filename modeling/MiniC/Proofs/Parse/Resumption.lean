import MiniC.Proofs.Parse.Interchange

/-!
# Resumption

Each thing that can be parsed on its own takes the tokens of the tree it gives and leaves all
others, or takes the tokens up to the one that it refuses. What a parse does depends on the tokens
left and on where they end, and on nothing else of what was done before. So parses one after the
other give what parsers of their own give that begin with the tokens left, unless none is left: a
buffer that is made of no tokens does not know where the others ended.
-/

namespace MiniC

open Grammar

/-- The punctuators that join two operands. -/
def Grammar.binaryOperators : List Punctuator :=
  [.orOr, .andAnd, .equalEqual, .bangEqual, .less, .greater, .lessEqual, .greaterEqual, .plus,
    .minus, .star, .slash]

/-- An operator of some tier is a binary operator. -/
theorem ends_all_iff {ts : List (Located Token)} :
    Ends Tier.all ts ↔ ∀ p ∈ binaryOperators, front ts ≠ some (.punctuator p) := by
  constructor
  · intro h p hp hfront
    have hall : ∀ q ∈ binaryOperators,
        ∃ tier ∈ Tier.all, tier.operator? (some (.punctuator q)) ≠ none := by decide
    obtain ⟨tier, htier, hne⟩ := hall p hp
    apply hne
    rw [← hfront]
    exact h tier htier
  · intro h tier htier
    by_contra hsome
    obtain ⟨op, hop⟩ := Option.ne_none_iff_exists'.mp hsome
    cases hfront : front ts with
    | none => simp [hfront, Tier.operator?] at hop
    | some t =>
      cases t with
      | punctuator p =>
        have hall : ∀ tier ∈ Tier.all, ∀ q ∈ tier, q.1 ∈ binaryOperators := by decide
        rw [hfront] at hop
        obtain ⟨before, after, heq, -⟩ := List.lookup_eq_some_iff.mp hop
        exact h p (hall tier htier (p, op) (by simp [heq])) hfront
      | _ => simp [hfront, Tier.operator?] at hop

/-- An expression has a token. -/
theorem Grammar.Derives.ne_nil {level : Level} {u : List Token} {e : Expr}
    (h : Grammar.Derives level u e) : u ≠ [] := by
  induction h with
  | operand hnext h ih => exact ih
  | binary hnext hop hleft hright ihleft ihright => simp
  | parens h ih => simp
  | unary hop h ih => simp
  | integer h hn => simp

theorem Grammar.DerivesFunction.ne_nil {u : List Token} {f : FunctionDef}
    (h : DerivesFunction u f) : u ≠ [] := by
  cases h with
  | function h => simp

namespace Parse

namespace Goal

/-- Tokens that are what is asked for, and its tree. -/
inductive Derives : Goal → List Token → Tree → Prop
  | program {u : List Token} {p : Program} (h : DerivesProgram u p) :
    Derives .program u (.program p)
  | function {u : List Token} {f : FunctionDef} (h : DerivesFunction u f) :
    Derives .function u (.function f)
  | statement {u : List Token} {s : Statement} (h : DerivesStatement u s) :
    Derives .statement u (.statement s)
  | expr {u : List Token} {e : Expr} (h : Grammar.Derives .logicalOr u e) :
    Derives .expr u (.expr e)

/-- What may follow the tokens of what is asked for: nothing follows a program, and no binary
operator follows an expression. -/
def EndsBefore (goal : Goal) (rest : List (Located Token)) : Prop :=
  match goal with
  | .program => rest = []
  | .function => True
  | .statement => True
  | .expr => ∀ p ∈ binaryOperators, front rest ≠ some (.punctuator p)

variable {goal : Goal} {stop : Position} {ts rest : List (Located Token)} {tree : Tree}

/-- Exactly what the grammar derives is accepted, before what may follow it. -/
theorem course_ok_iff : goal.course stop ts (.ok tree) rest ↔
    ∃ us, ts = us ++ rest ∧ goal.Derives (us.map Located.val) tree ∧ goal.EndsBefore rest := by
  cases goal with
  | program =>
    simp only [course, Course.andThen_ok_iff, Course.program_ok_iff, Course.done_ok_iff]
    constructor
    · rintro ⟨p, _, ⟨hp, rfl⟩, rfl, rfl⟩
      exact ⟨ts, by simp, .program hp, rfl⟩
    · rintro ⟨us, rfl, hderives, rfl⟩
      cases hderives with
      | program hp => exact ⟨_, [], ⟨by simpa using hp, rfl⟩, rfl, rfl⟩
  | function =>
    simp only [course, Course.andThen_ok_iff, Course.function_ok_iff, Course.done_ok_iff]
    constructor
    · rintro ⟨f, _, ⟨us, rfl, hf⟩, rfl, rfl⟩
      exact ⟨us, rfl, .function hf, trivial⟩
    · rintro ⟨us, rfl, hderives, -⟩
      cases hderives with
      | function hf => exact ⟨_, rest, ⟨us, rfl, hf⟩, rfl, rfl⟩
  | statement =>
    simp only [course, Course.andThen_ok_iff, Course.statement_ok_iff, Course.done_ok_iff]
    constructor
    · rintro ⟨s, _, ⟨us, rfl, hs⟩, rfl, rfl⟩
      exact ⟨us, rfl, .statement hs, trivial⟩
    · rintro ⟨us, rfl, hderives, -⟩
      cases hderives with
      | statement hs => exact ⟨_, rest, ⟨us, rfl, hs⟩, rfl, rfl⟩
  | expr =>
    simp only [course, Course.andThen_ok_iff, Course.expr_ok_iff, Course.done_ok_iff, ends_all_iff]
    constructor
    · rintro ⟨e, _, ⟨us, rfl, he, hends⟩, rfl, rfl⟩
      exact ⟨us, rfl, .expr he, hends⟩
    · rintro ⟨us, rfl, hderives, hends⟩
      cases hderives with
      | expr he => exact ⟨_, rest, ⟨us, rfl, he, hends⟩, rfl, rfl⟩

/-- A refusal takes the tokens up to the one that it is about, or all of them. -/
theorem exists_of_course_error {error : Located SyntaxError}
    (h : goal.course stop ts (.error error) rest) :
    ∃ us vs, ts = us ++ vs ∧ error.val.Blames (front vs) ∧
      error.position = frontPlace stop vs ∧ rest = vs.tail := by
  obtain ⟨us, vs, decision, hts, hending, hdecided⟩ := goal.predictive_course h
  cases hending with
  | refused e => exact ⟨us, vs, hts, hdecided.blames e rfl, rfl, rfl⟩

/-- What is asked for has a token. -/
theorem Derives.ne_nil {u : List Token} (h : goal.Derives u tree) : u ≠ [] := by
  cases h with
  | program h => exact Grammar.DerivesFunction.ne_nil h
  | function h => exact Grammar.DerivesFunction.ne_nil h
  | statement h => cases h with | ret h => simp
  | expr h => exact Grammar.Derives.ne_nil h

/-- Without a token to come, the end of the input is refused. -/
theorem exists_of_course_nil {r : Except (Located SyntaxError) Tree}
    (h : goal.course stop [] r rest) :
    ∃ expected, r = .error ⟨.unexpected expected none, stop⟩ := by
  cases r with
  | ok tree =>
    obtain ⟨us, hus, hderives, -⟩ := course_ok_iff.mp h
    obtain ⟨rfl, -⟩ := List.append_eq_nil_iff.mp hus.symm
    exact absurd rfl hderives.ne_nil
  | error error =>
    obtain ⟨us, vs, hvs, hblames, hplace, -⟩ := exists_of_course_error h
    obtain ⟨-, rfl⟩ := List.append_eq_nil_iff.mp hvs.symm
    obtain ⟨expected, hexpected⟩ := SyntaxError.exists_of_blames_none hblames
    refine ⟨expected, congrArg Except.error ?_⟩
    exact congrArg₂ Located.mk hexpected hplace

end Goal

/-- Parses one thing after the other, each by a parser of its own over a buffer that is made of the
tokens left, and tells for each of them these tokens and the result. -/
def afresh (buffer : List (Located Token) → Except Fault TokenBuffer) :
    List Goal → List (Located Token) →
      Except Fault (List (List (Located Token) × Except (Located SyntaxError) Tree))
  | [], _ => return []
  | goal :: goals, ts => do
    let (result, reader) ← (tree goal).run (← buffer ts)
    return (ts, result) :: (← afresh buffer goals reader.source.rest)

/-- A parse of a buffer takes its course, and the end of the buffer is where it was. -/
theorem exists_run_tree (goal : Goal) (reader : Reader TokenBuffer) :
    ∃ result reader', StateT.run (ExceptT.run (tree goal)) reader = .ok (result, reader') ∧
      reader'.source.stop = reader.source.stop ∧
      goal.course reader.source.stop reader.source.rest result reader'.source.rest := by
  obtain ⟨result, rest, hcourse⟩ := goal.total_course reader.source.stop reader.source.rest
  obtain ⟨reader', hrun, rfl, hstop⟩ :=
    goal.performs_tree TokenBuffer.supply hcourse reader ⟨rfl, rfl⟩
  exact ⟨result, reader', hrun, hstop, hcourse⟩

/-- Parses one after the other give results that agree with those of parsers of their own over the
tokens left, if corresponding results agree wherever the buffers of these tokens end. -/
theorem exists_inTurn_afresh (buffer : List (Located Token) → Except Fault TokenBuffer)
    (Agree : Except (Located SyntaxError) Tree →
      List (Located Token) × Except (Located SyntaxError) Tree → Prop)
    {all : List (Located Token)} {stop : Position}
    (hbuffer : ∀ ts, ts <:+ all → ∃ b, buffer ts = .ok b ∧ b.rest = ts ∧
      ∀ {goal : Goal} {r r' rest}, goal.course stop ts r rest →
        Corresponds ts ts stop b.stop r r' → Agree r (ts, r'))
    (goals : List Goal) {reader : Reader TokenBuffer} (hrest : reader.source.rest <:+ all)
    (hstop : reader.source.stop = stop) :
    ∃ results last made, StateT.run (inTurn goals) reader = .ok (results, last) ∧
      afresh buffer goals reader.source.rest = .ok made ∧ List.Forall₂ Agree results made := by
  induction goals generalizing reader with
  | nil => exact ⟨[], reader, [], rfl, rfl, .nil⟩
  | cons goal goals ih =>
    subst hstop
    obtain ⟨b, hb, hbrest, hagree⟩ := hbuffer _ hrest
    obtain ⟨result, between, hrun, hkept, hcourse⟩ := exists_run_tree goal reader
    obtain ⟨result', hcourse', hsuffix, hcorresponds⟩ :=
      goal.predictive_course.exists_corresponds_of_stop hcourse b.stop
    obtain ⟨between', hrun', hleft, -⟩ :=
      goal.performs_tree TokenBuffer.supply hcourse' { source := b } ⟨hbrest, rfl⟩
    obtain ⟨results, last, made, hruns, hafresh, hagrees⟩ := ih (hsuffix.trans hrest) hkept
    have hfresh : (tree goal).run b = .ok (result', between') := hrun'
    refine ⟨result :: results, last, (_, result') :: made, ?_, ?_,
      .cons (hagree hcourse hcorresponds) hagrees⟩
    · rw [inTurn] at hruns ⊢
      rw [List.mapM_cons, Reader.run_bind_eq hrun, Reader.run_bind_eq hruns]
      rfl
    · rw [← hleft] at hafresh
      simp only [afresh, hb, hfresh, hafresh, bind, Except.bind]
      rfl

end Parse

namespace TokenBuffer

/-- A buffer that is made of tokens ends behind the last of them. -/
theorem eq_of_ofLocated_eq {ts : List (Located Token)} {b : TokenBuffer}
    (h : ofLocated ts = .ok b) :
    b.rest = ts ∧ ∀ last, ts.getLast? = some last → last.position.advance = .ok b.stop := by
  unfold ofLocated at h
  cases hlast : ts.getLast? with
  | none =>
    rw [hlast] at h
    cases h
    exact ⟨rfl, by simp⟩
  | some last =>
    rw [hlast] at h
    cases hadvance : last.position.advance with
    | error fault => simp [hadvance, bind, Except.bind] at h
    | ok stop =>
      simp only [hadvance, bind, Except.bind] at h
      cases h
      refine ⟨rfl, ?_⟩
      rintro _ ⟨⟩
      exact hadvance

/-- What is left of the tokens of a buffer can be put in a buffer again, which ends where the first
one does, or at the start if nothing is left. -/
theorem ofLocated_eq_of_isSuffix {all ts : List (Located Token)} {b : TokenBuffer}
    (hall : ofLocated all = .ok b) (hts : ts <:+ all) :
    ofLocated ts = .ok { rest := ts, stop := if ts = [] then .start else b.stop } := by
  cases hlast : ts.getLast? with
  | none =>
    obtain rfl := List.getLast?_eq_none_iff.mp hlast
    rfl
  | some last =>
    obtain ⟨before, rfl⟩ := hts
    have hadvance := (eq_of_ofLocated_eq hall).2 last (by simp [hlast])
    have hne : ts ≠ [] := by
      rintro rfl
      cases hlast
    simp only [ofLocated, hlast, hadvance, if_neg hne]
    rfl

end TokenBuffer

namespace Parse

/-- A parse from a buffer with any tokens to come accepts what the grammar derives from the first of
them and leaves the others, or it takes the tokens up to the one that it refuses. So parses one
after the other give what parsers of their own give that begin with the tokens left and have the
end of the input where it was. A buffer that is made of the tokens left has its end there too, but
for one that is made of no tokens: both parsers then refuse the end of the input, the one where it
was and the other at the start. -/
theorem steps_take_what_they_report :
    (∀ (goal : Goal) (reader : Reader TokenBuffer), ∃ result reader',
      StateT.run (ExceptT.run (tree goal)) reader = .ok (result, reader') ∧
      (∀ t rest, (result = .ok t ∧ reader'.source.rest = rest) ↔
        ∃ us, reader.source.rest = us ++ rest ∧ goal.Derives (us.map Located.val) t ∧
          goal.EndsBefore rest) ∧
      ∀ error, result = .error error → ∃ us vs, reader.source.rest = us ++ vs ∧
        error.val.Blames (front vs) ∧ error.position = frontPlace reader.source.stop vs ∧
        reader'.source.rest = vs.tail) ∧
    (∀ (goals : List Goal) (reader : Reader TokenBuffer), ∃ results last made,
      StateT.run (inTurn goals) reader = .ok (results, last) ∧
      afresh (fun ts => .ok { rest := ts, stop := reader.source.stop }) goals reader.source.rest =
        .ok made ∧
      results = made.map Prod.snd) ∧
    ∀ {ts : List (Located Token)} {b : TokenBuffer}, TokenBuffer.ofLocated ts = .ok b →
      ∀ goals : List Goal, ∃ results last made,
        StateT.run (inTurn goals) { source := b } = .ok (results, last) ∧
        afresh TokenBuffer.ofLocated goals ts = .ok made ∧
        List.Forall₂ (fun r step => (step.1 ≠ [] → r = step.2) ∧
          (step.1 = [] → ∃ expected, r = .error ⟨.unexpected expected none, b.stop⟩ ∧
            step.2 = .error ⟨.unexpected expected none, .start⟩)) results made := by
  refine ⟨fun goal reader => ?_, fun goals reader => ?_, fun {ts b} hb goals => ?_⟩
  · obtain ⟨result, reader', hrun, -, hcourse⟩ := exists_run_tree goal reader
    refine ⟨result, reader', hrun, fun t rest => ?_, ?_⟩
    · rw [← Goal.course_ok_iff]
      constructor
      · rintro ⟨rfl, rfl⟩
        exact hcourse
      · exact (goal.performs_tree TokenBuffer.supply).unique hcourse
    · rintro error rfl
      exact Goal.exists_of_course_error hcourse
  · obtain ⟨results, last, made, hrun, hafresh, hagrees⟩ :=
      exists_inTurn_afresh (fun ts => .ok { rest := ts, stop := reader.source.stop })
        (fun r step => r = step.2) (fun ts _ => ⟨_, rfl, rfl, fun _ hsame => hsame.eq⟩) goals
        List.suffix_rfl rfl
    refine ⟨results, last, made, hrun, hafresh, ?_⟩
    rwa [← List.forall₂_eq_eq_eq, List.forall₂_map_right_iff]
  · obtain ⟨rfl, -⟩ := TokenBuffer.eq_of_ofLocated_eq hb
    refine exists_inTurn_afresh _ _ (fun ts hts => ?_) goals List.suffix_rfl rfl
    refine ⟨_, TokenBuffer.ofLocated_eq_of_isSuffix hb hts, rfl, ?_⟩
    intro goal r r' rest hcourse hcorresponds
    constructor
    · intro hne
      rw [if_neg hne] at hcorresponds
      exact hcorresponds.eq
    · rintro rfl
      obtain ⟨expected, rfl⟩ := Goal.exists_of_course_nil hcourse
      exact ⟨expected, rfl, hcorresponds.eq_error_of_nil⟩

/-- An operand is missed, a statement follows the refused token, and then nothing is left. -/
theorem steps_take_what_they_report_of_missing_operand :
    let ts : List (Located Token) := [⟨.literal "1", ⟨1, 1⟩⟩, ⟨.punctuator .minus, ⟨1, 3⟩⟩,
      ⟨.punctuator .closeParen, ⟨1, 5⟩⟩, ⟨.keyword .ret, ⟨2, 1⟩⟩, ⟨.literal "2", ⟨2, 8⟩⟩,
      ⟨.punctuator .semicolon, ⟨2, 9⟩⟩]
    let b : TokenBuffer := { rest := ts, stop := ⟨2, 10⟩ }
    let goals : List Goal := [.expr, .statement, .function]
    let first : Except (Located SyntaxError) Tree :=
      .error ⟨.unexpected .expression (some (.punctuator .closeParen)), ⟨1, 5⟩⟩
    let second : Except (Located SyntaxError) Tree := .ok (.statement (.ret (.integer 2)))
    let third (stop : Position) : Except (Located SyntaxError) Tree :=
      .error ⟨.unexpected (.token (.keyword .int)) none, stop⟩
    TokenBuffer.ofLocated ts = .ok b ∧
      (∃ last, StateT.run (inTurn goals) { source := b } =
        .ok ([first, second, third b.stop], last)) ∧
      (∃ made, afresh (fun ts => .ok { rest := ts, stop := b.stop }) goals ts = .ok made ∧
        made.map Prod.snd = [first, second, third b.stop]) ∧
      afresh TokenBuffer.ofLocated goals ts =
        .ok [(ts, first), (ts.drop 3, second), ([], third .start)] := by
  intro ts b goals first second third
  have hb : TokenBuffer.ofLocated ts = .ok b := rfl
  have hresults : (StateT.run (inTurn goals) { source := b }).map Prod.fst =
      .ok [first, second, third b.stop] := by decide +kernel
  have hleft : (afresh TokenBuffer.ofLocated goals ts).map (List.map Prod.fst) =
      .ok [ts, ts.drop 3, []] := by decide +kernel
  obtain ⟨-, hkept, hlocated⟩ := steps_take_what_they_report
  obtain ⟨results, last, kept, hrun, hafresh, hsame⟩ := hkept goals { source := b }
  obtain ⟨_, _, made, hrun', hmade, hagrees⟩ := hlocated hb goals
  cases hrun.symm.trans hrun'
  rw [hrun] at hresults
  cases hresults
  rw [hmade] at hleft ⊢
  refine ⟨hb, ⟨last, hrun⟩, ⟨kept, hafresh, hsame.symm⟩, ?_⟩
  obtain ⟨⟨_, _⟩, _, ⟨hfirst, -⟩, hrest, rfl⟩ := List.forall₂_cons_left_iff.mp hagrees
  obtain ⟨⟨_, _⟩, _, ⟨hsecond, -⟩, hrest', rfl⟩ := List.forall₂_cons_left_iff.mp hrest
  obtain ⟨⟨_, _⟩, _, ⟨-, hthird⟩, hnil, rfl⟩ := List.forall₂_cons_left_iff.mp hrest'
  cases hnil
  simp only [Except.map, List.map_cons, List.map_nil, Except.ok.injEq, List.cons.injEq] at hleft
  obtain ⟨rfl, rfl, rfl, -⟩ := hleft
  obtain ⟨expected, hstop, hstart⟩ := hthird rfl
  cases hstop
  obtain rfl := hfirst (List.cons_ne_nil _ _)
  obtain rfl := hsecond (List.cons_ne_nil _ _)
  cases hstart
  rfl

/-- Two expressions are asked for where there is one. The parser goes on to the end of its tokens,
behind the only one of them, and a parser of its own over no tokens has its end at the start. -/
theorem inTurn_differs_from_afresh :
    let ts : List (Located Token) := [⟨.literal "1", ⟨1, 1⟩⟩]
    let b : TokenBuffer := { rest := ts, stop := ⟨1, 2⟩ }
    let first : Except (Located SyntaxError) Tree := .ok (.expr (.integer 1))
    let second (stop : Position) : Except (Located SyntaxError) Tree :=
      .error ⟨.unexpected .expression none, stop⟩
    TokenBuffer.ofLocated ts = .ok b ∧
      (StateT.run (inTurn [.expr, .expr]) { source := b }).map Prod.fst =
        .ok [first, second ⟨1, 2⟩] ∧
      afresh TokenBuffer.ofLocated [.expr, .expr] ts =
        .ok [(ts, first), ([], second ⟨1, 1⟩)] := by
  intro ts b first second
  refine ⟨rfl, ?_, ?_⟩
  · decide +kernel
  · decide +kernel

end Parse

end MiniC
