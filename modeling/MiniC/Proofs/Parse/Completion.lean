import MiniC.Proofs.Parse.Refusal
import Mathlib.Computability.Language

/-!
# Completions

What a parse accepted before it refused a token is the beginning of a program, which goes on with
what the error says was expected. Each part of the grammar is a language. Parsing it accepts words
of the language, and refuses only behind the beginning of a word; this carries over from the parts
of a production to the production.
-/

namespace MiniC

open Grammar

/-- What an error lets stand instead of the refused token: a given token, any name, an operand such
as zero, or nothing more. -/
def SyntaxError.remedy? (name : String) : SyntaxError → Option Token
  | .unexpected (.token t) _ => some t
  | .unexpected .identifier _ => some (.identifier name)
  | .unexpected .expression _ => some (.literal "0")
  | .unexpected .endOfInput _ => none
  | .literalOverflow _ => some (.literal "0")

/-- Whether what was found is something that was expected. -/
def Expected.Admits : Expected → Option Token → Prop
  | .token t, found => found = some t
  | .identifier, found => ∃ name, found = some (.identifier name)
  | .expression, found => beginsFactor found = true
  | .endOfInput, found => found = none

/-- Whether an error has a reason: what was found was not expected, or the literal has no value. -/
def SyntaxError.IsJustified : SyntaxError → Prop
  | .unexpected expected found => ¬ expected.Admits found
  | .literalOverflow text => Literal.value? text = none

/-- The words of one token with a property. -/
def oneToken (P : Token → Prop) : Language Token := {u | ∃ t, u = [t] ∧ P t}

namespace Course

variable {α β : Type}

/-- The course of a viable parse of a language. What it accepts is a word. If it refuses a token, it
has a reason, and what stands before this token goes on to a word with what the error lets stand
there, in the same way for all names. -/
inductive Viable (L : Language Token) (stop : Position) (ts : List (Located Token)) :
    Except (Located SyntaxError) α → List (Located Token) → Prop
  | accepted (us : List (Located Token)) {rest : List (Located Token)} {a : α}
    (hts : ts = us ++ rest) (hword : us.map Located.val ∈ L) : Viable L stop ts (.ok a) rest
  | refused (us : List (Located Token)) {vs : List (Located Token)} {e : SyntaxError}
    (hts : ts = us ++ vs) (hblames : e.Blames (front vs)) (hjustified : e.IsJustified)
    (q : List Token)
    (hword : ∀ name, ∃ t, e.remedy? name = some t ∧ us.map Located.val ++ t :: q ∈ L) :
    Viable L stop ts (.error ⟨e, frontPlace stop vs⟩) vs.tail

/-- Whether a course is always viable for a language, of which there is a word. -/
structure Speaks (c : Course α) (L : Language Token) : Prop where
  exists_mem : ∃ w, w ∈ L
  viable : ∀ ⦃stop ts r rest⦄, c stop ts r rest → Viable L stop ts r rest

variable {L M : Language Token} {stop : Position} {ts mid rest : List (Located Token)}
  {r : Except (Located SyntaxError) α} {r' : Except (Located SyntaxError) β} {a : α}
  {error : Located SyntaxError}

/-- The first token is refused, and a word of one token has what was expected in its place. -/
theorem Viable.refused_front {e : SyntaxError} (hblames : e.Blames (front ts))
    (hjustified : e.IsJustified) (hword : ∀ name, ∃ t, e.remedy? name = some t ∧ [t] ∈ L) :
    Viable (α := α) L stop ts (.error ⟨e, frontPlace stop ts⟩) ts.tail :=
  .refused [] rfl hblames hjustified [] hword

theorem Viable.mono (h : Viable L stop ts r rest) (hle : ∀ u ∈ L, u ∈ M) :
    Viable M stop ts r rest := by
  cases h with
  | accepted us hts hword => exact .accepted us hts (hle _ hword)
  | refused us hts hblames hjustified q hword =>
    refine .refused us hts hblames hjustified q fun name => ?_
    obtain ⟨t, ht, hmem⟩ := hword name
    exact ⟨t, ht, hle _ hmem⟩

/-- A word, and one of another language behind it. -/
theorem Viable.append (h : Viable L stop ts (.ok a) mid) (h' : Viable M stop mid r' rest) :
    Viable (L * M) stop ts r' rest := by
  cases h with
  | accepted us hts hword =>
    cases h' with
    | accepted us' hmid hword' =>
      refine .accepted (us ++ us') (by simp [hts, hmid]) ?_
      rw [List.map_append]
      exact Language.append_mem_mul hword hword'
    | refused us' hmid hblames hjustified q hword' =>
      refine .refused (us ++ us') (by simp [hts, hmid]) hblames hjustified q fun name => ?_
      obtain ⟨t, ht, hmem⟩ := hword' name
      refine ⟨t, ht, ?_⟩
      rw [List.map_append, List.append_assoc]
      exact Language.append_mem_mul hword hmem

/-- What is refused in the first part can go on to the end of the second. -/
theorem Viable.append_error (h : Viable (α := α) L stop ts (.error error) rest)
    (hM : ∃ w, w ∈ M) : Viable (α := β) (L * M) stop ts (.error error) rest := by
  obtain ⟨w, hw⟩ := hM
  cases h with
  | refused us hts hblames hjustified q hword =>
    refine .refused us hts hblames hjustified (q ++ w) fun name => ?_
    obtain ⟨t, ht, hmem⟩ := hword name
    refine ⟨t, ht, ?_⟩
    have happend := Language.append_mem_mul hmem hw
    rwa [List.append_assoc, List.cons_append] at happend

/-- A token before a word. -/
theorem Viable.cons (h : Viable L stop ts r rest) {t : Located Token}
    (hcons : ∀ u ∈ L, t.val :: u ∈ M) : Viable M stop (t :: ts) r rest := by
  have hfirst : Viable (oneToken (· = t.val)) stop (t :: ts) (.ok ()) ts :=
    .accepted [t] rfl ⟨t.val, rfl, rfl⟩
  refine (hfirst.append h).mono ?_
  rintro _ ⟨_, ⟨_, rfl, rfl⟩, u, hu, rfl⟩
  exact hcons u hu

theorem Speaks.mono {c : Course α} (hc : c.Speaks L) (hle : ∀ u ∈ L, u ∈ M) : c.Speaks M :=
  ⟨hc.exists_mem.imp hle, fun _ _ _ _ h => (hc.viable h).mono hle⟩

theorem Speaks.andThen {c : Course α} {d : α → Course β} (hc : c.Speaks L) [Nonempty α]
    (hd : ∀ a, (d a).Speaks M) : (c.andThen d).Speaks (L * M) := by
  obtain ⟨w, hw⟩ := hc.exists_mem
  obtain ⟨w', hw'⟩ := (hd (Classical.arbitrary α)).exists_mem
  refine ⟨⟨w ++ w', Language.append_mem_mul hw hw'⟩, ?_⟩
  rintro stop ts r rest (⟨a, mid, hfirst, hlast⟩ | ⟨error, hfirst, rfl⟩)
  · exact (hc.viable hfirst).append ((hd a).viable hlast)
  · exact (hc.viable hfirst).append_error ⟨w', hw'⟩

theorem speaks_done (a : α) : (done a).Speaks 1 := by
  refine ⟨⟨[], rfl⟩, ?_⟩
  rintro stop ts r rest ⟨rfl, rfl⟩
  exact .accepted [] rfl rfl

/-- Taking one token, if whatever is refused has a remedy. -/
theorem speaks_take {expected : Expected} {accept : Option Token → Option α} {P : Token → Prop}
    (hword : ∃ t, P t) (haccept : ∀ found a, accept found = some a → ∃ t, found = some t ∧ P t)
    (hrefuse : ∀ found, accept found = none → (SyntaxError.unexpected expected found).IsJustified ∧
      ∀ name, ∃ t, (SyntaxError.unexpected expected found).remedy? name = some t ∧ P t) :
    (take expected accept).Speaks (oneToken P) := by
  obtain ⟨t, ht⟩ := hword
  refine ⟨⟨[t], t, rfl, ht⟩, ?_⟩
  rintro stop ts r rest ⟨rfl, rfl⟩
  cases hfound : accept (front ts) with
  | some a =>
    obtain ⟨t, hfront, ht⟩ := haccept _ _ hfound
    obtain ⟨place, rest, rfl⟩ := exists_cons_of_front_eq hfront
    exact .accepted [⟨t, place⟩] rfl ⟨t, rfl, ht⟩
  | none =>
    obtain ⟨hjustified, hremedy⟩ := hrefuse _ hfound
    refine .refused_front rfl hjustified fun name => ?_
    obtain ⟨t, ht, hP⟩ := hremedy name
    exact ⟨t, ht, t, rfl, hP⟩

theorem speaks_expect (t : Token) : (expect t).Speaks (oneToken (· = t)) := by
  refine speaks_take ⟨t, rfl⟩ (fun found a haccept => ?_) fun found hrefuse => ?_
  · split at haccept
    · next hfound => exact ⟨t, hfound, rfl⟩
    · cases haccept
  · split at hrefuse
    · cases hrefuse
    · next hfound => exact ⟨hfound, fun name => ⟨t, rfl, rfl⟩⟩

theorem speaks_identifier : identifier.Speaks (oneToken fun t => ∃ name, t = .identifier name) := by
  refine speaks_take ⟨.identifier "f", "f", rfl⟩ (fun found a haccept => ?_)
    fun found hrefuse => ?_
  · split at haccept
    · next name => exact ⟨_, rfl, name, rfl⟩
    · cases haccept
  · split at hrefuse
    · cases hrefuse
    · next hfound =>
      refine ⟨?_, fun name => ⟨_, rfl, name, rfl⟩⟩
      rintro ⟨name, rfl⟩
      exact hfound name rfl

end Course

namespace Grammar.Level

/-- The expressions of a level. -/
def language (level : Level) : Language Token := {u | ∃ e, Derives level u e}

theorem mem_language_of_next? {level next : Level} (hnext : level.next? = some next)
    {u : List Token} (hu : u ∈ next.language) : u ∈ level.language := by
  obtain ⟨e, he⟩ := hu
  exact ⟨e, .operand hnext he⟩

theorem zero_mem_language (level : Level) : [.literal "0"] ∈ level.language := by
  induction htiers : level.tiers generalizing level with
  | nil =>
    rw [eq_factor_of_tiers_eq htiers]
    exact ⟨_, .integer (Literal.denotes_toString 0) (by decide)⟩
  | cons tier tighter ih =>
    obtain ⟨next, hnext, -, htighter⟩ := exists_next?_of_tiers_eq htiers
    exact mem_language_of_next? hnext (ih next htighter)

end Grammar.Level

instance : Nonempty Expr := ⟨.integer 0⟩

instance : Nonempty Statement := ⟨.ret (.integer 0)⟩

namespace Phase

/-- What can follow any expression of the level with some tiers. -/
def continuations (all : List Tier) : Language Token :=
  {u | ∀ level : Level, level.tiers = all → ∀ w ∈ level.language, w ++ u ∈ level.language}

/-- What a phase takes. -/
def language : Phase → Language Token
  | .factor => Level.factor.language
  | .tiers all => {u | ∀ level : Level, level.tiers = all → u ∈ level.language}
  | .chain tier tighter _ => continuations (tier :: tighter)

variable {tier : Tier} {tighter : List Tier} {u : List Token}

theorem nil_mem_continuations (all : List Tier) : [] ∈ continuations all := by
  intro level hlevel w hw
  rwa [List.append_nil]

theorem mem_language_unary {p : Punctuator} {op : UnaryOp} (hop : UnaryOp.ofPunctuator? p = some op)
    (hu : u ∈ factor.language) : .punctuator p :: u ∈ factor.language := by
  obtain ⟨e, he⟩ := hu
  exact ⟨_, .unary (ofPunctuator?_eq_some_iff.mp hop) he⟩

theorem mem_language_parens
    (hu : u ∈ (tiers Tier.all).language * (oneToken (· = .punctuator .closeParen) * 1)) :
    .punctuator .openParen :: u ∈ factor.language := by
  obtain ⟨u, hu, _, ⟨_, ⟨_, rfl, rfl⟩, _, rfl, rfl⟩, rfl⟩ := hu
  obtain ⟨e, he⟩ := hu .logicalOr rfl
  exact ⟨e, .parens he⟩

theorem mem_language_joined (hu : u ∈ (tiers tighter).language * continuations (tier :: tighter)) :
    u ∈ (tiers (tier :: tighter)).language := by
  obtain ⟨v, hv, w, hw, rfl⟩ := hu
  intro level hlevel
  obtain ⟨next, hnext, -, htighter⟩ := Level.exists_next?_of_tiers_eq hlevel
  exact hw level hlevel v (Level.mem_language_of_next? hnext (hv next htighter))

theorem mem_continuations_operator {t : Token} {op : BinaryOp}
    (hop : tier.operator? (some t) = some op)
    (hu : u ∈ (tiers tighter).language * continuations (tier :: tighter)) :
    t :: u ∈ continuations (tier :: tighter) := by
  obtain ⟨v, hv, w, hw, rfl⟩ := hu
  rintro level hlevel first ⟨e, he⟩
  obtain ⟨next, hnext, hoperators, htighter⟩ := Level.exists_next?_of_tiers_eq hlevel
  rw [← hoperators] at hop
  obtain ⟨p, rfl, hmem⟩ := Level.operator?_eq_some_iff.mp hop
  obtain ⟨e', he'⟩ := hv next htighter
  have hjoined := hw level hlevel _ ⟨_, .binary hnext hmem he he'⟩
  rwa [List.append_assoc, List.cons_append] at hjoined

/-- Parsing an expression is viable. -/
theorem viable_course {phase : Phase} {stop : Position} {ts rest : List (Located Token)}
    {r : Except (Located SyntaxError) Expr} (h : phase.Course stop ts r rest) :
    Course.Viable phase.language stop ts r rest := by
  have hclosing : ∀ e : Expr,
      ((Course.expect (.punctuator .closeParen)).andThen fun _ => .done e).Speaks
        (oneToken (· = .punctuator .closeParen) * 1) :=
    fun e => (Course.speaks_expect _).andThen fun _ => Course.speaks_done e
  have hzero : ∀ _ : String, ∃ t, some (Token.literal "0") = some t ∧ [t] ∈ factor.language :=
    fun _ => ⟨_, rfl, Level.zero_mem_language .factor⟩
  induction h with
  | @literal text v place ts h =>
    obtain ⟨n, hn, hle, rfl⟩ := Literal.value?_eq_some_iff.mp h
    exact .accepted [⟨.literal text, place⟩] rfl ⟨_, .integer hn hle⟩
  | overflow h => exact Course.Viable.refused_front rfl h hzero
  | refused h => exact .refused_front rfl (ne_true_of_eq_false h) hzero
  | @unary p op place ts rest e hop h ih =>
    have hoperand : Course.Viable (factor.language * 1) stop ts (.ok (Expr.unary op e)) rest :=
      ih.append ((Course.speaks_done _).viable ⟨rfl, rfl⟩)
    rw [mul_one] at hoperand
    exact hoperand.cons fun u hu => mem_language_unary hop hu
  | unaryError hop h ih => exact ih.cons fun u hu => mem_language_unary hop hu
  | @parens place place' ts rest e h ih =>
    refine (ih.append ((hclosing e).viable ?_)).cons fun u hu => mem_language_parens hu
    exact Or.inl ⟨(), _, Course.expect_ok_iff.mpr ⟨_, rfl⟩, rfl, rfl⟩
  | @unclosed place ts rest e h hrest ih =>
    refine (ih.append ((hclosing e).viable ?_)).cons fun u hu => mem_language_parens hu
    exact Or.inr ⟨_, Course.expect_error_iff.mpr ⟨hrest, rfl, rfl⟩, rfl⟩
  | parensError h ih =>
    have hclose := (hclosing (.integer 0)).exists_mem
    exact (ih.append_error hclose).cons fun u hu => mem_language_parens hu
  | single h ih =>
    refine ih.mono fun u hu level hlevel => ?_
    rw [Level.eq_factor_of_tiers_eq hlevel]
    exact hu
  | joined hleft h ihl ih => exact (ihl.append ih).mono fun u hu => mem_language_joined hu
  | joinedError h ih =>
    exact (ih.append_error ⟨[], nil_mem_continuations _⟩).mono fun u hu => mem_language_joined hu
  -- A chain is judged behind any operand, so ending it at once adds nothing.
  | chainEnd h => exact .accepted [] rfl (nil_mem_continuations _)
  | chainNext hop hright h ihr ih =>
    exact (ihr.append ih).cons fun u hu => mem_continuations_operator hop hu
  | chainError hop h ih =>
    exact (ih.append_error ⟨[], nil_mem_continuations _⟩).cons fun u hu =>
      mem_continuations_operator hop hu

end Phase

namespace Course

theorem speaks_expr : expr.Speaks Level.logicalOr.language :=
  ⟨⟨_, Level.zero_mem_language _⟩, fun _ _ _ _ h =>
    (Phase.viable_course h).mono fun _ hu => hu .logicalOr rfl⟩

theorem speaks_statement : statement.Speaks {u | ∃ s, DerivesStatement u s} := by
  have hparts := (speaks_expect (.keyword .ret)).andThen fun _ => speaks_expr.andThen fun value =>
    (speaks_expect (.punctuator .semicolon)).andThen fun _ => speaks_done (Statement.ret value)
  refine hparts.mono ?_
  rintro _ ⟨_, ⟨_, rfl, rfl⟩, _, ⟨u, ⟨e, he⟩, _, ⟨_, ⟨_, rfl, rfl⟩, _, rfl, rfl⟩, rfl⟩, rfl⟩
  exact ⟨_, .ret he⟩

theorem speaks_function : function.Speaks {u | ∃ f, DerivesFunction u f} := by
  have hparts := (speaks_expect (.keyword .int)).andThen fun _ =>
    speaks_identifier.andThen fun name => (speaks_expect (.punctuator .openParen)).andThen fun _ =>
      (speaks_expect (.punctuator .closeParen)).andThen fun _ =>
        (speaks_expect (.punctuator .openCurly)).andThen fun _ =>
          speaks_statement.andThen fun body =>
            (speaks_expect (.punctuator .closeCurly)).andThen fun _ =>
              speaks_done (FunctionDef.mk name body)
  refine hparts.mono ?_
  rintro _ ⟨_, ⟨_, rfl, rfl⟩, _, ⟨_, ⟨_, rfl, name, rfl⟩, _, ⟨_, ⟨_, rfl, rfl⟩, _,
    ⟨_, ⟨_, rfl, rfl⟩, _, ⟨_, ⟨_, rfl, rfl⟩, _, ⟨u, ⟨s, hs⟩, _,
      ⟨_, ⟨_, rfl, rfl⟩, _, rfl, rfl⟩, rfl⟩, rfl⟩, rfl⟩, rfl⟩, rfl⟩, rfl⟩
  exact ⟨_, .function hs⟩

end Course

/-- Whether tokens are parsed to a program, wherever they lie. -/
def IsProgram (u : List Token) : Prop :=
  ∀ b : TokenBuffer, b.rest.map Located.val = u →
    ∃ program reader, Parse.program.run b = .ok (.ok program, reader)

theorem isProgram_of_derives {u : List Token} {f : FunctionDef} (h : DerivesFunction u f) :
    IsProgram u := by
  rintro b rfl
  have hcourse : Course.program b.stop b.rest (.ok ⟨f⟩) [] := Course.program_ok_iff.mpr ⟨h, rfl⟩
  obtain ⟨reader, hrun, -⟩ :=
    TokenBuffer.supply.performs_program hcourse { source := b } ⟨rfl, rfl⟩
  exact ⟨⟨f⟩, reader, hrun⟩

/-- Whether what an error says was expected could stand behind the tokens `u`: some tokens behind it
make a program of them. An expression, or a literal with a value, is a zero. -/
def SyntaxError.CanFollow (u : List Token) : SyntaxError → Prop
  | .unexpected (.token t) _ => ∃ q, IsProgram (u ++ t :: q)
  | .unexpected .identifier _ => ∃ q, ∀ name, IsProgram (u ++ .identifier name :: q)
  | .unexpected .expression _ => ∃ q, IsProgram (u ++ .literal "0" :: q)
  | .unexpected .endOfInput _ => IsProgram u
  | .literalOverflow _ => ∃ q, IsProgram (u ++ .literal "0" :: q)

theorem SyntaxError.canFollow_of_remedy? {e : SyntaxError} {u : List Token} (q : List Token)
    (h : ∀ name, ∃ t, e.remedy? name = some t ∧ IsProgram (u ++ t :: q)) : e.CanFollow u := by
  have hremedy : ∀ name {t}, e.remedy? name = some t → IsProgram (u ++ t :: q) := by
    intro name t ht
    obtain ⟨t', ht', hprogram⟩ := h name
    rwa [Option.some.inj (ht.symm.trans ht')]
  match e with
  | .unexpected (.token t) _ => exact ⟨q, hremedy "" rfl⟩
  | .unexpected .identifier _ => exact ⟨q, fun name => hremedy name rfl⟩
  | .unexpected .expression _ => exact ⟨q, hremedy "" rfl⟩
  | .unexpected .endOfInput _ =>
    obtain ⟨t, ht, -⟩ := h ""
    cases ht
  | .literalOverflow _ => exact ⟨q, hremedy "" rfl⟩

/-- Where a program is refused, what was expected could follow the tokens before. -/
theorem Course.exists_canFollow_of_program {stop : Position} {ts rest : List (Located Token)}
    {error : Located SyntaxError} (h : program stop ts (.error error) rest) :
    ∃ us vs, ts = us ++ vs ∧ rest = vs.tail ∧ error.position = frontPlace stop vs ∧
      error.val.Blames (front vs) ∧ error.val.CanFollow (us.map Located.val) ∧
      error.val.IsJustified := by
  obtain ⟨f, mid, hfunction, hend⟩ | ⟨error, hfunction, ⟨⟩⟩ := h
  · obtain ⟨us, rfl, hus⟩ := function_ok_iff.mp hfunction
    obtain ⟨hfound, rfl, rfl⟩ := take_error_iff.mp hend
    have hmore : front mid ≠ none := by
      intro hnone
      rw [hnone] at hfound
      cases hfound
    exact ⟨us, mid, rfl, rfl, rfl, rfl, isProgram_of_derives hus, hmore⟩
  · cases speaks_function.viable hfunction with
    | refused us hts hblames hjustified q hword =>
      refine ⟨us, _, hts, rfl, rfl, hblames, SyntaxError.canFollow_of_remedy? q ?_, hjustified⟩
      intro name
      obtain ⟨t, ht, f, hf⟩ := hword name
      exact ⟨t, ht, isProgram_of_derives hf⟩

/-- A parse of a buffer that fails splits it before the token that it refuses and took last, or at
its end. What the error says was expected could follow the tokens before, and it is not what was
found. -/
theorem Parse.run_program_expected_can_follow {b : TokenBuffer} {error : Located SyntaxError}
    {reader : Reader TokenBuffer} (h : Parse.program.run b = .ok (.error error, reader)) :
    ∃ p vs, b.rest = p ++ vs ∧ reader.source.current = vs.head? ∧ reader.source.rest = vs.tail ∧
      error.position = frontPlace b.stop vs ∧ error.val.Blames (front vs) ∧
      error.val.CanFollow (p.map Located.val) ∧ error.val.IsJustified := by
  obtain ⟨hcourse, hstop⟩ := TokenBuffer.course_of_run_eq TokenBuffer.supply.performs_program
    Course.total_program h
  obtain ⟨us, vs, hts, hrest, hplace, hblames, hfollow, hjustified⟩ :=
    Course.exists_canFollow_of_program hcourse
  have hcurrent := TokenBuffer.current_eq_head? Parse.refusesCurrent_program h hstop hblames hplace
  exact ⟨us, vs, hts, hcurrent, hrest, hplace, hblames, hfollow, hjustified⟩

/-- An operand is missed within two parentheses, and there are tokens that close both. -/
theorem Parse.run_program_expected_can_follow_of_open_parens :
    let p : List (Located Token) := [⟨.keyword .int, ⟨1, 1⟩⟩, ⟨.identifier "f", ⟨1, 5⟩⟩,
      ⟨.punctuator .openParen, ⟨1, 6⟩⟩, ⟨.punctuator .closeParen, ⟨1, 7⟩⟩,
      ⟨.punctuator .openCurly, ⟨2, 1⟩⟩, ⟨.keyword .ret, ⟨3, 1⟩⟩, ⟨.punctuator .bang, ⟨3, 8⟩⟩,
      ⟨.punctuator .openParen, ⟨3, 9⟩⟩, ⟨.literal "1", ⟨3, 10⟩⟩, ⟨.punctuator .less, ⟨3, 12⟩⟩,
      ⟨.punctuator .openParen, ⟨3, 14⟩⟩, ⟨.literal "2", ⟨3, 15⟩⟩, ⟨.punctuator .star, ⟨3, 17⟩⟩]
    let t : Located Token := ⟨.punctuator .semicolon, ⟨3, 19⟩⟩
    let r : List (Located Token) := [⟨.punctuator .closeCurly, ⟨4, 1⟩⟩]
    let b : TokenBuffer := { rest := p ++ t :: r, stop := ⟨5, 1⟩ }
    ∃ reader, Parse.program.run b =
        .ok (.error ⟨.unexpected .expression (some t.val), t.position⟩, reader) ∧
      ∃ q, IsProgram (p.map Located.val ++ .literal "0" :: q) := by
  intro p t r b
  let reader : Reader TokenBuffer := { source := { rest := r, current := some t, stop := ⟨5, 1⟩ } }
  have hrun : Parse.program.run b =
      .ok (.error ⟨.unexpected .expression (some t.val), t.position⟩, reader) := by decide +kernel
  obtain ⟨p', vs, hrest, hcurrent, hleft, -, -, hfollow, -⟩ :=
    Parse.run_program_expected_can_follow hrun
  obtain ⟨vs, rfl⟩ := List.head?_eq_some_iff.mp hcurrent.symm
  obtain rfl : r = vs := hleft
  obtain rfl : p = p' := List.append_cancel_right hrest
  exact ⟨reader, hrun, hfollow⟩

end MiniC
