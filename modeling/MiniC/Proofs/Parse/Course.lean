import MiniC.Parse.Program
import MiniC.Translate

/-!
# The course of a parse

The course of a parse leads from the tokens to come to its result and the tokens left. It says what
the parse takes and where it stops, apart from the source that the tokens come from and from the
budget that lets it end. Every parse over a source whose tokens are known, with a budget that is not
smaller than their number, takes its course.
-/

namespace MiniC

/-- What can happen to the tokens to come, which end at a place: a result and the tokens left. -/
abbrev Course (α : Type) :=
  Position → List (Located Token) → Except (Located SyntaxError) α → List (Located Token) → Prop

/-- The token to come. -/
def front (ts : List (Located Token)) : Option Token := ts.head?.map Located.val

/-- The place of the token to come, or of the end. -/
def frontPlace (stop : Position) (ts : List (Located Token)) : Position :=
  (ts.head?.map Located.position).getD stop

theorem exists_cons_of_front_eq {ts : List (Located Token)} {t : Token} (h : front ts = some t) :
    ∃ place rest, ts = ⟨t, place⟩ :: rest := by
  cases ts with
  | nil => simp [front] at h
  | cons first rest =>
    obtain rfl : first.val = t := by simpa [front] using h
    exact ⟨first.position, rest, rfl⟩

namespace Course

variable {α β : Type}

/-- Takes nothing. -/
def done (a : α) : Course α := fun _ ts r rest => r = .ok a ∧ rest = ts

/-- Takes the token to come, which is accepted or is not what is expected. -/
def take (expected : Expected) (accept : Option Token → Option α) : Course α :=
  fun stop ts r rest =>
    r = (match accept (front ts) with
      | some a => .ok a
      | none => .error ⟨.unexpected expected (front ts), frontPlace stop ts⟩) ∧ rest = ts.tail

/-- Goes on from what was accepted. -/
def andThen (c : Course α) (d : α → Course β) : Course β := fun stop ts r rest =>
  (∃ a mid, c stop ts (.ok a) mid ∧ d a stop mid r rest) ∨
    ∃ error, c stop ts (.error error) rest ∧ r = .error error

/-- Takes the token to come, which has to be `t`. -/
def expect (t : Token) : Course Unit :=
  take (.token t) fun found => if found = some t then some () else none

/-- Takes the token to come, which has to be an identifier. -/
def identifier : Course String :=
  take .identifier fun
    | some (.identifier name) => some name
    | _ => none

/-- Takes the token to come, of which there may not be one. -/
def endOfInput (a : α) : Course α :=
  take .endOfInput fun
    | none => some a
    | some _ => none

/-- Whether there is a result for any tokens. -/
def Total (c : Course α) : Prop := ∀ stop ts, ∃ r rest, c stop ts r rest

theorem total_done (a : α) : (done a).Total := fun _ ts => ⟨_, ts, rfl, rfl⟩

theorem total_take (expected : Expected) (accept : Option Token → Option α) :
    (take expected accept).Total :=
  fun _ _ => ⟨_, _, rfl, rfl⟩

theorem Total.andThen {c : Course α} {d : α → Course β} (hc : c.Total) (hd : ∀ a, (d a).Total) :
    (c.andThen d).Total := by
  intro stop ts
  obtain ⟨r, mid, h⟩ := hc stop ts
  cases r with
  | error error => exact ⟨_, mid, Or.inr ⟨error, h, rfl⟩⟩
  | ok a =>
    obtain ⟨r, rest, h'⟩ := hd a stop mid
    exact ⟨r, rest, Or.inl ⟨a, mid, h, h'⟩⟩

end Course

/-- Whether a factor can begin with a token. -/
def beginsFactor : Option Token → Bool
  | some (.literal _) => true
  | some (.punctuator .openParen) => true
  | some (.punctuator p) => (UnaryOp.ofPunctuator? p).isSome
  | _ => false

/-- A phase of parsing an expression: a factor, operands joined by the operators of some tiers, or
what follows a left operand at the first of some tiers. -/
inductive Phase where
  | factor
  | tiers (all : List Tier)
  | chain (tier : Tier) (tighter : List Tier) (left : Expr)

/-- The course of parsing an expression. -/
inductive Phase.Course (stop : Position) :
    Phase → List (Located Token) → Except (Located SyntaxError) Expr → List (Located Token) → Prop
  | literal {text : String} {v : Int32} {place : Position} {ts : List (Located Token)}
    (h : Literal.value? text = some v) :
    Course stop .factor (⟨.literal text, place⟩ :: ts) (.ok (.integer v)) ts
  | overflow {text : String} {place : Position} {ts : List (Located Token)}
    (h : Literal.value? text = none) :
    Course stop .factor (⟨.literal text, place⟩ :: ts) (.error ⟨.literalOverflow text, place⟩) ts
  | refused {ts : List (Located Token)} (h : beginsFactor (front ts) = false) :
    Course stop .factor ts
      (.error ⟨.unexpected .expression (front ts), frontPlace stop ts⟩) ts.tail
  | unary {p : Punctuator} {op : UnaryOp} {place : Position} {ts rest : List (Located Token)}
    {e : Expr} (hop : UnaryOp.ofPunctuator? p = some op) (h : Course stop .factor ts (.ok e) rest) :
    Course stop .factor (⟨.punctuator p, place⟩ :: ts) (.ok (.unary op e)) rest
  | unaryError {p : Punctuator} {op : UnaryOp} {place : Position} {ts rest : List (Located Token)}
    {error : Located SyntaxError} (hop : UnaryOp.ofPunctuator? p = some op)
    (h : Course stop .factor ts (.error error) rest) :
    Course stop .factor (⟨.punctuator p, place⟩ :: ts) (.error error) rest
  | parens {place place' : Position} {ts rest : List (Located Token)} {e : Expr}
    (h : Course stop (.tiers Tier.all) ts (.ok e) (⟨.punctuator .closeParen, place'⟩ :: rest)) :
    Course stop .factor (⟨.punctuator .openParen, place⟩ :: ts) (.ok e) rest
  | unclosed {place : Position} {ts rest : List (Located Token)} {e : Expr}
    (h : Course stop (.tiers Tier.all) ts (.ok e) rest)
    (hrest : front rest ≠ some (.punctuator .closeParen)) :
    Course stop .factor (⟨.punctuator .openParen, place⟩ :: ts)
      (.error ⟨.unexpected (.token (.punctuator .closeParen)) (front rest),
        frontPlace stop rest⟩) rest.tail
  | parensError {place : Position} {ts rest : List (Located Token)} {error : Located SyntaxError}
    (h : Course stop (.tiers Tier.all) ts (.error error) rest) :
    Course stop .factor (⟨.punctuator .openParen, place⟩ :: ts) (.error error) rest
  | single {ts rest : List (Located Token)} {r : Except (Located SyntaxError) Expr}
    (h : Course stop .factor ts r rest) : Course stop (.tiers []) ts r rest
  | joined {tier : Tier} {tighter : List Tier} {ts mid rest : List (Located Token)} {left : Expr}
    {r : Except (Located SyntaxError) Expr} (hleft : Course stop (.tiers tighter) ts (.ok left) mid)
    (h : Course stop (.chain tier tighter left) mid r rest) :
    Course stop (.tiers (tier :: tighter)) ts r rest
  | joinedError {tier : Tier} {tighter : List Tier} {ts rest : List (Located Token)}
    {error : Located SyntaxError} (h : Course stop (.tiers tighter) ts (.error error) rest) :
    Course stop (.tiers (tier :: tighter)) ts (.error error) rest
  | chainEnd {tier : Tier} {tighter : List Tier} {left : Expr} {ts : List (Located Token)}
    (h : tier.operator? (front ts) = none) : Course stop (.chain tier tighter left) ts (.ok left) ts
  | chainNext {tier : Tier} {tighter : List Tier} {left right : Expr} {op : BinaryOp}
    {t : Located Token} {ts mid rest : List (Located Token)}
    {r : Except (Located SyntaxError) Expr} (hop : tier.operator? (some t.val) = some op)
    (hright : Course stop (.tiers tighter) ts (.ok right) mid)
    (h : Course stop (.chain tier tighter (.binary op left right)) mid r rest) :
    Course stop (.chain tier tighter left) (t :: ts) r rest
  | chainError {tier : Tier} {tighter : List Tier} {left : Expr} {op : BinaryOp} {t : Located Token}
    {ts rest : List (Located Token)} {error : Located SyntaxError}
    (hop : tier.operator? (some t.val) = some op)
    (h : Course stop (.tiers tighter) ts (.error error) rest) :
    Course stop (.chain tier tighter left) (t :: ts) (.error error) rest

namespace Phase

/-- A parse gives no tokens back. -/
theorem Course.length_le {stop : Position} {phase : Phase} {ts rest : List (Located Token)}
    {r : Except (Located SyntaxError) Expr} (h : phase.Course stop ts r rest) :
    rest.length ≤ ts.length := by
  induction h with
  | literal h => simp
  | overflow h => simp
  | refused h => simp
  | unary hop h ih => simp only [List.length_cons]; omega
  | unaryError hop h ih => simp only [List.length_cons]; omega
  | parens h ih => simp only [List.length_cons] at ih ⊢; omega
  | unclosed h hrest ih => simp only [List.length_cons, List.length_tail]; omega
  | parensError h ih => simp only [List.length_cons]; omega
  | single h ih => exact ih
  | joined hleft h ihl ih => omega
  | joinedError h ih => exact ih
  | chainEnd h => exact Nat.le_refl _
  | chainNext hop hright h ihr ih => simp only [List.length_cons]; omega
  | chainError hop h ih => simp only [List.length_cons]; omega

/-- What follows a left operand has a course if every right operand has one. -/
theorem exists_course_chain {stop : Position} {bound : Nat} {tighter : List Tier}
    (hright : ∀ ts, ts.length ≤ bound → ∃ r rest, (tiers tighter).Course stop ts r rest)
    (tier : Tier) (left : Expr) (ts : List (Located Token)) (hts : ts.length ≤ bound) :
    ∃ r rest, (chain tier tighter left).Course stop ts r rest := by
  induction hlength : ts.length using Nat.strongRecOn generalizing ts left with
  | ind length ih =>
    cases hop : tier.operator? (front ts) with
    | none => exact ⟨_, _, .chainEnd hop⟩
    | some op =>
      cases ts with
      | nil => simp [front, Tier.operator?] at hop
      | cons t ts =>
        rw [List.length_cons] at hts hlength
        obtain ⟨r, mid, h⟩ := hright ts (by omega)
        cases r with
        | error error => exact ⟨_, _, .chainError hop h⟩
        | ok right =>
          have hmid := h.length_le
          obtain ⟨r, rest, hnext⟩ :=
            ih mid.length (by omega) (.binary op left right) mid (by omega) rfl
          exact ⟨r, rest, .chainNext hop h hnext⟩

/-- Joined operands have a course if every factor has one. -/
theorem exists_course_tiers {stop : Position} {bound : Nat}
    (hfactor : ∀ ts, ts.length ≤ bound → ∃ r rest, factor.Course stop ts r rest) (all : List Tier)
    (ts : List (Located Token)) (hts : ts.length ≤ bound) :
    ∃ r rest, (tiers all).Course stop ts r rest := by
  induction all generalizing ts with
  | nil =>
    obtain ⟨r, rest, h⟩ := hfactor ts hts
    exact ⟨r, rest, .single h⟩
  | cons tier tighter ih =>
    obtain ⟨r, mid, hleft⟩ := ih ts hts
    cases r with
    | error error => exact ⟨_, mid, .joinedError hleft⟩
    | ok left =>
      have hmid := hleft.length_le
      obtain ⟨r, rest, h⟩ := exists_course_chain ih tier left mid (by omega)
      exact ⟨r, rest, .joined hleft h⟩

/-- A factor has a course. -/
theorem exists_course_factor (stop : Position) (ts : List (Located Token)) :
    ∃ r rest, factor.Course stop ts r rest := by
  have hbounded : ∀ bound ts, ts.length ≤ bound → ∃ r rest, factor.Course stop ts r rest := by
    intro bound
    induction bound with
    | zero =>
      intro ts hts
      rw [Nat.le_zero, List.length_eq_zero_iff] at hts
      subst hts
      exact ⟨_, _, .refused rfl⟩
    | succ bound ih =>
      intro ts hts
      rcases ts with _ | ⟨⟨t, place⟩, ts⟩
      · exact ⟨_, _, .refused rfl⟩
      rw [List.length_cons, Nat.add_le_add_iff_right] at hts
      cases t with
      | identifier name => exact ⟨_, _, .refused rfl⟩
      | keyword k => exact ⟨_, _, .refused rfl⟩
      | literal text =>
        cases hvalue : Literal.value? text with
        | some v => exact ⟨_, _, .literal hvalue⟩
        | none => exact ⟨_, _, .overflow hvalue⟩
      | punctuator p =>
        by_cases hparen : p = .openParen
        · subst hparen
          obtain ⟨r, rest, h⟩ := exists_course_tiers ih Tier.all ts hts
          cases r with
          | error error => exact ⟨_, _, .parensError h⟩
          | ok e =>
            by_cases hclose : front rest = some (.punctuator .closeParen)
            · obtain ⟨place', rest', rfl⟩ := exists_cons_of_front_eq hclose
              exact ⟨_, _, .parens h⟩
            · exact ⟨_, _, .unclosed h hclose⟩
        · cases hop : UnaryOp.ofPunctuator? p with
          | none =>
            refine ⟨_, _, .refused ?_⟩
            cases p <;> simp_all [front, beginsFactor]
          | some op =>
            obtain ⟨r, rest, h⟩ := ih ts hts
            cases r with
            | error error => exact ⟨_, _, .unaryError hop h⟩
            | ok e => exact ⟨_, _, .unary hop h⟩
  exact hbounded ts.length ts (Nat.le_refl _)

end Phase

namespace Course

/-- Takes an expression. -/
def expr : Course Expr := fun stop => (Phase.tiers Tier.all).Course stop

/-- Takes a statement. -/
def statement : Course Statement :=
  (expect (.keyword .ret)).andThen fun _ => expr.andThen fun value =>
    (expect (.punctuator .semicolon)).andThen fun _ => done (.ret value)

/-- Takes a function. -/
def function : Course FunctionDef :=
  (expect (.keyword .int)).andThen fun _ => identifier.andThen fun name =>
    (expect (.punctuator .openParen)).andThen fun _ =>
      (expect (.punctuator .closeParen)).andThen fun _ =>
        (expect (.punctuator .openCurly)).andThen fun _ => statement.andThen fun body =>
          (expect (.punctuator .closeCurly)).andThen fun _ => done ⟨name, body⟩

/-- Takes a program. -/
def program : Course Program := function.andThen fun f => endOfInput ⟨f⟩

theorem total_expr : expr.Total := fun stop ts =>
  Phase.exists_course_tiers (fun ts _ => Phase.exists_course_factor stop ts) Tier.all ts
    (Nat.le_refl _)

theorem total_statement : statement.Total :=
  (total_take _ _).andThen fun _ => total_expr.andThen fun _ => (total_take _ _).andThen fun _ =>
    total_done _

theorem total_function : function.Total :=
  (total_take _ _).andThen fun _ => (total_take _ _).andThen fun _ =>
    (total_take _ _).andThen fun _ => (total_take _ _).andThen fun _ =>
      (total_take _ _).andThen fun _ => total_statement.andThen fun _ =>
        (total_take _ _).andThen fun _ => total_done _

theorem total_program : program.Total := total_function.andThen fun _ => total_take _ _

end Course

end MiniC
