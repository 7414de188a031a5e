import MiniC.Proofs.Parse.Recognition

/-!
# Refusals

A parse that refuses its tokens refuses the one it took last, at the place of this token, or the end
of the input. What it does depends on the tokens that it accepted and on the one that comes next,
and on nothing behind that: a refusal stays the same whatever follows.
-/

namespace MiniC

/-- The token that an error is about, or the end of the input. -/
def SyntaxError.Blames : SyntaxError → Option Token → Prop
  | .unexpected _ found, t => t = found
  | .literalOverflow text, t => t = some (.literal text)

theorem SyntaxError.Blames.unique {e : SyntaxError} {t t' : Option Token} (h : e.Blames t)
    (h' : e.Blames t') : t = t' := by
  cases e with
  | unexpected expected found => exact h.trans h'.symm
  | literalOverflow text => exact h.trans h'.symm

/-- No literal is blamed at the end of the input. -/
theorem SyntaxError.exists_of_blames_none {e : SyntaxError} (h : e.Blames none) :
    ∃ expected, e = .unexpected expected none := by
  cases e with
  | unexpected expected found => exact ⟨expected, congrArg _ h.symm⟩
  | literalOverflow text => cases h

namespace Parse

variable {σ α β : Type} [TokenSource σ]

/-- Whether all that a parse refuses is the current token of the source, at the source's place. -/
def RefusesCurrent (x : Parse σ α) : Prop :=
  ∀ ⦃reader error reader'⦄, StateT.run (ExceptT.run x) reader = .ok (.error error, reader') →
    error.position = TokenSource.position reader'.source ∧
      error.val.Blames ((TokenSource.current reader'.source).map Located.val)

theorem refusesCurrent_pure (a : α) : (pure a : Parse σ α).RefusesCurrent := by
  intro reader error reader' h
  cases h

theorem RefusesCurrent.bind {x : Parse σ α} {f : α → Parse σ β} (hx : x.RefusesCurrent)
    (hf : ∀ a, (f a).RefusesCurrent) : (x >>= f).RefusesCurrent := by
  intro reader error reader' h
  rw [ExceptT.run_bind, StateT.run_bind] at h
  cases hrun : StateT.run (ExceptT.run x) reader with
  | error fault =>
    rw [hrun] at h
    cases h
  | ok found =>
    obtain ⟨r, between⟩ := found
    rw [hrun] at h
    cases r with
    | error e =>
      cases h
      exact hx hrun
    | ok a => exact hf a h

/-- Using the reader refuses nothing. -/
theorem refusesCurrent_read (use : ReadM σ α) : (read use).RefusesCurrent := by
  intro reader error reader' h
  cases hrun : StateT.run use reader with
  | error fault => simp [read, hrun] at h
  | ok found => simp [read, hrun] at h

theorem eq_of_run_take_eq {reader reader' : Reader σ}
    {r : Except (Located SyntaxError) (Option Token)}
    (h : StateT.run (ExceptT.run take) reader = .ok (r, reader')) :
    r = .ok ((TokenSource.current reader'.source).map Located.val) := by
  cases hnext : TokenSource.next reader.source with
  | error fault =>
    simp [take, read, Reader.next, hnext] at h
  | ok s =>
    simp [take, read, Reader.next, hnext] at h
    obtain ⟨rfl, rfl⟩ := h
    rfl

/-- A token that was just taken may be refused. -/
theorem refusesCurrent_take {f : Option Token → Parse σ α}
    (hf : ∀ found, (f found).RefusesCurrent ∨ ∃ e, f found = fail e ∧ e.Blames found) :
    (take >>= f).RefusesCurrent := by
  intro reader error reader' h
  rw [ExceptT.run_bind, StateT.run_bind] at h
  cases hrun : StateT.run (ExceptT.run take) reader with
  | error fault =>
    rw [hrun] at h
    cases h
  | ok found =>
    obtain ⟨r, between⟩ := found
    rw [hrun] at h
    obtain rfl := eq_of_run_take_eq hrun
    obtain hnone | ⟨e, he, hblames⟩ := hf ((TokenSource.current between.source).map Located.val)
    · exact hnone h
    · -- The refusal is made before anything else is taken, so the token is still the current one.
      simp only [bind, Except.bind, he] at h
      cases h
      exact ⟨rfl, hblames⟩

theorem refusesCurrent_expect (t : Token) : (expect t : Parse σ Unit).RefusesCurrent := by
  refine refusesCurrent_take fun found => ?_
  by_cases h : found = some t
  · rw [if_pos h]
    exact Or.inl (refusesCurrent_pure ())
  · rw [if_neg h]
    exact Or.inr ⟨_, rfl, rfl⟩

theorem refusesCurrent_chain {operand : Parse σ Expr} (h : operand.RefusesCurrent) (tier : Tier)
    (budget : Nat) (left : Expr) : (chain operand tier budget left).RefusesCurrent := by
  induction budget generalizing left with
  | zero => exact refusesCurrent_pure left
  | succ budget ih =>
    refine ((refusesCurrent_read _).bind fun _ => refusesCurrent_pure _).bind fun found => ?_
    cases tier.operator? found with
    | none => exact refusesCurrent_pure left
    | some op =>
      exact ((refusesCurrent_read _).bind fun _ => refusesCurrent_pure _).bind fun _ =>
        h.bind fun right => ih _

theorem refusesCurrent_tiered {operand : Parse σ Expr} (h : operand.RefusesCurrent) (budget : Nat)
    (all : List Tier) : (tiered operand budget all).RefusesCurrent := by
  induction all with
  | nil => exact h
  | cons tier tighter ih => exact ih.bind fun left => refusesCurrent_chain ih tier budget left

theorem refusesCurrent_factor (budget : Nat) : (factor budget : Parse σ Expr).RefusesCurrent := by
  induction budget with
  | zero => exact refusesCurrent_take fun found => Or.inr ⟨_, rfl, rfl⟩
  | succ budget ih =>
    refine refusesCurrent_take fun found => ?_
    split
    · next text =>
      unfold integer
      split
      · exact Or.inl (refusesCurrent_pure _)
      · exact Or.inr ⟨_, rfl, rfl⟩
    · exact Or.inl ((refusesCurrent_tiered ih budget Tier.all).bind fun inner =>
        (refusesCurrent_expect _).bind fun _ => refusesCurrent_pure inner)
    · next p _ =>
      split
      · exact Or.inl (ih.bind fun operand => refusesCurrent_pure _)
      · exact Or.inr ⟨_, rfl, rfl⟩
    · exact Or.inr ⟨_, rfl, rfl⟩

theorem refusesCurrent_expr : (expr : Parse σ Expr).RefusesCurrent := by
  have hget : (get : Parse σ (Reader σ)).RefusesCurrent := by
    intro reader error reader' h
    cases h
  exact hget.bind fun reader => refusesCurrent_tiered (refusesCurrent_factor _) _ _

theorem refusesCurrent_statement : (statement : Parse σ Statement).RefusesCurrent :=
  (refusesCurrent_expect _).bind fun _ => refusesCurrent_expr.bind fun _ =>
    (refusesCurrent_expect _).bind fun _ => refusesCurrent_pure _

theorem refusesCurrent_identifier : (identifier : Parse σ String).RefusesCurrent := by
  refine refusesCurrent_take fun found => ?_
  split
  · exact Or.inl (refusesCurrent_pure _)
  · exact Or.inr ⟨_, rfl, rfl⟩

theorem refusesCurrent_function : (function : Parse σ FunctionDef).RefusesCurrent :=
  (refusesCurrent_expect _).bind fun _ => refusesCurrent_identifier.bind fun _ =>
    (refusesCurrent_expect _).bind fun _ => (refusesCurrent_expect _).bind fun _ =>
      (refusesCurrent_expect _).bind fun _ => refusesCurrent_statement.bind fun _ =>
        (refusesCurrent_expect _).bind fun _ => (refusesCurrent_read _).bind fun _ =>
          refusesCurrent_pure _

theorem refusesCurrent_program : (program : Parse σ Program).RefusesCurrent := by
  refine refusesCurrent_function.bind fun f => refusesCurrent_take fun found => ?_
  split
  · exact Or.inl (refusesCurrent_pure _)
  · exact Or.inr ⟨_, rfl, rfl⟩

end Parse

/-- How a parse ends before the tokens `vs`: it accepts and leaves them, or it takes the first of
them, which it refuses at its place. -/
inductive Ending {α : Type} (stop : Position) (vs : List (Located Token)) :
    Except SyntaxError α → Except (Located SyntaxError) α → List (Located Token) → Prop
  | accepted (a : α) : Ending stop vs (.ok a) (.ok a) vs
  | refused (e : SyntaxError) : Ending stop vs (.error e) (.error ⟨e, frontPlace stop vs⟩) vs.tail

theorem front_eq_none_iff {vs : List (Located Token)} : front vs = none ↔ vs = [] := by
  cases vs <;> simp [front]

theorem front_append (us vs : List (Located Token)) :
    front (us ++ vs) = ((us.map Located.val).head?).or (front vs) := by
  cases us <;> rfl

namespace Course

variable {α β : Type}

/-- Behind the tokens `u`, wherever they are, the token to come decides a course, whatever follows
it. A refusal is about this token. -/
structure Decided (c : Course α) (u : List Token) (next : Option Token)
    (d : Except SyntaxError α) : Prop where
  blames : ∀ e, d = .error e → e.Blames next
  course : ∀ {stop : Position} {us vs rest : List (Located Token)}
    {r : Except (Located SyntaxError) α}, us.map Located.val = u → front vs = next →
    Ending stop vs d r rest → c stop (us ++ vs) r rest

/-- What happens to the given tokens is decided by those accepted and by the one to come. -/
def DecidedAt (c : Course α) : Course α := fun stop ts r rest =>
  ∃ us vs d, ts = us ++ vs ∧ Ending stop vs d r rest ∧ c.Decided (us.map Located.val) (front vs) d

/-- Whether a course is always decided by the tokens accepted and the one to come. -/
def Predictive (c : Course α) : Prop :=
  ∀ ⦃stop ts r rest⦄, c stop ts r rest → c.DecidedAt stop ts r rest

variable {c c' : Course α} {d : α → Course β} {stop : Position} {ts mid rest : List (Located Token)}
  {r : Except (Located SyntaxError) α} {r' : Except (Located SyntaxError) β} {a : α}

theorem take_error_iff {expected : Expected} {accept : Option Token → Option α}
    {error : Located SyntaxError} :
    take expected accept stop ts (.error error) rest ↔ accept (front ts) = none ∧
      error = ⟨.unexpected expected (front ts), frontPlace stop ts⟩ ∧ rest = ts.tail := by
  rw [take]
  cases accept (front ts) with
  | some a => simp
  | none => simp

theorem expect_error_iff {t : Token} {error : Located SyntaxError} :
    expect t stop ts (.error error) rest ↔ front ts ≠ some t ∧
      error = ⟨.unexpected (.token t) (front ts), frontPlace stop ts⟩ ∧ rest = ts.tail := by
  rw [expect, take_error_iff]
  by_cases h : front ts = some t
  · simp [h]
  · simp [h]

theorem decidedAt_ok
    (h : ∀ {stop' ts'}, front ts' = front ts → c stop' ts' (.ok a) ts') :
    c.DecidedAt stop ts (.ok a) ts := by
  refine ⟨[], ts, .ok a, rfl, .accepted a, by simp, ?_⟩
  intro stop' us vs rest r hus hfront hending
  obtain rfl := List.map_eq_nil_iff.mp hus
  cases hending
  exact h hfront

theorem decidedAt_error {e : SyntaxError} (hblames : e.Blames (front ts))
    (h : ∀ {stop' ts'}, front ts' = front ts →
      c stop' ts' (.error ⟨e, frontPlace stop' ts'⟩) ts'.tail) :
    c.DecidedAt stop ts (.error ⟨e, frontPlace stop ts⟩) ts.tail := by
  refine ⟨[], ts, .error e, rfl, .refused e, ?_, ?_⟩
  · rintro _ ⟨⟩
    exact hblames
  · intro stop' us vs rest r hus hfront hending
    obtain rfl := List.map_eq_nil_iff.mp hus
    cases hending
    exact h hfront

/-- A course with a token before it is decided like the course. -/
theorem DecidedAt.cons (hc : c.DecidedAt stop ts r rest) {t : Located Token}
    (h : ∀ {stop place ts r rest}, c stop ts r rest → c' stop (⟨t.val, place⟩ :: ts) r rest) :
    c'.DecidedAt stop (t :: ts) r rest := by
  obtain ⟨us, vs, decision, rfl, hending, hdecided⟩ := hc
  refine ⟨t :: us, vs, decision, rfl, hending, hdecided.blames, ?_⟩
  intro stop' us' vs' rest' r' hus hfront hending'
  obtain ⟨place, us', rfl, hus'⟩ := exists_cons_of_map_val_eq hus
  exact h (hdecided.course hus' hfront hending')

theorem DecidedAt.imp (hc : c.DecidedAt stop ts r rest)
    (h : ∀ {stop ts r rest}, c stop ts r rest → c' stop ts r rest) :
    c'.DecidedAt stop ts r rest := by
  obtain ⟨us, vs, decision, hts, hending, hdecided⟩ := hc
  exact ⟨us, vs, decision, hts, hending, hdecided.blames,
    fun hus hfront hending => h (hdecided.course hus hfront hending)⟩

/-- A course that goes on is decided where the second part is. The first part looks at the token
with which the second begins. -/
theorem DecidedAt.andThen (hc : c.DecidedAt stop ts (.ok a) mid)
    (hd : (d a).DecidedAt stop mid r' rest) : (c.andThen d).DecidedAt stop ts r' rest := by
  obtain ⟨us, vs, decision, rfl, hending, hdecided⟩ := hc
  cases hending
  obtain ⟨us', vs', decision', rfl, hending', hdecided'⟩ := hd
  refine ⟨us ++ us', vs', decision', by simp, hending', hdecided'.blames, ?_⟩
  intro stop' ws xs rest' r hws hfront hending
  obtain ⟨first, last, rfl, hfirst, hlast⟩ :=
    List.map_eq_append_iff.mp (hws.trans List.map_append)
  -- The first part stopped before `us' ++ vs'`, so it stops before anything with the same front.
  have hmid : front (last ++ xs) = front (us' ++ vs') := by
    rw [front_append, front_append, hlast, hfront]
  rw [List.append_assoc]
  exact Or.inl ⟨a, last ++ xs, hdecided.course hfirst hmid (.accepted a),
    hdecided'.course hlast hfront hending⟩

theorem DecidedAt.andThen_error {error : Located SyntaxError}
    (hc : c.DecidedAt stop ts (.error error) rest) (d : α → Course β) :
    (c.andThen d).DecidedAt stop ts (.error error) rest := by
  obtain ⟨us, vs, decision, rfl, hending, hdecided⟩ := hc
  cases hending with
  | refused e =>
    refine ⟨us, vs, .error e, rfl, .refused e, ?_, ?_⟩
    · rintro _ ⟨⟩
      exact hdecided.blames e rfl
    · intro stop' us' vs' rest r hus hfront hending
      cases hending
      exact Or.inr ⟨_, hdecided.course hus hfront (.refused e), rfl⟩

theorem Predictive.andThen (hc : c.Predictive) (hd : ∀ a, (d a).Predictive) :
    (c.andThen d).Predictive := by
  rintro stop ts r rest (⟨a, mid, hfirst, hlast⟩ | ⟨error, hfirst, rfl⟩)
  · exact (hc hfirst).andThen (hd a hlast)
  · exact (hc hfirst).andThen_error d

theorem predictive_done (a : α) : (done a).Predictive := by
  rintro stop ts r rest ⟨rfl, rfl⟩
  exact decidedAt_ok fun _ => ⟨rfl, rfl⟩

/-- Taking one token is predictive. The end of the input is accepted without a token to take. -/
theorem predictive_take (expected : Expected) (accept : Option Token → Option α) :
    (take expected accept).Predictive := by
  rintro stop ts r rest ⟨rfl, rfl⟩
  cases hfound : accept (front ts) with
  | none =>
    refine decidedAt_error rfl fun hfront => ?_
    rw [← hfront] at hfound ⊢
    exact take_error_iff.mpr ⟨hfound, rfl, rfl⟩
  | some a =>
    cases ts with
    | nil =>
      refine decidedAt_ok fun {stop' ts'} hfront => ?_
      obtain rfl := front_eq_none_iff.mp hfront
      exact take_ok_iff.mpr ⟨hfound, rfl⟩
    | cons t ts =>
      have hdone : (done a).DecidedAt stop ts (.ok a) ts := predictive_done a ⟨rfl, rfl⟩
      refine hdone.cons ?_
      rintro stop' place ts' r rest ⟨rfl, rfl⟩
      exact take_ok_iff.mpr ⟨hfound, rfl⟩

end Course

namespace Phase

/-- The course of a phase. -/
def course (phase : Phase) : MiniC.Course Expr := fun stop => phase.Course stop

variable {stop : Position} {ts rest : List (Located Token)} {place : Position}
  {r : Except (Located SyntaxError) Expr}

/-- An operand behind a unary operator. -/
theorem course_unary {p : Punctuator} {op : UnaryOp} (hop : UnaryOp.ofPunctuator? p = some op)
    (h : (factor.course.andThen fun e => .done (.unary op e)) stop ts r rest) :
    factor.course stop (⟨.punctuator p, place⟩ :: ts) r rest := by
  obtain ⟨e, mid, hoperand, rfl, rfl⟩ | ⟨error, hoperand, rfl⟩ := h
  · exact .unary hop hoperand
  · exact .unaryError hop hoperand

/-- An expression behind a parenthesis. -/
theorem course_parens (h : ((tiers Tier.all).course.andThen fun e =>
      (Course.expect (.punctuator .closeParen)).andThen fun _ => .done e) stop ts r rest) :
    factor.course stop (⟨.punctuator .openParen, place⟩ :: ts) r rest := by
  obtain ⟨e, mid, hinner, hclose⟩ | ⟨error, hinner, rfl⟩ := h
  · obtain ⟨_, mid', hfound, rfl, rfl⟩ | ⟨error, hmissing, rfl⟩ := hclose
    · obtain ⟨place', rfl⟩ := Course.expect_ok_iff.mp hfound
      exact .parens hinner
    · obtain ⟨hfront, rfl, rfl⟩ := Course.expect_error_iff.mp hmissing
      exact .unclosed hinner hfront
  · exact .parensError hinner

/-- Operands of a tier, and what follows the first of them. -/
theorem course_joined {tier : Tier} {tighter : List Tier}
    (h : ((tiers tighter).course.andThen fun left => (chain tier tighter left).course)
      stop ts r rest) : (tiers (tier :: tighter)).course stop ts r rest := by
  obtain ⟨left, mid, hleft, hchain⟩ | ⟨error, hleft, rfl⟩ := h
  · exact .joined hleft hchain
  · exact .joinedError hleft

/-- A right operand behind an operator, and what follows it. -/
theorem course_operator {tier : Tier} {tighter : List Tier} {t : Token} {op : BinaryOp}
    (hop : tier.operator? (some t) = some op) {left : Expr}
    (h : ((tiers tighter).course.andThen fun right =>
      (chain tier tighter (.binary op left right)).course) stop ts r rest) :
    (chain tier tighter left).course stop (⟨t, place⟩ :: ts) r rest := by
  obtain ⟨right, mid, hright, hchain⟩ | ⟨error, hright, rfl⟩ := h
  · exact .chainNext hop hright hchain
  · exact .chainError hop hright

/-- Parsing an expression is predictive. -/
theorem predictive_course (phase : Phase) : phase.course.Predictive := by
  have hclosing : ∀ e : Expr,
      ((Course.expect (.punctuator .closeParen)).andThen fun _ => .done e).Predictive :=
    fun e => (Course.predictive_take _ _).andThen fun _ => Course.predictive_done e
  intro stop ts r rest h
  induction h with
  | literal h =>
    refine (Course.predictive_done _ ⟨rfl, rfl⟩).cons ?_
    rintro stop place ts r rest ⟨rfl, rfl⟩
    exact .literal h
  | @overflow text place ts h =>
    refine Course.decidedAt_error rfl fun {stop' ts'} hfront => ?_
    obtain ⟨place', rest, rfl⟩ := exists_cons_of_front_eq hfront
    exact .overflow h
  | refused h =>
    refine Course.decidedAt_error rfl fun {stop' ts'} hfront => ?_
    rw [← hfront] at h ⊢
    exact .refused h
  | @unary p op place ts rest e hop h ih =>
    have hoperand : (factor.course.andThen fun e => .done (Expr.unary op e)).DecidedAt stop ts
        (.ok (Expr.unary op e)) rest := ih.andThen (Course.predictive_done _ ⟨rfl, rfl⟩)
    exact hoperand.cons (course_unary hop)
  | unaryError hop h ih => exact (ih.andThen_error _).cons (course_unary hop)
  | parens h ih =>
    refine (ih.andThen (hclosing _ ?_)).cons course_parens
    exact Or.inl ⟨(), _, Course.expect_ok_iff.mpr ⟨_, rfl⟩, rfl, rfl⟩
  | unclosed h hrest ih =>
    refine (ih.andThen (hclosing _ ?_)).cons course_parens
    exact Or.inr ⟨_, Course.expect_error_iff.mpr ⟨hrest, rfl, rfl⟩, rfl⟩
  | parensError h ih => exact (ih.andThen_error _).cons course_parens
  | single h ih => exact ih.imp .single
  | joined hleft h ihl ih => exact (ihl.andThen ih).imp course_joined
  | joinedError h ih => exact (ih.andThen_error _).imp course_joined
  | chainEnd h =>
    refine Course.decidedAt_ok fun hfront => ?_
    rw [← hfront] at h
    exact .chainEnd h
  | chainNext hop hright h ihr ih => exact (ihr.andThen ih).cons (course_operator hop)
  | chainError hop h ih => exact (ih.andThen_error _).cons (course_operator hop)

end Phase

namespace Course

theorem predictive_statement : statement.Predictive :=
  (predictive_take _ _).andThen fun _ => (Phase.predictive_course (.tiers Tier.all)).andThen
    fun _ => (predictive_take _ _).andThen fun _ => predictive_done _

theorem predictive_function : function.Predictive :=
  (predictive_take _ _).andThen fun _ => (predictive_take _ _).andThen fun _ =>
    (predictive_take _ _).andThen fun _ => (predictive_take _ _).andThen fun _ =>
      (predictive_take _ _).andThen fun _ => predictive_statement.andThen fun _ =>
        (predictive_take _ _).andThen fun _ => predictive_done _

/-- Parsing a program is predictive. -/
theorem predictive_program : program.Predictive :=
  predictive_function.andThen fun _ => predictive_take _ _

end Course

/-- How the results of parsing the same tokens at other places correspond: an error about a token
lies at the token of the same number, and one about the end of the input at the end. -/
inductive Parse.Corresponds {α : Type} (ts ts' : List (Located Token)) (stop stop' : Position) :
    Except (Located SyntaxError) α → Except (Located SyntaxError) α → Prop
  | accepted (a : α) : Corresponds ts ts' stop stop' (.ok a) (.ok a)
  | refused (e : SyntaxError) (i : Nat) {t t' : Located Token} (ht : ts[i]? = some t)
    (ht' : ts'[i]? = some t') (h : e.Blames (some t.val)) :
    Corresponds ts ts' stop stop' (.error ⟨e, t.position⟩) (.error ⟨e, t'.position⟩)
  | atEnd (e : SyntaxError) (h : e.Blames none) :
    Corresponds ts ts' stop stop' (.error ⟨e, stop⟩) (.error ⟨e, stop'⟩)

namespace Parse.Corresponds

variable {α : Type} {ts all : List (Located Token)} {stop stop' : Position}
  {r r' : Except (Located SyntaxError) α}

/-- What corresponds as to the last tokens of a sequence corresponds as to all of them. -/
theorem of_isSuffix (h : Corresponds ts ts stop stop' r r') (hts : ts <:+ all) :
    Corresponds all all stop stop' r r' := by
  obtain ⟨before, rfl⟩ := hts
  cases h with
  | accepted a => exact .accepted a
  | @refused e i t t' ht ht' hblames =>
    have hshift : (before ++ ts)[before.length + i]? = ts[i]? := by
      rw [List.getElem?_append_right (Nat.le_add_right _ _), Nat.add_sub_cancel_left]
    exact .refused e (before.length + i) (hshift.trans ht) (hshift.trans ht') hblames
  | atEnd e hblames => exact .atEnd e hblames

/-- With the same tokens at the same places and the same end, corresponding results are equal. -/
theorem eq (h : Corresponds ts ts stop stop r r') : r = r' := by
  cases h with
  | accepted a => rfl
  | refused e i ht ht' hblames =>
    cases ht.symm.trans ht'
    rfl
  | atEnd e hblames => rfl

/-- Without tokens, corresponding errors lie at the ends. -/
theorem eq_error_of_nil {error : Located SyntaxError}
    (h : Corresponds [] [] stop stop' (.error error) r') : r' = .error ⟨error.val, stop'⟩ := by
  generalize hr : Except.error error = r at h
  cases h with
  | accepted a => cases hr
  | refused e i ht ht' hblames => cases ht
  | atEnd e hblames =>
    cases hr
    rfl

end Parse.Corresponds

/-- The same tokens at other places take a predictive course to corresponding results, and as many
of them are left. -/
theorem Course.Predictive.exists_corresponds {α : Type} {c : Course α} (hc : c.Predictive)
    {stop : Position} {ts ts' rest : List (Located Token)} {r : Except (Located SyntaxError) α}
    (h : c stop ts r rest) (hts : ts'.map Located.val = ts.map Located.val) (stop' : Position) :
    ∃ r' count, rest = ts.drop count ∧ c stop' ts' r' (ts'.drop count) ∧
      Parse.Corresponds ts ts' stop stop' r r' := by
  obtain ⟨us, vs, decision, rfl, hending, hdecided⟩ := hc h
  rw [List.map_append] at hts
  obtain ⟨us', vs', rfl, hus, hvs⟩ := List.map_eq_append_iff.mp hts
  have hfront : front vs' = front vs := by
    rw [front, front, ← List.head?_map, ← List.head?_map, hvs]
  have hlength : us'.length = us.length := by
    rw [← List.length_map Located.val, hus, List.length_map]
  cases hending with
  | accepted a =>
    refine ⟨.ok a, us.length, List.drop_left.symm, ?_, .accepted a⟩
    rw [← hlength, List.drop_left]
    exact hdecided.course hus hfront (.accepted a)
  | refused e =>
    refine ⟨.error ⟨e, frontPlace stop' vs'⟩, us.length + 1, ?_, ?_, ?_⟩
    · rw [← List.drop_drop, List.drop_left, List.drop_one]
    · rw [← hlength, ← List.drop_drop, List.drop_left, List.drop_one]
      exact hdecided.course hus hfront (.refused e)
    · have hblames := hdecided.blames e rfl
      rcases vs with _ | ⟨t, vs⟩
      · obtain rfl : vs' = [] := List.map_eq_nil_iff.mp hvs
        exact .atEnd e hblames
      · obtain ⟨place, ws, rfl, -⟩ := exists_cons_of_map_val_eq hvs
        exact .refused e us.length (by simp) (by simp [← hlength]) hblames

/-- With another end, a predictive course leads to corresponding results and leaves the same
tokens, which are the last ones. -/
theorem Course.Predictive.exists_corresponds_of_stop {α : Type} {c : Course α} (hc : c.Predictive)
    {stop : Position} {ts rest : List (Located Token)} {r : Except (Located SyntaxError) α}
    (h : c stop ts r rest) (stop' : Position) :
    ∃ r', c stop' ts r' rest ∧ rest <:+ ts ∧ Parse.Corresponds ts ts stop stop' r r' := by
  obtain ⟨r', count, rfl, hcourse, hcorresponds⟩ := hc.exists_corresponds h rfl stop'
  exact ⟨r', hcourse, List.drop_suffix count ts, hcorresponds⟩

namespace TokenBuffer

variable {α : Type} {x : Parse TokenBuffer α} {c : Course α} {b : TokenBuffer}
  {reader : Reader TokenBuffer}

/-- A parse of a buffer took its course, and the end of the buffer is where it was. -/
theorem course_of_run_eq (hx : supply.Performs x c) (htotal : c.Total)
    {r : Except (Located SyntaxError) α} (h : x.run b = .ok (r, reader)) :
    c b.stop b.rest r reader.source.rest ∧ reader.source.stop = b.stop := by
  obtain ⟨r', rest, reader', hrun, ⟨rfl, hstop⟩, hcourse⟩ :=
    hx.exists_run htotal (s := b) ⟨rfl, rfl⟩
  cases hrun.symm.trans h
  exact ⟨hcourse, hstop⟩

/-- The token that a refused parse took last is the first one behind what it accepted, if the error
is about that token and lies at its place. -/
theorem current_eq_head? (hx : x.RefusesCurrent) {error : Located SyntaxError}
    (h : x.run b = .ok (.error error, reader)) (hstop : reader.source.stop = b.stop)
    {vs : List (Located Token)} (hblames : error.val.Blames (front vs))
    (hplace : error.position = frontPlace b.stop vs) : reader.source.current = vs.head? := by
  obtain ⟨hposition, hcurrent⟩ := hx h
  have hval : reader.source.current.map Located.val = front vs := hcurrent.unique hblames
  have hposition : (reader.source.current.map Located.position).getD b.stop =
      frontPlace b.stop vs := by
    rw [← hplace, hposition, ← hstop]
    rfl
  rcases vs with _ | ⟨v, vs⟩
  · exact Option.map_eq_none_iff.mp hval
  · obtain ⟨t, ht, htv⟩ := Option.map_eq_some_iff.mp hval
    rw [ht, Option.map_some, Option.getD_some] at hposition
    rw [ht, List.head?_cons, Option.some.injEq]
    exact congrArg₂ Located.mk htv hposition

/-- A refused parse took the first token behind what it accepted, which decided that it refuses. -/
theorem exists_refusal (hx : supply.Performs x c) (htotal : c.Total) (hc : c.Predictive)
    (hrefuses : x.RefusesCurrent) {error : Located SyntaxError}
    (h : x.run b = .ok (.error error, reader)) :
    ∃ us vs, b.rest = us ++ vs ∧ reader.source.current = vs.head? ∧
      reader.source.rest = vs.tail ∧ error.position = frontPlace b.stop vs ∧
      c.Decided (us.map Located.val) (front vs) (.error error.val) := by
  obtain ⟨hcourse, hstop⟩ := course_of_run_eq hx htotal h
  obtain ⟨us, vs, decision, hrest, hending, hdecided⟩ := hc hcourse
  generalize hleft : reader.source.rest = left at hending
  cases hending with
  | refused e =>
    have hcurrent := current_eq_head? hrefuses h hstop (hdecided.blames e rfl) rfl
    exact ⟨us, vs, hrest, hcurrent, rfl, rfl, hdecided⟩

/-- Whatever buffer begins with what decides a parse, it is parsed like that. -/
theorem exists_run_of_decided (hx : supply.Performs x c) {u : List Token} {next : Option Token}
    {d : Except SyntaxError α} (hc : c.Decided u next d) {us vs rest : List (Located Token)}
    {r : Except (Located SyntaxError) α} (hb : b.rest = us ++ vs) (hus : us.map Located.val = u)
    (hfront : front vs = next) (hending : Ending b.stop vs d r rest) :
    ∃ reader, x.run b = .ok (r, reader) := by
  obtain ⟨reader, hrun, -⟩ :=
    hx (hc.course hus hfront hending) { source := b } ⟨hb, rfl⟩
  exact ⟨reader, hrun⟩

end TokenBuffer

/-- A parse of a buffer that refuses the token `t` behind the tokens `p` does so at the place of `t`
and with the same error whatever follows, so that nothing which begins like this is a program. If it
refuses the end of the input, it took all tokens, and the error lies at the end. -/
theorem Parse.run_program_refuses_prefix {b : TokenBuffer} {error : Located SyntaxError}
    {reader : Reader TokenBuffer} (h : Parse.program.run b = .ok (.error error, reader)) :
    (∀ {p r : List (Located Token)} {t : Located Token}, b.rest = p ++ t :: r →
      reader.source.current = some t → reader.source.rest = r →
        error.position = t.position ∧ error.val.Blames (some t.val) ∧
        (∀ {b' : TokenBuffer} {r' : List (Located Token)}, b'.rest = p ++ t :: r' →
          ∃ reader', Parse.program.run b' = .ok (.error error, reader')) ∧
        ∀ {b' : TokenBuffer}, (p ++ [t]).map Located.val <+: b'.rest.map Located.val →
          ∀ program reader', Parse.program.run b' ≠ .ok (.ok program, reader')) ∧
    (∀ {expected : Expected}, error.val = .unexpected expected none →
      reader.source.rest = [] ∧ error.position = b.stop) ∧
    ((∃ expected, error.val = .unexpected expected none) ∨
      ∃ p t, b.rest = p ++ t :: reader.source.rest ∧ reader.source.current = some t) := by
  have hperforms := TokenBuffer.supply.performs_program
  obtain ⟨us, vs, hrest, hcurrent, hleft, hplace, hdecided⟩ := TokenBuffer.exists_refusal hperforms
    Course.total_program Course.predictive_program Parse.refusesCurrent_program h
  have hblames := hdecided.blames _ rfl
  refine ⟨?_, ?_, ?_⟩
  · intro p r t hb ht hr
    obtain ⟨vs, rfl⟩ := List.head?_eq_some_iff.mp (hcurrent.symm.trans ht)
    obtain rfl : vs = r := hleft.symm.trans hr
    obtain rfl : us = p := List.append_cancel_right (hrest.symm.trans hb)
    have hposition : error.position = t.position := hplace
    have hlocated : error = ⟨error.val, t.position⟩ := by rw [← hposition]
    refine ⟨hposition, hblames, ?_, ?_⟩
    · intro b' r' hb'
      rw [hlocated]
      exact TokenBuffer.exists_run_of_decided hperforms hdecided hb' rfl rfl (.refused _)
    · rintro b' ⟨v, hv⟩ program reader' haccepted
      rw [List.map_append, List.append_assoc] at hv
      obtain ⟨us', vs', hb', hus', hvs'⟩ := List.map_eq_append_iff.mp hv.symm
      obtain ⟨place, r', rfl, -⟩ := exists_cons_of_map_val_eq hvs'
      obtain ⟨reader'', hrefused⟩ :=
        TokenBuffer.exists_run_of_decided hperforms hdecided hb' hus' rfl (.refused _)
      cases haccepted.symm.trans hrefused
  · intro expected hexpected
    rw [hexpected] at hblames
    obtain rfl := front_eq_none_iff.mp hblames
    exact ⟨hleft, hplace⟩
  · rcases vs with _ | ⟨t, vs⟩
    · exact Or.inl (SyntaxError.exists_of_blames_none hblames)
    · exact Or.inr ⟨us, t, by rw [hrest, hleft, List.tail_cons], hcurrent⟩

/-- A sum without its second operand, which is missed at the closing parenthesis. -/
theorem Parse.run_program_refuses_prefix_of_missing_operand :
    let p : List (Located Token) := [⟨.keyword .int, ⟨1, 1⟩⟩, ⟨.identifier "f", ⟨1, 5⟩⟩,
      ⟨.punctuator .openParen, ⟨1, 6⟩⟩, ⟨.punctuator .closeParen, ⟨1, 7⟩⟩,
      ⟨.punctuator .openCurly, ⟨2, 1⟩⟩, ⟨.keyword .ret, ⟨3, 1⟩⟩, ⟨.punctuator .openParen, ⟨3, 8⟩⟩,
      ⟨.literal "1", ⟨3, 9⟩⟩, ⟨.punctuator .plus, ⟨3, 10⟩⟩]
    let t : Located Token := ⟨.punctuator .closeParen, ⟨3, 11⟩⟩
    let b : TokenBuffer := { rest := p ++ [t], stop := ⟨3, 12⟩ }
    let error : Located SyntaxError := ⟨.unexpected .expression (some t.val), t.position⟩
    ∃ reader, Parse.program.run b = .ok (.error error, reader) ∧
      reader.source.current = some t ∧ reader.source.rest = [] ∧
      (∀ {b' : TokenBuffer} {r' : List (Located Token)}, b'.rest = p ++ t :: r' →
        ∃ reader', Parse.program.run b' = .ok (.error error, reader')) ∧
      ∀ {b' : TokenBuffer}, (p ++ [t]).map Located.val <+: b'.rest.map Located.val →
        ∀ program reader', Parse.program.run b' ≠ .ok (.ok program, reader') := by
  intro p t b error
  let reader : Reader TokenBuffer :=
    { source := { rest := [], current := some t, stop := ⟨3, 12⟩ } }
  have hrun : Parse.program.run b = .ok (.error error, reader) := by decide +kernel
  obtain ⟨-, -, hfollow⟩ := (Parse.run_program_refuses_prefix hrun).1 rfl rfl rfl
  exact ⟨reader, hrun, rfl, rfl, hfollow⟩

end MiniC
