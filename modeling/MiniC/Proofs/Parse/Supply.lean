import MiniC.Proofs.Parse.Course
import MiniC.Token.Buffer

/-!
# Parsing from known tokens

A supply tells which tokens a source still has to come and where they end. From every source of a
supply, a parse takes the course that these tokens determine.
-/

namespace MiniC

/-- The tokens that sources have to come. -/
structure Supply (σ : Type) [TokenSource σ] where
  /-- A source has tokens to come, which end at a place. -/
  Holds : σ → List (Located Token) → Position → Prop
  /-- The first of them is handed out next, and then the source is at its place. -/
  next {s : σ} {ts : List (Located Token)} {stop : Position} : Holds s ts stop →
    ∃ s', TokenSource.next s = .ok s' ∧ Holds s' ts.tail stop ∧
      TokenSource.current s' = ts.head? ∧ TokenSource.position s' = frontPlace stop ts
  /-- The first of them is shown. -/
  peek {s : σ} {ts : List (Located Token)} {stop : Position} : Holds s ts stop →
    ∃ s', TokenSource.peek s = .ok (ts.head?, s') ∧ Holds s' ts stop
  /-- There are not more of them than the source may have. -/
  length_le_pending {s : σ} {ts : List (Located Token)} {stop : Position} : Holds s ts stop →
    ts.length ≤ TokenSource.pending s

namespace Supply

variable {σ α β : Type} [TokenSource σ] (S : Supply σ)

/-- From every reader with the given tokens to come, a parse gives a result and leaves tokens. -/
def Yields (x : Parse σ α) (stop : Position) (ts : List (Located Token))
    (r : Except (Located SyntaxError) α) (rest : List (Located Token)) : Prop :=
  ∀ reader : Reader σ, S.Holds reader.source ts stop →
    ∃ reader', StateT.run (ExceptT.run x) reader = .ok (r, reader') ∧
      S.Holds reader'.source rest stop

variable {S} {x : Parse σ α} {f : α → Parse σ β} {stop : Position}
  {ts mid rest : List (Located Token)} {a : α} {error : Located SyntaxError}

theorem yields_pure (a : α) : S.Yields (pure a) stop ts (.ok a) ts :=
  fun reader h => ⟨reader, rfl, h⟩

theorem Yields.bind {r : Except (Located SyntaxError) β} (hx : S.Yields x stop ts (.ok a) mid)
    (hf : S.Yields (f a) stop mid r rest) : S.Yields (x >>= f) stop ts r rest := by
  intro reader h
  obtain ⟨between, hrun, hmid⟩ := hx reader h
  obtain ⟨last, hrun', hrest⟩ := hf between hmid
  refine ⟨last, ?_, hrest⟩
  rw [ExceptT.run_bind, StateT.run_bind, hrun]
  exact hrun'

theorem Yields.bind_error (hx : S.Yields x stop ts (.error error) rest) :
    S.Yields (x >>= f) stop ts (.error error) rest := by
  intro reader h
  obtain ⟨last, hrun, hrest⟩ := hx reader h
  refine ⟨last, ?_, hrest⟩
  rw [ExceptT.run_bind, StateT.run_bind, hrun]
  rfl

/-- Taking a token leads to its place. -/
theorem exists_run_take {reader : Reader σ} (h : S.Holds reader.source ts stop) :
    ∃ reader', StateT.run (ExceptT.run Parse.take) reader = .ok (.ok (front ts), reader') ∧
      S.Holds reader'.source ts.tail stop ∧
      TokenSource.position reader'.source = frontPlace stop ts := by
  obtain ⟨s, hnext, hs, hcurrent, hposition⟩ := S.next h
  refine ⟨⟨s, reader.log ++ (TokenSource.notice? s).toArray⟩, ?_, hs, hposition⟩
  rw [front, ← hcurrent]
  simp [Parse.take, Parse.read, Reader.next, hnext]
  rfl

theorem yields_take : S.Yields Parse.take stop ts (.ok (front ts)) ts.tail := by
  intro reader h
  obtain ⟨reader', hrun, hrest, -⟩ := exists_run_take h
  exact ⟨reader', hrun, hrest⟩

theorem yields_peek : S.Yields Parse.peek stop ts (.ok (front ts)) ts := by
  intro reader h
  obtain ⟨s, hpeek, hs⟩ := S.peek h
  refine ⟨{ reader with source := s }, ?_, hs⟩
  simp [Parse.peek, Parse.read, Reader.peek, hpeek]
  rfl

/-- A token that was just taken is refused at its place. -/
theorem yields_take_fail {f : Option Token → Parse σ α} {e : SyntaxError}
    (hf : f (front ts) = Parse.fail e) :
    S.Yields (Parse.take >>= f) stop ts (.error ⟨e, frontPlace stop ts⟩) ts.tail := by
  intro reader h
  obtain ⟨reader', hrun, hrest, hposition⟩ := exists_run_take h
  refine ⟨reader', ?_, hrest⟩
  rw [ExceptT.run_bind, StateT.run_bind, hrun, ← hposition]
  simp only [bind, Except.bind, hf]
  rfl

/-- From all readers of a supply, a parse takes a course. -/
def Performs (S : Supply σ) (x : Parse σ α) (c : Course α) : Prop :=
  ∀ ⦃stop ts r rest⦄, c stop ts r rest → S.Yields x stop ts r rest

theorem performs_pure (a : α) : S.Performs (pure a) (.done a) := by
  rintro stop ts r rest ⟨rfl, rfl⟩
  exact yields_pure a

theorem Performs.bind {c : Course α} {d : α → Course β} (hx : S.Performs x c)
    (hf : ∀ a, S.Performs (f a) (d a)) : S.Performs (x >>= f) (c.andThen d) := by
  rintro stop ts r rest (⟨a, mid, hc, hd⟩ | ⟨error, hc, rfl⟩)
  · exact (hx hc).bind (hf a hd)
  · exact (hx hc).bind_error

theorem performs_take {f : Option Token → Parse σ α} {expected : Expected}
    {accept : Option Token → Option α}
    (haccept : ∀ found a, accept found = some a → f found = pure a)
    (hrefuse : ∀ found, accept found = none → f found = Parse.unexpected expected found) :
    S.Performs (Parse.take >>= f) (.take expected accept) := by
  rintro stop ts r rest ⟨rfl, rfl⟩
  cases hfront : accept (front ts) with
  | some a =>
    refine yields_take.bind ?_
    rw [haccept _ a hfront]
    exact yields_pure a
  | none => exact yields_take_fail (hrefuse _ hfront)

theorem performs_expect (t : Token) : S.Performs (Parse.expect t) (.expect t) := by
  refine performs_take (fun found a h => ?_) (fun found h => ?_)
  · split at h
    · next hfound => exact if_pos hfound
    · simp at h
  · split at h
    · simp at h
    · next hfound => exact if_neg hfound

end Supply

private theorem ofPunctuator?_eq_none_of_beginsFactor {p : Punctuator}
    (h : beginsFactor (some (.punctuator p)) = false) : UnaryOp.ofPunctuator? p = none := by
  revert h
  cases p <;> decide

/-- The parser of a phase, with a budget for factors and one for operators. -/
def Phase.parser {σ : Type} [TokenSource σ] (budget count : Nat) : Phase → Parse σ Expr
  | .factor => Parse.factor budget
  | .tiers all => Parse.tiered (Parse.factor budget) budget all
  | .chain tier tighter left =>
    Parse.chain (Parse.tiered (Parse.factor budget) budget tighter) tier count left

/-- A parser whose budgets suffice takes the course of its phase. -/
theorem Phase.Course.yields {σ : Type} [TokenSource σ] {S : Supply σ} {phase : Phase}
    {stop : Position} {ts rest : List (Located Token)} {r : Except (Located SyntaxError) Expr}
    (h : phase.Course stop ts r rest) {budget count : Nat} (hbudget : ts.length ≤ budget)
    (hcount : ts.length ≤ count) : S.Yields (phase.parser budget count) stop ts r rest := by
  induction h generalizing budget count with
  | literal h =>
    obtain ⟨k, rfl⟩ := Nat.exists_eq_add_of_lt hbudget
    refine Supply.yields_take.bind ?_
    simp only [front, List.head?_cons, Option.map_some, List.tail_cons, Parse.integer, h]
    exact Supply.yields_pure _
  | overflow h =>
    obtain ⟨k, rfl⟩ := Nat.exists_eq_add_of_lt hbudget
    refine Supply.yields_take_fail ?_
    simp only [front, List.head?_cons, Option.map_some, Parse.integer, h]
  | @refused ts h =>
    cases budget with
    | zero => exact Supply.yields_take_fail rfl
    | succ k =>
      refine Supply.yields_take_fail ?_
      split
      · next htoken => exact absurd (htoken ▸ h) (by simp [beginsFactor])
      · next htoken => exact absurd (htoken ▸ h) (by simp [beginsFactor])
      · next p hparen htoken =>
        rw [htoken] at h ⊢
        rw [ofPunctuator?_eq_none_of_beginsFactor h]
        rfl
      · rfl
  | @unary p op place ts rest e hop h ih =>
    obtain ⟨k, rfl⟩ := Nat.exists_eq_add_of_lt hbudget
    have hoperand := ih (Nat.le_add_right _ k) (Nat.le_refl _)
    refine Supply.yields_take.bind ?_
    cases p <;> cases hop <;> exact hoperand.bind (Supply.yields_pure _)
  | @unaryError p op place ts rest error hop h ih =>
    obtain ⟨k, rfl⟩ := Nat.exists_eq_add_of_lt hbudget
    have hoperand := ih (Nat.le_add_right _ k) (Nat.le_refl _)
    refine Supply.yields_take.bind ?_
    cases p <;> cases hop <;> exact hoperand.bind_error
  | parens h ih =>
    obtain ⟨k, rfl⟩ := Nat.exists_eq_add_of_lt hbudget
    have hinner := ih (Nat.le_add_right _ k) (Nat.le_refl _)
    refine Supply.yields_take.bind (hinner.bind ?_)
    exact (Supply.performs_expect _ ⟨rfl, rfl⟩).bind (Supply.yields_pure _)
  | unclosed h hrest ih =>
    obtain ⟨k, rfl⟩ := Nat.exists_eq_add_of_lt hbudget
    have hinner := ih (Nat.le_add_right _ k) (Nat.le_refl _)
    refine Supply.yields_take.bind (hinner.bind ?_)
    refine Supply.Yields.bind_error (Supply.performs_expect _ ⟨?_, rfl⟩)
    simp only [if_neg hrest]
  | parensError h ih =>
    obtain ⟨k, rfl⟩ := Nat.exists_eq_add_of_lt hbudget
    have hinner := ih (Nat.le_add_right _ k) (Nat.le_refl _)
    exact Supply.yields_take.bind hinner.bind_error
  | single h ih => exact ih hbudget hcount
  | joined hleft h ihl ih =>
    have hmid := hleft.length_le
    exact (ihl hbudget hbudget).bind (ih (by omega) (by omega))
  | joinedError h ih => exact (ih hbudget hbudget).bind_error
  | chainEnd h =>
    cases count with
    | zero => exact Supply.yields_pure _
    | succ count =>
      refine Supply.yields_peek.bind ?_
      simp only [h]
      exact Supply.yields_pure _
  | @chainNext tier tighter left right op t ts mid rest r hop hright h ihr ih =>
    obtain ⟨k, rfl⟩ := Nat.exists_eq_add_of_lt hcount
    have hts : ts.length ≤ budget := Nat.le_of_succ_le hbudget
    have hmid : mid.length ≤ ts.length := hright.length_le
    have hfront : tier.operator? (front (t :: ts)) = some op := hop
    have hnext := ih (Nat.le_trans hmid hts) (Nat.le_trans hmid (Nat.le_add_right _ k))
    refine Supply.yields_peek.bind ?_
    simp only [hfront]
    exact Supply.yields_take.bind ((ihr hts (Nat.le_refl _)).bind hnext)
  | @chainError tier tighter left op t ts rest error hop h ih =>
    obtain ⟨k, rfl⟩ := Nat.exists_eq_add_of_lt hcount
    have hts : ts.length ≤ budget := Nat.le_of_succ_le hbudget
    have hfront : tier.operator? (front (t :: ts)) = some op := hop
    refine Supply.yields_peek.bind ?_
    simp only [hfront]
    exact Supply.yields_take.bind (ih hts (Nat.le_refl _)).bind_error

namespace Supply

variable {σ α : Type} [TokenSource σ] (S : Supply σ)

theorem performs_expr : S.Performs Parse.expr .expr := by
  intro stop ts r rest h reader hholds
  have hrun : StateT.run (ExceptT.run (Parse.expr : Parse σ Expr)) reader =
      StateT.run (ExceptT.run ((Phase.tiers Tier.all).parser
        (TokenSource.pending reader.source) ts.length)) reader := by
    simp only [Parse.expr, ExceptT.run_bind, StateT.run_bind]
    have hget : StateT.run (ExceptT.run (get : Parse σ (Reader σ))) reader =
        .ok (.ok reader, reader) := rfl
    rw [hget]
    rfl
  rw [hrun]
  exact h.yields (S.length_le_pending hholds) (Nat.le_refl _) reader hholds

theorem performs_identifier : S.Performs Parse.identifier .identifier := by
  refine performs_take (fun found a h => ?_) (fun found h => ?_)
  · split at h
    · rw [Option.some.inj h]
    · simp at h
  · cases found with
    | none => rfl
    | some t =>
      cases t with
      | identifier name => cases h
      | _ => rfl

theorem performs_statement : S.Performs Parse.statement .statement :=
  (performs_expect _).bind fun _ => S.performs_expr.bind fun _ =>
    (performs_expect _).bind fun _ => performs_pure _

/-- A record changes nothing of a parse. -/
theorem Performs.after_note {S : Supply σ} {f : Unit → Parse σ α} {c : Course α}
    (h : S.Performs (f ()) c) (record : Log.Record) :
    S.Performs (Parse.read (Reader.note record) >>= f) c := by
  intro stop ts r rest hcourse reader hholds
  exact h hcourse { reader with log := reader.log.push record } hholds

theorem performs_function : S.Performs Parse.function .function :=
  (performs_expect _).bind fun _ => S.performs_identifier.bind fun _ =>
    (performs_expect _).bind fun _ => (performs_expect _).bind fun _ =>
      (performs_expect _).bind fun _ => S.performs_statement.bind fun _ =>
        (performs_expect _).bind fun _ =>
          Performs.after_note (f := fun _ => pure _) (performs_pure _) _

theorem performs_program : S.Performs Parse.program .program := by
  refine S.performs_function.bind fun f => performs_take (fun found a h => ?_) (fun found h => ?_)
  · split at h
    · rw [Option.some.inj h]
    · simp at h
  · cases found with
    | none => cases h
    | some t => rfl

/-- A parse that performs a course comes to an end of it. -/
theorem Performs.exists_run {S : Supply σ} {x : Parse σ α} {c : Course α} (h : S.Performs x c)
    (htotal : c.Total) {s : σ} {ts : List (Located Token)} {stop : Position}
    (hs : S.Holds s ts stop) :
    ∃ r rest reader, x.run s = .ok (r, reader) ∧ S.Holds reader.source rest stop ∧
      c stop ts r rest := by
  obtain ⟨r, rest, hcourse⟩ := htotal stop ts
  obtain ⟨reader, hrun, hrest⟩ := h hcourse { source := s } hs
  exact ⟨r, rest, reader, hrun, hrest, hcourse⟩

end Supply

/-- The tokens of a buffer. -/
def TokenBuffer.supply : Supply TokenBuffer where
  Holds b ts stop := b.rest = ts ∧ b.stop = stop
  next := by
    rintro b ts stop ⟨rfl, rfl⟩
    exact ⟨b.next, rfl, ⟨rfl, rfl⟩, rfl, rfl⟩
  peek := by
    rintro b ts stop ⟨rfl, rfl⟩
    exact ⟨b, rfl, rfl, rfl⟩
  length_le_pending := by
    rintro b ts stop ⟨rfl, rfl⟩
    exact Nat.le_refl _

/-- A course that is performed is determined by the tokens. -/
theorem Supply.Performs.unique {α : Type} {x : Parse TokenBuffer α} {c : Course α}
    (h : TokenBuffer.supply.Performs x c) {stop : Position} {ts rest rest' : List (Located Token)}
    {r r' : Except (Located SyntaxError) α} (hr : c stop ts r rest) (hr' : c stop ts r' rest') :
    r = r' ∧ rest = rest' := by
  obtain ⟨reader, hrun, hrest, -⟩ := h hr { source := { rest := ts, stop } } ⟨rfl, rfl⟩
  obtain ⟨reader', hrun', hrest', -⟩ := h hr' { source := { rest := ts, stop } } ⟨rfl, rfl⟩
  have heq := Except.ok.inj (hrun.symm.trans hrun')
  rw [Prod.mk.injEq] at heq
  obtain ⟨rfl, rfl⟩ := heq
  exact ⟨rfl, hrest.symm.trans hrest'⟩

end MiniC
