import MiniC.Proofs.Parse.Grammar
import MiniC.Proofs.Parse.Supply

/-!
# Recognition

A parse accepts exactly what the grammar derives, and its result is the derived tree. What an
expression's parse takes is derived, and ends before a token that is no operator; conversely the
parse takes all of a derived expression that stands before such a token.
-/

namespace MiniC

open Grammar

/-- No operator of some tiers comes next. -/
def Ends (all : List Tier) (ts : List (Located Token)) : Prop :=
  ∀ tier ∈ all, tier.operator? (front ts) = none

theorem Ends.tail {all : List Tier} {ts : List (Located Token)} (h : Ends all ts) :
    Ends all.tail ts :=
  fun tier hmem => h tier (List.mem_of_mem_tail hmem)

/-- Located tokens with a given first token. -/
theorem exists_cons_of_map_val_eq {us : List (Located Token)} {t : Token} {u : List Token}
    (h : us.map Located.val = t :: u) :
    ∃ place vs, us = ⟨t, place⟩ :: vs ∧ vs.map Located.val = u := by
  obtain ⟨first, vs, rfl, rfl, hvs⟩ := List.map_eq_cons_iff.mp h
  exact ⟨first.position, vs, rfl, hvs⟩

theorem exists_singleton_of_map_val_eq {us : List (Located Token)} {t : Token}
    (h : us.map Located.val = [t]) : ∃ place, us = [⟨t, place⟩] := by
  obtain ⟨place, vs, rfl, hvs⟩ := exists_cons_of_map_val_eq h
  exact ⟨place, by rw [List.map_eq_nil_iff.mp hvs]⟩

namespace Grammar.Level

/-- The tiers of a level and of those that follow it. -/
def tiers : Level → List Tier
  | .logicalOr => Tier.all
  | .logicalAnd => Tier.all.drop 1
  | .equality => Tier.all.drop 2
  | .relational => Tier.all.drop 3
  | .additive => Tier.all.drop 4
  | .term => Tier.all.drop 5
  | .factor => []

theorem tiers_of_next? {level next : Level} (h : level.next? = some next) :
    level.tiers = level.operators :: next.tiers := by
  cases level <;> cases h <;> rfl

/-- Whatever is joined by operators belongs to a level that has a next one. -/
theorem exists_next?_of_tiers_eq {level : Level} {tier : Tier} {tighter : List Tier}
    (h : level.tiers = tier :: tighter) :
    ∃ next, level.next? = some next ∧ level.operators = tier ∧ next.tiers = tighter := by
  cases level <;> cases h <;> exact ⟨_, rfl, rfl, rfl⟩

theorem eq_factor_of_tiers_eq {level : Level} (h : level.tiers = []) : level = .factor := by
  cases level <;> first | rfl | cases h

/-- An operator is found by its punctuator. -/
theorem operator?_eq_some_iff {level : Level} {t : Token} {op : BinaryOp} :
    Tier.operator? level.operators (some t) = some op ↔
      ∃ p, t = .punctuator p ∧ (p, op) ∈ level.operators := by
  constructor
  · intro h
    cases t with
    | punctuator p =>
      obtain ⟨before, after, heq, -⟩ := List.lookup_eq_some_iff.mp h
      exact ⟨p, rfl, by simp [heq]⟩
    | _ => exact absurd h (by simp [Tier.operator?])
  · rintro ⟨p, rfl, hop⟩
    have hall : ∀ q ∈ level.operators,
        Tier.operator? level.operators (some (.punctuator q.1)) = some q.2 := by
      cases level <;> decide
    exact hall (p, op) hop

/-- No punctuator is an operator of two levels. -/
theorem operator?_eq_none_of_mem {level next : Level} {p : Punctuator} {op : BinaryOp}
    (hnext : level.next? = some next) (hop : (p, op) ∈ level.operators) {tier : Tier}
    (htier : tier ∈ next.tiers) : tier.operator? (some (.punctuator p)) = none := by
  have hall : ∀ tier ∈ next.tiers, ∀ q ∈ level.operators,
      tier.operator? (some (.punctuator q.1)) = none := by
    cases level <;> cases hnext <;> decide
  exact hall tier htier (p, op) hop

end Grammar.Level

theorem ofPunctuator?_eq_some_iff {p : Punctuator} {op : UnaryOp} :
    UnaryOp.ofPunctuator? p = some op ↔ (p, op) ∈ unaryOperators := by
  constructor
  · intro h
    cases p <;> cases h <;> decide
  · intro h
    have hall : ∀ q ∈ unaryOperators, UnaryOp.ofPunctuator? q.1 = some q.2 := by decide
    exact hall (p, op) h

namespace Phase

/-- The tokens taken by a phase derive its result. What follows a left operand is judged together
with the tokens of that operand. -/
def Accepts (phase : Phase) (u : List Token) (e : Expr) : Prop :=
  match phase with
  | .factor => Derives .factor u e
  | .tiers all => ∀ level : Level, level.tiers = all → Derives level u e
  | .chain tier tighter left => ∀ level : Level, level.tiers = tier :: tighter →
    ∀ w, Derives level w left → Derives level (w ++ u) e

/-- The operators that may not come next after a phase, provided that none of a tighter tier does
before it goes on from a left operand. -/
def Closes (phase : Phase) (ts rest : List (Located Token)) : Prop :=
  match phase with
  | .factor => True
  | .tiers all => Ends all rest
  | .chain tier tighter _ => Ends tighter ts → Ends (tier :: tighter) rest

/-- An accepted expression is derived by the tokens taken, and no operator follows it. -/
theorem Course.exists_accepts {stop : Position} {phase : Phase} {ts rest : List (Located Token)}
    {r : Except (Located SyntaxError) Expr} (h : phase.Course stop ts r rest) {e : Expr}
    (hr : r = .ok e) :
    (∃ us, ts = us ++ rest ∧ phase.Accepts (us.map Located.val) e) ∧ phase.Closes ts rest := by
  induction h generalizing e with
  | @literal text v place ts h =>
    obtain rfl := Except.ok.inj hr
    obtain ⟨n, hn, hle, rfl⟩ := Literal.value?_eq_some_iff.mp h
    exact ⟨⟨[⟨.literal text, place⟩], rfl, .integer hn hle⟩, trivial⟩
  | overflow h => exact absurd hr (by simp)
  | refused h => exact absurd hr (by simp)
  | @unary p op place ts rest e hop h ih =>
    obtain rfl := Except.ok.inj hr
    obtain ⟨⟨us, rfl, hus⟩, -⟩ := ih rfl
    have hderives := Derives.unary (ofPunctuator?_eq_some_iff.mp hop) hus
    exact ⟨⟨⟨.punctuator p, place⟩ :: us, rfl, hderives⟩, trivial⟩
  | unaryError hop h ih => exact absurd hr (by simp)
  | @parens place place' ts rest e h ih =>
    obtain rfl := Except.ok.inj hr
    obtain ⟨⟨us, rfl, hus⟩, -⟩ := ih rfl
    refine ⟨⟨⟨.punctuator .openParen, place⟩ :: (us ++ [⟨.punctuator .closeParen, place'⟩]),
      by simp, ?_⟩, trivial⟩
    have hinner : Derives .logicalOr (us.map Located.val) e := hus .logicalOr rfl
    simpa [Accepts] using Derives.parens hinner
  | unclosed h hrest ih => exact absurd hr (by simp)
  | parensError h ih => exact absurd hr (by simp)
  | single h ih =>
    obtain ⟨⟨us, rfl, hus⟩, -⟩ := ih hr
    refine ⟨⟨us, rfl, fun level hlevel => ?_⟩, by simp [Closes, Ends]⟩
    rw [Level.eq_factor_of_tiers_eq hlevel]
    exact hus
  | @joined tier tighter ts mid rest left r hleft h ihl ih =>
    obtain ⟨⟨us, rfl, hus⟩, hends⟩ := ihl rfl
    obtain ⟨⟨vs, rfl, hvs⟩, hclose⟩ := ih hr
    refine ⟨⟨us ++ vs, by simp, fun level hlevel => ?_⟩, hclose hends⟩
    obtain ⟨next, hnext, -, htighter⟩ := Level.exists_next?_of_tiers_eq hlevel
    rw [List.map_append]
    exact hvs level hlevel _ (.operand hnext (hus next htighter))
  | joinedError h ih => exact absurd hr (by simp)
  | @chainEnd tier tighter left ts h =>
    obtain rfl := Except.ok.inj hr
    refine ⟨⟨[], rfl, fun level hlevel w hw => by simpa using hw⟩, fun hends => ?_⟩
    exact List.forall_mem_cons.mpr ⟨h, hends⟩
  | @chainNext tier tighter left right op t ts mid rest r hop hright h ihr ih =>
    obtain ⟨⟨us, rfl, hus⟩, hends⟩ := ihr rfl
    obtain ⟨⟨vs, rfl, hvs⟩, hclose⟩ := ih hr
    refine ⟨⟨t :: (us ++ vs), by simp, fun level hlevel w hw => ?_⟩, fun _ => hclose hends⟩
    obtain ⟨next, hnext, hoperators, htighter⟩ := Level.exists_next?_of_tiers_eq hlevel
    rw [← hoperators] at hop
    obtain ⟨p, hp, hmem⟩ := Level.operator?_eq_some_iff.mp hop
    have hjoined := hvs level hlevel _ (.binary hnext hmem hw (hus next htighter))
    simpa [hp] using hjoined
  | chainError hop h ih => exact absurd hr (by simp)

end Phase

namespace Grammar

/-- The course of a level from one of its expressions on: what follows may go on with it, except
that a factor is complete. -/
def Level.Continues (stop : Position) (level : Level) (e : Expr) (ts : List (Located Token))
    (r : Except (Located SyntaxError) Expr) (rest : List (Located Token)) : Prop :=
  match level.tiers with
  | [] => r = .ok e ∧ rest = ts
  | tier :: tighter => (Phase.chain tier tighter e).Course stop ts r rest

theorem Level.continues_of_ends {stop : Position} {level : Level} (e : Expr)
    {ts : List (Located Token)} (h : Ends level.tiers ts) :
    level.Continues stop e ts (.ok e) ts := by
  unfold Continues
  split
  · exact ⟨rfl, rfl⟩
  · next tier tighter htiers => exact .chainEnd (h tier (by simp [htiers]))

/-- A derived expression is taken, and the parse goes on from it. An operator after it is looked at
only by the levels that have not begun an operand of it, so that those which follow have to end. -/
theorem Derives.course {stop : Position} {level : Level} {u : List Token} {e : Expr}
    (h : Derives level u e) {us ts rest : List (Located Token)}
    {r : Except (Located SyntaxError) Expr} (hus : us.map Located.val = u)
    (hends : Ends level.tiers.tail ts) (hnext : level.Continues stop e ts r rest) :
    (Phase.tiers level.tiers).Course stop (us ++ ts) r rest := by
  induction h generalizing us ts r rest with
  | @operand level next u e hlevel h ih =>
    have htiers := Level.tiers_of_next? hlevel
    rw [htiers] at hends ⊢
    rw [Level.Continues, htiers] at hnext
    exact .joined (ih hus hends.tail (Level.continues_of_ends e hends)) hnext
  | @binary level next u v p op left right hlevel hop hleft hright ihl ihr =>
    have htiers := Level.tiers_of_next? hlevel
    obtain ⟨first, last, rfl, hfirst, hlast⟩ := List.map_eq_append_iff.mp hus
    obtain ⟨place, second, rfl, hsecond⟩ := exists_cons_of_map_val_eq hlast
    rw [htiers, List.tail_cons] at hends
    rw [Level.Continues, htiers] at hnext
    have hoperator : Tier.operator? level.operators (some (.punctuator p)) = some op :=
      Level.operator?_eq_some_iff.mpr ⟨p, rfl, hop⟩
    have hright := ihr hsecond hends.tail (Level.continues_of_ends right hends)
    have hcontinues :
        level.Continues stop left (⟨.punctuator p, place⟩ :: (second ++ ts)) r rest := by
      rw [Level.Continues, htiers]
      exact .chainNext hoperator hright hnext
    have hfollow : Ends level.tiers.tail (⟨.punctuator p, place⟩ :: (second ++ ts)) := by
      intro tier hmem
      rw [htiers, List.tail_cons] at hmem
      exact Level.operator?_eq_none_of_mem hlevel hop hmem
    simpa using ihl hfirst hfollow hcontinues
  | @parens u e h ih =>
    obtain ⟨rfl, rfl⟩ := hnext
    obtain ⟨place, inner, rfl, hinner⟩ := exists_cons_of_map_val_eq hus
    obtain ⟨first, last, rfl, hfirst, hlast⟩ := List.map_eq_append_iff.mp hinner
    obtain ⟨place', rfl⟩ := exists_singleton_of_map_val_eq hlast
    have hclose : Ends Tier.all (⟨.punctuator .closeParen, place'⟩ :: rest) :=
      (by decide : ∀ tier ∈ Tier.all, tier.operator? (some (.punctuator .closeParen)) = none)
    have hexpr := ih hfirst hclose.tail (Level.continues_of_ends e hclose)
    rw [List.cons_append, List.append_assoc]
    exact .single (.parens hexpr)
  | @unary p op u e hop h ih =>
    obtain ⟨rfl, rfl⟩ := hnext
    obtain ⟨place, operand, rfl, hoperand⟩ := exists_cons_of_map_val_eq hus
    cases ih hoperand hends ⟨rfl, rfl⟩ with
    | single hfactor => exact .single (.unary (ofPunctuator?_eq_some_iff.mpr hop) hfactor)
  | @integer text n h hn =>
    obtain ⟨rfl, rfl⟩ := hnext
    obtain ⟨place, rfl⟩ := exists_singleton_of_map_val_eq hus
    exact .single (.literal (Literal.value?_eq_some_iff.mpr ⟨n, h, hn, rfl⟩))

end Grammar

namespace Course

variable {α β : Type} {stop : Position} {ts rest : List (Located Token)}

theorem done_ok_iff {a b : α} : done a stop ts (.ok b) rest ↔ b = a ∧ rest = ts := by
  simp [done]

theorem andThen_ok_iff {c : Course α} {d : α → Course β} {b : β} :
    c.andThen d stop ts (.ok b) rest ↔
      ∃ a mid, c stop ts (.ok a) mid ∧ d a stop mid (.ok b) rest := by
  simp [andThen]

theorem take_ok_iff {expected : Expected} {accept : Option Token → Option α} {a : α} :
    take expected accept stop ts (.ok a) rest ↔ accept (front ts) = some a ∧ rest = ts.tail := by
  rw [take]
  cases accept (front ts) with
  | some b => simp [eq_comm]
  | none => simp

theorem expect_ok_iff {t : Token} {a : Unit} :
    expect t stop ts (.ok a) rest ↔ ∃ place, ts = ⟨t, place⟩ :: rest := by
  rw [expect, take_ok_iff]
  constructor
  · rintro ⟨haccept, rfl⟩
    split at haccept
    · next hfront =>
      obtain ⟨place, rest, rfl⟩ := exists_cons_of_front_eq hfront
      exact ⟨place, rfl⟩
    · simp at haccept
  · rintro ⟨place, rfl⟩
    exact ⟨if_pos rfl, rfl⟩

theorem identifier_ok_iff {name : String} :
    identifier stop ts (.ok name) rest ↔ ∃ place, ts = ⟨.identifier name, place⟩ :: rest := by
  rw [identifier, take_ok_iff]
  constructor
  · rintro ⟨haccept, rfl⟩
    split at haccept
    · next found hfront =>
      obtain ⟨place, rest, rfl⟩ := exists_cons_of_front_eq hfront
      obtain rfl := Option.some.inj haccept
      exact ⟨place, rfl⟩
    · simp at haccept
  · rintro ⟨place, rfl⟩
    exact ⟨rfl, rfl⟩

theorem endOfInput_ok_iff {a b : α} :
    endOfInput a stop ts (.ok b) rest ↔ b = a ∧ ts = [] ∧ rest = [] := by
  rw [endOfInput, take_ok_iff]
  cases ts with
  | nil => simp [front, eq_comm]
  | cons t ts => simp [front]

/-- Exactly the derived expressions before a token that is no operator are accepted. -/
theorem expr_ok_iff {e : Expr} : expr stop ts (.ok e) rest ↔
    ∃ us, ts = us ++ rest ∧ Derives .logicalOr (us.map Located.val) e ∧ Ends Tier.all rest := by
  constructor
  · intro h
    obtain ⟨⟨us, rfl, hus⟩, hends⟩ := Phase.Course.exists_accepts h rfl
    exact ⟨us, rfl, hus .logicalOr rfl, hends⟩
  · rintro ⟨us, rfl, hus, hends⟩
    exact hus.course rfl hends.tail (Level.continues_of_ends e hends)

/-- Exactly the derived statements are accepted. -/
theorem statement_ok_iff {s : Statement} : statement stop ts (.ok s) rest ↔
    ∃ us, ts = us ++ rest ∧ DerivesStatement (us.map Located.val) s := by
  simp only [statement, andThen_ok_iff, expect_ok_iff, done_ok_iff, expr_ok_iff]
  constructor
  · rintro ⟨-, -, ⟨place, rfl⟩, e, -, ⟨us, rfl, hus, -⟩, -, mid, ⟨place', rfl⟩, rfl, rfl⟩
    refine ⟨⟨.keyword .ret, place⟩ :: (us ++ [⟨.punctuator .semicolon, place'⟩]), by simp, ?_⟩
    simpa using DerivesStatement.ret hus
  · rintro ⟨us, rfl, hus⟩
    generalize hu : us.map Located.val = u at hus
    cases hus with
    | @ret u e h =>
      obtain ⟨place, vs, rfl, hvs⟩ := exists_cons_of_map_val_eq hu
      obtain ⟨first, last, rfl, rfl, hlast⟩ := List.map_eq_append_iff.mp hvs
      obtain ⟨place', rfl⟩ := exists_singleton_of_map_val_eq hlast
      have hends : Ends Tier.all (⟨.punctuator .semicolon, place'⟩ :: rest) :=
        (by decide : ∀ tier ∈ Tier.all, tier.operator? (some (.punctuator .semicolon)) = none)
      exact ⟨(), _, ⟨place, rfl⟩, e, _, ⟨first, by simp, h, hends⟩, (), rest, ⟨place', rfl⟩, rfl,
        rfl⟩

/-- Exactly the derived functions are accepted. -/
theorem function_ok_iff {f : FunctionDef} : function stop ts (.ok f) rest ↔
    ∃ us, ts = us ++ rest ∧ DerivesFunction (us.map Located.val) f := by
  simp only [function, andThen_ok_iff, expect_ok_iff, identifier_ok_iff, done_ok_iff,
    statement_ok_iff]
  constructor
  · rintro ⟨-, -, ⟨place₁, rfl⟩, name, -, ⟨place₂, rfl⟩, -, -, ⟨place₃, rfl⟩, -, -, ⟨place₄, rfl⟩,
      -, -, ⟨place₅, rfl⟩, body, -, ⟨us, rfl, hus⟩, -, mid, ⟨place₆, rfl⟩, rfl, rfl⟩
    refine ⟨⟨.keyword .int, place₁⟩ :: ⟨.identifier name, place₂⟩ ::
      ⟨.punctuator .openParen, place₃⟩ :: ⟨.punctuator .closeParen, place₄⟩ ::
      ⟨.punctuator .openCurly, place₅⟩ :: (us ++ [⟨.punctuator .closeCurly, place₆⟩]), by simp, ?_⟩
    simpa using DerivesFunction.function hus
  · rintro ⟨us, rfl, hus⟩
    generalize hu : us.map Located.val = u at hus
    cases hus with
    | @function name u body h =>
      obtain ⟨place₁, us₁, rfl, hus₁⟩ := exists_cons_of_map_val_eq hu
      obtain ⟨place₂, us₂, rfl, hus₂⟩ := exists_cons_of_map_val_eq hus₁
      obtain ⟨place₃, us₃, rfl, hus₃⟩ := exists_cons_of_map_val_eq hus₂
      obtain ⟨place₄, us₄, rfl, hus₄⟩ := exists_cons_of_map_val_eq hus₃
      obtain ⟨place₅, us₅, rfl, hus₅⟩ := exists_cons_of_map_val_eq hus₄
      obtain ⟨inner, last, rfl, rfl, hlast⟩ := List.map_eq_append_iff.mp hus₅
      obtain ⟨place₆, rfl⟩ := exists_singleton_of_map_val_eq hlast
      exact ⟨(), _, ⟨place₁, rfl⟩, name, _, ⟨place₂, rfl⟩, (), _, ⟨place₃, rfl⟩, (), _,
        ⟨place₄, rfl⟩, (), _, ⟨place₅, rfl⟩, body, _, ⟨inner, by simp, h⟩, (), rest,
        ⟨place₆, rfl⟩, rfl, rfl⟩

/-- Exactly the derived programs are accepted. -/
theorem program_ok_iff {p : Program} : program stop ts (.ok p) rest ↔
    DerivesProgram (ts.map Located.val) p ∧ rest = [] := by
  simp only [program, andThen_ok_iff, function_ok_iff, endOfInput_ok_iff]
  constructor
  · rintro ⟨f, -, ⟨us, rfl, hus⟩, rfl, rfl, rfl⟩
    exact ⟨by simpa [DerivesProgram] using hus, rfl⟩
  · rintro ⟨hp, rfl⟩
    exact ⟨p.function, [], ⟨ts, by simp, hp⟩, rfl, rfl, rfl⟩

end Course

/-- A buffer of tokens is parsed to the program that the grammar derives from all of them, which is
the only one, and otherwise refused because of a token or a literal. -/
theorem Parse.run_program_iff_derivesProgram (b : TokenBuffer) :
    ∃ result reader, Parse.program.run b = .ok (result, reader) ∧
      (∀ p, result = .ok p ↔ DerivesProgram (b.rest.map Located.val) p) ∧
      (∀ p q, DerivesProgram (b.rest.map Located.val) p →
        DerivesProgram (b.rest.map Located.val) q → p = q) ∧
      ((¬∃ p, DerivesProgram (b.rest.map Located.val) p) →
        (∃ expected found place, result = .error ⟨.unexpected expected found, place⟩) ∨
          ∃ text place, result = .error ⟨.literalOverflow text, place⟩) := by
  obtain ⟨result, rest, reader, hrun, -, hcourse⟩ :=
    TokenBuffer.supply.performs_program.exists_run Course.total_program (s := b) ⟨rfl, rfl⟩
  have haccept : ∀ p, result = .ok p ↔ DerivesProgram (b.rest.map Located.val) p := by
    intro p
    constructor
    · rintro rfl
      exact (Course.program_ok_iff.mp hcourse).1
    · intro hp
      have hparse : Course.program b.stop b.rest (.ok p) [] := Course.program_ok_iff.mpr ⟨hp, rfl⟩
      exact (TokenBuffer.supply.performs_program.unique hcourse hparse).1
  refine ⟨result, reader, hrun, haccept, fun p q hp hq => ?_, fun hnone => ?_⟩
  · exact Except.ok.inj (((haccept p).mpr hp).symm.trans ((haccept q).mpr hq))
  · cases result with
    | ok p => exact absurd ⟨p, (haccept p).mp rfl⟩ hnone
    | error error =>
      obtain ⟨error, place⟩ := error
      cases error with
      | unexpected expected found => exact Or.inl ⟨expected, found, place, rfl⟩
      | literalOverflow text => exact Or.inr ⟨text, place, rfl⟩

end MiniC
