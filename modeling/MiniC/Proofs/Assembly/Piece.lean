import MiniC.Proofs.Assembly.Layout
import MiniC.Proofs.Assembly.Reading

/-!
# Pieces of code

Whatever is written on its own computes one expression. A function and a program have a header in
front of it, which opens the scope of the function, and a return ends everything but an expression.
So a piece whose labels do not run out is written completely, and it reserves the labels of its
expression.
-/

namespace MiniC.Assembly

namespace Piece

/-- The expression that a piece computes. -/
def result : Piece → Expr
  | .expr e => e
  | .statement (.ret e) => e
  | .function f => Program.result ⟨f⟩
  | .program p => p.result

/-- The name of the function that a piece defines. -/
def name? : Piece → Option String
  | .expr _ => none
  | .statement _ => none
  | .function f => some f.name
  | .program p => some p.function.name

/-- The scope of a piece's labels: its own, or the one it is written in. -/
def scopeIn (scope : String) (piece : Piece) : String := piece.name?.getD scope

/-- What comes before the code of the expression. -/
def header (piece : Piece) : List (Step Nat) :=
  match piece.name? with
  | none => []
  | some name =>
    [.write (.global (symbol name)), .write (.symbol (symbol name)), .enter name]

/-- What comes after the code of the expression. -/
def footer : Piece → List (Step Nat)
  | .expr _ => []
  | _ => [.instr .ret]

theorem code_eq (piece : Piece) (n : Nat) :
    piece.code n = piece.header ++ (piece.result.code n [] ++ piece.footer) := by
  cases piece with
  | expr e => exact (List.append_nil _).symm
  | statement s =>
    obtain ⟨e⟩ := s
    exact e.code_eq_append n _
  | function f =>
    obtain ⟨name, ⟨e⟩⟩ := f
    exact congrArg (_ :: _ :: _ :: ·) (e.code_eq_append n _)
  | program p =>
    obtain ⟨⟨name, ⟨e⟩⟩⟩ := p
    exact congrArg (_ :: _ :: _ :: ·) (e.code_eq_append n _)

theorem scopeAfter_header (piece : Piece) (scope : String) :
    scopeAfter scope piece.header = piece.scopeIn scope := by
  unfold header scopeIn
  cases piece.name? <;> rfl

theorem reserved_header (piece : Piece) : reserved piece.header = 0 := by
  unfold header
  cases piece.name? <;> rfl

theorem footer_inert (piece : Piece) (scope : String) :
    scopeAfter scope piece.footer = scope ∧ reserved piece.footer = 0 := by
  cases piece <;> exact ⟨rfl, rfl⟩

/-- A piece is written in the scope of its function from the header on. -/
theorem scopeAfter_code (piece : Piece) (n : Nat) (scope : String) :
    scopeAfter scope (piece.code n) = piece.scopeIn scope := by
  rw [code_eq, scopeAfter_append, scopeAfter_append, scopeAfter_header, Expr.scopeAfter_code,
    (piece.footer_inert _).1]

theorem reserved_code (piece : Piece) (n : Nat) :
    reserved (piece.code n) = piece.result.labelCount := by
  rw [code_eq, reserved_append, reserved_append, reserved_header, Expr.reserved_code,
    (piece.footer_inert "").2, Nat.zero_add, Nat.add_zero]

/-- The lines that a generator writes for a piece. -/
def lines (g : Generator) (piece : Piece) : List (Line String) :=
  spelled g.scope (piece.code g.nextLabel)

/-- The lines of a piece are those of its expression between the header and the return. -/
theorem lines_eq (g : Generator) (piece : Piece) :
    piece.lines g = spelled g.scope piece.header ++
      (piece.result.lines (piece.scopeIn g.scope) g.nextLabel ++
        spelled (piece.scopeIn g.scope) piece.footer) := by
  rw [lines, code_eq, spelled_append, spelled_append, scopeAfter_header, Expr.scopeAfter_code,
    Expr.lines]

/-- The complete text of a piece. -/
def bytes (g : Generator) (piece : Piece) : Bytes := .ofText (textOf (piece.lines g))

end Piece

namespace Generator

/-- A generator whose labels do not run out writes all lines to a sink without a limit. -/
theorem run_none {g : Generator} {steps : List (Step Nat)}
    (h : g.nextLabel + reserved steps ≤ counterMax) :
    g.run none steps = .ok ⟨.ofText (textOf (spelled g.scope steps)), true,
      ⟨scopeAfter g.scope steps, g.nextLabel + reserved steps⟩⟩ := by
  induction steps generalizing g with
  | nil => rfl
  | cons step steps ih =>
    cases step with
    | enter scope => exact ih (g := { g with scope }) h
    | reserve =>
      rw [reserved, ← Nat.add_assoc] at h
      have hraise : raiseCounter g.nextLabel 2 = .ok (g.nextLabel + 2) := if_pos (by omega)
      have hrun := ih (g := { g with nextLabel := g.nextLabel + 2 }) h
      simp only [run, hraise, bind, Except.bind, hrun, spelled, scopeAfter, reserved,
        Nat.add_assoc]
    | write line =>
      have hrun := ih (g := g) h
      have hbytes : g.lineBytes line ++ Bytes.ofText (textOf (spelled g.scope steps)) =
          Bytes.ofText (textOf (spelled g.scope (.write line :: steps))) := by
        simp [lineBytes, spelled, textOf_cons, Bytes.ofText]
      simp only [run, Room.fits, if_true, Room.minus, Option.map_none, hrun, bind, Except.bind,
        pure, Except.pure, hbytes]
      rfl

variable {g : Generator} {piece : Piece}

/-- A piece whose labels do not run out is written completely. -/
theorem emit_none (h : g.nextLabel + piece.result.labelCount ≤ counterMax) :
    g.emit piece none = .ok ⟨piece.bytes g, true,
      ⟨piece.scopeIn g.scope, g.nextLabel + piece.result.labelCount⟩⟩ := by
  rw [← piece.reserved_code g.nextLabel] at h
  rw [emit, run_none h, piece.scopeAfter_code, piece.reserved_code, Piece.bytes, Piece.lines]

/-- A limited sink takes the first bytes of a piece, and all of them exactly if there is room. -/
theorem exists_emit_limit (h : g.nextLabel + piece.result.labelCount ≤ counterMax) (limit : Nat) :
    ∃ e, g.emit piece (some limit) = .ok e ∧ e.bytes = (piece.bytes g).take limit ∧
      (e.complete = true ↔ (piece.bytes g).length ≤ limit) :=
  exists_run_limit (emit_none h) limit

/-- What a sink took of a piece is the complete text of it if nothing failed. -/
theorem bytes_of_emit_eq (h : g.nextLabel + piece.result.labelCount ≤ counterMax) {room : Room}
    {e : Emission} (he : g.emit piece room = .ok e) (hcomplete : e.complete = true) :
    e.bytes = piece.bytes g := by
  cases room with
  | none =>
    rw [emit_none h] at he
    cases he
    rfl
  | some limit =>
    obtain ⟨e', he', hbytes, hfits⟩ := exists_emit_limit h limit
    cases he.symm.trans he'
    rw [hbytes, List.take_of_length_le (hfits.mp hcomplete)]

end Generator

end MiniC.Assembly
