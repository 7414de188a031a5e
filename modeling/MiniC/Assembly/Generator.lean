import MiniC.Assembly.Code
import MiniC.Log
import MiniC.Text.Bytes

/-!
# Generators

A generator writes code to a sink and keeps the scope and the number of the next label from one
piece of code to the next. A sink may have room for so many bytes only: it takes the bytes that fit,
and writing ends at the first that does not. What the generator did up to there stays done.
-/

namespace MiniC.Assembly

/-- How many bytes a sink takes, if there is a limit. -/
abbrev Room := Option Nat

/-- The text of the error when a sink is full. -/
def Room.fullMessage : String := "sink is full"

/-- Whether so many bytes fit. -/
def Room.fits (room : Room) (size : Nat) : Bool :=
  match room with
  | none => true
  | some limit => size ≤ limit

/-- The room left after so many bytes. -/
def Room.minus (room : Room) (size : Nat) : Room := room.map (· - size)

/-- The bytes that still fit. -/
def Room.cut (room : Room) (bytes : Bytes) : Bytes :=
  match room with
  | none => bytes
  | some limit => bytes.take limit

/-- What a generator keeps. -/
structure Generator where
  /-- The name of the function entered last. -/
  scope : String := ""
  /-- The number of the next label. -/
  nextLabel : Nat := 0
  deriving DecidableEq, Repr

/-- The outcome of writing. -/
structure Emission where
  /-- The bytes that the sink took. -/
  bytes : Bytes
  /-- Whether that is everything. -/
  complete : Bool
  /-- The generator afterwards. -/
  generator : Generator
  deriving DecidableEq, Repr

/-- The sink's error, if it did not take everything. -/
def Emission.error? (e : Emission) : Option String :=
  if e.complete then none else some Room.fullMessage

/-- What can be written on its own. -/
inductive Piece where
  | expr (e : Expr)
  | statement (s : Statement)
  | function (f : FunctionDef)
  | program (p : Program)
  deriving DecidableEq, Repr

namespace Piece

/-- The code of a piece whose labels are numbered from `n` on. -/
def code (n : Nat) : Piece → List (Step Nat)
  | .expr e => e.code n []
  | .statement s => s.code n
  | .function f => f.code n
  | .program p => p.code n

/-- The record made before a function is written. -/
def notice (f : FunctionDef) : Log.Record :=
  ⟨.debug, .generator, "Emitting function `" ++ f.name ++ "`"⟩

/-- The records made before a piece is written. -/
def log : Piece → List Log.Record
  | .expr _ => []
  | .statement _ => []
  | .function f => [notice f]
  | .program p => [notice p.function]

end Piece

namespace Generator

/-- The bytes of a line in the scope of a generator. -/
def lineBytes (g : Generator) (line : Line Nat) : Bytes :=
  .ofText ((line.mapLabel (spellLabel g.scope)).text ++ "\n")

/-- Takes steps up to the first line that does not fit. -/
def run (g : Generator) (room : Room) : List (Step Nat) → Except Fault Emission
  | [] => .ok ⟨[], true, g⟩
  | .enter scope :: steps => run { g with scope } room steps
  | .reserve :: steps => do
    run { g with nextLabel := ← raiseCounter g.nextLabel 2 } room steps
  | .write line :: steps =>
    let bytes := g.lineBytes line
    if room.fits bytes.length then do
      let rest ← run g (room.minus bytes.length) steps
      return { rest with bytes := bytes ++ rest.bytes }
    else
      .ok ⟨room.cut bytes, false, g⟩

/-- A limited sink takes the first bytes of all that is written, and everything if there is room. -/
theorem exists_run_limit {steps : List (Step Nat)} {g : Generator} {all : Emission}
    (h : g.run none steps = .ok all) (limit : Nat) :
    ∃ e, g.run (some limit) steps = .ok e ∧ e.bytes = all.bytes.take limit ∧
      (e.complete = true ↔ all.bytes.length ≤ limit) := by
  induction steps generalizing g all limit with
  | nil =>
    simp only [run, Except.ok.injEq] at h
    subst h
    exact ⟨_, rfl, by simp, by simp⟩
  | cons step steps ih =>
    cases step with
    | enter scope => exact ih h limit
    | reserve =>
      simp only [run, bind, Except.bind] at h ⊢
      split at h
      · simp at h
      · exact ih h limit
    | write line =>
      simp only [run, Room.fits, Room.minus, if_true, Option.map, bind, Except.bind, pure,
        Except.pure] at h ⊢
      split at h
      · simp at h
      · rename_i rest hrest
        simp only [Except.ok.injEq] at h
        subst h
        by_cases hfit : (g.lineBytes line).length ≤ limit
        · obtain ⟨e, he, hbytes, hcomplete⟩ := ih hrest (limit - (g.lineBytes line).length)
          simp only [hfit, decide_true, if_true, he]
          refine ⟨_, rfl, ?_, ?_⟩
          · simp [hbytes, List.take_append, List.take_of_length_le hfit]
          · simp only [hcomplete, List.length_append]
            omega
        · simp only [hfit, decide_false]
          refine ⟨_, rfl, ?_, ?_⟩
          · simp [Room.cut, List.take_append]
            omega
          · simp
            omega

/-- Writes a piece of code. -/
def emit (g : Generator) (piece : Piece) (room : Room) : Except Fault Emission :=
  g.run room (piece.code g.nextLabel)

end Generator

/-- Writes a program by a generator of its own. -/
def emitProgram (p : Program) (room : Room) : Except Fault Emission :=
  Generator.emit {} (.program p) room

end MiniC.Assembly
