import MiniC.Assembly.Line
import Mathlib.Logic.Relation

/-!
# The machine

An image is assembly whose labels mark one place each. A machine executes its lines one after the
other, except where a jump is taken; lines that hold no instruction are passed. Registers have 64
bits: an instruction on 32 bits clears the upper half of the register it writes, and one on 8 bits
keeps all the others. A flag that an instruction leaves undefined has no value, and a machine that
asks for it is stuck. A division whose quotient does not exist or does not fit into 32 bits is an
error that stops the machine.
-/

namespace MiniC.Assembly

/-- The label that a line marks the place of. -/
def Line.label? {L : Type} : Line L → Option L
  | .label l => some l
  | _ => none

/-- Lines of assembly in which no label is marked twice. -/
structure Image where
  /-- The lines. -/
  lines : List (Line String)
  /-- No label is marked twice. -/
  nodup : (lines.filterMap Line.label?).Nodup

/-- The place of a label. -/
def Image.place? (image : Image) (label : String) : Option Nat :=
  image.lines.findIdx? fun line => line.label? = some label

/-- The general registers, apart from the stack pointer. -/
inductive Register where
  | rax
  | rbx
  | rcx
  | rdx
  | rsi
  | rdi
  | rbp
  | r8
  | r9
  | r10
  | r11
  | r12
  | r13
  | r14
  | r15
  deriving DecidableEq, Repr

/-- The general register that an operand names. -/
def Reg.register : Reg → Register
  | .a => .rax
  | .c => .rcx

/-- The flags that conditions depend on; one without a value is undefined. -/
structure Flags where
  /-- The result was zero. -/
  zero : Option Bool
  /-- The result was negative. -/
  sign : Option Bool
  /-- The signed result did not fit. -/
  overflow : Option Bool
  deriving DecidableEq, Repr

namespace Flags

/-- The flags after a result, given whether it did not fit. -/
def ofResult (result : BitVec 32) (overflow : Bool) : Flags :=
  ⟨some (result == 0), some result.msb, some overflow⟩

/-- The flags after subtracting `y` from `x`. -/
def ofSub (x y : BitVec 32) : Flags := ofResult (x - y) (x.ssubOverflow y)

/-- The flags after adding `x` and `y`. -/
def ofAdd (x y : BitVec 32) : Flags := ofResult (x + y) (x.saddOverflow y)

/-- The flags after multiplying `x` and `y`, which defines the overflow only. -/
def ofMul (x y : BitVec 32) : Flags := ⟨none, none, some (x.smulOverflow y)⟩

/-- The flags after a division. -/
def undefined : Flags := ⟨none, none, none⟩

/-- Whether the result was less than zero as a signed number without a bound. -/
def less? (f : Flags) : Option Bool := do return (← f.sign) != (← f.overflow)

end Flags

/-- Whether a condition holds, if the flags that it depends on are defined. -/
def Cond.holds? (f : Flags) : Cond → Option Bool
  | .equal => f.zero
  | .notEqual => f.zero.map not
  | .less => f.less?
  | .lessEqual => do return (← f.zero) || (← f.less?)
  | .greater => do return !((← f.zero) || (← f.less?))
  | .greaterEqual => f.less?.map not

/-- The state of a machine. -/
structure Machine where
  /-- The place of the next line. -/
  place : Nat
  /-- The contents of the registers. -/
  registers : Register → BitVec 64
  /-- The flags. -/
  flags : Flags
  /-- The words on the stack, the top first. -/
  stack : List (BitVec 64)

namespace Machine

/-- The low 32 bits of a register. -/
def long (m : Machine) (r : Register) : BitVec 32 := (m.registers r).setWidth 32

/-- Writes all of a register. -/
def setQuad (m : Machine) (r : Register) (value : BitVec 64) : Machine :=
  { m with registers := fun q => if q = r then value else m.registers q }

/-- Writes the low 32 bits of a register and clears the others. -/
def setLong (m : Machine) (r : Register) (value : BitVec 32) : Machine :=
  m.setQuad r (value.setWidth 64)

/-- Writes the low 8 bits of a register and keeps the others. -/
def setByte (m : Machine) (r : Register) (value : BitVec 8) : Machine :=
  m.setQuad r ((m.registers r).extractLsb' 8 56 ++ value)

/-- Goes on to the next line. -/
def advance (m : Machine) : Machine := { m with place := m.place + 1 }

@[simp] theorem registers_setQuad_self (m : Machine) (r : Register) (value : BitVec 64) :
    (m.setQuad r value).registers r = value := if_pos rfl

theorem registers_setQuad_of_ne (m : Machine) {q r : Register} (value : BitVec 64) (h : q ≠ r) :
    (m.setQuad r value).registers q = m.registers q := if_neg h

@[simp] theorem registers_setLong_self (m : Machine) (r : Register) (value : BitVec 32) :
    (m.setLong r value).registers r = value.setWidth 64 := if_pos rfl

theorem registers_setLong_of_ne (m : Machine) {q r : Register} (value : BitVec 32) (h : q ≠ r) :
    (m.setLong r value).registers q = m.registers q := if_neg h

/-- A register whose upper half is clear holds its value in the lower one. -/
theorem long_eq {m : Machine} {r : Register} {x : BitVec 32}
    (h : m.registers r = x.setWidth 64) : m.long r = x := by
  rw [long, h]
  simp

end Machine

/-- What a line leads to. -/
inductive Outcome where
  /-- The machine goes on. -/
  | next (m : Machine)
  /-- The function returns to its caller. -/
  | returned
  /-- A division stops the machine. -/
  | divideError
  /-- There is nothing that the machine could do. -/
  | stuck

namespace Image

/-- Goes to a label. -/
def goTo (image : Image) (m : Machine) (label : String) : Outcome :=
  match image.place? label with
  | some place => .next { m with place }
  | none => .stuck

/-- Divides the number in the low halves of two registers by a third, signed and toward zero. -/
def divide (m : Machine) (divisor : BitVec 32) : Outcome :=
  let dividend := (m.long .rdx ++ m.long .rax).toInt
  let quotient := dividend.tdiv divisor.toInt
  if divisor = 0 ∨ quotient < -2147483648 ∨ 2147483647 < quotient then .divideError
  else
    let remainder := dividend.tmod divisor.toInt
    let done := (m.setLong .rax (.ofInt 32 quotient)).setLong .rdx (.ofInt 32 remainder)
    .next { done with flags := .undefined }.advance

/-- Executes an instruction. -/
def execute (image : Image) (m : Machine) : Instr String → Outcome
  | .movl value dst => .next (m.setLong dst.register value.toBitVec).advance
  | .negl dst =>
    let x := m.long dst.register
    .next { m.setLong dst.register (-x) with flags := .ofSub 0 x }.advance
  | .notl dst => .next (m.setLong dst.register (~~~m.long dst.register)).advance
  | .cmplConst value dst =>
    .next { m with flags := .ofSub (m.long dst.register) value.toBitVec }.advance
  | .cmpl src dst =>
    .next { m with flags := .ofSub (m.long dst.register) (m.long src.register) }.advance
  | .addl src dst =>
    let x := m.long dst.register
    let y := m.long src.register
    .next { m.setLong dst.register (x + y) with flags := .ofAdd x y }.advance
  | .subl src dst =>
    let x := m.long dst.register
    let y := m.long src.register
    .next { m.setLong dst.register (x - y) with flags := .ofSub x y }.advance
  | .imull src dst =>
    let x := m.long dst.register
    let y := m.long src.register
    .next { m.setLong dst.register (x * y) with flags := .ofMul x y }.advance
  | .cdq => .next (m.setLong .rdx (if (m.long .rax).msb then .allOnes 32 else 0)).advance
  | .idivl divisor => divide m (m.long divisor.register)
  | .pushq src => .next { m with stack := m.registers src.register :: m.stack }.advance
  | .popq dst =>
    match m.stack with
    | [] => .stuck
    | top :: stack => .next { m.setQuad dst.register top with stack }.advance
  | .set cond dst =>
    match cond.holds? m.flags with
    | none => .stuck
    | some holds => .next (m.setByte dst.register (if holds then 1 else 0)).advance
  | .jumpIf cond target =>
    match cond.holds? m.flags with
    | none => .stuck
    | some holds => if holds then image.goTo m target else .next m.advance
  | .jmp target => image.goTo m target
  | .ret => .returned

/-- Executes the line at the machine's place. -/
def step (image : Image) (m : Machine) : Outcome :=
  match image.lines[m.place]? with
  | none => .stuck
  | some (.instr i) => image.execute m i
  | some _ => .next m.advance

/-- The machine goes from one state to another in some steps. -/
abbrev Reaches (image : Image) : Machine → Machine → Prop :=
  Relation.ReflTransGen fun m m' => image.step m = .next m'

/-- A label leads to the line that marks it. -/
theorem place?_eq_some {image : Image} {place : Nat} {label : String}
    (h : image.lines[place]? = some (.label label)) : image.place? label = some place := by
  obtain ⟨hplace, hline⟩ := List.getElem?_eq_some_iff.mp h
  rw [place?, List.findIdx?_eq_some_iff_getElem]
  refine ⟨hplace, by simp [hline, Line.label?], ?_⟩
  intro earlier hlt hmark
  have hpair := List.pairwise_iff_getElem.mp (List.pairwise_filterMap.mp image.nodup)
  exact hpair earlier place _ hplace hlt label (by simpa using hmark) label
    (by simp [hline, Line.label?]) rfl

theorem step_eq_execute {image : Image} {m : Machine} {i : Instr String}
    (h : image.lines[m.place]? = some (.instr i)) : image.step m = image.execute m i := by
  rw [step, h]

theorem step_eq_advance {image : Image} {m : Machine} {label : String}
    (h : image.lines[m.place]? = some (.label label)) : image.step m = .next m.advance := by
  rw [step, h]

theorem goTo_eq_next {image : Image} {m : Machine} {place : Nat} {label : String}
    (h : image.lines[place]? = some (.label label)) :
    image.goTo m label = .next { m with place } := by
  rw [goTo, place?_eq_some h]

/-- Only an instruction can stop the machine by a division, and it is a division. -/
theorem exists_idivl_of_step_eq {image : Image} {m : Machine} (h : image.step m = .divideError) :
    ∃ divisor, image.lines[m.place]? = some (.instr (.idivl divisor)) := by
  simp only [step] at h
  split at h
  · simp at h
  · rename_i i hi
    cases i with
    | idivl divisor => exact ⟨divisor, hi⟩
    | jmp target =>
      simp only [execute, goTo] at h
      split at h <;> simp at h
    | jumpIf cond target =>
      simp only [execute, goTo] at h
      split at h
      · simp at h
      · split at h
        · split at h <;> simp at h
        · simp at h
    | set cond dst =>
      simp only [execute] at h
      split at h <;> simp at h
    | popq dst =>
      simp only [execute] at h
      split at h <;> simp at h
    | _ => simp [execute] at h
  · simp at h

/-- A run that has come to an end went through every state that can be reached. -/
theorem eq_or_next_of_reaches {image : Image} {m a stop : Machine}
    (hstop : image.Reaches m stop) (hlast : ∀ m', image.step stop ≠ .next m')
    (ha : image.Reaches m a) : a = stop ∨ ∃ m', image.step a = .next m' := by
  have hunique : Relator.RightUnique fun m m' => image.step m = .next m' := by
    intro m b c hb hc
    exact Outcome.next.inj (hb.symm.trans hc)
  rcases ha.total_of_right_unique hunique hstop with h | h
  · rcases Relation.ReflTransGen.cases_head h with h | ⟨m', hm, _⟩
    · exact Or.inl h
    · exact Or.inr ⟨m', hm⟩
  · rcases Relation.ReflTransGen.cases_head h with h | ⟨m', hm, _⟩
    · exact Or.inl h.symm
    · exact absurd hm (hlast m')

end Image

end MiniC.Assembly
