import MiniC.Text.Column

/-!
# Instructions

The x86-64 instructions that compiled expressions use, in AT&T order: the source operand comes
before the destination. A mnemonic's last letter gives the width of its operands, so an instruction
names a register without its width.
-/

namespace MiniC.Assembly

/-- A register, whatever part of it an instruction uses. -/
inductive Reg where
  /-- The accumulator, where every expression leaves its value. -/
  | a
  /-- The counter, which receives an operand that was saved on the stack. -/
  | c
  deriving DecidableEq, Repr

/-- The name of a register's 64 bits. -/
def Reg.quad : Reg → String
  | .a => "%rax"
  | .c => "%rcx"

/-- The name of a register's low 32 bits. -/
def Reg.long : Reg → String
  | .a => "%eax"
  | .c => "%ecx"

/-- The name of a register's low 8 bits. -/
def Reg.byte : Reg → String
  | .a => "%al"
  | .c => "%cl"

/-- A relation of the signed numbers compared last. -/
inductive Cond where
  | equal
  | notEqual
  | less
  | lessEqual
  | greater
  | greaterEqual
  deriving DecidableEq, Repr

/-- The ending that a condition gives to a mnemonic. -/
def Cond.suffix : Cond → String
  | .equal => "e"
  | .notEqual => "ne"
  | .less => "l"
  | .lessEqual => "le"
  | .greater => "g"
  | .greaterEqual => "ge"

/-- An instruction whose jumps go to labels of type `L`. -/
inductive Instr (L : Type) where
  /-- Stores a constant. -/
  | movl (value : Int32) (dst : Reg)
  /-- Negates. -/
  | negl (dst : Reg)
  /-- Inverts every bit. -/
  | notl (dst : Reg)
  /-- Compares a register with a constant. -/
  | cmplConst (value : Int32) (dst : Reg)
  /-- Compares the destination with the source. -/
  | cmpl (src dst : Reg)
  /-- Adds the source. -/
  | addl (src dst : Reg)
  /-- Subtracts the source. -/
  | subl (src dst : Reg)
  /-- Multiplies by the source. -/
  | imull (src dst : Reg)
  /-- Extends the accumulator's sign into the high half of a dividend. -/
  | cdq
  /-- Divides that dividend. -/
  | idivl (divisor : Reg)
  /-- Saves a register on the stack. -/
  | pushq (src : Reg)
  /-- Takes a register back from the stack. -/
  | popq (dst : Reg)
  /-- Stores one if the condition holds, else zero, in a register's low byte. -/
  | set (cond : Cond) (dst : Reg)
  /-- Jumps if the condition holds. -/
  | jumpIf (cond : Cond) (target : L)
  /-- Jumps. -/
  | jmp (target : L)
  /-- Returns to the caller. -/
  | ret
  deriving DecidableEq, Repr

namespace Instr

/-- Replaces the labels. -/
def mapLabel {L M : Type} (f : L → M) : Instr L → Instr M
  | .movl value dst => .movl value dst
  | .negl dst => .negl dst
  | .notl dst => .notl dst
  | .cmplConst value dst => .cmplConst value dst
  | .cmpl src dst => .cmpl src dst
  | .addl src dst => .addl src dst
  | .subl src dst => .subl src dst
  | .imull src dst => .imull src dst
  | .cdq => .cdq
  | .idivl divisor => .idivl divisor
  | .pushq src => .pushq src
  | .popq dst => .popq dst
  | .set cond dst => .set cond dst
  | .jumpIf cond target => .jumpIf cond (f target)
  | .jmp target => .jmp (f target)
  | .ret => .ret

/-- The name of an instruction. -/
def mnemonic {L : Type} : Instr L → String
  | .movl .. => "movl"
  | .negl _ => "negl"
  | .notl _ => "notl"
  | .cmplConst .. => "cmpl"
  | .cmpl .. => "cmpl"
  | .addl .. => "addl"
  | .subl .. => "subl"
  | .imull .. => "imull"
  | .cdq => "cdq"
  | .idivl _ => "idivl"
  | .pushq _ => "pushq"
  | .popq _ => "popq"
  | .set cond _ => "set" ++ cond.suffix
  | .jumpIf cond _ => "j" ++ cond.suffix
  | .jmp _ => "jmp"
  | .ret => "ret"

/-- A constant operand. -/
def constant (value : Int32) : String := "$" ++ toString value.toInt

/-- Two operands, the source first. -/
def pair (src dst : String) : String := src ++ ", " ++ dst

/-- The operands of an instruction that has any. -/
def operands? : Instr String → Option String
  | .movl value dst => some (pair (constant value) dst.long)
  | .negl dst => some dst.long
  | .notl dst => some dst.long
  | .cmplConst value dst => some (pair (constant value) dst.long)
  | .cmpl src dst => some (pair src.long dst.long)
  | .addl src dst => some (pair src.long dst.long)
  | .subl src dst => some (pair src.long dst.long)
  | .imull src dst => some (pair src.long dst.long)
  | .cdq => none
  | .idivl divisor => some divisor.long
  | .pushq src => some src.quad
  | .popq dst => some dst.quad
  | .set _ dst => some dst.byte
  | .jumpIf _ target => some target
  | .jmp target => some target
  | .ret => none

/-- A tab, the mnemonic and, eight characters on, the operands. -/
def text (i : Instr String) : String :=
  match i.operands? with
  | none => "\t" ++ i.mnemonic
  | some operands => "\t" ++ fillRight 8 i.mnemonic ++ operands

end Instr

end MiniC.Assembly
