import MiniC.Proofs.Assembly.Arithmetic
import MiniC.Proofs.Assembly.Layout

/-!
# Execution of code

The code of an expression, wherever it stands in an image, takes the machine from its first line to
the line after its last, with the value of the expression in the accumulator and the stack as it
was; if the expression has no value, a division in its code stops the machine. Both follow the parts
of the code: a computation that needs an earlier result either goes on from it or has already
stopped.
-/

namespace MiniC

open Assembly

namespace Assembly

namespace Image

variable {image : Image}

/-- Code stands at a place of an image. -/
def Holds (image : Image) (place : Nat) (code : List (Line String)) : Prop :=
  ∃ before after, image.lines = before ++ (code ++ after) ∧ before.length = place

theorem Holds.split {place : Nat} {first rest : List (Line String)}
    (h : image.Holds place (first ++ rest)) :
    image.Holds place first ∧ image.Holds (place + first.length) rest := by
  obtain ⟨before, after, hlines, rfl⟩ := h
  constructor
  · exact ⟨before, rest ++ after, by rw [hlines, List.append_assoc], rfl⟩
  · exact ⟨before ++ first, after, by simp only [hlines, List.append_assoc], by simp⟩

theorem Holds.uncons {place : Nat} {line : Line String} {code : List (Line String)}
    (h : image.Holds place (line :: code)) :
    image.lines[place]? = some line ∧ image.Holds (place + 1) code := by
  constructor
  · obtain ⟨before, after, hlines, rfl⟩ := h
    rw [hlines, List.getElem?_append_right (Nat.le_refl _), Nat.sub_self]
    rfl
  · have hsplit : image.Holds place ([line] ++ code) := h
    exact hsplit.split.2

/-- From a state the machine comes to one that is settled with the result, or it is stopped by a
division if there is no result. -/
def Computes {α : Type} (image : Image) (m : Machine) (result : Option α)
    (settled : α → Machine → Prop) : Prop :=
  match result with
  | some v => ∃ m', image.Reaches m m' ∧ settled v m'
  | none => ∃ m', image.Reaches m m' ∧ image.step m' = .divideError

theorem Computes.of_settled {α : Type} {m : Machine} {v : α} {settled : α → Machine → Prop}
    (h : settled v m) : image.Computes m (some v) settled := ⟨m, .refl, h⟩

/-- A state that is reached on the way computes the same. -/
theorem Computes.of_reaches {α : Type} {m m' : Machine} {result : Option α}
    {settled : α → Machine → Prop} (hm : image.Reaches m m')
    (h : image.Computes m' result settled) : image.Computes m result settled := by
  cases result with
  | none =>
    obtain ⟨stop, hstop, hstep⟩ := h
    exact ⟨stop, hm.trans hstop, hstep⟩
  | some v =>
    obtain ⟨stop, hstop, hsettled⟩ := h
    exact ⟨stop, hm.trans hstop, hsettled⟩

theorem Computes.of_step {α : Type} {m m' : Machine} {result : Option α}
    {settled : α → Machine → Prop} (hm : image.step m = .next m')
    (h : image.Computes m' result settled) : image.Computes m result settled :=
  h.of_reaches (.single hm)

/-- A computation goes on from the result of an earlier one. -/
theorem Computes.bind {α β : Type} {m : Machine} {result : Option α} {f : α → Option β}
    {between : α → Machine → Prop} {settled : β → Machine → Prop}
    (h : image.Computes m result between)
    (hnext : ∀ v m', between v m' → image.Computes m' (f v) settled) :
    image.Computes m (result.bind f) settled := by
  cases result with
  | none => exact h
  | some v =>
    obtain ⟨m', hm, hbetween⟩ := h
    exact (hnext v m' hbetween).of_reaches hm

theorem Computes.mono {α : Type} {m : Machine} {result : Option α}
    {settled settled' : α → Machine → Prop} (h : image.Computes m result settled)
    (himp : ∀ v m', settled v m' → settled' v m') : image.Computes m result settled' := by
  cases result with
  | none => exact h
  | some v =>
    obtain ⟨m', hm, hsettled⟩ := h
    exact ⟨m', hm, himp v m' hsettled⟩

end Image

/-- The registers that code may change. -/
def scratch : List Register := [.rax, .rcx, .rdx]

/-- Code has left a value in the accumulator and come to a place. Everything that is not scratch is
as it was before. -/
structure Settled (before : Machine) (place : Nat) (v : Int32) (after : Machine) : Prop where
  /-- The machine stands at the place. -/
  place_eq : after.place = place
  /-- The accumulator holds the value, and its upper half is clear. -/
  value_eq : after.registers .rax = v.toBitVec.setWidth 64
  /-- The stack is as it was. -/
  stack_eq : after.stack = before.stack
  /-- The other registers are as they were. -/
  others_eq : ∀ r, r ∉ scratch → after.registers r = before.registers r

theorem Settled.of_eq {before before' after : Machine} {place : Nat} {v : Int32}
    (h : Settled before' place v after) (hstack : before'.stack = before.stack)
    (hothers : ∀ r, r ∉ scratch → before'.registers r = before.registers r) :
    Settled before place v after :=
  ⟨h.place_eq, h.value_eq, h.stack_eq.trans hstack,
    fun r hr => (h.others_eq r hr).trans (hothers r hr)⟩

theorem ne_of_not_mem_scratch {q r : Register} (hq : q ∉ scratch) (hr : r ∈ scratch) : q ≠ r := by
  rintro rfl
  exact hq hr

/-- An instruction that writes a value to the accumulator settles it there. -/
theorem settled_setLong (m : Machine) (v : Int32) (flags : Flags) :
    Settled m (m.place + 1) v { m.setLong .rax v.toBitVec with flags }.advance :=
  ⟨rfl, m.registers_setLong_self .rax _, rfl,
    fun _ hr => m.registers_setLong_of_ne _ (ne_of_not_mem_scratch hr (by decide))⟩

namespace Image

variable {image : Image}

/-- A label is passed. -/
theorem Computes.past_label {m before : Machine} {result : Option Int32} {stop : Nat}
    {label : String} (h : image.Computes m result (Settled before stop))
    (hstop : image.lines[stop]? = some (.label label)) :
    image.Computes m result (Settled before (stop + 1)) := by
  cases result with
  | none => exact h
  | some v =>
    obtain ⟨m', hm, hsettled⟩ := h
    rw [← hsettled.place_eq] at hstop ⊢
    exact ⟨m'.advance, hm.tail (step_eq_advance hstop), rfl, hsettled.value_eq,
      hsettled.stack_eq, hsettled.others_eq⟩

/-- After a comparison of `x` with `y` the accumulator is set to one if they are so related, else to
zero. -/
theorem computes_setTo {m : Machine} {scope : String} {cond : Cond} {x y : Int32}
    (hcode : image.Holds m.place (spelled scope (setTo cond)))
    (hflags : m.flags = .ofSub x.toBitVec y.toBitVec) :
    image.Computes m (some (truth (cond.relates x y))) (Settled m (m.place + 2)) := by
  obtain ⟨hmov, hcode⟩ := hcode.uncons
  obtain ⟨hset, -⟩ := hcode.uncons
  let cleared := (m.setLong .rax 0).advance
  have hmov : image.step m = .next cleared := step_eq_execute hmov
  have hset : image.step cleared =
      .next (cleared.setByte .rax (if cond.relates x y then 1 else 0)).advance := by
    have hholds : cond.holds? cleared.flags = some (cond.relates x y) := by
      rw [← Cond.holds?_ofSub, ← hflags]
      rfl
    rw [step_eq_execute hset]
    simp only [Instr.mapLabel, execute, hholds]
    rfl
  refine .of_step hmov (.of_step hset (.of_settled ⟨rfl, ?_, rfl, ?_⟩))
  · have hbyte : ∀ b : Bool, ((0 : BitVec 32).setWidth 64).extractLsb' 8 56 ++
        (if b then 1 else 0 : BitVec 8) = (truth b).toBitVec.setWidth 64 := by decide
    have hzero : cleared.registers .rax = (0 : BitVec 32).setWidth 64 :=
      m.registers_setLong_self .rax 0
    rw [← hbyte, ← hzero]
    exact cleared.registers_setQuad_self .rax _
  · intro r hr
    have hne : r ≠ .rax := ne_of_not_mem_scratch hr (by decide)
    exact (cleared.registers_setQuad_of_ne _ hne).trans (m.registers_setLong_of_ne _ hne)

/-- Comparing the accumulator with zero and setting it by the outcome. -/
theorem computes_compareZero {m : Machine} {scope : String} {cond : Cond} {x : Int32}
    (hcode : image.Holds m.place (spelled scope (compareZero :: setTo cond)))
    (hx : m.registers .rax = x.toBitVec.setWidth 64) :
    image.Computes m (some (truth (cond.relates x 0))) (Settled m (m.place + 3)) := by
  obtain ⟨hcmp, hcode⟩ := hcode.uncons
  have hstep := step_eq_execute hcmp
  refine .of_step hstep ((computes_setTo hcode ?_).mono fun v m' h => h.of_eq rfl fun _ _ => rfl)
  exact congrArg (Flags.ofSub · _) (Machine.long_eq hx)

/-- Comparing the counter with the accumulator and setting the latter by the outcome. -/
theorem computes_relate {m : Machine} {scope : String} {cond : Cond} {x y : Int32}
    (hcode : image.Holds m.place (spelled scope (relate cond)))
    (hx : m.registers .rcx = x.toBitVec.setWidth 64)
    (hy : m.registers .rax = y.toBitVec.setWidth 64) :
    image.Computes m (some (truth (cond.relates x y))) (Settled m (m.place + 3)) := by
  obtain ⟨hcmp, hcode⟩ := hcode.uncons
  have hstep := step_eq_execute hcmp
  refine .of_step hstep ((computes_setTo hcode ?_).mono fun v m' h => h.of_eq rfl fun _ _ => rfl)
  exact congrArg₂ Flags.ofSub (Machine.long_eq hx) (Machine.long_eq hy)

/-- A unary operator is finished with its value. -/
theorem computes_finish_unary {m : Machine} {scope : String} {op : UnaryOp} {x : Int32}
    (hcode : image.Holds m.place (spelled scope op.finish))
    (hx : m.registers .rax = x.toBitVec.setWidth 64) :
    image.Computes m (some (op.value x))
      (Settled m (m.place + (spelled scope op.finish).length)) := by
  have hlong := Machine.long_eq hx
  cases op with
  | negate =>
    have hstep : image.step m = .next { m.setLong .rax (-x).toBitVec with
        flags := .ofSub 0 x.toBitVec }.advance := by
      rw [step_eq_execute hcode.uncons.1, Int32.toBitVec_neg, ← hlong]
      rfl
    exact .of_step hstep (.of_settled (settled_setLong m _ _))
  | complement =>
    have hstep : image.step m = .next (m.setLong .rax (~~~x).toBitVec).advance := by
      rw [step_eq_execute hcode.uncons.1, Int32.toBitVec_not, ← hlong]
      rfl
    exact .of_step hstep (.of_settled (settled_setLong m _ m.flags))
  | not => exact computes_compareZero hcode hx

/-- A quotient is computed from its divisor in the counter, or the machine is stopped. -/
theorem computes_finish_div {m : Machine} {scope : String} {x y : Int32}
    (hcode : image.Holds m.place (spelled scope BinaryOp.div.finish))
    (hx : m.registers .rcx = x.toBitVec.setWidth 64)
    (hy : m.registers .rax = y.toBitVec.setWidth 64) :
    image.Computes m (BinaryOp.div.value? y x) (Settled m (m.place + 2)) := by
  obtain ⟨hcdq, hcode⟩ := hcode.uncons
  let sign : BitVec 32 := if y.toBitVec.msb then .allOnes 32 else 0
  let wide := (m.setLong .rdx sign).advance
  have hwide : image.step m = .next wide := by
    rw [step_eq_execute hcdq]
    simp only [Instr.mapLabel, execute, Machine.long_eq hy]
    rfl
  have hkeep : ∀ r, r ≠ .rdx → wide.registers r = m.registers r :=
    fun r hr => m.registers_setLong_of_ne sign hr
  have hax : wide.long .rax = y.toBitVec := Machine.long_eq ((hkeep .rax (by decide)).trans hy)
  have hcx : wide.long .rcx = x.toBitVec := Machine.long_eq ((hkeep .rcx (by decide)).trans hx)
  have hdx : wide.long .rdx = sign := Machine.long_eq (m.registers_setLong_self .rdx sign)
  have hdividend : (wide.long .rdx ++ wide.long .rax).toInt = y.toInt := by
    rw [hdx, hax, toInt_sign_append, Int32.toInt_toBitVec]
  have hdiv : image.step wide = divide wide x.toBitVec := by
    rw [← hcx]
    exact step_eq_execute (m := wide) hcode.uncons.1
  simp only [divide, hdividend, Int32.toInt_toBitVec, divideError_iff, ofInt_tdiv] at hdiv
  refine .of_step hwide ?_
  by_cases h : BinaryOp.HasQuotient y x
  · rw [if_neg (not_not_intro h)] at hdiv
    rw [BinaryOp.value?, if_pos h]
    let quotient := wide.setLong .rax (y / x).toBitVec
    let done := quotient.setLong .rdx (.ofInt 32 (y.toInt.tmod x.toInt))
    have hdone : ∀ r, r ≠ .rdx → done.registers r = quotient.registers r :=
      fun r hr => quotient.registers_setLong_of_ne _ hr
    refine .of_step hdiv (.of_settled ⟨rfl, ?_, rfl, ?_⟩)
    · exact (hdone .rax (by decide)).trans (wide.registers_setLong_self .rax _)
    · intro r hr
      have hdx := ne_of_not_mem_scratch hr (show .rdx ∈ scratch by decide)
      have hax := ne_of_not_mem_scratch hr (show .rax ∈ scratch by decide)
      exact (hdone r hdx).trans ((wide.registers_setLong_of_ne _ hax).trans (hkeep r hdx))
  · rw [if_pos h] at hdiv
    rw [BinaryOp.value?, if_neg h]
    exact ⟨wide, .refl, hdiv⟩

/-- An operator that skips nothing is finished with its value, if it has one. The operand computed
first is in the counter and the other in the accumulator. -/
theorem computes_finish_binary {m : Machine} {scope : String} {op : BinaryOp} {x y : Int32}
    (hop : ¬op.IsLogical) (hcode : image.Holds m.place (spelled scope op.finish))
    (hx : m.registers .rcx = x.toBitVec.setWidth 64)
    (hy : m.registers .rax = y.toBitVec.setWidth 64) :
    image.Computes m (op.value? (op.inOrder x y).1 (op.inOrder x y).2)
      (Settled m (m.place + (spelled scope op.finish).length)) := by
  have hlx := Machine.long_eq hx
  have hly := Machine.long_eq hy
  cases op with
  | add =>
    have hstep : image.step m = .next { m.setLong .rax (x + y).toBitVec with
        flags := .ofAdd y.toBitVec x.toBitVec }.advance := by
      rw [step_eq_execute hcode.uncons.1, Int32.add_comm, Int32.toBitVec_add, ← hlx, ← hly]
      rfl
    exact .of_step hstep (.of_settled (settled_setLong m _ _))
  | sub =>
    have hstep : image.step m = .next { m.setLong .rax (y - x).toBitVec with
        flags := .ofSub y.toBitVec x.toBitVec }.advance := by
      rw [step_eq_execute hcode.uncons.1, Int32.toBitVec_sub, ← hlx, ← hly]
      rfl
    exact .of_step hstep (.of_settled (settled_setLong m _ _))
  | mul =>
    have hstep : image.step m = .next { m.setLong .rax (x * y).toBitVec with
        flags := .ofMul y.toBitVec x.toBitVec }.advance := by
      rw [step_eq_execute hcode.uncons.1, Int32.mul_comm, Int32.toBitVec_mul, ← hlx, ← hly]
      rfl
    exact .of_step hstep (.of_settled (settled_setLong m _ _))
  | div => exact computes_finish_div hcode hx hy
  | equal => exact computes_relate hcode hx hy
  | notEqual => exact computes_relate hcode hx hy
  | less => exact computes_relate hcode hx hy
  | lessEqual => exact computes_relate hcode hx hy
  | greater => exact computes_relate hcode hx hy
  | greaterEqual => exact computes_relate hcode hx hy
  | and => exact absurd (Or.inl rfl) hop
  | or => exact absurd (Or.inr rfl) hop

/-- The outcome of comparing the accumulator with zero is a jump or the next line. -/
theorem reaches_jumpIf {m : Machine} {scope : String} {cond : Cond} {n target : Nat} {x : Int32}
    {code : List (Step Nat)}
    (hcode : image.Holds m.place (spelled scope (compareZero :: .instr (.jumpIf cond n) :: code)))
    (htarget : image.lines[target]? = some (.label (spellLabel scope n)))
    (hx : m.registers .rax = x.toBitVec.setWidth 64) :
    ∃ flags, image.Reaches m
      { m with flags, place := if cond.relates x 0 then target else m.place + 2 } := by
  obtain ⟨hcmp, hcode⟩ := hcode.uncons
  let flags := Flags.ofSub x.toBitVec (0 : Int32).toBitVec
  let compared := { m with flags }.advance
  have hcmp : image.step m = .next compared := by
    rw [step_eq_execute hcmp]
    simp only [Instr.mapLabel, execute, Reg.register, Machine.long_eq hx]
    rfl
  have hjump := step_eq_execute (m := compared) hcode.uncons.1
  have hholds : cond.holds? compared.flags = some (cond.relates x 0) := Cond.holds?_ofSub cond x 0
  simp only [Instr.mapLabel, execute, hholds, goTo_eq_next htarget] at hjump
  refine ⟨flags, .trans (.single hcmp) (.single ?_)⟩
  cases h : cond.relates x 0 <;> rw [h] at hjump <;> exact hjump

/-- The operators `&&` and `||` leave out their right operand if the left one decides the result,
and else go on to it. -/
theorem computes_skip {m : Machine} {scope : String} {op : BinaryOp} {n stop : Nat} {x : Int32}
    (hop : op.IsLogical) (hcode : image.Holds m.place (spelled scope (op.skip n)))
    (hnext : image.lines[m.place + (spelled scope (op.skip n)).length]? =
      some (.label (spellLabel scope n)))
    (hstop : image.lines[stop]? = some (.label (spellLabel scope (n + 1))))
    (hx : m.registers .rax = x.toBitVec.setWidth 64) :
    ∃ m', image.Reaches m m' ∧
      match op.decided? x with
      | some v => Settled m stop v m'
      | none => Settled m (m.place + (spelled scope (op.skip n)).length) x m' := by
  rcases hop with rfl | rfl
  · obtain ⟨flags, hjump⟩ := reaches_jumpIf hcode hnext hx
    have hleave := hcode.uncons.2.uncons.2.uncons.1
    by_cases h : x = 0
    · subst h
      refine ⟨{ m with flags, place := stop }, hjump.tail ?_, rfl, hx, rfl, fun _ _ => rfl⟩
      exact (step_eq_execute (m := { m with flags, place := m.place + 2 }) hleave).trans
        (goTo_eq_next hstop)
    · have hrel : Cond.notEqual.relates x 0 = true := bne_iff_ne.mpr h
      rw [hrel] at hjump
      rw [BinaryOp.decided?, if_neg h]
      exact ⟨_, hjump, rfl, hx, rfl, fun _ _ => rfl⟩
  · obtain ⟨flags, hjump⟩ := reaches_jumpIf hcode hnext hx
    obtain ⟨hone, hcode⟩ := hcode.uncons.2.uncons.2.uncons
    by_cases h : x = 0
    · subst h
      exact ⟨_, hjump, rfl, hx, rfl, fun _ _ => rfl⟩
    · have hrel : Cond.equal.relates x 0 = false := beq_eq_false_iff_ne.mpr h
      rw [hrel] at hjump
      rw [BinaryOp.decided?, if_neg h]
      let passed : Machine := { m with flags, place := m.place + 2 }
      let one := (passed.setLong .rax (1 : Int32).toBitVec).advance
      have hone : image.step passed = .next one := step_eq_execute (m := passed) hone
      have hleave : image.step one = .next { one with place := stop } :=
        (step_eq_execute (m := one) hcode.uncons.1).trans (goTo_eq_next hstop)
      have hsettled := settled_setLong passed 1 flags
      exact ⟨_, (hjump.tail hone).tail hleave, rfl, hsettled.value_eq, rfl, hsettled.others_eq⟩

end Image

end Assembly

namespace BinaryOp

/-- An operator that skips nothing is never decided by its left operand. -/
theorem decided?_eq_none {op : BinaryOp} (h : ¬op.IsLogical) (x : Int32) :
    op.decided? x = none := by
  cases op <;> first | rfl | exact absurd (by decide) h

/-- Where the left operand of `&&` or `||` decides nothing, the truth of the right one is the
result. -/
theorem value?_of_decided?_eq_none {op : BinaryOp} (hop : op.IsLogical) {x : Int32}
    (h : op.decided? x = none) (y : Int32) : op.value? x y = some (truth (y != 0)) := by
  rcases hop with rfl | rfl
  · have hx : (x != 0) = true := by
      rw [bne_iff_ne]
      rintro rfl
      simp [decided?] at h
    simp only [value?, hx, Bool.true_and]
  · have hx : x = 0 := by
      by_cases hx : x = 0
      · exact hx
      · simp [decided?, hx] at h
    subst hx
    rfl

end BinaryOp

namespace Expr

/-- The operands of an operator that skips nothing may be looked at in any order. -/
theorem eval_of_not_isLogical {op : BinaryOp} (h : ¬op.IsLogical) (left right : Expr) :
    (Expr.binary op left right).eval =
      (op.inOrder left right).1.eval.bind fun x => (op.inOrder left right).2.eval.bind fun y =>
        op.value? (op.inOrder x y).1 (op.inOrder x y).2 := by
  have heval : (Expr.binary op left right).eval =
      left.eval.bind fun x => right.eval.bind fun y => op.value? x y := by
    simp only [eval, BinaryOp.decided?_eq_none h]
    rfl
  have hswap : ∀ f : Int32 → Int32 → Option Int32,
      (left.eval.bind fun x => right.eval.bind fun y => f x y) =
        right.eval.bind fun y => left.eval.bind fun x => f x y := by
    intro f
    cases left.eval <;> cases right.eval <;> rfl
  rw [heval]
  cases op <;> first | rfl | exact hswap _

/-- The code of an expression computes its value. -/
theorem computes_lines {image : Image} {scope : String} {n : Nat} {m : Machine} (e : Expr)
    (hcode : image.Holds m.place (e.lines scope n)) :
    image.Computes m e.eval (Settled m (m.place + (e.lines scope n).length)) := by
  induction e using code_induction generalizing n m with
  | integer value =>
    have hstep := Image.step_eq_execute hcode.uncons.1
    exact .of_step hstep (.of_settled (settled_setLong m value m.flags))
  | unary op operand ih =>
    rw [lines_unary] at hcode ⊢
    obtain ⟨hoperand, hfinish⟩ := hcode.split
    have heval : (Expr.unary op operand).eval = operand.eval.bind fun x => some (op.value x) :=
      Option.map_eq_bind
    rw [heval, List.length_append, ← Nat.add_assoc]
    refine (ih hoperand).bind fun x m' h => ?_
    rw [← h.place_eq] at hfinish ⊢
    exact (Image.computes_finish_unary hfinish h.value_eq).mono
      fun _ _ h' => h'.of_eq h.stack_eq h.others_eq
  | strict op left right h ihf ihs =>
    rw [lines_of_not_isLogical h] at hcode ⊢
    obtain ⟨hfirst, hcode⟩ := hcode.split
    obtain ⟨hpush, hcode⟩ := hcode.uncons
    obtain ⟨hsecond, hcode⟩ := hcode.split
    obtain ⟨hpop, hfinish⟩ := hcode.uncons
    rw [eval_of_not_isLogical h]
    refine (ihf hfirst).bind fun x first hx => ?_
    rw [← hx.place_eq] at hpush hsecond hpop hfinish
    let pushed := { first with stack := first.registers .rax :: first.stack }.advance
    have hpush : image.step first = .next pushed := Image.step_eq_execute hpush
    refine .of_step hpush ((ihs (m := pushed) hsecond).bind fun y second hy => ?_)
    have hplace : second.place = first.place + 1 +
        ((op.inOrder left right).2.lines scope
          (n + (op.inOrder left right).1.labelCount)).length := hy.place_eq
    rw [← hplace] at hpop hfinish
    let popped := { second.setQuad .rcx (first.registers .rax) with stack := first.stack }.advance
    have hpop : image.step second = .next popped := by
      rw [Image.step_eq_execute hpop]
      simp only [Image.execute, hy.stack_eq]
      rfl
    have hcx : popped.registers .rcx = x.toBitVec.setWidth 64 :=
      (second.registers_setQuad_self .rcx (first.registers .rax)).trans hx.value_eq
    have hkeep : ∀ r, r ≠ .rcx → popped.registers r = second.registers r :=
      fun r hr => second.registers_setQuad_of_ne _ hr
    have hax : popped.registers .rax = y.toBitVec.setWidth 64 :=
      (hkeep .rax (by decide)).trans hy.value_eq
    have hfinish := Image.computes_finish_binary (m := popped) h hfinish hcx hax
    refine .of_step hpop (hfinish.mono fun v m' hv => ⟨?_, hv.value_eq, ?_, ?_⟩)
    · have hend : popped.place = second.place + 1 := rfl
      rw [hv.place_eq, hend, hplace, hx.place_eq]
      simp only [List.length_append, List.length_cons]
      omega
    · exact hv.stack_eq.trans hx.stack_eq
    · intro r hr
      rw [hv.others_eq r hr, hkeep r (ne_of_not_mem_scratch hr (by decide)), hy.others_eq r hr,
        ← hx.others_eq r hr]
      rfl
  | logical op left right h ihl ihr =>
    rw [lines_of_isLogical h] at hcode
    obtain ⟨hleft, hcode⟩ := hcode.split
    obtain ⟨hskip, hcode⟩ := hcode.split
    obtain ⟨hnext, hcode⟩ := hcode.uncons
    obtain ⟨hright, hcode⟩ := hcode.split
    obtain ⟨hfinish, hcode⟩ := hcode.split
    obtain ⟨hstop, -⟩ := hcode.uncons
    rw [length_lines_of_isLogical h]
    simp only [← Nat.add_assoc]
    refine Image.Computes.past_label ((ihl hleft).bind fun x first hx => ?_) hstop
    rw [← hx.place_eq] at hskip hnext hright hfinish hstop ⊢
    obtain ⟨skipped, hskipped, hcase⟩ := Image.computes_skip h hskip hnext hstop hx.value_eq
    refine .of_reaches hskipped ?_
    cases hd : op.decided? x with
    | some v =>
      rw [hd] at hcase
      exact .of_settled (hcase.of_eq hx.stack_eq hx.others_eq)
    | none =>
      rw [hd] at hcase
      rw [← hcase.place_eq] at hnext hright hfinish
      refine .of_step (Image.step_eq_advance hnext) ?_
      refine (ihr (m := skipped.advance) hright).bind fun y second hy => ?_
      have hplace : second.place = skipped.place + 1 +
          (right.lines scope (n + 2 + left.labelCount)).length := hy.place_eq
      rw [← hplace] at hfinish
      have hop : op.finish (L := Nat) = compareZero :: setTo .notEqual := by
        rcases h with rfl | rfl <;> rfl
      rw [BinaryOp.value?_of_decided?_eq_none h hd]
      rw [hop] at hfinish ⊢
      refine (Image.computes_compareZero hfinish hy.value_eq).mono fun v m' hv => ?_
      refine ⟨?_, hv.value_eq, ?_, ?_⟩
      · rw [hv.place_eq, hplace, hcase.place_eq]
        rfl
      · rw [hv.stack_eq, hy.stack_eq, ← hx.stack_eq, ← hcase.stack_eq]
        rfl
      · intro r hr
        rw [hv.others_eq r hr, hy.others_eq r hr, ← hx.others_eq r hr, ← hcase.others_eq r hr]
        rfl

end Expr

end MiniC
