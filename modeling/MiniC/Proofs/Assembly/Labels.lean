import MiniC.Proofs.Assembly.Compilation

/-!
# Labels

A generator reserves two labels for each operator `&&` or `||` that it comes to, and keeps count of
them even if the sink is full. The number of a label can be read off its spelling, whatever the
scope. Code uses only labels that it has reserved before. An expression's code marks all labels
reserved for it, and each of its jumps goes to a label that is marked later.
-/

namespace MiniC

open Assembly

namespace Assembly

/-- The number at the end of a label, behind its last dot. -/
def labelNumber? (label : String) : Option Nat :=
  natural? (label.toList.reverse.takeWhile (· ≠ '.')).reverse

/-- The number of a label can be told whatever its scope is called. -/
theorem labelNumber?_spellLabel (scope : String) (number : Nat) :
    labelNumber? (spellLabel scope number) = some number := by
  have hlist : (spellLabel scope number).toList.reverse =
      (toString number).toList.reverse ++ '.' :: (".L" ++ scope).toList.reverse := by
    simp [spellLabel]
  have hdigits : ∀ c ∈ (toString number).toList.reverse, decide (c ≠ '.') = true := by
    intro c hc
    have hdigit : c.isDigit = true := isDigit_of_mem_toString (List.mem_reverse.mp hc)
    refine decide_eq_true ?_
    rintro rfl
    exact absurd hdigit (by decide)
  rw [labelNumber?, hlist, List.takeWhile_append_of_pos hdigits,
    List.takeWhile_cons_of_neg (by decide), List.append_nil, List.reverse_reverse,
    natural?_toString]

namespace Generator

/-- The steps that a generator takes before the first line that does not fit. -/
def reached (g : Generator) (room : Room) : List (Step Nat) → List (Step Nat)
  | [] => []
  | .enter scope :: steps => .enter scope :: reached { g with scope } room steps
  | .reserve :: steps => .reserve :: reached { g with nextLabel := g.nextLabel + 2 } room steps
  | .write line :: steps =>
    if room.fits (g.lineBytes line).length then
      .write line :: reached g (room.minus (g.lineBytes line).length) steps
    else []

theorem reached_prefix (g : Generator) (room : Room) (steps : List (Step Nat)) :
    g.reached room steps <+: steps := by
  induction steps generalizing g room with
  | nil => exact List.prefix_rfl
  | cons step steps ih =>
    cases step with
    | enter scope => exact List.cons_prefix_cons.mpr ⟨rfl, ih _ _⟩
    | reserve => exact List.cons_prefix_cons.mpr ⟨rfl, ih _ _⟩
    | write line =>
      rw [reached]
      split
      · exact List.cons_prefix_cons.mpr ⟨rfl, ih _ _⟩
      · exact List.nil_prefix

theorem reserved_reached_le (g : Generator) (room : Room) (steps : List (Step Nat)) :
    reserved (g.reached room steps) ≤ reserved steps := by
  obtain ⟨rest, hrest⟩ := g.reached_prefix room steps
  have hreserved := congrArg reserved hrest
  rw [reserved_append] at hreserved
  omega

/-- What a generator does on some steps: it takes them one by one, up to the first line that does
not fit. -/
inductive Runs : Generator → Room → List (Step Nat) → Emission → Prop
  | nil {g : Generator} {room : Room} : Runs g room [] ⟨[], true, g⟩
  | enter {g : Generator} {room : Room} {scope : String} {steps : List (Step Nat)} {e : Emission}
    (h : Runs { g with scope } room steps e) : Runs g room (.enter scope :: steps) e
  | reserve {g : Generator} {room : Room} {steps : List (Step Nat)} {e : Emission}
    (hcount : g.nextLabel + 2 ≤ counterMax)
    (h : Runs { g with nextLabel := g.nextLabel + 2 } room steps e) :
    Runs g room (.reserve :: steps) e
  | write {g : Generator} {room : Room} {line : Line Nat} {steps : List (Step Nat)} {e : Emission}
    (hfits : room.fits (g.lineBytes line).length = true)
    (h : Runs g (room.minus (g.lineBytes line).length) steps e) :
    Runs g room (.write line :: steps) { e with bytes := g.lineBytes line ++ e.bytes }
  | full {g : Generator} {room : Room} {line : Line Nat} {steps : List (Step Nat)}
    (hfits : ¬ room.fits (g.lineBytes line).length = true) :
    Runs g room (.write line :: steps) ⟨room.cut (g.lineBytes line), false, g⟩

theorem runs_of_run_eq {g : Generator} {room : Room} {steps : List (Step Nat)} {e : Emission}
    (h : g.run room steps = .ok e) : Runs g room steps e := by
  induction steps generalizing g room e with
  | nil =>
    cases h
    exact .nil
  | cons step steps ih =>
    cases step with
    | enter scope => exact .enter (ih h)
    | reserve =>
      by_cases hcount : g.nextLabel + 2 ≤ counterMax
      · have hraise : raiseCounter g.nextLabel 2 = .ok (g.nextLabel + 2) := if_pos hcount
        simp only [run, hraise, bind, Except.bind] at h
        exact .reserve hcount (ih h)
      · have hraise : raiseCounter g.nextLabel 2 = .error .counterOverflow := if_neg hcount
        simp [run, hraise, bind, Except.bind] at h
    | write line =>
      by_cases hfits : room.fits (g.lineBytes line).length = true
      · simp only [run, if_pos hfits] at h
        cases hrun : g.run (room.minus (g.lineBytes line).length) steps with
        | error fault => simp [hrun, bind, Except.bind] at h
        | ok rest =>
          simp only [hrun, bind, Except.bind] at h
          cases h
          exact .write hfits (ih hrun)
      · simp only [run, if_neg hfits] at h
        cases h
        exact .full hfits

/-- What a generator keeps is what it came to, whether the sink was full or not. -/
theorem generator_of_run_eq {g : Generator} {room : Room} {steps : List (Step Nat)} {e : Emission}
    (h : g.run room steps = .ok e) :
    e.generator = ⟨scopeAfter g.scope (g.reached room steps),
      g.nextLabel + reserved (g.reached room steps)⟩ := by
  replace h := runs_of_run_eq h
  induction h with
  | nil => rfl
  | enter h ih => exact ih
  | reserve hcount h ih => simp only [ih, reached, scopeAfter, reserved, Nat.add_assoc]
  | write hfits h ih => simp only [ih, reached, if_pos hfits, scopeAfter, reserved]
  | full hfits => simp only [reached, if_neg hfits, scopeAfter, reserved, Nat.add_zero]

/-- Writing ends without a fault if the labels do not run out. -/
theorem exists_run {g : Generator} {steps : List (Step Nat)}
    (h : g.nextLabel + reserved steps ≤ counterMax) (room : Room) :
    ∃ e, g.run room steps = .ok e := by
  cases room with
  | none => exact ⟨_, run_none h⟩
  | some limit =>
    obtain ⟨e, he, -⟩ := exists_run_limit (run_none h) limit
    exact ⟨e, he⟩

/-- Labels have not run out if everything was written. -/
theorem le_counterMax_of_run_eq {g : Generator} {room : Room}
    {steps : List (Step Nat)} {e : Emission} (h : g.run room steps = .ok e)
    (hcomplete : e.complete = true) (hg : g.nextLabel ≤ counterMax) :
    g.nextLabel + reserved steps ≤ counterMax := by
  replace h := runs_of_run_eq h
  induction h with
  | nil => exact hg
  | enter h ih => exact ih hcomplete hg
  | reserve hcount h ih =>
    rw [reserved, ← Nat.add_assoc]
    exact ih hcomplete hcount
  | write hfits h ih => exact ih hcomplete hg
  | full hfits => cases hcomplete

end Generator

/-- The line that a step writes. -/
def Step.line? {L : Type} : Step L → Option (Line L)
  | .write line => some line
  | _ => none

/-- Local steps write their lines with each label spelled in the scope. -/
theorem spelled_of_isLocal (scope : String) {steps : List (Step Nat)}
    (h : ∀ step ∈ steps, step.IsLocal) :
    spelled scope steps = (steps.filterMap Step.line?).map (Line.mapLabel (spellLabel scope)) := by
  induction steps with
  | nil => rfl
  | cons step steps ih =>
    rw [List.forall_mem_cons] at h
    rcases h.1 with ⟨n, rfl⟩ | ⟨i, rfl⟩ | rfl
    · exact congrArg (_ :: ·) (ih h.2)
    · exact congrArg (_ :: ·) (ih h.2)
    · exact ih h.2

/-- The label that a line jumps to. -/
def Line.target? {L : Type} : Line L → Option L
  | .instr (.jumpIf _ target) => some target
  | .instr (.jmp target) => some target
  | _ => none

theorem Line.label?_mapLabel {L M : Type} (f : L → M) (line : Line L) :
    (line.mapLabel f).label? = line.label?.map f := by
  cases line <;> rfl

theorem Line.target?_mapLabel {L M : Type} (f : L → M) (line : Line L) :
    (line.mapLabel f).target? = line.target?.map f := by
  cases line with
  | instr i => cases i <;> rfl
  | _ => rfl

/-- Whether each jump goes to a label that is marked by a later line. -/
def JumpsForward (lines : List (Line String)) : Prop :=
  ∀ ⦃line after⦄, line :: after <:+ lines → ∀ target, line.target? = some target →
    .label target ∈ after

namespace JumpsForward

theorem cons_iff {line : Line String} {lines : List (Line String)} :
    JumpsForward (line :: lines) ↔
      (∀ target, line.target? = some target → .label target ∈ lines) ∧ JumpsForward lines := by
  constructor
  · intro h
    exact ⟨h List.suffix_rfl, fun line' after hsuffix => h (hsuffix.trans (List.suffix_cons _ _))⟩
  · rintro ⟨hline, hlines⟩ line' after hsuffix
    rcases List.suffix_cons_iff.mp hsuffix with heq | hrest
    · cases heq
      exact hline
    · exact hlines hrest

/-- A line that is no jump can stand in front. -/
theorem cons {line : Line String} {lines : List (Line String)} (h : JumpsForward lines)
    (hline : line.target? = none) : JumpsForward (line :: lines) :=
  cons_iff.mpr ⟨by simp [hline], h⟩

theorem nil : JumpsForward [] := by
  intro line after hsuffix
  simp at hsuffix

theorem append {first rest : List (Line String)} (hfirst : JumpsForward first)
    (hrest : JumpsForward rest) : JumpsForward (first ++ rest) := by
  induction first with
  | nil => exact hrest
  | cons line lines ih =>
    obtain ⟨hline, hlines⟩ := cons_iff.mp hfirst
    refine cons_iff.mpr ⟨fun target htarget => ?_, ih hlines⟩
    exact List.mem_append_left _ (hline target htarget)

end JumpsForward

/-- Whether every label that steps mark or jump to is numbered from `low` on and below `high`, which
grows with the labels that the steps reserve. -/
def Covered (low : Nat) : Nat → List (Step Nat) → Prop
  | _, [] => True
  | high, .enter _ :: steps => Covered low high steps
  | high, .reserve :: steps => Covered low (high + 2) steps
  | high, .write line :: steps =>
    (∀ number, line.label? = some number ∨ line.target? = some number →
      low ≤ number ∧ number < high) ∧ Covered low high steps

namespace Covered

variable {low high : Nat} {steps : List (Step Nat)}

theorem append_iff {rest : List (Step Nat)} :
    Covered low high (steps ++ rest) ↔
      Covered low high steps ∧ Covered low (high + reserved steps) rest := by
  induction steps generalizing high with
  | nil => simp [Covered, reserved]
  | cons step steps ih =>
    cases step with
    | enter scope => exact ih
    | reserve => simp only [List.cons_append, Covered, reserved, ih, Nat.add_assoc]
    | write line => simp only [List.cons_append, Covered, reserved, ih, and_assoc]

theorem mono (h : Covered low high steps) {low' high' : Nat} (hlow : low' ≤ low)
    (hhigh : high ≤ high') : Covered low' high' steps := by
  induction steps generalizing high high' with
  | nil => trivial
  | cons step steps ih =>
    cases step with
    | enter scope => exact ih (show Covered low high steps from h) hhigh
    | reserve => exact ih (show Covered low (high + 2) steps from h) (by omega)
    | write line =>
      refine ⟨fun number hnumber => ?_, ih h.2 hhigh⟩
      have hbounds := h.1 number hnumber
      omega

theorem bounds (h : Covered low high steps) {line : Line Nat} (hline : .write line ∈ steps)
    {number : Nat} (hnumber : line.label? = some number ∨ line.target? = some number) :
    low ≤ number ∧ number < high + reserved steps := by
  obtain ⟨before, after, rfl⟩ := List.append_of_mem hline
  have hat := (append_iff.mp h).2.1 number hnumber
  rw [reserved_append]
  omega

end Covered

end Assembly

theorem UnaryOp.jumpsForward_finish (op : UnaryOp) (scope : String) :
    JumpsForward (spelled scope op.finish) := by
  cases op <;> simp [UnaryOp.finish, compareZero, setTo, spelled, Line.mapLabel, Instr.mapLabel,
    JumpsForward.cons_iff, Line.target?, JumpsForward.nil]

theorem BinaryOp.jumpsForward_finish (op : BinaryOp) (scope : String) :
    JumpsForward (spelled scope op.finish) := by
  cases op <;> simp [BinaryOp.finish, relate, compareZero, setTo, spelled, Line.mapLabel,
    Instr.mapLabel, JumpsForward.cons_iff, Line.target?, JumpsForward.nil]

/-- What skips an operand jumps to the labels of its operator, which both have to follow. -/
theorem BinaryOp.jumpsForward_skip (op : BinaryOp) (scope : String) (n : Nat)
    {lines : List (Line String)} (h : JumpsForward lines)
    (hfirst : .label (spellLabel scope n) ∈ lines)
    (hlast : .label (spellLabel scope (n + 1)) ∈ lines) :
    JumpsForward (spelled scope (op.skip n) ++ lines) := by
  cases op <;> simp [BinaryOp.skip, compareZero, spelled, Line.mapLabel, Instr.mapLabel,
    JumpsForward.cons_iff, Line.target?, h, hfirst, hlast]

namespace Expr

/-- The jumps of an expression's code go forward. -/
theorem jumpsForward_lines (e : Expr) (scope : String) (n : Nat) :
    JumpsForward (e.lines scope n) := by
  induction e using code_induction generalizing n with
  | integer value => exact JumpsForward.nil.cons rfl
  | unary op operand ih =>
    rw [lines_unary]
    exact (ih n).append (op.jumpsForward_finish scope)
  | strict op left right h ihf ihs =>
    rw [lines_of_not_isLogical h]
    exact (ihf n).append (((ihs _).append ((op.jumpsForward_finish scope).cons rfl)).cons rfl)
  | logical op left right h ihl ihr =>
    rw [lines_of_isLogical h]
    have hlast : JumpsForward [.label (spellLabel scope (n + 1))] := JumpsForward.nil.cons rfl
    have hright := (ihr (n + 2 + left.labelCount)).append
      ((op.jumpsForward_finish scope).append hlast)
    exact (ihl _).append (op.jumpsForward_skip scope n (hright.cons rfl) (by simp) (by simp))

/-- An expression's code uses only labels that it has reserved before. -/
theorem covered_code (e : Expr) (n : Nat) : Covered n n (e.code n []) := by
  have hunary (op : UnaryOp) (low high : Nat) : Covered low high op.finish := by
    cases op <;> simp [UnaryOp.finish, compareZero, setTo, Covered, Line.label?, Line.target?]
  have hbinary (op : BinaryOp) (low high : Nat) : Covered low high op.finish := by
    cases op <;>
      simp [BinaryOp.finish, relate, compareZero, setTo, Covered, Line.label?, Line.target?]
  have hskip (op : BinaryOp) {low high m : Nat} (hlow : low ≤ m) (hhigh : m + 1 < high) :
      Covered low high (op.skip m) := by
    cases op <;> simp [BinaryOp.skip, compareZero, Covered, Line.label?, Line.target?] <;> omega
  induction e using code_induction generalizing n with
  | integer value => simp [code, Covered, Line.label?, Line.target?]
  | unary op operand ih =>
    rw [code_unary]
    exact Covered.append_iff.mpr ⟨ih n, hunary op _ _⟩
  | strict op left right h ihf ihs =>
    have hsecond := (ihs (n + (op.inOrder left right).1.labelCount)).mono (Nat.le_add_right _ _)
      (Nat.le_refl _)
    rw [code_of_not_isLogical h]
    refine Covered.append_iff.mpr ⟨ihf n, ?_, Covered.append_iff.mpr ⟨?_, ?_, hbinary op _ _⟩⟩
    · rintro number (hnumber | hnumber) <;> cases hnumber
    · rwa [reserved_code]
    · rintro number (hnumber | hnumber) <;> cases hnumber
  | logical op left right h ihl ihr =>
    have hleft : Covered n (n + 2) (left.code (n + 2) []) :=
      (ihl (n + 2)).mono (by omega) (Nat.le_refl _)
    have hright : Covered n (n + 2 + left.labelCount)
        (right.code (n + 2 + left.labelCount) []) := (ihr _).mono (by omega) (Nat.le_refl _)
    have hlabel {number high : Nat} (hlow : n ≤ number) (hhigh : number < high)
        {steps : List (Step Nat)} (hsteps : Covered n high steps) :
        Covered n high (.write (.label number) :: steps) := by
      refine ⟨fun number' hnumber => ?_, hsteps⟩
      rcases hnumber with hnumber | hnumber
      · cases hnumber
        exact ⟨hlow, hhigh⟩
      · cases hnumber
    rw [code_of_isLogical h, Covered]
    refine Covered.append_iff.mpr ⟨hleft, ?_⟩
    rw [reserved_code]
    refine Covered.append_iff.mpr ⟨hskip op (Nat.le_refl n) (by omega), ?_⟩
    rw [(op.skip_inert n "").2.1]
    refine hlabel (Nat.le_refl n) (by omega) (Covered.append_iff.mpr ⟨hright, ?_⟩)
    refine Covered.append_iff.mpr ⟨hbinary op _ _, hlabel (by omega) (by omega) trivial⟩

/-- An expression's code marks the labels that are reserved for it. -/
theorem filterMap_label?_lines_perm (e : Expr) (scope : String) (n : Nat) :
    ((e.lines scope n).filterMap Line.label?).Perm
      ((List.range' n e.labelCount).map (spellLabel scope)) := by
  rw [lines, filterMap_label?_spelled _ (e.isLocal_code n)]
  exact (e.marked_code_perm n).map _

end Expr

end MiniC
