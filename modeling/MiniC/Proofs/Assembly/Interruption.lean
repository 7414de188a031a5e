import MiniC.Proofs.Assembly.Labels
import MiniC.Proofs.Parse.Rendering

/-!
# Interrupted writing

A sink that is full stops a generator at the first line that does not fit. The generator has then
come to exactly those operators `&&` and `||` whose code begins within what the sink takes or right
behind it, and it took two labels for each of them. It has entered the scope of a function exactly
if the sink takes the header of the function.
-/

namespace MiniC

open Assembly

/-- The number of bytes of lines. -/
def Assembly.byteCount (lines : List (Line String)) : Nat := (Bytes.ofText (textOf lines)).length

namespace Expr

/-- The subexpression at a path. -/
def at? : Expr → List Branch → Option Expr
  | e, [] => some e
  | .unary _ operand, .operand :: path => operand.at? path
  | .binary _ left _, .left :: path => left.at? path
  | .binary _ _ right, .right :: path => right.at? path
  | _, _ => none

/-- Whether an expression is a conjunction or a disjunction. -/
def IsLogical : Expr → Prop
  | .binary op _ _ => op.IsLogical
  | _ => False

/-- The paths to the operators `&&` and `||`. -/
def branches : Expr → List (List Branch)
  | .integer _ => []
  | .unary _ operand => operand.branches.map (.operand :: ·)
  | .binary op left right =>
    (if op.IsLogical then [[]] else []) ++
      (left.branches.map (.left :: ·) ++ right.branches.map (.right :: ·))

/-- Where the code of the subexpression at a path begins in the code of an expression whose labels
are numbered from `n` on. The right operand of `-` and `/` comes first. -/
def start (scope : String) (n : Nat) : Expr → List Branch → Nat
  | .unary _ operand, .operand :: path => operand.start scope n path
  | .binary op left right, .left :: path =>
    match op with
    | .and | .or => left.start scope (n + 2) path
    | .sub | .div =>
      byteCount (right.lines scope n ++ [.instr (.pushq .a)]) +
        left.start scope (n + right.labelCount) path
    | _ => left.start scope n path
  | .binary op left right, .right :: path =>
    match op with
    | .and | .or =>
      byteCount (left.lines scope (n + 2) ++
          (spelled scope (op.skip n) ++ [.label (spellLabel scope n)])) +
        right.start scope (n + 2 + left.labelCount) path
    | .sub | .div => right.start scope n path
    | _ =>
      byteCount (left.lines scope n ++ [.instr (.pushq .a)]) +
        right.start scope (n + left.labelCount) path
  | _, _ => 0

theorem nodup_branches (e : Expr) : e.branches.Nodup := by
  have hcons : ∀ branch : Branch, Function.Injective (branch :: ·) :=
    fun branch _ _ h => (List.cons.inj h).2
  induction e with
  | integer value => exact List.nodup_nil
  | unary op operand ih => exact ih.map (hcons _)
  | binary op left right ihl ihr =>
    have hoperands : (left.branches.map (Branch.left :: ·) ++
        right.branches.map (Branch.right :: ·)).Nodup := by
      refine (ihl.map (hcons _)).append (ihr.map (hcons _)) ?_
      intro path hleft hright
      obtain ⟨_, -, rfl⟩ := List.mem_map.mp hleft
      obtain ⟨_, -, h⟩ := List.mem_map.mp hright
      cases h
    rw [branches]
    split
    · exact List.nodup_cons.mpr ⟨by simp, hoperands⟩
    · exact hoperands

/-- The listed paths lead to the operators `&&` and `||`, and all of them are listed. -/
theorem mem_branches_iff (e : Expr) (path : List Branch) :
    path ∈ e.branches ↔ ∃ node, e.at? path = some node ∧ node.IsLogical := by
  induction e generalizing path with
  | integer value => cases path <;> simp [branches, at?, IsLogical]
  | unary op operand ih =>
    rcases path with - | ⟨- | - | -, path⟩ <;> simp [branches, at?, IsLogical, ih]
  | binary op left right ihl ihr =>
    have hroot : ∀ p, p ∈ (if op.IsLogical then [([] : List Branch)] else []) ↔
        p = [] ∧ op.IsLogical := by
      intro p
      split <;> simp [*]
    rcases path with - | ⟨- | - | -, path⟩ <;>
      simp [branches, at?, IsLogical, ihl, ihr, hroot]

end Expr

namespace Assembly

theorem byteCount_append (first rest : List (Line String)) :
    byteCount (first ++ rest) = byteCount first + byteCount rest := by
  simp [byteCount, textOf, Bytes.ofText]

theorem byteCount_cons (line : Line String) (lines : List (Line String)) :
    byteCount (line :: lines) = byteCount [line] + byteCount lines := byteCount_append [line] lines

theorem Generator.length_lineBytes (g : Generator) (line : Line Nat) :
    (g.lineBytes line).length = byteCount [line.mapLabel (spellLabel g.scope)] := by
  simp [lineBytes, byteCount, textOf]

/-- Where labels are reserved among the bytes that steps write. -/
def reserves (scope : String) : List (Step Nat) → List Nat
  | [] => []
  | .enter scope :: steps => reserves scope steps
  | .reserve :: steps => 0 :: reserves scope steps
  | .write line :: steps =>
    (reserves scope steps).map (byteCount [line.mapLabel (spellLabel scope)] + ·)

theorem reserves_append (scope : String) (first rest : List (Step Nat)) :
    reserves scope (first ++ rest) = reserves scope first ++
      (reserves (scopeAfter scope first) rest).map (byteCount (spelled scope first) + ·) := by
  induction first generalizing scope with
  | nil => simp [reserves, spelled, byteCount, textOf, scopeAfter, Bytes.ofText]
  | cons step steps ih =>
    cases step with
    | enter scope' => exact ih scope'
    | reserve => simp only [List.cons_append, reserves, ih, scopeAfter, spelled]
    | write line =>
      simp only [List.cons_append, reserves, ih, scopeAfter, spelled, List.map_append, List.map_map,
        byteCount_cons _ (spelled scope steps)]
      simp [Function.comp_def, Nat.add_assoc]

/-- Steps that reserve no label have no place where one is reserved. -/
theorem reserves_eq_nil {steps : List (Step Nat)} (h : reserved steps = 0) (scope : String) :
    reserves scope steps = [] := by
  induction steps generalizing scope with
  | nil => rfl
  | cons step steps ih =>
    cases step with
    | enter scope' => exact ih h scope'
    | reserve => simp [reserved] at h
    | write line => rw [reserves, ih h, List.map_nil]

/-- What reserves no label does not change where labels are reserved before. -/
theorem reserves_append_of_reserved_eq_zero (scope : String) (first : List (Step Nat))
    {rest : List (Step Nat)} (h : reserved rest = 0) :
    reserves scope (first ++ rest) = reserves scope first := by
  rw [reserves_append, reserves_eq_nil h, List.map_nil, List.append_nil]

private theorem Piece.isLocal_footer (piece : Piece) : ∀ step ∈ piece.footer, step.IsLocal := by
  cases piece <;> simp [Piece.footer, Step.IsLocal]

namespace Generator

/-- A generator reserves labels as long as the sink has taken everything before. -/
theorem reserved_reached (g : Generator) (limit : Nat) (steps : List (Step Nat)) :
    reserved (g.reached (some limit) steps) =
      2 * (reserves g.scope steps).countP (· ≤ limit) := by
  induction steps generalizing g limit with
  | nil => rfl
  | cons step steps ih =>
    cases step with
    | enter scope => exact ih _ limit
    | reserve =>
      rw [reached, reserved, ih, reserves, List.countP_cons_of_pos (by simp), Nat.mul_add,
        Nat.add_comm]
    | write line =>
      have hfits : Room.fits (some limit) (g.lineBytes line).length = true ↔
          byteCount [line.mapLabel (spellLabel g.scope)] ≤ limit := by
        rw [← length_lineBytes]
        exact decide_eq_true_iff
      rw [reached, reserves, List.countP_map]
      by_cases h : byteCount [line.mapLabel (spellLabel g.scope)] ≤ limit
      · rw [if_pos (hfits.mpr h), Room.minus, Option.map_some, length_lineBytes]
        refine (ih g _).trans (congrArg (2 * ·) ?_)
        refine List.countP_congr fun offset _ => ?_
        simp only [Function.comp_apply, decide_eq_true_eq]
        omega
      · rw [if_neg (mt hfits.mp h), reserved, List.countP_eq_zero.mpr]
        intro offset _
        simp only [Function.comp_apply, decide_eq_true_eq]
        omega

/-- A piece that does not fit has entered the scope of its function exactly if the header fits. -/
theorem scopeAfter_reached (g : Generator) (piece : Piece) (limit : Nat) :
    scopeAfter g.scope (g.reached (some limit) (piece.code g.nextLabel)) =
      if byteCount (spelled g.scope piece.header) ≤ limit then piece.scopeIn g.scope
      else g.scope := by
  have hbody : ∀ (h : Generator) (room : Room),
      scopeAfter h.scope (h.reached room (piece.result.code g.nextLabel [] ++ piece.footer)) =
        h.scope := by
    intro h room
    refine scopeAfter_of_isLocal (fun step hstep => ?_) _
    have hmem := (h.reached_prefix room _).subset hstep
    exact (List.mem_append.mp hmem).elim (piece.result.isLocal_code _ _) (piece.isLocal_footer _)
  rw [piece.code_eq]
  unfold Piece.header Piece.scopeIn
  cases piece.name? with
  | none => simpa [spelled, byteCount, textOf, Bytes.ofText] using hbody g (some limit)
  | some name =>
    simp only [List.cons_append, List.nil_append, reached, spelled, byteCount_cons _ [_],
      length_lineBytes, Room.fits, Room.minus, Option.map_some, decide_eq_true_eq]
    split
    · split
      · rw [if_pos (by omega)]
        exact hbody ⟨name, g.nextLabel⟩ _
      · rw [if_neg (by omega)]
        rfl
    · rw [if_neg (by omega)]
      rfl

end Generator

end Assembly

namespace Expr

variable {op : BinaryOp}

theorem at?_inOrder (left right : Expr) (path : List Branch) :
    (Expr.binary op left right).at? ((op.inOrder .left .right).1 :: path) =
        (op.inOrder left right).1.at? path ∧
      (Expr.binary op left right).at? ((op.inOrder .left .right).2 :: path) =
        (op.inOrder left right).2.at? path := by
  cases op <;> exact ⟨rfl, rfl⟩

theorem start_inOrder (h : ¬op.IsLogical) (scope : String) (n : Nat) (left right : Expr)
    (path : List Branch) :
    (Expr.binary op left right).start scope n ((op.inOrder .left .right).1 :: path) =
        (op.inOrder left right).1.start scope n path ∧
      (Expr.binary op left right).start scope n ((op.inOrder .left .right).2 :: path) =
        byteCount ((op.inOrder left right).1.lines scope n ++ [.instr (.pushq .a)]) +
          (op.inOrder left right).2.start scope (n + (op.inOrder left right).1.labelCount)
            path := by
  cases op <;> first | exact ⟨rfl, rfl⟩ | exact absurd (by decide) h

theorem start_left_of_isLogical (h : op.IsLogical) (scope : String) (n : Nat) (left right : Expr)
    (path : List Branch) :
    (Expr.binary op left right).start scope n (.left :: path) =
      left.start scope (n + 2) path := by
  rcases h with rfl | rfl <;> rfl

theorem start_right_of_isLogical (h : op.IsLogical) (scope : String) (n : Nat) (left right : Expr)
    (path : List Branch) :
    (Expr.binary op left right).start scope n (.right :: path) =
      byteCount (left.lines scope (n + 2) ++
          (spelled scope (op.skip n) ++ [.label (spellLabel scope n)])) +
        right.start scope (n + 2 + left.labelCount) path := by
  rcases h with rfl | rfl <;> rfl

/-- The code of the subexpression at a path stands in the code of an expression where it is said to
begin. -/
theorem exists_lines_eq_of_at? {e node : Expr} {path : List Branch} (h : e.at? path = some node)
    (scope : String) (n : Nat) :
    ∃ (before after : List (Line String)) (k : Nat),
      e.lines scope n = before ++ (node.lines scope k ++ after) ∧
        byteCount before = e.start scope n path := by
  induction path generalizing e n with
  | nil =>
    have hself : e.at? [] = some e ∧ e.start scope n [] = 0 := by cases e <;> exact ⟨rfl, rfl⟩
    cases hself.1.symm.trans h
    exact ⟨[], [], n, by simp, hself.2.symm⟩
  | cons branch path ih =>
    cases e with
    | integer value => simp [at?] at h
    | unary op operand =>
      cases branch with
      | operand =>
        obtain ⟨before, after, k, hlines, hstart⟩ := ih (e := operand) h n
        exact ⟨before, after ++ spelled scope op.finish, k, by simp [lines_unary, hlines], hstart⟩
      | _ => simp [at?] at h
    | binary op left right =>
      by_cases hop : op.IsLogical
      · rw [lines_of_isLogical hop]
        cases branch with
        | operand => simp [at?] at h
        | left =>
          obtain ⟨before, after, k, hlines, hstart⟩ := ih (e := left) h (n + 2)
          rw [start_left_of_isLogical hop, hlines]
          exact ⟨before, _, k, by rw [List.append_assoc, List.append_assoc], hstart⟩
        | right =>
          obtain ⟨before, after, k, hlines, hstart⟩ :=
            ih (e := right) h (n + 2 + left.labelCount)
          rw [start_right_of_isLogical hop, ← hstart, ← byteCount_append, hlines]
          exact ⟨_, after ++ (spelled scope op.finish ++ [.label (spellLabel scope (n + 1))]), k,
            by simp, rfl⟩
      · rw [lines_of_not_isLogical hop]
        have hbranch : branch = .operand ∨ branch = (op.inOrder .left .right).1 ∨
            branch = (op.inOrder .left .right).2 := by
          cases op <;> cases branch <;> decide
        obtain rfl | rfl | rfl := hbranch
        · simp [at?] at h
        · obtain ⟨before, after, k, hlines, hstart⟩ := ih ((at?_inOrder ..).1.symm.trans h) n
          rw [(start_inOrder hop ..).1, hlines]
          exact ⟨before, _, k, by rw [List.append_assoc, List.append_assoc], hstart⟩
        · obtain ⟨before, after, k, hlines, hstart⟩ := ih ((at?_inOrder ..).2.symm.trans h)
            (n + (op.inOrder left right).1.labelCount)
          rw [(start_inOrder hop ..).2, ← hstart, ← byteCount_append, hlines]
          exact ⟨_, after ++ .instr (.popq .c) :: spelled scope op.finish, k, by simp, rfl⟩

private theorem branches_perm_of_not_isLogical (h : ¬op.IsLogical) (left right : Expr) :
    (Expr.binary op left right).branches.Perm
      ((op.inOrder left right).1.branches.map ((op.inOrder .left .right).1 :: ·) ++
        (op.inOrder left right).2.branches.map ((op.inOrder .left .right).2 :: ·)) := by
  rw [branches, if_neg h, List.nil_append]
  cases op <;> first | exact List.Perm.refl _ | exact List.perm_append_comm

/-- Labels are reserved where the code of an operator `&&` or `||` begins. -/
theorem reserves_code_perm (scope : String) (n : Nat) (e : Expr) :
    (reserves scope (e.code n [])).Perm (e.branches.map (e.start scope n)) := by
  induction e using code_induction generalizing n with
  | integer value => exact List.Perm.refl _
  | unary op operand ih =>
    rw [code_unary, reserves_append_of_reserved_eq_zero _ _ (op.finish_inert scope).2.1, branches,
      List.map_map]
    exact ih n
  | strict op left right h ihf ihs =>
    have hcode : reserves scope ((Expr.binary op left right).code n []) =
        reserves scope ((op.inOrder left right).1.code n []) ++
          (reserves scope ((op.inOrder left right).2.code
            (n + (op.inOrder left right).1.labelCount) [])).map
            (byteCount ((op.inOrder left right).1.lines scope n ++ [.instr (.pushq .a)]) + ·) := by
      have hlast : reserved (.instr (.popq .c) :: op.finish) = 0 := (op.finish_inert scope).2.1
      rw [code_of_not_isLogical h, List.append_cons, reserves_append,
        reserves_append_of_reserved_eq_zero _ _ rfl, reserves_append_of_reserved_eq_zero _ _ hlast,
        scopeAfter_append, scopeAfter_code, spelled_append, scopeAfter_code]
      rfl
    refine .trans ?_ ((branches_perm_of_not_isLogical h left right).map _).symm
    simp only [List.map_append, List.map_map, Function.comp_def, (start_inOrder h ..).1,
      (start_inOrder h ..).2, hcode]
    simpa only [List.map_map, Function.comp_def] using (ihf n).append ((ihs _).map _)
  | logical op left right h ihl ihr =>
    have hcode : reserves scope ((Expr.binary op left right).code n []) =
        0 :: (reserves scope (left.code (n + 2) []) ++
          (reserves scope (right.code (n + 2 + left.labelCount) [])).map
            (byteCount (left.lines scope (n + 2) ++
              (spelled scope (op.skip n) ++ [.label (spellLabel scope n)])) + ·)) := by
      have hskip : reserved (op.skip n ++ [.write (.label n)]) = 0 := by
        rw [reserved_append, (op.skip_inert n scope).2.1]
        rfl
      have hlast : reserved (op.finish ++ [.write (.label (n + 1))]) = 0 := by
        rw [reserved_append, (op.finish_inert scope).2.1]
        rfl
      rw [code_of_isLogical h, reserves, List.append_cons (op.skip n), ← List.append_assoc,
        reserves_append, reserves_append_of_reserved_eq_zero _ _ hskip,
        reserves_append_of_reserved_eq_zero _ _ hlast, scopeAfter_append, scopeAfter_code,
        scopeAfter_append, (op.skip_inert n scope).1, spelled_append, scopeAfter_code,
        spelled_append, (op.skip_inert n scope).1]
      rfl
    rw [hcode, branches, if_pos h, List.singleton_append, List.map_cons]
    simp only [List.map_append, List.map_map, Function.comp_def, start_left_of_isLogical h,
      start_right_of_isLogical h]
    refine .cons 0 ?_
    simpa only [List.map_map, Function.comp_def] using (ihl _).append ((ihr _).map _)

end Expr

namespace Assembly

/-- Where the code of the subexpression at a path begins in the complete text of a piece. -/
def Piece.start (g : Generator) (piece : Piece) (path : List Branch) : Nat :=
  byteCount (spelled g.scope piece.header) +
    piece.result.start (piece.scopeIn g.scope) g.nextLabel path

/-- A piece reserves labels where the code of an operator `&&` or `||` begins. -/
theorem Piece.reserves_code_perm (g : Generator) (piece : Piece) :
    (reserves g.scope (piece.code g.nextLabel)).Perm
      (piece.result.branches.map (piece.start g)) := by
  rw [piece.code_eq, reserves_append, reserves_eq_nil piece.reserved_header, List.nil_append,
    scopeAfter_header, reserves_append_of_reserved_eq_zero _ _ (piece.footer_inert "").2]
  have hperm := (piece.result.reserves_code_perm (piece.scopeIn g.scope) g.nextLabel).map
    (byteCount (spelled g.scope piece.header) + ·)
  rwa [List.map_map] at hperm

/-- The code of a subexpression stands in the complete text of a piece where it is said to begin. -/
theorem Piece.exists_bytes_eq_of_at? (g : Generator) {piece : Piece} {path : List Branch}
    {node : Expr} (h : piece.result.at? path = some node) :
    ∃ (before after : Bytes) (k : Nat),
      piece.bytes g =
          before ++ (.ofText (textOf (node.lines (piece.scopeIn g.scope) k)) ++ after) ∧
        before.length = piece.start g path := by
  obtain ⟨before, after, k, hlines, hstart⟩ :=
    Expr.exists_lines_eq_of_at? h (piece.scopeIn g.scope) g.nextLabel
  refine ⟨.ofText (textOf (spelled g.scope piece.header ++ before)),
    .ofText (textOf (after ++ spelled (piece.scopeIn g.scope) piece.footer)), k, ?_, ?_⟩
  · rw [Piece.bytes, piece.lines_eq, hlines]
    simp [textOf, Bytes.ofText]
  · rw [Piece.start, ← hstart, ← byteCount_append]
    rfl

private theorem Piece.spelled_header {piece : Piece} {name : String} (h : piece.name? = some name)
    (scope : String) :
    spelled scope piece.header = [.global (symbol name), .symbol (symbol name)] := by
  rw [Piece.header, h]
  rfl

namespace Generator

variable {g : Generator} {piece : Piece}

/-- A piece that is cut off leaves the generator with two labels taken for each operator `&&` and
`||` whose code begins at the cut or before it. -/
theorem exists_emit_of_lt (h : g.nextLabel + piece.result.labelCount ≤ counterMax) {limit : Nat}
    (hlimit : limit < (piece.bytes g).length) :
    ∃ e, g.emit piece (some limit) = .ok e ∧ e.complete = false ∧
      e.generator =
        ⟨if byteCount (spelled g.scope piece.header) ≤ limit then piece.scopeIn g.scope
          else g.scope,
        g.nextLabel + 2 * piece.result.branches.countP (piece.start g · ≤ limit)⟩ := by
  obtain ⟨e, he, -, hcomplete⟩ := exists_emit_limit h limit
  refine ⟨e, he, ?_, ?_⟩
  · rw [← Bool.not_eq_true, hcomplete]
    omega
  · rw [generator_of_run_eq he, scopeAfter_reached, reserved_reached,
      (piece.reserves_code_perm g).countP_eq, List.countP_map]
    rfl

/-- A call that a full sink stops leaves what had been reached. The operators `&&` and `||` of the
expression are at the paths listed, and the code of each begins at `start` in the complete output.
Two labels are taken for each of them whose code begins at the cut or before it, and the scope of a
function is entered exactly if its header was taken. -/
theorem emit_interrupted (h : g.nextLabel + 2 * piece.result.branchCount < 4294967296) :
    ∃ all, g.emit piece none = .ok all ∧ all.complete = true ∧
      piece.result.branches.Nodup ∧
      (∀ path, path ∈ piece.result.branches ↔
        ∃ node, piece.result.at? path = some node ∧ node.IsLogical) ∧
      (∀ path node, piece.result.at? path = some node →
        ∃ (before after : Bytes) (k : Nat),
          all.bytes =
              before ++ (.ofText (textOf (node.lines (piece.scopeIn g.scope) k)) ++ after) ∧
            before.length = piece.start g path) ∧
      ∀ limit < all.bytes.length,
        ∃ e, g.emit piece (some limit) = .ok e ∧ e.complete = false ∧
          e.generator.nextLabel =
            g.nextLabel + 2 * piece.result.branches.countP (piece.start g · ≤ limit) ∧
          (piece.name? = none → e.generator.scope = g.scope) ∧
          ∀ name, piece.name? = some name →
            (byteCount [.global (symbol name), .symbol (symbol name)] ≤ limit →
              e.generator.scope = name) ∧
            (limit < byteCount [.global (symbol name), .symbol (symbol name)] →
              e.generator = g) := by
  have hlabels : g.nextLabel + piece.result.labelCount ≤ counterMax := by
    rw [piece.result.labelCount_eq_branchCount]
    exact Nat.le_of_lt_succ h
  refine ⟨_, emit_none hlabels, rfl, piece.result.nodup_branches, piece.result.mem_branches_iff,
    fun path node => piece.exists_bytes_eq_of_at? g, fun limit hlimit => ?_⟩
  obtain ⟨e, he, hcomplete, hgenerator⟩ := exists_emit_of_lt hlabels hlimit
  refine ⟨e, he, hcomplete, by rw [hgenerator], fun hname => ?_, fun name hname => ?_⟩
  · simp [hgenerator, Piece.scopeIn, hname]
  · rw [← piece.spelled_header hname g.scope]
    refine ⟨fun hheader => ?_, fun hheader => ?_⟩
    · rw [hgenerator, if_pos hheader, Piece.scopeIn, hname]
      rfl
    · have hnone : piece.result.branches.countP (piece.start g · ≤ limit) = 0 := by
        refine List.countP_eq_zero.mpr fun path _ => ?_
        rw [decide_eq_true_eq, Piece.start]
        omega
      rw [hgenerator, hnone, if_neg (by omega)]
      rfl

/-- The right operand of a difference comes first. A sink that takes just the header of the function
leaves the labels of that operand taken and not those of the other one, and one that takes a byte
less leaves the generator as it was. -/
theorem emit_interrupted_behind_header :
    let g : Generator := ⟨"s", 5⟩
    let conjunction := Expr.binary .and (.integer 1) (.integer 2)
    let disjunction := Expr.binary .or (.integer 3) (.integer 4)
    let piece := Piece.program ⟨⟨"f", .ret (.binary .sub conjunction disjunction)⟩⟩
    g.nextLabel + 2 * piece.result.branchCount < 4294967296 ∧
      (∃ e, g.emit piece (some 13) = .ok e ∧ e.complete = false ∧ e.generator = ⟨"f", 7⟩) ∧
      ∃ e, g.emit piece (some 12) = .ok e ∧ e.complete = false ∧ e.generator = g := by
  intro g conjunction disjunction piece
  have hlabels : g.nextLabel + 2 * piece.result.branchCount < 4294967296 := by decide
  obtain ⟨all, -, -, -, -, hplaces, hcut⟩ := emit_interrupted hlabels
  have hlength : 13 < all.bytes.length := by
    obtain ⟨before, after, k, hbytes, hbefore⟩ := hplaces [.left] conjunction rfl
    have hstart : 13 < piece.start g [.left] := by decide +kernel
    rw [hbytes, List.length_append, hbefore]
    omega
  have hheader : byteCount [.global (symbol "f"), .symbol (symbol "f")] = 13 := by decide +kernel
  have hcount : piece.result.branches.countP (piece.start g · ≤ 13) = 1 := by decide +kernel
  obtain ⟨e, he, hcomplete, hnext, -, hentered⟩ := hcut 13 hlength
  obtain ⟨e', he', hcomplete', -, -, hkept⟩ := hcut 12 (by omega)
  refine ⟨hlabels, ⟨e, he, hcomplete, ?_⟩, e', he', hcomplete', (hkept "f" rfl).2 (by omega)⟩
  rw [hcount] at hnext
  exact congrArg₂ Generator.mk ((hentered "f" rfl).1 hheader.le) hnext

end Generator

end Assembly

end MiniC
