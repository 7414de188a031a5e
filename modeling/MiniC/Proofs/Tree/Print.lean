import MiniC.Proofs.Text.Decimal
import MiniC.Tree.Print

/-!
# Reading printed trees

A printed expression ends by itself: at most one expression is printed at the beginning of a text,
so that no printed expression is the beginning of another one. No blank stands in it, so that it is
found behind the last blank of a printed program, whatever the name of the function is.
-/

namespace MiniC

/-- Characters up to a mark that they do not hold can be told from what follows the mark. -/
theorem eq_and_eq_of_append_cons_eq {c : Char} {u v s t : List Char} (hu : c ∉ u) (hv : c ∉ v)
    (h : u ++ c :: s = v ++ c :: t) : u = v ∧ s = t := by
  have hsplit := congrArg (List.splitOn c) h
  rw [List.splitOn_append_cons_self_of_not_mem hu, List.splitOn_append_cons_self_of_not_mem hv]
    at hsplit
  obtain rfl := (List.cons.inj hsplit).1
  exact ⟨rfl, (List.cons.inj (List.append_cancel_left h)).2⟩

theorem eq_and_eq_of_append_cons_eq_right {c : Char} {u v s t : List Char} (hs : c ∉ s)
    (ht : c ∉ t) (h : u ++ c :: s = v ++ c :: t) : u = v ∧ s = t := by
  have hreverse : s.reverse ++ c :: u.reverse = t.reverse ++ c :: v.reverse := by
    simpa using congrArg List.reverse h
  obtain ⟨hst, huv⟩ := eq_and_eq_of_append_cons_eq (by simpa using hs) (by simpa using ht) hreverse
  exact ⟨List.reverse_inj.mp huv, List.reverse_inj.mp hst⟩

theorem not_mem_toString_int {c : Char} (hminus : c ≠ '-') (hdigit : c.isDigit = false) (n : Int) :
    c ∉ (toString n).toList := by
  intro h
  obtain rfl | h := eq_minus_or_isDigit_of_mem_toString h
  · exact hminus rfl
  · exact absurd h (by simp [hdigit])

theorem UnaryOp.name_injective {op op' : UnaryOp} (h : op.name = op'.name) : op = op' := by
  cases op <;> cases op' <;> simp [name] at h ⊢

theorem BinaryOp.name_injective {op op' : BinaryOp} (h : op.name = op'.name) : op = op' := by
  cases op <;> cases op' <;> simp [name] at h ⊢

theorem UnaryOp.not_mem_name (op : UnaryOp) : ',' ∉ op.name.toList ∧ ' ' ∉ op.name.toList := by
  cases op <;> decide

theorem BinaryOp.not_mem_name (op : BinaryOp) : ',' ∉ op.name.toList ∧ ' ' ∉ op.name.toList := by
  cases op <;> decide

namespace Expr

variable {e f : Expr} {s t : List Char}

theorem print_integer_append (value : Int32) (s : List Char) :
    (integer value).print.toList ++ s =
      "Int<".toList ++ ((toString value.toInt).toList ++ '>' :: s) := by
  simp only [print, String.toList_append, List.append_assoc]
  rfl

theorem print_unary_append (op : UnaryOp) (operand : Expr) (s : List Char) :
    (unary op operand).print.toList ++ s =
      "UnaryOp<".toList ++ (op.name.toList ++ ',' :: (operand.print.toList ++ '>' :: s)) := by
  simp only [print, String.toList_append, List.append_assoc]
  rfl

theorem print_binary_append (op : BinaryOp) (left right : Expr) (s : List Char) :
    (binary op left right).print.toList ++ s = "BinaryOp<".toList ++ (op.name.toList ++
      ',' :: (left.print.toList ++ ',' :: (right.print.toList ++ '>' :: s))) := by
  simp only [print, String.toList_append, List.append_assoc]
  rfl

/-- At most one expression is printed at the beginning of a text. -/
theorem eq_of_print_append_eq (h : e.print.toList ++ s = f.print.toList ++ t) : e = f ∧ s = t := by
  -- What follows is arbitrary, as an operand is followed by the rest of its tree.
  induction e generalizing f s t with
  | integer value =>
    cases f with
    | integer value' =>
      rw [print_integer_append, print_integer_append] at h
      obtain ⟨hdigits, rfl⟩ := eq_and_eq_of_append_cons_eq
        (not_mem_toString_int (by decide) (by decide) _)
        (not_mem_toString_int (by decide) (by decide) _) (List.append_cancel_left h)
      have hvalue := toString_int_injective (String.toList_injective hdigits)
      exact ⟨congrArg integer (Int32.toInt_inj.mp hvalue), rfl⟩
    | unary op' operand' => simp [print] at h
    | binary op' left' right' => simp [print] at h
  | unary op operand ih =>
    cases f with
    | integer value' => simp [print] at h
    | unary op' operand' =>
      rw [print_unary_append, print_unary_append] at h
      obtain ⟨hname, hoperand⟩ := eq_and_eq_of_append_cons_eq op.not_mem_name.1 op'.not_mem_name.1
        (List.append_cancel_left h)
      obtain rfl := UnaryOp.name_injective (String.toList_injective hname)
      obtain ⟨rfl, hrest⟩ := ih hoperand
      exact ⟨rfl, (List.cons.inj hrest).2⟩
    | binary op' left' right' => simp [print] at h
  | binary op left right ihl ihr =>
    cases f with
    | integer value' => simp [print] at h
    | unary op' operand' => simp [print] at h
    | binary op' left' right' =>
      rw [print_binary_append, print_binary_append] at h
      obtain ⟨hname, hleft⟩ := eq_and_eq_of_append_cons_eq op.not_mem_name.1 op'.not_mem_name.1
        (List.append_cancel_left h)
      obtain rfl := BinaryOp.name_injective (String.toList_injective hname)
      obtain ⟨rfl, hright⟩ := ihl hleft
      obtain ⟨rfl, hrest⟩ := ihr (List.cons.inj hright).2
      exact ⟨rfl, (List.cons.inj hrest).2⟩

/-- A printed expression is the beginning of no other one. -/
theorem print_isPrefix_iff : e.print.toList <+: f.print.toList ↔ e = f := by
  constructor
  · rintro ⟨rest, hrest⟩
    rw [← List.append_nil f.print.toList] at hrest
    exact (eq_of_print_append_eq hrest).1
  · rintro rfl
    exact List.prefix_rfl

/-- No blank stands in a printed expression. -/
theorem blank_not_mem_print (e : Expr) : ' ' ∉ e.print.toList := by
  induction e with
  | integer value =>
    simp only [print, String.toList_append, List.mem_append, not_or]
    exact ⟨⟨by decide, not_mem_toString_int (by decide) (by decide) _⟩, by decide⟩
  | unary op operand ih =>
    simp only [print, String.toList_append, List.mem_append, not_or]
    exact ⟨⟨⟨⟨by decide, op.not_mem_name.2⟩, by decide⟩, ih⟩, by decide⟩
  | binary op left right ihl ihr =>
    simp only [print, String.toList_append, List.mem_append, not_or]
    exact ⟨⟨⟨⟨⟨⟨by decide, op.not_mem_name.2⟩, by decide⟩, ihl⟩, by decide⟩, ihr⟩, by decide⟩

end Expr

namespace FunctionDef

theorem toList_print (name : String) (e : Expr) :
    (print ⟨name, .ret e⟩).toList =
      ("FUNC INT ".toList ++
        (name.toList ++ ":\n    params: ()\n    body:\n        RETURN".toList)) ++
          ' ' :: (e.print.toList ++ ['\n']) := by
  have hreturn : "RETURN ".toList = "RETURN".toList ++ [' '] := rfl
  have hbody : ":\n    params: ()\n    body:\n        RETURN".toList =
    ":\n    params: ()\n    body:\n        ".toList ++ "RETURN".toList := rfl
  simp only [print, Statement.print, String.toList_append, hreturn, hbody, List.append_assoc]
  rfl

/-- The last blank of a printed function stands between its name and its expression, even if the
name reads like a printed function. -/
theorem print_injective {f g : FunctionDef} (h : f.print = g.print) : f = g := by
  obtain ⟨name, ⟨e⟩⟩ := f
  obtain ⟨name', ⟨e'⟩⟩ := g
  have hblank (e : Expr) : ' ' ∉ e.print.toList ++ ['\n'] := by
    simpa using e.blank_not_mem_print
  have hlist := congrArg String.toList h
  rw [toList_print, toList_print] at hlist
  obtain ⟨hheading, hexpr⟩ := eq_and_eq_of_append_cons_eq_right (hblank e) (hblank e') hlist
  obtain ⟨rfl, -⟩ := Expr.eq_of_print_append_eq hexpr
  have hname := List.append_cancel_right (List.append_cancel_left hheading)
  obtain rfl := String.toList_injective hname
  rfl

end FunctionDef

/-- The printed form of a program determines the program, whatever the name of its function is, and
a printed expression is the beginning of no other one. -/
theorem print_determines_tree :
    (∀ p q : Program, p.print = q.print ↔ p = q) ∧
      ∀ e f : Expr, e.print.toList <+: f.print.toList ↔ e = f := by
  refine ⟨fun p q => ⟨fun h => ?_, fun h => h ▸ rfl⟩, fun e f => Expr.print_isPrefix_iff⟩
  obtain ⟨f⟩ := p
  obtain ⟨g⟩ := q
  exact congrArg Program.mk (FunctionDef.print_injective h)

end MiniC
