import MiniC.Token.Scan

/-!
# Words

A word is a text that a scan takes up as one token: it is not empty and holds neither blanks nor
operator characters. A word is an identifier unless it is a keyword or an integer literal.
-/

namespace MiniC

/-- A character between two others is one of those that are listed there. -/
theorem between_iff_mem {low high : Char} {listed : List Char}
    (h : listed.map Char.toNat = List.range' low.toNat (high.toNat + 1 - low.toNat)) {c : Char} :
    low ≤ c ∧ c ≤ high ↔ c ∈ listed := by
  have hmem : c.toNat ∈ listed.map Char.toNat ↔ c ∈ listed := by
    constructor
    · intro hc
      obtain ⟨d, hd, hcd⟩ := List.mem_map.mp hc
      exact Char.toNat_inj.mp hcd ▸ hd
    · exact List.mem_map_of_mem
  have hbounds : low ≤ c ∧ c ≤ high ↔ low.toNat ≤ c.toNat ∧ c.toNat ≤ high.toNat := Iff.rfl
  rw [← hmem, h, List.mem_range'_1, hbounds]
  omega

/-- Whether a text is a word. -/
def IsWord (text : String) : Prop := text ≠ "" ∧ ∀ c ∈ text.toList, isWordChar c = true

instance (text : String) : Decidable (IsWord text) :=
  have := List.decidableBAll (fun c => isWordChar c = true) text.toList
  inferInstanceAs (Decidable (_ ∧ _))

/-- Whether a text is a word that is neither a keyword nor an integer literal. -/
def IsIdentifier (text : String) : Prop :=
  IsWord text ∧ Keyword.ofText? text = none ∧ isLiteral text.toList = false

instance (text : String) : Decidable (IsIdentifier text) := inferInstanceAs (Decidable (_ ∧ _))

theorem IsWord.exists_cons {text : String} (h : IsWord text) :
    ∃ c cs, text.toList = c :: cs ∧ isWordChar c = true ∧ ∀ d ∈ cs, isWordChar d = true := by
  obtain ⟨hne, hword⟩ := h
  obtain ⟨c, cs, hlist⟩ : ∃ c cs, text.toList = c :: cs :=
    List.exists_cons_of_ne_nil (by simpa using hne)
  rw [hlist, List.forall_mem_cons] at hword
  exact ⟨c, cs, hlist, hword⟩

/-- A keyword is a word that is read as itself. -/
theorem Keyword.isWord_text (k : Keyword) : IsWord k.text ∧ ofText? k.text = some k := by
  cases k <;> decide

/-- No character of a word is blank. -/
theorem isBlank_eq_false_of_isWordChar {c : Char} (h : isWordChar c = true) :
    isBlank c = false := by
  rw [isWordChar, Bool.and_eq_true, Bool.not_eq_true'] at h
  exact h.1

/-- No character of a word is an operator character. -/
theorem ofChar?_eq_none_of_isWordChar {c : Char} (h : isWordChar c = true) :
    Punctuator.ofChar? c = none := by
  rw [isWordChar, Bool.and_eq_true] at h
  simpa using h.2

/-- No operator character is blank. -/
theorem isBlank_eq_false_of_ofChar? {c : Char} {p : Punctuator}
    (h : Punctuator.ofChar? c = some p) : isBlank c = false := by
  unfold Punctuator.ofChar? at h
  split at h <;> first | decide | cases h

/-- A digit can stand in a word. -/
theorem isWordChar_of_isDigit {c : Char} (h : c.isDigit = true) : isWordChar c = true := by
  have hbounds : 48 ≤ c.toNat ∧ c.toNat ≤ 57 := by
    simpa [Char.isDigit, UInt32.le_iff_toNat_le] using h
  have hblank : isBlank c = false := by
    simp [isBlank, blankRanges]
    omega
  have hoperator : Punctuator.ofChar? c = none := by
    unfold Punctuator.ofChar?
    split <;> first | rfl | exact absurd h (by decide)
  simp [isWordChar, hblank, hoperator]

end MiniC
