import MiniC.Proofs.Token.Layout

/-!
# What the uses of a lexer show

A lexer is used by calls and as an iteration. Whatever is done with it, each use shows a token of
the text that depends only on how many were asked for before, and a record is made for each token
that was handed out.
-/

namespace MiniC

namespace Lexer

/-- A step of an iteration takes the next token. -/
theorem iterate_eq_next : iterate = Reader.next := by
  refine StateT.ext fun reader => ?_
  rw [iterate, StateT.run_bind]
  cases hnext : TokenSource.next reader.source with
  | error fault =>
    have hrun : StateT.run Reader.next reader = .error fault := by simp [Reader.next, hnext]
    rw [hrun]
    rfl
  | ok l =>
    have hrun : StateT.run Reader.next reader =
        .ok (l.current, ⟨l, reader.log ++ (TokenSource.notice? l).toArray⟩) := by
      simp [Reader.next, hnext]
      rfl
    rw [hrun]
    cases hcurrent : l.current with
    | none => rfl
    | some t => exact congrArg (fun found => Except.ok (found, _)) hcurrent

/-- The call that a use makes. -/
def Use.toCall : Use → Reader.Call
  | .call c => c
  | .iterate => .next

theorem use_eq_call (u : Use) : use u = Reader.call u.toCall := by
  cases u with
  | call c => rfl
  | iterate =>
    rw [use, iterate_eq_next]
    rfl

private theorem uses_eq_calls (us : List Use) : uses us = Reader.calls (us.map Use.toCall) := by
  rw [uses, Reader.calls, List.mapM_map]
  exact congrArg us.mapM (funext use_eq_call)

/-- The number of tokens that uses ask for. -/
def asked (us : List Use) : Nat := (us.map Use.toCall).count .next

/-- The uses of a lexer over a text that is short enough show the tokens of the text in turn,
whether they look at them or ask for them, and then that there are no more. A record is made for
each token that was handed out, and no others. -/
theorem uses_show_tokens {text : String} (h : text.length < 4294967295) :
    ∃ ts stop, tokenize text = .ok (ts, stop) ∧ stop = .behind text.toList ∧
      ∀ us : List Use, ∃ reader, StateT.run (uses us) { source := ofText text } =
          .ok (us.mapIdx fun i u => u.toCall.shows ts .start stop (asked (us.take i)), reader) ∧
        reader.log = ((ts.take (asked us)).map notice).toArray := by
  obtain ⟨ts, stop, htokens, hholds⟩ := exists_holds_ofText h
  refine ⟨ts, stop, htokens, stop_eq_of_tokenize_eq htokens, fun us => ?_⟩
  obtain ⟨reader, hrun, hfollows⟩ :=
    (follows_ofText hholds).exists_run_calls steady (us.map Use.toCall)
  refine ⟨reader, ?_, ?_⟩
  · rw [uses_eq_calls, hrun]
    congr 2
    refine List.ext_getElem? fun i => ?_
    simp [asked, Function.comp_def]
  · rw [hfollows.log, Nat.zero_add]
    exact congrArg List.toArray (congrFun List.filterMap_eq_map _)

/-- Looks ahead before and behind the only token of a text, and past its end. -/
theorem uses_show_tokens_of_looks_ahead :
    let t : Located Token := ⟨.identifier "x", ⟨2, 1⟩⟩
    "\nx ".length < 4294967295 ∧ ∃ reader,
      StateT.run (uses [.call .peek, .iterate, .call .peek, .call .peek, .call .next,
          .call .peek, .iterate, .call .current]) { source := ofText "\nx " } =
        .ok ([⟨some t, none, ⟨1, 1⟩⟩, ⟨some t, some t, ⟨2, 1⟩⟩, ⟨none, some t, ⟨2, 1⟩⟩,
          ⟨none, some t, ⟨2, 1⟩⟩, ⟨none, none, ⟨2, 3⟩⟩, ⟨none, none, ⟨2, 3⟩⟩,
          ⟨none, none, ⟨2, 3⟩⟩, ⟨none, none, ⟨2, 3⟩⟩], reader) ∧
      reader.log = #[⟨.trace, .lexer, "identifier `x` at 2:1"⟩] := by
  intro t
  have hlength : "\nx ".length < 4294967295 := by decide
  have htokens : tokenize "\nx " = .ok ([t], ⟨2, 3⟩) := by
    refine Cursor.tokens_eq_ok_iff.mpr (Or.inr ⟨_, _, _, rfl, ?_, rfl⟩)
    exact Cursor.tokens_eq_ok_iff.mpr (Or.inl ⟨_, rfl, rfl, rfl⟩)
  obtain ⟨ts, stop, htokens', -, huses⟩ := uses_show_tokens hlength
  cases htokens.symm.trans htokens'
  obtain ⟨reader, hrun, hlog⟩ := huses [.call .peek, .iterate, .call .peek, .call .peek,
    .call .next, .call .peek, .iterate, .call .current]
  exact ⟨hlength, reader, hrun, hlog.trans (by decide)⟩

end Lexer

end MiniC
