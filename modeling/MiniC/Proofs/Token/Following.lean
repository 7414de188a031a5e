import MiniC.Proofs.Token.Scanning
import Mathlib.Data.List.Basic

/-!
# Following the tokens of a source

Whatever is done with a source, its tokens are shown in their order: what a call shows depends only
on how many tokens were asked for before it. A look ahead shows the token that is handed out next,
and nothing else tells that it was made. This holds of lexers and of token buffers, which differ in
where they stand without a current token and in the records they make.
-/

namespace MiniC

/-- The token that is current when `count` of the tokens `ts` were asked for. -/
def handed (ts : List (Located Token)) : Nat → Option (Located Token)
  | 0 => none
  | count + 1 => ts[count]?

/-- Where a source stands when `count` of the tokens `ts` were asked for: at its first place, then
at the current token, and at its end once there is none. -/
def standing (ts : List (Located Token)) (first stop : Position) : Nat → Position
  | 0 => first
  | count + 1 => (ts[count]?.map Located.position).getD stop

namespace Reader.Call

/-- The number of tokens asked for when a call is made after `count` of them were. -/
def after (count : Nat) : Call → Nat
  | .next => count + 1
  | .peek => count
  | .current => count

/-- What a call gives after `count` of the tokens `ts` were asked for. -/
def answer (ts : List (Located Token)) (count : Nat) : Call → Option (Located Token)
  | .next => ts[count]?
  | .peek => ts[count]?
  | .current => handed ts count

/-- What a call shows after `count` of the tokens `ts` were asked for. -/
def shows (ts : List (Located Token)) (first stop : Position) (count : Nat) (c : Call) :
    Observation :=
  ⟨c.answer ts count, handed ts (c.after count), standing ts first stop (c.after count)⟩

private theorem after_eq_add_count (count : Nat) (c : Call) :
    c.after count = count + [c].count .next := by
  cases c <;> rfl

end Reader.Call

/-- A look ahead leaves the sources where they are, and a token makes the same record whenever it
is handed out. -/
structure TokenSource.Steady (σ : Type) [TokenSource σ]
    (record? : Located Token → Option Log.Record) : Prop where
  current_peek {s s' : σ} {ahead : Option (Located Token)} :
    TokenSource.peek s = .ok (ahead, s') → TokenSource.current s' = TokenSource.current s
  position_peek {s s' : σ} {ahead : Option (Located Token)} :
    TokenSource.peek s = .ok (ahead, s') → TokenSource.position s' = TokenSource.position s
  notice?_eq (s : σ) : TokenSource.notice? s = (TokenSource.current s).bind record?

theorem Reader.run_bind_eq {σ α β : Type} {x : ReadM σ α} {f : α → ReadM σ β}
    {reader reader' : Reader σ} {a : α} (h : StateT.run x reader = .ok (a, reader')) :
    StateT.run (x >>= f) reader = StateT.run (f a) reader' := by
  rw [StateT.run_bind, h]
  rfl

/-- A source hands out tokens one after the other, and then none, which leads to a place. -/
def Reader.HandsOut {σ : Type} [TokenSource σ] (s : σ) (ts : List (Located Token))
    (stop : Position) : Prop :=
  ∃ reader, StateT.run (calls (List.replicate (ts.length + 1) .next)) { source := s } =
    .ok (ts.map (fun t => ⟨some t, some t, t.position⟩) ++ [⟨none, none, stop⟩], reader)

namespace Supply

variable {σ : Type} [TokenSource σ] {S : Supply σ} {record? : Located Token → Option Log.Record}
  {ts : List (Located Token)} {first stop : Position} {count : Nat} {reader : Reader σ}

/-- A reader shows the tokens `ts` in their order, and `count` of them were asked for. -/
structure Follows (S : Supply σ) (record? : Located Token → Option Log.Record)
    (ts : List (Located Token)) (first stop : Position) (count : Nat) (reader : Reader σ) :
    Prop where
  holds : S.Holds reader.source (ts.drop count) stop
  current : TokenSource.current reader.source = handed ts count
  position : TokenSource.position reader.source = standing ts first stop count
  log : reader.log = ((ts.take count).filterMap record?).toArray

theorem Follows.exists_run_next (hσ : TokenSource.Steady σ record?)
    (h : S.Follows record? ts first stop count reader) :
    ∃ reader', StateT.run Reader.next reader = .ok (ts[count]?, reader') ∧
      S.Follows record? ts first stop (count + 1) reader' := by
  obtain ⟨s, hnext, hs, hcurrent, hposition⟩ := S.next h.holds
  rw [List.tail_drop] at hs
  rw [List.head?_drop] at hcurrent
  rw [frontPlace, List.head?_drop] at hposition
  refine ⟨⟨s, reader.log ++ (TokenSource.notice? s).toArray⟩, ?_, hs, hcurrent, hposition, ?_⟩
  · simp [Reader.next, hnext, hcurrent]
  · rw [h.log, hσ.notice?_eq, hcurrent, List.take_add_one, List.filterMap_append]
    cases ts[count]? with
    | none => simp
    | some t => cases hrecord : record? t <;> simp [hrecord]

/-- A look ahead is not noticed. -/
theorem Follows.exists_run_peek (hσ : TokenSource.Steady σ record?)
    (h : S.Follows record? ts first stop count reader) :
    ∃ reader', StateT.run Reader.peek reader = .ok (ts[count]?, reader') ∧
      S.Follows record? ts first stop count reader' := by
  obtain ⟨s, hpeek, hs⟩ := S.peek h.holds
  refine ⟨{ reader with source := s }, ?_, hs, ?_, ?_, h.log⟩
  · rw [← List.head?_drop]
    simp [Reader.peek, hpeek]
  · exact (hσ.current_peek hpeek).trans h.current
  · exact (hσ.position_peek hpeek).trans h.position

/-- An answer is shown together with where the reader is after it. -/
theorem Follows.run_observe {reader' : Reader σ}
    (h : S.Follows record? ts first stop count reader') {use : ReadM σ (Option (Located Token))}
    {answer : Option (Located Token)} (hrun : StateT.run use reader = .ok (answer, reader')) :
    StateT.run (do
      let answer ← use
      return Reader.Observation.mk answer (← Reader.current) (← Reader.position)) reader =
      .ok (⟨answer, handed ts count, standing ts first stop count⟩, reader') := by
  rw [Reader.run_bind_eq hrun, ← h.current, ← h.position]
  rfl

/-- One call shows what it has to, and goes on by a token if it asks for one. -/
theorem Follows.exists_run_call (hσ : TokenSource.Steady σ record?)
    (h : S.Follows record? ts first stop count reader) (c : Reader.Call) :
    ∃ reader', StateT.run (Reader.call c) reader =
        .ok (c.shows ts first stop count, reader') ∧
      S.Follows record? ts first stop (c.after count) reader' := by
  cases c with
  | next =>
    obtain ⟨reader', hrun, h'⟩ := h.exists_run_next hσ
    exact ⟨reader', h'.run_observe hrun, h'⟩
  | peek =>
    obtain ⟨reader', hrun, h'⟩ := h.exists_run_peek hσ
    exact ⟨reader', h'.run_observe hrun, h'⟩
  | current =>
    have hrun : StateT.run Reader.current reader = .ok (handed ts count, reader) := by
      rw [← h.current]
      rfl
    exact ⟨reader, h.run_observe hrun, h⟩

/-- Calls show what they have to, one after the other. -/
theorem Follows.exists_run_calls (hσ : TokenSource.Steady σ record?)
    (h : S.Follows record? ts first stop count reader) (cs : List Reader.Call) :
    ∃ reader', StateT.run (Reader.calls cs) reader =
        .ok (cs.mapIdx fun i c =>
          c.shows ts first stop (count + (cs.take i).count .next), reader') ∧
      S.Follows record? ts first stop (count + cs.count .next) reader' := by
  induction cs generalizing reader count with
  | nil => exact ⟨reader, rfl, h⟩
  | cons c cs ih =>
    obtain ⟨between, hrun, hbetween⟩ := h.exists_run_call hσ c
    obtain ⟨reader', hruns, h'⟩ := ih hbetween
    have hcount : ∀ ds : List Reader.Call,
        c.after count + ds.count .next = count + (c :: ds).count .next := by
      intro ds
      rw [c.after_eq_add_count, Nat.add_assoc, ← List.count_append, List.singleton_append]
    refine ⟨reader', ?_, hcount cs ▸ h'⟩
    rw [Reader.calls] at hruns ⊢
    rw [List.mapM_cons, Reader.run_bind_eq hrun, Reader.run_bind_eq hruns, List.mapIdx_cons]
    simp only [hcount]
    rfl

/-- A source that has shown none of its tokens hands them out. -/
theorem Follows.handsOut {s : σ} (hσ : TokenSource.Steady σ record?)
    (h : S.Follows record? ts first stop 0 { source := s }) : Reader.HandsOut s ts stop := by
  obtain ⟨reader, hrun, -⟩ := h.exists_run_calls hσ (List.replicate (ts.length + 1) .next)
  refine ⟨reader, hrun.trans (congrArg (fun seen => Except.ok (seen, reader)) ?_)⟩
  refine List.ext_getElem? fun i => ?_
  rw [List.getElem?_mapIdx, List.getElem?_replicate, List.take_replicate, List.count_replicate_self]
  rcases Nat.lt_trichotomy i ts.length with hi | rfl | hi
  · rw [if_pos (by omega), Nat.min_eq_left (by omega), List.getElem?_append_left (by simpa)]
    simp [Reader.Call.shows, Reader.Call.answer, Reader.Call.after, handed, standing, hi]
  · simp [Reader.Call.shows, Reader.Call.answer, Reader.Call.after, handed, standing]
  · rw [if_neg (by omega), List.getElem?_eq_none (by simpa)]
    rfl

end Supply

namespace Lexer

/-- A lexer stays at the token handed out last while it scans ahead. -/
theorem eq_of_peek_eq {l l' : Lexer} {ahead : Option (Located Token)}
    (h : l.peek = .ok (ahead, l')) : l'.current = l.current ∧ l'.position = l.position := by
  unfold peek at h
  split at h
  · cases h
    exact ⟨rfl, rfl⟩
  · cases hscan : l.cursor.scan with
    | error fault => simp [hscan, bind, Except.bind] at h
    | ok found =>
      simp only [hscan, bind, Except.bind] at h
      cases h
      exact ⟨rfl, rfl⟩

theorem steady : TokenSource.Steady Lexer fun t => some (notice t) where
  current_peek h := (eq_of_peek_eq h).1
  position_peek h := (eq_of_peek_eq h).2
  notice?_eq _ := Option.map_eq_bind

/-- A lexer over a text that has the given tokens has shown none of them. -/
theorem follows_ofText {text : String} {ts : List (Located Token)} {stop : Position}
    (h : supply.Holds (ofText text) ts stop) :
    supply.Follows (fun t => some (notice t)) ts .start stop 0 { source := ofText text } :=
  ⟨h, rfl, rfl, rfl⟩

/-- A lexer hands out the tokens of its text. -/
theorem handsOut_ofText {text : String} {ts : List (Located Token)} {stop : Position}
    (h : supply.Holds (ofText text) ts stop) : Reader.HandsOut (ofText text) ts stop :=
  (follows_ofText h).handsOut steady

end Lexer

end MiniC
