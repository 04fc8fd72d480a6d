import CanonicalSql.Proofs.Progress.Loop

/-! Two runs of a step, one over tokens up to a mark of the end and one over the same tokens with others behind
them.  A step that is followed by more of its construct sees the difference only where nothing is left to close
the construct with, and then the run over the shorter vector fails: such a step is `Inner`.  A step that may
be the last one of a construct has to stop in front of the other tokens, whatever they are: it stands at the
`Edge`.  It is `Solid` if it takes a token that it is refused without. -/

namespace CanonicalSql

open Keyword Word CanonicalSql.Symbol

/-- Whether a token of this kind can be left over where a construct is cut off: an operator or a column path
that starts with it is told from the tokens behind it. -/
def Token.Kind.Loose (k : Token.Kind) : Prop := k = .eof ∨ k = .keyword NOT ∨ k = .symbol dot

/-- Whether the terminal is told from loose tokens. -/
abbrev Terminal.Firm (t : Terminal) : Prop := t ≠ NOT ∧ t ≠ dot

theorem Terminal.Firm.silent {t : Terminal} (h : t.Firm) {k : Token.Kind} (loose : k.Loose) :
    t.admits k = false := by
  rcases loose with rfl | rfl | rfl
  · exact t.admits_eof
  · cases t with
    | keyword k => exact decide_eq_false fun same => h.1 (same ▸ rfl)
    | word | symbol => rfl
  · cases t with
    | symbol s => exact decide_eq_false fun same => h.2 (same ▸ rfl)
    | word | keyword => rfl

namespace Cursor

/-- Whether what is in front of the cursor can continue an expression: an operator, or what an operand goes on
with behind its name. -/
def ContinuesExpr (c : Cursor) : Prop :=
  (Continuation.ofKinds? c.current.kind (c.peekAt 1).kind).isSome = true ∨
    ∃ t ∈ [Terminal.symbol leftParen, .symbol dot, .word OVER], t.admits c.current.kind = true

instance (c : Cursor) : Decidable c.ContinuesExpr := inferInstanceAs (Decidable (_ ∨ _))

/-- Whether there are only loose tokens from the cursor on. -/
def Lost (c : Cursor) : Prop := ∀ t ∈ c.upcoming, t.kind.Loose

/-- Whether there are only loose tokens from the cursor on, and one at least in front of the end. -/
def Stuck (c : Cursor) : Prop := c.Lost ∧ c.current.kind ≠ .eof

/-- Whether `c` stands in front of some tokens and a mark of the end, and `d` in front of the same tokens and
of those that are in front of `tail`. -/
def Before (c tail d : Cursor) : Prop :=
  ∃ ts mark, c.upcoming = ts ++ [mark] ∧ d.upcoming = ts ++ tail.upcoming ∧ mark.kind = .eof ∧
    ∀ t ∈ ts, t.kind ≠ .eof

/-- Whether nothing in front of the cursor continues an expression. -/
structure Stops (tail : Cursor) : Prop where
  closed : tail.Closed
  silent : ¬ tail.ContinuesExpr

variable {tail c d : Cursor} {t : Terminal}

/-- What is behind a construct is none of the terminals that an operand goes on with. -/
theorem Stops.quiet (h : tail.Stops) (ht : t ∈ [Terminal.symbol leftParen, .symbol dot, .word OVER]) :
    t.admits tail.current.kind = false :=
  Bool.eq_false_iff.2 fun admitted => h.silent (.inr ⟨t, ht, admitted⟩)

/-- An operator is not behind a construct either. -/
theorem Stops.quiet_star (h : tail.Stops) : Terminal.admits star tail.current.kind = false := by
  refine Bool.eq_false_iff.2 fun admitted => h.silent (.inl ?_)
  rw [Terminal.admits_symbol.1 admitted]
  rfl

theorem Lost.current (h : c.Lost) : c.current.kind.Loose := h c.current (List.mem_cons_self ..)

theorem Lost.admits (h : c.Lost) (firm : t.Firm) : t.admits c.current.kind = false := firm.silent h.current

theorem Lost.peekAt (h : c.Lost) (n : ℕ) : (c.peekAt n).kind.Loose := by
  unfold Cursor.peekAt
  cases found : c.upcoming[n]? with
  | none => exact h c.last (List.getLast_mem _)
  | some t => exact h t (List.mem_of_getElem? found)

/-- What is ahead of a lost cursor is loose as well. -/
theorem Lost.of_drop {n : ℕ} (h : c.Lost) (hd : d.upcoming = c.upcoming.drop n) : d.Lost :=
  fun t ht => h t (List.mem_of_mem_drop (hd ▸ ht))

/-- So is what is behind the token that a step has passed over, if the rest is. -/
theorem Lost.behind {p q : Parser} (h : p.cursor.advance.Lost) (inside : p.cursor.current.kind ≠ .eof)
    (onward : p.Onward q) (less : q.cursor.remaining < p.cursor.remaining) : q.cursor.Lost := by
  obtain ⟨⟨passed, current, ahead⟩, depth, limit⟩ := p
  obtain ⟨next, ahead, rfl⟩ := List.exists_cons_of_length_pos (Nat.zero_lt_of_lt less)
  have moved : q.cursor.passed - passed = q.cursor.passed - passed - 1 + 1 := by
    have size : q.cursor.passed + (q.cursor.ahead.length + 1) = passed + (ahead.length + 1 + 1) := onward.size
    have less : q.cursor.ahead.length < ahead.length + 1 := less
    omega
  have upcoming := onward.upcoming
  dsimp only at upcoming inside
  rw [moved] at upcoming
  simp only [Cursor.advance, if_neg inside] at h
  exact h.of_drop upcoming

theorem Lost.onward {p q : Parser} (h : p.cursor.Lost) (onward : p.Onward q) : q.cursor.Lost :=
  h.of_drop onward.upcoming

/-- Loose tokens announce no operator. -/
theorem Lost.ofKinds? (h : c.Lost) (n : ℕ) :
    Continuation.ofKinds? c.current.kind (c.peekAt n).kind = none := by
  rcases h.current with hk | hk | hk <;> rw [hk]
  · rfl
  · rcases h.peekAt n with hn | hn | hn <;> rw [hn] <;> rfl
  · rfl

theorem peekAt_of_upcoming (h : c.upcoming = d.upcoming) (n : ℕ) : c.peekAt n = d.peekAt n := by
  simp only [peekAt, last, h]

theorem current_of_upcoming (h : c.upcoming = d.upcoming) : c.current = d.current :=
  (List.cons.inj h).1

namespace Before

/-- The tokens in front of the mark are those that remain. -/
theorem exists_tokens (h : c.Before tail d) : ∃ ts mark, c.upcoming = ts ++ [mark] ∧
    d.upcoming = ts ++ tail.upcoming ∧ mark.kind = .eof ∧ (∀ t ∈ ts, t.kind ≠ .eof) ∧
    ts.length = c.remaining := by
  obtain ⟨ts, mark, hc, hd, ended, inside⟩ := h
  have length := congrArg List.length hc
  simp only [upcoming, List.length_cons, List.length_append, List.length_nil] at length
  exact ⟨ts, mark, hc, hd, ended, inside, by unfold Cursor.remaining; omega⟩

variable (h : c.Before tail d)
include h

/-- The mark is all that is left in front of `c`, and what is in front of `tail` is left in front of `d`; or both
cursors stand on the same token, and behind it the same holds. -/
theorem cases : (c.current.kind = .eof ∧ c.ahead = [] ∧ d.upcoming = tail.upcoming) ∨
    (c.current.kind ≠ .eof ∧ d.current = c.current ∧ c.advance.current = c.peekAt 1 ∧
      c.advance.Before tail d.advance) := by
  obtain ⟨passed, current, ahead⟩ := c
  obtain ⟨passed', current', ahead'⟩ := d
  obtain ⟨_ | ⟨t, ts⟩, mark, hc, hd, ended, inside⟩ := h
  · obtain ⟨rfl, rfl⟩ := List.cons.inj hc
    exact .inl ⟨ended, rfl, hd⟩
  · obtain ⟨rfl, rfl⟩ := List.cons.inj hc
    obtain ⟨rfl, rfl⟩ := List.cons.inj hd
    have here : current'.kind ≠ .eof := inside current' (List.mem_cons_self ..)
    refine .inr ⟨here, rfl, ?_, ts, mark, ?_, ?_, ended, fun u hu => inside u (List.mem_cons_of_mem _ hu)⟩
    all_goals
      simp only [Cursor.advance, if_neg here]
      cases ts <;> rfl

/-- At the mark of the end the other cursor stands in front of what is behind the tokens. -/
theorem ended (hk : c.current.kind = .eof) : d.upcoming = tail.upcoming :=
  h.cases.elim (fun mark => mark.2.2) fun more => absurd hk more.1

/-- In front of the mark both cursors stand on the same token, and behind it the same holds. -/
theorem advance (hk : c.current.kind ≠ .eof) :
    d.current = c.current ∧ c.advance.Before tail d.advance :=
  h.cases.elim (fun mark => absurd mark.1 hk) fun more => ⟨more.2.1, more.2.2.2⟩

theorem current_advance (hk : c.current.kind ≠ .eof) : c.advance.current = c.peekAt 1 :=
  h.cases.elim (fun mark => absurd mark.1 hk) fun more => more.2.2.1

theorem current (found : ¬ c.Lost) : c.current.kind ≠ .eof ∧ d.current = c.current := by
  rcases h.cases with ⟨ended, none, -⟩ | ⟨inside, same, -⟩
  · refine absurd (fun t ht => ?_) found
    rw [upcoming, none, List.mem_singleton] at ht
    exact .inl (ht ▸ ended)
  · exact ⟨inside, same⟩

theorem closed : c.Closed := by
  obtain ⟨ts, mark, hc, -, ended, -⟩ := h
  have last : c.last = mark := by simp [last, hc]
  rw [Closed, last, ended]

theorem closed' (stops : tail.Stops) : d.Closed := by
  obtain ⟨ts, mark, -, hd, -, -⟩ := h
  have same : d.last = tail.last := by
    unfold last
    simp only [hd]
    exact List.getLast_append_of_ne_nil _ (List.cons_ne_nil _ _)
  rw [Closed, same]
  exact stops.closed

/-- If one token is left at most, it is loose or there is more than loose tokens. -/
theorem lost_of_loose (few : c.remaining ≤ 1) (loose : c.current.kind.Loose) : c.Lost := by
  obtain ⟨ts, mark, hc, -, ended, -, count⟩ := h.exists_tokens
  rw [← count] at few
  intro t ht
  rw [hc] at ht
  match ts, few with
  | [], _ => exact .inl (List.mem_singleton.1 ht ▸ ended)
  | [u], _ =>
    have first : c.current = u := (List.cons.inj hc).1
    rcases List.mem_cons.1 ht with rfl | ht
    · exact first ▸ loose
    · exact .inl (List.mem_singleton.1 ht ▸ ended)

theorem remaining_pos (found : ¬ c.Lost) : 0 < c.remaining :=
  Nat.pos_of_ne_zero fun none => (h.current found).1 (h.closed.ended none)

/-- The tokens in front of the mark are the same on both sides. -/
theorem peekAt {n : ℕ} (hn : n < c.remaining) : d.peekAt n = c.peekAt n := by
  obtain ⟨ts, mark, hc, hd, -, -, count⟩ := h.exists_tokens
  rw [← count] at hn
  rw [Cursor.peekAt, Cursor.peekAt, hc, hd, List.getElem?_append_left hn,
    List.getElem?_append_left hn, List.getElem?_eq_getElem hn]
  rfl

/-- In the place of the mark the other vector goes on. -/
theorem peekAt_remaining :
    (c.peekAt c.remaining).kind = .eof ∧ d.peekAt c.remaining = tail.current := by
  obtain ⟨ts, mark, hc, hd, ended, -, count⟩ := h.exists_tokens
  rw [← count]
  constructor
  · simp [Cursor.peekAt, hc, ended]
  · have here : d.upcoming[ts.length]? = some tail.current := by
      rw [hd, List.getElem?_append_right le_rfl, Nat.sub_self]
      rfl
    rw [Cursor.peekAt, here]
    rfl

end Before

end Cursor

namespace Parse

variable {tail : Cursor} {α β : Type} {x y : Parse α} {f : α → Parse β} {t : Terminal}

/-! ### Runs over both vectors -/

/-- Whether a run over the longer vector gives what one over the shorter gives, at a cursor as far on, unless
the latter ends at a cursor that is given up. -/
def NearAt (tail : Cursor) (givenUp : Cursor → Prop) (x : Parse α) (p : Parser) (d : Cursor) : Prop :=
  ∀ a q, x p = .ok a q → givenUp q.cursor ∨
    ∃ d', x { p with cursor := d } = .ok a { q with cursor := d' } ∧ q.cursor.Before tail d'

/-- Whether this holds wherever the runs start. -/
def Near (tail : Cursor) (givenUp : Cursor → Prop) (x : Parse α) : Prop :=
  ∀ p d, p.cursor.Before tail d → NearAt tail givenUp x p d

section

variable {givenUp givenUp' : Cursor → Prop} {p : Parser} {d : Cursor}

/-- Runs that go on as others do. -/
theorem NearAt.of_eq {y : Parse α} {p' : Parser} {d' : Cursor} (h : NearAt tail givenUp y p' d')
    (first : x p = y p') (second : x { p with cursor := d } = y { p' with cursor := d' }) :
    NearAt tail givenUp x p d := by
  unfold NearAt at h ⊢
  rwa [first, second]

theorem NearAt.descend (h : NearAt tail givenUp x { p with depth := p.depth + 1 } d) :
    NearAt tail givenUp (Parse.descend x) p d := by
  intro a r run
  unfold Parse.descend at run ⊢
  split at run
  · next room =>
    split at run
    · next b q inside =>
      cases run
      rcases h _ q inside with given | ⟨d', run', behind⟩
      · exact .inl given
      · exact .inr ⟨d', by rw [if_pos room, run'], behind⟩
    · cases run
  · cases run

/-- Over a token that is no mark of the end both runs move. -/
theorem NearAt.advance {f : Token → Parse β} (before : p.cursor.Before tail d)
    (inside : p.cursor.current.kind ≠ .eof)
    (hf : NearAt tail givenUp (f p.cursor.current) { p with cursor := p.cursor.advance } d.advance) :
    NearAt tail givenUp (Parse.advance >>= f) p d :=
  hf.of_eq rfl (congrArg (f · { p with cursor := d.advance }) (before.advance inside).1)

theorem NearAt.pure (before : p.cursor.Before tail d) (a : α) : NearAt tail givenUp (Pure.pure a) p d := by
  intro b q run
  cases run
  exact .inr ⟨d, rfl, before⟩

namespace Near

theorem mono (h : Near tail givenUp x) (less : ∀ c, givenUp c → givenUp' c) : Near tail givenUp' x :=
  fun p d before a q run => (h p d before a q run).imp_left (less _)

theorem pure (a : α) : Near tail givenUp (Pure.pure a) := fun _ _ before => .pure before a

/-- One step after another, if the second one gives up where the first one has. -/
theorem bind (hx : Near tail givenUp x) (hf : ∀ a, Near tail givenUp' (f a))
    (carry : ∀ a p b q, givenUp p.cursor → f a p = .ok b q → givenUp' q.cursor) :
    Near tail givenUp' (x >>= f) := by
  intro p d before b r run
  obtain ⟨a, q, first, second⟩ := exists_of_bind run
  rcases hx p d before a q first with lost | ⟨d', first', before'⟩
  · exact .inl (carry a q b r lost second)
  · refine (hf a q d' before' b r second).imp_right fun ⟨e, second', behind⟩ => ?_
    exact ⟨e, (bind_of_ok first').trans second', behind⟩

theorem descend (h : Near tail givenUp x) : Near tail givenUp (Parse.descend x) :=
  fun p d before => .descend (h { p with depth := p.depth + 1 } d before)

/-- A loop that its bound does not end runs over both vectors with one bound. -/
theorem loop {σ : Type} {loop : ℕ → σ → Parse α} (same : Unbounded Agree loop) (stops : tail.Stops)
    (s : σ) (h : ∀ count, Near tail givenUp (loop count s)) :
    Near tail givenUp (Parse.remaining >>= fun count => loop count s) := by
  intro p d before
  have first : loop p.cursor.remaining s p = loop (max p.cursor.remaining d.remaining) s p :=
    same le_rfl (Nat.succ_le_succ (Nat.le_max_left ..)) s p before.closed (Nat.lt_succ_self _)
  have second : loop d.remaining s { p with cursor := d } =
      loop (max p.cursor.remaining d.remaining) s { p with cursor := d } :=
    same le_rfl (Nat.succ_le_succ (Nat.le_max_right ..)) s { p with cursor := d }
      (before.closed' stops) (Nat.lt_succ_self _)
  exact (h _ p d before).of_eq first second

end Near

end

/-- A step inside a construct: what it gives with only loose tokens left does not matter. -/
structure Inner (tail : Cursor) (x : Parse α) : Prop where
  planned : Planned x
  near : Near tail Cursor.Lost x

/-- A step that a construct can end with: it stops in front of what is behind the construct, unless it leaves
loose tokens over. -/
structure Edge (tail : Cursor) (x : Parse α) : Prop where
  planned : Planned x
  /-- Where only loose tokens are in front of it, it leaves them over. -/
  keeps : ∀ p a q, p.cursor.Stuck → x p = .ok a q → q.cursor.Stuck
  near : Near tail Cursor.Stuck x

/-- A step that a construct can end with, and that takes more than loose tokens. -/
structure Solid (tail : Cursor) (x : Parse α) : Prop where
  planned : Planned x
  refused : ∀ p a q, p.cursor.Lost → x p ≠ .ok a q
  near : Near tail Cursor.Stuck x

theorem Solid.edge (h : Solid tail x) : Edge tail x :=
  ⟨h.planned, fun p a q stuck run => absurd run (h.refused p a q stuck.1), h.near⟩

theorem Edge.inner (h : Edge tail x) : Inner tail x := ⟨h.planned, h.near.mono fun _ => And.left⟩

theorem Solid.inner (h : Solid tail x) : Inner tail x := h.edge.inner

/-! ### Steps inside a construct -/

namespace Inner

/-- Only runs that start in front of more than loose tokens matter. -/
theorem of_found (planned : Planned x) (h : ∀ p d, ¬ p.cursor.Lost → p.cursor.Before tail d →
    NearAt tail Cursor.Lost x p d) : Inner tail x := by
  refine ⟨planned, fun p d before a q run => ?_⟩
  by_cases lost : p.cursor.Lost
  · exact .inl (lost.onward (planned.onward run))
  · exact h p d lost before a q run

theorem pure (a : α) : Inner tail (Pure.pure a) := ⟨.pure a, .pure a⟩

theorem fail (expected : Expectation) : Inner tail (Parse.fail expected : Parse α) :=
  ⟨.of_together (.fail expected), fun _ _ _ _ _ run => by cases run⟩

theorem bind (hx : Inner tail x) (hf : ∀ a, Inner tail (f a)) : Inner tail (x >>= f) where
  planned := .bind hx.planned fun a => (hf a).planned
  near := .bind hx.near (fun a => (hf a).near) fun a _ _ _ lost run => lost.onward ((hf a).planned.onward run)

theorem map (g : α → β) (hx : Inner tail x) : Inner tail (g <$> x) := by
  rw [map_eq_pure_bind]
  exact hx.bind fun a => .pure (g a)

theorem ite {b : Bool} (hx : Inner tail x) (hy : Inner tail y) :
    Inner tail (if b = true then x else y) := by
  cases b with
  | true => exact hx
  | false => exact hy

theorem descend (hx : Inner tail x) : Inner tail (Parse.descend x) :=
  ⟨hx.planned.descend, hx.near.descend⟩

/-- What is read of the vector is the same on both sides. -/
theorem look (read : Cursor → α) (same : ∀ c d, ¬ c.Lost → c.Before tail d → read d = read c)
    (hf : ∀ a, Inner tail (f a)) :
    Inner tail ((fun p => .ok (read p.cursor) p : Parse α) >>= f) := by
  refine .of_found (.bind (.look read) fun a => (hf a).planned) fun p d found before => ?_
  exact ((hf _).near p d before).of_eq rfl (congrArg (f · { p with cursor := d }) (same _ _ found before))

theorem current {f : Token → Parse β} (hf : ∀ token, Inner tail (f token)) :
    Inner tail (Parse.current >>= f) :=
  look Cursor.current (fun _ _ found before => (before.current found).2) hf

theorem peek {f : Token.Kind → Parse β} (hf : ∀ k, Inner tail (f k)) : Inner tail (Parse.peek >>= f) :=
  look (fun c => c.current.kind)
    (fun _ _ found before => congrArg Token.kind (before.current found).2) hf

theorem seen (t : Terminal) : Inner tail (Parse.sees t) := peek fun _ => .pure _

theorem sees {f : Bool → Parse β} (hf : ∀ b, Inner tail (f b)) : Inner tail (Parse.sees t >>= f) :=
  look (fun c => t.admits c.current.kind)
    (fun _ _ found before => by rw [(before.current found).2]) hf

theorem advance {f : Token → Parse β} (hf : ∀ token, Inner tail (f token)) :
    Inner tail (Parse.advance >>= f) :=
  .of_found (.bind ⟨.move, rfl⟩ fun a => (hf a).planned) fun p _ found before =>
    have inside := (before.current found).1
    .advance before inside ((hf _).near { p with cursor := p.cursor.advance } _ (before.advance inside).2)

theorem discard_advance {f : Unit → Parse β} (h : Inner tail (f ())) :
    Inner tail (discard Parse.advance >>= f) :=
  advance fun _ => h

theorem skipped (count : ℕ) : Inner tail (Parse.skip count) := by
  induction count with
  | zero => exact .pure ()
  | succ count ih => exact discard_advance ih

theorem accepted (t : Terminal) : Inner tail (Parse.accept t) :=
  sees fun _ => ite (discard_advance (.pure true)) (.pure false)

theorem accept {f : Bool → Parse β} (passed : Inner tail (f true)) (other : Inner tail (f false)) :
    Inner tail (Parse.accept t >>= f) :=
  .bind (.accepted t) fun
    | true => passed
    | false => other

theorem expect {f : Unit → Parse β} (h : Inner tail (f ())) : Inner tail (Parse.expect t >>= f) :=
  .bind (.accept (.pure ()) (.fail _)) fun _ => h

theorem discard_accept {f : Unit → Parse β} (h : Inner tail (f ())) :
    Inner tail (discard (Parse.accept t) >>= f) :=
  .bind (.map _ (.accepted t)) fun _ => h

theorem optional (h : Inner tail x) : Inner tail (Parse.optional t x) := accept (.map some h) (.pure none)

theorem optionalList {x : Parse (List α)} (h : Inner tail x) : Inner tail (Parse.optionalList t x) :=
  accept h (.pure [])

theorem between {opening closing : Symbol} (h : Inner tail x) :
    Inner tail (Parse.between opening closing x) :=
  expect (.bind h fun a => expect (.pure a))

theorem loop {σ : Type} {loop : ℕ → σ → Parse α} (same : Unbounded Agree loop) (stops : tail.Stops)
    (s : σ) (h : ∀ count, Inner tail (loop count s)) :
    Inner tail (Parse.remaining >>= fun count => loop count s) :=
  ⟨.bind (.look Cursor.remaining) fun count => (h count).planned,
    .loop same stops s fun count => (h count).near⟩

theorem commaList (stops : tail.Stops) (h : Inner tail x) : Inner tail (Parse.commaList x) := by
  have items : ∀ count, Inner tail (Parse.commaItems x count) := fun count => by
    induction count with
    | zero => exact .pure []
    | succ count ih => exact accept (.bind h fun a => .bind ih fun as => .pure (a :: as)) (.pure [])
  refine .bind h fun a => ?_
  rw [← bind_assoc]
  exact .bind (.loop (rounds_commaItems h.planned).loop.unbounded stops () items) fun as => .pure (a :: as)

theorem commaListUpTo {closing : Symbol} (stops : tail.Stops) (h : Inner tail x) :
    Inner tail (Parse.commaListUpTo closing x) :=
  sees fun _ => ite (.pure []) (h.commaList stops)

end Inner

/-! ### Steps that a construct can end with -/

namespace Edge

theorem pure (a : α) : Edge tail (Pure.pure a) := by
  refine ⟨.pure a, fun p b q stuck run => ?_, .pure a⟩
  cases run
  exact stuck

theorem bind (hx : Edge tail x) (hf : ∀ a, Edge tail (f a)) : Edge tail (x >>= f) where
  planned := .bind hx.planned fun a => (hf a).planned
  keeps p b r stuck run := by
    obtain ⟨a, q, first, second⟩ := exists_of_bind run
    exact (hf a).keeps q b r (hx.keeps p a q stuck first) second
  near := .bind hx.near (fun a => (hf a).near) fun a => (hf a).keeps

theorem ite {b : Bool} (hx : Edge tail x) (hy : Edge tail y) :
    Edge tail (if b = true then x else y) := by
  cases b with
  | true => exact hx
  | false => exact hy

end Edge

/-! ### Steps that take more than loose tokens -/

namespace Solid

theorem of_found (planned : Planned x) (refused : ∀ p a q, p.cursor.Lost → x p ≠ .ok a q)
    (h : ∀ p d, ¬ p.cursor.Lost → p.cursor.Before tail d → NearAt tail Cursor.Stuck x p d) :
    Solid tail x := by
  refine ⟨planned, refused, fun p d before a q run => ?_⟩
  by_cases lost : p.cursor.Lost
  · exact absurd run (refused p a q lost)
  · exact h p d lost before a q run

theorem of_refused (planned : Planned x) (refused : ∀ p a q, x p ≠ .ok a q) : Solid tail x :=
  ⟨planned, fun p a q _ => refused p a q, fun p _ _ a q run => absurd run (refused p a q)⟩

theorem fail (expected : Expectation) : Solid tail (Parse.fail expected : Parse α) :=
  of_refused (.of_together (.fail expected)) fun _ _ _ run => by cases run

theorem failAt (token : Token) (expected : Expectation) :
    Solid tail (Parse.failAt token expected : Parse α) :=
  of_refused (.of_together (.failAt token expected)) fun _ _ _ run => by cases run

/-- Behind a step that takes more than loose tokens the construct can end. -/
theorem bind (hx : Solid tail x) (hf : ∀ a, Edge tail (f a)) : Solid tail (x >>= f) where
  planned := .bind hx.planned fun a => (hf a).planned
  refused p b r lost run := by
    obtain ⟨a, q, first, -⟩ := exists_of_bind run
    exact hx.refused p a q lost first
  near := .bind hx.near (fun a => (hf a).near) fun a => (hf a).keeps

/-- In front of a step that takes more than loose tokens the construct cannot be left without them. -/
theorem behind (hx : Inner tail x) (hf : ∀ a, Solid tail (f a)) : Solid tail (x >>= f) where
  planned := .bind hx.planned fun a => (hf a).planned
  refused p b r lost run := by
    obtain ⟨a, q, first, second⟩ := exists_of_bind run
    exact (hf a).refused q b r (lost.onward (hx.planned.onward first)) second
  near := .bind hx.near (fun a => (hf a).near) fun a p b q lost run =>
    absurd run ((hf a).refused p b q lost)

theorem ite {b : Bool} (hx : Solid tail x) (hy : Solid tail y) :
    Solid tail (if b = true then x else y) := by
  cases b with
  | true => exact hx
  | false => exact hy

theorem descend (h : Solid tail x) : Solid tail (Parse.descend x) := by
  refine ⟨h.planned.descend, fun p a r lost run => ?_, h.near.descend⟩
  unfold Parse.descend at run
  split at run
  · split at run
    · next inside => exact h.refused { p with depth := p.depth + 1 } _ _ lost inside
    · cases run
  · cases run

theorem accept {f : Bool → Parse β} (passed : Solid tail (f true)) (other : Solid tail (f false)) :
    Solid tail (Parse.accept t >>= f) :=
  .behind (.accepted t) fun
    | true => passed
    | false => other

/-- No loose token is of a kind that is asked for. -/
theorem peek {f : Token.Kind → Parse β} (planned : ∀ k, Planned (f k))
    (refused : ∀ k, k.Loose → ∀ p b q, f k p ≠ .ok b q)
    (h : ∀ p d, p.cursor.current.kind ≠ .eof → p.cursor.Before tail d →
      NearAt tail Cursor.Stuck (f p.cursor.current.kind) p d) : Solid tail (Parse.peek >>= f) := by
  refine .of_found (.bind (.look fun c => c.current.kind) planned)
    (fun p b q lost => refused _ lost.current p b q) fun p d found before => ?_
  obtain ⟨inside, same⟩ := before.current found
  exact (h p d inside before).of_eq rfl (congrArg (fun t : Token => f t.kind { p with cursor := d }) same)

/-- Loose tokens start nothing. -/
theorem advance {f : Token → Parse β} (planned : ∀ token, Planned (f token))
    (refused : ∀ token, token.kind.Loose → ∀ p b q, f token p ≠ .ok b q)
    (h : ∀ token, token.kind ≠ .eof → Edge tail (f token)) : Solid tail (Parse.advance >>= f) :=
  .of_found (.bind ⟨.move, rfl⟩ planned) (fun _ b q lost => refused _ lost.current _ b q)
    fun p _ found before =>
      have inside := (before.current found).1
      .advance before inside
        ((h _ inside).near { p with cursor := p.cursor.advance } _ (before.advance inside).2)

/-- A terminal that is told from loose tokens is such a step. -/
theorem expected (firm : t.Firm) : Solid tail (Parse.expect t) := by
  refine .of_found (.of_together (.expected t)) (fun p a q lost run => ?_) fun p d found before => ?_
  · rw [Parse.expect, bind_of_ok (accept_of_not_admits (lost.admits firm))] at run
    cases run
  · have inside := before.current found
    intro a q run
    cases admitted : t.admits p.cursor.current.kind with
    | false =>
      rw [Parse.expect, bind_of_ok (accept_of_not_admits admitted)] at run
      cases run
    | true =>
      rw [Parse.expect, bind_of_ok (accept_of_admits admitted)] at run
      cases run
      refine .inr ⟨d.advance, ?_, (before.advance inside.1).2⟩
      rw [← inside.2] at admitted
      rw [Parse.expect, bind_of_ok (accept_of_admits (p := { p with cursor := d }) admitted)]
      rfl

theorem expect (firm : t.Firm) {f : Unit → Parse β} (h : Edge tail (f ())) :
    Solid tail (Parse.expect t >>= f) :=
  .bind (.expected firm) fun _ => h

theorem between {opening closing : Symbol} (firm : Terminal.Firm opening) (firm' : Terminal.Firm closing)
    (h : Inner tail x) : Solid tail (Parse.between opening closing x) :=
  .expect firm (Solid.behind h fun a => .expect firm' (.pure a)).edge

theorem map (g : α → β) (hx : Solid tail x) : Solid tail (g <$> x) := by
  rw [map_eq_pure_bind]
  exact hx.bind fun a => .pure (g a)

end Solid

/-! ### Where a construct can end -/

namespace Edge

/-- What is told from the current token is the same on both sides, also where the construct ends. -/
theorem look (read : Token → α) (silent : ∀ t : Token, t.kind = .eof → read tail.current = read t)
    (hf : ∀ a, Edge tail (f a)) :
    Edge tail ((fun p => .ok (read p.cursor.current) p : Parse α) >>= f) := by
  refine ⟨.bind (.look fun c => read c.current) fun a => (hf a).planned, fun p b q stuck run => ?_,
    fun p d before => ?_⟩
  · exact (hf _).keeps p b q stuck run
  · have same : read d.current = read p.cursor.current := by
      by_cases ended : p.cursor.current.kind = .eof
      · rw [Cursor.current_of_upcoming (before.ended ended), silent _ ended]
      · rw [(before.advance ended).1]
    exact ((hf _).near p d before).of_eq rfl (congrArg (f · { p with cursor := d }) same)

theorem sees {f : Bool → Parse β} (silent : t.admits tail.current.kind = false)
    (hf : ∀ b, Edge tail (f b)) : Edge tail (Parse.sees t >>= f) :=
  look (fun token => t.admits token.kind)
    (fun token ended => by rw [silent, ended, t.admits_eof]) hf

/-- Behind a terminal that does not continue the construct there is more than loose tokens to take. -/
theorem accept {f : Bool → Parse β} (silent : t.admits tail.current.kind = false)
    (passed : Solid tail (f true)) (other : Edge tail (f false)) :
    Edge tail (Parse.accept t >>= f) := by
  refine ⟨.bind (.of_together (.accepted t)) fun
    | true => passed.planned
    | false => other.planned, fun p b q stuck run => ?_, fun p d before => ?_⟩
  · cases admitted : t.admits p.cursor.current.kind with
    | false =>
      rw [bind_of_ok (accept_of_not_admits admitted)] at run
      exact other.keeps p b q stuck run
    | true =>
      rw [bind_of_ok (accept_of_admits admitted)] at run
      exact absurd run (passed.refused _ b q (stuck.1.onward (Parser.Step.move p).onward))
  · have same : t.admits d.current.kind = t.admits p.cursor.current.kind := by
      by_cases ended : p.cursor.current.kind = .eof
      · rw [Cursor.current_of_upcoming (before.ended ended), silent, ended, t.admits_eof]
      · rw [(before.advance ended).1]
    cases admitted : t.admits p.cursor.current.kind with
    | false =>
      exact (other.near p d before).of_eq (bind_of_ok (accept_of_not_admits admitted))
        (bind_of_ok (accept_of_not_admits (same.trans admitted)))
    | true =>
      have inside := (before.advance (Terminal.silent admitted).2).2
      exact (passed.near { p with cursor := p.cursor.advance } d.advance inside).of_eq
        (bind_of_ok (accept_of_admits admitted)) (bind_of_ok (accept_of_admits (same.trans admitted)))

theorem loop {σ : Type} {loop : ℕ → σ → Parse α} (same : Unbounded Agree loop) (stops : tail.Stops)
    (s : σ) (h : ∀ count, Edge tail (loop count s)) :
    Edge tail (Parse.remaining >>= fun count => loop count s) where
  planned := .bind (.look Cursor.remaining) fun count => (h count).planned
  keeps p := (h p.cursor.remaining).keeps p
  near := .loop same stops s fun count => (h count).near

theorem optional (silent : t.admits tail.current.kind = false) (h : Solid tail x) :
    Edge tail (Parse.optional t x) :=
  accept silent (.bind h fun a => .pure (some a)) (.pure none)

end Edge

end Parse

end CanonicalSql
