import CanonicalSql.Proofs.Course.Token
import CanonicalSql.Proofs.Reading.Step

/-! What a step of a parse does from a place of the source, whatever the limit of nesting.  Each step
has one course: it ends in a result or a refusal, and it has a number of levels.  If that many levels
can be opened the step takes its course, and otherwise it runs out of levels on the way.
`Parse.Gives` says of the course of a step which tokens it passes over and what it gives for them. -/

namespace CanonicalSql

theorem Terminal.admits_symbol {s : Symbol} {k : Token.Kind} :
    Terminal.admits s k = true ↔ k = .symbol s := by
  cases k <;> simp [Terminal.admits, eq_comm]

/-! ### Cursors over the tokens of a text -/

/-- Whether the tokens from the cursor on are those of a text: genuine, and the last of them is the
only mark of the end.  If `plain`, no limit among them has the form with a comma. -/
structure Cursor.Ready (plain : Prop) (c : Cursor) : Prop where
  genuine : ∀ t ∈ c.upcoming, t.kind.Genuine
  ended : ∃ ts mark, c.upcoming = ts ++ [mark] ∧ mark.kind = .eof ∧ ∀ t ∈ ts, t.kind ≠ .eof
  plainly : plain → ¬ CommaLimit c.upcoming

namespace Cursor

variable {plain : Prop} {c c' : Cursor} {ts : List Token}

theorem upcoming_ne_nil (c : Cursor) : c.upcoming ≠ [] := List.cons_ne_nil _ _

theorem Ready.behind (h : c.Ready plain) (hc : c.upcoming = ts ++ c'.upcoming) :
    c'.Ready plain := by
  obtain ⟨genuine, ⟨us, mark, hu, hm, others⟩, plainly⟩ := h
  refine ⟨fun t ht => genuine t (by simp [hc, ht]), ?_, ?_⟩
  · rw [hc] at hu
    rcases List.eq_nil_or_concat c'.upcoming with none | ⟨vs, last, some⟩
    · exact absurd none c'.upcoming_ne_nil
    · rw [List.concat_eq_append] at some
      rw [some, ← List.append_assoc] at hu
      obtain ⟨rfl, hl⟩ := List.append_inj' hu rfl
      obtain rfl : last = mark := by simpa using hl
      exact ⟨vs, last, some, hm, fun t ht => others t (by simp [ht])⟩
  · intro hp limit
    exact plainly hp (hc ▸ limit.prepend ts)

/-- A token that is no mark of the end is passed over. -/
theorem Ready.advance (h : c.Ready plain) (hk : c.current.kind ≠ .eof) :
    c.upcoming = [c.current] ++ c.advance.upcoming := by
  obtain ⟨passed, current, ahead⟩ := c
  obtain ⟨-, ⟨us, mark, hu, hm, -⟩, -⟩ := h
  cases ahead with
  | nil =>
    obtain ⟨rfl, rfl⟩ : us = [] ∧ current = mark := by
      cases us <;> simp_all [upcoming]
    exact absurd hm hk
  | cons next ahead => simp [upcoming, Cursor.advance, hk]

/-- Behind the current token the tokens ahead are one place nearer. -/
theorem Ready.peekAt_advance (h : c.Ready plain) (hk : c.current.kind ≠ .eof) (n : ℕ) :
    c.advance.peekAt n = c.peekAt (n + 1) := by
  have moves := h.advance hk
  rw [Cursor.peekAt, Cursor.peekAt, moves, Cursor.last_advance]
  rfl

/-- Only a mark of the end has no tokens behind it. -/
theorem Ready.atEnd_iff (h : c.Ready plain) : c.current.kind = .eof ↔ c.remaining = 0 := by
  obtain ⟨-, ⟨us, mark, hu, hm, others⟩, -⟩ := h
  obtain ⟨passed, current, ahead⟩ := c
  cases us with
  | nil => simp_all [upcoming, remaining]
  | cons u us =>
    obtain ⟨rfl, rfl⟩ : current = u ∧ ahead = us ++ [mark] := by simpa [upcoming] using hu
    simp [remaining, others current (by simp)]

theorem remaining_add (h : c.upcoming = ts ++ c'.upcoming) :
    ts.length + c'.remaining = c.remaining := by
  have lengths := congrArg List.length h
  simp only [upcoming, List.length_append, List.length_cons] at lengths
  unfold remaining
  omega

theorem remaining_cons {t : Token} (h : c.upcoming = t :: c'.upcoming) :
    c.remaining = c'.remaining + 1 := by
  have moved := remaining_add (show c.upcoming = [t] ++ c'.upcoming from h)
  rw [← moved, List.length_singleton, Nat.add_comm]

/-- Whether the terminals `ts` follow one another from the token `n` places ahead on. -/
def facesAt (c : Cursor) : (n : ℕ) → List Terminal → Bool
  | _, [] => true
  | n, t :: ts => t.admits (c.peekAt n).kind && c.facesAt (n + 1) ts

theorem facesAt_get {n : ℕ} {ts : List Terminal} (h : c.facesAt n ts = true) (i : ℕ)
    (hi : i < ts.length) : ts[i].admits (c.peekAt (n + i)).kind = true := by
  induction ts generalizing n i with
  | nil => simp at hi
  | cons t ts ih =>
    rw [facesAt, Bool.and_eq_true] at h
    cases i with
    | zero => exact h.1
    | succ i =>
      have next := ih h.2 i (by simpa using hi)
      rwa [show n + 1 + i = n + (i + 1) by omega] at next

end Cursor

/-! ### Courses -/

namespace Parse

/-- How a step ends unless it runs out of levels. -/
inductive End (α : Type) where
  | result (a : α) (c : Cursor)
  | refusal (found : Token) (expected : Expectation) (c : Cursor)

/-- The end of a step, for a parser. -/
def End.for {α : Type} (p : Parser) : End α → EStateM.Result ParseError Parser α
  | .result a c => .ok a { p with cursor := c }
  | .refusal found expected c => .error (.unexpected found expected) { p with cursor := c }

/-- From the cursor on, the step ends in `e` if `levels` levels can be opened, and otherwise runs out
of levels in front of one of the tokens ahead.  Both ways it gives back all levels. -/
def Ends {α : Type} (x : Parse α) (c : Cursor) (levels : ℕ) (e : End α) : Prop :=
  ∀ p : Parser, p.cursor = c →
    (levels ≤ p.room → x p = e.for p) ∧
      (p.room < levels → ∃ t ∈ c.upcoming, ∃ c' : Cursor,
        x p = .error (.tooDeep t.position p.limit) { p with cursor := c' })

/-- What is asked of a result: the levels of its course, the tokens passed over, the result, and the
cursor behind it. -/
abbrev Ask (α : Type) : Type := ℕ → List Token → α → Cursor → Prop

/-- Whether the step has a course from the cursor on, and all that it can give is as asked. -/
def GivesAt {α : Type} (plain : Prop) (x : Parse α) (c : Cursor) (Q : Ask α) : Prop :=
  c.Ready plain → ∃ levels e, x.Ends c levels e ∧
    match e with
    | .result a c' => ∃ ts, c.upcoming = ts ++ c'.upcoming ∧ Q levels ts a c'
    | .refusal _ _ _ => True

/-- Whether the step has a course wherever it starts, and all that it can give is as asked. -/
def Gives {α : Type} (plain : Prop) (x : Parse α) (Q : ℕ → List Token → α → Prop) : Prop :=
  ∀ c, x.GivesAt plain c fun levels ts a _ => Q levels ts a

section

variable {α β : Type} {plain : Prop} {x : Parse α} {f : α → Parse β} {c : Cursor}

theorem GivesAt.mono {Q R : Ask α} (h : x.GivesAt plain c Q)
    (hQ : ∀ levels ts a c', Q levels ts a c' → R levels ts a c') : x.GivesAt plain c R := by
  intro ready
  obtain ⟨levels, e, ends, asked⟩ := h ready
  refine ⟨levels, e, ends, ?_⟩
  cases e with
  | result a c' =>
    obtain ⟨ts, hts, q⟩ := asked
    exact ⟨ts, hts, hQ _ _ _ _ q⟩
  | refusal => trivial

theorem Gives.mono {Q R : ℕ → List Token → α → Prop} (h : x.Gives plain Q)
    (hQ : ∀ levels ts a, Q levels ts a → R levels ts a) : x.Gives plain R :=
  fun c => (h c).mono fun levels ts a _ => hQ levels ts a

theorem GivesAt.pure {a : α} {Q : Ask α} (h : Q 0 [] a c) :
    (Pure.pure a : Parse α).GivesAt plain c Q := by
  intro _
  refine ⟨0, .result a c, fun p hp => ⟨fun _ => ?_, fun h => absurd h (Nat.not_lt_zero _)⟩,
    [], rfl, h⟩
  subst hp
  rfl

theorem Gives.pure {a : α} {Q : ℕ → List Token → α → Prop} (h : Q 0 [] a) :
    (Pure.pure a : Parse α).Gives plain Q :=
  fun _ => .pure h

theorem GivesAt.fail (expected : Expectation) {Q : Ask α} :
    (Parse.fail expected : Parse α).GivesAt plain c Q := by
  intro _
  refine ⟨0, .refusal c.current expected c,
    fun p hp => ⟨fun _ => ?_, fun h => absurd h (Nat.not_lt_zero _)⟩, trivial⟩
  subst hp
  rfl

theorem Gives.fail (expected : Expectation) {Q : ℕ → List Token → α → Prop} :
    (Parse.fail expected : Parse α).Gives plain Q :=
  fun _ => .fail expected

theorem Gives.failAt (token : Token) (expected : Expectation) {Q : ℕ → List Token → α → Prop} :
    (Parse.failAt token expected : Parse α).Gives plain Q := by
  intro c _
  refine ⟨0, .refusal token expected c,
    fun p hp => ⟨fun _ => ?_, fun h => absurd h (Nat.not_lt_zero _)⟩, trivial⟩
  subst hp
  rfl

/-- One step after another.  The course of both needs the greater number of levels. -/
theorem GivesAt.bind {Q : Ask α} {R : Ask β} (hx : x.GivesAt plain c Q)
    (hf : ∀ n ts a c', Q n ts a c' → c.upcoming = ts ++ c'.upcoming →
      (f a).GivesAt plain c' fun m us b c'' => R (max n m) (ts ++ us) b c'') :
    (x >>= f).GivesAt plain c R := by
  intro ready
  obtain ⟨n, e, ends, asked⟩ := hx ready
  cases e with
  | refusal found expected c' =>
    refine ⟨n, .refusal found expected c', fun p hp => ⟨fun hn => ?_, fun hn => ?_⟩, trivial⟩
    · change EStateM.bind x f p = _
      rw [EStateM.bind, (ends p hp).1 hn]
      rfl
    · obtain ⟨t, ht, c'', run⟩ := (ends p hp).2 hn
      refine ⟨t, ht, c'', ?_⟩
      change EStateM.bind x f p = _
      rw [EStateM.bind, run]
  | result a c' =>
    obtain ⟨ts, hts, q⟩ := asked
    obtain ⟨m, e', ends', asked'⟩ := hf n ts a c' q hts (ready.behind hts)
    refine ⟨max n m, e', fun p hp => ⟨fun hn => ?_, fun hn => ?_⟩, ?_⟩
    · rw [max_le_iff] at hn
      change EStateM.bind x f p = _
      rw [EStateM.bind, (ends p hp).1 hn.1]
      refine ((ends' { p with cursor := c' } rfl).1 hn.2).trans ?_
      cases e' <;> rfl
    · change ∃ t ∈ _, ∃ c'', EStateM.bind x f p = _
      rw [EStateM.bind]
      by_cases first : n ≤ p.room
      · rw [(ends p hp).1 first]
        have second : p.room < m := by omega
        obtain ⟨t, ht, c'', run⟩ := (ends' { p with cursor := c' } rfl).2 second
        exact ⟨t, by simp [hts, ht], c'', run⟩
      · obtain ⟨t, ht, c'', run⟩ := (ends p hp).2 (by omega)
        exact ⟨t, ht, c'', by rw [run]⟩
    · cases e' with
      | result b c'' =>
        obtain ⟨us, hus, r⟩ := asked'
        exact ⟨ts ++ us, by rw [hts, hus, List.append_assoc], r⟩
      | refusal => trivial

theorem Gives.bind {Q : ℕ → List Token → α → Prop} {R : ℕ → List Token → β → Prop}
    (hx : x.Gives plain Q)
    (hf : ∀ n ts a, Q n ts a → (f a).Gives plain fun m us b => R (max n m) (ts ++ us) b) :
    (x >>= f).Gives plain R :=
  fun c => (hx c).bind fun n ts a c' q _ => hf n ts a q c'

/-- A step that passes over nothing and opens no level, such as a look ahead. -/
theorem GivesAt.look {a : α} {R : Ask β} (hx : ∀ p : Parser, p.cursor = c → x p = .ok a p)
    (hf : (f a).GivesAt plain c R) : (x >>= f).GivesAt plain c R := by
  have looks : x.GivesAt plain c fun n ts b c' => n = 0 ∧ ts = [] ∧ b = a ∧ c' = c := by
    intro _
    refine ⟨0, .result a c, fun p hp => ⟨fun _ => ?_, fun h => absurd h (Nat.not_lt_zero _)⟩,
      [], rfl, rfl, rfl, rfl, rfl⟩
    rw [hx p hp, End.for, ← hp]
  refine looks.bind ?_
  rintro n ts b c' ⟨rfl, rfl, rfl, rfl⟩ -
  simpa using hf

/-- What a step can give it gives in a run with levels enough. -/
theorem GivesAt.run {Q : Ask α} (h : x.GivesAt plain c Q) :
    x.GivesAt plain c fun n ts a c' => Q n ts a c' ∧
      ∃ p q : Parser, p.cursor = c ∧ q.cursor = c' ∧ x p = .ok a q := by
  intro ready
  obtain ⟨n, e, ends, asked⟩ := h ready
  refine ⟨n, e, ends, ?_⟩
  cases e with
  | refusal => trivial
  | result a c' =>
    obtain ⟨ts, hts, q⟩ := asked
    exact ⟨ts, hts, q, ⟨c, 0, n⟩, ⟨c', 0, n⟩, rfl, rfl, (ends ⟨c, 0, n⟩ rfl).1 le_rfl⟩

theorem GivesAt.map {g : α → β} {Q : Ask β}
    (hx : x.GivesAt plain c fun n ts a c' => Q n ts (g a) c') :
    (g <$> x).GivesAt plain c Q := by
  rw [map_eq_pure_bind]
  refine hx.bind fun n ts a c' q _ => .pure ?_
  simpa using q

theorem Gives.map {g : α → β} {Q : ℕ → List Token → β → Prop}
    (hx : x.Gives plain fun n ts a => Q n ts (g a)) : (g <$> x).Gives plain Q :=
  fun c => (hx c).map

/-- A step one level deeper has one level more. -/
theorem GivesAt.descend {Q : Ask α} (hx : x.GivesAt plain c fun n => Q (n + 1)) :
    (descend x).GivesAt plain c Q := by
  intro ready
  obtain ⟨n, e, ends, asked⟩ := hx ready
  refine ⟨n + 1, e, fun p hp => ?_, asked⟩
  obtain ⟨enough, short⟩ := ends { p with depth := p.depth + 1 } hp
  unfold Parser.room at *
  dsimp only at enough short
  unfold Parse.descend
  constructor
  · intro hn
    rw [if_pos (by omega), enough (by omega)]
    cases e <;> rfl
  · intro hn
    by_cases spare : p.depth < p.limit
    · obtain ⟨t, ht, c', run⟩ := short (by omega)
      rw [if_pos spare, run]
      exact ⟨t, ht, c', rfl⟩
    · rw [if_neg spare]
      exact ⟨p.cursor.current, by simp [← hp, Cursor.upcoming], p.cursor, rfl⟩

theorem Gives.descend {Q : ℕ → List Token → α → Prop}
    (hx : x.Gives plain fun n => Q (n + 1)) : (Parse.descend x).Gives plain Q :=
  fun c => (hx c).descend

/-! ### Looking ahead -/

theorem GivesAt.peek {f : Token.Kind → Parse β} {R : Ask β}
    (hf : (f c.current.kind).GivesAt plain c R) : (Parse.peek >>= f).GivesAt plain c R :=
  .look (fun p hp => by rw [Parse.peek, hp]) hf

theorem Gives.peek {f : Token.Kind → Parse β} {R : ℕ → List Token → β → Prop}
    (hf : ∀ c : Cursor, (f c.current.kind).GivesAt plain c fun n ts b _ => R n ts b) :
    (Parse.peek >>= f).Gives plain R :=
  fun c => .peek (hf c)

theorem GivesAt.peekAt {n : ℕ} {f : Token.Kind → Parse β} {R : Ask β}
    (hf : (f (c.peekAt n).kind).GivesAt plain c R) : (Parse.peekAt n >>= f).GivesAt plain c R :=
  .look (fun p hp => by rw [Parse.peekAt, hp]) hf

theorem GivesAt.current {f : Token → Parse β} {R : Ask β}
    (hf : (f c.current).GivesAt plain c R) : (Parse.current >>= f).GivesAt plain c R :=
  .look (fun p hp => by rw [Parse.current, hp]) hf

theorem GivesAt.atEnd {f : Bool → Parse β} {R : Ask β}
    (hf : (f c.atEnd).GivesAt plain c R) : (Parse.atEnd >>= f).GivesAt plain c R :=
  .look (fun p hp => by rw [Parse.atEnd, hp]) hf

theorem GivesAt.remaining {f : ℕ → Parse β} {R : Ask β}
    (hf : (f c.remaining).GivesAt plain c R) : (Parse.remaining >>= f).GivesAt plain c R :=
  .look (fun p hp => by rw [Parse.remaining, hp]) hf

theorem Gives.remaining {f : ℕ → Parse β} {R : ℕ → List Token → β → Prop}
    (hf : ∀ count, (f count).Gives plain R) : (Parse.remaining >>= f).Gives plain R :=
  fun _ => .remaining (hf _ _)

theorem GivesAt.sees {t : Terminal} {f : Bool → Parse β} {R : Ask β}
    (hf : (f (t.admits c.current.kind)).GivesAt plain c R) :
    (Parse.sees t >>= f).GivesAt plain c R :=
  .look (fun p hp => by rw [← hp]; rfl) hf

theorem GivesAt.seesAt {n : ℕ} {t : Terminal} {f : Bool → Parse β} {R : Ask β}
    (hf : (f (t.admits (c.peekAt n).kind)).GivesAt plain c R) :
    (Parse.seesAt n t >>= f).GivesAt plain c R :=
  .look (fun p hp => by rw [← hp]; rfl) hf

/-- A choice by the current token, where both branches give what is asked. -/
theorem Gives.seen {t : Terminal} {y z : Parse β} {R : ℕ → List Token → β → Prop}
    (hy : y.Gives plain R) (hz : z.Gives plain R) :
    (Parse.sees t >>= fun found => if found = true then y else z).Gives plain R := by
  intro c
  refine .sees ?_
  split
  · exact hy c
  · exact hz c

/-! ### Moving on -/

theorem GivesAt.advance {f : Token → Parse β} {R : Ask β} (hk : c.current.kind ≠ .eof)
    (hf : (f c.current).GivesAt plain c.advance fun n ts b c' => R n (c.current :: ts) b c') :
    (Parse.advance >>= f).GivesAt plain c R := by
  have moves : Parse.advance.GivesAt plain c fun n ts t c' =>
      n = 0 ∧ ts = [c.current] ∧ t = c.current ∧ c' = c.advance := by
    intro ready
    refine ⟨0, .result c.current c.advance,
      fun p hp => ⟨fun _ => ?_, fun h => absurd h (Nat.not_lt_zero _)⟩,
      [c.current], ready.advance hk, rfl, rfl, rfl, rfl⟩
    subst hp
    rfl
  refine moves.bind ?_
  rintro n ts t c' ⟨rfl, rfl, rfl, rfl⟩ -
  simpa using hf

/-- A mark of the end is never passed over. -/
theorem GivesAt.advance_end {f : Token → Parse β} {R : Ask β} (hk : c.current.kind = .eof)
    (hf : (f c.current).GivesAt plain c R) : (Parse.advance >>= f).GivesAt plain c R := by
  refine .look (fun p hp => ?_) hf
  have stays : c.advance = c := by rw [Cursor.advance, if_pos hk]
  rw [Parse.advance, hp, stays, ← hp]

theorem GivesAt.discard_advance {f : Unit → Parse β} {R : Ask β} (hk : c.current.kind ≠ .eof)
    (hf : (f ()).GivesAt plain c.advance fun n ts b c' => R n (c.current :: ts) b c') :
    (discard Parse.advance >>= f).GivesAt plain c R := by
  change (((fun _ => ()) <$> Parse.advance) >>= f).GivesAt plain c R
  rw [map_eq_pure_bind, bind_assoc]
  refine .advance hk ?_
  simpa using hf

/-- A terminal that is passed over is a token of its kind. -/
theorem GivesAt.accept {t : Terminal} {f : Bool → Parse β} {R : Ask β}
    (some : t.admits c.current.kind = true →
      (f true).GivesAt plain c.advance fun n ts b c' => R n (c.current :: ts) b c')
    (none : t.admits c.current.kind = false → (f false).GivesAt plain c R) :
    (Parse.accept t >>= f).GivesAt plain c R := by
  rw [Parse.accept, bind_assoc]
  refine .sees ?_
  cases found : t.admits c.current.kind with
  | true =>
    have noEnd : c.current.kind ≠ .eof := by
      intro he
      rw [he] at found
      cases t <;> simp [Terminal.admits] at found
    rw [if_pos rfl, bind_assoc]
    refine .discard_advance noEnd ?_
    simpa using some found
  | false => simpa using none found

theorem Gives.accept {t : Terminal} {f : Bool → Parse β} {R : ℕ → List Token → β → Prop}
    (some : ∀ token : Token, t.admits token.kind = true →
      (f true).Gives plain fun n ts b => R n (token :: ts) b)
    (none : (f false).Gives plain R) : (Parse.accept t >>= f).Gives plain R :=
  fun c => .accept (fun found => some c.current found c.advance) fun _ => none c

theorem GivesAt.expect {t : Terminal} {f : Unit → Parse β} {R : Ask β}
    (hf : t.admits c.current.kind = true →
      (f ()).GivesAt plain c.advance fun n ts b c' => R n (c.current :: ts) b c') :
    (Parse.expect t >>= f).GivesAt plain c R := by
  rw [Parse.expect, bind_assoc]
  refine .accept (fun found => ?_) fun _ => ?_
  · simpa using hf found
  · exact (GivesAt.fail (Q := fun _ _ _ _ => False) _).bind fun _ _ _ _ no _ => no.elim

theorem Gives.expect {t : Terminal} {f : Unit → Parse β} {R : ℕ → List Token → β → Prop}
    (hf : ∀ token : Token, t.admits token.kind = true →
      (f ()).Gives plain fun n ts b => R n (token :: ts) b) :
    (Parse.expect t >>= f).Gives plain R :=
  fun c => .expect fun found => hf c.current found c.advance

theorem Gives.discard_accept {t : Terminal} {f : Unit → Parse β}
    {R : ℕ → List Token → β → Prop}
    (some : ∀ token : Token, t.admits token.kind = true →
      (f ()).Gives plain fun n ts b => R n (token :: ts) b)
    (none : (f ()).Gives plain R) : (discard (Parse.accept t) >>= f).Gives plain R := by
  change (((fun _ => ()) <$> Parse.accept t) >>= f).Gives plain R
  rw [map_eq_pure_bind, bind_assoc]
  exact .accept (by simpa using some) (by simpa using none)

/-! ### Several tokens at once -/

end

section

variable {β : Type} {plain : Prop} {c : Cursor}

/-- Tokens that are no marks of the end can be passed over at once. -/
theorem GivesAt.skip {count : ℕ} {f : Unit → Parse β} {R : Ask β}
    (hk : ∀ i < count, (c.peekAt i).kind ≠ .eof)
    (hf : ∀ c', (f ()).GivesAt plain c' fun n ts b c'' =>
      R n ((List.range count).map c.peekAt ++ ts) b c'') :
    (Parse.skip count >>= f).GivesAt plain c R := by
  induction count generalizing c R with
  | zero => simpa [Parse.skip] using hf c
  | succ count ih =>
    intro ready
    have first := hk 0 (Nat.succ_pos _)
    rw [Parse.skip, bind_assoc]
    refine GivesAt.discard_advance first (ih (fun i hi => ?_) fun c' => ?_) ready
    · rw [ready.peekAt_advance first]
      exact hk (i + 1) (by omega)
    · have others : (List.range (count + 1)).map c.peekAt =
          c.current :: (List.range count).map c.advance.peekAt := by
        rw [List.range_succ_eq_map, List.map_cons, List.map_map]
        congr 1
        exact List.map_congr_left fun i _ => (ready.peekAt_advance first i).symm
      simpa [others] using hf c'

theorem seesAllAt_eq (n : ℕ) (ts : List Terminal) (p : Parser) :
    Parse.seesAllAt n ts p = .ok (p.cursor.facesAt n ts) p := by
  induction ts generalizing n with
  | nil => rfl
  | cons t ts ih =>
    rw [Parse.seesAllAt, Cursor.facesAt]
    change EStateM.bind (Parse.seesAt n t) _ p = _
    have look : Parse.seesAt n t p = .ok (t.admits (p.cursor.peekAt n).kind) p := rfl
    rw [EStateM.bind, look]
    cases ht : t.admits (p.cursor.peekAt n).kind with
    | true => simpa using ih (n + 1)
    | false => rfl

theorem GivesAt.seesAllAt {n : ℕ} {ts : List Terminal} {f : Bool → Parse β} {R : Ask β}
    (hf : (f (c.facesAt n ts)).GivesAt plain c R) :
    (Parse.seesAllAt n ts >>= f).GivesAt plain c R :=
  .look (fun p hp => by rw [seesAllAt_eq, hp]) hf

/-- Terminals that are passed over at once are tokens of their kinds. -/
theorem GivesAt.acceptAll {ts : List Terminal} {f : Bool → Parse β} {R : Ask β}
    (some : ∀ us : List Token, us.length = ts.length →
      (∀ u ∈ us, ∃ t ∈ ts, t.admits u.kind = true) →
      ∀ c', (f true).GivesAt plain c' fun n vs b c'' => R n (us ++ vs) b c'')
    (none : (f false).GivesAt plain c R) :
    (Parse.acceptAll ts >>= f).GivesAt plain c R := by
  rw [Parse.acceptAll, bind_assoc]
  refine .seesAllAt ?_
  cases found : c.facesAt 0 ts with
  | false => simpa using none
  | true =>
    have admitted : ∀ i (hi : i < ts.length), ts[i].admits (c.peekAt i).kind = true := by
      intro i hi
      simpa using Cursor.facesAt_get found i hi
    rw [if_pos rfl, bind_assoc]
    refine .skip (fun i hi he => ?_) fun c' => ?_
    · have admits := admitted i hi
      rw [he] at admits
      cases ht : ts[i] <;> simp [ht, Terminal.admits] at admits
    · have all := some ((List.range ts.length).map c.peekAt) (by simp) ?_ c'
      · simpa using all
      · intro u hu
        obtain ⟨i, hi, rfl⟩ := List.mem_map.1 hu
        rw [List.mem_range] at hi
        exact ⟨ts[i], List.getElem_mem hi, admitted i hi⟩

theorem Gives.acceptAll {ts : List Terminal} {f : Bool → Parse β}
    {R : ℕ → List Token → β → Prop}
    (some : ∀ us : List Token, us.length = ts.length →
      (∀ u ∈ us, ∃ t ∈ ts, t.admits u.kind = true) →
      (f true).Gives plain fun n vs b => R n (us ++ vs) b)
    (none : (f false).Gives plain R) : (Parse.acceptAll ts >>= f).Gives plain R :=
  fun c => .acceptAll (fun us hl hu c' => some us hl hu c') (none c)

end

/-! ### Runs of single steps -/

section

variable {α β : Type} {x : Parse α} {f : α → Parse β} {a : α} {e : ParseError} {p q : Parser}

theorem bind_of_ok (h : x p = .ok a q) : (x >>= f) p = f a q := by
  change EStateM.bind x f p = _
  rw [EStateM.bind, h]

theorem bind_of_error (h : x p = .error e q) : (x >>= f) p = .error e q := by
  change EStateM.bind x f p = _
  rw [EStateM.bind, h]

theorem peek_bind (f : Token.Kind → Parse β) (p : Parser) :
    (peek >>= f) p = f p.cursor.current.kind p := rfl

theorem peekAt_bind (n : ℕ) (f : Token.Kind → Parse β) (p : Parser) :
    (peekAt n >>= f) p = f (p.cursor.peekAt n).kind p := rfl

theorem sees_bind (t : Terminal) (f : Bool → Parse β) (p : Parser) :
    (sees t >>= f) p = f (t.admits p.cursor.current.kind) p := rfl

theorem seesAt_bind (n : ℕ) (t : Terminal) (f : Bool → Parse β) (p : Parser) :
    (seesAt n t >>= f) p = f (t.admits (p.cursor.peekAt n).kind) p := rfl

theorem seesAllAt_bind (n : ℕ) (ts : List Terminal) (f : Bool → Parse β) (p : Parser) :
    (seesAllAt n ts >>= f) p = f (p.cursor.facesAt n ts) p :=
  bind_of_ok (seesAllAt_eq n ts p)

theorem advance_bind (f : Token → Parse β) (p : Parser) : (advance >>= f) p =
    f p.cursor.current { p with cursor := p.cursor.advance } := rfl

theorem accept_of_admits {t : Terminal} (h : t.admits p.cursor.current.kind = true) :
    accept t p = .ok true { p with cursor := p.cursor.advance } := by
  have seen : sees t p = .ok true p := congrArg (EStateM.Result.ok · p) h
  rw [accept, bind_of_ok seen]
  rfl

theorem accept_of_not_admits {t : Terminal} (h : t.admits p.cursor.current.kind = false) :
    accept t p = .ok false p := by
  have unseen : sees t p = .ok false p := congrArg (EStateM.Result.ok · p) h
  rw [accept, bind_of_ok unseen]
  rfl

end

end Parse

end CanonicalSql
