import CanonicalSql.Proofs.Levels
import CanonicalSql.Proofs.Lexing.Text

/-! What the steps of a parse make of printed tokens.  `Parse.Reads` says of a step what it gives in
front of given tokens, and how many levels it has to open for that: with fewer levels it fails. -/

namespace CanonicalSql

/-! ### Tokens ahead -/

/-- The kind of the token `n` places ahead, that of the mark of the end behind the last one. -/
def kindAt (s : List Spelled) (n : Nat) : Token.Kind := (s[n]?.map Spelled.kind).getD .eof

@[simp] theorem kindAt_nil (n : Nat) : kindAt [] n = .eof := rfl

@[simp] theorem kindAt_cons_zero (t : Spelled) (s : List Spelled) : kindAt (t :: s) 0 = t.kind := rfl

@[simp] theorem kindAt_cons_succ (t : Spelled) (s : List Spelled) (n : Nat) :
    kindAt (t :: s) (n + 1) = kindAt s n := rfl

/-- Whether the tokens from the cursor on are `s` and the mark of the end. -/
def Cursor.Shows (c : Cursor) (s : List Spelled) : Prop :=
  c.upcoming.map Token.spelled = s ++ [.endMark] ∧ ∀ t ∈ s, t.kind ≠ .eof

namespace Cursor.Shows

variable {c : Cursor} {s : List Spelled} {t : Spelled}

theorem length (h : c.Shows s) : c.ahead.length = s.length := by
  have same := congrArg List.length h.1
  simpa [upcoming] using same

theorem peekAt (h : c.Shows s) (n : Nat) : (c.peekAt n).kind = kindAt s n := by
  have last : c.last.spelled = .endMark := by
    have ends := congrArg List.getLast? h.1
    rw [List.getLast?_map, List.getLast?_append, List.getLast?_eq_some_getLast (by simp [upcoming])]
      at ends
    simpa [Cursor.last] using ends
  have found : (c.upcoming[n]?.map Token.spelled) = (s ++ [Spelled.endMark])[n]? := by
    rw [← h.1, List.getElem?_map]
  have kind : (c.peekAt n).spelled = ((s ++ [Spelled.endMark])[n]?).getD .endMark := by
    rw [Cursor.peekAt, ← found]
    cases c.upcoming[n]? <;> simp [last]
  change (c.peekAt n).spelled.kind = _
  rw [kind, kindAt]
  by_cases inside : n < s.length
  · rw [List.getElem?_append_left inside, List.getElem?_eq_getElem inside]
    rfl
  · rw [List.getElem?_append_right (by omega), List.getElem?_eq_none (show s.length ≤ n by omega)]
    by_cases first : n = s.length
    · simp [first, Spelled.endMark]
    · rw [List.getElem?_eq_none (by simp; omega)]
      rfl

theorem kind (h : c.Shows s) : c.current.kind = kindAt s 0 := h.peekAt 0

theorem current (h : c.Shows (t :: s)) : c.current.spelled = t := by
  have first := h.1
  simp only [upcoming, List.map_cons, List.cons_append, List.cons.injEq] at first
  exact first.1

theorem advance (h : c.Shows (t :: s)) : c.advance.Shows s := by
  obtain ⟨all, marks⟩ := h
  obtain ⟨passed, token, ahead⟩ := c
  simp only [upcoming, List.map_cons, List.cons_append, List.cons.injEq] at all
  have noEnd : token.kind ≠ .eof := by
    have first := marks t (by simp)
    rwa [← all.1] at first
  cases ahead with
  | nil => simp at all
  | cons next ahead =>
    refine ⟨?_, fun u hu => marks u (by simp [hu])⟩
    simpa [Cursor.advance, noEnd, upcoming] using all.2

theorem atEnd (h : c.Shows s) : c.atEnd = s.isEmpty := by
  rw [Cursor.atEnd, h.kind]
  cases s with
  | nil => rfl
  | cons t s => exact decide_eq_false (h.2 t (by simp))

end Cursor.Shows

/-! ### Steps -/

/-- The number of levels that can still be opened. -/
def Parser.room (p : Parser) : Nat := p.limit - p.depth

/-- In front of the tokens `s` the step gives `a` and stops in front of `r`, if `levels` levels can
be opened, and fails if they cannot. -/
def Parse.Reads {α : Type} (x : Parse α) (levels : ℕ∞) (s : List Spelled) (a : α)
    (r : List Spelled) : Prop :=
  ∀ p : Parser, p.cursor.Shows s →
    (levels ≤ p.room → ∃ c : Cursor, c.Shows r ∧ x p = .ok a { p with cursor := c }) ∧
      (¬ levels ≤ p.room → ∃ e q, x p = .error e q)

namespace Parse

open Parse

variable {α β : Type} {x : Parse α} {f : α → Parse β} {a : α} {b : β} {n m : ℕ∞}
  {s r w : List Spelled}

theorem Reads.cast (h : x.Reads n s a r) (hn : n = m) : x.Reads m s a r := hn ▸ h

theorem Reads.pure (a : α) (s : List Spelled) : (Pure.pure a : Parse α).Reads 0 s a s := by
  intro p hp
  exact ⟨fun _ => ⟨p.cursor, hp, rfl⟩, fun h => absurd zero_le h⟩

/-- A step that fails in front of the tokens, whatever the number of levels. -/
theorem reads_top (h : ∀ p : Parser, p.cursor.Shows s → ∃ e q, x p = .error e q) :
    x.Reads ⊤ s a r := by
  intro p hp
  exact ⟨fun hn => absurd hn (by simp), fun _ => h p hp⟩

/-- A step that fails, with anything behind it. -/
theorem Reads.top_bind (hx : x.Reads ⊤ s a r) : (x >>= f).Reads ⊤ s b w := by
  refine reads_top fun p hp => ?_
  obtain ⟨e, q, run⟩ := (hx p hp).2 (by simp)
  refine ⟨e, q, ?_⟩
  change EStateM.bind x f p = _
  rw [EStateM.bind, run]

theorem Reads.bind (hx : x.Reads n s a r) (hf : (f a).Reads m r b w) :
    (x >>= f).Reads (max n m) s b w := by
  intro p hp
  constructor
  · intro hn
    rw [max_le_iff] at hn
    obtain ⟨c, hc, run⟩ := (hx p hp).1 hn.1
    obtain ⟨c', hc', run'⟩ := (hf { p with cursor := c } hc).1 hn.2
    refine ⟨c', hc', ?_⟩
    change EStateM.bind x f p = _
    rw [EStateM.bind, run]
    exact run'
  · intro hn
    by_cases first : n ≤ p.room
    · obtain ⟨c, hc, run⟩ := (hx p hp).1 first
      obtain ⟨e, q, run'⟩ := (hf { p with cursor := c } hc).2 fun second =>
        hn (max_le first second)
      refine ⟨e, q, ?_⟩
      change EStateM.bind x f p = _
      rw [EStateM.bind, run]
      exact run'
    · obtain ⟨e, q, run⟩ := (hx p hp).2 first
      refine ⟨e, q, ?_⟩
      change EStateM.bind x f p = _
      rw [EStateM.bind, run]

/-- A step without levels, and then another. -/
theorem Reads.next (hx : x.Reads 0 s a r) (hf : (f a).Reads n r b w) :
    (x >>= f).Reads n s b w :=
  (hx.bind hf).cast (max_eq_right zero_le)

/-- A step, and then another without levels. -/
theorem Reads.last (hx : x.Reads n s a r) (hf : (f a).Reads 0 r b w) :
    (x >>= f).Reads n s b w :=
  (hx.bind hf).cast (max_eq_left zero_le)

theorem Reads.map {g : α → β} (hx : x.Reads n s a r) : (g <$> x).Reads n s (g a) r := by
  intro p hp
  constructor
  · intro hn
    obtain ⟨c, hc, run⟩ := (hx p hp).1 hn
    refine ⟨c, hc, ?_⟩
    change EStateM.map g x p = _
    rw [EStateM.map, run]
  · intro hn
    obtain ⟨e, q, run⟩ := (hx p hp).2 hn
    refine ⟨e, q, ?_⟩
    change EStateM.map g x p = _
    rw [EStateM.map, run]

theorem Reads.discard (hx : x.Reads n s a r) : (Functor.discard x).Reads n s () r := hx.map

/-- A step one level deeper needs one level more. -/
theorem Reads.descend (hx : x.Reads n s a r) : (descend x).Reads (1 + n) s a r := by
  intro p hp
  have deeper := hx { p with depth := p.depth + 1 } hp
  have room : (1 + n ≤ (p.room : ℕ∞)) ↔
      p.depth < p.limit ∧ n ≤ (({ p with depth := p.depth + 1 } : Parser).room : ℕ∞) := by
    cases n with
    | top => simp
    | coe n =>
      simp only [Parser.room]
      norm_cast
      omega
  unfold Parse.descend
  constructor
  · intro hn
    obtain ⟨open', hn⟩ := room.1 hn
    obtain ⟨c, hc, run⟩ := deeper.1 hn
    refine ⟨c, hc, ?_⟩
    simp [open', run]
  · intro hn
    by_cases open' : p.depth < p.limit
    · obtain ⟨e, q, run⟩ := deeper.2 fun h => hn (room.2 ⟨open', h⟩)
      exact ⟨e, _, by simp only [open', ↓reduceIte, run]; rfl⟩
    · exact ⟨_, _, by simp only [open', ↓reduceIte]; rfl⟩

/-! ### Looking ahead -/

theorem reads_peek (s : List Spelled) : peek.Reads 0 s (kindAt s 0) s := by
  intro p hp
  refine ⟨fun _ => ⟨p.cursor, hp, ?_⟩, fun h => absurd zero_le h⟩
  rw [peek, hp.kind]

theorem reads_peekAt (n : Nat) (s : List Spelled) : (peekAt n).Reads 0 s (kindAt s n) s := by
  intro p hp
  refine ⟨fun _ => ⟨p.cursor, hp, ?_⟩, fun h => absurd zero_le h⟩
  rw [peekAt, hp.peekAt]

theorem reads_atEnd (s : List Spelled) : atEnd.Reads 0 s s.isEmpty s := by
  intro p hp
  refine ⟨fun _ => ⟨p.cursor, hp, ?_⟩, fun h => absurd zero_le h⟩
  rw [atEnd, hp.atEnd]

theorem reads_remaining (s : List Spelled) : remaining.Reads 0 s s.length s := by
  intro p hp
  refine ⟨fun _ => ⟨p.cursor, hp, ?_⟩, fun h => absurd zero_le h⟩
  rw [remaining, Cursor.remaining, hp.length]

/-- What follows a look at the current token can use all of it but its place. -/
theorem Reads.current {f : Token → Parse β} {t : Spelled}
    (h : ∀ token, token.spelled = t → (f token).Reads n (t :: s) b r) :
    (Parse.current >>= f).Reads n (t :: s) b r :=
  fun p hp => h p.cursor.current hp.current p hp

/-- What follows a step over the current token can use all of it but its place. -/
theorem Reads.advance {f : Token → Parse β} {t : Spelled}
    (h : ∀ token, token.spelled = t → (f token).Reads n s b r) :
    (Parse.advance >>= f).Reads n (t :: s) b r :=
  fun p hp => h p.cursor.current hp.current { p with cursor := p.cursor.advance } hp.advance

theorem reads_discard_advance (t : Spelled) (s : List Spelled) :
    (discard Parse.advance).Reads 0 (t :: s) () s := by
  intro p hp
  exact ⟨fun _ => ⟨p.cursor.advance, hp.advance, rfl⟩, fun h => absurd zero_le h⟩

theorem reads_skip (ts s : List Spelled) : (skip ts.length).Reads 0 (ts ++ s) () s := by
  induction ts with
  | nil => exact .pure () s
  | cons t ts ih => exact (reads_discard_advance t (ts ++ s)).next ih

theorem reads_sees (t : Terminal) (s : List Spelled) :
    (sees t).Reads 0 s (t.admits (kindAt s 0)) s :=
  (reads_peek s).next (.pure _ s)

theorem reads_seesAt (n : Nat) (t : Terminal) (s : List Spelled) :
    (seesAt n t).Reads 0 s (t.admits (kindAt s n)) s :=
  (reads_peekAt n s).next (.pure _ s)

/-! ### Terminals -/

theorem reads_accept {t : Terminal} {u : Spelled} (h : t.admits u.kind = true)
    (s : List Spelled) : (accept t).Reads 0 (u :: s) true s := by
  refine .next (reads_sees t (u :: s)) ?_
  rw [kindAt_cons_zero, h]
  exact (reads_discard_advance u s).next (.pure true s)

theorem reads_accept_none {t : Terminal} {s : List Spelled} (h : t.admits (kindAt s 0) = false) :
    (accept t).Reads 0 s false s := by
  refine .next (reads_sees t s) ?_
  rw [h]
  exact .pure false s

theorem reads_expect {t : Terminal} {u : Spelled} (h : t.admits u.kind = true)
    (s : List Spelled) : (expect t).Reads 0 (u :: s) () s :=
  (reads_accept h s).next (.pure () s)

/-- Where the terminal `t` is not ahead, the step that needs it fails. -/
theorem reads_expect_none {t : Terminal} {s r : List Spelled} {u : Unit}
    (h : t.admits (kindAt s 0) = false) : (expect t).Reads ⊤ s u r := by
  refine (reads_accept_none h).next ?_
  exact reads_top fun p _ => ⟨_, _, rfl⟩

/-- A choice takes the branch of the terminal that is ahead. -/
theorem Reads.accepted {t : Terminal} {u : Spelled} {y : Parse β} {z : Parse β}
    (h : t.admits u.kind = true) (hy : y.Reads n s b r) :
    (accept t >>= fun found => if found = true then y else z).Reads n (u :: s) b r :=
  (reads_accept h s).next hy

/-- A choice takes the other branch where the terminal is not ahead. -/
theorem Reads.rejected {t : Terminal} {y : Parse β} {z : Parse β}
    (h : t.admits (kindAt s 0) = false) (hz : z.Reads n s b r) :
    (accept t >>= fun found => if found = true then y else z).Reads n s b r :=
  (reads_accept_none h).next hz

theorem Reads.seen {t : Terminal} {y : Parse β} {z : Parse β}
    (h : t.admits (kindAt s 0) = true) (hy : y.Reads n s b r) :
    (sees t >>= fun found => if found = true then y else z).Reads n s b r := by
  refine (reads_sees t s).next ?_
  rwa [if_pos h]

theorem Reads.unseen {t : Terminal} {y : Parse β} {z : Parse β}
    (h : t.admits (kindAt s 0) = false) (hz : z.Reads n s b r) :
    (sees t >>= fun found => if found = true then y else z).Reads n s b r := by
  refine (reads_sees t s).next ?_
  rwa [h]

theorem Reads.optional_some {t : Terminal} {u : Spelled} {y : Parse α}
    (h : t.admits u.kind = true) (hy : y.Reads n s a r) :
    (optional t y).Reads n (u :: s) (some a) r :=
  .accepted h (hy.last (.pure _ r))

theorem Reads.optional_none {t : Terminal} {y : Parse α} (h : t.admits (kindAt s 0) = false) :
    (optional t y).Reads 0 s none s :=
  .rejected h (.pure none s)

theorem Reads.optionalList_some {t : Terminal} {u : Spelled} {y : Parse (List α)} {as : List α}
    (h : t.admits u.kind = true) (hy : y.Reads n s as r) :
    (optionalList t y).Reads n (u :: s) as r :=
  .accepted h hy

theorem Reads.optionalList_none {t : Terminal} {y : Parse (List α)}
    (h : t.admits (kindAt s 0) = false) : (optionalList t y).Reads 0 s [] s :=
  .rejected h (.pure [] s)

/-- What stands between two symbols. -/
theorem Reads.between {opening closing : Symbol} {y : Parse α} {u v : Spelled}
    (hu : (Terminal.symbol opening).admits u.kind = true)
    (hv : (Terminal.symbol closing).admits v.kind = true) (hy : y.Reads n s a (v :: r)) :
    (between opening closing y).Reads n (u :: s) a r :=
  (reads_expect hu s).next (hy.last ((reads_expect hv r).next (.pure a r)))

end Parse

end CanonicalSql
