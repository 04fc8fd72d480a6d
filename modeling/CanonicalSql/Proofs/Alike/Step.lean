import CanonicalSql.Parser.Grammar
import CanonicalSql.Parser.Name
import CanonicalSql.Proofs.Course.Construct
import CanonicalSql.Proofs.Reading.Token

/-! Two runs of a step over token vectors that go together.  A `Likeness` says which tokens go together:
they are of one kind and have one text, and they may differ in their places.  The second vector may also go
on with a semicolon or a closing parenthesis where the first one ends; a step that gives a result over the
first vector then gives the same one over the second, since a rule that looks for one of them is refused at
the end, and no other rule tells them from the end or looks at what is behind them.  `Likeness.Alike` says
this of a pair of steps. -/

namespace CanonicalSql

/-- Whether a token of this kind closes what is in front of it: a semicolon or a closing parenthesis. -/
def Token.Kind.Closes (k : Token.Kind) : Prop := k = .symbol .semicolon ∨ k = .symbol .rightParen

/-- A terminal that closes nothing. -/
class Terminal.Inside (t : Terminal) : Prop where
  silent : ∀ {k : Token.Kind}, k.Closes → t.admits k = false

/-- A terminal that is neither a semicolon nor a closing parenthesis. -/
theorem Terminal.Inside.of_ne {t : Terminal} (semicolon : t ≠ Symbol.semicolon)
    (paren : t ≠ Symbol.rightParen) : t.Inside where
  silent := by
    have other : ∀ s : Symbol, t ≠ s → t.admits (.symbol s) = false := by
      intro s ne
      cases t with
      | keyword | word => rfl
      | symbol s' => exact decide_eq_false fun h => ne (h ▸ rfl)
    rintro k (rfl | rfl)
    · exact other _ semicolon
    · exact other _ paren

instance (k : Keyword) : Terminal.Inside k := .of_ne nofun nofun
instance (w : Word) : Terminal.Inside w := .of_ne nofun nofun
instance : Terminal.Inside Symbol.plus := .of_ne nofun nofun
instance : Terminal.Inside Symbol.minus := .of_ne nofun nofun
instance : Terminal.Inside Symbol.star := .of_ne nofun nofun
instance : Terminal.Inside Symbol.equal := .of_ne nofun nofun
instance : Terminal.Inside Symbol.dot := .of_ne nofun nofun
instance : Terminal.Inside Symbol.comma := .of_ne nofun nofun
instance : Terminal.Inside Symbol.leftParen := .of_ne nofun nofun
instance : Terminal.Inside Symbol.rightBracket := .of_ne nofun nofun

/-- Which tokens of two vectors go together. -/
structure Likeness where
  like : Token → Token → Prop
  kind_eq : ∀ {t t' : Token}, like t t' → t'.kind = t.kind
  text_eq : ∀ {t t' : Token}, like t t' → t'.text = t.text
  /-- The tokens of the second vector from the place on where the first one has its mark of the end; none
  if the second vector ends there as well. -/
  beyond : List Token

namespace Likeness

variable {L : Likeness}

/-- Whether two vectors go together, token by token up to the mark of the end. -/
inductive Tokens (L : Likeness) : List Token → List Token → Prop
  | mark {t t' : Token} : t.kind = .eof → L.like t t' → L.beyond = [] → Tokens L [t] [t']
  | beyond {t s : Token} {rest : List Token} : t.kind = .eof → s.kind.Closes →
      L.beyond = s :: rest → Tokens L [t] (s :: rest)
  | next {t t' : Token} {ts ts' : List Token} : t.kind ≠ .eof → L.like t t' → Tokens L ts ts' →
      Tokens L (t :: ts) (t' :: ts')

/-- Whether the tokens from two cursors on go together. -/
def Beside (L : Likeness) (c d : Cursor) : Prop := L.Tokens c.upcoming d.upcoming

/-- A terminal that is told from the end alike on both sides: what closes may stand where the first vector
ends. -/
class Told (L : Likeness) (t : Terminal) : Prop where
  inside_or_closed : t.Inside ∨ L.beyond = []

instance {L : Likeness} {t : Terminal} [inside : t.Inside] : L.Told t := ⟨.inl inside⟩

/-- Whether two errors are about tokens that go together. -/
inductive Errors (L : Likeness) : ParseError → ParseError → Prop
  | unexpected {t t' : Token} (expected : Expectation) :
      L.like t t' → Errors L (.unexpected t expected) (.unexpected t' expected)
  | tooDeep {t t' : Token} (limit : Nat) :
      L.like t t' → Errors L (.tooDeep t.position limit) (.tooDeep t'.position limit)

namespace Tokens

variable {ts ts' us us' : List Token}

theorem ne_nil (h : L.Tokens ts ts') : ts ≠ [] ∧ ts' ≠ [] := by
  cases h <;> simp

/-- The second vector is longer by what stands beyond the end of the first. -/
theorem length (h : L.Tokens ts ts') : ts'.length + 1 = ts.length + max 1 L.beyond.length := by
  induction h with
  | mark _ _ closed => simp [closed]
  | beyond _ _ more => simp [more, Nat.add_comm]
  | next _ _ _ ih =>
    simp only [List.length_cons]
    omega

/-- Tokens that go together may stand in front of vectors that do. -/
theorem append {f : Token → Token} (first : ∀ t ∈ ts, t.kind ≠ .eof ∧ L.like t (f t))
    (rest : L.Tokens us us') : L.Tokens (ts ++ us) (ts.map f ++ us') := by
  induction ts with
  | nil => exact rest
  | cons t ts ih =>
    rw [List.forall_mem_cons] at first
    exact .next first.1.1 first.1.2 (ih first.2)

end Tokens

/-! ### Cursors -/

namespace Beside

variable {c d : Cursor}

/-- Only a mark of the end is the last token of the first vector. -/
theorem atEnd_iff (h : L.Beside c d) : c.current.kind = .eof ↔ c.remaining = 0 := by
  obtain ⟨passed, current, ahead⟩ := c
  obtain ⟨passed', current', ahead'⟩ := d
  unfold Beside Cursor.upcoming at h
  cases h with
  | mark ended | beyond ended => simpa [Cursor.remaining] using ended
  | next inside _ more =>
    refine iff_of_false inside fun none => ?_
    exact more.ne_nil.1 (List.length_eq_zero_iff.1 none)

theorem like (h : L.Beside c d) (hk : c.current.kind ≠ .eof) : L.like c.current d.current := by
  obtain ⟨passed, current, ahead⟩ := c
  obtain ⟨passed', current', ahead'⟩ := d
  unfold Beside Cursor.upcoming at h
  cases h with
  | mark ended | beyond ended => exact absurd ended hk
  | next _ alike => exact alike

/-- Where both vectors end together, their marks of the end go together as well. -/
theorem like_of_closed (h : L.Beside c d) (closed : L.beyond = []) :
    L.like c.current d.current := by
  obtain ⟨passed, current, ahead⟩ := c
  obtain ⟨passed', current', ahead'⟩ := d
  unfold Beside Cursor.upcoming at h
  cases h with
  | mark _ alike => exact alike
  | beyond _ _ more => simp [closed] at more
  | next _ alike => exact alike

/-- Where the first vector ends, the second one ends or goes on with what closes. -/
theorem ended (h : L.Beside c d) (hk : c.current.kind = .eof) :
    (L.beyond = [] ∧ d.current.kind = .eof) ∨ (L.beyond = d.upcoming ∧ d.current.kind.Closes) := by
  obtain ⟨passed, current, ahead⟩ := c
  obtain ⟨passed', current', ahead'⟩ := d
  unfold Beside Cursor.upcoming at h
  cases h with
  | mark _ alike closed => exact .inl ⟨closed, (L.kind_eq alike).trans hk⟩
  | beyond _ closes more => exact .inr ⟨more, closes⟩
  | next inside => exact absurd hk inside

/-- What is told from the kind of the current token is the same on both sides, if the end is told from
nothing that closes. -/
theorem told {α : Type} (h : L.Beside c d) (look : Token.Kind → α)
    (silent : ∀ k : Token.Kind, k.Closes → look k = look .eof) :
    look d.current.kind = look c.current.kind := by
  by_cases hk : c.current.kind = .eof
  · rcases h.ended hk with ⟨-, hd⟩ | ⟨-, closes⟩
    · rw [hk, hd]
    · rw [hk, silent _ closes]
  · rw [L.kind_eq (h.like hk)]

/-- A token that is no mark of the end is passed over on both sides. -/
theorem advance (h : L.Beside c d) (hk : c.current.kind ≠ .eof) :
    L.Beside c.advance d.advance ∧ c.upcoming = c.current :: c.advance.upcoming ∧
      d.upcoming = d.current :: d.advance.upcoming := by
  have alike := h.like hk
  obtain ⟨passed, current, ahead⟩ := c
  obtain ⟨passed', current', ahead'⟩ := d
  unfold Beside Cursor.upcoming at h
  cases h with
  | mark ended | beyond ended => exact absurd ended hk
  | next inside _ more =>
    obtain ⟨some, some'⟩ := more.ne_nil
    have inside' : current'.kind ≠ .eof := (L.kind_eq alike).trans_ne hk
    obtain ⟨next, ahead, rfl⟩ := List.exists_cons_of_ne_nil some
    obtain ⟨next', ahead', rfl⟩ := List.exists_cons_of_ne_nil some'
    simp only [Cursor.advance, if_neg hk, if_neg inside']
    exact ⟨more, rfl, rfl⟩

theorem remaining_advance (h : L.Beside c d) (hk : c.current.kind ≠ .eof) :
    c.remaining = c.advance.remaining + 1 :=
  Cursor.remaining_cons (h.advance hk).2.1

theorem remaining_add (h : L.Beside c d) :
    d.remaining + 1 = c.remaining + max 1 L.beyond.length := by
  have whole := Tokens.length h
  simp only [Cursor.upcoming, List.length_cons] at whole
  unfold Cursor.remaining
  omega

theorem remaining_le (h : L.Beside c d) : c.remaining ≤ d.remaining := by
  have whole := h.remaining_add
  omega

theorem remaining_eq (h : L.Beside c d) (closed : L.beyond = []) : c.remaining = d.remaining := by
  have whole := h.remaining_add
  simp only [closed, List.length_nil] at whole
  omega

/-- Whether a terminal is the current token is the same on both sides. -/
theorem admits (h : L.Beside c d) (t : Terminal) [told : L.Told t] :
    t.admits d.current.kind = t.admits c.current.kind := by
  rcases told.inside_or_closed with inside | closed
  · exact h.told t.admits fun k closes => by rw [inside.silent closes, t.admits_eof]
  · rw [L.kind_eq (h.like_of_closed closed)]

/-- Up to the end of the first vector the tokens ahead go together. -/
theorem ahead (h : L.Beside c d) {n : ℕ} (hn : n ≤ c.remaining) :
    ∃ c' d', L.Beside c' d' ∧ c'.current = c.peekAt n ∧ d'.current = d.peekAt n ∧
      c'.remaining + n = c.remaining := by
  induction n generalizing c d with
  | zero => exact ⟨c, d, h, rfl, rfl, rfl⟩
  | succ n ih =>
    have hk : c.current.kind ≠ .eof := fun he => by
      have none := h.atEnd_iff.1 he
      omega
    obtain ⟨behind, first, first'⟩ := h.advance hk
    have less := h.remaining_advance hk
    obtain ⟨c', d', beside, hc, hd, moved⟩ := ih behind (by omega)
    refine ⟨c', d', beside, ?_, ?_, by omega⟩
    · rw [hc, Cursor.peekAt, Cursor.peekAt, first, Cursor.last_advance]
      rfl
    · rw [hd, Cursor.peekAt, Cursor.peekAt, first', Cursor.last_advance]
      rfl

/-- Whether a terminal that closes nothing stands at a place ahead is the same on both sides, and where
it stands there is more behind it. -/
theorem admits_ahead (h : L.Beside c d) {n : ℕ} (hn : n ≤ c.remaining) (t : Terminal) [t.Inside] :
    t.admits (d.peekAt n).kind = t.admits (c.peekAt n).kind ∧
      (t.admits (c.peekAt n).kind = true → n + 1 ≤ c.remaining) := by
  obtain ⟨c', d', beside, hc, hd, moved⟩ := h.ahead hn
  rw [← hc, ← hd]
  refine ⟨beside.admits t, fun found => ?_⟩
  have some := mt beside.atEnd_iff.2 (Terminal.silent found).2
  omega

/-- Whether some terminals, none of which closes anything, follow one another is the same on both sides, and
where they do there is more behind them. -/
theorem facesAt (h : L.Beside c d) {ts : List Terminal}
    (others : ∀ t ∈ ts, t ≠ Symbol.semicolon ∧ t ≠ Symbol.rightParen) {n : ℕ} (hn : n ≤ c.remaining) :
    d.facesAt n ts = c.facesAt n ts ∧
      (c.facesAt n ts = true → n + ts.length ≤ c.remaining) := by
  induction ts generalizing n with
  | nil => exact ⟨rfl, fun _ => hn⟩
  | cons t ts ih =>
    rw [List.forall_mem_cons] at others
    have : t.Inside := .of_ne others.1.1 others.1.2
    obtain ⟨same, more⟩ := h.admits_ahead hn t
    simp only [Cursor.facesAt, same, List.length_cons]
    cases found : t.admits (c.peekAt n).kind with
    | false => exact ⟨rfl, fun no => by cases no⟩
    | true =>
      obtain ⟨same', more'⟩ := ih others.2 (more found)
      simp only [Bool.true_and]
      exact ⟨same', fun all => by have := more' all; omega⟩

end Beside

/-! ### Where a construct can end -/

end Likeness

/-- Whether nothing but an end or something that closes is in front of the cursor. -/
def Cursor.Done (c : Cursor) : Prop := c.current.kind = .eof ∨ c.current.kind.Closes

/-- Whether a step gives `a` where nothing more is in front of it, and passes over nothing there. -/
def Parse.Idle {α : Type} (x : Parse α) (a : α) : Prop := ∀ p : Parser, p.cursor.Done → x p = .ok a p

namespace Parse.Idle

variable {α β : Type} {x y : Parse α} {f : α → Parse β} {a : α} {b : β} {t : Terminal}

theorem pure (a : α) : (Pure.pure a : Parse α).Idle a := fun _ _ => rfl

theorem bind (hx : x.Idle a) (hf : (f a).Idle b) : (x >>= f).Idle b := by
  intro p done
  change EStateM.bind x f p = _
  rw [EStateM.bind, hx p done]
  exact hf p done

theorem sees (t : Terminal) [inside : t.Inside] : (Parse.sees t).Idle false := by
  intro p done
  have silent : t.admits p.cursor.current.kind = false :=
    done.elim (fun ended => by rw [ended, t.admits_eof]) inside.silent
  exact congrArg (EStateM.Result.ok · p) silent

theorem accept (t : Terminal) [t.Inside] : (Parse.accept t).Idle false :=
  .bind (.sees t) (.pure false)

theorem peek {f : Token.Kind → Parse β} (ended : (f .eof).Idle b)
    (semicolon : (f (.symbol .semicolon)).Idle b) (paren : (f (.symbol .rightParen)).Idle b) :
    (Parse.peek >>= f).Idle b := by
  intro p done
  change f p.cursor.current.kind p = _
  rcases id done with hk | hk | hk <;> rw [hk]
  · exact ended p done
  · exact semicolon p done
  · exact paren p done

theorem peekAt {n : ℕ} {f : Token.Kind → Parse β} (hf : ∀ k, (f k).Idle b) :
    (Parse.peekAt n >>= f).Idle b :=
  fun p done => hf (p.cursor.peekAt n).kind p done

theorem commaItems (item : Parse α) (count : ℕ) : (Parse.commaItems item count).Idle [] := by
  cases count with
  | zero => exact .pure []
  | succ count => exact .bind (.accept _) (.pure [])

end Parse.Idle

/-- Whether a step is refused at the end. -/
def Parse.Refuses {α : Type} (x : Parse α) : Prop :=
  ∀ p : Parser, p.cursor.current.kind = .eof → ∃ e q, x p = .error e q

namespace Parse.Refuses

variable {α β : Type} {x : Parse α} {f : α → Parse β} {t : Terminal}

theorem fail (expected : Expectation) : (Parse.fail expected : Parse α).Refuses := fun p _ => ⟨_, p, rfl⟩

theorem bind (hx : x.Refuses) : (x >>= f).Refuses := by
  intro p ended
  obtain ⟨e, q, run⟩ := hx p ended
  exact ⟨e, q, bind_of_error run⟩

theorem descend (hx : x.Refuses) : (Parse.descend x).Refuses := by
  intro p ended
  unfold Parse.descend
  split
  · obtain ⟨e, q, run⟩ := hx { p with depth := p.depth + 1 } ended
    rw [run]
    exact ⟨_, _, rfl⟩
  · exact ⟨_, _, rfl⟩

/-- No terminal stands at the end. -/
theorem accept {f : Bool → Parse β} (hf : (f false).Refuses) : (Parse.accept t >>= f).Refuses := by
  intro p ended
  rw [bind_of_ok (accept_of_not_admits (by rw [ended, t.admits_eof]))]
  exact hf p ended

theorem peek {f : Token.Kind → Parse β} (hf : (f .eof).Refuses) : (Parse.peek >>= f).Refuses := by
  intro p ended
  change ∃ e q, f p.cursor.current.kind p = .error e q
  rw [ended]
  exact hf p ended

end Parse.Refuses

namespace Likeness

open Parse

variable {L : Likeness} {α β γ δ : Type}

/-! ### Steps -/

/-- What is asked of two results: the results, and the cursor behind the first one. -/
abbrev Ask (α β : Type) : Type := α → β → Cursor → Prop

/-- How two steps end that were started at `depth` within `limit`, the first one at the cursor `c`: with
results as asked and at cursors whose tokens go together, or with errors about tokens that go together.
If the second vector goes on, nothing is said where the first step fails. -/
inductive Ends (L : Likeness) (Q : Ask α β) (c : Cursor) (depth limit : Nat) :
    EStateM.Result ParseError Parser α → EStateM.Result ParseError Parser β → Prop
  | result {a : α} {b : β} {c' d' : Cursor} : Q a b c' → L.Beside c' d' →
      c'.remaining ≤ c.remaining → Ends L Q c depth limit (.ok a ⟨c', depth, limit⟩)
        (.ok b ⟨d', depth, limit⟩)
  | refusal {e e' : ParseError} {p q : Parser} : L.beyond = [] → L.Errors e e' →
      Ends L Q c depth limit (.error e p) (.error e' q)
  | cut {e : ParseError} {p : Parser} {r : EStateM.Result ParseError Parser β} : L.beyond ≠ [] →
      Ends L Q c depth limit (.error e p) r

/-- Whether two steps end alike from two cursors on, with results as asked. -/
def AlikeAt (L : Likeness) (Q : Ask α β) (x : Parse α) (y : Parse β) (c d : Cursor) : Prop :=
  L.Beside c d → ∀ depth limit, L.Ends Q c depth limit (x ⟨c, depth, limit⟩) (y ⟨d, depth, limit⟩)

/-- What is asked of results that are to be the same. -/
abbrev Same (α : Type) : Ask α α := fun a b _ => a = b

/-- Whether two steps end alike wherever they start, with the same results. -/
def Alike (L : Likeness) (x y : Parse α) : Prop := ∀ c d, L.AlikeAt (Same α) x y c d

section

variable {Q Q' : Ask α β} {R : Ask γ δ} {x : Parse α} {y : Parse β} {f : α → Parse γ}
  {g : β → Parse δ} {c d : Cursor}

theorem AlikeAt.mono (h : L.AlikeAt Q x y c d) (hQ : ∀ a b c', Q a b c' → Q' a b c') :
    L.AlikeAt Q' x y c d := by
  intro beside depth limit
  have ends := h beside depth limit
  revert ends
  generalize x ⟨c, depth, limit⟩ = r
  generalize y ⟨d, depth, limit⟩ = s
  rintro (⟨q, behind, less⟩ | ⟨closed, errors⟩ | more)
  · exact .result (hQ _ _ _ q) behind less
  · exact .refusal closed errors
  · exact .cut more

/-- Steps only move on. -/
theorem AlikeAt.onward (h : L.AlikeAt Q x y c d) :
    L.AlikeAt (fun a b c' => Q a b c' ∧ c'.remaining ≤ c.remaining) x y c d := by
  intro beside depth limit
  have ends := h beside depth limit
  revert ends
  generalize x ⟨c, depth, limit⟩ = r
  generalize y ⟨d, depth, limit⟩ = s
  rintro (⟨q, behind, less⟩ | ⟨closed, errors⟩ | more)
  · exact .result ⟨q, less⟩ behind less
  · exact .refusal closed errors
  · exact .cut more

theorem AlikeAt.pure {a : α} {b : β} (h : Q a b c) :
    L.AlikeAt Q (Pure.pure a) (Pure.pure b) c d :=
  fun beside _ _ => .result h beside le_rfl

theorem AlikeAt.fail (expected : Expectation) :
    L.AlikeAt Q (Parse.fail expected) (Parse.fail expected) c d := by
  intro beside depth limit
  by_cases closed : L.beyond = []
  · exact .refusal closed (.unexpected expected (beside.like_of_closed closed))
  · exact .cut closed

theorem AlikeAt.failAt {t t' : Token} (expected : Expectation) (h : L.beyond = [] → L.like t t') :
    L.AlikeAt Q (Parse.failAt t expected) (Parse.failAt t' expected) c d := by
  intro _ depth limit
  by_cases closed : L.beyond = []
  · exact .refusal closed (.unexpected expected (h closed))
  · exact .cut closed

/-- One step after another. -/
theorem AlikeAt.bind (hx : L.AlikeAt Q x y c d)
    (hf : ∀ a b c' d', Q a b c' → c'.remaining ≤ c.remaining → L.AlikeAt R (f a) (g b) c' d') :
    L.AlikeAt R (x >>= f) (y >>= g) c d := by
  intro beside depth limit
  have first := hx beside depth limit
  change L.Ends R c depth limit (EStateM.bind x f _) (EStateM.bind y g _)
  unfold EStateM.bind
  revert first
  generalize x ⟨c, depth, limit⟩ = r
  generalize y ⟨d, depth, limit⟩ = s
  intro first
  cases first with
  | result q behind less =>
    have second := hf _ _ _ _ q less behind depth limit
    dsimp only
    revert second
    generalize f _ ⟨_, depth, limit⟩ = r
    generalize g _ ⟨_, depth, limit⟩ = s
    rintro (⟨q, behind, less'⟩ | ⟨closed, errors⟩ | more)
    · exact .result q behind (less'.trans less)
    · exact .refusal closed errors
    · exact .cut more
  | refusal closed errors => exact .refusal closed errors
  | cut more => exact .cut more

/-- A step one level deeper.  Both sides have as many levels left. -/
theorem AlikeAt.descend (hx : L.AlikeAt Q x y c d) :
    L.AlikeAt Q (Parse.descend x) (Parse.descend y) c d := by
  intro beside depth limit
  unfold Parse.descend
  dsimp only
  split
  · have inside := hx beside (depth + 1) limit
    revert inside
    generalize x ⟨c, depth + 1, limit⟩ = r
    generalize y ⟨d, depth + 1, limit⟩ = s
    rintro (⟨q, behind, less⟩ | ⟨closed, errors⟩ | more)
    · exact .result q behind less
    · exact .refusal closed errors
    · exact .cut more
  · by_cases closed : L.beyond = []
    · exact .refusal closed (.tooDeep limit (beside.like_of_closed closed))
    · exact .cut closed

/-- Steps that pass over nothing, such as looks ahead. -/
theorem AlikeAt.look {a : α} {b : β} (hx : ∀ p : Parser, p.cursor = c → x p = .ok a p)
    (hy : ∀ p : Parser, p.cursor = d → y p = .ok b p) (hf : L.AlikeAt R (f a) (g b) c d) :
    L.AlikeAt R (x >>= f) (y >>= g) c d := by
  intro beside depth limit
  change L.Ends R c depth limit (EStateM.bind x f _) (EStateM.bind y g _)
  unfold EStateM.bind
  rw [hx _ rfl, hy _ rfl]
  exact hf beside depth limit

/-- Steps that do the same where they start. -/
theorem AlikeAt.congr {x' : Parse α} {y' : Parse β} (h : L.AlikeAt Q x y c d)
    (hx : ∀ p : Parser, p.cursor = c → x' p = x p) (hy : ∀ p : Parser, p.cursor = d → y' p = y p) :
    L.AlikeAt Q x' y' c d := by
  intro beside depth limit
  rw [hx _ rfl, hy _ rfl]
  exact h beside depth limit

/-- Steps that give results and pass over nothing. -/
theorem AlikeAt.of_eq {a : α} {b : β} (hx : ∀ p : Parser, p.cursor = c → x p = .ok a p)
    (hy : ∀ p : Parser, p.cursor = d → y p = .ok b p) (h : Q a b c) : L.AlikeAt Q x y c d := by
  intro beside depth limit
  rw [hx _ rfl, hy _ rfl]
  exact .result h beside le_rfl

/-- What is known where the steps start can be used of them. -/
theorem AlikeAt.of_beside (h : L.Beside c d → L.AlikeAt Q x y c d) : L.AlikeAt Q x y c d :=
  fun beside => h beside beside

end

section

variable {Q : Ask γ δ} {x y : Parse α} {c d : Cursor}

/-- A step over a token. -/
theorem AlikeAt.advance {f : Token → Parse γ} {g : Token → Parse δ} (hk : c.current.kind ≠ .eof)
    (hf : ∀ c' d', L.like c.current d.current → c.remaining = c'.remaining + 1 →
      L.AlikeAt Q (f c.current) (g d.current) c' d') :
    L.AlikeAt Q (Parse.advance >>= f) (Parse.advance >>= g) c d := by
  have moves : L.AlikeAt (fun a b c' => a = c.current ∧ b = d.current ∧
      L.like c.current d.current ∧ c.remaining = c'.remaining + 1) Parse.advance Parse.advance c d := by
    intro beside depth limit
    have less := beside.remaining_advance hk
    exact .result ⟨rfl, rfl, beside.like hk, less⟩ (beside.advance hk).1 (less ▸ Nat.le_succ _)
  refine moves.bind ?_
  rintro a b c' d' ⟨rfl, rfl, alike, less⟩ -
  exact hf c' d' alike less

theorem AlikeAt.discard_advance {f : Unit → Parse γ} {g : Unit → Parse δ}
    (hk : c.current.kind ≠ .eof)
    (hf : ∀ c' d', c.remaining = c'.remaining + 1 → L.AlikeAt Q (f ()) (g ()) c' d') :
    L.AlikeAt Q (discard Parse.advance >>= f) (discard Parse.advance >>= g) c d := by
  change L.AlikeAt Q (((fun _ => ()) <$> Parse.advance) >>= f)
    (((fun _ => ()) <$> Parse.advance) >>= g) c d
  simp only [map_eq_pure_bind, bind_assoc, pure_bind]
  exact .advance hk fun c' d' _ less => hf c' d' less

theorem AlikeAt.current {f : Token → Parse γ} {g : Token → Parse δ}
    (hf : L.AlikeAt Q (f c.current) (g d.current) c d) :
    L.AlikeAt Q (Parse.current >>= f) (Parse.current >>= g) c d :=
  .look (fun p hp => by rw [Parse.current, hp]) (fun p hp => by rw [Parse.current, hp]) hf

/-- A look at the current token.  Behind the end of the first vector stands a mark of the end or what closes,
which the second step has to take alike. -/
theorem AlikeAt.peek {f : Token.Kind → Parse γ} {g : Token.Kind → Parse δ}
    (silent : g (.symbol .semicolon) = g .eof ∧ g (.symbol .rightParen) = g .eof)
    (hf : L.AlikeAt Q (f c.current.kind) (g c.current.kind) c d) :
    L.AlikeAt Q (Parse.peek >>= f) (Parse.peek >>= g) c d := by
  refine .of_beside fun beside => .look (a := c.current.kind) (b := d.current.kind)
    (fun p hp => by rw [Parse.peek, hp]) (fun p hp => by rw [Parse.peek, hp]) ?_
  have same : g d.current.kind = g c.current.kind := beside.told g (by
    rintro k (rfl | rfl)
    · exact silent.1
    · exact silent.2)
  rw [same]
  exact hf

theorem AlikeAt.remaining {f : ℕ → Parse γ} {g : ℕ → Parse δ}
    (hf : c.remaining ≤ d.remaining → (L.beyond = [] → c.remaining = d.remaining) →
      L.AlikeAt Q (f c.remaining) (g d.remaining) c d) :
    L.AlikeAt Q (Parse.remaining >>= f) (Parse.remaining >>= g) c d :=
  .of_beside fun beside => .look (fun p hp => by rw [Parse.remaining, hp])
    (fun p hp => by rw [Parse.remaining, hp]) (hf beside.remaining_le beside.remaining_eq)

theorem AlikeAt.sees {t : Terminal} [L.Told t] {f : Bool → Parse γ} {g : Bool → Parse δ}
    (hf : L.AlikeAt Q (f (t.admits c.current.kind)) (g (t.admits c.current.kind)) c d) :
    L.AlikeAt Q (Parse.sees t >>= f) (Parse.sees t >>= g) c d := by
  refine .of_beside fun beside => .look (a := t.admits c.current.kind) (b := t.admits c.current.kind)
    (fun p hp => by rw [← hp]; rfl) (fun p hp => ?_) hf
  rw [← beside.admits t, ← hp]
  rfl

/-- A step over a terminal, if it is there. -/
theorem AlikeAt.accept {t : Terminal} [L.Told t] {f : Bool → Parse γ} {g : Bool → Parse δ}
    (some : t.admits c.current.kind = true → ∀ c' d', c.remaining = c'.remaining + 1 →
      L.AlikeAt Q (f true) (g true) c' d')
    (none : t.admits c.current.kind = false → L.AlikeAt Q (f false) (g false) c d) :
    L.AlikeAt Q (Parse.accept t >>= f) (Parse.accept t >>= g) c d := by
  simp only [Parse.accept, bind_assoc]
  refine .sees ?_
  cases found : t.admits c.current.kind with
  | true =>
    simp only [if_true, bind_assoc, pure_bind]
    exact .discard_advance ((Terminal.silent found).2) (some found)
  | false =>
    simp only [Bool.false_eq_true, if_false, pure_bind]
    exact none found

/-- A look for any terminal, if without it the first step is refused at the end. -/
theorem AlikeAt.sees_of_refused {t : Terminal} {f : Bool → Parse γ} {g : Bool → Parse δ}
    (refused : (f false).Refuses)
    (hf : L.AlikeAt Q (f (t.admits c.current.kind)) (g (t.admits c.current.kind)) c d) :
    L.AlikeAt Q (Parse.sees t >>= f) (Parse.sees t >>= g) c d := by
  by_cases closed : L.beyond = []
  · have : L.Told t := ⟨.inr closed⟩
    exact .sees hf
  by_cases ended : c.current.kind = .eof
  · intro _ depth limit
    obtain ⟨e, q, run⟩ := refused ⟨c, depth, limit⟩ ended
    have none : Parse.sees t ⟨c, depth, limit⟩ = .ok false ⟨c, depth, limit⟩ :=
      congrArg (EStateM.Result.ok · _) (by rw [ended, t.admits_eof])
    rw [bind_of_ok none, run]
    exact .cut closed
  · refine .of_beside fun beside => .look (a := t.admits c.current.kind) (b := t.admits c.current.kind)
      (fun p hp => by rw [← hp]; rfl) (fun p hp => ?_) hf
    rw [← L.kind_eq (beside.like ended), ← hp]
    rfl

/-- A step over a terminal that has to be there. -/
theorem AlikeAt.expect {t : Terminal} {f : Unit → Parse γ} {g : Unit → Parse δ}
    (hf : ∀ c' d', c.remaining = c'.remaining + 1 → L.AlikeAt Q (f ()) (g ()) c' d') :
    L.AlikeAt Q (Parse.expect t >>= f) (Parse.expect t >>= g) c d := by
  simp only [Parse.expect, Parse.accept, bind_assoc]
  refine .sees_of_refused (fun p _ => ⟨_, p, rfl⟩) ?_
  cases found : t.admits c.current.kind with
  | true =>
    simp only [if_true, bind_assoc, pure_bind]
    exact .discard_advance ((Terminal.silent found).2) hf
  | false =>
    simp only [Bool.false_eq_true, if_false, pure_bind]
    exact (AlikeAt.fail (Q := fun (_ _ : Unit) _ => False) t).bind fun _ _ _ _ no => no.elim

theorem AlikeAt.seesAllAt {n : ℕ} {ts : List Terminal} {f : Bool → Parse γ} {g : Bool → Parse δ}
    (others : ∀ t ∈ ts, t ≠ Symbol.semicolon ∧ t ≠ Symbol.rightParen) (hn : n ≤ c.remaining)
    (hf : (c.facesAt n ts = true → n + ts.length ≤ c.remaining) →
      L.AlikeAt Q (f (c.facesAt n ts)) (g (c.facesAt n ts)) c d) :
    L.AlikeAt Q (Parse.seesAllAt n ts >>= f) (Parse.seesAllAt n ts >>= g) c d := by
  refine .of_beside fun beside => ?_
  obtain ⟨same, more⟩ := beside.facesAt others hn
  exact .look (fun p hp => by rw [Parse.seesAllAt_eq, hp])
    (fun p hp => by rw [Parse.seesAllAt_eq, hp, same]) (hf more)

theorem AlikeAt.skip {count : ℕ} {f : Unit → Parse γ} {g : Unit → Parse δ}
    (hc : count ≤ c.remaining)
    (hf : ∀ c' d', c.remaining = c'.remaining + count → L.AlikeAt Q (f ()) (g ()) c' d') :
    L.AlikeAt Q (Parse.skip count >>= f) (Parse.skip count >>= g) c d := by
  induction count generalizing c d with
  | zero => simpa [Parse.skip] using hf c d rfl
  | succ count ih =>
    refine .of_beside fun beside => ?_
    have hk : c.current.kind ≠ .eof := fun he => by
      have none := beside.atEnd_iff.1 he
      omega
    simp only [Parse.skip, bind_assoc]
    exact .discard_advance hk fun c' d' less =>
      ih (by omega) fun c'' d'' less' => hf c'' d'' (by omega)

end

/-! ### Steps with the same result -/

namespace Alike

variable {x y x' y' : Parse α} {f g : α → Parse β} {t : Terminal} {ts : List Terminal}

theorem pure (a : α) : L.Alike (Pure.pure a) (Pure.pure a) := fun _ _ => .pure rfl

theorem fail (expected : Expectation) : L.Alike (α := α) (Parse.fail expected) (Parse.fail expected) :=
  fun _ _ => .fail expected

theorem bind (hx : L.Alike x y) (hf : ∀ a, L.Alike (f a) (g a)) : L.Alike (x >>= f) (y >>= g) := by
  refine fun c d => (hx c d).bind ?_
  rintro a b c' d' rfl -
  exact hf a c' d'

theorem map (h : α → β) (hx : L.Alike x y) : L.Alike (h <$> x) (h <$> y) := by
  simp only [map_eq_pure_bind]
  exact .bind hx fun a => .pure (h a)

theorem ite {b : Bool} (hx : L.Alike x x') (hy : L.Alike y y') :
    L.Alike (if b = true then x else y) (if b = true then x' else y') := by
  cases b
  · exact hy
  · exact hx

theorem descend (hx : L.Alike x y) : L.Alike (Parse.descend x) (Parse.descend y) :=
  fun c d => .descend (hx c d)

theorem failAt {t t' : Token} (expected : Expectation) (h : L.like t t') :
    L.Alike (α := α) (Parse.failAt t expected) (Parse.failAt t' expected) :=
  fun _ _ => .failAt expected fun _ => h

/-! ### Terminals -/

theorem peek {f g : Token.Kind → Parse β}
    (silent : g (.symbol .semicolon) = g .eof ∧ g (.symbol .rightParen) = g .eof)
    (hf : ∀ k, L.Alike (f k) (g k)) : L.Alike (Parse.peek >>= f) (Parse.peek >>= g) :=
  fun c d => .peek silent (hf _ c d)

theorem sees [L.Told t] {f g : Bool → Parse β} (hf : ∀ b, L.Alike (f b) (g b)) :
    L.Alike (Parse.sees t >>= f) (Parse.sees t >>= g) :=
  fun c d => .sees (hf _ c d)

/-- A choice by the current token. -/
theorem seen [L.Told t] (hx : L.Alike x x') (hy : L.Alike y y') :
    L.Alike (Parse.sees t >>= fun b => if b = true then x else y)
      (Parse.sees t >>= fun b => if b = true then x' else y') :=
  .sees fun _ => .ite hx hy

theorem accepted (t : Terminal) [L.Told t] : L.Alike (Parse.accept t) (Parse.accept t) := by
  intro c d
  rw [← bind_pure (Parse.accept t)]
  exact .accept (fun _ _ _ _ => .pure rfl) fun _ => .pure rfl

/-- A choice by any terminal, if without it the first step is refused at the end. -/
theorem seen_of_refused (refused : y.Refuses) (hx : L.Alike x x') (hy : L.Alike y y') :
    L.Alike (Parse.sees t >>= fun b => if b = true then x else y)
      (Parse.sees t >>= fun b => if b = true then x' else y') :=
  fun c d => .sees_of_refused refused (Alike.ite hx hy c d)

/-- A choice by the current token, which is passed over if it is the terminal. -/
theorem accept [L.Told t] (hx : L.Alike x x') (hy : L.Alike y y') :
    L.Alike (Parse.accept t >>= fun b => if b = true then x else y)
      (Parse.accept t >>= fun b => if b = true then x' else y') :=
  .bind (.accepted t) fun _ => .ite hx hy

theorem discard_accept [L.Told t] {f g : Unit → Parse β} (hf : L.Alike (f ()) (g ())) :
    L.Alike (discard (Parse.accept t) >>= f) (discard (Parse.accept t) >>= g) := by
  change L.Alike (((fun _ => ()) <$> Parse.accept t) >>= f) (((fun _ => ()) <$> Parse.accept t) >>= g)
  simp only [map_eq_pure_bind, bind_assoc, pure_bind]
  exact .bind (.accepted t) fun _ => hf

theorem expect {f g : Unit → Parse β} (hf : L.Alike (f ()) (g ())) :
    L.Alike (Parse.expect t >>= f) (Parse.expect t >>= g) :=
  fun _ _ => .expect fun c' d' _ => hf c' d'

theorem acceptAll (others : ∀ t ∈ ts, t ≠ Symbol.semicolon ∧ t ≠ Symbol.rightParen) :
    L.Alike (Parse.acceptAll ts) (Parse.acceptAll ts) := by
  intro c d
  refine .seesAllAt others (Nat.zero_le _) fun more => ?_
  split
  · next found => exact .skip (by simpa using more found) fun _ _ _ => .pure rfl
  · exact .pure rfl

theorem optional (t : Terminal) [L.Told t] (hx : L.Alike x y) :
    L.Alike (Parse.optional t x) (Parse.optional t y) :=
  .accept (.bind hx fun _ => .pure _) (.pure _)

theorem optionalList {x y : Parse (List α)} (t : Terminal) [L.Told t] (hx : L.Alike x y) :
    L.Alike (Parse.optionalList t x) (Parse.optionalList t y) :=
  .accept hx (.pure _)

theorem between (opening closing : Symbol) (hx : L.Alike x y) :
    L.Alike (Parse.between opening closing x) (Parse.between opening closing y) :=
  .expect (.bind hx fun _ => .expect (.pure _))

/-! ### Lists -/

end Alike

/-- Where the first vector ends, steps that pass over nothing there end alike. -/
theorem AlikeAt.idle {x y : Parse α} {a : α} {c d : Cursor} (ended : c.remaining = 0)
    (hx : x.Idle a) (hy : y.Idle a) : L.AlikeAt (Same α) x y c d := by
  refine .of_beside fun beside => ?_
  have last := beside.atEnd_iff.2 ended
  have last' := (beside.ended last).imp And.right And.right
  exact .of_eq (fun p hp => hx p (.inl (hp ▸ last))) (fun p hp => hy p (hp ▸ last')) rfl

/-- Two loops end alike if their rounds do.  Each round passes over a token at least, so the count is no
matter if it is not below the number of tokens. -/
theorem AlikeAt.loop {σ : Type} {x y : ℕ → σ → Parse α} {e : σ → α}
    (stopped : ∀ n s, (x n s).Idle (e s)) (stopped' : ∀ n s, (y n s).Idle (e s))
    (round : ∀ n m s c d,
      (∀ s c' d', c'.remaining < c.remaining → L.AlikeAt (Same α) (x n s) (y m s) c' d') →
        L.AlikeAt (Same α) (x (n + 1) s) (y (m + 1) s) c d)
    {n m : ℕ} {s : σ} {c d : Cursor} (hn : c.remaining ≤ n) (hm : c.remaining ≤ m) :
    L.AlikeAt (Same α) (x n s) (y m s) c d := by
  induction n generalizing m s c d with
  | zero => exact .idle (Nat.le_zero.1 hn) (stopped 0 s) (stopped' m s)
  | succ n ih =>
    cases m with
    | zero => exact .idle (Nat.le_zero.1 hm) (stopped (n + 1) s) (stopped' 0 s)
    | succ m => exact round n m s c d fun s c' d' less => ih (by omega) (by omega)

namespace Alike

variable {x y x' y' : Parse α}

/-- A loop over the tokens that are left. -/
theorem loop {σ : Type} {x y : ℕ → σ → Parse α} {e : σ → α}
    (stopped : ∀ n s, (x n s).Idle (e s)) (stopped' : ∀ n s, (y n s).Idle (e s))
    (round : ∀ n m s c d,
      (∀ s c' d', c'.remaining < c.remaining → L.AlikeAt (Same α) (x n s) (y m s) c' d') →
        L.AlikeAt (Same α) (x (n + 1) s) (y (m + 1) s) c d) (s : σ) :
    L.Alike (Parse.remaining >>= fun n => x n s) (Parse.remaining >>= fun n => y n s) := by
  intro c d
  exact .remaining fun less _ => .loop stopped stopped' round le_rfl less

theorem commaItems (hx : L.Alike x y) :
    L.Alike (Parse.remaining >>= Parse.commaItems x) (Parse.remaining >>= Parse.commaItems y) := by
  refine .loop (σ := Unit) (e := fun _ => []) (x := fun n _ => Parse.commaItems x n)
    (y := fun n _ => Parse.commaItems y n) (fun n _ => .commaItems x n) (fun n _ => .commaItems y n) ?_ ()
  intro n m _ c d others
  refine .accept (fun _ c1 d1 behind => (hx c1 d1).bind ?_) fun _ => .pure rfl
  rintro a _ c2 d2 rfl less
  refine (others () c2 d2 (by omega)).bind ?_
  rintro as _ c3 d3 rfl -
  exact .pure rfl

/-- What follows a loop. -/
theorem behind {x y : ℕ → Parse α} {f g : α → Parse β}
    (hx : L.Alike (Parse.remaining >>= x) (Parse.remaining >>= y)) (hf : ∀ a, L.Alike (f a) (g a)) :
    L.Alike (Parse.remaining >>= fun n => x n >>= f) (Parse.remaining >>= fun n => y n >>= g) := by
  have both := hx.bind hf
  simpa only [bind_assoc] using both

theorem commaList (hx : L.Alike x y) : L.Alike (Parse.commaList x) (Parse.commaList y) :=
  .bind hx fun first => .behind hx.commaItems fun others => .pure (first :: others)

theorem commaListUpTo (closing : Symbol) (refused : x.Refuses) (hx : L.Alike x y) :
    L.Alike (Parse.commaListUpTo closing x) (Parse.commaListUpTo closing y) :=
  .seen_of_refused refused.bind (.pure []) hx.commaList

end Alike

end Likeness

end CanonicalSql
