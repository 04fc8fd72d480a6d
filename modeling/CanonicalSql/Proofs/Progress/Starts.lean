import CanonicalSql.Proofs.Progress.Together

/-! Steps that pass over a token.  A rule that refers to another one behind its first token takes two
grammars that do the same to rules that do the same one token further from the end. -/

namespace CanonicalSql

namespace Parse

variable {α β : Type} {n : ℕ} {x x' y y' : Parse α} {f g : α → Parse β} {Q : α → Prop} {R : β → Prop}
  {t : Terminal} {k : Token.Kind}

theorem exists_of_bind {p r : Parser} {b : β} (run : (x >>= f) p = .ok b r) :
    ∃ a q, x p = .ok a q ∧ f a q = .ok b r := by
  cases first : x p with
  | error e q =>
    rw [bind_of_error first] at run
    cases run
  | ok a q =>
    rw [bind_of_ok first] at run
    exact ⟨a, q, rfl, run⟩

/-! ### Steps that pass over a token -/

/-- Whether the step passes over a token wherever it gives a result as asked. -/
def Advances (x : Parse α) (Q : α → Prop) : Prop :=
  ∀ p a q, p.cursor.Closed → x p = .ok a q → Q a → q.cursor.remaining < p.cursor.remaining

namespace Advances

theorem pure {a : α} (other : ¬ Q a) : Advances (Pure.pure a) Q := by
  intro p b q _ run asked
  cases run
  exact absurd asked other

theorem fail (expected : Expectation) : Advances (Parse.fail expected) Q := by
  intro p a q _ run
  cases run

theorem failAt (token : Token) (expected : Expectation) :
    Advances (Parse.failAt token expected) Q := by
  intro p a q _ run
  cases run

/-- The first of two steps passes over a token. -/
theorem first (h : Advances x fun _ => True) (hf : ∀ a, Planned (f a)) : Advances (x >>= f) R := by
  intro p b r closed run _
  obtain ⟨a, q, front, rest⟩ := exists_of_bind run
  exact ((hf a).onward rest).remaining.trans_lt (h p a q closed front trivial)

/-- The second of two steps passes over a token. -/
theorem second (hx : Planned x) (h : ∀ a, Advances (f a) R) : Advances (x >>= f) R := by
  intro p b r closed run asked
  obtain ⟨a, q, front, rest⟩ := exists_of_bind run
  have onward := hx.onward front
  exact (h a q b r (onward.closed closed) rest asked).trans_le onward.remaining

theorem ite {b : Bool} (hx : Advances x Q) (hy : Advances y Q) :
    Advances (if b = true then x else y) Q := by
  cases b with
  | true => exact hx
  | false => exact hy

theorem descend (h : Advances x Q) : Advances (Parse.descend x) Q := by
  intro p a r closed run asked
  unfold Parse.descend at run
  split at run
  · split at run
    · next b q inside =>
      cases run
      have less : q.cursor.remaining < p.cursor.remaining :=
        h { p with depth := p.depth + 1 } _ _ closed inside asked
      exact less
    · cases run
  · cases run

theorem accept {f : Bool → Parse β} (passed : Planned (f true)) (other : Advances (f false) R) :
    Advances (Parse.accept t >>= f) R := by
  intro p b r closed run asked
  cases found : t.admits p.cursor.current.kind with
  | false =>
    rw [bind_of_ok (accept_of_not_admits found)] at run
    exact other p b r closed run asked
  | true =>
    rw [bind_of_ok (accept_of_admits found)] at run
    have less := closed.remaining_advance (Terminal.silent found).2
    have behind : r.cursor.remaining ≤ p.cursor.advance.remaining := (passed.onward run).remaining
    omega

theorem expect {f : Unit → Parse β} (h : Planned (f ())) : Advances (Parse.expect t >>= f) R := by
  rw [Parse.expect, bind_assoc]
  exact accept h (first (.fail _) fun _ => h)

end Advances

/-! ### What stands behind a terminal -/

namespace Together

theorem accept_next {f g : Bool → Parse β} (passed : Together n (f true) (g true))
    (other : Together (n + 1) (f false) (g false)) :
    Together (n + 1) (Parse.accept t >>= f) (Parse.accept t >>= g) :=
  ⟨(accept passed (other.mono (Nat.le_succ n))).planned, .accept passed.agree other.agree⟩

theorem optional_next (h : Together n x y) :
    Together (n + 1) (Parse.optional t x) (Parse.optional t y) :=
  accept_next (.map some h) (.pure none)

theorem optionalList_next {x y : Parse (List α)} (h : Together n x y) :
    Together (n + 1) (Parse.optionalList t x) (Parse.optionalList t y) :=
  accept_next h (.pure [])

end Together

/-- Whether two steps do the same where at most `n` tokens are behind the current one, and pass over a token
wherever they give a result. -/
structure Starts (n : ℕ) (x y : Parse α) : Prop where
  together : Together (n + 1) x y
  advances : Advances x fun _ => True

namespace Starts

theorem fail (expected : Expectation) : Starts n (Parse.fail expected : Parse α) (Parse.fail expected) :=
  ⟨.fail expected, .fail expected⟩

theorem failAt (token : Token) (expected : Expectation) :
    Starts n (Parse.failAt token expected : Parse α) (Parse.failAt token expected) :=
  ⟨.failAt token expected, .failAt token expected⟩

/-- The first of two steps passes over a token. -/
theorem bind (h : Starts n x y) (hf : ∀ a, Together (n + 1) (f a) (g a)) :
    Starts n (x >>= f) (y >>= g) :=
  ⟨.bind h.together hf, .first h.advances fun a => (hf a).planned⟩

/-- The second of two steps passes over a token. -/
theorem second (h : Together (n + 1) x y) (hf : ∀ a, Starts n (f a) (g a)) :
    Starts n (x >>= f) (y >>= g) :=
  ⟨.bind h fun a => (hf a).together, .second h.planned fun a => (hf a).advances⟩

theorem ite {b : Bool} (hx : Starts n x y) (hy : Starts n x' y') :
    Starts n (if b = true then x else x') (if b = true then y else y') := by
  cases b with
  | true => exact hx
  | false => exact hy

theorem descend (h : Starts n x y) : Starts n (Parse.descend x) (Parse.descend y) :=
  ⟨h.together.descend, h.advances.descend⟩

theorem sees {f g : Bool → Parse β} (hf : ∀ b, Starts n (f b) (g b)) :
    Starts n (Parse.sees t >>= f) (Parse.sees t >>= g) :=
  second (.refl (.look fun c => t.admits c.current.kind)) hf

theorem accept {f g : Bool → Parse β} (passed : Together n (f true) (g true))
    (other : Starts n (f false) (g false)) :
    Starts n (Parse.accept t >>= f) (Parse.accept t >>= g) :=
  ⟨.accept_next passed other.together, .accept passed.planned other.advances⟩

theorem expect {f g : Unit → Parse β} (h : Together n (f ()) (g ())) :
    Starts n (Parse.expect t >>= f) (Parse.expect t >>= g) := by
  refine ⟨?_, .expect h.planned⟩
  rw [Parse.expect, bind_assoc, bind_assoc]
  refine .accept_next h ⟨?_, fun p _ _ => rfl⟩
  exact .bind (Together.fail (n := 0) _).planned fun _ => h.planned

theorem between {opening closing : Symbol} (h : Together n x y) :
    Starts n (Parse.between opening closing x) (Parse.between opening closing y) :=
  expect (.bind h fun a => .expect (.pure a))

theorem advance {f g : Token → Parse β}
    (passed : ∀ token, token.kind ≠ .eof → Together n (f token) (g token))
    (ended : ∀ token, token.kind = .eof → Starts n (f token) (g token)) :
    Starts n (Parse.advance >>= f) (Parse.advance >>= g) := by
  have plans : ∀ token, Planned (f token) := fun token =>
    if hk : token.kind = .eof then (ended token hk).together.planned else (passed token hk).planned
  refine ⟨⟨.bind ⟨.move, rfl⟩ plans, fun p closed near => ?_⟩, fun p b r closed run _ => ?_⟩
  all_goals
    have onward := (Parser.Step.move p).onward
    by_cases hk : p.cursor.current.kind = .eof
  · exact (ended _ hk).together.agree _ (onward.closed closed) (onward.remaining.trans_lt near)
  · have less := closed.remaining_advance hk
    refine (passed _ hk).agree _ (onward.closed closed) ?_
    show p.cursor.advance.remaining < n
    omega
  · exact ((ended _ hk).advances _ b r (onward.closed closed) run trivial).trans_le onward.remaining
  · have less := closed.remaining_advance hk
    have behind : r.cursor.remaining ≤ p.cursor.advance.remaining :=
      ((passed _ hk).planned.onward (p := { p with cursor := p.cursor.advance }) run).remaining
    omega

end Starts

/-! ### In front of a token that is known -/

/-- `Advances` where the current token is of the kind `k`. -/
def AdvancesAt (k : Token.Kind) (x : Parse α) : Prop :=
  ∀ p a q, p.cursor.current.kind = k → p.cursor.Closed → x p = .ok a q →
    q.cursor.remaining < p.cursor.remaining

namespace AdvancesAt

/-- A token that is no mark of the end is passed over. -/
theorem discard_advance (inside : k ≠ .eof) {f : Unit → Parse β} (h : Planned (f ())) :
    AdvancesAt k (discard Parse.advance >>= f) := by
  intro p b q hk closed run
  have less := closed.remaining_advance (hk.trans_ne inside)
  have behind : q.cursor.remaining ≤ p.cursor.advance.remaining :=
    (h.onward (p := { p with cursor := p.cursor.advance }) run).remaining
  omega

theorem discarded (inside : k ≠ .eof) : AdvancesAt k (discard Parse.advance) :=
  discard_advance inside (f := fun _ => Pure.pure ()) (.pure ())

theorem skip (inside : k ≠ .eof) {count : ℕ} (some : 0 < count) : AdvancesAt k (Parse.skip count) := by
  obtain ⟨count, rfl⟩ : ∃ m, count = m + 1 := ⟨count - 1, by omega⟩
  exact discard_advance inside (Together.skipped (n := 0) count).planned

end AdvancesAt

/-- `Starts` where the current token is of the kind `k`. -/
structure StartsAt (k : Token.Kind) (n : ℕ) (x y : Parse α) : Prop where
  planned : Planned x
  agree : ∀ p : Parser, p.cursor.current.kind = k → p.cursor.Closed → p.cursor.remaining < n + 1 →
    x p = y p
  advances : AdvancesAt k x

namespace StartsAt

theorem of_starts (h : Starts n x y) : StartsAt k n x y :=
  ⟨h.together.planned, fun p _ closed near => h.together.agree p closed near,
    fun p a q _ closed run => h.advances p a q closed run trivial⟩

theorem discard_advance (inside : k ≠ .eof) {f g : Unit → Parse β} (h : Together n (f ()) (g ())) :
    StartsAt k n (discard Parse.advance >>= f) (discard Parse.advance >>= g) := by
  refine ⟨(Together.discard_advance h).planned, fun p hk closed near => ?_,
    .discard_advance inside h.planned⟩
  have less := closed.remaining_advance (hk.trans_ne inside)
  refine h.agree { p with cursor := p.cursor.advance } ((Parser.Step.move p).onward.closed closed) ?_
  show p.cursor.advance.remaining < n
  omega

end StartsAt

theorem Starts.peek {f g : Token.Kind → Parse β} (hf : ∀ k, StartsAt k n (f k) (g k)) :
    Starts n (Parse.peek >>= f) (Parse.peek >>= g) :=
  ⟨⟨.bind (.look fun c => c.current.kind) fun k => (hf k).planned, fun p => (hf _).agree p rfl⟩,
    fun p b q closed run _ => (hf _).advances p b q rfl closed run⟩

end Parse

/-! ### Chains in front of a token that is known -/

namespace Chain

variable {α β : Type} {n : ℕ} {x y : Chain α} {f g : α → Chain β} {z : Parse α} {k : Token.Kind}

/-- `Agree` where the current token is of the kind `k`. -/
def AgreeAt (k : Token.Kind) (n : ℕ) (x y : Chain α) : Prop :=
  ∀ s : Linked, s.parser.cursor.current.kind = k → s.parser.cursor.Closed →
    s.parser.cursor.remaining < n → x s = y s

theorem Agree.peek {f g : Token.Kind → Chain β} (hf : ∀ k, AgreeAt k n (f k) (g k)) :
    Agree n (Chain.lift Parse.peek >>= f) (Chain.lift Parse.peek >>= g) :=
  fun s => hf _ s rfl

namespace AgreeAt

theorem refl (x : Chain α) : AgreeAt k n x x := fun _ _ _ _ => rfl

theorem peekAt {i : ℕ} {f g : Token.Kind → Chain β} (hf : ∀ next, AgreeAt k n (f next) (g next)) :
    AgreeAt k n (Chain.lift (Parse.peekAt i) >>= f) (Chain.lift (Parse.peekAt i) >>= g) :=
  fun s => hf _ s

theorem addLink {f g : Unit → Chain β} (h : AgreeAt k n (f ()) (g ())) :
    AgreeAt k n (Chain.addLink >>= f) (Chain.addLink >>= g) := by
  intro s hk closed near
  by_cases room : s.parser.depth < s.parser.limit
  · have linked : Chain.addLink s = .ok () ⟨s.parser.deeper, s.links + 1⟩ := if_pos room
    rw [bind_of_ok linked, bind_of_ok linked]
    exact h ⟨s.parser.deeper, s.links + 1⟩ hk closed near
  · have refused : Chain.addLink s = .error _ s := if_neg room
    rw [bind_of_error refused, bind_of_error refused]

/-- Behind a step that passes over a token the chains have to agree only nearer to the end. -/
theorem advance (hz : Parse.Planned z) (moves : Parse.AdvancesAt k z) (h : ∀ a, Agree n (f a) (g a)) :
    AgreeAt k (n + 1) (Chain.lift z >>= f) (Chain.lift z >>= g) := by
  intro s hk closed near
  cases run : z s.parser with
  | error e q =>
    have refused : Chain.lift z s = .error e ⟨q, s.links⟩ := by rw [Chain.lift, run]
    rw [bind_of_error refused, bind_of_error refused]
  | ok a q =>
    have passed : Chain.lift z s = .ok a ⟨q, s.links⟩ := by rw [Chain.lift, run]
    have less := moves s.parser a q hk closed run
    rw [bind_of_ok passed, bind_of_ok passed]
    exact h a ⟨q, s.links⟩ ((hz.onward run).closed closed) (by dsimp only; omega)

end AgreeAt

/-- `Together` where the current token is of the kind `k`. -/
structure TogetherAt (k : Token.Kind) (n : ℕ) (x y : Chain α) : Prop where
  planned : Planned x
  agree : AgreeAt k n x y

theorem Together.peek {f g : Token.Kind → Chain β} (hf : ∀ k, TogetherAt k n (f k) (g k)) :
    Together n (Chain.lift Parse.peek >>= f) (Chain.lift Parse.peek >>= g) :=
  ⟨.bind (.lift (.look fun c => c.current.kind)) fun k => (hf k).planned, .peek fun k => (hf k).agree⟩

namespace TogetherAt

theorem pure (a : α) : TogetherAt k n (Pure.pure a) (Pure.pure a) := ⟨.pure a, .refl _⟩

theorem peekAt {i : ℕ} {f g : Token.Kind → Chain β} (hf : ∀ next, TogetherAt k n (f next) (g next)) :
    TogetherAt k n (Chain.lift (Parse.peekAt i) >>= f) (Chain.lift (Parse.peekAt i) >>= g) :=
  ⟨.bind (.lift (.look fun c => (c.peekAt i).kind)) fun next => (hf next).planned,
    .peekAt fun next => (hf next).agree⟩

theorem addLink {f g : Unit → Chain β} (h : TogetherAt k n (f ()) (g ())) :
    TogetherAt k n (Chain.addLink >>= f) (Chain.addLink >>= g) :=
  ⟨.bind .addLink fun _ => h.planned, .addLink h.agree⟩

theorem advance (hz : Parse.Planned z) (moves : Parse.AdvancesAt k z)
    (h : ∀ a, Together n (f a) (g a)) :
    TogetherAt k (n + 1) (Chain.lift z >>= f) (Chain.lift z >>= g) :=
  ⟨.bind (.lift hz) fun a => (h a).planned, .advance hz moves fun a => (h a).agree⟩

end TogetherAt

end Chain

end CanonicalSql
