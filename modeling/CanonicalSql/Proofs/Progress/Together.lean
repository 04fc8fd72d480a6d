import CanonicalSql.Proofs.Course.Name
import CanonicalSql.Proofs.Progress.Steps

/-! Pairs of steps that do the same wherever fewer than a given number of tokens are behind the current one.
A token that is passed over leaves one less ahead, so the steps behind it need to do the same only nearer to
the end.  Any vector is allowed whose last token is a mark of the end; there may be others in front of it. -/

namespace CanonicalSql

/-- Whether the last token of the vector is a mark of the end. -/
def Cursor.Closed (c : Cursor) : Prop := c.last.kind = .eof

/-- A token that is no mark of the end is passed over. -/
theorem Cursor.Closed.remaining_advance {c : Cursor} (h : c.Closed) (hk : c.current.kind ≠ .eof) :
    c.advance.remaining + 1 = c.remaining := by
  obtain ⟨passed, current, ahead⟩ := c
  cases ahead with
  | nil => exact absurd h hk
  | cons next ahead =>
    unfold advance
    rw [if_neg hk]
    rfl

/-- With no tokens behind it, the current one is the mark of the end. -/
theorem Cursor.Closed.ended {c : Cursor} (h : c.Closed) (none : c.remaining = 0) :
    c.current.kind = .eof := by
  obtain ⟨passed, current, ahead⟩ := c
  obtain rfl : ahead = [] := List.length_eq_zero_iff.1 none
  exact h

theorem Cursor.closed_ofTokens (tokens : List Token) : (Cursor.ofTokens tokens).Closed := by
  have ended : ((tokens ++ Cursor.missingEnd tokens).getLast?.map Token.kind) = some .eof := by
    unfold Cursor.missingEnd
    cases hl : tokens.getLast? with
    | none => simp [Token.endMark]
    | some last =>
      by_cases hk : last.kind = .eof
      · simp [hk, hl]
      · simp [hk, Token.endMark]
  rw [← Cursor.upcoming_ofTokens, List.getLast?_eq_some_getLast (Cursor.upcoming_ne_nil _)] at ended
  exact Option.some.inj ended

theorem Parser.Onward.closed {p q : Parser} (h : p.Onward q) (closed : p.cursor.Closed) :
    q.cursor.Closed :=
  (congrArg Token.kind h.last).trans closed

namespace Parse

variable {α β : Type} {n m : ℕ} {x x' y y' : Parse α} {f g : α → Parse β} {t : Terminal}

/-! ### Steps that have a plan -/

/-- Whether the step is made of single steps. -/
def Planned (x : Parse α) : Prop := ∃ plan : Plan α, plan.run = x

namespace Planned

/-- Such a step does not go back. -/
theorem onward (hx : Planned x) {p q : Parser} {a : α} (run : x p = .ok a q) : p.Onward q := by
  obtain ⟨plan, rfl⟩ := hx
  have onward := (plan.balanced p).1.onward.1
  unfold outcome at onward
  rwa [run] at onward

theorem look (f : Cursor → α) : Planned fun p => .ok (f p.cursor) p := ⟨.look f, rfl⟩

theorem pure (a : α) : Planned (Pure.pure a) := look fun _ => a

theorem discarded : Planned (discard Parse.advance) := ⟨.follow .move fun _ => .look fun _ => (), rfl⟩

theorem bind (hx : Planned x) (hf : ∀ a, Planned (f a)) : Planned (x >>= f) := by
  obtain ⟨plan, rfl⟩ := hx
  choose plans runs using hf
  obtain rfl : (fun a => (plans a).run) = f := funext runs
  exact ⟨.follow plan plans, rfl⟩

theorem descend (hx : Planned x) : Planned (Parse.descend x) := by
  obtain ⟨plan, rfl⟩ := hx
  exact ⟨.level plan, rfl⟩

end Planned

/-! ### Steps that agree -/

/-- Whether two steps do the same where fewer than `n` tokens are behind the current one. -/
def Agree (n : ℕ) (x y : Parse α) : Prop :=
  ∀ p : Parser, p.cursor.Closed → p.cursor.remaining < n → x p = y p

namespace Agree

theorem refl (x : Parse α) : Agree n x x := fun _ _ _ => rfl

theorem symm (h : Agree n x y) : Agree n y x := fun p closed near => (h p closed near).symm

theorem trans {z : Parse α} (h : Agree n x y) (h' : Agree n y z) : Agree n x z :=
  fun p closed near => (h p closed near).trans (h' p closed near)

theorem mono (h : Agree n x y) (hm : m ≤ n) : Agree m x y :=
  fun p closed near => h p closed (near.trans_le hm)

/-- A step that has a plan does not go back, so what follows has to agree only there. -/
theorem bind (hx : Planned x) (h : Agree n x y) (hf : ∀ a, Agree n (f a) (g a)) :
    Agree n (x >>= f) (y >>= g) := by
  intro p closed near
  have same := h p closed near
  cases run : x p with
  | error e q => rw [bind_of_error run, bind_of_error (same.symm.trans run)]
  | ok a q =>
    have onward := hx.onward run
    rw [bind_of_ok run, bind_of_ok (same.symm.trans run)]
    exact hf a q (onward.closed closed) (onward.remaining.trans_lt near)

/-- The same may be done with what two steps give. -/
theorem bind_left (h : Agree n x y) : Agree n (x >>= f) (y >>= f) := by
  intro p closed near
  change EStateM.bind x f p = EStateM.bind y f p
  unfold EStateM.bind
  rw [h p closed near]

theorem ite {b : Bool} (hx : Agree n x y) (hy : Agree n x' y') :
    Agree n (if b = true then x else x') (if b = true then y else y') := by
  cases b with
  | true => exact hx
  | false => exact hy

theorem descend (h : Agree n x y) : Agree n (Parse.descend x) (Parse.descend y) := by
  intro p closed near
  unfold Parse.descend
  rw [h { p with depth := p.depth + 1 } closed near]

/-- Behind a terminal there are fewer tokens. -/
theorem accept {f g : Bool → Parse β} (passed : Agree n (f true) (g true))
    (other : Agree (n + 1) (f false) (g false)) :
    Agree (n + 1) (Parse.accept t >>= f) (Parse.accept t >>= g) := by
  intro p closed near
  cases found : t.admits p.cursor.current.kind with
  | false =>
    rw [bind_of_ok (accept_of_not_admits found), bind_of_ok (accept_of_not_admits found)]
    exact other p closed near
  | true =>
    rw [bind_of_ok (accept_of_admits found), bind_of_ok (accept_of_admits found)]
    have less := closed.remaining_advance (Terminal.silent found).2
    refine passed _ ((Parser.Step.move p).onward.closed closed) ?_
    show p.cursor.advance.remaining < n
    omega

end Agree

/-! ### Planned steps that agree -/

/-- Whether a planned step and another one do the same where fewer than `n` tokens are behind the current
one. -/
structure Together (n : ℕ) (x y : Parse α) : Prop where
  planned : Planned x
  agree : Agree n x y

theorem Planned.of_together (h : Together 0 x x) : Planned x := h.planned

namespace Together

theorem refl (hx : Planned x) : Together n x x := ⟨hx, .refl x⟩

theorem mono (h : Together n x y) (hm : m ≤ n) : Together m x y := ⟨h.planned, h.agree.mono hm⟩

theorem pure (a : α) : Together n (Pure.pure a) (Pure.pure a) := .refl (.pure a)

theorem fail (expected : Expectation) :
    Together n (Parse.fail expected : Parse α) (Parse.fail expected) :=
  .refl ⟨.refuse Cursor.current expected, rfl⟩

theorem failAt (token : Token) (expected : Expectation) :
    Together n (Parse.failAt token expected : Parse α) (Parse.failAt token expected) :=
  .refl ⟨.refuse (fun _ => token) expected, rfl⟩

theorem bind (h : Together n x y) (hf : ∀ a, Together n (f a) (g a)) :
    Together n (x >>= f) (y >>= g) :=
  ⟨h.planned.bind fun a => (hf a).planned, .bind h.planned h.agree fun a => (hf a).agree⟩

theorem map (f : α → β) (h : Together n x y) : Together n (f <$> x) (f <$> y) := by
  rw [map_eq_pure_bind, map_eq_pure_bind]
  exact h.bind fun a => .pure (f a)

theorem ite {b : Bool} (hx : Together n x y) (hy : Together n x' y') :
    Together n (if b = true then x else x') (if b = true then y else y') := by
  cases b with
  | true => exact hx
  | false => exact hy

theorem descend (h : Together n x y) : Together n (Parse.descend x) (Parse.descend y) :=
  ⟨h.planned.descend, h.agree.descend⟩

/-! #### Looking ahead -/

theorem look {f g : α → Parse β} (read : Cursor → α) (hf : ∀ a, Together n (f a) (g a)) :
    Together n ((fun p => .ok (read p.cursor) p : Parse α) >>= f)
      ((fun p => .ok (read p.cursor) p : Parse α) >>= g) :=
  .bind (.refl (.look read)) hf

theorem current {f g : Token → Parse β} (hf : ∀ token, Together n (f token) (g token)) :
    Together n (Parse.current >>= f) (Parse.current >>= g) :=
  look Cursor.current hf

theorem peek {f g : Token.Kind → Parse β} (hf : ∀ k, Together n (f k) (g k)) :
    Together n (Parse.peek >>= f) (Parse.peek >>= g) :=
  look (fun c => c.current.kind) hf

theorem peekAt {i : ℕ} {f g : Token.Kind → Parse β} (hf : ∀ k, Together n (f k) (g k)) :
    Together n (Parse.peekAt i >>= f) (Parse.peekAt i >>= g) :=
  look (fun c => (c.peekAt i).kind) hf

theorem remaining {f g : ℕ → Parse β} (hf : ∀ count, Together n (f count) (g count)) :
    Together n (Parse.remaining >>= f) (Parse.remaining >>= g) :=
  look Cursor.remaining hf

theorem atEnd {f g : Bool → Parse β} (hf : ∀ b, Together n (f b) (g b)) :
    Together n (Parse.atEnd >>= f) (Parse.atEnd >>= g) :=
  look Cursor.atEnd hf

theorem sees {f g : Bool → Parse β} (hf : ∀ b, Together n (f b) (g b)) :
    Together n (Parse.sees t >>= f) (Parse.sees t >>= g) :=
  look (fun c => t.admits c.current.kind) hf

theorem seesAt {i : ℕ} {f g : Bool → Parse β} (hf : ∀ b, Together n (f b) (g b)) :
    Together n (Parse.seesAt i t >>= f) (Parse.seesAt i t >>= g) :=
  look (fun c => t.admits (c.peekAt i).kind) hf

theorem seesAllAt {i : ℕ} {ts : List Terminal} {f g : Bool → Parse β}
    (hf : ∀ b, Together n (f b) (g b)) :
    Together n (Parse.seesAllAt i ts >>= f) (Parse.seesAllAt i ts >>= g) := by
  have reads : Parse.seesAllAt i ts = fun p => .ok (p.cursor.facesAt i ts) p := funext (seesAllAt_eq i ts)
  rw [reads]
  exact look (fun c => c.facesAt i ts) hf

/-! #### Moving -/

theorem discard_advance {f g : Unit → Parse β} (h : Together n (f ()) (g ())) :
    Together n (discard Parse.advance >>= f) (discard Parse.advance >>= g) :=
  .bind (.refl .discarded) fun _ => h

theorem skipped (count : ℕ) : Together n (Parse.skip count) (Parse.skip count) := by
  induction count with
  | zero => exact .pure ()
  | succ count ih => exact discard_advance ih

theorem skip {count : ℕ} {f g : Unit → Parse β} (h : Together n (f ()) (g ())) :
    Together n (Parse.skip count >>= f) (Parse.skip count >>= g) :=
  .bind (.skipped count) fun _ => h

theorem accepted (t : Terminal) : Together n (Parse.accept t) (Parse.accept t) :=
  sees fun _ => ite (discard_advance (.pure true)) (.pure false)

theorem accept {f g : Bool → Parse β} (passed : Together n (f true) (g true))
    (other : Together n (f false) (g false)) :
    Together n (Parse.accept t >>= f) (Parse.accept t >>= g) :=
  .bind (.accepted t) fun
    | true => passed
    | false => other

theorem discard_accept {f g : Unit → Parse β} (h : Together n (f ()) (g ())) :
    Together n (discard (Parse.accept t) >>= f) (discard (Parse.accept t) >>= g) :=
  .bind (.map _ (.accepted t)) fun _ => h

theorem expected (t : Terminal) : Together n (Parse.expect t) (Parse.expect t) :=
  accept (.pure ()) (.fail _)

theorem expect {f g : Unit → Parse β} (h : Together n (f ()) (g ())) :
    Together n (Parse.expect t >>= f) (Parse.expect t >>= g) :=
  .bind (.expected t) fun _ => h

theorem acceptAll (ts : List Terminal) : Together n (Parse.acceptAll ts) (Parse.acceptAll ts) :=
  seesAllAt fun _ => ite (skip (.pure true)) (.pure false)

/-! #### Parts that may be missing, and several parts -/

theorem optional (h : Together n x y) : Together n (Parse.optional t x) (Parse.optional t y) :=
  accept (.map some h) (.pure none)

theorem optionalList {x y : Parse (List α)} (h : Together n x y) :
    Together n (Parse.optionalList t x) (Parse.optionalList t y) :=
  accept h (.pure [])

theorem between {opening closing : Symbol} (h : Together n x y) :
    Together n (Parse.between opening closing x) (Parse.between opening closing y) :=
  expect (.bind h fun a => expect (.pure a))

theorem commaItems (h : Together n x y) (count : ℕ) :
    Together n (Parse.commaItems x count) (Parse.commaItems y count) := by
  induction count with
  | zero => exact .pure []
  | succ count ih => exact accept (.bind h fun a => .bind ih fun as => .pure (a :: as)) (.pure [])

theorem commaList (h : Together n x y) : Together n (Parse.commaList x) (Parse.commaList y) :=
  .bind h fun a => remaining fun count => .bind (h.commaItems count) fun as => .pure (a :: as)

theorem commaListUpTo {closing : Symbol} (h : Together n x y) :
    Together n (Parse.commaListUpTo closing x) (Parse.commaListUpTo closing y) :=
  sees fun _ => ite (.pure []) h.commaList

end Together

end Parse

/-! ### Chains -/

namespace Chain

variable {α β : Type} {n m : ℕ} {x y : Chain α} {f g : α → Chain β} {x' y' : Parse α}

/-- Whether the chain is made of single steps. -/
def Planned (x : Chain α) : Prop := ∃ plan : ChainPlan α, plan.run = x

namespace Planned

theorem onward (hx : Planned x) {s s' : Linked} {a : α} (run : x s = .ok a s') :
    s.parser.Onward s'.parser := by
  obtain ⟨plan, rfl⟩ := hx
  have onward := (plan.counted s).1.onward.1
  unfold finish at onward
  rwa [run] at onward

theorem lift (hx : Parse.Planned x') : Planned (Chain.lift x') := by
  obtain ⟨plan, rfl⟩ := hx
  exact ⟨.lift plan, rfl⟩

theorem leftChain (hx : Planned x) : Parse.Planned (Parse.leftChain x) := by
  obtain ⟨plan, rfl⟩ := hx
  exact ⟨.chain plan, rfl⟩

theorem pure (a : α) : Planned (Pure.pure a) := lift (.pure a)

theorem addLink : Planned addLink := ⟨.link, rfl⟩

theorem bind (hx : Planned x) (hf : ∀ a, Planned (f a)) : Planned (x >>= f) := by
  obtain ⟨plan, rfl⟩ := hx
  choose plans runs using hf
  obtain rfl : (fun a => (plans a).run) = f := funext runs
  exact ⟨.follow plan plans, rfl⟩

end Planned

/-- Whether two chains do the same where fewer than `n` tokens are behind the current one. -/
def Agree (n : ℕ) (x y : Chain α) : Prop :=
  ∀ s : Linked, s.parser.cursor.Closed → s.parser.cursor.remaining < n → x s = y s

namespace Agree

theorem refl (x : Chain α) : Agree n x x := fun _ _ _ => rfl

theorem symm (h : Agree n x y) : Agree n y x := fun s closed near => (h s closed near).symm

theorem trans {z : Chain α} (h : Agree n x y) (h' : Agree n y z) : Agree n x z :=
  fun s closed near => (h s closed near).trans (h' s closed near)

theorem mono (h : Agree n x y) (hm : m ≤ n) : Agree m x y :=
  fun s closed near => h s closed (near.trans_le hm)

theorem lift (h : Parse.Agree n x' y') : Agree n (Chain.lift x') (Chain.lift y') := by
  intro s closed near
  unfold Chain.lift
  rw [h s.parser closed near]

/-- A chain that has a plan does not go back, so what follows has to agree only there. -/
theorem bind (hx : Planned x) (h : Agree n x y) (hf : ∀ a, Agree n (f a) (g a)) :
    Agree n (x >>= f) (y >>= g) := by
  intro s closed near
  have same := h s closed near
  cases run : x s with
  | error e s' => rw [bind_of_error run, bind_of_error (same.symm.trans run)]
  | ok a s' =>
    have onward := hx.onward run
    rw [bind_of_ok run, bind_of_ok (same.symm.trans run)]
    exact hf a s' (onward.closed closed) (onward.remaining.trans_lt near)

/-- Chains that agree are the same step of a parse there. -/
theorem leftChain (h : Agree n x y) : Parse.Agree n (Parse.leftChain x) (Parse.leftChain y) := by
  intro p closed near
  unfold Parse.leftChain
  rw [h ⟨p, 0⟩ closed near]

end Agree

/-- Whether a planned chain and another one do the same where fewer than `n` tokens are behind the current
one. -/
structure Together (n : ℕ) (x y : Chain α) : Prop where
  planned : Planned x
  agree : Agree n x y

namespace Together

theorem mono (h : Together n x y) (hm : m ≤ n) : Together m x y := ⟨h.planned, h.agree.mono hm⟩

theorem pure (a : α) : Together n (Pure.pure a) (Pure.pure a) := ⟨.pure a, .refl _⟩

theorem lift (h : Parse.Together n x' y') : Together n (Chain.lift x') (Chain.lift y') :=
  ⟨.lift h.planned, .lift h.agree⟩

theorem bind (h : Together n x y) (hf : ∀ a, Together n (f a) (g a)) : Together n (x >>= f) (y >>= g) :=
  ⟨h.planned.bind fun a => (hf a).planned, .bind h.planned h.agree fun a => (hf a).agree⟩

theorem leftChain (h : Together n x y) : Parse.Together n (Parse.leftChain x) (Parse.leftChain y) :=
  ⟨h.planned.leftChain, h.agree.leftChain⟩

end Together

end Chain

end CanonicalSql
