import Mathlib
import CanonicalSql.Proofs.Completion.Step

/-! Viable rules out of viable rules.  A rule says of itself what may follow it, `F`, and what it leaves in
front of the rule before it: `I` where it takes no token, and `S` where it is filled in.  An optional part
leaves what follows it. -/

namespace CanonicalSql

open Keyword Word CanonicalSql.Symbol

namespace Parse

variable {α β : Type} {p : Parser} {s w : List Spelled}

/-! ### Looks and moves -/

theorem identifier_bind {name : String} (f : String → Parse β)
    (hp : p.cursor.current.kind.name? = some name) :
    (identifier >>= f) p = f name { p with cursor := p.cursor.advance } := by
  have run : identifier p = .ok name { p with cursor := p.cursor.advance } := by
    rw [identifier, peek_bind, hp]
    rfl
  exact bind_of_ok run

theorem skip_of_shows (h : p.cursor.Shows (w ++ s)) :
    ∃ c : Cursor, c.Shows s ∧ p.cursor.Moves w c ∧ skip w.length p = .ok () { p with cursor := c } := by
  induction w generalizing p with
  | nil => exact ⟨p.cursor, h, .refl p.cursor, rfl⟩
  | cons t w ih =>
    obtain ⟨c, hc, moves, run⟩ := ih (p := { p with cursor := p.cursor.advance }) h.advance
    exact ⟨c, hc, (Cursor.Moves.advance h).trans moves, run⟩

/-- A terminal that has to be ahead, before something else. -/
theorem expect_bind (t : Terminal) (f : Unit → Parse β) :
    (expect t >>= f) = accept t >>= fun found => if found = true then f () else fail t := by
  rw [expect, bind_assoc]
  refine congrArg _ (funext fun found => ?_)
  cases found <;> rfl

/-- What follows a choice follows each of the ways. -/
theorem accept_bind (t : Terminal) (x y : Parse α) (f : α → Parse β) :
    ((accept t >>= fun b => if b = true then x else y) >>= f) =
      accept t >>= fun b => if b = true then x >>= f else y >>= f := by
  rw [bind_assoc]
  refine congrArg _ (funext fun b => ?_)
  cases b <;> rfl

/-- A terminal that is seen and then has to be ahead. -/
theorem sees_expect (t : Terminal) (x y : Parse α) :
    (sees t >>= fun b => if b = true then expect t >>= fun _ => x else y) =
      accept t >>= fun b => if b = true then x else y := by
  funext p
  rw [sees_bind]
  cases seen : t.admits p.cursor.current.kind with
  | true =>
    rw [if_pos rfl, expect_bind, bind_of_ok (accept_of_admits seen), bind_of_ok (accept_of_admits seen)]
    rfl
  | false =>
    rw [if_neg (by simp), bind_of_ok (accept_of_not_admits seen)]
    rfl

theorem acceptAll_of_meets {ts : List Terminal} (h : p.cursor.Shows (w ++ s))
    (hw : w.length = ts.length) (meets : Meets (ts.map Terminal.admits) (w ++ s) = true) :
    ∃ c : Cursor, c.Shows s ∧ p.cursor.Moves w c ∧ acceptAll ts p = .ok true { p with cursor := c } := by
  obtain ⟨c, hc, moves, run⟩ := skip_of_shows h
  refine ⟨c, hc, moves, ?_⟩
  have look : seesAllAt 0 ts p = .ok true p := by
    rw [seesAllAt_eq, h.facesAt, List.drop_zero, meets]
  rw [acceptAll, bind_of_ok look, if_pos rfl, ← hw, bind_of_ok run]
  rfl

theorem acceptAll_of_not_meets {ts : List Terminal} (h : p.cursor.Shows s)
    (meets : Meets (ts.map Terminal.admits) s = false) : acceptAll ts p = .ok false p := by
  have look : seesAllAt 0 ts p = .ok false p := by
    rw [seesAllAt_eq, h.facesAt, List.drop_zero, meets]
  rw [acceptAll, bind_of_ok look]
  rfl

end Parse

/-- Tokens that pass some tests are as many as the tests, and those behind them do not matter. -/
theorem exists_of_meets {tests : List (Token.Kind → Bool)} {s : List Spelled}
    (ended : ∀ test ∈ tests, test .eof = false) (h : Meets tests s = true) :
    ∃ w r, s = w ++ r ∧ w.length = tests.length ∧ ∀ r', Meets tests (w ++ r') = true := by
  induction tests generalizing s with
  | nil => exact ⟨[], s, rfl, rfl, fun _ => rfl⟩
  | cons test tests ih =>
    rw [List.forall_mem_cons] at ended
    cases s with
    | nil => simp [Meets, ended.1] at h
    | cons first s =>
      rw [Meets, Bool.and_eq_true] at h
      obtain ⟨w, r, rfl, length, meets⟩ := ih ended.2 h.2
      refine ⟨first :: w, r, rfl, by simp [length], fun r' => ?_⟩
      rw [Meets, Bool.and_eq_true]
      exact ⟨h.1, meets r'⟩

namespace Completion

variable {K : Completion} {α β σ ω : Type} {X Y : Scheme α} {I I' S S' F F' G : Rests} {near near' : Prop}
  {n : ℕ} {s r : List Spelled} {t : Terminal} {ts : List Terminal}

/-! ### Single choices -/

theorem Goes.discard_advance {Y : Unit → Scheme α} {first : Spelled}
    (hy : K.Goes Anything F near (Y ()) n s) (fill : K.Fill Anything F (Y ())) :
    K.Goes I F near (fun g n => discard Parse.advance >>= fun u => Y u g n) n (first :: s) :=
  .behind (w := [first]) hy fill (by simp) fun _ _ _ _ hp => ⟨_, hp.advance, .advance hp, rfl⟩

/-- A token that is passed over for a result. -/
theorem Goes.taken (a : α) (some : s ≠ []) :
    K.Goes I F near (fun _ _ => discard Parse.advance >>= fun _ => Pure.pure a) n s := by
  obtain ⟨first, s, rfl⟩ := List.exists_cons_of_ne_nil some
  exact .discard_advance (Y := fun _ _ _ => Pure.pure a) (.pure a fun _ _ => trivial)
    (.pure a fun _ _ => trivial)

/-- A token that is refused where a rule starts. -/
theorem Goes.refused (run : ∀ p : Parser, p.cursor.Shows s →
    ∃ expected q, X K.first n p = .error (.unexpected p.cursor.current expected) q) :
    K.Goes I F near X n s := by
  intro p hp
  obtain ⟨expected, q, run⟩ := run p hp
  rw [run]
  exact .refused (.refl p.cursor) hp rfl fun some => absurd rfl some

/-- A look at the current token. -/
theorem Goes.peek {Y : ω → Scheme α} (look : Token.Kind → ω)
    (hy : K.Goes (fun r => I r ∧ look (kindAt r 0) = look (kindAt s 0)) F near
      (Y (look (kindAt s 0))) n s) :
    K.Goes I F near (fun g n => Parse.peek >>= fun k => Y (look k) g n) n s := by
  refine hy.told rfl (fun s' near => by rw [near.kindAt]) fun s' g n p same hp => ?_
  change Y (look p.cursor.current.kind) g n p = _
  rw [hp.kind, same]

/-- A look at the current token, whose place tells nothing. -/
theorem Goes.current {Y : Token → Scheme α} (place : Position)
    (placeless : ∀ t t' : Token, t.kind = t'.kind → t.text = t'.text → Y t = Y t')
    (hy : K.Goes (fun r => I r ∧ r.head? = s.head?) F near
      (Y ⟨kindAt s 0, (s.head?.getD .endMark).text, place⟩) n s) :
    K.Goes I F near (fun g n => Parse.current >>= fun token => Y token g n) n s := by
  refine hy.told rfl ?_ fun s' g n p same hp => ?_
  · rintro s' ⟨w, t, t', some, rfl, rfl, -⟩
    obtain ⟨first, w, rfl⟩ := List.exists_cons_of_ne_nil some
    rfl
  · change Y p.cursor.current g n p = _
    have spelled : p.cursor.current.spelled = s.head?.getD .endMark := by
      rw [← same]
      cases s' with
      | nil => exact (List.cons.inj hp.1).1
      | cons first s' => exact hp.current
    have kind : kindAt s 0 = (s.head?.getD .endMark).kind := by cases s <;> rfl
    rw [placeless _ ⟨kindAt s 0, (s.head?.getD .endMark).text, place⟩
      ((congrArg Spelled.kind spelled).trans kind.symm) (congrArg Spelled.text spelled)]

theorem Goes.sees {Y : Bool → Scheme α}
    (hy : ∀ b, t.admits (kindAt s 0) = b →
      K.Goes (fun r => I r ∧ t.admits (kindAt r 0) = b) F near (Y b) n s) :
    K.Goes I F near (fun g n => Parse.sees t >>= fun b => Y b g n) n s :=
  .peek t.admits (hy _ rfl)

/-- A terminal that is passed over if it is the current token. -/
theorem Goes.accept {Y : Bool → Scheme α}
    (some : ∀ first s', s = first :: s' → K.Goes Anything F near (Y true) n s')
    (fill : K.Fill Anything F (Y true))
    (none : K.Goes (fun r => I r ∧ t.admits (kindAt r 0) = false) F near (Y false) n s) :
    K.Goes I F near (fun g n => Parse.accept t >>= fun b => Y b g n) n s := by
  cases admitted : t.admits (kindAt s 0) with
  | true =>
    cases s with
    | nil => simp [Terminal.admits_eof] at admitted
    | cons first s =>
      have taken := (some first s rfl).behind (I := fun r => I r ∧ t.admits (kindAt r 0) = true)
        (Y := fun g n => discard Parse.advance >>= fun _ => Y true g n) (w := [first]) fill (by simp)
        fun _ _ _ _ hp => ⟨_, hp.advance, .advance hp, rfl⟩
      refine taken.told (C := fun s => t.admits (kindAt s 0) = true) admitted
        (fun s' near => by rw [near.kindAt, admitted]) fun s' g n p here hp => ?_
      exact Parse.bind_of_ok (Parse.accept_of_admits (by rw [hp.kind, here]))
  | false =>
    refine none.told admitted (fun s' near => by rw [near.kindAt, admitted]) fun s' g n p other hp => ?_
    exact Parse.bind_of_ok (Parse.accept_of_not_admits (by rw [hp.kind, other]))

/-- Terminals that are passed over if all of them are ahead. -/
theorem Goes.acceptAll {Y : Bool → Scheme α} (telling : Telling (ts.map Terminal.admits))
    (some : ∀ w s', s = w ++ s' → K.Goes Anything F near (Y true) n s')
    (fill : K.Fill Anything F (Y true)) (none : K.Goes I F near (Y false) n s) :
    K.Goes I F near (fun g n => Parse.acceptAll ts >>= fun b => Y b g n) n s := by
  cases meets : Meets (ts.map Terminal.admits) s with
  | true =>
    obtain ⟨w, r, rfl, length, meets⟩ := exists_of_meets (fun test ht => (telling.inside test ht).1) meets
    rw [List.length_map] at length
    have hw : w ≠ [] := by
      rintro rfl
      exact telling.ne_nil (by simpa using length.symm)
    refine (some w r rfl).behind fill hw fun s' g n p hp => ?_
    obtain ⟨c, hc, moves, run⟩ := Parse.acceptAll_of_meets hp length (meets s')
    exact ⟨c, hc, moves, Parse.bind_of_ok run⟩
  | false =>
    have idle : K.Goes (fun r => I r ∧ Meets (ts.map Terminal.admits) r = false) F near (Y false) n s :=
      none.mono (fun r harmless hr => ⟨hr, telling.meets_of_harmless harmless⟩) (fun _ h => h) id
    refine idle.told meets (fun s' near => near.meets telling meets) fun s' g n p other hp => ?_
    exact Parse.bind_of_ok (Parse.acceptAll_of_not_meets hp other)

theorem Goes.made (f : α → β) (hx : K.Goes I F near X n s) :
    K.Goes I F near (fun g n => X g n >>= fun a => Pure.pure (f a)) n s := by
  intro p hp
  change K.Outcome I F near _ p ((X K.first n >>= fun a => Pure.pure (f a)) p)
  have outcome := hx p hp
  revert outcome
  generalize run : X K.first n p = result
  rintro (⟨moves, shows, leads, idle⟩ | ⟨moves, shows, found, finishes⟩ | _)
  · rw [Parse.bind_of_ok run]
    exact .passed moves shows (leads.made f) idle
  · rw [Parse.bind_of_error run]
    refine .refused moves shows found fun some => ?_
    obtain ⟨v, a, filling, leads⟩ := finishes some
    exact ⟨v, f a, filling, leads.made f⟩
  · rw [Parse.bind_of_error run]
    exact .tooDeep

/-! ### Fillings -/

theorem Fill.made (f : α → β) (hx : K.Fill S F X) :
    K.Fill S F (fun g n => X g n >>= fun a => Pure.pure (f a)) := by
  obtain ⟨v, a, filling, starts, leads⟩ := hx
  exact ⟨v, f a, filling, starts, leads.made f⟩

/-- A token that is passed over for a result. -/
theorem Fill.taken {first : Spelled} (a : α) (silent : Filling [first]) (hS : ∀ s, S (first :: s)) :
    K.Fill S F (fun _ _ => discard Parse.advance >>= fun _ => Pure.pure a) :=
  .front (X := fun _ _ => Pure.pure a) (C := Anything) (.pure a fun _ _ => trivial) silent hS
    fun _ _ _ _ _ hp => ⟨_, hp.advance, rfl⟩

theorem Fill.accept {Y : Bool → Scheme α} (hy : K.Fill Anything F (Y true))
    (ht : t ∉ tellingTerminals) (hS : ∀ s, S (t.spelled :: s)) :
    K.Fill S F (fun g n => Parse.accept t >>= fun b => Y b g n) :=
  hy.front (.terminal ht) hS fun _ _ _ _ _ hp => ⟨_, hp.advance, Parse.bind_of_ok
    (Parse.accept_of_admits (by rw [hp.kind, kindAt_cons_zero]; exact t.admits_self))⟩

theorem Fill.reject {Y : Bool → Scheme α}
    (hy : K.Fill (fun r => S r ∧ t.admits (kindAt r 0) = false) F (Y false)) :
    K.Fill S F (fun g n => Parse.accept t >>= fun b => Y b g n) :=
  hy.congr fun _ _ _ _ other hp =>
    Parse.bind_of_ok (Parse.accept_of_not_admits (by rw [hp.kind, other]))

theorem Fill.peek {Y : ω → Scheme α} (look : Token.Kind → ω) (o : ω)
    (hy : K.Fill (fun r => S r ∧ look (kindAt r 0) = o) F (Y o)) :
    K.Fill S F (fun g n => Parse.peek >>= fun k => Y (look k) g n) :=
  hy.congr fun _ g n p same hp => by
    change Y (look p.cursor.current.kind) g n p = _
    rw [hp.kind, same]

theorem Fill.sees {Y : Bool → Scheme α} (b : Bool)
    (hy : K.Fill (fun r => S r ∧ t.admits (kindAt r 0) = b) F (Y b)) :
    K.Fill S F (fun g n => Parse.sees t >>= fun b => Y b g n) :=
  .peek t.admits b hy

/-- Harmless tokens are none of the terminals that are passed over together. -/
theorem Fill.acceptAll {Y : Bool → Scheme α} (telling : Telling (ts.map Terminal.admits))
    (hy : K.Fill S F (Y false)) :
    K.Fill S F (fun g n => Parse.acceptAll ts >>= fun b => Y b g n) := by
  obtain ⟨v, a, filling, starts, leads⟩ := hy
  refine ⟨v, a, filling, starts, leads.congr fun r fits g n p hp => ?_⟩
  exact Parse.bind_of_ok (Parse.acceptAll_of_not_meets hp
    (telling.meets_of_harmless (filling.harmless.append fits.2)))

theorem Fill.remaining (hx : K.Fill S F X) : K.Fill S F (fun g _ => Parse.remaining >>= X g) := by
  obtain ⟨v, a, filling, starts, leads⟩ := hx
  exact ⟨v, a, filling, starts, leads.remaining⟩

theorem Fill.descend (hx : K.Fill S F X) : K.Fill S F (fun g n => Parse.descend (X g n)) := by
  obtain ⟨v, a, filling, starts, leads⟩ := hx
  exact ⟨v, a, filling, starts, leads.descend⟩

/-- A round more of a loop. -/
theorem Fill.round (hx : K.Fill S F (fun g n => X g (n + 1))) : K.Fill S F X := by
  obtain ⟨v, a, filling, starts, leads⟩ := hx
  exact ⟨v, a, filling, starts, leads.round⟩

/-! ### Courses -/

theorem Course.mono (h : K.Course I F near X) (hI : ∀ r, Harmless r → I r → I' r)
    (hF : ∀ r, F' r → F r) (hn : near' → near) : K.Course I' F' near' X :=
  fun n s less => (h n s less).mono hI hF hn

theorem Course.fail (expected : Expectation) :
    K.Course I F near (α := α) (fun _ _ => Parse.fail expected) :=
  fun _ _ _ => .fail expected

theorem Course.bind {Y : α → Scheme β} (hx : K.Course I G True X)
    (hy : ∀ a, K.Viable I' G F near (Y a)) (hI : ∀ r, I' r → G r) :
    K.Course (fun r => I r ∧ I' r) F near (fun g n => X g n >>= fun a => Y a g n) :=
  fun n s less => (hx n s less).bind
    (fun a u r whole _ => (hy a).course n r (by rw [whole, List.length_append] at less; omega))
    (fun a => (hy a).fill) hI

theorem Course.accept {Y : Bool → Scheme α} (some : K.Viable Anything Anything F near (Y true))
    (none : K.Course (fun r => I r ∧ t.admits (kindAt r 0) = false) F near (Y false)) :
    K.Course I F near (fun g n => Parse.accept t >>= fun b => Y b g n) :=
  fun n s less => .accept (fun first s' whole => some.course n s'
    (by rw [whole, List.length_cons] at less; omega)) some.fill (none n s less)

theorem Course.choose {A B : Scheme α} (some : K.Viable I' S' F near A)
    (none : K.Course Nothing F near B) : K.Course Nothing F near
      (fun g n => Parse.accept t >>= fun b => if b = true then A g n else B g n) :=
  .accept (Y := fun b g n => if b = true then A g n else B g n)
    ⟨some.course.mono (fun _ _ _ => trivial) (fun _ h => h) id,
      some.fill.mono (fun _ _ => trivial) fun _ h => h⟩
    (none.mono (fun _ _ h => h.elim) (fun _ h => h) id)

theorem Course.sees {Y : Bool → Scheme α}
    (hy : ∀ b, K.Course (fun r => I r ∧ t.admits (kindAt r 0) = b) F near (Y b)) :
    K.Course I F near (fun g n => Parse.sees t >>= fun b => Y b g n) :=
  fun n s less => .sees fun b _ => hy b n s less

theorem Course.acceptAll {Y : Bool → Scheme α} (telling : Telling (ts.map Terminal.admits))
    (some : K.Viable Anything Anything F near (Y true)) (none : K.Course I F near (Y false)) :
    K.Course I F near (fun g n => Parse.acceptAll ts >>= fun b => Y b g n) :=
  fun n s less => .acceptAll telling (fun w s' whole => some.course n s'
    (by rw [whole, List.length_append] at less; omega)) some.fill (none n s less)

/-- A terminal that has to be ahead. -/
theorem Course.expect {Y : Unit → Scheme α} (hy : K.Viable Anything Anything F near (Y ())) :
    K.Course I F near (fun g n => Parse.expect t >>= fun u => Y u g n) := by
  simp only [Parse.expect_bind]
  exact .accept (Y := fun b g n => if b = true then Y () g n else Parse.fail t) hy (.fail t)

theorem Fill.expect {Y : Unit → Scheme α} (hy : K.Fill Anything F (Y ()))
    (ht : t ∉ tellingTerminals) (hS : ∀ s, S (t.spelled :: s)) :
    K.Fill S F (fun g n => Parse.expect t >>= fun u => Y u g n) := by
  simp only [Parse.expect_bind]
  exact .accept (Y := fun b g n => if b = true then Y () g n else Parse.fail t) hy ht hS

/-! ### Rules that give a result or none -/

/-- A rule that gives a result behind some token.  Where it gives none it takes no token, and it gives none
where nothing is ahead that it knows. -/
structure Tries (K : Completion) (F : Rests) (x : Grammar → Parse (Option α)) : Prop where
  idle : ∀ (g : Grammar) (p : Parser) (r : List Spelled), r = [] ∨ F r → p.cursor.Shows r →
    x g p = .ok none p
  goes : ∀ {β : Type} {I : Rests} {near : Prop} {n : ℕ} {s : List Spelled} (b : β) (Y : α → Scheme β),
    s.length ≤ n + 1 → (∀ a s', s'.length < s.length → K.Goes F F near (Y a) n s') →
    (∀ a, K.Fill F F (Y a)) → (∀ r, Fits F r → I r) →
    K.Goes I F near (fun g n => x g >>= fun o => match o with
      | none => Pure.pure b
      | some a => Y a g n) n s

namespace Tries

theorem none (F : Rests) : K.Tries F (α := α) fun _ => Pure.pure Option.none where
  idle _ _ _ _ _ := rfl
  goes b _ _ _ _ hI := .pure b hI

/-- A result that is made of what a rule gives behind the terminal `t`. -/
theorem accept {x : Grammar → Parse ω} {y : Grammar → Parse (Option α)} (f : ω → α)
    (hx : K.Viable I S F True fun g _ => x g) (hy : K.Tries F y)
    (stops : ∀ r, F r → t.admits (kindAt r 0) = false) :
    K.Tries F fun g => Parse.accept t >>= fun b =>
      if b = true then x g >>= fun a => Pure.pure (some (f a)) else y g where
  idle g p r ended hp := by
    have other : t.admits p.cursor.current.kind = false := by
      rw [hp.kind]
      rcases ended with rfl | fits
      · exact t.admits_eof
      · exact stops r fits
    rw [Parse.bind_of_ok (Parse.accept_of_not_admits other)]
    exact hy.idle g p r ended hp
  goes {β I near n s} b Y less others fill hI := by
    have pushed : ∀ g n, ((Parse.accept t >>= fun b => if b = true then
        x g >>= fun a => Pure.pure (some (f a)) else y g) >>= fun o => match o with
          | Option.none => Pure.pure b
          | some a => Y a g n : Parse β) = Parse.accept t >>= fun found => if found = true then
            x g >>= fun a => Y (f a) g n else y g >>= fun o => match o with
              | Option.none => Pure.pure b
              | some a => Y a g n := fun g n => by
      rw [Parse.accept_bind]
      simp only [bind_assoc, pure_bind]
    have filled : ∀ a, K.Fill F F (Y (f a)) := fun a => fill (f a)
    simp only [pushed]
    refine .accept (Y := fun found g n => if found = true then _ else _) ?_
      ((hx.fill.bind filled).mono (fun _ _ => trivial) fun _ h => h)
      (hy.goes b Y less others fill fun r fits => ⟨hI r fits, stops r fits.1⟩)
    rintro first s' rfl
    rw [List.length_cons] at less
    refine ((hx.course n s' (by omega)).bind (fun a u r whole _ => others (f a) r ?_) filled
      fun _ h => h).mono (fun _ _ _ => trivial) (fun _ h => h) id
    rw [whole, List.length_cons, List.length_append]
    omega

end Tries

/-! ### Viable rules -/

namespace Viable

theorem mono (h : K.Viable I S F near X) (hI : ∀ r, Harmless r → I r → I' r) (hS : ∀ r, S r → S' r)
    (hF : ∀ r, F' r → F r) (hn : near' → near) : K.Viable I' S' F' near' X :=
  ⟨h.course.mono hI hF hn, h.fill.mono hS hF⟩

/-- A rule that takes a token, behind what it ends. -/
theorem here (h : K.Viable Nothing S F near X) : K.Viable S S F near X :=
  h.mono (fun _ _ h => h.elim) (fun _ h => h) (fun _ h => h) id

/-- In front of less. -/
theorem before (h : K.Viable I S F near X) (hF : ∀ r, F' r → F r) : K.Viable I S F' near X :=
  h.mono (fun _ _ h => h) (fun _ h => h) hF id

/-- Behind anything. -/
theorem anywhere (h : K.Viable I S F near X) : K.Viable Anything Anything F near X :=
  h.mono (fun _ _ _ => trivial) (fun _ _ => trivial) (fun _ h => h) id

theorem pure (a : α) (hF : ∀ r, Fits F r → S r) : K.Viable S S F near (fun _ _ => Pure.pure a) :=
  ⟨fun _ _ _ => .pure a hF, .pure a hF⟩

/-- A result where everything may stand. -/
theorem result (a : α) : K.Viable Anything Anything F near (fun _ _ => Pure.pure a) :=
  .pure a fun _ _ => trivial

/-- A result that leaves what follows. -/
theorem idle (a : α) : K.Viable F F F near (fun _ _ => Pure.pure a) := .pure a fun _ h => h.1

theorem bind {Y : α → Scheme β} (hx : K.Viable I S G True X) (hy : ∀ a, K.Viable G G F near (Y a)) :
    K.Viable I S F near (fun g n => X g n >>= fun a => Y a g n) :=
  ⟨(hx.course.bind hy fun _ h => h).mono (fun _ _ h => h.1) (fun _ h => h) id,
    hx.fill.bind fun a => (hy a).fill⟩

/-- What may take no token, before what takes one. -/
theorem bind_solid {Y : α → Scheme β} (hx : K.Viable I S G True X)
    (hy : ∀ a, K.Viable Nothing G F near (Y a)) :
    K.Viable Nothing S F near (fun g n => X g n >>= fun a => Y a g n) :=
  ⟨(hx.course.bind hy fun _ h => h.elim).mono (fun _ _ h => h.2) (fun _ h => h) id,
    hx.fill.bind fun a => (hy a).fill⟩

/-- What a rule gives may be made into something else. -/
theorem made (f : α → β) (hx : K.Viable I S F near X) :
    K.Viable I S F near (fun g n => X g n >>= fun a => Pure.pure (f a)) :=
  ⟨fun n s less => (hx.course n s less).made f, hx.fill.made f⟩

theorem map (f : α → β) (hx : K.Viable I S F near X) :
    K.Viable I S F near (fun g n => f <$> X g n) := by
  simp only [map_eq_pure_bind]
  exact hx.made f

theorem descend (hx : K.Viable I S F near X) :
    K.Viable I S F near (fun g n => Parse.descend (X g n)) :=
  ⟨fun n s less => (hx.course n s less).descend, hx.fill.descend⟩

theorem remaining (hx : K.Viable I S F near X) :
    K.Viable I S F near (fun g _ => Parse.remaining >>= X g) :=
  ⟨fun _ s _ => (hx.course s.length s le_rfl).remaining, hx.fill.remaining⟩

/-! ### Looks -/

/-- A look at the current token.  Where the rule is filled in, it sees `o`. -/
theorem peek {Y : ω → Scheme α} (look : Token.Kind → ω) (o : ω)
    (goes : ∀ n s, s.length ≤ n → K.Goes (fun r => I r ∧ look (kindAt r 0) = look (kindAt s 0)) F near
      (Y (look (kindAt s 0))) n s)
    (fill : K.Fill (fun r => S r ∧ look (kindAt r 0) = o) F (Y o)) :
    K.Viable I S F near (fun g n => Parse.peek >>= fun k => Y (look k) g n) :=
  ⟨fun n s less => .peek look (goes n s less), .peek look o fill⟩

/-- A choice by a terminal that is not passed over, where one of the ways takes a token. -/
theorem seen {A B : Scheme α} (some : K.Viable Nothing S' F near A)
    (none : K.Viable (fun r => I r ∧ t.admits (kindAt r 0) = false)
      (fun r => S r ∧ t.admits (kindAt r 0) = false) F near B) :
    K.Viable I S F near (fun g n => Parse.sees t >>= fun b => if b = true then A g n else B g n) := by
  refine ⟨.sees (Y := fun b g n => if b = true then A g n else B g n) fun b => ?_,
    .sees (Y := fun b g n => if b = true then A g n else B g n) false none.fill⟩
  cases b with
  | true => exact some.course.mono (fun _ _ h => h.elim) (fun _ h => h) id
  | false => exact none.course

/-- A choice by a terminal that is not passed over, where each of the ways takes a token. -/
theorem ahead {A B : Scheme α} (some : K.Viable Nothing S F near A) (none : K.Course Nothing F near B)
    (hS : ∀ r, S r → t.admits (kindAt r 0) = true) :
    K.Viable Nothing S F near (fun g n => Parse.sees t >>= fun b => if b = true then A g n else B g n) := by
  refine ⟨.sees (Y := fun b g n => if b = true then A g n else B g n) fun b => ?_,
    .sees (Y := fun b g n => if b = true then A g n else B g n) true
      (some.fill.mono (fun r hr => ⟨hr, hS r hr⟩) fun _ h => h)⟩
  cases b with
  | true => exact some.course.mono (fun _ _ h => h.elim) (fun _ h => h) id
  | false => exact none.mono (fun _ _ h => h.elim) (fun _ h => h) id

/-- A terminal that is not passed over in front of nothing, and something in front of others. -/
theorem empty {B : Scheme α} {a : α} (some : ∀ r, F r → I r ∧ t.admits (kindAt r 0) = true)
    (none : K.Viable Nothing S F near B) :
    K.Viable I I F near (fun g n => Parse.sees t >>= fun b => if b = true then Pure.pure a else B g n) := by
  have here : ∀ r, Fits F r → I r ∧ t.admits (kindAt r 0) = true := fun r fits => some r fits.1
  refine ⟨.sees (Y := fun b g n => if b = true then Pure.pure a else B g n) fun b => ?_,
    .sees (Y := fun b g n => if b = true then Pure.pure a else B g n) true (.pure a here)⟩
  cases b with
  | true => exact fun _ _ _ => .pure a here
  | false => exact none.course.mono (fun _ _ h => h.elim) (fun _ h => h) id

/-! ### Terminals -/

/-- A choice by a terminal, where one of the ways has to be taken. -/
theorem choose {A B : Scheme α} (some : K.Viable I' S' F near A) (none : K.Course Nothing F near B)
    (ht : t ∉ tellingTerminals) (hS : ∀ s, S (t.spelled :: s)) :
    K.Viable Nothing S F near
      (fun g n => Parse.accept t >>= fun b => if b = true then A g n else B g n) :=
  ⟨.choose some none, .accept (Y := fun b g n => if b = true then A g n else B g n) some.anywhere.fill
    ht hS⟩

/-- A choice by a terminal, which need not be taken. -/
theorem reject {A B : Scheme α} (some : K.Viable I' S' F near A)
    (none : K.Viable (fun r => I r ∧ t.admits (kindAt r 0) = false)
      (fun r => S r ∧ t.admits (kindAt r 0) = false) F near B) :
    K.Viable I S F near (fun g n => Parse.accept t >>= fun b => if b = true then A g n else B g n) :=
  ⟨.accept (Y := fun b g n => if b = true then A g n else B g n) some.anywhere none.course,
    .reject (Y := fun b g n => if b = true then A g n else B g n) none.fill⟩

/-- A terminal that need not be there. -/
theorem accepted (stops : ∀ r, F r → t.admits (kindAt r 0) = false) :
    K.Viable F F F near (fun _ _ => Parse.accept t) := by
  have choice : (fun _ _ => Parse.accept t : Scheme Bool) =
      fun _ _ => Parse.accept t >>= fun b => Pure.pure b := by simp
  have none : ∀ r, Fits F r → F r ∧ t.admits (kindAt r 0) = false := fun r h => ⟨h.1, stops r h.1⟩
  rw [choice]
  exact ⟨.accept (Y := fun b _ _ => Pure.pure b) (.result true) fun _ _ _ => .pure false none,
    .reject (Y := fun b _ _ => Pure.pure b) (.pure false none)⟩

/-- A terminal that has to be there, at the start of a rule. -/
theorem expect {Y : Unit → Scheme α} (hy : K.Viable I' S' F near (Y ()))
    (ht : t ∉ tellingTerminals) :
    K.Viable Nothing Anything F near (fun g n => Parse.expect t >>= fun u => Y u g n) :=
  ⟨.expect hy.anywhere, .expect hy.anywhere.fill ht fun _ => trivial⟩

/-- A terminal that starts a rule. -/
theorem starting {Y : Unit → Scheme α} (hy : K.Viable I' S' F near (Y ()))
    (ht : t ∉ tellingTerminals) :
    K.Viable Nothing (Starts [t]) F near (fun g n => Parse.expect t >>= fun u => Y u g n) :=
  ⟨.expect hy.anywhere, .expect hy.anywhere.fill ht fun _ => .first t [] _⟩

/-- A terminal that has to be there, behind something that it ends. -/
theorem closing {Y : Unit → Scheme α} (hy : K.Viable I' S' F near (Y ()))
    (ht : t ∉ tellingTerminals) :
    K.Viable (Starts [t]) (Starts [t]) F near (fun g n => Parse.expect t >>= fun u => Y u g n) :=
  (starting hy ht).here

theorem discard_accept {Y : Unit → Scheme α} (hy : K.Viable I S F near (Y ()))
    (hI : ∀ r, I r → t.admits (kindAt r 0) = false) (hS : ∀ r, S r → t.admits (kindAt r 0) = false) :
    K.Viable I S F near (fun g n => discard (Parse.accept t) >>= fun u => Y u g n) := by
  have choice : (fun g n => discard (Parse.accept t) >>= fun u => Y u g n : Scheme α) =
      fun g n => Parse.accept t >>= fun _ => Y () g n := by
    funext g n
    change ((fun _ => ()) <$> Parse.accept t) >>= _ = _
    simp only [map_eq_pure_bind, bind_assoc, pure_bind]
  rw [choice]
  exact ⟨.accept (Y := fun _ => Y ()) hy.anywhere (hy.course.mono (fun r _ h => ⟨h, hI r h⟩)
    (fun _ h => h) id), .reject (Y := fun _ => Y ()) (hy.fill.mono (fun r h => ⟨h, hS r h⟩) fun _ h => h)⟩

/-- Something behind a terminal that need not be there. -/
theorem optional (hx : K.Viable I S F near X) (stops : ∀ r, F r → t.admits (kindAt r 0) = false) :
    K.Viable F F F near (fun g n => Parse.optional t (X g n)) :=
  .reject (hx.made some) (.pure none fun r h => ⟨h.1, stops r h.1⟩)

theorem optionalList {X : Scheme (List α)} (hx : K.Viable I S F near X)
    (stops : ∀ r, F r → t.admits (kindAt r 0) = false) :
    K.Viable F F F near (fun g n => Parse.optionalList t (X g n)) :=
  .reject hx (.pure [] fun r h => ⟨h.1, stops r h.1⟩)

/-- Something behind a terminal that cannot follow it. -/
theorem clause {us : List Terminal} (hx : K.Viable I S (Starts us) near X)
    (apart : t ∉ us) :
    K.Viable (Starts us) (Starts us) (Starts us) near (fun g n => Parse.optional t (X g n)) :=
  hx.optional fun _ h => h.admits apart

/-- Items behind a terminal that cannot follow them. -/
theorem listClause {us : List Terminal} {X : Scheme (List α)} (hx : K.Viable I S (Starts us) near X)
    (apart : t ∉ us) :
    K.Viable (Starts us) (Starts us) (Starts us) near (fun g n => Parse.optionalList t (X g n)) :=
  hx.optionalList fun _ h => h.admits apart

/-- A terminal that is all of a rule. -/
theorem expected (ht : t ∉ tellingTerminals) :
    K.Viable Nothing (Starts [t]) F near (fun _ _ => Parse.expect t) := by
  have all : K.Viable Nothing (Starts [t]) F near fun _ _ => Parse.expect t >>= fun u => Pure.pure u :=
    starting (.result ()) ht
  simpa only [bind_pure] using all

theorem enclosed {opening closing : Symbol} (hx : K.Viable I S (Starts [.symbol closing]) True X)
    (ho : .symbol opening ∉ tellingTerminals)
    (hc : .symbol closing ∉ tellingTerminals) :
    K.Viable Nothing (Starts [.symbol opening]) F near (fun g n => Parse.between opening closing (X g n)) :=
  .starting (.bind hx fun a => .closing (.result a) hc) ho

theorem between {opening closing : Symbol} (hx : K.Viable I S (Starts [.symbol closing]) True X)
    (ho : .symbol opening ∉ tellingTerminals)
    (hc : .symbol closing ∉ tellingTerminals) :
    K.Viable Nothing Anything F near (fun g n => Parse.between opening closing (X g n)) :=
  (enclosed hx ho hc).mono (fun _ _ h => h) (fun _ _ => trivial) (fun _ h => h) id

/-- Terminals that are passed over together, or not at all. -/
theorem acceptAll {A B : Scheme α} (telling : Telling (ts.map Terminal.admits))
    (some : K.Viable I' S' F near A)
    (none : K.Viable I S F near B) :
    K.Viable I S F near (fun g n => Parse.acceptAll ts >>= fun b => if b = true then A g n else B g n) :=
  ⟨.acceptAll (Y := fun b g n => if b = true then A g n else B g n) telling some.anywhere none.course,
    .acceptAll (Y := fun b g n => if b = true then A g n else B g n) telling none.fill⟩

/-- Terminals that need not be there. -/
theorem acceptedAll (telling : Telling (ts.map Terminal.admits)) : K.Viable F F F near
    (fun _ _ => Parse.acceptAll ts) := by
  have choice : (fun _ _ => Parse.acceptAll ts : Scheme Bool) =
      fun _ _ => Parse.acceptAll ts >>= fun b => Pure.pure b := by simp
  rw [choice]
  exact ⟨.acceptAll (Y := fun b _ _ => Pure.pure b) telling (.result true) (Viable.idle false).course,
    .acceptAll (Y := fun b _ _ => Pure.pure b) telling (.pure false fun _ fits => fits.1)⟩

/-! ### Loops -/

/-- A loop whose rounds take a token at least.  Nothing takes part in it that can follow it. -/
theorem loop {X : σ → Scheme α} {e : σ → α}
    (idle : ∀ i g n r, r = [] ∨ F r → ∀ p : Parser, p.cursor.Shows r → X i g n p = .ok (e i) p)
    (round : (∀ i, K.Fill F F (X i)) → ∀ i n s, s.length ≤ n + 1 →
      (∀ j s', s'.length < s.length → K.Goes F F near (X j) n s') →
        K.Goes F F near (fun g n => X i g (n + 1)) n s) (i : σ) : K.Viable F F F near (X i) := by
  have fill : ∀ i, K.Fill F F (X i) := fun i => ⟨[], e i, .nil, fun r fits => fits.1, 0,
    fun r fits m _ n _ p hp _ _ => ⟨p.cursor, hp, idle i _ n r (.inr fits.1) p hp⟩⟩
  refine ⟨fun n s less => ?_, fill i⟩
  induction n generalizing i s with
  | zero =>
    obtain rfl := List.length_eq_zero_iff.1 (Nat.le_zero.1 less)
    intro p hp
    rw [idle i K.first 0 [] (.inl rfl) p hp]
    refine .passed (.refl p.cursor) hp ?_ fun _ r fits => fits.1
    refine ⟨0, fun r follows m _ n _ p hp _ _ => ⟨p.cursor, hp, ?_⟩⟩
    rcases follows with fits | ⟨-, w, t, t', some, none, -⟩
    · exact idle i _ n r (.inr fits.1) p hp
    · simp [some] at none
  | succ n ih => exact (round fill i n s less fun j s' shorter => ih j s' (by omega)).round

/-- Results of a rule one after the other, as long as it gives one. -/
theorem repeated {x : Grammar → Parse (Option α)} {L : Scheme (List α)} (hx : K.Tries F x)
    (zero : ∀ g, L g 0 = Pure.pure [])
    (succ : ∀ g n, L g (n + 1) = x g >>= fun o => match o with
      | none => Pure.pure []
      | some a => L g n >>= fun others => Pure.pure (a :: others)) :
    K.Viable F F F near L := by
  refine loop (X := fun (_ : Unit) => L) (e := fun _ => []) ?_ ?_ ()
  · rintro - g (_ | n) r ended p hp
    · rw [zero]
      rfl
    · rw [succ, Parse.bind_of_ok (hx.idle g p r ended hp)]
      rfl
  · intro fill _ n s less others
    simp only [succ]
    exact hx.goes [] (fun a g n => L g n >>= fun others => Pure.pure (a :: others)) less
      (fun a s' shorter => (others () s' shorter).made (a :: ·)) (fun a => (fill ()).made (a :: ·))
      fun _ fits => fits.1

/-- Items, each behind the terminal `t`. -/
theorem items {x : Grammar → Parse α} {L : Scheme (List α)} (zero : ∀ g, L g 0 = Pure.pure [])
    (succ : ∀ g n, L g (n + 1) = Parse.accept t >>= fun b => if b = true then
      x g >>= fun first => L g n >>= fun others => Pure.pure (first :: others) else Pure.pure [])
    (hx : K.Viable I S F True fun g _ => x g) (stops : ∀ r, F r → t.admits (kindAt r 0) = false) :
    K.Viable F F F near L := by
  refine repeated (.accept id hx (.none F) stops) zero fun g n => ?_
  rw [succ, Parse.accept_bind]
  simp only [bind_assoc, pure_bind, id]

/-- Further items behind commas. -/
theorem commaItems {x : Grammar → Parse α} (hx : K.Viable I S F True fun g _ => x g)
    (stops : ∀ r, F r → (Terminal.symbol comma).admits (kindAt r 0) = false) :
    K.Viable F F F near (fun g n => Parse.commaItems (x g) n) :=
  .items (fun _ => rfl) (fun _ _ => rfl) hx stops

/-- Items with commas between them. -/
theorem commaList {x : Grammar → Parse α} (hx : K.Viable I S F True fun g _ => x g)
    (stops : ∀ r, F r → (Terminal.symbol comma).admits (kindAt r 0) = false) :
    K.Viable I S F near (fun g _ => Parse.commaList (x g)) :=
  .bind hx fun first => .remaining (X := fun g n => Parse.commaItems (x g) n >>= fun others =>
    Pure.pure (first :: others)) ((commaItems hx stops).made (first :: ·))

/-- Items with commas between them, where no comma can follow. -/
theorem list {us : List Terminal} {x : Grammar → Parse α}
    (hx : K.Viable I S (Starts us) True fun g _ => x g)
    (apart : Terminal.symbol comma ∉ us) :
    K.Viable I S (Starts us) near (fun g _ => Parse.commaList (x g)) :=
  hx.commaList fun _ h => h.admits apart

/-- Items with commas between them up to a symbol, where there may be none. -/
theorem commaListUpTo {x : Grammar → Parse α} {closing : Symbol} (hc : closing ≠ comma)
    (hx : K.Viable Nothing S (Starts [.symbol closing]) True fun g _ => x g) :
    K.Viable Anything Anything (Starts [.symbol closing]) near
      (fun g _ => Parse.commaListUpTo closing (x g)) := by
  exact .empty (fun r h => ⟨trivial, h.sees⟩) (list hx (by simpa using hc.symm))

end Viable

end Completion

end CanonicalSql
