import Mathlib
import CanonicalSql.Proofs.Course.Step
import CanonicalSql.Proofs.Lexing.Spaced
import CanonicalSql.Proofs.Reading.Operator

/-! What can stand behind the tokens that a step of a parse has passed over.  Where the step is refused,
some tokens complete what it has begun; where it gives a result, it gives the same one in front of
everything that does not mislead it.  `Completion.Viable` says both of a rule. -/

namespace CanonicalSql

open Keyword Word CanonicalSql.Symbol

/-! ### Tokens that mislead no rule -/

/-- The terminals by which a rule tells, behind the current token, what it stands before. -/
def tellingTerminals : List Terminal := [EXISTS, CLUSTER, REPLACE, LIKE, ILIKE, BETWEEN, IN, star]

/-- Whether no terminal among these tokens tells a rule anything, up to the first semicolon.  No rule
looks past a semicolon. -/
def Harmless : List Spelled → Prop
  | [] => True
  | t :: s => t.kind = .symbol .semicolon ∨
      (∀ u ∈ tellingTerminals, u.admits t.kind = false) ∧ Harmless s

theorem Harmless.append {v r : List Spelled} (hv : Harmless v) (hr : Harmless r) :
    Harmless (v ++ r) := by
  induction v with
  | nil => exact hr
  | cons t v ih => exact hv.imp_right fun h => ⟨h.1, ih h.2⟩

theorem Harmless.terminal {t : Terminal} (ht : t ∉ tellingTerminals) : Harmless [t.spelled] := by
  refine .inr ⟨fun u hu => ?_, trivial⟩
  have other : u ≠ t := fun h => ht (h ▸ hu)
  simp [other]

/-- A legible piece stands for its token. -/
theorem Piece.stands_of_token? (piece : Piece) {t : Spelled} (legible : piece.Legible)
    (h : piece.token? = some t) : t.Stands := by
  obtain ⟨kind, hk, rfl⟩ := Option.map_eq_some_iff.1 h
  intro rest hr
  rw [String.toList_ofList, scan_piece legible (piece.endsBefore_of_breaks hr), content, hk]

theorem Terminal.stands (t : Terminal) : t.spelled.Stands := by
  cases t with
  | keyword k =>
    exact (Piece.keyword k).stands_of_token? trivial
      (by simp [Piece.token?, Piece.kind?, Piece.chars, spelled])
  | word w =>
    exact (Piece.word w).stands_of_token? trivial (by simp [Piece.token?, Piece.kind?, Piece.chars, spelled])
  | symbol s =>
    exact (Piece.symbol s).stands_of_token? trivial
      (by simp [Piece.token?, Piece.kind?, Piece.chars, spelled, Symbol.chars])

/-- Whether the tokens can be filled in: they mislead no rule, and each of them can be written. -/
structure Filling (v : List Spelled) : Prop where
  harmless : Harmless v
  stands : ∀ t ∈ v, t.Stands

namespace Filling

theorem nil : Filling [] := ⟨trivial, by simp⟩

theorem append {v w : List Spelled} (hv : Filling v) (hw : Filling w) : Filling (v ++ w) :=
  ⟨hv.harmless.append hw.harmless, fun t ht => (List.mem_append.1 ht).elim (hv.stands t) (hw.stands t)⟩

theorem terminal {t : Terminal} (ht : t ∉ tellingTerminals) : Filling [t.spelled] :=
  ⟨.terminal ht, by simpa using t.stands⟩

/-- The token of a piece that is no telling terminal. -/
theorem of_token? (piece : Piece) {t : Spelled} (legible : piece.Legible) (h : piece.token? = some t)
    (silent : ∀ u ∈ tellingTerminals, u.admits t.kind = false) : Filling [t] :=
  ⟨.inr ⟨silent, trivial⟩, by simpa using piece.stands_of_token? legible h⟩

end Filling

/-- Whether the kinds of the first tokens pass the tests, one by one. -/
def Meets : List (Token.Kind → Bool) → List Spelled → Bool
  | [], _ => true
  | test :: tests, s => test (kindAt s 0) && Meets tests s.tail

theorem Cursor.Shows.facesAt {c : Cursor} {s : List Spelled} (h : c.Shows s) (ts : List Terminal)
    (n : ℕ) : c.facesAt n ts = Meets (ts.map Terminal.admits) (s.drop n) := by
  induction ts generalizing n with
  | nil => rfl
  | cons t ts ih =>
    have head : kindAt (s.drop n) 0 = kindAt s n := by
      simp [kindAt]
    rw [Cursor.facesAt, List.map_cons, Meets, h.peekAt, ih, head, List.tail_drop]

/-- Whether the last of some tests asks for a telling terminal, and none of them lets a semicolon or the end
pass. -/
structure Telling (tests : List (Token.Kind → Bool)) : Prop where
  inside : ∀ test ∈ tests, test .eof = false ∧ test (.symbol .semicolon) = false
  last : ∃ test, tests.getLast? = some test ∧
    ∀ k, test k = true → ∃ u ∈ tellingTerminals, u.admits k = true

namespace Telling

variable {test : Token.Kind → Bool} {tests : List (Token.Kind → Bool)} {s r r' w : List Spelled}

theorem of_terminals {ts : List Terminal}
    (h : (∃ t, ts.getLast? = some t ∧ t ∈ tellingTerminals) ∧ Terminal.symbol semicolon ∉ ts) :
    Telling (ts.map Terminal.admits) := by
  obtain ⟨⟨t, last, telling⟩, others⟩ := h
  refine ⟨?_, t.admits, by simp [List.getLast?_map, last], fun k hk => ⟨t, telling, hk⟩⟩
  simp only [List.mem_map, forall_exists_index, and_imp, forall_apply_eq_imp_iff₂]
  intro u hu
  refine ⟨u.admits_eof, ?_⟩
  have other : u ≠ Symbol.semicolon := fun h => others (h ▸ hu)
  cases u with
  | keyword | word => rfl
  | symbol s => exact decide_eq_false fun h => other (h ▸ rfl)

theorem tail (h : Telling (test :: tests)) (some : tests ≠ []) : Telling tests := by
  obtain ⟨next, others, rfl⟩ := List.exists_cons_of_ne_nil some
  obtain ⟨last, found, asks⟩ := h.last
  exact ⟨fun test ht => h.inside test (List.mem_cons_of_mem _ ht), last, by simpa using found, asks⟩

theorem ne_nil (h : Telling tests) : tests ≠ [] := by
  rintro rfl
  obtain ⟨last, found, -⟩ := h.last
  cases found

theorem meets_of_harmless (h : Telling tests) (hs : Harmless s) : Meets tests s = false := by
  induction tests generalizing s with
  | nil => exact absurd rfl h.ne_nil
  | cons test tests ih =>
    obtain ⟨ended, semicolon⟩ := h.inside test List.mem_cons_self
    cases s with
    | nil => simp [Meets, ended]
    | cons first s =>
      rw [Meets, kindAt_cons_zero, Bool.and_eq_false_iff]
      rcases hs with hk | ⟨silent, hs⟩
      · exact .inl (hk ▸ semicolon)
      · by_cases single : tests = []
        · subst single
          obtain ⟨last, found, asks⟩ := h.last
          obtain rfl : test = last := by simpa using found
          refine .inl (Bool.eq_false_of_not_eq_true fun passed => ?_)
          obtain ⟨u, hu, admits⟩ := asks _ passed
          rw [silent u hu] at admits
          cases admits
        · exact .inr (ih (h.tail single) hs)

/-- Where the telling terminal is missing, harmless tokens do not bring it in. -/
theorem meets_of_common (h : Telling tests) (hr : Meets tests (w ++ r) = false) (hr' : Harmless r') :
    Meets tests (w ++ r') = false := by
  induction w generalizing tests with
  | nil => exact h.meets_of_harmless hr'
  | cons first w ih =>
    cases tests with
    | nil => exact absurd rfl h.ne_nil
    | cons test tests =>
      simp only [List.cons_append, Meets, kindAt_cons_zero, List.tail_cons,
        Bool.and_eq_false_iff] at hr ⊢
      refine hr.imp_right fun hr => ?_
      by_cases single : tests = []
      · simp [single, Meets] at hr
      · exact ih (h.tail single) hr

end Telling

/-! ### What follows -/

/-- What can stand behind the tokens that a step passes over. -/
abbrev Rests : Type := List Spelled → Prop

/-- Everything may follow. -/
abbrev Anything : Rests := fun _ => True

/-- Nothing may follow. -/
abbrev Nothing : Rests := fun _ => False

/-- Whether the tokens start with the token `first`. -/
def StartsWith (first : Spelled) : Rests := fun r => ∃ s, r = first :: s

/-- Whether the tokens start with one of the terminals. -/
def Starts (ts : List Terminal) : Rests := fun r => ∃ t ∈ ts, ∃ s, r = t.spelled :: s

/-- Whether none of the terminals is on the list `us`. -/
abbrev Absent (ts us : List Terminal) : Prop := ∀ t ∈ ts, t ∉ us

theorem Absent.mono {ts ts' us : List Terminal} (h : Absent ts us) (hs : ts' ⊆ ts) :
    Absent ts' us := fun t ht => h t (hs ht)

namespace Starts

variable {ts us : List Terminal} {r : List Spelled}

theorem begins (h : Starts ts r) : Begins ts r := .inr h

theorem mono (h : Starts ts r) (hs : ts ⊆ us) : Starts us r := by
  obtain ⟨t, ht, s, rfl⟩ := h
  exact ⟨t, hs ht, s, rfl⟩

theorem first (t : Terminal) (ts : List Terminal) (s : List Spelled) :
    Starts (t :: ts) (t.spelled :: s) := ⟨t, List.mem_cons_self, s, rfl⟩

theorem admits {t : Terminal} (h : Starts ts r) (ht : t ∉ ts) :
    t.admits (kindAt r 0) = false := h.begins.admits ht

theorem sees {t : Terminal} (h : Starts [t] r) : t.admits (kindAt r 0) = true := by
  obtain ⟨u, hu, s, rfl⟩ := h
  rw [List.mem_singleton.1 hu]
  exact t.admits_self

theorem ends {level : ℕ} (h : Starts ts r) (ht : ts.all Terminal.endsExpr = true) :
    Ends level false r := .of_begins h.begins ht

end Starts

/-- Whether the tokens may follow, and mislead no rule. -/
def Fits (F : Rests) : Rests := fun r => F r ∧ Harmless r

/-- Whether the tokens `r'` start as `r` does, with one token at least, and go on harmlessly. -/
def Near (r r' : List Spelled) : Prop :=
  ∃ w t t', w ≠ [] ∧ r = w ++ t ∧ r' = w ++ t' ∧ Harmless t'

namespace Near

variable {u r r' : List Spelled}

theorem of_harmless (hu : u ≠ []) (r : List Spelled) (hr : Harmless r') :
    Near (u ++ r) (u ++ r') := ⟨u, r, r', hu, rfl, rfl, hr⟩

theorem append (u : List Spelled) (h : Near r r') : Near (u ++ r) (u ++ r') := by
  obtain ⟨w, t, t', hw, rfl, rfl, ht⟩ := h
  exact ⟨u ++ w, t, t', by simp [hw], by simp, by simp, ht⟩

theorem kindAt (h : Near r r') : kindAt r' 0 = kindAt r 0 := by
  obtain ⟨w, t, t', hw, rfl, rfl, -⟩ := h
  obtain ⟨first, w, rfl⟩ := List.exists_cons_of_ne_nil hw
  rfl

theorem meets {tests : List (Token.Kind → Bool)} (ht : Telling tests) (h : Near r r')
    (hr : Meets tests r = false) : Meets tests r' = false := by
  obtain ⟨w, t, t', -, rfl, rfl, harmless⟩ := h
  exact ht.meets_of_common hr harmless

end Near

/-- What may follow where `r` follows at first: what fits, and if `near` also what starts as `r`. -/
def Follows (F : Rests) (near : Prop) (r : List Spelled) : Rests :=
  fun r' => Fits F r' ∨ (near ∧ Near r r')

/-! ### Places -/

/-- Whether the cursor `c'` stands behind the tokens `u` from the cursor `c` on. -/
def Cursor.Moves (c : Cursor) (u : List Spelled) (c' : Cursor) : Prop :=
  ∃ ts : List Token, c.upcoming = ts ++ c'.upcoming ∧ ts.map Token.spelled = u

namespace Cursor.Moves

variable {c c' c'' : Cursor} {u v s r : List Spelled} {t : Spelled}

theorem refl (c : Cursor) : c.Moves [] c := ⟨[], rfl, rfl⟩

theorem trans (h : c.Moves u c') (h' : c'.Moves v c'') : c.Moves (u ++ v) c'' := by
  obtain ⟨ts, hc, rfl⟩ := h
  obtain ⟨us, hc', rfl⟩ := h'
  exact ⟨ts ++ us, by rw [hc, hc', List.append_assoc], List.map_append⟩

theorem advance (h : c.Shows (t :: s)) : c.Moves [t] c.advance := by
  obtain ⟨all, marks⟩ := h
  obtain ⟨passed, token, ahead⟩ := c
  simp only [upcoming, List.map_cons, List.cons_append, List.cons.injEq] at all
  have noEnd : token.kind ≠ .eof := by
    have first := marks t (by simp)
    rwa [← all.1] at first
  cases ahead with
  | nil => simp at all
  | cons next ahead => exact ⟨[token], by simp [Cursor.advance, noEnd, upcoming], by simp [all.1]⟩

theorem shows (h : c.Moves u c') (hc : c.Shows s) (hc' : c'.Shows r) : s = u ++ r := by
  obtain ⟨ts, all, rfl⟩ := h
  have whole := hc.1
  rw [all, List.map_append, hc'.1, ← List.append_assoc] at whole
  exact (List.append_cancel_right whole).symm

end Cursor.Moves

/-! ### Runs and their completions -/

/-- A rule, for every grammar of what stands inside and every number of rounds that it may take. -/
abbrev Scheme (α : Type) : Type := Grammar → ℕ → Parse α

/-- The grammar of a run that may be refused, and those of the runs that complete it. -/
structure Completion where
  first : Grammar
  again : ℕ → Grammar

namespace Completion

variable {K : Completion} {α β σ ω : Type}

/-- Whether the completing runs that are long enough pass over `u` in front of `r`, and give `a`. -/
def Passes (K : Completion) (X : Scheme α) (bound : ℕ) (u : List Spelled) (a : α)
    (r : List Spelled) : Prop :=
  ∀ m ≥ bound, ∀ n ≥ bound, ∀ p : Parser, p.cursor.Shows (u ++ r) → bound ≤ p.room →
    bound ≤ r.length → ∃ c : Cursor, c.Shows r ∧ X (K.again m) n p = .ok a { p with cursor := c }

/-- Whether the tokens `u` lead to the result `a` in front of all of the tokens `R`. -/
def Leads (K : Completion) (X : Scheme α) (R : Rests) (u : List Spelled) (a : α) : Prop :=
  ∃ bound, ∀ r, R r → K.Passes X bound u a r

/-- Whether some tokens filled in behind `u` make something whole of it, in front of all that fits. -/
def Finishes (K : Completion) (X : Scheme α) (F : Rests) (u : List Spelled) : Prop :=
  ∃ v a, Filling v ∧ K.Leads X (Fits F) (u ++ v) a

/-- Whether some tokens filled in make something whole, in front of all that fits, and start as `S`
says. -/
def Fill (K : Completion) (S F : Rests) (X : Scheme α) : Prop :=
  ∃ v a, Filling v ∧ (∀ r, Fits F r → S (v ++ r)) ∧ K.Leads X (Fits F) v a

/-- What becomes of a run.  Its result stands in front of everything that follows; where it is refused
behind some tokens, they can be made whole.  A result that takes no token comes only where `I` follows. -/
inductive Outcome (K : Completion) (I F : Rests) (near : Prop) (X : Scheme α) (p : Parser) :
    EStateM.Result ParseError Parser α → Prop
  | passed {a : α} {u r : List Spelled} {c : Cursor} : p.cursor.Moves u c → c.Shows r →
      K.Leads X (Follows F near r) u a → (u = [] → ∀ r', Fits F r' → I r') →
      Outcome K I F near X p (.ok a { p with cursor := c })
  | refused {found : Token} {expected : Expectation} {q : Parser} {u r : List Spelled} {c : Cursor} :
      p.cursor.Moves u c → c.Shows r → c.current = found → (u ≠ [] → K.Finishes X F u) →
      Outcome K I F near X p (.error (.unexpected found expected) q)
  | tooDeep {position : Position} {limit : ℕ} {q : Parser} :
      Outcome K I F near X p (.error (.tooDeep position limit) q)

/-- What becomes of a rule in front of the tokens `s`. -/
def Goes (K : Completion) (I F : Rests) (near : Prop) (X : Scheme α) (n : ℕ) (s : List Spelled) :
    Prop :=
  ∀ p : Parser, p.cursor.Shows s → K.Outcome I F near X p (X K.first n p)

/-- What becomes of a rule in front of all tokens, if it may take as many rounds as there are tokens. -/
def Course (K : Completion) (I F : Rests) (near : Prop) (X : Scheme α) : Prop :=
  ∀ n s, s.length ≤ n → K.Goes I F near X n s

/-- A rule that can be made whole from where it is refused, and from its start. -/
structure Viable (K : Completion) (I S F : Rests) (near : Prop) (X : Scheme α) : Prop where
  course : K.Course I F near X
  fill : K.Fill S F X

section

variable {X Y : Scheme α} {I I' S S' F F' G : Rests} {near near' : Prop} {n : ℕ}
  {s u v w r : List Spelled} {R R' : Rests} {a : α} {b : β} {t : Terminal}

/-! ### Completing runs -/

theorem Leads.mono (h : K.Leads X R u a) (hR : ∀ r, R' r → R r) : K.Leads X R' u a := by
  obtain ⟨bound, passes⟩ := h
  exact ⟨bound, fun r hr => passes r (hR r hr)⟩

theorem Leads.pure (R : Rests) (a : α) : K.Leads (fun _ _ => Pure.pure a) R [] a :=
  ⟨0, fun _ _ _ _ _ _ p hp _ _ => ⟨p.cursor, hp, rfl⟩⟩

theorem Leads.bind {Y : α → Scheme β} (hx : K.Leads X R u a) (hy : K.Leads (Y a) R' v b)
    (between : ∀ r, R' r → R (v ++ r)) :
    K.Leads (fun g n => X g n >>= fun a => Y a g n) R' (u ++ v) b := by
  obtain ⟨bound, passes⟩ := hx
  obtain ⟨bound', passes'⟩ := hy
  refine ⟨max bound bound', fun r hr m hm n hn p hp room more => ?_⟩
  simp only [ge_iff_le, max_le_iff] at hm hn room more
  rw [List.append_assoc] at hp
  obtain ⟨c, hc, run⟩ := passes _ (between r hr) m hm.1 n hn.1 p hp room.1
    (by rw [List.length_append]; omega)
  obtain ⟨c', hc', run'⟩ := passes' r hr m hm.2 n hn.2 { p with cursor := c } hc room.2 more.2
  exact ⟨c', hc', (Parse.bind_of_ok run).trans run'⟩

theorem Leads.made (f : α → β) (hx : K.Leads X R u a) :
    K.Leads (fun g n => X g n >>= fun a => Pure.pure (f a)) R u (f a) := by
  have made := hx.bind (Y := fun a _ _ => Pure.pure (f a)) (.pure R (f a)) fun _ h => h
  rwa [List.append_nil] at made

/-- A rule that moves over `w` and then goes on as another one, if there is room for a level. -/
theorem Leads.behind (hx : K.Leads X R u a)
    (same : ∀ r, R r → ∀ (g : Grammar) (n : ℕ) (p : Parser), p.cursor.Shows (w ++ (u ++ r)) →
      0 < p.room → ∃ c : Cursor, c.Shows (u ++ r) ∧ Y g n p = X g n { p with cursor := c }) :
    K.Leads Y R (w ++ u) a := by
  obtain ⟨bound, passes⟩ := hx
  refine ⟨bound + 1, fun r hr m hm n hn p hp room more => ?_⟩
  rw [List.append_assoc] at hp
  obtain ⟨c, hc, run⟩ := same r hr (K.again m) n p hp (by omega)
  obtain ⟨c', hc', run'⟩ := passes r hr m (by omega) n (by omega) { p with cursor := c } hc
    (Nat.le_of_succ_le room) (by omega)
  exact ⟨c', hc', by rw [run]; exact run'⟩

/-- A rule that goes on as another one does. -/
theorem Leads.congr (hx : K.Leads X R u a)
    (same : ∀ r, R r → ∀ (g : Grammar) (n : ℕ) (p : Parser), p.cursor.Shows (u ++ r) →
      Y g n p = X g n p) : K.Leads Y R u a :=
  hx.behind (w := []) fun r hr g n p hp _ => ⟨p.cursor, hp, same r hr g n p hp⟩

theorem Leads.remaining (hx : K.Leads X R u a) :
    K.Leads (fun g _ => Parse.remaining >>= X g) R u a := by
  obtain ⟨bound, passes⟩ := hx
  refine ⟨bound, fun r hr m hm _ _ p hp room more => ?_⟩
  have enough : bound ≤ p.cursor.remaining := by
    rw [Cursor.remaining, hp.length, List.length_append]
    omega
  exact passes r hr m hm _ enough p hp room more

/-- A round more of a loop. -/
theorem Leads.round (hx : K.Leads (fun g n => X g (n + 1)) R u a) : K.Leads X R u a := by
  obtain ⟨bound, passes⟩ := hx
  refine ⟨bound + 1, fun r hr m hm n hn p hp room more => ?_⟩
  obtain ⟨n, rfl⟩ : ∃ k, n = k + 1 := ⟨n - 1, by omega⟩
  exact passes r hr m (by omega) n (by omega) p hp (by omega) (by omega)

theorem Leads.descend (hx : K.Leads X R u a) :
    K.Leads (fun g n => Parse.descend (X g n)) R u a := by
  obtain ⟨bound, passes⟩ := hx
  refine ⟨bound + 1, fun r hr m hm n hn p hp room more => ?_⟩
  unfold Parser.room at room
  obtain ⟨c, hc, run⟩ := passes r hr m (by omega) n (by omega) { p with depth := p.depth + 1 } hp
    (by unfold Parser.room; dsimp only; omega) (by omega)
  refine ⟨c, hc, ?_⟩
  change Parse.descend (X (K.again m) n) p = _
  rw [Parse.descend, if_pos (by omega), run]
  rfl

/-! ### Fillings -/

theorem Fill.mono (h : K.Fill S F X) (hS : ∀ r, S r → S' r) (hF : ∀ r, F' r → F r) :
    K.Fill S' F' X := by
  obtain ⟨v, a, filling, starts, leads⟩ := h
  have fits : ∀ r, Fits F' r → Fits F r := fun r hr => ⟨hF r hr.1, hr.2⟩
  exact ⟨v, a, filling, fun r hr => hS _ (starts r (fits r hr)), leads.mono fits⟩

theorem Fill.pure (a : α) (hS : ∀ r, Fits F r → S r) : K.Fill S F (fun _ _ => Pure.pure a) :=
  ⟨[], a, .nil, hS, .pure _ a⟩

theorem Fill.bind {Y : α → Scheme β} (hx : K.Fill S G X) (hy : ∀ a, K.Fill G F (Y a)) :
    K.Fill S F (fun g n => X g n >>= fun a => Y a g n) := by
  obtain ⟨v, a, filling, starts, leads⟩ := hx
  obtain ⟨v', b, filling', starts', leads'⟩ := hy a
  have fits : ∀ r, Fits F r → Fits G (v' ++ r) := fun r hr => ⟨starts' r hr, filling'.harmless.append hr.2⟩
  refine ⟨v ++ v', b, filling.append filling', fun r hr => ?_, leads.bind leads' fits⟩
  rw [List.append_assoc]
  exact starts _ (fits r hr)

/-- A filling behind tokens that are passed over finishes them. -/
theorem Fill.behind {C : Rests} (hx : K.Fill C F X)
    (same : ∀ (s : List Spelled) (g : Grammar) (n : ℕ) (p : Parser), C s → p.cursor.Shows (w ++ s) →
      0 < p.room → ∃ c : Cursor, c.Shows s ∧ Y g n p = X g n { p with cursor := c }) :
    K.Finishes Y F w := by
  obtain ⟨v, a, filling, starts, leads⟩ := hx
  exact ⟨v, a, filling, leads.behind fun r fits g n p hp => same (v ++ r) g n p (starts r fits) hp⟩

theorem Fill.congr {C : Rests} (hx : K.Fill (fun r => S r ∧ C r) F X)
    (same : ∀ (s : List Spelled) (g : Grammar) (n : ℕ) (p : Parser), C s → p.cursor.Shows s →
      Y g n p = X g n p) : K.Fill S F Y := by
  obtain ⟨v, a, filling, starts, leads⟩ := hx
  exact ⟨v, a, filling, fun r hr => (starts r hr).1,
    leads.congr fun r hr g n p hp => same _ g n p (starts r hr).2 hp⟩

/-- A filling in front of which a token is passed over. -/
theorem Fill.front {C : Rests} {first : Spelled} (hx : K.Fill C F X) (silent : Filling [first])
    (hS : ∀ s, S (first :: s))
    (same : ∀ (s : List Spelled) (g : Grammar) (n : ℕ) (p : Parser), C s → p.cursor.Shows (first :: s) →
      ∃ c : Cursor, c.Shows s ∧ Y g n p = X g n { p with cursor := c }) :
    K.Fill S F Y := by
  obtain ⟨v, a, filling, starts, leads⟩ := hx
  exact ⟨first :: v, a, silent.append filling, fun r _ => hS _,
    leads.behind (w := [first]) fun r fits g n p hp _ => same (v ++ r) g n p (starts r fits) hp⟩

/-! ### Runs -/

theorem Goes.mono (h : K.Goes I F near X n s) (hI : ∀ r, Harmless r → I r → I' r)
    (hF : ∀ r, F' r → F r) (hn : near' → near) : K.Goes I' F' near' X n s := by
  intro p hp
  have fits : ∀ r, Fits F' r → Fits F r := fun r hr => ⟨hF r hr.1, hr.2⟩
  have outcome := h p hp
  revert outcome
  generalize X K.first n p = result
  rintro (⟨moves, shows, leads, idle⟩ | ⟨moves, shows, found, finishes⟩ | _)
  · exact .passed moves shows (leads.mono fun r => Or.imp (fits r) (And.imp_left hn))
      fun none r hr => hI r hr.2 (idle none r (fits r hr))
  · refine .refused moves shows found fun some => ?_
    obtain ⟨v, a, filling, leads⟩ := finishes some
    exact ⟨v, a, filling, leads.mono fits⟩
  · exact .tooDeep

theorem Goes.pure (a : α) (hI : ∀ r, Fits F r → I r) : K.Goes I F near (fun _ _ => Pure.pure a) n s :=
  fun p hp => .passed (.refl p.cursor) hp (.pure _ a) fun _ => hI

theorem Goes.fail (expected : Expectation) :
    K.Goes I F near (α := α) (fun _ _ => Parse.fail expected) n s :=
  fun p hp => .refused (.refl p.cursor) hp rfl fun some => absurd rfl some

/-- A step and another one.  What is refused in the first step is finished by the rest of it and a filling
of the second one. -/
theorem Goes.bind {Y : α → Scheme β} (hx : K.Goes I G True X n s)
    (hy : ∀ a u r, s = u ++ r →
      (∃ p q : Parser, p.cursor.Shows s ∧ q.cursor.Shows r ∧ X K.first n p = .ok a q) →
      K.Goes I' F near (Y a) n r)
    (fill : ∀ a, K.Fill G F (Y a)) (hI : ∀ r, I' r → G r) :
    K.Goes (fun r => I r ∧ I' r) F near (fun g n => X g n >>= fun a => Y a g n) n s := by
  intro p hp
  change K.Outcome _ F near _ p ((X K.first n >>= fun a => Y a K.first n) p)
  have outcome := hx p hp
  revert outcome
  generalize run : X K.first n p = result
  rintro (⟨moves, shows, leads, idle⟩ | ⟨moves, shows, found, finishes⟩ | _)
  · rename_i a u r c
    rw [Parse.bind_of_ok run]
    have whole := moves.shows hp shows
    have second := hy a u r whole ⟨p, _, hp, shows, run⟩ { p with cursor := c } shows
    revert second
    generalize Y a K.first n { p with cursor := c } = result
    rintro (⟨moves', shows', leads', idle'⟩ | ⟨moves', shows', found', finishes'⟩ | _)
    · rename_i b v r' c'
      have behind := moves'.shows shows shows'
      refine .passed (moves.trans moves') shows' (leads.bind leads' ?_) ?_
      · rintro r'' (fits | ⟨hn, near⟩)
        · by_cases none : v = []
          · exact .inl ⟨none ▸ hI _ (idle' none r'' fits), none ▸ fits.2⟩
          · exact .inr ⟨trivial, behind ▸ .of_harmless none r' fits.2⟩
        · exact .inr ⟨trivial, behind ▸ near.append v⟩
      · rw [List.append_eq_nil_iff]
        rintro ⟨none, none'⟩ r'' fits
        exact ⟨idle none r'' ⟨hI _ (idle' none' r'' fits), fits.2⟩, idle' none' r'' fits⟩
    · rename_i v r' c'
      have behind := moves'.shows shows shows'
      refine .refused (moves.trans moves') shows' found' fun some => ?_
      by_cases none : v = []
      · obtain ⟨v', b, filling, starts, leads'⟩ := fill a
        refine ⟨v', b, filling, ?_⟩
        rw [none, List.append_nil]
        exact leads.bind leads' fun r'' fits => .inl ⟨starts r'' fits, filling.harmless.append fits.2⟩
      · obtain ⟨v', b, filling, leads'⟩ := finishes' none
        refine ⟨v', b, filling, ?_⟩
        rw [List.append_assoc]
        refine leads.bind leads' fun r'' fits => .inr ⟨trivial, ?_⟩
        rw [behind, List.append_assoc]
        exact .of_harmless none r' (filling.harmless.append fits.2)
    · exact .tooDeep
  · rw [Parse.bind_of_error run]
    refine .refused moves shows found fun some => ?_
    obtain ⟨v, a, filling, leads⟩ := finishes some
    obtain ⟨v', b, filling', starts', leads'⟩ := fill a
    refine ⟨v ++ v', b, filling.append filling', ?_⟩
    rw [← List.append_assoc]
    exact leads.bind leads' fun r fits => ⟨starts' r fits, filling'.harmless.append fits.2⟩
  · rw [Parse.bind_of_error run]
    exact .tooDeep

/-- A rule that goes on as another one does where the tokens tell so.  The other rule takes a token, or what
follows tells so as well. -/
theorem Goes.told {C : Rests} (hx : K.Goes (fun r => I r ∧ C r) F near X n s) (hs : C s)
    (hnear : ∀ s', Near s s' → C s')
    (same : ∀ (s : List Spelled) (g : Grammar) (n : ℕ) (p : Parser), C s → p.cursor.Shows s →
      Y g n p = X g n p) : K.Goes I F near Y n s := by
  intro p hp
  have outcome := hx p hp
  rw [← same s K.first n p hs hp] at outcome
  revert outcome
  generalize Y K.first n p = result
  rintro (⟨moves, shows, leads, idle⟩ | ⟨moves, shows, found, finishes⟩ | _)
  · rename_i a u r c
    have whole := moves.shows hp shows
    refine .passed moves shows (leads.congr fun r' hr' g n p hp => same _ g n p ?_ hp)
      fun none r' fits => (idle none r' fits).1
    rcases hr' with fits | ⟨-, near⟩
    · by_cases none : u = []
      · exact none ▸ (idle none r' fits).2
      · exact hnear _ (whole ▸ .of_harmless none r fits.2)
    · exact hnear _ (whole ▸ near.append u)
  · rename_i u r c
    have whole := moves.shows hp shows
    refine .refused moves shows found fun some => ?_
    obtain ⟨v, a, filling, leads⟩ := finishes some
    refine ⟨v, a, filling, leads.congr fun r' fits g n p hp => same _ g n p ?_ hp⟩
    rw [List.append_assoc]
    exact hnear _ (whole ▸ .of_harmless some r (filling.harmless.append fits.2))
  · exact .tooDeep

/-- A rule that moves over `w` and then goes on as another one, if the tokens behind `w` tell so and the
levels are not used up. -/
theorem Goes.deeper {C : Rests} (hx : K.Goes C F near X n s) (fill : K.Fill C F X) (hw : w ≠ [])
    (hs : C s) (hnear : ∀ s', Near s s' → C s')
    (same : ∀ (s : List Spelled) (g : Grammar) (n : ℕ) (p : Parser), C s → p.cursor.Shows (w ++ s) →
      ∃ c : Cursor, c.Shows s ∧ p.cursor.Moves w c ∧ (Y g n p = X g n { p with cursor := c } ∨
        p.room = 0 ∧ ∃ position limit q, Y g n p = .error (.tooDeep position limit) q)) :
    K.Goes I F near Y n (w ++ s) := by
  have same' : ∀ (s : List Spelled) (g : Grammar) (n : ℕ) (p : Parser), C s → p.cursor.Shows (w ++ s) →
      0 < p.room → ∃ c : Cursor, c.Shows s ∧ Y g n p = X g n { p with cursor := c } :=
    fun s g n p told hp room => by
      obtain ⟨c, hc, -, run | ⟨none, -⟩⟩ := same s g n p told hp
      · exact ⟨c, hc, run⟩
      · omega
  intro p hp
  obtain ⟨c, hc, first, run | ⟨-, position, limit, q, run⟩⟩ := same s K.first n p hs hp
  · have outcome := hx { p with cursor := c } hc
    rw [run]
    revert outcome
    generalize X K.first n { p with cursor := c } = result
    rintro (⟨moves, shows, leads, idle⟩ | ⟨moves, shows, found, finishes⟩ | _)
    · rename_i a u r c'
      have whole := moves.shows hc shows
      refine .passed (first.trans moves) shows (leads.behind fun r' hr' g n p hp => ?_) fun none => ?_
      · refine same' _ g n p ?_ hp
        rcases hr' with fits | ⟨-, near⟩
        · by_cases none : u = []
          · exact none ▸ idle none r' fits
          · exact hnear _ (whole ▸ .of_harmless none r fits.2)
        · exact hnear _ (whole ▸ near.append u)
      · simp [hw] at none
    · rename_i u r c'
      have whole := moves.shows hc shows
      refine .refused (first.trans moves) shows found fun _ => ?_
      by_cases none : u = []
      · rw [none, List.append_nil]
        exact fill.behind same'
      · obtain ⟨v, a, filling, leads⟩ := finishes none
        refine ⟨v, a, filling, ?_⟩
        rw [List.append_assoc]
        refine leads.behind fun r' fits g n p hp => same' _ g n p ?_ hp
        rw [List.append_assoc]
        exact hnear _ (whole ▸ .of_harmless none r (filling.harmless.append fits.2))
    · exact .tooDeep
  · rw [run]
    exact .tooDeep

/-- A rule that moves over `w` and then goes on as another one. -/
theorem Goes.behind (hx : K.Goes Anything F near X n s) (fill : K.Fill Anything F X) (hw : w ≠ [])
    (same : ∀ (s : List Spelled) (g : Grammar) (n : ℕ) (p : Parser), p.cursor.Shows (w ++ s) →
      ∃ c : Cursor, c.Shows s ∧ p.cursor.Moves w c ∧ Y g n p = X g n { p with cursor := c }) :
    K.Goes I F near Y n (w ++ s) :=
  hx.deeper fill hw trivial (fun _ _ => trivial) fun s g n p _ hp => by
    obtain ⟨c, hc, moves, run⟩ := same s g n p hp
    exact ⟨c, hc, moves, .inl run⟩

/-- A rule that goes on as another one does where the token behind the first one tells so.  The other rule
makes nothing of the first token alone, and what is refused right behind it can be finished anew. -/
theorem Goes.second {C : Rests} {first : Spelled} (hx : K.Goes Nothing F near X n (first :: s)) (hs : C s)
    (hnear : ∀ s', Near s s' → C s') (some : ∃ r, Fits F r) (alone : ∀ a, ¬ K.Leads X (Fits F) [first] a)
    (anew : K.Finishes Y F [first])
    (same : ∀ (s : List Spelled) (g : Grammar) (n : ℕ) (p : Parser), C s → p.cursor.Shows (first :: s) →
      Y g n p = X g n p) : K.Goes I F near Y n (first :: s) := by
  intro p hp
  have outcome := hx p hp
  rw [← same s K.first n p hs hp] at outcome
  revert outcome
  generalize Y K.first n p = result
  rintro (⟨moves, shows, leads, idle⟩ | ⟨moves, shows, found, finishes⟩ | _)
  · rename_i a u r c
    have whole := moves.shows hp shows
    refine .passed moves shows ?_ fun none => ?_
    · cases u with
      | nil =>
        obtain ⟨r', fits⟩ := some
        exact (idle rfl r' fits).elim
      | cons first' u =>
        obtain ⟨rfl, rfl⟩ := List.cons.inj whole
        by_cases none : u = []
        · exact absurd (none ▸ leads.mono fun r' => Or.inl) (alone a)
        · refine leads.congr fun r' hr' g n p hp => same (u ++ r') g n p ?_ hp
          rcases hr' with fits | ⟨-, near⟩
          · exact hnear _ (.of_harmless none r fits.2)
          · exact hnear _ (near.append u)
    · exact fun r' fits => (idle none r' fits).elim
  · rename_i u r c
    have whole := moves.shows hp shows
    refine .refused moves shows found fun some => ?_
    cases u with
    | nil => exact absurd rfl some
    | cons first' u =>
      obtain ⟨rfl, rfl⟩ := List.cons.inj whole
      by_cases none : u = []
      · exact none ▸ anew
      · obtain ⟨v, a, filling, leads⟩ := finishes some
        refine ⟨v, a, filling, leads.congr fun r' fits g n p hp =>
          same (u ++ v ++ r') g n p ?_ (by simpa using hp)⟩
        rw [List.append_assoc]
        exact hnear _ (.of_harmless none r (filling.harmless.append fits.2))
  · exact .tooDeep

theorem Goes.descend (hx : K.Goes I F near X n s) :
    K.Goes I F near (fun g n => Parse.descend (X g n)) n s := by
  intro p hp
  have outcome := hx { p with depth := p.depth + 1 } hp
  change K.Outcome I F near _ p (Parse.descend (X K.first n) p)
  generalize ran : Parse.descend (X K.first n) p = deeper
  rw [Parse.descend] at ran
  split at ran
  · revert outcome ran
    generalize X K.first n { p with depth := p.depth + 1 } = result
    rintro (⟨moves, shows, leads, idle⟩ | ⟨moves, shows, found, finishes⟩ | _) rfl
    · exact .passed moves shows leads.descend idle
    · refine .refused moves shows found fun some => ?_
      obtain ⟨v, a, filling, leads⟩ := finishes some
      exact ⟨v, a, filling, leads.descend⟩
    · exact .tooDeep
  · subst ran
    exact .tooDeep

/-- What leads a rule to its results leads another one to them. -/
theorem Outcome.transfer {K' : Completion} {p : Parser} {result : EStateM.Result ParseError Parser α}
    (h : K.Outcome I F near X p result)
    (lead : ∀ (R : Rests) (u : List Spelled) (a : α), K.Leads X R u a → K'.Leads Y R u a) :
    K'.Outcome I F near Y p result := by
  obtain ⟨moves, shows, leads, idle⟩ | ⟨moves, shows, found, finishes⟩ | _ := h
  · exact .passed moves shows (lead _ _ _ leads) idle
  · refine .refused moves shows found fun some => ?_
    obtain ⟨v, a, filling, leads⟩ := finishes some
    exact ⟨v, a, filling, lead _ _ _ leads⟩
  · exact .tooDeep

theorem Goes.remaining (hx : K.Goes I F near X s.length s) :
    K.Goes I F near (fun g _ => Parse.remaining >>= X g) n s := by
  intro p hp
  have run : (Parse.remaining >>= X K.first) p = X K.first s.length p := by
    change X K.first p.cursor.remaining p = _
    rw [Cursor.remaining, hp.length]
  change K.Outcome I F near _ p ((Parse.remaining >>= X K.first) p)
  rw [run]
  exact (hx p hp).transfer fun _ _ _ => Leads.remaining

/-- A round more of a loop. -/
theorem Goes.round (hx : K.Goes I F near (fun g n => X g (n + 1)) n s) : K.Goes I F near X (n + 1) s :=
  fun p hp => (hx p hp).transfer fun _ _ _ => Leads.round

end

end Completion

end CanonicalSql
