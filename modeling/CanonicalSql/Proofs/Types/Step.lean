import CanonicalSql.Proofs.Course.Name
import CanonicalSql.Proofs.Types

/-! Steps of a parse whose results hold only types that are nested no deeper than parentheses are opened
behind the place where the step starts. -/

namespace CanonicalSql

/-! ### Types nested so deep -/

/-- Whether types are nested at most `n` deep. -/
def Shallow (n : ℕ) (types : List DataType) : Prop := ∀ type ∈ types, type.nesting ≤ n

section

variable {n m : ℕ} {type : DataType} {types others : List DataType}

@[simp] theorem shallow_nil : Shallow n [] := List.forall_mem_nil _

@[simp] theorem shallow_cons : Shallow n (type :: types) ↔ type.nesting ≤ n ∧ Shallow n types :=
  List.forall_mem_cons

@[simp] theorem shallow_append : Shallow n (types ++ others) ↔ Shallow n types ∧ Shallow n others :=
  List.forall_mem_append

@[simp] theorem shallow_flatMap {α : Type} {types : α → List DataType} {as : List α} :
    Shallow n (as.flatMap types) ↔ ∀ a ∈ as, Shallow n (types a) := by
  simp only [Shallow, List.mem_flatMap, forall_exists_index, and_imp]
  exact ⟨fun h a ha type ht => h type a ha ht, fun h type a ha ht => h a ha type ht⟩

@[simp] theorem shallow_typesIn {α : Type} {types : α → List DataType} {o : Option α} :
    Shallow n (typesIn types o) ↔ ∀ a ∈ o, Shallow n (types a) := by
  cases o <;> simp [typesIn]

end

/-! The types of several parts are those of each. -/

theorem Expr.allTypes_eq (es : List Expr) : Expr.allTypes es = es.flatMap Expr.types := by
  induction es with
  | nil => rfl
  | cons e es ih => rw [Expr.allTypes, ih, List.flatMap_cons]

theorem CaseArm.allTypes_eq (arms : List CaseArm) :
    CaseArm.allTypes arms = arms.flatMap CaseArm.types := by
  induction arms with
  | nil => rfl
  | cons arm arms ih => rw [CaseArm.allTypes, ih, List.flatMap_cons]

theorem OrderItem.allTypes_eq (items : List OrderItem) :
    OrderItem.allTypes items = items.flatMap OrderItem.types := by
  induction items with
  | nil => rfl
  | cons item items ih => rw [OrderItem.allTypes, ih, List.flatMap_cons]

theorem CommonTable.allTypes_eq (tables : List CommonTable) :
    CommonTable.allTypes tables = tables.flatMap CommonTable.types := by
  induction tables with
  | nil => rfl
  | cons table tables ih => rw [CommonTable.allTypes, ih, List.flatMap_cons]

theorem SelectItem.allTypes_eq (items : List SelectItem) :
    SelectItem.allTypes items = items.flatMap SelectItem.types := by
  induction items with
  | nil => rfl
  | cons item items ih => rw [SelectItem.allTypes, ih, List.flatMap_cons]

theorem Join.allTypes_eq (joins : List Join) : Join.allTypes joins = joins.flatMap Join.types := by
  induction joins with
  | nil => rfl
  | cons join joins ih => rw [Join.allTypes, ih, List.flatMap_cons]

theorem Setting.allTypes_eq (settings : List Setting) :
    Setting.allTypes settings = settings.flatMap Setting.types := by
  induction settings with
  | nil => rfl
  | cons setting settings ih => rw [Setting.allTypes, ih, List.flatMap_cons]

theorem SelectBlock.types_eq (b : SelectBlock) :
    b.types = b.items.flatMap SelectItem.types ++ typesIn FromClause.types b.source ++
      typesIn Expr.types b.selection ++ b.groupBy.flatMap Expr.types ++ typesIn Expr.types b.having := by
  obtain ⟨_, _, source, selection, _, having⟩ := b
  rw [← SelectItem.allTypes_eq, ← Expr.allTypes_eq]
  cases source <;> cases selection <;> cases having <;> rfl

theorem Query.types_eq (q : Query) :
    q.types = typesIn WithClause.types q.tables ++ q.body.types ++ q.orderBy.flatMap OrderItem.types ++
      typesIn Limit.types q.limit ++ q.settings.flatMap Setting.types := by
  obtain ⟨tables, _, _, limit, _, _⟩ := q
  rw [← OrderItem.allTypes_eq, ← Setting.allTypes_eq]
  cases tables <;> cases limit <;> rfl

/-! ### Parentheses ahead -/

/-- The number of parentheses that tokens open. -/
def openings (tokens : List Token) : ℕ := tokens.countP (·.kind = .symbol .leftParen)

/-- Whether the tokens from the cursor on are those of a text and open at most `n` parentheses. -/
structure Cursor.Within (n : ℕ) (c : Cursor) : Prop where
  ready : c.Ready False
  openings : openings c.upcoming ≤ n

namespace Cursor.Within

variable {n m : ℕ} {c c' : Cursor} {ts : List Token}

theorem mono (h : c.Within n) (hn : n ≤ m) : c.Within m := ⟨h.ready, h.openings.trans hn⟩

theorem behind (h : c.Within n) (hc : c.upcoming = ts ++ c'.upcoming) : c'.Within n := by
  refine ⟨h.ready.behind hc, le_trans ?_ h.openings⟩
  rw [hc, CanonicalSql.openings, CanonicalSql.openings, List.countP_append]
  exact Nat.le_add_left _ _

theorem advance (h : c.Within n) : c.advance.Within n := by
  by_cases hk : c.current.kind = .eof
  · rwa [Cursor.advance, if_pos hk]
  · exact h.behind (h.ready.advance hk)

/-- Behind a parenthesis there is one less to open. -/
theorem advance_opening (h : c.Within n) (hk : c.current.kind = .symbol .leftParen) :
    ∃ m, n = m + 1 ∧ c.advance.Within m := by
  have moves := h.ready.advance (by simp [hk])
  have few := h.openings
  rw [moves, CanonicalSql.openings, List.countP_append] at few
  simp only [List.countP_cons, List.countP_nil, hk, decide_true, if_true, Nat.zero_add] at few
  exact ⟨n - 1, by omega, h.ready.behind moves, by rw [CanonicalSql.openings]; omega⟩

end Cursor.Within

/-! ### Steps -/

namespace Parse

/-- Whether all that a step can give is as asked, if at most `n` parentheses are opened behind it. -/
def Keeps {α : Type} (n : ℕ) (x : Parse α) (Q : α → Prop) : Prop :=
  ∀ p a q, p.cursor.Within n → x p = .ok a q → q.cursor.Within n ∧ Q a

namespace Keeps

variable {α β : Type} {n m : ℕ} {x : Parse α} {f : α → Parse β} {Q : α → Prop} {R : β → Prop} {a : α}

theorem mono {Q' : α → Prop} (h : x.Keeps n Q) (hQ : ∀ a, Q a → Q' a) : x.Keeps n Q' :=
  fun p a q within run => ⟨(h p a q within run).1, hQ a (h p a q within run).2⟩

theorem pure (h : Q a) : (Pure.pure a : Parse α).Keeps n Q := by
  intro p b q within run
  cases run
  exact ⟨within, h⟩

theorem fail {expected : Expectation} : (Parse.fail expected : Parse α).Keeps n Q := by
  intro p a q _ run
  cases run

theorem failAt {token : Token} {expected : Expectation} :
    (Parse.failAt token expected : Parse α).Keeps n Q := by
  intro p a q _ run
  cases run

theorem bind (hx : x.Keeps n Q) (hf : ∀ a, Q a → (f a).Keeps n R) : (x >>= f).Keeps n R := by
  intro p b r within run
  change EStateM.bind x f p = _ at run
  unfold EStateM.bind at run
  split at run
  · next a q first =>
    obtain ⟨within', ha⟩ := hx p a q within first
    exact hf a ha q b r within' run
  · cases run

/-- A step in front of others that holds no types itself. -/
theorem past {G : ℕ → List Token → α → Prop} (hx : x.Gives False G)
    (hf : ∀ a, (f a).Keeps n R) : (x >>= f).Keeps n R := by
  refine bind (Q := fun _ => True) ?_ fun a _ => hf a
  intro p a q within run
  obtain ⟨levels, e, ends, asked⟩ := hx p.cursor within.ready
  by_cases enough : levels ≤ p.room
  · rw [(ends p rfl).1 enough] at run
    cases e with
    | refusal => cases run
    | result b c' =>
      cases run
      obtain ⟨ts, hts, -⟩ := asked
      exact ⟨within.behind hts, trivial⟩
  · obtain ⟨t, -, c', out⟩ := (ends p rfl).2 (by omega)
    rw [out] at run
    cases run

/-- A look ahead in front of other steps. -/
theorem look (hx : ∀ p, ∃ a, x p = .ok a p) (hf : ∀ a, (f a).Keeps n R) : (x >>= f).Keeps n R := by
  refine bind (Q := fun _ => True) ?_ fun a _ => hf a
  intro p a q within run
  obtain ⟨b, looks⟩ := hx p
  rw [looks] at run
  cases run
  exact ⟨within, trivial⟩

theorem peek {f : Token.Kind → Parse β} (hf : ∀ k, (f k).Keeps n R) : (Parse.peek >>= f).Keeps n R :=
  look (fun _ => ⟨_, rfl⟩) hf

theorem peekAt {i : ℕ} {f : Token.Kind → Parse β} (hf : ∀ k, (f k).Keeps n R) :
    (Parse.peekAt i >>= f).Keeps n R :=
  look (fun _ => ⟨_, rfl⟩) hf

theorem remaining {f : ℕ → Parse β} (hf : ∀ count, (f count).Keeps n R) :
    (Parse.remaining >>= f).Keeps n R :=
  look (fun _ => ⟨_, rfl⟩) hf

theorem atEnd {f : Bool → Parse β} (hf : ∀ b, (f b).Keeps n R) : (Parse.atEnd >>= f).Keeps n R :=
  look (fun _ => ⟨_, rfl⟩) hf

theorem sees {t : Terminal} {f : Bool → Parse β} (hf : ∀ b, (f b).Keeps n R) :
    (Parse.sees t >>= f).Keeps n R :=
  look (fun _ => ⟨_, rfl⟩) hf

theorem seesAt {i : ℕ} {t : Terminal} {f : Bool → Parse β} (hf : ∀ b, (f b).Keeps n R) :
    (Parse.seesAt i t >>= f).Keeps n R :=
  look (fun _ => ⟨_, rfl⟩) hf

/-- A choice of two steps. -/
theorem ite {b : Bool} {y z : Parse β} (hy : y.Keeps n R) (hz : z.Keeps n R) :
    (if b = true then y else z).Keeps n R := by
  split
  · exact hy
  · exact hz

theorem advance {f : Token → Parse β} (hf : ∀ token, (f token).Keeps n R) :
    (Parse.advance >>= f).Keeps n R := by
  refine bind (Q := fun _ => True) ?_ fun a _ => hf a
  intro p a q within run
  cases run
  exact ⟨within.advance, trivial⟩

theorem discard_advance {f : Unit → Parse β} (hf : (f ()).Keeps n R) :
    (discard Parse.advance >>= f).Keeps n R := by
  change (((fun _ => ()) <$> Parse.advance) >>= f).Keeps n R
  rw [map_eq_pure_bind, bind_assoc]
  exact advance fun _ => by simpa using hf

theorem skip {count : ℕ} {f : Unit → Parse β} (hf : (f ()).Keeps n R) :
    (Parse.skip count >>= f).Keeps n R := by
  induction count with
  | zero => simpa [Parse.skip] using hf
  | succ count ih =>
    rw [Parse.skip, bind_assoc]
    exact discard_advance ih

theorem accept {t : Terminal} {f : Bool → Parse β} (some : (f true).Keeps n R)
    (none : (f false).Keeps n R) : (Parse.accept t >>= f).Keeps n R :=
  past (sound_accept t) fun
    | true => some
    | false => none

theorem discard_accept {t : Terminal} {f : Unit → Parse β} (hf : (f ()).Keeps n R) :
    (discard (Parse.accept t) >>= f).Keeps n R := by
  change (((fun _ => ()) <$> Parse.accept t) >>= f).Keeps n R
  rw [map_eq_pure_bind, bind_assoc]
  exact accept (by simpa using hf) (by simpa using hf)

theorem expect {t : Terminal} {f : Unit → Parse β} (hf : (f ()).Keeps n R) :
    (Parse.expect t >>= f).Keeps n R := by
  rw [Parse.expect, bind_assoc]
  refine accept ?_ (bind (Q := fun _ => False) fail fun _ no => no.elim)
  simpa using hf

theorem descend (h : x.Keeps n Q) : (Parse.descend x).Keeps n Q := by
  intro p a q within run
  unfold Parse.descend at run
  split at run
  · split at run
    · next deeper =>
      cases run
      obtain ⟨within', ha⟩ := h { p with depth := p.depth + 1 } _ _ within deeper
      exact ⟨within', ha⟩
    · cases run
  · cases run

/-! Parts that may be missing, and several parts with commas between them. -/

theorem map {g : α → β} (h : x.Keeps n fun b => R (g b)) : (g <$> x).Keeps n R := by
  rw [map_eq_pure_bind]
  exact bind h fun _ ha => pure ha

theorem optional {t : Terminal} (h : x.Keeps n Q) :
    (Parse.optional t x).Keeps n fun o => ∀ a ∈ o, Q a :=
  accept (bind h fun _ ha => pure (by simpa using ha)) (pure (by simp))

theorem between {opening closing : Symbol} (h : x.Keeps n Q) :
    (Parse.between opening closing x).Keeps n Q :=
  expect (bind h fun _ ha => expect (pure ha))

theorem commaItems (h : x.Keeps n Q) (count : ℕ) :
    (Parse.commaItems x count).Keeps n fun as => ∀ a ∈ as, Q a := by
  induction count with
  | zero => exact pure (by simp)
  | succ count ih =>
    refine accept (bind h fun a ha => bind ih fun as has => pure ?_) (pure (by simp))
    exact List.forall_mem_cons.2 ⟨ha, has⟩

theorem commaList (h : x.Keeps n Q) : (Parse.commaList x).Keeps n fun as => ∀ a ∈ as, Q a :=
  bind h fun _ ha => remaining fun count => bind (h.commaItems count) fun _ has =>
    pure (List.forall_mem_cons.2 ⟨ha, has⟩)

theorem commaListUpTo {closing : Symbol} (h : x.Keeps n Q) :
    (Parse.commaListUpTo closing x).Keeps n fun as => ∀ a ∈ as, Q a :=
  sees fun _ => ite (pure (by simp)) h.commaList

theorem optionalList {t : Terminal} {y : Parse (List α)} (h : y.Keeps n fun as => ∀ a ∈ as, Q a) :
    (Parse.optionalList t y).Keeps n fun as => ∀ a ∈ as, Q a :=
  accept h (pure (by simp))

/-- What stands behind a parenthesis has one less to open. -/
theorem optionalList_opening {y : Parse (List α)} {S : List α → Prop} (none : S [])
    (h : ∀ m, n = m + 1 → y.Keeps m S) : (Parse.optionalList Symbol.leftParen y).Keeps n S := by
  intro p as q within run
  rw [Parse.optionalList] at run
  by_cases hk : p.cursor.current.kind = .symbol .leftParen
  · obtain ⟨m, rfl, inside⟩ := within.advance_opening hk
    rw [bind_of_ok (accept_of_admits (Terminal.admits_symbol.2 hk))] at run
    obtain ⟨within', hs⟩ := h m rfl _ as q inside run
    exact ⟨within'.mono (Nat.le_succ m), hs⟩
  · have other := Bool.eq_false_of_not_eq_true (mt Terminal.admits_symbol.1 hk)
    rw [bind_of_ok (accept_of_not_admits other)] at run
    cases run
    exact ⟨within, none⟩

end Keeps

end Parse

end CanonicalSql
