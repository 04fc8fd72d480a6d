import Mathlib
import CanonicalSql.Proofs.Completion.Operator

/-! The rules for the columns and relations of a `SELECT` are viable if the grammar for what stands inside
is. -/

namespace CanonicalSql

open Keyword Word CanonicalSql.Symbol

/-- What ends a name with an alias behind it: it goes on with neither. -/
structure EndsName (r : List Spelled) : Prop where
  noAlias : NoAlias r
  noCall : (Terminal.symbol leftParen).admits (kindAt r 0) = false
  noDot : (Terminal.symbol dot).admits (kindAt r 0) = false

theorem Begins.endsName {ts : List Terminal} {r : List Spelled} (h : Begins ts r)
    (words : ts.all (!Terminal.isWord ·) = true)
    (apart : Absent [AS, leftParen, dot] ts) : EndsName r :=
  ⟨⟨h.admits (apart _ (by simp)), h.name? words⟩, h.admits (apart _ (by simp)), h.admits (apart _ (by simp))⟩

namespace Completion

open Parse Grammar

variable {K : Completion} {α : Type} {I S F : Rests} {near : Prop} {us : List Terminal} {level n : ℕ}
  {s : List Spelled} {first : Spelled}

/-! ### Columns -/

/-- Whether a token of this kind is a name. -/
def isName (k : Token.Kind) : Bool := k.name?.isSome

/-- How the name of all columns of a table starts, as its parts are tested. -/
def bareWildcard : List (Token.Kind → Bool) :=
  [isName, (Terminal.symbol dot).admits, (Terminal.symbol star).admits]

/-- The name of all columns of a table in a database, as its parts are tested. -/
def qualifiedWildcard : List (Token.Kind → Bool) :=
  [isName, (Terminal.symbol dot).admits] ++ bareWildcard

theorem telling_bareWildcard : Telling bareWildcard where
  inside := by simp [bareWildcard]; decide
  last := ⟨_, rfl, fun k hk => ⟨star, by decide, hk⟩⟩

theorem telling_qualifiedWildcard : Telling qualifiedWildcard where
  inside := by simp [qualifiedWildcard, bareWildcard]; decide
  last := ⟨_, rfl, fun k hk => ⟨star, by decide, hk⟩⟩

theorem kindAt_drop (s : List Spelled) (k n : ℕ) : kindAt (s.drop k) n = kindAt s (k + n) := by
  simp [kindAt]

theorem kindAt_tail (s : List Spelled) (n : ℕ) : kindAt s.tail n = kindAt s (n + 1) := by
  simp [kindAt]

theorem tableWildcard?_of_bare {p : Parser} {a b c : Spelled} (hp : p.cursor.Shows (a :: b :: c :: s))
    (bare : Meets bareWildcard (a :: b :: c :: s) = true) : ∃ d : Cursor, d.Shows s ∧
      p.cursor.Moves [a, b, c] d ∧
      tableWildcard? p = .ok (some (.bare (a.kind.name?.getD ""))) { p with cursor := d } := by
  obtain ⟨d, hd, moves, run⟩ := skip_of_shows (w := [a, b, c]) hp
  refine ⟨d, hd, moves, ?_⟩
  simp only [bareWildcard, isName, Meets, kindAt_cons_zero, List.tail_cons, Bool.and_eq_true,
    Option.isSome_iff_exists] at bare
  obtain ⟨⟨name, named⟩, hb, hc, -⟩ := bare
  have ahead : p.cursor.facesAt 1 [dot, star] = true := by
    simp [hp.facesAt, Meets, hb, hc]
  rw [tableWildcard?, peek_bind, hp.kind, kindAt_cons_zero, named]
  dsimp only
  rw [seesAllAt_bind, ahead, if_pos rfl]
  exact Parse.bind_of_ok run

theorem tableWildcard?_of_qualified {p : Parser} {a b c d e : Spelled}
    (hp : p.cursor.Shows (a :: b :: c :: d :: e :: s))
    (qualified : Meets qualifiedWildcard (a :: b :: c :: d :: e :: s) = true) : ∃ f : Cursor, f.Shows s ∧
      p.cursor.Moves [a, b, c, d, e] f ∧ tableWildcard? p =
        .ok (some ⟨some (a.kind.name?.getD ""), c.kind.name?.getD ""⟩) { p with cursor := f } := by
  obtain ⟨f, hf, moves, run⟩ := skip_of_shows (w := [a, b, c, d, e]) hp
  refine ⟨f, hf, moves, ?_⟩
  simp only [qualifiedWildcard, bareWildcard, isName, Meets, kindAt_cons_zero, List.tail_cons,
    List.cons_append, List.nil_append, Bool.and_eq_true, Option.isSome_iff_exists] at qualified
  obtain ⟨⟨name, named⟩, hb, ⟨name', named'⟩, hd, he, -⟩ := qualified
  have noStar : p.cursor.facesAt 1 [dot, star] = false := by
    have other : (Terminal.symbol star).admits c.kind = false := admits_of_name? named' rfl
    simp [hp.facesAt, Meets, hb, other]
  have ahead : p.cursor.facesAt 3 [dot, star] = true := by
    simp [hp.facesAt, Meets, hd, he]
  rw [tableWildcard?, peek_bind, hp.kind, kindAt_cons_zero, named]
  dsimp only
  rw [seesAllAt_bind, noStar, if_neg (by simp), peekAt_bind, hp.peekAt 2]
  rw [show kindAt (a :: b :: c :: d :: e :: s) 2 = c.kind from rfl, named']
  dsimp only
  rw [seesAt_bind, hp.peekAt 1, seesAllAt_bind, ahead]
  change (if ((Terminal.symbol dot).admits b.kind && true) = true then _ else _ : Parse
    (Option QualifiedName)) p = _
  rw [hb, Bool.and_self, if_pos rfl]
  exact Parse.bind_of_ok run

theorem tableWildcard?_of_not_meets {p : Parser} (hp : p.cursor.Shows s) (bare : Meets bareWildcard s = false)
    (qualified : Meets qualifiedWildcard s = false) : tableWildcard? p = .ok none p := by
  rw [tableWildcard?, peek_bind, hp.kind]
  cases named : (kindAt s 0).name? with
  | none => rfl
  | some name =>
    have noStar : p.cursor.facesAt 1 [dot, star] = false := by
      simpa [hp.facesAt, bareWildcard, isName, named, Meets] using bare
    dsimp only
    rw [seesAllAt_bind, noStar, if_neg (by simp), peekAt_bind, hp.peekAt 2]
    cases named' : (kindAt s 2).name? with
    | none => rfl
    | some name' =>
      have none : ((Terminal.symbol dot).admits (kindAt s 1) && p.cursor.facesAt 3 [dot, star]) = false := by
        simpa [hp.facesAt, qualifiedWildcard, bareWildcard, isName, named, named', Meets, kindAt_tail,
          kindAt_drop] using qualified
      dsimp only
      rw [seesAt_bind, hp.peekAt 1, seesAllAt_bind, none]
      rfl

theorem Goes.tableWildcard {Y : Option QualifiedName → Scheme α}
    (some : ∀ table, K.Viable Anything Anything F near (Y (some table))) (less : s.length ≤ n)
    (none : K.Goes I F near (Y none) n s) :
    K.Goes I F near (fun g n => tableWildcard? >>= fun table => Y table g n) n s := by
  cases bare : Meets bareWildcard s with
  | true =>
    obtain ⟨w, r, rfl, length, meets⟩ := exists_of_meets (fun t ht =>
      (telling_bareWildcard.inside t ht).1) bare
    obtain ⟨a, b, c, rfl⟩ := List.length_eq_three.1 length
    have behind := some (.bare (a.kind.name?.getD ""))
    refine .behind (w := [a, b, c]) (behind.course n r (by simp at less; omega)) behind.fill (by simp)
      fun s g n p hp => ?_
    obtain ⟨d, hd, moves, run⟩ := tableWildcard?_of_bare hp (meets s)
    exact ⟨d, hd, moves, Parse.bind_of_ok run⟩
  | false =>
    cases qualified : Meets qualifiedWildcard s with
    | true =>
      obtain ⟨w, r, rfl, length, meets⟩ :=
        exists_of_meets (fun t ht => (telling_qualifiedWildcard.inside t ht).1) qualified
      obtain ⟨a, b, c, d, e, rfl⟩ : ∃ a b c d e, w = [a, b, c, d, e] := by
        match w, length with
        | [a, b, c, d, e], _ => exact ⟨a, b, c, d, e, rfl⟩
      have behind := some ⟨.some (a.kind.name?.getD ""), c.kind.name?.getD ""⟩
      refine .behind (w := [a, b, c, d, e]) (behind.course n r (by simp at less; omega)) behind.fill (by simp)
        fun s g n p hp => ?_
      obtain ⟨f, hf, moves, run⟩ := tableWildcard?_of_qualified hp (meets s)
      exact ⟨f, hf, moves, Parse.bind_of_ok run⟩
    | false =>
      have idle : K.Goes (fun r => I r ∧ Meets bareWildcard r = false ∧
          Meets qualifiedWildcard r = false) F near
          (Y Option.none) n s :=
        none.mono (fun r harmless hr => ⟨hr, telling_bareWildcard.meets_of_harmless harmless,
          telling_qualifiedWildcard.meets_of_harmless harmless⟩) (fun _ h => h) id
      refine idle.told ⟨bare, qualified⟩ (fun s' near => ⟨near.meets telling_bareWildcard bare,
        near.meets telling_qualifiedWildcard qualified⟩) fun s g n p other hp => ?_
      exact Parse.bind_of_ok (tableWildcard?_of_not_meets hp other.1 other.2)

theorem Viable.tableWildcard {Y : Option QualifiedName → Scheme α}
    (some : ∀ table, K.Viable Anything Anything F near (Y (some table)))
    (none : K.Viable I S F near (Y none)) :
    K.Viable I S F near (fun g n => tableWildcard? >>= fun table => Y table g n) := by
  refine ⟨fun n s less => .tableWildcard some less (none.course n s less), ?_⟩
  obtain ⟨v, a, filling, starts, leads⟩ := none.fill
  refine ⟨v, a, filling, starts, leads.congr fun r fits g n p hp => ?_⟩
  have silent := filling.harmless.append fits.2
  exact Parse.bind_of_ok (tableWildcard?_of_not_meets hp (telling_bareWildcard.meets_of_harmless silent)
    (telling_qualifiedWildcard.meets_of_harmless silent))

/-! ### Relations that start with a name -/

/-- A qualified name, from behind its first part. -/
def nameBehind (first : String) : Parse QualifiedName := do
  if ← accept dot then
    let second ← identifier
    return ⟨some first, second⟩
  else
    return .bare first

/-- A relation that starts with a name and is a table, from behind the first part of its name. -/
def tableBehind (name : String) : Parse Relation := do
  let table ← nameBehind name
  return .table table (← aliasName)

theorem viable_tableBehind (ends : ∀ r, F r → EndsName r) (name : String) :
    K.Viable F F F near fun _ _ => tableBehind name := by
  refine .bind (G := F) ?_ fun table =>
    (viable_aliasName fun r hr => (ends r hr).noAlias).made (Relation.table table)
  exact .reject (viable_identifier.made fun second => (⟨some name, second⟩ : QualifiedName))
    (.pure _ fun r h => ⟨h.1, (ends r h.1).noDot⟩)

/-- A relation that starts with a name: a function where a parenthesis follows, and otherwise a table. -/
def namedRelation (g : Grammar) : Parse Relation := do
  if (← peek).name?.isNone then fail .relation
  else if ← seesAt 1 leftParen then
    let function ← identifier
    let args ← between leftParen rightParen (commaListUpTo rightParen g.anyExpr)
    return .function function args (← aliasName)
  else
    let table ← qualifiedName
    return .table table (← aliasName)

theorem namedRelation_of_none {g : Grammar} {p : Parser} (hp : p.cursor.Shows s)
    (unnamed : (kindAt s 0).name? = none) : ∃ expected q,
      namedRelation g p = .error (.unexpected p.cursor.current expected) q := by
  refine ⟨.relation, p, ?_⟩
  rw [namedRelation, peek_bind, hp.kind, unnamed]
  rfl

theorem namedRelation_of_table {g : Grammar} {p : Parser} {name : String} (hp : p.cursor.Shows (first :: s))
    (named : first.kind.name? = some name) (noCall : (Terminal.symbol leftParen).admits
      (kindAt s 0) = false) :
    namedRelation g p = tableBehind name { p with cursor := p.cursor.advance } := by
  have kind : p.cursor.current.kind.name? = some name := by rw [hp.kind, kindAt_cons_zero, named]
  rw [namedRelation, peek_bind, kind, Option.isNone_some, if_neg (by simp), seesAt_bind, hp.peekAt 1,
    kindAt_cons_succ, noCall, if_neg (by simp)]
  have split : qualifiedName = identifier >>= nameBehind := rfl
  rw [split, bind_assoc]
  exact identifier_bind _ kind

theorem namedRelation_of_function {g : Grammar} {p : Parser} {name : String} {paren : Spelled}
    (hp : p.cursor.Shows (first :: paren :: s)) (named : first.kind.name? = some name)
    (opens : (Terminal.symbol leftParen).admits paren.kind = true) :
    namedRelation g p = (commaListUpTo rightParen g.anyExpr >>= fun args =>
      expect rightParen >>= fun _ => aliasName >>= fun asName => pure (Relation.function name args asName))
        { p with cursor := p.cursor.advance.advance } := by
  have kind : p.cursor.current.kind.name? = some name := by rw [hp.kind, kindAt_cons_zero, named]
  have here : (Terminal.symbol leftParen).admits p.cursor.advance.current.kind = true := by
    rw [hp.advance.kind, kindAt_cons_zero, opens]
  rw [namedRelation, peek_bind, kind, Option.isNone_some, if_neg (by simp), seesAt_bind, hp.peekAt 1,
    kindAt_cons_succ, kindAt_cons_zero, opens, if_pos rfl, identifier_bind _ kind]
  simp only [between, bind_assoc, pure_bind]
  rw [expect_bind, Parse.bind_of_ok (accept_of_admits here), if_pos rfl]

/-! ### Joins -/

/-- A join of a kind, from behind the words that name the kind. -/
def joinedAs (g : Grammar) (kind : JoinKind) : Parse Join := do
  let relation ← g.relation
  return ⟨kind, relation, ← g.joinConstraint kind⟩

/-- A join is told by its first word. -/
theorem join_eq (g : Grammar) : g.join =
    accept comma >>= fun b => if b = true then
      g.relation >>= fun relation => pure (some ⟨.comma, relation, none⟩)
    else accept JOIN >>= fun b => if b = true then
      joinedAs g .inner >>= fun join => pure (some join)
    else accept INNER >>= fun b => if b = true then
      (expect JOIN >>= fun _ => joinedAs g .inner) >>= fun join => pure (some join)
    else accept CROSS >>= fun b => if b = true then
      (expect JOIN >>= fun _ => joinedAs g .cross) >>= fun join => pure (some join)
    else accept LEFT >>= fun b => if b = true then
      (discard (accept OUTER) >>= fun _ => expect JOIN >>= fun _ => joinedAs g .left) >>= fun join =>
        pure (some join)
    else accept RIGHT >>= fun b => if b = true then
      (discard (accept OUTER) >>= fun _ => expect JOIN >>= fun _ => joinedAs g .right) >>= fun join =>
        pure (some join)
    else accept FULL >>= fun b => if b = true then
      (discard (accept OUTER) >>= fun _ => expect JOIN >>= fun _ => joinedAs g .full) >>= fun join =>
        pure (some join)
    else pure none := by
  have kinds : ∀ f : Option JoinKind → Parse (Option Join), (joinKind >>= f) =
      sees JOIN >>= fun b => if b = true then f (some .inner)
      else accept INNER >>= fun b => if b = true then f (some .inner)
      else accept CROSS >>= fun b => if b = true then f (some .cross)
      else accept LEFT >>= fun b => if b = true then discard (accept OUTER) >>= fun _ => f (some .left)
      else accept RIGHT >>= fun b => if b = true then discard (accept OUTER) >>= fun _ => f (some .right)
      else accept FULL >>= fun b => if b = true then discard (accept OUTER) >>= fun _ => f (some .full)
      else f none := fun f => by
    have seen : ∀ x y : Parse (Option JoinKind), ((sees JOIN >>= fun b => if b = true then x else y) >>= f) =
        sees JOIN >>= fun b => if b = true then x >>= f else y >>= f := fun x y => by
      rw [bind_assoc]
      refine congrArg _ (funext fun b => ?_)
      cases b <;> rfl
    rw [joinKind, seen, accept_bind, accept_bind, joinSide, accept_bind, accept_bind, accept_bind]
    simp only [bind_assoc, pure_bind]
  rw [Grammar.join, kinds]
  dsimp only
  rw [sees_expect]
  simp only [joinedAs, bind_assoc, pure_bind]

namespace Inside

/-! ### The parts of a `SELECT` -/

theorem selectItem (h : K.Inside) (ends : ∀ r, F r → Begins bodyEnds r) :
    K.Viable Nothing (StartsWith someNumber) F near (fun g _ => g.selectItem) := by
  have column : K.Viable Nothing (StartsWith someNumber) F near fun g _ => g.anyExpr >>= fun expr =>
      aliasName >>= fun asName => pure (SelectItem.expr expr asName) :=
    .bind ((h.expr 0).before fun r hr => .of_begins (ends r hr) (by decide)) fun expr =>
      (viable_aliasName fun r hr => ((ends r hr).endsName (by decide) (by decide)).noAlias).made
        (SelectItem.expr expr)
  refine .reject (.result _) (.tableWildcard
    (fun table => .result (SelectItem.tableWildcard table))
    (column.mono (fun _ _ h => h.elim) (fun r hr => ⟨hr, ?_⟩) (fun _ h => h) id))
  obtain ⟨s, rfl⟩ := hr
  rfl

/-- Whether a token of this kind starts a query, with a parenthesis around it or without one. -/
def opensQuery (k : Token.Kind) : Bool := k.startsQuery || (Terminal.symbol leftParen).admits k

/-- A query that is told by its first token. -/
theorem queryAhead {Y : Grammar → Parse α} (expected : Expectation)
    (hy : K.Viable Nothing (Starts [SELECT]) F near fun g _ => Y g) :
    K.Viable Nothing (Starts [SELECT]) F near (fun g _ => peek >>= fun k => sees leftParen >>= fun b =>
      if (k.startsQuery || b) = true then Y g else fail expected) := by
  refine .peek (Y := fun b g _ => if b = true then Y g else fail expected) opensQuery true
    (fun n s less => ?_) (hy.fill.mono (fun r hr => ⟨hr, ?_⟩) fun _ h => h)
  · cases opensQuery (kindAt s 0) with
    | true => exact (hy.course n s less).mono (fun _ _ h => h.elim) (fun _ h => h) id
    | false => exact .fail _
  · obtain ⟨t, ht, s, rfl⟩ := hr
    rw [List.mem_singleton.1 ht]
    rfl

theorem derivedQuery (h : K.Inside) : K.Viable Nothing (Starts [SELECT]) F near (fun g _ => g.derivedQuery) :=
  queryAhead (Y := fun g => g.query >>= fun q => expect rightParen >>= fun _ => pure q) .subquery
    (.bind (h.queryBefore (by decide)) fun q => .closing (.result q) (by decide))

/-- A relation that starts with the name `name`, from behind the parenthesis that opens its arguments. -/
theorem functionBehind (h : K.Inside) (ends : ∀ r, F r → EndsName r) (name : String) :
    K.Viable Anything Anything F near fun g _ => commaListUpTo rightParen g.anyExpr >>= fun args =>
      expect rightParen >>= fun _ => aliasName >>= fun asName => pure (Relation.function name args asName) :=
  .bind (.commaListUpTo (by decide) (h.anyExpr (by decide))) fun args => .closing
    ((viable_aliasName fun r hr => (ends r hr).noAlias).made (Relation.function name args)) (by decide)

theorem viable_namedRelation (h : K.Inside) (ends : ∀ r, F r → EndsName r) :
    K.Viable Nothing (StartsWith someName) F near (fun g _ => namedRelation g) := by
  have tables : ∀ name, K.Viable (fun r => (Terminal.symbol leftParen).admits (kindAt r 0) = false)
      (fun r => (Terminal.symbol leftParen).admits (kindAt r 0) = false) F near fun _ _ => tableBehind name :=
    fun name => (viable_tableBehind ends name).mono (fun r _ hr => (ends r hr).noCall)
      (fun r hr => (ends r hr).noCall) (fun _ h => h) id
  refine ⟨?_, (tables "a").fill.front filling_someName (fun s => ⟨s, rfl⟩) fun s g n p noCall hp =>
    ⟨_, hp.advance, namedRelation_of_table hp rfl noCall⟩⟩
  rintro n (_ | ⟨first, s⟩) less
  · exact .refused fun p hp => namedRelation_of_none hp rfl
  cases named : first.kind.name? with
  | none => exact .refused fun p hp => namedRelation_of_none hp named
  | some name =>
    cases opens : (Terminal.symbol leftParen).admits (kindAt s 0) with
    | false =>
      refine ((tables name).course n s (Nat.le_of_succ_le less)).deeper (tables name).fill (w :=
        [first]) (by simp)
        opens (fun s' near => by rw [near.kindAt, opens]) fun s g n p noCall hp => ?_
      exact ⟨_, hp.advance, .advance hp, .inl (namedRelation_of_table hp named noCall)⟩
    | true =>
      cases s with
      | nil => simp [Terminal.admits_eof] at opens
      | cons paren s =>
        have function : K.Viable Anything Anything F near fun g _ => commaListUpTo rightParen g.anyExpr >>=
            fun args => expect rightParen >>= fun _ => aliasName >>= fun asName =>
              pure (Relation.function name args asName) := h.functionBehind ends name
        refine .behind (w := [first, paren]) (function.course n s
          (by simp at less; omega)) function.fill (by simp)
          fun s g n p hp => ?_
        exact ⟨_, hp.advance.advance, (Cursor.Moves.advance hp).trans (.advance hp.advance),
          namedRelation_of_function hp named opens⟩

theorem relation (h : K.Inside) (ends : ∀ r, F r → EndsName r) :
    K.Viable Nothing (StartsWith someName) F near (fun g _ => g.relation) := by
  refine .reject (.bind h.derivedQuery fun query =>
    (viable_aliasName fun r hr => (ends r hr).noAlias).made (Relation.derived query))
      ((h.viable_namedRelation ends).mono (fun _ _ h => h.elim) (fun r hr => ⟨hr, ?_⟩) (fun _ h => h) id)
  obtain ⟨s, rfl⟩ := hr
  rfl

theorem joinConstraint (h : K.Inside) (ends : ∀ r, F r → Begins bodyEnds r) {kind : JoinKind}
    (some : kind ≠ .cross) :
    K.Viable Nothing (Starts [ON]) F near (fun g _ => g.joinConstraint kind) := by
  have condition : K.Viable Nothing (Starts [ON]) F near (fun g _ => accept ON >>= fun b => if b = true then
      g.anyExpr >>= fun e => pure (Option.some (JoinConstraint.on e)) else accept USING >>= fun b =>
        if b = true then
        nameList >>= fun names => pure (Option.some
          (JoinConstraint.using names)) else fail .joinCondition) := by
    have on : K.Viable Nothing Anything F near fun g _ => g.expr 0 :=
      (h.expr 0).mono (fun _ _ h => h) (fun _ _ => trivial) (fun r hr => .of_begins (ends r hr) (by decide))
        fun _ => trivial
    refine .choose (on.made fun e => Option.some (JoinConstraint.on e)) ?_ (by decide) fun s => .first _ _ s
    exact .choose (viable_nameList.made fun names => Option.some (JoinConstraint.using names)) (.fail _)
  simpa only [Grammar.joinConstraint, if_neg some] using condition

theorem joinedAs (h : K.Inside) (ends : ∀ r, F r → Begins bodyEnds r) (kind : JoinKind) :
    K.Viable Nothing (StartsWith someName) F near (fun g _ => joinedAs g kind) := by
  by_cases cross : kind = .cross
  · subst cross
    exact .bind (h.relation fun r hr => (ends r hr).endsName (by decide) (by decide)) fun relation => .idle _
  · refine .bind (G := Starts [ON]) (h.relation fun r hr =>
    hr.begins.endsName (by decide) (by decide)) fun relation => ?_
    exact (((h.joinConstraint ends cross).made (Join.mk kind relation)).here)

theorem tries_join (h : K.Inside) (ends : ∀ r, F r → Begins bodyEnds r) : K.Tries F fun g => g.join := by
  have inner : ∀ kind, K.Viable Nothing Anything F True fun g _ => expect JOIN >>= fun _ =>
      Completion.joinedAs g kind := fun kind => .expect (h.joinedAs ends kind) (by decide)
  have outer : ∀ kind, K.Viable (Starts [JOIN]) (Starts [JOIN]) F True fun g _ =>
      discard (accept OUTER) >>= fun _ =>
      expect JOIN >>= fun _ => Completion.joinedAs g kind := fun kind =>
    .discard_accept (.closing (h.joinedAs ends kind) (by decide)) (fun _ h =>
      h.admits (by decide)) fun _ h => h.admits (by decide)
  have apart : ∀ t ∉ bodyEnds, ∀ r, F r → t.admits (kindAt r 0) = false := fun t ht r hr =>
    (ends r hr).admits ht
  simp only [join_eq]
  refine .accept (fun relation => (⟨.comma, relation, none⟩ : Join))
    (h.relation fun r hr => (ends r hr).endsName (by decide) (by decide)) ?_ (apart _ (by decide))
  refine .accept id (h.joinedAs ends .inner) ?_ (apart _ (by decide))
  refine .accept id (inner .inner) (.accept id (inner .cross) ?_ (apart _ (by decide))) (apart _ (by decide))
  refine .accept id (outer .left) (.accept id (outer .right) ?_ (apart _ (by decide))) (apart _ (by decide))
  exact .accept id (outer .full) (.none F) (apart _ (by decide))

theorem joins (h : K.Inside) (ends : ∀ r, F r → Begins bodyEnds r) :
    K.Viable F F F near (fun g n => g.joins n) := by
  refine .repeated (h.tries_join ends) (fun _ => rfl) fun g n => ?_
  rw [Grammar.joins]
  refine congrArg _ (funext fun join => ?_)
  cases join <;> rfl

theorem fromClause (h : K.Inside) (ends : ∀ r, F r → Begins bodyEnds r) :
    K.Viable Nothing (StartsWith someName) F near (fun g _ => g.fromClause) :=
  .bind (h.relation fun r hr => (ends r hr).endsName (by decide) (by decide)) fun relation =>
    ((h.joins ends).made (FromClause.mk relation)).remaining

theorem selectBlock (h : K.Inside) (ends : ∀ r, F r → Begins bodyEnds r) :
    K.Viable Nothing (Starts [SELECT]) F near (fun g _ => g.selectBlock) := by
  have apart : ∀ t ∉ bodyEnds, ∀ r, F r → t.admits (kindAt r 0) = false := fun t ht r hr =>
    (ends r hr).admits ht
  have any : ∀ {near}, K.Viable Nothing (StartsWith someNumber) F near fun g _ => g.anyExpr := fun {near} =>
    (h.expr 0).mono (fun _ _ h => h) (fun _ h => h) (fun r hr =>
      .of_begins (ends r hr) (by decide)) fun _ => trivial
  have noWord : ∀ t : Terminal, t.admits someNumber.kind = false → ∀ r, StartsWith someNumber r →
      t.admits (kindAt r 0) = false := by
    rintro t ht r ⟨s, rfl⟩
    exact ht
  have block : ∀ distinct, K.Viable Nothing (StartsWith someNumber) F near fun g _ =>
      commaList g.selectItem >>= fun items => optional FROM g.fromClause >>= fun source =>
        optional WHERE g.anyExpr >>= fun selection =>
          optionalList GROUP (expect BY >>= fun _ => commaList g.anyExpr) >>= fun groupBy =>
            optional HAVING g.anyExpr >>= fun having =>
              pure (⟨distinct, items, source, selection, groupBy, having⟩ : SelectBlock) := fun distinct => by
    refine .bind ((h.selectItem ends).commaList (apart _ (by decide))) fun items => ?_
    refine .bind ((h.fromClause ends).optional (apart _ (by decide))) fun source => ?_
    refine .bind (any.optional (apart _ (by decide))) fun selection => ?_
    refine .bind (.optionalList (.expect (any.commaList (apart _ (by decide))) (by decide))
      (apart _ (by decide))) fun groupBy => ?_
    exact (any.optional (apart _ (by decide))).made
      fun having => (⟨distinct, items, source, selection, groupBy, having⟩ : SelectBlock)
  refine .starting (.bind (.accepted (noWord DISTINCT rfl)) fun distinct => ?_) (by decide)
  cases distinct with
  | true => exact (block true).here
  | false => exact .discard_accept (block false).here (noWord ALL rfl) (noWord ALL rfl)

end Inside

end Completion

end CanonicalSql
