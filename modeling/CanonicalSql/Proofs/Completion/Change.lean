import Mathlib
import CanonicalSql.Proofs.Completion.Query

/-! The rules for the statements that change data are viable if the grammar for what stands inside is. -/

namespace CanonicalSql

open Keyword Word CanonicalSql.Symbol

/-- There is a parser in front of any tokens, with any number of levels left. -/
theorem exists_shows {s : List Spelled} (marks : ∀ t ∈ s, t.kind ≠ .eof) (room : ℕ) :
    ∃ p : Parser, p.cursor.Shows s ∧ p.room = room := by
  cases s with
  | nil => exact ⟨⟨⟨0, .endMark .nowhere, []⟩, 0, room⟩, ⟨rfl, marks⟩, rfl⟩
  | cons t s =>
    have others : (s.map fun t => (⟨t.kind, t.text, .nowhere⟩ : Token)).map Token.spelled = s := by
      rw [List.map_map]
      exact List.map_id s
    refine ⟨⟨⟨0, ⟨t.kind, t.text, .nowhere⟩, (s.map fun t => ⟨t.kind, t.text, .nowhere⟩) ++
      [.endMark .nowhere]⟩, 0, room⟩, ⟨?_, marks⟩, rfl⟩
    rw [Cursor.upcoming, List.map_cons, List.map_append, others]
    rfl

namespace Completion

open Parse Grammar

variable {K : Completion} {α : Type} {I S F : Rests} {near : Prop} {us : List Terminal} {level n : ℕ}
  {s : List Spelled} {first : Spelled}

/-- What ends a statement. -/
abbrev Semicolon : Rests := Starts [semicolon]

/-! ### Rows -/

/-- A row of values, from behind its parenthesis. -/
def rowBehind (g : Grammar) : Parse (List Expr) := do
  let values ← commaList g.anyExpr
  expect rightParen
  return values

/-- A further row, if one follows. -/
def furtherRow (g : Grammar) : Parse (Option (List Expr)) := do
  if ← accept comma then return some (← g.row)
  else if ← accept leftParen then return some (← rowBehind g)
  else return none

/-- The comma between two rows may be left out, but not the parenthesis of a row. -/
theorem row_or (g : Grammar) (f : List Expr → Parse α) (y : Parse α) :
    (accept comma >>= fun a => sees leftParen >>= fun b => if (a || b) = true then g.row >>= f else y) =
      accept comma >>= fun a => if a = true then g.row >>= f else
        accept leftParen >>= fun b => if b = true then rowBehind g >>= f else y := by
  have opened : g.row >>= f = expect leftParen >>= fun _ => rowBehind g >>= f := by
    simp only [Grammar.row, between, rowBehind, bind_assoc]
  rw [← sees_expect leftParen, ← opened]
  refine congrArg _ (funext fun a => ?_)
  cases a <;> rfl

namespace Inside

theorem row (h : K.Inside) : K.Viable Nothing Anything F near (fun g _ => g.row) :=
  .between (.list (h.anyExpr (by decide)) (by decide)) (by decide) (by decide)

theorem rows (h : K.Inside) : K.Viable Semicolon Semicolon Semicolon near
    (fun g n => Grammar.rows g.row n) := by
  have behind : K.Viable Nothing (StartsWith someNumber) Semicolon True fun g _ => rowBehind g :=
    .bind (.list (h.anyExpr (by decide)) (by decide)) fun values => .closing (.result values) (by decide)
  refine .repeated (x := furtherRow) (.accept id h.row (.accept id behind (.none _) fun _ h =>
    h.admits (by decide))
    fun _ h => h.admits (by decide)) (fun _ => rfl) fun g n => ?_
  rw [Grammar.rows, row_or, furtherRow, accept_bind, accept_bind]
  simp only [bind_assoc, pure_bind]

/-! ### Insertions -/

theorem insertSource (h : K.Inside) : K.Viable Nothing (Starts [VALUES]) Semicolon near
    (fun g _ => g.insertSource) := by
  have values : K.Viable Nothing Anything Semicolon near fun g _ => g.row >>= fun first =>
      remaining >>= fun n =>
      Grammar.rows g.row n >>= fun others => pure (InsertSource.values (first :: others)) :=
    .bind h.row fun first => (h.rows.made fun others => InsertSource.values (first :: others)).remaining
  exact .choose values (queryAhead (Y := fun g => g.query >>= fun q =>
    pure (InsertSource.query q)) .insertSource
    ((h.queryBefore (by decide)).made InsertSource.query)).course (by decide) fun s => .first _ _ s

end Inside

/-- An insertion, from behind its table. -/
def insertBehind (g : Grammar) (table : QualifiedName) : Parse CanonicalSql.Insert := do
  let columns ← if (← peekAt 1).startsQuery then pure [] else optionalNameList
  return ⟨table, columns, ← g.insertSource⟩

/-- An insertion without a list of columns, from behind its table. -/
def insertBare (g : Grammar) (table : QualifiedName) : Parse CanonicalSql.Insert := do
  return ⟨table, [], ← g.insertSource⟩

/-- An insertion, from behind the parenthesis that opens its list of columns. -/
def insertColumns (g : Grammar) (table : QualifiedName) : Parse CanonicalSql.Insert := do
  let columns ← commaList identifier
  expect rightParen
  return ⟨table, columns, ← g.insertSource⟩

section

variable {g : Grammar} {table : QualifiedName} {p : Parser}

theorem insertBehind_of_bare (hp : p.cursor.Shows s)
    (bare : (Terminal.symbol leftParen).admits (kindAt s 0) = false ∨ (kindAt s 1).startsQuery = true) :
    insertBehind g table p = insertBare g table p := by
  rw [insertBehind, peekAt_bind, hp.peekAt 1]
  cases starts : (kindAt s 1).startsQuery with
  | true => rfl
  | false =>
    have noParen : (Terminal.symbol leftParen).admits (kindAt s 0) = false := by simpa [starts] using bare
    have none : optionalNameList p = .ok [] p := by
      rw [optionalNameList, sees_bind, hp.kind, noParen]
      rfl
    exact Parse.bind_of_ok none

theorem insertBehind_of_columns (hp : p.cursor.Shows (first :: s)) (paren : first.kind = .symbol leftParen)
    (columns : (kindAt s 0).startsQuery = false) :
    insertBehind g table p = insertColumns g table { p with cursor := p.cursor.advance } := by
  have here : (Terminal.symbol leftParen).admits p.cursor.current.kind = true := by
    rw [hp.kind, kindAt_cons_zero]
    exact Terminal.admits_symbol.2 paren
  have list : ∀ f : List String → Parse CanonicalSql.Insert, (optionalNameList >>= f) p =
      (commaList identifier >>= fun columns => expect rightParen >>= fun _ => f columns)
        { p with cursor := p.cursor.advance } := fun f => by
    rw [optionalNameList, bind_assoc, sees_bind, here, if_pos rfl, nameList, between]
    simp only [bind_assoc, pure_bind]
    rw [expect_bind, Parse.bind_of_ok (accept_of_admits here), if_pos rfl]
  rw [insertBehind, peekAt_bind, hp.peekAt 1, kindAt_cons_succ, columns]
  exact list _

theorem query_of_insertBare {q : Parser} {i : CanonicalSql.Insert} (hp : p.cursor.Shows (first :: s))
    (paren : first.kind = .symbol leftParen) (run : insertBare g table p = .ok i q) :
    ∃ query q, g.query p = .ok query q := by
  cases parsed : g.query p with
  | ok query q => exact ⟨query, q, rfl⟩
  | error e q =>
    have kind : p.cursor.current.kind = .symbol leftParen := by rw [hp.kind, kindAt_cons_zero, paren]
    have other : (Terminal.keyword VALUES).admits p.cursor.current.kind = false := by rw [kind]; rfl
    have refused : g.insertSource p = .error e q := by
      rw [Grammar.insertSource, Parse.bind_of_ok (accept_of_not_admits other), if_neg (by simp),
        peek_bind, sees_bind,
        kind]
      exact Parse.bind_of_error parsed
    rw [insertBare, Parse.bind_of_error refused] at run
    cases run

end

namespace Inside

theorem insertBehind (h : K.Inside) (table : QualifiedName) :
    K.Viable Nothing (Starts [VALUES]) Semicolon near (fun g _ => Completion.insertBehind g table) := by
  have bare : K.Viable Nothing (Starts [VALUES]) Semicolon near fun g _ => insertBare g table :=
    h.insertSource.made (CanonicalSql.Insert.mk table [])
  have columns : K.Viable (fun r => (kindAt r 0).startsQuery = false) (fun r =>
      (kindAt r 0).startsQuery = false)
      Semicolon near fun g _ => insertColumns g table := by
    have all : K.Viable Nothing (StartsWith someName) Semicolon near fun g _ => insertColumns g table :=
      .bind (.list viable_identifier (by decide)) fun columns =>
        .closing (h.insertSource.made (CanonicalSql.Insert.mk table columns)) (by decide)
    refine all.mono (fun _ _ h => h.elim) ?_ (fun _ h => h) id
    rintro r ⟨s, rfl⟩
    rfl
  refine ⟨fun n s less => ?_, (bare.fill.mono (fun r hr => ⟨hr, hr.admits (by decide)⟩) fun _ h => h).congr
    (C := fun r => (Terminal.symbol leftParen).admits (kindAt r 0) = false)
    fun s g n p other hp => insertBehind_of_bare hp (.inl other)⟩
  cases opens : (Terminal.symbol leftParen).admits (kindAt s 0) with
  | false =>
    refine ((bare.course n s less).mono (fun _ _ h => h.elim) (fun _ h => h) id).told
      (C := fun r => (Terminal.symbol leftParen).admits (kindAt r 0) = false) opens
      (fun s' near => by rw [near.kindAt, opens]) fun s g n p other hp => insertBehind_of_bare hp (.inl other)
  | true =>
    cases s with
    | nil => simp [Terminal.admits_eof] at opens
    | cons first s =>
      have paren : first.kind = .symbol leftParen := Terminal.admits_symbol.1 opens
      cases starts : (kindAt s 0).startsQuery with
      | false =>
        exact (columns.course n s (Nat.le_of_succ_le less)).deeper (w := [first]) columns.fill
          (by simp) starts
          (fun s' near => by rw [near.kindAt, starts]) fun s g n p told hp =>
            ⟨_, hp.advance, .advance hp, .inl (insertBehind_of_columns hp paren told)⟩
      | true =>
        refine (bare.course n (first :: s) less).second (C := fun r => (kindAt r 0).startsQuery = true) starts
          (fun s' near => by rw [near.kindAt, starts]) ?_ ?_ ?_ fun s g n p told hp =>
            insertBehind_of_bare hp (.inr told)
        · exact ⟨[(Terminal.symbol semicolon).spelled], .first _ _ _, .terminal (by decide)⟩
        · rintro i ⟨bound, passes⟩
          have more : Fits Semicolon (List.replicate (bound + 1) (Terminal.symbol semicolon).spelled) :=
            ⟨.first _ _ _, .inl rfl⟩
          obtain ⟨p, hp, room⟩ := exists_shows (s :=
            first :: List.replicate (bound + 1) (Terminal.symbol semicolon).spelled)
            (by simp [paren, Terminal.spelled]) bound
          obtain ⟨c, -, run⟩ := passes _ more bound le_rfl bound le_rfl p hp room.ge (by simp)
          obtain ⟨query, q, parsed⟩ := query_of_insertBare hp paren run
          exact h.nested bound p first _ paren (more.1.mono (by decide)) hp query q parsed
        · exact columns.fill.behind (w := [first]) fun s g n p told hp _ =>
            ⟨_, hp.advance, insertBehind_of_columns hp paren told⟩

theorem insert (h : K.Inside) : K.Viable Nothing (Starts [INSERT]) Semicolon near (fun g _ => g.insert) := by
  have table : K.Viable Nothing (StartsWith someName) Semicolon near fun g _ => qualifiedName >>= fun table =>
      Completion.insertBehind g table :=
    .bind (G := Starts [VALUES]) (viable_qualifiedName fun r h => h.admits (by decide)) fun table =>
      (h.insertBehind table).here
  refine .starting (.expect (.discard_accept table (fun _ h => h.elim) ?_) (by decide)) (by decide)
  rintro r ⟨s, rfl⟩
  rfl

theorem assignment (h : K.Inside) (ends : us.all Terminal.endsExpr = true) :
    K.Viable Nothing (StartsWith someName) (Starts us) near (fun g _ => g.assignment) :=
  .bind viable_identifier fun column => .closing ((h.anyExpr ends).made (Assignment.mk column)) (by decide)

theorem update (h : K.Inside) : K.Viable Nothing (Starts [UPDATE]) Semicolon near (fun g _ => g.update) := by
  have changes : ∀ table asName, K.Viable Nothing (StartsWith someName) Semicolon near fun g _ =>
      commaList g.assignment >>= fun assignments => optional WHERE g.anyExpr >>= fun selection =>
        pure (⟨table, asName, assignments, selection⟩ : Update) := fun table asName =>
    .bind (G := Semicolon) (.list (h.assignment (by decide)) (by decide)) fun assignments =>
      (Viable.clause (h.anyExpr (by decide)) (by decide)).made (Update.mk table asName assignments)
  refine .starting (.bind (G := Starts [SET]) (viable_qualifiedName fun r h =>
    h.admits (by decide)) fun table => ?_) (by decide)
  exact .bind (viable_aliasName fun r h => h.noAlias (by decide) (by decide)) fun asName =>
    .closing (changes table asName) (by decide)

theorem delete (h : K.Inside) : K.Viable Nothing (Starts [DELETE]) Semicolon near (fun g _ => g.delete) := by
  refine .starting (.expect (.bind (G := Semicolon) (viable_qualifiedName fun r h =>
    h.admits (by decide)) fun table => ?_) (by decide)) (by decide)
  exact .bind viable_onCluster fun cluster => (Viable.clause (h.anyExpr (by decide)) (by decide)).made
    (Delete.mk table cluster)

end Inside

end Completion

end CanonicalSql
