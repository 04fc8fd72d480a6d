import Mathlib
import CanonicalSql.Proofs.Completion.Definition

/-! The rules for the statements that define objects are viable if the grammar for what stands inside is.  A
table needs columns or a query, so its definition can be refused behind its last clause. -/

namespace CanonicalSql

open Keyword Word CanonicalSql.Symbol

namespace Completion

open Parse Grammar

variable {K : Completion} {α β : Type} {I S F : Rests} {near : Prop} {us : List Terminal} {level n : ℕ}
  {s : List Spelled} {first : Spelled}

/-- A rule that gives a result of no tokens where the tokens tell so, as it does in front of all that fits. -/
theorem Goes.still {Y : Scheme α} {C : Rests} (a : α) (hs : C s) (hF : ∀ r, Fits F r → C r)
    (hI : ∀ r, Fits F r → I r)
    (same : ∀ (s : List Spelled) (g : Grammar) (n : ℕ) (p : Parser), C s → p.cursor.Shows s →
      Y g n p = .ok a p) : K.Goes I F False Y n s := by
  intro p hp
  rw [same s K.first n p hs hp]
  refine .passed (.refl p.cursor) hp ?_ fun _ => hI
  refine (Leads.pure _ a).congr fun r hr g n p hp => ?_
  rcases hr with fits | ⟨none, -⟩
  · exact same r g n p (hF r fits) hp
  · exact none.elim

/-! ### Tables -/

/-- The name of a table and what it holds, together with all that can stand before its engine. -/
structure TableHead where
  orReplace : Bool
  temporary : Bool
  ifNotExists : Bool
  name : QualifiedName
  cluster : Option String
  elements : List TableElement
  engine : Option Engine

/-- A table that has no further clause. -/
def TableHead.plain (head : TableHead) : CreateTable :=
  { head with
    partitionBy := none, primaryKey := none, orderBy := none, settings := [], comment := none, query := none }

/-- The clauses of a table from its partitions on. -/
def tableTail (g : Grammar) (head : TableHead) (partitionBy : Option Expr) : Parse CreateTable := do
  let primaryKey ← optional PRIMARY do
    expect KEY
    g.anyExpr
  let orderBy ← optional ORDER do
    expect BY
    g.anyExpr
  let settings ← optionalList SETTINGS (commaList g.setting)
  let comment ← optional COMMENT (stringLiteral .comment)
  let query ← optional AS g.query
  if head.elements.isEmpty && query.isNone then fail .tableContents
  else return { head with partitionBy, primaryKey, orderBy, settings, comment, query }

/-- The words of a clause for partitions. -/
def partitionWords : List Terminal := [PARTITION, BY]

/-- The clauses of a table from behind its engine. -/
def tableClauses (g : Grammar) (head : TableHead) : Parse CreateTable := do
  if ← acceptAll partitionWords then
    let partitionBy ← g.anyExpr
    tableTail g head (some partitionBy)
  else tableTail g head none

theorem fail_bind (expected : Expectation) (f : α → Parse β) : (fail expected >>= f) = fail expected := rfl

theorem createTable_eq (g : Grammar) (orReplace temporary : Bool) : g.createTable orReplace temporary =
    ifNotExists >>= fun ifNotExists => qualifiedName >>= fun name => onCluster >>= fun cluster =>
      g.tableElements >>= fun elements => optional ENGINE g.engine >>= fun engine =>
        tableClauses g ⟨orReplace, temporary, ifNotExists, name, cluster, elements, engine⟩ := by
  unfold Grammar.createTable tableClauses tableTail
  refine congrArg _ (funext fun ifNotExists => congrArg _ (funext fun name =>
    congrArg _ (funext fun cluster =>
    congrArg _ (funext fun elements => congrArg _ (funext fun engine =>
      congrArg _ (funext fun parted => ?_))))))
  cases parted <;> simp only [↓reduceIte, Bool.false_eq_true, map_eq_pure_bind, bind_assoc, pure_bind,
    fail_bind]

/-- The terminals that start the clauses of a table from its primary key on. -/
def tailStarts : List Terminal := [PRIMARY, ORDER, SETTINGS, COMMENT, AS]

/-- Where no clause follows, a table with columns is complete, and one without columns is refused. -/
theorem tableTail_of_none {g : Grammar} {head : TableHead} {p : Parser}
    (others : ∀ t ∈ tailStarts, t.admits p.cursor.current.kind = false) :
    tableTail g head none p = (if head.elements.isEmpty = true then fail .tableContents
      else pure head.plain : Parse CreateTable) p := by
  have idle : ∀ {α β : Type} (t : Terminal) (x : Parse α) (f : Option α → Parse β), t ∈ tailStarts →
      (optional t x >>= f) p = f none p := fun t x f ht => by
    have none : optional t x p = .ok none p := by
      rw [Parse.optional, Parse.bind_of_ok (accept_of_not_admits (others t ht))]
      rfl
    exact Parse.bind_of_ok none
  have settings : ∀ {α β : Type} (x : Parse (List α)) (f : List α → Parse β),
      (optionalList SETTINGS x >>= f) p = f [] p := fun x f => by
    have none : optionalList SETTINGS x p = .ok [] p := by
      rw [Parse.optionalList, Parse.bind_of_ok (accept_of_not_admits (others _ (by decide)))]
      rfl
    exact Parse.bind_of_ok none
  rw [tableTail, idle _ _ _ (by decide), idle _ _ _ (by decide), settings, idle _ _ _ (by decide),
    idle _ _ _ (by decide), Option.isNone_none, Bool.and_true]
  rfl

namespace Inside

/-- The query of a table, which it needs if it has no columns. -/
theorem contents (h : K.Inside) (empty : Bool) (f : Option Query → CreateTable) :
    K.Viable (Starts [AS, semicolon]) (Starts [AS, semicolon]) Semicolon near fun g _ =>
      optional AS g.query >>= fun query =>
        if (empty && query.isNone) = true then fail .tableContents else pure (f query) := by
  have query : K.Viable Nothing (Starts [SELECT]) Semicolon near fun g _ => g.query :=
    h.queryBefore (by decide)
  cases empty with
  | true =>
    have filled : K.Viable Nothing (Starts [AS]) Semicolon near fun g _ => accept AS >>= fun b =>
        if b = true then
        g.query >>= fun query => pure (f (some query)) else fail .tableContents :=
      .choose (query.made fun query => f (some query)) (.fail _) (by decide) fun s => .first _ _ s
    have all : K.Viable (Starts [AS, semicolon]) (Starts [AS, semicolon]) Semicolon near fun g _ =>
        accept AS >>= fun b => if b = true then g.query >>= fun query => pure (f (some query))
          else fail .tableContents :=
      filled.here.mono (fun r _ h => h.mono (by decide)) (fun r h => h.mono (by decide)) (fun _ h => h) id
    have same : ∀ g : Grammar, (optional AS g.query >>= fun query =>
        if (true && query.isNone) = true then fail .tableContents else pure (f query)) =
          accept AS >>= fun b => if b = true then g.query >>= fun query => pure (f (some query))
            else fail .tableContents := fun g => by
      rw [Parse.optional, accept_bind]
      simp only [bind_assoc, pure_bind, Bool.true_and, Option.isNone_some, Option.isNone_none,
        Bool.false_eq_true, ↓reduceIte]
    simpa only [same] using all
  | false =>
    have all : K.Viable (Starts [AS, semicolon]) (Starts [AS, semicolon]) Semicolon near fun g _ =>
        optional AS g.query >>= fun query => pure (f query) :=
      ((Viable.clause query (by decide)).made f).mono (fun r _ h => h.mono (by decide)) (fun r h =>
        h.mono (by decide))
        (fun _ h => h) id
    simpa only [Bool.false_and, Bool.false_eq_true, ↓reduceIte] using all

theorem tableTail (h : K.Inside) (head : TableHead) (partitionBy : Option Expr) :
    K.Viable (Starts [AS, semicolon]) (Starts [AS, semicolon]) Semicolon near
      (fun g _ => Completion.tableTail g head partitionBy) := by
  refine .bind (.clause (.expect (h.anyExpr (by decide)) (by decide)) (by decide)) fun primaryKey =>
    .bind (.clause (.expect (h.anyExpr (by decide)) (by decide)) (by decide)) fun orderBy => ?_
  refine .bind (.listClause (.list (h.setting (by decide)) (by decide)) (by decide)) fun settings => ?_
  refine .bind (.clause (viable_stringLiteral _) (by decide)) fun comment => ?_
  exact h.contents head.elements.isEmpty fun query =>
    { head with partitionBy, primaryKey, orderBy, settings, comment, query }

/-- The word of a clause for partitions is passed over together with the word behind it.  Alone it starts no
clause, so a table without columns is refused at it. -/
theorem tableClauses (h : K.Inside) (head : TableHead) :
    K.Viable (Starts [AS, semicolon]) (Starts [AS, semicolon]) Semicolon False
      (fun g _ => Completion.tableClauses g head) := by
  have rejected : ∀ {g : Grammar} {p : Parser} {s : List Spelled}, p.cursor.Shows s →
      Meets (partitionWords.map Terminal.admits) s = false →
      Completion.tableClauses g head p = Completion.tableTail g head none p := fun hp none => by
    rw [Completion.tableClauses, Parse.bind_of_ok (acceptAll_of_not_meets hp none)]
    rfl
  have unmet : ∀ {s : List Spelled}, (Terminal.word PARTITION).admits (kindAt s 0) = false →
      Meets (partitionWords.map Terminal.admits) s = false := fun none => by
    rw [partitionWords, List.map_cons, Meets, none, Bool.false_and]
  have parted : K.Viable Nothing (StartsWith someNumber) Semicolon False fun g _ =>
      g.anyExpr >>= fun partitionBy =>
      Completion.tableTail g head (some partitionBy) :=
    .bind (h.anyExpr (by decide)) fun partitionBy => h.tableTail head (some partitionBy)
  have tail : K.Viable (Starts [AS, semicolon]) (Starts [AS, semicolon]) Semicolon False fun g _ =>
      Completion.tableTail g head none := h.tableTail head none
  refine ⟨fun n s less => ?_, (tail.fill.mono (fun r hr => ⟨hr, hr.admits (by decide)⟩) fun _ h => h).congr
    (C := fun r => (Terminal.word PARTITION).admits (kindAt r 0) = false)
    fun s g n p other hp => rejected hp (unmet other)⟩
  cases meets : Meets (partitionWords.map Terminal.admits) s with
  | true =>
    obtain ⟨w, r, rfl, length, meets⟩ := exists_of_meets (by simp [partitionWords, Terminal.admits_eof]) meets
    have some : w ≠ [] := by
      rintro rfl
      cases length
    refine .behind (parted.anywhere.course n r (by simp at less; omega)) parted.anywhere.fill some
      fun s g n p hp => ?_
    obtain ⟨c, hc, moves, run⟩ := acceptAll_of_meets hp length (meets s)
    exact ⟨c, hc, moves, Parse.bind_of_ok run⟩
  | false =>
    cases word : (Terminal.word PARTITION).admits (kindAt s 0) with
    | false =>
      refine ((tail.course n s less).mono (fun r _ hr => ⟨hr, hr.admits (by decide)⟩) (fun _ h => h) id).told
        (C := fun r => (Terminal.word PARTITION).admits (kindAt r 0) = false) word
        (fun s' near => by rw [near.kindAt, word]) fun s g n p other hp => rejected hp (unmet other)
    | true =>
      have others : ∀ t ∈ tailStarts, t.admits (kindAt s 0) = false := by
        cases hk : kindAt s 0 with
        | ident name =>
          simp only [tailStarts, List.forall_mem_cons]
          exact ⟨rfl, rfl, rfl, rfl, rfl, by simp⟩
        | _ => rw [hk] at word; cases word
      have still : ∀ {g : Grammar} {p : Parser} {s : List Spelled}, p.cursor.Shows s →
          Meets (partitionWords.map Terminal.admits) s = false ∧
            (∀ t ∈ tailStarts, t.admits (kindAt s 0) = false) → Completion.tableClauses g head p = _ :=
        fun hp told => (rejected hp told.1).trans (tableTail_of_none (hp.kind ▸ told.2))
      cases empty : head.elements.isEmpty with
      | true =>
        refine .refused fun p hp => ⟨.tableContents, p, ?_⟩
        rw [still hp ⟨meets, others⟩, empty]
        rfl
      | false =>
        refine .still head.plain (C := fun s => Meets (partitionWords.map Terminal.admits) s = false ∧
            (∀ t ∈ tailStarts, t.admits (kindAt s 0) = false)) ⟨meets, others⟩ ?_ ?_ fun s g n p told hp => ?_
        · rintro r ⟨⟨t, ht, s, rfl⟩, -⟩
          obtain rfl := List.mem_singleton.1 ht
          refine ⟨rfl, ?_⟩
          rw [kindAt_cons_zero]
          decide
        · exact fun r fits => fits.1.mono (by decide)
        · rw [still hp told, empty]
          rfl

theorem createTable (h : K.Inside) (orReplace temporary : Bool) :
    K.Viable Nothing Anything Semicolon False (fun g _ => g.createTable orReplace temporary) := by
  simp only [createTable_eq]
  refine .ifNotExists fun ifNotExists => ?_
  refine .bind (G := Starts [AS, semicolon]) (viable_qualifiedName fun _ h =>
    h.admits (by decide)) fun name => ?_
  refine .bind viable_onCluster fun cluster => .bind (h.tableElements (by decide)) fun elements => ?_
  exact .bind (.clause (h.engine (by decide)) (by decide)) fun engine => h.tableClauses _

theorem createView (h : K.Inside) (orReplace materialized : Bool) :
    K.Viable Nothing Anything Semicolon near (fun g _ => g.createView orReplace materialized) := by
  refine .ifNotExists fun ifNotExists => ?_
  refine .bind (G := Starts [AS]) (viable_qualifiedName fun _ h => h.admits (by decide)) fun name => ?_
  refine .bind viable_onCluster fun cluster => ?_
  refine .bind (.clause (viable_qualifiedName fun _ h => h.admits (by decide)) (by decide)) fun target => ?_
  refine .bind (viable_optionalNameList fun _ h => h.admits (by decide)) fun columns => ?_
  have query : K.Viable Nothing (Starts [SELECT]) Semicolon near fun g _ => g.query >>= fun query =>
      pure (⟨orReplace, materialized, ifNotExists, name, cluster, target, columns, query⟩ : CreateView) :=
    (h.queryBefore (by decide)).made _
  exact .closing query (by decide)

theorem indexColumn (h : K.Inside) :
    K.Viable Nothing (StartsWith someNumber) (Starts [rightParen]) near (fun g _ => g.indexColumn) :=
  .bind (G := Starts [rightParen]) (h.anyExpr (by decide)) fun expr =>
    (Inside.sortDirection (by decide)).made (IndexColumn.mk expr)

theorem createIndex (h : K.Inside) (unique : Bool) :
    K.Viable Nothing Anything Semicolon near (fun g _ => g.createIndex unique) := by
  refine .ifNotExists fun ifNotExists => ?_
  refine .bind viable_identifier fun name => .closing (.bind (G := Starts [leftParen])
    (viable_qualifiedName fun _ h => h.admits (by decide)) fun table => ?_) (by decide)
  exact ((Viable.enclosed (.list h.indexColumn (by decide)) (by decide) (by decide)).made
    (CreateIndex.mk unique ifNotExists name table)).here

theorem createDatabase (h : K.Inside) : K.Viable Nothing Anything Semicolon near
    (fun g _ => g.createDatabase) := by
  refine .ifNotExists fun ifNotExists => ?_
  refine .bind (G := Semicolon) viable_identifier fun name => .bind viable_onCluster fun cluster => ?_
  exact (Viable.clause (h.engine (by decide)) (by decide)).made (CreateDatabase.mk ifNotExists name cluster)

theorem create (h : K.Inside) : K.Viable Nothing (Starts [CREATE]) Semicolon False (fun g _ => g.create) := by
  have table : ∀ orReplace temporary, K.Viable Nothing Anything Semicolon False fun g _ =>
      g.createTable orReplace temporary >>= fun table => pure (Statement.createTable table) :=
    fun orReplace temporary => (h.createTable orReplace temporary).made Statement.createTable
  have view : ∀ orReplace materialized, K.Viable Nothing Anything Semicolon False fun g _ =>
      g.createView orReplace materialized >>= fun view => pure (Statement.createView view) :=
    fun orReplace materialized => (h.createView orReplace materialized).made Statement.createView
  have index : ∀ unique, K.Viable Nothing Anything Semicolon False fun g _ =>
      g.createIndex unique >>= fun index => pure (Statement.createIndex index) :=
    fun unique => (h.createIndex unique).made Statement.createIndex
  have database : K.Viable Nothing Anything Semicolon False fun g _ =>
      g.createDatabase >>= fun database => pure (Statement.createDatabase database) :=
    h.createDatabase.made Statement.createDatabase
  refine .starting (.bind_solid (G := Starts [TABLE])
    (.acceptedAll (.of_terminals ⟨⟨_, rfl, by decide⟩, by decide⟩)) fun orReplace => ?_) (by decide)
  refine .reject (.expect (table orReplace true) (by decide))
    ((Viable.choose (S := fun r => Starts [TABLE] r ∧
    (Terminal.word TEMPORARY).admits (kindAt r 0) = false) (table orReplace false) ?_
      (by decide) fun s => ⟨.first _ _ s, rfl⟩).mono (fun _ _ h => h.elim) (fun _ h => h) (fun _ h => h) id)
  refine .choose (.expect (view orReplace true) (by decide)) (.choose (view orReplace false) ?_)
  cases orReplace with
  | true => exact .fail _
  | false =>
    exact .choose (.expect (index true) (by decide)) (.choose (index false) (.choose database (.fail _)))

end Inside

end Completion

end CanonicalSql
