import CanonicalSql.Parser.DataChange
import CanonicalSql.Proofs.Course.Query

/-! What the rules for changes of data give.  Where an insertion names no columns, its query is told
from a list of columns by the tokens that it starts with. -/

namespace CanonicalSql

open Keyword Word CanonicalSql.Symbol

instance : Construct InsertSource :=
  .ofPieces InsertSource.WellFormed InsertSource.depth InsertSource.pieces
instance : Construct Insert := .ofPieces Insert.WellFormed (fun i => i.source.depth) Insert.pieces
instance : Construct Assignment :=
  .ofPieces (fun a => a.value.WellFormed) Assignment.depth Assignment.pieces
instance : Construct Update := .ofPieces Update.WellFormed Update.depth Update.pieces
instance : Construct Delete :=
  .ofPieces (fun d => ∀ e ∈ d.selection, e.WellFormed) (fun d => depthIn Expr.depth d.selection)
    Delete.pieces

section

@[simp] theorem literals_clusterClause (o : Option String) :
    Piece.literals (clusterClause o) = [] := by
  cases o <;> simp [clusterClause]

@[simp] theorem literals_whereClause (o : Option Expr) :
    Piece.literals (whereClause o) = literalsIn Construct.literals o := by
  cases o <;> simp [whereClause, Construct.literals]

@[simp] theorem literals_rowPieces (row : List Expr) :
    Piece.literals (rowPieces row) = row.flatMap fun e => Piece.literals e.pieces := by
  simp [rowPieces]

end

namespace Grammar

open Parse

variable {plain : Prop} {g : Grammar}

/-! ### Insertions -/

/-- A row is not empty. -/
theorem Sound.row (hg : g.Sound plain) :
    g.row.Yields plain fun n ls row => row ≠ [] ∧ Holds plain (triangle n) ls row :=
  .between _ _ hg.anyExpr.commaList

theorem Sound.rows (hg : g.Sound plain) (count : ℕ) :
    (rows g.row count).Yields plain fun n ls rows =>
      (∀ row ∈ rows, row ≠ []) ∧ Holds plain (triangle n) ls rows := by
  induction count with
  | zero => exact .pure ⟨by simp, holds_nil⟩
  | succ count ih =>
    have next : (do
        let first ← g.row
        let others ← Grammar.rows g.row count
        return first :: others).Yields plain fun n ls rows =>
          (∀ row ∈ rows, row ≠ []) ∧ Holds plain (triangle n) ls rows := by
      refine .bind hg.row fun _ _ first h1 => .last (ih.mono fun _ _ others h2 => ?_)
      exact ⟨List.forall_mem_cons.2 ⟨h1.1, h2.1⟩,
        (h1.2.and h2.2).into (fun w => List.forall_mem_cons.2 w) le_rfl rfl⟩
    refine .accept (.sees fun _ => ?_) (.seen next (.pure ⟨by simp, holds_nil⟩))
    exact next

/-- Whether the tokens from a cursor on, where a query starts, tell how it starts. -/
structure StartsQuery (c : Cursor) (q : Query) : Prop where
  starts : c.current.kind.startsQuery = true ∨ c.current.kind = .symbol leftParen
  bare : c.current.kind.startsQuery = true → q.startsBare = true
  opens : c.current.kind = .symbol leftParen → (c.peekAt 1).kind.startsQuery = true →
    q.opensBare = true

/-- The rows to insert; if a query gives them, what its tokens tell of it. -/
theorem Sound.insertSource (hg : g.Sound plain) (c : Cursor) :
    g.insertSource.GivesAt plain c fun n ts source _ =>
      Holds plain (triangle n) (literalsOf ts) source ∧
        ∀ q, source = .query q → StartsQuery c q := by
  refine .accept (fun found => ?_) fun _ => .peek (.sees ?_)
  · simp only [literalsOf_terminal found]
    rw [if_true]
    refine Yields.here (R := fun n ls source => Holds plain (triangle n) ls source ∧
      ∀ q, source = InsertSource.query q → StartsQuery c q) ?_
    refine .bind hg.row fun _ _ first h1 => .remaining fun count => ?_
    refine .last ((hg.rows count).mono fun _ _ others h2 => ⟨?_, by simp⟩)
    refine (h1.2.and h2.2).into (fun w => ?_) ?_ ?_
    · refine ⟨List.cons_ne_nil _ _, List.forall_mem_cons.2 ⟨⟨h1.1, w.1⟩, fun row hr => ?_⟩⟩
      exact ⟨h2.1 row hr, w.2 row hr⟩
    · simp [Construct.depth, InsertSource.depth, deepest]
    · simp [Construct.literals, InsertSource.pieces, List.flatMap_map]
  · split
    · next starts =>
      rw [Bool.or_eq_true] at starts
      refine (hg.query c).bind fun n ts q c' h hc => .pure ?_
      obtain ⟨holds, t, us, rfl, bare, group⟩ := h
      obtain ⟨rfl, behind⟩ : c.current = t ∧ c.ahead = us ++ c'.upcoming := by
        simpa [Cursor.upcoming] using hc
      simp only [Nat.max_zero, List.append_nil]
      refine ⟨holds.into id le_rfl (by simp [Construct.literals, InsertSource.pieces]), ?_⟩
      intro q' same
      obtain rfl := InsertSource.query.inj same
      refine ⟨starts.imp id Terminal.kind_of_symbol, bare, fun hp hq => ?_⟩
      obtain ⟨u, vs, rfl, opens⟩ := group hp
      refine opens ?_
      rwa [Cursor.peekAt, Cursor.upcoming, behind] at hq
    · exact .fail _

theorem Sound.insert (hg : g.Sound plain) : g.insert.Sound plain := by
  refine .expect (.expect (.discard_accept ?_))
  refine .bind sound_qualifiedName fun n1 ks table h1 => fun c => .peekAt ?_
  have built : ∀ {n2 n3 : ℕ} {ls ms : List Token.Kind} {columns : List String}
      {source : InsertSource}, Holds plain (triangle n2) ls columns →
      Holds plain (triangle n3) ms source →
      (∀ q, source = .query q → columns = [] → q.startsBare = true ∨ q.opensBare = true) →
      Holds plain (triangle (max n1 (max n2 n3))) (ks ++ (ls ++ ms))
        (Insert.mk table columns source) := by
    intro n2 n3 ls ms columns source h2 h3 starts
    refine (h1.and (h2.and h3)).into (fun w => ⟨w.2.2, ?_⟩) ?_ ?_
    · cases source with
      | query q => exact starts q rfl
      | values rows => trivial
    · simp [Construct.depth]
    · simp [Construct.literals, Insert.pieces]
  have unlisted : ∀ {c : Cursor}, (c.current.kind = .symbol leftParen →
      (c.peekAt 1).kind.startsQuery = true) →
      (do return ⟨table, [], ← g.insertSource⟩ : Parse Insert).GivesAt plain c fun n ts i _ =>
        Holds plain (triangle (max n1 n)) (ks ++ literalsOf ts) i := by
    intro c tells
    refine (hg.insertSource c).bind fun n3 ts source c' h3 _ => .pure ?_
    have none : Holds plain (triangle 0) [] ([] : List String) := holds_nil
    have all := built none h3.1 fun q hq _ => ?_
    · simpa using all
    · obtain ⟨starts, bare, opens⟩ := h3.2 q hq
      exact starts.imp bare fun hp => opens hp (tells hp)
  split
  · next starts => exact unlisted fun _ => starts
  · rw [optionalNameList, bind_assoc]
    refine .sees ?_
    cases found : (Terminal.symbol leftParen).admits c.current.kind with
    | false =>
      refine unlisted fun hp => ?_
      rw [hp] at found
      cases found
    | true =>
      refine (yields_nameList c).bind fun n2 us columns c' h2 _ => ?_
      refine (hg.insertSource c').bind fun n3 ts source c'' h3 _ => .pure ?_
      have all := built h2.2 h3.1 fun q _ none => absurd none h2.1
      simpa using all

/-! ### Updates and deletions -/

theorem Sound.assignment (hg : g.Sound plain) : g.assignment.Sound plain := by
  refine .bind sound_identifier fun _ _ column h1 => .expect ?_
  refine .last (hg.anyExpr.mono fun _ _ value h2 => ?_)
  refine (h1.and h2).into (fun w => w.2) ?_ ?_
  · simp [Construct.depth, Assignment.depth]
  · simp [Construct.literals, Assignment.pieces]

theorem Sound.update (hg : g.Sound plain) : g.update.Sound plain := by
  refine .expect (.bind sound_qualifiedName fun _ _ table h1 => ?_)
  refine .bind sound_aliasName fun _ _ name h2 => .expect ?_
  refine .bind hg.assignment.commaList fun _ _ assignments h3 => ?_
  refine .last ((Parse.Sound.optional _ hg.anyExpr).mono fun _ _ selection h4 => ?_)
  refine (h1.and (h2.and (h3.2.and h4))).into (fun w => ?_) ?_ ?_
  · exact ⟨h3.1, w.2.2.1, Construct.forall_mem w.2.2.2⟩
  · simp [Construct.depth, Update.depth]
  · simp [Construct.literals, Update.pieces, List.flatMap_map]

theorem Sound.delete (hg : g.Sound plain) : g.delete.Sound plain := by
  refine .expect (.expect (.bind sound_qualifiedName fun _ _ table h1 => ?_))
  refine .bind sound_onCluster fun _ _ cluster h2 => ?_
  refine .last ((Parse.Sound.optional _ hg.anyExpr).mono fun _ _ selection h3 => ?_)
  refine (h1.and (h2.and h3)).into (fun w => Construct.forall_mem w.2.2) ?_ ?_
  · simp [Construct.depth]
  · simp [Construct.literals, Delete.pieces]

end Grammar

end CanonicalSql
