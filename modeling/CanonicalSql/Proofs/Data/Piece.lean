import CanonicalSql.Printed.Statement
import CanonicalSql.Proofs.Data

/-! The data that pieces show. -/

namespace CanonicalSql

namespace Piece

/-- The datum that a piece shows, if it is no fixed part of the text. -/
def datum? : Piece → Option Datum
  | .name n | .typeName n => some (.name n)
  | .functionName n => some (.functionName n)
  | .label n => some (.label n)
  | .unit u => some (.unit u)
  | .number t => some (.number t)
  | .string v => some (.string v)
  | .placeholder p => some (.placeholder p)
  | .space | .lineEnd | .keyword _ | .word _ | .symbol _ => none

/-- The data that pieces show, in their order. -/
def data (ps : List Piece) : List Datum := ps.filterMap datum?

variable {p : Piece} {ps qs : List Piece}

@[simp] theorem data_nil : data [] = [] := rfl

@[simp] theorem data_append : data (ps ++ qs) = data ps ++ data qs := List.filterMap_append

theorem data_cons : data (p :: ps) = data [p] ++ data ps := @data_append [p] ps

theorem data_fixed (h : p.datum? = none) : data (p :: ps) = data ps := by simp [data, h]

@[simp] theorem data_space : data (.space :: ps) = data ps := data_fixed rfl
@[simp] theorem data_lineEnd : data (.lineEnd :: ps) = data ps := data_fixed rfl
@[simp] theorem data_keyword (k : Keyword) : data (.keyword k :: ps) = data ps := data_fixed rfl
@[simp] theorem data_word (w : Word) : data (.word w :: ps) = data ps := data_fixed rfl
@[simp] theorem data_symbol (s : Symbol) : data (.symbol s :: ps) = data ps := data_fixed rfl

@[simp] theorem data_name (n : String) : data (.name n :: ps) = .name n :: data ps := rfl
@[simp] theorem data_typeName (n : String) : data (.typeName n :: ps) = .name n :: data ps := rfl
@[simp] theorem data_functionName (n : String) :
    data (.functionName n :: ps) = .functionName n :: data ps := rfl
@[simp] theorem data_label (n : String) : data (.label n :: ps) = .label n :: data ps := rfl
@[simp] theorem data_unit (u : String) : data (.unit u :: ps) = .unit u :: data ps := rfl
@[simp] theorem data_number (t : String) : data (.number t :: ps) = .number t :: data ps := rfl
@[simp] theorem data_string (v : String) : data (.string v :: ps) = .string v :: data ps := rfl
@[simp] theorem data_placeholder (p : Placeholder) :
    data (.placeholder p :: ps) = .placeholder p :: data ps := rfl

@[simp] theorem data_before_space : data [p, .space] = data [p] := by
  rw [data_cons, data_space, data_nil, List.append_nil]

@[simp] theorem data_phrase : data (phrase ps) = data ps := by
  induction ps with
  | nil => rfl
  | cons p ps ih =>
    cases ps with
    | nil => rfl
    | cons q ps =>
      rw [phrase, List.intersperse_cons_cons, data_cons, data_space, ← phrase, ih, ← data_cons]

@[simp] theorem data_ahead : data (ahead ps) = data ps := by simp [ahead]

@[simp] theorem data_behind : data (behind ps) = data ps := by simp [behind]

@[simp] theorem data_spaced : data (spaced p) = data [p] := by simp [spaced]

@[simp] theorem data_clause : data (clause ps qs) = data ps ++ data qs := by simp [clause]

@[simp] theorem data_parens : data (parens ps) = data ps := by simp [parens]

@[simp] theorem data_parensIf (needed : Bool) : data (parensIf needed ps) = data ps := by
  cases needed <;> simp [parensIf]

/-- Whether a part is there makes no difference if all its words are fixed. -/
@[simp] theorem data_flag (present : Bool) (fixed : data ps = []) : data (flag present ps) = [] := by
  cases present <;> simp [flag, fixed]

@[simp] theorem data_commas (items : List (List Piece)) :
    data (commas items) = items.flatMap data := by
  induction items with
  | nil => rfl
  | cons item items ih => cases items <;> simp_all

@[simp] theorem data_optionalParens (items : List (List Piece)) :
    data (optionalParens items) = items.flatMap data := by
  cases items <;> simp [optionalParens]

@[simp] theorem data_listClause (items : List (List Piece)) (fixed : data ps = []) :
    data (listClause ps items) = items.flatMap data := by
  cases items <;> simp [listClause, fixed]

@[simp] theorem data_names (ns : List String) : data (names ns) = namesData ns := by
  induction ns with
  | nil => rfl
  | cons n ns ih => simp_all [names, namesData]

@[simp] theorem data_nameList (ns : List String) : data (nameList ns) = namesData ns := by
  cases ns <;> simp [nameList, namesData]

@[simp] theorem data_aliasClause (a : Option String) : data (aliasClause a) = nameData a := by
  cases a <;> simp [aliasClause, nameData, dataIn]

end Piece

@[simp] theorem data_placed (e : Expr) (level : Nat) (ps : List Piece) :
    Piece.data (e.placed level ps) = Piece.data ps := Piece.data_parensIf _

end CanonicalSql
