import Docbase.Sql.Statement

/-!
# Texts in pieces

The text of a statement, with what it is made of kept apart: texts of the library, texts of the
caller, and the places of bound values. So a path that looks like such a place is not taken for one.

* `Piece`: a piece, its places labelled by numbers or by names.
* `Piece.concat`: pieces in SQL.
* `Piece.labels`, `Piece.callers`: the places and the texts of the caller, from left to right.
* `Operand.pieces`: the pieces of an operand.
-/

namespace Docbase.Sql

/-- A piece of a text in SQL. -/
inductive Piece (ν : Type)
  /-- A text of the library. -/
  | text (s : String)
  /-- A key of the caller, between quotes. -/
  | key (s : String)
  /-- The name of a table, with a blank behind it. -/
  | table (s : String)
  /-- The place of a bound value. -/
  | hole (label : ν)
  deriving DecidableEq, Repr

namespace Piece

variable {ν μ : Type}

/-- A piece in SQL. -/
def print : Piece String → String
  | text s => s
  | key s => quoteLiteral s
  | table s => s ++ " "
  | hole name => placeholder name

/-- Pieces in SQL, one behind the other. -/
def concat : List (Piece String) → String
  | [] => ""
  | p :: ps => p.print ++ concat ps

/-- The places, from left to right. -/
def labels : List (Piece ν) → List ν
  | [] => []
  | hole label :: ps => label :: labels ps
  | _ :: ps => labels ps

/-- The texts of the caller, from left to right. -/
def callers : List (Piece ν) → List String
  | [] => []
  | key s :: ps | table s :: ps => s :: callers ps
  | _ :: ps => callers ps

/-- A piece with another label. -/
def map (f : ν → μ) : Piece ν → Piece μ
  | text s => text s
  | key s => key s
  | table s => table s
  | hole label => hole (f label)

@[simp] theorem concat_append (ps qs : List (Piece String)) :
    concat (ps ++ qs) = concat ps ++ concat qs := by
  induction ps with
  | nil => simp [concat]
  | cons p ps ih => simp [concat, ih, String.append_assoc]

@[simp] theorem labels_append (ps qs : List (Piece ν)) :
    labels (ps ++ qs) = labels ps ++ labels qs := by
  induction ps with
  | nil => simp [labels]
  | cons p ps ih => cases p <;> simp [labels, ih]

@[simp] theorem callers_append (ps qs : List (Piece ν)) :
    callers (ps ++ qs) = callers ps ++ callers qs := by
  induction ps with
  | nil => simp [callers]
  | cons p ps ih => cases p <;> simp [callers, ih]

@[simp] theorem labels_map (f : ν → μ) (ps : List (Piece ν)) :
    labels (ps.map (map f)) = (labels ps).map f := by
  induction ps with
  | nil => rfl
  | cons p ps ih => cases p <;> simp [labels, map, ih]

/-- Places with commas between them. -/
def holes : List ν → List (Piece ν)
  | [] => []
  | [label] => [hole label]
  | label :: rest => hole label :: text ", " :: holes rest

@[simp] theorem labels_holes (ls : List ν) : labels (holes ls) = ls := by
  fun_induction holes ls with
  | case1 => rfl
  | case2 => rfl
  | case3 l ls _ ih => simp [labels, ih]

@[simp] theorem callers_holes (ls : List ν) : callers (holes ls) = [] := by
  fun_induction holes ls with
  | case1 => rfl
  | case2 => rfl
  | case3 l ls _ ih => simp [callers, ih]

theorem map_holes (f : ν → μ) (ls : List ν) : (holes ls).map (map f) = holes (ls.map f) := by
  fun_induction holes ls with
  | case1 => rfl
  | case2 => rfl
  | case3 l ls h ih =>
    obtain ⟨m, ms, rfl⟩ := List.exists_cons_of_ne_nil (by simpa using h)
    simp only [List.map_cons, map, ih, holes]

theorem concat_holes (names : List String) :
    concat (holes names) = ", ".intercalate (names.map placeholder) := by
  fun_induction holes names with
  | case1 => rfl
  | case2 => simp [concat, print]
  | case3 n ns h ih =>
    obtain ⟨m, ms, rfl⟩ := List.exists_cons_of_ne_nil (by simpa using h)
    simp only [concat, print, ih, List.map_cons, String.intercalate_cons_cons, String.append_assoc]

end Piece

/-! ## Operands -/

section Operands

variable {ν μ : Type}

/-- The pieces of the arrows along some keys. -/
def arrowPieces : List String → List (Piece ν)
  | [] => []
  | k :: ks => .text "->" :: .key k :: arrowPieces ks

/-- The pieces of an operand. -/
def Operand.pieces : Operand → List (Piece ν)
  | id => [.text idColumn]
  | column name => [.text name.text]
  | columnText name => [.text (name.text ++ "::text")]
  | json base keys => .text base :: arrowPieces keys
  | jsonText base keys last => .text base :: (arrowPieces keys ++ [.text "->>", .key last])

@[simp] theorem concat_arrowPieces (keys : List String) :
    Piece.concat (arrowPieces keys) = arrows keys := by
  induction keys with
  | nil => rfl
  | cons k ks ih => simp [arrowPieces, arrows, Piece.concat, Piece.print, ih, String.append_assoc]

@[simp] theorem labels_arrowPieces (keys : List String) :
    Piece.labels (arrowPieces keys : List (Piece ν)) = [] := by
  induction keys with
  | nil => rfl
  | cons k ks ih => exact ih

@[simp] theorem callers_arrowPieces (keys : List String) :
    Piece.callers (arrowPieces keys : List (Piece ν)) = keys := by
  induction keys with
  | nil => rfl
  | cons k ks ih => simp [arrowPieces, Piece.callers, ih]

@[simp] theorem map_arrowPieces (f : ν → μ) (keys : List String) :
    (arrowPieces keys).map (Piece.map f) = arrowPieces keys := by
  induction keys with
  | nil => rfl
  | cons k ks ih => simp [arrowPieces, Piece.map, ih]

@[simp] theorem concat_operand (o : Operand) : Piece.concat o.pieces = o.text := by
  cases o <;> simp [Operand.pieces, Operand.text, Piece.concat, Piece.print, String.append_assoc]

@[simp] theorem labels_operand (o : Operand) :
    Piece.labels (o.pieces : List (Piece ν)) = [] := by
  cases o <;> simp [Operand.pieces, Piece.labels]

@[simp] theorem map_operand (f : ν → μ) (o : Operand) :
    o.pieces.map (Piece.map f) = o.pieces := by
  cases o <;> simp [Operand.pieces, Piece.map]

end Operands

end Docbase.Sql
