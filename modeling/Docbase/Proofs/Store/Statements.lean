import Docbase.Proofs.Filter.Shown
import Docbase.Selection.Columns
import Docbase.Sql.Statement

/-!
# What callers write into the statements of a store

Every statement with bound values is put together from the library's own texts, the table of a
collection, the keys of paths, and the places of the values. These lemmas say which of them each
statement shows.

* `Order.keys`, `Selection.keys`: the keys of an order and of a selection that are written out.
* `Selection.shows_of_list`: **a list of columns shows the keys of its selection**, and no alias.
* `shows_insert`, `shows_update`, `shows_delete`, `shows_select`: **what each statement shows**.
-/

namespace Docbase

open Sql

/-! ## Parts of statements -/

namespace Sql

/-- A part of a statement with the blank behind it. -/
def trailing (s : String) : String := if s.isEmpty then "" else s ++ " "

theorem joinParts_eq {first : String} (h : first ≠ "") (rest : List String) :
    joinParts (first :: rest) ++ " " = first ++ " " ++ String.join (rest.map trailing) := by
  have hjoin : ∀ (first : String) (parts : List String),
      " ".intercalate (first :: parts) ++ " " =
        first ++ " " ++ String.join (parts.map (· ++ " ")) := by
    intro first parts
    induction parts generalizing first with
    | nil => simp
    | cons p ps ih => simp [String.intercalate_cons_cons, String.append_assoc, ih]
  have hfilter : ∀ parts : List String,
      String.join ((parts.filter fun part => !part.isEmpty).map (· ++ " ")) =
        String.join (parts.map trailing) := by
    intro parts
    induction parts with
    | nil => rfl
    | cons p ps ih =>
      cases hp : p.isEmpty with
      | true => simp [hp, trailing, ih]
      | false => simp [hp, trailing, ih]
  -- the empty parts have gone on one side, and print nothing on the other
  rw [joinParts, List.filter_cons_of_pos (by simpa using h), hjoin, hfilter]

namespace Shows

variable {s t : String} {c d l m : List String}

theorem trailing (h : Shows s c l) : Shows (trailing s) c l := by
  unfold Sql.trailing
  split
  · rename_i he
    have hs : s = "" := by simpa using he
    subst hs
    exact h
  · simpa using h.append (text (by decide : '%' ∉ " ".toList))

theorem holes {names : List String} (h : ∀ n ∈ names, Bare n) :
    Shows (commaList (names.map placeholder)) [] names :=
  ⟨Piece.holes names, Piece.concat_holes names, Piece.holes_plain h, by simp, by simp⟩

/-- Texts of the library with commas between them. -/
theorem plainTexts {texts : List String} (h : ∀ s ∈ texts, '%' ∉ s.toList) :
    Shows (commaList texts) [] [] := by
  have hcomma : '%' ∉ ", ".toList := by decide
  have h : Shows (", ".intercalate (texts.map id)) (texts.flatMap fun _ => [])
      (texts.flatMap fun _ => []) :=
    Shows.intercalate hcomma fun s hs => text (h s hs)
  rwa [List.flatMap_eq_nil_iff.2 fun _ _ => rfl, List.map_id] at h

end Shows

/-- An assignment has one place. -/
def Assignment.label : Assignment → String
  | replaceDoc | mergeDoc => "doc"
  | column name => columnParam name

theorem Assignment.shows (a : Assignment) : Shows a.text [] [a.label] := by
  have hdoc : Bare "doc" := by decide
  cases a with
  | replaceDoc => exact (Shows.text (by decide)).append (.hole hdoc)
  | mergeDoc => exact ((Shows.text (by decide)).append (.hole hdoc)).append (.text (by decide))
  | column name =>
    have hname : '%' ∉ (name.text ++ " = ").toList := by
      simpa using name.percent_notMem
    exact (Shows.text hname).append (.hole (bare_columnParam name))

theorem shows_assignments (assignments : List Assignment) :
    Shows (commaList (assignments.map Assignment.text)) [] (assignments.map Assignment.label) := by
  have hcomma : '%' ∉ ", ".toList := by decide
  have h : Shows (", ".intercalate (assignments.map Assignment.text))
      (assignments.flatMap fun _ => []) (assignments.flatMap fun a => [a.label]) :=
    Shows.intercalate hcomma fun a _ => a.shows
  rwa [List.flatMap_eq_nil_iff.2 fun _ _ => rfl, ← List.map_eq_flatMap] at h

/-- The row of an id is found by its place. -/
theorem shows_byId : Shows Scope.byId.text [] ["id"] := by
  have h : Shows ("WHERE " ++ idColumn ++ " = " ++ placeholder "id") [] ["id"] :=
    (Shows.text (by decide)).append (.hole (by decide))
  exact h

end Sql

/-! ## Orders and selections -/

namespace Order

variable {r : Resolver}

/-- The keys of an order that are written into a statement, from left to right. -/
def keys (r : Resolver) : Order → List String
  | both a b => a.keys r ++ b.keys r
  | field path _ => r.keysAt path
  | id _ | unknown _ => []

/-- The keys of what is given as an order. -/
def keysOf (r : Resolver) : Given Order → List String
  | .node order => order.keys r
  | .value _ => []

/-- The keys of a sort key. -/
def keysIn (k : SortKey) : List String := Piece.callers (k.operand.pieces : List (Piece String))

theorem shown_sortKeys (hr : r.base = docColumn) {order : Order} {ks : List SortKey}
    (h : order.sortKeys r = .ok ks) :
    ks.flatMap keysIn = order.keys r ∧ ∀ k ∈ ks, k.operand.Shown (keysIn k) := by
  induction order generalizing ks with
  | both a b iha ihb =>
    obtain ⟨first, hfirst, h⟩ := bind_eq_ok.1 h
    obtain ⟨second, hsecond, h⟩ := bind_eq_ok.1 h
    cases h
    obtain ⟨hkeys, hshown⟩ := iha hfirst
    obtain ⟨hkeys', hshown'⟩ := ihb hsecond
    refine ⟨by rw [List.flatMap_append, hkeys, hkeys', keys], fun k hk => ?_⟩
    rcases List.mem_append.1 hk with hk | hk
    · exact hshown k hk
    · exact hshown' k hk
  | id direction =>
    cases h
    exact ⟨rfl, fun k hk => by cases List.mem_singleton.1 hk; exact Operand.id_shown⟩
  | field path direction =>
    obtain ⟨operand, hoperand, h⟩ := bind_eq_ok.1 h
    cases h
    have hshown := Resolver.operand_shown hr hoperand
    refine ⟨by simpa [keysIn, keys] using hshown.1, fun k hk => ?_⟩
    cases List.mem_singleton.1 hk
    exact ⟨rfl, hshown.2⟩
  | unknown => cases h

theorem shows_sortKey {k : SortKey} (h : k.operand.Shown (keysIn k)) :
    Shows k.text (keysIn k) [] := by
  have hdirection : '%' ∉ (" " ++ k.direction.text).toList := by cases k.direction <;> decide
  have hk := h.shows.append (Shows.text hdirection)
  simpa [SortKey.text, String.append_assoc] using hk

/-- The text of an order shows its keys. -/
theorem shows_of_keys (hr : r.base = docColumn) {order : Given Order} {ks : List SortKey}
    (h : optionalKeysOf r order = .ok ks) : Shows (orderByText ks) (keysOf r order) [] := by
  cases order with
  | value v =>
    cases v with
    | null => cases h; exact .empty
    | _ => cases h
  | node order =>
    obtain ⟨hkeys, hshown⟩ := shown_sortKeys hr h
    have hcomma : '%' ∉ ", ".toList := by decide
    have hlist : Shows (", ".intercalate (ks.map SortKey.text)) (ks.flatMap keysIn)
        (ks.flatMap fun _ => []) :=
      Shows.intercalate hcomma fun k hk => shows_sortKey (hshown k hk)
    rw [hkeys, List.flatMap_eq_nil_iff.2 fun _ _ => rfl] at hlist
    have horder : Shows "ORDER BY " [] [] := .text (by decide)
    cases ks with
    | nil => simpa [orderByText, keysOf] using hlist
    | cons k ks => simpa [orderByText, keysOf] using horder.append hlist

end Order

namespace Selection

variable {r : Resolver}

/-- The keys of a selection that are written into a statement. Aliases are not. -/
def keys (r : Resolver) (s : Selection) : List String := s.entries.flatMap fun e => r.keysAt e.field

/-- The keys of what is given as a selection. -/
def keysOf (r : Resolver) (select : Given Selection) : List String :=
  match ofGiven r select with
  | .ok s => s.keys r
  | .error _ => []

theorem columnsFrom_ok {position : Nat} {es : List Entry} {cs : List Column}
    (h : columnsFrom position es = .ok cs) :
    cs.map (·.entry) = es ∧ ∀ c ∈ cs, ∃ n, c.label = label c.entry n := by
  induction es generalizing position cs with
  | nil => cases h; simp
  | cons e es ih =>
    rw [columnsFrom] at h
    split at h
    · cases h
    · obtain ⟨rest, hrest, h⟩ := bind_eq_ok.1 h
      cases h
      obtain ⟨hes, hlabels⟩ := ih hrest
      refine ⟨by simp [hes], fun c hc => ?_⟩
      rcases List.mem_cons.1 hc with rfl | hc
      · exact ⟨position, rfl⟩
      · exact hlabels c hc

theorem percent_notMem_quoteAlias {s : String} (h : '%' ∉ s.toList) :
    '%' ∉ (quoteAlias s).toList := by
  have hdoubled : ∀ cs : List Char, '%' ∉ cs → '%' ∉ doubled '"' cs := by
    intro cs hcs
    induction cs with
    | nil => exact hcs
    | cons c cs ih =>
      obtain ⟨hc, hcs⟩ : '%' ≠ c ∧ '%' ∉ cs := by simpa using hcs
      rw [doubled]
      split <;> simp [*]
  simpa [quoteAlias, quoted] using hdoubled _ h

/-- No label has a character of a caller in it. -/
theorem percent_notMem_label (e : Entry) (n : Nat) : '%' ∉ (label e n).toList := by
  have hstart : '%' ∉ (if e.isMerge then mergeLabel else fieldLabel).toList := by
    split <;> decide
  have hdigits : '%' ∉ Nat.toDigits 10 n := by
    intro h
    have := Nat.isDigit_of_mem_toDigits (by omega) (by omega) h
    simp [Char.isDigit] at this
  have htext : (toString n).toList = Nat.toDigits 10 n := by simp
  rw [label, String.toList_append, htext]
  simpa using ⟨hstart, hdigits⟩

theorem shows_itemText (hr : r.base = docColumn) {field item : String}
    (h : itemText r field = .ok item) : Shows item (r.keysAt field) [] := by
  obtain ⟨operand, hoperand, h⟩ := bind_eq_ok.1 h
  have hshows := (Resolver.operand_shown hr hoperand).shows
  split at h
  · cases h; exact hshows
  · cases h
    have hopen : Shows "(" [] [] := .text (by decide)
    have hclose : Shows ")::text" [] [] := .text (by decide)
    simpa [String.append_assoc] using hopen.append (hshows.append hclose)

/-- One column behind another. -/
theorem shows_itemTexts (hr : r.base = docColumn) {cs : List Column} {items : List String}
    (hlabels : ∀ c ∈ cs, ∃ n, c.label = label c.entry n) (h : itemTexts r cs = .ok items)
    {first : String} {firstKeys : List String} (hfirst : Shows first firstKeys []) :
    Shows (", ".intercalate (first :: items))
      (firstKeys ++ cs.flatMap fun c => r.keysAt c.entry.field) [] := by
  -- every column in turn is the first of those behind it
  induction cs generalizing items first firstKeys with
  | nil => cases h; simpa using hfirst
  | cons c cs ih =>
    obtain ⟨item, hitem, h⟩ := bind_eq_ok.1 h
    obtain ⟨rest, hrest, h⟩ := bind_eq_ok.1 h
    cases h
    obtain ⟨n, hn⟩ := hlabels c List.mem_cons_self
    have has : '%' ∉ (" AS " ++ quoteAlias c.label).toList := by
      have hlabel := percent_notMem_quoteAlias (percent_notMem_label c.entry n)
      rw [hn, String.toList_append]
      simpa using hlabel
    have hcolumn := (shows_itemText hr hitem).append (Shows.text has)
    have hcomma : Shows ", " [] [] := .text (by decide)
    have hall := hfirst.append (hcomma.append
      (ih (fun d hd => hlabels d (List.mem_cons_of_mem c hd)) hrest hcolumn))
    simpa [String.intercalate_cons_cons, String.append_assoc] using hall

/-- **The list of columns shows the keys of the selection**, and no alias. -/
theorem shows_of_list (hr : r.base = docColumn) {s : Selection} {items : String}
    (h : s.listText r = .ok items) : Shows items (s.keys r) [] := by
  obtain ⟨cs, hcs, h⟩ := bind_eq_ok.1 h
  obtain ⟨texts, htexts, h⟩ := bind_eq_ok.1 h
  cases h
  obtain ⟨hentries, hlabels⟩ := columnsFrom_ok hcs
  have hfirst : Shows (idColumn ++ " AS " ++ quoteAlias idLabel) [] [] := .text (by decide)
  have hall := shows_itemTexts hr hlabels htexts hfirst
  rw [keys, ← hentries, List.flatMap_map]
  exact hall

end Selection

/-! ## Statements -/

namespace Sql

variable {table : String} {scope : Scope} {tables keys labels : List String}

theorem shows_insert (htable : Shows (table ++ " ") tables []) (columns : List Identifier) :
    Shows ((Statement.insert table columns).text ++ " ") tables
      ("id" :: "doc" :: columns.map columnParam) := by
  have hcolumns : Shows (commaList (idColumn :: docColumn :: columns.map (·.text))) [] [] := by
    refine Shows.plainTexts fun s hs => ?_
    simp only [List.mem_cons, List.mem_map] at hs
    rcases hs with rfl | rfl | ⟨i, -, rfl⟩
    · decide
    · decide
    · exact i.percent_notMem
  have hplaces : Shows (commaList (("id" :: "doc" :: columns.map columnParam).map placeholder)) []
      ("id" :: "doc" :: columns.map columnParam) := by
    refine Shows.holes fun n hn => ?_
    simp only [List.mem_cons, List.mem_map] at hn
    rcases hn with rfl | rfl | ⟨i, -, rfl⟩
    · decide
    · decide
    · exact bare_columnParam i
  have hinto : Shows "INSERT INTO " [] [] := .text (by decide)
  have hopen : Shows "(" [] [] := .text (by decide)
  have hvalues : Shows ") VALUES (" [] [] := .text (by decide)
  have hclose : Shows (")" ++ " ") [] [] := .text (by decide)
  have h := hinto.append (htable.append (hopen.append (hcolumns.append
    (hvalues.append (hplaces.append hclose)))))
  -- the general equation of `text` is slow to work out
  have ht : (Statement.insert table columns).text = "INSERT INTO " ++ table ++ " ("
      ++ commaList (idColumn :: docColumn :: columns.map (·.text)) ++ ") VALUES ("
      ++ commaList (placeholder "id" :: placeholder "doc"
        :: columns.map fun c => placeholder (columnParam c)) ++ ")" := rfl
  have hblank : " (" = " " ++ "(" := rfl
  rw [ht, hblank]
  simpa only [String.append_assoc, List.nil_append, List.append_nil, List.map_cons, List.map_map,
    Function.comp_def] using h

theorem shows_update (htable : Shows (table ++ " ") tables []) (assignments : List Assignment)
    (hscope : Shows scope.text keys labels) :
    Shows ((Statement.update table assignments scope).text ++ " ") (tables ++ keys)
      (assignments.map Assignment.label ++ labels) := by
  have hupdate : Shows "UPDATE " [] [] := .text (by decide)
  have hset : Shows "SET " [] [] := .text (by decide)
  have hblank : Shows " " [] [] := .text (by decide)
  have h := hupdate.append (htable.append (hset.append
    ((shows_assignments assignments).append (hblank.append hscope.trailing))))
  have ht : (Statement.update table assignments scope).text =
      joinParts ["UPDATE " ++ table ++ " SET " ++ commaList (assignments.map Assignment.text),
        scope.text] := rfl
  have hset : " SET " = " " ++ "SET " := rfl
  rw [ht, joinParts_eq (by simp), hset]
  simpa only [String.append_assoc, List.nil_append, List.append_nil, List.singleton_append,
    List.map_cons, List.map_nil, String.join_cons, String.join_nil, String.append_empty] using h

theorem shows_delete (htable : Shows (table ++ " ") tables [])
    (hscope : Shows scope.text keys labels) :
    Shows ((Statement.delete table scope).text ++ " ") (tables ++ keys) labels := by
  have hdelete : Shows "DELETE FROM " [] [] := .text (by decide)
  have h := hdelete.append (htable.append hscope.trailing)
  have ht : (Statement.delete table scope).text = joinParts ["DELETE FROM " ++ table, scope.text] :=
    rfl
  rw [ht, joinParts_eq (by simp)]
  simpa [String.append_assoc] using h

/-- The places of the numbers of rows. -/
def pageLabels (limited skipped : Bool) : List String :=
  (if limited then ["limit"] else []) ++ if skipped then ["offset"] else []

theorem shows_select {items : String} {itemKeys orderKeys : List String} {sortKeys : List SortKey}
    (hitems : Shows items itemKeys []) (htable : Shows (table ++ " ") tables [])
    (hscope : Shows scope.text keys labels) (horder : Shows (orderByText sortKeys) orderKeys [])
    (limited skipped : Bool) :
    Shows ((Statement.select items table scope sortKeys limited skipped).text ++ " ")
      (itemKeys ++ (tables ++ (keys ++ orderKeys))) (labels ++ pageLabels limited skipped) := by
  have hlimit : Shows (if limited then "LIMIT " ++ placeholder "limit" else "") []
      (if limited then ["limit"] else []) := by
    cases limited with
    | false => exact .empty
    | true => exact (Shows.text (by decide)).append (.hole (by decide))
  have hoffset : Shows (if skipped then "OFFSET " ++ placeholder "offset" else "") []
      (if skipped then ["offset"] else []) := by
    cases skipped with
    | false => exact .empty
    | true => exact (Shows.text (by decide)).append (.hole (by decide))
  have hselect : Shows "SELECT " [] [] := .text (by decide)
  have hfrom : Shows " FROM " [] [] := .text (by decide)
  have h := hselect.append (hitems.append (hfrom.append (htable.append
    (hscope.trailing.append (horder.trailing.append (hlimit.trailing.append hoffset.trailing))))))
  have ht : (Statement.select items table scope sortKeys limited skipped).text =
      joinParts ["SELECT " ++ items ++ " FROM " ++ table, scope.text, orderByText sortKeys,
        if limited then "LIMIT " ++ placeholder "limit" else "",
        if skipped then "OFFSET " ++ placeholder "offset" else ""] := rfl
  rw [ht, joinParts_eq (by simp)]
  simpa [String.append_assoc, pageLabels] using h

end Sql

end Docbase
