import Docbase.Proofs.Filter.Numbering
import Docbase.Proofs.Store.Columns
import Docbase.Proofs.Store.Openings

/-!
# One filter for every call

Eight calls find documents by a filter. Each puts what the filter means behind a beginning of its
own, and binds values of its own beside those of the filter.

* `Finding`: such a call, without its collection and its filter.
* `Finding.Adds`: what the other arguments of a call add to its statement.
* `Finding.sends_iff`: **the one statement of a call is its beginning, then what the filter means,
  then its end**, and the values of the filter are bound as they are.
* `Finding.step_refused`: a filter without a meaning stops every call in the same way.
-/

namespace Docbase

open Sql

/-! ## The names of bound values -/

namespace Sql

/-- A name with a character that is no digit and no `a` is not that of a value of a filter. -/
theorem ne_paramName {name : String} {c : Char} (hc : c ∈ name.toList) (ha : c ≠ 'a')
    (hdigit : c.isDigit = false) (k : Nat) : name ≠ paramName k := by
  rintro rfl
  obtain h | h := mem_paramName hc
  · exact ha h
  · rw [hdigit] at h
    cases h

theorem columnParam_ne_paramName (column : Identifier) (k : Nat) :
    columnParam column ≠ paramName k := by
  have hm : 'm' ∈ (columnParam column).toList := by
    unfold columnParam
    rw [String.toList_append]
    exact List.mem_append_left _ (by decide)
  exact ne_paramName hm (by decide) (by decide) k

theorem columnParam_ne_doc (column : Identifier) : columnParam column ≠ "doc" := by
  intro h
  have hlist := congrArg String.toList h
  rw [columnParam, String.toList_append] at hlist
  cases hlist

theorem columnParam_ne_id (column : Identifier) : columnParam column ≠ "id" := by
  intro h
  have hlist := congrArg String.toList h
  rw [columnParam, String.toList_append] at hlist
  cases hlist

theorem columnParam_inj {c d : Identifier} (h : columnParam c = columnParam d) :
    c.text = d.text := by
  have hlist := congrArg String.toList h
  rw [columnParam, columnParam, String.toList_append, String.toList_append] at hlist
  exact String.toList_inj.1 (List.append_cancel_left hlist)

end Sql

namespace Filter

/-- The values of a filter are bound under the numbers from zero on. -/
theorem params_of_clause {r : Resolver} {filter : Given Filter} {clause : Clause}
    (h : clauseOf r filter = .ok clause) : ∃ values, clause.params = numbered 0 values := by
  cases filter with
  | value v => cases h
  | node f =>
    by_cases hany : f = .any
    · subst hany
      cases h
      exact ⟨[], rfl⟩
    · obtain ⟨condition, -, rfl⟩ := condition_of_clause h hany
      exact ⟨condition.values, by rw [Condition.print_eq]⟩

end Filter

/-! ## What calls add to a filter -/

/-- What a call adds to what its filter means: a beginning and an end of its statement, and values
bound by name. -/
structure Additions where
  head : String
  tail : List String := []
  extra : Params := []

/-- What a filter means as a part of a statement; nothing if it means all documents. -/
def Clause.parts (c : Clause) : List String :=
  match c.text with
  | none => []
  | some _ => [c.whereText]

/-- A statement with what a filter means between beginning and end. -/
def Additions.text (a : Additions) (c : Clause) : String :=
  " ".intercalate (a.head :: (c.parts ++ a.tail))

/-- The order of the documents as a part of a statement, if one is given. -/
def Order.parts (order : Given Order) (keys : List SortKey) : List String :=
  match order with
  | .value .null => []
  | _ => ["ORDER BY " ++ ", ".intercalate (keys.map SortKey.text)]

/-- A number of documents as a part of a statement, if one is given. -/
def countParts (word name : String) : Value → List String
  | .null => []
  | _ => [word ++ placeholder name]

/-- A number of documents as it is bound, if one is given. -/
def countParams (name : String) : Value → Params
  | .null => []
  | n => [(name, n)]

/-- The parts of a statement that cut and sort. -/
def Paging.parts (paging : Paging) (keys : List SortKey) : List String :=
  Order.parts paging.order keys
    ++ (countParts "LIMIT " "limit" paging.limit ++ countParts "OFFSET " "offset" paging.skip)

/-- The values that are bound for that. -/
def Paging.params (paging : Paging) : Params :=
  countParams "limit" paging.limit ++ countParams "offset" paging.skip

/-- The values that are bound for a record. -/
def Record.params (record : Record) : Params :=
  ("doc", .str record.body) :: record.columns.map fun c => (columnParam c.1, c.2)

/-- A call that finds documents by a filter, without its collection and its filter. -/
inductive Finding
  | filterDocs (paging : Paging)
  | findDocs (paging : Paging)
  | findPartialDocs (select : Given Selection) (paging : Paging)
  | filterDocIds
  | countDocs
  | deleteMany
  | updateMany (document : Value)
  | replaceMany (document : Value)

namespace Finding

/-- The call. -/
def request (collection : Value) (filter : Given Filter) : Finding → Request
  | filterDocs paging => .opening (.filterDocs collection filter paging)
  | findDocs paging => .opening (.findDocs collection filter paging)
  | findPartialDocs select paging => .opening (.findPartialDocs collection select filter paging)
  | filterDocIds => .question (.filterDocIds collection filter)
  | countDocs => .question (.countDocs collection filter)
  | deleteMany => .change (.deleteMany collection filter)
  | updateMany document => .change (.updateMany collection filter document)
  | replaceMany document => .change (.replaceMany collection filter document)

/-- The names in the metadata of the document that the call stores. -/
def promotedNames (promote : Bool) : Finding → List Key
  | updateMany document | replaceMany document => Document.promotedNames promote document
  | _ => []

/-- The call reads some columns of the documents, cut and sorted. -/
inductive Reads (o : Options) : Finding → String → Paging → Prop
  | documents (paging : Paging) : Reads o (filterDocs paging) docColumn paging
  | pairs (paging : Paging) : Reads o (findDocs paging) (idColumn ++ ", " ++ docColumn) paging
  | parts {select : Given Selection} {items : Selection × String} (paging : Paging)
      (h : o.selectionItems select = .ok items) :
      Reads o (findPartialDocs select paging) items.2 paging

/-- The call changes the documents that it finds, merging another into them or not. -/
inductive Stores : Finding → Bool → Value → Prop
  | update (document : Value) : Stores (updateMany document) true document
  | replace (document : Value) : Stores (replaceMany document) false document

/-- What the arguments of a call, other than the collection and the filter, add to its statement
about a table. -/
inductive Adds (o : Options) (table : String) : Finding → Additions → Prop
  | read {op : Finding} {items : String} {paging : Paging} {keys : List SortKey}
      {skip limit : Option Nat} (hitems : op.Reads o items paging)
      (horder : Order.optionalKeysOf o.resolver paging.order = .ok keys)
      (hskip : pageCount? paging.skip = some skip) (hlimit : pageCount? paging.limit = some limit) :
      Adds o table op
        { head := "SELECT " ++ items ++ " FROM " ++ table
          tail := paging.parts keys
          extra := paging.params }
  | ids : Adds o table filterDocIds { head := "SELECT " ++ idColumn ++ " FROM " ++ table }
  | count : Adds o table countDocs { head := "SELECT COUNT(*) AS count FROM " ++ table }
  | delete : Adds o table deleteMany { head := "DELETE FROM " ++ table }
  | store {op : Finding} {merge : Bool} {document : Value} {record : Record}
      (hstores : op.Stores merge document)
      (hrecord : Record.ofDocument o.promote document = .ok record) :
      Adds o table op
        { head := "UPDATE " ++ table ++ " SET "
            ++ commaList ((record.assignments merge).map Assignment.text)
          extra := record.params }

end Finding

/-! ## Parts that are not empty -/

theorem scope_parts (clause : Clause) :
    [(Scope.ofClause clause).text].filter (fun part => !part.isEmpty) = clause.parts := by
  unfold Scope.ofClause Clause.parts Clause.whereText
  cases clause.text with
  | none => rfl
  | some text => simp [Scope.text]

/-- An order has a key. -/
theorem Order.sortKeys_ne_nil {r : Resolver} {order : Order} {keys : List SortKey}
    (h : order.sortKeys r = .ok keys) : keys ≠ [] := by
  induction order generalizing keys with
  | both a b iha ihb =>
    obtain ⟨first, hfirst, h⟩ := bind_eq_ok.1 h
    obtain ⟨second, hsecond, h⟩ := bind_eq_ok.1 h
    cases h
    exact List.append_ne_nil_of_left_ne_nil (iha hfirst) second
  | id direction =>
    cases h
    exact List.cons_ne_nil _ _
  | field path direction =>
    obtain ⟨operand, -, h⟩ := bind_eq_ok.1 h
    cases h
    exact List.cons_ne_nil _ _
  | unknown name => cases h

theorem order_parts {r : Resolver} {order : Given Order} {keys : List SortKey}
    (h : Order.optionalKeysOf r order = .ok keys) :
    [orderByText keys].filter (fun part => !part.isEmpty) = Order.parts order keys := by
  cases order with
  | value v =>
    cases v with
    | null => cases h; rfl
    | _ => cases h
  | node order =>
    obtain ⟨key, rest, rfl⟩ := List.exists_cons_of_ne_nil (Order.sortKeys_ne_nil h)
    simp [orderByText, Order.parts]

theorem count_parts {word name : String} {value : Value} {n : Option Nat}
    (h : pageCount? value = some n) :
    [if n.isSome then word ++ placeholder name else ""].filter (fun part => !part.isEmpty)
      = countParts word name value := by
  unfold pageCount? at h
  split at h
  · cases h; rfl
  · cases h; simp [countParts, placeholder]
  · cases h

/-- A statement is its beginning and those of its other parts that are not empty. -/
theorem joinParts_head {head : String} (h : head.isEmpty = false) (rest : List String) :
    joinParts (head :: rest)
      = " ".intercalate (head :: rest.filter fun part => !part.isEmpty) := by
  unfold joinParts
  rw [List.filter_cons_of_pos (by rw [h]; rfl)]

/-! ## Values bound beside those of a filter -/

namespace Sql.Params

theorem merge_append (ps qs rs : Params) : ps.merge (qs ++ rs) = (ps.merge qs).merge rs :=
  List.foldl_append

end Sql.Params

theorem bindCount_eq {value : Value} {n : Option Nat} (h : pageCount? value = some n)
    (params : Params) (name : String) :
    Options.bindCount params name n = params.merge (countParams name value) := by
  unfold pageCount? at h
  split at h
  · cases h; rfl
  · cases h; rfl
  · cases h

theorem Record.bindColumns_eq (params : Params) (columns : List (Identifier × Value)) :
    bindColumns params columns = params.merge (columns.map fun c => (columnParam c.1, c.2)) := by
  induction columns generalizing params with
  | nil => rfl
  | cons c cs ih => exact ih _

theorem Record.bind_eq (record : Record) (params : Params) :
    record.bind params = params.merge record.params := bindColumns_eq _ _

/-- The values of a record have different names if its columns do. -/
theorem Record.names_nodup {record : Record} (h : (record.columnNames.map (·.text)).Nodup) :
    record.params.names.Nodup := by
  have hcolumns : Params.names (record.columns.map fun c => (columnParam c.1, c.2))
      = record.columnNames.map columnParam := by
    unfold Params.names Record.columnNames
    rw [List.map_map, List.map_map]
    rfl
  unfold Record.params
  rw [Params.names_cons, List.nodup_cons, hcolumns]
  refine ⟨?_, ?_⟩
  · intro hmem
    obtain ⟨column, -, hname⟩ := List.mem_map.1 hmem
    exact columnParam_ne_doc column hname
  · refine List.pairwise_map.2 ((List.pairwise_map.1 h).imp ?_)
    intro c d hne hname
    exact hne (columnParam_inj hname)

/-- The parts of a record are bound under names of their own, whatever is bound beside them. -/
theorem Record.get?_bind {r : Record} (h : (r.columnNames.map (·.text)).Nodup) (ps : Params) :
    (r.bind ps).get? "doc" = some (.str r.body) ∧
      ∀ c ∈ r.columns, (r.bind ps).get? (columnParam c.1) = some c.2 := by
  have hget : ∀ p ∈ r.params, (r.bind ps).get? p.1 = some p.2 := by
    intro p hp
    rw [bind_eq]
    exact Params.get?_merge_of_mem (names_nodup h) hp
  refine ⟨hget ("doc", .str r.body) List.mem_cons_self, fun c hc => ?_⟩
  exact hget (columnParam c.1, c.2) (List.mem_cons_of_mem _ (List.mem_map.2 ⟨c, hc, rfl⟩))

/-- None of them is bound in the place of the id. -/
theorem Record.get?_bind_id (r : Record) (ps : Params) : (r.bind ps).get? "id" = ps.get? "id" := by
  rw [bind_eq]
  refine Params.get?_merge_of_notMem ?_
  unfold params
  rw [Params.names_cons, List.mem_cons, not_or]
  have hdoc : "id" ≠ "doc" := by decide
  refine ⟨hdoc, fun hmem => ?_⟩
  obtain ⟨p, hp, hname⟩ := List.mem_map.1 hmem
  obtain ⟨c, -, rfl⟩ := List.mem_map.1 hp
  exact columnParam_ne_id c.1 hname

theorem countParams_names (name : String) (value : Value) :
    (countParams name value).names = [] ∨ (countParams name value).names = [name] := by
  unfold countParams
  split
  · exact .inl rfl
  · exact .inr rfl

namespace Finding

variable {o : Options} {table : String} {op : Finding} {a : Additions}

/-- No value of a call has the name of a value of a filter. -/
theorem Adds.names_apart (h : op.Adds o table a) (k : Nat) : paramName k ∉ a.extra.names := by
  have hcount : ∀ {name : String} {c : Char} (value : Value), c ∈ name.toList → c ≠ 'a' →
      c.isDigit = false → paramName k ∉ (countParams name value).names := by
    intro name c value hc ha hdigit
    obtain h | h := countParams_names name value
    · rw [h]
      exact List.not_mem_nil
    · rw [h, List.mem_singleton]
      exact (ne_paramName hc ha hdigit k).symm
  cases h with
  | @read _ _ paging _ _ _ hitems horder hskip hlimit =>
    unfold Paging.params
    rw [Params.names_append, List.mem_append, not_or]
    exact ⟨hcount (c := 'l') paging.limit (by decide) (by decide) (by decide),
      hcount (c := 'o') paging.skip (by decide) (by decide) (by decide)⟩
  | ids | count | delete => exact List.not_mem_nil
  | store hstores hrecord =>
    unfold Record.params
    rw [Params.names_cons, List.mem_cons, not_or]
    have hdoc : "doc" ≠ paramName k := ne_paramName (c := 'd') (by decide) (by decide) (by decide) k
    refine ⟨hdoc.symm, ?_⟩
    intro hmem
    obtain ⟨p, hp, hname⟩ := List.mem_map.1 hmem
    obtain ⟨column, -, rfl⟩ := List.mem_map.1 hp
    exact columnParam_ne_paramName column.1 k hname

/-- The values of a call have different names, if the names in the metadata are different. -/
theorem Adds.names_nodup (h : op.Adds o table a) (hnames : (op.promotedNames o.promote).Nodup) :
    a.extra.names.Nodup := by
  cases h with
  | @read _ _ paging _ _ _ hitems horder hskip hlimit =>
    unfold Paging.params
    rw [Params.names_append]
    obtain hl | hl := countParams_names "limit" paging.limit <;>
      obtain hs | hs := countParams_names "offset" paging.skip <;> rw [hl, hs] <;> decide
  | ids | count | delete => exact List.nodup_nil
  | @store _ merge document record hstores hrecord =>
    have hkeys : (record.columnNames.map fun i => Key.str i.text).Nodup := by
      rw [Record.names_ofDocument hrecord]
      cases hstores with
      | update | replace => exact hnames
    refine Record.names_nodup (List.pairwise_map.2 ((List.pairwise_map.1 hkeys).imp ?_))
    intro c d hne htext
    exact hne (congrArg Key.str htext)

/-- **The values of a filter stay as they are bound**, and those of the call go behind them. -/
theorem Adds.merge_eq (h : op.Adds o table a) (hnames : (op.promotedNames o.promote).Nodup)
    {values : List Value} : (numbered 0 values).merge a.extra = numbered 0 values ++ a.extra := by
  refine Params.merge_fresh (fun n hn hmem => ?_) (h.names_nodup hnames)
  rw [names_numbered] at hmem
  obtain ⟨k, -, -, rfl⟩ := mem_paramNames.1 hmem
  exact h.names_apart k hn

theorem Adds.nodup (h : op.Adds o table a) (hnames : (op.promotedNames o.promote).Nodup)
    {values : List Value} : (numbered 0 values ++ a.extra).names.Nodup := by
  rw [Params.names_append, names_numbered]
  refine (nodup_paramNames 0 _).append (h.names_nodup hnames) fun n hn hextra => ?_
  obtain ⟨k, -, -, rfl⟩ := mem_paramNames.1 hn
  exact h.names_apart k hextra

/-! ## The statement of a call -/

variable {collection : Value} {filter : Given Filter} {clause : Clause}

/-- A change of one command sends that command. -/
theorem sends_single {m : Change} {p : Plan} {command : Command} (hplan : m.plan o = .ok p)
    (hcommands : p.commands = [command]) {c : Command} : m.Sends o c ↔ c = command := by
  constructor
  · rintro ⟨q, hq, hc⟩
    rw [hplan] at hq
    cases hq
    rw [hcommands] at hc
    exact List.mem_singleton.1 hc
  · rintro rfl
    exact ⟨p, hplan, by rw [hcommands]; exact List.mem_singleton_self _⟩

theorem sends_opening {q : Opening} {query : Query} (hquery : q.query o = .ok query) {c : Command} :
    (Request.opening q).Sends o c ↔ c = query.command := by
  constructor
  · rintro ⟨query', hquery', rfl⟩
    rw [hquery] at hquery'
    cases hquery'
    rfl
  · rintro rfl
    exact ⟨query, hquery, rfl⟩

theorem sends_question {q : Question} {command : Command} (hcommand : q.command o = .ok command)
    {c : Command} : (Request.question q).Sends o c ↔ c = command := by
  constructor
  · intro h
    exact Except.ok.inj (h.symm.trans hcommand)
  · rintro rfl
    exact hcommand

/-- The command of a call that reads. -/
theorem select_eq {items : String} {paging : Paging} {keys : List SortKey} {skip limit : Option Nat}
    (htable : o.table collection = .ok table)
    (hclause : Filter.clauseOf o.resolver filter = .ok clause)
    (horder : Order.optionalKeysOf o.resolver paging.order = .ok keys)
    (hskip : pageCount? paging.skip = some skip) (hlimit : pageCount? paging.limit = some limit) :
    ∃ command, o.selectCommand items collection filter paging = .ok command ∧
      command.text = Additions.text ⟨"SELECT " ++ items ++ " FROM " ++ table, paging.parts keys,
        paging.params⟩ clause ∧
      command.params = some (clause.params.merge paging.params) := by
  refine ⟨_, bind_eq_ok.2 ⟨skip, pageValue_eq_ok.2 hskip, bind_eq_ok.2 ⟨limit,
    pageValue_eq_ok.2 hlimit, bind_eq_ok.2 ⟨clause, hclause, bind_eq_ok.2 ⟨table, htable,
      bind_eq_ok.2 ⟨keys, refuse_eq_ok.2 horder, rfl⟩⟩⟩⟩⟩, ?_, ?_⟩
  · have hhead : ("SELECT " ++ items ++ " FROM " ++ table).isEmpty = false := by simp
    refine (joinParts_head hhead [_, _, _, _]).trans ?_
    rw [← List.singleton_append (l := [_, _, _]), ← List.singleton_append (l := [_, _]),
      ← List.singleton_append (l := [_]), List.filter_append, List.filter_append,
      List.filter_append, scope_parts, order_parts horder, count_parts hlimit, count_parts hskip]
    rfl
  · rw [bindCount_eq hlimit, bindCount_eq hskip, ← Params.merge_append]
    rfl

/-- The statement of a call without parts that cut or sort. -/
theorem scoped_text {head : String} (h : head.isEmpty = false) (clause : Clause) :
    joinParts [head, (Scope.ofClause clause).text] = Additions.text { head } clause := by
  rw [joinParts_head h, scope_parts, Additions.text, List.append_nil]

/-- The command of a call that reads some columns of all documents it finds. -/
theorem all_eq (items : String) (htable : o.table collection = .ok table)
    (hclause : Filter.clauseOf o.resolver filter = .ok clause) :
    ∃ command, o.allCommand items collection filter = .ok command ∧
      command.text = Additions.text { head := "SELECT " ++ items ++ " FROM " ++ table } clause ∧
      command.params = some clause.params := by
  refine ⟨_, bind_eq_ok.2 ⟨clause, hclause, bind_eq_ok.2 ⟨table, htable, rfl⟩⟩, ?_, rfl⟩
  have hhead : ("SELECT " ++ items ++ " FROM " ++ table).isEmpty = false := by simp
  refine Eq.trans ?_ (scoped_text hhead clause)
  -- the empty parts behind the filter go away
  unfold Command.text Command.bound Statement.text joinParts orderByText
  simp [List.filter_cons]

/-- The plan of a call that stores a document. -/
theorem changeMany_eq (merge : Bool) {document : Value} {record : Record}
    (htable : o.table collection = .ok table)
    (hclause : Filter.clauseOf o.resolver filter = .ok clause)
    (hrecord : Record.ofDocument o.promote document = .ok record) :
    ∃ p command, o.changeManyPlan merge collection filter document = .ok p ∧
      p.commands = [command] ∧
      command.text = Additions.text
        { head := "UPDATE " ++ table ++ " SET "
            ++ commaList ((record.assignments merge).map Assignment.text) } clause ∧
      command.params = some (clause.params.merge record.params) := by
  refine ⟨_, _, bind_eq_ok.2 ⟨clause, hclause, bind_eq_ok.2 ⟨record, hrecord,
    bind_eq_ok.2 ⟨table, htable, rfl⟩⟩⟩, rfl, ?_, congrArg some (record.bind_eq clause.params)⟩
  have hhead : ("UPDATE " ++ table ++ " SET "
      ++ commaList ((record.assignments merge).map Assignment.text)).isEmpty = false := by simp
  exact scoped_text hhead clause

/-- The plan of a call that removes all documents it finds. -/
theorem deleteMany_eq (htable : o.table collection = .ok table)
    (hclause : Filter.clauseOf o.resolver filter = .ok clause) :
    ∃ p command, o.deleteManyPlan collection filter = .ok p ∧ p.commands = [command] ∧
      command.text = Additions.text { head := "DELETE FROM " ++ table } clause ∧
      command.params = some clause.params := by
  refine ⟨_, _, bind_eq_ok.2 ⟨clause, hclause, bind_eq_ok.2 ⟨table, htable, rfl⟩⟩, rfl, ?_, rfl⟩
  have hhead : ("DELETE FROM " ++ table).isEmpty = false := by simp
  exact scoped_text hhead clause

/-- **The one statement of a call** is its beginning, then what the filter means, then its end; the
values of the call are bound into those of the filter. -/
theorem sends_iff (htable : o.table collection = .ok table) (h : op.Adds o table a)
    (hclause : Filter.clauseOf o.resolver filter = .ok clause) :
    ∃ command : Command, command.text = a.text clause ∧
      command.params = some (clause.params.merge a.extra) ∧
      ∀ c, (op.request collection filter).Sends o c ↔ c = command := by
  cases h with
  | @read _ _ paging _ _ _ hitems horder hskip hlimit =>
    obtain ⟨command, hcommand, htext, hparams⟩ :=
      select_eq htable hclause horder hskip hlimit
    refine ⟨command, htext, hparams, fun c => ?_⟩
    cases hitems with
    | documents =>
      have hquery : (Opening.filterDocs collection filter paging).query o = .ok ⟨command, .document⟩ :=
        bind_eq_ok.2 ⟨command, hcommand, rfl⟩
      exact sends_opening hquery
    | pairs =>
      have hquery : (Opening.findDocs collection filter paging).query o = .ok ⟨command, .pair⟩ :=
        bind_eq_ok.2 ⟨command, hcommand, rfl⟩
      exact sends_opening hquery
    | @parts select items _ hselect =>
      have hquery : (Opening.findPartialDocs collection select filter paging).query o
          = .ok ⟨command, .partialPair items.1⟩ :=
        bind_eq_ok.2 ⟨items, hselect, bind_eq_ok.2 ⟨command, hcommand, rfl⟩⟩
      exact sends_opening hquery
  | ids =>
    obtain ⟨command, hcommand, htext, hparams⟩ := all_eq idColumn htable hclause
    exact ⟨command, htext, hparams, fun c =>
      sends_question (q := .filterDocIds collection filter) hcommand⟩
  | count =>
    obtain ⟨command, hcommand, htext, hparams⟩ := all_eq "COUNT(*) AS count" htable hclause
    exact ⟨command, htext, hparams, fun c =>
      sends_question (q := .countDocs collection filter) hcommand⟩
  | delete =>
    obtain ⟨p, command, hp, hcommands, htext, hparams⟩ := deleteMany_eq htable hclause
    exact ⟨command, htext, hparams, fun c =>
      sends_single (m := .deleteMany collection filter) hp hcommands⟩
  | @store _ _ document _ hstores hrecord =>
    obtain ⟨p, command, hp, hcommands, htext, hparams⟩ :=
      changeMany_eq _ htable hclause hrecord
    refine ⟨command, htext, hparams, fun c => ?_⟩
    cases hstores with
    | update =>
      exact sends_single (m := .updateMany collection filter document) hp hcommands
    | replace =>
      exact sends_single (m := .replaceMany collection filter document) hp hcommands

/-! ## Filters without a meaning -/

section Refused

variable {e : Error}

theorem select_refused {items : String} {paging : Paging} {skip limit : Option Nat}
    (hclause : Filter.clauseOf o.resolver filter = .error e)
    (hskip : pageCount? paging.skip = some skip) (hlimit : pageCount? paging.limit = some limit) :
    o.selectCommand items collection filter paging = .error e := by
  unfold Options.selectCommand
  rw [pageValue_eq_ok.2 hskip, pageValue_eq_ok.2 hlimit, hclause]
  rfl

variable {σ : Type} [Engine σ]

theorem opening_refused {q : Opening} (w : Site σ) (h : q.query w.session.options = .error e) :
    w.step (.opening q) = (.error e, w) := by
  have hrun : Store.runFrom w.session (q.act : Action σ Reader) = (.error e, w.session) := by
    rw [runFrom_opening, h]
    rfl
  simp only [Site.step, hrun]

theorem question_refused {q : Question} (w : Site σ)
    (h : Store.runFrom w.session (q.act : Action σ Answer) = (.error e, w.session)) :
    w.step (.question q) = (.error e, w) := by
  simp only [Site.step, Site.act, h]

theorem change_refused {m : Change} (w : Site σ)
    (hm : ∀ collection, m ≠ .dropCollection collection)
    (h : m.plan w.session.options = .error e) : w.step (.change m) = (.error e, w) := by
  have hrun : Store.runFrom w.session (m.act : Action σ Unit) = (.error e, w.session) := by
    rw [Change.act_eq_carryOut hm, Store.carryOut, Store.runFrom_bind, Store.runFrom_get]
    simp only [Store.runFrom_bind, Store.runFrom_given, h]
  simp only [Site.step, Site.act, Store.runFrom_bind, hrun]

/-- **A filter without a meaning stops every call in the same way**: its error is passed on, and
nothing has happened. -/
theorem step_refused (w : Site σ) (ho : w.session.options = o) (h : op.Adds o table a)
    (hclause : Filter.clauseOf o.resolver filter = .error e) :
    w.step (op.request collection filter) = (.error e, w) := by
  have hall : ∀ items, w.session.options.allCommand items collection filter = .error e := by
    intro items
    rw [ho]
    exact bind_error hclause
  cases h with
  | read hitems horder hskip hlimit =>
    cases hitems with
    | documents paging =>
      exact opening_refused w (ho ▸ bind_error (select_refused hclause hskip hlimit))
    | pairs paging =>
      exact opening_refused w (ho ▸ bind_error (select_refused hclause hskip hlimit))
    | @parts select items _ hselect =>
      have hrest : ∀ shape : Shape, (o.selectCommand items.2 collection filter _ >>= fun command =>
          (pure ⟨command, shape⟩ : Except Error Query)) = .error e := fun _ =>
        bind_error (select_refused hclause hskip hlimit)
      refine opening_refused w ?_
      rw [Opening.query, Options.partialPairsQuery, ho, hselect]
      exact hrest _
  | ids =>
    refine question_refused w ?_
    simp only [Question.act, Store.filterDocIds, Store.ask, Store.runFrom_bind, Store.runFrom_get,
      Store.runFrom_given, hall]
  | count =>
    refine question_refused w ?_
    simp only [Question.act, Store.countDocs, Store.ask, Store.runFrom_bind, Store.runFrom_get,
      Store.runFrom_given, hall]
  | delete => exact change_refused w (by simp) (ho ▸ bind_error hclause)
  | store hstores hrecord =>
    cases hstores with
    | update | replace => exact change_refused w (by simp) (ho ▸ bind_error hclause)

end Refused

/-- **A call is in order but for its filter** exactly if it has something to add to its statement:
then it can be made with the filter for all documents. -/
theorem adds_iff :
    (∃ table a, o.table collection = .ok table ∧ op.Adds o table a)
      ↔ ∃ c, (op.request collection (.node .any)).Sends o c := by
  constructor
  · rintro ⟨table, a, htable, h⟩
    have hany : Filter.clauseOf o.resolver (.node .any) = .ok ⟨none, []⟩ := rfl
    obtain ⟨command, -, -, hsends⟩ := sends_iff htable h hany
    exact ⟨command, (hsends command).2 rfl⟩
  · rintro ⟨c, hsends⟩
    have hselect : ∀ {items : String} {paging : Paging} {command : Command},
        op.Reads o items paging →
        o.selectCommand items collection (.node .any) paging = .ok command →
        ∃ table a, o.table collection = .ok table ∧ op.Adds o table a := by
      intro items paging command hreads hcommand
      obtain ⟨⟨table, htable⟩, -, ⟨keys, horder⟩, ⟨skip, hskip⟩, ⟨limit, hlimit⟩⟩ :=
        selectCommand_ok_iff.1 ⟨command, hcommand⟩
      exact ⟨table, _, htable, .read hreads horder hskip hlimit⟩
    have hstore : ∀ {merge : Bool} {document : Value} {p : Plan}, op.Stores merge document →
        o.changeManyPlan merge collection (.node .any) document = .ok p →
        ∃ table a, o.table collection = .ok table ∧ op.Adds o table a := by
      intro merge document p hstores hp
      obtain ⟨clause, -, hp⟩ := bind_eq_ok.1 hp
      obtain ⟨record, hrecord, hp⟩ := bind_eq_ok.1 hp
      obtain ⟨table, htable, -⟩ := bind_eq_ok.1 hp
      exact ⟨table, _, htable, .store hstores hrecord⟩
    cases op with
    | filterDocs paging =>
      obtain ⟨query, hquery, -⟩ := hsends
      obtain ⟨command, hcommand, -⟩ := bind_eq_ok.1 hquery
      exact hselect (.documents paging) hcommand
    | findDocs paging =>
      obtain ⟨query, hquery, -⟩ := hsends
      obtain ⟨command, hcommand, -⟩ := bind_eq_ok.1 hquery
      exact hselect (.pairs paging) hcommand
    | findPartialDocs select paging =>
      obtain ⟨query, hquery, -⟩ := hsends
      obtain ⟨items, hitems, hquery⟩ := bind_eq_ok.1 hquery
      obtain ⟨command, hcommand, -⟩ := bind_eq_ok.1 hquery
      exact hselect (.parts paging hitems) hcommand
    | filterDocIds =>
      obtain ⟨clause, -, hrest⟩ := bind_eq_ok.1 hsends
      obtain ⟨table, htable, -⟩ := bind_eq_ok.1 hrest
      exact ⟨table, _, htable, .ids⟩
    | countDocs =>
      obtain ⟨clause, -, hrest⟩ := bind_eq_ok.1 hsends
      obtain ⟨table, htable, -⟩ := bind_eq_ok.1 hrest
      exact ⟨table, _, htable, .count⟩
    | deleteMany =>
      obtain ⟨p, hp, -⟩ := hsends
      obtain ⟨clause, -, hrest⟩ := bind_eq_ok.1 hp
      obtain ⟨table, htable, -⟩ := bind_eq_ok.1 hrest
      exact ⟨table, _, htable, .delete⟩
    | updateMany document =>
      obtain ⟨p, hp, -⟩ := hsends
      exact hstore (.update document) hp
    | replaceMany document =>
      obtain ⟨p, hp, -⟩ := hsends
      exact hstore (.replace document) hp

/-- **One filter means the same in every call.** A call that is in order but for its filter adds a
beginning, an end and values of its own, whatever the filter is. If the filter has a meaning, the
call sends one statement, in which that stands between beginning and end, and no bound value takes
the place of another; if it has none, nothing happens but that its error is passed on. -/
theorem filters_alike {σ : Type} [Engine σ] (o : Options) (collection : Value) (op : Finding)
    (hcall : ∃ c, (op.request collection (.node .any)).Sends o c)
    (hnames : (op.promotedNames o.promote).Nodup) :
    ∃ table a, o.table collection = .ok table ∧ op.Adds o table a ∧
      (∀ filter clause, Filter.clauseOf o.resolver filter = .ok clause →
        (∃ command : Command,
          command.text = a.text clause ∧ command.params = some (clause.params ++ a.extra) ∧
          (∀ c, (op.request collection filter).Sends o c ↔ c = command) ∧
          ∀ (s : Session σ) (more : List Request), s.options = o →
            (∀ r ∈ more, ∀ c, ¬ r.Sends o c) →
            ∃ trace, (Site.run ⟨s, []⟩ (op.request collection filter :: more)).session.history
                = s.history ++ trace ∧
              ∀ id c, .executed id c ∈ trace → c = command) ∧
        (∃ values, clause.params = numbered 0 values) ∧
        (∀ k, paramName k ∉ a.extra.names) ∧ (clause.params ++ a.extra).names.Nodup) ∧
      ∀ filter e, Filter.clauseOf o.resolver filter = .error e →
        ∀ w : Site σ, w.session.options = o →
          w.step (op.request collection filter) = (.error e, w) := by
  obtain ⟨table, a, htable, hadds⟩ := adds_iff.2 hcall
  refine ⟨table, a, htable, hadds, ?_, ?_⟩
  · intro filter clause hclause
    obtain ⟨values, hvalues⟩ := Filter.params_of_clause hclause
    obtain ⟨command, htext, hparams, hsends⟩ := sends_iff htable hadds hclause
    refine ⟨⟨command, htext, ?_, hsends, ?_⟩, ⟨values, hvalues⟩, hadds.names_apart, ?_⟩
    · rw [hparams, hvalues, hadds.merge_eq hnames]
    · rintro s more rfl hmore
      obtain ⟨trace, hhistory, hwithin⟩ := (Site.run_sends s _).history
      refine ⟨trace, hhistory, fun id c hmem => ?_⟩
      obtain ⟨r, hr, hc⟩ := hwithin _ hmem id c rfl
      obtain rfl | hr := List.mem_cons.1 hr
      · exact (hsends c).1 hc
      · exact absurd hc (hmore r hr c)
    · rw [hvalues]
      exact hadds.nodup hnames
  · intro filter e hclause w ho
    exact step_refused w ho hadds hclause

/-- A document with two promoted members is merged into all that two conditions mean. -/
theorem filters_alike_updateMany :
    let o : Options := { (default : Options) with tableStart := "t_", promote := true }
    let op := Finding.updateMany (.object [("metadata", .object [("v", .int 2), ("w", .null)])])
    let filter := Given.node (Filter.both (.id "k") (.compare .equal "metadata.v" (.int 1)))
    (∃ c, (op.request (.str "c") (.node .any)).Sends o c) ∧
      (op.promotedNames o.promote).Nodup ∧
      ∃ c : Command, (∀ d, (op.request (.str "c") filter).Sends o d ↔ d = c) ∧
        c.text = "UPDATE t_c SET doc = (to_jsonb(doc) || CAST(%(doc)s AS JSONB)), " ++
          "v = %(meta_v)s, w = %(meta_w)s WHERE (id = %(a0)s AND v = %(a1)s)" ∧
        c.params.map Params.names = some ["a0", "a1", "doc", "meta_v", "meta_w"] := by
  intro o op filter
  have hcall : ∃ c, (op.request (.str "c") (.node .any)).Sends o c := ⟨_, _, rfl, .head _⟩
  have hnames : (op.promotedNames o.promote).Nodup := by
    have hkeys : op.promotedNames o.promote = [.str "v", .str "w"] := rfl
    rw [hkeys, List.nodup_cons]
    exact ⟨by simp, List.nodup_singleton _⟩
  obtain ⟨table, a, -, -, hmeans, -⟩ :=
    filters_alike (σ := Scripted) o (.str "c") op hcall hnames
  obtain ⟨⟨command, -, -, hsends, -⟩, -⟩ := hmeans filter _ rfl
  have hone : ∃ c : Command, (op.request (.str "c") filter).Sends o c ∧
      c.text = "UPDATE t_c SET doc = (to_jsonb(doc) || CAST(%(doc)s AS JSONB)), " ++
        "v = %(meta_v)s, w = %(meta_w)s WHERE (id = %(a0)s AND v = %(a1)s)" ∧
      c.params.map Params.names = some ["a0", "a1", "doc", "meta_v", "meta_w"] :=
    ⟨_, ⟨_, rfl, .head _⟩, by decide +kernel, by decide +kernel⟩
  obtain ⟨c, hc, htext, hparams⟩ := hone
  obtain rfl := (hsends c).1 hc
  exact ⟨hcall, hnames, c, hsends, htext, hparams⟩

end Finding

end Docbase
